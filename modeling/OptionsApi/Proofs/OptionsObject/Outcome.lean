import OptionsApi.OptionsObject.Assemble
import OptionsApi.Proofs.OptionsObject.Contract

/-! What the parts of a component come to. Of each part it is said what it lacks, what the reader of
the generated code is told about it, which import it needs and what it becomes; each conversion meets
what is said of its part, and so does the assembly of the whole. -/

set_option autoImplicit false

namespace OptionsApi

open Build (Meets)

/-! The class and the options of its decorator. -/

def ClassHead.violations (head : ClassHead) : List Violation :=
  if (head.name.getD []).isEmpty then [⟨.namelessClass, ⟨head.file, head.line⟩⟩] else []

theorem ClassHead.requireName_meets (head : ClassHead) :
    Meets head.violations [] [] (fun name => head.name = some name) head.requireName := by
  unfold ClassHead.requireName
  split
  next c rest named =>
    have fine : head.violations = [] := by simp [ClassHead.violations, named]
    rw [fine]
    exact .pure named
  next nameless =>
    have empty : (head.name.getD []).isEmpty = true := by
      cases named : head.name with
      | none => rfl
      | some name =>
        cases name with
        | nil => rfl
        | cons c rest => exact absurd named (nameless c rest)
    rw [ClassHead.violations, if_pos empty]
    exact .refuse _ _ _ _ _

theorem ClassHead.nameEntry_meets (head : ClassHead) :
    Meets head.violations [] []
      (fun node => ∃ name, head.name = some name ∧
        node = .propertyAssignment "name" (.stringLiteral name .single) none)
      head.nameEntry :=
  head.requireName_meets.bind_quiet fun name named =>
    (Meets.note _).bind_quiet fun _ _ => .pure ⟨name, named, rfl⟩

theorem copyDecoratorOptions_meets (entries : List Entry) :
    Meets [] [] [] (· = entries.map fun entry => Node.rawElement entry.text none)
      (copyDecoratorOptions entries) := by
  unfold copyDecoratorOptions
  dsimp only
  split
  · exact (Meets.note _).bind fun _ _ => .pure rfl
  · exact .pure rfl

/-! Documentation. -/

/-- The documentation holds the lines of the description in the first block; there is none if that has
no description, or an empty one. -/
def Documents (docs : List DocBlock) (doc : Option DocComment) : Prop :=
  ∀ lines, doc = some ⟨lines⟩ ↔
    ∃ block comment, docs.head? = some block ∧ block.comment = some comment ∧ comment ≠ [] ∧
      lines = Text.lines comment

theorem documents_description (docs : List DocBlock) :
    Documents docs ((description? docs).map fun comment => ⟨Text.lines comment⟩) := by
  intro lines
  simp only [description?, Option.map_eq_some_iff, Option.filter_eq_some_iff, Option.bind_eq_some_iff,
    DocComment.mk.injEq]
  constructor
  · rintro ⟨comment, ⟨⟨block, first, described⟩, written⟩, rfl⟩
    exact ⟨block, comment, first, described, by simpa using written, rfl⟩
  · rintro ⟨block, comment, first, described, written, rfl⟩
    exact ⟨comment, ⟨⟨block, first, described⟩, by simpa using written⟩, rfl⟩

theorem Node.documentedBy_eq (docs : List DocBlock) (name : Text) (initial : Node) :
    (Node.propertyAssignment name initial none).documentedBy docs =
      .propertyAssignment name initial ((description? docs).map fun comment => ⟨Text.lines comment⟩) := by
  unfold Node.documentedBy
  cases description? docs <;> rfl

/-! Props. -/

/-- The type of a prop: as declared, or else that of its initial value, or else that of its default. -/
def PropField.type? (prop : PropField) : Option DeclaredType :=
  prop.field.type.or (prop.inferredType?.map fun primitive => ⟨primitive.typeName, none⟩)

def PropField.typeViolations (prop : PropField) : List Violation :=
  if prop.type?.isNone then [⟨.untypedProp prop.field.name, ⟨none, prop.field.line⟩⟩] else []

def PropField.defaultViolations (prop : PropField) : List Violation :=
  (prop.defaultEntry.toList.filter (·.initializer.isNone)).map fun entry =>
    ⟨.entryWithoutInitializer entry.name, ⟨none, entry.line⟩⟩

def PropField.violations (prop : PropField) : List Violation :=
  prop.typeViolations ++ prop.defaultViolations

def PropField.followUps (prop : PropField) : List Diagnostic :=
  if prop.defaultEntry.isSome && prop.requiredEntry.isSome then [requiredDropped prop.field.name]
  else []

def DeclaredType.isPrimitive (type : DeclaredType) : Bool := (Primitive.ofTypeText? type.text).isSome

def PropField.requests (settings : Settings) (prop : PropField) : List (Text × Text) :=
  if prop.type?.all (·.isPrimitive) then [] else [(settings.propTypeModule, settings.propTypeName)]

inductive PropField.IsTypeEntry (settings : Settings) (prop : PropField) : Node → Prop where
  | marker {type : DeclaredType} {primitive : Primitive} : prop.type? = some type →
      Primitive.ofTypeText? type.text = some primitive →
      IsTypeEntry settings prop (.propertyAssignment "type" (.identifier primitive.marker) none)
  | cast {type : DeclaredType} : prop.type? = some type → type.isPrimitive = false →
      IsTypeEntry settings prop
        (.propertyAssignment "type"
          (.asExpression (.identifier type.shape.marker)
            (settings.propTypeName ++ "<" ++ Text.trim type.text ++ ">")) none)

inductive PropField.IsRequirementEntry (prop : PropField) : Node → Prop where
  | hasDefault {entry : Entry} {value : Text} : prop.defaultEntry = some entry →
      entry.initializer = some value →
      IsRequirementEntry prop (.propertyAssignment "default" (.identifier value) none)
  | required {entry : Entry} : prop.defaultEntry = none → prop.requiredEntry = some entry →
      IsRequirementEntry prop (.rawElement entry.text none)
  | notRequired : prop.defaultEntry = none → prop.requiredEntry = none →
      IsRequirementEntry prop (.propertyAssignment "required" (.booleanLiteral false) none)

inductive PropField.Becomes (settings : Settings) (prop : PropField) : Node → Prop where
  | entry {type requirement : Node} {doc : Option DocComment} : prop.IsTypeEntry settings type →
      prop.IsRequirementEntry requirement → Documents prop.field.docs doc →
      Becomes settings prop
        (.propertyAssignment prop.field.name (.objectLiteral [type, requirement]) doc)

theorem PropField.resolveType_meets (prop : PropField) :
    Meets prop.typeViolations [] [] (prop.type? = some ·) prop.resolveType := by
  unfold PropField.resolveType
  split
  next type declared =>
    have resolved : prop.type? = some type := by simp [PropField.type?, declared]
    rw [PropField.typeViolations, resolved]
    exact .pure rfl
  next primitive undeclared inferred =>
    have resolved : prop.type? = some ⟨primitive.typeName, none⟩ := by
      simp [PropField.type?, undeclared, inferred]
    rw [PropField.typeViolations, resolved]
    exact (Meets.note _).bind_quiet fun _ _ => .pure rfl
  next undeclared unknown =>
    have unresolved : prop.type? = none := by simp [PropField.type?, undeclared, unknown]
    rw [PropField.typeViolations, unresolved]
    exact .refuse _ _ _ _ _

-- The cast is chosen by the type that was resolved, so its import is requested behind any refusal.
theorem PropField.typeEntry_meets (settings : Settings) (prop : PropField) :
    Meets prop.typeViolations [] (prop.requests settings) (prop.IsTypeEntry settings)
      (prop.typeEntry settings) := by
  rw [← List.append_nil prop.typeViolations, ← List.nil_append (prop.requests settings)]
  refine prop.resolveType_meets.bind fun type resolved => ?_
  split
  next primitive known =>
    have unrequested : prop.requests settings = [] := by
      simp [PropField.requests, resolved, DeclaredType.isPrimitive, known]
    rw [unrequested]
    exact .pure (.marker resolved known)
  next unknown =>
    have rich : type.isPrimitive = false := by simp [DeclaredType.isPrimitive, unknown]
    have one : prop.requests settings = [(settings.propTypeModule, settings.propTypeName)] := by
      simp [PropField.requests, resolved, rich]
    rw [one]
    exact (Meets.requireImport _ _).bind_quiet fun _ _ =>
      (Meets.note _).bind_quiet fun _ _ => .pure (.cast resolved rich)

theorem PropField.given_of_hasDefault {prop : PropField} {entry : Entry}
    (classified : prop.requirement = .hasDefault entry) : prop.defaultEntry = some entry := by
  unfold PropField.requirement at classified
  split at classified <;> simp_all

theorem PropField.given_of_required {prop : PropField} {entry : Entry}
    (classified : prop.requirement = .required entry) :
    prop.defaultEntry = none ∧ prop.requiredEntry = some entry := by
  unfold PropField.requirement at classified
  split at classified <;> simp_all

theorem PropField.absent_of_notRequired {prop : PropField}
    (classified : prop.requirement = .notRequired) :
    prop.defaultEntry = none ∧ prop.requiredEntry = none := by
  unfold PropField.requirement at classified
  split at classified <;> simp_all

theorem PropField.requirementEntry_meets (prop : PropField) :
    Meets prop.defaultViolations prop.followUps [] prop.IsRequirementEntry prop.requirementEntry := by
  unfold PropField.requirementEntry
  split
  next entry classified =>
    have given := PropField.given_of_hasDefault classified
    have reported : prop.followUps = (if prop.requiredEntry.isSome then
        [requiredDropped prop.field.name] else []) ++ [] := by
      simp [PropField.followUps, given]
    -- The report comes before the value is looked for, so it is made even if there is none.
    rw [reported, PropField.defaultViolations, given]
    refine Meets.behind_report ?_ _ _
    split
    next value initial =>
      rw [Option.toList_some, List.filter_singleton, initial]
      exact .pure (.hasDefault given initial)
    next missing =>
      rw [Option.toList_some, List.filter_singleton, missing]
      exact .refuse _ _ _ _ _
  next entry classified =>
    obtain ⟨absent, given⟩ := PropField.given_of_required classified
    have silent : prop.followUps = [] := by simp [PropField.followUps, absent]
    rw [PropField.defaultViolations, absent, silent]
    exact .pure (.required absent given)
  next classified =>
    obtain ⟨absent, absentToo⟩ := PropField.absent_of_notRequired classified
    have silent : prop.followUps = [] := by simp [PropField.followUps, absent]
    rw [PropField.defaultViolations, absent, silent]
    exact .pure (.notRequired absent absentToo)

theorem PropField.convert_meets (settings : Settings) (prop : PropField) :
    Meets prop.violations prop.followUps (prop.requests settings) (prop.Becomes settings)
      (prop.convert settings) := by
  rw [← List.append_nil (prop.requests settings)]
  refine (prop.typeEntry_meets settings).bind fun type typed =>
    prop.requirementEntry_meets.bind_quiet fun requirement required => .pure ?_
  rw [Node.documentedBy_eq]
  exact .entry typed required (documents_description _)

theorem convertProps_meets (settings : Settings) (props : List PropField) :
    Meets (props.flatMap PropField.violations) (props.flatMap PropField.followUps)
      (props.flatMap (·.requests settings))
      (fun node => ∃ entries, List.Forall₂ (PropField.Becomes settings) props entries ∧
        node = .propertyAssignment "props" (.objectLiteral entries) none)
      (convertProps settings props) :=
  (Meets.mapM (PropField.convert_meets settings) props).bind_quiet fun entries converted =>
    .pure ⟨entries, converted, rfl⟩

/-! Data. -/

def Field.violations (field : Field) : List Violation :=
  if field.initializer.isNone then [⟨.dataWithoutValue field.name, ⟨none, field.line⟩⟩] else []

inductive Field.Becomes (field : Field) : Node → Prop where
  | untyped {value : Text} {doc : Option DocComment} : field.initializer = some value →
      field.type = none → Documents field.docs doc →
      Becomes field (.propertyAssignment field.name (.identifier value) doc)
  | typed {value : Text} {type : DeclaredType} {doc : Option DocComment} :
      field.initializer = some value → field.type = some type → Documents field.docs doc →
      Becomes field (.propertyAssignment field.name (.asExpression (.identifier value) type.text) doc)

theorem Field.convert_meets (field : Field) :
    Meets field.violations [] [] field.Becomes field.convert := by
  unfold Field.convert
  split
  next missing =>
    rw [Field.violations, missing]
    exact .refuse _ _ _ _ _
  next value initial =>
    rw [Field.violations, initial]
    refine .pure ?_
    rw [Node.documentedBy_eq]
    split
    next type declared => exact .typed initial declared (documents_description _)
    next undeclared => exact .untyped initial undeclared (documents_description _)

theorem convertData_meets (fields : List Field) :
    Meets (fields.flatMap Field.violations) [] []
      (fun node => ∃ entries, List.Forall₂ Field.Becomes fields entries ∧
        node = .methodDeclaration "data" [] none
          [.returnStatement (some (.objectLiteral entries))] none)
      (convertData fields) := by
  have converted := Meets.mapM Field.convert_meets fields
  -- No field reports anything or needs an import.
  rw [List.flatMap_eq_nil_iff.mpr fun _ _ => rfl, List.flatMap_eq_nil_iff.mpr fun _ _ => rfl] at converted
  exact converted.bind_quiet fun entries becomes =>
    (Meets.note _).bind_quiet fun _ _ => .pure ⟨entries, becomes, rfl⟩

/-! Computed properties. -/

/-- The type that is given for what a getter returns: a setter beside it decides by its first
parameter. -/
def Accessors.givenType (accessors : Accessors) : Option DeclaredType :=
  match accessors.setter with
  | none => accessors.getter.bind (·.returnType)
  | some setter => setter.parameters.head?.bind (·.type)

def Accessors.violations (name : Text) (accessors : Accessors) : List Violation :=
  match accessors.getter, accessors.setter with
  | none, some setter => [⟨.setterWithoutGetter name, ⟨none, setter.line⟩⟩]
  | some _, some setter =>
    if setter.parameters.isEmpty then [⟨.setterWithoutParameter name, ⟨none, setter.line⟩⟩] else []
  | _, none => []

/-- What is told about a property whose getter has no type: it is alone and declares none, or the
first parameter of the setter beside it declares none. -/
def Accessors.followUps (name : Text) (accessors : Accessors) : List Diagnostic :=
  match accessors.getter, accessors.setter with
  | some getter, none =>
    if getter.returnType.isNone then
      [⟨.manualReturnType, name, "Computed getter 「" ++ name ++ "」 will require a manual return type."⟩]
    else []
  | some _, some setter =>
    if setter.parameters.head?.any (·.type.isNone) then
      [⟨.manualReturnType, name,
        "Computed getter for 「" ++ name ++ "」 will require a manual return type."⟩]
    else []
  | none, _ => []

def DeclaredType.textOr (fallback : Text) (type : Option DeclaredType) : Text :=
  (type.map (·.text)).getD fallback

inductive Accessors.Becomes (settings : Settings) (name : Text) (accessors : Accessors) : Node → Prop where
  | method {getter : Getter} : accessors.getter = some getter → accessors.setter = none →
      Becomes settings name accessors
        (.methodDeclaration name []
          (some (DeclaredType.textOr settings.fallbackReturnType accessors.givenType))
          (getter.body.map .opaqueStatement) none)
  | pair {getter : Getter} {setter : Setter} {parameter : Parameter} {others : List Parameter} :
      accessors.getter = some getter → accessors.setter = some setter →
      setter.parameters = parameter :: others →
      Becomes settings name accessors
        (.propertyAssignment name
          (.objectLiteral [
            .methodDeclaration "get" []
              (some (DeclaredType.textOr settings.fallbackReturnType accessors.givenType))
              (getter.body.map .opaqueStatement) none,
            .methodDeclaration "set" [parameter.text] none (setter.body.map .opaqueStatement) none])
          none)

theorem returnTypeOr_meets (settings : Settings) (type : Option DeclaredType)
    (diagnostic : Diagnostic) :
    Meets [] (if type.isNone then [diagnostic] else []) []
      (· = DeclaredType.textOr settings.fallbackReturnType type)
      (returnTypeOr settings type diagnostic) := by
  unfold returnTypeOr
  cases type with
  | some type => exact .pure rfl
  | none => exact (Meets.diagnose diagnostic).bind_quiet fun _ _ => .pure rfl

theorem Getter.convert_meets (settings : Settings) (name : Text) {accessors : Accessors}
    {getter : Getter} (read : accessors.getter = some getter) (alone : accessors.setter = none) :
    Meets [] (accessors.followUps name) [] (accessors.Becomes settings name)
      (getter.convert settings name) := by
  have given : accessors.givenType = getter.returnType := by simp [Accessors.givenType, alone, read]
  have typed := returnTypeOr_meets settings getter.returnType
    (manualReturnType name ("Computed getter 「" ++ name ++ "」 will require a manual return type."))
  rw [Accessors.followUps, read, alone]
  refine typed.bind_quiet fun type known => .pure ?_
  rw [known, ← given]
  exact .method read alone

theorem convertPair_meets (settings : Settings) (name : Text) {accessors : Accessors}
    {getter : Getter} {setter : Setter} (read : accessors.getter = some getter)
    (write : accessors.setter = some setter) :
    Meets (accessors.violations name) (accessors.followUps name) [] (accessors.Becomes settings name)
      (convertPair settings name getter setter) := by
  unfold convertPair
  split
  next missing =>
    rw [Accessors.violations, Accessors.followUps, read, write]
    dsimp only
    rw [missing]
    exact .refuse _ _ _ _ _
  next parameter others taken =>
    have given : accessors.givenType = parameter.type := by
      simp [Accessors.givenType, write, taken]
    have typed := returnTypeOr_meets settings parameter.type
      (manualReturnType name
        ("Computed getter for 「" ++ name ++ "」 will require a manual return type."))
    rw [Accessors.violations, Accessors.followUps, read, write]
    dsimp only
    rw [taken]
    refine typed.bind_quiet fun type known => .pure ?_
    rw [known, ← given]
    exact .pair read write taken

inductive Accessors.Yields (settings : Settings) (name : Text) (accessors : Accessors) :
    Option Node → Prop where
  | nothing : accessors.getter = none → Yields settings name accessors none
  | member {node : Node} : accessors.Becomes settings name node →
      Yields settings name accessors (some node)

theorem Accessors.convert_meets (settings : Settings) (name : Text) (accessors : Accessors) :
    Meets (accessors.violations name) (accessors.followUps name) [] (accessors.Yields settings name)
      (accessors.convert settings name) := by
  unfold Accessors.convert
  split
  next getter setter read write =>
    exact (convertPair_meets settings name read write).bind_quiet fun _ becomes => .pure (.member becomes)
  next getter read write =>
    have fine : accessors.violations name = [] := by rw [Accessors.violations, read, write]
    rw [fine]
    exact (Getter.convert_meets settings name read write).bind_quiet fun _ becomes =>
      .pure (.member becomes)
  next setter read write =>
    rw [Accessors.violations, Accessors.followUps, read, write]
    exact .refuse _ _ _ _ _
  next read write =>
    rw [Accessors.violations, Accessors.followUps, read, write]
    exact .pure (.nothing read)

theorem Accessors.Becomes.isSome_getter {settings : Settings} {name : Text} {accessors : Accessors}
    {node : Node} (becomes : accessors.Becomes settings name node) : accessors.getter.isSome := by
  cases becomes with
  | method read _ => rw [read]; rfl
  | pair read _ _ => rw [read]; rfl

theorem forall₂_becomes_of_yields {settings : Settings} {computed : List (Text × Accessors)}
    {members : List (Option Node)}
    (yields : List.Forall₂ (fun pair => pair.2.Yields settings pair.1) computed members) :
    List.Forall₂ (fun pair => pair.2.Becomes settings pair.1)
      (computed.filter (·.2.getter.isSome)) (members.filterMap id) := by
  induction yields with
  | nil => exact .nil
  | cons first _ ih =>
    cases first with
    | nothing unread => simpa [unread] using ih
    | member becomes => simpa [becomes.isSome_getter] using ⟨becomes, ih⟩

theorem convertComputed_meets (settings : Settings) (computed : List (Text × Accessors)) :
    Meets (computed.flatMap fun pair => pair.2.violations pair.1)
      (computed.flatMap fun pair => pair.2.followUps pair.1) []
      (fun node => ∃ entries,
        List.Forall₂ (fun pair => pair.2.Becomes settings pair.1)
          (computed.filter (·.2.getter.isSome)) entries ∧
        node = .propertyAssignment "computed" (.objectLiteral entries) none)
      (convertComputed settings computed) := by
  have converted := Meets.mapM (fun pair => Accessors.convert_meets settings pair.1 pair.2) computed
  rw [List.flatMap_eq_nil_iff.mpr fun _ _ => rfl] at converted
  exact converted.bind_quiet fun members yields =>
    (Meets.note _).bind_quiet fun _ _ => .pure ⟨_, forall₂_becomes_of_yields yields, rfl⟩

/-! The whole component. -/

/-- Everything a component lacks: its name, then what its props, its data and its accessors lack. -/
def Component.violations (component : Component) : List Violation :=
  component.head.violations ++ component.props.flatMap PropField.violations ++
    component.data.flatMap Field.violations ++
    component.computed.flatMap fun (name, accessors) => accessors.violations name

def Component.followUps (component : Component) : List Diagnostic :=
  component.props.flatMap PropField.followUps ++
    component.computed.flatMap fun (name, accessors) => accessors.followUps name

def Component.requests (settings : Settings) (component : Component) : List (Text × Text) :=
  component.props.flatMap (·.requests settings)

def optionFor {α : Type} (members : List α) (option : Node) : List Node :=
  if members.isEmpty then [] else [option]

/-- What a component becomes: a call of the factory with one object. Its members are the name, the
options of the decorator and an option for each category of members. -/
inductive Component.Becomes (settings : Settings) (component : Component) : Node → Prop where
  | options {name : Text} {props data computed : List Node} : component.head.name = some name →
      List.Forall₂ (PropField.Becomes settings) component.props props →
      List.Forall₂ Field.Becomes component.data data →
      List.Forall₂ (fun pair => pair.2.Becomes settings pair.1)
        (component.computed.filter (·.2.getter.isSome)) computed →
      Becomes settings component (.callExpression settings.factory [.objectLiteral (
        .propertyAssignment "name" (.stringLiteral name .single) none ::
        component.decoratorOptions.map (fun entry => .rawElement entry.text none) ++
        optionFor component.props (.propertyAssignment "props" (.objectLiteral props) none) ++
        optionFor component.data (.methodDeclaration "data" [] none
          [.returnStatement (some (.objectLiteral data))] none) ++
        optionFor component.computed
          (.propertyAssignment "computed" (.objectLiteral computed) none))])

theorem unlessEmpty_meets {α : Type} {members : List α} {option : List α → Build Node}
    {violations : List Violation} {reports : List Diagnostic} {requests : List (Text × Text)}
    {post : List Node → Prop} {wrap : List Node → Node}
    (meets : Meets violations reports requests (fun node => ∃ entries, post entries ∧ node = wrap entries)
      (option members))
    (nothing : members = [] → violations = [] ∧ reports = [] ∧ requests = [] ∧ post []) :
    Meets violations reports requests
      (fun nodes => ∃ entries, post entries ∧ nodes = optionFor members (wrap entries))
      (unlessEmpty members option) := by
  unfold unlessEmpty
  split
  next empty =>
    obtain ⟨rfl, rfl, rfl, holds⟩ := nothing (List.isEmpty_iff.mp empty)
    exact .pure ⟨[], holds, by rw [optionFor, if_pos empty]⟩
  next filled =>
    refine meets.bind_quiet fun node made => .pure ?_
    obtain ⟨entries, holds, rfl⟩ := made
    exact ⟨entries, holds, by rw [optionFor, if_neg filled]⟩

theorem Component.assemble_meets (settings : Settings) (component : Component) :
    Meets component.violations component.followUps (component.requests settings)
      (component.Becomes settings) (component.assemble settings) := by
  have props := unlessEmpty_meets (convertProps_meets settings component.props) fun empty => by
    rw [empty]
    exact ⟨rfl, rfl, rfl, .nil⟩
  have data := unlessEmpty_meets (convertData_meets component.data) fun empty => by
    rw [empty]
    exact ⟨rfl, rfl, rfl, .nil⟩
  have computed := unlessEmpty_meets (convertComputed_meets settings component.computed) fun empty => by
    rw [empty]
    exact ⟨rfl, rfl, rfl, .nil⟩
  -- What each step adds is spelled out on the right, so that the steps can be taken one by one.
  rw [Component.violations, List.append_assoc, List.append_assoc,
    ← List.append_nil (component.requests settings)]
  refine component.head.nameEntry_meets.bind fun name named => ?_
  refine (copyDecoratorOptions_meets component.decoratorOptions).bind fun copied copies => ?_
  refine props.bind fun propOptions madeProps => ?_
  refine data.bind fun dataOptions madeData => ?_
  refine computed.bind_quiet fun computedOptions madeComputed => .pure ?_
  obtain ⟨name, known, rfl⟩ := named
  obtain ⟨_, becomeProps, rfl⟩ := madeProps
  obtain ⟨_, becomeData, rfl⟩ := madeData
  obtain ⟨_, becomeComputed, rfl⟩ := madeComputed
  rw [copies]
  exact .options known becomeProps becomeData becomeComputed

end OptionsApi
