import OptionsApi.OptionsObject.Assemble
import OptionsApi.Proofs.Effect
import OptionsApi.Proofs.Tree.Members

/-! The shape of an options object. Whatever holds of the texts that are carried over from a component
holds of the texts in its tree, and the tree is an object literal inside the call of the factory. -/

set_option autoImplicit false

namespace OptionsApi

open Effect (Returns)

/-! The texts that get from a component into the generated code. -/

def DeclaredType.carried (type : Option DeclaredType) : List Text := (type.map (·.text)).toList

def PropField.carried (prop : PropField) : List Text :=
  prop.field.name :: DeclaredType.carried prop.field.type ++
    match prop.requirement with
    | .hasDefault entry => entry.initializer.toList
    | .required entry => [entry.text]
    | .notRequired => []

def Field.carried (field : Field) : List Text :=
  field.name :: DeclaredType.carried field.type ++ field.initializer.toList

/-- Of a setter's parameters the first counts; it also types the getter. -/
def Setter.carried (setter : Setter) : List Text :=
  setter.body ++
    match setter.parameters with
    | [] => []
    | parameter :: _ => parameter.text :: DeclaredType.carried parameter.type

def Accessors.carried (name : Text) (accessors : Accessors) : List Text :=
  match accessors.getter, accessors.setter with
  | some getter, some setter => name :: getter.body ++ setter.carried
  | some getter, none => name :: getter.body ++ DeclaredType.carried getter.returnType
  | none, _ => []

def Component.carried (component : Component) : List Text :=
  component.decoratorOptions.map (·.text) ++ component.props.flatMap PropField.carried ++
    component.data.flatMap Field.carried ++
    component.computed.flatMap fun (name, accessors) => accessors.carried name

def carriedDocLines (docs : List DocBlock) : List Text :=
  (description? docs).toList.flatMap Text.lines

def Component.docLines (component : Component) : List Text :=
  component.props.flatMap (fun prop => carriedDocLines prop.field.docs) ++
    component.data.flatMap fun field => carriedDocLines field.docs

/-- A word of letters: the generated code has no other words of its own. -/
def isPlainWord (text : Text) : Bool := !text.isEmpty && text.all Char.isAlpha

/-- What is asked of the texts of the settings and of the own words of the generated code. -/
structure Settings.Suits (settings : Settings) (clean : Text → Prop) : Prop where
  word : ∀ word, isPlainWord word = true → clean word
  fallback : clean settings.fallbackReturnType
  cast : ∀ type, clean type → clean (settings.propTypeName ++ "<" ++ Text.trim type ++ ">")

section
variable {settings : Settings} {clean docLine : Text → Prop}

theorem Primitive.ofTypeText?_typeName (primitive : Primitive) :
    Primitive.ofTypeText? primitive.typeName = some primitive := by
  cases primitive <;> decide

theorem Primitive.isPlainWord_marker (primitive : Primitive) :
    isPlainWord primitive.marker = true := by
  cases primitive <;> decide

theorem Shape.isPlainWord_marker (shape : Shape) : isPlainWord shape.marker = true := by
  cases shape <;> decide

theorem Settings.Suits.property (suits : settings.Suits clean) {name : Text}
    (plain : isPlainWord name = true) {value : Node} (fits : value.IsValue clean docLine) :
    (Node.propertyAssignment name value none).IsMember clean docLine :=
  .property (suits.word name plain) fits (by simp)

theorem Node.IsMember.documentedBy {name : Text} {value : Node} {docs : List DocBlock}
    (named : clean name) (fits : value.IsValue clean docLine)
    (documented : ∀ line ∈ carriedDocLines docs, docLine line) :
    ((Node.propertyAssignment name value none).documentedBy docs).IsMember clean docLine := by
  unfold Node.documentedBy
  split
  next comment described =>
    refine .property named fits ?_
    intro doc same line member
    cases same
    exact documented line (by simpa [carriedDocLines, described] using member)
  next => exact .property named fits (by simp)

/-! Props. -/

theorem PropField.typeEntry_isMember (suits : settings.Suits clean) {prop : PropField}
    (carried : ∀ text ∈ DeclaredType.carried prop.field.type, clean text) {node : Node}
    (returns : Returns (prop.typeEntry settings) node) : node.IsMember clean docLine := by
  obtain ⟨type, resolved, returns⟩ := returns.bind
  split at returns
  next primitive known =>
    rw [returns.pure_eq]
    exact suits.property (by decide) (.identifier (suits.word _ primitive.isPlainWord_marker))
  next unknown =>
    obtain ⟨_, _, returns⟩ := returns.bind
    obtain ⟨_, _, returns⟩ := returns.bind
    rw [returns.pure_eq]
    -- A type that was inferred is primitive, so the type that is cast to was declared.
    have declared : clean type.text := by
      unfold PropField.resolveType at resolved
      split at resolved
      next written given =>
        rw [resolved.pure_eq]
        exact carried _ (by simp [DeclaredType.carried, given])
      next primitive _ _ =>
        obtain ⟨_, _, resolved⟩ := resolved.bind
        rw [resolved.pure_eq, Primitive.ofTypeText?_typeName] at unknown
        cases unknown
      next => exact absurd resolved Returns.not_throw
    exact suits.property (by decide)
      (.cast (suits.word _ (Shape.isPlainWord_marker _)) (suits.cast _ declared))

theorem returns_behind_report {reports : Bool} {diagnostic : Diagnostic} {rest : PUnit → Build Node}
    {node : Node}
    (returns : Returns (if reports = true then Build.diagnose diagnostic >>= rest else rest ()) node) :
    Returns (rest ()) node := by
  split at returns
  · obtain ⟨_, _, returns⟩ := returns.bind
    exact returns
  · exact returns

theorem PropField.requirementEntry_isMember (suits : settings.Suits clean) {prop : PropField}
    (carried : ∀ text ∈ prop.carried, clean text) {node : Node}
    (returns : Returns prop.requirementEntry node) : node.IsMember clean docLine := by
  unfold PropField.requirementEntry at returns
  split at returns
  next entry given =>
    have entered := returns_behind_report returns
    split at entered
    next value initial =>
      rw [entered.pure_eq]
      exact suits.property (by decide)
        (.identifier (carried value (by simp [PropField.carried, given, initial])))
    next => exact absurd entered Returns.not_throw
  next entry given =>
    rw [returns.pure_eq]
    exact .raw (carried entry.text (by simp [PropField.carried, given])) (by simp)
  next =>
    rw [returns.pure_eq]
    exact suits.property (by decide) (.boolean false)

theorem PropField.convert_isMember (suits : settings.Suits clean) {prop : PropField}
    (carried : ∀ text ∈ prop.carried, clean text)
    (documented : ∀ line ∈ carriedDocLines prop.field.docs, docLine line) {node : Node}
    (returns : Returns (prop.convert settings) node) : node.IsMember clean docLine := by
  obtain ⟨type, typed, returns⟩ := returns.bind
  obtain ⟨requirement, required, returns⟩ := returns.bind
  rw [returns.pure_eq]
  refine .documentedBy (carried _ (by simp [PropField.carried])) (.object ?_) documented
  intro member inside
  simp only [List.mem_cons, List.not_mem_nil, or_false] at inside
  rcases inside with rfl | rfl
  · exact PropField.typeEntry_isMember suits
      (fun text member => carried text (by simp [PropField.carried, member])) typed
  · exact PropField.requirementEntry_isMember suits carried required

/-! Data. -/

theorem Field.convert_isMember {field : Field} (carried : ∀ text ∈ field.carried, clean text)
    (documented : ∀ line ∈ carriedDocLines field.docs, docLine line) {node : Node}
    (returns : Returns field.convert node) : node.IsMember clean docLine := by
  unfold Field.convert at returns
  split at returns
  next => exact absurd returns Returns.not_throw
  next value initial =>
    rw [returns.pure_eq]
    have named : clean field.name := carried _ (by simp [Field.carried])
    have valued : clean value := carried _ (by simp [Field.carried, initial])
    refine .documentedBy named ?_ documented
    split
    next type given =>
      exact .cast valued (carried _ (by simp [Field.carried, DeclaredType.carried, given]))
    next => exact .identifier valued

/-! Computed properties. -/

theorem bodyStatements_isStatement {body : List Text} (carried : ∀ text ∈ body, clean text) :
    ∀ statement ∈ bodyStatements body, statement.IsStatement clean docLine := by
  intro statement member
  obtain ⟨text, inside, rfl⟩ := List.mem_map.mp member
  exact .carried (carried text inside)

theorem clean_of_returnTypeOr (suits : settings.Suits clean) {type : Option DeclaredType}
    (carried : ∀ text ∈ DeclaredType.carried type, clean text) {diagnostic : Diagnostic} {text : Text}
    (returns : Returns (returnTypeOr settings type diagnostic) text) : clean text := by
  unfold returnTypeOr at returns
  split at returns
  next declared =>
    rw [returns.pure_eq]
    exact carried _ (by simp [DeclaredType.carried])
  next =>
    obtain ⟨_, _, returns⟩ := returns.bind
    rw [returns.pure_eq]
    exact suits.fallback

theorem accessor_isMember {name : Text} (named : clean name) {parameters : List Text}
    (parameterized : ∀ parameter ∈ parameters, clean parameter) {returnType : Option Text}
    (typed : ∀ type ∈ returnType, clean type) {body : List Text}
    (carried : ∀ text ∈ body, clean text) :
    (Node.methodDeclaration name parameters returnType (bodyStatements body) none).IsMember
      clean docLine :=
  .method named parameterized typed (bodyStatements_isStatement carried) (by simp)

theorem Getter.convert_isMember (suits : settings.Suits clean) {name : Text} {getter : Getter}
    (named : clean name) (stated : ∀ text ∈ getter.body, clean text)
    (typed : ∀ text ∈ DeclaredType.carried getter.returnType, clean text) {node : Node}
    (returns : Returns (getter.convert settings name) node) : node.IsMember clean docLine := by
  obtain ⟨type, resolved, returns⟩ := returns.bind
  rw [returns.pure_eq]
  have known : clean type := clean_of_returnTypeOr suits typed resolved
  exact accessor_isMember named (by simp) (by simpa using known) stated

theorem convertPair_isMember (suits : settings.Suits clean) {name : Text} {getter : Getter}
    {setter : Setter} (named : clean name) (stated : ∀ text ∈ getter.body, clean text)
    (carried : ∀ text ∈ setter.carried, clean text) {node : Node}
    (returns : Returns (convertPair settings name getter setter) node) :
    node.IsMember clean docLine := by
  unfold convertPair at returns
  split at returns
  next => exact absurd returns Returns.not_throw
  next parameter others given =>
    obtain ⟨type, resolved, returns⟩ := returns.bind
    rw [returns.pure_eq]
    have known : clean type := clean_of_returnTypeOr suits
      (fun text member => carried text (by simp [Setter.carried, given, member])) resolved
    have taken : clean parameter.text := carried _ (by simp [Setter.carried, given])
    refine .property named (.object ?_) (by simp)
    intro member inside
    simp only [List.mem_cons, List.not_mem_nil, or_false] at inside
    rcases inside with rfl | rfl
    · exact accessor_isMember (suits.word _ (by decide)) (by simp) (by simpa using known) stated
    · exact accessor_isMember (suits.word _ (by decide)) (by simpa using taken) (by simp)
        fun text member => carried text (by simp [Setter.carried, member])

theorem Accessors.convert_isMember (suits : settings.Suits clean) {name : Text}
    {accessors : Accessors} (carried : ∀ text ∈ accessors.carried name, clean text) {node : Node}
    (returns : Returns (accessors.convert settings name) (some node)) :
    node.IsMember clean docLine := by
  unfold Accessors.convert at returns
  split at returns
  next getter setter read write =>
    obtain ⟨member, converted, returns⟩ := returns.bind
    cases returns.pure_eq
    simp only [Accessors.carried, read, write] at carried
    exact convertPair_isMember suits (carried _ (by simp))
      (fun text member => carried text (by simp [member]))
      (fun text member => carried text (by simp [member])) converted
  next getter read write =>
    obtain ⟨member, converted, returns⟩ := returns.bind
    cases returns.pure_eq
    simp only [Accessors.carried, read, write] at carried
    exact Getter.convert_isMember suits (carried _ (by simp))
      (fun text member => carried text (by simp [member]))
      (fun text member => carried text (by simp [member])) converted
  next => exact absurd returns Returns.not_throw
  next => cases returns.pure_eq

/-! The whole component. -/

theorem isMember_of_unlessEmpty {α : Type} {members : List α} {option : List α → Build Node}
    (fits : ∀ node, Returns (option members) node → node.IsMember clean docLine)
    {nodes : List Node} (returns : Returns (unlessEmpty members option) nodes) :
    ∀ node ∈ nodes, node.IsMember clean docLine := by
  unfold unlessEmpty at returns
  split at returns
  · rw [returns.pure_eq]
    simp
  · obtain ⟨node, converted, returns⟩ := returns.bind
    rw [returns.pure_eq]
    simpa using fits node converted

theorem ClassHead.nameEntry_isMember (suits : settings.Suits clean) {head : ClassHead} {node : Node}
    (returns : Returns head.nameEntry node) : node.IsMember clean docLine := by
  obtain ⟨name, _, returns⟩ := returns.bind
  obtain ⟨_, _, returns⟩ := returns.bind
  rw [returns.pure_eq]
  exact suits.property (by decide) (.string name .single)

theorem copyDecoratorOptions_isMember {entries : List Entry}
    (carried : ∀ entry ∈ entries, clean entry.text) {nodes : List Node}
    (returns : Returns (copyDecoratorOptions entries) nodes) :
    ∀ node ∈ nodes, node.IsMember clean docLine := by
  have copied : nodes = entries.map fun entry => .rawElement entry.text none := by
    unfold copyDecoratorOptions at returns
    dsimp only at returns
    split at returns
    · obtain ⟨_, _, returns⟩ := returns.bind
      exact returns.pure_eq
    · exact returns.pure_eq
  rw [copied]
  intro node member
  obtain ⟨entry, inside, rfl⟩ := List.mem_map.mp member
  exact .raw (carried entry inside) (by simp)

theorem convertProps_isMember (suits : settings.Suits clean) {props : List PropField}
    (carried : ∀ prop ∈ props, ∀ text ∈ prop.carried, clean text)
    (documented : ∀ prop ∈ props, ∀ line ∈ carriedDocLines prop.field.docs, docLine line)
    {node : Node} (returns : Returns (convertProps settings props) node) :
    node.IsMember clean docLine := by
  obtain ⟨members, converted, returns⟩ := returns.bind
  rw [returns.pure_eq]
  refine suits.property (by decide) (.object ?_)
  intro member inside
  obtain ⟨prop, among, here⟩ := converted.mapM member inside
  exact PropField.convert_isMember suits (carried prop among) (documented prop among) here

theorem convertData_isMember (suits : settings.Suits clean) {fields : List Field}
    (carried : ∀ field ∈ fields, ∀ text ∈ field.carried, clean text)
    (documented : ∀ field ∈ fields, ∀ line ∈ carriedDocLines field.docs, docLine line)
    {node : Node} (returns : Returns (convertData fields) node) : node.IsMember clean docLine := by
  obtain ⟨members, converted, returns⟩ := returns.bind
  obtain ⟨_, _, returns⟩ := returns.bind
  rw [returns.pure_eq]
  refine .method (suits.word _ (by decide)) (by simp) (by simp) ?_ (by simp)
  intro statement only
  rw [List.mem_singleton.mp only]
  refine .returned (.object ?_)
  intro member inside
  obtain ⟨field, among, here⟩ := converted.mapM member inside
  exact Field.convert_isMember (carried field among) (documented field among) here

theorem convertComputed_isMember (suits : settings.Suits clean) {computed : List (Text × Accessors)}
    (carried : ∀ pair ∈ computed, ∀ text ∈ pair.2.carried pair.1, clean text) {node : Node}
    (returns : Returns (convertComputed settings computed) node) : node.IsMember clean docLine := by
  obtain ⟨members, converted, returns⟩ := returns.bind
  obtain ⟨_, _, returns⟩ := returns.bind
  rw [returns.pure_eq]
  refine suits.property (by decide) (.object ?_)
  intro member inside
  obtain ⟨found, among, same⟩ := List.mem_filterMap.mp inside
  obtain rfl : found = some member := same
  obtain ⟨pair, listed, here⟩ := converted.mapM _ among
  exact Accessors.convert_isMember suits (carried pair listed) here

/-- The tree of a component is a call of the factory with one object. -/
theorem Component.assemble_isValue {component : Component} (suits : settings.Suits clean)
    (carried : ∀ text ∈ component.carried, clean text)
    (documented : ∀ line ∈ component.docLines, docLine line) {tree : Node}
    (returns : Returns (component.assemble settings) tree) :
    ∃ options, tree = .callExpression settings.factory [options] ∧
      options.IsValue clean docLine := by
  obtain ⟨name, named, returns⟩ := returns.bind
  obtain ⟨copied, copies, returns⟩ := returns.bind
  obtain ⟨props, propped, returns⟩ := returns.bind
  obtain ⟨data, dated, returns⟩ := returns.bind
  obtain ⟨computed, calculated, returns⟩ := returns.bind
  refine ⟨_, returns.pure_eq, .object ?_⟩
  simp only [Component.carried, List.mem_append, List.mem_flatMap, List.mem_map] at carried
  simp only [Component.docLines, List.mem_append, List.mem_flatMap] at documented
  simp only [List.mem_append, List.mem_cons]
  rintro member ((((rfl | inside) | inside) | inside) | inside)
  · exact ClassHead.nameEntry_isMember suits named
  · exact copyDecoratorOptions_isMember
      (fun entry among => carried _ (.inl (.inl (.inl ⟨entry, among, rfl⟩)))) copies _ inside
  · exact isMember_of_unlessEmpty (fun _ => convertProps_isMember suits
      (fun prop among text shown => carried _ (.inl (.inl (.inr ⟨prop, among, shown⟩))))
      fun prop among line shown => documented _ (.inl ⟨prop, among, shown⟩)) propped _ inside
  · exact isMember_of_unlessEmpty (fun _ => convertData_isMember suits
      (fun field among text shown => carried _ (.inl (.inr ⟨field, among, shown⟩)))
      fun field among line shown => documented _ (.inr ⟨field, among, shown⟩)) dated _ inside
  · exact isMember_of_unlessEmpty (fun _ => convertComputed_isMember suits
      fun pair among text shown => carried _ (.inr ⟨pair, among, shown⟩)) calculated _ inside

end

def Component.tree (settings : Settings) (component : Component) : Except Refusal Node :=
  ((component.assemble settings).run.run {}).1

theorem Component.returns_of_tree {settings : Settings} {component : Component} {tree : Node}
    (built : component.tree settings = .ok tree) :
    Returns (component.assemble settings) tree :=
  ⟨{}, ((component.assemble settings).run.run {}).2, Prod.ext built rfl⟩

theorem Component.name_of_assemble {settings : Settings} {component : Component} {tree : Node}
    (returns : Returns (component.assemble settings) tree) :
    ∃ name, component.head.requireName = pure name := by
  obtain ⟨entry, named, _⟩ := returns.bind
  obtain ⟨name, required, _⟩ := named.bind
  unfold ClassHead.requireName at required ⊢
  split at required
  next c rest _ => exact ⟨c :: rest, rfl⟩
  next => exact absurd required Returns.not_throw

end OptionsApi
