import OptionsApi.Proofs.Document.KeptLines
import OptionsApi.Proofs.OptionsObject.Outcome

/-! What a conversion reports. The diagnostics are raised while the tree is built and nothing later
raises any, so a conversion that fails has delivered the first of those that its component calls for, and
one that succeeds all of them. -/

set_option autoImplicit false

namespace OptionsApi

open Effect (Spares Follows Returns)

/-! Delivery. -/

namespace Action

theorem note_spares_diagnostics (message : Text) : Spares Session.diagnostics (note message) :=
  Spares.modify fun _ => rfl

theorem change_spares_diagnostics (edit : Document → Document) :
    Spares Session.diagnostics (change edit) :=
  Spares.modify fun _ => rfl

theorem format_spares_diagnostics (indent : Int) : Spares Session.diagnostics (format indent) := by
  unfold format
  split
  · exact change_spares_diagnostics _
  · exact Spares.throw _

theorem remove_spares_diagnostics (start stop : Int) :
    Spares Session.diagnostics (remove start stop) := by
  refine Spares.get.bind fun session => Spares.bind ?_ fun _ => note_spares_diagnostics _
  refine Spares.get.bind fun session => ?_
  split
  · exact Spares.modify fun _ => rfl
  · exact Spares.throw _

theorem register_spares_diagnostics (registration : Registration) (moduleName : Text)
    (names : List Text) : Spares Session.diagnostics (register registration moduleName names) := by
  cases registration with
  | record => exact Spares.modify fun _ => rfl
  | edit =>
    refine Spares.get.bind fun session => (change_spares_diagnostics _).bind fun _ => ?_
    split
    · exact Spares.pure _
    · exact note_spares_diagnostics _
    · exact note_spares_diagnostics _

end Action

def Component.named (settings : Settings) (component : Component) : Build (Node × Text) := do
  return (← component.assemble settings, ← component.head.requireName)

/-- The diagnostics in the journal of a new conversion are the first of those that are called for. -/
theorem Component.reported {settings : Settings} {component : Component}
    {outcome : Except Refusal (Node × Text)} {journal : Journal}
    (ran : (component.named settings).run.run {} = (outcome, journal)) :
    journal.diagnostics <+: component.followUps ∧
      ∀ value, outcome = .ok value → journal.diagnostics = component.followUps := by
  have reports : Follows Journal.delivered deliver component.followUps (component.named settings) := by
    -- Asking for the name again reports nothing.
    have whole := (component.assemble_meets settings).reports.bind fun tree _ =>
      component.head.requireName_meets.reports.bind fun name _ =>
        (Spares.pure (tree, name)).follows
    rwa [List.append_nil, List.append_nil] at whole
  obtain ⟨done, begun, acted, whole⟩ := reports {} outcome journal ran
  have taken : journal.delivered = some done := by
    rw [acted]
    exact foldl_deliver [] done
  have same : journal.diagnostics = done := by
    unfold Journal.delivered at taken
    split at taken
    · exact Option.some.inj taken
    · cases taken
  rw [same]
  exact ⟨begun, whole⟩

theorem Component.edits_report {settings : Settings} {registration : Registration}
    {component : Component} {expression name : Text} {journal : Journal} {session after : Session}
    {outcome : Except Failure Converted}
    (ran : (do
      Action.remove component.head.start component.head.stop
      Action.change (·.appendExport expression (classDocumentation? component.head.docs))
      journal.imports.forM fun wanted => Action.register registration wanted.1 wanted.2
      Action.format settings.indent
      Action.note ("Converted component " ++ name)
      return (⟨name, journal.diagnostics⟩ : Converted) : Action Converted).run.run session =
        (outcome, after)) :
    after.diagnostics = session.diagnostics ∧
      ∀ converted, outcome = .ok converted → converted.diagnostics = journal.diagnostics := by
  constructor
  · refine (Action.remove_spares_diagnostics _ _).bind (fun _ => ?_) _ _ _ ran
    refine (Action.change_spares_diagnostics _).bind fun _ => ?_
    refine Spares.bind (Spares.forM (fun _ => Action.register_spares_diagnostics _ _ _) _) fun _ => ?_
    refine (Action.format_spares_diagnostics _).bind fun _ => ?_
    exact (Action.note_spares_diagnostics _).bind fun _ => Spares.pure _
  · rintro converted rfl
    have returns : Returns _ converted := ⟨session, after, ran⟩
    obtain ⟨_, _, returns⟩ := returns.bind
    obtain ⟨_, _, returns⟩ := returns.bind
    obtain ⟨_, _, returns⟩ := returns.bind
    obtain ⟨_, _, returns⟩ := returns.bind
    obtain ⟨_, _, returns⟩ := returns.bind
    rw [returns.pure_eq]

theorem Component.replaceClass_reports {settings : Settings} {registration : Registration}
    {component : Component} {session after : Session} {outcome : Except Failure Converted}
    (ran : (component.replaceClass settings registration).run.run session = (outcome, after)) :
    ∃ delivered, after.diagnostics = session.diagnostics ++ delivered ∧
      delivered <+: component.followUps ∧
      ∀ converted, outcome = .ok converted →
        delivered = component.followUps ∧ converted.diagnostics = delivered := by
  cases assembled : (component.named settings).run.run {} with
  | mk result journal =>
    -- The journal is handed over whether or not there is a tree, and nothing is reported behind it.
    obtain ⟨begun, whole⟩ := Component.reported assembled
    refine ⟨journal.diagnostics, ?_⟩
    have started := Action.build_run (component.named settings) session
    rw [assembled, Component.named] at started
    rw [Component.replaceClass, Effect.run_bind, started] at ran
    cases result with
    | error error =>
      cases ran
      exact ⟨rfl, begun, fun _ => by simp⟩
    | ok value =>
      dsimp only at ran
      split at ran
      next failure _ =>
        cases ran
        exact ⟨rfl, begun, fun _ => by simp⟩
      next expression _ =>
        obtain ⟨kept, carried⟩ := Component.edits_report ran
        exact ⟨kept, begun, fun converted done => ⟨whole value rfl, carried converted done⟩⟩

/-! The return types of computed properties. -/

def Node.optionMembers (option : Text) : Node → List Node
  | .propertyAssignment name (.objectLiteral members) _ => if name = option then members else []
  | _ => []

def Node.membersOf (option : Text) : Node → List Node
  | .callExpression _ [.objectLiteral options] => options.flatMap (Node.optionMembers option)
  | _ => []

/-- The name of a computed property and the return type of its getter: its only method, or the first of
two. -/
def Node.getterType? : Node → Option (Text × Option Text)
  | .methodDeclaration name _ type _ _ => some (name, type)
  | .propertyAssignment name (.objectLiteral (.methodDeclaration _ _ type _ _ :: _)) _ =>
    some (name, type)
  | _ => none

def Node.getterTypes (tree : Node) : List (Text × Option Text) :=
  (tree.membersOf "computed").filterMap Node.getterType?

theorem flatMap_optionFor {α : Type} (members : List α) (option : Node) (pieces : Node → List Node) :
    (optionFor members option).flatMap pieces = if members.isEmpty then [] else pieces option := by
  unfold optionFor
  split <;> simp

theorem Component.Becomes.computed_members {settings : Settings} {component : Component} {tree : Node}
    (becomes : component.Becomes settings tree) :
    List.Forall₂ (fun pair => pair.2.Becomes settings pair.1)
      (component.computed.filter (·.2.getter.isSome)) (tree.membersOf "computed") := by
  cases becomes with
  | @options name props data computed named becomeProps becomeData becomeComputed =>
    have raw : (component.decoratorOptions.map fun entry => Node.rawElement entry.text none).flatMap
        (Node.optionMembers "computed") = [] := by
      simp [Node.optionMembers]
    have other : Node.optionMembers "computed"
        (.propertyAssignment "props" (.objectLiteral props) none) = [] := by
      rw [Node.optionMembers]
      exact if_neg (by decide)
    have own : Node.optionMembers "computed"
        (.propertyAssignment "computed" (.objectLiteral computed) none) = computed := by
      rw [Node.optionMembers]
      exact if_pos rfl
    -- The options of the decorator are raw, whatever their names, and the others have other names.
    rw [Node.membersOf]
    simp only [List.cons_append, List.flatMap_cons, List.flatMap_append, flatMap_optionFor, raw, other, own]
    cases given : component.computed with
    | nil => simp [Node.optionMembers]
    | cons pair rest => simpa [given, Node.optionMembers] using becomeComputed

theorem Accessors.Becomes.getterType?_eq {settings : Settings} {name : Text} {accessors : Accessors}
    {node : Node} (becomes : accessors.Becomes settings name node) :
    node.getterType? =
      some (name, some (DeclaredType.textOr settings.fallbackReturnType accessors.givenType)) := by
  cases becomes <;> rfl

theorem filterMap_getterType? {settings : Settings} {computed : List (Text × Accessors)}
    {members : List Node}
    (become : List.Forall₂ (fun pair => pair.2.Becomes settings pair.1) computed members) :
    members.filterMap Node.getterType? = computed.map fun pair =>
      (pair.1, some (DeclaredType.textOr settings.fallbackReturnType pair.2.givenType)) := by
  induction become with
  | nil => rfl
  | cons first _ ih => simp [first.getterType?_eq, ih]

theorem PropField.kind_of_mem_followUps {prop : PropField} {diagnostic : Diagnostic}
    (member : diagnostic ∈ prop.followUps) : diagnostic.kind = .requiredDropped := by
  unfold PropField.followUps at member
  split at member
  · rw [List.mem_singleton.mp member]
    rfl
  · cases member

theorem manual_subjects (missing : Bool) (name message : Text) :
    ((if missing then [manualReturnType name message] else []).filter
      (·.kind = .manualReturnType)).map (·.subject) = if missing then [name] else [] := by
  cases missing <;> rfl

theorem Accessors.manual_followUps {name : Text} {accessors : Accessors}
    (fine : accessors.violations name = []) :
    ((accessors.followUps name).filter (·.kind = .manualReturnType)).map (·.subject) =
      if accessors.getter.isSome && accessors.givenType.isNone then [name] else [] := by
  rw [Accessors.followUps]
  cases read : accessors.getter with
  | none => rfl
  | some getter =>
    cases write : accessors.setter with
    | none =>
      have given : accessors.givenType = getter.returnType := by
        simp [Accessors.givenType, read, write]
      rw [given]
      exact manual_subjects _ _ _
    | some setter =>
      cases taken : setter.parameters with
      | nil =>
        -- Here nothing would be told although no type is given, but the setter lacks its parameter.
        rw [Accessors.violations, read, write] at fine
        dsimp only at fine
        rw [taken] at fine
        cases fine
      | cons parameter others =>
        have given : accessors.givenType = parameter.type := by
          simp [Accessors.givenType, write, taken]
        rw [given]
        dsimp only
        rw [taken]
        exact manual_subjects _ _ _

theorem manual_followUps_of_computed {computed : List (Text × Accessors)}
    (fine : ∀ pair ∈ computed, pair.2.violations pair.1 = []) :
    ((computed.flatMap fun pair => pair.2.followUps pair.1).filter
      (·.kind = .manualReturnType)).map (·.subject) =
      ((computed.filter (·.2.getter.isSome)).filter (·.2.givenType.isNone)).map (·.1) := by
  induction computed with
  | nil => rfl
  | cons pair rest ih =>
    have own := Accessors.manual_followUps (fine pair List.mem_cons_self)
    have others := ih fun other member => fine other (List.mem_cons_of_mem pair member)
    rw [List.flatMap_cons, List.filter_append, List.map_append, own, others]
    cases read : pair.2.getter.isSome with
    | false => simp [read]
    | true => cases typed : pair.2.givenType.isNone <;> simp [read, typed]

/-- A component that lacks nothing is told of exactly the getters for which no type was given. -/
theorem Component.manual_followUps {component : Component} (fine : component.violations = []) :
    (component.followUps.filter (·.kind = .manualReturnType)).map (·.subject) =
      ((component.computed.filter (·.2.getter.isSome)).filter (·.2.givenType.isNone)).map (·.1) := by
  have silent : (component.props.flatMap PropField.followUps).filter (·.kind = .manualReturnType) = [] := by
    rw [List.filter_eq_nil_iff]
    intro diagnostic member
    obtain ⟨prop, _, inside⟩ := List.mem_flatMap.mp member
    rw [PropField.kind_of_mem_followUps inside]
    decide
  have complete : ∀ pair ∈ component.computed, pair.2.violations pair.1 = [] := by
    rw [Component.violations, List.append_eq_nil_iff] at fine
    exact List.flatMap_eq_nil_iff.mp fine.2
  rw [Component.followUps, List.filter_append, silent, List.nil_append]
  exact manual_followUps_of_computed complete

/-! The conversion. -/

theorem Component.tree_of_replaced {settings : Settings} {registration : Registration}
    {component : Component} {session : Session} {converted : Converted}
    (done : ((component.replaceClass settings registration).run.run session).1 = .ok converted) :
    ∃ tree, component.tree settings = .ok tree := by
  have outcome := component.replaceClass_outcome settings registration session
  rw [done, Component.obstacle?] at outcome
  cases built : component.tree settings with
  | ok tree => exact ⟨tree, rfl⟩
  | error error =>
    rw [built] at outcome
    cases outcome

/-- Diagnostics are complete, in order and never spurious. What a conversion delivers is the beginning
of what its component calls for. If it succeeds, that is all of it and the result carries it; and the
getters in the tree have the type that was given for them, or else the fallback, which those have that
the reader is told about and no others. -/
theorem diagnostics_complete {extract : Extractor} (settings : Settings) (registration : Registration)
    {session : Session} {component : Component}
    (found : extract session.document = .ok (some component)) :
    let result := (convertDocument extract settings registration).run.run session
    ∃ delivered, result.2.diagnostics = session.diagnostics ++ delivered ∧
      delivered <+: component.followUps ∧
      ∀ converted, result.1 = .ok converted →
        delivered = component.followUps ∧
        (∃ done, converted = some done ∧ done.diagnostics = delivered) ∧
        ∃ tree, component.tree settings = .ok tree ∧
          let getters := component.computed.filter (·.2.getter.isSome)
          tree.getterTypes = getters.map (fun pair =>
            (pair.1, some (DeclaredType.textOr settings.fallbackReturnType pair.2.givenType))) ∧
          (delivered.filter (·.kind = .manualReturnType)).map (·.subject) =
            (getters.filter (·.2.givenType.isNone)).map (·.1) := by
  intro result
  have converting : result = _ := convertDocument_run_of_found settings registration session found
  rw [converting]
  cases ran : (component.replaceClass settings registration).run.run session with
  | mk outcome after =>
    obtain ⟨delivered, kept, begun, whole⟩ := Component.replaceClass_reports ran
    refine ⟨delivered, kept, begun, fun converted succeeded => ?_⟩
    cases outcome with
    | error failure => cases succeeded
    | ok done =>
      cases succeeded
      obtain ⟨rfl, carried⟩ := whole done rfl
      obtain ⟨tree, built⟩ := Component.tree_of_replaced (congrArg Prod.fst ran)
      have returns := Component.returns_of_tree built
      have meets := component.assemble_meets settings
      refine ⟨rfl, ⟨done, rfl, carried⟩, tree, built, ?_, ?_⟩
      · exact filterMap_getterType? (meets.ensures tree returns).computed_members
      · exact Component.manual_followUps (meets.violations_eq_nil returns)

def classToComplete (defaultValue : Option Text) : Component where
  head := { name := some ['A'], stop := 1 }
  props := [{
    field := { name := ['p'], type := some { text := ['T'] } }
    defaultEntry := some { name := ['d'], initializer := defaultValue }
    requiredEntry := some { name := ['r'], text := ['r'] } }]
  computed := [
    (['c'], { getter := some {} }),
    (['t'], { getter := some { returnType := some { text := ['N'] } } }),
    (['f'], { getter := some {}, setter := some { parameters := [{ name := ['v'] }] } })]

/-- A default without a value stops the conversion when the first of three reports is delivered. -/
theorem classToComplete_reported :
    let convert (defaultValue : Option Text) :=
      (convertDocument (fun _ => .ok (some (classToComplete defaultValue))) {} .record).run.run
        { document := { text := ['x'] } }
    (∃ converted tree, (convert (some ['1'])).1 = .ok (some converted) ∧
      (convert (some ['1'])).2.diagnostics = converted.diagnostics ∧
      converted.diagnostics.map (fun report => (report.kind, report.subject)) =
        [(.requiredDropped, ['p']), (.manualReturnType, ['c']), (.manualReturnType, ['f'])] ∧
      (classToComplete (some ['1'])).tree {} = .ok tree ∧
      tree.getterTypes =
        [(['c'], some ['a', 'n', 'y']), (['t'], some ['N']), (['f'], some ['a', 'n', 'y'])]) ∧
    (∃ failure, (convert none).1 = .error failure) ∧
      (convert none).2.diagnostics = [requiredDropped ['p']] ∧
      (convert none).2.diagnostics <+: (classToComplete none).followUps := by
  intro convert
  obtain ⟨converted, succeeded⟩ : ∃ converted, (convert (some ['1'])).1 = .ok (some converted) := ⟨_, rfl⟩
  have called (defaultValue : Option Text) := @diagnostics_complete
    (fun _ => .ok (some (classToComplete defaultValue))) {} .record { document := { text := ['x'] } } _ rfl
  obtain ⟨delivered, kept, _, whole⟩ := called (some ['1'])
  obtain ⟨all, ⟨_, same, carried⟩, tree, built, typed, _⟩ := whole _ succeeded
  cases same
  obtain ⟨_, keptFirst, begun, _⟩ := called none
  refine ⟨⟨converted, tree, succeeded, ?_, ?_, built, typed⟩, ⟨_, rfl⟩, rfl, ?_⟩
  · exact kept.trans carried.symm
  · rw [carried, all]
    rfl
  · rw [List.nil_append] at keptFirst
    exact keptFirst ▸ begun

end OptionsApi
