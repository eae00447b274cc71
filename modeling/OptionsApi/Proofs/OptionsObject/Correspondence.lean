import OptionsApi.Proofs.OptionsObject.Outcome

/-! The tree of a component, member by member. Nothing of a component is lost, repeated or moved on its
way into the tree, and a name is imported for the casts of props exactly if there is such a cast. -/

set_option autoImplicit false

namespace OptionsApi

/-! Imports. -/

theorem foldl_request_same {moduleName name : Text} {requests : List (Text × Text)}
    (same : ∀ wanted ∈ requests, wanted = (moduleName, name)) :
    requests.foldl request [] = if requests.isEmpty then [] else [(moduleName, [name])] := by
  -- Once the name is queued, the queue stays as it is.
  have again : ∀ rest : List (Text × Text), (∀ wanted ∈ rest, wanted = (moduleName, name)) →
      rest.foldl request [(moduleName, [name])] = [(moduleName, [name])] := by
    intro rest
    induction rest with
    | nil => exact fun _ => rfl
    | cons wanted rest ih =>
      intro same
      rw [List.foldl_cons, same wanted List.mem_cons_self]
      have kept : request [(moduleName, [name])] (moduleName, name) = [(moduleName, [name])] := by
        simp [request, ImportQueue.contains]
      rw [kept]
      exact ih fun other member => same other (List.mem_cons_of_mem wanted member)
  cases requests with
  | nil => rfl
  | cons wanted rest =>
    rw [List.foldl_cons, same wanted List.mem_cons_self]
    exact again rest fun other member => same other (List.mem_cons_of_mem wanted member)

def Node.castsType : Node → Bool
  | .propertyAssignment _ (.objectLiteral (.propertyAssignment _ (.asExpression _ _) _ :: _)) _ => true
  | _ => false

theorem PropField.Becomes.castsType_eq {settings : Settings} {prop : PropField} {entry : Node}
    (becomes : prop.Becomes settings entry) :
    ∃ type, prop.type? = some type ∧ entry.castsType = !type.isPrimitive := by
  cases becomes with
  | entry typed _ _ =>
    cases typed with
    | marker resolved known => exact ⟨_, resolved, by simp [Node.castsType, DeclaredType.isPrimitive, known]⟩
    | cast resolved rich => exact ⟨_, resolved, by rw [rich]; rfl⟩

/-- An import is needed for the types that are no primitives, and these are the types that are cast. -/
theorem requests_eq_nil_iff {settings : Settings} {props : List PropField} {entries : List Node}
    (become : List.Forall₂ (PropField.Becomes settings) props entries) :
    (props.flatMap (·.requests settings) = [] ↔
      ∀ prop ∈ props, ∃ type, prop.type? = some type ∧ type.isPrimitive = true) ∧
    (props.flatMap (·.requests settings) = [] ↔ ∀ entry ∈ entries, entry.castsType = false) := by
  induction become with
  | nil => simp
  | @cons prop entry _ _ first _ ih =>
    obtain ⟨type, resolved, casts⟩ := first.castsType_eq
    -- What the prop needs and what its entry shows are both decided by the type it resolves to.
    have needed : prop.requests settings = [] ↔ type.isPrimitive = true := by
      simp [PropField.requests, resolved]
    have primitive : (∃ other, prop.type? = some other ∧ other.isPrimitive = true) ↔
        type.isPrimitive = true := by
      simp [resolved]
    rw [List.flatMap_cons, List.append_eq_nil_iff, needed, List.forall_mem_cons, List.forall_mem_cons,
      primitive, casts, Bool.not_eq_false']
    exact ⟨and_congr_right fun _ => ih.1, and_congr_right fun _ => ih.2⟩

theorem Component.imports_of_assemble {settings : Settings} {component : Component} {tree : Node}
    {journal : Journal} (built : (component.assemble settings).run.run {} = (.ok tree, journal)) :
    journal.imports = if (component.requests settings).isEmpty then []
      else [(settings.propTypeModule, [settings.propTypeName])] := by
  obtain ⟨done, _, acted, whole⟩ := (component.assemble_meets settings).requests {} _ journal built
  rw [acted, whole tree rfl]
  refine foldl_request_same fun wanted member => ?_
  obtain ⟨prop, _, inside⟩ := List.mem_flatMap.mp member
  unfold PropField.requests at inside
  split at inside
  · cases inside
  · exact List.mem_singleton.mp inside

/-- Every member of a component stands in its tree once and in order. The tree is one call of the
factory with one object: the name, the options of the decorator as written, and the props, the data and
the computed properties, each unless there are none. The entries correspond to the members one by one.
The name that keeps the static type of props is imported exactly if a type is no primitive, which is if
one is cast, and then it is all that is imported. -/
theorem Component.members_kept {settings : Settings} {component : Component} {tree : Node}
    {journal : Journal} (built : (component.assemble settings).run.run {} = (.ok tree, journal)) :
    ∃ name props data computed, component.head.name = some name ∧
      tree = .callExpression settings.factory [.objectLiteral (
        .propertyAssignment "name" (.stringLiteral name .single) none ::
        component.decoratorOptions.map (fun entry => .rawElement entry.text none) ++
        optionFor component.props (.propertyAssignment "props" (.objectLiteral props) none) ++
        optionFor component.data (.methodDeclaration "data" [] none
          [.returnStatement (some (.objectLiteral data))] none) ++
        optionFor component.computed
          (.propertyAssignment "computed" (.objectLiteral computed) none))] ∧
      List.Forall₂ (PropField.Becomes settings) component.props props ∧
      List.Forall₂ Field.Becomes component.data data ∧
      List.Forall₂ (fun pair => pair.2.Becomes settings pair.1)
        (component.computed.filter (·.2.getter.isSome)) computed ∧
      (journal.imports = [] ↔
        ∀ prop ∈ component.props, ∃ type, prop.type? = some type ∧ type.isPrimitive = true) ∧
      (journal.imports = [] ↔ ∀ entry ∈ props, entry.castsType = false) ∧
      (journal.imports ≠ [] →
        journal.imports = [(settings.propTypeModule, [settings.propTypeName])]) := by
  have becomes : component.Becomes settings tree :=
    (component.assemble_meets settings).ensures tree ⟨{}, journal, built⟩
  have queued := Component.imports_of_assemble built
  have empty : journal.imports = [] ↔ component.requests settings = [] := by
    rw [queued]
    cases component.requests settings <;> simp
  cases becomes with
  | @options name props data computed named becomeProps becomeData becomeComputed =>
    obtain ⟨needed, cast⟩ := requests_eq_nil_iff becomeProps
    refine ⟨name, props, data, computed, named, rfl, becomeProps, becomeData, becomeComputed,
      empty.trans needed, empty.trans cast, fun filled => ?_⟩
    rw [queued] at filled ⊢
    split at filled
    · exact absurd rfl filled
    · next nonempty => rw [if_neg nonempty]

def fullClass : Component where
  head := { name := some ['A'] }
  decoratorOptions := [{ name := ['o'], text := ['o', ':', '1'] }, { name := ['o'], text := ['o'] }]
  props := [
    { field := {
        name := ['p'], type := some { text := [' ', 'T'] },
        docs := [{ comment := some ['d', '\n', 'e'] }, {}] }
      defaultEntry := some { name := ['d'], initializer := some ['1'] }
      requiredEntry := some { name := ['r'], text := ['r'] } },
    { field := { name := ['q'], initializer := some ['1'] }
      requiredEntry := some { name := ['r'], text := ['r', ',', 'r'] } },
    { field := {
        name := ['s'], type := some { text := Primitive.string.typeName },
        docs := [{ comment := some [] }] } }]
  data := [
    { name := ['x'], type := some { text := ['U'] }, initializer := some ['2'] },
    { name := ['y'], initializer := some ['3'], docs := [{ comment := some ['f'] }] }]
  computed := [
    (['c'], { getter := some { body := [['m'], ['n']] } }), (['e'], {}),
    (['f'], { getter := some {}, setter := some { parameters := [{ name := ['v'] }] } })]

theorem fullClass_kept : ∃ (tree : Node) (journal : Journal) (props data computed : List Node),
    (fullClass.assemble {}).run.run {} = (.ok tree, journal) ∧
    tree = .callExpression "Vue.extend" [.objectLiteral [
      .propertyAssignment "name" (.stringLiteral ['A'] .single) none,
      .rawElement ['o', ':', '1'] none, .rawElement ['o'] none,
      .propertyAssignment "props" (.objectLiteral props) none,
      .methodDeclaration "data" [] none [.returnStatement (some (.objectLiteral data))] none,
      .propertyAssignment "computed" (.objectLiteral computed) none]] ∧
    List.Forall₂ (PropField.Becomes {}) fullClass.props props ∧
    List.Forall₂ Field.Becomes fullClass.data data ∧ computed.length = 2 ∧
    journal.imports = [(['v', 'u', 'e'], [['P', 'r', 'o', 'p', 'T', 'y', 'p', 'e']])] := by
  obtain ⟨tree, journal, built⟩ :
      ∃ tree journal, (fullClass.assemble {}).run.run {} = (.ok tree, journal) := ⟨_, _, rfl⟩
  obtain ⟨name, props, data, computed, named, shape, becomeProps, becomeData, becomeComputed, primitive,
    _, queued⟩ := Component.members_kept built
  cases named
  have filled : journal.imports ≠ [] := by
    intro unrequested
    obtain ⟨type, resolved, primitive⟩ := primitive.mp unrequested _ List.mem_cons_self
    cases resolved
    cases primitive
  exact ⟨tree, journal, props, data, computed, built, shape, becomeProps, becomeData,
    becomeComputed.length_eq.symm, queued filled⟩

end OptionsApi
