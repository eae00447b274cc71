import OptionsApi.Tree.Render

/-! Trees whose nodes stand where they belong. Every kind of node belongs to one kind of position at
most. A tree is printed exactly if each position that is reached from its root holds a node that belongs
there; otherwise the first node that does not is reported, in the order in which the tree is read. -/

set_option autoImplicit false

namespace OptionsApi

/-- The position to which a node belongs. Blocks, comments and what is no node at all belong to none. -/
def Node.home : Node → Option Position
  | .identifier .. | .stringLiteral .. | .booleanLiteral .. | .asExpression .. | .objectLiteral ..
  | .callExpression .. => some .expression
  | .propertyAssignment .. | .methodDeclaration .. | .rawElement .. => some .element
  | .returnStatement .. | .opaqueStatement .. => some .statement
  | .block .. | .docComment .. | .bareExpression | .bareStatement | .bareElement | .stray .. => none

structure Occupant where
  position : Position
  node : Node

namespace Occupant

def Fits (occupant : Occupant) : Prop := occupant.node.home = some occupant.position

instance (occupant : Occupant) : Decidable occupant.Fits := inferInstanceAs (Decidable (_ = _))

def misplaced (occupant : Occupant) : Misplaced := ⟨occupant.position, occupant.node.kind⟩

end Occupant

mutual

/-- The positions reached from a node and what stands there, each position before those inside it and
these from left to right. Nothing is reached through a node that does not belong where it stands. -/
def Node.reached (position : Position) (node : Node) : List Occupant :=
  ⟨position, node⟩ ::
    if node.home = some position then
      match node with
      | .asExpression expression _ => expression.reached .expression
      | .objectLiteral properties => reachedAll .element properties
      | .callExpression _ arguments => reachedAll .expression arguments
      | .returnStatement (some expression) => expression.reached .expression
      | .propertyAssignment _ initializer _ => initializer.reached .expression
      | .methodDeclaration _ _ _ body _ => reachedAll .statement body
      | _ => []
    else []
termination_by structural node

def reachedAll (position : Position) (nodes : List Node) : List Occupant :=
  match nodes with
  | [] => []
  | node :: rest => node.reached position ++ reachedAll position rest
termination_by structural nodes

end

def firstMisplaced? (occupants : List Occupant) : Option Misplaced :=
  (occupants.find? fun occupant => !decide occupant.Fits).map Occupant.misplaced

theorem firstMisplaced?_append (left right : List Occupant) :
    firstMisplaced? (left ++ right) = (firstMisplaced? left).or (firstMisplaced? right) := by
  rw [firstMisplaced?, List.find?_append, Option.map_or]
  rfl

theorem fits_of_firstMisplaced?_none {occupants : List Occupant} (unreported : firstMisplaced? occupants = none) :
    ∀ occupant ∈ occupants, occupant.Fits := by
  simpa [firstMisplaced?] using unreported

/-- All in front of the first that is out of place belong where they stand. -/
theorem split_of_firstMisplaced? {occupants : List Occupant} {report : Misplaced}
    (found : firstMisplaced? occupants = some report) :
    ∃ before first behind, occupants = before ++ first :: behind ∧
      (∀ earlier ∈ before, earlier.Fits) ∧ ¬ first.Fits ∧ report = first.misplaced := by
  obtain ⟨first, here, rfl⟩ := Option.map_eq_some_iff.mp found
  obtain ⟨out, before, behind, split, fits⟩ := List.find?_eq_some_iff_append.mp here
  refine ⟨before, first, behind, split, fun earlier member => ?_, by simpa using out, rfl⟩
  simpa using fits earlier member

/-! What stops a computation. -/

section
variable {ε α β : Type}

def failure? : Except ε α → Option ε
  | .ok _ => none
  | .error failure => some failure

/-- If what comes next stops for the same reason whatever it is given, the two stop for the first
reason there is. -/
theorem failure?_bind {result : Except ε α} {next : α → Except ε β} {later : Option ε}
    (each : ∀ value, failure? (next value) = later) :
    failure? (result >>= next) = (failure? result).or later := by
  cases result with
  | error failure => rfl
  | ok value => exact each value

theorem failure?_bind_pure (result : Except ε α) (change : α → β) :
    failure? (result >>= fun value => pure (change value)) = failure? result := by
  cases result <;> rfl

end

/-! Printing stops at the first node that is out of place. -/

mutual

theorem Node.failure_print (indent level : Nat) (position : Position) :
    (node : Node) → failure? (node.print indent level position) = firstMisplaced? (node.reached position)
  | .identifier _ | .stringLiteral .. | .booleanLiteral _ | .returnStatement none | .opaqueStatement _
  | .block _ | .rawElement .. | .docComment _ | .bareExpression | .bareStatement | .bareElement
  | .stray _ => by cases position <;> rfl
  | .asExpression expression type => by
    cases position with
    | expression =>
      rw [Node.print, failure?_bind_pure, expression.failure_print indent level .expression]
      rfl
    | element => rfl
    | statement => rfl
  | .objectLiteral properties => by
    cases position with
    | expression =>
      rw [Node.print, failure?_bind_pure, failure_printAll indent (level + 1) .element properties]
      rfl
    | element => rfl
    | statement => rfl
  | .callExpression callee arguments => by
    cases position with
    | expression =>
      rw [Node.print, failure?_bind_pure, failure_printAll indent level .expression arguments]
      rfl
    | element => rfl
    | statement => rfl
  | .returnStatement (some expression) => by
    cases position with
    | statement =>
      rw [Node.print, failure?_bind_pure, expression.failure_print indent level .expression]
      rfl
    | expression => rfl
    | element => rfl
  | .propertyAssignment name initializer doc => by
    cases position with
    | element =>
      rw [Node.print, failure?_bind_pure, initializer.failure_print indent level .expression]
      rfl
    | expression => rfl
    | statement => rfl
  | .methodDeclaration name parameters returnType body doc => by
    cases position with
    | element =>
      rw [Node.print, failure?_bind_pure, failure_printAll indent (level + 1) .statement body]
      rfl
    | expression => rfl
    | statement => rfl

theorem failure_printAll (indent level : Nat) (position : Position) :
    (nodes : List Node) →
      failure? (printAll indent level position nodes) = firstMisplaced? (reachedAll position nodes)
  | [] => rfl
  | node :: rest => by
    rw [printAll, reachedAll, firstMisplaced?_append, ← node.failure_print indent level position,
      ← failure_printAll indent level position rest]
    exact failure?_bind fun value => failure?_bind_pure _ _

end

/-- A tree has a text exactly if every position that is reached holds a node that belongs there. If not,
the first that does not is reported, with its position and its kind. So it is for every indentation, but
one that is no word is refused before any node is looked at. -/
theorem render_well_placed (indent : Int) (node : Node) :
    ((∃ text, node.text? indent = .ok text) ↔
      ∀ occupant ∈ node.reached .expression, occupant.Fits) ∧
    ((∃ occupant ∈ node.reached .expression, ¬ occupant.Fits) →
      ∃ before first behind, node.reached .expression = before ++ first :: behind ∧
        (∀ earlier ∈ before, earlier.Fits) ∧ ¬ first.Fits ∧
        node.text? indent = .error ⟨first.position, first.node.kind⟩ ∧
        Failure.message (.misplaced ⟨first.position, first.node.kind⟩) =
          first.position.complaint ++ first.node.kind) ∧
    (Text.isWord indent = true → node.render indent = (node.text? indent).mapError .misplaced) ∧
    (Text.isWord indent = false → node.render indent = .error (.indent .notWord)) := by
  have stops : failure? (node.text? indent) = firstMisplaced? (node.reached .expression) :=
    node.failure_print indent.toNat 0 .expression
  refine ⟨?_, ?_, fun word => ?_, fun noWord => ?_⟩
  · cases result : node.text? indent with
    | ok text =>
      rw [result] at stops
      exact iff_of_true ⟨text, rfl⟩ (fits_of_firstMisplaced?_none stops.symm)
    | error report =>
      rw [result] at stops
      obtain ⟨before, first, behind, split, _, out, _⟩ := split_of_firstMisplaced? stops.symm
      have member : first ∈ node.reached .expression := by
        rw [split]
        exact List.mem_append_right before List.mem_cons_self
      refine iff_of_false ?_ fun fits => out (fits first member)
      rintro ⟨text, printed⟩
      cases printed
  · rintro ⟨occupant, member, misfit⟩
    cases result : node.text? indent with
    | ok text =>
      rw [result] at stops
      exact absurd (fits_of_firstMisplaced?_none stops.symm occupant member) misfit
    | error report =>
      rw [result] at stops
      obtain ⟨before, first, behind, split, earlier, out, rfl⟩ := split_of_firstMisplaced? stops.symm
      exact ⟨before, first, behind, split, earlier, out, rfl, rfl⟩
  · rw [Node.render, Layout.indentWidth, if_pos word]
  · rw [Node.render, Layout.indentWidth, if_neg (by simp [noWord])]

def crossedObject : Node :=
  .objectLiteral [.propertyAssignment ['a'] (.identifier ['b']) none,
    .propertyAssignment ['c'] (.rawElement ['d'] none) none, .identifier ['e']]

theorem crossedObject_refused :
    (∃ occupant ∈ crossedObject.reached .expression, ¬ occupant.Fits) ∧
      (¬ ∃ text, crossedObject.text? 4 = .ok text) ∧
      (∃ first : Occupant, ¬ first.Fits ∧ first.misplaced = ⟨.expression, "RawElement"⟩ ∧
        crossedObject.render 4 = .error (.misplaced first.misplaced)) ∧
      crossedObject.render 0x8000000000000000 = .error (.indent .notWord) := by
  obtain ⟨_, _, _, unusable⟩ := render_well_placed 0x8000000000000000 crossedObject
  obtain ⟨printed, reported, usable, _⟩ := render_well_placed 4 crossedObject
  have crossed : ∃ occupant ∈ crossedObject.reached .expression, ¬ occupant.Fits := by decide
  obtain ⟨_, first, _, _, _, out, report, _⟩ := reported crossed
  refine ⟨crossed, ?_, ⟨first, out, ?_, ?_⟩, unusable rfl⟩
  · intro text
    obtain ⟨occupant, member, wrong⟩ := crossed
    exact wrong (printed.mp text occupant member)
  · exact (Except.error.inj report).symm
  · rw [usable rfl, report]
    rfl

/-- A tree all of whose nodes belong where they stand is not printed with an indentation below every
word. -/
theorem below_word_not_rendered :
    ¬ ((∃ text, (Node.identifier ['x']).render (-0x8000000000000001) = .ok text) ↔
      ∀ occupant ∈ (Node.identifier ['x']).reached .expression, occupant.Fits) := by
  intro printed
  obtain ⟨text, done⟩ := printed.mpr (by decide)
  cases done

end OptionsApi
