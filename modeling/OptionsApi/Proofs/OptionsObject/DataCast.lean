import OptionsApi.OptionsObject.Data
import OptionsApi.Proofs.Expression.Cast
import OptionsApi.Tree.Print

/-! The value of a typed data field. The initializer is carried over as written and the cast to the
declared type stands behind it, so the cast covers the whole initializer exactly if that binds at
least as tightly as a cast; of every other initializer it covers a part. -/

set_option autoImplicit false

namespace OptionsApi

/-- The field becomes an entry, and its value is printed as the text at every depth. -/
def Field.GivesValue (field : Field) (value : Text) : Prop :=
  ∃ initial doc,
    (∀ journal, field.convert.run.run journal =
      (.ok (.propertyAssignment field.name initial doc), journal)) ∧
    ∀ indent level, initial.print indent level .expression = .ok value

theorem Node.documentedBy_property (docs : List DocBlock) (name : Text) (initial : Node) :
    ∃ doc, (Node.propertyAssignment name initial none).documentedBy docs =
      .propertyAssignment name initial doc := by
  unfold Node.documentedBy
  split
  next comment _ => exact ⟨some ⟨Text.lines comment⟩, rfl⟩
  next => exact ⟨none, rfl⟩

theorem Field.givesValue_of_typed {field : Field} {value : Text} {type : DeclaredType}
    (initial : field.initializer = some value) (typed : field.type = some type) :
    field.GivesValue (value ++ Expression.castEnding type.text) := by
  obtain ⟨doc, documented⟩ := Node.documentedBy_property field.docs field.name
    (.asExpression (.identifier value) type.text)
  refine ⟨.asExpression (.identifier value) type.text, doc, fun journal => ?_, fun indent level => ?_⟩
  · rw [← documented, Field.convert, initial, typed]
    rfl
  · rw [Node.print, Node.print]
    exact congrArg Except.ok (List.append_assoc _ _ _)

/-- What is put behind the initializer of a typed field is a cast of the whole initializer if and only
if the initializer is tight: a name, a literal or a call. Otherwise, and only then, the value is the
text of an expression in which a proper part of the initializer is cast. -/
theorem Field.cast_covers_iff {field : Field} {expression : Expression} {type : DeclaredType}
    (initial : field.initializer = some expression.print) (typed : field.type = some type)
    (free : expression.castFree = true) :
    ∃ value, field.GivesValue value ∧
      (value = (Expression.cast expression type.text).print ↔ expression.isTight = true) ∧
      ((∃ other, expression.CastsPart type.text other ∧ other.print = value) ↔
        expression.isTight = false) := by
  refine ⟨_, givesValue_of_typed initial typed, ?_, ?_, Expression.exists_castsPart type.text expression⟩
  · rw [← Expression.print_cast_iff, eq_comm]
  · rintro ⟨other, casts, printed⟩
    rw [← Bool.not_eq_true]
    exact fun tight => Expression.print_ne_of_isTight free tight casts printed

def fallbackCall : Expression := .call (.either (.atom ['a']) (.atom ['b'])) [.atom ['c']]

theorem fallbackCall_cast :
    let field : Field :=
      { name := ['x'], type := some { text := ['T'] }, initializer := some fallbackCall.print }
    ∃ value, field.GivesValue value ∧ value = (Expression.cast fallbackCall ['T']).print ∧
      ¬ ∃ other, fallbackCall.CastsPart ['T'] other ∧ other.print = value := by
  intro field
  obtain ⟨value, gives, whole, part⟩ :=
    @Field.cast_covers_iff field fallbackCall { text := ['T'] } rfl rfl rfl
  exact ⟨value, gives, whole.mpr rfl, fun needed => absurd (part.mp needed) (by decide)⟩

/-- Of a value with a fallback only the fallback is cast. -/
theorem fallback_partly_cast :
    let initial : Expression := .either (.atom ['a']) (.atom ['b'])
    let field : Field :=
      { name := ['x'], type := some { text := ['T'] }, initializer := some initial.print }
    let partly : Expression := .either (.atom ['a']) (.cast (.atom ['b']) ['T'])
    field.GivesValue partly.print ∧ initial.CastsPart ['T'] partly ∧
      partly.print ≠ (Expression.cast initial ['T']).print := by
  intro initial field partly
  refine ⟨@Field.givesValue_of_typed field _ _ rfl rfl, ?_, by decide⟩
  exact ⟨[.eitherRight (.atom ['a'])], .atom ['b'], List.cons_ne_nil _ _, rfl, rfl⟩

end OptionsApi
