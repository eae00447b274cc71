import OptionsApi.Layout.Format
import OptionsApi.Proofs.Text.Lines
import OptionsApi.Proofs.Text.Trim

/-! What placing a line does, one law for each kind of line, and what becomes of empty lines. -/

set_option autoImplicit false

namespace OptionsApi.Layout

def State.skip (state : State) : State := { state with lineCount := state.lineCount + 1 }

def starMargin (stripped : Text) : Text := if stripped.head? = some '*' then [' '] else []

theorem exists_starMargin (stripped : Text) : ∃ count, starMargin stripped = Text.spaces count := by
  unfold starMargin
  split
  · exact ⟨1, rfl⟩
  · exact ⟨0, rfl⟩

theorem starMargin_blank (stripped : Text) : Text.Blank (starMargin stripped) := by
  obtain ⟨count, same⟩ := exists_starMargin stripped
  exact same ▸ Text.Blank.spaces count

theorem indentation_blank (indent : Nat) (brackets : List Nat) :
    Text.Blank (indentation indent brackets) :=
  Text.Blank.spaces _

namespace State

variable {state : State} {line : Text}

theorem placeLine_template (indent : Nat) (inside : state.region = .template) (line : Text) :
    state.placeLine indent line = (line, state.advance line) := by
  simp only [placeLine, inside]

theorem placeLine_blank (indent : Nat) (outside : state.region ≠ .template)
    (blank : Text.trim line = []) : state.placeLine indent line = ([], state.skip) := by
  rw [placeLine.eq_def, skip]
  cases region : state.region with
  | template => exact absurd region outside
  | comment => simp [blank]
  | code => simp [blank]

theorem placeLine_comment (indent : Nat) (inside : state.region = .comment)
    (ink : Text.trim line ≠ []) : state.placeLine indent line =
      (indentation indent state.brackets ++ starMargin (Text.trim line) ++ Text.trim line,
        state.advance line) := by
  simp [placeLine, inside, ink, starMargin]

theorem placeLine_code (indent : Nat) (inside : state.region = .code)
    (ink : Text.trim line ≠ []) : state.placeLine indent line =
      (indentation indent (state.brackets.drop (leadingClosers (Text.trim line))) ++
        Text.trim line, state.advance (Text.trim line)) := by
  simp [placeLine, inside, ink]

theorem placeLine_text (indent : Nat) (state : State) (line : Text) :
    state.region = .template ∧ (state.placeLine indent line).1 = line ∨
      state.region ≠ .template ∧
        ∃ count, (state.placeLine indent line).1 = Text.spaces count ++ Text.trim line := by
  by_cases template : state.region = .template
  · exact Or.inl ⟨template, by rw [placeLine_template indent template]⟩
  refine Or.inr ⟨template, ?_⟩
  by_cases blank : Text.trim line = []
  · exact ⟨0, by rw [placeLine_blank indent template blank, blank]; rfl⟩
  cases region : state.region with
  | template => exact absurd region template
  | comment =>
    obtain ⟨count, margin⟩ := exists_starMargin (Text.trim line)
    rw [placeLine_comment indent region blank, margin, indentation, ← Text.spaces_add]
    exact ⟨_, rfl⟩
  | code =>
    rw [placeLine_code indent region blank]
    exact ⟨_, rfl⟩

/-- What a line does to the state does not depend on the indentation. -/
theorem placeLine_state (first second : Nat) (state : State) (line : Text) :
    (state.placeLine first line).2 = (state.placeLine second line).2 := by
  unfold placeLine
  cases state.region with
  | template => rfl
  | comment => dsimp only; split <;> rfl
  | code => dsimp only; split <;> rfl

theorem placeLine_eq_nil_iff (indent : Nat) (outside : state.region ≠ .template) :
    (state.placeLine indent line).1 = [] ↔ Text.trim line = [] := by
  constructor
  · intro empty
    rcases placeLine_text indent state line with ⟨template, _⟩ | ⟨_, count, placed⟩
    · exact absurd template outside
    · rw [placed] at empty
      exact (List.append_eq_nil_iff.mp empty).2
  · intro blank
    rw [placeLine_blank indent outside blank]

theorem placeLines_append (indent : Nat) (state : State) (first second : List Text) :
    state.placeLines indent (first ++ second) =
      ((state.placeLines indent first).1 ++
          ((state.placeLines indent first).2.placeLines indent second).1,
        ((state.placeLines indent first).2.placeLines indent second).2) := by
  induction first generalizing state with
  | nil => rfl
  | cons line rest ih => simp only [List.cons_append, placeLines, ih]

end State

/-! Empty lines. -/

theorem exists_dropTrailingEmpty (lines : List Text) :
    ∃ count, dropTrailingEmpty lines ++ List.replicate count [] = lines := by
  induction lines with
  | nil => exact ⟨0, rfl⟩
  | cons line rest ih =>
    obtain ⟨count, whole⟩ := ih
    rw [dropTrailingEmpty]
    split
    next empty =>
      rw [empty, List.nil_append] at whole
      split
      next blank =>
        rw [List.isEmpty_iff.mp blank, ← whole]
        exact ⟨count + 1, List.replicate_succ⟩
      next => exact ⟨count, by rw [whole]; rfl⟩
    next => exact ⟨count, by rw [List.cons_append, whole]⟩

theorem dropTrailingEmpty_of_empty {lines : List Text} (empty : ∀ line ∈ lines, line = []) :
    dropTrailingEmpty lines = [] := by
  induction lines with
  | nil => rfl
  | cons line rest ih =>
    have first : line = [] := empty line List.mem_cons_self
    rw [dropTrailingEmpty, ih fun other member => empty other (List.mem_cons_of_mem line member)]
    simp [first]

theorem mem_of_mem_squeeze {afterEmpty : Bool} {placed : List PlacedLine} {text : Text}
    (member : text ∈ squeeze afterEmpty placed) : ∃ line ∈ placed, line.text = text := by
  induction placed generalizing afterEmpty with
  | nil => exact absurd member List.not_mem_nil
  | cons line rest ih =>
    rw [squeeze] at member
    split at member
    · obtain ⟨other, inside, same⟩ := ih member
      exact ⟨other, List.mem_cons_of_mem line inside, same⟩
    · rcases List.mem_cons.mp member with rfl | later
      · exact ⟨line, List.mem_cons_self, rfl⟩
      · obtain ⟨other, inside, same⟩ := ih later
        exact ⟨other, List.mem_cons_of_mem line inside, same⟩

theorem mem_of_mem_dropTrailingEmpty {lines : List Text} {text : Text}
    (member : text ∈ dropTrailingEmpty lines) : text ∈ lines := by
  obtain ⟨count, whole⟩ := exists_dropTrailingEmpty lines
  rw [← whole]
  exact List.mem_append_left _ member

theorem dropTrailingEmpty_squeeze_append (afterEmpty : Bool) (placed : List PlacedLine)
    {empties : List PlacedLine} (empty : ∀ line ∈ empties, line.text = []) :
    dropTrailingEmpty (squeeze afterEmpty (placed ++ empties)) =
      dropTrailingEmpty (squeeze afterEmpty placed) := by
  induction placed generalizing afterEmpty with
  | nil =>
    apply dropTrailingEmpty_of_empty
    intro text member
    obtain ⟨line, inside, rfl⟩ := mem_of_mem_squeeze member
    exact empty line inside
  | cons line rest ih =>
    rw [List.cons_append, squeeze, squeeze]
    split
    · exact ih afterEmpty
    · rw [dropTrailingEmpty, dropTrailingEmpty, ih]

end OptionsApi.Layout
