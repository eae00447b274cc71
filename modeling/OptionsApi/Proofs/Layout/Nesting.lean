import OptionsApi.Layout.Format

/-! Open brackets up to the numbering of lines. The level of a line only asks which brackets were
opened on the same line, so two scans that number the lines differently indent alike. -/

set_option autoImplicit false

namespace OptionsApi.Layout

/-- The same brackets, opened on lines that may be numbered otherwise: two of them share a line on
the left exactly if they share one on the right. -/
def SameNesting (left right : List Nat) : Prop :=
  ∃ lines : List (Nat × Nat), left = lines.map Prod.fst ∧ right = lines.map Prod.snd ∧
    lines.Pairwise fun first second => (first.1 = second.1 ↔ first.2 = second.2)

namespace SameNesting

variable {left right : List Nat} {leftLine rightLine : Nat}

theorem nil : SameNesting [] [] := ⟨[], rfl, rfl, List.Pairwise.nil⟩

theorem refl (brackets : List Nat) : SameNesting brackets brackets := by
  refine ⟨brackets.map fun line => (line, line), ?_, ?_, ?_⟩
  · simp [Function.comp_def]
  · simp [Function.comp_def]
  · rw [List.pairwise_map]
    exact List.pairwise_of_forall fun _ _ => Iff.rfl

theorem drop (same : SameNesting left right) (count : Nat) :
    SameNesting (left.drop count) (right.drop count) := by
  obtain ⟨lines, rfl, rfl, paired⟩ := same
  exact ⟨lines.drop count, List.map_drop.symm, List.map_drop.symm, paired.drop⟩

theorem tail (same : SameNesting (leftLine :: left) (rightLine :: right)) :
    SameNesting left right :=
  same.drop 1

theorem fresh (same : SameNesting left right) (leftNew : leftLine ∉ left)
    (rightNew : rightLine ∉ right) : SameNesting (leftLine :: left) (rightLine :: right) := by
  obtain ⟨lines, rfl, rfl, paired⟩ := same
  refine ⟨(leftLine, rightLine) :: lines, rfl, rfl, List.pairwise_cons.mpr ⟨?_, paired⟩⟩
  intro other member
  have onLeft : leftLine ≠ other.1 := fun equal =>
    leftNew (equal ▸ List.mem_map_of_mem member)
  have onRight : rightLine ≠ other.2 := fun equal =>
    rightNew (equal ▸ List.mem_map_of_mem member)
  exact iff_of_false onLeft onRight

theorem push (same : SameNesting (leftLine :: left) (rightLine :: right)) :
    SameNesting (leftLine :: leftLine :: left) (rightLine :: rightLine :: right) := by
  obtain ⟨lines, leftIs, rightIs, paired⟩ := same
  cases lines with
  | nil => simp at leftIs
  | cons first rest =>
    obtain ⟨rfl, rfl⟩ := List.cons.inj leftIs
    obtain ⟨rfl, rfl⟩ := List.cons.inj rightIs
    refine ⟨first :: first :: rest, rfl, rfl, List.pairwise_cons.mpr ⟨?_, paired⟩⟩
    intro other member
    rcases List.mem_cons.mp member with rfl | later
    · exact iff_of_true rfl rfl
    · exact (List.pairwise_cons.mp paired).1 other later

theorem pop (same : SameNesting (leftLine :: left) (rightLine :: right)) :
    SameNesting (leftLine :: left.tail) (rightLine :: right.tail) := by
  obtain ⟨lines, leftIs, rightIs, paired⟩ := same
  cases lines with
  | nil => simp at leftIs
  | cons first rest =>
    obtain ⟨rfl, rfl⟩ := List.cons.inj leftIs
    obtain ⟨rfl, rfl⟩ := List.cons.inj rightIs
    have kept : (first :: rest.tail).Sublist (first :: rest) :=
      (List.tail_sublist rest).cons_cons first
    exact ⟨first :: rest.tail, by simp, by simp, paired.sublist kept⟩

theorem level_eq (same : SameNesting left right) : level left = level right := by
  obtain ⟨lines, rfl, rfl, paired⟩ := same
  induction lines with
  | nil => rfl
  | cons first rest ih =>
    obtain ⟨pairs, later⟩ := List.pairwise_cons.mp paired
    have member : first.1 ∈ rest.map Prod.fst ↔ first.2 ∈ rest.map Prod.snd := by
      simp only [List.mem_map]
      constructor
      · rintro ⟨other, inside, equal⟩
        exact ⟨other, inside, ((pairs other inside).mp equal.symm).symm⟩
      · rintro ⟨other, inside, equal⟩
        exact ⟨other, inside, ((pairs other inside).mpr equal.symm).symm⟩
    simp only [List.map_cons, level, member, ih later]

end SameNesting

def State.Numbered (state : State) : Prop := ∀ line ∈ state.brackets, line ≤ state.lineCount

theorem State.Numbered.fresh {state : State} (numbered : state.Numbered) :
    state.lineCount + 1 ∉ state.brackets := by
  intro member
  have bounded := numbered _ member
  omega

theorem Cursor.mem_brackets_step {line bracket : Nat} {cursor : Cursor} {c : Char}
    (member : bracket ∈ (cursor.step line c).brackets) :
    bracket = line ∨ bracket ∈ cursor.brackets := by
  simp only [Cursor.step, bracketsAfter] at member
  split at member
  · split at member
    · exact List.mem_cons.mp member
    · split at member
      · exact Or.inr (List.mem_of_mem_tail member)
      · exact Or.inr member
  · exact Or.inr member

theorem Cursor.mem_brackets_run {line bracket : Nat} (text : Text) {cursor : Cursor}
    (member : bracket ∈ (cursor.run line text).brackets) :
    bracket = line ∨ bracket ∈ cursor.brackets := by
  induction text generalizing cursor with
  | nil => exact Or.inr member
  | cons c rest ih =>
    rcases @ih (cursor.step line c) member with same | earlier
    · exact Or.inl same
    · exact Cursor.mem_brackets_step earlier

theorem State.Numbered.advance {state : State} (numbered : state.Numbered) (text : Text) :
    (state.advance text).Numbered := by
  intro line member
  rcases Cursor.mem_brackets_run text member with rfl | earlier
  · exact Nat.le_refl _
  · exact Nat.le_succ_of_le (numbered line earlier)

theorem State.Numbered.skip {state : State} (numbered : state.Numbered) :
    { state with lineCount := state.lineCount + 1 }.Numbered :=
  fun line member => Nat.le_succ_of_le (numbered line member)

theorem State.Numbered.initial : ({} : State).Numbered := fun _ member => absurd member List.not_mem_nil

end OptionsApi.Layout
