import OptionsApi.Proofs.Layout.Embedding
import OptionsApi.Proofs.Layout.NormalForm

/-! How the levels of lines follow each other. The scan of a line closes some of the brackets it finds
and opens others on the line itself, so the open brackets stay in the order of their lines, and
however many a line opens, the next one is at most one level deeper. -/

set_option autoImplicit false

namespace OptionsApi.Layout

/-! What the scan of a line does to the open brackets. -/

/-- Brackets of the line stand above what is left of those that were open before it. -/
def AboveRest (line : Nat) (earlier brackets : List Nat) : Prop :=
  ∃ opened closed, brackets = List.replicate opened line ++ earlier.drop closed

theorem AboveRest.bracketsAfter {line : Nat} {earlier brackets : List Nat}
    (above : AboveRest line earlier brackets) (c : Char) :
    AboveRest line earlier (bracketsAfter line c brackets) := by
  obtain ⟨opened, closed, rfl⟩ := above
  unfold Layout.bracketsAfter
  split
  · exact ⟨opened + 1, closed, rfl⟩
  · split
    next =>
      cases opened with
      | zero => exact ⟨0, closed + 1, by simp⟩
      | succ opened => exact ⟨opened, closed, rfl⟩
    next => exact ⟨opened, closed, rfl⟩

theorem Cursor.aboveRest_run {line : Nat} {earlier : List Nat} {cursor : Cursor}
    (above : AboveRest line earlier cursor.brackets) (text : Text) :
    AboveRest line earlier (cursor.run line text).brackets := by
  induction text generalizing cursor with
  | nil => exact above
  | cons c rest ih =>
    apply @ih (cursor.step line c)
    simp only [Cursor.step]
    split
    · exact above.bracketsAfter c
    · exact above

theorem State.aboveRest_advance (state : State) (text : Text) :
    AboveRest (state.lineCount + 1) state.brackets (state.advance text).brackets :=
  Cursor.aboveRest_run ⟨0, 0, rfl⟩ text

theorem State.aboveRest_advance_code {state : State} (code : state.region = .code) (text : Text) :
    AboveRest (state.lineCount + 1) (state.brackets.drop (leadingClosers text))
      (state.advance text).brackets := by
  -- The closing brackets with which a line of code begins are closed before anything else is
  -- read.
  have closers : ∀ c ∈ text.takeWhile isCloser, isCloser c = true :=
    fun c member => List.all_eq_true.mp List.all_takeWhile c member
  obtain ⟨read, closed⟩ := Cursor.run_closers (state.lineCount + 1) closers [] state.brackets
  have split : scanLine (state.lineCount + 1) state.region state.brackets text =
      Cursor.run (state.lineCount + 1) ⟨read, .code, state.brackets.drop (leadingClosers text)⟩
        (text.dropWhile isCloser) := by
    rw [scanLine, code, leadingClosers, ← closed, ← Cursor.run_append,
      List.takeWhile_append_dropWhile]
    rfl
  rw [advance, split]
  exact Cursor.aboveRest_run ⟨0, 0, rfl⟩ _

/-! The order of the open brackets. -/

/-- From the outermost bracket to the innermost the lines do not decrease, and they are among the lines
placed so far. -/
structure State.Ordered (state : State) : Prop where
  ascending : state.brackets.reverse.Pairwise (· ≤ ·)
  fromOne : state.FromOne
  numbered : state.Numbered

namespace State.Ordered

variable {state : State}

theorem initial : ({} : State).Ordered where
  ascending := List.Pairwise.nil
  fromOne _ member := absurd member List.not_mem_nil
  numbered := State.Numbered.initial

theorem skip (ordered : state.Ordered) : state.skip.Ordered where
  ascending := ordered.ascending
  fromOne := ordered.fromOne
  numbered := ordered.numbered.skip

theorem advance (ordered : state.Ordered) (text : Text) : (state.advance text).Ordered where
  ascending := by
    obtain ⟨opened, closed, brackets⟩ := state.aboveRest_advance text
    have descending := List.pairwise_reverse.mp ordered.ascending
    rw [brackets, List.pairwise_reverse, List.pairwise_append]
    refine ⟨List.pairwise_replicate.mpr (.inr (Nat.le_refl _)), descending.drop, ?_⟩
    -- The line at hand is behind all lines on which brackets were open before.
    intro line new other old
    rw [List.eq_of_mem_replicate new]
    exact Nat.le_succ_of_le (ordered.numbered other (List.mem_of_mem_drop old))
  fromOne := ordered.fromOne.advance text
  numbered := ordered.numbered.advance text

theorem placeLines (ordered : state.Ordered) (indent : Nat) (lines : List Text) :
    (state.placeLines indent lines).2.Ordered :=
  State.placeLines_keeps (fun _ holds => holds.skip) (fun _ text holds => holds.advance text) indent
    ordered lines

end State.Ordered

/-! Levels. -/

theorem level_le_of_subset {inner outer : List Nat} (inside : inner ⊆ outer) :
    level inner ≤ level outer := by
  rw [level_eq_card, level_eq_card]
  apply Finset.card_le_card
  intro line member
  rw [List.mem_toFinset] at member ⊢
  exact inside member

theorem AboveRest.level_le {line : Nat} {earlier brackets : List Nat}
    (above : AboveRest line earlier brackets) : level brackets ≤ level earlier + 1 := by
  obtain ⟨opened, closed, rfl⟩ := above
  have inside : List.replicate opened line ++ earlier.drop closed ⊆ line :: earlier := by
    intro bracket member
    rcases List.mem_append.mp member with new | old
    · exact List.mem_cons.mpr (.inl (List.eq_of_mem_replicate new))
    · exact List.mem_cons_of_mem line (List.mem_of_mem_drop old)
  have one : level (line :: earlier) ≤ level earlier + 1 := by
    rw [level]
    split <;> omega
  exact Nat.le_trans (level_le_of_subset inside) one

/-- How deep a line lies that begins in the state. The closing brackets with which it begins in code
belong to the outer level. -/
def State.lineLevel (state : State) (line : Text) : Nat :=
  if state.region = .comment then level state.brackets
  else level (state.brackets.drop (leadingClosers (Text.trim line)))

def State.lineMargin (state : State) (line : Text) : Text :=
  if state.region = .comment then starMargin (Text.trim line) else []

namespace State

variable {state : State} {line : Text}

theorem placeLine_lineLevel (outside : state.region ≠ .template) (ink : Text.trim line ≠ [])
    (indent : Nat) : (state.placeLine indent line).1 =
      Text.spaces (indent * state.lineLevel line) ++ state.lineMargin line ++ Text.trim line := by
  cases region : state.region with
  | template => exact absurd region outside
  | comment =>
    rw [placeLine_comment indent region ink, lineLevel, lineMargin, if_pos region, if_pos region]
    rfl
  | code =>
    have other : state.region ≠ .comment := by simp [region]
    rw [placeLine_code indent region ink, lineLevel, lineMargin, if_neg other, if_neg other,
      List.append_nil]
    rfl

theorem lineLevel_le (state : State) (line : Text) : state.lineLevel line ≤ level state.brackets := by
  unfold lineLevel
  split
  · exact Nat.le_refl _
  · exact level_le_of_subset (List.drop_subset _ _)

/-- Behind a line the brackets that are open make at most one level more than its own. -/
theorem level_placeLine_le (outside : state.region ≠ .template) (ink : Text.trim line ≠ [])
    (indent : Nat) :
    level (state.placeLine indent line).2.brackets ≤ state.lineLevel line + 1 := by
  cases region : state.region with
  | template => exact absurd region outside
  | comment =>
    rw [placeLine_comment indent region ink, lineLevel, if_pos region]
    exact (state.aboveRest_advance line).level_le
  | code =>
    rw [placeLine_code indent region ink, lineLevel, if_neg (by simp [region])]
    exact (aboveRest_advance_code region (Text.trim line)).level_le

theorem brackets_placeLine_blank (blank : Text.Blank line) (indent : Nat) (state : State) :
    (state.placeLine indent line).2.brackets = state.brackets := by
  by_cases template : state.region = .template
  · rw [placeLine_template indent template]
    exact (Cursor.run_blank (state.lineCount + 1) blank _).2
  · rw [placeLine_blank indent template (Text.trim_of_blank blank)]
    rfl

theorem brackets_placeLines_blank {blanks : List Text} (blank : ∀ line ∈ blanks, Text.Blank line)
    (indent : Nat) (state : State) :
    (state.placeLines indent blanks).2.brackets = state.brackets := by
  induction blanks generalizing state with
  | nil => rfl
  | cons line rest ih =>
    have first := brackets_placeLine_blank (blank line List.mem_cons_self) indent state
    exact (ih (fun other member => blank other (List.mem_cons_of_mem line member)) _).trans first

end State

/-- Whatever lines were placed, the open brackets are in the order of their lines, also in the midst of
the scan of one more line. And of two lines with ink between which there are only blank ones, the
second is at most one level deeper than the first, unless one of them begins inside a template
literal; the levels are those by which the two are indented. -/
theorem levels_climb_by_at_most_one (indent : Int) (earlier : List Text) :
    let before := (({} : State).placeLines indent.toNat earlier).2
    (before.Ordered ∧ ∀ scanned, (before.advance scanned).Ordered) ∧
      ∀ first blanks second,
        let behind := (before.placeLines indent.toNat (first :: blanks)).2
        before.region ≠ .template → behind.region ≠ .template → ¬ Text.Blank first →
          (∀ line ∈ blanks, Text.Blank line) → ¬ Text.Blank second →
          (before.placeLine indent.toNat first).1 =
              Text.spaces (indent.toNat * before.lineLevel first) ++ before.lineMargin first ++
                Text.trim first ∧
            (behind.placeLine indent.toNat second).1 =
              Text.spaces (indent.toNat * behind.lineLevel second) ++ behind.lineMargin second ++
                Text.trim second ∧
            behind.lineLevel second ≤ before.lineLevel first + 1 := by
  intro before
  have ordered : before.Ordered := State.Ordered.initial.placeLines indent.toNat earlier
  refine ⟨⟨ordered, ordered.advance⟩, ?_⟩
  intro first blanks second behind outside outsideToo firstInk blank secondInk
  have opened := State.level_placeLine_le outside (Text.trim_ne_nil firstInk) indent.toNat
  have kept : behind.brackets = (before.placeLine indent.toNat first).2.brackets :=
    State.brackets_placeLines_blank blank indent.toNat _
  refine ⟨State.placeLine_lineLevel outside (Text.trim_ne_nil firstInk) indent.toNat,
    State.placeLine_lineLevel outsideToo (Text.trim_ne_nil secondInk) indent.toNat, ?_⟩
  calc behind.lineLevel second ≤ level behind.brackets := behind.lineLevel_le second
    _ = level (before.placeLine indent.toNat first).2.brackets := by rw [kept]
    _ ≤ before.lineLevel first + 1 := opened

/-- Behind `f({[`, a line that closes four brackets where three are open, and then opens three. -/
theorem overclosed_line_climbs :
    let before := (({} : State).placeLines 2 [['f', '(', '{', '[']]).2
    let behind := (before.placeLines 2 [[']', '}', ')', ')', ' ', '(', '[', '{'], ['\t']]).2
    (before.region ≠ .template ∧ behind.region ≠ .template) ∧
      before.brackets = [1, 1, 1] ∧ behind.brackets = [2, 2, 2] ∧ behind.Ordered ∧
      (behind.placeLine 2 ['x']).1 = [' ', ' ', 'x'] ∧
      behind.lineLevel ['x'] ≤ before.lineLevel [']', '}', ')', ')', ' ', '(', '[', '{'] + 1 := by
  intro before behind
  have inCode : before.region ≠ .template ∧ behind.region ≠ .template := by decide
  obtain ⟨-, climbs⟩ := levels_climb_by_at_most_one 2 [['f', '(', '{', '[']]
  obtain ⟨-, placed, level⟩ := climbs [']', '}', ')', ')', ' ', '(', '[', '{'] [['\t']] ['x']
    inCode.1 inCode.2 (by decide) (by decide) (by decide)
  have ordered := (levels_climb_by_at_most_one 2
    [['f', '(', '{', '['], [']', '}', ')', ')', ' ', '(', '[', '{'], ['\t']]).1.1
  exact ⟨inCode, rfl, rfl, ordered, placed, level⟩

end OptionsApi.Layout
