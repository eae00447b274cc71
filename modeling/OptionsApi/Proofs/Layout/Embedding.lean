import OptionsApi.Proofs.Layout.Exchange

/-! Blocks of lines that close only brackets of their own. Behind open brackets such a block is laid out
as it is alone, only further to the right, and it leaves these brackets open: its own brackets lie above
them and on other lines, so neither the scan nor the level of a line reaches down to them. -/

set_option autoImplicit false

namespace OptionsApi.Layout

/-! Levels of brackets that lie above others. -/

theorem level_map_add (brackets : List Nat) (offset : Nat) :
    level (brackets.map (· + offset)) = level brackets := by
  induction brackets with
  | nil => rfl
  | cons line rest ih =>
    have member : line + offset ∈ rest.map (· + offset) ↔ line ∈ rest := by simp
    simp only [List.map_cons, level, member, ih]

theorem level_append {upper lower : List Nat} (apart : ∀ line ∈ upper, line ∉ lower) :
    level (upper ++ lower) = level upper + level lower := by
  induction upper with
  | nil => simp [level]
  | cons line rest ih =>
    have member : line ∈ rest ++ lower ↔ line ∈ rest := by simp [apart line List.mem_cons_self]
    have later := ih fun other inside => apart other (List.mem_cons_of_mem line inside)
    simp only [List.cons_append, level, member, later]
    split <;> omega

/-! What every run over lines keeps. -/

theorem State.placeLine_keeps {good : State → Prop} (skips : ∀ state, good state → good state.skip)
    (advances : ∀ state text, good state → good (state.advance text)) (indent : Nat) {state : State}
    (holds : good state) (line : Text) : good (state.placeLine indent line).2 := by
  by_cases template : state.region = .template
  · rw [placeLine_template indent template]
    exact advances state line holds
  by_cases blank : Text.trim line = []
  · rw [placeLine_blank indent template blank]
    exact skips state holds
  · rw [placeLine_of_ink indent state blank]
    exact advances state _ holds

/-- A line is counted and at most scanned. What neither destroys is kept by a whole run. -/
theorem State.placeLines_keeps {good : State → Prop} (skips : ∀ state, good state → good state.skip)
    (advances : ∀ state text, good state → good (state.advance text)) (indent : Nat) {state : State}
    (holds : good state) (lines : List Text) : good (state.placeLines indent lines).2 := by
  induction lines generalizing state with
  | nil => exact holds
  | cons line rest ih => exact ih (placeLine_keeps skips advances indent holds line)

theorem State.Numbered.placeLines {state : State} (numbered : state.Numbered) (indent : Nat)
    (lines : List Text) : (state.placeLines indent lines).2.Numbered :=
  State.placeLines_keeps (fun _ holds => holds.skip) (fun _ text holds => holds.advance text) indent
    numbered lines

def State.FromOne (state : State) : Prop := ∀ line ∈ state.brackets, 0 < line

theorem State.FromOne.advance {state : State} (fromOne : state.FromOne) (text : Text) :
    (state.advance text).FromOne := by
  intro line member
  rcases Cursor.mem_brackets_run text member with rfl | earlier
  · exact Nat.succ_pos _
  · exact fromOne line earlier

theorem State.FromOne.placeLine {state : State} (fromOne : state.FromOne) (indent : Nat)
    (line : Text) : (state.placeLine indent line).2.FromOne :=
  State.placeLine_keeps (fun _ holds => holds) (fun _ text holds => holds.advance text) indent fromOne
    line

/-! Blocks that close only what they open. -/

/-- No closing bracket that counts is read while no bracket is open. -/
def Cursor.ClosesOwn (line : Nat) (cursor : Cursor) : Text → Prop
  | [] => True
  | c :: rest =>
    (cursor.mode.readsCode c = true → isCloser c = true → cursor.brackets ≠ []) ∧
      (cursor.step line c).ClosesOwn line rest

instance Cursor.decidableClosesOwn (line : Nat) :
    (cursor : Cursor) → (text : Text) → Decidable (cursor.ClosesOwn line text)
  | _, [] => isTrue trivial
  | cursor, c :: rest =>
    have := Cursor.decidableClosesOwn line (cursor.step line c) rest
    inferInstanceAs (Decidable (_ ∧ _))

/-- The line closes only what is open in the state. A line that begins in code is scanned without the
blanks around it. -/
def State.ClosesOwn (state : State) (line : Text) : Prop :=
  Cursor.ClosesOwn (state.lineCount + 1) ⟨[], state.region.mode, state.brackets⟩
    (if state.region = .code then Text.trim line else line)

instance (state : State) (line : Text) : Decidable (state.ClosesOwn line) :=
  inferInstanceAs (Decidable (Cursor.ClosesOwn ..))

/-- As the lines are laid out from the state on, no closing bracket meets an empty list of open ones. -/
def State.SelfContained (state : State) : List Text → Prop
  | [] => True
  | line :: rest => state.ClosesOwn line ∧ (state.placeLine 0 line).2.SelfContained rest

instance State.decidableSelfContained :
    (state : State) → (lines : List Text) → Decidable (state.SelfContained lines)
  | _, [] => isTrue trivial
  | state, line :: rest =>
    have := State.decidableSelfContained (state.placeLine 0 line).2 rest
    inferInstanceAs (Decidable (_ ∧ _))

theorem Cursor.ClosesOwn.leadingClosers_le {line : Nat} {before text : Text} {brackets : List Nat}
    (closes : Cursor.ClosesOwn line ⟨before, .code, brackets⟩ text) :
    leadingClosers text ≤ brackets.length := by
  induction text generalizing before brackets with
  | nil => exact Nat.zero_le _
  | cons c rest ih =>
    by_cases closer : isCloser c = true
    · obtain ⟨here, later⟩ := closes
      have opened : 0 < brackets.length := List.length_pos_of_ne_nil (here rfl closer)
      rw [Cursor.step_closer line closer] at later
      have shorter := ih later
      rw [List.length_tail] at shorter
      have one : leadingClosers (c :: rest) = leadingClosers rest + 1 := by
        simp [leadingClosers, closer]
      omega
    · simp [leadingClosers, closer]

/-! A run above brackets that are open before it. -/

namespace State

variable (ground : State)

def liftBrackets (brackets : List Nat) : List Nat :=
  brackets.map (· + ground.lineCount) ++ ground.brackets

def liftCursor (cursor : Cursor) : Cursor :=
  { cursor with brackets := ground.liftBrackets cursor.brackets }

def lift (state : State) : State where
  brackets := ground.liftBrackets state.brackets
  region := state.region
  lineCount := state.lineCount + ground.lineCount

theorem lift_initial {ground : State} (code : ground.region = .code) : ground.lift {} = ground := by
  obtain ⟨brackets, region, lineCount⟩ := ground
  cases code
  simp [lift, liftBrackets]

theorem drop_liftBrackets {count : Nat} {brackets : List Nat} (enough : count ≤ brackets.length) :
    (ground.liftBrackets brackets).drop count = ground.liftBrackets (brackets.drop count) := by
  rw [liftBrackets, List.drop_append_of_le_length (by simpa using enough), ← List.map_drop, liftBrackets]

theorem level_liftBrackets {ground : State} (numbered : ground.Numbered) {brackets : List Nat}
    (fromOne : ∀ line ∈ brackets, 0 < line) :
    level (ground.liftBrackets brackets) = level brackets + level ground.brackets := by
  have apart : ∀ line ∈ brackets.map (· + ground.lineCount), line ∉ ground.brackets := by
    intro line upper lower
    obtain ⟨own, inside, rfl⟩ := List.mem_map.mp upper
    have above := fromOne own inside
    have below := numbered _ lower
    omega
  rw [liftBrackets, level_append apart, level_map_add]

theorem bracketsAfter_lift (line : Nat) {c : Char} {brackets : List Nat}
    (meets : isCloser c = true → brackets ≠ []) :
    bracketsAfter (line + ground.lineCount) c (ground.liftBrackets brackets) =
      ground.liftBrackets (bracketsAfter line c brackets) := by
  unfold bracketsAfter
  split
  · rfl
  · split
    next closer =>
      have opened : brackets.map (· + ground.lineCount) ≠ [] := by simpa using meets closer
      rw [liftBrackets, List.tail_append_of_ne_nil opened, ← List.map_tail, liftBrackets]
    next => rfl

theorem step_liftCursor (line : Nat) {cursor : Cursor} {c : Char}
    (meets : cursor.mode.readsCode c = true → isCloser c = true → cursor.brackets ≠ []) :
    (ground.liftCursor cursor).step (line + ground.lineCount) c =
      ground.liftCursor (cursor.step line c) := by
  by_cases code : cursor.mode.readsCode c = true
  · simp only [Cursor.step, liftCursor, code, if_true, bracketsAfter_lift ground line (meets code)]
  · simp only [Cursor.step, liftCursor, code, Bool.false_eq_true, if_false]

theorem run_liftCursor (line : Nat) {cursor : Cursor} {text : Text}
    (closes : cursor.ClosesOwn line text) :
    (ground.liftCursor cursor).run (line + ground.lineCount) text =
      ground.liftCursor (cursor.run line text) := by
  induction text generalizing cursor with
  | nil => rfl
  | cons c rest ih =>
    obtain ⟨here, later⟩ := closes
    change Cursor.run _ ((ground.liftCursor cursor).step _ c) rest = _
    rw [step_liftCursor ground line here, ih later]
    rfl

theorem advance_lift {state : State} {text : Text}
    (closes : Cursor.ClosesOwn (state.lineCount + 1) ⟨[], state.region.mode, state.brackets⟩ text) :
    (ground.lift state).advance text = ground.lift (state.advance text) := by
  have ran := run_liftCursor ground (state.lineCount + 1) closes
  rw [Nat.add_right_comm] at ran
  simp only [advance, scanLine, lift]
  change State.mk (Cursor.run _ (ground.liftCursor ⟨[], state.region.mode, state.brackets⟩) text).brackets
    (Cursor.run _ (ground.liftCursor ⟨[], state.region.mode, state.brackets⟩) text).mode.region _ = _
  rw [ran, Nat.add_right_comm]
  rfl

end State

/-- The line so many columns further to the right, unless it is blank or begins inside a template
literal. -/
def PlacedLine.shift (columns : Nat) (line : PlacedLine) : PlacedLine :=
  if line.inTemplate = true ∨ Text.Blank line.text then line
  else { line with text := Text.spaces columns ++ line.text }

theorem PlacedLine.shift_indented (indent : Nat) {brackets upper lower : List Nat}
    (levels : level brackets = level upper + level lower) {body : Text} (ink : Text.trim body ≠ []) :
    PlacedLine.shift (indent * level lower) ⟨indentation indent upper ++ body, false⟩ =
      ⟨indentation indent brackets ++ body, false⟩ := by
  have visible : ¬ Text.Blank (indentation indent upper ++ body) := by
    intro blank
    apply ink
    rw [← Text.trim_append_of_blank (indentation_blank indent upper), Text.trim_of_blank blank]
  have margin : indentation indent brackets =
      Text.spaces (indent * level lower) ++ indentation indent upper := by
    rw [indentation, levels, Nat.add_comm, Nat.mul_add, Text.spaces_add, indentation]
  simp [shift, visible, margin]

/-- One line of a block, above the ground and alone. -/
theorem State.placeLine_lift {ground state : State} (numbered : ground.Numbered)
    (fromOne : state.FromOne) (indent : Nat) {line : Text} (closes : state.ClosesOwn line) :
    PlacedLine.mk ((ground.lift state).placeLine indent line).1 (state.region = .template) =
        PlacedLine.shift (indent * level ground.brackets)
          ⟨(state.placeLine indent line).1, state.region = .template⟩ ∧
      ((ground.lift state).placeLine indent line).2 = ground.lift (state.placeLine indent line).2 := by
  have same : (ground.lift state).region = state.region := rfl
  by_cases template : state.region = .template
  · rw [ClosesOwn, if_neg (by simp [template])] at closes
    rw [placeLine_template indent template, placeLine_template indent (same.trans template)]
    exact ⟨by simp [PlacedLine.shift, template], advance_lift ground closes⟩
  by_cases blank : Text.trim line = []
  · rw [placeLine_blank indent template blank, placeLine_blank indent (same ▸ template) blank]
    refine ⟨by simp [PlacedLine.shift], ?_⟩
    simp only [skip, lift, Nat.add_right_comm]
  cases region : state.region with
  | template => exact absurd region template
  | comment =>
    rw [ClosesOwn, if_neg (by simp [region])] at closes
    have ink : Text.trim (starMargin (Text.trim line) ++ Text.trim line) ≠ [] := by
      rwa [Text.trim_append_of_blank (starMargin_blank _), Text.trim_trim]
    rw [placeLine_comment indent region blank, placeLine_comment indent (same.trans region) blank,
      List.append_assoc, List.append_assoc]
    exact ⟨(PlacedLine.shift_indented indent (level_liftBrackets numbered fromOne) ink).symm,
      advance_lift ground closes⟩
  | code =>
    rw [ClosesOwn, if_pos region] at closes
    have enough : leadingClosers (Text.trim line) ≤ state.brackets.length := by
      rw [region] at closes
      exact closes.leadingClosers_le
    have inner : ∀ bracket ∈ state.brackets.drop (leadingClosers (Text.trim line)), 0 < bracket :=
      fun bracket member => fromOne bracket (List.mem_of_mem_drop member)
    have levels := level_liftBrackets numbered inner
    rw [← drop_liftBrackets ground enough] at levels
    rw [placeLine_code indent region blank, placeLine_code indent (same.trans region) blank]
    exact ⟨(PlacedLine.shift_indented indent levels (by rwa [Text.trim_trim])).symm,
      advance_lift ground closes⟩

/-- A whole block, above the ground and alone. -/
theorem State.placeLines_lift {ground state : State} (numbered : ground.Numbered)
    (fromOne : state.FromOne) (indent : Nat) {lines : List Text}
    (contained : state.SelfContained lines) :
    (ground.lift state).placeLines indent lines =
      ((state.placeLines indent lines).1.map (PlacedLine.shift (indent * level ground.brackets)),
        ground.lift (state.placeLines indent lines).2) := by
  induction lines generalizing state with
  | nil => rfl
  | cons line rest ih =>
    obtain ⟨closes, later⟩ := contained
    obtain ⟨text, next⟩ := placeLine_lift numbered fromOne indent closes
    rw [placeLine_state 0 indent] at later
    have placed := ih (fromOne.placeLine indent line) later
    simp only [placeLines, next, placed, List.map_cons, ← text]
    rfl

/-- Formatting a block that closes only its own brackets does not depend on where it stands. Behind any
lines that end in code it is laid out as it is alone, with the indentation of the brackets open there
in front of every line that is neither blank nor begins inside a template literal; and if it leaves no
bracket of its own open, the brackets open behind it are those it found. -/
theorem selfContained_block_moves (indent : Int) (earlier lines : List Text) :
    let state := (({} : State).placeLines indent.toNat earlier).2
    let alone := ({} : State).placeLines indent.toNat lines
    let moved := state.placeLines indent.toNat lines
    state.region = .code → ({} : State).SelfContained lines →
      moved.1 = alone.1.map (PlacedLine.shift (indent.toNat * level state.brackets)) ∧
        moved.2.region = alone.2.region ∧
        (alone.2.brackets = [] → moved.2.brackets = state.brackets) := by
  intro state alone moved code contained
  have numbered : state.Numbered := State.Numbered.initial.placeLines indent.toNat earlier
  have fromOne : ({} : State).FromOne := fun _ member => absurd member List.not_mem_nil
  have placed := State.placeLines_lift numbered fromOne indent.toNat contained
  rw [State.lift_initial code] at placed
  have states : moved.2 = state.lift alone.2 := congrArg Prod.snd placed
  rw [states]
  refine ⟨congrArg Prod.fst placed, rfl, fun closed => ?_⟩
  rw [State.lift, State.liftBrackets, closed]
  rfl

def arrayBlock : List Text :=
  [['a', ':', ' ', '[', '`', '('], [' ', ')', '`', ','], [' '], ['/', '*', ' ', ']'],
    ['*', ' ', '}', ' ', '*', '/'], [']']]

theorem arrayBlock_moves :
    let state := (({} : State).placeLines 2 [['f', '(', '{'], ['g', '(']]).2
    state.region = .code ∧ ({} : State).SelfContained arrayBlock ∧
      (state.placeLines 2 arrayBlock).1.map PlacedLine.text =
        [[' ', ' ', ' ', ' ', 'a', ':', ' ', '[', '`', '('], [' ', ')', '`', ','], [],
          [' ', ' ', ' ', ' ', ' ', ' ', '/', '*', ' ', ']'],
          [' ', ' ', ' ', ' ', ' ', ' ', ' ', '*', ' ', '}', ' ', '*', '/'],
          [' ', ' ', ' ', ' ', ']']] ∧
      (state.placeLines 2 arrayBlock).2.brackets = [2, 1, 1] := by
  intro state
  have contained : ({} : State).SelfContained arrayBlock := by decide
  obtain ⟨texts, _, brackets⟩ :=
    selfContained_block_moves 2 [['f', '(', '{'], ['g', '(']] arrayBlock rfl contained
  exact ⟨rfl, contained, congrArg (List.map PlacedLine.text) texts, brackets rfl⟩

end OptionsApi.Layout
