import Mathlib.Data.List.Forall2
import Mathlib.Logic.Relation
import OptionsApi.Proofs.Layout.Literals
import OptionsApi.Proofs.Text.Cut

/-! What literals and comments hold does not show in the layout. Two lines that differ in one literal are
indented alike and leave the same state, so the lines behind them are not even placed differently; and
two texts that differ in literals only are indented alike from the first line to the last. -/

set_option autoImplicit false

namespace OptionsApi.Layout

/-! Two scans behind different literals. -/

/-- Two cursors that go on alike, with the very same brackets open. -/
structure Cursor.Matches (line : Nat) (left right : Cursor) : Prop where
  alike : Cursor.Alike line line left right
  brackets : left.brackets = right.brackets

namespace Cursor.Matches

variable {line : Nat} {left right : Cursor}

theorem step (matched : Matches line left right) (c : Char) :
    Matches line (left.step line c) (right.step line c) where
  alike := matched.alike.step c
  brackets := by simp only [Cursor.step, matched.alike.mode, matched.brackets]

theorem run (matched : Matches line left right) (text : Text) :
    Matches line (left.run line text) (right.run line text) := by
  induction text generalizing left right with
  | nil => exact matched
  | cons c rest ih => exact ih (matched.step c)

theorem behind (kind : LiteralKind) (line : Nat) (first second : Text) (brackets : List Nat) :
    Matches line ⟨kind.first :: first, .code, brackets⟩ ⟨kind.first :: second, .code, brackets⟩ where
  alike :=
    { mode := rfl
      nesting := SameNesting.refl _
      before := .inr fun text => by
        have noBlank : Text.isInlineBlank kind.first = false := by
          rcases kind with ⟨_ | _⟩ | _ | _ | _ | _ <;> rfl
        have noName : Text.isNameChar kind.first = false := by
          rcases kind with ⟨_ | _⟩ | _ | _ | _ | _ <;> decide
        exact opensRegex_append_stop noBlank noName text first second }
  brackets := rfl

end Cursor.Matches

section
variable {kind : LiteralKind} {left right start behind : Text}

theorem Cursor.run_exchanged (first : kind.Written left) (second : kind.Written right)
    (last : kind = .lineComment → behind = []) {cursor : Cursor} (begins : kind.Begins cursor)
    (line : Nat) :
    (cursor.run line (left ++ behind)).mode = (cursor.run line (right ++ behind)).mode ∧
      (cursor.run line (left ++ behind)).brackets = (cursor.run line (right ++ behind)).brackets := by
  by_cases comment : kind = .lineComment
  · subst comment
    obtain ⟨here, leftRan⟩ := first.scanned_lineComment line begins
    obtain ⟨there, rightRan⟩ := second.scanned_lineComment line begins
    rw [last rfl, List.append_nil, List.append_nil, leftRan, rightRan]
    exact ⟨rfl, rfl⟩
  · obtain ⟨here, leftRan⟩ := first.scanned comment line begins
    obtain ⟨there, rightRan⟩ := second.scanned comment line begins
    have matched := (Cursor.Matches.behind kind line here there cursor.brackets).run behind
    rw [Cursor.run_append, Cursor.run_append, leftRan, rightRan]
    exact ⟨matched.alike.mode, matched.brackets⟩

theorem State.advance_exchanged (state : State) (first : kind.Written left)
    (second : kind.Written right) (last : kind = .lineComment → behind = [])
    (begins : kind.Begins (scanLine (state.lineCount + 1) state.region state.brackets start)) :
    state.advance (start ++ left ++ behind) = state.advance (start ++ right ++ behind) := by
  obtain ⟨mode, brackets⟩ := Cursor.run_exchanged first second last begins (state.lineCount + 1)
  rw [scanLine, ← Cursor.run_append, ← Cursor.run_append] at mode brackets
  simp only [State.advance, scanLine, List.append_assoc, mode, brackets]

/-! Lines. -/

/-- A line is trimmed in front of a literal and behind it; of the literal itself only a line comment
loses blanks. -/
theorem LiteralKind.Written.trim_line (written : kind.Written left)
    (last : kind = .lineComment → behind = []) (start : Text) :
    ∃ literal, kind.Written literal ∧
      Text.trim (start ++ left ++ behind) = Text.trimStart start ++ literal ++ Text.trimEnd behind := by
  have begun : Text.trimStart (start ++ left ++ behind) = Text.trimStart start ++ left ++ behind := by
    rw [List.append_assoc, Text.trimStart_append_of_begins start (written.begins.append behind),
      List.append_assoc]
  rw [Text.trim, begun]
  by_cases comment : kind = .lineComment
  · subst comment
    have trimmed := written.trimEnd_lineComment
    have kept : Text.trimEnd left ≠ [] := trimmed.begins.ne_nil
    refine ⟨Text.trimEnd left, trimmed, ?_⟩
    rw [last rfl, List.append_nil, Text.trimEnd_append_of_ne_nil _ kept, Text.trimEnd, List.append_nil]
  · exact ⟨left, written, Text.trimEnd_append_of_ends ((written.ends comment).append _) behind⟩

end

def State.reached (state : State) (start : Text) : Cursor :=
  scanLine (state.lineCount + 1) state.region state.brackets
    (if state.region = .code then Text.trimStart start else start)

/-- The lines differ in one literal or comment, of the same kind on both sides, which the scan meets in
code. A line comment goes on to the end of the line. -/
inductive State.Exchanges (state : State) : Text → Text → Prop where
  | intro {kind : LiteralKind} {start left right behind : Text} : kind.Written left →
      kind.Written right → (kind = .lineComment → behind = []) → kind.Begins (state.reached start) →
      Exchanges state (start ++ left ++ behind) (start ++ right ++ behind)

def indentOf (line : Text) : Text := line.takeWhile Text.isBlank

theorem indentOf_append {blanks text : Text} (blank : Text.Blank blanks) (begins : Text.BeginsInk text) :
    indentOf (blanks ++ text) = blanks := by
  obtain ⟨c, rest, rfl, ink⟩ := begins
  exact Text.takeWhile_append_of_stops blank (by rintro d ⟨⟩; exact ink)

structure SameMargin (left right : Text) : Prop where
  indent : indentOf left = indentOf right
  empty : left = [] ↔ right = []

theorem SameMargin.isEmpty_eq {left right : Text} (same : SameMargin left right) :
    left.isEmpty = right.isEmpty := by
  rw [Bool.eq_iff_iff, List.isEmpty_iff, List.isEmpty_iff, same.empty]

/-- Outside template literals the margin of a line is told by the text up to its first ink that is no
closing bracket. -/
theorem State.sameMargin_of_trim (indent : Nat) {state : State} (outside : state.region ≠ .template)
    {line other start leftRest rightRest : Text} {c : Char} (inner : isCloser c = false)
    (leftTrim : Text.trim line = start ++ c :: leftRest)
    (rightTrim : Text.trim other = start ++ c :: rightRest) :
    SameMargin (state.placeLine indent line).1 (state.placeLine indent other).1 := by
  have leftInk : Text.trim line ≠ [] := by simp [leftTrim]
  have rightInk : Text.trim other ≠ [] := by simp [rightTrim]
  have leftBegins := (Text.ink_of_trim_ne_nil leftInk).1
  have rightBegins := (Text.ink_of_trim_ne_nil rightInk).1
  cases region : state.region with
  | template => exact absurd region outside
  | comment =>
    have margin : starMargin (Text.trim line) = starMargin (Text.trim other) := by
      rw [leftTrim, rightTrim]
      cases start <;> rfl
    have blank : Text.Blank (indentation indent state.brackets ++ starMargin (Text.trim other)) :=
      (indentation_blank indent state.brackets).append (starMargin_blank _)
    rw [placeLine_comment indent region leftInk, placeLine_comment indent region rightInk, margin]
    constructor
    · rw [indentOf_append blank leftBegins, indentOf_append blank rightBegins]
    · exact iff_of_false (by simp [leftInk]) (by simp [rightInk])
  | code =>
    have closers : leadingClosers (Text.trim line) = leadingClosers (Text.trim other) := by
      simp only [leftTrim, rightTrim, leadingClosers, Text.takeWhile_append_stop inner]
    rw [placeLine_code indent region leftInk, placeLine_code indent region rightInk, closers]
    constructor
    · rw [indentOf_append (indentation_blank _ _) leftBegins,
        indentOf_append (indentation_blank _ _) rightBegins]
    · exact iff_of_false (by simp [leftInk]) (by simp [rightInk])

theorem State.placeLine_of_ink (indent : Nat) (state : State) {line : Text} (ink : Text.trim line ≠ []) :
    (state.placeLine indent line).2 =
      state.advance (if state.region = .code then Text.trim line else line) := by
  cases region : state.region with
  | template => rw [placeLine_template indent region]; rfl
  | comment => rw [placeLine_comment indent region ink]; rfl
  | code => rw [placeLine_code indent region ink]; rfl

/-- Lines that differ in a literal get the same margin, and what follows them meets the same state. -/
theorem State.placeLine_exchanged (indent : Nat) {state : State} {line other : Text}
    (exchanged : state.Exchanges line other) :
    SameMargin (state.placeLine indent line).1 (state.placeLine indent other).1 ∧
      (state.placeLine indent line).2 = (state.placeLine indent other).2 := by
  obtain @⟨kind, start, left, right, behind, first, second, last, begins⟩ := exchanged
  obtain ⟨leftKept, firstKept, leftTrim⟩ := first.trim_line last start
  obtain ⟨rightKept, secondKept, rightTrim⟩ := second.trim_line last start
  obtain ⟨leftRest, leftShape⟩ := firstKept.exists_cons
  obtain ⟨rightRest, rightShape⟩ := secondKept.exists_cons
  have leftInk : Text.trim (start ++ left ++ behind) ≠ [] := by rw [leftTrim, leftShape]; simp
  have rightInk : Text.trim (start ++ right ++ behind) ≠ [] := by rw [rightTrim, rightShape]; simp
  have ending : kind = .lineComment → Text.trimEnd behind = [] := by
    intro comment
    rw [last comment]
    rfl
  constructor
  · by_cases template : state.region = .template
    -- Here the line is written as it is, and the literal does not stand among its first blanks.
    · obtain ⟨leftTail, rfl⟩ := first.exists_cons
      obtain ⟨rightTail, rfl⟩ := second.exists_cons
      rw [placeLine_template indent template, placeLine_template indent template, List.append_assoc,
        List.append_assoc]
      refine ⟨?_, iff_of_false (by simp) (by simp)⟩
      simp only [indentOf, List.cons_append, Text.takeWhile_append_stop kind.first_ink]
    · apply State.sameMargin_of_trim indent template kind.first_not_closer
      · rw [leftTrim, leftShape, List.append_assoc, List.cons_append]
      · rw [rightTrim, rightShape, List.append_assoc, List.cons_append]
  · rw [placeLine_of_ink indent state leftInk, placeLine_of_ink indent state rightInk]
    by_cases code : state.region = .code
    · rw [if_pos code, if_pos code, leftTrim, rightTrim]
      rw [reached, if_pos code] at begins
      exact state.advance_exchanged firstKept secondKept ending begins
    · rw [if_neg code, if_neg code]
      rw [reached, if_neg code] at begins
      exact state.advance_exchanged first second last begins

/-! Whole texts. -/

theorem SameMargin.refl (line : Text) : SameMargin line line := ⟨rfl, Iff.rfl⟩

structure PlacedLine.Matches (left right : PlacedLine) : Prop where
  margin : SameMargin left.text right.text
  inTemplate : left.inTemplate = right.inTemplate

theorem squeeze_forall₂ {left right : List PlacedLine} (matched : List.Forall₂ PlacedLine.Matches left right)
    (afterEmpty : Bool) : List.Forall₂ SameMargin (squeeze afterEmpty left) (squeeze afterEmpty right) := by
  induction matched generalizing afterEmpty with
  | nil => exact .nil
  | cons first _ ih =>
    rw [squeeze, squeeze, first.margin.isEmpty_eq, first.inTemplate]
    split
    · exact ih afterEmpty
    · exact .cons first.margin (ih _)

theorem dropTrailingEmpty_forall₂ {left right : List Text} (matched : List.Forall₂ SameMargin left right) :
    List.Forall₂ SameMargin (dropTrailingEmpty left) (dropTrailingEmpty right) := by
  induction matched with
  | nil => exact .nil
  | @cons line other leftRest rightRest first _ ih =>
    rw [dropTrailingEmpty, dropTrailingEmpty]
    generalize dropTrailingEmpty leftRest = leftKept at ih
    generalize dropTrailingEmpty rightRest = rightKept at ih
    cases ih with
    | nil =>
      rw [first.isEmpty_eq]
      dsimp only
      split
      · exact .nil
      · exact .cons first .nil
    | cons second later => exact .cons first (.cons second later)

theorem State.placeLines_exchanged (indent : Nat) (state : State) {line other : Text}
    (before behind : List Text)
    (exchanged : (state.placeLines indent before).2.Exchanges line other) :
    List.Forall₂ PlacedLine.Matches (state.placeLines indent (before ++ line :: behind)).1
      (state.placeLines indent (before ++ other :: behind)).1 := by
  obtain ⟨margin, same⟩ := State.placeLine_exchanged indent exchanged
  have unchanged (placed : List PlacedLine) : List.Forall₂ PlacedLine.Matches placed placed :=
    List.forall₂_same.mpr fun line _ => ⟨.refl line.text, rfl⟩
  rw [placeLines_append, placeLines_append]
  refine List.rel_append (unchanged _) ?_
  simp only [placeLines, same]
  exact .cons ⟨margin, rfl⟩ (unchanged _)

/-- The text has one literal or comment exchanged for another of its kind. -/
inductive Exchanged : Text → Text → Prop where
  | intro {left right line other : Text} {before behind : List Text} :
      Text.lines left = before ++ line :: behind → Text.lines right = before ++ other :: behind →
      (({} : State).placeLines 0 before).2.Exchanges line other → Exchanged left right

theorem State.placeLines_state (first second : Nat) (state : State) (lines : List Text) :
    (state.placeLines first lines).2 = (state.placeLines second lines).2 := by
  induction lines generalizing state with
  | nil => rfl
  | cons line rest ih => simp only [placeLines, ih, placeLine_state first second state line]

theorem Exchanged.indents_format {left right : Text} (exchanged : Exchanged left right) (indent : Int) :
    (Text.lines (format indent left)).map indentOf = (Text.lines (format indent right)).map indentOf := by
  cases exchanged with
  | @intro line other before behind leftLines rightLines here =>
    rw [State.placeLines_state 0 indent.toNat] at here
    have matched := dropTrailingEmpty_forall₂ (squeeze_forall₂
      (State.placeLines_exchanged indent.toNat {} before behind here) true)
    have indents : (layOutLines indent.toNat (before ++ line :: behind)).map indentOf =
        (layOutLines indent.toNat (before ++ other :: behind)).map indentOf := by
      rw [← List.forall₂_eq_eq_eq, List.forall₂_map_left_iff, List.forall₂_map_right_iff]
      exact matched.imp fun _ _ same => same.indent
    rw [lines_format, lines_format, leftLines, rightLines, List.map_append, List.map_append, indents]

/-- What literals and comments hold never affects the nesting. If a literal or comment that the scan
meets in code is exchanged for another of its kind, the line is indented as before and leaves the same
state. So two texts that differ in such literals and comments only are indented alike, line by line. -/
theorem contents_never_nest :
    (∀ (indent : Nat) (state : State) (line other : Text), state.Exchanges line other →
      indentOf (state.placeLine indent line).1 = indentOf (state.placeLine indent other).1 ∧
        (state.placeLine indent line).2 = (state.placeLine indent other).2) ∧
    ∀ (indent : Int) (left right : Text), Relation.ReflTransGen Exchanged left right →
      (Text.lines (format indent left)).map indentOf =
        (Text.lines (format indent right)).map indentOf ∧
      (tryFormat indent left).map (fun text => (Text.lines text).map indentOf) =
        (tryFormat indent right).map fun text => (Text.lines text).map indentOf := by
  constructor
  · intro indent state line other exchanged
    obtain ⟨margin, same⟩ := State.placeLine_exchanged indent exchanged
    exact ⟨margin.indent, same⟩
  · intro indent left right steps
    have indents : (Text.lines (format indent left)).map indentOf =
        (Text.lines (format indent right)).map indentOf := by
      induction steps with
      | refl => rfl
      | tail _ step ih => exact ih.trans (step.indents_format indent)
    refine ⟨indents, ?_⟩
    rw [tryFormat, tryFormat]
    cases indentWidth indent with
    | error error => rfl
    | ok width => exact congrArg Except.ok indents

def bracketsInLiterals (regex string : Text) : Text :=
  ['f', '(', '\n', ' ', '='] ++ regex ++ ['+'] ++ string ++ ['\n', ')']

/-- The class in the first regular expression hides its bracket, and the escapes in the other literals
hide what would close them. -/
theorem bracketsInLiterals_laid_out :
    let left := bracketsInLiterals ['/', '[', '/', '(', ']', '/'] ['\'', '{', '\'']
    let right := bracketsInLiterals ['/', '\\', '/', '}', '/'] ['\'', '\\', '\'', ')', '\'']
    Relation.ReflTransGen Exchanged left right ∧
      (tryFormat 2 left).map (fun text => (Text.lines text).map indentOf) =
        .ok [[], [' ', ' '], [], []] ∧
      (tryFormat 2 right).map (fun text => (Text.lines text).map indentOf) =
        .ok [[], [' ', ' '], [], []] := by
  have firstRegex : LiteralKind.regex.Written ['/', '[', '/', '(', ']', '/'] :=
    .regex (.charClass (.char (by decide) (by decide) (.char (by decide) (by decide) .nil)) .nil)
      (by decide) (by decide)
  have secondRegex : LiteralKind.regex.Written ['/', '\\', '/', '}', '/'] :=
    .regex (.escape '/' (.char (by decide) (by decide) (by decide) .nil)) (by decide) (by decide)
  have firstString : (LiteralKind.quoted .single).Written ['\'', '{', '\''] :=
    .quoted (.char (by decide) (by decide) .nil)
  have secondString : (LiteralKind.quoted .single).Written ['\'', '\\', '\'', ')', '\''] :=
    .quoted (.escape '\'' (.char (by decide) (by decide) .nil))
  have one : Exchanged (bracketsInLiterals ['/', '[', '/', '(', ']', '/'] ['\'', '{', '\''])
      (bracketsInLiterals ['/', '\\', '/', '}', '/'] ['\'', '{', '\'']) :=
    @Exchanged.intro _ _ _ _ [['f', '(']] [[')']] rfl rfl
      (@State.Exchanges.intro _ .regex [' ', '='] _ _ ['+', '\'', '{', '\''] firstRegex secondRegex
        (by simp) ⟨rfl, fun _ => rfl⟩)
  have two : Exchanged (bracketsInLiterals ['/', '\\', '/', '}', '/'] ['\'', '{', '\''])
      (bracketsInLiterals ['/', '\\', '/', '}', '/'] ['\'', '\\', '\'', ')', '\'']) :=
    @Exchanged.intro _ _ _ _ [['f', '(']] [[')']] rfl rfl
      (@State.Exchanges.intro _ (.quoted .single) [' ', '=', '/', '\\', '/', '}', '/', '+'] _ _ []
        firstString secondString (by simp) ⟨rfl, by simp⟩)
  have steps := (Relation.ReflTransGen.single one).tail two
  have indents := (contents_never_nest.2 2 _ _ steps).2
  have known : (tryFormat 2 (bracketsInLiterals ['/', '[', '/', '(', ']', '/'] ['\'', '{', '\''])).map
      (fun text => (Text.lines text).map indentOf) = .ok [[], [' ', ' '], [], []] := rfl
  exact ⟨steps, known, indents.symm.trans known⟩

end OptionsApi.Layout
