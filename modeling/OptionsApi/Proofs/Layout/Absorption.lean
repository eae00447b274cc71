import OptionsApi.Proofs.Layout.Inline
import OptionsApi.Proofs.Layout.Nesting
import OptionsApi.Proofs.Layout.Placement

/-! Laying out a text that is laid out already. The second pass numbers the lines differently, since
blank ones were dropped, and sees other blanks around them; the two passes still move in step, and
the indentation of the first leaves no trace in the second. -/

set_option autoImplicit false

namespace OptionsApi.Layout

/-! Two cursors in step. -/

/-- Whether a slash begins a literal does not depend on what stands before a character that is neither a
space or tab nor part of a name. -/
theorem opensRegex_append_stop {c : Char} (noBlank : Text.isInlineBlank c = false)
    (noName : Text.isNameChar c = false) (text left right : Text) :
    opensRegex (text ++ c :: left) = opensRegex (text ++ c :: right) := by
  have stops (rest : Text) : (c :: rest).dropWhile Text.isInlineBlank = c :: rest := by
    rw [List.dropWhile_cons_of_neg (by simp [noBlank])]
  have unnamed (rest : Text) : (c :: rest).takeWhile Text.isNameChar = [] := by
    rw [List.takeWhile_cons_of_neg (by simp [noName])]
  simp only [opensRegex, List.dropWhile_append, stops]
  cases kept : text.dropWhile Text.isInlineBlank with
  | nil => simp only [List.isEmpty_nil, if_true, unnamed]
  | cons d rest =>
    simp only [List.isEmpty_cons, Bool.false_eq_true, if_false, List.cons_append]
    rw [← List.cons_append, ← List.cons_append, List.takeWhile_append, List.takeWhile_append,
      unnamed, unnamed]

theorem opensRegex_append_slash (text left right : Text) :
    opensRegex (text ++ '/' :: left) = opensRegex (text ++ '/' :: right) :=
  opensRegex_append_stop (by decide) (by decide) text left right

/-- Two cursors at the same place of one text. The lines may be numbered otherwise, and what was
read before may differ as long as it cannot be told by a slash. -/
structure Cursor.Alike (leftLine rightLine : Nat) (left right : Cursor) : Prop where
  mode : left.mode = right.mode
  nesting : SameNesting (leftLine :: left.brackets) (rightLine :: right.brackets)
  before : left.mode.region = .comment ∨
    ∀ text, opensRegex (text ++ left.before) = opensRegex (text ++ right.before)

namespace Cursor.Alike

variable {leftLine rightLine : Nat} {left right : Cursor}

theorem next (alike : Alike leftLine rightLine left right) (c : Char) :
    left.mode.next left.before c = right.mode.next right.before c := by
  rw [← alike.mode]
  rcases alike.before with inside | same
  · cases mode : left.mode <;> simp_all [Mode.region, Mode.next]
  · have here : opensRegex left.before = opensRegex right.before := same []
    cases left.mode <;> simp only [Mode.next, codeMode, here]

theorem comment_or_slash (before : Text) (c : Char) {mode : Mode} (inside : mode.region = .comment) :
    (mode.next before c).region = .comment ∨ c = '/' := by
  cases mode with
  | comment =>
    left
    simp only [Mode.next]
    split <;> rfl
  | commentStar =>
    simp only [Mode.next]
    split
    · exact Or.inr ‹_›
    · left
      split <;> rfl
  | _ => simp [Mode.region] at inside

theorem step (alike : Alike leftLine rightLine left right) (c : Char) :
    Alike leftLine rightLine (left.step leftLine c) (right.step rightLine c) where
  mode := alike.next c
  nesting := by
    simp only [Cursor.step, ← alike.mode, bracketsAfter]
    split
    · split
      · exact alike.nesting.push
      · split
        · exact alike.nesting.pop
        · exact alike.nesting
    · exact alike.nesting
  before := by
    -- What was read inside a comment may differ until the slash that ends the comment is read.
    rcases alike.before with inside | same
    · rcases comment_or_slash left.before c inside with stays | closing
      · exact Or.inl stays
      · subst closing
        exact Or.inr fun text => opensRegex_append_slash text left.before right.before
    · right
      intro text
      have longer := same (text ++ [c])
      simpa only [List.append_assoc, List.singleton_append, Cursor.step] using longer

theorem run (alike : Alike leftLine rightLine left right) (text : Text) :
    Alike leftLine rightLine (left.run leftLine text) (right.run rightLine text) := by
  induction text generalizing left right with
  | nil => exact alike
  | cons c rest ih => exact ih (alike.step c)

end Cursor.Alike

/-! Blanks change neither the region nor the brackets. -/

theorem isOpener_of_isBlank {c : Char} (blank : Text.isBlank c = true) : isOpener c = false := by
  have round : c ≠ '(' := Text.ne_of_isBlank blank (by decide)
  have square : c ≠ '[' := Text.ne_of_isBlank blank (by decide)
  have curly : c ≠ '{' := Text.ne_of_isBlank blank (by decide)
  simp [isOpener, round, square, curly]

theorem isCloser_of_isBlank {c : Char} (blank : Text.isBlank c = true) : isCloser c = false := by
  have round : c ≠ ')' := Text.ne_of_isBlank blank (by decide)
  have square : c ≠ ']' := Text.ne_of_isBlank blank (by decide)
  have curly : c ≠ '}' := Text.ne_of_isBlank blank (by decide)
  simp [isCloser, round, square, curly]

theorem Mode.region_next_of_isBlank {before : Text} {c : Char} (blank : Text.isBlank c = true)
    (mode : Mode) : (mode.next before c).region = mode.region := by
  have noSlash : c ≠ '/' := Text.ne_of_isBlank blank (by decide)
  have noStar : c ≠ '*' := Text.ne_of_isBlank blank (by decide)
  have noSingle : c ≠ '\'' := Text.ne_of_isBlank blank (by decide)
  have noDouble : c ≠ '"' := Text.ne_of_isBlank blank (by decide)
  have noTick : c ≠ '`' := Text.ne_of_isBlank blank (by decide)
  have noBackslash : c ≠ '\\' := Text.ne_of_isBlank blank (by decide)
  have code : codeMode before c = .code := by simp [codeMode, noSlash, noSingle, noDouble, noTick]
  cases mode with
  | code => rw [Mode.next, code]
  | slash mayOpenRegex =>
    simp only [Mode.next, noSlash, noStar, if_false, code]
    split
    · split <;> rfl
    · rfl
  | lineComment => rfl
  | comment => simp only [Mode.next, noStar, if_false]
  | commentStar => simp only [Mode.next, noSlash, noStar, if_false]; rfl
  | quoted quote =>
    simp only [Mode.next, noBackslash, if_false]
    split <;> rfl
  | quotedEscape quote => rfl
  | template => simp only [Mode.next, noBackslash, noTick, if_false]
  | templateEscape => rfl
  | regex mode =>
    simp only [Mode.next]
    split <;> rfl

theorem Cursor.run_blank (line : Nat) {blanks : Text} (blank : Text.Blank blanks)
    (cursor : Cursor) :
    (cursor.run line blanks).mode.region = cursor.mode.region ∧
      (cursor.run line blanks).brackets = cursor.brackets := by
  induction blanks generalizing cursor with
  | nil => exact ⟨rfl, rfl⟩
  | cons c rest ih =>
    have first : Text.isBlank c = true := blank c List.mem_cons_self
    obtain ⟨region, brackets⟩ :=
      ih (Text.Within.tail blank) (cursor.step line c)
    have kept : (cursor.step line c).brackets = cursor.brackets := by
      simp [Cursor.step, bracketsAfter, isOpener_of_isBlank first, isCloser_of_isBlank first]
    exact ⟨region.trans (Mode.region_next_of_isBlank first cursor.mode), brackets.trans kept⟩

/-! Two states in step. -/

structure State.Alike (left right : State) : Prop where
  region : left.region = right.region
  nesting : SameNesting left.brackets right.brackets
  leftNumbered : left.Numbered
  rightNumbered : right.Numbered

namespace State.Alike

variable {left right : State}

theorem initial : State.Alike {} {} := ⟨rfl, SameNesting.nil, Numbered.initial, Numbered.initial⟩

theorem skipLeft (alike : left.Alike right) : left.skip.Alike right :=
  ⟨alike.region, alike.nesting, alike.leftNumbered.skip, alike.rightNumbered⟩

theorem skip (alike : left.Alike right) : left.skip.Alike right.skip :=
  ⟨alike.region, alike.nesting, alike.leftNumbered.skip, alike.rightNumbered.skip⟩

/-- The lines at hand are new on both sides, so a bracket opened on them is on no earlier line. -/
theorem nextLine (alike : left.Alike right) :
    SameNesting ((left.lineCount + 1) :: left.brackets) ((right.lineCount + 1) :: right.brackets) :=
  alike.nesting.fresh alike.leftNumbered.fresh alike.rightNumbered.fresh

theorem ofCursors (alike : left.Alike right) {leftText rightText : Text}
    (region : (scanLine (left.lineCount + 1) left.region left.brackets leftText).mode.region =
      (scanLine (right.lineCount + 1) right.region right.brackets rightText).mode.region)
    (nesting : SameNesting
      (scanLine (left.lineCount + 1) left.region left.brackets leftText).brackets
      (scanLine (right.lineCount + 1) right.region right.brackets rightText).brackets) :
    (left.advance leftText).Alike (right.advance rightText) :=
  ⟨region, nesting, alike.leftNumbered.advance leftText, alike.rightNumbered.advance rightText⟩

theorem advance (alike : left.Alike right) (text : Text) :
    (left.advance text).Alike (right.advance text) := by
  have start : Cursor.Alike (left.lineCount + 1) (right.lineCount + 1)
      ⟨[], left.region.mode, left.brackets⟩ ⟨[], right.region.mode, right.brackets⟩ :=
    ⟨congrArg Region.mode alike.region, alike.nextLine, Or.inr fun _ => rfl⟩
  have ran := start.run text
  exact alike.ofCursors (congrArg Mode.region ran.mode) ran.nesting.tail

theorem advanceComment (alike : left.Alike right) (inside : left.region = .comment) (text : Text)
    {leftBefore leftBehind rightBefore rightBehind : Text}
    (first : Text.Blank leftBefore) (second : Text.Blank leftBehind)
    (third : Text.Blank rightBefore) (fourth : Text.Blank rightBehind) :
    (left.advance (leftBefore ++ text ++ leftBehind)).Alike
      (right.advance (rightBefore ++ text ++ rightBehind)) := by
  -- A line that begins in a comment is scanned with the blanks around it, and they do not matter.
  obtain ⟨leftRead, leftStart⟩ :=
    Cursor.run_blank_comment (left.lineCount + 1) first [] left.brackets
  obtain ⟨rightRead, rightStart⟩ :=
    Cursor.run_blank_comment (right.lineCount + 1) third [] right.brackets
  have start : Cursor.Alike (left.lineCount + 1) (right.lineCount + 1)
      ⟨leftRead, .comment, left.brackets⟩ ⟨rightRead, .comment, right.brackets⟩ :=
    ⟨rfl, alike.nextLine, Or.inl rfl⟩
  have ran := start.run text
  -- The blanks behind the text may differ as well, but no region ends with a blank.
  have leftEnd := Cursor.run_blank (left.lineCount + 1) second
    (Cursor.run (left.lineCount + 1) ⟨leftRead, .comment, left.brackets⟩ text)
  have rightEnd := Cursor.run_blank (right.lineCount + 1) fourth
    (Cursor.run (right.lineCount + 1) ⟨rightRead, .comment, right.brackets⟩ text)
  apply alike.ofCursors
  · simp only [scanLine, ← alike.region, inside, Region.mode, Cursor.run_append, leftStart,
      rightStart, leftEnd.1, rightEnd.1, ran.mode]
  · simp only [scanLine, ← alike.region, inside, Region.mode, Cursor.run_append, leftStart,
      rightStart, leftEnd.2, rightEnd.2]
    exact ran.nesting.tail

end State.Alike

/-- Placing a line and placing the placed line come to the same, and the states stay in step. -/
theorem State.Alike.placeLine {left right : State} (alike : left.Alike right) (first second : Nat)
    (line : Text) :
    (right.placeLine second (left.placeLine first line).1).1 = (left.placeLine second line).1 ∧
      (left.placeLine second line).2.Alike
        (right.placeLine second (left.placeLine first line).1).2 := by
  by_cases template : left.region = .template
  · have same : right.region = .template := alike.region ▸ template
    rw [placeLine_template first template, placeLine_template second template,
      placeLine_template second same]
    exact ⟨rfl, alike.advance line⟩
  have outside : right.region ≠ .template := alike.region ▸ template
  by_cases blank : Text.trim line = []
  · rw [placeLine_blank first template blank, placeLine_blank second template blank,
      placeLine_blank second outside rfl]
    exact ⟨rfl, alike.skip⟩
  -- From here on there is ink in the line, and placing it changes only the blanks around it.
  have trimmed : Text.trim (left.placeLine first line).1 = Text.trim line := by
    rcases placeLine_text first left line with ⟨inside, _⟩ | ⟨_, count, placed⟩
    · exact absurd inside template
    · rw [placed, Text.trim_append_of_blank (Text.Blank.spaces count), Text.trim_trim]
  have ink : Text.trim (left.placeLine first line).1 ≠ [] := trimmed ▸ blank
  cases region : left.region with
  | template => exact absurd region template
  | comment =>
    have same : right.region = .comment := alike.region ▸ region
    rw [placeLine_comment second same ink, placeLine_comment second region blank, trimmed]
    constructor
    · simp only [indentation, alike.nesting.level_eq]
    -- Both sides scan the line with its blanks: those of the text, and those put there.
    · obtain ⟨before, behind, beforeBlank, behindBlank, whole⟩ := Text.exists_trim line
      have lead := (indentation_blank first left.brackets).append (starMargin_blank (Text.trim line))
      have stepped := alike.advanceComment region (Text.trim line) beforeBlank behindBlank lead
        Text.Blank.nil
      rw [whole, List.append_nil] at stepped
      rw [placeLine_comment first region blank]
      exact stepped
  | code =>
    have same : right.region = .code := alike.region ▸ region
    rw [placeLine_code second same ink, placeLine_code second region blank, trimmed]
    constructor
    · simp only [indentation, (alike.nesting.drop _).level_eq]
    · exact alike.advance (Text.trim line)

/-- A whole run over lines, and a run over what squeezing left of it, squeeze to the same. -/
theorem State.Alike.squeeze_placeLines {left right : State} (alike : left.Alike right)
    (first second : Nat) (lines : List Text) (afterEmpty : Bool) :
    squeeze afterEmpty
        (right.placeLines second (squeeze afterEmpty (left.placeLines first lines).1)).1 =
      squeeze afterEmpty (left.placeLines second lines).1 := by
  induction lines generalizing left right afterEmpty with
  | nil => rfl
  | cons line rest ih =>
    obtain ⟨sameText, sameState⟩ := alike.placeLine first second line
    have sameEmpty : (left.placeLine first line).1.isEmpty = (left.placeLine second line).1.isEmpty := by
      by_cases template : left.region = .template
      · rw [placeLine_template first template, placeLine_template second template]
      · rw [Bool.eq_iff_iff, List.isEmpty_iff, List.isEmpty_iff, placeLine_eq_nil_iff first template,
          placeLine_eq_nil_iff second template]
    simp only [placeLines, squeeze, sameEmpty, placeLine_state first second left line]
    split
    next dropped =>
      -- The second run does not get the line, so only the first state moves on.
      simp only [Bool.and_eq_true, Bool.not_eq_true', decide_eq_false_iff_not] at dropped
      obtain ⟨⟨empty, template⟩, _⟩ := dropped
      have blank := (placeLine_eq_nil_iff second template).mp (List.isEmpty_iff.mp empty)
      rw [placeLine_blank second template blank]
      exact ih alike.skipLeft afterEmpty
    next kept =>
      simp only [placeLines, squeeze, sameText, ← alike.region]
      rw [if_neg kept, ih sameState]

/-! Whole texts. -/

theorem State.single_of_mem_placeLines (indent : Nat) {lines : List Text}
    (single : ∀ line ∈ lines, '\n' ∉ line) (state : State) {placed : PlacedLine}
    (member : placed ∈ (state.placeLines indent lines).1) : '\n' ∉ placed.text := by
  induction lines generalizing state with
  | nil => exact absurd member List.not_mem_nil
  | cons line rest ih =>
    have whole : '\n' ∉ line := single line List.mem_cons_self
    rcases List.mem_cons.mp member with rfl | later
    · change '\n' ∉ (state.placeLine indent line).1
      rcases placeLine_text indent state line with ⟨_, same⟩ | ⟨_, count, same⟩
      · rwa [same]
      · rw [same, List.mem_append]
        rintro (inSpaces | inLine)
        · cases List.eq_of_mem_replicate inSpaces
        · exact whole (Text.mem_of_mem_trim inLine)
    · exact ih (fun other inside => single other (List.mem_cons_of_mem line inside)) _ later

theorem State.text_of_mem_placeLines_empty (indent : Nat) {lines : List Text}
    (empty : ∀ line ∈ lines, line = []) (state : State) {placed : PlacedLine}
    (member : placed ∈ (state.placeLines indent lines).1) : placed.text = [] := by
  induction lines generalizing state with
  | nil => exact absurd member List.not_mem_nil
  | cons line rest ih =>
    obtain rfl : line = [] := empty line List.mem_cons_self
    rcases List.mem_cons.mp member with rfl | later
    · change (state.placeLine indent []).1 = []
      rcases placeLine_text indent state [] with ⟨_, same⟩ | ⟨outside, _⟩
      · exact same
      · exact (placeLine_eq_nil_iff indent outside).mpr rfl
    · exact ih (fun other inside => empty other (List.mem_cons_of_mem [] inside)) _ later

theorem dropTrailingEmpty_squeeze_placeLines_append (indent : Nat) (state : State)
    (lines : List Text) {empties : List Text} (empty : ∀ line ∈ empties, line = []) :
    dropTrailingEmpty (squeeze true (state.placeLines indent (lines ++ empties)).1) =
      dropTrailingEmpty (squeeze true (state.placeLines indent lines).1) := by
  rw [State.placeLines_append]
  exact dropTrailingEmpty_squeeze_append true _
    fun _ member => State.text_of_mem_placeLines_empty indent empty _ member

def layOutLines (width : Nat) (lines : List Text) : List Text :=
  dropTrailingEmpty (squeeze true (({} : State).placeLines width lines).1)

theorem format_eq (indent : Int) (text : Text) :
    format indent text = Text.ofLines (layOutLines indent.toNat (Text.lines text)) := rfl

theorem lines_format (indent : Int) (text : Text) :
    Text.lines (format indent text) = layOutLines indent.toNat (Text.lines text) ++ [[]] := by
  rw [format_eq]
  apply Text.lines_ofLines
  intro line member
  obtain ⟨placed, inside, rfl⟩ := mem_of_mem_squeeze (mem_of_mem_dropTrailingEmpty member)
  exact State.single_of_mem_placeLines _ (fun _ => Text.single_of_mem_lines) _ inside

theorem layOutLines_append_empty (width : Nat) (lines : List Text) {empties : List Text}
    (empty : ∀ line ∈ empties, line = []) :
    layOutLines width (lines ++ empties) = layOutLines width lines :=
  dropTrailingEmpty_squeeze_placeLines_append width {} lines empty

/-- What is laid out a second time is laid out as if it had not been before. -/
theorem layOutLines_layOutLines (first second : Nat) (lines : List Text) :
    layOutLines second (layOutLines first lines) = layOutLines second lines := by
  let squeezed := squeeze true (({} : State).placeLines first lines).1
  obtain ⟨count, whole⟩ := exists_dropTrailingEmpty squeezed
  calc layOutLines second (layOutLines first lines)
      = layOutLines second (dropTrailingEmpty squeezed ++ List.replicate count []) :=
        (layOutLines_append_empty second _ fun _ => List.eq_of_mem_replicate).symm
    _ = layOutLines second squeezed := by rw [whole]
    _ = layOutLines second lines := by
        rw [layOutLines, State.Alike.initial.squeeze_placeLines first second lines true, layOutLines]

theorem format_format (first second : Int) (text : Text) :
    format second (format first text) = format second text := by
  rw [format_eq second, lines_format,
    layOutLines_append_empty _ _ fun _ => List.mem_singleton.mp, layOutLines_layOutLines,
    ← format_eq]

/-- Formatting absorbs earlier formatting, whatever the text and the two indentations. Only an
indentation for which there are no spaces is not absorbed: then nothing is formatted. -/
theorem tryFormat_absorbs (first second : Int) (text : Text) :
    (tryFormat first text).bind (tryFormat second) =
        (indentWidth first).bind (fun _ => tryFormat second text) ∧
      format second (format first text) = format second text := by
  refine ⟨?_, format_format first second text⟩
  have again : tryFormat second (format first text) = tryFormat second text := by
    simp only [tryFormat, format_format]
  cases usable : indentWidth first with
  | error error => simp only [tryFormat, usable, Except.map, Except.bind]
  | ok width =>
    have once : tryFormat first text = .ok (format first text) := by
      simp only [tryFormat, usable, Except.map]
    rw [once]
    exact again

/-- An indentation that fits no word stops the work, even one below zero. -/
theorem tryFormat_below_word :
    (tryFormat (-0x8000000000000001) ['x']).bind (tryFormat 2) ≠ tryFormat 2 ['x'] := by
  intro same
  cases same

end OptionsApi.Layout
