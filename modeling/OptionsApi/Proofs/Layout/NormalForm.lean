import Mathlib.Data.Finset.Card
import OptionsApi.Proofs.Layout.TemplateScan

/-! Formatted texts are in normal form. The form is told from the text itself: the scan of the lines
before a line says what the line begins in and which brackets are open there, and so how far it has to
be indented. The formatter decides all this from the text it was given; the two scans stay in step,
although the lines between them were trimmed, indented and in part dropped. -/

set_option autoImplicit false

namespace OptionsApi.Layout

/-! The form. -/

def stateBehind (lines : List Text) : State := lines.foldl State.advance {}

/-- The column of the first ink of a line that begins in the state; the line is given from that ink on.
The closing brackets in front belong to the outer level. In a comment brackets do not count, and a star
goes one column further. -/
def State.column (indent : Nat) (state : State) (body : Text) : Nat :=
  match state.region with
  | .comment => indent * state.brackets.toFinset.card + if body.head? = some '*' then 1 else 0
  | _ => indent * (state.brackets.drop (leadingClosers body)).toFinset.card

/-- No blank ends the line, and if it is not empty nothing but spaces stands before its first ink, as
many as there have to be. -/
structure State.Fits (indent : Nat) (state : State) (line : Text) : Prop where
  ending : ∀ c, line.getLast? = some c → Text.isBlank c = false
  margin : ¬ Text.Blank line → ∃ body, Text.BeginsInk body ∧
    line = Text.spaces (state.column indent body) ++ body

/-- The text is empty or has one line feed at its end, and none at its start. Outside template literals
every line fits where it stands, and no empty one follows another. -/
structure NormalForm (indent : Nat) (text : Text) : Prop where
  ending : text = [] ∨ ∃ start c, text = start ++ [c, '\n'] ∧ c ≠ '\n'
  start : text.head? ≠ some '\n'
  fits : ∀ before line behind, Text.lines text = before ++ line :: behind →
    (stateBehind before).region ≠ .template → (stateBehind before).Fits indent line
  apart : ∀ before line behind, Text.lines text = before ++ line :: behind →
    (stateBehind before).region ≠ .template → line = [] → before.getLast? ≠ some []

theorem level_eq_card (brackets : List Nat) : level brackets = brackets.toFinset.card := by
  induction brackets with
  | nil => rfl
  | cons line rest ih =>
    rw [level, List.toFinset_cons]
    split
    next member => rw [Finset.insert_eq_of_mem (List.mem_toFinset.mpr member), ih]
    next absent => rw [Finset.card_insert_of_notMem (by rwa [List.mem_toFinset]), ih]

theorem State.column_comment {state : State} (inside : state.region = .comment) (indent : Nat)
    (body : Text) :
    state.column indent body = indent * level state.brackets + if body.head? = some '*' then 1 else 0 := by
  simp only [column, inside, level_eq_card]

theorem State.column_code {state : State} (inside : state.region = .code) (indent : Nat) (body : Text) :
    state.column indent body = indent * level (state.brackets.drop (leadingClosers body)) := by
  simp only [column, inside, level_eq_card]

theorem State.fits_nil (indent : Nat) (state : State) : state.Fits indent [] where
  ending c last := by simp at last
  margin visible := absurd Text.Blank.nil visible

/-! The scan of a formatted line. -/

theorem inline_spaces (count : Nat) : Text.Within Text.isInlineBlank (Text.spaces count) := by
  intro c member
  rw [List.eq_of_mem_replicate member]
  rfl

theorem State.advance_nil (state : State) : state.advance [] = state.skip := by
  obtain ⟨brackets, region, lineCount⟩ := state
  cases region <;> rfl

namespace State.Alike

variable {left right : State}

theorem advance_indented (alike : left.Alike right) (code : left.region = .code) (count : Nat)
    (text : Text) : (left.advance text).Alike (right.advance (Text.spaces count ++ text)) := by
  -- The indentation leaves blanks behind, which decide nothing about a slash.
  have same : right.region = .code := alike.region ▸ code
  have blank := Text.Blank.spaces count
  have reversed : (Text.spaces count).reverse = Text.spaces count := List.reverse_replicate ..
  have start : Cursor.Alike (left.lineCount + 1) (right.lineCount + 1) ⟨[], .code, left.brackets⟩
      ⟨Text.spaces count, .code, right.brackets⟩ := by
    refine ⟨rfl, alike.nextLine, Or.inr fun before => ?_⟩
    rw [List.append_nil, opensRegex_append_inline before (inline_spaces count)]
  have ran := start.run text
  have indented : scanLine (right.lineCount + 1) right.region right.brackets (Text.spaces count ++ text) =
      Cursor.run (right.lineCount + 1) ⟨Text.spaces count, .code, right.brackets⟩ text := by
    rw [scanLine, Cursor.run_append, Cursor.run_blank_start (by simp [same]) blank, same, reversed,
      List.append_nil]
    rfl
  apply alike.ofCursors
  · rw [indented, code]
    exact congrArg Mode.region ran.mode
  · rw [indented, code]
    exact ran.nesting.tail

/-- The scan of a formatted line keeps in step with the formatter. -/
theorem advance_placed (alike : left.Alike right) (indent : Nat) (line : Text) :
    (left.placeLine indent line).2.Alike (right.advance (left.placeLine indent line).1) := by
  by_cases template : left.region = .template
  · rw [placeLine_template indent template]
    exact alike.advance line
  by_cases blank : Text.trim line = []
  · rw [placeLine_blank indent template blank, State.advance_nil]
    exact alike.skip
  cases region : left.region with
  | template => exact absurd region template
  | comment =>
    rw [placeLine_comment indent region blank]
    obtain ⟨before, behind, beforeBlank, behindBlank, whole⟩ := Text.exists_trim line
    have lead := (indentation_blank indent left.brackets).append (starMargin_blank (Text.trim line))
    have stepped := alike.advanceComment region (Text.trim line) beforeBlank behindBlank lead
      Text.Blank.nil
    rwa [whole, List.append_nil] at stepped
  | code =>
    rw [placeLine_code indent region blank]
    exact alike.advance_indented region _ (Text.trim line)

theorem fits_placed (alike : left.Alike right) (outside : left.region ≠ .template) (indent : Nat)
    (line : Text) : right.Fits indent (left.placeLine indent line).1 := by
  by_cases blank : Text.trim line = []
  · rw [placeLine_blank indent outside blank]
    exact right.fits_nil indent
  obtain ⟨begins, ends⟩ := Text.ink_of_trim_ne_nil blank
  have placed : (left.placeLine indent line).1 =
      Text.spaces (right.column indent (Text.trim line)) ++ Text.trim line := by
    cases region : left.region with
    | template => exact absurd region outside
    | comment =>
      have same : right.region = .comment := alike.region ▸ region
      rw [placeLine_comment indent region blank, State.column_comment same, Text.spaces_add,
        ← alike.nesting.level_eq, starMargin, indentation]
      split <;> rfl
    | code =>
      have same : right.region = .code := alike.region ▸ region
      rw [placeLine_code indent region blank, State.column_code same, indentation,
        (alike.nesting.drop _).level_eq]
  rw [placed]
  constructor
  · intro c last
    obtain ⟨start, d, same, ink⟩ := ends.append (Text.spaces (right.column indent (Text.trim line)))
    rw [same, List.getLast?_append, List.getLast?_singleton] at last
    cases last
    exact ink
  · exact fun _ => ⟨Text.trim line, begins, rfl⟩

/-- Every line that squeezing keeps fits behind those kept before it. An empty one does not follow
another: either a line with ink is the last before it, or none is and the lines began behind one. -/
theorem fits_squeezed (alike : left.Alike right) (indent : Nat) {lines : List Text}
    {afterEmpty : Bool} {before behind : List Text} {line : Text}
    (kept : squeeze afterEmpty (left.placeLines indent lines).1 = before ++ line :: behind)
    (outside : (before.foldl State.advance right).region ≠ .template) :
    (before.foldl State.advance right).Fits indent line ∧
      (line = [] → before.foldl (fun _ last => last.isEmpty) afterEmpty = false) := by
  induction lines generalizing left right afterEmpty before with
  | nil => simp [placeLines, squeeze] at kept
  | cons first rest ih =>
    simp only [placeLines, squeeze] at kept
    split at kept
    next dropped =>
      simp only [Bool.and_eq_true, Bool.not_eq_true', decide_eq_false_iff_not] at dropped
      obtain ⟨⟨empty, inCode⟩, _⟩ := dropped
      have blank := (placeLine_eq_nil_iff indent inCode).mp (List.isEmpty_iff.mp empty)
      rw [placeLine_blank indent inCode blank] at kept
      exact ih alike.skipLeft kept outside
    next stays =>
      cases before with
      | nil =>
        obtain ⟨rfl, _⟩ := List.cons.inj kept
        have inCode : left.region ≠ .template := alike.region ▸ outside
        refine ⟨alike.fits_placed inCode indent first, fun empty => ?_⟩
        simpa [empty, inCode] using stays
      | cons placed others =>
        obtain ⟨rfl, later⟩ := List.cons.inj kept
        exact ih (alike.advance_placed indent first) later outside

end State.Alike

/-! Whole texts. -/

theorem getLast?_dropTrailingEmpty (lines : List Text) :
    (dropTrailingEmpty lines).getLast? ≠ some [] := by
  induction lines with
  | nil => simp [dropTrailingEmpty]
  | cons line rest ih =>
    rw [dropTrailingEmpty]
    split
    next => split <;> simp_all
    next more =>
      obtain ⟨first, others, same⟩ := List.exists_cons_of_ne_nil more
      rw [same] at ih ⊢
      rwa [List.getLast?_cons_cons]

theorem fits_layOutLines (width : Nat) {lines before behind : List Text} {line : Text}
    (kept : layOutLines width lines = before ++ line :: behind)
    (outside : (stateBehind before).region ≠ .template) :
    (stateBehind before).Fits width line ∧
      (line = [] → ∃ last, before.getLast? = some last ∧ last ≠ []) := by
  obtain ⟨count, whole⟩ := exists_dropTrailingEmpty (squeeze true (({} : State).placeLines width lines).1)
  rw [← layOutLines, kept, List.append_assoc, List.cons_append] at whole
  obtain ⟨fits, ink⟩ := State.Alike.initial.fits_squeezed width whole.symm outside
  refine ⟨fits, fun empty => ?_⟩
  rcases List.eq_nil_or_concat' before with rfl | ⟨start, last, rfl⟩
  · cases ink empty
  · refine ⟨last, List.getLast?_concat, ?_⟩
    rintro rfl
    simpa using ink empty

theorem fits_lines_format (indent : Int) {text : Text} {before behind : List Text} {line : Text}
    (split : Text.lines (format indent text) = before ++ line :: behind)
    (outside : (stateBehind before).region ≠ .template) :
    (stateBehind before).Fits indent.toNat line ∧ (line = [] → before.getLast? ≠ some []) := by
  rw [lines_format] at split
  rcases List.eq_nil_or_concat' behind with rfl | ⟨start, last, rfl⟩
  · obtain ⟨rfl, only⟩ := List.append_inj' split rfl
    obtain ⟨rfl, _⟩ := List.cons.inj only
    exact ⟨State.fits_nil indent.toNat _, fun _ => getLast?_dropTrailingEmpty _⟩
  · rw [← List.cons_append, ← List.append_assoc] at split
    obtain ⟨fits, ink⟩ := fits_layOutLines indent.toNat (List.append_inj' split rfl).1 outside
    refine ⟨fits, fun empty => ?_⟩
    obtain ⟨final, found, visible⟩ := ink empty
    rw [found]
    simpa using visible

theorem single_of_mem_layOutLines {indent : Int} {text line : Text}
    (member : line ∈ layOutLines indent.toNat (Text.lines text)) : '\n' ∉ line := by
  apply @Text.single_of_mem_lines (format indent text)
  rw [lines_format]
  exact List.mem_append_left _ member

theorem head?_format (indent : Int) (text : Text) : (format indent text).head? ≠ some '\n' := by
  rw [format_eq]
  cases kept : layOutLines indent.toNat (Text.lines text) with
  | nil => simp [Text.ofLines]
  | cons first rest =>
    have single : '\n' ∉ first := single_of_mem_layOutLines (kept ▸ List.mem_cons_self)
    have ink : first ≠ [] := by
      intro empty
      have split : layOutLines indent.toNat (Text.lines text) = [] ++ first :: rest := kept
      obtain ⟨last, found, _⟩ := (fits_layOutLines indent.toNat split Region.noConfusion).2 empty
      cases found
    obtain ⟨c, others, rfl⟩ := List.exists_cons_of_ne_nil ink
    rw [Text.ofLines_cons]
    rintro ⟨⟩
    exact single List.mem_cons_self

theorem ending_format (indent : Int) (text : Text) :
    format indent text = [] ∨ ∃ start c, format indent text = start ++ [c, '\n'] ∧ c ≠ '\n' := by
  rw [format_eq]
  rcases List.eq_nil_or_concat' (layOutLines indent.toNat (Text.lines text)) with empty | ⟨start, last, kept⟩
  · left
    rw [empty]
    rfl
  · right
    have single : '\n' ∉ last := single_of_mem_layOutLines (kept ▸ List.mem_concat_self)
    have ink : last ≠ [] := by
      rintro rfl
      apply getLast?_dropTrailingEmpty (squeeze true (({} : State).placeLines indent.toNat (Text.lines text)).1)
      rw [← layOutLines, kept, List.getLast?_concat]
    obtain ⟨body, c, rfl⟩ := (List.eq_nil_or_concat' last).resolve_left ink
    refine ⟨Text.ofLines start ++ body, c, ?_, ?_⟩
    · simp [kept, Text.ofLines]
    · rintro rfl
      exact single List.mem_concat_self

theorem format_normalForm (indent : Int) (text : Text) :
    NormalForm indent.toNat (format indent text) where
  ending := ending_format indent text
  start := head?_format indent text
  fits _ _ _ split outside := (fits_lines_format indent split outside).1
  apart _ _ _ split outside := (fits_lines_format indent split outside).2

/-- Every formatted text is in normal form, judged by the scan of that text itself, whatever the
indentation. An indentation that is no word is refused, and only such a one. -/
theorem tryFormat_in_normal_form (indent : Int) (text : Text) :
    NormalForm indent.toNat (format indent text) ∧
      tryFormat indent text =
        if Text.isWord indent then .ok (format indent text) else .error .notWord := by
  refine ⟨format_normalForm indent text, ?_⟩
  rw [tryFormat, indentWidth]
  split <;> rfl

def looseObject : Text :=
  ['\n', 'f', '(', '{', ' ', '\n', 'a', '\n', '\n', '\n', '/', '*', '\n', '*', '/', '}', ')']

theorem looseObject_in_normal_form :
    (∃ formatted, tryFormat 2 looseObject = .ok formatted ∧ NormalForm 2 formatted ∧
        formatted = ['f', '(', '{', '\n', ' ', ' ', 'a', '\n', '\n', ' ', ' ', '/', '*', '\n', ' ', ' ', ' ',
          '*', '/', '}', ')', '\n']) ∧
      tryFormat 0x8000000000000000 looseObject = .error .notWord :=
  ⟨⟨_, (tryFormat_in_normal_form 2 looseObject).2, (tryFormat_in_normal_form 2 looseObject).1, rfl⟩,
    (tryFormat_in_normal_form 0x8000000000000000 looseObject).2⟩

theorem below_word_no_form :
    ¬ ∃ formatted, tryFormat (-0x8000000000000001) ['x'] = .ok formatted ∧ NormalForm 0 formatted := by
  rintro ⟨formatted, done, _⟩
  cases done

end OptionsApi.Layout
