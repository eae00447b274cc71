import OptionsApi.Proofs.Layout.TemplateScan

/-! What formatting does to template literals. A line that begins inside a literal stays as it is, so
all of a literal is kept but for one place: blanks at the end of the line on which it opens are trimmed
with that line. -/

set_option autoImplicit false

namespace OptionsApi.Layout

namespace TemplateLiteral

def placed (literal : TemplateLiteral) : TemplateLiteral :=
  if literal.sheltered || literal.further.isNone then literal
  else { literal with first := Text.trimEnd literal.first }

/-- No line end to come can make blanks of the literal the end of a trimmed line. -/
def Anchored (literal : TemplateLiteral) : Prop := literal.sheltered = true ∨ literal.further ≠ none

variable {literal : TemplateLiteral}

theorem placed_hold (anchored : literal.Anchored) (c : Char) :
    (literal.hold c).placed = literal.placed.hold c := by
  obtain ⟨sheltered, first, further⟩ := literal
  cases sheltered <;> cases further <;> simp_all [Anchored, placed, hold]

theorem placed_endLine (anchored : literal.Anchored) :
    literal.endLine.placed = literal.placed.endLine := by
  obtain ⟨sheltered, first, further⟩ := literal
  cases sheltered <;> cases further <;> simp_all [Anchored, placed, endLine]

theorem Anchored.hold (anchored : literal.Anchored) (c : Char) : (literal.hold c).Anchored := by
  obtain ⟨sheltered, first, further⟩ := literal
  cases further <;> simp_all [Anchored, TemplateLiteral.hold]

theorem further_endLine (literal : TemplateLiteral) : literal.endLine.further ≠ none := by
  obtain ⟨sheltered, first, further⟩ := literal
  cases further <;> simp [endLine]

theorem placed_of_single (single : literal.further = none) : literal.placed = literal := by
  simp [placed, single]

end TemplateLiteral

open TemplateLiteral (placed Anchored)

/-! Lines that begin inside a literal. -/

/-- If every literal is anchored, reading marks and placing literals commute. -/
theorem literalsOf_placed {literal : Option TemplateLiteral} (anchored : ∀ one ∈ literal, one.Anchored)
    {marks : List Mark} (sheltered : ∀ mark ∈ marks, mark ≠ .opens false) :
    literalsOf (literal.map placed) marks = (literalsOf literal marks).map placed ∧
      openBehind (literal.map placed) marks = (openBehind literal marks).map placed := by
  induction marks generalizing literal with
  | nil => exact ⟨rfl, rfl⟩
  | cons mark rest ih =>
    have step : mark.completed (literal.map placed) = (mark.completed literal).map placed ∧
        mark.next (literal.map placed) = (mark.next literal).map placed ∧
        ∀ one ∈ mark.next literal, one.Anchored := by
      cases mark with
      | opens flag =>
        cases flag with
        | false => exact absurd rfl (sheltered _ List.mem_cons_self)
        | true => exact ⟨rfl, rfl, fun one same => by cases same; exact .inl rfl⟩
      | holds c =>
        cases literal with
        | none => exact ⟨rfl, rfl, fun one same => by cases same⟩
        | some one =>
          have here : one.Anchored := anchored one rfl
          refine ⟨rfl, congrArg some (TemplateLiteral.placed_hold here c).symm, fun other same => ?_⟩
          cases same
          exact here.hold c
      | lineEnd =>
        cases literal with
        | none => exact ⟨rfl, rfl, fun one same => by cases same⟩
        | some one =>
          have here : one.Anchored := anchored one rfl
          refine ⟨rfl, congrArg some (TemplateLiteral.placed_endLine here).symm, fun other same => ?_⟩
          cases same
          exact .inr one.further_endLine
      | closes =>
        cases literal with
        | none => exact ⟨rfl, rfl, fun one same => by cases same⟩
        | some one => exact ⟨rfl, rfl, fun one same => by cases same⟩
    obtain ⟨completed, next, later⟩ := step
    obtain ⟨literals, last⟩ := ih later fun other member => sheltered other (List.mem_cons_of_mem _ member)
    constructor
    · rw [literalsOf, literalsOf, completed, next, literals, List.map_append]
    · change openBehind (mark.next (literal.map placed)) rest = _
      rw [next, last]
      rfl

/-! The marks of one line. -/

def Mark.InLine (sheltered : Bool) : Mark → Prop
  | .opens flag => flag = sheltered
  | .lineEnd => False
  | _ => True

theorem Cursor.inLine_of_mem_marks {line : Nat} {sheltered : Bool} {cursor : Cursor} {text : Text}
    {mark : Mark} (member : mark ∈ cursor.marks line sheltered text) : mark.InLine sheltered := by
  induction text generalizing cursor with
  | nil => exact absurd member List.not_mem_nil
  | cons c rest ih =>
    rw [Cursor.marks, List.mem_append, Option.mem_toList] at member
    rcases member with here | later
    · rw [Cursor.mark?.eq_def] at here
      split at here <;> cases here <;> trivial
    · exact ih later

theorem single_of_inLine {sheltered : Bool} {literal : Option TemplateLiteral} {marks : List Mark}
    (inLine : ∀ mark ∈ marks, mark.InLine sheltered)
    (single : ∀ one ∈ literal, one.further = none ∧ one.sheltered = sheltered) :
    (∀ one ∈ literalsOf literal marks, one.further = none) ∧
      ∀ one ∈ openBehind literal marks, one.further = none ∧ one.sheltered = sheltered := by
  -- Only a line end adds a further line, and there is none within a line.
  induction marks generalizing literal with
  | nil => exact ⟨fun _ member => absurd member List.not_mem_nil, single⟩
  | cons mark rest ih =>
    have here : mark.InLine sheltered := inLine mark List.mem_cons_self
    have step : (∀ one ∈ mark.completed literal, one.further = none) ∧
        ∀ one ∈ mark.next literal, one.further = none ∧ one.sheltered = sheltered := by
      cases mark with
      | opens flag =>
        refine ⟨fun _ member => absurd member List.not_mem_nil, fun one same => ?_⟩
        cases same
        exact ⟨rfl, here⟩
      | holds c =>
        refine ⟨fun _ member => absurd member List.not_mem_nil, fun one same => ?_⟩
        obtain ⟨before, held, rfl⟩ := Option.map_eq_some_iff.mp same
        obtain ⟨whole, flag⟩ := single before held
        simp [TemplateLiteral.hold, whole, flag]
      | lineEnd => exact here.elim
      | closes =>
        refine ⟨fun one member => ?_, fun one same => by cases same⟩
        exact (single one (Option.mem_toList.mp member)).1
    obtain ⟨literals, last⟩ := ih (fun other member => inLine other (List.mem_cons_of_mem mark member)) step.2
    refine ⟨fun one member => ?_, last⟩
    rcases List.mem_append.mp member with first | later
    · exact step.1 one first
    · exact literals one later

theorem Cursor.isSome_openBehind (line : Nat) (sheltered : Bool) {cursor : Cursor}
    {literal : Option TemplateLiteral}
    (agree : literal.isSome ↔ cursor.mode.region = .template) (text : Text) :
    (openBehind literal (cursor.marks line sheltered text)).isSome ↔
      (cursor.run line text).mode.region = .template := by
  induction text generalizing cursor literal with
  | nil => exact agree
  | cons c rest ih =>
    rw [Cursor.marks, openBehind_append]
    apply ih
    change _ ↔ (cursor.mode.next cursor.before c).region = .template
    cases literal with
    | none =>
      have outside : cursor.mode.region ≠ .template := fun inside => by simpa using agree.mpr inside
      rw [Cursor.mark?.eq_def]
      split <;> simp_all [openBehind, Mark.next]
    | some one =>
      have inside : cursor.mode.region = .template := agree.mp rfl
      rw [Cursor.mark?.eq_def]
      split <;> simp_all [openBehind, Mark.next]

/-! Lines that begin outside of literals. -/

theorem Region.region_mode (region : Region) : region.mode.region = region := by
  cases region <;> rfl

theorem Region.isSome_openBehind {region : Region} {literal : Option TemplateLiteral}
    (agree : literal.isSome ↔ region = .template) (text : Text) :
    (openBehind literal (region.marks text)).isSome ↔ region.after text = .template :=
  Cursor.isSome_openBehind 0 _ (by rw [region.region_mode]; exact agree) text

theorem Region.isSome_openBehind_none {region : Region} (outside : region ≠ .template) (text : Text) :
    (openBehind none (region.marks text)).isSome ↔ region.after text = .template := by
  apply region.isSome_openBehind
  exact iff_of_false Bool.false_ne_true outside

theorem Region.inLine_of_mem_marks {region : Region} (outside : region ≠ .template) {text : Text}
    {mark : Mark} (member : mark ∈ region.marks text) : mark.InLine false := by
  have here := Cursor.inLine_of_mem_marks member
  rwa [decide_eq_false outside] at here

theorem Region.single_of_marks {region : Region} (outside : region ≠ .template) (text : Text) :
    (∀ one ∈ literalsOf none (region.marks text), one.further = none) ∧
      ∀ one ∈ openBehind none (region.marks text), one.further = none ∧ one.sheltered = false :=
  single_of_inLine (fun _ => region.inLine_of_mem_marks outside) fun _ same => by cases same

/-- A literal that opens on a line which ends with ink is empty so far or ends with that ink. -/
theorem Region.first_ends_ink {region : Region} (outside : region ≠ .template) {text : Text}
    (ends : Text.EndsInk text) {one : TemplateLiteral}
    (last : openBehind none (region.marks text) = some one) :
    one.first = [] ∨ Text.EndsInk one.first := by
  obtain ⟨start, c, rfl, ink⟩ := ends
  have agree := region.isSome_openBehind_none outside start
  have single := (region.single_of_marks outside start).2
  rw [Region.marks, Cursor.marks_append, openBehind_append] at last
  change openBehind (openBehind none (region.marks start)) _ = _ at last
  rw [Cursor.marks, Cursor.marks, List.append_nil, Cursor.mark?.eq_def] at last
  split at last
  next =>
    obtain ⟨before, held, rfl⟩ := Option.map_eq_some_iff.mp last
    right
    simp only [TemplateLiteral.hold, (single before held).1]
    exact ⟨before.first, c, rfl, ink⟩
  next => cases last
  next =>
    cases last
    exact .inl rfl
  next here _ _ =>
    change openBehind none (region.marks start) = some one at last
    exact absurd (agree.mp (by rw [last]; rfl)) here

theorem openBehind_holds {one : TemplateLiteral} (single : one.further = none) (text : Text) :
    openBehind (some one) (text.map Mark.holds) = some { one with first := one.first ++ text } := by
  induction text generalizing one with
  | nil => rw [List.append_nil]; rfl
  | cons c rest ih =>
    have held : one.hold c = { one with first := one.first ++ [c] } := by
      simp only [TemplateLiteral.hold, single]
    have later := @ih { one with first := one.first ++ [c] } single
    rw [List.append_assoc] at later
    change openBehind (some (one.hold c)) (rest.map Mark.holds) = _
    rw [held]
    exact later

theorem literalsOf_holds (literal : Option TemplateLiteral) (text : Text) :
    literalsOf literal (text.map Mark.holds) = [] := by
  induction text generalizing literal with
  | nil => rfl
  | cons c rest ih => exact ih _

theorem Region.after_blank_ne {region : Region} (outside : region ≠ .template) {blanks : Text}
    (blank : Text.Blank blanks) : region.after blanks ≠ .template := by
  rw [← List.nil_append blanks, region.after_append_blank [] blank]
  change region.mode.region ≠ .template
  rwa [region.region_mode]

/-- A line that begins outside of literals, and what becomes of it: the literals completed on it are
the same, and the one that is open at its end loses the blanks there. -/
theorem Region.lineMarks_placed {region : Region} (outside : region ≠ .template) {line : Text}
    (even : region = .code → oddSlash line = false) {lead : Text}
    (inline : Text.Within Text.isInlineBlank lead) :
    literalsOf none (region.lineMarks (lead ++ Text.trim line)) =
        (literalsOf none (region.lineMarks line)).map placed ∧
      openBehind none (region.lineMarks (lead ++ Text.trim line)) =
        (openBehind none (region.lineMarks line)).map placed := by
  obtain ⟨after, behind, blank, marks⟩ := Region.read_placed outside even inline
  obtain ⟨completed, pending⟩ := region.single_of_marks outside (lead ++ Text.trim line)
  have agree := region.isSome_openBehind_none outside (lead ++ Text.trim line)
  rw [Region.lineMarks, Region.lineMarks, marks, after]
  generalize shared : region.marks (lead ++ Text.trim line) = common at completed pending agree
  have kept : (literalsOf none common).map placed = literalsOf none common := by
    calc (literalsOf none common).map placed
        = (literalsOf none common).map id := List.map_congr_left fun one member =>
          TemplateLiteral.placed_of_single (completed one member)
      _ = literalsOf none common := List.map_id _
  by_cases template : region.after line = .template
  · obtain ⟨one, last⟩ := Option.isSome_iff_exists.mp (agree.mpr (after.trans template))
    obtain ⟨single, flag⟩ := pending one last
    have ink : Text.trim line ≠ [] := by
      intro empty
      rw [empty, List.append_nil] at after
      exact region.after_blank_ne outside (blank_of_inline inline) (after.trans template)
    have ends := (Text.ink_of_trim_ne_nil ink).2.append lead
    have trimmed : Text.trimEnd (one.first ++ behind) = one.first := by
      rw [Text.trimEnd_append_of_blank _ blank]
      rcases region.first_ends_ink outside ends (shared ▸ last) with empty | endsInk
      · rw [empty]; rfl
      · exact Text.trimEnd_of_ends endsInk
    simp only [if_pos template, literalsOf_append, openBehind_append, last, openBehind_holds single,
      literalsOf_holds]
    constructor
    · simp [literalsOf, Mark.completed, kept]
    · simp [openBehind, Mark.next, TemplateLiteral.endLine, placed, single, flag, trimmed]
  · rw [if_neg template, if_neg template, List.append_nil, List.append_nil]
    refine ⟨kept.symm, ?_⟩
    have closed : openBehind none common = none := by
      rw [← Option.not_isSome_iff_eq_none, agree, after]
      exact template
    rw [closed]
    rfl

/-! Whole texts. -/

theorem Region.further_of_lineMarks {region : Region} {literal : Option TemplateLiteral}
    (agree : literal.isSome ↔ region = .template) (line : Text) :
    ((openBehind literal (region.lineMarks line)).isSome ↔ region.after line = .template) ∧
      ∀ one ∈ openBehind literal (region.lineMarks line), one.further ≠ none := by
  have here := region.isSome_openBehind agree line
  rw [Region.lineMarks, openBehind_append]
  by_cases template : region.after line = .template
  · obtain ⟨one, last⟩ := Option.isSome_iff_exists.mp (here.mpr template)
    rw [if_pos template, last]
    refine ⟨iff_of_true rfl template, fun other same => ?_⟩
    cases same
    exact one.further_endLine
  · have closed : openBehind literal (region.marks line) = none := by
      rw [← Option.not_isSome_iff_eq_none, here]
      exact template
    rw [if_neg template, closed]
    exact ⟨iff_of_false Bool.false_ne_true template, fun other same => by cases same⟩

theorem State.region_placeLine (indent : Nat) {state : State} {line : Text}
    (even : state.region = .code → oddSlash line = false) :
    (state.placeLine indent line).2.region = state.region.after line := by
  by_cases template : state.region = .template
  · rw [State.placeLine_template indent template, state.region_advance]
  have trimmed : state.region.after (Text.trim line) = state.region.after line :=
    (Region.read_placed template even Text.Within.nil).1
  by_cases blank : Text.trim line = []
  · rw [State.placeLine_blank indent template blank, ← trimmed, blank]
    exact state.region.region_mode.symm
  cases region : state.region with
  | template => exact absurd region template
  | comment => rw [State.placeLine_comment indent region blank, state.region_advance, region]
  | code => rw [State.placeLine_code indent region blank, state.region_advance, trimmed, region]

theorem State.read_placeLine (indent : Nat) {state : State} {line : Text}
    {literal : Option TemplateLiteral} (agree : literal.isSome ↔ state.region = .template)
    (further : ∀ one ∈ literal, one.further ≠ none)
    (even : state.region = .code → oddSlash line = false) :
    let text := (state.placeLine indent line).1
    state.region.after text = state.region.after line ∧
      literalsOf (literal.map placed) (state.region.lineMarks text) =
        (literalsOf literal (state.region.lineMarks line)).map placed ∧
      openBehind (literal.map placed) (state.region.lineMarks text) =
        (openBehind literal (state.region.lineMarks line)).map placed := by
  by_cases template : state.region = .template
  · have sheltered : ∀ mark ∈ state.region.lineMarks line, mark ≠ .opens false := by
      rintro mark member rfl
      rcases List.mem_append.mp member with inLine | atEnd
      · have flag := Cursor.inLine_of_mem_marks inLine
        rw [template] at flag
        cases flag
      · split at atEnd
        · cases List.mem_singleton.mp atEnd
        · cases atEnd
    rw [State.placeLine_template indent template]
    exact ⟨rfl, literalsOf_placed (fun one same => .inr (further one same)) sheltered⟩
  · obtain rfl : literal = none := by
      rw [← Option.not_isSome_iff_eq_none, agree]
      exact template
    obtain ⟨inside, _⟩ | ⟨_, count, placed⟩ := State.placeLine_text indent state line
    · exact absurd inside template
    have inline : Text.Within Text.isInlineBlank (Text.spaces count) := by
      intro c member
      rw [List.eq_of_mem_replicate member]
      rfl
    dsimp only
    rw [placed]
    exact ⟨(Region.read_placed template even inline).1, Region.lineMarks_placed template even inline⟩

/-- What is left of placed lines when runs of empty ones are squeezed has the literals of the lines,
each as it is placed. -/
theorem State.literalsOf_squeeze (indent : Nat) {state : State} {literal : Option TemplateLiteral}
    (agree : literal.isSome ↔ state.region = .template)
    (further : ∀ one ∈ literal, one.further ≠ none) {lines : List Text}
    (even : ∀ start ∈ state.begins lines, start.1 = .code → oddSlash start.2 = false)
    (afterEmpty : Bool) :
    literalsOf (literal.map placed)
        (state.marks (squeeze afterEmpty (state.placeLines indent lines).1)) =
      (literalsOf literal (state.marks lines)).map placed := by
  induction lines generalizing state literal afterEmpty with
  | nil => rfl
  | cons line rest ih =>
    have here : state.region = .code → oddSlash line = false := even _ List.mem_cons_self
    obtain ⟨after, completed, pending⟩ := State.read_placeLine indent agree further here
    have next := State.region_placeLine indent here
    have sameNext : (state.placeLine indent line).2.region = (state.advance line).region :=
      next.trans (state.region_advance line).symm
    obtain ⟨agreeNext, furtherNext⟩ := state.region.further_of_lineMarks agree line
    rw [← next] at agreeNext
    -- The rest of the lines, read with the literal that this one leaves open.
    have later (flag : Bool) := ih agreeNext furtherNext (by
      rw [State.begins_congr sameNext rest]
      exact fun start member => even start (List.mem_cons_of_mem _ member)) flag
    rw [State.marks_congr sameNext rest] at later
    rw [State.marks, state.lineMarks_eq, literalsOf_append, List.map_append, ← completed]
    simp only [State.placeLines, squeeze]
    split
    next dropped =>
      simp only [Bool.and_eq_true, Bool.not_eq_true', decide_eq_false_iff_not] at dropped
      obtain ⟨⟨empty, outside⟩, _⟩ := dropped
      have blank := List.isEmpty_iff.mp empty
      rw [blank] at after pending ⊢
      have noEnd : state.region.after [] ≠ .template :=
        state.region.after_blank_ne outside Text.Blank.nil
      have unmarked : state.region.lineMarks [] = [] := by
        rw [Region.lineMarks, if_neg noEnd]
        rfl
      have stays : state.region = (state.placeLine indent line).2.region := by
        rw [next, ← after]
        exact state.region.region_mode.symm
      rw [unmarked] at pending ⊢
      rw [State.marks_congr stays, ← later, ← pending]
      rfl
    next kept =>
      have stays : (state.advance (state.placeLine indent line).1).region =
          (state.placeLine indent line).2.region := by
        rw [state.region_advance, after, next]
      rw [State.marks, state.lineMarks_eq, literalsOf_append, pending, State.marks_congr stays, later]

theorem State.literalsOf_empty (state : State) (literal : Option TemplateLiteral) {empties : List Text}
    (empty : ∀ line ∈ empties, line = []) : literalsOf literal (state.marks empties) = [] := by
  induction empties generalizing state literal with
  | nil => rfl
  | cons line rest ih =>
    obtain rfl : line = [] := empty line List.mem_cons_self
    rw [State.marks, literalsOf_append,
      ih _ _ fun other member => empty other (List.mem_cons_of_mem _ member), State.lineMarks]
    split <;> rfl

theorem State.literalsOf_append_empty (state : State) (literal : Option TemplateLiteral)
    (lines : List Text) {empties : List Text} (empty : ∀ line ∈ empties, line = []) :
    literalsOf literal (state.marks (lines ++ empties)) = literalsOf literal (state.marks lines) := by
  induction lines generalizing state literal with
  | nil => exact state.literalsOf_empty literal empty
  | cons line rest ih =>
    rw [List.cons_append, State.marks, State.marks, literalsOf_append, literalsOf_append, ih]

theorem templateLiterals_format (indent : Int) {text : Text}
    (even : ∀ start ∈ ({} : State).begins (Text.lines text),
      start.1 = .code → oddSlash start.2 = false) :
    templateLiterals (format indent text) = (templateLiterals text).map placed := by
  let squeezed := squeeze true (({} : State).placeLines indent.toNat (Text.lines text)).1
  obtain ⟨count, whole⟩ := exists_dropTrailingEmpty squeezed
  have outside : (none : Option TemplateLiteral).isSome ↔ ({} : State).region = .template :=
    iff_of_false Bool.false_ne_true Region.noConfusion
  calc templateLiterals (format indent text)
      = literalsOf none (({} : State).marks (dropTrailingEmpty squeezed ++ [[]])) := by
        rw [templateLiterals, lines_format]
        rfl
    _ = literalsOf none (({} : State).marks (dropTrailingEmpty squeezed)) :=
        State.literalsOf_append_empty _ _ _ fun _ => List.mem_singleton.mp
    _ = literalsOf none (({} : State).marks squeezed) := by
        conv => rhs; rw [← whole]
        exact (State.literalsOf_append_empty _ _ _ fun _ => List.eq_of_mem_replicate).symm
    _ = (templateLiterals text).map placed :=
        State.literalsOf_squeeze indent.toNat outside (fun _ same => by cases same) even true

theorem TemplateLiteral.contents_placed_iff (literal : TemplateLiteral) :
    literal.placed.contents = literal.contents ↔
      (literal.sheltered = false → literal.further ≠ none →
        Text.trimEnd literal.first = literal.first) := by
  obtain ⟨sheltered, first, further⟩ := literal
  cases sheltered with
  | true => simp [placed]
  | false =>
    cases further with
    | none => simp [placed]
    | some further => simp [placed, contents]

/-- Template literals in a formatted text. Each is kept, with all it holds but for one thing: where
it goes on behind the line on which it opens, and that line does not itself begin inside a literal,
blanks at the end of the line are lost. So the contents survive exactly if no literal has such blanks.
The lines of the text are scanned as they are; none may begin with a slash that means something else
when the line is trimmed. -/
theorem template_contents_of_format (indent : Int) (text : Text)
    (even : ∀ start ∈ ({} : State).begins (Text.lines text),
      start.1 = .code → oddSlash start.2 = false) :
    templateLiterals (format indent text) = (templateLiterals text).map placed ∧
      (tryFormat indent text).map templateLiterals =
        (indentWidth indent).map (fun _ => (templateLiterals text).map placed) ∧
      ∀ formatted, tryFormat indent text = .ok formatted →
        (templateContents formatted = templateContents text ↔
          ∀ literal ∈ templateLiterals text, literal.sheltered = false → literal.further ≠ none →
            Text.trimEnd literal.first = literal.first) := by
  have literals := templateLiterals_format indent even
  refine ⟨literals, ?_⟩
  cases usable : indentWidth indent with
  | error error =>
    have failed : tryFormat indent text = .error error := by rw [tryFormat, usable]; rfl
    rw [failed]
    exact ⟨rfl, fun formatted same => by cases same⟩
  | ok width =>
    have done : tryFormat indent text = .ok (format indent text) := by rw [tryFormat, usable]; rfl
    rw [done]
    refine ⟨congrArg Except.ok literals, fun formatted same => ?_⟩
    cases same
    rw [templateContents, templateContents, literals, List.map_map, List.map_inj_left]
    exact forall₂_congr fun literal _ => literal.contents_placed_iff

def twoTemplates : Text := ['`', 'a', '\n', ' ', 'b', '`', '`', ' ', '\n', 'c', '`']

theorem twoTemplates_kept :
    (∀ start ∈ ({} : State).begins (Text.lines twoTemplates),
        start.1 = .code → oddSlash start.2 = false) ∧
      templateContents twoTemplates = [['a', '\n', ' ', 'b'], [' ', '\n', 'c']] ∧
      templateContents (format 4 twoTemplates) = templateContents twoTemplates :=
  ⟨by decide, by decide,
    ((template_contents_of_format 4 twoTemplates (by decide)).2.2 _ rfl).mpr (by decide)⟩

/-- A blank at the end of the line on which a literal opens is lost. And a slash behind a form feed
divides, so that a literal opens behind it; in the formatted text it begins a regular expression. -/
theorem format_alters_templates :
    templateContents (format 4 ['`', ' ', '\n', '`']) ≠ templateContents ['`', ' ', '\n', '`'] ∧
      templateContents (format 4 ['\x0c', '/', '`', '/', '\n', '`']) ≠
        templateContents ['\x0c', '/', '`', '/', '\n', '`'] := by
  decide

end OptionsApi.Layout
