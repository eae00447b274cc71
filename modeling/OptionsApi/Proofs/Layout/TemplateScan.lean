import OptionsApi.Proofs.Layout.Absorption
import OptionsApi.Proofs.Text.Cut
import OptionsApi.Proofs.Text.WordChar

/-! Template literals as a scan delimits them. The scan of a line marks where a literal opens, what it
holds and where it closes. Blanks put around a line leave its marks alone, but those at its end belong
to a literal that is open there. -/

set_option autoImplicit false

namespace OptionsApi.Layout

inductive Mark where
  /-- A backtick that opens one, on a line that begins inside another literal or not. -/
  | opens (sheltered : Bool)
  | holds (c : Char)
  | lineEnd
  | closes
  deriving DecidableEq, Repr

def Cursor.mark? (sheltered : Bool) (cursor : Cursor) (c : Char) : Option Mark :=
  match cursor.mode.region, (cursor.mode.next cursor.before c).region with
  | .template, .template => some (.holds c)
  | .template, _ => some .closes
  | _, .template => some (.opens sheltered)
  | _, _ => none

def Cursor.marks (line : Nat) (sheltered : Bool) (cursor : Cursor) : Text → List Mark
  | [] => []
  | c :: rest =>
    (cursor.mark? sheltered c).toList ++ (cursor.step line c).marks line sheltered rest

/-- The marks of a line scanned as it is. Its end is a mark only inside a literal. -/
def State.lineMarks (state : State) (line : Text) : List Mark :=
  Cursor.marks (state.lineCount + 1) (state.region = .template)
      ⟨[], state.region.mode, state.brackets⟩ line ++
    if (state.advance line).region = .template then [.lineEnd] else []

def State.marks (state : State) : List Text → List Mark
  | [] => []
  | line :: rest => state.lineMarks line ++ (state.advance line).marks rest

def State.begins (state : State) : List Text → List (Region × Text)
  | [] => []
  | line :: rest => (state.region, line) :: (state.advance line).begins rest

/-- A template literal, cut at its first line end. -/
structure TemplateLiteral where
  /-- Whether the line on which it opens begins inside another template literal. -/
  sheltered : Bool
  first : Text := []
  /-- What follows its first line end, if there is one in it. -/
  further : Option Text := none
  deriving DecidableEq, Repr

namespace TemplateLiteral

def contents (literal : TemplateLiteral) : Text :=
  match literal.further with
  | none => literal.first
  | some further => literal.first ++ '\n' :: further

def hold (literal : TemplateLiteral) (c : Char) : TemplateLiteral :=
  match literal.further with
  | none => { literal with first := literal.first ++ [c] }
  | some further => { literal with further := some (further ++ [c]) }

def endLine (literal : TemplateLiteral) : TemplateLiteral :=
  match literal.further with
  | none => { literal with further := some [] }
  | some further => { literal with further := some (further ++ ['\n']) }

end TemplateLiteral

def Mark.next (literal : Option TemplateLiteral) : Mark → Option TemplateLiteral
  | .opens sheltered => some { sheltered }
  | .holds c => literal.map (·.hold c)
  | .lineEnd => literal.map (·.endLine)
  | .closes => none

def Mark.completed (literal : Option TemplateLiteral) : Mark → List TemplateLiteral
  | .closes => literal.toList
  | _ => []

def openBehind (literal : Option TemplateLiteral) (marks : List Mark) : Option TemplateLiteral :=
  marks.foldl Mark.next literal

/-- The literals that the marks complete. One that is never closed does not count. -/
def literalsOf (literal : Option TemplateLiteral) : List Mark → List TemplateLiteral
  | [] => []
  | mark :: rest => mark.completed literal ++ literalsOf (mark.next literal) rest

/-- The template literals of a text, as the scan of its lines delimits them. -/
def templateLiterals (text : Text) : List TemplateLiteral :=
  literalsOf none (({} : State).marks (Text.lines text))

def templateContents (text : Text) : List Text :=
  (templateLiterals text).map TemplateLiteral.contents

theorem literalsOf_append (literal : Option TemplateLiteral) (left right : List Mark) :
    literalsOf literal (left ++ right) =
      literalsOf literal left ++ literalsOf (openBehind literal left) right := by
  induction left generalizing literal with
  | nil => rfl
  | cons mark rest ih =>
    rw [List.cons_append, literalsOf, literalsOf, ih, List.append_assoc]
    rfl

theorem openBehind_append (literal : Option TemplateLiteral) (left right : List Mark) :
    openBehind literal (left ++ right) = openBehind (openBehind literal left) right :=
  List.foldl_append

/-! Neither the marks nor the region depend on the brackets or on the number of the line. -/

def Region.after (region : Region) (line : Text) : Region :=
  (scanLine 0 region [] line).mode.region

def Region.marks (region : Region) (line : Text) : List Mark :=
  Cursor.marks 0 (region = .template) ⟨[], region.mode, []⟩ line

def Region.lineMarks (region : Region) (line : Text) : List Mark :=
  region.marks line ++ if region.after line = .template then [.lineEnd] else []

theorem Cursor.mode_run (first second : Nat) (before : Text) (mode : Mode) (left right : List Nat)
    (text : Text) :
    (Cursor.run first ⟨before, mode, left⟩ text).mode =
      (Cursor.run second ⟨before, mode, right⟩ text).mode := by
  induction text generalizing before mode left right with
  | nil => rfl
  | cons c rest ih => exact ih _ _ _ _

theorem Cursor.marks_eq (first second : Nat) (sheltered : Bool) (before : Text) (mode : Mode)
    (left right : List Nat) (text : Text) :
    Cursor.marks first sheltered ⟨before, mode, left⟩ text =
      Cursor.marks second sheltered ⟨before, mode, right⟩ text := by
  induction text generalizing before mode left right with
  | nil => rfl
  | cons c rest ih =>
    rw [Cursor.marks, Cursor.marks]
    congr 1
    exact ih _ _ _ _

theorem State.region_advance (state : State) (line : Text) :
    (state.advance line).region = state.region.after line :=
  congrArg Mode.region (Cursor.mode_run _ _ _ _ _ _ line)

theorem State.lineMarks_eq (state : State) (line : Text) :
    state.lineMarks line = state.region.lineMarks line := by
  rw [State.lineMarks, Region.lineMarks, state.region_advance, Region.marks]
  congr 1
  exact Cursor.marks_eq _ _ _ _ _ _ _ line

theorem State.marks_congr {left right : State} (same : left.region = right.region)
    (lines : List Text) : left.marks lines = right.marks lines := by
  induction lines generalizing left right with
  | nil => rfl
  | cons line rest ih =>
    rw [State.marks, State.marks, left.lineMarks_eq, right.lineMarks_eq, same]
    congr 1
    apply ih
    rw [left.region_advance, right.region_advance, same]

theorem State.begins_congr {left right : State} (same : left.region = right.region)
    (lines : List Text) : left.begins lines = right.begins lines := by
  induction lines generalizing left right with
  | nil => rfl
  | cons line rest ih =>
    rw [State.begins, State.begins, same]
    congr 1
    apply ih
    rw [left.region_advance, right.region_advance, same]

/-! Parts of a line. -/

theorem Cursor.marks_append (line : Nat) (sheltered : Bool) (cursor : Cursor) (left right : Text) :
    cursor.marks line sheltered (left ++ right) =
      cursor.marks line sheltered left ++ (cursor.run line left).marks line sheltered right := by
  induction left generalizing cursor with
  | nil => rfl
  | cons c rest ih =>
    rw [List.cons_append, Cursor.marks, Cursor.marks, ih, List.append_assoc]
    rfl

theorem Cursor.marks_blank (line : Nat) (sheltered : Bool) (cursor : Cursor) {blanks : Text}
    (blank : Text.Blank blanks) :
    cursor.marks line sheltered blanks =
      if cursor.mode.region = .template then blanks.map Mark.holds else [] := by
  induction blanks generalizing cursor with
  | nil => simp [Cursor.marks]
  | cons c rest ih =>
    have kept : (cursor.mode.next cursor.before c).region = cursor.mode.region :=
      Mode.region_next_of_isBlank (blank c List.mem_cons_self) cursor.mode
    have later := ih (cursor.step line c) (Text.Within.tail blank)
    simp only [Cursor.step, kept] at later
    rw [Cursor.marks, Cursor.mark?, kept, Cursor.step, later]
    cases cursor.mode.region <;> rfl

theorem Cursor.Alike.marks {leftLine rightLine : Nat} {left right : Cursor}
    (alike : Cursor.Alike leftLine rightLine left right) (sheltered : Bool) (text : Text) :
    left.marks leftLine sheltered text = right.marks rightLine sheltered text := by
  induction text generalizing left right with
  | nil => rfl
  | cons c rest ih =>
    rw [Cursor.marks, Cursor.marks, Cursor.mark?, Cursor.mark?, alike.next c, alike.mode,
      ih (alike.step c)]

/-! The start of a line. A slash there is told apart by what stands before it. -/

theorem takeWhile_name_append {blanks : Text} (blank : Text.Blank blanks) (text : Text) :
    (text ++ blanks).takeWhile Text.isNameChar = text.takeWhile Text.isNameChar := by
  have noName : blanks.takeWhile Text.isNameChar = [] := by
    cases blanks with
    | nil => rfl
    | cons c rest =>
      have stops := Text.isNameChar_of_isBlank (blank c List.mem_cons_self)
      rw [List.takeWhile_cons_of_neg (by simp [stops])]
  rw [List.takeWhile_append, noName, List.append_nil]
  split
  next all => exact ((List.takeWhile_prefix Text.isNameChar).eq_of_length all).symm
  next => rfl

theorem opensRegex_append_ink (text : Text) {c : Char} (ink : Text.isBlank c = false)
    {left right : Text} (leftBlank : Text.Blank left) (rightBlank : Text.Blank right) :
    opensRegex (text ++ c :: left) = opensRegex (text ++ c :: right) := by
  have noBlank : Text.isInlineBlank c = false := by
    have noSpace : c ≠ ' ' := fun same => by subst same; cases ink
    have noTab : c ≠ '\t' := fun same => by subst same; cases ink
    simp [Text.isInlineBlank, noSpace, noTab]
  have stops (rest : Text) : (c :: rest).dropWhile Text.isInlineBlank = c :: rest := by
    rw [List.dropWhile_cons_of_neg (by simp [noBlank])]
  have word (start : Text) {blanks : Text} (blank : Text.Blank blanks) :
      (start ++ c :: blanks).takeWhile Text.isNameChar = (start ++ [c]).takeWhile Text.isNameChar := by
    rw [← takeWhile_name_append blank (start ++ [c]), List.append_assoc]
    rfl
  simp only [opensRegex, List.dropWhile_append, stops]
  cases kept : text.dropWhile Text.isInlineBlank with
  | nil =>
    simp only [List.isEmpty_nil, if_true]
    rw [← List.nil_append (c :: left), ← List.nil_append (c :: right), word [] leftBlank,
      word [] rightBlank]
  | cons d rest =>
    simp only [List.isEmpty_cons, Bool.false_eq_true, if_false, List.cons_append]
    rw [← List.cons_append, ← List.cons_append, word _ leftBlank, word _ rightBlank]

theorem blank_of_inline {text : Text} (inline : Text.Within Text.isInlineBlank text) :
    Text.Blank text := by
  apply inline.mono
  intro c space
  rcases (by simpa [Text.isInlineBlank] using space : c = ' ' ∨ c = '\t') with rfl | rfl <;> decide

theorem opensRegex_append_inline (text : Text) {blanks : Text}
    (inline : Text.Within Text.isInlineBlank blanks) :
    opensRegex (text ++ blanks) = opensRegex text := by
  have dropped : (blanks ++ []).dropWhile Text.isInlineBlank = [] :=
    List.dropWhile_append_of_pos inline
  rw [List.append_nil] at dropped
  simp only [opensRegex, List.dropWhile_append, dropped]
  cases kept : text.dropWhile Text.isInlineBlank with
  | nil => rfl
  | cons c rest =>
    simp only [List.isEmpty_cons, Bool.false_eq_true, if_false, List.cons_append]
    rw [← List.cons_append, takeWhile_name_append (blank_of_inline inline)]

theorem opensRegex_of_inline {blanks : Text} (inline : Text.Within Text.isInlineBlank blanks) :
    opensRegex blanks = true :=
  opensRegex_append_inline [] inline

/-- A slash at the start of a line that opens no comment, behind blanks that are not all spaces and
tabs. It divides where it stands, but opens a regular expression when the line is trimmed. -/
def oddSlash (line : Text) : Bool :=
  match Text.trimStart line with
  | '/' :: rest =>
    rest.head? != some '/' && rest.head? != some '*' &&
      !(line.takeWhile Text.isBlank).all Text.isInlineBlank
  | _ => false

/-- Two cursors in code behind blanks get in step with the first ink, unless it is a slash that they
take for different things. -/
theorem Cursor.alike_behind_ink {left right : Text} (leftBlank : Text.Blank left)
    (rightBlank : Text.Blank right) {c : Char} (ink : Text.isBlank c = false)
    (same : c = '/' → opensRegex left = opensRegex right) :
    Cursor.Alike 0 0 (Cursor.step 0 ⟨left, .code, []⟩ c) (Cursor.step 0 ⟨right, .code, []⟩ c) where
  mode := by
    simp only [Cursor.step, Mode.next, codeMode]
    split
    next slash => rw [same slash]
    next => rfl
  nesting := by
    have single : SameNesting [0] [0] := SameNesting.nil.fresh List.not_mem_nil List.not_mem_nil
    simp only [Cursor.step, Mode.readsCode, if_true, bracketsAfter]
    split
    · exact single.push
    · split <;> exact single
  before := .inr fun text => opensRegex_append_ink text ink leftBlank rightBlank

/-- With its second character a comment is told, whatever its slash was taken for. -/
theorem Cursor.alike_behind_comment {left right : Text} {d : Char} (comment : d = '/' ∨ d = '*') :
    Cursor.Alike 0 0 (Cursor.run 0 ⟨left, .code, []⟩ ['/', d])
      (Cursor.run 0 ⟨right, .code, []⟩ ['/', d]) where
  mode := by rcases comment with rfl | rfl <;> rfl
  nesting := by
    have single : SameNesting [0] [0] := SameNesting.nil.fresh List.not_mem_nil List.not_mem_nil
    rcases comment with rfl | rfl <;> simpa [Cursor.run, Cursor.step, Mode.readsCode, bracketsAfter,
      isOpener, isCloser, Mode.next, codeMode] using single
  before := .inr fun text => by
    have longer := opensRegex_append_slash (text ++ [d]) left right
    simpa [Cursor.run, Cursor.step] using longer

theorem Cursor.read_behind_blanks {left right text : Text} (leftBlank : Text.Blank left)
    (rightBlank : Text.Blank right) (begins : Text.BeginsInk text)
    (same : ∀ rest, text = '/' :: rest → opensRegex left = opensRegex right ∨
      ∃ d others, rest = d :: others ∧ (d = '/' ∨ d = '*')) (sheltered : Bool) :
    Cursor.marks 0 sheltered ⟨left, .code, []⟩ text =
        Cursor.marks 0 sheltered ⟨right, .code, []⟩ text ∧
      (Cursor.run 0 ⟨left, .code, []⟩ text).mode = (Cursor.run 0 ⟨right, .code, []⟩ text).mode := by
  obtain ⟨c, rest, rfl, ink⟩ := begins
  by_cases settled : c = '/' → opensRegex left = opensRegex right
  · have alike := Cursor.alike_behind_ink leftBlank rightBlank ink settled
    have next : Mode.next left c .code = Mode.next right c .code := alike.mode
    constructor
    · rw [Cursor.marks, Cursor.marks, Cursor.mark?, Cursor.mark?, next, alike.marks sheltered rest]
    · exact (alike.run rest).mode
  · obtain ⟨rfl, differ⟩ : c = '/' ∧ ¬ opensRegex left = opensRegex right := by simpa using settled
    obtain ⟨d, others, rfl, comment⟩ := (same rest rfl).resolve_left differ
    have alike : Cursor.Alike 0 0 (Cursor.run 0 ⟨left, .code, []⟩ ['/', d])
        (Cursor.run 0 ⟨right, .code, []⟩ ['/', d]) := Cursor.alike_behind_comment comment
    have unmarked (before : Text) :
        Cursor.marks 0 sheltered ⟨before, .code, []⟩ ['/', d] = [] := by
      rcases comment with rfl | rfl <;> rfl
    change Cursor.marks 0 sheltered _ (['/', d] ++ others) =
        Cursor.marks 0 sheltered _ (['/', d] ++ others) ∧
      (Cursor.run 0 _ (['/', d] ++ others)).mode = (Cursor.run 0 _ (['/', d] ++ others)).mode
    rw [Cursor.marks_append, Cursor.marks_append, unmarked, unmarked, alike.marks sheltered others,
      Cursor.run_append, Cursor.run_append]
    exact ⟨rfl, (alike.run others).mode⟩

theorem isPlain_of_isBlank {c : Char} (blank : Text.isBlank c = true) : isPlain c = true := by
  have noSlash : c ≠ '/' := Text.ne_of_isBlank blank (by decide)
  have noSingle : c ≠ '\'' := Text.ne_of_isBlank blank (by decide)
  have noDouble : c ≠ '"' := Text.ne_of_isBlank blank (by decide)
  have noTick : c ≠ '`' := Text.ne_of_isBlank blank (by decide)
  simp [isPlain, noSlash, noSingle, noDouble, noTick]

theorem Cursor.run_blank_start {line : Nat} {region : Region} (outside : region ≠ .template)
    {blanks : Text} (blank : Text.Blank blanks) (before : Text) {brackets : List Nat} :
    Cursor.run line ⟨before, region.mode, brackets⟩ blanks =
      ⟨blanks.reverse ++ before, region.mode, brackets⟩ := by
  induction blanks generalizing before with
  | nil => rfl
  | cons c rest ih =>
    have first : Text.isBlank c = true := blank c List.mem_cons_self
    have stepped : Cursor.step line ⟨before, region.mode, brackets⟩ c =
        ⟨c :: before, region.mode, brackets⟩ := by
      cases region with
      | template => exact absurd rfl outside
      | comment =>
        have noStar : c ≠ '*' := Text.ne_of_isBlank first (by decide)
        simp [Region.mode, Cursor.step, Mode.next, Mode.readsCode, noStar]
      | code =>
        have kept : bracketsAfter line c brackets = brackets := by
          simp [bracketsAfter, isOpener_of_isBlank first, isCloser_of_isBlank first]
        rw [Region.mode, Cursor.step_plain (isPlain_of_isBlank first), kept]
    change Cursor.run line (Cursor.step line _ c) rest = _
    rw [stepped, ih (Text.Within.tail blank), List.reverse_cons, List.append_assoc]
    rfl

theorem Region.read_body {region : Region} (outside : region ≠ .template) {left right text : Text}
    (leftBlank : Text.Blank left) (rightBlank : Text.Blank right) (begins : Text.BeginsInk text)
    (same : region = .code → ∀ rest, text = '/' :: rest →
      opensRegex left.reverse = opensRegex right.reverse ∨
        ∃ d others, rest = d :: others ∧ (d = '/' ∨ d = '*')) :
    region.marks (left ++ text) = region.marks (right ++ text) ∧
      (Cursor.run 0 ⟨[], region.mode, []⟩ (left ++ text)).mode =
        (Cursor.run 0 ⟨[], region.mode, []⟩ (right ++ text)).mode := by
  have unmarked {blanks : Text} (blank : Text.Blank blanks) :
      Cursor.marks 0 (region = .template) ⟨[], region.mode, []⟩ blanks = [] := by
    rw [Cursor.marks_blank 0 _ _ blank]
    cases region with
    | template => exact absurd rfl outside
    | comment => rfl
    | code => rfl
  rw [Region.marks, Region.marks, Cursor.marks_append, Cursor.marks_append, unmarked leftBlank,
    unmarked rightBlank, Cursor.run_append, Cursor.run_append,
    Cursor.run_blank_start outside leftBlank, Cursor.run_blank_start outside rightBlank,
    List.append_nil, List.append_nil, List.nil_append, List.nil_append]
  have leftBack : Text.Blank left.reverse := fun c member => leftBlank c (List.mem_reverse.mp member)
  have rightBack : Text.Blank right.reverse := fun c member =>
    rightBlank c (List.mem_reverse.mp member)
  cases region with
  | template => exact absurd rfl outside
  | comment =>
    have alike : Cursor.Alike 0 0 ⟨left.reverse, .comment, []⟩ ⟨right.reverse, .comment, []⟩ :=
      ⟨rfl, SameNesting.nil.fresh List.not_mem_nil List.not_mem_nil, .inl rfl⟩
    exact ⟨alike.marks _ text, (alike.run text).mode⟩
  | code => exact Cursor.read_behind_blanks leftBack rightBack begins (same rfl) _

theorem oddSlash_append {blanks : Text} (blank : Text.Blank blanks) (rest : Text) :
    oddSlash (blanks ++ '/' :: rest) =
      (rest.head? != some '/' && rest.head? != some '*' && !blanks.all Text.isInlineBlank) := by
  have begins : Text.BeginsInk ('/' :: rest) := ⟨'/', rest, rfl, by decide⟩
  have trimmed : Text.trimStart (blanks ++ '/' :: rest) = '/' :: rest := by
    rw [Text.trimStart_append_of_blank blank, Text.trimStart_of_begins begins]
  have lead : (blanks ++ '/' :: rest).takeWhile Text.isBlank = blanks :=
    Text.takeWhile_append_of_stops blank fun c member => by cases member; decide
  simp only [oddSlash, trimmed, lead]

theorem head?_ne_of_blank {blanks : Text} (blank : Text.Blank blanks) {d : Char}
    (ink : Text.isBlank d = false) : blanks.head? ≠ some d := by
  intro first
  rw [blank d (List.mem_of_head? first)] at ink
  cases ink

theorem opensRegex_of_not_oddSlash {before rest behind lead : Text} (beforeBlank : Text.Blank before)
    (behindBlank : Text.Blank behind) (inline : Text.Within Text.isInlineBlank lead)
    (even : oddSlash (before ++ ('/' :: rest) ++ behind) = false) :
    opensRegex before.reverse = opensRegex lead.reverse ∨
      ∃ d others, rest = d :: others ∧ (d = '/' ∨ d = '*') := by
  rw [List.append_assoc, List.cons_append, oddSlash_append beforeBlank] at even
  have backwards {blanks : Text} (all : Text.Within Text.isInlineBlank blanks) :
      opensRegex blanks.reverse = true :=
    opensRegex_of_inline fun c member => all c (List.mem_reverse.mp member)
  cases rest with
  | nil =>
    have noSlash := head?_ne_of_blank behindBlank (d := '/') (by decide)
    have noStar := head?_ne_of_blank behindBlank (d := '*') (by decide)
    have all : before.all Text.isInlineBlank = true := by simpa [noSlash, noStar] using even
    exact .inl ((backwards (List.all_eq_true.mp all)).trans (backwards inline).symm)
  | cons d others =>
    by_cases comment : d = '/' ∨ d = '*'
    · exact .inr ⟨d, others, rfl, comment⟩
    · have all : before.all Text.isInlineBlank = true := by
        simpa [not_or.mp comment] using even
      exact .inl ((backwards (List.all_eq_true.mp all)).trans (backwards inline).symm)

theorem Region.after_append_blank (region : Region) (text : Text) {blanks : Text}
    (blank : Text.Blank blanks) : region.after (text ++ blanks) = region.after text := by
  rw [Region.after, Region.after, scanLine, scanLine, Cursor.run_append]
  exact (Cursor.run_blank 0 blank _).1

theorem Region.marks_append_blank (region : Region) (text : Text) {blanks : Text}
    (blank : Text.Blank blanks) :
    region.marks (text ++ blanks) =
      region.marks text ++ if region.after text = .template then blanks.map Mark.holds else [] := by
  rw [Region.marks, Cursor.marks_append, Cursor.marks_blank 0 _ _ blank]
  rfl

/-- A line that is trimmed and indented leads on as it did, and has the same marks but for the blanks
at its end: a literal that is open there has lost them. -/
theorem Region.read_placed {region : Region} (outside : region ≠ .template) {line : Text}
    (even : region = .code → oddSlash line = false) {lead : Text}
    (inline : Text.Within Text.isInlineBlank lead) :
    region.after (lead ++ Text.trim line) = region.after line ∧
      ∃ behind, Text.Blank behind ∧
        region.marks line = region.marks (lead ++ Text.trim line) ++
          if region.after line = .template then behind.map Mark.holds else [] := by
  obtain ⟨before, behind, beforeBlank, behindBlank, whole⟩ := Text.exists_trim line
  have leadBlank := blank_of_inline inline
  have same : region.marks (before ++ Text.trim line) = region.marks (lead ++ Text.trim line) ∧
      region.after (before ++ Text.trim line) = region.after (lead ++ Text.trim line) := by
    by_cases empty : Text.trim line = []
    · have here : region.after [] ≠ .template := by
        cases region with
        | template => exact absurd rfl outside
        | comment => exact Region.noConfusion
        | code => exact Region.noConfusion
      rw [empty, List.append_nil, List.append_nil, ← List.nil_append before, ← List.nil_append lead,
        region.marks_append_blank [] beforeBlank, region.marks_append_blank [] leadBlank,
        region.after_append_blank [] beforeBlank, region.after_append_blank [] leadBlank,
        if_neg here, if_neg here]
      exact ⟨rfl, rfl⟩
    · have begins := (Text.ink_of_trim_ne_nil empty).1
      obtain ⟨marks, mode⟩ := Region.read_body outside beforeBlank leadBlank begins fun inside rest slash => by
        apply opensRegex_of_not_oddSlash beforeBlank behindBlank inline
        rw [← slash, whole]
        exact even inside
      exact ⟨marks, congrArg Mode.region mode⟩
  have after : region.after line = region.after (before ++ Text.trim line) := by
    conv => lhs; rw [← whole]
    exact region.after_append_blank _ behindBlank
  refine ⟨by rw [after, same.2], behind, behindBlank, ?_⟩
  conv => lhs; rw [← whole]
  rw [region.marks_append_blank _ behindBlank, same.1, after]

end OptionsApi.Layout
