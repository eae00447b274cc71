import OptionsApi.Proofs.Layout.Inline
import OptionsApi.Proofs.Layout.Nesting
import OptionsApi.Proofs.Layout.Placement
import OptionsApi.Tree.Print

/-! Printed text that the layout keeps. A printer counts how deep it is, the layout counts the lines
on which brackets are open; a block settles at a depth if the layout, met there in code, places each
of its lines as it stands and finds the same brackets open behind it. Blocks are put together from
lines, from blocks in braces and from documentation. -/

set_option autoImplicit false

namespace OptionsApi.Layout

variable {indent depth : Nat}

/-- The lines of the text are placed as they stand, and none of them is empty. -/
structure State.Keeps (indent : Nat) (state : State) (text : Text) (last : State) : Prop where
  placed : state.placeLines indent (Text.lines text) =
    ((Text.lines text).map (PlacedLine.mk · false), last)
  ink : ∀ line ∈ Text.lines text, line ≠ []

theorem State.Keeps.newline {state middle last : State} {left right : Text}
    (first : state.Keeps indent left middle) (second : middle.Keeps indent right last) :
    state.Keeps indent (left ++ '\n' :: right) last where
  placed := by
    rw [Text.lines_append_lineFeed, placeLines_append, first.placed, second.placed, List.map_append]
  ink := by
    intro line member
    rw [Text.lines_append_lineFeed] at member
    rcases List.mem_append.mp member with inside | inside
    · exact first.ink line inside
    · exact second.ink line inside

theorem State.Keeps.ofLine {state next : State} {line : Text} (single : '\n' ∉ line)
    (outside : state.region ≠ .template) (ink : line ≠ [])
    (placed : state.placeLine indent line = (line, next)) : state.Keeps indent line next where
  placed := by
    simp [Text.lines_of_single single, placeLines, placed, outside]
  ink := by
    rw [Text.lines_of_single single]
    intro other only
    rwa [List.mem_singleton.mp only]

theorem single_margin (indent depth : Nat) : '\n' ∉ margin indent depth := fun member => by
  cases List.eq_of_mem_replicate member

theorem State.Keeps.code {state : State} {body : Text} (inside : state.region = .code)
    (single : '\n' ∉ body) (begins : Text.BeginsInk body) (ends : Text.EndsInk body)
    (deep : level (state.brackets.drop (leadingClosers body)) = depth) :
    state.Keeps indent (margin indent depth ++ body) (state.advance body) := by
  have trimmed : Text.trim (margin indent depth ++ body) = body := by
    rw [margin, Text.trim_append_of_blank (Text.Blank.spaces _), Text.trim_of_ink begins ends]
  have ink : Text.trim (margin indent depth ++ body) ≠ [] := trimmed.symm ▸ begins.ne_nil
  apply State.Keeps.ofLine
  · rw [List.mem_append]
    exact not_or_intro (single_margin indent depth) single
  · simp [inside]
  · simp [begins.ne_nil]
  · rw [placeLine_code indent inside ink, trimmed, indentation, deep, margin]

theorem State.Keeps.star {state : State} {rest : Text} (inside : state.region = .comment)
    (single : '\n' ∉ rest) (ends : Text.EndsInk ('*' :: rest)) (deep : level state.brackets = depth) :
    state.Keeps indent (margin indent depth ++ ' ' :: '*' :: rest)
      (state.advance (margin indent depth ++ ' ' :: '*' :: rest)) := by
  have lead : Text.Blank (margin indent depth ++ [' ']) :=
    (Text.Blank.spaces _).append (by decide)
  have trimmed : Text.trim (margin indent depth ++ ' ' :: '*' :: rest) = '*' :: rest := by
    rw [show margin indent depth ++ ' ' :: '*' :: rest =
        (margin indent depth ++ [' ']) ++ '*' :: rest by simp,
      Text.trim_append_of_blank lead, Text.trim_of_ink ⟨'*', rest, rfl, by decide⟩ ends]
  have ink : Text.trim (margin indent depth ++ ' ' :: '*' :: rest) ≠ [] := by simp [trimmed]
  apply State.Keeps.ofLine
  · simp [single_margin indent depth, single]
  · simp [inside]
  · simp
  · rw [placeLine_comment indent inside ink, trimmed, indentation, deep]
    simp [starMargin, margin]

structure State.Ready (region : Region) (depth : Nat) (state : State) : Prop where
  inside : state.region = region
  numbered : state.Numbered
  deep : level state.brackets = depth

/-- Wherever the layout meets the text at this depth it keeps it, and comes back to the brackets it
had open before. -/
def Settles (indent depth : Nat) (text : Text) : Prop :=
  ∀ state : State, state.Ready .code depth →
    ∃ last, state.Keeps indent text last ∧ last.Ready .code depth ∧ last.brackets = state.brackets

theorem Settles.newline {left right : Text} (first : Settles indent depth left)
    (second : Settles indent depth right) : Settles indent depth (left ++ '\n' :: right) := by
  intro state ready
  obtain ⟨middle, kept, readyThen, same⟩ := first state ready
  obtain ⟨last, keptThen, readyLast, sameThen⟩ := second middle readyThen
  exact ⟨last, kept.newline keptThen, readyLast, sameThen.trans same⟩

theorem Settles.join {blocks : List Text} {behind : Text}
    (each : ∀ block ∈ blocks, Settles indent depth block) {goal : State → Prop} {state : State}
    (ready : state.Ready .code depth)
    (rest : ∀ middle : State, middle.Ready .code depth → middle.brackets = state.brackets →
      ∃ last, middle.Keeps indent behind last ∧ goal last) :
    ∃ last, state.Keeps indent (Text.join "\n" (blocks ++ [behind])) last ∧ goal last := by
  induction blocks generalizing state with
  | nil => simpa using rest state ready rfl
  | cons block blocks ih =>
    obtain ⟨middle, kept, readyThen, same⟩ := each block List.mem_cons_self state ready
    obtain ⟨last, keptThen, reached⟩ :=
      ih (fun other member => each other (List.mem_cons_of_mem block member)) readyThen
        fun later readyLater sameLater => rest later readyLater (sameLater.trans same)
    refine ⟨last, ?_, reached⟩
    rw [List.cons_append, Text.join_cons_append_singleton]
    simpa using kept.newline keptThen

/-! Lines of code. -/

theorem Leaves.advance {count : Nat} {text : Text} (leaves : Leaves count text) {state : State}
    (inside : state.region = .code) :
    state.advance text =
      ⟨List.replicate count (state.lineCount + 1) ++ state.brackets, .code, state.lineCount + 1⟩ := by
  obtain ⟨read, scanned⟩ := leaves.scanned (state.lineCount + 1) [] state.brackets
  simp only [State.advance, scanLine, inside, Region.mode, scanned, Mode.region]

theorem Settles.line {body : Text} (leaves : Leaves 0 body) (leads : Leads body)
    (ends : Text.EndsInk body) : Settles indent depth (margin indent depth ++ body) := by
  intro state ready
  have advanced := leaves.advance ready.inside
  have brackets : (state.advance body).brackets = state.brackets := by simp [advanced]
  refine ⟨state.advance body, ?_, ⟨?_, ready.numbered.advance body, ?_⟩, brackets⟩
  · exact .code ready.inside leaves.single leads.begins ends
      (by rw [leads.leadingClosers_eq, List.drop_zero, ready.deep])
  · rw [advanced]
  · rw [brackets, ready.deep]

/-! Blocks in braces. -/

def IsEnding (text : Text) : Prop := text = [] ∨ text = [','] ∨ text = [';']

theorem IsEnding.leaves {text : Text} (ending : IsEnding text) : Leaves 0 text := by
  rcases ending with rfl | rfl | rfl <;> exact leaves_of_plain (by decide)

theorem IsEnding.endsInk {text ending : Text} (isEnding : IsEnding ending) (ends : Text.EndsInk text)
    (closers : Nat) :
    Text.EndsInk (text ++ List.replicate closers ')' ++ ending) := by
  have closed : Text.EndsInk (text ++ List.replicate closers ')') := by
    cases closers with
    | zero => simpa using ends
    | succ count =>
      rw [List.replicate_succ', ← List.append_assoc]
      exact (Text.EndsInk.singleton (by decide)).append _
  rcases isEnding with rfl | rfl | rfl
  · simpa using closed
  · exact (Text.EndsInk.singleton (by decide)).append _
  · exact (Text.EndsInk.singleton (by decide)).append _

theorem level_replicate_append {line : Nat} {brackets : List Nat} (fresh : line ∉ brackets)
    (count : Nat) : level (List.replicate (count + 1) line ++ brackets) = level brackets + 1 := by
  induction count with
  | zero => simp [level, fresh]
  | succ count ih =>
    rw [List.replicate_succ, List.cons_append, level, if_pos (by simp), ih]

theorem isCloser_of_mem_closing {closers : Nat} {c : Char}
    (member : c ∈ '}' :: List.replicate closers ')') : isCloser c = true := by
  rcases List.mem_cons.mp member with rfl | later
  · rfl
  · rw [List.eq_of_mem_replicate later]
    rfl

theorem leadingClosers_closing (closers : Nat) {ending : Text} (isEnding : IsEnding ending) :
    leadingClosers ('}' :: (List.replicate closers ')' ++ ending)) = closers + 1 := by
  have inside : ∀ c ∈ '}' :: List.replicate closers ')', isCloser c = true :=
    fun _ => isCloser_of_mem_closing
  have stops : ending.takeWhile isCloser = [] := by
    rcases isEnding with rfl | rfl | rfl <;> rfl
  rw [leadingClosers, ← List.cons_append, List.takeWhile_append_of_pos inside, stops]
  simp

theorem State.Keeps.closing {state : State} (inside : state.region = .code)
    (numbered : state.Numbered) {opened line : Nat} {brackets : List Nat}
    (same : state.brackets = List.replicate (opened + 1) line ++ brackets)
    (deep : level brackets = depth) {ending : Text} (isEnding : IsEnding ending) :
    ∃ last, state.Keeps indent
        (margin indent depth ++ '}' :: (List.replicate opened ')' ++ ending)) last ∧
      last.Ready .code depth ∧ last.brackets = brackets := by
  let body : Text := '}' :: (List.replicate opened ')' ++ ending)
  have dropped : state.brackets.drop (opened + 1) = brackets := by simp [same]
  have ends : Text.EndsInk body :=
    isEnding.endsInk (Text.EndsInk.singleton (by decide)) opened
  obtain ⟨between, closed⟩ :=
    Cursor.run_closers (state.lineCount + 1) (fun _ => isCloser_of_mem_closing) [] state.brackets
  obtain ⟨read, scanned⟩ :=
    isEnding.leaves.scanned (state.lineCount + 1) between (state.brackets.drop (opened + 1))
  -- The brackets at its start take away what the block had open, and its ending opens nothing.
  have advanced : state.advance body = ⟨brackets, .code, state.lineCount + 1⟩ := by
    have ran : scanLine (state.lineCount + 1) .code state.brackets body = ⟨read, .code, brackets⟩ := by
      change Cursor.run _ _ (('}' :: List.replicate opened ')') ++ ending) = _
      rw [Cursor.run_append, Region.mode, closed, List.length_cons, List.length_replicate, scanned,
        dropped]
      rfl
    simp only [advance, inside, ran, Mode.region]
  have single : '\n' ∉ body := by
    simp only [body, List.mem_cons, List.mem_append, List.mem_replicate]
    rintro (other | ⟨_, other⟩ | member)
    · cases other
    · cases other
    · exact isEnding.leaves.single member
  refine ⟨state.advance body, ?_, ⟨by rw [advanced], numbered.advance body, ?_⟩, by rw [advanced]⟩
  · exact .code inside single ⟨'}', _, rfl, by decide⟩ ends
      (by rw [leadingClosers_closing opened isEnding, dropped, deep])
  · rw [advanced, deep]

theorem bracedLines_append (start : Text) (blocks : List Text) (behind : Text) :
    bracedLines start blocks ++ behind =
      '{' :: '\n' :: Text.join "\n" (blocks ++ [start ++ '}' :: behind]) := by
  rw [bracedLines, List.cons_append, Text.join_cons_append_singleton]
  simp [Text.join_append_singleton_append]

theorem Settles.braced {opened : Nat} {start : Text} (leaves : Leaves opened start)
    (leads : Leads start) {blocks : List Text}
    (each : ∀ block ∈ blocks, Settles indent (depth + 1) block) {ending : Text}
    (isEnding : IsEnding ending) :
    Settles indent depth (margin indent depth ++ start ++
      bracedLines (margin indent depth) blocks ++ List.replicate opened ')' ++ ending) := by
  intro state ready
  have brace : Leaves 1 ['{'] := leaves_of_plain (by decide)
  have opening : Leaves (1 + opened) (start ++ ['{']) := leaves.append brace
  have advanced := opening.advance ready.inside
  rw [Nat.add_comm] at advanced
  have kept : state.Keeps indent (margin indent depth ++ (start ++ ['{']))
      (state.advance (start ++ ['{'])) :=
    .code ready.inside opening.single (leads.append _).begins
      ((Text.EndsInk.singleton (by decide)).append start)
      (by rw [(leads.append _).leadingClosers_eq, List.drop_zero, ready.deep])
  -- The line at hand is new, so whatever it opens is one level deeper.
  have inner : (state.advance (start ++ ['{'])).Ready .code (depth + 1) := by
    refine ⟨by rw [advanced], ready.numbered.advance _, ?_⟩
    rw [advanced, level_replicate_append ready.numbered.fresh, ready.deep]
  obtain ⟨last, keptThen, reached⟩ := Settles.join each inner
    fun middle readyThen same => State.Keeps.closing readyThen.inside
      readyThen.numbered (same.trans (by rw [advanced])) ready.deep isEnding
  refine ⟨last, ?_, reached⟩
  have whole := kept.newline keptThen
  rw [List.append_assoc _ (List.replicate opened ')'), List.append_assoc, List.append_assoc,
    bracedLines_append]
  simpa using whole

/-! Documentation. -/

structure IsDocLine (line : Text) : Prop where
  single : '\n' ∉ line
  unclosed : ¬ ['*', '/'] <:+: line

theorem unclosed_cons {c : Char} {text : Text} (other : c ≠ '*') (unclosed : ¬ ['*', '/'] <:+: text) :
    ¬ ['*', '/'] <:+: c :: text := by
  intro closed
  rcases List.infix_cons_iff.mp closed with ⟨rest, whole⟩ | later
  · exact other (List.cons.inj whole).1.symm
  · exact unclosed later

theorem IsDocLine.unclosed_star {line : Text} (isDocLine : IsDocLine line) (indent depth : Nat) :
    ¬ ['*', '/'] <:+: Text.trimEnd (margin indent depth ++ " * " ++ line) := by
  have behind : ¬ ['*', '/'] <:+: '*' :: ' ' :: line := by
    intro closed
    rcases List.infix_cons_iff.mp closed with ⟨rest, whole⟩ | later
    · simp at whole
    · exact unclosed_cons (by decide) isDocLine.unclosed later
  have whole : ¬ ['*', '/'] <:+: margin indent depth ++ " * " ++ line := by
    rw [List.append_assoc, margin, Text.spaces]
    -- No space of the margin is a star, so the margin can be put in front one space at a time.
    induction indent * depth with
    | zero => exact unclosed_cons (by decide) behind
    | succ count ih => exact unclosed_cons (by decide) ih
  obtain ⟨blanks, _, same⟩ := Text.exists_trimEnd (margin indent depth ++ " * " ++ line)
  exact fun closed => whole (closed.trans ⟨[], blanks, by simpa using same⟩)

theorem exists_trimEnd_star (start : Text) {line : Text} (single : '\n' ∉ line) :
    ∃ rest, Text.trimEnd (start ++ " * " ++ line) = start ++ ' ' :: '*' :: rest ∧ '\n' ∉ rest ∧
      Text.EndsInk ('*' :: rest) := by
  have star : Text.trimEnd ('*' :: ' ' :: line) = '*' :: Text.trimEnd (' ' :: line) :=
    Text.trimEnd_cons_of_ink (by decide) _
  refine ⟨Text.trimEnd (' ' :: line), ?_, ?_, ?_⟩
  · rw [show start ++ " * " ++ line = (start ++ [' ']) ++ '*' :: ' ' :: line by simp,
      Text.trimEnd_append_of_ne_nil _ (by simp [star]), star]
    simp
  · intro member
    obtain ⟨blanks, _, same⟩ := Text.exists_trimEnd (' ' :: line)
    have inside : '\n' ∈ ' ' :: line := same ▸ List.mem_append_left blanks member
    simp [single] at inside
  · exact star ▸ (Text.trimEnd_eq_nil_or_ends _).resolve_left (by simp [star])

theorem State.Keeps.docLine {state : State} (ready : state.Ready .comment depth) {line : Text}
    (isDocLine : IsDocLine line) :
    ∃ next, state.Keeps indent (Text.trimEnd (margin indent depth ++ " * " ++ line)) next ∧
      next.Ready .comment depth ∧ next.brackets = state.brackets := by
  obtain ⟨rest, same, single, ends⟩ := exists_trimEnd_star (margin indent depth) isDocLine.single
  have unclosed := isDocLine.unclosed_star indent depth
  rw [same] at unclosed ⊢
  -- The line is scanned with its margin, as the layout does with lines that begin in a comment.
  have start : (Cursor.mk [] state.region.mode state.brackets).mode = .comment := by
    rw [ready.inside]
    rfl
  obtain ⟨region, brackets⟩ := Cursor.run_comment (state.lineCount + 1) unclosed (Or.inl start)
  refine ⟨_, .star ready.inside single ends ready.deep, ⟨region, ready.numbered.advance _, ?_⟩,
    brackets⟩
  exact (congrArg level brackets).trans ready.deep

theorem State.Keeps.docEnd {state : State} (ready : state.Ready .comment depth) :
    ∃ next, state.Keeps indent (margin indent depth ++ " */") next ∧
      next.Ready .code depth ∧ next.brackets = state.brackets := by
  have advanced : state.advance (margin indent depth ++ [' ', '*', '/']) =
      ⟨state.brackets, .code, state.lineCount + 1⟩ := by
    obtain ⟨read, scanned⟩ := Cursor.run_blank_comment (state.lineCount + 1)
      (Text.Blank.spaces (indent * depth)) [] state.brackets
    simp only [advance, scanLine, ready.inside, Region.mode, Cursor.run_append, margin, scanned]
    rfl
  have kept : state.Keeps indent (margin indent depth ++ [' ', '*', '/'])
      (state.advance (margin indent depth ++ [' ', '*', '/'])) :=
    .star ready.inside (by decide) ⟨['*'], '/', rfl, by decide⟩ ready.deep
  refine ⟨_, kept, ⟨by rw [advanced], ready.numbered.advance _, ?_⟩, by rw [advanced]⟩
  rw [advanced, ready.deep]

theorem State.Keeps.docLines {lines : List Text} (plain : ∀ line ∈ lines, IsDocLine line)
    {state : State} (ready : state.Ready .comment depth) :
    ∃ next, state.Keeps indent (Text.join "\n"
        (lines.map (fun line => Text.trimEnd (margin indent depth ++ " * " ++ line)) ++
          [margin indent depth ++ " */"])) next ∧
      next.Ready .code depth ∧ next.brackets = state.brackets := by
  induction lines generalizing state with
  | nil => simpa using State.Keeps.docEnd ready
  | cons line rest ih =>
    obtain ⟨middle, kept, readyThen, same⟩ :=
      @State.Keeps.docLine indent _ _ ready _ (plain line List.mem_cons_self)
    obtain ⟨last, keptThen, readyLast, sameThen⟩ :=
      ih (fun other member => plain other (List.mem_cons_of_mem line member)) readyThen
    refine ⟨last, ?_, readyLast, sameThen.trans same⟩
    rw [List.map_cons, List.cons_append, Text.join_cons_append_singleton]
    simpa using kept.newline keptThen

theorem settles_doc {lines : List Text} (plain : ∀ line ∈ lines, IsDocLine line) :
    Settles indent depth
      (Text.join "\n" (OptionsApi.docLines (margin indent depth) (some ⟨lines⟩))) := by
  intro state ready
  have advanced : state.advance ['/', '*', '*'] =
      ⟨state.brackets, .comment, state.lineCount + 1⟩ := by
    simp only [State.advance, scanLine, ready.inside, Region.mode]
    rfl
  have kept : state.Keeps indent (margin indent depth ++ ['/', '*', '*'])
      (state.advance ['/', '*', '*']) :=
    .code ready.inside (by decide) ⟨'/', _, rfl, by decide⟩ ⟨['/', '*'], '*', rfl, by decide⟩ ready.deep
  have inner : (state.advance ['/', '*', '*']).Ready .comment depth := by
    refine ⟨by rw [advanced], ready.numbered.advance _, ?_⟩
    rw [advanced, ready.deep]
  obtain ⟨last, keptThen, readyLast, same⟩ := @State.Keeps.docLines indent _ _ plain _ inner
  refine ⟨last, ?_, readyLast, same.trans (by rw [advanced])⟩
  rw [OptionsApi.docLines, List.cons_append, Text.join_cons_append_singleton]
  simpa using kept.newline keptThen

theorem documented_append (start : Text) (doc : Option DocComment) (member behind : Text) :
    documented start doc member ++ behind = documented start doc (member ++ behind) := by
  rw [documented, Text.join_append_singleton_append, List.append_assoc, documented]

theorem Settles.documented {doc : Option DocComment}
    (plain : ∀ comment ∈ doc, ∀ line ∈ comment.lines, IsDocLine line) {member : Text}
    (settles : Settles indent depth (margin indent depth ++ member)) :
    Settles indent depth (documented (margin indent depth) doc member) := by
  cases doc with
  | none => simpa [OptionsApi.documented, OptionsApi.docLines] using settles
  | some comment =>
    have described : Settles indent depth _ := settles_doc (plain comment rfl)
    have whole := described.newline settles
    rw [OptionsApi.documented, Text.join_append_singleton _ (by simp [OptionsApi.docLines])]
    simpa using whole

/-! Whole texts. -/

theorem squeeze_of_ink {lines : List Text} (ink : ∀ line ∈ lines, line ≠ []) (afterEmpty : Bool) :
    squeeze afterEmpty (lines.map (PlacedLine.mk · false)) = lines := by
  induction lines generalizing afterEmpty with
  | nil => rfl
  | cons line rest ih =>
    have first : line.isEmpty = false := by simpa using ink line List.mem_cons_self
    rw [List.map_cons, squeeze]
    simp [first, ih fun other member => ink other (List.mem_cons_of_mem line member)]

theorem dropTrailingEmpty_of_ink {lines : List Text} (ink : ∀ line ∈ lines, line ≠ []) :
    dropTrailingEmpty lines = lines := by
  induction lines with
  | nil => rfl
  | cons line rest ih =>
    rw [dropTrailingEmpty, ih fun other member => ink other (List.mem_cons_of_mem line member)]
    cases rest with
    | nil => simp [ink line List.mem_cons_self]
    | cons => rfl

/-- A text that settles outside all brackets is laid out already, and nothing is open behind it. -/
theorem layOut_of_settles {indent : Int} {text : Text} (settles : Settles indent.toNat 0 text) :
    (layOut indent (text ++ ['\n'])).1 = text ++ ['\n'] ∧
      (layOut indent (text ++ ['\n'])).2.brackets = [] ∧
      (layOut indent (text ++ ['\n'])).2.region = .code := by
  obtain ⟨last, kept, ready, same⟩ := settles {} ⟨rfl, State.Numbered.initial, rfl⟩
  -- The line feed at the end makes one more line, an empty one, which is dropped again.
  have behind : last.placeLine indent.toNat [] = ([], last.skip) :=
    State.placeLine_blank _ (by simp [ready.inside]) rfl
  have placed : ({} : State).placeLines indent.toNat (Text.lines (text ++ ['\n'])) =
      ((Text.lines text).map (PlacedLine.mk · false) ++ [⟨[], false⟩], last.skip) := by
    rw [Text.lines_append_lineFeed, State.placeLines_append, kept.placed]
    simp [Text.lines, Text.splitOn, State.placeLines, behind, ready.inside]
  simp only [layOut, placed]
  refine ⟨?_, same, ready.inside⟩
  rw [dropTrailingEmpty_squeeze_append true _ (by simp), squeeze_of_ink kept.ink,
    dropTrailingEmpty_of_ink kept.ink, Text.ofLines_lines]

end OptionsApi.Layout
