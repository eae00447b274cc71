import OptionsApi.Proofs.Import.Addition
import OptionsApi.Proofs.Import.Merged

/-! The statements of the text that comes out. Where names are merged, the statements are found again
that were there before, the one with the names among them. Where a statement is added, it is found
behind those that were there; for that, the imports have to stand one per line. -/

set_option autoImplicit false

namespace OptionsApi.Import

open Text (Blank Within)

/-! Pieces taken apart. -/

section
variable {search : Search} {lineStart : Bool} {text : Text} {right : List Piece}

theorem piecesFrom_eq_statement {statement : Statement}
    (cut : piecesFrom search lineStart text = .statement statement :: right) :
    lineStart = true ∧ Statement.read? search text = some (statement, textOf right) ∧
      piecesFrom search false (textOf right) = right := by
  rw [piecesFrom] at cut
  split at cut
  next other rest found =>
    injection cut with same later
    cases same
    subst later
    rw [textOf_piecesFrom]
    unfold readAt? at found
    split at found
    next start => exact ⟨start, found, rfl⟩
    next => cases found
  next =>
    split at cut
    · cases cut
    · cases cut

theorem piecesFrom_eq_char {c : Char} (cut : piecesFrom search lineStart text = .char c :: right) :
    readAt? search lineStart text = none ∧ text = c :: textOf right ∧
      piecesFrom search (c = '\n') (textOf right) = right := by
  rw [piecesFrom] at cut
  split at cut
  next => cases cut
  next unread =>
    split at cut
    · cases cut
    next d rest =>
      injection cut with same later
      cases same
      subst later
      rw [textOf_piecesFrom]
      exact ⟨unread, rfl, rfl⟩

theorem readAt?_eq_some {statement : Statement} {rest : Text}
    (found : readAt? search lineStart text = some (statement, rest)) :
    lineStart = true ∧ Statement.read? search text = some (statement, rest) := by
  unfold readAt? at found
  split at found
  next start => exact ⟨start, found⟩
  next => cases found

theorem exists_lineFeed_of_piecesFrom {statement : Statement} {left : List Piece}
    (cut : piecesFrom search lineStart text = left ++ .statement statement :: right)
    (nonempty : left ≠ []) : ∃ start, textOf left = start ++ ['\n'] := by
  induction left generalizing lineStart text with
  | nil => exact absurd rfl nonempty
  | cons piece others ih =>
    rw [textOf_cons]
    have further (later : others ≠ [] → ∃ start, textOf others = start ++ ['\n']) (more : others ≠ []) :
        ∃ start, piece.text ++ textOf others = start ++ ['\n'] := by
      obtain ⟨start, ends⟩ := later more
      exact ⟨piece.text ++ start, by rw [ends, List.append_assoc]⟩
    cases piece with
    | char c =>
      obtain ⟨_, _, later⟩ := piecesFrom_eq_char cut
      by_cases last : others = []
      · subst last
        obtain ⟨start, _, _⟩ := piecesFrom_eq_statement later
        have feed : c = '\n' := of_decide_eq_true start
        exact ⟨[], by rw [feed]; rfl⟩
      · exact further (ih later) last
    | statement earlier =>
      obtain ⟨_, _, later⟩ := piecesFrom_eq_statement cut
      by_cases last : others = []
      · subst last
        obtain ⟨start, _, _⟩ := piecesFrom_eq_statement later
        cases start
      · exact further (ih later) last

theorem lineFeed_mem_of_piecesFrom {statement : Statement} {left : List Piece}
    (cut : piecesFrom search lineStart text = left ++ .statement statement :: right)
    (nonempty : left ≠ []) : '\n' ∈ textOf left := by
  obtain ⟨start, ends⟩ := exists_lineFeed_of_piecesFrom cut nonempty
  rw [ends]
  exact List.mem_append_right start List.mem_cons_self

end

/-! Another clause in a statement. -/

section
variable {before front other joint behind : Text} {quote : Char}

theorem Opens.exchange (feed : '\n' ∈ before) (opens : Opens (before ++ other))
    (nonempty : front ≠ []) (chars : Within isClauseChar front) (isJoint : IsJoint joint) :
    Opens (before ++ (front ++ joint)) := by
  -- Indentation and keyword have no line feed, so the part in front reaches past them.
  obtain ⟨indentation, blank, body, _, inline, isBlank, _, bodyChars, isJointToo, whole⟩ := opens
  have single : '\n' ∉ indentation ++ "import".toList := by
    rw [List.mem_append]
    rintro (member | member)
    · exact Within.not_mem inline (by decide) member
    · exact absurd member (by decide)
  rcases List.append_eq_append_iff.mp whole with ⟨inner, same, _⟩ | ⟨inner, rfl, same⟩
  · exact absurd (same ▸ List.mem_append_left _ feed) single
  · cases inner with
    | nil =>
      rw [List.append_nil] at feed
      exact absurd feed single
    | cons c more =>
      injection same with first rest
      have moreChars : Within isClauseChar more := fun d member =>
        (bodyChars.append isJointToo.chars) d (rest ▸ List.mem_append_left _ member)
      refine ⟨indentation, c, more ++ front, joint, inline, first ▸ isBlank, ?_,
        moreChars.append chars, isJoint, ?_⟩
      · simp [nonempty]
      · simp

/-- Where a statement is found behind which another begins a line, one is found whatever the clause
of that other one is. -/
theorem isSome_read?_exchange (feed : '\n' ∈ before) (otherChars : Within isClauseChar other)
    (otherNonempty : other ≠ []) (nonempty : front ≠ []) (chars : Within isClauseChar front)
    (isJoint : IsJoint joint) (quoted : isQuote quote = true)
    (found : (Statement.read? .binding (before ++ (other ++ quote :: behind))).isSome = true) :
    (Statement.read? .binding (before ++ (front ++ joint ++ quote :: behind))).isSome = true := by
  have unquoted := unquoted_of_clauseChars otherChars
  -- The other clause does not begin with a quote.
  have unlike {q : Char} {tail : Text} (isQuoted : isQuote q = true)
      (same : q :: tail = other ++ quote :: behind) : False := by
    have empty := (split_at_quote Within.nil unquoted isQuoted quoted same).1
    exact otherNonempty empty.symm
  obtain ⟨start, q, moduleName, left, opens, isQuoted, named, whole⟩ := isSome_read?_iff.mp found
  refine isSome_read?_iff.mpr ?_
  -- A statement is found by its two quotes, and either may be the one behind the clause.
  rcases List.append_eq_append_iff.mp whole with ⟨inner, rfl, same⟩ | ⟨inner, rfl, same⟩
  · -- The first quote is that behind the clause.
    obtain ⟨rfl, rfl, rfl⟩ := split_at_quote unquoted
      (fun c member => unquoted_of_clauseChars opens.chars c (List.mem_append_right _ member))
      quoted isQuoted same
    exact ⟨_, quote, moduleName, left, opens.exchange feed nonempty chars isJoint, quoted, named,
      by simp⟩
  · cases inner with
    | nil => exact (unlike isQuoted same).elim
    | cons c more =>
      injection same with first rest
      subst first
      rcases List.append_eq_append_iff.mp rest with ⟨tail, rfl, same⟩ | ⟨tail, rfl, same⟩
      · cases tail with
        | nil => exact (unlike isQuoted same).elim
        | cons d tail =>
          injection same with second _
          subst second
          exact ⟨start, q, moduleName, tail ++ (front ++ joint ++ quote :: behind), opens, isQuoted,
            named, by simp⟩
      · -- The second quote is that behind the clause.
        obtain ⟨rfl, rfl, rfl⟩ := split_at_quote unquoted
          (fun c member => named.chars c (List.mem_append_right _ member)) quoted isQuoted same
        refine ⟨start, quote, more ++ (front ++ joint), behind, opens, quoted, ⟨?_, ?_⟩, by simp⟩
        · simp [nonempty]
        · refine Within.append (fun c member => named.chars c (List.mem_append_left _ member)) ?_
          exact unquoted_of_clauseChars (chars.append isJoint.chars)

end

theorem Parts.read?_exchange {statement : Statement} {rest indentation blanks clause joint behind : Text}
    (parts : Parts .binding statement rest indentation blanks clause joint behind)
    {other : Text} (chars : Within isClauseChar other) (begins : Text.BeginsInk other)
    (ends : Text.EndsInk other) :
    Statement.read? .binding (statement.head ++ other ++ joint ++ statement.target.text ++ rest) =
      some ({ statement with clause := some (other, joint) }, rest) := by
  obtain ⟨quoted, _, named, left, _, ending⟩ := Target.read?_eq_some parts.names.read
  obtain ⟨before, after, gapBefore, gapAfter, rfl⟩ := parts.isJoint
  have same : statement.target.opening = statement.target.closing := by
    simpa [Search.accepts] using parts.names.accepted
  have closes : Ends statement.target.ending rest := by
    have taken := ends_takeEnding left
    rwa [ending] at taken
  have found := readClause?_written .binding gapBefore gapAfter quoted named closes chars ends
  have read := Statement.read?_head .binding parts.inline parts.gap (begins.append
    (before ++ "from" ++ after ++ statement.target.opening :: (statement.target.moduleName ++
      statement.target.opening :: (statement.target.ending ++ rest))))
  rw [readBinding?_of_readClause? _ parts.gap found, ← parts.head] at read
  obtain ⟨head, clauses, target⟩ := statement
  obtain ⟨opening, moduleName, closing, ending⟩ := target
  cases same
  simpa [Target.text] using read

theorem Ends.of_head? {ending first second : Text} (ends : Ends ending first)
    (same : second.head? = first.head?) : Ends ending second := by
  cases ends with
  | semicolon _ inline => exact .semicolon _ inline
  | bare inline other =>
    rw [← same] at other
    exact .bare inline other

section
variable {lineStart : Bool} {text : Text} {left right : List Piece} {statement : Statement}

theorem read?_of_piecesFrom {search : Search}
    (cut : piecesFrom search lineStart text = left ++ .statement statement :: right) :
    Statement.read? search (statement.text ++ textOf right) = some (statement, textOf right) ∧
      piecesFrom search false (textOf right) = right := by
  induction left generalizing lineStart text with
  | nil =>
    obtain ⟨_, found, later⟩ := piecesFrom_eq_statement cut
    rw [Statement.text_append_of_read? found]
    exact ⟨found, later⟩
  | cons piece others ih =>
    cases piece with
    | char c => exact ih (piecesFrom_eq_char cut).2.2
    | statement earlier => exact ih (piecesFrom_eq_statement cut).2.2

theorem Parts.unread_exchange {rest indentation blanks clause joint behind before other : Text}
    (parts : Parts .binding statement rest indentation blanks clause joint behind)
    (feed : '\n' ∈ before) (chars : Within isClauseChar other)
    (unread : readAt? .binding lineStart (before ++ (statement.text ++ rest)) = none) :
    readAt? .binding lineStart
      (before ++ (statement.head ++ other ++ joint ++ statement.target.text ++ rest)) = none := by
  -- A reading with the other clause would give one with the clause itself.
  obtain ⟨quoted, _⟩ := Target.read?_eq_some parts.names.read
  have nonempty : statement.head ≠ [] := by simp [parts.head]
  unfold readAt? at unread ⊢
  split
  next start =>
    rw [if_pos start, parts.text, Target.text] at unread
    rw [← Option.not_isSome_iff_eq_none] at unread ⊢
    intro found
    apply unread
    have front := isSome_read?_exchange feed
      ((parts.head_chars.append chars).append parts.isJoint.chars) (by simp [nonempty])
      (by simp [nonempty]) (parts.head_chars.append parts.isClause.chars) parts.isJoint quoted
      (by simpa [Target.text] using found)
    simpa using front
  next => rfl

/-- With another clause in one of its statements, a text has the same pieces apart from that one. -/
theorem piecesFrom_exchange {clause joint other : Text}
    (cut : piecesFrom .binding lineStart text = left ++ .statement statement :: right)
    (clauses : statement.clause = some (clause, joint)) (chars : Within isClauseChar other)
    (begins : Text.BeginsInk other) (ends : Text.EndsInk other) :
    let changed : Statement := { statement with clause := some (other, joint) }
    piecesFrom .binding lineStart (textOf (left ++ .statement changed :: right)) =
      left ++ .statement changed :: right := by
  intro changed
  obtain ⟨found, later⟩ := read?_of_piecesFrom cut
  obtain ⟨_, _, clauseText, jointText, _, parts, _⟩ := Statement.read?_eq_some found
  have same : clauseText = clause ∧ jointText = joint := by
    simpa using parts.clause.symm.trans clauses
  obtain ⟨rfl, rfl⟩ := same
  have changedText : changed.text = statement.head ++ other ++ jointText ++ statement.target.text := by
    simp [changed, Statement.text]
  induction left generalizing lineStart text with
  | nil =>
    obtain ⟨rfl, _⟩ := piecesFrom_eq_statement cut
    have read := parts.read?_exchange chars begins ends
    rw [← changedText] at read
    rw [List.nil_append, textOf_cons, Piece.text, piecesFrom_of_read? read, later]
  | cons piece others ih =>
    have feed := lineFeed_mem_of_piecesFrom cut (List.cons_ne_nil piece others)
    rw [List.cons_append] at cut ⊢
    rw [textOf_cons]
    cases piece with
    | char c =>
      obtain ⟨unread, rfl, further⟩ := piecesFrom_eq_char cut
      rw [textOf_append, textOf_cons] at unread
      have here : '\n' ∈ c :: textOf others := feed
      have silent := parts.unread_exchange here chars unread
      rw [← changedText] at silent
      have passed : readAt? .binding lineStart
          (c :: textOf (others ++ .statement changed :: right)) = none := by
        rw [textOf_append, textOf_cons]
        exact silent
      have step := piecesFrom_cons passed
      rw [ih further] at step
      exact step
    | statement earlier =>
      obtain ⟨rfl, read, further⟩ := piecesFrom_eq_statement cut
      have nonempty : others ≠ [] := by
        rintro rfl
        obtain ⟨start, _⟩ := piecesFrom_eq_statement further
        cases start
      -- The text behind the earlier statement begins as before.
      have first := lineFeed_mem_of_piecesFrom further nonempty
      obtain ⟨c, tail, shape⟩ := List.exists_cons_of_ne_nil (List.ne_nil_of_mem first)
      have closes : Ends earlier.target.ending (textOf (others ++ .statement changed :: right)) := by
        refine (Statement.read?_target read).2.2.of_head? ?_
        rw [textOf_append, textOf_append, shape]
        rfl
      rw [← Statement.text_append_of_read? read] at read
      have again := Statement.read?_append read closes
      rw [Piece.text, piecesFrom_of_read? again, ih further]

end

/-! A text up to the end of a statement. -/

/-- Between the start of a line and the closing quote of a statement there is the opening one. -/
structure Closing (lineStart : Bool) (text : Text) : Prop where
  here : lineStart = true → ¬ Unquoted text
  later : ∀ before behind, text = before ++ '\n' :: behind → ¬ Unquoted behind

theorem Closing.tail {lineStart : Bool} {c : Char} {text : Text} (closing : Closing lineStart (c :: text)) :
    Closing (c = '\n') text where
  here feed := closing.later [] text (by rw [of_decide_eq_true feed]; rfl)
  later before behind same := closing.later (c :: before) behind (by rw [same]; rfl)

theorem Closing.behind {lineStart : Bool} {before text : Text}
    (closing : Closing lineStart (before ++ text)) : Closing false text where
  here start := by cases start
  later start rest same := closing.later (before ++ start) rest (by rw [same]; simp)

theorem exists_behind_unquoted {start rest before behind : Text} {quote : Char}
    (unquoted : Unquoted start) (quoted : isQuote quote = true)
    (whole : before ++ quote :: behind = start ++ rest) :
    ∃ left, before = start ++ left ∧ rest = left ++ quote :: behind := by
  rcases List.append_eq_append_iff.mp whole with ⟨inner, rfl, same⟩ | ⟨left, rfl, same⟩
  · cases inner with
    | nil => exact ⟨[], by simp, same.symm⟩
    | cons c others =>
      injection same with first
      have plain : (!isQuote c) = true := unquoted c (by simp)
      rw [← first, quoted] at plain
      cases plain
  · exact ⟨left, rfl, same⟩

theorem Ends.unquoted {ending behind : Text} (ends : Ends ending behind) : Unquoted ending := by
  have plain {blanks : Text} (inline : InlineBlank blanks) : Unquoted blanks :=
    unquoted_of_clauseChars (clauseChars_of_inline inline)
  cases ends with
  | semicolon _ inline => exact (plain inline).append (by decide)
  | bare inline => exact plain inline

theorem Closing.read?_cases {text behind rest : Text} {quote : Char} {statement : Statement}
    (closing : Closing true text) (quoted : isQuote quote = true)
    (found : Statement.read? .binding (text ++ quote :: behind) = some (statement, rest)) :
    (statement.text = text ++ quote :: statement.target.ending ∧
      takeEnding behind = (statement.target.ending, rest)) ∨
    ∃ left, text = statement.text ++ left ∧ rest = left ++ quote :: behind := by
  obtain ⟨_, _, clause, joint, _, parts, whole⟩ := Statement.read?_eq_some found
  obtain ⟨_, _, named, following, rfl, ending⟩ := Target.read?_eq_some parts.names.read
  have front : Unquoted (statement.head ++ clause ++ joint) := unquoted_of_clauseChars
    ((parts.head_chars.append parts.isClause.chars).append parts.isJoint.chars)
  obtain ⟨inner, rfl, same⟩ := exists_behind_unquoted front quoted whole
  cases inner with
  | nil =>
    rw [List.append_nil] at closing
    exact absurd front (closing.here rfl)
  | cons c more =>
    injection same with first later
    subst first
    obtain ⟨inner, rfl, same⟩ := exists_behind_unquoted named.chars quoted later.symm
    cases inner with
    | nil =>
      injection same with second last
      subst last
      refine .inl ⟨?_, ending⟩
      rw [parts.text, Target.text, second]
      simp
    | cons d left =>
      injection same with second last
      subst second
      -- The statement ends between its own closing quote and the other one.
      have closed : Unquoted statement.target.ending := (Statement.read?_target found).2.2.unquoted
      have taken := takeEnding_append following
      rw [ending, last] at taken
      obtain ⟨inner, rfl, same⟩ := exists_behind_unquoted closed quoted taken.symm
      refine .inr ⟨inner, ?_, same⟩
      rw [parts.text, Target.text]
      simp

/-- The pieces of a text up to the end of a statement do not depend on what follows. -/
theorem exists_pieces_closing {text ending : Text} {quote : Char} {lineStart : Bool}
    (closing : Closing lineStart text) (quoted : isQuote quote = true) (single : '\n' ∉ ending) :
    ∃ parts, textOf parts = text ++ quote :: ending ∧ ∀ tail, Ends ending tail →
      piecesFrom .binding lineStart (text ++ quote :: (ending ++ tail)) =
        parts ++ piecesFrom .binding false tail := by
  by_cases found : ∃ tail, Ends ending tail ∧
      (readAt? .binding lineStart (text ++ quote :: (ending ++ tail))).isSome = true
  · obtain ⟨first, ends, found⟩ := found
    obtain ⟨⟨statement, rest⟩, read⟩ := Option.isSome_iff_exists.mp found
    obtain ⟨rfl, read⟩ := readAt?_eq_some read
    have whole := Statement.text_append_of_read? read
    rcases closing.read?_cases quoted read with ⟨same, taken⟩ | ⟨left, rfl, rfl⟩
    · rw [ends.takeEnding_eq] at taken
      injection taken with closed here
      subst here
      refine ⟨[.statement statement], by rw [closed, ← same]; simp [textOf, Piece.text], ?_⟩
      intro tail endsToo
      rw [← whole] at read
      have again := Statement.read?_append read (closed ▸ endsToo)
      rw [same, ← closed] at again
      have step := piecesFrom_of_read? again
      simpa using step
    · have shorter : left.length < (statement.text ++ left).length := by
        have positive := List.length_pos_iff.mpr statement.text_ne_nil
        rw [List.length_append]
        omega
      obtain ⟨parts, joined, cut⟩ := exists_pieces_closing closing.behind quoted single
      refine ⟨.statement statement :: parts, by simp [Piece.text, joined], ?_⟩
      intro tail endsToo
      have closes : Ends statement.target.ending (left ++ quote :: (ending ++ tail)) := by
        refine (Statement.read?_target read).2.2.of_head? ?_
        cases left <;> rfl
      rw [← whole] at read
      have again := Statement.read?_append read closes
      rw [List.append_assoc, piecesFrom_of_read? again, cut tail endsToo]
      rfl
  · have unread {tail : Text} (ends : Ends ending tail) :
        readAt? .binding lineStart (text ++ quote :: (ending ++ tail)) = none := by
      rw [← Option.not_isSome_iff_eq_none]
      exact fun isRead => found ⟨tail, ends, isRead⟩
    cases text with
    | nil =>
      refine ⟨(quote :: ending).map .char, textOf_chars _, ?_⟩
      intro tail ends
      have other : (quote = '\n') = False := eq_false (ne_lineFeed_of_isQuote quoted)
      refine (piecesFrom_cons (unread ends)).trans ?_
      simp only [other, decide_false]
      rw [piecesFrom_silent (silent_of_single single), startsLine_of_single single]
      rfl
    | cons c others =>
      obtain ⟨parts, joined, cut⟩ := exists_pieces_closing closing.tail quoted single
      refine ⟨.char c :: parts, by simp [Piece.text, joined], ?_⟩
      intro tail ends
      refine (piecesFrom_cons (unread ends)).trans ?_
      exact congrArg (Piece.char c :: ·) (cut tail ends)
termination_by text.length

end OptionsApi.Import
