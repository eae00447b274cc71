import OptionsApi.Proofs.Import.Insertion
import OptionsApi.Proofs.Import.Rescan

/-! What becomes of the statements of a text when names are ensured. Nothing is missing and the text
stays; or the first statement that takes the missing names is given them; or a statement with the
missing names stands behind all others. No other statement changes or goes, and none appears where
the imports stand one per line. -/

set_option autoImplicit false

namespace OptionsApi.Import

open Text (Blank Within)

/-! A statement that is added. -/

def addedStatement (moduleName : Text) (names : List Text) : Statement :=
  ⟨['i', 'm', 'p', 'o', 'r', 't', ' '], some (braces names, [' ', 'f', 'r', 'o', 'm', ' ']),
    ⟨'\'', moduleName, '\'', [';']⟩⟩

theorem newStatement_eq_text (moduleName : Text) (names : List Text) :
    newStatement moduleName names = (addedStatement moduleName names).text ++ ['\n'] := by
  rw [newStatement_eq]
  change [] ++ ['i', 'm', 'p', 'o', 'r', 't'] ++ [' '] ++ (braces names ++
      ([' '] ++ ['f', 'r', 'o', 'm'] ++ [' '] ++ ('\'' :: moduleName ++ ['\'']))) ++ [';'] ++ ['\n'] = _
  simp [addedStatement, Statement.text, Target.text]

theorem read?_addedStatement {moduleName : Text} (named : IsModuleName moduleName)
    {names : List Text} (isName : ∀ name ∈ names, IsName name) (rest : Text) :
    Statement.read? .binding ((addedStatement moduleName names).text ++ rest) =
      some (addedStatement moduleName names, rest) := by
  have space : Gap [' '] := ⟨by decide, by decide⟩
  have ends : Ends [';'] rest := @Ends.semicolon [] rest (by decide)
  have chars := braces_chars fun name member => (isName name member).clauseChars
  have quoted : isQuote '\'' = true := by decide
  have inline : InlineBlank [] := by decide
  have found := readClause?_written .binding space space quoted named ends chars (braces_ends names)
  have read := Statement.read?_head .binding inline space ((braces_begins names).append
    ([' '] ++ "from" ++ [' '] ++ '\'' :: (moduleName ++ '\'' :: ([';'] ++ rest))))
  rw [readBinding?_of_readClause? _ space found] at read
  have regrouped : (addedStatement moduleName names).text ++ rest =
      [] ++ "import".toList ++ [' '] ++ (braces names ++
        ([' '] ++ "from".toList ++ [' '] ++ '\'' :: (moduleName ++ '\'' :: ([';'] ++ rest)))) := by
    change _ = [] ++ ['i', 'm', 'p', 'o', 'r', 't'] ++ [' '] ++ (braces names ++
      ([' '] ++ ['f', 'r', 'o', 'm'] ++ [' '] ++ '\'' :: (moduleName ++ '\'' :: ([';'] ++ rest))))
    simp [addedStatement, Statement.text, Target.text]
  rw [regrouped, read]
  rfl

/-! Text without statements. -/

theorem readAt?_binding_of_any {lineStart : Bool} {text : Text}
    (unread : readAt? .any lineStart text = none) : readAt? .binding lineStart text = none := by
  unfold readAt? at unread ⊢
  split
  next start =>
    rw [if_pos start] at unread
    rw [← Option.not_isSome_iff_eq_none] at unread ⊢
    exact fun found => unread (isSome_read?_any found)
  next => rfl

theorem piecesFrom_binding_of_any {lineStart : Bool} {text : Text}
    (cut : piecesFrom .any lineStart text = text.map .char) :
    piecesFrom .binding lineStart text = text.map .char := by
  induction text generalizing lineStart with
  | nil => exact piecesFrom_nil .binding lineStart
  | cons c rest ih =>
    obtain ⟨unread, _, later⟩ := piecesFrom_eq_char cut
    rw [textOf_chars] at later
    rw [piecesFrom_cons (readAt?_binding_of_any unread), ih later]
    rfl

theorem piecesFrom_binding_dropLineFeed {rest : Text}
    (cut : piecesFrom .any false rest = rest.map .char) (quiet : startsImport rest = false) :
    piecesFrom .binding true (dropLineFeed rest) = (dropLineFeed rest).map .char := by
  -- Behind a line feed the line had begun already; elsewhere only the first character is at stake.
  cases rest with
  | nil => exact piecesFrom_nil .binding true
  | cons c others =>
    obtain ⟨_, _, later⟩ := piecesFrom_eq_char cut
    rw [textOf_chars] at later
    by_cases feed : c = '\n'
    · subst feed
      exact piecesFrom_binding_of_any later
    · have kept : dropLineFeed (c :: others) = c :: others := by
        unfold dropLineFeed
        split
        next same => exact absurd (List.cons.inj same).1 feed
        next => rfl
      rw [kept, piecesFrom_cons (readAt?_of_not_startsImport true quiet),
        piecesFrom_binding_of_any later]
      rfl

/-! One import per line. -/

def Piece.isInline : Piece → Bool
  | .char _ => true
  | .statement found => !found.target.moduleName.contains '\n'

/-- Behind some statement its line goes on with another import. -/
def sharesLine : List Piece → Bool
  | [] => false
  | .char _ :: rest => sharesLine rest
  | .statement _ :: rest => startsImport (textOf rest) || sharesLine rest

/-- No module name runs over the end of a line, and behind no statement its line goes on with another
import. -/
def onePerLine (parts : List Piece) : Bool := parts.all Piece.isInline && !sharesLine parts

theorem onePerLine_iff {parts : List Piece} :
    onePerLine parts = true ↔ parts.all Piece.isInline = true ∧ sharesLine parts = false := by
  rw [onePerLine, Bool.and_eq_true, Bool.not_eq_true']

theorem single_of_isInline {left right : List Piece} {found : Statement}
    (inline : (left ++ .statement found :: right).all Piece.isInline = true) :
    '\n' ∉ found.target.moduleName := by
  rw [List.all_append, List.all_cons, Bool.and_eq_true, Bool.and_eq_true] at inline
  intro member
  have here : (!found.target.moduleName.contains '\n') = true := inline.2.1
  rw [List.contains_iff_mem.mpr member] at here
  cases here

theorem startsImport_of_not_sharesLine {left right : List Piece} {found : Statement}
    (apart : sharesLine (left ++ .statement found :: right) = false) :
    startsImport (textOf right) = false := by
  induction left with
  | nil => exact (Bool.or_eq_false_iff.mp apart).1
  | cons piece rest ih =>
    cases piece with
    | char c => exact ih apart
    | statement earlier => exact ih (Bool.or_eq_false_iff.mp apart).2

theorem chars_or_last (parts : List Piece) :
    (∃ text : Text, parts = text.map .char) ∨
      ∃ (left : List Piece) (last : Statement) (rest : Text),
        parts = left ++ .statement last :: rest.map .char := by
  induction parts with
  | nil => exact .inl ⟨[], rfl⟩
  | cons piece others ih =>
    rcases ih with ⟨text, rfl⟩ | ⟨left, last, rest, rfl⟩
    · cases piece with
      | char c => exact .inl ⟨c :: text, rfl⟩
      | statement found => exact .inr ⟨[], found, text, rfl⟩
    · exact .inr ⟨piece :: left, last, rest, rfl⟩

theorem behindLast?_chars (text : Text) : behindLast? (text.map Piece.char) = none := by
  induction text with
  | nil => rfl
  | cons c rest ih => simp [behindLast?, ih]

theorem behindLast?_last (left : List Piece) (last : Statement) (rest : Text) :
    behindLast? (left ++ .statement last :: rest.map .char) =
      some (textOf left ++ last.text).length := by
  induction left with
  | nil => simp [behindLast?, behindLast?_chars, textOf]
  | cons piece others ih => simp [behindLast?, ih]

theorem closing_of_quote {lineStart : Bool} {front moduleName : Text} {quote : Char}
    (quoted : isQuote quote = true) (single : '\n' ∉ moduleName) :
    Closing lineStart (front ++ quote :: moduleName) := by
  have holds {before : Text} : ¬ Unquoted (before ++ quote :: moduleName) := by
    intro unquoted
    have plain : (!isQuote quote) = true := unquoted quote (by simp)
    rw [quoted] at plain
    cases plain
  refine ⟨fun _ => holds, fun before behind same => ?_⟩
  have alone : '\n' ∉ quote :: moduleName :=
    List.not_mem_cons_of_ne_of_not_mem (ne_lineFeed_of_isQuote quoted).symm single
  rcases List.append_eq_append_iff.mp same with ⟨inner, _, tail⟩ | ⟨inner, _, tail⟩
  · exact absurd (by simp [tail]) alone
  · cases inner with
    | nil =>
      injection tail with first
      exact absurd first.symm (ne_lineFeed_of_isQuote quoted)
    | cons c others =>
      injection tail with _ later
      rw [later]
      exact holds

theorem exists_pieces_upTo {text : Text} {left right : List Piece} {found : Statement}
    (cut : pieces .any text = left ++ .statement found :: right)
    (single : '\n' ∉ found.target.moduleName) :
    ∃ parts, textOf parts = textOf left ++ found.text ∧
      ∀ tail, Ends found.target.ending tail →
        pieces .binding (textOf left ++ found.text ++ tail) =
          parts ++ piecesFrom .binding false tail := by
  -- The pieces are cut at the quote that closes the statement.
  obtain ⟨quoted, closes, ends⟩ := Statement.read?_target (read?_of_piecesFrom cut).1
  obtain ⟨front, divided⟩ : ∃ front, found.text = front ++ found.target.text := ⟨_, rfl⟩
  have closing : Closing true
      (textOf left ++ front ++ found.target.opening :: found.target.moduleName) :=
    closing_of_quote quoted single
  obtain ⟨parts, joined, pieced⟩ := exists_pieces_closing closing closes ends.single
  refine ⟨parts, ?_, fun tail endsToo => ?_⟩
  · rw [joined, divided, Target.text]
    simp
  · rw [← pieced tail endsToo, pieces, divided, Target.text]
    simp

def placeBehindLast (text : Text) : Text := text.take ((behindLast? (pieces .any text)).getD 0)

/-- An added statement is found where it is put, behind the others. Nothing else changes, unless the
line of the last one goes on. -/
theorem pieces_added {moduleName text : Text} {names : List Text}
    (inline : (pieces .any text).all Piece.isInline = true) (named : IsModuleName moduleName)
    (isName : ∀ name ∈ names, IsName name) :
    let line := newStatement moduleName names
    ∃ (parts behind : List Piece) (rest lead : Text), textOf parts = placeBehindLast text ∧
      (lead = [] ∨ lead = ['\n']) ∧
      (sharesLine (pieces .any text) = false → ∃ later : Text, behind = later.map .char) ∧
      pieces .binding text = parts ++ rest.map .char ∧
      pieces .binding ((insertBehindLast? line (pieces .any text)).getD (line ++ text)) =
        parts ++ (lead.map .char ++ .statement (addedStatement moduleName names) :: behind) := by
  intro line
  have whole := textOf_pieces .any text
  have feed (rest : Text) : piecesFrom .binding false ('\n' :: rest) =
      .char '\n' :: piecesFrom .binding true rest := piecesFrom_cons rfl
  have read (rest : Text) : piecesFrom .binding true (line ++ rest) =
      .statement (addedStatement moduleName names) :: .char '\n' ::
        piecesFrom .binding true rest := by
    have found := read?_addedStatement named isName ('\n' :: rest)
    have step := piecesFrom_of_read? found
    rw [feed] at step
    rw [← step, show line = _ from newStatement_eq_text moduleName names]
    simp
  rcases chars_or_last (pieces .any text) with ⟨chars, cut⟩ | ⟨left, last, rest, cut⟩
  · rw [cut, textOf_chars] at whole
    subst whole
    have bare := piecesFrom_binding_of_any cut
    refine ⟨[], ('\n' :: chars).map .char, chars, [], ?_, .inl rfl, fun _ => ⟨_, rfl⟩, bare, ?_⟩
    · simp [placeBehindLast, cut, behindLast?_chars, textOf]
    · rw [cut, insertBehindLast?_chars]
      exact (read chars).trans (by rw [bare]; rfl)
  · rw [cut] at inline
    -- Statements are looked for with a clause here and without one there, so the pieces differ; but
    -- those of the text up to the last statement are cut off where that ends.
    obtain ⟨parts, upTo, cutAt⟩ := exists_pieces_upTo cut (single_of_isInline inline)
    obtain ⟨found, later⟩ := read?_of_piecesFrom cut
    have ends := (Statement.read?_target found).2.2
    rw [textOf_chars] at ends later
    rw [cut, textOf_append, textOf_cons, textOf_chars, Piece.text, ← List.append_assoc] at whole
    have newEnds : Ends last.target.ending ('\n' :: (line ++ dropLineFeed rest)) :=
      ends.lineFeed.of_head? rfl
    refine ⟨parts, .char '\n' :: piecesFrom .binding true (dropLineFeed rest), rest, ['\n'], ?_, .inr rfl,
      fun apart => ⟨'\n' :: dropLineFeed rest, ?_⟩, ?_, ?_⟩
    · rw [upTo, placeBehindLast, cut, behindLast?_last, Option.getD_some, ← whole, List.take_left]
    · rw [cut] at apart
      have quiet := startsImport_of_not_sharesLine apart
      rw [textOf_chars] at quiet
      rw [piecesFrom_binding_dropLineFeed later quiet]
      rfl
    · rw [← whole, cutAt rest ends, piecesFrom_binding_of_any later]
    · rw [insertBehindLast?_eq, cut, behindLast?_last, Option.map_some, Option.getD_some, textOf_append,
        textOf_cons, textOf_chars, Piece.text, ← List.append_assoc, List.take_left, List.drop_left,
        List.append_assoc, List.cons_append, cutAt _ newEnds, feed, read]
      rfl

/-! The outcome. -/

/-- What becomes of the pieces of a text in which the names are missing. An added statement goes to
the given place; another one may appear behind it only if statements share a line. -/
inductive Outcome (moduleName : Text) (missing : List Text) (place : Text) (shared : Bool) :
    List Piece → List Piece → Prop where
  | unchanged {parts : List Piece} : missing = [] → Outcome moduleName missing place shared parts parts
  | merged {left right : List Piece} {head clause joint merged : Text} {target : Target} :
      (∀ piece ∈ left, piece.takes moduleName = false) → target.moduleName = moduleName →
      takesNames clause = true → IsClause clause → (∀ name ∈ missing, name ∉ boundNames clause) →
      merge? clause missing = some merged →
      Outcome moduleName missing place shared
        (left ++ .statement ⟨head, some (clause, joint), target⟩ :: right)
        (left ++ .statement ⟨head, some (merged, joint), target⟩ :: right)
  | added {parts behind : List Piece} {rest lead : Text} :
      (∀ piece ∈ parts ++ rest.map .char, piece.takes moduleName = false) → textOf parts = place →
      lead = [] ∨ lead = ['\n'] → (shared = false → ∃ later : Text, behind = later.map .char) →
      Outcome moduleName missing place shared (parts ++ rest.map .char)
        (parts ++ (lead.map .char ++ .statement (addedStatement moduleName missing) :: behind))

def bracedNamesOf (moduleName text : Text) : List Text :=
  (clausesOf moduleName (pieces .binding text)).flatMap boundNames

theorem mem_missingNames {moduleName name : Text} {names : List Text} {parts : List Piece} :
    name ∈ missingNames moduleName names parts ↔
      name ∈ names ∧ name ∉ (clausesOf moduleName parts).flatMap boundNames := by
  simp [missingNames]

theorem isName_of_mem_missingNames {moduleName : Text} {names : List Text} {parts : List Piece}
    (isName : ∀ name ∈ names, IsName name) : ∀ name ∈ missingNames moduleName names parts, IsName name :=
  fun name member => isName name (mem_missingNames.mp member).1

theorem mem_clausesOf {left right : List Piece} {head clause joint : Text} {target : Target} :
    clause ∈ clausesOf target.moduleName
      (left ++ .statement ⟨head, some (clause, joint), target⟩ :: right) := by
  rw [clausesOf_append]
  exact List.mem_append_right _ (by simp [clausesOf])

theorem isClause_of_piecesFrom {lineStart : Bool} {text head clause joint : Text} {target : Target}
    {left right : List Piece}
    (cut : piecesFrom .binding lineStart text =
      left ++ .statement ⟨head, some (clause, joint), target⟩ :: right) : IsClause clause := by
  obtain ⟨_, _, _, _, _, parts, _⟩ := Statement.read?_eq_some (read?_of_piecesFrom cut).1
  have same := parts.clause
  injection same with same
  injection same with same
  exact same ▸ parts.isClause

theorem ensure_outcome {moduleName text : Text} {names : List Text}
    (inline : (pieces .any text).all Piece.isInline = true) (named : IsModuleName moduleName)
    (isName : ∀ name ∈ names, IsName name) :
    Outcome moduleName (missingNames moduleName names (pieces .binding text)) (placeBehindLast text)
      (sharesLine (pieces .any text)) (pieces .binding text)
      (pieces .binding (ensure moduleName names text).text) := by
  have isNewName := @isName_of_mem_missingNames moduleName names (pieces .binding text) isName
  have unbound : ∀ name ∈ missingNames moduleName names (pieces .binding text),
      name ∉ (clausesOf moduleName (pieces .binding text)).flatMap boundNames :=
    fun name member => (mem_missingNames.mp member).2
  rw [ensure]
  generalize missingNames moduleName names (pieces .binding text) = missing at isNewName unbound
  dsimp only
  split
  next empty => exact .unchanged (List.isEmpty_iff.mp empty)
  next =>
    rcases mergeInto?_cases moduleName missing (pieces .binding text) with ⟨unmerged, refuse⟩ |
      ⟨left, head, clause, joint, target, right, merged, cut, refuse, rfl, takes, found, result⟩
    · rw [unmerged]
      obtain ⟨parts, behind, rest, lead, place, leads, apart, before, after⟩ :=
        pieces_added inline named isNewName
      dsimp only at after ⊢
      rw [before] at refuse
      rw [before, after]
      exact .added refuse place leads apart
    · have own : ∀ name ∈ missing, name ∉ boundNames clause := by
        intro name member bound
        refine unbound name member (List.mem_flatMap.mpr ⟨clause, ?_, bound⟩)
        rw [cut]
        exact mem_clausesOf
      have isClause := isClause_of_piecesFrom cut
      obtain ⟨chars, begins, ends⟩ := isClause.of_merge? isNewName own found
      have again : pieces .binding
            (textOf (left ++ .statement ⟨head, some (merged, joint), target⟩ :: right)) =
          left ++ .statement ⟨head, some (merged, joint), target⟩ :: right :=
        piecesFrom_exchange cut rfl chars begins ends
      rw [result]
      dsimp only
      rw [again, cut]
      exact .merged refuse rfl takes isClause own found

end OptionsApi.Import
