import OptionsApi.Proofs.Import.Reading

/-! An import section cut into pieces. The statements found in it are its declarations, in order and
no others: what lies between them and behind them is passed over character by character. -/

set_option autoImplicit false

namespace OptionsApi.Import

open Text (Blank)

/-! One piece. -/

theorem piecesFrom_of_read? {search : Search} {text rest : Text} {statement : Statement}
    (found : Statement.read? search text = some (statement, rest)) :
    piecesFrom search true text = .statement statement :: piecesFrom search false rest := by
  rw [piecesFrom]
  split
  next other behind read =>
    cases found.symm.trans read
    rfl
  next read => cases found.symm.trans read

theorem piecesFrom_cons {search : Search} {lineStart : Bool} {c : Char} {rest : Text}
    (unread : readAt? search lineStart (c :: rest) = none) :
    piecesFrom search lineStart (c :: rest) = .char c :: piecesFrom search (c = '\n') rest := by
  rw [piecesFrom]
  split
  next read => cases unread.symm.trans read
  next => rfl

theorem piecesFrom_nil (search : Search) (lineStart : Bool) : piecesFrom search lineStart [] = [] := by
  have unread : readAt? search lineStart [] = none := by cases lineStart <;> rfl
  rw [piecesFrom]
  split
  next read => cases unread.symm.trans read
  next => rfl

/-! Text in which nothing is found. -/

/-- No statement begins inside the text, whichever way the rest behind it goes on. -/
def Silent (search : Search) (rest : Text) : Bool → Text → Prop
  | _, [] => True
  | lineStart, c :: text =>
    readAt? search lineStart (c :: (text ++ rest)) = none ∧ Silent search rest (c = '\n') text

def startsLine (lineStart : Bool) : Text → Bool
  | [] => lineStart
  | c :: text => startsLine (c = '\n') text

section
variable {search : Search} {rest : Text} {lineStart : Bool}

theorem piecesFrom_silent {text : Text} (silent : Silent search rest lineStart text) :
    piecesFrom search lineStart (text ++ rest) =
      text.map Piece.char ++ piecesFrom search (startsLine lineStart text) rest := by
  induction text generalizing lineStart with
  | nil => rfl
  | cons c others ih =>
    rw [List.cons_append, piecesFrom_cons silent.1, ih silent.2]
    rfl

theorem startsLine_append (lineStart : Bool) (left right : Text) :
    startsLine lineStart (left ++ right) = startsLine (startsLine lineStart left) right := by
  induction left generalizing lineStart with
  | nil => rfl
  | cons c others ih => exact ih _

theorem startsLine_of_single {text : Text} (single : '\n' ∉ text) : startsLine false text = false := by
  induction text with
  | nil => rfl
  | cons c others ih =>
    have other : c ≠ '\n' := (List.ne_of_not_mem_cons single).symm
    simpa [startsLine, other] using ih (List.not_mem_of_not_mem_cons single)

theorem Silent.append {left right : Text} (first : Silent search (right ++ rest) lineStart left)
    (second : Silent search rest (startsLine lineStart left) right) :
    Silent search rest lineStart (left ++ right) := by
  induction left generalizing lineStart with
  | nil => exact second
  | cons c others ih =>
    have here := first.1
    rw [← List.append_assoc] at here
    exact ⟨here, ih first.2 second⟩

theorem silent_of_single {text : Text} (single : '\n' ∉ text) : Silent search rest false text := by
  induction text with
  | nil => trivial
  | cons c others ih =>
    have other : c ≠ '\n' := (List.ne_of_not_mem_cons single).symm
    refine ⟨rfl, ?_⟩
    simpa [other] using ih (List.not_mem_of_not_mem_cons single)

end

/-! Quiet text is silent. -/

theorem startsImport_of_read? {search : Search} {text rest : Text} {statement : Statement}
    (found : Statement.read? search text = some (statement, rest)) : startsImport text = true := by
  unfold Statement.read? at found
  simp only [Option.bind_eq_bind, Option.bind_eq_some_iff] at found
  obtain ⟨behind, keyword, found⟩ := found
  split at found
  next => cases found
  next gap =>
    cases behind with
    | nil => simp at gap
    | cons c others =>
      have blank : Text.isBlank c = true := by
        by_cases blank : Text.isBlank c = true
        · exact blank
        · simp [blank] at gap
      rw [startsImport, keyword]
      exact blank

theorem startsImport_line (line first second : Text) :
    startsImport (line ++ '\n' :: first) = startsImport (line ++ '\n' :: second) := by
  have kept (rest : Text) : (line ++ '\n' :: rest).dropWhile Text.isInlineBlank =
      line.dropWhile Text.isInlineBlank ++ '\n' :: rest := by
    rw [List.dropWhile_append]
    split
    next empty =>
      rw [List.isEmpty_iff.mp empty, List.nil_append, List.dropWhile_cons_of_neg (by decide)]
    next => rfl
  simp only [startsImport, kept]
  by_cases begins : "import".toList <+: line.dropWhile Text.isInlineBlank
  · obtain ⟨behind, same⟩ := begins
    rw [← same, List.append_assoc, List.append_assoc, Text.after_append, Text.after_append]
    cases behind with
    | nil => rfl
    | cons c others => rfl
  · have absent (rest : Text) :
        ¬ "import".toList <+: line.dropWhile Text.isInlineBlank ++ '\n' :: rest := fun reaches =>
      begins (Text.prefix_of_append_separator (by decide) reaches)
    rw [Text.after_of_not_prefix (absent first), Text.after_of_not_prefix (absent second)]

theorem startsImport_append {text : Text} (feed : '\n' ∈ text) (rest : Text) :
    startsImport (text ++ rest) = startsImport text := by
  obtain ⟨line, behind, rfl⟩ := List.append_of_mem feed
  rw [List.append_assoc]
  exact startsImport_line line _ _

theorem silent_of_quiet {search : Search} {rest text : Text} {lineStart : Bool}
    (quiet : quietFrom lineStart text = true) (closed : rest = [] ∨ ∃ start, text = start ++ ['\n']) :
    Silent search rest lineStart text := by
  -- What follows cannot complete an import here, since the text ends with its line.
  induction text generalizing lineStart with
  | nil => trivial
  | cons c others ih =>
    simp only [quietFrom, Bool.and_eq_true, Bool.not_eq_true', Bool.and_eq_false_iff] at quiet
    obtain ⟨here, later⟩ := quiet
    have same : startsImport (c :: (others ++ rest)) = startsImport (c :: others) := by
      rcases closed with rfl | ⟨start, ended⟩
      · rw [List.append_nil]
      · exact @startsImport_append (c :: others) (by rw [ended]; simp) rest
    constructor
    · unfold readAt?
      split
      next starts =>
        cases found : Statement.read? search (c :: (others ++ rest)) with
        | none => rfl
        | some pair =>
          have started := startsImport_of_read? found
          rw [same] at started
          simp [starts, started] at here
      next => rfl
    · cases others with
      | nil => trivial
      | cons d more =>
        refine ih later (closed.imp_right ?_)
        rintro ⟨start, ended⟩
        cases start with
        | nil => simp at ended
        | cons first start => exact ⟨start, (List.cons.inj ended).2⟩

theorem quietFrom_of_quiet {text : Text} (quiet : Quiet text) (lineStart : Bool) :
    quietFrom lineStart text = true := by
  cases lineStart with
  | true => exact quiet
  | false =>
    cases text with
    | nil => rfl
    | cons c rest =>
      simp only [Quiet, quietFrom, Bool.and_eq_true] at quiet ⊢
      exact ⟨rfl, quiet.2⟩

theorem pieces_rest {search : Search} {rest : Text} (quiet : Quiet rest) (lineStart : Bool) :
    piecesFrom search lineStart rest = rest.map Piece.char := by
  have silent : Silent search [] lineStart rest :=
    silent_of_quiet (quietFrom_of_quiet quiet lineStart) (.inl rfl)
  simpa [piecesFrom_nil] using piecesFrom_silent silent

theorem pieces_gap {search : Search} {gap : Text} (quiet : Quiet (gap ++ ['\n'])) (tail : Text) :
    piecesFrom search false (gap ++ '\n' :: tail) =
      (gap ++ ['\n']).map Piece.char ++ piecesFrom search true tail := by
  have silent : Silent search tail false (gap ++ ['\n']) :=
    silent_of_quiet (quietFrom_of_quiet quiet false) (.inr ⟨gap, rfl⟩)
  have passed := piecesFrom_silent silent
  rw [startsLine_append, List.append_assoc] at passed
  exact passed

/-! A declaration without a clause is no binding. -/

theorem startsImport_blank_quote {blanks : Text} (blank : Blank blanks) {quote : Char}
    (quoted : isQuote quote = true) (rest : Text) : startsImport (blanks ++ quote :: rest) = false := by
  have unkeyed {c : Char} {others : Text} (other : c ≠ 'i') :
      Text.after "import" (c :: others) = none := by
    refine Text.after_of_not_prefix ?_
    rintro ⟨behind, same⟩
    exact other (List.cons.inj same).1.symm
  unfold startsImport
  induction blanks with
  | nil =>
    have shapes := quoted
    simp only [isQuote, Bool.or_eq_true, beq_iff_eq] at shapes
    have ink : ¬ Text.isInlineBlank quote = true := by rcases shapes with rfl | rfl <;> decide
    have other : quote ≠ 'i' := by rcases shapes with rfl | rfl <;> decide
    rw [List.nil_append, List.dropWhile_cons_of_neg ink, unkeyed other]
  | cons c others ih =>
    have here : Text.isBlank c = true := blank c List.mem_cons_self
    have later : Blank others := fun d member => blank d (List.mem_cons_of_mem c member)
    by_cases inline : Text.isInlineBlank c = true
    · rw [List.cons_append, List.dropWhile_cons_of_pos inline, ih later]
    · rw [List.cons_append, List.dropWhile_cons_of_neg inline,
        unkeyed (Text.ne_of_isBlank here (by decide))]

theorem readAt?_of_not_startsImport {search : Search} {text : Text} (lineStart : Bool)
    (quiet : startsImport text = false) : readAt? search lineStart text = none := by
  unfold readAt?
  split
  next =>
    cases found : Statement.read? search text with
    | none => rfl
    | some pair =>
      rw [startsImport_of_read? found] at quiet
      cases quiet
  next => rfl

theorem ne_lineFeed_of_isQuote {quote : Char} (quoted : isQuote quote = true) : quote ≠ '\n' := by
  rintro rfl
  exact absurd quoted (by decide)

theorem silent_blank_quote {search : Search} {rest blanks moduleName : Text} {quote : Char}
    (blank : Blank blanks) (quoted : isQuote quote = true) (single : '\n' ∉ moduleName)
    (lineStart : Bool) :
    Silent search rest lineStart (blanks ++ (quote :: moduleName ++ [quote])) := by
  have other := ne_lineFeed_of_isQuote quoted
  induction blanks generalizing lineStart with
  | nil =>
    refine ⟨readAt?_of_not_startsImport _ (startsImport_blank_quote Blank.nil quoted _), ?_⟩
    have inside : '\n' ∉ moduleName ++ [quote] := by simp [single, Ne.symm other]
    simpa [other] using silent_of_single inside
  | cons c others ih =>
    have later : Blank others := fun d member => blank d (List.mem_cons_of_mem c member)
    refine ⟨readAt?_of_not_startsImport _ ?_, ih later _⟩
    have quiet := startsImport_blank_quote blank quoted (moduleName ++ [quote] ++ rest)
    simpa using quiet

theorem Declaration.Written.pieces_sideEffect {moduleName text : Text}
    (written : Declaration.Written ⟨moduleName, none⟩ text) (rest : Text) :
    piecesFrom .binding true (text ++ rest) =
      text.map Piece.char ++ piecesFrom .binding false rest := by
  cases written with
  | @sideEffect indentation blanks _ quote inline gap quoted named single =>
    have unread : Statement.read? .binding
        (indentation ++ "import" ++ blanks ++ quote :: (moduleName ++ [quote] ++ rest)) = none := by
      rw [Statement.read?_head .binding inline gap (begins_of_isQuote quoted _),
        readBinding?_quote quoted gap.blank]
      rfl
    have word : '\n' ∉ indentation ++ "import" := by
      rw [List.mem_append]
      exact not_or_intro (fun member => by cases inline _ member) (by decide)
    obtain ⟨c, others, lead⟩ : ∃ c others, indentation ++ "import".toList = c :: others :=
      List.exists_cons_of_ne_nil (by simp)
    rw [lead] at unread word ⊢
    have first : c ≠ '\n' := (List.ne_of_not_mem_cons word).symm
    have inner : '\n' ∉ others := List.not_mem_of_not_mem_cons word
    -- Only at its very start could the statement be read, and there it has no clause.
    have silent : Silent .binding rest true
        (c :: others ++ (blanks ++ (quote :: moduleName ++ [quote]))) := by
      refine ⟨?_, ?_⟩
      · simpa [readAt?] using unread
      · have tail : Silent .binding rest (startsLine false others) _ :=
          silent_blank_quote gap.blank quoted single _
        simpa [first] using (silent_of_single inner).append tail
    have passed := piecesFrom_silent silent
    simpa [startsLine, startsLine_append, ne_lineFeed_of_isQuote quoted] using passed

/-! The declarations of a text. -/

def declarationsIn (parts : List Piece) : List Declaration :=
  parts.filterMap fun
    | .statement statement => some statement.declaration
    | .char _ => none

theorem declarationsIn_statement (statement : Statement) (parts : List Piece) :
    declarationsIn (.statement statement :: parts) = statement.declaration :: declarationsIn parts :=
  rfl

theorem declarationsIn_rest (text : Text) : declarationsIn (text.map Piece.char) = [] := by
  simp [declarationsIn]

theorem declarationsIn_chars (text : Text) (parts : List Piece) :
    declarationsIn (text.map Piece.char ++ parts) = declarationsIn parts := by
  simp [declarationsIn, List.filterMap_append, List.filterMap_map]

theorem Ends.tail {ending gap : Text} (ends : Ends ending (gap ++ ['\n'])) (tail : Text) :
    Ends ending (gap ++ '\n' :: tail) := by
  cases ends with
  | semicolon _ inline => exact .semicolon _ inline
  | bare inline other =>
    refine .bare inline ?_
    cases gap with
    | nil => simpa using other
    | cons c rest => simpa using other

theorem ImportSection.declarationsIn_pieces {rest text : Text} {declarations : List Declaration}
    (written : ImportSection rest declarations text) :
    declarationsIn (pieces .any text) = declarations := by
  unfold pieces
  induction written with
  | none quiet => rw [pieces_rest quiet, declarationsIn_rest]
  | last here ends quiet =>
    obtain ⟨statement, found, _, same⟩ := here.read?_any ends
    rw [piecesFrom_of_read? found, pieces_rest quiet, declarationsIn_statement, declarationsIn_rest,
      same]
  | @cons _ _ _ _ _ tail here ends quiet _ _ ih =>
    obtain ⟨statement, found, _, same⟩ := here.read?_any (ends.tail tail)
    rw [piecesFrom_of_read? found, pieces_gap quiet, declarationsIn_statement, declarationsIn_chars,
      ih, same]

/-- A text is the import section of at most one list of declarations. -/
theorem ImportSection.unique {rest other text : Text} {declarations others : List Declaration}
    (written : ImportSection rest declarations text) (again : ImportSection other others text) :
    declarations = others :=
  written.declarationsIn_pieces.symm.trans again.declarationsIn_pieces

end OptionsApi.Import
