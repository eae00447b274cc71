import OptionsApi.Proofs.Import.Clauses

/-! Written declarations are found in a text. Reading takes the shortest clause behind which a module
is named; since a written clause ends with ink and has no quotes, that is the whole clause, whatever
names it holds. Text that starts no import is passed over character by character. -/

set_option autoImplicit false

namespace OptionsApi.Import

open Text (Blank Within)

/-! The end of a statement and its module. -/

theorem Ends.takeEnding_eq {ending behind : Text} (ends : Ends ending behind) :
    takeEnding (ending ++ behind) = (ending, behind) := by
  unfold takeEnding
  cases ends with
  | @semicolon blanks _ inline =>
    have stops : Text.Stops Text.isInlineBlank (';' :: behind) := by
      rintro c ⟨⟩
      decide
    rw [List.append_assoc, List.singleton_append, Text.takeWhile_append_of_stops inline stops,
      Text.dropWhile_append_of_stops inline stops]
    rfl
  | bare inline other =>
    have stops : Text.Stops Text.isInlineBlank behind := fun c first => (other c first).1
    rw [Text.takeWhile_append_of_stops inline stops, Text.dropWhile_append_of_stops inline stops]
    split
    next rest => exact absurd rfl (other ';' rfl).2
    next => rfl

theorem Target.read?_quoted {quote : Char} (quoted : isQuote quote = true) {moduleName : Text}
    (named : IsModuleName moduleName) {ending behind : Text} (ends : Ends ending behind) :
    Target.read? (quote :: (moduleName ++ quote :: (ending ++ behind))) =
      some (⟨quote, moduleName, quote, ending⟩, behind) := by
  have stops : Text.Stops (fun c => !isQuote c) (quote :: (ending ++ behind)) := by
    rintro c ⟨⟩
    simp [quoted]
  have taken := Text.takeWhile_append_of_stops named.chars stops
  have left := Text.dropWhile_append_of_stops named.chars stops
  obtain ⟨c, rest, rfl⟩ := List.exists_cons_of_ne_nil named.nonempty
  simp only [Target.read?, quoted, if_true, taken, left, ends.takeEnding_eq]

theorem Target.read?_of_not_quote {c : Char} (other : isQuote c = false) (rest : Text) :
    Target.read? (c :: rest) = none := by
  simp [Target.read?, other]

/-! The keyword between clause and module. -/

theorem isQuote_of_isClauseChar {c : Char} (inside : isClauseChar c = true) : isQuote c = false := by
  cases quote : isQuote c with
  | false => rfl
  | true =>
    simp only [isQuote, Bool.or_eq_true, beq_iff_eq] at quote
    rcases quote with rfl | rfl
    · exact absurd inside (by decide)
    · exact absurd inside (by decide)

theorem begins_of_isQuote {quote : Char} (quoted : isQuote quote = true) (rest : Text) :
    Text.BeginsInk (quote :: rest) := by
  refine ⟨quote, rest, rfl, ?_⟩
  simp only [isQuote, Bool.or_eq_true, beq_iff_eq] at quoted
  rcases quoted with rfl | rfl <;> decide

theorem stops_of_begins {text : Text} (begins : Text.BeginsInk text) : Text.Stops Text.isBlank text := by
  obtain ⟨c, rest, rfl, ink⟩ := begins
  rintro d ⟨⟩
  exact ink

section
variable {search : Search} {before after moduleName ending behind : Text} {quote : Char}

theorem readJoint?_written (gapBefore : Gap before) (gapAfter : Gap after)
    (quoted : isQuote quote = true) (named : IsModuleName moduleName) (ends : Ends ending behind) :
    readJoint? search
        (before ++ "from" ++ after ++ quote :: (moduleName ++ quote :: (ending ++ behind))) =
      some (before ++ "from" ++ after, ⟨quote, moduleName, quote, ending⟩, behind) := by
  have first : Text.Stops Text.isBlank ("from" ++ (after ++
      quote :: (moduleName ++ quote :: (ending ++ behind)))) := by
    rintro c ⟨⟩
    decide
  have second := stops_of_begins
    (begins_of_isQuote quoted (moduleName ++ quote :: (ending ++ behind)))
  have accepted : search.accepts ⟨quote, moduleName, quote, ending⟩ = true := by
    cases search <;> simp [Search.accepts]
  have nonempty : before.isEmpty = false ∧ after.isEmpty = false := by
    simp [gapBefore.nonempty, gapAfter.nonempty]
  rw [List.append_assoc, List.append_assoc, readJoint?]
  rw [Text.takeWhile_append_of_stops gapBefore.blank first,
    Text.dropWhile_append_of_stops gapBefore.blank first, Text.after_append]
  simp only [Option.bind_eq_bind, Option.bind_some,
    Text.takeWhile_append_of_stops gapAfter.blank second,
    Text.dropWhile_append_of_stops gapAfter.blank second,
    Target.read?_quoted quoted named ends, nonempty.1, nonempty.2, accepted]
  simp

theorem Target.read?_clause {text : Text} (chars : Within isClauseChar text)
    (ends : Text.EndsInk text) (rest : Text) :
    Target.read? ((text ++ rest).dropWhile Text.isBlank) = none := by
  obtain ⟨kept, ⟨c, others, rfl, _⟩, _, subset, trimmed⟩ := Text.exists_trimStart_append ends
  have dropped : (text ++ rest).dropWhile Text.isBlank = c :: others ++ rest := trimmed rest
  rw [dropped]
  exact Target.read?_of_not_quote
    (isQuote_of_isClauseChar (chars c (subset c List.mem_cons_self))) _

/-- A clause does not end inside of it: the keyword may come behind a part of it, but no module
behind that. -/
theorem readJoint?_inside {text : Text} (chars : Within isClauseChar text)
    (ends : Text.EndsInk text) (gap : Gap before) (rest : Text) :
    readJoint? search (text ++ (before ++ "from" ++ rest)) = none := by
  obtain ⟨kept, _, keptEnds, subset, trimmed⟩ := Text.exists_trimStart_append ends
  have dropped : (text ++ (before ++ "from" ++ rest)).dropWhile Text.isBlank =
      kept ++ (before ++ "from" ++ rest) := trimmed _
  -- Whatever the keyword leaves of the clause, the next keyword is behind it, and not a quote.
  have unnamed {left : Text} (within : Within isClauseChar left) :
      Target.read? ((left ++ (before ++ "from" ++ rest)).dropWhile Text.isBlank) = none := by
    have whole : Within isClauseChar (left ++ (before ++ "from")) :=
      within.append ((clauseChars_of_blank gap.blank).append (by decide))
    have inked : Text.EndsInk (left ++ (before ++ "from")) :=
      .append (.append ⟨['f', 'r', 'o'], 'm', rfl, by decide⟩ before) left
    have refused := Target.read?_clause whole inked rest
    rwa [List.append_assoc] at refused
  rw [readJoint?, dropped]
  cases found : Text.after "from" (kept ++ (before ++ "from" ++ rest)) with
  | none => rfl
  | some behind =>
    have refused : Target.read? (behind.dropWhile Text.isBlank) = none := by
      rcases List.append_eq_append_iff.mp (Text.append_of_after found) with
        ⟨left, same, rfl⟩ | ⟨left, same, shifted⟩
      · exact unnamed fun c member => chars c (subset c (by simp [same, member]))
      · cases left with
        | nil =>
          rw [show behind = _ from shifted.symm]
          exact @unnamed [] Within.nil
        | cons c others =>
          -- The blank behind the clause would be a letter of the keyword.
          obtain ⟨blank, blanks, rfl⟩ := List.exists_cons_of_ne_nil gap.nonempty
          have first : blank = c := (List.cons.inj shifted).1
          have letters : Within Text.isNameChar "from" := by decide
          have named := letters c (by rw [same]; simp)
          rw [← first, Text.isNameChar_of_isBlank (gap.blank blank List.mem_cons_self)] at named
          cases named
    simp only [Option.bind_eq_bind, Option.bind_some, refused, Option.bind_none]

theorem readClause?_written (search : Search) (gapBefore : Gap before) (gapAfter : Gap after)
    (quoted : isQuote quote = true) (named : IsModuleName moduleName) (ends : Ends ending behind)
    {text : Text} (chars : Within isClauseChar text) (inked : Text.EndsInk text) :
    readClause? search (text ++
        (before ++ "from" ++ after ++ quote :: (moduleName ++ quote :: (ending ++ behind)))) =
      some (text, before ++ "from" ++ after, ⟨quote, moduleName, quote, ending⟩, behind) := by
  induction text with
  | nil =>
    obtain ⟨start, c, same, _⟩ := inked
    simp at same
  | cons c rest ih =>
    have first : isClauseChar c = true := chars c List.mem_cons_self
    have later : Within isClauseChar rest := chars.tail
    rw [List.cons_append, readClause?, if_pos first]
    by_cases empty : rest = []
    · subst empty
      rw [List.nil_append, readJoint?_written gapBefore gapAfter quoted named ends]
    · have lasting : Text.EndsInk rest := @Text.EndsInk.of_append [c] rest inked empty
      have inside : readJoint? search (rest ++ (before ++ "from" ++ (after ++
          quote :: (moduleName ++ quote :: (ending ++ behind))))) = none :=
        readJoint?_inside later lasting gapBefore _
      rw [← List.append_assoc (before ++ _)] at inside
      rw [inside, ih later lasting]
      rfl

end

/-! Statements. -/

section
variable {search : Search} {indentation blanks body : Text}

theorem Statement.read?_head (search : Search) (inline : InlineBlank indentation) (gap : Gap blanks)
    (begins : Text.BeginsInk body) :
    Statement.read? search (indentation ++ "import" ++ blanks ++ body) =
      (readBinding? search (indentation ++ "import") blanks body).or
        (readSideEffect? search (indentation ++ "import" ++ blanks) body) := by
  have first : Text.Stops Text.isInlineBlank ("import" ++ (blanks ++ body)) := by
    rintro c ⟨⟩
    decide
  have second := stops_of_begins begins
  have nonempty : blanks.isEmpty = false := by simp [gap.nonempty]
  rw [List.append_assoc, List.append_assoc, Statement.read?]
  simp only [Text.takeWhile_append_of_stops inline first, Text.dropWhile_append_of_stops inline first,
    Text.after_append, Option.bind_eq_bind, Option.bind_some,
    Text.takeWhile_append_of_stops gap.blank second, Text.dropWhile_append_of_stops gap.blank second,
    nonempty]
  simp

theorem readBinding?_of_readClause? {clause joint rest : Text} {target : Target} (lead : Text)
    (gap : Gap blanks) (found : readClause? search body = some (clause, joint, target, rest)) :
    readBinding? search lead blanks body =
      some (⟨lead ++ blanks, some (clause, joint), target⟩, rest) := by
  -- The first try leaves all blanks to the head of the statement.
  obtain ⟨count, length⟩ : ∃ count, blanks.length = count + 1 :=
    Nat.exists_eq_add_one.mpr (List.length_pos_iff.mpr gap.nonempty)
  have all : blanks.take (count + 1) = blanks := by rw [← length, List.take_length]
  have consumed : blanks.drop (count + 1) = [] := by rw [← length, List.drop_length]
  rw [readBinding?, length, List.range_succ, List.reverse_append, List.reverse_singleton,
    List.singleton_append, List.findSome?_cons]
  simp only [consumed, List.nil_append, found, Option.map_some, all]

theorem readClause?_blank_quote {quote : Char} (quoted : isQuote quote = true) (blank : Blank blanks)
    (rest : Text) : readClause? search (blanks ++ quote :: rest) = none := by
  have notClause : isClauseChar quote = false := by
    cases inside : isClauseChar quote with
    | false => rfl
    | true =>
      rw [isQuote_of_isClauseChar inside] at quoted
      cases quoted
  induction blanks with
  | nil => simp [readClause?, notClause]
  | cons c others ih =>
    have later : Blank others := Within.tail blank
    have joint : readJoint? search (others ++ quote :: rest) = none := by
      have stops := stops_of_begins (begins_of_isQuote quoted rest)
      have other : Text.after "from" (quote :: rest) = none := by
        refine Text.after_of_not_prefix ?_
        rintro ⟨behind, same⟩
        have first : 'f' = quote := (List.cons.inj same).1
        rw [← first] at quoted
        exact absurd quoted (by decide)
      rw [readJoint?, Text.dropWhile_append_of_stops later stops, other]
      rfl
    rw [List.cons_append, readClause?, joint, ih later]
    simp

theorem readBinding?_quote {quote : Char} (quoted : isQuote quote = true) (blank : Blank blanks)
    (lead rest : Text) : readBinding? search lead blanks (quote :: rest) = none := by
  -- However the blanks are divided, a quote comes behind them.
  rw [readBinding?, List.findSome?_eq_none_iff]
  intro index _
  have dropped : Blank (blanks.drop (index + 1)) := fun c member =>
    blank c (List.mem_of_mem_drop member)
  rw [readClause?_blank_quote quoted dropped]
  rfl

end

def Statement.declaration (statement : Statement) : Declaration :=
  ⟨statement.target.moduleName, statement.clause.map fun (clause, _) => Clause.read clause⟩

section
variable {search : Search} {moduleName text ending behind : Text}

/-- A declaration with a clause is found as it is written; with the text of another clause in its
place, the statement declares that one. -/
theorem Declaration.Written.read?_binding (search : Search) {clause : Clause}
    (written : Declaration.Written ⟨moduleName, some clause⟩ text) (ends : Ends ending behind) :
    ∃ head clauseText joint target,
      Statement.read? search (text ++ ending ++ behind) =
        some (⟨head, some (clauseText, joint), target⟩, behind) ∧
      target.moduleName = moduleName ∧ clause.Written clauseText ∧
      ∀ (other : Clause) (otherText : Text), other.Written otherText →
        ∃ whole, Declaration.Written ⟨moduleName, some other⟩ whole ∧
          Statement.text ⟨head, some (otherText, joint), target⟩ = whole ++ ending := by
  cases written with
  | @binding indentation blanks clauseText before after _ _ quote inline gap clauses gapBefore
      gapAfter quoted named =>
    refine ⟨indentation ++ "import" ++ blanks, clauseText, before ++ "from" ++ after,
      ⟨quote, moduleName, quote, ending⟩, ?_, rfl, clauses, ?_⟩
    · have found := readClause?_written search gapBefore gapAfter quoted named ends clauses.chars
        clauses.ends
      have read := Statement.read?_head search inline gap (clauses.begins.append
        (before ++ "from" ++ after ++ quote :: (moduleName ++ quote :: (ending ++ behind))))
      rw [readBinding?_of_readClause? _ gap found] at read
      simpa using read
    · intro other otherText otherWritten
      refine ⟨_, .binding inline gap otherWritten gapBefore gapAfter quoted named, ?_⟩
      simp [Statement.text, Target.text]

theorem Declaration.Written.read?_any {declaration : Declaration}
    (written : declaration.Written text) (ends : Ends ending behind) :
    ∃ statement, Statement.read? .any (text ++ ending ++ behind) = some (statement, behind) ∧
      statement.text = text ++ ending ∧ statement.declaration = declaration := by
  obtain ⟨statement, found, same⟩ : ∃ statement,
      Statement.read? .any (text ++ ending ++ behind) = some (statement, behind) ∧
        statement.declaration = declaration := by
    obtain ⟨moduleName, clause⟩ := declaration
    cases clause with
    | some clause =>
      obtain ⟨head, clauseText, joint, target, found, same, clauses, _⟩ :=
        written.read?_binding .any ends
      refine ⟨_, found, ?_⟩
      simp [Statement.declaration, same, clauses.read_eq]
    | none =>
      cases written with
      | @sideEffect indentation blanks _ quote inline gap quoted named _ =>
        refine ⟨⟨indentation ++ "import" ++ blanks, none, ⟨quote, moduleName, quote, ending⟩⟩, ?_, rfl⟩
        have read := Statement.read?_head .any inline gap
          (begins_of_isQuote quoted (moduleName ++ quote :: (ending ++ behind)))
        rw [readBinding?_quote quoted gap.blank, Option.none_or, readSideEffect?, if_pos rfl,
          Target.read?_quoted quoted named ends] at read
        simpa using read
  have whole := Statement.text_append_of_read? found
  exact ⟨statement, found, List.append_cancel_right whole, same⟩

end

end OptionsApi.Import
