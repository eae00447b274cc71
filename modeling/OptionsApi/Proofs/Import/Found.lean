import OptionsApi.Proofs.Import.Pieces

/-! Statements found in an arbitrary text. The text before the module of a statement has no quotes,
so whether a statement is found is settled at the second quote behind its start, and what is found
there does not depend on what follows it. -/

set_option autoImplicit false

namespace OptionsApi.Import

open Text (Blank Within)

/-! Text without quotes. -/

def Unquoted (text : Text) : Prop := Within (fun c => !isQuote c) text

theorem unquoted_of_clauseChars {text : Text} (chars : Within isClauseChar text) : Unquoted text :=
  chars.mono fun c inside => by rw [isQuote_of_isClauseChar inside, Bool.not_false]

theorem unquoted_of_blank {text : Text} (blank : Blank text) : Unquoted text :=
  unquoted_of_clauseChars (clauseChars_of_blank blank)

theorem split_at_quote {left right behind rest : Text} {quote other : Char} (first : Unquoted left)
    (second : Unquoted right) (quoted : isQuote quote = true) (quotedToo : isQuote other = true)
    (same : left ++ quote :: behind = right ++ other :: rest) :
    left = right ∧ quote = other ∧ behind = rest := by
  have stops {c : Char} (isQuoted : isQuote c = true) (text : Text) :
      Text.Stops (fun c => !isQuote c) (c :: text) := by
    rintro d ⟨⟩
    simp [isQuoted]
  have before := congrArg (List.takeWhile fun c => !isQuote c) same
  rw [Text.takeWhile_append_of_stops first (stops quoted behind),
    Text.takeWhile_append_of_stops second (stops quotedToo rest)] at before
  subst before
  exact ⟨rfl, List.cons.inj (List.append_cancel_left same)⟩

/-! The module. -/

theorem ends_takeEnding (text : Text) : Ends (takeEnding text).1 (takeEnding text).2 := by
  have inline : InlineBlank (text.takeWhile Text.isInlineBlank) := fun c member =>
    List.all_eq_true.mp List.all_takeWhile c member
  unfold takeEnding
  split
  next rest _ => exact .semicolon rest inline
  next rest other =>
    refine .bare inline fun c first => ?_
    cases behind : text.dropWhile Text.isInlineBlank with
    | nil => simp [behind] at first
    | cons d others =>
      have same : d = c := by simpa [behind] using first
      subst same
      refine ⟨?_, ?_⟩
      · have stopped := List.head?_dropWhile_not Text.isInlineBlank text
        simpa [behind] using stopped
      · rintro rfl
        exact other others behind

theorem Target.read?_eq_some {text rest : Text} {target : Target}
    (found : Target.read? text = some (target, rest)) :
    isQuote target.opening = true ∧ isQuote target.closing = true ∧ IsModuleName target.moduleName ∧
      ∃ behind, text = target.opening :: (target.moduleName ++ target.closing :: behind) ∧
        takeEnding behind = (target.ending, rest) := by
  cases text with
  | nil => simp [Target.read?] at found
  | cons opening text =>
    have whole := List.takeWhile_append_dropWhile (p := fun c => !isQuote c) (l := text)
    simp only [Target.read?] at found
    split at found
    next quoted =>
      split at found
      next c name closing behind taken left =>
        simp only [Option.some.injEq, Prod.mk.injEq] at found
        obtain ⟨rfl, rfl⟩ := found
        have stopped := List.head?_dropWhile_not (fun c => !isQuote c) text
        have inside : Unquoted (c :: name) := fun d member =>
          List.all_eq_true.mp List.all_takeWhile d (taken ▸ member)
        rw [taken, left] at whole
        refine ⟨quoted, by simpa [left] using stopped, ⟨List.cons_ne_nil c name, inside⟩, behind, ?_, rfl⟩
        rw [← whole]
      next => cases found
    next => cases found

theorem Target.read?_of_quotes {opening closing : Char} (quoted : isQuote opening = true)
    (closes : isQuote closing = true) {moduleName : Text} (named : IsModuleName moduleName)
    (behind : Text) :
    Target.read? (opening :: (moduleName ++ closing :: behind)) =
      some (⟨opening, moduleName, closing, (takeEnding behind).1⟩, (takeEnding behind).2) := by
  have stops : Text.Stops (fun c => !isQuote c) (closing :: behind) := by
    rintro c ⟨⟩
    simp [closes]
  have taken := Text.takeWhile_append_of_stops named.chars stops
  have left := Text.dropWhile_append_of_stops named.chars stops
  obtain ⟨c, rest, rfl⟩ := List.exists_cons_of_ne_nil named.nonempty
  simp only [Target.read?, quoted, if_true, taken, left]

/-! The keyword between clause and module. -/

def IsJoint (text : Text) : Prop :=
  ∃ before after, Gap before ∧ Gap after ∧ text = before ++ "from" ++ after

theorem IsJoint.chars {text : Text} (joint : IsJoint text) : Within isClauseChar text := by
  obtain ⟨before, after, gapBefore, gapAfter, rfl⟩ := joint
  exact ((clauseChars_of_blank gapBefore.blank).append (by decide)).append
    (clauseChars_of_blank gapAfter.blank)

theorem gap_takeWhile {text : Text} (nonempty : ¬ (text.takeWhile Text.isBlank).isEmpty = true) :
    Gap (text.takeWhile Text.isBlank) :=
  ⟨fun c member => List.all_eq_true.mp List.all_takeWhile c member, by simpa using nonempty⟩

section
variable {search : Search} {text rest : Text} {target : Target}

structure Names (search : Search) (text : Text) (target : Target) (rest : Text) : Prop where
  read : Target.read? text = some (target, rest)
  accepted : search.accepts target = true

theorem readJoint?_eq_some {joint : Text}
    (found : readJoint? search text = some (joint, target, rest)) :
    IsJoint joint ∧ ∃ behind, text = joint ++ behind ∧ Names search behind target rest := by
  have whole := List.takeWhile_append_dropWhile (p := Text.isBlank) (l := text)
  unfold readJoint? at found
  simp only [Option.bind_eq_bind, Option.bind_eq_some_iff, Prod.exists] at found
  obtain ⟨behind, keyword, read, left, targeted, chosen⟩ := found
  have inner := List.takeWhile_append_dropWhile (p := Text.isBlank) (l := behind)
  split at chosen
  next => cases chosen
  next kept =>
    simp only [Bool.or_eq_true, not_or, Bool.not_eq_true', Bool.not_eq_false] at kept
    obtain ⟨⟨before, after⟩, accepted⟩ := kept
    cases chosen
    refine ⟨⟨_, _, gap_takeWhile before, gap_takeWhile after, rfl⟩, _, ?_, targeted, accepted⟩
    rw [List.append_assoc, inner, List.append_assoc, Text.append_of_after keyword, whole]

theorem readJoint?_of_isJoint {joint behind : Text} (isJoint : IsJoint joint)
    (names : Names search behind target rest) :
    readJoint? search (joint ++ behind) = some (joint, target, rest) := by
  obtain ⟨before, after, gapBefore, gapAfter, rfl⟩ := isJoint
  have first : Text.Stops Text.isBlank ("from" ++ (after ++ behind)) := by
    rintro c ⟨⟩
    decide
  have second : Text.Stops Text.isBlank behind := by
    obtain ⟨quoted, _, _, _, rfl, _⟩ := Target.read?_eq_some names.read
    exact stops_of_begins (begins_of_isQuote quoted _)
  have nonempty : before.isEmpty = false ∧ after.isEmpty = false := by
    simp [gapBefore.nonempty, gapAfter.nonempty]
  rw [List.append_assoc, List.append_assoc, readJoint?]
  rw [Text.takeWhile_append_of_stops gapBefore.blank first,
    Text.dropWhile_append_of_stops gapBefore.blank first, Text.after_append]
  simp only [Option.bind_eq_bind, Option.bind_some,
    Text.takeWhile_append_of_stops gapAfter.blank second,
    Text.dropWhile_append_of_stops gapAfter.blank second, names.read, nonempty.1, nonempty.2,
    names.accepted]
  simp

theorem readJoint?_of_not_isJoint {start behind : Text} (unquoted : Unquoted start)
    (names : Names search behind target rest) (other : ¬ IsJoint start) :
    readJoint? search (start ++ behind) = none := by
  -- The first quote is the same in both readings, and with it the joint.
  cases found : readJoint? search (start ++ behind) with
  | none => rfl
  | some read =>
    obtain ⟨joint, named, left⟩ := read
    obtain ⟨isJoint, _, same, namesToo⟩ := readJoint?_eq_some found
    obtain ⟨quoted, _, _, _, rfl, _⟩ := Target.read?_eq_some names.read
    obtain ⟨quotedToo, _, _, _, rfl, _⟩ := Target.read?_eq_some namesToo.read
    obtain ⟨rfl, _⟩ := split_at_quote unquoted (unquoted_of_clauseChars isJoint.chars) quoted
      quotedToo same
    exact absurd isJoint other

/-! The clause. -/

/-- A clause that is found ends with ink, unless it is a single character. -/
theorem readClause?_eq_some {clause joint : Text}
    (found : readClause? search text = some (clause, joint, target, rest)) :
    Within isClauseChar clause ∧ (Text.EndsInk clause ∨ ∃ c, clause = [c]) ∧ IsJoint joint ∧
      ∃ behind, text = clause ++ joint ++ behind ∧ Names search behind target rest := by
  induction text generalizing clause joint rest target with
  | nil => cases found
  | cons c text ih =>
    rw [readClause?] at found
    split at found
    next inside =>
      split at found
      next joined =>
        cases found
        obtain ⟨isJoint, behind, rfl, names⟩ := readJoint?_eq_some joined
        exact ⟨.cons inside Within.nil, .inr ⟨c, rfl⟩, isJoint, behind, rfl, names⟩
      next unjoined =>
        simp only [Option.map_eq_some_iff, Prod.exists, Prod.mk.injEq] at found
        obtain ⟨tail, _, _, _, read, rfl, rfl, rfl, rfl⟩ := found
        obtain ⟨chars, ends, isJoint, behind, rfl, names⟩ := ih read
        refine ⟨.cons inside chars, .inl ?_, isJoint, behind, rfl, names⟩
        rcases ends with inked | ⟨d, rfl⟩
        · exact inked.append [c]
        · -- A blank in front of the joint would have been read as part of it.
          cases blank : Text.isBlank d with
          | false => exact ⟨[c], d, rfl, blank⟩
          | true =>
            obtain ⟨before, after, gapBefore, gapAfter, rfl⟩ := isJoint
            have wider : IsJoint (d :: before ++ "from" ++ after) :=
              ⟨d :: before, after, ⟨.cons blank gapBefore.blank, List.cons_ne_nil _ _⟩, gapAfter, rfl⟩
            have joined := readJoint?_of_isJoint wider names
            cases unjoined.symm.trans joined
    next => cases found

theorem isSome_readClause? {clause joint behind : Text} (chars : Within isClauseChar clause)
    (nonempty : clause ≠ []) (isJoint : IsJoint joint) (names : Names search behind target rest) :
    (readClause? search (clause ++ joint ++ behind)).isSome = true := by
  induction clause with
  | nil => exact absurd rfl nonempty
  | cons c others ih =>
    rw [List.cons_append, List.cons_append, readClause?, if_pos (chars c List.mem_cons_self)]
    split
    next => rfl
    next unjoined =>
      rw [Option.isSome_map]
      refine ih chars.tail ?_
      rintro rfl
      rw [List.nil_append, readJoint?_of_isJoint isJoint names] at unjoined
      cases unjoined

end

/-! The statement. -/

/-- A clause as it is found: blanks that could be left to the keyword are, and so are those that could
be left to the joint. -/
structure IsClause (clause : Text) : Prop where
  chars : Within isClauseChar clause
  begins : Text.BeginsInk clause ∨ Blank clause
  ends : Text.EndsInk clause ∨ ∃ c, clause = [c]

theorem readBinding?_eq_some {search : Search} {lead blanks body rest : Text} {statement : Statement}
    (stops : Text.Stops Text.isBlank body) (blank : Blank blanks)
    (found : readBinding? search lead blanks body = some (statement, rest)) :
    ∃ taken left clause joint behind, blanks = taken ++ left ∧ taken ≠ [] ∧ IsClause clause ∧
      IsJoint joint ∧ Names search behind statement.target rest ∧
      statement.head = lead ++ taken ∧ statement.clause = some (clause, joint) ∧
      left ++ body = clause ++ joint ++ behind := by
  obtain ⟨earlier, index, later, range, read, refuse⟩ := List.findSome?_eq_some_iff.mp found
  simp only [Option.map_eq_some_iff, Prod.exists, Prod.mk.injEq] at read
  obtain ⟨clause, joint, target, left, read, rfl, rfl⟩ := read
  obtain ⟨chars, ends, isJoint, behind, whole, names⟩ := readClause?_eq_some read
  have bound : index < blanks.length := by
    have member : index ∈ (List.range blanks.length).reverse := by simp [range]
    simpa using member
  have taken : blanks.take (index + 1) ≠ [] := by
    rw [Ne, List.take_eq_nil_iff]
    rintro (impossible | rfl)
    · cases impossible
    · cases bound
  refine ⟨_, _, clause, joint, behind, (List.take_append_drop (index + 1) blanks).symm, taken,
    ⟨chars, ?_, ends⟩, isJoint, names, rfl, rfl, whole⟩
  have blankLeft : Blank (blanks.drop (index + 1)) := fun c member =>
    blank c (List.mem_of_mem_drop member)
  rw [List.append_assoc] at whole
  rcases List.append_eq_append_iff.mp whole with ⟨inner, same, beyond⟩ | ⟨inner, same, _⟩
  · cases inner with
    | nil =>
      rw [List.append_nil] at same
      exact .inr (same ▸ blankLeft)
    | cons c others =>
      -- The clause goes on behind the blanks, so that it could do without them.
      have inside : Within isClauseChar (c :: others) := fun d member =>
        chars d (same ▸ List.mem_append_right _ member)
      have enough := isSome_readClause? inside (List.cons_ne_nil c others) isJoint names
      rw [List.append_assoc, ← beyond] at enough
      have all : index + 1 = blanks.length := by
        obtain ⟨count, length⟩ : ∃ count, blanks.length = count + 1 :=
          Nat.exists_eq_add_one.mpr (Nat.zero_lt_of_lt bound)
        rw [length, List.range_succ, List.reverse_append, List.reverse_singleton,
          List.singleton_append] at range
        cases earlier with
        | nil => rw [length, (List.cons.inj range).1]
        | cons first others =>
          have refused := refuse first List.mem_cons_self
          rw [← (List.cons.inj range).1, ← length, List.drop_length, List.nil_append,
            Option.map_eq_none_iff] at refused
          rw [refused] at enough
          cases enough
      rw [all, List.drop_length, List.nil_append] at same
      exact .inl ⟨c, others, same, stops c (by simp [beyond])⟩
  · exact .inr fun d member => blankLeft d (same ▸ List.mem_append_left _ member)

structure Parts (search : Search) (statement : Statement) (rest : Text)
    (indentation blanks clause joint behind : Text) : Prop where
  inline : InlineBlank indentation
  gap : Gap blanks
  isClause : IsClause clause
  isJoint : IsJoint joint
  names : Names search behind statement.target rest
  head : statement.head = indentation ++ "import" ++ blanks
  clause : statement.clause = some (clause, joint)

theorem Statement.read?_eq_some {text rest : Text} {statement : Statement}
    (found : Statement.read? .binding text = some (statement, rest)) :
    ∃ indentation blanks clause joint behind,
      Parts .binding statement rest indentation blanks clause joint behind ∧
      text = statement.head ++ clause ++ joint ++ behind := by
  have whole := List.takeWhile_append_dropWhile (p := Text.isInlineBlank) (l := text)
  unfold Statement.read? at found
  simp only [Option.bind_eq_bind, Option.bind_eq_some_iff] at found
  obtain ⟨following, keyword, found⟩ := found
  have inner := List.takeWhile_append_dropWhile (p := Text.isBlank) (l := following)
  split at found
  next => cases found
  next nonempty =>
    have unread (head text : Text) : readSideEffect? .binding head text = none := rfl
    rw [unread, Option.or_none] at found
    have blank := (gap_takeWhile nonempty).blank
    have stops : Text.Stops Text.isBlank (following.dropWhile Text.isBlank) := by
      intro c first
      have stopped := List.head?_dropWhile_not Text.isBlank following
      rw [Option.mem_def.mp first] at stopped
      exact stopped
    obtain ⟨taken, left, clause, joint, behind, divided, gap, isClause, isJoint, names, head, parts,
      rest⟩ := readBinding?_eq_some stops blank found
    refine ⟨_, taken, clause, joint, behind, ⟨?_, ⟨?_, gap⟩, isClause, isJoint, names, head, parts⟩, ?_⟩
    · exact fun c member => List.all_eq_true.mp List.all_takeWhile c member
    · exact fun c member => blank c (divided ▸ List.mem_append_left _ member)
    · rw [← whole, ← Text.append_of_after keyword, ← inner, divided, head]
      simp only [List.append_assoc] at rest ⊢
      rw [rest]

/-! Where a statement is found. -/

/-- What stands in front of the module of a statement with a clause. -/
def Opens (start : Text) : Prop :=
  ∃ indentation blank body joint, InlineBlank indentation ∧ Text.isBlank blank = true ∧ body ≠ [] ∧
    Within isClauseChar body ∧ IsJoint joint ∧
    start = indentation ++ "import" ++ blank :: (body ++ joint)

theorem clauseChars_of_inline {text : Text} (inline : InlineBlank text) : Within isClauseChar text := by
  refine Within.mono inline fun c here => ?_
  simp only [Text.isInlineBlank, Bool.or_eq_true, beq_iff_eq] at here
  rcases here with rfl | rfl <;> decide

theorem Opens.chars {start : Text} (opens : Opens start) : Within isClauseChar start := by
  obtain ⟨indentation, blank, body, joint, inline, isBlank, _, chars, isJoint, rfl⟩ := opens
  have first : Within isClauseChar [blank] :=
    clauseChars_of_blank (Within.cons isBlank Within.nil)
  exact ((clauseChars_of_inline inline).append (by decide)).append
    (first.append (chars.append isJoint.chars))

theorem IsClause.ne_nil {clause : Text} (isClause : IsClause clause) : clause ≠ [] := by
  rintro rfl
  rcases isClause.ends with ⟨start, c, same, _⟩ | ⟨c, same⟩
  · simp at same
  · cases same

section
variable {search : Search} {statement : Statement} {rest indentation blanks clause joint behind : Text}

theorem Parts.head_chars (parts : Parts search statement rest indentation blanks clause joint behind) :
    Within isClauseChar statement.head := by
  rw [parts.head]
  exact ((clauseChars_of_inline parts.inline).append (by decide)).append
    (clauseChars_of_blank parts.gap.blank)

theorem Parts.text (parts : Parts search statement rest indentation blanks clause joint behind) :
    statement.text = statement.head ++ clause ++ joint ++ statement.target.text := by
  simp [Statement.text, parts.clause]

end

theorem Opens.isSome_read? {search : Search} {start behind rest : Text} {target : Target}
    (opens : Opens start) (names : Names search behind target rest) :
    (Statement.read? search (start ++ behind)).isSome = true := by
  -- The try that leaves one blank to the keyword and the others to the clause succeeds.
  obtain ⟨indentation, blank, body, joint, inline, isBlank, nonempty, chars, isJoint, rfl⟩ := opens
  have found := isSome_readClause? chars nonempty isJoint names
  have first : Text.Stops Text.isInlineBlank ("import" ++ (blank :: (body ++ joint ++ behind))) := by
    rintro c ⟨⟩
    decide
  have whole := List.takeWhile_append_dropWhile (p := Text.isBlank) (l := body ++ joint ++ behind)
  have regrouped : indentation ++ "import".toList ++ blank :: (body ++ joint) ++ behind =
      indentation ++ ("import".toList ++ (blank :: (body ++ joint ++ behind))) := by simp
  rw [regrouped, Statement.read?]
  simp only [Text.takeWhile_append_of_stops inline first,
    Text.dropWhile_append_of_stops inline first, Text.after_append, Option.bind_eq_bind,
    Option.bind_some, List.takeWhile_cons_of_pos isBlank, List.dropWhile_cons_of_pos isBlank,
    List.isEmpty_cons, Bool.false_eq_true, if_false]
  rw [Option.isSome_or, Bool.or_eq_true]
  left
  rw [readBinding?, List.findSome?_isSome_iff]
  refine ⟨0, by simp, ?_⟩
  rw [Option.isSome_map, List.drop_succ_cons, List.drop_zero, whole]
  exact found

theorem Parts.opens {search : Search} {statement : Statement}
    {rest indentation blanks clause joint behind : Text}
    (parts : Parts search statement rest indentation blanks clause joint behind) :
    Opens (statement.head ++ clause ++ joint) := by
  obtain ⟨blank, more, rfl⟩ := List.exists_cons_of_ne_nil parts.gap.nonempty
  have isBlank : Text.isBlank blank = true := parts.gap.blank blank List.mem_cons_self
  have later : Within isClauseChar more := clauseChars_of_blank (Within.tail parts.gap.blank)
  refine ⟨indentation, blank, more ++ clause, joint, parts.inline, isBlank, ?_,
    later.append parts.isClause.chars, parts.isJoint, ?_⟩
  · simp [parts.isClause.ne_nil]
  · rw [parts.head]
    simp

theorem isSome_read?_iff {text : Text} :
    (Statement.read? .binding text).isSome = true ↔
      ∃ start quote moduleName behind, Opens start ∧ isQuote quote = true ∧ IsModuleName moduleName ∧
        text = start ++ quote :: (moduleName ++ quote :: behind) := by
  constructor
  · intro found
    obtain ⟨⟨statement, rest⟩, read⟩ := Option.isSome_iff_exists.mp found
    obtain ⟨indentation, blanks, clause, joint, behind, parts, rfl⟩ := Statement.read?_eq_some read
    obtain ⟨quoted, _, named, left, rfl, _⟩ := Target.read?_eq_some parts.names.read
    have same : statement.target.opening = statement.target.closing := by
      simpa [Search.accepts] using parts.names.accepted
    exact ⟨_, _, _, left, parts.opens, quoted, named, by rw [← same]⟩
  · rintro ⟨start, quote, moduleName, behind, opens, quoted, named, rfl⟩
    have names : Names .binding (quote :: (moduleName ++ quote :: behind)) _ _ :=
      ⟨Target.read?_of_quotes quoted quoted named behind, by simp [Search.accepts]⟩
    exact opens.isSome_read? names

theorem isSome_read?_any {text : Text} (found : (Statement.read? .binding text).isSome = true) :
    (Statement.read? .any text).isSome = true := by
  obtain ⟨⟨statement, rest⟩, read⟩ := Option.isSome_iff_exists.mp found
  obtain ⟨_, _, _, _, _, parts, rfl⟩ := Statement.read?_eq_some read
  have names : Names .any _ statement.target rest := ⟨parts.names.read, rfl⟩
  exact parts.opens.isSome_read? names

theorem Statement.read?_target {search : Search} {text rest : Text} {statement : Statement}
    (found : Statement.read? search text = some (statement, rest)) :
    isQuote statement.target.opening = true ∧ isQuote statement.target.closing = true ∧
      Ends statement.target.ending rest := by
  obtain ⟨behind, read⟩ : ∃ behind, Target.read? behind = some (statement.target, rest) := by
    unfold Statement.read? at found
    simp only [Option.bind_eq_bind, Option.bind_eq_some_iff] at found
    obtain ⟨following, _, found⟩ := found
    split at found
    next => cases found
    next =>
      rcases Option.or_eq_some_iff.mp found with read | ⟨_, read⟩
      · obtain ⟨_, _, tried⟩ := List.exists_of_findSome?_eq_some read
        simp only [Option.map_eq_some_iff, Prod.exists, Prod.mk.injEq] at tried
        obtain ⟨_, _, _, _, joined, rfl, rfl⟩ := tried
        obtain ⟨_, _, _, behind, _, names⟩ := readClause?_eq_some joined
        exact ⟨behind, names.read⟩
      · unfold readSideEffect? at read
        split at read
        · simp only [Option.map_eq_some_iff, Prod.exists, Prod.mk.injEq] at read
          obtain ⟨_, _, targeted, rfl, rfl⟩ := read
          exact ⟨_, targeted⟩
        · cases read
  obtain ⟨quoted, closes, _, left, _, ending⟩ := Target.read?_eq_some read
  have ends := ends_takeEnding left
  rw [ending] at ends
  exact ⟨quoted, closes, ends⟩

/-! What is found does not depend on what follows the module. -/

section
variable {search : Search} {first second firstRest secondRest : Text} {one other : Target}

theorem readJoint?_exchange {start : Text} (unquoted : Unquoted start)
    (names : Names search first one firstRest) (namesToo : Names search second other secondRest) :
    readJoint? search (start ++ second) =
      (readJoint? search (start ++ first)).map fun found => (found.1, other, secondRest) := by
  by_cases isJoint : IsJoint start
  · rw [readJoint?_of_isJoint isJoint names, readJoint?_of_isJoint isJoint namesToo]
    rfl
  · rw [readJoint?_of_not_isJoint unquoted names isJoint,
      readJoint?_of_not_isJoint unquoted namesToo isJoint]
    rfl

theorem readClause?_quote {quote : Char} (quoted : isQuote quote = true) (rest : Text) :
    readClause? search (quote :: rest) = none :=
  readClause?_blank_quote quoted Blank.nil rest

theorem readClause?_exchange {start : Text} (unquoted : Unquoted start)
    (names : Names search first one firstRest) (namesToo : Names search second other secondRest) :
    readClause? search (start ++ second) =
      (readClause? search (start ++ first)).map fun found =>
        (found.1, found.2.1, other, secondRest) := by
  induction start with
  | nil =>
    obtain ⟨quoted, _, _, _, rfl, _⟩ := Target.read?_eq_some names.read
    obtain ⟨quotedToo, _, _, _, rfl, _⟩ := Target.read?_eq_some namesToo.read
    rw [List.nil_append, List.nil_append, readClause?_quote quoted, readClause?_quote quotedToo]
    rfl
  | cons c rest ih =>
    rw [List.cons_append, List.cons_append, readClause?, readClause?,
      readJoint?_exchange unquoted.tail names namesToo, ih unquoted.tail]
    split
    next =>
      cases readJoint? search (rest ++ first) with
      | some found => rfl
      | none =>
        cases readClause? search (rest ++ first) with
        | some found => rfl
        | none => rfl
    next => rfl

theorem readBinding?_exchange {blanks body : Text} (lead : Text) (blank : Blank blanks)
    (unquoted : Unquoted body) (names : Names search first one firstRest)
    (namesToo : Names search second other secondRest) :
    readBinding? search lead blanks (body ++ second) =
      (readBinding? search lead blanks (body ++ first)).map fun found =>
        ({ found.1 with target := other }, secondRest) := by
  unfold readBinding?
  rw [List.map_findSome?]
  congr 1
  funext index
  have dropped : Unquoted (blanks.drop (index + 1) ++ body) :=
    Within.append (unquoted_of_blank fun c member => blank c (List.mem_of_mem_drop member)) unquoted
  have exchanged := readClause?_exchange dropped names namesToo
  rw [List.append_assoc, List.append_assoc] at exchanged
  rw [Function.comp_apply, exchanged, Option.map_map, Option.map_map]
  rfl

end

theorem Statement.read?_named {following rest : Text} {target : Target}
    (names : Names .binding following target rest) (start : Text) :
    Statement.read? .binding (start ++ following) =
      (Text.after "import" (start.dropWhile Text.isInlineBlank)).bind fun behind =>
        if (behind.takeWhile Text.isBlank).isEmpty then none
        else
          readBinding? .binding (start.takeWhile Text.isInlineBlank ++ "import")
            (behind.takeWhile Text.isBlank) (behind.dropWhile Text.isBlank ++ following) := by
  obtain ⟨quoted, _, _, left, rfl, _⟩ := Target.read?_eq_some names.read
  have shapes := quoted
  simp only [isQuote, Bool.or_eq_true, beq_iff_eq] at shapes
  have inline : Text.isInlineBlank target.opening = false := by
    rcases shapes with same | same <;> rw [same] <;> decide
  have blank : Text.isBlank target.opening = false := by
    rcases shapes with same | same <;> rw [same] <;> decide
  have lacks : target.opening ∉ "import".toList := by
    rcases shapes with same | same <;> rw [same] <;> decide
  unfold Statement.read?
  rw [Text.takeWhile_append_stop inline, Text.dropWhile_append_stop inline,
    Text.after_append_separator lacks]
  cases Text.after "import" (start.dropWhile Text.isInlineBlank) with
  | none => rfl
  | some behind =>
    simp only [Option.map_some, Option.bind_eq_bind, Option.bind_some,
      Text.takeWhile_append_stop blank, Text.dropWhile_append_stop blank]
    split
    next => rfl
    next => exact Option.or_none

/-- A statement is read up to its module, whatever the module is and whatever follows it. -/
theorem Statement.read?_exchange {start first second firstRest secondRest : Text} {one other : Target}
    (unquoted : Unquoted start) (names : Names .binding first one firstRest)
    (namesToo : Names .binding second other secondRest) :
    Statement.read? .binding (start ++ second) =
      (Statement.read? .binding (start ++ first)).map fun found =>
        ({ found.1 with target := other }, secondRest) := by
  rw [read?_named names, read?_named namesToo]
  cases keyword : Text.after "import" (start.dropWhile Text.isInlineBlank) with
  | none => rfl
  | some following =>
    have inside : Unquoted following := by
      intro c member
      refine unquoted c ((List.dropWhile_suffix Text.isInlineBlank).subset ?_)
      rw [← Text.append_of_after keyword]
      exact List.mem_append_right _ member
    have blank : Blank (following.takeWhile Text.isBlank) := fun c member =>
      List.all_eq_true.mp List.all_takeWhile c member
    have body : Unquoted (following.dropWhile Text.isBlank) := fun c member =>
      inside c ((List.dropWhile_suffix Text.isBlank).subset member)
    simp only [Option.bind_some]
    split
    next => rfl
    next => exact readBinding?_exchange _ blank body names namesToo

/-- A statement is found again in front of any other text that it ends before. -/
theorem Statement.read?_append {statement : Statement} {rest other : Text}
    (found : Statement.read? .binding (statement.text ++ rest) = some (statement, rest))
    (ends : Ends statement.target.ending other) :
    Statement.read? .binding (statement.text ++ other) = some (statement, other) := by
  obtain ⟨indentation, blanks, clause, joint, behind, parts, whole⟩ := Statement.read?_eq_some found
  obtain ⟨quoted, closes, named, left, rfl, ending⟩ := Target.read?_eq_some parts.names.read
  have front : Unquoted (statement.head ++ clause ++ joint) := unquoted_of_clauseChars
    ((parts.head_chars.append parts.isClause.chars).append parts.isJoint.chars)
  have namesToo : Names .binding (statement.target.text ++ other) statement.target other := by
    refine ⟨?_, parts.names.accepted⟩
    have read := Target.read?_of_quotes quoted closes named (statement.target.ending ++ other)
    rw [ends.takeEnding_eq] at read
    simpa [Target.text] using read
  have exchanged := read?_exchange front parts.names namesToo
  rw [← whole, found, ← List.append_assoc, ← parts.text] at exchanged
  exact exchanged

end OptionsApi.Import
