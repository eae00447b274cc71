import OptionsApi.Proofs.Import.Found
import OptionsApi.Proofs.Import.Merging

/-! Names merged into a clause as it is found, well formed or not. The clause that comes out is found
again in place of the old one, and its braces bind the names too. -/

set_option autoImplicit false

namespace OptionsApi.Import

open Text (Blank Within)

/-! Braces. -/

theorem braced?_eq_some {clause before inside behind : Text}
    (found : braced? clause = some ⟨before, inside, behind⟩) :
    clause = before ++ '{' :: (inside ++ '}' :: behind) ∧ '{' ∉ before ∧ '}' ∉ inside := by
  unfold braced? at found
  simp only [Option.bind_eq_bind, Option.bind_eq_some_iff, Prod.exists, Option.pure_def,
    Option.some.injEq, Braced.mk.injEq] at found
  obtain ⟨_, opened, first, _, _, second, rfl, rfl, rfl⟩ := found
  obtain ⟨rfl, noOpen⟩ := Text.cutAt_eq_some first
  obtain ⟨rfl, noClose⟩ := Text.cutAt_eq_some second
  exact ⟨rfl, noOpen, noClose⟩

structure IsItem (item : Text) : Prop where
  nonempty : item ≠ []
  trim : Text.trim item = item
  noComma : ',' ∉ item

theorem isItem_of_mem_specifiers {names item : Text} (member : item ∈ specifiers names) :
    IsItem item ∧ ∀ c ∈ item, c ∈ names := by
  simp only [specifiers, List.mem_filter, List.mem_map, Bool.not_eq_true', List.isEmpty_eq_false_iff]
    at member
  obtain ⟨⟨piece, listed, rfl⟩, nonempty⟩ := member
  refine ⟨⟨nonempty, Text.trim_trim piece, fun comma => ?_⟩, fun c inside => ?_⟩
  · exact Text.not_mem_of_mem_splitOn listed (Text.mem_of_mem_trim comma)
  · exact Text.mem_of_mem_splitOn listed (Text.mem_of_mem_trim inside)

theorem IsName.isItem {name : Text} (isName : IsName name) : IsItem name :=
  ⟨isName.nonempty, isName.trim, isName.chars.not_mem (by decide)⟩

theorem specifiers_item {item before behind : Text} (isItem : IsItem item) (blankBefore : Blank before)
    (blankBehind : Blank behind) : specifiers (before ++ item ++ behind) = [item] := by
  have noComma : ',' ∉ before ++ item ++ behind := by
    simp only [List.mem_append, not_or]
    exact ⟨⟨Within.not_mem blankBefore (by decide), isItem.noComma⟩,
      Within.not_mem blankBehind (by decide)⟩
  rw [specifiers, Text.splitOn_of_not_mem noComma, List.map_singleton,
    Text.trim_between blankBefore blankBehind, isItem.trim]
  simp [isItem.nonempty]

theorem specifiers_join {items : List Text} (each : ∀ item ∈ items, IsItem item) :
    specifiers (' ' :: Text.join ", " items ++ [' ']) = items := by
  have space : Blank [' '] := by decide
  induction items with
  | nil => exact specifiers_of_blank (by decide)
  | cons item rest ih =>
    have here := each item List.mem_cons_self
    have later := ih fun other member => each other (List.mem_cons_of_mem item member)
    cases rest with
    | nil => simpa using specifiers_item here space space
    | cons second others =>
      have first := specifiers_item here space Blank.nil
      have whole := specifiers_append ([' '] ++ item ++ []) (' ' :: Text.join ", " (second :: others) ++ [' '])
      rw [first, later] at whole
      simpa using whole

/-! Merging. -/

section
variable {clause merged : Text} {names : List Text}

theorem isSome_merge? (clause : Text) (names : List Text) :
    (merge? clause names).isSome = takesNames clause := by
  unfold merge?
  split
  next takes =>
    rw [takes]
    split <;> rfl
  next refuses =>
    rw [Bool.not_eq_true] at refuses
    rw [refuses]
    rfl

/-- The names go into the braces of the clause or, where it has none, into braces behind it. -/
theorem merge?_eq_some (unbound : ∀ name ∈ names, name ∉ boundNames clause)
    (found : merge? clause names = some merged) :
    (∃ before inside behind, braced? clause = some ⟨before, inside, behind⟩ ∧
      merged = before ++ braces (specifiers inside ++ names) ++ behind) ∨
    braced? clause = none ∧ merged = Text.trim clause ++ [',', ' '] ++ braces names := by
  have kept : names.filter (fun name => !(boundNames clause).contains name) = names :=
    List.filter_eq_self.mpr fun name member => by simpa using unbound name member
  unfold merge? at found
  split at found
  next =>
    split at found
    next braced cut =>
      cases found
      rw [kept]
      exact .inl ⟨_, _, _, cut, rfl⟩
    next cut =>
      cases found
      exact .inr ⟨cut, rfl⟩
  next => cases found

theorem braces_chars {items : List Text} (each : ∀ item ∈ items, Within isClauseChar item) :
    Within isClauseChar (braces items) := by
  have joined : Within isClauseChar (Text.join ", " items) := by
    intro c member
    rcases Text.mem_join member with between | ⟨item, listed, inside⟩
    · have separator : Within isClauseChar ", " := by decide
      exact separator c between
    · exact each item listed c inside
  rw [braces_eq]
  exact .cons (by decide) ((Within.cons (by decide) joined |>.append (by decide)).append (by decide))

theorem IsName.clauseChars {name : Text} (isName : IsName name) : Within isClauseChar name :=
  clauseChars_of_inner (inner_of_wordy isName.wordy)

theorem braces_begins (items : List Text) : Text.BeginsInk (braces items) :=
  ⟨'{', _, rfl, by decide⟩

theorem braces_ends (items : List Text) : Text.EndsInk (braces items) := by
  have close : Text.EndsInk ['}'] := Text.EndsInk.singleton (by decide)
  rw [braces_eq]
  exact close.append ('{' :: (' ' :: Text.join ", " items ++ [' ']))

theorem IsClause.begins_braces {before opened : Text} (isClause : IsClause (before ++ '{' :: opened))
    (items : List Text) (behind : Text) : Text.BeginsInk (before ++ braces items ++ behind) := by
  -- A clause with a brace is not blank.
  have begins : Text.BeginsInk (before ++ '{' :: opened) := by
    refine isClause.begins.resolve_right fun blank => ?_
    have brace : Text.isBlank '{' = true := blank '{' (by simp)
    exact absurd brace (by decide)
  cases before with
  | nil => exact (braces_begins items).append behind
  | cons c others =>
    obtain ⟨d, rest, same, ink⟩ := begins
    cases same
    exact ⟨c, _, rfl, ink⟩

theorem IsClause.ends_braces {before inside behind : Text}
    (isClause : IsClause (before ++ '{' :: (inside ++ '}' :: behind))) (items : List Text) :
    Text.EndsInk (before ++ braces items ++ behind) := by
  cases behind with
  | nil =>
    rw [List.append_nil]
    exact (braces_ends items).append before
  | cons c others =>
    -- A clause with two braces is longer than one character.
    have ends : Text.EndsInk (before ++ '{' :: (inside ++ '}' :: (c :: others))) := by
      refine isClause.ends.resolve_right ?_
      rintro ⟨d, same⟩
      have length := congrArg List.length same
      simp only [List.length_append, List.length_cons, List.length_nil] at length
      omega
    have regrouped : before ++ '{' :: (inside ++ '}' :: (c :: others)) =
        (before ++ '{' :: (inside ++ ['}'])) ++ (c :: others) := by simp
    rw [regrouped] at ends
    exact (ends.of_append (List.cons_ne_nil c others)).append _

/-- What comes out of a clause is written with characters of clauses, and no blank can be moved from
it to the keyword or the joint. -/
theorem IsClause.of_merge? (isClause : IsClause clause) (isName : ∀ name ∈ names, IsName name)
    (unbound : ∀ name ∈ names, name ∉ boundNames clause)
    (found : merge? clause names = some merged) :
    Within isClauseChar merged ∧ Text.BeginsInk merged ∧ Text.EndsInk merged := by
  have newChars : ∀ name ∈ names, Within isClauseChar name := fun name member =>
    (isName name member).clauseChars
  rcases merge?_eq_some unbound found with ⟨before, inside, behind, cut, rfl⟩ | ⟨_, rfl⟩
  · obtain ⟨rfl, _, _⟩ := braced?_eq_some cut
    have chars := isClause.chars
    refine ⟨?_, isClause.begins_braces _ _, isClause.ends_braces _⟩
    refine Within.append (Within.append ?_ (braces_chars ?_)) ?_
    · exact fun c member => chars c (List.mem_append_left _ member)
    · intro item member
      rcases List.mem_append.mp member with old | new
      · intro c inItem
        have inInside := (isItem_of_mem_specifiers old).2 c inItem
        exact chars c (by simp [inInside])
      · exact newChars item new
    · exact fun c member => chars c (by simp [member])
  · refine ⟨?_, ?_, (braces_ends names).append _⟩
    · refine Within.append (Within.append ?_ (by decide)) (braces_chars newChars)
      exact fun c member => isClause.chars c (Text.mem_of_mem_trim member)
    · by_cases empty : Text.trim clause = []
      · rw [empty]
        exact ⟨',', _, rfl, by decide⟩
      · exact ((Text.ink_of_trim_ne_nil empty).1.append _).append _

def closesBraces (clause : Text) : Bool := (braced? clause).isSome || !clause.contains '{'

theorem boundName_of_isName {name : Text} (isName : IsName name) : boundName name = name :=
  (Specifier.Written.plain isName).boundName_eq

theorem boundNames_braces {before : Text} {items : List Text} (noOpen : '{' ∉ before)
    (each : ∀ item ∈ items, IsItem item) (noClose : ∀ item ∈ items, '}' ∉ item) (behind : Text) :
    boundNames (before ++ braces items ++ behind) = items.map boundName := by
  have inside : '}' ∉ ' ' :: Text.join ", " items ++ [' '] := by
    rw [List.mem_append, List.mem_cons]
    rintro ((space | joined) | space)
    · cases space
    · rcases Text.mem_join joined with between | ⟨item, listed, brace⟩
      · exact absurd between (by decide)
      · exact noClose item listed brace
    · exact absurd space (by decide)
  have same : before ++ braces items ++ behind =
      before ++ '{' :: (' ' :: Text.join ", " items ++ [' '] ++ '}' :: behind) := by
    simp [braces_eq]
  rw [boundNames, same, braced?_append noOpen inside]
  exact congrArg (List.map boundName) (specifiers_join each)

theorem map_boundName (isName : ∀ name ∈ names, IsName name) : names.map boundName = names := by
  refine (List.map_congr_left fun name member => ?_).trans (List.map_id' names)
  exact boundName_of_isName (isName name member)

theorem boundNames_newBraces {before : Text} (noOpen : '{' ∉ before) (isName : ∀ name ∈ names, IsName name) :
    boundNames (before ++ braces names) = names := by
  have noClose : ∀ name ∈ names, '}' ∉ name := fun name member =>
    (isName name member).chars.not_mem (by decide)
  have bound := boundNames_braces noOpen (fun name member => (isName name member).isItem) noClose []
  rwa [List.append_nil, map_boundName isName] at bound

theorem boundNames_of_merge? (isName : ∀ name ∈ names, IsName name)
    (unbound : ∀ name ∈ names, name ∉ boundNames clause) (closed : closesBraces clause = true)
    (found : merge? clause names = some merged) :
    boundNames merged = boundNames clause ++ names := by
  rcases merge?_eq_some unbound found with ⟨before, inside, behind, cut, rfl⟩ | ⟨cut, rfl⟩
  · obtain ⟨_, noOpen, noCloseInside⟩ := braced?_eq_some cut
    rw [boundNames_braces noOpen, List.map_append, map_boundName isName]
    · simp only [boundNames, cut]
    · intro item member
      rcases List.mem_append.mp member with old | new
      · exact (isItem_of_mem_specifiers old).1
      · exact (isName item new).isItem
    · intro item member
      rcases List.mem_append.mp member with old | new
      · exact fun brace => noCloseInside ((isItem_of_mem_specifiers old).2 _ brace)
      · exact (isName item new).chars.not_mem (by decide)
  · have noOpen : '{' ∉ clause := by simpa [closesBraces, cut] using closed
    have start : '{' ∉ Text.trim clause ++ [',', ' '] := by
      rw [List.mem_append]
      rintro (member | comma)
      · exact noOpen (Text.mem_of_mem_trim member)
      · exact absurd comma (by decide)
    rw [boundNames_newBraces start isName, boundNames, cut]
    rfl

end

/-! The import that takes the names. -/

/-- Whether names can be merged into a piece: an import of the module with a clause that takes
names. -/
def Piece.takes (moduleName : Text) : Piece → Bool
  | .statement ⟨_, some (clause, _), target⟩ => target.moduleName = moduleName && takesNames clause
  | _ => false

def Piece.refuses (moduleName : Text) (piece : Piece) : Bool := !piece.takes moduleName

def cutAtTaker? (moduleName : Text) (parts : List Piece) :
    Option (List Piece × Statement × List Piece) :=
  match parts.dropWhile (Piece.refuses moduleName) with
  | .statement taker :: right => some (parts.takeWhile (Piece.refuses moduleName), taker, right)
  | _ => none

section
variable {moduleName : Text} {names : List Text} {parts : List Piece}

theorem Piece.refuses_of_not_takes (refuse : ∀ piece ∈ parts, piece.takes moduleName = false) :
    ∀ piece ∈ parts, piece.refuses moduleName = true := fun piece member => by
  rw [Piece.refuses, refuse piece member, Bool.not_false]

theorem cutAtTaker?_of_not_takes (refuse : ∀ piece ∈ parts, piece.takes moduleName = false) :
    cutAtTaker? moduleName parts = none := by
  have passed : (parts ++ []).dropWhile (Piece.refuses moduleName) = [] :=
    List.dropWhile_append_of_pos (Piece.refuses_of_not_takes refuse)
  rw [List.append_nil] at passed
  rw [cutAtTaker?, passed]

theorem cutAtTaker?_of_takes {left right : List Piece} {taker : Statement}
    (refuse : ∀ piece ∈ left, piece.takes moduleName = false)
    (takes : Piece.takes moduleName (.statement taker) = true) :
    cutAtTaker? moduleName (left ++ .statement taker :: right) = some (left, taker, right) := by
  have passed := Piece.refuses_of_not_takes refuse
  have stops : ¬ Piece.refuses moduleName (.statement taker) = true := by simp [Piece.refuses, takes]
  rw [cutAtTaker?, List.dropWhile_append_of_pos passed, List.dropWhile_cons_of_neg stops,
    List.takeWhile_append_of_pos passed, List.takeWhile_cons_of_neg stops, List.append_nil]

theorem mergeInto?_cons_of_not_takes {piece : Piece} (refuses : piece.takes moduleName = false) :
    mergeInto? moduleName names (piece :: parts) =
      (mergeInto? moduleName names parts).map (piece :: ·) := by
  cases piece with
  | char c => rfl
  | statement statement =>
    obtain ⟨head, parts, target⟩ := statement
    cases parts with
    | none => rfl
    | some pair =>
      obtain ⟨clause, joint⟩ := pair
      by_cases same : target.moduleName = moduleName
      · have unmerged : merge? clause names = none := by
          rw [← Option.not_isSome_iff_eq_none, isSome_merge?]
          simpa [Piece.takes, same] using refuses
        simp only [mergeInto?, same, if_true, unmerged, Option.map_none]
      · simp only [mergeInto?, same, if_false]

theorem Piece.exists_of_takes {piece : Piece} (takes : piece.takes moduleName = true) :
    ∃ head clause joint target, piece = .statement ⟨head, some (clause, joint), target⟩ ∧
      target.moduleName = moduleName ∧ takesNames clause = true := by
  unfold Piece.takes at takes
  split at takes
  next head clause joint target =>
    rw [Bool.and_eq_true, decide_eq_true_eq] at takes
    exact ⟨head, clause, joint, target, rfl, takes⟩
  next => cases takes

theorem mergeInto?_cons_of_takes {head clause joint : Text} {target : Target}
    (same : target.moduleName = moduleName) (takes : takesNames clause = true) :
    ∃ merged, merge? clause names = some merged ∧
      mergeInto? moduleName names (.statement ⟨head, some (clause, joint), target⟩ :: parts) =
        some (.statement ⟨head, some (merged, joint), target⟩ :: parts) := by
  rw [← isSome_merge? clause names, Option.isSome_iff_exists] at takes
  obtain ⟨merged, found⟩ := takes
  refine ⟨merged, found, ?_⟩
  simp only [mergeInto?, same, if_true, found, Option.map_some]

/-- The names find no import if there is none that takes them; otherwise the first of those is given
them. -/
theorem mergeInto?_cases (moduleName : Text) (names : List Text) (parts : List Piece) :
    (mergeInto? moduleName names parts = none ∧ ∀ piece ∈ parts, piece.takes moduleName = false) ∨
    ∃ left head clause joint target right merged,
      parts = left ++ .statement ⟨head, some (clause, joint), target⟩ :: right ∧
      (∀ piece ∈ left, piece.takes moduleName = false) ∧ target.moduleName = moduleName ∧
      takesNames clause = true ∧ merge? clause names = some merged ∧
      mergeInto? moduleName names parts =
        some (left ++ .statement ⟨head, some (merged, joint), target⟩ :: right) := by
  induction parts with
  | nil => exact .inl ⟨rfl, fun piece member => absurd member List.not_mem_nil⟩
  | cons piece rest ih =>
    cases takes : piece.takes moduleName with
    | true =>
      obtain ⟨head, clause, joint, target, rfl, same, taken⟩ := Piece.exists_of_takes takes
      obtain ⟨merged, found, result⟩ := mergeInto?_cons_of_takes same taken
      exact .inr ⟨[], head, clause, joint, target, rest, merged, rfl,
        fun piece member => absurd member List.not_mem_nil, same, taken, found, result⟩
    | false =>
      rw [mergeInto?_cons_of_not_takes takes]
      rcases ih with ⟨unmerged, refuse⟩ | ⟨left, head, clause, joint, target, right, merged, rfl, refuse,
        same, taken, found, result⟩
      · exact .inl ⟨by rw [unmerged]; rfl, List.forall_mem_cons.mpr ⟨takes, refuse⟩⟩
      · exact .inr ⟨piece :: left, head, clause, joint, target, right, merged, rfl,
          List.forall_mem_cons.mpr ⟨takes, refuse⟩, same, taken, found, by rw [result]; rfl⟩

end

end OptionsApi.Import
