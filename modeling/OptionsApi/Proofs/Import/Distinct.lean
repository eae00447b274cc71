import OptionsApi.Proofs.Import.Outcome

/-! The local names of a module's imports. A clause binds the last word of each of its items, wherever
the item stands: a default import, a namespace or a specifier. Ensuring names adds the missing ones
to the local names and takes none away, so a name is bound twice exactly if it was before or if it is
requested and bound outside of braces, or in braces in a way that is not seen. -/

set_option autoImplicit false

namespace OptionsApi.Import

open Text (Blank Within)

/-! Words. -/

def lastWord (text : Text) : Text :=
  ((text.reverse.dropWhile fun c => !Text.isNameChar c).takeWhile Text.isNameChar).reverse

/-- Braces divide the items of a clause as commas do. -/
def asComma (c : Char) : Char := if c = '{' ∨ c = '}' then ',' else c

def lastWords (text : Text) : List Text :=
  ((Text.splitOn ',' (text.map asComma)).map lastWord).filter fun word => !word.isEmpty

/-- The names bound in front of braces, where a single word may be the marker of type imports. -/
def leadNames (before : Text) : List Text :=
  if Text.trim before = ['t', 'y', 'p', 'e'] then [] else lastWords before

def localNames (clause : Text) : List Text :=
  match Text.cutAt '{' clause with
  | some (before, opened) => leadNames before ++ lastWords opened
  | none => lastWords clause

theorem lastWord_append_blank (text : Text) {blanks : Text} (blank : Blank blanks) :
    lastWord (text ++ blanks) = lastWord text := by
  have skipped : ∀ c ∈ blanks.reverse, (!Text.isNameChar c) = true := by
    intro c member
    rw [Text.isNameChar_of_isBlank (blank c (List.mem_reverse.mp member)), Bool.not_false]
  rw [lastWord, List.reverse_append, List.dropWhile_append_of_pos skipped]
  rfl

theorem lastWord_cons_blank {c : Char} (blank : Text.isBlank c = true) (text : Text) :
    lastWord (c :: text) = lastWord text := by
  have other : Text.isNameChar c = false := Text.isNameChar_of_isBlank blank
  unfold lastWord
  rw [List.reverse_cons, List.dropWhile_append]
  cases kept : List.dropWhile (fun c => !Text.isNameChar c) (List.reverse text) with
  | nil => simp [other]
  | cons d rest =>
    have stopped : (d :: rest ++ [c]).takeWhile Text.isNameChar = (d :: rest).takeWhile Text.isNameChar :=
      Text.takeWhile_append_stop other (d :: rest) []
    simpa using stopped

theorem lastWord_name {name : Text} (isName : IsName name) : lastWord name = name := by
  have chars : ∀ c ∈ name.reverse, Text.isNameChar c = true := fun c member =>
    isName.chars c (List.mem_reverse.mp member)
  have kept : name.reverse.dropWhile (fun c => !Text.isNameChar c) = name.reverse := by
    obtain ⟨c, rest, same⟩ := List.exists_cons_of_ne_nil (List.reverse_ne_nil_iff.mpr isName.nonempty)
    rw [same] at chars ⊢
    rw [List.dropWhile_cons_of_neg (by simp [chars c List.mem_cons_self])]
  have stops : Text.Stops Text.isNameChar [] := by rintro c ⟨⟩
  have taken := Text.takeWhile_append_of_stops chars stops
  rw [List.append_nil] at taken
  rw [lastWord, kept, taken, List.reverse_reverse]

/-! The items of a clause. -/

theorem lastWords_divider {c : Char} (divides : asComma c = ',') (left right : Text) :
    lastWords (left ++ c :: right) = lastWords left ++ lastWords right := by
  simp [lastWords, divides, Text.splitOn_append_separator]

theorem lastWords_of_undivided {text : Text} (undivided : ∀ c ∈ text, asComma c ≠ ',') :
    lastWords text = [lastWord text].filter fun word => !word.isEmpty := by
  have same : text.map asComma = text := by
    refine (List.map_congr_left fun c member => ?_).trans (List.map_id' text)
    have other := undivided c member
    unfold asComma at other ⊢
    split at other
    next => exact absurd rfl other
    next plain => exact if_neg plain
  have single : ',' ∉ text := by
    rw [← same, List.mem_map]
    rintro ⟨c, member, divides⟩
    exact undivided c member divides
  rw [lastWords, same, Text.splitOn_of_not_mem single, List.map_singleton]

theorem asComma_of_isBlank {c : Char} (blank : Text.isBlank c = true) : asComma c ≠ ',' := by
  have opening : c ≠ '{' := Text.ne_of_isBlank blank (by decide)
  have closing : c ≠ '}' := Text.ne_of_isBlank blank (by decide)
  have comma : c ≠ ',' := Text.ne_of_isBlank blank (by decide)
  simpa [asComma, opening, closing] using comma

theorem lastWords_between {before behind : Text} (blankBefore : Blank before) (blankBehind : Blank behind)
    (text : Text) : lastWords (before ++ text ++ behind) = lastWords text := by
  by_cases divided : ∃ c ∈ text, asComma c = ','
  · obtain ⟨c, member, divides⟩ := divided
    obtain ⟨left, right, rfl⟩ := List.append_of_mem member
    have regrouped : before ++ (left ++ c :: right) ++ behind =
        (before ++ left ++ []) ++ c :: ([] ++ right ++ behind) := by simp
    rw [regrouped, lastWords_divider divides, lastWords_divider divides,
      lastWords_between blankBefore Blank.nil left, lastWords_between Blank.nil blankBehind right]
  · have undivided : ∀ c ∈ text, asComma c ≠ ',' := fun c member divides => divided ⟨c, member, divides⟩
    have padded : ∀ c ∈ before ++ text ++ behind, asComma c ≠ ',' := by
      intro c member
      rw [List.mem_append, List.mem_append] at member
      rcases member with (first | inside) | last
      · exact asComma_of_isBlank (blankBefore c first)
      · exact undivided c inside
      · exact asComma_of_isBlank (blankBehind c last)
    have skipped : lastWord (before ++ text) = lastWord text := by
      clear padded
      induction before with
      | nil => rfl
      | cons c others ih =>
        rw [List.cons_append, lastWord_cons_blank (blankBefore c List.mem_cons_self),
          ih (Within.tail blankBefore)]
    rw [lastWords_of_undivided undivided, lastWords_of_undivided padded,
      lastWord_append_blank _ blankBehind, skipped]
termination_by text.length

theorem lastWords_trim (text : Text) : lastWords (Text.trim text) = lastWords text := by
  obtain ⟨before, behind, blankBefore, blankBehind, whole⟩ := Text.exists_trim text
  have kept := lastWords_between blankBefore blankBehind (Text.trim text)
  rw [whole] at kept
  exact kept.symm

theorem lastWords_nil : lastWords [] = [] := rfl

theorem lastWords_specifiers (inside : Text) : (specifiers inside).flatMap lastWords = lastWords inside := by
  by_cases divided : ',' ∈ inside
  · obtain ⟨left, right, rfl⟩ := List.append_of_mem divided
    rw [specifiers_append, List.flatMap_append, lastWords_specifiers left, lastWords_specifiers right,
      lastWords_divider (by decide)]
  · rw [specifiers, Text.splitOn_of_not_mem divided, List.map_singleton, ← lastWords_trim inside]
    cases Text.trim inside with
    | nil => rfl
    | cons c rest => simp
termination_by inside.length

theorem lastWords_name {name : Text} (isName : IsName name) : lastWords name = [name] := by
  have undivided : ∀ c ∈ name, asComma c ≠ ',' := by
    intro c member divides
    have named := isName.chars c member
    unfold asComma at divides
    split at divides
    next brace =>
      rcases brace with rfl | rfl
      · exact absurd named (by decide)
      · exact absurd named (by decide)
    next =>
      subst divides
      exact absurd named (by decide)
  rw [lastWords_of_undivided undivided, lastWord_name isName]
  simp [isName.nonempty]

theorem lastWords_join {items names : List Text} (isItem : ∀ item ∈ items, IsItem item)
    (isName : ∀ name ∈ names, IsName name) :
    lastWords (' ' :: Text.join ", " (items ++ names) ++ [' ']) = items.flatMap lastWords ++ names := by
  have each : ∀ item ∈ items ++ names, IsItem item := by
    intro item member
    rcases List.mem_append.mp member with old | new
    · exact isItem item old
    · exact (isName item new).isItem
  have own : names.flatMap lastWords = names := by
    clear each
    induction names with
    | nil => rfl
    | cons name rest ih =>
      rw [List.flatMap_cons, lastWords_name (isName name List.mem_cons_self),
        ih fun other member => isName other (List.mem_cons_of_mem name member)]
      rfl
  rw [← lastWords_specifiers, specifiers_join each, List.flatMap_append, own]

theorem lastWords_opened {names : List Text} (isName : ∀ name ∈ names, IsName name) :
    lastWords (' ' :: Text.join ", " names ++ [' '] ++ ['}']) = names := by
  have joined := lastWords_join (fun item member => absurd member List.not_mem_nil) isName
  rw [lastWords_divider (c := '}') (by decide), lastWords_nil, List.append_nil]
  simpa using joined

theorem lastWords_braces {names : List Text} (isName : ∀ name ∈ names, IsName name) :
    lastWords (braces names) = names := by
  rw [braces_eq, ← List.nil_append ('{' :: _), lastWords_divider (by decide), lastWords_nil,
    List.nil_append, lastWords_opened isName]

/-! Clauses with the names added. -/

theorem localNames_cut {before : Text} (noOpen : '{' ∉ before) (opened : Text) :
    localNames (before ++ '{' :: opened) = leadNames before ++ lastWords opened := by
  rw [localNames, Text.cutAt_append noOpen]

theorem localNames_uncut {clause : Text} (noOpen : '{' ∉ clause) : localNames clause = lastWords clause := by
  rw [localNames, Text.cutAt_of_not_mem noOpen]

theorem localNames_braces {names : List Text} (isName : ∀ name ∈ names, IsName name) :
    localNames (braces names) = names := by
  rw [braces_eq, ← List.nil_append ('{' :: _), localNames_cut List.not_mem_nil, lastWords_opened isName]
  rfl

theorem leadNames_of_comma {before : Text} (comma : ',' ∈ before) : leadNames before = lastWords before := by
  refine if_neg fun marker => ?_
  obtain ⟨start, behind, blankStart, blankBehind, whole⟩ := Text.exists_trim before
  rw [← whole, marker, List.mem_append, List.mem_append] at comma
  rcases comma with (first | word) | last
  · exact Within.not_mem blankStart (by decide) first
  · exact absurd word (by decide)
  · exact Within.not_mem blankBehind (by decide) last

theorem IsClause.trim {clause : Text} (isClause : IsClause clause) (brace : '{' ∈ clause) :
    Text.trim clause = clause := by
  have begins : Text.BeginsInk clause := by
    refine isClause.begins.resolve_right fun blank => ?_
    exact Within.not_mem blank (by decide) brace
  refine Text.trim_of_ink begins ?_
  rcases isClause.ends with ends | ⟨c, rfl⟩
  · exact ends
  · obtain ⟨d, rest, same, ink⟩ := begins
    injection same with first
    exact Text.EndsInk.singleton (first ▸ ink)

/-- Merging names into a clause adds them to its local names. -/
theorem localNames_of_merge? {clause merged : Text} {names : List Text} (isClause : IsClause clause)
    (isName : ∀ name ∈ names, IsName name) (unbound : ∀ name ∈ names, name ∉ boundNames clause)
    (found : merge? clause names = some merged) :
    (localNames merged).Perm (localNames clause ++ names) := by
  rcases merge?_eq_some unbound found with ⟨before, inside, behind, cut, rfl⟩ | ⟨cut, rfl⟩
  · obtain ⟨rfl, noOpen, _⟩ := braced?_eq_some cut
    have isItem : ∀ item ∈ specifiers inside, IsItem item := fun item member =>
      (isItem_of_mem_specifiers member).1
    have joined := lastWords_join isItem isName
    have regrouped : before ++ braces (specifiers inside ++ names) ++ behind =
        before ++ '{' :: ((' ' :: Text.join ", " (specifiers inside ++ names) ++ [' ']) ++ '}' :: behind) := by
      simp [braces_eq]
    rw [regrouped, localNames_cut noOpen, localNames_cut noOpen, lastWords_divider (c := '}') (by decide),
      lastWords_divider (c := '}') (by decide), joined, lastWords_specifiers]
    simp only [List.append_assoc]
    exact (List.perm_append_comm.append_left _).append_left _
  · by_cases brace : '{' ∈ clause
    · -- A brace that is not closed: the names stand behind the items it opens.
      rw [isClause.trim brace]
      obtain ⟨before, opened, rfl, noOpen⟩ := List.eq_append_cons_of_mem brace
      have regrouped : before ++ '{' :: opened ++ [',', ' '] ++ braces names =
          before ++ '{' :: (opened ++ ',' :: ([' '] ++ braces names ++ [])) := by simp
      rw [regrouped, localNames_cut noOpen, localNames_cut noOpen, lastWords_divider (by decide),
        lastWords_between (by decide) Blank.nil, lastWords_braces isName, List.append_assoc]
    · have comma : ',' ∈ Text.trim clause ++ [',', ' '] := by simp
      have noOpen : '{' ∉ Text.trim clause ++ [',', ' '] := by
        rw [List.mem_append]
        rintro (member | other)
        · exact brace (Text.mem_of_mem_trim member)
        · exact absurd other (by decide)
      have blank : lastWords [' '] = [] := by decide
      rw [braces_eq, localNames_cut noOpen, localNames_uncut brace, leadNames_of_comma comma,
        lastWords_divider (by decide), lastWords_trim, blank, List.append_nil, lastWords_opened isName]

/-! The imports of a module. -/

def localNamesOf (moduleName text : Text) : List Text :=
  (clausesOf moduleName (pieces .binding text)).flatMap localNames

theorem clausesOf_statement {left right : List Piece} {head clause joint : Text} {target : Target} :
    clausesOf target.moduleName (left ++ .statement ⟨head, some (clause, joint), target⟩ :: right) =
      clausesOf target.moduleName left ++ clause :: clausesOf target.moduleName right := by
  rw [clausesOf_append]
  simp [clausesOf]

/-- The missing names are added to the local names, and nothing else happens to these. -/
theorem localNamesOf_ensure {moduleName text : Text} {names : List Text}
    (tidy : onePerLine (pieces .any text) = true) (named : IsModuleName moduleName)
    (isName : ∀ name ∈ names, IsName name) :
    (localNamesOf moduleName (ensure moduleName names text).text).Perm
      (localNamesOf moduleName text ++ missingNames moduleName names (pieces .binding text)) := by
  obtain ⟨inline, apart⟩ := onePerLine_iff.mp tidy
  have outcome := ensure_outcome inline named isName
  have isNewName := @isName_of_mem_missingNames moduleName names (pieces .binding text) isName
  unfold localNamesOf
  generalize pieces .binding (ensure moduleName names text).text = after at outcome ⊢
  generalize missingNames moduleName names (pieces .binding text) = missing at *
  generalize pieces .binding text = before at outcome ⊢
  cases outcome with
  | unchanged empty =>
    rw [empty, List.append_nil]
  | @merged left right head clause joint merged target _ same _ isClause unbound result =>
    subst same
    rw [clausesOf_statement, clausesOf_statement]
    have given := localNames_of_merge? isClause isNewName unbound result
    simp only [List.flatMap_append, List.flatMap_cons, List.append_assoc]
    refine List.Perm.append_left _ ((given.append_right _).trans ?_)
    rw [List.append_assoc]
    exact List.perm_append_comm.append_left _
  | @added parts behind rest lead _ _ _ chars =>
    obtain ⟨later, rfl⟩ := chars apart
    have new : clausesOf moduleName (lead.map .char ++
        .statement (addedStatement moduleName missing) :: later.map .char) = [braces missing] := by
      rw [clausesOf_append, clausesOf_chars]
      simp [clausesOf, addedStatement]
    rw [clausesOf_append, new, clausesOf_append, clausesOf_chars, List.append_nil,
      List.flatMap_append, List.flatMap_singleton, localNames_braces isNewName]

theorem nodup_eraseDups (names : List Text) : names.eraseDups.Nodup := by
  -- What is left behind the first name is filtered, so the induction is on the length.
  induction size : names.length using Nat.strongRecOn generalizing names with
  | ind length ih =>
    cases names with
    | nil => exact List.nodup_nil
    | cons name rest =>
      rw [List.eraseDups_cons, List.nodup_cons]
      refine ⟨by simp, ih _ ?_ _ rfl⟩
      rw [← size]
      exact Nat.lt_succ_of_le (List.length_filter_le _ _)

/-- The local names of a module's imports are distinct after the names are ensured if and only if they
were before and every requested name among them is seen in braces. -/
theorem ensure_distinct_iff {moduleName text : Text} {names : List Text}
    (tidy : onePerLine (pieces .any text) = true) (named : IsModuleName moduleName)
    (isName : ∀ name ∈ names, IsName name) :
    (localNamesOf moduleName (ensure moduleName names text).text).Nodup ↔
      (localNamesOf moduleName text).Nodup ∧
        ∀ name ∈ names, name ∈ localNamesOf moduleName text → name ∈ bracedNamesOf moduleName text := by
  have once : (missingNames moduleName names (pieces .binding text)).Nodup :=
    (nodup_eraseDups names).sublist List.filter_sublist
  rw [(localNamesOf_ensure tidy named isName).nodup_iff, List.nodup_append]
  constructor
  · rintro ⟨distinct, _, apart⟩
    refine ⟨distinct, fun name requested bound => ?_⟩
    by_cases seen : name ∈ bracedNamesOf moduleName text
    · exact seen
    · exact absurd rfl (apart name bound name (mem_missingNames.mpr ⟨requested, seen⟩))
  · rintro ⟨distinct, seen⟩
    refine ⟨distinct, once, fun name bound other missing same => ?_⟩
    obtain ⟨requested, unseen⟩ := mem_missingNames.mp missing
    exact unseen (seen other requested (same ▸ bound))

def manyImports : Text :=
  "import Vue, \x7b a as b, type C \x7d from 'm'\nimport * as N from \"m\"\n" ++
    "import type \x7b D \x7d from 'm'\nimport 's'\nlet x\n"

theorem manyImports_distinct :
    localNamesOf ['m'] manyImports = [['V', 'u', 'e'], ['b'], ['C'], ['N'], ['D']] ∧
      (localNamesOf ['m'] (ensure ['m'] [['b'], ['E'], ['D'], ['E'], ['a']] manyImports).text).Nodup :=
  ⟨by decide +kernel, (ensure_distinct_iff (by decide +kernel) (by decide) (by decide)).mpr
    ⟨by decide +kernel, by decide +kernel⟩⟩

/-- A name bound by a default import is bound once more by braces. -/
theorem default_bound_twice :
    let text : Text := "import Vue from 'vue'\n"
    let result := (ensure "vue" [['V', 'u', 'e']] text).text
    (localNamesOf "vue" text).Nodup ∧ result = "import Vue, \x7b Vue \x7d from 'vue'\n".toList ∧
      ¬ (localNamesOf "vue" result).Nodup := by
  decide +kernel

end OptionsApi.Import
