import OptionsApi.Proofs.Import.Grammar
import OptionsApi.Proofs.Text.Cut
import OptionsApi.Proofs.Text.Lines

/-! Written clauses, read and extended. What is found in the text of a clause are the names that the
clause binds; names are merged into its text exactly if the clause takes names, and what comes out
is the text of the clause with the names added. The clause can be read back from its text. -/

set_option autoImplicit false

namespace OptionsApi.Import

open Text (Blank Within)

/-! The alias of a specifier. -/

theorem alias?_cons {c : Char} {rest : Text} (other : ¬ [' ', 'a', 's', ' '] <+: c :: rest) :
    alias? (c :: rest) = alias? rest := by
  rw [alias?.eq_def]
  split
  next behind same => exact absurd ⟨behind, by simp [same]⟩ other
  next same =>
    cases same
    rfl
  next same => cases same

theorem alias?_append_of_no_space {name : Text} (absent : ' ' ∉ name) (rest : Text) :
    alias? (name ++ rest) = alias? rest := by
  induction name with
  | nil => rfl
  | cons c others ih =>
    rw [List.cons_append, alias?_cons, ih (List.not_mem_of_not_mem_cons absent)]
    rintro ⟨behind, same⟩
    exact List.ne_of_not_mem_cons absent (List.cons.inj same).1

theorem alias?_append_of_blank {blanks rest : Text} (blank : Blank blanks)
    (other : ¬ ['a', 's', ' '] <+: rest) : alias? (blanks ++ rest) = alias? rest := by
  -- A keyword that begins among the blanks would begin with one of them.
  induction blanks with
  | nil => rfl
  | cons c others ih =>
    have later : Blank others := Within.tail blank
    rw [List.cons_append, alias?_cons, ih later]
    rintro ⟨behind, same⟩
    have begins : ['a', 's', ' '] <+: others ++ rest := ⟨behind, (List.cons.inj same).2⟩
    cases others with
    | nil => exact other begins
    | cons d more =>
      obtain ⟨tail, equal⟩ := begins
      have first : 'a' = d := (List.cons.inj equal).1
      exact Text.ne_of_isBlank (later d List.mem_cons_self) (by decide) first.symm

theorem IsName.no_space {name : Text} (isName : IsName name) : ' ' ∉ name :=
  isName.chars.not_mem (by decide)

theorem alias?_blank_name {blanks name : Text} (blank : Blank blanks) (isName : IsName name) :
    alias? (blanks ++ name) = none := by
  have other : ¬ ['a', 's', ' '] <+: name := fun begins =>
    isName.no_space (begins.subset (by simp))
  rw [alias?_append_of_blank blank other]
  simpa [alias?] using alias?_append_of_no_space isName.no_space []

theorem alias?_renamed {name before behind other : Text} (isName : IsName name)
    (blankBefore : Blank before) (blankBehind : Blank behind) (isOther : IsName other) :
    alias? (name ++ before ++ " as " ++ (behind ++ other)) = some (behind ++ other) := by
  rw [List.append_assoc, List.append_assoc, alias?_append_of_no_space isName.no_space,
    alias?_append_of_blank blankBefore (by rintro ⟨_, same⟩; cases same)]
  change some ((alias? (behind ++ other)).getD (behind ++ other)) = _
  rw [alias?_blank_name blankBehind isOther]
  rfl

theorem alias?_type {blanks name : Text} (blank : Blank blanks) (isName : IsName name) :
    alias? ("type " ++ (blanks ++ name)) = none := by
  have spaced : Blank (' ' :: blanks) := Within.cons (by decide) blank
  change alias? (['t', 'y', 'p', 'e'] ++ ((' ' :: blanks) ++ name)) = none
  rw [alias?_append_of_no_space (by decide), alias?_blank_name spaced isName]

/-! The characters of a clause. -/

def isWordy (c : Char) : Bool := Text.isNameChar c || Text.isBlank c

def isInner (c : Char) : Bool := isWordy c || c == ','

theorem isClauseChar_of_isInner {c : Char} (inner : isInner c = true) : isClauseChar c = true := by
  simp only [isInner, isWordy, Text.isNameChar, Bool.or_eq_true, beq_iff_eq] at inner
  rcases inner with ((word | dollar) | blank) | comma
  · simp [isClauseChar, word]
  · simp [isClauseChar, dollar]
  · simp [isClauseChar, blank]
  · simp [isClauseChar, comma]

section
variable {text : Text}

theorem IsName.wordy (isName : IsName text) : Within isWordy text :=
  isName.chars.mono fun c named => by simp [isWordy, named]

theorem wordy_of_blank (blank : Blank text) : Within isWordy text :=
  Within.mono blank fun c here => by simp [isWordy, here]

theorem inner_of_wordy (wordy : Within isWordy text) : Within isInner text :=
  wordy.mono fun c here => by simp [isInner, here]

theorem clauseChars_of_inner (inner : Within isInner text) : Within isClauseChar text :=
  inner.mono fun _ => isClauseChar_of_isInner

theorem clauseChars_of_blank (blank : Blank text) : Within isClauseChar text :=
  clauseChars_of_inner (inner_of_wordy (wordy_of_blank blank))

end

/-! Specifiers. -/

theorem IsName.after_type {name : Text} (isName : IsName name) : Text.after "type " name = none :=
  Text.after_of_not_mem (c := ' ') (by decide) isName.no_space

theorem trim_blank_name {blanks name : Text} (blank : Blank blanks) (isName : IsName name) :
    Text.trim (blanks ++ name) = name := by
  rw [Text.trim_append_of_blank blank, isName.trim]

namespace Specifier.Written

variable {specifier : Specifier} {text : Text}

theorem begins (written : specifier.Written text) : Text.BeginsInk text := by
  cases written with
  | plain isName => exact isName.begins
  | renamed isName => exact ((isName.begins.append _).append _).append _
  | typeOnly => exact ⟨'t', _, rfl, by decide⟩

theorem ends (written : specifier.Written text) : Text.EndsInk text := by
  cases written with
  | plain isName => exact isName.ends
  | renamed _ _ _ isOther => exact (isOther.ends.append _).append _
  | typeOnly _ isName => exact (isName.ends.append _).append _

theorem trim (written : specifier.Written text) : Text.trim text = text :=
  Text.trim_of_ink written.begins written.ends

theorem boundName_eq (written : specifier.Written text) : boundName text = specifier.bound := by
  unfold boundName
  cases written with
  | plain isName =>
    have unaliased : alias? text = none := alias?_blank_name Blank.nil isName
    simp only [unaliased, Option.getD_none, isName.trim, isName.after_type, bound]
  | renamed isName blankBefore blankBehind isOther =>
    simp only [alias?_renamed isName blankBefore blankBehind isOther, Option.getD_some,
      trim_blank_name blankBehind isOther, isOther.after_type, Option.getD_none, isOther.trim,
      bound]
  | @typeOnly blanks name blank isName =>
    have trimmed : Text.trim ("type " ++ (blanks ++ name)) = "type " ++ (blanks ++ name) :=
      Written.trim (.typeOnly blank isName)
    simp only [alias?_type blank isName, Option.getD_none, trimmed, Text.after_append, Option.getD_some,
      trim_blank_name blank isName, bound]

theorem chars (written : specifier.Written text) : Within isWordy text := by
  cases written with
  | plain isName => exact isName.wordy
  | renamed isName blankBefore blankBehind isOther =>
    exact ((isName.wordy.append (wordy_of_blank blankBefore)).append (by decide)).append
      ((wordy_of_blank blankBehind).append isOther.wordy)
  | typeOnly blank isName =>
    exact Within.append (by decide) ((wordy_of_blank blank).append isName.wordy)

theorem padded (written : specifier.Written text) {before behind : Text}
    (blankBefore : Blank before) (blankBehind : Blank behind) :
    Within isWordy (before ++ text ++ behind) :=
  ((wordy_of_blank blankBefore).append written.chars).append (wordy_of_blank blankBehind)

end Specifier.Written

/-! Lists of specifiers. -/

theorem specifiers_append (left right : Text) :
    specifiers (left ++ ',' :: right) = specifiers left ++ specifiers right := by
  simp only [specifiers, Text.splitOn_append_separator, List.map_append, List.filter_append]

theorem specifiers_of_blank {blanks : Text} (blank : Blank blanks) : specifiers blanks = [] := by
  have absent : ',' ∉ blanks := Within.not_mem blank (by decide)
  simp [specifiers, Text.splitOn_of_not_mem absent, Text.trim_of_blank blank]

theorem Specifier.Written.specifiers_padded {specifier : Specifier} {before text behind : Text}
    (written : specifier.Written text) (blankBefore : Blank before) (blankBehind : Blank behind) :
    specifiers (before ++ text ++ behind) = [text] := by
  have absent : ',' ∉ before ++ text ++ behind :=
    (written.padded blankBefore blankBehind).not_mem (by decide)
  have trimmed : Text.trim (before ++ text ++ behind) = text := by
    rw [Text.trim_between blankBefore blankBehind, written.trim]
  rw [specifiers, Text.splitOn_of_not_mem absent, List.map_singleton, trimmed]
  simp [written.begins.ne_nil]

namespace SpecifierList

variable {list : List Specifier} {inside : Text}

theorem specifiers_eq (written : SpecifierList list inside) :
    ∃ pairs : List (Specifier × Text), pairs.map Prod.fst = list ∧
      specifiers inside = pairs.map Prod.snd ∧ ∀ pair ∈ pairs, pair.1.Written pair.2 := by
  induction written with
  | nil blank => exact ⟨[], rfl, specifiers_of_blank blank, by simp⟩
  | @last specifier _ text _ blankBefore here blankBehind =>
    exact ⟨[(specifier, text)], rfl, here.specifiers_padded blankBefore blankBehind, by simpa using here⟩
  | @cons specifier _ _ text _ _ blankBefore here blankBehind _ ih =>
    obtain ⟨pairs, rfl, found, each⟩ := ih
    refine ⟨(specifier, text) :: pairs, rfl, ?_, List.forall_mem_cons.mpr ⟨here, each⟩⟩
    rw [specifiers_append, here.specifiers_padded blankBefore blankBehind, found]
    rfl

theorem bound_eq (written : SpecifierList list inside) :
    (specifiers inside).map boundName = list.map Specifier.bound := by
  obtain ⟨pairs, rfl, found, each⟩ := written.specifiers_eq
  rw [found, List.map_map, List.map_map]
  exact List.map_congr_left fun pair member => (each pair member).boundName_eq

theorem ofJoin {pairs : List (Specifier × Text)} (each : ∀ pair ∈ pairs, pair.1.Written pair.2) :
    SpecifierList (pairs.map Prod.fst) (' ' :: Text.join ", " (pairs.map Prod.snd) ++ [' ']) := by
  have space : Blank [' '] := by decide
  induction pairs with
  | nil => exact .nil (by decide)
  | cons pair rest ih =>
    have here := each pair List.mem_cons_self
    have later := ih fun other member => each other (List.mem_cons_of_mem pair member)
    cases rest with
    | nil => simpa using SpecifierList.last space here space
    | cons second others =>
      have whole := SpecifierList.cons space here Blank.nil later
      simpa using whole

theorem chars (written : SpecifierList list inside) : Within isInner inside := by
  induction written with
  | nil blank => exact inner_of_wordy (wordy_of_blank blank)
  | last blankBefore here blankBehind =>
    exact inner_of_wordy (here.padded blankBefore blankBehind)
  | cons blankBefore here blankBehind _ ih =>
    exact (inner_of_wordy (here.padded blankBefore blankBehind)).append (.cons (by decide) ih)

theorem append_names (written : SpecifierList list inside) {names : List Text}
    (isName : ∀ name ∈ names, IsName name) :
    SpecifierList (list ++ names.map .plain)
      (' ' :: Text.join ", " (specifiers inside ++ names) ++ [' ']) := by
  obtain ⟨pairs, rfl, found, each⟩ := written.specifiers_eq
  have whole := @ofJoin (pairs ++ names.map fun name => (.plain name, name)) <| by
    intro pair member
    rcases List.mem_append.mp member with old | new
    · exact each pair old
    · obtain ⟨name, listed, rfl⟩ := List.mem_map.mp new
      exact .plain (isName name listed)
  simpa [found, Function.comp_def] using whole

theorem ofNames {names : List Text} (isName : ∀ name ∈ names, IsName name) :
    SpecifierList (names.map .plain) (' ' :: Text.join ", " names ++ [' ']) := by
  have added := (SpecifierList.nil Blank.nil).append_names isName
  rwa [specifiers_of_blank Blank.nil] at added

end SpecifierList

/-! Clauses. -/

theorem braces_eq (names : List Text) :
    braces names = '{' :: (' ' :: Text.join ", " names ++ [' '] ++ ['}']) := by
  simp [braces]

namespace Lead

variable {lead : Option Text} {start : Text}

theorem chars (written : Lead lead start) : Within isInner start := by
  cases written with
  | none => exact Within.nil
  | some isName blankBefore blankBehind =>
    exact (inner_of_wordy (isName.wordy.append (wordy_of_blank blankBefore))).append
      (.cons (by decide) (inner_of_wordy (wordy_of_blank blankBehind)))

theorem begins_append (written : Lead lead start) {rest : Text} (begins : Text.BeginsInk rest) :
    Text.BeginsInk (start ++ rest) := by
  cases written with
  | none => exact begins
  | some isName => exact ((isName.begins.append _).append _).append _

theorem not_type_append (written : Lead lead start) (unmarked : ¬ "type ".toList <+: start)
    (rest : Text) : ¬ "type ".toList <+: start ++ '{' :: rest := by
  cases written with
  | none =>
    rintro ⟨_, same⟩
    cases same
  | @some name before behind isName _ _ =>
    intro begins
    rcases List.prefix_or_prefix_of_prefix begins (List.prefix_append _ _) with inner | outer
    · exact unmarked inner
    -- A start that the marker reaches past would put its comma into the marker.
    · have comma : ',' ∈ "type ".toList := outer.subset (by simp)
      exact absurd comma (by decide)

end Lead

theorem braced?_append {start inside behind : Text} (noOpen : '{' ∉ start) (noClose : '}' ∉ inside) :
    braced? (start ++ '{' :: (inside ++ '}' :: behind)) = some ⟨start, inside, behind⟩ := by
  simp [braced?, Text.cutAt_append noOpen, Text.cutAt_append noClose]

theorem braced?_of_not_mem {text : Text} (noOpen : '{' ∉ text) : braced? text = none := by
  simp [braced?, Text.cutAt_of_not_mem noOpen]

theorem takesNames_iff {text : Text} :
    takesNames text = true ↔ ¬ "type ".toList <+: text ∧ '*' ∉ text := by
  rw [takesNames, Bool.and_eq_true, Bool.not_eq_true', Bool.not_eq_true', ← Bool.not_eq_true,
    ← Bool.not_eq_true, List.isPrefixOf_iff_prefix, List.contains_iff_mem]

namespace Clause.Written

variable {clause : Clause} {text : Text}

theorem begins (written : clause.Written text) : Text.BeginsInk text := by
  cases written with
  | single isName => exact isName.begins
  | named lead => exact lead.begins_append ⟨'{', _, rfl, by decide⟩
  | types => exact ⟨'t', _, rfl, by decide⟩
  | star lead => exact lead.begins_append ⟨'*', _, rfl, by decide⟩

theorem ends (written : clause.Written text) : Text.EndsInk text := by
  have brace : Text.EndsInk ['}'] := Text.EndsInk.singleton (by decide)
  cases written with
  | single isName => exact isName.ends
  | named => exact ((brace.append _).append ['{']).append _
  | types => exact ((brace.append _).append ['{']).append _
  | star _ _ _ isName => exact (((isName.ends.append _).append _).append ['*']).append _

theorem chars (written : clause.Written text) : Within isClauseChar text := by
  have braces {inside : Text} {list : List Specifier} (specifiers : SpecifierList list inside) :
      Within isClauseChar ('{' :: (inside ++ ['}'])) :=
    .cons (by decide) ((clauseChars_of_inner specifiers.chars).append (by decide))
  cases written with
  | single isName => exact clauseChars_of_inner (inner_of_wordy isName.wordy)
  | named lead _ list => exact (clauseChars_of_inner lead.chars).append (braces list)
  | types blank list =>
    exact (Within.append (by decide) (clauseChars_of_blank blank)).append (braces list)
  | star lead blank gap isName =>
    have name := (clauseChars_of_blank gap.blank).append
      (clauseChars_of_inner (inner_of_wordy isName.wordy))
    exact (clauseChars_of_inner lead.chars).append
      (.cons (by decide) (((clauseChars_of_blank blank).append (by decide)).append name))

theorem braced?_eq (written : clause.Written text) :
    (∃ name, clause = .single name ∧ braced? text = none) ∨
    (∃ lead start list inside, clause = .named lead list ∧ Lead lead start ∧
      SpecifierList list inside ∧ braced? text = some ⟨start, inside, []⟩) ∨
    (∃ list before inside, clause = .types list ∧ SpecifierList list inside ∧
      braced? text = some ⟨before, inside, []⟩) ∨
    ∃ lead name, clause = .star lead name ∧ braced? text = none := by
  cases written with
  | single isName => exact .inl ⟨_, rfl, braced?_of_not_mem (isName.chars.not_mem (by decide))⟩
  | named lead _ list =>
    refine .inr (.inl ⟨_, _, _, _, rfl, lead, list, braced?_append ?_ ?_⟩)
    · exact lead.chars.not_mem (by decide)
    · exact list.chars.not_mem (by decide)
  | @types blanks _ _ blank list =>
    refine .inr (.inr (.inl ⟨_, _, _, rfl, list, braced?_append ?_ ?_⟩))
    · exact Within.not_mem (Within.append (by decide) (wordy_of_blank blank)) (by decide)
    · exact list.chars.not_mem (by decide)
  | star lead blank gap isName =>
    refine .inr (.inr (.inr ⟨_, _, rfl, braced?_of_not_mem ?_⟩))
    rw [List.mem_append, List.mem_cons]
    rintro (member | other | member)
    · exact lead.chars.not_mem (by decide) member
    · cases other
    · have wordy := (wordy_of_blank gap.blank).append isName.wordy
      exact (((wordy_of_blank blank).append (by decide)).append wordy).not_mem (by decide) member

theorem boundNames_eq (written : clause.Written text) : boundNames text = clause.bound := by
  unfold boundNames
  rcases written.braced?_eq with ⟨_, rfl, found⟩ | ⟨_, _, _, _, rfl, _, list, found⟩ |
    ⟨_, _, _, rfl, list, found⟩ | ⟨_, _, rfl, found⟩
  · rw [found]
    rfl
  · rw [found]
    exact list.bound_eq
  · rw [found]
    exact list.bound_eq
  · rw [found]
    rfl

theorem takesNames_eq (written : clause.Written text) : takesNames text = clause.takes := by
  cases written with
  | single isName =>
    exact takesNames_iff.mpr
      ⟨fun begins => isName.no_space (begins.subset (by decide)), isName.chars.not_mem (by decide)⟩
  | named lead unmarked list =>
    refine takesNames_iff.mpr ⟨lead.not_type_append unmarked _, ?_⟩
    simp only [List.mem_append, List.mem_cons, List.not_mem_nil, or_false]
    rintro (member | other | member | other)
    · exact lead.chars.not_mem (by decide) member
    · cases other
    · exact list.chars.not_mem (by decide) member
    · cases other
  | types =>
    rw [Clause.takes, ← Bool.not_eq_true, takesNames_iff, List.append_assoc]
    exact fun both => both.1 (List.prefix_append _ _)
  | star =>
    rw [Clause.takes, ← Bool.not_eq_true, takesNames_iff]
    exact fun both => both.2 (by simp)

theorem merge?_of_not_takes (written : clause.Written text) (refuses : clause.takes = false)
    (names : List Text) : merge? text names = none := by
  have refused := written.takesNames_eq.trans refuses
  simp only [merge?, refused, Bool.false_eq_true, if_false]

/-- Names merged into a clause that takes names are written in it behind those it has. -/
theorem merge?_of_takes (written : clause.Written text) (takes : clause.takes = true)
    {names : List Text} (isName : ∀ name ∈ names, IsName name)
    (unbound : ∀ name ∈ names, name ∉ clause.bound) :
    ∃ merged, merge? text names = some merged ∧ (clause.add names).Written merged := by
  have taken := written.takesNames_eq.trans takes
  cases written with
  | single named =>
    have found : braced? text = none := braced?_of_not_mem (named.chars.not_mem (by decide))
    have list := SpecifierList.ofNames isName
    have lead : Lead (some text) (text ++ [] ++ [',', ' ']) := .some named Blank.nil (by decide)
    have unmarked : ¬ "type ".toList <+: text ++ [] ++ [',', ' '] := by
      rw [List.append_nil]
      exact Text.not_prefix_append (c := ' ') (by decide) (by decide) named.no_space
    refine ⟨text ++ [',', ' '] ++ braces names, ?_, ?_⟩
    · simp only [merge?, taken, if_true, found, named.trim]
    · rw [List.append_nil] at lead unmarked
      rw [braces_eq]
      exact .named lead unmarked list
  | @named lead start inside specifierList leads unmarked list =>
    have found : braced? (start ++ '{' :: (inside ++ ['}'])) = some ⟨start, inside, []⟩ :=
      braced?_append (leads.chars.not_mem (by decide))
        (list.chars.not_mem (by decide))
    -- None of the names is bound, so all of them are added.
    have kept : names.filter
        (fun name => !(boundNames (start ++ '{' :: (inside ++ ['}']))).contains name) = names := by
      rw [Clause.Written.boundNames_eq (.named leads unmarked list)]
      exact List.filter_eq_self.mpr fun name member => by simpa using unbound name member
    refine ⟨start ++ braces (specifiers inside ++ names), ?_, ?_⟩
    · simp only [merge?, taken, if_true, found, kept, List.append_nil]
    · rw [braces_eq]
      exact .named leads unmarked (list.append_names isName)
  | types => cases takes
  | star => cases takes

end Clause.Written

/-! The clause of a text. -/

def Specifier.read (text : Text) : Specifier :=
  match alias? text with
  | some rest => .renamed (text.takeWhile Text.isNameChar) (Text.trim rest)
  | none =>
    match Text.after "type " text with
    | some rest => .typeOnly (Text.trim rest)
    | none => .plain text

def leadOf (start : Text) : Option Text :=
  if start.isEmpty then none else some (start.takeWhile Text.isNameChar)

def Clause.read (text : Text) : Clause :=
  match braced? text with
  | some braced =>
    let list := (specifiers braced.inside).map Specifier.read
    if takesNames text then .named (leadOf braced.before) list else .types list
  | none =>
    if '*' ∈ text then
      .star (leadOf (text.takeWhile (· != '*'))) (text.reverse.takeWhile Text.isNameChar).reverse
    else .single text

theorem stops_of_blank {blanks rest : Text} (blank : Blank blanks)
    (stops : Text.Stops Text.isNameChar rest) : Text.Stops Text.isNameChar (blanks ++ rest) := by
  cases blanks with
  | nil => exact stops
  | cons c others =>
    rintro d ⟨⟩
    exact Text.isNameChar_of_isBlank (blank c List.mem_cons_self)

theorem takeWhile_reverse_name (start : Text) {blanks name : Text} (gap : Gap blanks)
    (isName : IsName name) :
    ((start ++ (blanks ++ name)).reverse.takeWhile Text.isNameChar).reverse = name := by
  -- Read backwards, the blanks in front of the name stop it.
  have blank : Blank blanks.reverse := fun c member => gap.blank c (List.mem_reverse.mp member)
  obtain ⟨c, others, reversed⟩ :=
    List.exists_cons_of_ne_nil (List.reverse_ne_nil_iff.mpr gap.nonempty)
  rw [List.reverse_append, List.reverse_append, List.append_assoc,
    Text.takeWhile_append_of_stops, List.reverse_reverse]
  · exact fun d member => isName.chars d (List.mem_reverse.mp member)
  · rw [reversed]
    rintro d ⟨⟩
    exact Text.isNameChar_of_isBlank (blank c (by simp [reversed]))

theorem Specifier.Written.read_eq {specifier : Specifier} {text : Text}
    (written : specifier.Written text) : Specifier.read text = specifier := by
  unfold Specifier.read
  cases written with
  | plain isName =>
    have plain : alias? text = none := alias?_blank_name Blank.nil isName
    simp only [plain, isName.after_type]
  | @renamed name before behind other isName blankBefore blankBehind isOther =>
    have first : (name ++ before ++ " as " ++ (behind ++ other)).takeWhile Text.isNameChar = name := by
      rw [List.append_assoc, List.append_assoc]
      refine Text.takeWhile_append_of_stops isName.chars (stops_of_blank blankBefore ?_)
      rintro c ⟨⟩
      decide
    simp only [alias?_renamed isName blankBefore blankBehind isOther, first,
      trim_blank_name blankBehind isOther]
  | typeOnly blank isName =>
    simp only [alias?_type blank isName, Text.after_append, trim_blank_name blank isName]

theorem SpecifierList.read_eq {list : List Specifier} {inside : Text}
    (written : SpecifierList list inside) : (specifiers inside).map Specifier.read = list := by
  obtain ⟨pairs, rfl, found, each⟩ := written.specifiers_eq
  rw [found, List.map_map]
  exact List.map_congr_left fun pair member => (each pair member).read_eq

theorem Lead.leadOf_eq {lead : Option Text} {start : Text} (written : Lead lead start) :
    leadOf start = lead := by
  unfold leadOf
  cases written with
  | none => rfl
  | @some name before behind isName blankBefore _ =>
    have first : (name ++ before ++ ',' :: behind).takeWhile Text.isNameChar = name := by
      rw [List.append_assoc]
      refine Text.takeWhile_append_of_stops isName.chars (stops_of_blank blankBefore ?_)
      rintro c ⟨⟩
      decide
    rw [first]
    simp

theorem Clause.Written.read_eq {clause : Clause} {text : Text} (written : clause.Written text) :
    Clause.read text = clause := by
  have taken := written.takesNames_eq
  unfold Clause.read
  rcases written.braced?_eq with ⟨_, rfl, found⟩ | ⟨_, _, _, _, rfl, lead, list, found⟩ |
    ⟨_, _, _, rfl, list, found⟩ | ⟨_, name, rfl, found⟩
  · cases written with
    | single isName =>
      have noStar : '*' ∉ text := isName.chars.not_mem (by decide)
      simp only [found, noStar, if_false]
  · simp only [found, taken, Clause.takes, if_true, lead.leadOf_eq, list.read_eq]
  · simp only [found, taken, Clause.takes, Bool.false_eq_true, if_false, list.read_eq]
  · cases written with
    | @star _ start before behind _ leads _ gap isName =>
      have noStar : ∀ c ∈ start, (c != '*') = true := by
        intro c member
        refine bne_iff_ne.mpr ?_
        rintro rfl
        exact leads.chars.not_mem (by decide) member
      have first : (start ++ '*' :: (before ++ "as" ++ (behind ++ name))).takeWhile (· != '*') =
          start :=
        Text.takeWhile_append_of_stops noStar (by rintro c ⟨⟩; decide)
      have last := takeWhile_reverse_name (start ++ '*' :: (before ++ "as")) gap isName
      rw [List.append_assoc, List.cons_append] at last
      simp only [found, first, last, leads.leadOf_eq]
      simp

end OptionsApi.Import
