import OptionsApi.Proofs.Import.Outcome

/-! Which statements are written into. Ensuring names changes a text at one place at most: in the clause
of the first import that takes names, or where a new import is put. Type imports and namespace imports
are to be left alone; the statements of these kinds that are not are told apart here. -/

set_option autoImplicit false

namespace OptionsApi.Import

open Text (Blank Within)

/-! Edits. -/

structure Edit where
  before : Text
  removed : Text
  inserted : Text
  behind : Text
  deriving DecidableEq, Repr

namespace Edit

def source (edit : Edit) : Text := edit.before ++ edit.removed ++ edit.behind

def result (edit : Edit) : Text := edit.before ++ edit.inserted ++ edit.behind

/-- Whether the edit reaches into the part of its source with the given start and length. -/
def Touches (edit : Edit) (start length : Nat) : Prop :=
  start < (edit.before ++ edit.removed).length ∧ edit.before.length < start + length

instance (edit : Edit) (start length : Nat) : Decidable (edit.Touches start length) :=
  inferInstanceAs (Decidable (_ ∧ _))

theorem kept_of_not_touches {edit : Edit} {left part right : Text}
    (whole : edit.source = left ++ part ++ right) (apart : ¬ edit.Touches left.length part.length) :
    (∃ behind, edit.result = left ++ part ++ behind) ∨ ∃ before, edit.result = before ++ part ++ right := by
  unfold Touches at apart
  unfold source at whole
  unfold result
  by_cases first : left.length + part.length ≤ edit.before.length
  · left
    rw [← List.length_append] at first
    rw [List.append_assoc] at whole
    obtain ⟨inner, same⟩ := List.prefix_of_prefix_length_le ⟨right, whole.symm⟩
      (List.prefix_append edit.before _) first
    exact ⟨inner ++ edit.inserted ++ edit.behind, by rw [← same]; simp⟩
  · right
    have last : (edit.before ++ edit.removed).length ≤ left.length := by omega
    rw [List.append_assoc left] at whole
    obtain ⟨inner, same⟩ := List.prefix_of_prefix_length_le ⟨edit.behind, rfl⟩
      (whole ▸ List.prefix_append left _) last
    rw [← same, List.append_assoc (edit.before ++ edit.removed)] at whole
    have behind := List.append_cancel_left whole
    exact ⟨edit.before ++ edit.inserted ++ inner, by rw [behind]; simp⟩

end Edit

def insertEdit (line text : Text) : Edit :=
  let place := insertion line text
  ⟨text.take place.1, [], place.2, text.drop place.1⟩

def ensureEdit (moduleName : Text) (names : List Text) (text : Text) : Edit :=
  let found := pieces .binding text
  let missing := missingNames moduleName names found
  if missing.isEmpty then ⟨text, [], [], []⟩
  else
    match cutAtTaker? moduleName found with
    | some (left, ⟨head, some (clause, joint), target⟩, right) =>
      ⟨textOf left ++ head, clause, (merge? clause missing).getD clause,
        joint ++ target.text ++ textOf right⟩
    | _ => insertEdit (newStatement moduleName missing) text

section
variable {moduleName text : Text} {names : List Text}

theorem ensureEdit_of_bound (bound : missingNames moduleName names (pieces .binding text) = []) :
    ensureEdit moduleName names text = ⟨text, [], [], []⟩ := by
  simp [ensureEdit, bound]

theorem ensureEdit_of_no_taker (missing : missingNames moduleName names (pieces .binding text) ≠ [])
    (refuse : ∀ piece ∈ pieces .binding text, piece.takes moduleName = false) :
    ensureEdit moduleName names text = insertEdit
      (newStatement moduleName (missingNames moduleName names (pieces .binding text))) text := by
  rw [ensureEdit, cutAtTaker?_of_not_takes refuse, if_neg (by simpa using missing)]

theorem ensureEdit_of_taker (missing : missingNames moduleName names (pieces .binding text) ≠ [])
    {left right : List Piece} {head clause joint : Text} {target : Target}
    (found : pieces .binding text = left ++ .statement ⟨head, some (clause, joint), target⟩ :: right)
    (refuse : ∀ piece ∈ left, piece.takes moduleName = false)
    (takes : Piece.takes moduleName (.statement ⟨head, some (clause, joint), target⟩) = true) :
    ensureEdit moduleName names text =
      ⟨textOf left ++ head, clause,
        (merge? clause (missingNames moduleName names (pieces .binding text))).getD clause,
        joint ++ target.text ++ textOf right⟩ := by
  have cut : cutAtTaker? moduleName (pieces .binding text) =
      some (left, ⟨head, some (clause, joint), target⟩, right) := by
    rw [found]
    exact cutAtTaker?_of_takes refuse takes
  rw [ensureEdit, if_neg (by simpa using missing), cut]

/-- Ensuring the names is making the edit. -/
theorem ensureEdit_eq (moduleName : Text) (names : List Text) (text : Text) :
    (ensureEdit moduleName names text).source = text ∧
      (ensureEdit moduleName names text).result = (ensure moduleName names text).text := by
  by_cases missing : missingNames moduleName names (pieces .binding text) = []
  · rw [ensureEdit_of_bound missing]
    simp [Edit.source, Edit.result, ensure, missing]
  · have nonempty : (missingNames moduleName names (pieces .binding text)).isEmpty = false := by
      simpa using missing
    rcases mergeInto?_cases moduleName (missingNames moduleName names (pieces .binding text))
        (pieces .binding text) with ⟨unmerged, refuse⟩ |
      ⟨left, head, clause, joint, target, right, merged, cut, refuse, same, takes, found, result⟩
    · rw [ensureEdit_of_no_taker missing refuse]
      refine ⟨by simp [Edit.source, insertEdit], ?_⟩
      have put := take_insertion_append
        (newStatement moduleName (missingNames moduleName names (pieces .binding text))) text
      simp only [Edit.result, insertEdit, ensure, nonempty, unmerged, Bool.false_eq_true, if_false, put]
    · have taken : Piece.takes moduleName (.statement ⟨head, some (clause, joint), target⟩) = true := by
        simp [Piece.takes, same, takes]
      have whole := textOf_pieces .binding text
      rw [ensureEdit_of_taker missing cut refuse taken, found]
      constructor
      · rw [cut, textOf_append, textOf_cons] at whole
        simpa [Edit.source, Piece.text, Statement.text] using whole
      · simp only [Edit.result, ensure, nonempty, result, Bool.false_eq_true, if_false]
        simp [textOf_append, Piece.text, Statement.text]

end

/-! Where a statement is touched. -/

theorem position_cases {left right before behind : List Piece} {one other : Piece}
    (same : left ++ one :: right = before ++ other :: behind) :
    (left = before ∧ one = other) ∨ (∃ middle, before = left ++ one :: middle) ∨
      ∃ middle, left = before ++ other :: middle := by
  rcases List.append_eq_append_iff.mp same with ⟨inner, rfl, tail⟩ | ⟨inner, rfl, tail⟩
  · cases inner with
    | nil => exact .inl ⟨(List.append_nil left).symm, (List.cons.inj tail).1⟩
    | cons first middle => exact .inr (.inl ⟨middle, by rw [(List.cons.inj tail).1]⟩)
  · cases inner with
    | nil => exact .inl ⟨List.append_nil before, (List.cons.inj tail).1.symm⟩
    | cons first middle => exact .inr (.inr ⟨middle, by rw [(List.cons.inj tail).1]⟩)

section
variable {moduleName text : Text} {names : List Text} {left right : List Piece} {statement : Statement}

theorem touches_taker_iff (missing : missingNames moduleName names (pieces .binding text) ≠ [])
    {before behind : List Piece} {head clause joint : Text} {target : Target}
    (found : pieces .binding text = before ++ .statement ⟨head, some (clause, joint), target⟩ :: behind)
    (refuse : ∀ piece ∈ before, piece.takes moduleName = false)
    (takes : Piece.takes moduleName (.statement ⟨head, some (clause, joint), target⟩) = true)
    (cut : pieces .binding text = left ++ .statement statement :: right) :
    (ensureEdit moduleName names text).Touches (textOf left).length statement.text.length ↔
      Piece.takes moduleName (.statement statement) = true ∧
        ∀ piece ∈ left, piece.takes moduleName = false := by
  have clauses := (isClause_of_piecesFrom found).ne_nil
  have length : (Statement.text ⟨head, some (clause, joint), target⟩).length =
      head.length + clause.length + joint.length + target.text.length := by
    simp [Statement.text, Nat.add_assoc]
  have positive : 0 < clause.length ∧ 0 < target.text.length :=
    ⟨List.length_pos_iff.mpr clauses, by simp [Target.text]⟩
  rw [ensureEdit_of_taker missing found refuse takes]
  simp only [Edit.Touches, List.length_append]
  rcases position_cases (cut.symm.trans found) with ⟨rfl, here⟩ | ⟨middle, rfl⟩ | ⟨middle, rfl⟩
  · injection here with here
    subst here
    refine ⟨fun _ => ⟨takes, refuse⟩, fun _ => ?_⟩
    rw [length]
    omega
  · -- The names go to a later statement.
    have refused := refuse _ (List.mem_append_right left List.mem_cons_self)
    simp only [textOf_append, textOf_cons, Piece.text, List.length_append]
    refine ⟨fun touched => ?_, fun taken => ?_⟩
    · omega
    · rw [refused] at taken
      cases taken.1
  · simp only [textOf_append, textOf_cons, Piece.text, List.length_append, length]
    refine ⟨fun touched => ?_, fun taken => ?_⟩
    · omega
    · rw [taken.2 _ (List.mem_append_right before List.mem_cons_self)] at takes
      cases takes

theorem lineFeed_not_at_ends (cut : pieces .binding text = left ++ .statement statement :: right) :
    (∃ c rest, statement.text = c :: rest ∧ c ≠ '\n') ∧
      ∃ start c, statement.text = start ++ [c] ∧ c ≠ '\n' := by
  obtain ⟨found, _⟩ := read?_of_piecesFrom cut
  obtain ⟨indentation, _, clause, joint, _, parts, _⟩ := Statement.read?_eq_some found
  obtain ⟨_, closes, ends⟩ := Statement.read?_target found
  constructor
  · rw [parts.text, parts.head]
    cases indentation with
    | nil => exact ⟨'i', _, rfl, by decide⟩
    | cons c others =>
      refine ⟨c, _, rfl, ?_⟩
      rintro rfl
      exact absurd (parts.inline '\n' List.mem_cons_self) (by decide)
  · have single : '\n' ∉ statement.target.closing :: statement.target.ending :=
      List.not_mem_cons_of_ne_of_not_mem (ne_lineFeed_of_isQuote closes).symm ends.single
    have nonempty := List.cons_ne_nil statement.target.closing statement.target.ending
    refine ⟨statement.head ++ clause ++ joint ++
      statement.target.opening :: statement.target.moduleName ++
      (statement.target.closing :: statement.target.ending).dropLast,
      (statement.target.closing :: statement.target.ending).getLast nonempty, ?_, ?_⟩
    · rw [List.append_assoc, List.dropLast_concat_getLast nonempty, parts.text]
      simp [Target.text]
    · intro feed
      exact single (feed ▸ List.getLast_mem nonempty)

theorem touches_insertion_iff (line : Text)
    (cut : pieces .binding text = left ++ .statement statement :: right) :
    (insertEdit line text).Touches (textOf left).length statement.text.length ↔
      ∃ offset, behindLast? (pieces .any text) = some offset ∧ (textOf left).length < offset ∧
        offset < (textOf left).length + statement.text.length := by
  have inside : (text.take (insertion line text).1).length = (insertion line text).1 := by
    rw [List.length_take]
    exact Nat.min_eq_left (insertion_le line text)
  rw [Edit.Touches, insertEdit, List.append_nil, inside]
  generalize shape : insertion line text = place
  unfold insertion at shape
  cases last : behindLast? (pieces .any text) with
  | none =>
    rw [last] at shape
    subst shape
    simp
  | some offset =>
    rw [last] at shape
    dsimp only at shape
    have whole := textOf_pieces .binding text
    rw [cut, textOf_append, textOf_cons, Piece.text] at whole
    obtain ⟨⟨first, others, starts, notFirst⟩, start, final, ends, notLast⟩ := lineFeed_not_at_ends cut
    split at shape
    next feed =>
      -- The new line goes behind the line feed. A statement has none at its ends, so the step over it
      -- leads neither into a statement nor out of one.
      have before : offset ≠ (textOf left).length := by
        rintro rfl
        rw [← whole, List.drop_left, starts] at feed
        exact notFirst (Option.some.inj feed)
      have behind : offset + 1 ≠ (textOf left).length + statement.text.length := by
        intro same
        have reached : offset = (textOf left ++ start).length := by
          rw [ends, List.length_append, List.length_singleton] at same
          rw [List.length_append]
          omega
        rw [← whole, ends, List.append_assoc, ← List.append_assoc, reached, List.drop_left] at feed
        exact notLast (Option.some.inj feed)
      subst shape
      simp only [Option.some.injEq, exists_eq_left']
      omega
    next =>
      subst shape
      simp

/-- A statement is touched if names are missing and it is the first that takes them, or if none does
and the place for a new statement lies inside of it. -/
theorem touches_iff (moduleName : Text) (names : List Text)
    (cut : pieces .binding text = left ++ .statement statement :: right) :
    (ensureEdit moduleName names text).Touches (textOf left).length statement.text.length ↔
      missingNames moduleName names (pieces .binding text) ≠ [] ∧
      ((Piece.takes moduleName (.statement statement) = true ∧
          ∀ piece ∈ left, piece.takes moduleName = false) ∨
        (∀ piece ∈ pieces .binding text, piece.takes moduleName = false) ∧
          ∃ offset, behindLast? (pieces .any text) = some offset ∧ (textOf left).length < offset ∧
            offset < (textOf left).length + statement.text.length) := by
  by_cases missing : missingNames moduleName names (pieces .binding text) = []
  · have whole := congrArg List.length (textOf_pieces .binding text)
    rw [cut, textOf_append, textOf_cons, Piece.text, List.length_append, List.length_append] at whole
    rw [ensureEdit_of_bound missing]
    simp only [Edit.Touches, missing, ne_eq, not_true_eq_false, false_and, iff_false]
    omega
  · rw [and_iff_right missing]
    rcases mergeInto?_cases moduleName (missingNames moduleName names (pieces .binding text))
        (pieces .binding text) with ⟨_, refuse⟩ |
      ⟨before, head, clause, joint, target, behind, merged, found, refuse, same, takes, _, _⟩
    · have refused := refuse (.statement statement) (by simp [cut])
      rw [ensureEdit_of_no_taker missing refuse, touches_insertion_iff _ cut, and_iff_right refuse,
        refused]
      simp
    · have taken : Piece.takes moduleName (.statement ⟨head, some (clause, joint), target⟩) = true := by
        simp [Piece.takes, same, takes]
      have others : ¬ ∀ piece ∈ pieces .binding text, piece.takes moduleName = false := by
        intro refused
        rw [refused _ (by rw [found]; simp)] at taken
        cases taken
      rw [touches_taker_iff missing found refuse taken cut]
      simp [others]

end

/-! Imports that are to be left alone. -/

/-- Whether a clause imports types only: the marker, and then braces or a name other than the keyword
that names the module. Any blanks may stand between them, and none are needed in front of braces. -/
def isTypeOnly (clause : Text) : Bool :=
  match Text.after ['t', 'y', 'p', 'e'] clause with
  | some rest =>
    let name := (rest.dropWhile Text.isBlank).takeWhile Text.isNameChar
    (rest.dropWhile Text.isBlank).head? = some '{' ||
      rest.head?.any Text.isBlank && !name.isEmpty && name ≠ ['f', 'r', 'o', 'm']
  | none => false

/-- The marker is seen only with a space right behind it. -/
theorem takesNames_of_isTypeOnly {clause : Text} (typeOnly : isTypeOnly clause = true) :
    takesNames clause = true ↔ '*' ∉ clause ∧ (clause.drop 4).head? ≠ some ' ' := by
  unfold isTypeOnly at typeOnly
  split at typeOnly
  next rest found =>
    rw [← Text.append_of_after found, takesNames_iff, and_comm]
    refine and_congr_right' (not_congr ?_)
    change ['t', 'y', 'p', 'e', ' '] <+: 't' :: 'y' :: 'p' :: 'e' :: rest ↔ rest.head? = some ' '
    cases rest with
    | nil => simp
    | cons c others => simp [eq_comm]
  next => cases typeOnly

/-- A type import or a namespace import is written into if and only if names are missing and either it
is a type import of the module, without a space right behind the marker and with no import before it
that takes names, or there is no import that takes names and the last statement of all ends inside of
it. Otherwise its text is still there, with all that was before it or all that was behind it. -/
theorem touched_iff {moduleName text : Text} {names : List Text} {left right : List Piece}
    {statement : Statement} {clause joint : Text}
    (cut : pieces .binding text = left ++ .statement statement :: right)
    (clauses : statement.clause = some (clause, joint))
    (kind : isTypeOnly clause = true ∨ '*' ∈ clause) :
    let edit := ensureEdit moduleName names text
    let result := (ensure moduleName names text).text
    let touched := edit.Touches (textOf left).length statement.text.length
    edit.source = text ∧ edit.result = result ∧
    (touched ↔ missingNames moduleName names (pieces .binding text) ≠ [] ∧
      (statement.target.moduleName = moduleName ∧ '*' ∉ clause ∧ (clause.drop 4).head? ≠ some ' ' ∧
          (∀ piece ∈ left, piece.takes moduleName = false) ∨
        (∀ piece ∈ pieces .binding text, piece.takes moduleName = false) ∧
          ∃ offset, behindLast? (pieces .any text) = some offset ∧ (textOf left).length < offset ∧
            offset < (textOf left).length + statement.text.length)) ∧
    (¬ touched → (∃ behind, result = textOf left ++ statement.text ++ behind) ∨
      ∃ before, result = before ++ statement.text ++ textOf right) := by
  intro edit result touched
  obtain ⟨source, made⟩ := ensureEdit_eq moduleName names text
  have taker : Piece.takes moduleName (.statement statement) = true ↔
      statement.target.moduleName = moduleName ∧ '*' ∉ clause ∧ (clause.drop 4).head? ≠ some ' ' := by
    obtain ⟨head, _, target⟩ := statement
    cases clauses
    rw [Piece.takes, Bool.and_eq_true, decide_eq_true_eq]
    refine and_congr_right fun _ => ?_
    rcases kind with typeOnly | star
    · exact takesNames_of_isTypeOnly typeOnly
    · have refused : takesNames clause = false := by
        rw [← Bool.not_eq_true, takesNames_iff]
        exact fun both => both.2 star
      simp [refused, star]
  refine ⟨source, made, ?_, ?_⟩
  · have general := touches_iff moduleName names cut
    rw [taker] at general
    simpa only [and_assoc] using general
  · intro apart
    have whole := textOf_pieces .binding text
    rw [cut, textOf_append, textOf_cons, Piece.text, ← List.append_assoc] at whole
    have kept := Edit.kept_of_not_touches (source.trans whole.symm) apart
    rwa [made] at kept

def guardedImports : Text :=
  "import type\n\x7b A \x7d from 'n'\nimport D, * as N from 'm'\nimport b from 'm'\n"

def namespaceImport : Statement :=
  ⟨"import ", some ("D, * as N", " from "), ⟨'\'', ['m'], '\'', []⟩⟩

theorem namespaceImport_untouched :
    let left := (pieces .binding guardedImports).take 2
    let right := (pieces .binding guardedImports).drop 3
    let result := (ensure ['m'] [['b'], ['c']] guardedImports).text
    pieces .binding guardedImports = left ++ .statement namespaceImport :: right ∧
      ¬ (ensureEdit ['m'] [['b'], ['c']] guardedImports).Touches (textOf left).length
        namespaceImport.text.length ∧
      ((∃ behind, result = textOf left ++ namespaceImport.text ++ behind) ∨
        ∃ before, result = before ++ namespaceImport.text ++ textOf right) := by
  intro left right result
  have cut : pieces .binding guardedImports = left ++ .statement namespaceImport :: right := by
    decide +kernel
  obtain ⟨_, _, touched, kept⟩ := @touched_iff ['m'] guardedImports [['b'], ['c']] left right
    namespaceImport "D, * as N" " from " cut rfl (.inr (by decide))
  have apart := mt touched.mp (by decide +kernel)
  exact ⟨cut, apart, kept apart⟩

/-- A name is merged into a type import whose marker stands right in front of the braces, and a new
statement is put into a namespace import in which a quote of an earlier line is closed. -/
theorem guarded_imports_touched :
    isTypeOnly "type\x7b A \x7d" = true ∧
      (ensure ['m'] [['B']] "import type\x7b A \x7d from 'm'\n").text =
        "import type\x7b A, B \x7d from 'm'\n".toList ∧
      (ensure ['m'] [['x']] "/*\nimport 'a\n*/\nimport * as N from \"b\"\n").text =
        "/*\nimport 'a\n*/\nimport * as N from \"\nimport \x7b x \x7d from 'm';\nb\"\n".toList := by
  decide +kernel

end OptionsApi.Import
