import OptionsApi.Proofs.Import.Merging

/-! Adding names to an import section. Missing names go into an import that takes them, or a new import
is put behind the last one. Either way the text is an import section again, of the old declarations
with the missing names added, and then nothing is missing any more. -/

set_option autoImplicit false

namespace OptionsApi.Import

/-! A new import. -/

def newDeclaration (moduleName : Text) (names : List Text) : Declaration :=
  ⟨moduleName, some (.named none (names.map .plain))⟩

theorem newStatement_eq (moduleName : Text) (names : List Text) :
    newStatement moduleName names =
      [] ++ "import".toList ++ [' '] ++ (braces names ++ ([' '] ++ "from".toList ++ [' '] ++
        ('\'' :: moduleName ++ ['\'']))) ++ [';'] ++ ['\n'] := by
  change ['i', 'm', 'p', 'o', 'r', 't', ' '] ++ braces names ++
      [' ', 'f', 'r', 'o', 'm', ' ', '\''] ++ moduleName ++ ['\'', ';', '\n'] =
    [] ++ ['i', 'm', 'p', 'o', 'r', 't'] ++ [' '] ++ (braces names ++
      ([' '] ++ ['f', 'r', 'o', 'm'] ++ [' '] ++ ('\'' :: moduleName ++ ['\'']))) ++ [';'] ++ ['\n']
  generalize braces names = inside
  simp only [List.append_assoc, List.cons_append, List.nil_append]

theorem newDeclaration_written {moduleName : Text} (named : IsModuleName moduleName)
    {names : List Text} (isName : ∀ name ∈ names, IsName name) :
    ∃ text, (newDeclaration moduleName names).Written text ∧
      newStatement moduleName names = text ++ [';'] ++ ['\n'] := by
  have clause : (Clause.named none (names.map .plain)).Written (braces names) := by
    have unmarked : ¬ "type ".toList <+: ([] : Text) := fun begins =>
      absurd (List.prefix_nil.mp begins) (by decide)
    rw [braces_eq]
    exact .named .none unmarked (SpecifierList.ofNames isName)
  have space : Gap [' '] := ⟨by decide, by decide⟩
  have inline : InlineBlank [] := by decide
  have quoted : isQuote '\'' = true := by decide
  exact ⟨_, .binding inline space clause space space quoted named, newStatement_eq moduleName names⟩

theorem insertBehindLast?_chars (line text : Text) :
    insertBehindLast? line (text.map Piece.char) = none := by
  induction text with
  | nil => rfl
  | cons c rest ih => simp [insertBehindLast?, ih]

theorem insertBehindLast?_append {line result : Text} {right : List Piece}
    (found : insertBehindLast? line right = some result) (left : List Piece) :
    insertBehindLast? line (left ++ right) = some (textOf left ++ result) := by
  induction left with
  | nil => exact found
  | cons piece rest ih => simp [insertBehindLast?, ih]

theorem quiet_lineFeed {text : Text} (quiet : Quiet text) : Quiet ('\n' :: text) := by
  have unstarted : startsImport ('\n' :: text) = false :=
    (startsImport_line [] text []).trans (by decide)
  simpa [Quiet, quietFrom, unstarted] using quiet

theorem lineFeed_dropLineFeed (rest : Text) :
    '\n' :: dropLineFeed rest = rest ∨ '\n' :: dropLineFeed rest = '\n' :: rest := by
  unfold dropLineFeed
  split
  next => exact .inl rfl
  next => exact .inr rfl

theorem Ends.lineFeed {ending behind : Text} (ends : Ends ending behind) : Ends ending ['\n'] := by
  cases ends with
  | semicolon _ inline => exact .semicolon _ inline
  | bare inline => exact .bare inline (by rintro c ⟨⟩; decide)

section
variable {rest text moduleName : Text} {declarations : List Declaration} {names : List Text}

theorem ImportSection.insertBehindLast?_eq (written : ImportSection rest declarations text)
    (nonempty : declarations ≠ []) (named : IsModuleName moduleName)
    (isName : ∀ name ∈ names, IsName name) :
    ∃ result behind,
      insertBehindLast? (newStatement moduleName names) (pieces .any text) = some result ∧
      (behind = rest ∨ behind = '\n' :: rest) ∧
      ImportSection behind (declarations ++ [newDeclaration moduleName names]) result := by
  unfold pieces
  induction written with
  | none => exact absurd rfl nonempty
  | last here ends quiet =>
    obtain ⟨statement, found, same, _⟩ := here.read?_any ends
    obtain ⟨whole, wholeWritten, line⟩ := newDeclaration_written named isName
    -- The new line stands between the last import and the rest, which begins at a line feed now.
    have quietBehind : Quiet ('\n' :: dropLineFeed rest) := by
      rcases lineFeed_dropLineFeed rest with kept | given
      · rwa [kept]
      · rw [given]
        exact quiet_lineFeed quiet
    have added : ImportSection ('\n' :: dropLineFeed rest) [newDeclaration moduleName names]
        (whole ++ [';'] ++ '\n' :: dropLineFeed rest) :=
      .last wholeWritten (@Ends.semicolon [] _ (by decide))
        quietBehind
    have whole := @ImportSection.cons _ _ _ _ _ [] _ here ends.lineFeed (by decide) (by simp) added
    refine ⟨_, _, ?_, lineFeed_dropLineFeed rest, whole⟩
    rw [piecesFrom_of_read? found, pieces_rest quiet]
    simp [insertBehindLast?, insertBehindLast?_chars, textOf_chars, same, line]
  | @cons _ _ _ _ gap tail here ends quiet others _ ih =>
    obtain ⟨statement, found, same, _⟩ := here.read?_any (ends.tail tail)
    obtain ⟨result, behind, inserted, kept, written⟩ := ih others
    refine ⟨_, behind, ?_, kept, .cons here ends quiet (by simp) written⟩
    have moved := insertBehindLast?_append inserted
      (.statement statement :: (gap ++ ['\n']).map Piece.char)
    rw [textOf_cons, textOf_chars, Piece.text, same] at moved
    rw [piecesFrom_of_read? found, pieces_gap quiet]
    simpa using moved

/-! What is bound when the names are added. -/

theorem Clause.bound_add {clause : Clause} (takes : clause.takes = true) (names : List Text) :
    (clause.add names).bound = clause.bound ++ names := by
  have plain : Specifier.bound ∘ Specifier.plain = id := rfl
  cases clause with
  | single name => simp [Clause.add, Clause.bound, plain]
  | named lead list => simp [Clause.add, Clause.bound, plain]
  | types => cases takes
  | star => cases takes

theorem mem_boundIn_modify {index : Nat}
    (found : declarations.findIdx? (Declaration.takes moduleName) = some index) (name : Text) :
    name ∈ boundIn moduleName (declarations.modify index (Declaration.add names)) ↔
      name ∈ boundIn moduleName declarations ∨ name ∈ names := by
  induction declarations generalizing index with
  | nil => cases found
  | cons declaration rest ih =>
    rw [List.findIdx?_cons] at found
    split at found
    next takes =>
      cases found
      obtain ⟨own, clause⟩ := declaration
      cases clause with
      | none => simp [Declaration.takes] at takes
      | some clause =>
        simp only [Declaration.takes, Option.any_some, Bool.and_eq_true, decide_eq_true_eq] at takes
        obtain ⟨rfl, takes⟩ := takes
        have before : boundIn own [⟨own, some clause⟩] = clause.bound := by simp [boundIn]
        have behind : boundIn own [Declaration.add names ⟨own, some clause⟩] = clause.bound ++ names := by
          simp [boundIn, Declaration.add, Clause.bound_add takes]
        change name ∈ boundIn own (Declaration.add names _ :: rest) ↔ _
        rw [boundIn_cons, behind, boundIn_cons own ⟨own, some clause⟩, before]
        simp only [List.mem_append]
        exact or_right_comm
    next =>
      obtain ⟨inner, later, rfl⟩ := Option.map_eq_some_iff.mp found
      change name ∈ boundIn moduleName (declaration :: rest.modify inner _) ↔ _
      rw [boundIn_cons, boundIn_cons moduleName declaration rest, List.mem_append, List.mem_append,
        ih later, or_assoc]

theorem mem_missingIn {name : Text} :
    name ∈ missingIn moduleName names declarations ↔
      name ∈ names ∧ name ∉ boundIn moduleName declarations := by
  simp [missingIn]

theorem mem_boundIn_adding {name : Text} (requested : name ∈ names) :
    name ∈ boundIn moduleName (adding moduleName names declarations) := by
  have known : name ∈ boundIn moduleName declarations ∨
      name ∈ missingIn moduleName names declarations := by
    by_cases bound : name ∈ boundIn moduleName declarations
    · exact .inl bound
    · exact .inr (mem_missingIn.mpr ⟨requested, bound⟩)
  unfold adding
  dsimp only
  split
  next empty =>
    rw [List.isEmpty_iff.mp empty] at known
    exact known.resolve_right List.not_mem_nil
  next =>
    split
    next index found => exact (mem_boundIn_modify found name).mpr known
    next =>
      have plain : Specifier.bound ∘ Specifier.plain = id := rfl
      rw [boundIn_append, List.mem_append]
      refine known.imp_right fun missing => ?_
      simpa [boundIn, Clause.bound, plain] using missing

end

/-! The text in which the names are imported. -/

section
variable {rest text moduleName : Text} {declarations : List Declaration} {names : List Text}

theorem isName_of_mem_missingIn (isName : ∀ name ∈ names, IsName name) :
    ∀ name ∈ missingIn moduleName names declarations, IsName name :=
  fun name member => isName name (mem_missingIn.mp member).1

/-- The result is an import section again, of the declarations with the missing names added. -/
theorem ImportSection.ensure_section (written : ImportSection rest declarations text)
    (named : IsModuleName moduleName) (isName : ∀ name ∈ names, IsName name) :
    ∃ behind, (behind = rest ∨ behind = '\n' :: rest) ∧
      ImportSection behind (adding moduleName names declarations)
        (ensure moduleName names text).text := by
  let missing := missingIn moduleName names declarations
  have allNames : ∀ name ∈ missing, IsName name := isName_of_mem_missingIn isName
  have unbound : ∀ name ∈ missing, name ∉ boundIn moduleName declarations :=
    fun name member => (mem_missingIn.mp member).2
  have merging := written.mergeInto?_eq allNames unbound
  -- Both sides make the same choice: nothing is missing, an import takes the names, or none does.
  unfold ensure adding
  dsimp only
  rw [written.missingNames_eq]
  by_cases empty : missing.isEmpty = true
  · rw [if_pos empty, if_pos empty]
    exact ⟨rest, .inl rfl, written⟩
  rw [if_neg empty, if_neg empty]
  cases index : declarations.findIdx? (Declaration.takes moduleName) with
  | some first =>
    rw [index] at merging
    obtain ⟨parts, merged, added⟩ := merging
    rw [merged]
    exact ⟨rest, .inl rfl, added⟩
  | none =>
    rw [index] at merging
    rw [show mergeInto? moduleName missing (pieces .binding text) = .none from merging]
    by_cases bare : declarations = []
    -- Without any import the new one stands at the start of the text.
    · subst bare
      cases written with
      | none quiet =>
        obtain ⟨whole, wholeWritten, line⟩ := newDeclaration_written named allNames
        have unfound : insertBehindLast? (newStatement moduleName missing) (pieces .any rest) = .none := by
          rw [pieces, pieces_rest quiet, insertBehindLast?_chars]
        have added : ImportSection ('\n' :: rest) [newDeclaration moduleName missing]
            (whole ++ [';'] ++ '\n' :: rest) :=
          .last wholeWritten (@Ends.semicolon [] _ (by decide))
            (quiet_lineFeed quiet)
        refine ⟨'\n' :: rest, .inr rfl, ?_⟩
        dsimp only
        rw [unfound, Option.getD_none, line, List.append_assoc _ ['\n']]
        exact added
    · obtain ⟨result, behind, inserted, kept, added⟩ :=
        written.insertBehindLast?_eq bare named allNames
      refine ⟨behind, kept, ?_⟩
      dsimp only
      rw [inserted]
      exact added

theorem ImportSection.ensure_of_bound (written : ImportSection rest declarations text)
    (bound : ∀ name ∈ names, name ∈ boundIn moduleName declarations) :
    ensure moduleName names text = ⟨text, .unchanged⟩ := by
  have nothing : missingIn moduleName names declarations = [] := by
    rw [List.eq_nil_iff_forall_not_mem]
    intro name member
    obtain ⟨requested, unbound⟩ := mem_missingIn.mp member
    exact unbound (bound name requested)
  rw [ensure, written.missingNames_eq, nothing]
  rfl

/-- Making sure of names adds those that are missing. In every import section each requested name is
then bound by the braces of an import of the module; the result is an import section of the old
declarations with the missing names added, and of no others, before the same rest; and making sure
of the names again changes nothing. -/
theorem ensure_adds_missing (written : ImportSection rest declarations text)
    (named : IsModuleName moduleName) (isName : ∀ name ∈ names, IsName name) :
    let result := (ensure moduleName names text).text
    let added := adding moduleName names declarations
    (∀ name ∈ names, ∃ declaration ∈ added, declaration.moduleName = moduleName ∧
      ∃ clause, declaration.clause = some clause ∧ name ∈ clause.bound) ∧
    (∃ behind, (behind = rest ∨ behind = '\n' :: rest) ∧ ImportSection behind added result) ∧
    (∀ behind others, ImportSection behind others result → others = added) ∧
    ensure moduleName names result = ⟨result, .unchanged⟩ := by
  intro result added
  have bound : ∀ name ∈ names, name ∈ boundIn moduleName added := fun _ => mem_boundIn_adding
  obtain ⟨behind, kept, again⟩ := written.ensure_section named isName
  refine ⟨?_, ⟨behind, kept, again⟩, ?_, again.ensure_of_bound bound⟩
  · intro name requested
    obtain ⟨declaration, member, inside⟩ := List.mem_flatMap.mp (bound name requested)
    split at inside
    next same =>
      cases clause : declaration.clause with
      | none => simp [clause] at inside
      | some found =>
        refine ⟨declaration, member, same, found, clause, ?_⟩
        simpa [clause] using inside
    next => cases inside
  · intro other others denotes
    exact denotes.unique again

end

def mixedImports : Text :=
  "import 's'\nimport * as N from 'm'\n\timport from, " ++
    "\x7b\n  a as b,\n  type c,\n\x7d from \"m\" ;\n\nlet x"

def mixedDeclarations : List Declaration :=
  [⟨['s'], none⟩, ⟨['m'], some (.star none ['N'])⟩,
    ⟨['m'], some (.named (some ['f', 'r', 'o', 'm'])
      [.renamed ['a'] ['b'], .typeOnly ['c']])⟩]

theorem mixedImports_written :
    ImportSection ['\n', '\n', 'l', 'e', 't', ' ', 'x'] mixedDeclarations mixedImports := by
  have space : Gap [' '] := ⟨by decide, by decide⟩
  have specifiers : SpecifierList [.renamed ['a'] ['b'], .typeOnly ['c']] _ :=
    @SpecifierList.cons _ _ ['\n', ' ', ' '] _ [] _ (by decide)
      (@Specifier.Written.renamed ['a'] [] [] ['b'] (by decide) (by decide) (by decide) (by decide))
      (by decide)
      (@SpecifierList.cons _ _ ['\n', ' ', ' '] _ [] ['\n'] (by decide)
        (@Specifier.Written.typeOnly [] ['c'] (by decide) (by decide)) (by decide)
        (.nil (by decide)))
  have lead : Lead (some ['f', 'r', 'o', 'm']) _ :=
    @Lead.some ['f', 'r', 'o', 'm'] [] [' '] (by decide) (by decide) (by decide)
  have last : ImportSection ['\n', '\n', 'l', 'e', 't', ' ', 'x'] [_] _ :=
    .last (@Declaration.Written.binding ['\t'] [' '] _ [' '] [' '] ['m'] _ '"' (by decide) space
      (.named lead (by decide) specifiers) space space (by decide) (by decide))
      (@Ends.semicolon [' '] _ (by decide)) (by decide)
  have star : Clause.Written (.star none ['N']) _ :=
    @Clause.Written.star none [] [' '] [' '] ['N'] .none (by decide) space (by decide)
  have lineEnd : Ends [] ['\n'] := .bare (by decide) (by rintro c ⟨⟩; decide)
  have second := @ImportSection.cons _ _ _ _ [] [] _
    (@Declaration.Written.binding [] [' '] _ [' '] [' '] ['m'] _ '\'' (by decide) space star space
      space (by decide) (by decide)) lineEnd (by decide) (by decide) last
  exact @ImportSection.cons _ _ _ _ [] [] _
    (@Declaration.Written.sideEffect [] [' '] ['s'] '\'' (by decide) space (by decide) (by decide)
      (by decide)) lineEnd (by decide) (by decide) second

theorem mixedImports_add :
    ∃ behind, ImportSection behind
      [⟨['s'], none⟩, ⟨['m'], some (.star none ['N'])⟩,
        ⟨['m'], some (.named (some ['f', 'r', 'o', 'm'])
          [.renamed ['a'] ['b'], .typeOnly ['c'], .plain ['d'], .plain ['a']])⟩]
      (ensure ['m'] [['b'], ['d'], ['a'], ['d']] mixedImports).text := by
  obtain ⟨_, ⟨behind, _, added⟩, _⟩ := @ensure_adds_missing _ _ ['m'] _
    [['b'], ['d'], ['a'], ['d']] mixedImports_written (by decide) (by decide)
  exact ⟨behind, added⟩

/-- A default import called "type" with a space in front of its comma is taken for a marker, so the
braces behind it are left alone. -/
theorem ensure_type_before_comma :
    let text : Text := "import type , \x7b a \x7d from 'm'\n"
    Lead (some "type".toList) "type , " ∧ SpecifierList [.plain ['a']] [' ', 'a', ' '] ∧
      ensure ['m'] [['b']] text = ⟨text ++ "import \x7b b \x7d from 'm';\n", .added [['b']]⟩ := by
  refine ⟨?_, ?_, by decide +kernel⟩
  · exact @Lead.some "type" [' '] [' '] (by decide) (by decide) (by decide)
  · exact @SpecifierList.last _ [' '] _ [' '] (by decide) (.plain (by decide)) (by decide)

end OptionsApi.Import
