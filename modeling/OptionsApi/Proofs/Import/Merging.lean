import OptionsApi.Proofs.Import.Pieces

/-! Merging names into an import section. The names found missing in the text are those its
declarations do not bind; they are merged into the text of the first import that takes them, and what
comes out is a section again, in which that import has the names added. -/

set_option autoImplicit false

namespace OptionsApi.Import

/-! Merging goes from piece to piece. -/

theorem mergeInto?_append (moduleName : Text) (names : List Text) (left right : List Piece) :
    mergeInto? moduleName names (left ++ right) =
      match mergeInto? moduleName names left with
      | some merged => some (merged ++ right)
      | none => (mergeInto? moduleName names right).map (left ++ ·) := by
  induction left with
  | nil => simp [mergeInto?]
  | cons piece rest ih =>
    simp only [List.cons_append, mergeInto?]
    split
    next => rfl
    next =>
      rw [ih]
      cases mergeInto? moduleName names rest with
      | some merged => rfl
      | none =>
        cases mergeInto? moduleName names right with
        | some merged => rfl
        | none => rfl

theorem mergeInto?_chars (moduleName : Text) (names : List Text) (text : Text) :
    mergeInto? moduleName names (text.map Piece.char) = none := by
  induction text with
  | nil => rfl
  | cons c rest ih => simp [mergeInto?, ih]

theorem clausesOf_append (moduleName : Text) (left right : List Piece) :
    clausesOf moduleName (left ++ right) = clausesOf moduleName left ++ clausesOf moduleName right :=
  List.filterMap_append

theorem clausesOf_chars (moduleName text : Text) : clausesOf moduleName (text.map Piece.char) = [] := by
  simp [clausesOf]

theorem textOf_append (left right : List Piece) : textOf (left ++ right) = textOf left ++ textOf right :=
  List.flatMap_append

theorem textOf_chars (text : Text) : textOf (text.map Piece.char) = text := by
  induction text with
  | nil => rfl
  | cons c rest ih => simp [Piece.text, ih]

/-! The pieces of one declaration. -/

theorem boundIn_append (moduleName : Text) (left right : List Declaration) :
    boundIn moduleName (left ++ right) = boundIn moduleName left ++ boundIn moduleName right :=
  List.flatMap_append

theorem boundIn_cons (moduleName : Text) (declaration : Declaration) (rest : List Declaration) :
    boundIn moduleName (declaration :: rest) =
      boundIn moduleName [declaration] ++ boundIn moduleName rest :=
  boundIn_append moduleName [declaration] rest

/-- Pieces that stand for a declaration: they bind what it binds, and take names if it does. -/
structure Declaration.CutInto (declaration : Declaration) (ending : Text) (parts : List Piece) :
    Prop where
  bound : ∀ moduleName,
    (clausesOf moduleName parts).flatMap boundNames = boundIn moduleName [declaration]
  refused : ∀ moduleName names, declaration.takes moduleName = false →
    mergeInto? moduleName names parts = none
  merged : ∀ moduleName names, (∀ name ∈ names, IsName name) →
    (∀ name ∈ names, name ∉ boundIn moduleName [declaration]) →
    declaration.takes moduleName = true →
    ∃ parts' text, mergeInto? moduleName names parts = some parts' ∧ textOf parts' = text ++ ending ∧
      (declaration.add names).Written text

theorem cutInto_chars {moduleName : Text} (ending text : Text) :
    Declaration.CutInto ⟨moduleName, none⟩ ending (text.map Piece.char) where
  bound other := by simp [clausesOf_chars, boundIn]
  refused other names _ := mergeInto?_chars other names text
  merged other names _ _ takes := by simp [Declaration.takes] at takes

theorem cutInto_statement {moduleName head clauseText joint ending : Text} {clause : Clause}
    {target : Target} (named : target.moduleName = moduleName) (written : clause.Written clauseText)
    (replaced : ∀ (other : Clause) (otherText : Text), other.Written otherText →
      ∃ whole, Declaration.Written ⟨moduleName, some other⟩ whole ∧
        Statement.text ⟨head, some (otherText, joint), target⟩ = whole ++ ending) :
    Declaration.CutInto ⟨moduleName, some clause⟩ ending
      [.statement ⟨head, some (clauseText, joint), target⟩] where
  bound other := by
    by_cases same : moduleName = other
    · simp [clausesOf, boundIn, named, same, written.boundNames_eq]
    · simp [clausesOf, boundIn, named, same]
  refused other names refuses := by
    by_cases same : moduleName = other
    · have noNames : clause.takes = false := by simpa [Declaration.takes, same] using refuses
      simp [mergeInto?, named, same, written.merge?_of_not_takes noNames]
    · simp [mergeInto?, named, same]
  merged other names isName unbound takes := by
    simp only [Declaration.takes, Option.any_some, Bool.and_eq_true, decide_eq_true_eq] at takes
    obtain ⟨rfl, takes⟩ := takes
    have free : ∀ name ∈ names, name ∉ clause.bound := by simpa [boundIn] using unbound
    obtain ⟨mergedText, merged, mergedWritten⟩ := written.merge?_of_takes takes isName free
    obtain ⟨whole, wholeWritten, same⟩ := replaced _ _ mergedWritten
    refine ⟨[.statement ⟨head, some (mergedText, joint), target⟩], whole, ?_, ?_, wholeWritten⟩
    · simp [mergeInto?, named, merged]
    · simpa [textOf, Piece.text] using same

theorem Ends.single {ending behind : Text} (ends : Ends ending behind) : '\n' ∉ ending := by
  have inlineOnly {blanks : Text} (inline : InlineBlank blanks) : '\n' ∉ blanks := fun member => by
    cases inline _ member
  cases ends with
  | semicolon _ inline => simpa using inlineOnly inline
  | bare inline => exact inlineOnly inline

theorem Declaration.Written.pieces_binding {declaration : Declaration} {text ending behind : Text}
    (written : declaration.Written text) (ends : Ends ending behind) :
    ∃ parts, piecesFrom .binding true (text ++ ending ++ behind) =
        parts ++ piecesFrom .binding false behind ∧
      textOf parts = text ++ ending ∧ declaration.CutInto ending parts := by
  obtain ⟨moduleName, clause⟩ := declaration
  cases clause with
  | some clause =>
    obtain ⟨head, clauseText, joint, target, found, named, clauses, replaced⟩ :=
      written.read?_binding .binding ends
    have whole := List.append_cancel_right (Statement.text_append_of_read? found)
    refine ⟨_, piecesFrom_of_read? found, ?_, cutInto_statement named clauses replaced⟩
    simpa [textOf, Piece.text] using whole
  | none =>
    -- Where only bindings are looked for, an import for its side effect is so many characters.
    refine ⟨(text ++ ending).map Piece.char, ?_, textOf_chars _, cutInto_chars ending _⟩
    have passed : piecesFrom .binding false (ending ++ behind) =
        ending.map Piece.char ++ piecesFrom .binding false behind := by
      rw [piecesFrom_silent (silent_of_single ends.single), startsLine_of_single ends.single]
    rw [List.append_assoc, written.pieces_sideEffect, passed, List.map_append, List.append_assoc]

/-! The pieces of a section. -/

section
variable {rest text moduleName : Text} {declarations : List Declaration} {names : List Text}

theorem ImportSection.bound_eq (written : ImportSection rest declarations text) (moduleName : Text) :
    (clausesOf moduleName (pieces .binding text)).flatMap boundNames =
      boundIn moduleName declarations := by
  unfold pieces
  induction written with
  | none quiet =>
    rw [pieces_rest quiet, clausesOf_chars]
    rfl
  | last here ends quiet =>
    obtain ⟨parts, cut, _, into⟩ := here.pieces_binding ends
    rw [cut, pieces_rest quiet, clausesOf_append, clausesOf_chars, List.append_nil, into.bound]
  | @cons declaration _ _ _ _ tail here ends quiet _ _ ih =>
    obtain ⟨parts, cut, _, into⟩ := here.pieces_binding (ends.tail tail)
    rw [cut, pieces_gap quiet, clausesOf_append, clausesOf_append, clausesOf_chars, List.nil_append,
      List.flatMap_append, into.bound, ih, ← boundIn_cons]

theorem ImportSection.missingNames_eq (written : ImportSection rest declarations text)
    (moduleName : Text) (names : List Text) :
    missingNames moduleName names (pieces .binding text) =
      missingIn moduleName names declarations := by
  rw [missingNames, written.bound_eq, missingIn]

theorem ImportSection.mergeInto?_eq (written : ImportSection rest declarations text)
    (isName : ∀ name ∈ names, IsName name)
    (unbound : ∀ name ∈ names, name ∉ boundIn moduleName declarations) :
    match declarations.findIdx? (Declaration.takes moduleName) with
    | .none => mergeInto? moduleName names (pieces .binding text) = .none
    | .some index => ∃ parts, mergeInto? moduleName names (pieces .binding text) = some parts ∧
        ImportSection rest (declarations.modify index (Declaration.add names)) (textOf parts) := by
  unfold pieces
  induction written with
  | none quiet =>
    rw [pieces_rest quiet]
    exact mergeInto?_chars moduleName names rest
  | @last declaration _ _ here ends quiet =>
    obtain ⟨parts, cut, _, into⟩ := here.pieces_binding ends
    rw [cut, pieces_rest quiet, mergeInto?_append]
    cases takes : declaration.takes moduleName with
    | true =>
      obtain ⟨merged, whole, found, same, wholeWritten⟩ := into.merged _ _ isName unbound takes
      simp only [List.findIdx?_cons, takes, if_true, found]
      refine ⟨_, rfl, ?_⟩
      rw [textOf_append, same, textOf_chars]
      exact .last wholeWritten ends quiet
    | false =>
      simp [List.findIdx?_cons, takes, into.refused _ names takes, mergeInto?_chars]
  | @cons declaration others _ _ gap tail here ends quiet nonempty later ih =>
    obtain ⟨parts, cut, sameText, into⟩ := here.pieces_binding (ends.tail tail)
    have free : ∀ name ∈ names, name ∉ boundIn moduleName [declaration] ∧
        name ∉ boundIn moduleName others := by
      intro name member
      have outside := unbound name member
      rwa [boundIn_cons, List.mem_append, not_or] at outside
    have inner := ih fun name member => (free name member).2
    -- The first declaration answers for its own pieces, the induction hypothesis for all that follow,
    -- where the index of the import that takes the names is one less.
    rw [cut, pieces_gap quiet, mergeInto?_append]
    cases takes : declaration.takes moduleName with
    | true =>
      obtain ⟨merged, whole, found, same, wholeWritten⟩ :=
        into.merged _ _ isName (fun name member => (free name member).1) takes
      simp only [List.findIdx?_cons, takes, if_true, found]
      refine ⟨_, rfl, ?_⟩
      rw [textOf_append, textOf_append, same, textOf_chars, textOf_piecesFrom, List.append_assoc gap]
      exact .cons wholeWritten ends quiet nonempty later
    | false =>
      simp only [List.findIdx?_cons, takes, Bool.false_eq_true, if_false, into.refused _ names takes,
        mergeInto?_append, mergeInto?_chars]
      cases index : others.findIdx? (Declaration.takes moduleName) with
      | none =>
        rw [index] at inner
        simpa using inner
      | some index' =>
        rw [index] at inner
        obtain ⟨merged, found, written⟩ := inner
        have kept : others.modify index' (Declaration.add names) ≠ [] := by
          rw [← List.length_pos_iff, List.length_modify]
          exact List.length_pos_iff.mpr nonempty
        refine ⟨_, by rw [found]; rfl, ?_⟩
        rw [textOf_append, textOf_append, sameText, textOf_chars, List.append_assoc gap]
        exact .cons here ends quiet kept written

end

end OptionsApi.Import
