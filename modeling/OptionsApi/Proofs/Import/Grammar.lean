import OptionsApi.Import.Ensure
import OptionsApi.Proofs.Text.Trim
import OptionsApi.Proofs.Text.WordChar

/-! Import sections: how import declarations are written, and what adding names to them means. The
grammar says which texts denote which declarations, without saying how they are found in a text. -/

set_option autoImplicit false

namespace OptionsApi.Import

open Text (Blank Within)

/-! Names. -/

structure IsName (name : Text) : Prop where
  nonempty : name ≠ []
  chars : Within Text.isNameChar name

instance (name : Text) : Decidable (IsName name) :=
  decidable_of_iff (name ≠ [] ∧ Within Text.isNameChar name)
    ⟨fun ⟨nonempty, chars⟩ => ⟨nonempty, chars⟩, fun isName => ⟨isName.nonempty, isName.chars⟩⟩

namespace IsName

variable {name : Text}

theorem begins (isName : IsName name) : Text.BeginsInk name := by
  obtain ⟨c, rest, rfl⟩ := List.exists_cons_of_ne_nil isName.nonempty
  exact ⟨c, rest, rfl, Text.isBlank_of_isNameChar (isName.chars c List.mem_cons_self)⟩

theorem ends (isName : IsName name) : Text.EndsInk name :=
  ⟨_, _, (List.dropLast_concat_getLast isName.nonempty).symm,
    Text.isBlank_of_isNameChar (isName.chars _ (List.getLast_mem isName.nonempty))⟩

theorem trim (isName : IsName name) : Text.trim name = name :=
  Text.trim_of_ink isName.begins isName.ends

end IsName

structure Gap (blanks : Text) : Prop where
  blank : Blank blanks
  nonempty : blanks ≠ []

/-! Specifiers. -/

inductive Specifier where
  | plain (name : Text)
  | renamed (name other : Text)
  | typeOnly (name : Text)
  deriving DecidableEq, Repr

def Specifier.bound : Specifier → Text
  | .plain name => name
  | .renamed _ name => name
  | .typeOnly name => name

/-- The alias keyword stands between spaces and the type marker before one; more blanks may follow. -/
inductive Specifier.Written : Specifier → Text → Prop where
  | plain {name : Text} : IsName name → Written (.plain name) name
  | renamed {name before behind other : Text} : IsName name → Blank before → Blank behind →
      IsName other → Written (.renamed name other) (name ++ before ++ " as " ++ (behind ++ other))
  | typeOnly {blanks name : Text} : Blank blanks → IsName name →
      Written (.typeOnly name) ("type " ++ (blanks ++ name))

inductive SpecifierList : List Specifier → Text → Prop where
  | nil {blanks : Text} : Blank blanks → SpecifierList [] blanks
  | last {specifier : Specifier} {before text behind : Text} : Blank before →
      specifier.Written text → Blank behind →
      SpecifierList [specifier] (before ++ text ++ behind)
  | cons {specifier : Specifier} {specifiers : List Specifier} {before text behind rest : Text} :
      Blank before → specifier.Written text → Blank behind → SpecifierList specifiers rest →
      SpecifierList (specifier :: specifiers) (before ++ text ++ behind ++ ',' :: rest)

/-! Clauses. -/

inductive Clause where
  /-- A default import alone. -/
  | single (name : Text)
  /-- Names in braces, possibly behind a default import. -/
  | named (lead : Option Text) (specifiers : List Specifier)
  | types (specifiers : List Specifier)
  /-- A namespace, possibly behind a default import. -/
  | star (lead : Option Text) (name : Text)
  deriving DecidableEq, Repr

inductive Lead : Option Text → Text → Prop where
  | none : Lead none []
  | some {name before behind : Text} : IsName name → Blank before → Blank behind →
      Lead (some name) (name ++ before ++ ',' :: behind)

/-- A default import called "type" must not be followed by a space, which would make it a marker. -/
inductive Clause.Written : Clause → Text → Prop where
  | single {name : Text} : IsName name → Written (.single name) name
  | named {lead : Option Text} {start inside : Text} {specifiers : List Specifier} :
      Lead lead start → ¬ "type ".toList <+: start → SpecifierList specifiers inside →
      Written (.named lead specifiers) (start ++ '{' :: (inside ++ ['}']))
  | types {blanks inside : Text} {specifiers : List Specifier} : Blank blanks →
      SpecifierList specifiers inside →
      Written (.types specifiers) ("type " ++ blanks ++ '{' :: (inside ++ ['}']))
  | star {lead : Option Text} {start before behind name : Text} : Lead lead start →
      Blank before → Gap behind → IsName name →
      Written (.star lead name) (start ++ '*' :: (before ++ "as" ++ (behind ++ name)))

def Clause.bound : Clause → List Text
  | .named _ specifiers | .types specifiers => specifiers.map Specifier.bound
  | .single _ | .star _ _ => []

def Clause.takes : Clause → Bool
  | .single _ | .named _ _ => true
  | .types _ | .star _ _ => false

def Clause.add (names : List Text) : Clause → Clause
  | .single name => .named (some name) (names.map .plain)
  | .named lead specifiers => .named lead (specifiers ++ names.map .plain)
  | clause => clause

/-! Declarations. -/

structure Declaration where
  moduleName : Text
  clause : Option Clause
  deriving DecidableEq, Repr

structure IsModuleName (name : Text) : Prop where
  nonempty : name ≠ []
  chars : Within (fun c => !isQuote c) name

instance (name : Text) : Decidable (IsModuleName name) :=
  decidable_of_iff (name ≠ [] ∧ Within (fun c => !isQuote c) name)
    ⟨fun ⟨nonempty, chars⟩ => ⟨nonempty, chars⟩, fun named => ⟨named.nonempty, named.chars⟩⟩

def InlineBlank (text : Text) : Prop := Within Text.isInlineBlank text

instance (text : Text) : Decidable (InlineBlank text) :=
  inferInstanceAs (Decidable (Within Text.isInlineBlank text))

inductive Declaration.Written : Declaration → Text → Prop where
  | sideEffect {indentation blanks moduleName : Text} {quote : Char} : InlineBlank indentation →
      Gap blanks → isQuote quote = true → IsModuleName moduleName → '\n' ∉ moduleName →
      Written ⟨moduleName, none⟩
        (indentation ++ "import" ++ blanks ++ (quote :: moduleName ++ [quote]))
  | binding {indentation blanks text before behind moduleName : Text} {clause : Clause}
      {quote : Char} : InlineBlank indentation → Gap blanks → clause.Written text → Gap before →
      Gap behind → isQuote quote = true → IsModuleName moduleName →
      Written ⟨moduleName, some clause⟩ (indentation ++ "import" ++ blanks ++
        (text ++ (before ++ "from" ++ behind ++ (quote :: moduleName ++ [quote]))))

/-- The end of a statement in front of what follows it: blanks of the line and a semicolon if there
is one. -/
inductive Ends : Text → Text → Prop where
  | semicolon {blanks : Text} (behind : Text) : InlineBlank blanks → Ends (blanks ++ [';']) behind
  | bare {blanks behind : Text} : InlineBlank blanks →
      (∀ c ∈ behind.head?, Text.isInlineBlank c = false ∧ c ≠ ';') → Ends blanks behind

/-! Text without imports. -/

def startsImport (text : Text) : Bool :=
  match Text.after "import" (text.dropWhile Text.isInlineBlank) with
  | some (c :: _) => Text.isBlank c
  | _ => false

def quietFrom (lineStart : Bool) : Text → Bool
  | [] => true
  | c :: rest => !(lineStart && startsImport (c :: rest)) && quietFrom (c = '\n') rest

def Quiet (text : Text) : Prop := quietFrom true text = true

instance (text : Text) : Decidable (Quiet text) := inferInstanceAs (Decidable (_ = true))

/-- Import statements, each on a line of its own, and the rest of the text behind them. -/
inductive ImportSection (rest : Text) : List Declaration → Text → Prop where
  | none : Quiet rest → ImportSection rest [] rest
  | last {declaration : Declaration} {text ending : Text} : declaration.Written text →
      Ends ending rest → Quiet rest → ImportSection rest [declaration] (text ++ ending ++ rest)
  | cons {declaration : Declaration} {declarations : List Declaration}
      {text ending gap tail : Text} : declaration.Written text → Ends ending (gap ++ ['\n']) →
      Quiet (gap ++ ['\n']) → declarations ≠ [] → ImportSection rest declarations tail →
      ImportSection rest (declaration :: declarations) (text ++ ending ++ (gap ++ '\n' :: tail))

/-! Adding names. -/

def boundIn (moduleName : Text) (declarations : List Declaration) : List Text :=
  declarations.flatMap fun declaration =>
    if declaration.moduleName = moduleName then (declaration.clause.map Clause.bound).getD [] else []

def Declaration.takes (moduleName : Text) (declaration : Declaration) : Bool :=
  declaration.moduleName = moduleName && declaration.clause.any Clause.takes

def Declaration.add (names : List Text) (declaration : Declaration) : Declaration :=
  { declaration with clause := declaration.clause.map (Clause.add names) }

def missingIn (moduleName : Text) (names : List Text) (declarations : List Declaration) : List Text :=
  names.eraseDups.filter fun name => !(boundIn moduleName declarations).contains name

/-- Missing names go to the first import of the module that takes names, else to a new one at the
end. -/
def adding (moduleName : Text) (names : List Text) (declarations : List Declaration) :
    List Declaration :=
  let missing := missingIn moduleName names declarations
  if missing.isEmpty then declarations
  else
    match declarations.findIdx? (Declaration.takes moduleName) with
    | some index => declarations.modify index (Declaration.add missing)
    | none => declarations ++ [⟨moduleName, some (.named none (missing.map .plain))⟩]

end OptionsApi.Import
