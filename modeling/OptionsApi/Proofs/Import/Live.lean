import OptionsApi.Proofs.Import.Outcome
import OptionsApi.Proofs.Layout.Sweep

/-! Imports that are code. Statements are searched line by line, in block comments and template literals
too, so the import that binds a name, takes it or shows where a new one goes may be none. A requested
name is bound by an import that is code exactly if it was before, or if no import was found to bind it
and the place for the missing names is code. -/

set_option autoImplicit false

namespace OptionsApi.Import

open Layout (Region regionBehind StartsLine)
open Text (Within)

/-! Names bound in code. -/

def Piece.liveNames (moduleName before : Text) : Piece → List Text
  | .statement ⟨head, some (clause, _), target⟩ =>
    if target.moduleName = moduleName ∧ regionBehind (before ++ head.takeWhile Text.isInlineBlank) = .code
    then boundNames clause else []
  | _ => []

def liveNames (moduleName : Text) : Text → List Piece → List Text
  | _, [] => []
  | before, piece :: rest =>
    piece.liveNames moduleName before ++ liveNames moduleName (before ++ piece.text) rest

/-- The names that the imports of a module bind by braces in code. -/
def liveNamesOf (moduleName text : Text) : List Text := liveNames moduleName [] (pieces .binding text)

section
variable {moduleName name before head clause joint : Text} {target : Target}

theorem liveNames_append (moduleName before : Text) (left right : List Piece) :
    liveNames moduleName before (left ++ right) =
      liveNames moduleName before left ++ liveNames moduleName (before ++ textOf left) right := by
  induction left generalizing before with
  | nil => simp [liveNames, textOf]
  | cons piece rest ih => simp [liveNames, ih]

theorem liveNames_chars (moduleName before text : Text) :
    liveNames moduleName before (text.map .char) = [] := by
  induction text generalizing before with
  | nil => rfl
  | cons c rest ih => exact ih (before ++ [c])

/-- Which names are bound in code behind a text depends only on the regions it leaves. -/
theorem liveNames_congr {first second : Text}
    (same : ∀ text, regionBehind (first ++ text) = regionBehind (second ++ text)) (parts : List Piece) :
    liveNames moduleName first parts = liveNames moduleName second parts := by
  induction parts generalizing first second with
  | nil => rfl
  | cons piece rest ih =>
    have here : piece.liveNames moduleName first = piece.liveNames moduleName second := by
      unfold Piece.liveNames
      simp only [same]
    have later : ∀ text, regionBehind (first ++ piece.text ++ text) =
        regionBehind (second ++ piece.text ++ text) := fun text => by
      simpa using same (piece.text ++ text)
    rw [liveNames, liveNames, here, ih later]

theorem mem_liveNames_statement {left right : List Piece} :
    name ∈ liveNames target.moduleName []
        (left ++ .statement ⟨head, some (clause, joint), target⟩ :: right) ↔
      name ∈ liveNames target.moduleName [] left ∨
      (regionBehind (textOf left ++ head.takeWhile Text.isInlineBlank) = .code ∧ name ∈ boundNames clause) ∨
      name ∈ liveNames target.moduleName
        (textOf left ++ Statement.text ⟨head, some (clause, joint), target⟩) right := by
  rw [liveNames_append, List.mem_append, liveNames, List.mem_append, List.nil_append, Piece.liveNames]
  simp [Piece.text]

end

/-! Where missing names go. -/

/-- The text in front of the keyword of the first import of the module that takes names, or else in front
of a new import. -/
def destination (moduleName text : Text) : Text :=
  match cutAtTaker? moduleName (pieces .binding text) with
  | some (left, taker, _) => textOf left ++ taker.head.takeWhile Text.isInlineBlank
  | none => placeBehindLast text

theorem destination_of_not_takes {moduleName text : Text}
    (refuse : ∀ piece ∈ pieces .binding text, piece.takes moduleName = false) :
    destination moduleName text = placeBehindLast text := by
  rw [destination, cutAtTaker?_of_not_takes refuse]

theorem destination_of_takes {text head clause joint : Text} {target : Target} {left right : List Piece}
    (cut : pieces .binding text = left ++ .statement ⟨head, some (clause, joint), target⟩ :: right)
    (refuse : ∀ piece ∈ left, piece.takes target.moduleName = false) (takes : takesNames clause = true) :
    destination target.moduleName text = textOf left ++ head.takeWhile Text.isInlineBlank := by
  have taken : Piece.takes target.moduleName (.statement ⟨head, some (clause, joint), target⟩) = true := by
    simp [Piece.takes, takes]
  rw [destination, cut, cutAtTaker?_of_takes refuse taken]

/-! Another clause in a statement. -/

section
variable {text : Text} {left right : List Piece}

theorem isInert_of_isClauseChar {c : Char} (inside : isClauseChar c = true) : Layout.isInert c = true := by
  have other {d : Char} (outside : isClauseChar d = false) : c ≠ d := by
    rintro rfl
    rw [inside] at outside
    cases outside
  simp only [Layout.isInert, Layout.isPlain, Bool.and_eq_true, bne_iff_ne]
  exact ⟨⟨⟨⟨other (by decide), other (by decide)⟩, other (by decide)⟩, other (by decide)⟩, other (by decide)⟩

theorem startsLine_of_pieces {search : Search} {statement : Statement}
    (cut : pieces search text = left ++ .statement statement :: right) : StartsLine (textOf left) := by
  by_cases empty : left = []
  · exact .inl (by rw [empty]; rfl)
  · exact .inr (exists_lineFeed_of_piecesFrom cut empty)

theorem regionBehind_statement {head clause joint other : Text} {target : Target}
    (cut : pieces .binding text = left ++ .statement ⟨head, some (clause, joint), target⟩ :: right)
    (chars : Within isClauseChar other) (behind : Text) :
    regionBehind (textOf left ++ Statement.text ⟨head, some (other, joint), target⟩ ++ behind) =
      regionBehind (textOf left ++ Statement.text ⟨head, some (clause, joint), target⟩ ++ behind) := by
  -- Between the start of the line and the quote stand characters of clauses only, and these are inert.
  obtain ⟨_, _, clauseText, jointText, _, parts, _⟩ :=
    Statement.read?_eq_some (read?_of_piecesFrom cut).1
  obtain ⟨quoted, _⟩ := Target.read?_eq_some parts.names.read
  have same := parts.clause
  injection same with same
  injection same with sameClause sameJoint
  subst sameClause sameJoint
  have inert {body : Text} (bodyChars : Within isClauseChar body) :
      Within Layout.isInert (head ++ body ++ joint) :=
    ((parts.head_chars.append bodyChars).append parts.isJoint.chars).mono
      fun c => isInert_of_isClauseChar
  have isQuoted : target.opening = '\'' ∨ target.opening = '"' := by
    simpa [isQuote] using quoted
  have exchanged := Layout.regionBehind_exchange (startsLine_of_pieces cut) (inert chars)
    (inert parts.isClause.chars) isQuoted (target.moduleName ++ target.closing :: target.ending ++ behind)
  simpa [Statement.text, Target.text] using exchanged

end

/-! Names ensured. -/

theorem mem_liveNames_merged {text head clause joint merged : Text} {target : Target}
    {left right : List Piece} {names : List Text}
    (cut : pieces .binding text = left ++ .statement ⟨head, some (clause, joint), target⟩ :: right)
    (chars : Within isClauseChar merged) (bound : boundNames merged = boundNames clause ++ names)
    (name : Text) :
    name ∈ liveNames target.moduleName []
        (left ++ .statement ⟨head, some (merged, joint), target⟩ :: right) ↔
      name ∈ liveNamesOf target.moduleName text ∨
        name ∈ names ∧ regionBehind (textOf left ++ head.takeWhile Text.isInlineBlank) = .code := by
  have behind := @liveNames_congr target.moduleName _ _ (regionBehind_statement cut chars) right
  rw [liveNamesOf, cut, mem_liveNames_statement, mem_liveNames_statement, behind, bound, List.mem_append]
  grind

theorem mem_liveNames_added {moduleName lead : Text} {names : List Text} {parts behind : List Piece}
    (isName : ∀ name ∈ names, IsName name) (leads : lead = [] ∨ lead = ['\n']) (name : Text) :
    name ∈ liveNames moduleName []
        (parts ++ (lead.map .char ++ .statement (addedStatement moduleName names) :: behind)) ↔
      name ∈ liveNames moduleName [] parts ∨ (regionBehind (textOf parts) = .code ∧ name ∈ names) ∨
        name ∈ liveNames moduleName
          (textOf parts ++ lead ++ (addedStatement moduleName names).text) behind := by
  have bound : boundNames (braces names) = names := boundNames_newBraces List.not_mem_nil isName
  have region : regionBehind (textOf parts ++ lead) = regionBehind (textOf parts) := by
    rcases leads with rfl | rfl
    · rw [List.append_nil]
    · exact Layout.regionBehind_lineFeed (textOf parts)
  have found := @mem_liveNames_statement name (addedStatement moduleName names).head (braces names)
    [' ', 'f', 'r', 'o', 'm', ' '] (addedStatement moduleName names).target (parts ++ lead.map .char) behind
  have unindented : (addedStatement moduleName names).head.takeWhile Text.isInlineBlank = [] := rfl
  have unled : liveNames (addedStatement moduleName names).target.moduleName []
      (parts ++ lead.map .char) = liveNames moduleName [] parts := by
    rw [liveNames_append, liveNames_chars, List.append_nil]
    rfl
  rw [textOf_append, textOf_chars, unindented, List.append_nil, region, bound, unled,
    List.append_assoc parts] at found
  exact found

/-- A name is bound in code by an import of the module if it was before, or if it is requested, no import
is found that binds it, and the place for missing names is code. The converse holds where no
statements share a line. -/
theorem ensured_live {moduleName text : Text} {names : List Text}
    (inline : (pieces .any text).all Piece.isInline = true)
    (closed : ∀ clause ∈ clausesOf moduleName (pieces .binding text), closesBraces clause = true)
    (named : IsModuleName moduleName) (isName : ∀ name ∈ names, IsName name) (name : Text) :
    let live := name ∈ liveNamesOf moduleName text ∨ (name ∈ names ∧ name ∉ bracedNamesOf moduleName text) ∧
      regionBehind (destination moduleName text) = .code
    (live → name ∈ liveNamesOf moduleName (ensure moduleName names text).text) ∧
      (sharesLine (pieces .any text) = false →
        name ∈ liveNamesOf moduleName (ensure moduleName names text).text → live) := by
  have outcome := ensure_outcome inline named isName
  have isNewName := @isName_of_mem_missingNames moduleName names (pieces .binding text) isName
  have isMissing : name ∈ names ∧ name ∉ bracedNamesOf moduleName text ↔
      name ∈ missingNames moduleName names (pieces .binding text) := mem_missingNames.symm
  rw [isMissing]
  unfold liveNamesOf
  generalize pieces .binding (ensure moduleName names text).text = after at outcome ⊢
  generalize missingNames moduleName names (pieces .binding text) = missing at *
  clear isMissing
  generalize found : pieces .binding text = before at outcome closed ⊢
  cases outcome with
  | unchanged empty =>
    simp [empty]
  | @merged left right head clause joint merged target refuse same takes isClause unbound result =>
    subst same
    have bound := boundNames_of_merge? isNewName unbound (closed clause mem_clausesOf) result
    have given := mem_liveNames_merged found (isClause.of_merge? isNewName unbound result).1 bound name
    rw [liveNamesOf, found, ← destination_of_takes found refuse takes] at given
    exact ⟨given.mpr, fun _ => given.mp⟩
  | @added parts behind rest lead refuse place leads chars =>
    rw [← found] at refuse
    have given := @mem_liveNames_added moduleName lead missing parts behind isNewName leads name
    rw [liveNames_append, liveNames_chars, List.append_nil, destination_of_not_takes refuse, ← place, given]
    refine ⟨?_, fun apart => ?_⟩
    · rintro (old | ⟨new, code⟩)
      · exact .inl old
      · exact .inr (.inl ⟨code, new⟩)
    · -- Behind the new import there is no other one.
      obtain ⟨later, rfl⟩ := chars apart
      rw [liveNames_chars]
      rintro (old | ⟨code, new⟩ | absent)
      · exact .inl old
      · exact .inr ⟨new, code⟩
      · cases absent

def scatteredImports : Text :=
  "/* import \x7b a \x7d from 'm' */\n  import b, \x7b c \x7d from 'm'\nlet t = `\n" ++
    "import \x7b d \x7d from 'm'\n`\n"

theorem scatteredImports_live :
    let result := (ensure ['m'] [['a'], ['c'], ['d']] scatteredImports).text
    ['a'] ∈ liveNamesOf ['m'] result ∧ ['c'] ∈ liveNamesOf ['m'] result ∧ ['d'] ∉ liveNamesOf ['m'] result := by
  have live := @ensured_live ['m'] scatteredImports [['a'], ['c'], ['d']] (by decide +kernel)
    (by decide +kernel) (by decide) (by decide)
  refine ⟨(live ['a']).1 (by decide +kernel), (live ['c']).1 (by decide +kernel), fun member => ?_⟩
  exact absurd ((live ['d']).2 (by decide +kernel) member) (by decide +kernel)

/-- Requested names that no import in code binds. An import in a comment counts as one that binds the
name, takes it or shows where a new one goes; a new import may stand in the middle of another one; and
braces that are not closed swallow those that are added. -/
theorem requested_not_live :
    let texts : List Text := ["/*\nimport \x7b a \x7d from 'm'\n*/\n".toList,
      "/*\nimport b from 'm'\n*/\n".toList, "/*\nimport b from 'n'\n*/\n".toList,
      "import 'b\nimport c from 'd'\n".toList, "import \x7b b from 'm'\n".toList]
    ∀ text ∈ texts, regionBehind text = .code ∧
      ['a'] ∉ liveNamesOf ['m'] (ensure ['m'] [['a']] text).text := by
  decide +kernel

end OptionsApi.Import
