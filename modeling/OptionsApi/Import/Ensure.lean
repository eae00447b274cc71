import OptionsApi.Import.Clause
import OptionsApi.Import.Statement

/-! Making sure that names are imported. A text is cut into its import statements and the characters
between them; missing names go into the first import of the module that can take them, or into a new
statement behind the last import. -/

set_option autoImplicit false

namespace OptionsApi.Import

inductive Piece where
  | char (c : Char)
  | statement (statement : Statement)
  deriving DecidableEq, Repr

def Piece.text : Piece → Text
  | .char c => [c]
  | .statement found => found.text

def textOf (pieces : List Piece) : Text := pieces.flatMap Piece.text

@[simp] theorem textOf_cons (piece : Piece) (pieces : List Piece) :
    textOf (piece :: pieces) = piece.text ++ textOf pieces :=
  List.flatMap_cons

def readAt? (search : Search) (lineStart : Bool) (text : Text) : Option (Statement × Text) :=
  if lineStart then Statement.read? search text else none

theorem length_lt_of_readAt? {search : Search} {lineStart : Bool} {text rest : Text}
    {statement : Statement} (found : readAt? search lineStart text = some (statement, rest)) :
    rest.length < text.length := by
  unfold readAt? at found
  split at found
  · exact Statement.length_lt_of_read? found
  · simp at found

/-- The statements of a text and the characters between them. A statement can begin only at the
start of a line that is not inside an earlier statement. -/
def piecesFrom (search : Search) (lineStart : Bool) (text : Text) : List Piece :=
  match found : readAt? search lineStart text with
  | some (statement, rest) =>
    have : rest.length < text.length := length_lt_of_readAt? found
    .statement statement :: piecesFrom search false rest
  | none =>
    match text with
    | [] => []
    | c :: rest => .char c :: piecesFrom search (c = '\n') rest
termination_by text.length

def pieces (search : Search) (text : Text) : List Piece := piecesFrom search true text

theorem textOf_piecesFrom (search : Search) (lineStart : Bool) (text : Text) :
    textOf (piecesFrom search lineStart text) = text := by
  fun_induction piecesFrom search lineStart text with
  | case1 lineStart text statement rest found _ ih =>
    unfold readAt? at found
    split at found
    · simpa [Piece.text, ih] using Statement.text_append_of_read? found
    · simp at found
  | case2 => rfl
  | case3 lineStart c rest _ ih => simp [Piece.text, ih]

/-- Cutting a text into pieces loses nothing. -/
theorem textOf_pieces (search : Search) (text : Text) : textOf (pieces search text) = text :=
  textOf_piecesFrom search true text

def clausesOf (moduleName : Text) (pieces : List Piece) : List Text :=
  pieces.filterMap fun
    | .statement ⟨_, some (clause, _), target⟩ =>
      if target.moduleName = moduleName then some clause else none
    | _ => none

/-- The requested names, each once, that no import of the module binds in braces. -/
def missingNames (moduleName : Text) (names : List Text) (pieces : List Piece) : List Text :=
  let bound := (clausesOf moduleName pieces).flatMap boundNames
  names.eraseDups.filter fun name => !bound.contains name

def mergeInto? (moduleName : Text) (names : List Text) : List Piece → Option (List Piece)
  | [] => none
  | piece :: rest =>
    let taken : Option Piece :=
      match piece with
      | .statement ⟨head, some (clause, joint), target⟩ =>
        if target.moduleName = moduleName then
          (merge? clause names).map fun merged => .statement ⟨head, some (merged, joint), target⟩
        else none
      | _ => none
    match taken with
    | some piece => some (piece :: rest)
    | none => (mergeInto? moduleName names rest).map (piece :: ·)

def newStatement (moduleName : Text) (names : List Text) : Text :=
  "import " ++ braces names ++ " from '" ++ moduleName ++ "';\n"

def dropLineFeed : Text → Text
  | '\n' :: rest => rest
  | text => text

def insertBehindLast? (line : Text) : List Piece → Option Text
  | [] => none
  | piece :: rest =>
    match insertBehindLast? line rest, piece with
    | some text, _ => some (piece.text ++ text)
    | none, .statement last => some (last.text ++ '\n' :: line ++ dropLineFeed (textOf rest))
    | none, .char _ => none

inductive Change where
  | unchanged
  /-- Names were added to an import that was there. -/
  | merged (names : List Text)
  /-- A statement was added. -/
  | added (names : List Text)
  deriving DecidableEq, Repr

structure Ensured where
  text : Text
  change : Change
  deriving DecidableEq, Repr

def ensure (moduleName : Text) (names : List Text) (text : Text) : Ensured :=
  let bindings := pieces .binding text
  let missing := missingNames moduleName names bindings
  if missing.isEmpty then ⟨text, .unchanged⟩
  else
    match mergeInto? moduleName missing bindings with
    | some merged => ⟨textOf merged, .merged missing⟩
    | none =>
      let line := newStatement moduleName missing
      ⟨(insertBehindLast? line (pieces .any text)).getD (line ++ text), .added missing⟩

end OptionsApi.Import
