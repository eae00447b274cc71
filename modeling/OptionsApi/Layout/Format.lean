import OptionsApi.Layout.Indent
import OptionsApi.Layout.Scan

/-! Indentation by bracket nesting. Each line is indented by the number of lines whose brackets are
still open, so several brackets opened on one line indent once. A line that begins inside a template
literal is part of that literal and stays as it is. -/

set_option autoImplicit false

namespace OptionsApi.Layout

structure State where
  /-- The line of each open bracket, innermost first. -/
  brackets : List Nat := []
  region : Region := .code
  /-- The lines placed so far. -/
  lineCount : Nat := 0
  deriving DecidableEq, Repr

/-- The number of different lines among those of the open brackets. -/
def level : List Nat → Nat
  | [] => 0
  | line :: rest => if line ∈ rest then level rest else level rest + 1

structure PlacedLine where
  text : Text
  inTemplate : Bool
  deriving DecidableEq, Repr

def State.advance (state : State) (text : Text) : State :=
  let cursor := scanLine (state.lineCount + 1) state.region state.brackets text
  ⟨cursor.brackets, cursor.mode.region, state.lineCount + 1⟩

/-- The number of closing brackets with which a line begins: they belong to the outer level. -/
def leadingClosers (line : Text) : Nat := (line.takeWhile isCloser).length

def indentation (indent : Nat) (brackets : List Nat) : Text :=
  Text.spaces (indent * level brackets)

/-- Places one line. Blanks around it are dropped; inside a block comment a line that begins with a
star goes one column further, under the star of the comment's first line. -/
def State.placeLine (indent : Nat) (state : State) (line : Text) : Text × State :=
  let stripped := Text.trim line
  match state.region with
  | .template => (line, state.advance line)
  | .comment =>
    if stripped.isEmpty then ([], { state with lineCount := state.lineCount + 1 })
    else
      let margin := if stripped.head? = some '*' then [' '] else []
      (indentation indent state.brackets ++ margin ++ stripped, state.advance line)
  | .code =>
    if stripped.isEmpty then ([], { state with lineCount := state.lineCount + 1 })
    else
      let outer := state.brackets.drop (leadingClosers stripped)
      (indentation indent outer ++ stripped, state.advance stripped)

def State.placeLines (indent : Nat) (state : State) : List Text → List PlacedLine × State
  | [] => ([], state)
  | line :: rest =>
    let (text, next) := state.placeLine indent line
    let (placed, last) := next.placeLines indent rest
    (⟨text, state.region = .template⟩ :: placed, last)

/-- Drops an empty line after an empty line or at the start, unless it began inside a template
literal. -/
def squeeze (afterEmpty : Bool) : List PlacedLine → List Text
  | [] => []
  | line :: rest =>
    if line.text.isEmpty && !line.inTemplate && afterEmpty then squeeze afterEmpty rest
    else line.text :: squeeze line.text.isEmpty rest

def dropTrailingEmpty : List Text → List Text
  | [] => []
  | line :: rest =>
    match dropTrailingEmpty rest with
    | [] => if line.isEmpty then [] else [line]
    | kept => line :: kept

def layOut (indent : Int) (text : Text) : Text × State :=
  let (placed, last) := ({} : State).placeLines indent.toNat (Text.lines text)
  (Text.ofLines (dropTrailingEmpty (squeeze true placed)), last)

/-- The text indented, with runs of empty lines made one and none at either end. A negative
indentation is none. -/
def format (indent : Int) (text : Text) : Text := (layOut indent text).1

def tryFormat (indent : Int) (text : Text) : Except IndentError Text :=
  (indentWidth indent).map fun _ => format indent text

end OptionsApi.Layout
