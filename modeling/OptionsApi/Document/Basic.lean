import OptionsApi.Layout.Format
import OptionsApi.Text.Integer

/-! A document: the text of one file, with the path it came from, and the edits a conversion
makes. -/

set_option autoImplicit false

namespace OptionsApi

structure Document where
  text : Text
  path : Option Text := none
  deriving DecidableEq, Repr

inductive EditError where
  | insertOutside (position : Int)
  | spanOutside (start stop : Int)
  | noPath
  deriving DecidableEq, Repr

def EditError.tryMessage : EditError → Except Text.NumeralError Text
  | .insertOutside position => do
    return "Insert position " ++ (← Text.numeral position) ++ " is outside the source text"
  | .spanOutside start stop => do
    return "Span [" ++ (← Text.numeral start) ++ ", " ++ (← Text.numeral stop) ++
      ") is outside the source text"
  | .noPath => .ok "Source unit has no path to save to"

/-- A number that cannot be written is told in place of the error. -/
def EditError.message (error : EditError) : Text :=
  match error.tryMessage with
  | .ok message => message
  | .error error => error.message

namespace Document

def insert (position : Int) (inserted : Text) (document : Document) : Except EditError Document :=
  if 0 ≤ position ∧ position ≤ document.text.length then
    let offset := position.toNat
    .ok { document with text := document.text.take offset ++ inserted ++ document.text.drop offset }
  else .error (.insertOutside position)

/-- How far a removed span reaches past its end: over spaces, tabs and the line end behind it, if
nothing else stands on the line. -/
def lineEndLength (behind : Text) : Nat :=
  let blanks := (behind.takeWhile Text.isInlineBlank).length
  match behind.dropWhile Text.isInlineBlank with
  | '\r' :: '\n' :: _ => blanks + 2
  | '\n' :: _ => blanks + 1
  | _ => 0

def removalEnd (text : Text) (stop : Nat) : Nat := stop + lineEndLength (text.drop stop)

def remove (start stop : Int) (document : Document) : Except EditError Document :=
  if 0 ≤ start ∧ start ≤ stop ∧ stop ≤ document.text.length then
    .ok { document with
      text := document.text.take start.toNat ++
        document.text.drop (removalEnd document.text stop.toNat) }
  else .error (.spanOutside start stop)

def replace (text : Text) (document : Document) : Document := { document with text }

def exportStatement (expression : Text) (lead : Option Text) : Text :=
  let statement := "export default " ++ expression ++ ";"
  match lead with
  | some (c :: rest) => Text.trim (c :: rest) ++ "\n" ++ statement
  | _ => statement

def appendExport (expression : Text) (lead : Option Text) (document : Document) : Document :=
  let body := Text.trimEnd document.text
  let gap : Text := if body.isEmpty then [] else ['\n', '\n']
  { document with text := body ++ gap ++ exportStatement expression lead ++ ['\n'] }

def format (indent : Int) (document : Document) : Document :=
  { document with text := Layout.format indent document.text }

/-- Where the document is saved: at the given path, or else where it came from. An empty path is as
good as none given. -/
def saveTarget? (path : Option Text) (document : Document) : Option Text :=
  (path.filter fun text => !text.isEmpty).or document.path

end Document

end OptionsApi
