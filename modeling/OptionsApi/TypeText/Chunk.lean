import OptionsApi.Text.Blank

/-! A type text cut into chunks at its separators. Round, square, curly and angle brackets nest;
the arrow of a function type is a chunk of its own, so its second character closes nothing. -/

set_option autoImplicit false

namespace OptionsApi.TypeText

def isTypeOpener (c : Char) : Bool := c == '(' || c == '[' || c == '{' || c == '<'

def isTypeCloser (c : Char) : Bool := c == ')' || c == ']' || c == '}' || c == '>'

def isSeparator (c : Char) : Bool := c == ';' || c == ',' || c == '\n'

def arrow : Text := ['=', '>']

/-- The bracket depth after a character. Unmatched closers make it negative. -/
def depthAfter (c : Char) (depth : Int) : Int :=
  if isTypeOpener c then depth + 1 else if isTypeCloser c then depth - 1 else depth

def extendFirst (start : Text) : List Text → List Text
  | [] => [start]
  | piece :: pieces => (start ++ piece) :: pieces

/-- The pieces of a text that begins at a depth, cut at the separators and arrows at the target
depth. A separator counts at the depth after it, and it is in no piece. -/
def pieces (target depth : Int) : Text → List Text
  | [] => [[]]
  | '=' :: '>' :: rest =>
    if depth = target then [] :: arrow :: pieces target depth rest
    else extendFirst arrow (pieces target depth rest)
  | c :: rest =>
    let next := depthAfter c depth
    if next = target && isSeparator c then [] :: pieces target next rest
    else extendFirst [c] (pieces target next rest)

def chunks (target : Int) (text : Text) : List Text :=
  (pieces target 0 text).filter fun piece => !Text.isBlankText piece

end OptionsApi.TypeText
