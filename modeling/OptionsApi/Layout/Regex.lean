import OptionsApi.Text.Blank
import OptionsApi.Text.Word
import OptionsApi.Text.WordChar

/-! Regular expression literals: where one may begin, and where it ends. A slash begins a literal
where an operand is expected and divides elsewhere, which is told from the text before it. -/

set_option autoImplicit false

namespace OptionsApi.Layout

inductive RegexMode where
  | body
  | bodyEscape
  | charClass
  | charClassEscape
  deriving DecidableEq, Repr

def RegexMode.step : RegexMode → Char → Option RegexMode
  | .body, c =>
    if c = '\\' then some .bodyEscape
    else if c = '[' then some .charClass
    else if c = '/' then none
    else some .body
  | .bodyEscape, _ => some .body
  | .charClass, c =>
    if c = '\\' then some .charClassEscape
    else if c = ']' then some .body
    else some .charClass
  | .charClassEscape, _ => some .charClass

/-- The characters up to and with the closing slash, or all of them when none closes. A backslash
pairs with a character even at the end of the text, where there is none left. -/
def RegexMode.length : RegexMode → Text → Nat
  | .body, [] => 0
  | .charClass, [] => 0
  | .bodyEscape, [] => 1
  | .charClassEscape, [] => 1
  | mode, c :: rest =>
    match mode.step c with
    | none => 1
    | some next => next.length rest + 1

def regexEnd (line : Text) (slash : Nat) : Nat :=
  slash + 1 + RegexMode.body.length (line.drop (slash + 1))

def regexPreceders : List Char :=
  ['(', ',', '=', ':', '[', '!', '&', '|', '?', '{', '}', ';', '+', '-', '*', '%', '<', '>', '~',
    '^']

def regexKeywords : List Text :=
  ["return", "typeof", "case", "in", "of", "delete", "void", "throw", "new", "yield", "await",
    "else"]

/-- Whether a slash begins a literal; the text before it is given backwards, nearest character
first. -/
def opensRegex (before : Text) : Bool :=
  match before.dropWhile Text.isInlineBlank with
  | [] => true
  | c :: rest =>
    regexPreceders.contains c ||
      regexKeywords.contains ((c :: rest).takeWhile Text.isNameChar).reverse

def opensRegexAt (line : Text) (slash : Nat) : Bool := opensRegex (line.take slash).reverse

inductive OffsetError where
  | outside
  | notWord
  deriving DecidableEq, Repr

def OffsetError.message : OffsetError → Text
  | .outside => "string index out of range"
  | .notWord => Text.notWordMessage

def OffsetError.ofOffset (offset : Int) : OffsetError :=
  if Text.isWord offset then .outside else .notWord

/-- Whether a slash at any offset begins a literal. Nothing stands before the start of the line, and
past its end there is no character before the slash. -/
def tryOpensRegex (line : Text) (slash : Int) : Except OffsetError Bool :=
  if slash ≤ line.length then .ok (opensRegexAt line slash.toNat)
  else .error (.ofOffset (slash - 1))

/-- The offset just past a literal whose opening slash stands at any offset. An offset below zero
counts from the end of the line, and behind that end the line comes once more. -/
def tryRegexEnd (line : Text) (slash : Int) : Except OffsetError Int :=
  let start := slash + 1
  if 0 ≤ start then .ok (start + RegexMode.body.length (line.drop start.toNat))
  else if -start ≤ line.length then
    .ok (start + RegexMode.body.length (line.drop (line.length - (-start).toNat) ++ line))
  else .error (.ofOffset start)

end OptionsApi.Layout
