import OptionsApi.Text.DecimalDigit
import OptionsApi.TypeText.Marker

/-! The type of a literal, told from its text. -/

set_option autoImplicit false

namespace OptionsApi.TypeText

def isDigitOrUnderscore (c : Char) : Bool := Text.isDecimalDigit c || c == '_'

def isRadixDigit (radix : Char) (c : Char) : Bool :=
  if radix = 'x' ∨ radix = 'X' then
    c.isDigit || ('a' ≤ c && c ≤ 'f') || ('A' ≤ c && c ≤ 'F') || c == '_'
  else if radix = 'b' ∨ radix = 'B' then c == '0' || c == '1' || c == '_'
  else if radix = 'o' ∨ radix = 'O' then ('0' ≤ c && c ≤ '7') || c == '_'
  else false

def isRadixNumber : Text → Bool
  | '0' :: radix :: c :: rest => (c :: rest).all (isRadixDigit radix)
  | _ => false

/-- What follows the digits of a decimal number: at most the mark of a big integer. -/
def isNumberEnd (text : Text) : Bool := text.isEmpty || text = ['n']

def isExponentAndEnd : Text → Bool
  | c :: rest =>
    if c = 'e' ∨ c = 'E' then
      let digits :=
        match rest with
        | '+' :: digits => digits
        | '-' :: digits => digits
        | digits => digits
      (digits.head?.any Text.isDecimalDigit) && isNumberEnd (digits.dropWhile Text.isDecimalDigit)
    else isNumberEnd (c :: rest)
  | [] => true

/-- Digits with an optional fraction, or a fraction alone; then an optional exponent. -/
def isDecimalNumber : Text → Bool
  | '.' :: c :: rest =>
    Text.isDecimalDigit c && isExponentAndEnd (rest.dropWhile isDigitOrUnderscore)
  | c :: rest =>
    Text.isDecimalDigit c &&
      match rest.dropWhile isDigitOrUnderscore with
      | '.' :: fraction => isExponentAndEnd (fraction.dropWhile isDigitOrUnderscore)
      | other => isExponentAndEnd other
  | [] => false

def isNumberLiteral (text : Text) : Bool :=
  let unsigned :=
    match text with
    | '-' :: rest => rest
    | other => other
  isRadixNumber unsigned || isDecimalNumber unsigned

def isQuoted : Text → Bool
  | quote :: c :: rest =>
    (quote == '\'' || quote == '"' || quote == '`') && (c :: rest).getLast? = some quote
  | _ => false

def literalType? (initializer : Text) : Option Primitive :=
  let text := Text.trim initializer
  if isQuoted text then some .string
  else if text = ("true" : Text) ∨ text = ("false" : Text) then some .boolean
  else if isNumberLiteral text then some .number
  else none

end OptionsApi.TypeText
