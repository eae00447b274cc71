import OptionsApi.Text.Blank

/-! Integers in texts. In reading, white space may stand around an integer, a sign and zeros in front
of it, a fraction of nothing but zeros behind it, and single underscores inside it. What is left
without them is a numeral. -/

set_option autoImplicit false

namespace OptionsApi.Text

/-- White space in the sense of Unicode: the blanks without the information separators. -/
def isWhiteSpace (c : Char) : Bool := isBlank c && !(0x1C ≤ c.toNat && c.toNat ≤ 0x1F)

def trimWhiteSpace (text : Text) : Text :=
  ((text.dropWhile isWhiteSpace).reverse.dropWhile isWhiteSpace).reverse

/-- Drops the zeros, and the underscores among them, that follow a zero. A numeral may follow, also
one with a minus sign; the last of them stays if none does. -/
def dropZeros? (last : Char) : Text → Option Text
  | [] => some [last]
  | c :: rest =>
    if c = '0' || c = '_' then dropZeros? c rest
    else if c.isDigit || c = '-' then some (c :: rest)
    else if c = '.' then some (last :: c :: rest)
    else none

def dropLeadingZeros? : Text → Option Text
  | [] => none
  | c :: rest =>
    if c = '0' then dropZeros? c rest
    else if c.isDigit then some (c :: rest)
    else none

def dropZeroFraction (text : Text) : Text :=
  match cutAt '.' text with
  | some (whole, fraction) =>
    if !fraction.isEmpty && fraction.all (· = '0') then whole else text
  | none => text

/-- Drops the underscores; each must stand alone between other characters. -/
def dropUnderscores? (text : Text) : Option Text :=
  let pieces := splitOn '_' text
  if pieces.all (!·.isEmpty) then some pieces.flatten else none

def simplify? (text : Text) : Option Text := do
  dropUnderscores? (dropZeroFraction (← dropLeadingZeros? text))

def digitsValue (digits : Text) : Nat :=
  digits.foldl (fun value c => value * 10 + (c.toNat - '0'.toNat)) 0

def maxDigits : Nat := 4300

def readDigits? : Text → Option Nat
  | [] => none
  | '0' :: _ :: _ => none
  | digits =>
    if digits.all Char.isDigit && digits.length ≤ maxDigits then some (digitsValue digits) else none

def readNumeral? : Text → Option Int
  | '-' :: digits => (readDigits? digits).map fun n => -(n : Int)
  | digits => (readDigits? digits).map fun n => (n : Int)

def readInt? (text : Text) : Option Int := do
  match trimWhiteSpace text with
  | '-' :: number => readNumeral? ('-' :: (← simplify? number))
  | '+' :: number => readNumeral? (← simplify? number)
  | number => readNumeral? (← simplify? number)

inductive NumeralError where
  | tooLong
  deriving DecidableEq, Repr

def NumeralError.message : NumeralError → Text
  | .tooLong =>
    "Exceeds the limit (" ++ Text.ofNat maxDigits ++ " digits) for integer string conversion; " ++
      "use sys.set_int_max_str_digits() to increase the limit"

def hasNumeral (n : Int) : Bool := (ofNat n.natAbs).length ≤ maxDigits

def numeral (n : Int) : Except NumeralError Text :=
  if hasNumeral n then .ok (ofInt n) else .error .tooLong

end OptionsApi.Text
