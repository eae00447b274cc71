/-! Texts and their lines. Every text the library carries is a list of characters, so offsets,
lengths and cuts count code points, and a text is taken apart by recursion. -/

set_option autoImplicit false

namespace OptionsApi

abbrev Text := List Char

instance : Coe String Text := ⟨String.toList⟩

namespace Text

/-- The pieces between the separators; there is one piece more than there are separators. -/
def splitOn (separator : Char) : Text → List Text
  | [] => [[]]
  | c :: rest =>
    if c = separator then [] :: splitOn separator rest
    else
      match splitOn separator rest with
      | [] => [[c]]
      | piece :: pieces => (c :: piece) :: pieces

/-- The lines of a text. Only a line feed ends a line, and the text after the last one counts. -/
def lines (text : Text) : List Text := splitOn '\n' text

def ofLines (lines : List Text) : Text := lines.flatMap (· ++ ['\n'])

def join (separator : Text) (pieces : List Text) : Text := separator.intercalate pieces

def spaces (count : Nat) : Text := List.replicate count ' '

def ofNat (n : Nat) : Text := Nat.toDigits 10 n

def ofInt : Int → Text
  | .ofNat n => ofNat n
  | .negSucc n => '-' :: ofNat (n + 1)

/-- At least the given number of hexadecimal digits, in lower case. -/
def hexadecimal (width n : Nat) : Text :=
  let digits := Nat.toDigits 16 n
  List.replicate (width - digits.length) '0' ++ digits

def cutAt (separator : Char) : Text → Option (Text × Text)
  | [] => none
  | c :: rest =>
    if c = separator then some ([], rest)
    else (cutAt separator rest).map fun (before, behind) => (c :: before, behind)

def after (start text : Text) : Option Text :=
  if start.isPrefixOf text then some (text.drop start.length) else none

theorem append_of_after {start text rest : Text} (found : after start text = some rest) :
    start ++ rest = text := by
  unfold after at found
  split at found
  next begins =>
    obtain ⟨left, rfl⟩ := List.isPrefixOf_iff_prefix.mp begins
    simpa using found.symm
  next => simp at found

end Text

end OptionsApi
