import OptionsApi.Text.Basic

/-! Control sequences of terminals. Such a sequence is the escape character, an opening bracket,
parameters, and the letter that ends it. -/

set_option autoImplicit false

namespace OptionsApi.Text

def isParameter (c : Char) : Bool := c = ';' || c = '?' || c.isDigit

/-- What stands behind a control sequence, given what stands behind its bracket. -/
def afterParameters? (text : Text) : Option Text :=
  match text.dropWhile isParameter with
  | c :: rest => if c.isAlpha then some rest else none
  | [] => none

theorem length_afterParameters?_lt {text rest : Text} (found : afterParameters? text = some rest) :
    rest.length < text.length := by
  have dropped : (text.dropWhile isParameter).length ≤ text.length :=
    (List.dropWhile_sublist isParameter).length_le
  rw [afterParameters?] at found
  split at found
  · next c behind same =>
    split at found
    · cases found
      rw [same, List.length_cons] at dropped
      omega
    · cases found
  · cases found

/-- Drops the control sequences. What is left may form others, and these stay. -/
def dropControlSequences : Text → Text
  | [] => []
  | '\x1b' :: '[' :: rest =>
    match found : afterParameters? rest with
    | some behind =>
      have : behind.length < rest.length := length_afterParameters?_lt found
      dropControlSequences behind
    | none => '\x1b' :: '[' :: dropControlSequences rest
  | c :: rest => c :: dropControlSequences rest
termination_by text => text.length

end OptionsApi.Text
