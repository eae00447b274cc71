import OptionsApi.Text.Basic

/-! Blank characters and trimming. The blank characters are the white space of Unicode together
with the four information separators; zero width spaces and the byte order mark are not blank. -/

set_option autoImplicit false

namespace OptionsApi.Text

def isBlank (c : Char) : Bool :=
  let n := c.toNat
  (0x09 ≤ n && n ≤ 0x0D) || (0x1C ≤ n && n ≤ 0x20) || n == 0x85 || n == 0xA0 || n == 0x1680 ||
    (0x2000 ≤ n && n ≤ 0x200A) || n == 0x2028 || n == 0x2029 || n == 0x202F || n == 0x205F ||
    n == 0x3000

/-- A space or a tab: the blanks that may stand inside a line without ending it. -/
def isInlineBlank (c : Char) : Bool := c == ' ' || c == '\t'

def trimStart (text : Text) : Text := text.dropWhile isBlank

def trimEnd : Text → Text
  | [] => []
  | c :: rest =>
    match trimEnd rest with
    | [] => if isBlank c then [] else [c]
    | kept => c :: kept

def trim (text : Text) : Text := trimEnd (trimStart text)

def isBlankText (text : Text) : Bool := text.all isBlank

theorem length_trimEnd_le (text : Text) : (trimEnd text).length ≤ text.length := by
  induction text with
  | nil => exact Nat.le_refl _
  | cons c rest ih =>
    rw [trimEnd]
    split
    · split <;> simp
    · simpa using ih

theorem length_trim_le (text : Text) : (trim text).length ≤ text.length := by
  have dropped : (trimStart text).length ≤ text.length :=
    (List.dropWhile_sublist isBlank).length_le
  exact Nat.le_trans (length_trimEnd_le _) dropped

end OptionsApi.Text
