import OptionsApi.Text.Basic

/-! Counts and offsets as a machine holds them: signed words of 64 bits. -/

set_option autoImplicit false

namespace OptionsApi.Text

def isWord (n : Int) : Bool := -0x8000000000000000 ≤ n && n < 0x8000000000000000

def notWordMessage : Text := "cannot fit 'int' into an index-sized integer"

end OptionsApi.Text
