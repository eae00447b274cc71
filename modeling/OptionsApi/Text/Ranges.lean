/-! Sets of code points given as lists of closed intervals. -/

set_option autoImplicit false

namespace OptionsApi.Text

abbrev Ranges := List (Nat × Nat)

def Ranges.contains (ranges : Ranges) (n : Nat) : Bool :=
  ranges.any fun range => range.1 ≤ n && n ≤ range.2

end OptionsApi.Text
