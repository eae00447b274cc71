import OptionsApi.Text.Basic

/-! String literals of the generated code: the text of a value between quotes. -/

set_option autoImplicit false

namespace OptionsApi

inductive Quote where
  | single
  | double
  deriving DecidableEq, Repr

def Quote.char : Quote → Char
  | .single => '\''
  | .double => '"'

/-- A backslash, the quote itself and line ends are escaped; all else stands for itself. -/
def Quote.escape (quote : Quote) (c : Char) : Text :=
  if c = '\\' ∨ c = quote.char then ['\\', c]
  else if c = '\n' then ['\\', 'n']
  else if c = '\r' then ['\\', 'r']
  else [c]

def Quote.literal (quote : Quote) (value : Text) : Text :=
  quote.char :: value.flatMap quote.escape ++ [quote.char]

end OptionsApi
