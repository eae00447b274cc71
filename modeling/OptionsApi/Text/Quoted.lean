import OptionsApi.Text.Basic
import OptionsApi.Text.Printable

/-! Texts in messages: a text in quotes, with what cannot be printed escaped, and a list of such
texts in brackets. -/

set_option autoImplicit false

namespace OptionsApi.Text

/-- Single quotes, unless the text has single quotes and no double ones. -/
def messageQuote (text : Text) : Char :=
  if text.contains '\'' && !text.contains '"' then '"' else '\''

def escapeInMessage (quote c : Char) : Text :=
  if c = quote ∨ c = '\\' then ['\\', c]
  else if c = '\n' then ['\\', 'n']
  else if c = '\r' then ['\\', 'r']
  else if c = '\t' then ['\\', 't']
  else if isPrintable c then [c]
  else if c.toNat < 0x100 then '\\' :: 'x' :: hexadecimal 2 c.toNat
  else if c.toNat < 0x10000 then '\\' :: 'u' :: hexadecimal 4 c.toNat
  else '\\' :: 'U' :: hexadecimal 8 c.toNat

def quoted (text : Text) : Text :=
  let quote := messageQuote text
  quote :: text.flatMap (escapeInMessage quote) ++ [quote]

def quotedList (texts : List Text) : Text :=
  '[' :: join ", " (texts.map quoted) ++ [']']

end OptionsApi.Text
