import OptionsApi.Text.Blank

/-! Parentheses around a whole type. -/

set_option autoImplicit false

namespace OptionsApi.TypeText

/-- Whether the parentheses open at a depth are all closed before the text ends. -/
def closesEarly (depth : Nat) : Text → Bool
  | [] => false
  | '(' :: rest => closesEarly (depth + 1) rest
  | ')' :: rest => if depth ≤ 1 then !rest.isEmpty else closesEarly (depth - 1) rest
  | _ :: rest => closesEarly depth rest

/-- Whether a text stands in parentheses as a whole: the first one is not closed before the end. -/
def isParenthesized (text : Text) : Bool :=
  text.head? = some '(' && text.getLast? = some ')' && !closesEarly 0 text

def inner (text : Text) : Text := text.tail.dropLast

theorem length_inner_lt {text : Text} (parenthesized : isParenthesized text = true) :
    (inner text).length < text.length := by
  cases text with
  | nil => simp [isParenthesized] at parenthesized
  | cons c rest =>
    simp only [inner, List.tail_cons, List.length_dropLast, List.length_cons]
    omega

/-- The text without the parentheses that wrap all of it and without the blanks around it. -/
def stripParens (text : Text) : Text :=
  if parenthesized : isParenthesized (Text.trim text) = true then
    have : (inner (Text.trim text)).length < text.length :=
      Nat.lt_of_lt_of_le (length_inner_lt parenthesized) (Text.length_trim_le text)
    stripParens (inner (Text.trim text))
  else Text.trim text
termination_by text.length

end OptionsApi.TypeText
