import OptionsApi.TypeText.Chunk
import OptionsApi.TypeText.Parens

/-! Callable types, told from their text: function types, and type literals with a call
signature. -/

set_option autoImplicit false

namespace OptionsApi.TypeText

/-- Constructor types build objects and are not called. -/
def isConstructorType (text : Text) : Bool :=
  "new ".toList.isPrefixOf text || "abstract new ".toList.isPrefixOf text

def isTypeLiteral (text : Text) : Bool := text.head? = some '{' && text.getLast? = some '}'

/-- A member of a type literal that begins with its parameters, or with the parameters of its
type. -/
def isCallSignature (member : Text) : Bool :=
  match Text.trim member with
  | c :: _ => c == '(' || c == '<'
  | [] => false

def isCallable (text : Text) : Bool :=
  let bare := stripParens text
  if isConstructorType bare then false
  else if (chunks 0 bare).contains arrow then true
  else isTypeLiteral bare && (chunks 0 (inner bare)).any isCallSignature

end OptionsApi.TypeText
