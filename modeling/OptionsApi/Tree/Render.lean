import OptionsApi.Failure

/-! A tree as the text of an expression. The indentation has to be usable and every node in its
place; the indentation is looked at first. -/

set_option autoImplicit false

namespace OptionsApi

def Node.render (indent : Int) (node : Node) : Except Failure Text :=
  match Layout.indentWidth indent with
  | .error error => .error (.indent error)
  | .ok _ => (node.text? indent).mapError .misplaced

end OptionsApi
