import OptionsApi.Text.Word

/-! The indentation of one level. -/

set_option autoImplicit false

namespace OptionsApi.Layout

inductive IndentError where
  | notWord
  deriving DecidableEq, Repr

def IndentError.message : IndentError → Text
  | .notWord => Text.notWordMessage

/-- The spaces of one level. A negative indentation is none. -/
def indentWidth (indent : Int) : Except IndentError Nat :=
  if Text.isWord indent then .ok indent.toNat else .error .notWord

end OptionsApi.Layout
