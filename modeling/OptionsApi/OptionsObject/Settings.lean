import OptionsApi.Text.Basic

/-! Settings of the generated code. -/

set_option autoImplicit false

namespace OptionsApi

structure Settings where
  /-- What is called with the options object. -/
  factory : Text := "Vue.extend"
  /-- The module and the name of the type that keeps a prop's static type. -/
  propTypeModule : Text := "vue"
  propTypeName : Text := "PropType"
  /-- The return type of a getter whose type is not known. -/
  fallbackReturnType : Text := "any"
  /-- Spaces for each level. -/
  indent : Int := 4
  deriving DecidableEq, Repr

end OptionsApi
