import OptionsApi.TypeText.Callable

/-! Runtime markers. Vue checks props at run time by a handful of constructors; a declared type is
mapped onto one of them by what its text shows. -/

set_option autoImplicit false

namespace OptionsApi

/-- A type as written in a declaration, with the number of call signatures where it is known. -/
structure DeclaredType where
  text : Text
  callSignatures : Option Int := none
  deriving DecidableEq, Repr

inductive Primitive where
  | string
  | number
  | boolean
  deriving DecidableEq, Repr

def Primitive.typeName : Primitive → Text
  | .string => "string"
  | .number => "number"
  | .boolean => "boolean"

def Primitive.marker : Primitive → Text
  | .string => "String"
  | .number => "Number"
  | .boolean => "Boolean"

def Primitive.ofTypeText? (text : Text) : Option Primitive :=
  [Primitive.string, .number, .boolean].find? fun primitive => primitive.typeName = Text.trim text

inductive Shape where
  | function
  | array
  | object
  deriving DecidableEq, Repr

def Shape.marker : Shape → Text
  | .function => "Function"
  | .array => "Array"
  | .object => "Object"

/-- A known number of call signatures decides; otherwise the text does. -/
def DeclaredType.isCallable (declared : DeclaredType) : Bool :=
  match declared.callSignatures with
  | some count => count > 0
  | none => TypeText.isCallable declared.text

def TypeText.isArray (text : Text) : Bool :=
  "Array<".toList.isPrefixOf (Text.trim text) || "[]".toList.isSuffixOf (Text.trim text)

def DeclaredType.shape (declared : DeclaredType) : Shape :=
  if declared.isCallable then .function
  else if TypeText.isArray declared.text then .array
  else .object

end OptionsApi
