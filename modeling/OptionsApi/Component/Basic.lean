import OptionsApi.TypeText.Marker

/-! A class component as it was found in a file: its class, the options of its decorator, its props,
its data fields and its accessors. Texts are those of the file, so they can be carried over as
written. -/

set_option autoImplicit false

namespace OptionsApi

/-- A documentation block: its description without the comment markers, and the block as written. -/
structure DocBlock where
  comment : Option Text := none
  fullText : Text := []
  deriving DecidableEq, Repr

/-- An entry of an object literal. A shorthand or a method has no initializer. -/
structure Entry where
  name : Text
  initializer : Option Text := none
  text : Text := []
  line : Option Int := none
  deriving DecidableEq, Repr

structure Field where
  name : Text
  type : Option DeclaredType := none
  initializer : Option Text := none
  docs : List DocBlock := []
  line : Option Int := none
  deriving DecidableEq, Repr

structure PropField where
  field : Field
  defaultEntry : Option Entry := none
  requiredEntry : Option Entry := none
  deriving DecidableEq, Repr

structure Parameter where
  name : Text
  type : Option DeclaredType := none
  written : Text := []
  deriving DecidableEq, Repr

def Parameter.text (parameter : Parameter) : Text :=
  if parameter.written.isEmpty then
    match parameter.type with
    | some type => parameter.name ++ ": " ++ type.text
    | none => parameter.name
  else parameter.written

structure Getter where
  body : List Text := []
  returnType : Option DeclaredType := none
  line : Option Int := none
  deriving DecidableEq, Repr

structure Setter where
  body : List Text := []
  parameters : List Parameter := []
  line : Option Int := none
  deriving DecidableEq, Repr

structure Accessors where
  getter : Option Getter := none
  setter : Option Setter := none
  deriving DecidableEq, Repr

/-- The class itself. Its span begins with its documentation and decorators and ends behind its
closing brace. -/
structure ClassHead where
  name : Option Text := none
  start : Int := 0
  stop : Int := 0
  docs : List DocBlock := []
  file : Option Text := none
  line : Option Int := none
  deriving DecidableEq, Repr

structure Component where
  head : ClassHead
  /-- The entries of the decorator's argument. -/
  decoratorOptions : List Entry := []
  props : List PropField := []
  data : List Field := []
  computed : List (Text × Accessors) := []
  deriving DecidableEq, Repr

end OptionsApi
