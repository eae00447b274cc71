import OptionsApi.Component.Basic
import OptionsApi.Text.Integer

/-! Why a component cannot be converted, and where. What is told names the line, so a line without a
numeral cannot be told. -/

set_option autoImplicit false

namespace OptionsApi

inductive Cause where
  | namelessClass
  | entryWithoutInitializer (name : Text)
  | untypedProp (name : Text)
  | dataWithoutValue (name : Text)
  | setterWithoutParameter (name : Text)
  | setterWithoutGetter (name : Text)
  /-- A reason given by who found the component. -/
  | reported (message : Text)
  deriving DecidableEq, Repr

def Cause.message : Cause → Text
  | .namelessClass => "Expected the component class to have a name"
  | .entryWithoutInitializer name => "Expected '" ++ name ++ "' to have an initializer"
  | .untypedProp name => "Prop '" ++ name ++ "' needs an explicit type annotation"
  | .dataWithoutValue name => "Data field '" ++ name ++ "' has no initial value"
  | .setterWithoutParameter name =>
    "Computed setter 「" ++ name ++ "」 doesn't seem to have a parameter."
  | .setterWithoutGetter name =>
    "Found an illegal computed setter 「" ++ name ++ "」 without a getter."
  | .reported message => message

structure Site where
  file : Option Text := none
  line : Option Int := none
  deriving DecidableEq, Repr

def ClassHead.site (head : ClassHead) : Site := ⟨head.file, head.line⟩
def Entry.site (entry : Entry) : Site := ⟨none, entry.line⟩
def Field.site (field : Field) : Site := ⟨none, field.line⟩
def Getter.site (getter : Getter) : Site := ⟨none, getter.line⟩
def Setter.site (setter : Setter) : Site := ⟨none, setter.line⟩

def baseName (path : Text) : Text := (path.reverse.takeWhile (· != '/')).reverse

/-- The place as the end of a message. An empty file name and line zero say nothing. -/
def Site.suffix (site : Site) : Text :=
  (match site.file with
    | some file => if file.isEmpty then [] else " in " ++ baseName file
    | none => []) ++
  match site.line with
    | some line => if line = 0 then [] else " at line " ++ Text.ofInt line
    | none => []

def Site.isWritable (site : Site) : Bool := site.line.all Text.hasNumeral

structure Violation where
  cause : Cause
  site : Site := {}
  deriving DecidableEq, Repr

/-- A violation that can be told. -/
structure ConversionError extends Violation where
  writable : site.isWritable = true := by rfl
  deriving DecidableEq, Repr

def ConversionError.message (error : ConversionError) : Text :=
  error.cause.message ++ error.site.suffix

inductive Refusal where
  | conversion (error : ConversionError)
  | numeral (error : Text.NumeralError)
  deriving DecidableEq, Repr

def Violation.refusal (violation : Violation) : Refusal :=
  if writable : violation.site.isWritable then .conversion ⟨violation, writable⟩
  else .numeral .tooLong

def ConversionError.relocated (error : ConversionError) (site : Site) : Refusal :=
  Violation.refusal ⟨error.cause, site⟩

end OptionsApi
