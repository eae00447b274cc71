import OptionsApi.Component.Error
import OptionsApi.Document.Basic
import OptionsApi.File.Store
import OptionsApi.Tree.Print

/-! Everything that can stop the work on a document. -/

set_option autoImplicit false

namespace OptionsApi

inductive Failure where
  | conversion (error : ConversionError)
  | numeral (error : Text.NumeralError)
  | edit (error : EditError)
  | misplaced (error : Misplaced)
  | indent (error : Layout.IndentError)
  | path (error : PathError)
  | file (error : FileError)
  | decoding (error : Text.DecodeError)
  | encoding (error : Text.EncodeError)
  /-- The system failed under an extractor. -/
  | extractorSystem (message : Text)
  /-- An extractor failed in any other way, which it names itself. -/
  | extractorDefect (kind message : Text)
  deriving DecidableEq, Repr

def Failure.message : Failure → Text
  | .conversion error => error.message
  | .numeral error => error.message
  | .edit error => error.message
  | .misplaced error => error.message
  | .indent error => error.message
  | .path error => error.message
  | .file error => error.message
  | .decoding error => error.message
  | .encoding error => error.message
  | .extractorSystem message => message
  | .extractorDefect _ message => message

/-- Whether a failure concerns its file only, so that the work goes on with the next one. -/
def Failure.isContained : Failure → Bool
  | .conversion _ | .file _ | .decoding _ | .extractorSystem _ => true
  | .numeral _ | .edit _ | .misplaced _ | .indent _ | .path _ | .encoding _ | .extractorDefect .. =>
    false

def Refusal.failure : Refusal → Failure
  | .conversion error => .conversion error
  | .numeral error => .numeral error

end OptionsApi
