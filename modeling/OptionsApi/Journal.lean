import OptionsApi.Component.Error
import OptionsApi.Text.Quoted

/-! What a conversion leaves behind besides its result: the imports it asks for, the notes for the
reader of the generated code, and the log. All three are kept when the conversion fails. -/

set_option autoImplicit false

namespace OptionsApi

inductive LogLevel where
  | debug
  | info
  | warning
  | error
  deriving DecidableEq, Repr

structure LogEntry where
  level : LogLevel
  message : Text
  deriving DecidableEq, Repr

abbrev Log := List LogEntry

inductive DiagnosticKind where
  | manualReturnType
  | requiredDropped
  deriving DecidableEq, Repr

structure Diagnostic where
  kind : DiagnosticKind
  subject : Text
  message : Text
  deriving DecidableEq, Repr

/-- Names to import by module, both in the order of the first request. -/
abbrev ImportQueue := List (Text × List Text)

def ImportQueue.contains (moduleName name : Text) (queue : ImportQueue) : Bool :=
  queue.any fun (key, names) => key = moduleName && names.contains name

def ImportQueue.insert (moduleName name : Text) : ImportQueue → ImportQueue
  | [] => [(moduleName, [name])]
  | (key, names) :: rest =>
    if key = moduleName then (key, if names.contains name then names else names ++ [name]) :: rest
    else (key, names) :: ImportQueue.insert moduleName name rest

structure Journal where
  imports : ImportQueue := []
  /-- Whether anyone takes the diagnostics. -/
  listening : Bool := true
  diagnostics : List Diagnostic := []
  log : Log := []
  deriving DecidableEq, Repr

namespace Journal

def note (level : LogLevel) (message : Text) (journal : Journal) : Journal :=
  { journal with log := journal.log ++ [⟨level, message⟩] }

def requireImport (moduleName name : Text) (journal : Journal) : Journal :=
  if journal.imports.contains moduleName name then journal
  else
    { journal with imports := journal.imports.insert moduleName name }.note .debug
      ("Queued import of " ++ name ++ " from '" ++ moduleName ++ "'")

def diagnose (diagnostic : Diagnostic) (journal : Journal) : Journal :=
  let noted := journal.note .warning diagnostic.message
  if journal.listening then { noted with diagnostics := noted.diagnostics ++ [diagnostic] }
  else noted

end Journal

/-- A step of a conversion: it may fail, and writes to the journal either way. -/
abbrev Build := ExceptT Refusal (StateM Journal)

namespace Build

def note (message : Text) : Build Unit := modify (Journal.note .debug message)

def requireImport (moduleName name : Text) : Build Unit :=
  modify (Journal.requireImport moduleName name)

def diagnose (diagnostic : Diagnostic) : Build Unit := modify (Journal.diagnose diagnostic)

def refuse {α : Type} (cause : Cause) (site : Site) : Build α :=
  throw (Violation.refusal ⟨cause, site⟩)

end Build

end OptionsApi
