import OptionsApi.Failure
import OptionsApi.Import.Ensure
import OptionsApi.OptionsObject.Assemble
import OptionsApi.Tree.Render

/-! Conversion of a document: the class component in it becomes the default export of an options
object. The document is edited only when the whole options object has been built. -/

set_option autoImplicit false

namespace OptionsApi

abbrev Extractor := Document → Except Failure (Option Component)

inductive Registration where
  /-- They are written into the document. -/
  | edit
  /-- They are only recorded. -/
  | record
  deriving DecidableEq, Repr

structure Session where
  document : Document
  /-- The diagnostics delivered so far. -/
  diagnostics : List Diagnostic := []
  /-- The imports recorded so far. -/
  requests : ImportQueue := []
  log : Log := []
  deriving DecidableEq, Repr

/-- An action on a document. What it changed before it failed stays changed. -/
abbrev Action := ExceptT Failure (StateM Session)

namespace Action

def note (message : Text) : Action Unit :=
  modify fun session => { session with log := session.log ++ [⟨.debug, message⟩] }

def edit (change : Document → Except EditError Document) : Action Unit := do
  match change (← get).document with
  | .ok document => modify fun session => { session with document }
  | .error error => throw (.edit error)

def change (change : Document → Document) : Action Unit :=
  modify fun session => { session with document := change session.document }

def format (indent : Int) : Action Unit := do
  match Layout.indentWidth indent with
  | .ok _ => change (·.format indent)
  | .error error => throw (.indent error)

def remove (start stop : Int) : Action Unit := do
  let text := (← get).document.text
  edit (·.remove start stop)
  let reached := Document.removalEnd text stop.toNat
  note ("Removing source span [" ++ Text.ofInt start ++ ", " ++ Text.ofNat reached ++ ")")

def ensureImport (moduleName : Text) (names : List Text) : Action Unit := do
  let ensured := Import.ensure moduleName names (← get).document.text
  change (·.replace ensured.text)
  match ensured.change with
  | .unchanged => return
  | .merged added =>
    note ("Added " ++ Text.quotedList added ++ " to the import of '" ++ moduleName ++ "'")
  | .added added => note ("Imported " ++ Text.quotedList added ++ " from '" ++ moduleName ++ "'")

def register (registration : Registration) (moduleName : Text) (names : List Text) : Action Unit :=
  match registration with
  | .edit => ensureImport moduleName names
  | .record =>
    modify fun session => { session with requests := session.requests ++ [(moduleName, names)] }

/-- Runs a step of the conversion; its diagnostics and its log are kept also if it fails. -/
def build {α : Type} (step : Build α) : Action (α × Journal) := do
  let (outcome, journal) := step.run.run {}
  modify fun session =>
    { session with
      diagnostics := session.diagnostics ++ journal.diagnostics
      log := session.log ++ journal.log }
  match outcome with
  | .ok value => return (value, journal)
  | .error refusal => throw refusal.failure

end Action

structure Converted where
  component : Text
  diagnostics : List Diagnostic
  deriving DecidableEq, Repr

def Document.displayPath (document : Document) : Text :=
  match document.path with
  | some (c :: rest) => c :: rest
  | _ => "<memory>"

def Component.replaceClass (settings : Settings) (registration : Registration)
    (component : Component) : Action Converted := do
  let ((tree, name), journal) ← Action.build do
    return (← component.assemble settings, ← component.head.requireName)
  match tree.render settings.indent with
  | .error failure => throw failure
  | .ok expression =>
    -- Everything is taken from the component by now: from here on the document changes.
    Action.remove component.head.start component.head.stop
    Action.change (·.appendExport expression (classDocumentation? component.head.docs))
    journal.imports.forM fun (moduleName, names) => Action.register registration moduleName names
    Action.format settings.indent
    Action.note ("Converted component " ++ name)
    return ⟨name, journal.diagnostics⟩

def convertDocument (extract : Extractor) (settings : Settings) (registration : Registration) :
    Action (Option Converted) := do
  let document := (← get).document
  match extract document with
  | .error failure => throw failure
  | .ok none =>
    Action.note ("No class component found in " ++ document.displayPath)
    return none
  | .ok (some component) => return some (← component.replaceClass settings registration)

end OptionsApi
