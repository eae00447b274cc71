import OptionsApi.Document.Convert

/-! One document in a store of files, and the operations on it. -/

set_option autoImplicit false

namespace OptionsApi

def FileStore.load (files : FileStore) (path : Text) : Except Failure Document :=
  match Path.read files.unnameable path with
  | .error error => .error (.path error)
  | .ok place =>
    match files.read place with
    | .error error => .error (.file error)
    | .ok bytes =>
      match Text.decodeUtf8 bytes with
      | .error error => .error (.decoding error)
      | .ok text => .ok ⟨Text.unifyLineEnds text, some path⟩

def FileStore.save (files : FileStore) (document : Document) (path : Option Text) :
    Except Failure Text × FileStore :=
  match document.saveTarget? path with
  | none => (.error (.edit .noPath), files)
  | some target =>
    match Path.read files.unnameable target with
    | .error error => (.error (.path error), files)
    | .ok place =>
      let encoded := Text.encode files.unencodable document.text
      -- The file is opened, and so emptied, before the text is encoded.
      match files.write place (encoded.toOption.getD []), encoded with
      | .error error, _ => (.error (.file error), files)
      | .ok written, .ok _ => (.ok target, written)
      | .ok emptied, .error error => (.error (.encoding error), emptied)

def savedMessage (target : Text) : Text := "Saved " ++ target

structure Workspace where
  document : Document
  files : FileStore := {}
  deriving DecidableEq, Repr

inductive Operation where
  | insert (position : Int) (text : Text)
  | remove (start stop : Int)
  | replace (text : Text)
  | appendExport (expression : Text) (lead : Option Text)
  | format (indent : Int)
  | ensureImport (moduleName : Text) (names : List Text)
  | convert (extract : Extractor) (settings : Settings) (registration : Registration)
  | save (path : Option Text)
  | load (path : Text)

/-- What an operation did. The workspace is as the operation left it, also if it failed. -/
structure Performed where
  outcome : Except Failure (Option Converted)
  workspace : Workspace
  diagnostics : List Diagnostic := []
  requests : ImportQueue := []
  log : Log := []

namespace Workspace

def act (action : Action (Option Converted)) (workspace : Workspace) : Performed :=
  let (outcome, session) := action.run.run { document := workspace.document }
  { outcome
    workspace := { workspace with document := session.document }
    diagnostics := session.diagnostics
    requests := session.requests
    log := session.log }

def perform (operation : Operation) (workspace : Workspace) : Performed :=
  match operation with
  | .insert position text => workspace.act (do Action.edit (·.insert position text); return none)
  | .remove start stop => workspace.act (do Action.remove start stop; return none)
  | .replace text => workspace.act (do Action.change (·.replace text); return none)
  | .appendExport expression lead =>
    workspace.act (do Action.change (·.appendExport expression lead); return none)
  | .format indent => workspace.act (do Action.format indent; return none)
  | .ensureImport moduleName names =>
    workspace.act (do Action.ensureImport moduleName names; return none)
  | .convert extract settings registration =>
    workspace.act (convertDocument extract settings registration)
  | .save path =>
    match workspace.files.save workspace.document path with
    | (.ok target, files) =>
      { outcome := .ok none
        workspace := { workspace with files }
        log := [⟨.debug, savedMessage target⟩] }
    | (.error failure, files) =>
      { outcome := .error failure, workspace := { workspace with files } }
  | .load path =>
    match workspace.files.load path with
    | .ok document => { outcome := .ok none, workspace := { workspace with document } }
    | .error failure => { outcome := .error failure, workspace }

end Workspace

end OptionsApi
