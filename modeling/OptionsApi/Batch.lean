import OptionsApi.Document.Workspace

/-! Conversion of many files. Each file is on its own: a failure that concerns one file goes into
its report, and the others are converted all the same. -/

set_option autoImplicit false

namespace OptionsApi

inductive Status where
  | converted
  | skipped
  | failed
  deriving DecidableEq, Repr

structure Report where
  path : Text
  status : Status
  component : Option Text := none
  diagnostics : List Diagnostic := []
  error : Option Text := none
  /-- The converted text, if it was not written. -/
  output : Option Text := none
  deriving DecidableEq, Repr

/-- The work so far: the files, the log, and a result unless a failure stopped the work. -/
structure Progress (α : Type) where
  outcome : Except Failure α
  files : FileStore
  log : Log

def logError (path : Text) (failure : Failure) : LogEntry :=
  ⟨.error, path ++ ": " ++ failure.message⟩

def Failure.report (failure : Failure) (path : Text) (files : FileStore) (log : Log) :
    Progress Report :=
  if failure.isContained then
    { outcome := .ok { path, status := .failed, error := some failure.message }
      files
      log := log ++ [logError path failure] }
  else { outcome := .error failure, files, log }

def finishFile (path : Text) (write : Bool) (files : FileStore) (converted : Converted)
    (document : Document) (log : Log) : Progress Report :=
  let done : LogEntry := ⟨.info, path ++ ": converted " ++ converted.component⟩
  let report : Report :=
    { path
      status := .converted
      component := some converted.component
      diagnostics := converted.diagnostics }
  if write then
    -- A document that was loaded goes back to where it came from.
    match files.save document none with
    | (.error failure, files) => failure.report path files log
    | (.ok target, files) =>
      { outcome := .ok report
        files
        log := log ++ [⟨.debug, savedMessage target⟩, done] }
  else { outcome := .ok { report with output := some document.text }, files, log := log ++ [done] }

def convertFile (extract : Extractor) (settings : Settings) (write : Bool) (files : FileStore)
    (path : Text) : Progress Report :=
  match files.load path with
  | .error failure => failure.report path files []
  | .ok document =>
    let (outcome, session) := (convertDocument extract settings .edit).run.run { document }
    match outcome with
    | .error failure => failure.report path files session.log
    | .ok none =>
      { outcome := .ok { path, status := .skipped }
        files
        log := session.log ++ [⟨.info, path ++ ": no class component, skipped"⟩] }
    | .ok (some converted) => finishFile path write files converted session.document session.log

def convertFiles (extract : Extractor) (settings : Settings) (write : Bool) (files : FileStore) :
    List Text → Progress (List Report)
  | [] => { outcome := .ok [], files, log := [] }
  | path :: paths =>
    let first := convertFile extract settings write files path
    match first.outcome with
    | .error failure => { outcome := .error failure, files := first.files, log := first.log }
    | .ok report =>
      let rest := convertFiles extract settings write first.files paths
      { outcome := rest.outcome.map (report :: ·)
        files := rest.files
        log := first.log ++ rest.log }

end OptionsApi
