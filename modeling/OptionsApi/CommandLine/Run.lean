import OptionsApi.Batch
import OptionsApi.CommandLine.Arguments
import OptionsApi.CommandLine.Registry
import OptionsApi.Text.ControlSequence

/-! The command: it converts the files named on the command line, prints what a dry run would have
written, and sums up. -/

set_option autoImplicit false

namespace OptionsApi.CommandLine

inductive Defect where
  | loading (error : LoadError)
  | working (failure : Failure)
  deriving DecidableEq, Repr

def Defect.message : Defect → Text
  | .loading error => error.message
  | .working failure => failure.message

structure Result where
  exitCode : Nat
  output : Text := []
  log : Log := []
  files : FileStore
  defect : Option Defect := none
  deriving DecidableEq, Repr

def isShown (verbose : Bool) (entry : LogEntry) : Bool := verbose || entry.level != .debug

/-- What a dry run prints for a file: its path and the converted text, neither with control
sequences. -/
def preview (report : Report) : Text :=
  match report.output with
  | some text =>
    "// " ++ Text.dropControlSequences report.path ++ "\n" ++ Text.dropControlSequences text
  | none => []

def countStatus (status : Status) (reports : List Report) : Nat :=
  (reports.filter (·.status = status)).length

def summary (reports : List Report) : Text :=
  Text.ofNat (countStatus .converted reports) ++ " converted, " ++
    Text.ofNat (countStatus .skipped reports) ++ " skipped, " ++
    Text.ofNat (countStatus .failed reports) ++ " failed"

def convert (registry : Registry) (files : FileStore) (arguments : Arguments) : Result :=
  match registry.load arguments.extractor with
  | .error error =>
    if error.isUsage then { exitCode := 2, files }
    else { exitCode := 1, files, defect := some (.loading error) }
  | .ok extract =>
    let progress :=
      convertFiles extract arguments.settings (!arguments.dryRun) files arguments.files
    let shown (log : Log) : Log := log.filter (isShown arguments.verbose)
    match progress.outcome with
    | .error failure =>
      { exitCode := 1
        log := shown progress.log
        files := progress.files
        defect := some (.working failure) }
    | .ok reports =>
      { exitCode := if countStatus .failed reports = 0 then 0 else 1
        output := if arguments.dryRun then reports.flatMap preview else []
        log := shown (progress.log ++ [⟨.info, summary reports⟩])
        files := progress.files }

def run (registry : Registry) (files : FileStore) (arguments : List Text) : Result :=
  match readCommandLine false arguments with
  | .help => { exitCode := 0, files }
  | .misuse => { exitCode := 2, files }
  | .convert arguments => convert registry files arguments

end OptionsApi.CommandLine
