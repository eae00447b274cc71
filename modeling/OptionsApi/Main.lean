import OptionsApi.CommandLine.Run

/-! The program. It loads the files named on the command line, runs the command on them, and writes
back those that changed. -/

set_option autoImplicit false

namespace OptionsApi.Main

open CommandLine

def registry : Registry := ⟨[⟨"builtin", [("none", .extractor fun _ => .ok none)]⟩]⟩

def namedFiles (arguments : List Text) : List Text :=
  match readCommandLine false arguments with
  | .convert arguments => arguments.files
  | _ => []

/-- Adds what lies at a path to the store, with what may be done with it; what is not there is left
out. -/
def loadAt (files : FileStore) (path : Path) : IO FileStore := do
  let names := path.parts.foldl FileStore.enter (files.origin path)
  let place := String.ofList path.text
  match ← (IO.FS.readBinFile place).toBaseIO with
  | .ok bytes =>
    let opened ← (IO.FS.Handle.mk place .readWrite).toBaseIO
    return files.put names (.file bytes.toList { writable := opened.isOk })
  | .error (.inappropriateType ..) => return files.put names .directory
  | .error (.permissionDenied ..) => return files.put names (.file [] { readable := false })
  | .error _ => return files

def load (files : FileStore) (path : Text) : IO FileStore := do
  let whole := Path.ofText path
  (List.range (whole.parts.length + 1)).foldlM
    (fun files count => loadAt files { whole with parts := whole.parts.take count }) files

def writeBack (before after : FileStore) (path : Text) : IO Unit := do
  match before.read (Path.ofText path), after.read (Path.ofText path) with
  | .ok old, .ok new =>
    if old != new then IO.FS.writeBinFile (String.ofList path) ⟨new.toArray⟩
  | _, _ => return

def levelName : LogLevel → String
  | .debug => "DEBUG"
  | .info => "INFO"
  | .warning => "WARNING"
  | .error => "ERROR"

def run (arguments : List Text) : IO UInt32 := do
  let paths := namedFiles arguments
  let directory ← IO.currentDir
  let files ← paths.foldlM load
    { workingDirectory := (Path.ofText directory.toString.toList).parts }
  let result := CommandLine.run registry files arguments
  for path in paths do
    writeBack files result.files path
  for entry in result.log do
    IO.eprintln (levelName entry.level ++ " " ++ String.ofList entry.message)
  if let some defect := result.defect then
    IO.eprintln (String.ofList defect.message)
  IO.print (String.ofList result.output)
  return result.exitCode.toUInt32

end OptionsApi.Main

def main (arguments : List String) : IO UInt32 :=
  OptionsApi.Main.run (arguments.map String.toList)
