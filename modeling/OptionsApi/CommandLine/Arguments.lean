import OptionsApi.OptionsObject.Settings
import OptionsApi.Text.Integer

/-! Command line arguments. Options may stand before and behind the files, a value may follow its
option or be attached to it, flags of one letter may be grouped, and two dashes end the options. Of
an option given twice the last counts. -/

set_option autoImplicit false

namespace OptionsApi.CommandLine

inductive ValueOption where
  | extractor
  | factory
  | indent
  deriving DecidableEq, Repr

inductive Flag where
  | dryRun
  | verbose
  | help
  deriving DecidableEq, Repr

inductive OptionKind where
  | takesValue (option : ValueOption)
  | flag (flag : Flag)
  deriving DecidableEq, Repr

def longOptions : List (Text × OptionKind) :=
  [("--extractor", .takesValue .extractor), ("--factory", .takesValue .factory),
    ("--indent", .takesValue .indent), ("--dry-run", .flag .dryRun),
    ("--verbose", .flag .verbose), ("--help", .flag .help)]

def shortOptions : List (Char × OptionKind) :=
  [('e', .takesValue .extractor), ('n', .flag .dryRun), ('v', .flag .verbose)]

structure RawArguments where
  files : List Text := []
  values : List (ValueOption × Text) := []
  flags : List Flag := []
  deriving DecidableEq, Repr

namespace RawArguments

def addFile (raw : RawArguments) (file : Text) : RawArguments :=
  { raw with files := raw.files ++ [file] }

def addValue (raw : RawArguments) (option : ValueOption) (value : Text) : RawArguments :=
  { raw with values := (option, value) :: raw.values }

def addFlag (raw : RawArguments) (flag : Flag) : RawArguments :=
  { raw with flags := flag :: raw.flags }

end RawArguments

/-- A dash and more; a dash alone is a file. -/
def isOption : Text → Bool
  | '-' :: _ :: _ => true
  | _ => false

structure Given where
  kind : OptionKind
  attached : Option Text
  deriving DecidableEq, Repr

def readLong? (argument : Text) : Option Given :=
  match Text.cutAt '=' argument with
  | some (name, value) => (longOptions.lookup name).map fun kind => ⟨kind, some value⟩
  | none => (longOptions.lookup argument).map fun kind => ⟨kind, none⟩

/-- Reads grouped letters: flags, and at most one option with a value, to which the rest belongs. -/
def readShort? : Text → Option (List Given)
  | [] => some []
  | letter :: rest =>
    match shortOptions.lookup letter with
    | none => none
    | some (.flag flag) => (readShort? rest).map (⟨.flag flag, none⟩ :: ·)
    | some (.takesValue option) =>
      some [⟨.takesValue option, if rest.isEmpty then none else some rest⟩]

def readOption? : Text → Option (List Given)
  | '-' :: '-' :: name => (readLong? ('-' :: '-' :: name)).map ([·])
  | _ :: letters => readShort? letters
  | [] => none

/-- Takes the options of one argument; the last may want a value from the arguments that follow. -/
def takeGiven (raw : RawArguments) : List Given → Option (RawArguments × Option ValueOption)
  | [] => some (raw, none)
  | ⟨.flag _, some _⟩ :: _ => none
  | ⟨.flag flag, none⟩ :: rest => takeGiven (raw.addFlag flag) rest
  | ⟨.takesValue option, some value⟩ :: rest => takeGiven (raw.addValue option value) rest
  | ⟨.takesValue option, none⟩ :: _ => some (raw, some option)

def readArguments? (raw : RawArguments) : List Text → Option RawArguments
  | [] => some raw
  | argument :: rest =>
    if argument = ['-', '-'] then some (rest.foldl RawArguments.addFile raw)
    else if isOption argument then
      match (readOption? argument).bind (takeGiven raw), rest with
      | none, _ => none
      | some (raw, none), rest => readArguments? raw rest
      | some (_, some _), [] => none
      | some (raw, some option), value :: rest => readArguments? (raw.addValue option value) rest
    else readArguments? (raw.addFile argument) rest

structure Arguments where
  files : List Text
  extractor : Text
  settings : Settings
  dryRun : Bool
  verbose : Bool
  deriving DecidableEq, Repr

inductive Request where
  | help
  | convert (arguments : Arguments)
  /-- The arguments make no sense. -/
  | misuse
  deriving DecidableEq, Repr

def RawArguments.request (raw : RawArguments) : Request :=
  let base : Settings := {}
  let indent? :=
    match raw.values.lookup .indent with
    | some text => Text.readInt? text
    | none => some base.indent
  if raw.flags.contains .help then .help
  else
    match raw.files, raw.values.lookup .extractor, indent? with
    | file :: files, some extractor, some indent =>
      let factory := (raw.values.lookup .factory).getD base.factory
      .convert
        { files := file :: files
          extractor
          settings := { base with factory, indent }
          dryRun := raw.flags.contains .dryRun
          verbose := raw.flags.contains .verbose }
    | _, _, _ => .misuse

def readCommand (arguments : List Text) : Request :=
  match readArguments? {} arguments with
  | some raw => raw.request
  | none => .misuse

def readNamed : List Text → Request
  | name :: arguments => if name = ("convert" : Text) then readCommand arguments else .misuse
  | [] => .misuse

/-- The whole command line: the name of the command, and its arguments behind it. Before the name
only help can be asked for. -/
def readCommandLine (help : Bool) : List Text → Request
  | [] => if help then .help else .misuse
  | argument :: rest =>
    if argument = ("--help" : Text) then readCommandLine true rest
    else if argument = ['-', '-'] then (if help then .help else readNamed rest)
    else if isOption argument then .misuse
    else if help then .help
    else readNamed (argument :: rest)

end OptionsApi.CommandLine
