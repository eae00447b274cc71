import OptionsApi.Document.Convert

/-! Extractors by name. An extractor is a member of a module, and is named by both. -/

set_option autoImplicit false

namespace OptionsApi.CommandLine

inductive Member where
  | extractor (extract : Extractor)
  /-- A value that is no function. -/
  | value

structure Module where
  name : Text
  members : List (Text × Member) := []

structure Registry where
  modules : List Module := []

inductive LoadError where
  | malformed (path : Text)
  /-- A module has no name without the module it is relative to. -/
  | relativeModule (name : Text)
  | unknownModule (name missing : Text)
  /-- A module inside a module that holds none. -/
  | notPackage (name missing parent : Text)
  | unknownMember (moduleName memberName : Text)
  | notCallable (path : Text)
  deriving DecidableEq, Repr

def cannotImport (name reason : Text) : Text :=
  "Cannot import extractor module '" ++ name ++ "': " ++ reason

def LoadError.message : LoadError → Text
  | .malformed path => "Expected 'module:attribute', got '" ++ path ++ "'"
  | .relativeModule name =>
    "the 'package' argument is required to perform a relative import for " ++ Text.quoted name
  | .unknownModule name missing => cannotImport name ("No module named " ++ Text.quoted missing)
  | .notPackage name missing parent =>
    cannotImport name
      ("No module named " ++ Text.quoted missing ++ "; " ++ Text.quoted parent ++
        " is not a package")
  | .unknownMember moduleName memberName =>
    "Module '" ++ moduleName ++ "' has no attribute '" ++ memberName ++ "'"
  | .notCallable path => "'" ++ path ++ "' is not callable"

/-- Whether the name was at fault, which is the caller's mistake. -/
def LoadError.isUsage : LoadError → Bool
  | .relativeModule _ => false
  | _ => true

def enclosingNames : Text → List Text
  | [] => [[]]
  | c :: rest =>
    let names := (enclosingNames rest).map (c :: ·)
    if c = '.' then [] :: names else names

/-- Why a module is not there: the first of the names around it, or itself, that is no module. No
module holds others. -/
def Registry.explainMissing (registry : Registry) (name : Text) (parent : Option Text) :
    List Text → LoadError
  | [] => .unknownModule name name
  | step :: rest =>
    if registry.modules.any (·.name = step) then registry.explainMissing name (some step) rest
    else
      match parent with
      | some parent => .notPackage name step parent
      | none => .unknownModule name step

def Registry.findModule (registry : Registry) (name : Text) : Except LoadError Module :=
  if name.head? = some '.' then .error (.relativeModule name)
  else
    match registry.modules.find? (·.name = name) with
    | some found => .ok found
    | none => .error (registry.explainMissing name none (enclosingNames name))

def Registry.load (registry : Registry) (path : Text) : Except LoadError Extractor := do
  match Text.cutAt ':' path with
  | some (c :: moduleName, d :: memberName) =>
    let found ← registry.findModule (c :: moduleName)
    match found.members.lookup (d :: memberName) with
    | some (.extractor extract) => return extract
    | some .value => throw (.notCallable path)
    | none => throw (.unknownMember (c :: moduleName) (d :: memberName))
  | _ => throw (.malformed path)

end OptionsApi.CommandLine
