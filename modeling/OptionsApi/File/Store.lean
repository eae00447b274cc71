import OptionsApi.File.Path
import OptionsApi.Text.Quoted

/-! A store of files: one tree from the root down, and the directory in it where paths begin that do
not begin at the root. -/

set_option autoImplicit false

namespace OptionsApi

structure Access where
  readable : Bool := true
  writable : Bool := true
  deriving DecidableEq, Repr

inductive FileNode where
  | file (bytes : Text.Bytes) (access : Access := {})
  | directory
  deriving DecidableEq, Repr

structure FileStore where
  /-- Files and directories by the names that lead to them from the root. A directory that holds a
  file need not be listed. -/
  entries : List (List Text × FileNode) := []
  workingDirectory : List Text := []
  /-- The characters that no file can hold. -/
  unencodable : List Char := []
  /-- The characters that no path can hold. -/
  unnameable : List Char := []
  deriving DecidableEq, Repr

inductive FileFault where
  | missing
  | isDirectory
  | notDirectory
  | nameTooLong
  | denied
  deriving DecidableEq, Repr

structure FileError where
  fault : FileFault
  path : Path
  deriving DecidableEq, Repr

def FileFault.message : FileFault → Text
  | .missing => "[Errno 2] No such file or directory"
  | .isDirectory => "[Errno 21] Is a directory"
  | .notDirectory => "[Errno 20] Not a directory"
  | .nameTooLong => "[Errno 36] File name too long"
  | .denied => "[Errno 13] Permission denied"

def FileError.message (error : FileError) : Text :=
  error.fault.message ++ ": " ++ Text.quoted error.path.text

def maxPartBytes : Nat := 255

def maxPathBytes : Nat := 4095

namespace FileStore

def find? (store : FileStore) (names : List Text) : Option FileNode :=
  match store.entries.lookup names with
  | some node => some node
  | none =>
    -- Whatever lies deeper makes a directory of the names that lead there.
    if names.isPrefixOf store.workingDirectory || store.entries.any (names.isPrefixOf ·.1) then
      some .directory
    else none

/-- One step of a path from a directory. The root is its own parent. -/
def enter (names : List Text) (part : Text) : List Text :=
  if part = parentPart then names.dropLast else names ++ [part]

def origin (store : FileStore) (path : Path) : List Text :=
  if path.root.isEmpty then store.workingDirectory else []

/-- Follows the parts of a path; each but the last must lead to a directory. A part is looked up in
a directory, so only there its length matters. -/
def walk (store : FileStore) (names : List Text) : List Text → Except FileFault (List Text)
  | [] => .ok names
  | part :: rest =>
    match store.find? names with
    | some .directory =>
      if Text.byteLength part ≤ maxPartBytes then walk store (enter names part) rest
      else .error .nameTooLong
    | some (.file ..) => .error .notDirectory
    | none => .error .missing

def locate (store : FileStore) (path : Path) : Except FileFault (List Text) :=
  if Text.byteLength path.text ≤ maxPathBytes then store.walk (store.origin path) path.parts
  else .error .nameTooLong

def read (store : FileStore) (path : Path) : Except FileError Text.Bytes :=
  match store.locate path with
  | .error fault => .error ⟨fault, path⟩
  | .ok names =>
    match store.find? names with
    | some (.file bytes access) => if access.readable then .ok bytes else .error ⟨.denied, path⟩
    | some .directory => .error ⟨.isDirectory, path⟩
    | none => .error ⟨.missing, path⟩

def put (store : FileStore) (names : List Text) (node : FileNode) : FileStore :=
  { store with
    entries :=
      if (store.entries.lookup names).isSome then
        store.entries.map fun entry => if entry.1 = names then (names, node) else entry
      else store.entries ++ [(names, node)] }

/-- Writes a file; its directory must be there. What may be done with a file does not change when it
is written. -/
def write (store : FileStore) (path : Path) (bytes : Text.Bytes) : Except FileError FileStore :=
  match store.locate path with
  | .error fault => .error ⟨fault, path⟩
  | .ok names =>
    match store.find? names with
    | some .directory => .error ⟨.isDirectory, path⟩
    | some (.file _ access) =>
      if access.writable then .ok (store.put names (.file bytes access))
      else .error ⟨.denied, path⟩
    | none => .ok (store.put names (.file bytes))

end FileStore

end OptionsApi
