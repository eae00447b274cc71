import OptionsApi.Text.Utf8

/-! Paths. A path is cut at its slashes; empty parts and parts that stay in place say nothing. No
path holds a null character, nor one without an encoding in paths. -/

set_option autoImplicit false

namespace OptionsApi

structure Path where
  /-- Slashes in front, if the path begins at the root: one, or exactly two as written. -/
  root : Text
  parts : List Text
  deriving DecidableEq, Repr

def parentPart : Text := ['.', '.']

def Path.ofText (text : Text) : Path where
  root :=
    match text with
    | '/' :: '/' :: '/' :: _ => ['/']
    | '/' :: '/' :: _ => ['/', '/']
    | '/' :: _ => ['/']
    | _ => []
  parts := (Text.splitOn '/' text).filter fun part => !part.isEmpty && part != ['.']

/-- The path in its shortest spelling; steps to a parent stay. -/
def Path.text (path : Path) : Text :=
  if path.root.isEmpty && path.parts.isEmpty then ['.']
  else path.root ++ Text.join "/" path.parts

inductive PathError where
  | nullCharacter
  | unnameable (error : Text.EncodeError)
  deriving DecidableEq, Repr

def PathError.message : PathError → Text
  | .nullCharacter => "embedded null byte"
  | .unnameable error => error.message

def Path.read (unnameable : List Char) (text : Text) : Except PathError Path :=
  match Text.encode unnameable (Path.ofText text).text with
  | .error error => .error (.unnameable error)
  | .ok _ => if text.contains '\x00' then .error .nullCharacter else .ok (.ofText text)

end OptionsApi
