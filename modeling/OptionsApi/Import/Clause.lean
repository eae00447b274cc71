import OptionsApi.Text.Blank

/-! Import clauses: what stands between the keyword and the module of an import statement. The
names in braces are its specifiers, each a name with an optional type marker and an optional
alias. -/

set_option autoImplicit false

namespace OptionsApi.Import

def specifiers (names : Text) : List Text :=
  ((Text.splitOn ',' names).map Text.trim).filter fun name => !name.isEmpty

/-- What follows the last alias keyword, read from the left; none when there is no alias. -/
def alias? : Text → Option Text
  | ' ' :: 'a' :: 's' :: ' ' :: rest => some ((alias? rest).getD rest)
  | _ :: rest => alias? rest
  | [] => none

def boundName (specifier : Text) : Text :=
  let name := Text.trim ((alias? specifier).getD specifier)
  Text.trim ((Text.after "type " name).getD name)

structure Braced where
  before : Text
  inside : Text
  behind : Text
  deriving DecidableEq, Repr

def braced? (clause : Text) : Option Braced := do
  let (before, opened) ← Text.cutAt '{' clause
  let (inside, behind) ← Text.cutAt '}' opened
  return ⟨before, inside, behind⟩

def boundNames (clause : Text) : List Text :=
  match braced? clause with
  | some braced => (specifiers braced.inside).map boundName
  | none => []

def braces (names : List Text) : Text := '{' :: ' ' :: Text.join ", " names ++ [' ', '}']

/-- Whether names may be added to the clause: not if it imports types only or a namespace. -/
def takesNames (clause : Text) : Bool :=
  !"type ".toList.isPrefixOf clause && !clause.contains '*'

/-- The clause with the names added that its braces do not bind; braces are added to a clause
without any. -/
def merge? (clause : Text) (names : List Text) : Option Text :=
  if takesNames clause then
    match braced? clause with
    | some braced =>
      let missing := names.filter fun name => !(boundNames clause).contains name
      some (braced.before ++ braces (specifiers braced.inside ++ missing) ++ braced.behind)
    | none => some (Text.trim clause ++ [',', ' '] ++ braces names)
  else none

end OptionsApi.Import
