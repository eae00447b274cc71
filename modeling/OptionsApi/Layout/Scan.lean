import OptionsApi.Layout.Regex

/-! The scan of one line. A cursor moves over the line a character at a time and knows which kind
of text it is in and which brackets are open. Brackets count in code only: literals and comments
are passed over. -/

set_option autoImplicit false

namespace OptionsApi.Layout

/-- The kind of text in which the cursor stands. A slash in code is undecided until the next
character: it may begin a comment, a regular expression literal if one may stand there, or be a
division. -/
inductive Mode where
  | code
  | slash (mayOpenRegex : Bool)
  | lineComment
  | comment
  | commentStar
  | quoted (quote : Char)
  | quotedEscape (quote : Char)
  | template
  | templateEscape
  | regex (mode : RegexMode)
  deriving DecidableEq, Repr

structure Cursor where
  /-- The text of the line already read, nearest character first. -/
  before : Text
  mode : Mode
  /-- The line of each open bracket, innermost first. -/
  brackets : List Nat
  deriving DecidableEq, Repr

def isOpener (c : Char) : Bool := c == '(' || c == '[' || c == '{'

def isCloser (c : Char) : Bool := c == ')' || c == ']' || c == '}'

/-- What a character does to the open brackets in code on the given line. A closer without an open
bracket does nothing. -/
def bracketsAfter (line : Nat) (c : Char) (brackets : List Nat) : List Nat :=
  if isOpener c then line :: brackets
  else if isCloser c then brackets.tail
  else brackets

def codeMode (before : Text) (c : Char) : Mode :=
  if c = '/' then .slash (opensRegex before)
  else if c = '\'' ∨ c = '"' then .quoted c
  else if c = '`' then .template
  else .code

def Mode.next (before : Text) (c : Char) : Mode → Mode
  | .code => codeMode before c
  | .slash mayOpenRegex =>
    if c = '/' then .lineComment
    else if c = '*' then .comment
    -- Otherwise the character is the first of the literal, or comes after a division.
    else if mayOpenRegex then
      match RegexMode.body.step c with
      | none => .code
      | some mode => .regex mode
    else codeMode before c
  | .lineComment => .lineComment
  | .comment => if c = '*' then .commentStar else .comment
  | .commentStar => if c = '/' then .code else if c = '*' then .commentStar else .comment
  | .quoted quote =>
    if c = '\\' then .quotedEscape quote else if c = quote then .code else .quoted quote
  | .quotedEscape quote => .quoted quote
  | .template => if c = '\\' then .templateEscape else if c = '`' then .code else .template
  | .templateEscape => .template
  | .regex mode =>
    match mode.step c with
    | none => .code
    | some next => .regex next

def Mode.readsCode (c : Char) : Mode → Bool
  | .code => true
  | .slash mayOpenRegex => !mayOpenRegex && c != '/' && c != '*'
  | _ => false

def Cursor.step (line : Nat) (cursor : Cursor) (c : Char) : Cursor where
  before := c :: cursor.before
  mode := cursor.mode.next cursor.before c
  brackets :=
    if cursor.mode.readsCode c then bracketsAfter line c cursor.brackets else cursor.brackets

def Cursor.run (line : Nat) (cursor : Cursor) (text : Text) : Cursor :=
  text.foldl (Cursor.step line) cursor

theorem Cursor.run_append (line : Nat) (cursor : Cursor) (left right : Text) :
    cursor.run line (left ++ right) = (cursor.run line left).run line right :=
  List.foldl_append

/-- What a line may begin in. A quoted literal, a regular expression and a line comment end with
their line at the latest. -/
inductive Region where
  | code
  | comment
  | template
  deriving DecidableEq, Repr

def Region.mode : Region → Mode
  | .code => .code
  | .comment => .comment
  | .template => .template

def Mode.region : Mode → Region
  | .comment | .commentStar => .comment
  | .template | .templateEscape => .template
  | _ => .code

def scanLine (line : Nat) (region : Region) (brackets : List Nat) (text : Text) : Cursor :=
  Cursor.run line ⟨[], region.mode, brackets⟩ text

end OptionsApi.Layout
