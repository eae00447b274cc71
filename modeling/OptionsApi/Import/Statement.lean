import OptionsApi.Text.Blank
import OptionsApi.Text.WordChar

/-! Import statements in a text. A statement begins a line; its parts are kept as written, so that
the parts of a statement joined again are its text. -/

set_option autoImplicit false

namespace OptionsApi.Import

def isQuote (c : Char) : Bool := c == '\'' || c == '"'

def isClauseChar (c : Char) : Bool :=
  Text.isWordChar c || c == '$' || c == '*' || c == '{' || c == '}' || c == ',' || Text.isBlank c

/-- The module of a statement in its quotes, and the end of the statement: spaces and tabs and at
most one semicolon. -/
structure Target where
  opening : Char
  moduleName : Text
  closing : Char
  ending : Text
  deriving DecidableEq, Repr

def Target.text (target : Target) : Text :=
  target.opening :: target.moduleName ++ target.closing :: target.ending

structure Statement where
  /-- Indentation, keyword and the blanks after it. -/
  head : Text
  /-- The clause, and the keyword with its blanks that joins it to the module. A statement that only
  runs a module has neither. -/
  clause : Option (Text × Text)
  target : Target
  deriving DecidableEq, Repr

def Statement.text (statement : Statement) : Text :=
  statement.head ++
    (match statement.clause with
    | some (clause, joint) => clause ++ joint
    | none => []) ++
    statement.target.text

inductive Search where
  /-- Those with a clause, and a module between two equal quotes. -/
  | binding
  /-- All of them. -/
  | any
  deriving DecidableEq, Repr

def Search.accepts (search : Search) (target : Target) : Bool :=
  match search with
  | .binding => target.opening = target.closing
  | .any => true

def takeEnding (text : Text) : Text × Text :=
  let blanks := text.takeWhile Text.isInlineBlank
  match text.dropWhile Text.isInlineBlank with
  | ';' :: rest => (blanks ++ [';'], rest)
  | rest => (blanks, rest)

def Target.read? : Text → Option (Target × Text)
  | [] => none
  | opening :: text =>
    if isQuote opening then
      match text.takeWhile (fun c => !isQuote c), text.dropWhile (fun c => !isQuote c) with
      | c :: name, closing :: behind =>
        let (ending, rest) := takeEnding behind
        some (⟨opening, c :: name, closing, ending⟩, rest)
      | _, _ => none
    else none

/-- Reads blanks, the keyword that names the module, blanks and the module. The first component is
all that stands before the module. -/
def readJoint? (search : Search) (text : Text) : Option (Text × Target × Text) := do
  let before := text.takeWhile Text.isBlank
  let behind ← Text.after "from" (text.dropWhile Text.isBlank)
  let after := behind.takeWhile Text.isBlank
  let (target, rest) ← Target.read? (behind.dropWhile Text.isBlank)
  if before.isEmpty || after.isEmpty || !search.accepts target then none
  else some (before ++ "from" ++ after, target, rest)

/-- Reads the shortest clause, of at least one character, behind which the module is named. -/
def readClause? (search : Search) : Text → Option (Text × Text × Target × Text)
  | [] => none
  | c :: text =>
    if isClauseChar c then
      -- A longer clause is tried only where this one cannot end.
      match readJoint? search text with
      | some (joint, target, rest) => some ([c], joint, target, rest)
      | none =>
        (readClause? search text).map fun (clause, joint, target, rest) =>
          (c :: clause, joint, target, rest)
    else none

/-- Reads a statement with a clause. Blanks may belong to the clause too: of the ways to divide
those behind the keyword, the one that leaves the clause the fewest and still gives a statement
counts. -/
def readBinding? (search : Search) (lead blanks text : Text) : Option (Statement × Text) :=
  (List.range blanks.length).reverse.findSome? fun i =>
    (readClause? search (blanks.drop (i + 1) ++ text)).map fun (clause, joint, target, rest) =>
      (⟨lead ++ blanks.take (i + 1), some (clause, joint), target⟩, rest)

def readSideEffect? (search : Search) (head text : Text) : Option (Statement × Text) :=
  if search = .any then
    (Target.read? text).map fun (target, rest) => (⟨head, none, target⟩, rest)
  else none

def Statement.read? (search : Search) (text : Text) : Option (Statement × Text) := do
  let indentation := text.takeWhile Text.isInlineBlank
  let behind ← Text.after "import" (text.dropWhile Text.isInlineBlank)
  let blanks := behind.takeWhile Text.isBlank
  let body := behind.dropWhile Text.isBlank
  let lead := indentation ++ "import"
  if blanks.isEmpty then none
  else
    (readBinding? search lead blanks body).or (readSideEffect? search (lead ++ blanks) body)

/-! A statement that is read, followed by what is left, is the text it was read from. -/

theorem takeEnding_append (text : Text) : (takeEnding text).1 ++ (takeEnding text).2 = text := by
  have whole := List.takeWhile_append_dropWhile (p := Text.isInlineBlank) (l := text)
  unfold takeEnding
  split
  next rest found => rw [found] at whole; simpa using whole
  next => exact whole

theorem Target.text_append_of_read? {text rest : Text} {target : Target}
    (found : Target.read? text = some (target, rest)) : target.text ++ rest = text := by
  cases text with
  | nil => simp [Target.read?] at found
  | cons opening text =>
    have whole := List.takeWhile_append_dropWhile (p := fun c => !isQuote c) (l := text)
    simp only [Target.read?] at found
    split at found
    · split at found
      next c name closing behind taken left =>
        rw [taken, left] at whole
        have ended := takeEnding_append behind
        simp only [Option.some.injEq, Prod.mk.injEq] at found
        obtain ⟨rfl, rfl⟩ := found
        simp only [Target.text, List.cons_append, List.append_assoc, ended, ← whole]
      next => simp at found
    · simp at found

theorem append_of_readJoint? {search : Search} {text joint rest : Text} {target : Target}
    (found : readJoint? search text = some (joint, target, rest)) :
    joint ++ target.text ++ rest = text := by
  have whole := List.takeWhile_append_dropWhile (p := Text.isBlank) (l := text)
  unfold readJoint? at found
  simp only [Option.bind_eq_bind, Option.bind_eq_some_iff, Prod.exists] at found
  obtain ⟨behind, keyword, read, left, targeted, chosen⟩ := found
  have inner := List.takeWhile_append_dropWhile (p := Text.isBlank) (l := behind)
  split at chosen
  · simp at chosen
  · simp only [Option.some.injEq, Prod.mk.injEq] at chosen
    obtain ⟨rfl, rfl, rfl⟩ := chosen
    have named := Target.text_append_of_read? targeted
    rw [← Text.append_of_after keyword, ← inner, ← named] at whole
    simpa [List.append_assoc] using whole

theorem append_of_readClause? {search : Search} {text clause joint rest : Text} {target : Target}
    (found : readClause? search text = some (clause, joint, target, rest)) :
    clause ++ joint ++ target.text ++ rest = text := by
  induction text generalizing clause joint rest target with
  | nil => simp [readClause?] at found
  | cons c text ih =>
    simp only [readClause?] at found
    split at found
    · split at found
      next joined =>
        simp only [Option.some.injEq, Prod.mk.injEq] at found
        obtain ⟨rfl, rfl, rfl, rfl⟩ := found
        simpa [List.append_assoc] using append_of_readJoint? joined
      next =>
        simp only [Option.map_eq_some_iff, Prod.exists, Prod.mk.injEq] at found
        obtain ⟨tail, _, _, _, read, rfl, rfl, rfl, rfl⟩ := found
        simpa [List.append_assoc] using ih read
    · simp at found

theorem text_append_of_readBinding? {search : Search} {lead blanks text rest : Text}
    {statement : Statement}
    (found : readBinding? search lead blanks text = some (statement, rest)) :
    statement.text ++ rest = lead ++ blanks ++ text := by
  obtain ⟨i, _, found⟩ := List.exists_of_findSome?_eq_some found
  simp only [Option.map_eq_some_iff, Prod.exists, Prod.mk.injEq] at found
  obtain ⟨clause, joint, target, left, read, rfl, rfl⟩ := found
  have whole := append_of_readClause? read
  have divided := List.take_append_drop (i + 1) blanks
  simp only [Statement.text, List.append_assoc] at whole ⊢
  rw [whole, ← List.append_assoc (blanks.take (i + 1)), divided]

theorem text_append_of_readSideEffect? {search : Search} {head text rest : Text}
    {statement : Statement} (found : readSideEffect? search head text = some (statement, rest)) :
    statement.text ++ rest = head ++ text := by
  unfold readSideEffect? at found
  split at found
  · simp only [Option.map_eq_some_iff, Prod.exists, Prod.mk.injEq] at found
    obtain ⟨target, left, read, rfl, rfl⟩ := found
    simp [Statement.text, Target.text_append_of_read? read]
  · simp at found

theorem Statement.text_append_of_read? {search : Search} {text rest : Text} {statement : Statement}
    (found : Statement.read? search text = some (statement, rest)) :
    statement.text ++ rest = text := by
  have whole := List.takeWhile_append_dropWhile (p := Text.isInlineBlank) (l := text)
  unfold Statement.read? at found
  simp only [Option.bind_eq_bind, Option.bind_eq_some_iff] at found
  obtain ⟨behind, keyword, found⟩ := found
  have inner := List.takeWhile_append_dropWhile (p := Text.isBlank) (l := behind)
  split at found
  · simp at found
  · rw [← Text.append_of_after keyword, ← inner] at whole
    simp only [← List.append_assoc] at whole
    rcases Option.or_eq_some_iff.mp found with read | ⟨_, read⟩
    · exact (text_append_of_readBinding? read).trans whole
    · exact (text_append_of_readSideEffect? read).trans whole

theorem Statement.text_ne_nil (statement : Statement) : statement.text ≠ [] := by
  simp [Statement.text, Target.text]

theorem Statement.length_lt_of_read? {search : Search} {text rest : Text} {statement : Statement}
    (found : Statement.read? search text = some (statement, rest)) : rest.length < text.length := by
  have whole := Statement.text_append_of_read? found
  have positive := List.length_pos_iff.mpr statement.text_ne_nil
  rw [← whole, List.length_append]
  omega

end OptionsApi.Import
