import OptionsApi.Proofs.Layout.Absorption

/-! Literals and comments that end on their line, and what the scan of a line makes of them: wherever it
meets one in code, it is in code behind it with the same brackets open, and what comes next is read
the same way whatever the literal holds. -/

set_option autoImplicit false

namespace OptionsApi.Layout

/-! How they are written. -/

inductive Enclosed (close : Char) : Text → Prop where
  | nil : Enclosed close []
  | char {c : Char} {rest : Text} : c ≠ '\\' → c ≠ close → Enclosed close rest →
      Enclosed close (c :: rest)
  | escape (c : Char) {rest : Text} : Enclosed close rest → Enclosed close ('\\' :: c :: rest)

/-- What stands between the slashes of a regular expression: characters, escapes and character
classes, in which a slash closes nothing. -/
inductive RegexBody : Text → Prop where
  | nil : RegexBody []
  | char {c : Char} {rest : Text} : c ≠ '\\' → c ≠ '[' → c ≠ '/' → RegexBody rest →
      RegexBody (c :: rest)
  | escape (c : Char) {rest : Text} : RegexBody rest → RegexBody ('\\' :: c :: rest)
  | charClass {inside rest : Text} : Enclosed ']' inside → RegexBody rest →
      RegexBody ('[' :: (inside ++ ']' :: rest))

inductive LiteralKind where
  | quoted (quote : Quote)
  | template
  | comment
  | regex
  /-- A comment up to the end of its line. -/
  | lineComment
  deriving DecidableEq, Repr

namespace LiteralKind

def first : LiteralKind → Char
  | .quoted quote => quote.char
  | .template => '`'
  | .comment | .regex | .lineComment => '/'

/-- A template literal closes at its first backtick that is not escaped. A regular expression has a
body, for two slashes are a comment. -/
inductive Written : LiteralKind → Text → Prop where
  | quoted {quote : Quote} {body : Text} : Enclosed quote.char body →
      Written (.quoted quote) (quote.char :: (body ++ [quote.char]))
  | template {body : Text} : Enclosed '`' body → Written .template ('`' :: (body ++ ['`']))
  | comment {body : Text} : ¬ ['*', '/'] <:+: body →
      Written .comment ('/' :: '*' :: (body ++ ['*', '/']))
  | regex {body : Text} : RegexBody body → body ≠ [] → body.head? ≠ some '*' →
      Written .regex ('/' :: (body ++ ['/']))
  | lineComment (body : Text) : Written .lineComment ('/' :: '/' :: body)

/-- A literal of the kind may begin at the cursor: the scan is in code there, and expects an operand if
it is to be a regular expression. -/
structure Begins (kind : LiteralKind) (cursor : Cursor) : Prop where
  code : cursor.mode.readsCode kind.first = true
  operand : kind = .regex → opensRegex cursor.before = true

theorem first_ink (kind : LiteralKind) : Text.isBlank kind.first = false := by
  rcases kind with ⟨_ | _⟩ | _ | _ | _ | _ <;> rfl

theorem first_not_closer (kind : LiteralKind) : isCloser kind.first = false := by
  rcases kind with ⟨_ | _⟩ | _ | _ | _ | _ <;> rfl

theorem Written.exists_cons {kind : LiteralKind} {text : Text} (written : kind.Written text) :
    ∃ rest, text = kind.first :: rest := by
  cases written <;> exact ⟨_, rfl⟩

end LiteralKind

/-! What the scan makes of them. -/

theorem Cursor.step_of_readsCode (line : Nat) {cursor : Cursor} {c : Char}
    (code : cursor.mode.readsCode c = true) :
    cursor.step line c =
      ⟨c :: cursor.before, codeMode cursor.before c, bracketsAfter line c cursor.brackets⟩ := by
  obtain ⟨before, mode, brackets⟩ := cursor
  cases mode with
  | code => rfl
  | slash mayOpenRegex =>
    simp only [Mode.readsCode, Bool.and_eq_true, Bool.not_eq_true', bne_iff_ne] at code
    obtain ⟨⟨divides, noSlash⟩, noStar⟩ := code
    simp [Cursor.step, Mode.next, Mode.readsCode, divides, noSlash, noStar]
  | _ => cases code

/-- In the mode everything is passed over up to the closing character, and behind a backslash that
too. -/
structure Mode.Encloses (inside escape : Mode) (close : Char) : Prop where
  quiet : ∀ c, inside.readsCode c = false ∧ escape.readsCode c = false
  stays : ∀ before c, c ≠ '\\' → c ≠ close → inside.next before c = inside
  escapes : ∀ before, inside.next before '\\' = escape
  returns : ∀ before c, escape.next before c = inside

theorem Mode.encloses_quoted (quote : Char) :
    Mode.Encloses (.quoted quote) (.quotedEscape quote) quote where
  quiet _ := ⟨rfl, rfl⟩
  stays before c other inner := by simp [Mode.next, other, inner]
  escapes _ := rfl
  returns _ _ := rfl

theorem Mode.encloses_template : Mode.Encloses .template .templateEscape '`' where
  quiet _ := ⟨rfl, rfl⟩
  stays before c other inner := by simp [Mode.next, other, inner]
  escapes _ := rfl
  returns _ _ := rfl

theorem Mode.encloses_charClass :
    Mode.Encloses (.regex .charClass) (.regex .charClassEscape) ']' where
  quiet _ := ⟨rfl, rfl⟩
  stays before c other inner := by simp [Mode.next, RegexMode.step, other, inner]
  escapes _ := rfl
  returns _ _ := rfl

theorem Cursor.run_enclosed (line : Nat) {inside escape : Mode} {close : Char}
    (encloses : Mode.Encloses inside escape close) {body : Text} (enclosed : Enclosed close body)
    (before : Text) (brackets : List Nat) :
    ∃ read, Cursor.run line ⟨before, inside, brackets⟩ body = ⟨read, inside, brackets⟩ := by
  induction enclosed generalizing before with
  | nil => exact ⟨before, rfl⟩
  | @char c rest other inner _ ih =>
    have stepped : Cursor.step line ⟨before, inside, brackets⟩ c = ⟨c :: before, inside, brackets⟩ := by
      simp [Cursor.step, encloses.stays before c other inner, encloses.quiet]
    obtain ⟨read, ran⟩ := ih (c :: before)
    exact ⟨read, by rw [← ran, ← stepped]; rfl⟩
  | @escape c rest _ ih =>
    have stepped : Cursor.run line ⟨before, inside, brackets⟩ ['\\', c] =
        ⟨c :: '\\' :: before, inside, brackets⟩ := by
      simp [Cursor.run, Cursor.step, encloses.escapes, encloses.returns, encloses.quiet]
    obtain ⟨read, ran⟩ := ih (c :: '\\' :: before)
    exact ⟨read, by rw [← ran, ← stepped]; rfl⟩

theorem Cursor.run_regexBody (line : Nat) {body : Text} (isBody : RegexBody body) (before : Text)
    (brackets : List Nat) :
    ∃ read, Cursor.run line ⟨before, .regex .body, brackets⟩ body = ⟨read, .regex .body, brackets⟩ := by
  induction isBody generalizing before with
  | nil => exact ⟨before, rfl⟩
  | @char c rest noEscape noClass noSlash _ ih =>
    have stepped : Cursor.step line ⟨before, .regex .body, brackets⟩ c =
        ⟨c :: before, .regex .body, brackets⟩ := by
      simp [Cursor.step, Mode.next, RegexMode.step, Mode.readsCode, noEscape, noClass, noSlash]
    obtain ⟨read, ran⟩ := ih (c :: before)
    exact ⟨read, by rw [← ran, ← stepped]; rfl⟩
  | @escape c rest _ ih => exact ih (c :: '\\' :: before)
  | @charClass inside rest enclosed _ ih =>
    obtain ⟨between, classed⟩ :=
      Cursor.run_enclosed line Mode.encloses_charClass enclosed ('[' :: before) brackets
    obtain ⟨read, ran⟩ := ih (']' :: between)
    refine ⟨read, ?_⟩
    change Cursor.run line ⟨'[' :: before, .regex .charClass, brackets⟩ (inside ++ ']' :: rest) = _
    rw [Cursor.run_append, classed]
    exact ran

/-- Behind the slash that may open it, a regular expression is read like the rest of its body, unless
the slash begins a comment. -/
theorem Cursor.run_behind_slash (line : Nat) {text : Text} (nonempty : text ≠ [])
    (noSlash : text.head? ≠ some '/') (noStar : text.head? ≠ some '*') (before : Text)
    (brackets : List Nat) : Cursor.run line ⟨before, .slash true, brackets⟩ text =
      Cursor.run line ⟨before, .regex .body, brackets⟩ text := by
  obtain ⟨c, rest, rfl⟩ := List.exists_cons_of_ne_nil nonempty
  have others : c ≠ '/' ∧ c ≠ '*' := ⟨by simpa using noSlash, by simpa using noStar⟩
  have stepped : Cursor.step line ⟨before, .slash true, brackets⟩ c =
      Cursor.step line ⟨before, .regex .body, brackets⟩ c := by
    simp [Cursor.step, Mode.next, Mode.readsCode, others]
  exact congrArg (Cursor.run line · rest) stepped

theorem Cursor.run_regex (line : Nat) {body : Text} (isBody : RegexBody body) (nonempty : body ≠ [])
    (noComment : body.head? ≠ some '*') (before : Text) (brackets : List Nat) :
    ∃ read, Cursor.run line ⟨before, .slash true, brackets⟩ body = ⟨read, .regex .body, brackets⟩ := by
  have noSlash : body.head? ≠ some '/' := by
    cases isBody with
    | nil => exact absurd rfl nonempty
    | char _ _ noSlash _ => simpa using noSlash
    | escape | charClass => simp
  rw [Cursor.run_behind_slash line nonempty noSlash noComment]
  exact Cursor.run_regexBody line isBody before brackets

theorem Cursor.run_lineComment (line : Nat) (text before : Text) (brackets : List Nat) :
    ∃ read, Cursor.run line ⟨before, .lineComment, brackets⟩ text = ⟨read, .lineComment, brackets⟩ := by
  induction text generalizing before with
  | nil => exact ⟨before, rfl⟩
  | cons c rest ih => exact ih (c :: before)

theorem Cursor.run_closing_comment (line : Nat) {cursor : Cursor}
    (inside : cursor.mode.region = .comment) :
    cursor.run line ['*', '/'] = ⟨'/' :: '*' :: cursor.before, .code, cursor.brackets⟩ := by
  obtain ⟨before, mode, brackets⟩ := cursor
  cases mode with
  | comment => rfl
  | commentStar => rfl
  | _ => cases inside

namespace LiteralKind

variable {kind : LiteralKind} {text : Text}

theorem Begins.opened {cursor : Cursor} (begins : kind.Begins cursor) (line : Nat) :
    cursor.step line kind.first =
      ⟨kind.first :: cursor.before, codeMode cursor.before kind.first, cursor.brackets⟩ := by
  rw [Cursor.step_of_readsCode line begins.code]
  rcases kind with ⟨_ | _⟩ | _ | _ | _ | _ <;> rfl

theorem Begins.opened_comment {cursor : Cursor} (begins : kind.Begins cursor) (slash : kind.first = '/')
    (line : Nat) :
    cursor.run line ['/', '*'] = ⟨'*' :: '/' :: cursor.before, .comment, cursor.brackets⟩ ∧
      cursor.run line ['/', '/'] = ⟨'/' :: '/' :: cursor.before, .lineComment, cursor.brackets⟩ := by
  have opened := begins.opened line
  rw [slash] at opened
  constructor
  · change (cursor.step line '/').step line '*' = _
    rw [opened]
    simp [Cursor.step, Mode.next, Mode.readsCode, codeMode]
  · change (cursor.step line '/').step line '/' = _
    rw [opened]
    simp [Cursor.step, Mode.next, Mode.readsCode, codeMode]

/-- A literal is over with its last character, which is the same as its first. -/
theorem Written.scanned (written : kind.Written text) (closed : kind ≠ .lineComment) (line : Nat)
    {cursor : Cursor} (begins : kind.Begins cursor) :
    ∃ read, cursor.run line text = ⟨kind.first :: read, .code, cursor.brackets⟩ := by
  have opened := begins.opened line
  cases written with
  | @quoted quote body enclosed =>
    have inside : cursor.step line quote.char =
        ⟨quote.char :: cursor.before, .quoted quote.char, cursor.brackets⟩ := by
      cases quote <;> exact opened
    obtain ⟨read, ran⟩ := Cursor.run_enclosed line (Mode.encloses_quoted quote.char) enclosed
      (quote.char :: cursor.before) cursor.brackets
    refine ⟨read, ?_⟩
    change (cursor.step line quote.char).run line (body ++ [quote.char]) = _
    rw [inside, Cursor.run_append, ran]
    cases quote <;> rfl
  | @template body enclosed =>
    have inside : cursor.step line '`' = ⟨'`' :: cursor.before, .template, cursor.brackets⟩ := opened
    obtain ⟨read, ran⟩ := Cursor.run_enclosed line Mode.encloses_template enclosed
      ('`' :: cursor.before) cursor.brackets
    refine ⟨read, ?_⟩
    change (cursor.step line '`').run line (body ++ ['`']) = _
    rw [inside, Cursor.run_append, ran]
    rfl
  | @comment body unclosed =>
    have inside := (begins.opened_comment rfl line).1
    obtain ⟨region, brackets⟩ := Cursor.run_comment line unclosed
      (.inl (congrArg Cursor.mode inside))
    refine ⟨'*' :: ((cursor.run line ['/', '*']).run line body).before, ?_⟩
    change cursor.run line (['/', '*'] ++ (body ++ ['*', '/'])) = _
    rw [Cursor.run_append, Cursor.run_append, Cursor.run_closing_comment line region, brackets, inside]
    rfl
  | @regex body isBody nonempty noComment =>
    have inside : cursor.step line '/' = ⟨'/' :: cursor.before, .slash true, cursor.brackets⟩ :=
      begins.operand rfl ▸ opened
    obtain ⟨read, ran⟩ := Cursor.run_regex line isBody nonempty noComment ('/' :: cursor.before)
      cursor.brackets
    refine ⟨read, ?_⟩
    change (cursor.step line '/').run line (body ++ ['/']) = _
    rw [inside, Cursor.run_append, ran]
    rfl
  | lineComment => exact absurd rfl closed

theorem Written.scanned_lineComment (written : LiteralKind.lineComment.Written text) (line : Nat)
    {cursor : Cursor} (begins : LiteralKind.lineComment.Begins cursor) :
    ∃ read, cursor.run line text = ⟨read, .lineComment, cursor.brackets⟩ := by
  cases written with
  | lineComment body =>
    change ∃ read, cursor.run line (['/', '/'] ++ body) = _
    rw [Cursor.run_append, (begins.opened_comment rfl line).2]
    exact Cursor.run_lineComment line body _ cursor.brackets

theorem Written.ends (written : kind.Written text) (closed : kind ≠ .lineComment) : Text.EndsInk text := by
  cases written with
  | @quoted quote body _ =>
    exact (Text.EndsInk.singleton (by cases quote <;> rfl)).append (quote.char :: body)
  | @template body _ => exact (Text.EndsInk.singleton (by decide)).append ('`' :: body)
  | @comment body _ =>
    exact ⟨'/' :: '*' :: (body ++ ['*']), '/', by simp, by decide⟩
  | @regex body _ _ _ => exact (Text.EndsInk.singleton (by decide)).append ('/' :: body)
  | lineComment => exact absurd rfl closed

theorem Written.begins (written : kind.Written text) : Text.BeginsInk text := by
  obtain ⟨rest, same⟩ := written.exists_cons
  exact ⟨kind.first, rest, same, kind.first_ink⟩

theorem Written.trimEnd_lineComment (written : LiteralKind.lineComment.Written text) :
    LiteralKind.lineComment.Written (Text.trimEnd text) := by
  cases written with
  | lineComment body =>
    rw [Text.trimEnd_cons_of_ink (by decide), Text.trimEnd_cons_of_ink (by decide)]
    exact .lineComment _

end LiteralKind

end OptionsApi.Layout
