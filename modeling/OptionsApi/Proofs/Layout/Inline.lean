import OptionsApi.Layout.Format
import OptionsApi.Proofs.Text.Trim
import OptionsApi.Tree.StringLiteral

/-! Parts of a line and what they do to its scan. A scan that meets one of these texts in code is in
code behind it, and the brackets open there are those it found and a known number more; a comment
goes on as long as nothing closes it. -/

set_option autoImplicit false

namespace OptionsApi.Layout

/-- The text stays on its line, and behind it so many more brackets are open. -/
structure Leaves (count : Nat) (text : Text) : Prop where
  single : '\n' ∉ text
  scanned : ∀ line before brackets, ∃ read,
    Cursor.run line ⟨before, .code, brackets⟩ text =
      ⟨read, .code, List.replicate count line ++ brackets⟩

theorem Leaves.nil : Leaves 0 [] := ⟨List.not_mem_nil, fun _ before _ => ⟨before, rfl⟩⟩

theorem Leaves.append {first second : Nat} {left right : Text} (one : Leaves first left)
    (two : Leaves second right) : Leaves (second + first) (left ++ right) where
  single := by
    rw [List.mem_append]
    exact not_or_intro one.single two.single
  scanned line before brackets := by
    obtain ⟨between, here⟩ := one.scanned line before brackets
    obtain ⟨read, there⟩ := two.scanned line between (List.replicate first line ++ brackets)
    refine ⟨read, ?_⟩
    rw [Cursor.run_append, here, there, ← List.append_assoc, List.replicate_append_replicate]

theorem Leaves.append_neutral {count : Nat} {left right : Text} (one : Leaves count left)
    (two : Leaves 0 right) : Leaves count (left ++ right) := by
  simpa using one.append two

/-! Balanced texts. -/

/-- The number of brackets open behind a text; none if one is closed that was not opened. -/
def openAfter? : Nat → Text → Option Nat
  | depth, [] => some depth
  | depth, c :: rest =>
    if isOpener c then openAfter? (depth + 1) rest
    else if isCloser c then
      match depth with
      | 0 => none
      | depth + 1 => openAfter? depth rest
    else openAfter? depth rest

def isPlain (c : Char) : Bool := c != '/' && c != '\'' && c != '"' && c != '`'

theorem Cursor.step_plain {c : Char} (plain : isPlain c = true) (line : Nat) (before : Text)
    (brackets : List Nat) :
    Cursor.step line ⟨before, .code, brackets⟩ c =
      ⟨c :: before, .code, bracketsAfter line c brackets⟩ := by
  simp only [isPlain, Bool.and_eq_true, bne_iff_ne] at plain
  obtain ⟨⟨⟨slash, single⟩, double⟩, tick⟩ := plain
  simp [Cursor.step, Mode.next, Mode.readsCode, codeMode, slash, single, double, tick]

theorem Cursor.run_plain {text : Text} (plain : Text.Within isPlain text) (line : Nat)
    {depth last : Nat} (counted : openAfter? depth text = some last) (before : Text)
    (brackets : List Nat) :
    ∃ read, Cursor.run line ⟨before, .code, List.replicate depth line ++ brackets⟩ text =
      ⟨read, .code, List.replicate last line ++ brackets⟩ := by
  induction text generalizing depth before with
  | nil =>
    cases counted
    exact ⟨before, rfl⟩
  | cons c rest ih =>
    have later : Text.Within isPlain rest := plain.tail
    have stepped := Cursor.step_plain (plain c List.mem_cons_self) line before
      (List.replicate depth line ++ brackets)
    change ∃ read, Cursor.run line (Cursor.step line _ c) rest = _
    rw [stepped, bracketsAfter]
    rw [openAfter?.eq_def] at counted
    dsimp only at counted
    split at counted
    next opener =>
      rw [if_pos opener, ← List.cons_append, ← List.replicate_succ]
      exact ih later counted _
    next opener =>
      rw [if_neg opener]
      split at counted
      next closer =>
        rw [if_pos closer]
        cases depth with
        | zero => cases counted
        | succ depth => exact ih later counted _
      next closer =>
        rw [if_neg closer]
        exact ih later counted _

/-- A text carried over that lies inside one line and disturbs nothing: not empty, without blanks
at its ends, without quotes, backticks and slashes, and with brackets that balance. -/
structure Carriable (text : Text) : Prop where
  nonempty : text ≠ []
  trimmed : Text.trim text = text
  single : '\n' ∉ text
  plain : Text.Within isPlain text
  balanced : openAfter? 0 text = some 0

instance (text : Text) : Decidable (Carriable text) :=
  decidable_of_iff (text ≠ [] ∧ Text.trim text = text ∧ '\n' ∉ text ∧
      Text.Within isPlain text ∧ openAfter? 0 text = some 0)
    ⟨fun ⟨nonempty, trimmed, single, plain, balanced⟩ =>
        ⟨nonempty, trimmed, single, plain, balanced⟩,
      fun carriable => ⟨carriable.nonempty, carriable.trimmed, carriable.single, carriable.plain,
        carriable.balanced⟩⟩

theorem leaves_of_plain {text : Text} {count : Nat}
    (plain : '\n' ∉ text ∧ Text.Within isPlain text ∧ openAfter? 0 text = some count) :
    Leaves count text :=
  have ⟨single, plain, counted⟩ := plain
  ⟨single, fun line before brackets => Cursor.run_plain plain line counted before brackets⟩

theorem Carriable.leaves {text : Text} (carriable : Carriable text) : Leaves 0 text :=
  leaves_of_plain ⟨carriable.single, carriable.plain, carriable.balanced⟩

theorem Carriable.ink {text : Text} (carriable : Carriable text) :
    Text.BeginsInk text ∧ Text.EndsInk text := by
  have kept : Text.trim text ≠ [] := carriable.trimmed.symm ▸ carriable.nonempty
  have ink := Text.ink_of_trim_ne_nil kept
  rwa [carriable.trimmed] at ink

theorem openAfter?_append {depth middle : Nat} {left : Text}
    (counted : openAfter? depth left = some middle) (right : Text) :
    openAfter? depth (left ++ right) = openAfter? middle right := by
  induction left generalizing depth with
  | nil =>
    cases counted
    rfl
  | cons c rest ih =>
    rw [openAfter?.eq_def] at counted
    rw [List.cons_append, openAfter?.eq_def]
    dsimp only at counted ⊢
    split at counted
    next opener => rw [if_pos opener, ih counted]
    next opener =>
      rw [if_neg opener]
      split at counted
      next closer =>
        rw [if_pos closer]
        cases depth with
        | zero => cases counted
        | succ depth => exact ih counted
      next closer => rw [if_neg closer, ih counted]

def Leads (text : Text) : Prop :=
  ∃ c rest, text = c :: rest ∧ Text.isBlank c = false ∧ isCloser c = false

theorem Leads.append {text : Text} (leads : Leads text) (rest : Text) : Leads (text ++ rest) := by
  obtain ⟨c, others, rfl, ink, inner⟩ := leads
  exact ⟨c, others ++ rest, rfl, ink, inner⟩

theorem Leads.begins {text : Text} (leads : Leads text) : Text.BeginsInk text := by
  obtain ⟨c, rest, rfl, ink, _⟩ := leads
  exact ⟨c, rest, rfl, ink⟩

theorem Leads.leadingClosers_eq {text : Text} (leads : Leads text) : leadingClosers text = 0 := by
  obtain ⟨c, rest, rfl, _, inner⟩ := leads
  simp [leadingClosers, inner]

theorem Carriable.leads {text : Text} (carriable : Carriable text) : Leads text := by
  obtain ⟨c, rest, rfl, blank⟩ := carriable.ink.1
  refine ⟨c, rest, rfl, blank, ?_⟩
  have counted := carriable.balanced
  by_cases closer : isCloser c = true
  · have opener : isOpener c = false := by
      simp only [isCloser, Bool.or_eq_true, beq_iff_eq] at closer
      rcases closer with (rfl | rfl) | rfl <;> rfl
    simp [openAfter?, closer, opener] at counted
  · simpa using closer

theorem Cursor.step_closer (line : Nat) {c : Char} (closer : isCloser c = true) (before : Text)
    (brackets : List Nat) :
    Cursor.step line ⟨before, .code, brackets⟩ c = ⟨c :: before, .code, brackets.tail⟩ := by
  simp only [isCloser, Bool.or_eq_true, beq_iff_eq] at closer
  rcases closer with (rfl | rfl) | rfl <;> rfl

theorem Cursor.run_closers (line : Nat) {text : Text} (closers : ∀ c ∈ text, isCloser c = true)
    (before : Text) (brackets : List Nat) :
    ∃ read, Cursor.run line ⟨before, .code, brackets⟩ text =
      ⟨read, .code, brackets.drop text.length⟩ := by
  induction text generalizing before brackets with
  | nil => exact ⟨before, rfl⟩
  | cons c rest ih =>
    obtain ⟨read, ran⟩ :=
      ih (fun d member => closers d (List.mem_cons_of_mem c member)) (c :: before) brackets.tail
    refine ⟨read, ?_⟩
    change Cursor.run line (Cursor.step line _ c) rest = _
    rw [Cursor.step_closer line (closers c List.mem_cons_self), ran, List.length_cons, List.drop_tail]

theorem Leaves.close {count : Nat} {text : Text} (leaves : Leaves count text) :
    Leaves 0 (text ++ List.replicate count ')') where
  single := by
    rw [List.mem_append]
    exact not_or_intro leaves.single fun member => by cases List.eq_of_mem_replicate member
  scanned line before brackets := by
    obtain ⟨between, here⟩ := leaves.scanned line before brackets
    have closers : ∀ c ∈ List.replicate count ')', isCloser c = true := by
      intro c member
      rw [List.eq_of_mem_replicate member]
      rfl
    obtain ⟨read, there⟩ :=
      Cursor.run_closers line closers between (List.replicate count line ++ brackets)
    refine ⟨read, ?_⟩
    rw [Cursor.run_append, here, there]
    simp

/-! String literals. -/

theorem escape_cases (quote : Quote) (c : Char) :
    (c = '\\' ∨ c = quote.char) ∧ quote.escape c = ['\\', c] ∨
      c = '\n' ∧ quote.escape c = ['\\', 'n'] ∨ c = '\r' ∧ quote.escape c = ['\\', 'r'] ∨
      (c ≠ '\\' ∧ c ≠ quote.char ∧ c ≠ '\n' ∧ c ≠ '\r') ∧ quote.escape c = [c] := by
  unfold Quote.escape
  split
  next special => exact .inl ⟨special, rfl⟩
  next ordinary =>
    rw [not_or] at ordinary
    split
    next lineFeed => exact .inr (.inl ⟨lineFeed, rfl⟩)
    next noLineFeed =>
      split
      next carriageReturn => exact .inr (.inr (.inl ⟨carriageReturn, rfl⟩))
      next noReturn => exact .inr (.inr (.inr ⟨⟨ordinary.1, ordinary.2, noLineFeed, noReturn⟩, rfl⟩))

theorem Cursor.run_escape (quote : Quote) (line : Nat) (c : Char) (before : Text)
    (brackets : List Nat) :
    ∃ read, Cursor.run line ⟨before, .quoted quote.char, brackets⟩ (quote.escape c) =
      ⟨read, .quoted quote.char, brackets⟩ := by
  rcases escape_cases quote c with
    ⟨_, same⟩ | ⟨_, same⟩ | ⟨_, same⟩ | ⟨⟨noBackslash, noQuote, _⟩, same⟩
  · exact ⟨_, by rw [same]; rfl⟩
  · exact ⟨_, by rw [same]; rfl⟩
  · exact ⟨_, by rw [same]; rfl⟩
  · refine ⟨c :: before, ?_⟩
    simp [same, Cursor.run, Cursor.step, Mode.next, Mode.readsCode, noBackslash, noQuote]

theorem Cursor.run_escapes (quote : Quote) (line : Nat) (value before : Text) (brackets : List Nat) :
    ∃ read, Cursor.run line ⟨before, .quoted quote.char, brackets⟩ (value.flatMap quote.escape) =
      ⟨read, .quoted quote.char, brackets⟩ := by
  induction value generalizing before with
  | nil => exact ⟨before, rfl⟩
  | cons c rest ih =>
    obtain ⟨between, here⟩ := Cursor.run_escape quote line c before brackets
    obtain ⟨read, there⟩ := ih between
    exact ⟨read, by rw [List.flatMap_cons, Cursor.run_append, here, there]⟩

theorem lineEnd_not_mem_literal (quote : Quote) (value : Text) {d : Char} (lineEnd : d = '\n' ∨ d = '\r') :
    d ∉ quote.literal value := by
  have other {c : Char} (special : c = '\\' ∨ c = quote.char) : d ≠ c := by
    rcases lineEnd with rfl | rfl <;> rcases special with rfl | rfl <;> cases quote <;> decide
  have inside : d ∉ value.flatMap quote.escape := by
    intro member
    obtain ⟨c, _, escaped⟩ := List.mem_flatMap.mp member
    rcases escape_cases quote c with
      ⟨special, same⟩ | ⟨_, same⟩ | ⟨_, same⟩ | ⟨⟨_, _, noLineFeed, noReturn⟩, same⟩
    · simp [same, other special, other (.inl rfl)] at escaped
    · rcases lineEnd with rfl | rfl <;> simp [same] at escaped
    · rcases lineEnd with rfl | rfl <;> simp [same] at escaped
    · rw [same, List.mem_singleton] at escaped
      subst escaped
      exact lineEnd.elim noLineFeed noReturn
  simp [Quote.literal, inside, other (.inr rfl)]

/-- The literal of any value ends where it should and stays on its line. -/
theorem leaves_literal (quote : Quote) (value : Text) : Leaves 0 (quote.literal value) where
  single := lineEnd_not_mem_literal quote value (.inl rfl)
  scanned line before brackets := by
    have opening : Cursor.step line ⟨before, .code, brackets⟩ quote.char =
        ⟨quote.char :: before, .quoted quote.char, brackets⟩ := by
      cases quote <;> rfl
    obtain ⟨read, escaped⟩ := Cursor.run_escapes quote line value (quote.char :: before) brackets
    have closing : Cursor.step line ⟨read, .quoted quote.char, brackets⟩ quote.char =
        ⟨quote.char :: read, .code, brackets⟩ := by
      cases quote <;> rfl
    refine ⟨quote.char :: read, ?_⟩
    change Cursor.run line (Cursor.step line _ quote.char) (_ ++ [quote.char]) = _
    rw [opening, Cursor.run_append, escaped]
    exact closing

/-! Comments. -/

theorem Cursor.run_blank_comment (line : Nat) {blanks : Text} (blank : Text.Blank blanks)
    (before : Text) (brackets : List Nat) :
    ∃ read, Cursor.run line ⟨before, .comment, brackets⟩ blanks = ⟨read, .comment, brackets⟩ := by
  induction blanks generalizing before with
  | nil => exact ⟨before, rfl⟩
  | cons c rest ih =>
    have first : Text.isBlank c = true := blank c List.mem_cons_self
    have noStar : c ≠ '*' := Text.ne_of_isBlank first (by decide)
    have stepped : Cursor.step line ⟨before, .comment, brackets⟩ c =
        ⟨c :: before, .comment, brackets⟩ := by
      simp [Cursor.step, Mode.next, Mode.readsCode, noStar]
    obtain ⟨read, ran⟩ := ih (fun d member => blank d (List.mem_cons_of_mem c member)) (c :: before)
    exact ⟨read, by rw [← ran, ← stepped]; rfl⟩

theorem Cursor.run_comment (line : Nat) {text : Text} (unclosed : ¬ ['*', '/'] <:+: text)
    {cursor : Cursor}
    (inside : cursor.mode = .comment ∨ cursor.mode = .commentStar ∧ text.head? ≠ some '/') :
    (cursor.run line text).mode.region = .comment ∧
      (cursor.run line text).brackets = cursor.brackets := by
  induction text generalizing cursor with
  | nil =>
    refine ⟨?_, rfl⟩
    rcases inside with mode | ⟨mode, _⟩ <;> simp [Cursor.run, mode, Mode.region]
  | cons c rest ih =>
    have later : ¬ ['*', '/'] <:+: rest := fun closed =>
      unclosed (List.infix_cons_iff.mpr (Or.inr closed))
    have kept : (cursor.step line c).brackets = cursor.brackets := by
      rcases inside with mode | ⟨mode, _⟩ <;> simp [Cursor.step, mode, Mode.readsCode]
    -- A star waits for the slash, which the text does not have behind it.
    have next : (cursor.step line c).mode = .comment ∨
        (cursor.step line c).mode = .commentStar ∧ rest.head? ≠ some '/' := by
      by_cases star : c = '*'
      · refine Or.inr ⟨?_, ?_⟩
        · rcases inside with mode | ⟨mode, _⟩ <;> simp [Cursor.step, mode, Mode.next, star]
        · intro slash
          obtain ⟨others, rfl⟩ := List.head?_eq_some_iff.mp slash
          exact unclosed ⟨[], others, by simp [star]⟩
      · refine Or.inl ?_
        rcases inside with mode | ⟨mode, noSlash⟩
        · simp [Cursor.step, mode, Mode.next, star]
        · have other : c ≠ '/' := by simpa using noSlash
          simp [Cursor.step, mode, Mode.next, star, other]
    obtain ⟨region, brackets⟩ := ih later next
    exact ⟨region, brackets.trans kept⟩

end OptionsApi.Layout
