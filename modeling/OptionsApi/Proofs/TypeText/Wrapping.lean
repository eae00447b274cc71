import Mathlib.Data.List.Infix
import OptionsApi.Proofs.TypeText.Balanced
import OptionsApi.TypeText.Marker

/-! Parentheses that say nothing. Removing the parentheses around a text undoes putting them there, as
long as the text does not close one of them; it always comes to an end, at a part of the text that is
not in parentheses any more. -/

set_option autoImplicit false

namespace OptionsApi.TypeText

open Text (Blank)

/-! Texts that close no parentheses around them. -/

/-- Every beginning of the text closes at most so many round parentheses more than it opens. -/
def ClosesAtMost (depth : Nat) (text : Text) : Prop :=
  ∀ start, start <+: text → start.count ')' ≤ start.count '(' + depth

instance (depth : Nat) (text : Text) : Decidable (ClosesAtMost depth text) :=
  decidable_of_iff (∀ start ∈ text.inits, start.count ')' ≤ start.count '(' + depth)
    (by simp only [List.mem_inits, ClosesAtMost])

namespace ClosesAtMost

variable {depth : Nat} {text : Text}

theorem mono {wider : Nat} (closes : ClosesAtMost depth text) (wide : depth ≤ wider) :
    ClosesAtMost wider text :=
  fun start inside => Nat.le_trans (closes start inside) (Nat.add_le_add_left wide _)

theorem of_not_mem (absent : ')' ∉ text) : ClosesAtMost depth text := by
  intro start inside
  rw [List.count_eq_zero_of_not_mem fun member => absent (inside.subset member)]
  exact Nat.zero_le _

theorem append {inner : Nat} {left right : Text} (first : ClosesAtMost depth left)
    (second : ClosesAtMost inner right)
    (leaves : inner + left.count ')' ≤ left.count '(' + depth) :
    ClosesAtMost depth (left ++ right) := by
  intro start inside
  have part := List.prefix_append left right
  rcases List.prefix_or_prefix_of_prefix inside part with within | ⟨more, rfl⟩
  · exact first start within
  · have later := second more ((List.prefix_append_right_inj left).mp inside)
    rw [List.count_append, List.count_append]
    omega

theorem behind {c : Char} {rest : Text} (closes : ClosesAtMost depth (c :: rest)) {start : Text}
    (inside : start <+: rest) : (c :: start).count ')' ≤ (c :: start).count '(' + depth :=
  closes (c :: start) (List.cons_prefix_cons.mpr ⟨rfl, inside⟩)

theorem behind_opener {rest : Text} (closes : ClosesAtMost depth ('(' :: rest)) :
    ClosesAtMost (depth + 1) rest := by
  intro start inside
  have counted := closes.behind inside
  rw [List.count_cons_of_ne (by decide), List.count_cons_self] at counted
  omega

theorem behind_closer {rest : Text} (closes : ClosesAtMost depth (')' :: rest)) :
    ∃ outer, depth = outer + 1 ∧ ClosesAtMost outer rest := by
  have first := closes.behind List.nil_prefix
  rw [List.count_cons_self, List.count_cons_of_ne (by decide), List.count_nil, List.count_nil] at first
  refine ⟨depth - 1, by omega, ?_⟩
  intro start inside
  have counted := closes.behind inside
  rw [List.count_cons_self, List.count_cons_of_ne (by decide)] at counted
  omega

theorem behind_other {c : Char} {rest : Text} (closes : ClosesAtMost depth (c :: rest))
    (noOpener : c ≠ '(') (noCloser : c ≠ ')') : ClosesAtMost depth rest := by
  intro start inside
  have counted := closes.behind inside
  rwa [List.count_cons_of_ne noCloser, List.count_cons_of_ne noOpener] at counted

/-- In parentheses such a text does not close the outermost of them. -/
theorem closesEarly_eq (closes : ClosesAtMost depth text) :
    closesEarly (depth + 1) (text ++ [')']) = false := by
  -- The depth goes along: what is left of the text may close as many as are open in front of it.
  induction text generalizing depth with
  | nil =>
    rw [List.nil_append, closesEarly]
    split <;> rfl
  | cons c rest ih =>
    rw [List.cons_append]
    by_cases opener : c = '('
    · subst opener
      rw [closesEarly]
      exact ih closes.behind_opener
    by_cases closer : c = ')'
    · subst closer
      obtain ⟨outer, rfl, further⟩ := closes.behind_closer
      rw [closesEarly, if_neg (by omega)]
      exact ih further
    · rw [closesEarly, ih (closes.behind_other opener closer)]
      · exact opener
      · exact closer

theorem of_blank (blank : Blank text) : ClosesAtMost depth text :=
  of_not_mem (blank.not_mem (by decide))

theorem padded {before behind : Text} (first : Blank before) (closes : ClosesAtMost 0 text)
    (last : Blank behind) : ClosesAtMost 0 (before ++ text ++ behind) := by
  have unclosed : before.count ')' = 0 := List.count_eq_zero_of_not_mem (first.not_mem (by decide))
  have middle : ClosesAtMost 0 (before ++ text) := (of_blank first).append closes (by omega)
  have even : (before ++ text).count ')' ≤ (before ++ text).count '(' + 0 :=
    middle _ (List.prefix_refl _)
  have blanks : ClosesAtMost 0 behind := of_blank last
  exact middle.append blanks (by omega)

theorem enclosed (closes : ClosesAtMost 0 text) : ClosesAtMost 0 ('(' :: (text ++ [')'])) := by
  have even : text.count ')' ≤ text.count '(' + 0 := closes text (List.prefix_refl _)
  have closer : ClosesAtMost 1 [')'] := by decide
  have inner : ClosesAtMost 1 (text ++ [')']) := (closes.mono (by decide)).append closer (by omega)
  have opener : ClosesAtMost 0 ['('] := by decide
  exact opener.append inner (by decide)

theorem isParenthesized_eq (closes : ClosesAtMost 0 text) :
    isParenthesized ('(' :: (text ++ [')'])) = true := by
  have late : closesEarly 0 ('(' :: (text ++ [')'])) = false := closes.closesEarly_eq
  simp [isParenthesized, late, List.getLast?_cons]

end ClosesAtMost

/-! Putting parentheses around a text. -/

/-- The text with any number of parentheses around it, and blanks around the text and around each of
them. -/
inductive Wraps (text : Text) : Text → Prop where
  | padded {before behind : Text} : Blank before → Blank behind →
      Wraps text (before ++ text ++ behind)
  | parens {before inside behind : Text} : Blank before → Wraps text inside → Blank behind →
      Wraps text (before ++ '(' :: (inside ++ [')']) ++ behind)

theorem stripParens_between {before behind : Text} (first : Blank before) (last : Blank behind)
    (text : Text) : stripParens (before ++ text ++ behind) = stripParens text := by
  rw [stripParens_eq, Text.trim_between first last, ← stripParens_eq]

theorem ClosesAtMost.stripParens_enclosed {text : Text} (closes : ClosesAtMost 0 text) :
    stripParens ('(' :: (text ++ [')'])) = stripParens text := by
  have trimmed : Text.trim ('(' :: (text ++ [')'])) = '(' :: (text ++ [')']) :=
    Text.trim_of_ink ⟨_, _, rfl, by decide⟩ ⟨'(' :: text, ')', rfl, by decide⟩
  rw [stripParens_eq, trimmed, if_pos closes.isParenthesized_eq]
  simp [inner]

theorem Wraps.closesAtMost {text wrapped : Text} (wraps : Wraps text wrapped)
    (closes : ClosesAtMost 0 text) : ClosesAtMost 0 wrapped := by
  induction wraps with
  | padded first last => exact closes.padded first last
  | parens first _ last ih => exact ih.enclosed.padded first last

theorem Wraps.strips {text wrapped : Text} (wraps : Wraps text wrapped)
    (closes : ClosesAtMost 0 text) : stripParens wrapped = stripParens text := by
  induction wraps with
  | padded first last => exact stripParens_between first last text
  | parens first wraps last ih =>
    rw [stripParens_between first last, (wraps.closesAtMost closes).stripParens_enclosed, ih]

/-! Removing parentheses from any text. -/

/-- The rounds in which the parentheses of a text are removed one by one, up to a text that has none. -/
inductive Unwraps : Nat → Text → Text → Prop where
  | done {text : Text} : isParenthesized text = false → Unwraps 0 text text
  | round {rounds : Nat} {text bare : Text} : isParenthesized text = true →
      Unwraps rounds (Text.trim (inner text)) bare → Unwraps (rounds + 1) text bare

theorem length_inner {text : Text} (parenthesized : isParenthesized text = true) :
    (inner text).length + 2 = text.length := by
  cases text with
  | nil => cases parenthesized
  | cons c rest =>
    cases rest with
    | nil =>
      simp only [isParenthesized, List.head?_cons, List.getLast?_singleton, Bool.and_eq_true,
        decide_eq_true_eq, Option.some.injEq] at parenthesized
      obtain ⟨⟨rfl, other⟩, _⟩ := parenthesized
      cases other
    | cons d more => simp [inner]

theorem isInfix_inner (text : Text) : inner text <:+: text := by
  have start : inner text <+: text.tail := List.dropLast_prefix _
  exact start.isInfix.trans (List.tail_suffix text).isInfix

theorem exists_unwraps (text : Text) :
    ∃ rounds, 2 * rounds ≤ text.length ∧ Unwraps rounds (Text.trim text) (stripParens text) := by
  fun_induction stripParens text with
  | case1 text parenthesized shorter ih =>
    obtain ⟨rounds, enough, unwraps⟩ := ih
    have size := length_inner parenthesized
    have trimmed := Text.length_trim_le text
    exact ⟨rounds + 1, by omega, .round parenthesized unwraps⟩
  | case2 text bare => exact ⟨0, Nat.zero_le _, .done (by simpa using bare)⟩

theorem Unwraps.ends {rounds : Nat} {text bare : Text} (unwraps : Unwraps rounds text bare)
    (trimmed : Text.trim text = text) :
    Text.trim bare = bare ∧ isParenthesized bare = false ∧ bare <:+: text := by
  induction unwraps with
  | done last => exact ⟨trimmed, last, List.infix_rfl⟩
  | @round rounds text bare _ _ ih =>
    obtain ⟨isTrimmed, last, inside⟩ := ih (Text.trim_trim _)
    exact ⟨isTrimmed, last, inside.trans ((Text.isInfix_trim _).trans (isInfix_inner text))⟩

theorem isCallable_congr {left right : Text} (same : stripParens left = stripParens right) :
    isCallable left = isCallable right := by
  simp only [isCallable, same]

end OptionsApi.TypeText

namespace OptionsApi

open TypeText

/-- Parentheses around a type are redundant. A text that closes none of them is stripped of any number
of them, whatever blanks stand around, and is told callable with them exactly if it is without. On
every text the removal ends after some rounds, with a part of the text that is trimmed and from which
a second removal takes nothing. -/
theorem DeclaredType.parens_redundant :
    (∀ text wrapped : Text, ClosesAtMost 0 text → Wraps text wrapped →
        stripParens wrapped = stripParens text ∧
          DeclaredType.isCallable ⟨wrapped, none⟩ = DeclaredType.isCallable ⟨text, none⟩) ∧
      ∀ text : Text,
        (∃ rounds, 2 * rounds ≤ text.length ∧ Unwraps rounds (Text.trim text) (stripParens text)) ∧
          stripParens (stripParens text) = stripParens text ∧
          Text.trim (stripParens text) = stripParens text ∧ stripParens text <:+: text := by
  constructor
  · intro text wrapped closes wraps
    have stripped := wraps.strips closes
    exact ⟨stripped, isCallable_congr stripped⟩
  · intro text
    obtain ⟨rounds, enough, unwraps⟩ := exists_unwraps text
    obtain ⟨trimmed, bare, inside⟩ := unwraps.ends (Text.trim_trim text)
    refine ⟨⟨rounds, enough, unwraps⟩, ?_, trimmed, inside.trans (Text.isInfix_trim text)⟩
    rw [stripParens_eq (stripParens text), trimmed, bare]
    rfl

/-- A function type whose parameters and result are in parentheses that do not wrap it, inside two
pairs that do. -/
theorem adjacentGroups_wrapped :
    let text : Text := ['(', 'a', ')', '=', '>', '(', 'b', ')']
    let wrapped : Text := [' ', '(', '(', '\n', '(', 'a', ')', '=', '>', '(', 'b', ')', ')', '\t', ')']
    (ClosesAtMost 0 text ∧ Wraps text wrapped) ∧ stripParens wrapped = text ∧
      DeclaredType.isCallable ⟨wrapped, none⟩ = true := by
  intro text wrapped
  have closes : ClosesAtMost 0 text := by decide
  have once : Wraps text ['(', '\n', '(', 'a', ')', '=', '>', '(', 'b', ')', ')', '\t'] :=
    @Wraps.parens text [] _ ['\t'] (by decide)
      (@Wraps.padded text ['\n'] [] (by decide) (by decide)) (by decide)
  have wraps : Wraps text wrapped := @Wraps.parens text [' '] _ [] (by decide) once (by decide)
  have bare : stripParens text = text := by
    rw [stripParens_eq, if_neg (by decide)]
    rfl
  obtain ⟨stripped, callable⟩ := DeclaredType.parens_redundant.1 text wrapped closes wraps
  refine ⟨⟨closes, wraps⟩, stripped.trans bare, callable.trans ?_⟩
  change TypeText.isCallable text = true
  rw [TypeText.isCallable, bare]
  rfl

end OptionsApi
