import Mathlib.Data.List.Induction
import OptionsApi.OptionsObject.Prop
import OptionsApi.Proofs.Layout.Literals

/-! Initial values that are taken for strings. A value counts as a string if it begins and ends with
the same quote. That is so of every string and of every template literal, but a text between two
quotes need not be one literal: the first quote may be closed before the end, and the last one may be
escaped. -/

set_option autoImplicit false

namespace OptionsApi

namespace Layout

theorem Enclosed.tail {close c : Char} {rest : Text} (enclosed : Enclosed close (c :: rest))
    (other : c ≠ '\\') : c ≠ close ∧ Enclosed close rest := by
  cases enclosed with
  | char _ inside behind => exact ⟨inside, behind⟩
  | escape _ _ => exact absurd rfl other

theorem Enclosed.behind_escape {close c : Char} {rest : Text}
    (enclosed : Enclosed close ('\\' :: c :: rest)) : Enclosed close rest := by
  cases enclosed with
  | char other _ _ => exact absurd rfl other
  | escape _ behind => exact behind

theorem Enclosed.of_append {close : Char} {first rest : Text} (enclosed : Enclosed close first)
    (whole : Enclosed close (first ++ rest)) : Enclosed close rest := by
  induction enclosed with
  | nil => exact whole
  | char other _ _ ih => exact ih (whole.tail other).2
  | escape _ _ ih => exact ih whole.behind_escape

/-- From any place on a text is enclosed to its end, or to a backslash that ends it, or to a closing
character. -/
theorem enclosed_cases (close : Char) (text : Text) :
    Enclosed close text ∨ (∃ body, Enclosed close body ∧ text = body ++ ['\\']) ∨
      ∃ body behind, Enclosed close body ∧ text = body ++ close :: behind := by
  -- An escape takes two characters, so the induction has to reach that far back.
  induction text using List.twoStepInduction with
  | nil => exact .inl .nil
  | singleton c =>
    by_cases escapes : c = '\\'
    · exact .inr (.inl ⟨[], .nil, by rw [escapes]; rfl⟩)
    by_cases closes : c = close
    · exact .inr (.inr ⟨[], [], .nil, by rw [closes]; rfl⟩)
    exact .inl (.char escapes closes .nil)
  | cons_cons c next rest behindEscape behindChar =>
    by_cases escapes : c = '\\'
    · subst escapes
      rcases behindEscape with whole | ⟨body, enclosed, rfl⟩ | ⟨body, behind, enclosed, rfl⟩
      · exact .inl (.escape next whole)
      · exact .inr (.inl ⟨_, .escape next enclosed, rfl⟩)
      · exact .inr (.inr ⟨_, behind, .escape next enclosed, rfl⟩)
    by_cases closes : c = close
    · exact .inr (.inr ⟨[], next :: rest, .nil, by rw [closes]; rfl⟩)
    rcases behindChar next with whole | ⟨body, enclosed, same⟩ | ⟨body, behind, enclosed, same⟩
    · exact .inl (.char escapes closes whole)
    · exact .inr (.inl ⟨_, .char escapes closes enclosed, by rw [same]; rfl⟩)
    · exact .inr (.inr ⟨_, behind, .char escapes closes enclosed, by rw [same]; rfl⟩)

end Layout

namespace TypeText

open Layout (Enclosed enclosed_cases)

def isQuoteMark (c : Char) : Bool := c == '\'' || c == '"' || c == '`'

/-- One string or template literal and nothing else: of the later quotes of its kind, the first that no
backslash escapes is the last character. -/
inductive IsStringLiteral : Text → Prop where
  | intro {quote : Char} {body : Text} : isQuoteMark quote = true → Enclosed quote body →
      IsStringLiteral (quote :: (body ++ [quote]))

/-- A text that begins and ends with the same quote and is no literal. -/
inductive LooksQuoted : Text → Prop where
  /-- The literal is closed before the end, as in the sum of two strings. -/
  | closedBefore {quote : Char} {body : Text} (behind : Text) : isQuoteMark quote = true →
      Enclosed quote body → LooksQuoted (quote :: (body ++ quote :: (behind ++ [quote])))
  /-- The quote at the end is escaped, so that nothing closes the literal. -/
  | unclosed {quote : Char} {body : Text} : isQuoteMark quote = true → Enclosed quote body →
      LooksQuoted (quote :: (body ++ ['\\', quote]))

theorem isQuoted_iff (text : Text) :
    isQuoted text = true ↔
      ∃ quote body, isQuoteMark quote = true ∧ text = quote :: (body ++ [quote]) := by
  unfold isQuoted
  split
  next quote c rest =>
    simp only [Bool.and_eq_true, decide_eq_true_eq, List.getLast?_eq_some_iff]
    constructor
    · rintro ⟨marked, body, ends⟩
      exact ⟨quote, body, marked, by rw [ends]⟩
    · rintro ⟨other, body, marked, same⟩
      obtain ⟨rfl, ends⟩ := List.cons.inj same
      exact ⟨marked, body, ends⟩
  next short =>
    refine iff_of_false Bool.false_ne_true ?_
    rintro ⟨quote, body, _, rfl⟩
    cases body with
    | nil => exact short quote quote [] rfl
    | cons c rest => exact short quote c (rest ++ [quote]) rfl

/-- What stands between two quotes is enclosed up to the last one, or up to one before, or up to a
backslash in front of the last. -/
theorem isQuoted_iff_literal_or_looks (text : Text) :
    isQuoted text = true ↔ IsStringLiteral text ∨ LooksQuoted text := by
  rw [isQuoted_iff]
  constructor
  · rintro ⟨quote, body, marked, rfl⟩
    rcases enclosed_cases quote body with whole | ⟨inner, enclosed, rfl⟩ | ⟨inner, behind, enclosed, rfl⟩
    · exact .inl (.intro marked whole)
    · rw [List.append_assoc]
      exact .inr (.unclosed marked enclosed)
    · rw [List.append_assoc]
      exact .inr (.closedBefore behind marked enclosed)
  · rintro (⟨marked, _⟩ | ⟨behind, marked, _⟩ | ⟨marked, _⟩)
    · exact ⟨_, _, marked, rfl⟩
    · exact ⟨_, _ ++ _ :: behind, marked, by rw [List.append_assoc]; rfl⟩
    · exact ⟨_, _ ++ ['\\'], marked, by rw [List.append_assoc]; rfl⟩

theorem IsStringLiteral.not_looksQuoted {text : Text} (literal : IsStringLiteral text) :
    ¬ LooksQuoted text := by
  intro looks
  cases literal with
  | @intro quote body marked enclosed =>
    have mark : quote ≠ '\\' := by
      rintro rfl
      cases marked
    generalize same : quote :: (body ++ [quote]) = text at looks
    cases looks with
    | @closedBefore other inner behind _ closed =>
      obtain ⟨rfl, same⟩ := List.cons.inj same
      have shorter : body = inner ++ quote :: behind := by
        refine (List.append_left_inj [quote]).mp ?_
        rw [same, List.append_assoc]
        rfl
      rw [shorter] at enclosed
      exact ((closed.of_append enclosed).tail mark).1 rfl
    | @unclosed other inner _ closed =>
      obtain ⟨rfl, same⟩ := List.cons.inj same
      have shorter : body = inner ++ ['\\'] := by
        refine (List.append_left_inj [quote]).mp ?_
        rw [same, List.append_assoc]
        rfl
      rw [shorter] at enclosed
      cases closed.of_append enclosed with
      | char other _ _ => exact other rfl

theorem literalType?_eq_string (initializer : Text) :
    literalType? initializer = some .string ↔ isQuoted (Text.trim initializer) = true := by
  unfold literalType?
  dsimp only
  split
  next quoted => simp [quoted]
  next unquoted =>
    refine iff_of_false ?_ unquoted
    split
    · simp
    · split <;> simp

end TypeText

/-- An initial value is taken for a string exactly if it is one string or template literal or looks
like one, which no literal does. A prop without a type is then declared as a string either way. -/
theorem inferred_string_iff (initializer : Text) :
    (TypeText.literalType? initializer = some .string ↔
      TypeText.IsStringLiteral (Text.trim initializer) ∨ TypeText.LooksQuoted (Text.trim initializer)) ∧
    ¬ (TypeText.IsStringLiteral (Text.trim initializer) ∧
      TypeText.LooksQuoted (Text.trim initializer)) ∧
    ∀ (settings : Settings) (prop : PropField) (journal : Journal), prop.field.type = none →
      prop.field.initializer = some initializer →
      TypeText.IsStringLiteral (Text.trim initializer) ∨ TypeText.LooksQuoted (Text.trim initializer) →
      ∃ after, (prop.typeEntry settings).run.run journal =
        (.ok (.propertyAssignment "type" (.identifier "String") none), after) := by
  have string := (TypeText.literalType?_eq_string initializer).trans
    (TypeText.isQuoted_iff_literal_or_looks (Text.trim initializer))
  refine ⟨string, fun both => both.1.not_looksQuoted both.2, ?_⟩
  intro settings prop journal untyped initial shown
  have inferred : prop.inferredType? = some .string := by
    simp [PropField.inferredType?, initial, string.mpr shown]
  simp only [PropField.typeEntry, PropField.resolveType, untyped, inferred]
  exact ⟨_, rfl⟩

theorem escapedQuote_inferred :
    let initial : Text := [' ', '\'', 'a', '\\', '\'', '\'', '\n']
    let prop : PropField := { field := { name := ['p'], initializer := some initial } }
    TypeText.literalType? initial = some .string ∧ ¬ TypeText.LooksQuoted (Text.trim initial) ∧
      ∃ after, (prop.typeEntry {}).run.run {} =
        (.ok (.propertyAssignment "type" (.identifier "String") none), after) := by
  intro initial prop
  have body : Layout.Enclosed '\'' ['a', '\\', '\''] :=
    .char (by decide) (by decide) (.escape '\'' .nil)
  have literal : TypeText.IsStringLiteral (Text.trim initial) := .intro rfl body
  obtain ⟨string, apart, declared⟩ := inferred_string_iff initial
  exact ⟨string.mpr (.inl literal), fun looks => apart ⟨literal, looks⟩,
    declared {} prop {} rfl rfl (.inl literal)⟩

/-- The sum of two strings is taken for a string, and so is a literal that nothing closes. -/
theorem sum_taken_for_string :
    let sum : Text := ['\'', 'a', '\'', ' ', '+', ' ', '\'', 'b', '\'']
    let unclosed : Text := ['`', '\\', '`']
    (TypeText.literalType? sum = some .string ∧ ¬ TypeText.IsStringLiteral (Text.trim sum)) ∧
      TypeText.literalType? unclosed = some .string ∧
      ¬ TypeText.IsStringLiteral (Text.trim unclosed) := by
  intro sum unclosed
  have first : Layout.Enclosed '\'' ['a'] := .char (by decide) (by decide) .nil
  have closed : TypeText.LooksQuoted (Text.trim sum) :=
    .closedBefore [' ', '+', ' ', '\'', 'b'] rfl first
  have dangling : TypeText.LooksQuoted (Text.trim unclosed) := .unclosed rfl .nil
  exact ⟨⟨by decide, fun literal => literal.not_looksQuoted closed⟩, by decide,
    fun literal => literal.not_looksQuoted dangling⟩

end OptionsApi
