import OptionsApi.Proofs.Text.Trim
import OptionsApi.Text.WordChar

/-! No blank is a character of a word or of a name. -/

set_option autoImplicit false

namespace OptionsApi.Text

def wideBlanks : List Nat :=
  [0x85, 0xA0, 0x1680, 0x2000, 0x2001, 0x2002, 0x2003, 0x2004, 0x2005, 0x2006, 0x2007, 0x2008,
    0x2009, 0x200A, 0x2028, 0x2029, 0x202F, 0x205F, 0x3000]

theorem wideBlanks_not_letters : ∀ n ∈ wideBlanks, letterOrNumberRanges.contains n = false := by
  decide +kernel

theorem isWordChar_of_isBlank {c : Char} (blank : isBlank c = true) : isWordChar c = false := by
  have letter : isLetterOrNumber c = false := by
    simp only [isBlank, Bool.or_eq_true, Bool.and_eq_true, decide_eq_true_eq, beq_iff_eq] at blank
    unfold isLetterOrNumber
    split
    next narrow =>
      have bounds : ¬ (c.isAlphanum = true) := by
        delta Char.isAlphanum Char.isAlpha Char.isUpper Char.isLower Char.isDigit
        simp only [Bool.or_eq_true, Bool.and_eq_true, decide_eq_true_eq, ge_iff_le,
          UInt32.le_iff_toNat_le]
        change ¬ ((65 ≤ c.toNat ∧ c.toNat ≤ 90 ∨ 97 ≤ c.toNat ∧ c.toNat ≤ 122) ∨
          48 ≤ c.toNat ∧ c.toNat ≤ 57)
        omega
      simpa using bounds
    next wide =>
      apply wideBlanks_not_letters
      simp only [wideBlanks, List.mem_cons, List.not_mem_nil, or_false]
      omega
  have noUnderscore : c ≠ '_' := ne_of_isBlank blank (by decide)
  simp [isWordChar, letter, noUnderscore]

theorem isNameChar_of_isBlank {c : Char} (blank : isBlank c = true) : isNameChar c = false := by
  have noDollar : c ≠ '$' := ne_of_isBlank blank (by decide)
  simp [isNameChar, isWordChar_of_isBlank blank, noDollar]

theorem isBlank_of_isNameChar {c : Char} (named : isNameChar c = true) : isBlank c = false := by
  cases blank : isBlank c with
  | false => rfl
  | true => rw [isNameChar_of_isBlank blank] at named; cases named

end OptionsApi.Text
