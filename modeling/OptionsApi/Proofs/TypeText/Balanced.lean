import OptionsApi.TypeText.Chunk
import OptionsApi.TypeText.Parens
import OptionsApi.Proofs.Text.Trim

/-! Texts whose brackets match. Cutting a type text and looking for the parentheses around it both
count brackets; over a balanced text the count comes back to where it was, so each of the two reads
such a text as a whole. -/

set_option autoImplicit false

namespace OptionsApi.TypeText

open Text (Within Blank BeginsInk EndsInk)

inductive Pair : Char → Char → Prop where
  | round : Pair '(' ')'
  | square : Pair '[' ']'
  | curly : Pair '{' '}'
  | angle : Pair '<' '>'

def isPlain (c : Char) : Bool := !isTypeOpener c && !isTypeCloser c && c != '='

/-- Texts with matching brackets: outside them only characters of a kind, and arrows only where
they are allowed; inside them anything that is balanced. -/
inductive Balanced : Bool → (Char → Bool) → Text → Prop where
  | nil {arrows : Bool} {top : Char → Bool} : Balanced arrows top []
  | char {arrows : Bool} {top : Char → Bool} {c : Char} {text : Text} : isPlain c = true →
      top c = true → Balanced arrows top text → Balanced arrows top (c :: text)
  | arrow {top : Char → Bool} {text : Text} : Balanced true top text →
      Balanced true top ('=' :: '>' :: text)
  | group {arrows : Bool} {top : Char → Bool} {opener closer : Char} {inside text : Text} :
      Pair opener closer → Balanced true (fun _ => true) inside → Balanced arrows top text →
      Balanced arrows top (opener :: (inside ++ closer :: text))

abbrev Nested (text : Text) : Prop := Balanced true (fun _ => true) text

namespace Balanced

variable {arrows : Bool} {top : Char → Bool} {left right text : Text}

theorem append (first : Balanced arrows top left) (second : Balanced arrows top right) :
    Balanced arrows top (left ++ right) := by
  induction first with
  | nil => exact second
  | char plain allowed _ ih => exact .char plain allowed (ih second)
  | arrow _ ih => exact .arrow (ih second)
  | group pair inside _ _ ih =>
    rw [List.cons_append, List.append_assoc, List.cons_append]
    exact .group pair inside (ih second)

theorem nested (balanced : Balanced arrows top text) : Nested text := by
  induction balanced with
  | nil => exact .nil
  | char plain _ _ ih => exact .char plain rfl ih
  | arrow _ ih => exact .arrow ih
  | group pair inside _ _ ih => exact .group pair inside ih

theorem ofWithin {kind : Char → Bool} (all : Within kind text)
    (plain : ∀ c, kind c = true → isPlain c = true) (allowed : ∀ c, kind c = true → top c = true) :
    Balanced arrows top text := by
  induction text with
  | nil => exact .nil
  | cons c rest ih =>
    have first : kind c = true := all c List.mem_cons_self
    exact .char (plain c first) (allowed c first) (ih all.tail)

theorem enclosed {opener closer : Char} {inside : Text} (pair : Pair opener closer)
    (nested : Nested inside) : Balanced arrows top (opener :: (inside ++ [closer])) :=
  .group pair nested .nil

theorem exists_parens (balanced : Balanced arrows top ('(' :: text)) :
    ∃ inside rest, Nested inside ∧ text = inside ++ ')' :: rest := by
  cases balanced with
  | char plain _ _ => exact absurd plain (by decide)
  | group pair inside _ => cases pair; exact ⟨_, _, inside, rfl⟩

end Balanced

/-! Cutting. -/

theorem isPlain_iff {c : Char} : isPlain c = true ↔
    isTypeOpener c = false ∧ isTypeCloser c = false ∧ c ≠ '=' := by
  simp [isPlain, and_assoc]

theorem isPlain_of_isSeparator {c : Char} (separates : isSeparator c = true) : isPlain c = true := by
  simp only [isSeparator, Bool.or_eq_true, beq_iff_eq] at separates
  rcases separates with (rfl | rfl) | rfl <;> rfl

theorem depthAfter_of_plain {c : Char} (plain : isPlain c = true) (depth : Int) :
    depthAfter c depth = depth := by
  obtain ⟨noOpener, noCloser, -⟩ := isPlain_iff.mp plain
  simp [depthAfter, noOpener, noCloser]

theorem extendFirst_extendFirst (left right : Text) (texts : List Text) :
    extendFirst left (extendFirst right texts) = extendFirst (left ++ right) texts := by
  cases texts <;> simp [extendFirst]

theorem extendFirst_ne_nil (start : Text) (texts : List Text) : extendFirst start texts ≠ [] := by
  cases texts <;> simp [extendFirst]

theorem extendFirst_nil {texts : List Text} (nonempty : texts ≠ []) : extendFirst [] texts = texts := by
  cases texts with
  | nil => exact absurd rfl nonempty
  | cons first others => rfl

theorem tail_extendFirst (start : Text) (texts : List Text) :
    (extendFirst start texts).tail = texts.tail := by
  cases texts <;> rfl

theorem pieces_ne_nil (target depth : Int) (text : Text) : pieces target depth text ≠ [] := by
  fun_cases pieces target depth text <;> first | exact extendFirst_ne_nil _ _ | simp

theorem pieces_cons {c : Char} {rest : Text} (noArrow : ∀ later, c :: rest ≠ '=' :: '>' :: later)
    (target depth : Int) : pieces target depth (c :: rest) =
      if depthAfter c depth = target && isSeparator c
      then [] :: pieces target (depthAfter c depth) rest
      else extendFirst [c] (pieces target (depthAfter c depth) rest) := by
  rw [pieces]
  intro later sign same
  exact noArrow later (by rw [sign, same])

theorem pieces_plain {c : Char} (plain : isPlain c = true) (target depth : Int) (rest : Text) :
    pieces target depth (c :: rest) =
      if depth = target && isSeparator c then [] :: pieces target depth rest
      else extendFirst [c] (pieces target depth rest) := by
  rw [pieces_cons (fun later same => (isPlain_iff.mp plain).2.2 (List.cons.inj same).1),
    depthAfter_of_plain plain]

theorem pieces_opener {opener closer : Char} (pair : Pair opener closer) (target depth : Int)
    (rest : Text) : pieces target depth (opener :: rest) =
      extendFirst [opener] (pieces target (depth + 1) rest) := by
  cases pair <;> simp [pieces, depthAfter, isTypeOpener, isSeparator]

theorem pieces_closer {opener closer : Char} (pair : Pair opener closer) (target depth : Int)
    (rest : Text) : pieces target (depth + 1) (closer :: rest) =
      extendFirst [closer] (pieces target depth rest) := by
  cases pair <;> simp [pieces, depthAfter, isTypeOpener, isTypeCloser, isSeparator]

/-- A balanced text is not cut below the target depth, and at it only where it has an arrow or a
separator outside its brackets. -/
theorem pieces_balanced {arrows : Bool} {top : Char → Bool} {text : Text}
    (balanced : Balanced arrows top text) {target depth : Int} (deep : target ≤ depth)
    (uncut : depth = target → arrows = false ∧ ∀ c, top c = true → isSeparator c = false)
    (rest : Text) :
    pieces target depth (text ++ rest) = extendFirst text (pieces target depth rest) := by
  induction balanced generalizing depth rest with
  | nil => exact (extendFirst_nil (pieces_ne_nil target depth rest)).symm
  | @char arrows top c text plain allowed _ ih =>
    have keeps : (decide (depth = target) && isSeparator c) = false := by
      by_cases level : depth = target
      · simp [(uncut level).2 c allowed]
      · simp [level]
    rw [List.cons_append, pieces_plain plain, keeps, ih deep uncut, extendFirst_extendFirst]
    rfl
  | @arrow top text _ ih =>
    have below : depth ≠ target := fun level => absurd (uncut level).1 (by decide)
    rw [List.cons_append, List.cons_append, pieces, if_neg below, ih deep uncut,
      extendFirst_extendFirst]
    rfl
  | @group arrows top opener closer inside text pair _ _ ihInside ih =>
    -- Inside the brackets the depth is above the target, where nothing is cut.
    have deeper : target ≤ depth + 1 := by omega
    have off : depth + 1 = target → true = false ∧ ∀ c : Char, true = true → isSeparator c = false :=
      fun level => absurd level (by omega)
    rw [List.cons_append, List.append_assoc, List.cons_append, pieces_opener pair,
      ihInside deeper off, pieces_closer pair, ih deep uncut]
    simp [extendFirst_extendFirst]

theorem head?_extendFirst (start : Text) {texts : List Text} (nonempty : texts ≠ []) :
    (extendFirst start texts).head? = texts.head?.map (start ++ ·) := by
  cases texts with
  | nil => exact absurd rfl nonempty
  | cons first others => rfl

theorem head?_pieces_prefix {target depth : Int} {text first : Text}
    (begins : (pieces target depth text).head? = some first) : first <+: text := by
  fun_induction pieces target depth text generalizing first with
  | case1 => simp_all
  | case2 | case4 =>
    cases begins
    exact List.nil_prefix
  | case3 | case5 =>
    rename_i ih
    rw [head?_extendFirst _ (pieces_ne_nil _ _ _)] at begins
    obtain ⟨piece, found, rfl⟩ := Option.map_eq_some_iff.mp begins
    exact (List.prefix_append_right_inj _).mpr (ih found)

/-- At the target depth an arrow is cut out, so the piece in front is never one. -/
theorem head_pieces_ne_arrow (target : Int) (text : Text) :
    (pieces target target text).head? ≠ some arrow := by
  fun_cases pieces target target text with
  | case1 => simp [arrow]
  | case2 => simp [arrow]
  | case3 => contradiction
  | case4 => simp [arrow]
  | case5 c rest noArrow next uncut =>
    -- Were the piece an arrow, its two characters would stand at the beginning of the text, and the
    -- second case would have read them.
    rw [head?_extendFirst _ (pieces_ne_nil target next rest)]
    intro same
    obtain ⟨piece, found, whole⟩ := Option.map_eq_some_iff.mp same
    obtain ⟨sign, rfl⟩ := List.cons.inj whole
    obtain ⟨more, rfl⟩ := head?_pieces_prefix found
    exact noArrow more sign rfl

theorem mem_pieces_iff_mem_tail (target : Int) (text : Text) :
    arrow ∈ pieces target target text ↔ arrow ∈ (pieces target target text).tail := by
  have other := head_pieces_ne_arrow target text
  cases cut : pieces target target text with
  | nil => simp
  | cons first others =>
    have first_ne : first ≠ arrow := by simpa [cut] using other
    simp [first_ne.symm]

theorem arrow_mem_pieces_append {top : Char → Bool} {text : Text} {arrows : Bool}
    (balanced : Balanced arrows top text) (without : arrows = false) (target : Int) (rest : Text) :
    arrow ∈ pieces target target (text ++ rest) ↔ arrow ∈ pieces target target rest := by
  induction balanced with
  | nil => rfl
  | @char arrows top c text plain _ _ ih =>
    rw [mem_pieces_iff_mem_tail, List.cons_append, pieces_plain plain]
    split
    · simpa using ih without
    · rw [tail_extendFirst, ← mem_pieces_iff_mem_tail]
      exact ih without
  | arrow => contradiction
  | @group arrows top opener closer inside text pair nested _ _ ih =>
    have whole : Balanced false (fun _ => false) (opener :: (inside ++ [closer])) :=
      .enclosed pair nested
    have kept := pieces_balanced whole (Int.le_refl target)
      (fun _ => ⟨rfl, fun _ outside => absurd outside (by decide)⟩) (text ++ rest)
    rw [mem_pieces_iff_mem_tail, show opener :: (inside ++ closer :: text) ++ rest =
      opener :: (inside ++ [closer]) ++ (text ++ rest) by simp, kept, tail_extendFirst,
      ← mem_pieces_iff_mem_tail]
    exact ih without

theorem arrow_not_mem_pieces {top : Char → Bool} {text : Text} (balanced : Balanced false top text)
    (target : Int) : arrow ∉ pieces target target text := by
  have same := arrow_mem_pieces_append balanced rfl target []
  rw [List.append_nil] at same
  rw [same]
  simp [arrow, pieces]

/-! Parentheses. -/

theorem closesEarly_balanced {arrows : Bool} {top : Char → Bool} {text : Text}
    (balanced : Balanced arrows top text) {depth : Nat} (inside : 0 < depth) (rest : Text) :
    closesEarly depth (text ++ rest) = closesEarly depth rest := by
  induction balanced generalizing depth rest with
  | nil => rfl
  | @char arrows top c text plain _ _ ih =>
    have noRound : c ≠ '(' ∧ c ≠ ')' := by
      obtain ⟨noOpener, noCloser, -⟩ := isPlain_iff.mp plain
      constructor <;> rintro rfl <;> contradiction
    rw [List.cons_append, closesEarly, ih inside]
    · exact noRound.1
    · exact noRound.2
  | arrow _ ih => simpa [closesEarly] using ih inside rest
  | @group arrows top opener closer _ text pair _ _ ihInside ih =>
    rw [List.cons_append, List.append_assoc, List.cons_append]
    cases pair with
    | round =>
      have deeper : ¬ depth + 1 ≤ 1 := by omega
      rw [closesEarly, ihInside (Nat.succ_pos depth), closesEarly, if_neg deeper]
      exact ih inside rest
    | square => simpa [closesEarly, ihInside inside] using ih inside rest
    | curly => simpa [closesEarly, ihInside inside] using ih inside rest
    | angle => simpa [closesEarly, ihInside inside] using ih inside rest

theorem isParenthesized_enclosed {text : Text} (nested : Nested text) :
    isParenthesized ('(' :: (text ++ [')'])) = true := by
  have late : closesEarly 0 ('(' :: (text ++ [')'])) = false := by
    rw [closesEarly, closesEarly_balanced nested (by decide)]
    rfl
  simp [isParenthesized, late, List.getLast?_cons]

theorem isParenthesized_append {left right : Text} (nested : Nested left) (first : left ≠ [])
    (second : right ≠ []) : isParenthesized (left ++ right) = false := by
  -- A parenthesis that opens the text is met within the balanced part.
  obtain ⟨c, rest, rfl⟩ := List.exists_cons_of_ne_nil first
  by_cases opens : c = '('
  · subst opens
    obtain ⟨inside, more, within, rfl⟩ := nested.exists_parens
    have early : closesEarly 0 ('(' :: (inside ++ ')' :: more) ++ right) = true := by
      rw [List.cons_append, List.append_assoc, closesEarly, closesEarly_balanced within (by decide)]
      simp [closesEarly, second]
    rw [isParenthesized, early, Bool.not_true, Bool.and_false]
  · simp [isParenthesized, opens]

theorem stripParens_eq (text : Text) : stripParens text =
    if isParenthesized (Text.trim text) then stripParens (inner (Text.trim text))
    else Text.trim text := by
  rw [stripParens]
  split <;> simp_all

theorem stripParens_of_not_parenthesized {before text behind : Text} (first : Blank before)
    (last : Blank behind) (begins : BeginsInk text) (ends : EndsInk text)
    (bare : isParenthesized text = false) : stripParens (before ++ text ++ behind) = text := by
  rw [stripParens_eq, Text.trim_between first last, Text.trim_of_ink begins ends, bare]
  rfl

theorem stripParens_enclosed {before text behind : Text} (first : Blank before)
    (last : Blank behind) (nested : Nested text) :
    stripParens (before ++ '(' :: (text ++ [')']) ++ behind) = stripParens text := by
  have trimmed : Text.trim ('(' :: (text ++ [')'])) = '(' :: (text ++ [')']) :=
    Text.trim_of_ink ⟨_, _, rfl, by decide⟩ ⟨'(' :: text, ')', rfl, by decide⟩
  rw [stripParens_eq, Text.trim_between first last, trimmed,
    if_pos (isParenthesized_enclosed nested)]
  simp [inner]

end OptionsApi.TypeText
