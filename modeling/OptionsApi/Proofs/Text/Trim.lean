import OptionsApi.Text.Blank

/-! Texts made of one kind of characters, and laws of trimming. A text is its trimmed text between two
blank ones, and blanks put around a text are not seen by trimming. -/

set_option autoImplicit false

namespace OptionsApi.Text

def Within (kind : Char → Bool) (text : Text) : Prop := ∀ c ∈ text, kind c = true

instance (kind : Char → Bool) (text : Text) : Decidable (Within kind text) :=
  List.decidableBAll _ text

namespace Within

variable {kind wider : Char → Bool} {left right : Text}

theorem nil : Within kind [] := fun _ member => absurd member List.not_mem_nil

theorem append (first : Within kind left) (second : Within kind right) :
    Within kind (left ++ right) := by
  intro c member
  rcases List.mem_append.mp member with inside | inside
  · exact first c inside
  · exact second c inside

theorem cons {c : Char} (first : kind c = true) (later : Within kind right) :
    Within kind (c :: right) :=
  List.forall_mem_cons.mpr ⟨first, later⟩

theorem tail {c : Char} (all : Within kind (c :: right)) : Within kind right :=
  fun d member => all d (List.mem_cons_of_mem c member)

theorem mono (all : Within kind left) (widen : ∀ c, kind c = true → wider c = true) :
    Within wider left :=
  fun c member => widen c (all c member)

theorem not_mem (all : Within kind left) {c : Char} (other : kind c = false) : c ∉ left := by
  intro member
  rw [all c member] at other
  cases other

end Within

def Blank (text : Text) : Prop := Within isBlank text

instance (text : Text) : Decidable (Blank text) := inferInstanceAs (Decidable (Within isBlank text))

theorem isBlankText_iff {text : Text} : isBlankText text = true ↔ Blank text := List.all_eq_true

@[simp] theorem Blank.nil : Blank [] := Within.nil

theorem Blank.append {left right : Text} (first : Blank left) (second : Blank right) :
    Blank (left ++ right) :=
  Within.append first second

theorem Blank.spaces (count : Nat) : Blank (spaces count) := by
  intro c member
  rw [List.eq_of_mem_replicate member]
  decide

theorem spaces_add (first second : Nat) : spaces (first + second) = spaces first ++ spaces second :=
  List.replicate_append_replicate.symm

theorem ne_of_isBlank {c d : Char} (blank : isBlank c = true) (ink : isBlank d = false) : c ≠ d := by
  rintro rfl
  rw [blank] at ink
  cases ink

def BeginsInk (text : Text) : Prop := ∃ c rest, text = c :: rest ∧ isBlank c = false

def EndsInk (text : Text) : Prop := ∃ start c, text = start ++ [c] ∧ isBlank c = false

theorem BeginsInk.append {text : Text} (begins : BeginsInk text) (rest : Text) :
    BeginsInk (text ++ rest) := by
  obtain ⟨c, behind, rfl, ink⟩ := begins
  exact ⟨c, behind ++ rest, rfl, ink⟩

theorem BeginsInk.ne_nil {text : Text} (begins : BeginsInk text) : text ≠ [] := by
  obtain ⟨c, rest, rfl, _⟩ := begins
  exact List.cons_ne_nil c rest

theorem EndsInk.append {text : Text} (ends : EndsInk text) (start : Text) :
    EndsInk (start ++ text) := by
  obtain ⟨before, c, rfl, ink⟩ := ends
  exact ⟨start ++ before, c, by simp, ink⟩

theorem EndsInk.of_append {start text : Text} (ends : EndsInk (start ++ text)) (nonempty : text ≠ []) :
    EndsInk text := by
  obtain ⟨before, c, same, ink⟩ := ends
  have whole := List.dropLast_concat_getLast nonempty
  rw [← whole, ← List.append_assoc] at same
  have last : text.getLast nonempty = c := (List.cons.inj (List.append_inj' same rfl).2).1
  exact ⟨text.dropLast, text.getLast nonempty, whole.symm, last ▸ ink⟩

theorem EndsInk.singleton {c : Char} (ink : isBlank c = false) : EndsInk [c] := ⟨[], c, rfl, ink⟩

/-! The start of a text. -/

theorem trimStart_append_of_blank {blanks : Text} (blank : Blank blanks) (text : Text) :
    trimStart (blanks ++ text) = trimStart text :=
  List.dropWhile_append_of_pos blank

theorem trimStart_of_begins {text : Text} (begins : BeginsInk text) : trimStart text = text := by
  obtain ⟨c, rest, rfl, ink⟩ := begins
  simp [trimStart, ink]

theorem trimStart_append_of_begins (start : Text) {text : Text} (begins : BeginsInk text) :
    trimStart (start ++ text) = trimStart start ++ text := by
  obtain ⟨c, rest, rfl, ink⟩ := begins
  simp only [trimStart, List.dropWhile_append]
  split
  next empty => rw [List.isEmpty_iff.mp empty, List.dropWhile_cons_of_neg (by simp [ink]), List.nil_append]
  next => rfl

theorem exists_trimStart (text : Text) :
    ∃ blanks, Blank blanks ∧ blanks ++ trimStart text = text := by
  refine ⟨text.takeWhile isBlank, ?_, List.takeWhile_append_dropWhile⟩
  intro c member
  exact List.all_eq_true.mp List.all_takeWhile c member

theorem trimStart_eq_nil_or_begins (text : Text) :
    trimStart text = [] ∨ BeginsInk (trimStart text) := by
  induction text with
  | nil => exact Or.inl rfl
  | cons c rest ih =>
    by_cases blank : isBlank c = true
    · simpa [trimStart, blank] using ih
    · exact Or.inr ⟨c, rest, by simp [trimStart, blank], by simpa using blank⟩

theorem exists_trimStart_append {text : Text} (ends : EndsInk text) :
    ∃ kept, BeginsInk kept ∧ EndsInk kept ∧ (∀ c ∈ kept, c ∈ text) ∧
      ∀ behind, trimStart (text ++ behind) = kept ++ behind := by
  obtain ⟨blanks, blank, whole⟩ := exists_trimStart text
  rcases trimStart_eq_nil_or_begins text with empty | begins
  · obtain ⟨start, last, rfl, ink⟩ := ends
    rw [empty, List.append_nil] at whole
    rw [blank last (by simp [whole])] at ink
    cases ink
  · refine ⟨trimStart text, begins, ?_, ?_, ?_⟩
    · rw [← whole] at ends
      exact ends.of_append begins.ne_nil
    · intro c member
      rw [← whole]
      exact List.mem_append_right blanks member
    · intro behind
      conv => lhs; rw [← whole]
      rw [List.append_assoc, trimStart_append_of_blank blank,
        trimStart_of_begins (begins.append behind)]

/-! The end of a text. -/

theorem trimEnd_of_blank {text : Text} (blank : Blank text) : trimEnd text = [] := by
  induction text with
  | nil => rfl
  | cons c rest ih =>
    have first : isBlank c = true := blank c (by simp)
    rw [trimEnd, ih (Within.tail blank)]
    simp [first]

theorem trimEnd_append_of_blank (text : Text) {blanks : Text} (blank : Blank blanks) :
    trimEnd (text ++ blanks) = trimEnd text := by
  induction text with
  | nil => exact trimEnd_of_blank blank
  | cons c rest ih => rw [List.cons_append, trimEnd, trimEnd, ih]

theorem trimEnd_append_of_ne_nil (start : Text) {text : Text} (kept : trimEnd text ≠ []) :
    trimEnd (start ++ text) = start ++ trimEnd text := by
  induction start with
  | nil => rfl
  | cons c rest ih =>
    rw [List.cons_append, trimEnd, ih]
    split
    next empty => exact absurd (List.append_eq_nil_iff.mp empty).2 kept
    next => rfl

theorem trimEnd_cons_of_ink {c : Char} (ink : isBlank c = false) (rest : Text) :
    trimEnd (c :: rest) = c :: trimEnd rest := by
  rw [trimEnd]
  split
  next empty => simp [ink, empty]
  next => rfl

theorem trimEnd_of_ends {text : Text} (ends : EndsInk text) : trimEnd text = text := by
  obtain ⟨start, c, rfl, ink⟩ := ends
  have single : trimEnd [c] = [c] := by simp [trimEnd, ink]
  rw [trimEnd_append_of_ne_nil start (by simp [single]), single]

theorem exists_trimEnd (text : Text) : ∃ blanks, Blank blanks ∧ trimEnd text ++ blanks = text := by
  induction text with
  | nil => exact ⟨[], Blank.nil, rfl⟩
  | cons c rest ih =>
    obtain ⟨blanks, blank, whole⟩ := ih
    rw [trimEnd]
    split
    next empty =>
      rw [empty, List.nil_append] at whole
      subst whole
      split
      next first =>
        exact ⟨c :: blanks, Within.cons first blank, rfl⟩
      next => exact ⟨blanks, blank, rfl⟩
    next => exact ⟨blanks, blank, by rw [List.cons_append, whole]⟩

theorem trimEnd_append_of_ends {text : Text} (ends : EndsInk text) (rest : Text) :
    trimEnd (text ++ rest) = text ++ trimEnd rest := by
  by_cases empty : trimEnd rest = []
  · obtain ⟨blanks, blank, whole⟩ := exists_trimEnd rest
    rw [empty, List.nil_append] at whole
    rw [← whole, trimEnd_append_of_blank _ blank, trimEnd_of_ends ends, trimEnd_of_blank blank,
      List.append_nil]
  · exact trimEnd_append_of_ne_nil text empty

theorem trimEnd_eq_nil_or_ends (text : Text) : trimEnd text = [] ∨ EndsInk (trimEnd text) := by
  induction text with
  | nil => exact Or.inl rfl
  | cons c rest ih =>
    rw [trimEnd]
    split
    next =>
      split
      next => exact Or.inl rfl
      next ink => exact Or.inr (EndsInk.singleton (by simpa using ink))
    next => exact Or.inr ((ih.resolve_left (by simpa using ‹_›)).append [c])

/-! Both ends. -/

theorem trim_of_ink {text : Text} (begins : BeginsInk text) (ends : EndsInk text) :
    trim text = text := by
  rw [trim, trimStart_of_begins begins, trimEnd_of_ends ends]

theorem trim_of_blank {text : Text} (blank : Blank text) : trim text = [] := by
  have dropped : trimStart text = [] := by
    simpa [trimStart] using trimStart_append_of_blank blank []
  rw [trim, dropped]
  rfl

theorem trim_append_of_blank {blanks : Text} (blank : Blank blanks) (text : Text) :
    trim (blanks ++ text) = trim text := by
  rw [trim, trimStart_append_of_blank blank, trim]

theorem trim_append_blank (text : Text) {blanks : Text} (blank : Blank blanks) :
    trim (text ++ blanks) = trim text := by
  obtain ⟨start, startBlank, whole⟩ := exists_trimStart text
  rcases trimStart_eq_nil_or_begins text with empty | begins
  · rw [empty, List.append_nil] at whole
    subst whole
    rw [trim_of_blank (startBlank.append blank), trim_of_blank startBlank]
  · rw [← whole, List.append_assoc, trim_append_of_blank startBlank,
      trim_append_of_blank startBlank, trim, trim, trimStart_of_begins (begins.append blanks),
      trimStart_of_begins begins, trimEnd_append_of_blank _ blank]

theorem exists_trim (text : Text) :
    ∃ before behind, Blank before ∧ Blank behind ∧ before ++ trim text ++ behind = text := by
  obtain ⟨before, beforeBlank, fromStart⟩ := exists_trimStart text
  obtain ⟨behind, behindBlank, toEnd⟩ := exists_trimEnd (trimStart text)
  refine ⟨before, behind, beforeBlank, behindBlank, ?_⟩
  rw [trim, List.append_assoc, toEnd, fromStart]

theorem isInfix_trim (text : Text) : trim text <:+: text := by
  obtain ⟨before, behind, _, _, whole⟩ := exists_trim text
  exact ⟨before, behind, whole⟩

theorem trim_ne_nil {text : Text} (visible : ¬ Blank text) : trim text ≠ [] := by
  intro empty
  obtain ⟨before, behind, beforeBlank, behindBlank, whole⟩ := exists_trim text
  rw [empty, List.append_nil] at whole
  exact visible (whole ▸ beforeBlank.append behindBlank)

theorem mem_of_mem_trim {text : Text} {c : Char} (member : c ∈ trim text) : c ∈ text := by
  obtain ⟨before, behind, _, _, whole⟩ := exists_trim text
  rw [← whole]
  exact List.mem_append_left _ (List.mem_append_right _ member)

theorem ink_of_trim_ne_nil {text : Text} (kept : trim text ≠ []) :
    BeginsInk (trim text) ∧ EndsInk (trim text) := by
  have ends : EndsInk (trim text) := (trimEnd_eq_nil_or_ends (trimStart text)).resolve_left kept
  refine ⟨?_, ends⟩
  rcases trimStart_eq_nil_or_begins text with empty | begins
  · rw [trim, empty] at kept
    exact absurd rfl kept
  -- What trimming the end leaves begins as the text did.
  · obtain ⟨c, rest, same, ink⟩ := begins
    obtain ⟨behind, _, whole⟩ := exists_trimEnd (trimStart text)
    change trim text ++ behind = _ at whole
    cases shape : trim text with
    | nil => exact absurd shape kept
    | cons d others =>
      rw [shape, same] at whole
      injection whole with first
      exact ⟨d, others, rfl, first ▸ ink⟩

@[simp] theorem trim_trim (text : Text) : trim (trim text) = trim text := by
  by_cases empty : trim text = []
  · rw [empty]
    rfl
  · obtain ⟨begins, ends⟩ := ink_of_trim_ne_nil empty
    exact trim_of_ink begins ends

theorem trim_between {before behind : Text} (first : Blank before) (last : Blank behind)
    (text : Text) : trim (before ++ text ++ behind) = trim text := by
  rw [trim_append_blank _ last, trim_append_of_blank first]

end OptionsApi.Text
