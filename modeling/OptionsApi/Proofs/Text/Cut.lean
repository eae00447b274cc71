import OptionsApi.Text.Basic

/-! Laws of cutting a text: at a character, behind a given start, and behind its longest start of
one kind. -/

set_option autoImplicit false

namespace OptionsApi.Text

theorem cutAt_append {separator : Char} {before : Text} (absent : separator ∉ before) (behind : Text) :
    cutAt separator (before ++ separator :: behind) = some (before, behind) := by
  induction before with
  | nil => simp [cutAt]
  | cons c rest ih =>
    have other : c ≠ separator := (List.ne_of_not_mem_cons absent).symm
    simp [cutAt, other, ih (List.not_mem_of_not_mem_cons absent)]

theorem cutAt_of_not_mem {separator : Char} {text : Text} (absent : separator ∉ text) :
    cutAt separator text = none := by
  induction text with
  | nil => rfl
  | cons c rest ih =>
    have other : c ≠ separator := (List.ne_of_not_mem_cons absent).symm
    simp [cutAt, other, ih (List.not_mem_of_not_mem_cons absent)]

theorem cutAt_eq_some {separator : Char} {text before behind : Text}
    (found : cutAt separator text = some (before, behind)) :
    text = before ++ separator :: behind ∧ separator ∉ before := by
  induction text generalizing before with
  | nil => cases found
  | cons c rest ih =>
    rw [cutAt] at found
    split at found
    next same =>
      cases found
      exact ⟨by rw [same]; rfl, List.not_mem_nil⟩
    next other =>
      simp only [Option.map_eq_some_iff, Prod.exists, Prod.mk.injEq] at found
      obtain ⟨start, _, cut, rfl, rfl⟩ := found
      obtain ⟨rfl, absent⟩ := ih cut
      exact ⟨rfl, List.not_mem_cons_of_ne_of_not_mem (Ne.symm other) absent⟩

@[simp] theorem after_append (start rest : Text) : after start (start ++ rest) = some rest := by
  simp [after]

theorem after_of_not_prefix {start text : Text} (other : ¬ start <+: text) : after start text = none := by
  simp [after, other]

theorem after_of_not_mem {start text : Text} {c : Char} (inside : c ∈ start) (absent : c ∉ text) :
    after start text = none :=
  after_of_not_prefix fun begins => absent (begins.subset inside)

theorem prefix_of_append_separator {start before behind : Text} {separator : Char}
    (lacks : separator ∉ start) (begins : start <+: before ++ separator :: behind) :
    start <+: before := by
  rcases List.prefix_or_prefix_of_prefix begins (List.prefix_append before _) with inner | outer
  · exact inner
  · obtain ⟨rest, rfl⟩ := outer
    have behindBefore : rest <+: separator :: behind := (List.prefix_append_right_inj before).mp begins
    cases rest with
    | nil => simp
    | cons c others =>
      have same : c = separator := (List.cons_prefix_cons.mp behindBefore).1
      exact absurd (by simp [same]) lacks

theorem after_append_separator {start : Text} {separator : Char} (lacks : separator ∉ start)
    (before behind : Text) :
    after start (before ++ separator :: behind) =
      (after start before).map (· ++ separator :: behind) := by
  by_cases begins : start <+: before
  · obtain ⟨rest, rfl⟩ := begins
    rw [List.append_assoc, after_append, after_append]
    rfl
  · have absent : ¬ start <+: before ++ separator :: behind := fun reaches =>
      begins (prefix_of_append_separator lacks reaches)
    rw [ after_of_not_prefix begins, after_of_not_prefix absent]
    rfl

theorem not_prefix_append {start before behind : Text} {separator c : Char} (lacks : separator ∉ start)
    (inside : c ∈ start) (absent : c ∉ before) : ¬ start <+: before ++ separator :: behind :=
  fun begins => absent ((prefix_of_append_separator lacks begins).subset inside)

section
variable {p : Char → Bool} {left right : Text}

/-- The right text does not go on with characters of the left kind. -/
def Stops (p : Char → Bool) (text : Text) : Prop := ∀ c ∈ text.head?, p c = false

theorem takeWhile_append_of_stops (all : ∀ c ∈ left, p c = true) (stops : Stops p right) :
    (left ++ right).takeWhile p = left := by
  rw [List.takeWhile_append_of_pos all]
  cases right with
  | nil => simp
  | cons c rest => simp [stops c rfl]

theorem takeWhile_append_stop {c : Char} (stop : p c = false) (start rest : Text) :
    (start ++ c :: rest).takeWhile p = start.takeWhile p := by
  induction start with
  | nil => simp [stop]
  | cons d others ih => simp only [List.cons_append, List.takeWhile_cons, ih]

theorem dropWhile_append_stop {c : Char} (stop : p c = false) (start rest : Text) :
    (start ++ c :: rest).dropWhile p = start.dropWhile p ++ c :: rest := by
  induction start with
  | nil => simp [stop]
  | cons d others ih =>
    simp only [List.cons_append, List.dropWhile_cons, ih]
    split <;> rfl

theorem dropWhile_append_of_stops (all : ∀ c ∈ left, p c = true) (stops : Stops p right) :
    (left ++ right).dropWhile p = right := by
  rw [List.dropWhile_append_of_pos all]
  cases right with
  | nil => rfl
  | cons c rest => simp [stops c rfl]

end

end OptionsApi.Text
