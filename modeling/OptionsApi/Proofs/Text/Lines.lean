import OptionsApi.Text.Basic

/-! Laws of lines. Cutting a text into lines and putting lines together undo each other, and a line
feed between two texts separates their lines. -/

set_option autoImplicit false

namespace OptionsApi.Text

theorem splitOn_ne_nil (separator : Char) (text : Text) : splitOn separator text ≠ [] := by
  cases text with
  | nil => simp [splitOn]
  | cons c rest =>
    rw [splitOn]
    split
    · simp
    · split <;> simp

theorem splitOn_of_not_mem {separator : Char} {text : Text} (absent : separator ∉ text) :
    splitOn separator text = [text] := by
  induction text with
  | nil => rfl
  | cons c rest ih =>
    have other : c ≠ separator := (List.ne_of_not_mem_cons absent).symm
    rw [splitOn, if_neg other, ih (List.not_mem_of_not_mem_cons absent)]

theorem splitOn_append_separator (separator : Char) (left right : Text) :
    splitOn separator (left ++ separator :: right) =
      splitOn separator left ++ splitOn separator right := by
  induction left with
  | nil => simp [splitOn]
  | cons c rest ih =>
    rw [List.cons_append, splitOn, splitOn, ih]
    split
    · rfl
    · cases split : splitOn separator rest with
      | nil => exact absurd split (splitOn_ne_nil separator rest)
      | cons piece pieces => rfl

theorem not_mem_of_mem_splitOn {separator : Char} {text piece : Text}
    (member : piece ∈ splitOn separator text) : separator ∉ piece := by
  induction text generalizing piece with
  | nil =>
    rw [List.mem_singleton.mp member]
    exact List.not_mem_nil
  | cons c rest ih =>
    rw [splitOn] at member
    split at member
    · rcases List.mem_cons.mp member with rfl | later
      · exact List.not_mem_nil
      · exact ih later
    next other =>
      cases split : splitOn separator rest with
      | nil => exact absurd split (splitOn_ne_nil separator rest)
      | cons first others =>
        rw [split] at member ih
        rcases List.mem_cons.mp member with rfl | later
        · exact List.not_mem_cons_of_ne_of_not_mem (Ne.symm other) (ih List.mem_cons_self)
        · exact ih (List.mem_cons_of_mem first later)

theorem mem_of_mem_splitOn {separator c : Char} {text piece : Text}
    (member : piece ∈ splitOn separator text) (inside : c ∈ piece) : c ∈ text := by
  induction text generalizing piece with
  | nil =>
    rw [List.mem_singleton.mp member] at inside
    cases inside
  | cons d rest ih =>
    rw [splitOn] at member
    split at member
    · rcases List.mem_cons.mp member with rfl | later
      · cases inside
      · exact List.mem_cons_of_mem d (ih later inside)
    · cases split : splitOn separator rest with
      | nil => exact absurd split (splitOn_ne_nil separator rest)
      | cons first others =>
        rw [split] at member ih
        rcases List.mem_cons.mp member with rfl | later
        · rcases List.mem_cons.mp inside with rfl | within
          · exact List.mem_cons_self
          · exact List.mem_cons_of_mem d (ih List.mem_cons_self within)
        · exact List.mem_cons_of_mem d (ih (List.mem_cons_of_mem first later) inside)

theorem lines_append_lineFeed (left right : Text) :
    lines (left ++ '\n' :: right) = lines left ++ lines right :=
  splitOn_append_separator '\n' left right

theorem lines_of_single {text : Text} (single : '\n' ∉ text) : lines text = [text] :=
  splitOn_of_not_mem single

theorem single_of_mem_lines {text line : Text} (member : line ∈ lines text) : '\n' ∉ line :=
  not_mem_of_mem_splitOn member

@[simp] theorem ofLines_cons (line : Text) (rest : List Text) :
    ofLines (line :: rest) = line ++ '\n' :: ofLines rest := by
  simp [ofLines]

theorem lines_ofLines {texts : List Text} (single : ∀ line ∈ texts, '\n' ∉ line) :
    lines (ofLines texts) = texts ++ [[]] := by
  induction texts with
  | nil => rfl
  | cons line rest ih =>
    rw [ofLines_cons, lines_append_lineFeed, lines_of_single (single line List.mem_cons_self),
      ih fun other member => single other (List.mem_cons_of_mem line member)]
    rfl

theorem ofLines_lines (text : Text) : ofLines (lines text) = text ++ ['\n'] := by
  induction text with
  | nil => rfl
  | cons c rest ih =>
    rw [lines] at ih ⊢
    rw [splitOn]
    split
    next same => rw [ofLines_cons, ih, same]; rfl
    next =>
      cases split : splitOn '\n' rest with
      | nil => exact absurd split (splitOn_ne_nil '\n' rest)
      | cons line others =>
        rw [split, ofLines_cons] at ih
        simp only [ofLines_cons, List.cons_append, ih]

/-! Texts joined by a separator. -/

@[simp] theorem join_singleton (separator text : Text) : join separator [text] = text := by
  simp [join, List.intercalate]

@[simp] theorem join_cons_cons (separator first second : Text) (rest : List Text) :
    join separator (first :: second :: rest) =
      first ++ separator ++ join separator (second :: rest) := by
  simp [join, List.intercalate]

theorem mem_join {separator : Text} {texts : List Text} {c : Char} (member : c ∈ join separator texts) :
    c ∈ separator ∨ ∃ text ∈ texts, c ∈ text := by
  induction texts with
  | nil => cases member
  | cons first rest ih =>
    cases rest with
    | nil => exact .inr ⟨first, List.mem_cons_self, by simpa using member⟩
    | cons second others =>
      rw [join_cons_cons, List.append_assoc, List.mem_append, List.mem_append] at member
      rcases member with inFirst | between | later
      · exact .inr ⟨first, List.mem_cons_self, inFirst⟩
      · exact .inl between
      · refine (ih later).imp_right ?_
        rintro ⟨text, listed, inside⟩
        exact ⟨text, List.mem_cons_of_mem first listed, inside⟩

theorem join_cons_append_singleton (separator first : Text) (rest : List Text) (last : Text) :
    join separator (first :: (rest ++ [last])) = first ++ separator ++ join separator (rest ++ [last]) := by
  cases rest with
  | nil => simp
  | cons second others => simp

theorem join_append_singleton (separator : Text) {texts : List Text} (nonempty : texts ≠ [])
    (last : Text) : join separator (texts ++ [last]) = join separator texts ++ separator ++ last := by
  induction texts with
  | nil => exact absurd rfl nonempty
  | cons first rest ih =>
    cases rest with
    | nil => simp
    | cons second others =>
      rw [List.cons_append, join_cons_append_singleton, ih (List.cons_ne_nil second others),
        join_cons_cons]
      simp only [List.append_assoc]

theorem join_append_singleton_append (separator : Text) (texts : List Text) (last behind : Text) :
    join separator (texts ++ [last]) ++ behind = join separator (texts ++ [last ++ behind]) := by
  induction texts with
  | nil => simp
  | cons first rest ih =>
    rw [List.cons_append, List.cons_append, join_cons_append_singleton,
      join_cons_append_singleton, List.append_assoc, ih]

end OptionsApi.Text
