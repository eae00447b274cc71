import OptionsApi.Document.Basic
import OptionsApi.Import.Ensure

/-! Where a new import goes, as an offset of the text. The offset lies inside the text, so putting
the import there is an edit that succeeds. -/

set_option autoImplicit false

namespace OptionsApi.Import

def behindLast? : List Piece → Option Nat
  | [] => none
  | piece :: rest =>
    match behindLast? rest, piece with
    | some offset, _ => some (piece.text.length + offset)
    | none, .statement last => some last.text.length
    | none, .char _ => none

/-- The offset at which a new line is inserted, and what is inserted: the line on its own behind the
line feed of the last import, else a line feed and the line right behind that import. -/
def insertion (line text : Text) : Nat × Text :=
  match behindLast? (pieces .any text) with
  | none => (0, line)
  | some offset =>
    if (text.drop offset).head? = some '\n' then (offset + 1, line) else (offset, '\n' :: line)

theorem behindLast?_le {parts : List Piece} {offset : Nat} (found : behindLast? parts = some offset) :
    offset ≤ (textOf parts).length := by
  induction parts generalizing offset with
  | nil => cases found
  | cons piece rest ih =>
    rw [textOf_cons, List.length_append]
    cases earlier : behindLast? rest with
    | some later =>
      simp only [behindLast?, earlier, Option.some.injEq] at found
      have bound := ih earlier
      omega
    | none =>
      cases piece with
      | char c => simp [behindLast?, earlier] at found
      | statement last =>
        simp only [behindLast?, earlier, Option.some.injEq] at found
        rw [← found]
        exact Nat.le_add_right _ _

/-- Both ways to find the last statement agree: cutting the text behind it, and walking over it. -/
theorem insertBehindLast?_eq (line : Text) (parts : List Piece) :
    insertBehindLast? line parts = (behindLast? parts).map fun offset =>
      (textOf parts).take offset ++ '\n' :: line ++ dropLineFeed ((textOf parts).drop offset) := by
  induction parts with
  | nil => rfl
  | cons piece rest ih =>
    rw [textOf_cons]
    cases found : behindLast? rest with
    | some offset =>
      rw [found, Option.map_some] at ih
      simp only [insertBehindLast?, behindLast?, ih, found, Option.map_some,
        List.take_length_add_append, List.drop_length_add_append, List.append_assoc]
    | none =>
      rw [found, Option.map_none] at ih
      cases piece with
      | char c => simp only [insertBehindLast?, behindLast?, ih, found, Option.map_none]
      | statement last =>
        simp only [insertBehindLast?, behindLast?, ih, found, Option.map_some, Piece.text,
          List.take_left, List.drop_left]

theorem insertion_le (line text : Text) : (insertion line text).1 ≤ text.length := by
  have whole := textOf_pieces .any text
  unfold insertion
  split
  next => exact Nat.zero_le _
  next offset found =>
    have bound : offset ≤ text.length := whole ▸ behindLast?_le found
    split
    next feed =>
      -- There is a character behind the offset, so one more step stays inside.
      have inside : text.drop offset ≠ [] := by
        intro empty
        rw [empty] at feed
        cases feed
      have positive := List.length_pos_iff.mpr inside
      rw [List.length_drop] at positive
      change offset + 1 ≤ text.length
      omega
    next => exact bound

theorem take_insertion_append (line text : Text) :
    text.take (insertion line text).1 ++ (insertion line text).2 ++
        text.drop (insertion line text).1 =
      (insertBehindLast? line (pieces .any text)).getD (line ++ text) := by
  rw [insertBehindLast?_eq, textOf_pieces]
  unfold insertion
  cases behindLast? (pieces .any text) with
  | none => rfl
  | some offset =>
    simp only [Option.map_some, Option.getD_some]
    cases behind : text.drop offset with
    | nil => simp [behind, dropLineFeed]
    | cons c rest =>
      by_cases feed : c = '\n'
      · subst feed
        have next : text.drop (offset + 1) = rest := by
          rw [← List.drop_drop, behind, List.drop_one, List.tail_cons]
        have upTo : text.take (offset + 1) = text.take offset ++ ['\n'] := by
          rw [List.take_add, behind]
          rfl
        simp [next, upTo, dropLineFeed]
      · simp [feed, behind, dropLineFeed]

theorem insert_of_ensure_added {moduleName : Text} {names missing : List Text} {document : Document}
    (added : (ensure moduleName names document.text).change = .added missing) :
    let place := insertion (newStatement moduleName missing) document.text
    place.1 ≤ document.text.length ∧
      document.insert place.1 place.2 =
        .ok (document.replace (ensure moduleName names document.text).text) := by
  intro place
  have bound : place.1 ≤ document.text.length := insertion_le _ _
  have put := take_insertion_append (newStatement moduleName missing) document.text
  have result : (ensure moduleName names document.text).text =
      (insertBehindLast? (newStatement moduleName missing) (pieces .any document.text)).getD
        (newStatement moduleName missing ++ document.text) := by
    rw [ensure] at added ⊢
    split at added
    next => cases added
    next lacking =>
      split at added
      next => cases added
      next =>
        cases added
        simp only [lacking]
        rfl
  have inside : (0 : Int) ≤ place.1 ∧ (place.1 : Int) ≤ document.text.length := by omega
  refine ⟨bound, ?_⟩
  rw [Document.insert, if_pos inside, Document.replace, result, ← put]
  rfl

end OptionsApi.Import
