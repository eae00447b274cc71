import OptionsApi.Proofs.Text.Lines
import OptionsApi.Proofs.Text.Trim

/-! The ink of a text: its lines without the blanks around them, and without the lines on which
there is nothing else. It does not change with the blanks at the two ends of a text, and a line feed
separates the ink before it from the ink behind it. -/

set_option autoImplicit false

namespace OptionsApi.Text

/-- What is left of lines when they are trimmed and the blank ones are dropped. -/
def inkOf (lines : List Text) : List Text := (lines.map trim).filter fun line => !line.isEmpty

def inkLines (text : Text) : List Text := inkOf (lines text)

theorem induction_on_lines {motive : Text → Prop} (single : ∀ line, '\n' ∉ line → motive line)
    (more : ∀ line rest, '\n' ∉ line → motive rest → motive (line ++ '\n' :: rest)) (text : Text) :
    motive text := by
  by_cases member : '\n' ∈ text
  · obtain ⟨line, rest, whole, first⟩ := List.eq_append_cons_of_mem member
    have shorter : rest.length < text.length := by
      rw [whole, List.length_append, List.length_cons]
      omega
    exact whole ▸ more line rest first (induction_on_lines single more rest)
  · exact single text member
termination_by text.length

/-! Lists of lines. -/

@[simp] theorem inkOf_nil : inkOf [] = [] := rfl

theorem inkOf_append (left right : List Text) : inkOf (left ++ right) = inkOf left ++ inkOf right := by
  simp [inkOf]

theorem inkOf_cons (line : Text) (rest : List Text) : inkOf (line :: rest) = inkOf [line] ++ inkOf rest :=
  inkOf_append [line] rest

theorem inkOf_singleton_congr {left right : Text} (same : trim left = trim right) :
    inkOf [left] = inkOf [right] := by
  simp [inkOf, same]

theorem inkOf_of_blank {lines : List Text} (blank : ∀ line ∈ lines, Blank line) : inkOf lines = [] := by
  induction lines with
  | nil => rfl
  | cons line rest ih =>
    have first : inkOf [line] = inkOf [[]] :=
      inkOf_singleton_congr (trim_of_blank (blank line List.mem_cons_self))
    rw [inkOf_cons, first, ih fun other member => blank other (List.mem_cons_of_mem line member)]
    rfl

/-! Texts. -/

theorem inkLines_append_lineFeed (left right : Text) :
    inkLines (left ++ '\n' :: right) = inkLines left ++ inkLines right := by
  rw [inkLines, lines_append_lineFeed, inkOf_append, inkLines, inkLines]

theorem inkLines_of_single {line : Text} (single : '\n' ∉ line) : inkLines line = inkOf [line] := by
  rw [inkLines, lines_of_single single]

theorem inkLines_of_blank {text : Text} (blank : Blank text) : inkLines text = [] := by
  induction text using induction_on_lines with
  | single line single =>
    rw [inkLines_of_single single]
    exact inkOf_of_blank (by simpa using blank)
  | more line rest single ih =>
    have here : Blank line := fun c member => blank c (List.mem_append_left _ member)
    have later : Blank rest := fun c member =>
      blank c (List.mem_append_right line (List.mem_cons_of_mem '\n' member))
    rw [inkLines_append_lineFeed, ih later, inkLines_of_single single,
      inkOf_of_blank (by simpa using here)]
    rfl

theorem inkLines_line_append_blank {line blanks : Text} (single : '\n' ∉ line) (blank : Blank blanks) :
    inkLines (line ++ blanks) = inkLines line := by
  by_cases member : '\n' ∈ blanks
  · obtain ⟨before, behind, rfl, first⟩ := List.eq_append_cons_of_mem member
    have blankBefore : Blank before := fun c inside => blank c (List.mem_append_left _ inside)
    have blankBehind : Blank behind := fun c inside =>
      blank c (List.mem_append_right before (List.mem_cons_of_mem '\n' inside))
    have joined : '\n' ∉ line ++ before := by
      rw [List.mem_append]
      exact not_or_intro single first
    rw [← List.append_assoc, inkLines_append_lineFeed, inkLines_of_blank blankBehind,
      List.append_nil, inkLines_of_single joined, inkLines_of_single single]
    exact inkOf_singleton_congr (trim_append_blank line blankBefore)
  · have joined : '\n' ∉ line ++ blanks := by
      rw [List.mem_append]
      exact not_or_intro single member
    rw [inkLines_of_single joined, inkLines_of_single single]
    exact inkOf_singleton_congr (trim_append_blank line blank)

theorem inkLines_append_blank (text : Text) {blanks : Text} (blank : Blank blanks) :
    inkLines (text ++ blanks) = inkLines text := by
  induction text using induction_on_lines with
  | single line single => exact inkLines_line_append_blank single blank
  | more line rest single ih =>
    rw [List.append_assoc, List.cons_append, inkLines_append_lineFeed, ih, inkLines_append_lineFeed]

theorem inkLines_blank_append_line {blanks line : Text} (blank : Blank blanks) (single : '\n' ∉ line) :
    inkLines (blanks ++ line) = inkLines line := by
  induction blanks using induction_on_lines with
  | single before first =>
    have joined : '\n' ∉ before ++ line := by
      rw [List.mem_append]
      exact not_or_intro first single
    rw [inkLines_of_single joined, inkLines_of_single single]
    exact inkOf_singleton_congr (trim_append_of_blank blank line)
  | more before behind first ih =>
    have blankBefore : Blank before := fun c inside => blank c (List.mem_append_left _ inside)
    have blankBehind : Blank behind := fun c inside =>
      blank c (List.mem_append_right before (List.mem_cons_of_mem '\n' inside))
    rw [List.append_assoc, List.cons_append, inkLines_append_lineFeed, ih blankBehind,
      inkLines_of_blank blankBefore, List.nil_append]

theorem inkLines_blank_append {blanks : Text} (blank : Blank blanks) (text : Text) :
    inkLines (blanks ++ text) = inkLines text := by
  induction text using induction_on_lines with
  | single line single => exact inkLines_blank_append_line blank single
  | more line rest single ih =>
    rw [← List.append_assoc, inkLines_append_lineFeed, inkLines_blank_append_line blank single,
      inkLines_append_lineFeed]

theorem inkLines_trimEnd (text : Text) : inkLines (trimEnd text) = inkLines text := by
  obtain ⟨blanks, blank, whole⟩ := exists_trimEnd text
  conv => rhs; rw [← whole]
  rw [inkLines_append_blank _ blank]

theorem inkLines_trim (text : Text) : inkLines (trim text) = inkLines text := by
  obtain ⟨before, behind, blankBefore, blankBehind, whole⟩ := exists_trim text
  conv => rhs; rw [← whole]
  rw [inkLines_append_blank _ blankBehind, inkLines_blank_append blankBefore]

end OptionsApi.Text
