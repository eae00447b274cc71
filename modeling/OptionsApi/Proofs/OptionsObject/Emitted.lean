import OptionsApi.Failure
import OptionsApi.Proofs.Layout.Kept
import OptionsApi.Proofs.OptionsObject.Shape
import OptionsApi.Tree.Render

/-! The printed component is laid out already. Printing counts the depth of the tree and layout the
lines with open brackets; by induction over the tree the two agree on every line, so formatting what
was printed changes nothing, and the scan of it ends in code with no bracket open. -/

set_option autoImplicit false

namespace OptionsApi

open Layout

/-- A printed value, put behind a start of a line that left brackets open and followed by as many
closing ones. -/
def Fills (indent depth : Nat) (text : Text) : Prop :=
  ∀ (opened : Nat) (start ending : Text), Leaves opened start → Leads start → IsEnding ending →
    Settles indent depth
      (margin indent depth ++ start ++ text ++ List.replicate opened ')' ++ ending)

/-- A printed member or statement, which has its margin and may be followed by a separator. -/
def Stands (indent depth : Nat) (text : Text) : Prop :=
  ∀ ending, IsEnding ending → Settles indent depth (text ++ ending)

section
variable {indent depth : Nat}

theorem Fills.inline {text : Text} (leaves : Leaves 0 text) (ends : Text.EndsInk text) :
    Fills indent depth text := by
  intro opened start ending opening leads isEnding
  -- All of it is one line, and the closing brackets take back what the start left open.
  have body : Leaves 0 (start ++ text ++ List.replicate opened ')' ++ ending) :=
    (opening.append_neutral leaves).close.append_neutral isEnding.leaves
  have settled : Settles indent depth _ := Settles.line body
    (((leads.append text).append _).append ending) (isEnding.endsInk (ends.append start) opened)
  simpa using settled

theorem Fills.ofCarriable {text : Text} (carriable : Carriable text) : Fills indent depth text :=
  .inline carriable.leaves carriable.ink.2

theorem Stands.ofCarriable {text : Text} (carriable : Carriable text) :
    Stands indent depth (margin indent depth ++ text) := by
  intro ending isEnding
  have body : Leaves 0 (text ++ ending) := carriable.leaves.append_neutral isEnding.leaves
  have ends : Text.EndsInk (text ++ ending) := by
    simpa using isEnding.endsInk carriable.ink.2 0
  rw [List.append_assoc]
  exact .line body (carriable.leads.append ending) ends

theorem settles_members {members : List Text} (nonempty : members ≠ [])
    (each : ∀ member ∈ members, Stands indent depth member) :
    Settles indent depth (Text.join ",\n" members) := by
  induction members with
  | nil => exact absurd rfl nonempty
  | cons member rest ih =>
    have here := each member List.mem_cons_self
    cases rest with
    | nil => simpa using here [] (.inl rfl)
    | cons second others =>
      have later := ih (List.cons_ne_nil second others)
        fun other inside => each other (List.mem_cons_of_mem member inside)
      have whole := (here [','] (.inr (.inl rfl))).newline later
      rw [Text.join_cons_cons]
      simpa using whole

theorem Fills.object {members : List Text}
    (each : ∀ member ∈ members, Stands indent (depth + 1) member) :
    Fills indent depth (objectText (margin indent depth) members) := by
  unfold objectText
  split
  · exact .inline (leaves_of_plain (by decide)) ⟨['{'], '}', rfl, by decide⟩
  next filled =>
    intro opened start ending opening leads isEnding
    refine .braced opening leads ?_ isEnding
    -- The members are joined to one block between the braces.
    intro block only
    rw [List.mem_singleton.mp only]
    exact settles_members (by simpa using filled) each

/-! Methods. -/

theorem leaves_join {texts : List Text} (each : ∀ text ∈ texts, Carriable text) :
    Leaves 0 (Text.join ", " texts) := by
  induction texts with
  | nil => exact Leaves.nil
  | cons first rest ih =>
    have later := ih fun other member => each other (List.mem_cons_of_mem first member)
    have here := (each first List.mem_cons_self).leaves
    cases rest with
    | nil => simpa using here
    | cons second others =>
      have comma : Leaves 0 [',', ' '] := leaves_of_plain (by decide)
      rw [Text.join_cons_cons]
      exact (here.append_neutral comma).append_neutral later

theorem leaves_signature {name : Text} {parameters : List Text} {returnType : Option Text}
    (named : Carriable name) (parameterized : ∀ parameter ∈ parameters, Carriable parameter)
    (typed : ∀ type ∈ returnType, Carriable type) :
    Leaves 0 (signature name parameters returnType) := by
  have paren : Leaves 1 ['('] := leaves_of_plain (by decide)
  have opening : Leaves 1 (name ++ ['('] ++ Text.join ", " parameters) :=
    (named.leaves.append paren).append_neutral (leaves_join parameterized)
  refine opening.close.append_neutral ?_
  split
  next => exact Leaves.nil
  next type =>
    split
    · exact Leaves.nil
    · have colon : Leaves 0 [':', ' '] := leaves_of_plain (by decide)
      exact colon.append_neutral (typed type rfl).leaves

theorem leads_signature {name : Text} (named : Carriable name) (parameters : List Text)
    (returnType : Option Text) : Leads (signature name parameters returnType) :=
  (((named.leads.append _).append _).append _).append _

theorem Stands.documented {doc : Option DocComment}
    (plain : ∀ comment ∈ doc, ∀ line ∈ comment.lines, IsDocLine line) {member : Text}
    (stands : Stands indent depth (margin indent depth ++ member)) :
    Stands indent depth (documented (margin indent depth) doc member) := by
  intro ending isEnding
  rw [documented_append]
  refine .documented plain ?_
  rw [← List.append_assoc]
  exact stands ending isEnding

end

/-! The induction over the tree. -/

theorem exists_of_bind_eq_ok {ε α β : Type} {first : Except ε α} {next : α → Except ε β} {result : β}
    (returned : first >>= next = .ok result) :
    ∃ value, first = .ok value ∧ next value = .ok result := by
  cases first with
  | error => cases returned
  | ok value => exact ⟨value, rfl, returned⟩

theorem forall_printAll {indent depth : Nat} {position : Position} {goal : Text → Prop}
    {nodes : List Node}
    (each : ∀ node ∈ nodes, ∀ text, node.print indent depth position = .ok text → goal text)
    {texts : List Text} (printed : printAll indent depth position nodes = .ok texts) :
    ∀ text ∈ texts, goal text := by
  induction nodes generalizing texts with
  | nil =>
    cases printed
    simp
  | cons node rest ih =>
    rw [printAll] at printed
    obtain ⟨text, first, printed⟩ := exists_of_bind_eq_ok printed
    obtain ⟨later, others, same⟩ := exists_of_bind_eq_ok printed
    cases same
    have here := each node List.mem_cons_self text first
    exact List.forall_mem_cons.mpr
      ⟨here, ih (fun other member => each other (List.mem_cons_of_mem node member)) others⟩

-- The three kinds of nodes contain one another, so the induction is on all of them at once. A value is
-- printed inside a line that something else began; members and statements begin lines of their own.
mutual

theorem Node.IsValue.fills {node : Node} (value : node.IsValue Carriable IsDocLine)
    {indent depth : Nat} {text : Text} (printed : node.print indent depth .expression = .ok text) :
    Fills indent depth text := by
  cases value with
  | identifier carriable =>
    cases printed
    exact .ofCarriable carriable
  | string value quote =>
    cases printed
    exact .inline (leaves_literal quote value) (by cases quote <;> exact ⟨_, _, rfl, by decide⟩)
  | boolean value =>
    cases printed
    cases value <;> exact .ofCarriable (by decide)
  | cast carriable type =>
    cases printed
    have word : Leaves 0 [' ', 'a', 's', ' '] := leaves_of_plain (by decide)
    exact .inline ((carriable.leaves.append_neutral word).append_neutral type.leaves)
      (type.ink.2.append _)
  | @object members fits =>
    rw [Node.print] at printed
    obtain ⟨texts, inside, same⟩ := exists_of_bind_eq_ok printed
    cases same
    exact .object (forall_printAll
      (fun member among _ shown => Node.IsMember.stands (fits member among) shown) inside)

theorem Node.IsMember.stands {node : Node} (member : node.IsMember Carriable IsDocLine)
    {indent depth : Nat} {text : Text} (printed : node.print indent depth .element = .ok text) :
    Stands indent depth text := by
  cases member with
  | @property name value doc named fits plain =>
    rw [Node.print] at printed
    obtain ⟨shown, inside, same⟩ := exists_of_bind_eq_ok printed
    cases same
    refine .documented plain ?_
    intro ending isEnding
    -- The name begins the line and leaves nothing open; the value goes on from there.
    have colon : Leaves 0 [':', ' '] := leaves_of_plain (by decide)
    have filled := Node.IsValue.fills fits inside 0 (name ++ [':', ' ']) ending
      (named.leaves.append_neutral colon) (named.leads.append _) isEnding
    simpa using filled
  | @method name parameters returnType body doc named parameterized typed states plain =>
    rw [Node.print] at printed
    obtain ⟨texts, inside, same⟩ := exists_of_bind_eq_ok printed
    cases same
    refine .documented plain ?_
    intro ending isEnding
    have blank : Leaves 0 [' '] := leaves_of_plain (by decide)
    have start : Leaves 0 (signature name parameters returnType ++ [' ']) :=
      (leaves_signature named parameterized typed).append_neutral blank
    have each := forall_printAll
      (fun statement among _ shown => Node.IsStatement.settles (states statement among) shown) inside
    have settled := Settles.braced start ((leads_signature named _ _).append _) each isEnding
    simpa using settled
  | raw carriable plain =>
    cases printed
    exact .documented plain (.ofCarriable carriable)

theorem Node.IsStatement.settles {node : Node} (statement : node.IsStatement Carriable IsDocLine)
    {indent depth : Nat} {text : Text} (printed : node.print indent depth .statement = .ok text) :
    Settles indent depth text := by
  cases statement with
  | carried carriable =>
    cases printed
    exact .line carriable.leaves carriable.leads carriable.ink.2
  | @returned value fits =>
    rw [Node.print] at printed
    obtain ⟨shown, inside, same⟩ := exists_of_bind_eq_ok printed
    cases same
    have word : Leaves 0 ['r', 'e', 't', 'u', 'r', 'n', ' '] := leaves_of_plain (by decide)
    have filled := Node.IsValue.fills fits inside 0 _ [';'] word
      ⟨'r', _, rfl, by decide, by decide⟩ (.inr (.inr rfl))
    simpa using filled

end

/-! The settings and the words of the generated code. -/

theorem inert_of_isAlpha {c : Char} (alpha : c.isAlpha = true) :
    Text.isBlank c = false ∧ isPlain c = true ∧ isOpener c = false ∧ isCloser c = false := by
  have bounds : 65 ≤ c.toNat ∧ c.toNat ≤ 90 ∨ 97 ≤ c.toNat ∧ c.toNat ≤ 122 := by
    delta Char.isAlpha Char.isUpper Char.isLower at alpha
    simpa [UInt32.le_iff_toNat_le] using alpha
  have other {d : Char} (outside : d.toNat < 65 ∨ 90 < d.toNat ∧ d.toNat < 97 ∨ 122 < d.toNat) :
      c ≠ d := by
    rintro rfl
    omega
  refine ⟨?_, ?_, ?_, ?_⟩
  · simp only [Text.isBlank, Bool.or_eq_false_iff, Bool.and_eq_false_iff, decide_eq_false_iff_not,
      beq_eq_false_iff_ne]
    omega
  · simp [isPlain, @other '/' (by decide), @other '\'' (by decide), @other '"' (by decide),
      @other '`' (by decide)]
  · simp [isOpener, @other '(' (by decide), @other '[' (by decide), @other '{' (by decide)]
  · simp [isCloser, @other ')' (by decide), @other ']' (by decide), @other '}' (by decide)]

theorem openAfter?_word {word : Text} (letters : ∀ c ∈ word, c.isAlpha = true) (depth : Nat) :
    openAfter? depth word = some depth := by
  induction word with
  | nil => rfl
  | cons c rest ih =>
    obtain ⟨_, _, opener, closer⟩ := inert_of_isAlpha (letters c List.mem_cons_self)
    simp [openAfter?, opener, closer, ih fun d member => letters d (List.mem_cons_of_mem c member)]

theorem Layout.Carriable.word {word : Text} (plain : isPlainWord word = true) : Carriable word := by
  simp only [isPlainWord, Bool.and_eq_true, Bool.not_eq_true', List.isEmpty_eq_false_iff,
    List.all_eq_true] at plain
  obtain ⟨nonempty, letters⟩ := plain
  have ink : ∀ c ∈ word, Text.isBlank c = false := fun c member => (inert_of_isAlpha (letters c member)).1
  refine ⟨nonempty, ?_, ?_, fun c member => (inert_of_isAlpha (letters c member)).2.1,
    openAfter?_word letters 0⟩
  · obtain ⟨c, rest, first⟩ := List.exists_cons_of_ne_nil nonempty
    have last := List.dropLast_concat_getLast nonempty
    exact Text.trim_of_ink ⟨c, rest, first, ink c (by simp [first])⟩
      ⟨_, _, last.symm, ink _ (List.getLast_mem nonempty)⟩
  · intro member
    have blank := ink _ member
    cases blank

theorem Layout.Carriable.generic {name type : Text} (named : Carriable name) (typed : Carriable type) :
    Carriable (name ++ "<" ++ Text.trim type ++ ">") := by
  rw [typed.trimmed]
  refine ⟨?_, ?_, ?_, ?_, ?_⟩
  · simp
  · exact Text.trim_of_ink (((named.ink.1.append _).append _).append _)
      ((Text.EndsInk.singleton (c := '>') (by decide)).append _)
  · simp [named.single, typed.single]
  · exact ((named.plain.append (by decide)).append typed.plain).append (by decide)
  · have bracket : openAfter? 0 (name ++ "<") = some 0 := openAfter?_append named.balanced _
    have inner : openAfter? 0 (name ++ "<" ++ type) = some 0 := by
      rw [openAfter?_append bracket, typed.balanced]
    rw [openAfter?_append inner]
    rfl

theorem Settings.suits_carriable {settings : Settings} (cast : Carriable settings.propTypeName)
    (fallback : Carriable settings.fallbackReturnType) : settings.Suits Carriable where
  word _ plain := Carriable.word plain
  fallback := fallback
  cast _ typed := cast.generic typed

theorem Component.isDocLine_of_mem_docLines {component : Component} {line : Text}
    (member : line ∈ component.docLines) (unclosed : ¬ ['*', '/'] <:+: line) : IsDocLine line := by
  have single : ∀ docs : List DocBlock, line ∈ carriedDocLines docs → '\n' ∉ line := by
    intro docs inside
    obtain ⟨comment, _, inside⟩ := List.mem_flatMap.mp inside
    exact Text.single_of_mem_lines inside
  simp only [Component.docLines, List.mem_append, List.mem_flatMap] at member
  rcases member with ⟨prop, _, inside⟩ | ⟨field, _, inside⟩
  · exact ⟨single _ inside, unclosed⟩
  · exact ⟨single _ inside, unclosed⟩

theorem settles_export {factory : Text} (called : Carriable factory) {options : Node}
    (fits : options.IsValue Carriable IsDocLine) {indent : Nat} {text : Text}
    (printed : options.print indent 0 .expression = .ok text) :
    Settles indent 0 ("export default " ++ (factory ++ "(" ++ text ++ ")") ++ ";") := by
  have words : Leaves 0 "export default " := leaves_of_plain (by decide)
  have paren : Leaves 1 ['('] := leaves_of_plain (by decide)
  have start : Leaves 1 ("export default " ++ factory ++ ['(']) :=
    (words.append_neutral called.leaves).append paren
  have leads : Leads ("export default " ++ factory ++ ['(']) :=
    .append (.append ⟨'e', _, rfl, by decide, by decide⟩ _) _
  have filled := fits.fills printed 1 _ [';'] start leads (.inr (.inr rfl))
  simpa [margin, Text.spaces] using filled

/-- Printing and layout agree. If the texts of a component and of the settings lie inside their lines
and no line of documentation ends its comment, the export of the printed tree is a fixed point of
formatting with the same indentation, and nothing is open behind it. Printing and formatting stop
only at an indentation that cannot be used. -/
theorem Component.emitted_laid_out {settings : Settings} {component : Component} {tree : Node}
    (built : component.tree settings = .ok tree) (called : Carriable settings.factory)
    (cast : Carriable settings.propTypeName) (fallback : Carriable settings.fallbackReturnType)
    (carried : ∀ text ∈ component.carried, Carriable text)
    (unclosed : ∀ line ∈ component.docLines, ¬ ['*', '/'] <:+: line) (indent : Int) :
    ∃ expression, tree.text? indent = .ok expression ∧
      tree.render indent = ((indentWidth indent).mapError .indent).map (fun _ => expression) ∧
      let text : Text := "export default " ++ expression ++ ";" ++ "\n"
      format indent text = text ∧ tryFormat indent text = (indentWidth indent).map (fun _ => text) ∧
        (layOut indent text).2.brackets = [] ∧ (layOut indent text).2.region = .code := by
  obtain ⟨options, rfl, fits⟩ := Component.assemble_isValue
    (Settings.suits_carriable cast fallback) carried
    (fun line member => Component.isDocLine_of_mem_docLines member (unclosed line member))
    (Component.returns_of_tree built)
  obtain ⟨shown, printed, whole⟩ := fits.text_call indent settings.factory
  have rendered : (Node.callExpression settings.factory [options]).render indent =
      ((indentWidth indent).mapError .indent).map fun _ => settings.factory ++ "(" ++ shown ++ ")" := by
    rw [Node.render, whole]
    cases indentWidth indent with
    | error => rfl
    | ok => rfl
  obtain ⟨fixed, brackets, region⟩ := layOut_of_settles (settles_export called fits printed)
  refine ⟨_, whole, rendered, fixed, ?_, brackets, region⟩
  exact congrArg (fun text => (indentWidth indent).map fun _ => text) fixed

def oddlyNamedClass : Component where
  head := { name := some ['a', '\'', '\n', '/', '{'] }
  props := [{ field := {
    name := ['p'], type := some { text := ['T', '[', ']'] },
    docs := [{ comment := some ['x', '\n', '*'] }] } }]
  data := [{ name := ['d'], initializer := some ['{', '}'], docs := [{ comment := some ['y'] }] }]
  computed := [(['c'], {
    getter := some { body := [['r', '(', ')']] },
    setter := some { body := [['s']], parameters := [{ name := ['v'], written := ['v'] }] } })]

theorem oddlyNamedClass_laid_out : ∃ tree expression, oddlyNamedClass.tree {} = .ok tree ∧
    tree.render 2 = .ok expression ∧
    format 2 ("export default " ++ expression ++ ";" ++ "\n") =
      "export default " ++ expression ++ ";" ++ "\n" := by
  obtain ⟨expression, _, rendered, fixed, _⟩ := Component.emitted_laid_out
    (rfl : oddlyNamedClass.tree {} = .ok _) (by decide) (by decide) (by decide) (by decide)
    (by decide) 2
  exact ⟨_, expression, rfl, rendered, fixed⟩

/-- At an indentation that fits no word there is nothing to format, for nothing is printed. -/
theorem render_below_word :
    let component : Component := { head := { name := some ['A'] } }
    ∃ tree, component.tree {} = .ok tree ∧
      ∀ expression, tree.render (-0x8000000000000001) ≠ .ok expression :=
  ⟨_, rfl, fun _ same => by cases same⟩

end OptionsApi
