import OptionsApi.Proofs.Text.Lines
import OptionsApi.Tree.Print

/-! The trees a component gives rise to: object literals whose members hold texts carried over,
literals and further objects. Every node of such a tree stands where it belongs, so it is printed. -/

set_option autoImplicit false

namespace OptionsApi

mutual

/-- A value of a member. The texts carried over and the lines of documentation satisfy the given
conditions. -/
inductive Node.IsValue (clean docLine : Text → Prop) : Node → Prop where
  | identifier {text : Text} : clean text → Node.IsValue clean docLine (.identifier text)
  | string (value : Text) (quote : Quote) : Node.IsValue clean docLine (.stringLiteral value quote)
  | boolean (value : Bool) : Node.IsValue clean docLine (.booleanLiteral value)
  | cast {text type : Text} : clean text → clean type →
      Node.IsValue clean docLine (.asExpression (.identifier text) type)
  | object {members : List Node} : (∀ member ∈ members, Node.IsMember clean docLine member) →
      Node.IsValue clean docLine (.objectLiteral members)

inductive Node.IsMember (clean docLine : Text → Prop) : Node → Prop where
  | property {name : Text} {value : Node} {doc : Option DocComment} : clean name →
      Node.IsValue clean docLine value →
      (∀ comment ∈ doc, ∀ line ∈ comment.lines, docLine line) →
      Node.IsMember clean docLine (.propertyAssignment name value doc)
  | method {name : Text} {parameters : List Text} {returnType : Option Text} {body : List Node}
      {doc : Option DocComment} : clean name → (∀ parameter ∈ parameters, clean parameter) →
      (∀ type ∈ returnType, clean type) →
      (∀ statement ∈ body, Node.IsStatement clean docLine statement) →
      (∀ comment ∈ doc, ∀ line ∈ comment.lines, docLine line) →
      Node.IsMember clean docLine (.methodDeclaration name parameters returnType body doc)
  | raw {text : Text} {doc : Option DocComment} : clean text →
      (∀ comment ∈ doc, ∀ line ∈ comment.lines, docLine line) →
      Node.IsMember clean docLine (.rawElement text doc)

inductive Node.IsStatement (clean docLine : Text → Prop) : Node → Prop where
  | carried {text : Text} : clean text → Node.IsStatement clean docLine (.opaqueStatement text)
  | returned {value : Node} : Node.IsValue clean docLine value →
      Node.IsStatement clean docLine (.returnStatement (some value))

end

theorem exists_printAll {indent level : Nat} {position : Position} {nodes : List Node}
    (each : ∀ node ∈ nodes, ∃ text, node.print indent level position = .ok text) :
    ∃ texts, printAll indent level position nodes = .ok texts := by
  induction nodes with
  | nil => exact ⟨[], rfl⟩
  | cons node rest ih =>
    obtain ⟨text, first⟩ := each node List.mem_cons_self
    obtain ⟨texts, others⟩ := ih fun other member => each other (List.mem_cons_of_mem node member)
    exact ⟨text :: texts, by rw [printAll, first, others]; rfl⟩

mutual

theorem Node.IsValue.prints {clean docLine : Text → Prop} {node : Node}
    (value : node.IsValue clean docLine) (indent level : Nat) :
    ∃ text, node.print indent level .expression = .ok text := by
  cases value with
  | identifier => exact ⟨_, rfl⟩
  | string => exact ⟨_, rfl⟩
  | boolean => exact ⟨_, rfl⟩
  | cast => exact ⟨_, rfl⟩
  | object members =>
    obtain ⟨texts, printed⟩ := exists_printAll fun member inside =>
      Node.IsMember.prints (members member inside) indent (level + 1)
    exact ⟨_, by rw [Node.print, printed]; rfl⟩

theorem Node.IsMember.prints {clean docLine : Text → Prop} {node : Node}
    (member : node.IsMember clean docLine) (indent level : Nat) :
    ∃ text, node.print indent level .element = .ok text := by
  cases member with
  | property _ value _ =>
    obtain ⟨text, printed⟩ := Node.IsValue.prints value indent level
    exact ⟨_, by rw [Node.print, printed]; rfl⟩
  | method _ _ _ body _ =>
    obtain ⟨texts, printed⟩ := exists_printAll fun statement inside =>
      Node.IsStatement.prints (body statement inside) indent (level + 1)
    exact ⟨_, by rw [Node.print, printed]; rfl⟩
  | raw => exact ⟨_, rfl⟩

theorem Node.IsStatement.prints {clean docLine : Text → Prop} {node : Node}
    (statement : node.IsStatement clean docLine) (indent level : Nat) :
    ∃ text, node.print indent level .statement = .ok text := by
  cases statement with
  | carried => exact ⟨_, rfl⟩
  | returned value =>
    obtain ⟨text, printed⟩ := Node.IsValue.prints value indent level
    exact ⟨_, by rw [Node.print, printed]; rfl⟩

end

theorem Node.IsValue.text_call {clean docLine : Text → Prop} {value : Node}
    (fits : value.IsValue clean docLine) (indent : Int) (callee : Text) :
    ∃ text, value.print indent.toNat 0 .expression = .ok text ∧
      (Node.callExpression callee [value]).text? indent = .ok (callee ++ "(" ++ text ++ ")") := by
  obtain ⟨text, printed⟩ := fits.prints indent.toNat 0
  refine ⟨text, printed, ?_⟩
  have arguments : printAll indent.toNat 0 .expression [value] = .ok [text] := by
    rw [printAll, printed]
    rfl
  rw [Node.text?, Node.print, arguments]
  change Except.ok (callee ++ "(" ++ Text.join ", " [text] ++ ")") = _
  rw [Text.join_singleton]

end OptionsApi
