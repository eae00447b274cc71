import OptionsApi.Text.Blank
import OptionsApi.Tree.Basic

/-! Printing of trees. Members and statements stand on lines of their own, indented by their depth;
text carried over as written keeps its own line breaks. A node that does not belong where it stands
is refused, the first such in reading order. -/

set_option autoImplicit false

namespace OptionsApi

inductive Position where
  | expression
  | element
  | statement
  deriving DecidableEq, Repr

structure Misplaced where
  position : Position
  kind : Text
  deriving DecidableEq, Repr

def Position.complaint : Position → Text
  | .expression => "Cannot emit expression node: "
  | .element => "Cannot emit object element: "
  | .statement => "Cannot emit statement: "

def Misplaced.message (misplaced : Misplaced) : Text :=
  misplaced.position.complaint ++ misplaced.kind

def margin (indent level : Nat) : Text := Text.spaces (indent * level)

/-- The lines of a documentation comment; blanks at the end of a line are dropped. -/
def docLines (start : Text) : Option DocComment → List Text
  | none => []
  | some doc =>
    (start ++ "/**") :: doc.lines.map (fun line => Text.trimEnd (start ++ " * " ++ line)) ++
      [start ++ " */"]

def documented (start : Text) (doc : Option DocComment) (member : Text) : Text :=
  Text.join "\n" (docLines start doc ++ [start ++ member])

def bracedLines (start : Text) (lines : List Text) : Text :=
  Text.join "\n" (['{'] :: lines ++ [start ++ ['}']])

/-- A method's name, parameters and return type; an empty return type is none. -/
def signature (name : Text) (parameters : List Text) (returnType : Option Text) : Text :=
  name ++ "(" ++ Text.join ", " parameters ++ ")" ++
    match returnType with
    | none => []
    | some type => if type.isEmpty then [] else ": " ++ type

def objectText (start : Text) (members : List Text) : Text :=
  if members.isEmpty then "\x7b\x7d"
  else bracedLines start [Text.join ",\n" members]

mutual

def Node.print (indent level : Nat) (position : Position) (node : Node) : Except Misplaced Text :=
  match position, node with
  | .expression, .identifier text => .ok text
  | .expression, .stringLiteral value quote => .ok (quote.literal value)
  | .expression, .booleanLiteral value => .ok (if value then "true" else "false")
  | .expression, .asExpression expression type => do
    return (← expression.print indent level .expression) ++ " as " ++ type
  | .expression, .callExpression callee arguments => do
    let arguments ← printAll indent level .expression arguments
    return callee ++ "(" ++ Text.join ", " arguments ++ ")"
  | .expression, .objectLiteral properties => do
    return objectText (margin indent level) (← printAll indent (level + 1) .element properties)
  | .element, .propertyAssignment name initializer doc => do
    let value ← initializer.print indent level .expression
    return documented (margin indent level) doc (name ++ ": " ++ value)
  | .element, .methodDeclaration name parameters returnType body doc => do
    let statements ← printAll indent (level + 1) .statement body
    return documented (margin indent level) doc
      (signature name parameters returnType ++ " " ++ bracedLines (margin indent level) statements)
  | .element, .rawElement text doc => .ok (documented (margin indent level) doc text)
  | .statement, .returnStatement none => .ok (margin indent level ++ "return;")
  | .statement, .returnStatement (some expression) => do
    let value ← expression.print indent level .expression
    return margin indent level ++ "return " ++ value ++ ";"
  | .statement, .opaqueStatement text => .ok (margin indent level ++ text)
  | position, node => .error ⟨position, node.kind⟩
termination_by structural node

def printAll (indent level : Nat) (position : Position) (nodes : List Node) :
    Except Misplaced (List Text) :=
  match nodes with
  | [] => .ok []
  | node :: rest => do
    let first ← node.print indent level position
    return first :: (← printAll indent level position rest)
termination_by structural nodes

end

def Node.text? (indent : Int) (node : Node) : Except Misplaced Text :=
  node.print indent.toNat 0 .expression

end OptionsApi
