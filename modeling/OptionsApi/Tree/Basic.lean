import OptionsApi.Tree.StringLiteral

/-! Trees of generated code. A tree is built freely: any node may be put where an expression, an
object member or a statement is expected, and printing tells those that do not belong there. -/

set_option autoImplicit false

namespace OptionsApi

structure DocComment where
  lines : List Text
  deriving DecidableEq, Repr

inductive Node where
  /-- Text printed as it is; also an expression carried over as written. -/
  | identifier (text : Text)
  | stringLiteral (value : Text) (quote : Quote)
  | booleanLiteral (value : Bool)
  /-- A type cast. -/
  | asExpression (expression : Node) (type : Text)
  | objectLiteral (properties : List Node)
  | callExpression (callee : Text) (arguments : List Node)
  | returnStatement (expression : Option Node)
  /-- A statement carried over as written. -/
  | opaqueStatement (text : Text)
  | block (statements : List Node)
  | propertyAssignment (name : Text) (initializer : Node) (doc : Option DocComment)
  | methodDeclaration (name : Text) (parameters : List Text) (returnType : Option Text)
      (body : List Node) (doc : Option DocComment)
  /-- A member carried over as written. -/
  | rawElement (text : Text) (doc : Option DocComment)
  | docComment (doc : DocComment)
  /-- An expression, a statement and a member of no particular kind. -/
  | bareExpression
  | bareStatement
  | bareElement
  /-- A value that is no node at all, by the name of its kind. -/
  | stray (kind : Text)
  deriving Inhabited

def Node.kind : Node → Text
  | .identifier .. => "Identifier"
  | .stringLiteral .. => "StringLiteral"
  | .booleanLiteral .. => "BooleanLiteral"
  | .asExpression .. => "AsExpression"
  | .objectLiteral .. => "ObjectLiteral"
  | .callExpression .. => "CallExpression"
  | .returnStatement .. => "ReturnStatement"
  | .opaqueStatement .. => "OpaqueStatement"
  | .block .. => "Block"
  | .propertyAssignment .. => "PropertyAssignment"
  | .methodDeclaration .. => "MethodDeclaration"
  | .rawElement .. => "RawElement"
  | .docComment .. => "DocComment"
  | .bareExpression => "Expr"
  | .bareStatement => "Stmt"
  | .bareElement => "ObjectElement"
  | .stray kind => kind

def Node.withDoc (doc : DocComment) : Node → Node
  | .propertyAssignment name initializer _ => .propertyAssignment name initializer (some doc)
  | .methodDeclaration name parameters returnType body _ =>
    .methodDeclaration name parameters returnType body (some doc)
  | .rawElement text _ => .rawElement text (some doc)
  | node => node

end OptionsApi
