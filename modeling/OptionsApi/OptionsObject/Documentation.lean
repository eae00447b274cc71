import OptionsApi.Component.Basic
import OptionsApi.Text.Blank
import OptionsApi.Tree.Basic

/-! Documentation and bodies carried over from a class to the generated code. Of several blocks the
first counts. -/

set_option autoImplicit false

namespace OptionsApi

def description? (docs : List DocBlock) : Option Text :=
  (docs.head?.bind (·.comment)).filter fun comment => !comment.isEmpty

def Node.documentedBy (docs : List DocBlock) (node : Node) : Node :=
  match description? docs with
  | some comment => node.withDoc ⟨Text.lines comment⟩
  | none => node

/-- The documentation of a class: its first block as written, or rebuilt from the description. -/
def classDocumentation? (docs : List DocBlock) : Option Text :=
  docs.head?.bind fun doc =>
    let written := Text.trim doc.fullText
    if written.isEmpty then
      (description? docs).map fun comment =>
        let lines := (Text.lines comment).map fun line => Text.trimEnd (" * " ++ line)
        "/**\n" ++ Text.join "\n" lines ++ "\n */"
    else some written

def bodyStatements (body : List Text) : List Node := body.map .opaqueStatement

end OptionsApi
