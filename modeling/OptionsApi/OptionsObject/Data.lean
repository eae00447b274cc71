import OptionsApi.Journal
import OptionsApi.OptionsObject.Documentation

/-! The option of the data: a method that returns the initial values. An object literal cannot
declare the type of a member, so the value of a typed field is cast. -/

set_option autoImplicit false

namespace OptionsApi

def Field.convert (field : Field) : Build Node := do
  match field.initializer with
  | none => Build.refuse (.dataWithoutValue field.name) field.site
  | some value =>
    let initial :=
      match field.type with
      | some type => Node.asExpression (.identifier value) type.text
      | none => .identifier value
    return (Node.propertyAssignment field.name initial none).documentedBy field.docs

def convertData (fields : List Field) : Build Node := do
  let properties ← fields.mapM Field.convert
  Build.note ("Data fields: " ++ Text.quotedList (fields.map (·.name)))
  let body := [Node.returnStatement (some (.objectLiteral properties))]
  return .methodDeclaration "data" [] none body none

end OptionsApi
