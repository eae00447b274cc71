import OptionsApi.Journal
import OptionsApi.OptionsObject.Documentation
import OptionsApi.OptionsObject.Settings
import OptionsApi.TypeText.Literal

/-! The option of the props. Each prop gets its runtime type and one of a default value and whether
it is required; a type richer than a primitive is kept by a cast. -/

set_option autoImplicit false

namespace OptionsApi

/-- The primitive type of the prop's initial value, or else of its default value. -/
def PropField.inferredType? (prop : PropField) : Option Primitive :=
  (prop.field.initializer.bind TypeText.literalType?).or
    ((prop.defaultEntry.bind (·.initializer)).bind TypeText.literalType?)

def PropField.resolveType (prop : PropField) : Build DeclaredType := do
  match prop.field.type, prop.inferredType? with
  | some type, _ => return type
  | none, some primitive =>
    Build.note ("Inferred type '" ++ primitive.typeName ++ "' for prop " ++ prop.field.name)
    return ⟨primitive.typeName, none⟩
  | none, none => Build.refuse (.untypedProp prop.field.name) prop.field.site

def PropField.typeEntry (settings : Settings) (prop : PropField) : Build Node := do
  let type ← prop.resolveType
  match Primitive.ofTypeText? type.text with
  | some primitive => return .propertyAssignment "type" (.identifier primitive.marker) none
  | none =>
    Build.requireImport settings.propTypeModule settings.propTypeName
    let marker := type.shape.marker
    Build.note ("Prop " ++ prop.field.name ++ ": '" ++ type.text ++ "' maps to " ++ marker)
    let cast := settings.propTypeName ++ "<" ++ Text.trim type.text ++ ">"
    return .propertyAssignment "type" (.asExpression (.identifier marker) cast) none

inductive Requirement where
  | hasDefault (entry : Entry)
  | required (entry : Entry)
  | notRequired
  deriving DecidableEq, Repr

/-- A default value wins: with one, a prop is never required. -/
def PropField.requirement (prop : PropField) : Requirement :=
  match prop.defaultEntry, prop.requiredEntry with
  | some entry, _ => .hasDefault entry
  | none, some entry => .required entry
  | none, none => .notRequired

def requiredDropped (name : Text) : Diagnostic where
  kind := .requiredDropped
  subject := name
  message := "Prop 「" ++ name ++ "」 declares both `default` and `required`; `required` was dropped."

def PropField.requirementEntry (prop : PropField) : Build Node := do
  match prop.requirement with
  | .hasDefault entry =>
    -- The diagnostic stands also when the default turns out to have no value.
    if prop.requiredEntry.isSome then Build.diagnose (requiredDropped prop.field.name)
    match entry.initializer with
    | some value => return .propertyAssignment "default" (.identifier value) none
    | none => Build.refuse (.entryWithoutInitializer entry.name) entry.site
  | .required entry => return .rawElement entry.text none
  | .notRequired => return .propertyAssignment "required" (.booleanLiteral false) none

def PropField.convert (settings : Settings) (prop : PropField) : Build Node := do
  let type ← prop.typeEntry settings
  let requirement ← prop.requirementEntry
  let entry := Node.propertyAssignment prop.field.name (.objectLiteral [type, requirement]) none
  return entry.documentedBy prop.field.docs

def convertProps (settings : Settings) (props : List PropField) : Build Node := do
  return .propertyAssignment "props" (.objectLiteral (← props.mapM (·.convert settings))) none

end OptionsApi
