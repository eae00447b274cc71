import OptionsApi.OptionsObject.Computed
import OptionsApi.OptionsObject.Data
import OptionsApi.OptionsObject.Prop

/-! The options object of a component: its name, the options of its decorator as written, its props,
data and computed properties, wrapped in the call of the factory. -/

set_option autoImplicit false

namespace OptionsApi

def ClassHead.requireName (head : ClassHead) : Build Text := do
  match head.name with
  | some (c :: rest) => return c :: rest
  | _ => Build.refuse .namelessClass head.site

def ClassHead.nameEntry (head : ClassHead) : Build Node := do
  let name ← head.requireName
  Build.note ("Component name: " ++ name)
  return .propertyAssignment "name" (.stringLiteral name .single) none

def copyDecoratorOptions (entries : List Entry) : Build (List Node) := do
  if !entries.isEmpty then
    Build.note ("Copied decorator options: " ++ Text.quotedList (entries.map (·.name)))
  return entries.map fun entry => .rawElement entry.text none

def unlessEmpty {α : Type} (members : List α) (option : List α → Build Node) :
    Build (List Node) := do
  if members.isEmpty then return [] else return [← option members]

def Component.assemble (settings : Settings) (component : Component) : Build Node := do
  let name ← component.head.nameEntry
  let copied ← copyDecoratorOptions component.decoratorOptions
  let props ← unlessEmpty component.props (convertProps settings)
  let data ← unlessEmpty component.data convertData
  let computed ← unlessEmpty component.computed (convertComputed settings)
  let options := name :: copied ++ props ++ data ++ computed
  return .callExpression settings.factory [.objectLiteral options]

end OptionsApi
