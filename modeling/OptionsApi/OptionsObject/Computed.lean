import OptionsApi.Journal
import OptionsApi.OptionsObject.Documentation
import OptionsApi.OptionsObject.Settings

/-! The option of the computed properties. A getter alone becomes a method, a getter with a setter
an object of two methods. The return type of a getter has to be spelled out; where it is not known a
fallback is written and the reader is told. -/

set_option autoImplicit false

namespace OptionsApi

def manualReturnType (subject message : Text) : Diagnostic := ⟨.manualReturnType, subject, message⟩

def returnTypeOr (settings : Settings) (type : Option DeclaredType) (diagnostic : Diagnostic) :
    Build Text := do
  match type with
  | some type => return type.text
  | none =>
    Build.diagnose diagnostic
    return settings.fallbackReturnType

def Getter.convert (settings : Settings) (name : Text) (getter : Getter) : Build Node := do
  let type ← returnTypeOr settings getter.returnType
    (manualReturnType name ("Computed getter 「" ++ name ++ "」 will require a manual return type."))
  return .methodDeclaration name [] (some type) (bodyStatements getter.body) none

/-- A getter with a setter. The getter returns what the setter's parameter takes. -/
def convertPair (settings : Settings) (name : Text) (getter : Getter) (setter : Setter) :
    Build Node := do
  match setter.parameters with
  | [] => Build.refuse (.setterWithoutParameter name) setter.site
  | parameter :: _ =>
    let type ← returnTypeOr settings parameter.type
      (manualReturnType name
        ("Computed getter for 「" ++ name ++ "」 will require a manual return type."))
    let get := Node.methodDeclaration "get" [] (some type) (bodyStatements getter.body) none
    let set := Node.methodDeclaration "set" [parameter.text] none (bodyStatements setter.body) none
    return .propertyAssignment name (.objectLiteral [get, set]) none

def Accessors.convert (settings : Settings) (name : Text) (accessors : Accessors) :
    Build (Option Node) := do
  match accessors.getter, accessors.setter with
  | some getter, some setter => return some (← convertPair settings name getter setter)
  | some getter, none => return some (← getter.convert settings name)
  | none, some setter => Build.refuse (.setterWithoutGetter name) setter.site
  | none, none => return none

def convertComputed (settings : Settings) (computed : List (Text × Accessors)) : Build Node := do
  let members ← computed.mapM fun (name, accessors) => accessors.convert settings name
  Build.note ("Computed properties: " ++ Text.quotedList (computed.map (·.1)))
  return .propertyAssignment "computed" (.objectLiteral (members.filterMap id)) none

end OptionsApi
