import OptionsApi.Proofs.Text.WordChar
import OptionsApi.TypeText.Chunk

/-! Types as they are built, and the texts that write them. A function or constructor type is
written in parentheses where it is an operand of a union or the element of an array; the grammar
leaves no other way to put it there. Inside brackets any blanks may stand between the tokens;
outside them line feeds may be ruled out. -/

set_option autoImplicit false

namespace OptionsApi.TypeText

open Text (Within Blank EndsInk)

def isTypeNameChar (c : Char) : Bool := Text.isNameChar c || c == '.'

structure IsTypeName (name : Text) : Prop where
  nonempty : name ≠ []
  chars : Within isTypeNameChar name

instance (name : Text) : Decidable (IsTypeName name) :=
  decidable_of_iff (name ≠ [] ∧ Within isTypeNameChar name)
    ⟨fun ⟨nonempty, chars⟩ => ⟨nonempty, chars⟩, fun isName => ⟨isName.nonempty, isName.chars⟩⟩

theorem isBlank_of_isTypeNameChar {c : Char} (named : isTypeNameChar c = true) :
    Text.isBlank c = false := by
  cases blank : Text.isBlank c with
  | false => rfl
  | true =>
    have noDot : c ≠ '.' := Text.ne_of_isBlank blank (by decide)
    simp [isTypeNameChar, Text.isNameChar_of_isBlank blank, noDot] at named

theorem ne_of_isTypeNameChar {c d : Char} (named : isTypeNameChar c = true)
    (other : isTypeNameChar d = false) : c ≠ d := by
  rintro rfl
  rw [named] at other
  cases other

namespace IsTypeName

variable {name : Text}

theorem exists_cons (isName : IsTypeName name) :
    ∃ c rest, name = c :: rest ∧ isTypeNameChar c = true := by
  obtain ⟨c, rest, rfl⟩ := List.exists_cons_of_ne_nil isName.nonempty
  exact ⟨c, rest, rfl, isName.chars c List.mem_cons_self⟩

theorem ends (isName : IsTypeName name) : EndsInk name :=
  ⟨_, _, (List.dropLast_concat_getLast isName.nonempty).symm,
    isBlank_of_isTypeNameChar (isName.chars _ (List.getLast_mem isName.nonempty))⟩

end IsTypeName

mutual

inductive TypeExpr where
  | name (name : Text)
  | generic (name : Text) (arguments : List TypeExpr)
  | array (element : TypeExpr)
  | parens (type : TypeExpr)
  | union (left right : TypeExpr)
  | literal (members : List Member)
  /-- The type parameters come first, each with the type it extends. -/
  | function (generics : List (Text × Option TypeExpr)) (parameters : List (Text × TypeExpr))
      (result : TypeExpr)
  | constructor (isAbstract : Bool) (parameters : List (Text × TypeExpr)) (result : TypeExpr)

inductive Member where
  | property (name : Text) (type : TypeExpr)
  | method (name : Text) (parameters : List (Text × TypeExpr)) (result : TypeExpr)
  | call (generics : List (Text × Option TypeExpr)) (parameters : List (Text × TypeExpr))
      (result : TypeExpr)

end

def TypeExpr.unwrapped : TypeExpr → TypeExpr
  | .parens type => type.unwrapped
  | type => type

def TypeExpr.isFunction : TypeExpr → Bool
  | .function .. => true
  | _ => false

def TypeExpr.isArrow : TypeExpr → Bool
  | .function .. | .constructor .. => true
  | _ => false

def TypeExpr.opens : TypeExpr → Bool
  | .parens _ | .function .. => true
  | .array element => element.opens
  | .union left _ => left.opens
  | .name _ | .generic .. | .literal _ | .constructor .. => false

def Member.isCall : Member → Bool
  | .call .. => true
  | _ => false

def Member.type : Member → TypeExpr
  | .property _ type | .method _ _ type | .call _ _ type => type

/-- Where a type stands: as the element of an array or the first operand of a union, as the last
operand of one, or anywhere else. -/
inductive Level where
  | operand
  | alternatives
  | whole
  deriving DecidableEq, Repr

def isGap (breaks : Bool) (c : Char) : Bool := Text.isBlank c && (breaks || c != '\n')

abbrev Gap (breaks : Bool) (blanks : Text) : Prop := Within (isGap breaks) blanks

def constructorWord (isAbstract : Bool) : Text :=
  if isAbstract then "abstract new ".toList else "new ".toList

mutual

/-- The texts of a type, with or without line feeds outside brackets. -/
inductive TypeExpr.Written : Bool → Level → TypeExpr → Text → Prop where
  | name {breaks : Bool} {level : Level} {name : Text} : IsTypeName name →
      TypeExpr.Written breaks level (.name name) name
  | generic {breaks : Bool} {level : Level} {name before inside : Text} {arguments : List TypeExpr} :
      IsTypeName name → Gap breaks before → ArgumentList arguments inside →
      TypeExpr.Written breaks level (.generic name arguments)
        (name ++ (before ++ '<' :: (inside ++ ['>'])))
  | array {breaks : Bool} {level : Level} {element : TypeExpr} {text before inside : Text} :
      TypeExpr.Written breaks .operand element text → Gap breaks before → Blank inside →
      TypeExpr.Written breaks level (.array element) (text ++ (before ++ '[' :: (inside ++ [']'])))
  | parens {breaks : Bool} {level : Level} {type : TypeExpr} {before text behind : Text} :
      Blank before → TypeExpr.Written true .whole type text → Blank behind →
      TypeExpr.Written breaks level (.parens type) ('(' :: (before ++ text ++ behind ++ [')']))
  | literal {breaks : Bool} {level : Level} {members : List Member} {inside : Text} :
      MemberList true members inside →
      TypeExpr.Written breaks level (.literal members) ('{' :: (inside ++ ['}']))
  | union {breaks : Bool} {level : Level} {left right : TypeExpr}
      {first before behind second : Text} : level ≠ .operand →
      TypeExpr.Written breaks .operand left first → Gap breaks before → Gap breaks behind →
      TypeExpr.Written breaks .alternatives right second →
      TypeExpr.Written breaks level (.union left right)
        (first ++ (before ++ '|' :: (behind ++ second)))
  | function {breaks : Bool} {generics : List (Text × Option TypeExpr)}
      {parameters : List (Text × TypeExpr)} {result : TypeExpr}
      {start inside before behind text : Text} : Generics breaks generics start →
      ParameterList parameters inside → Gap breaks before → Gap breaks behind →
      TypeExpr.Written breaks .whole result text →
      TypeExpr.Written breaks .whole (.function generics parameters result)
        (start ++ '(' :: (inside ++ [')']) ++ before ++ arrow ++ (behind ++ text))
  | constructor {breaks isAbstract : Bool} {parameters : List (Text × TypeExpr)} {result : TypeExpr}
      {between inside before behind text : Text} : Gap breaks between →
      ParameterList parameters inside → Gap breaks before → Gap breaks behind →
      TypeExpr.Written breaks .whole result text →
      TypeExpr.Written breaks .whole (.constructor isAbstract parameters result)
        (constructorWord isAbstract ++ between ++ '(' :: (inside ++ [')']) ++ before ++ arrow ++
          (behind ++ text))

inductive ArgumentList : List TypeExpr → Text → Prop where
  | last {type : TypeExpr} {before text behind : Text} : Blank before →
      TypeExpr.Written true .whole type text → Blank behind →
      ArgumentList [type] (before ++ text ++ behind)
  | cons {type : TypeExpr} {types : List TypeExpr} {before text behind rest : Text} :
      Blank before → TypeExpr.Written true .whole type text → Blank behind →
      ArgumentList types rest → ArgumentList (type :: types) (before ++ text ++ behind ++ ',' :: rest)

inductive Parameter : Text × TypeExpr → Text → Prop where
  | intro {name before middle behind text after : Text} {type : TypeExpr} : Blank before →
      IsTypeName name → Blank middle → Blank behind → TypeExpr.Written true .whole type text →
      Blank after →
      Parameter (name, type) (before ++ name ++ middle ++ ':' :: (behind ++ text ++ after))

inductive ParameterList : List (Text × TypeExpr) → Text → Prop where
  | nil {blanks : Text} : Blank blanks → ParameterList [] blanks
  | last {parameter : Text × TypeExpr} {text : Text} : Parameter parameter text →
      ParameterList [parameter] text
  | cons {parameter : Text × TypeExpr} {parameters : List (Text × TypeExpr)} {text rest : Text} :
      Parameter parameter text → ParameterList parameters rest →
      ParameterList (parameter :: parameters) (text ++ ',' :: rest)

inductive Generic : Text × Option TypeExpr → Text → Prop where
  | free {before name behind : Text} : Blank before → IsTypeName name → Blank behind →
      Generic (name, none) (before ++ name ++ behind)
  | bounded {before name behind text after : Text} {type : TypeExpr} : Blank before →
      IsTypeName name → Blank behind → TypeExpr.Written true .whole type text → Blank after →
      Generic (name, some type) (before ++ name ++ " extends ".toList ++ (behind ++ text ++ after))

inductive GenericList : List (Text × Option TypeExpr) → Text → Prop where
  | last {generic : Text × Option TypeExpr} {text : Text} : Generic generic text →
      GenericList [generic] text
  | cons {generic : Text × Option TypeExpr} {generics : List (Text × Option TypeExpr)}
      {text rest : Text} : Generic generic text → GenericList generics rest →
      GenericList (generic :: generics) (text ++ ',' :: rest)

inductive Generics : Bool → List (Text × Option TypeExpr) → Text → Prop where
  | none {breaks : Bool} : Generics breaks [] []
  | some {breaks : Bool} {generics : List (Text × Option TypeExpr)} {inside blanks : Text} :
      GenericList generics inside → Gap breaks blanks →
      Generics breaks generics ('<' :: (inside ++ ['>']) ++ blanks)

inductive Member.Written : Bool → Member → Text → Prop where
  | property {breaks : Bool} {name before behind text : Text} {type : TypeExpr} :
      IsTypeName name → Gap breaks before → Gap breaks behind →
      TypeExpr.Written breaks .whole type text →
      Member.Written breaks (.property name type) (name ++ before ++ ':' :: behind ++ text)
  | method {breaks : Bool} {name between inside before behind text : Text}
      {parameters : List (Text × TypeExpr)} {result : TypeExpr} : IsTypeName name →
      Gap breaks between → ParameterList parameters inside → Gap breaks before →
      Gap breaks behind → TypeExpr.Written breaks .whole result text →
      Member.Written breaks (.method name parameters result)
        (name ++ between ++ '(' :: (inside ++ [')']) ++ before ++ ':' :: behind ++ text)
  | call {breaks : Bool} {generics : List (Text × Option TypeExpr)}
      {parameters : List (Text × TypeExpr)} {result : TypeExpr}
      {start inside before behind text : Text} : Generics breaks generics start →
      ParameterList parameters inside → Gap breaks before → Gap breaks behind →
      TypeExpr.Written breaks .whole result text →
      Member.Written breaks (.call generics parameters result)
        (start ++ '(' :: (inside ++ [')']) ++ before ++ ':' :: behind ++ text)

/-- The members of a type literal, possibly with a separator behind the last one. Line feeds may
always stand around a member, and a line feed also separates two. -/
inductive MemberList : Bool → List Member → Text → Prop where
  | nil {breaks : Bool} {blanks : Text} : Blank blanks → MemberList breaks [] blanks
  | last {breaks : Bool} {member : Member} {before text behind : Text} : Blank before →
      Member.Written breaks member text → Blank behind →
      MemberList breaks [member] (before ++ text ++ behind)
  | cons {breaks : Bool} {member : Member} {members : List Member} {before text behind rest : Text}
      {separator : Char} : Blank before → Member.Written breaks member text → Blank behind →
      isSeparator separator = true → MemberList breaks members rest →
      MemberList breaks (member :: members) (before ++ text ++ behind ++ separator :: rest)

end

end OptionsApi.TypeText
