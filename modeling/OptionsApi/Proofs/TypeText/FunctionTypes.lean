import OptionsApi.Proofs.TypeText.Written
import OptionsApi.TypeText.Marker

/-! Function types are told from all others by their text. The parentheses around a type are removed
as far as they wrap all of it, and what is left has an arrow outside its brackets exactly when it is a
function or constructor type. -/

set_option autoImplicit false

namespace OptionsApi.TypeText

open Text (Within Blank BeginsInk EndsInk)

variable {breaks : Bool}

/-! Parentheses around the whole. -/

theorem TypeExpr.Written.not_parenthesized {level : Level} {type : TypeExpr} {text : Text}
    (written : type.Written breaks level text) (bare : ∀ inner, type ≠ .parens inner) :
    isParenthesized text = false := by
  cases written with
  | name isName =>
    obtain ⟨c, rest, rfl, named⟩ := isName.exists_cons
    have other : c ≠ '(' := ne_of_isTypeNameChar named (by decide)
    simp [isParenthesized, other]
  | generic isName => exact isParenthesized_append isName.nested isName.nonempty (by simp)
  | array element =>
    exact isParenthesized_append element.nested element.starts.begins.ne_nil (by simp)
  | parens => exact absurd rfl (bare _)
  | literal => simp [isParenthesized]
  | union _ left =>
    exact isParenthesized_append left.nested left.starts.begins.ne_nil (by simp)
  -- The parameters may open the text and a result in parentheses close it: they are two groups.
  | function generics parameters before =>
    have signature := (generics.balanced_signature parameters before).nested
    rw [List.append_assoc]
    exact isParenthesized_append signature (by simp) (by simp [arrow])
  | constructor =>
    simp only [List.append_assoc]
    exact isParenthesized_append (nested_constructorWord _)
      (starts_constructorWord _).begins.ne_nil (by simp [arrow])

theorem TypeExpr.unwrapped_of_bare {type : TypeExpr} (bare : ∀ inner, type ≠ .parens inner) :
    type.unwrapped = type := by
  cases type with
  | parens inner => exact absurd rfl (bare inner)
  | _ => rfl

/-- Removing the parentheses that wrap a type leaves a text of the type inside. -/
theorem TypeExpr.Written.stripParens {type : TypeExpr} {text before behind : Text}
    (written : type.Written true .whole text) (first : Blank before) (last : Blank behind) :
    ∃ bare, type.unwrapped.Written true .whole bare ∧
      TypeText.stripParens (before ++ text ++ behind) = bare := by
  by_cases wrapped : ∃ inner, type = .parens inner
  · obtain ⟨inner, rfl⟩ := wrapped
    cases written with
    | parens left within right =>
      have stripped := TypeExpr.Written.stripParens within left right
      rw [stripParens_enclosed first last (nested_padded left within.nested right)]
      exact stripped
  · have bare : ∀ inner, type ≠ .parens inner := fun inner same => wrapped ⟨inner, same⟩
    refine ⟨text, ?_, ?_⟩
    · rw [TypeExpr.unwrapped_of_bare bare]
      exact written
    · exact stripParens_of_not_parenthesized first last written.starts.begins written.ends
        (written.not_parenthesized bare)
termination_by sizeOf type

/-! What a type is told from. -/

theorem contains_arrow_iff (text : Text) :
    (chunks 0 text).contains arrow = true ↔ arrow ∈ pieces 0 0 text := by
  have ink : Text.isBlankText arrow = false := by decide
  simp [chunks, ink]

theorem TypeExpr.Written.arrow_mem_iff {type : TypeExpr} {text : Text}
    (written : type.Written breaks .whole text) : arrow ∈ pieces 0 0 text ↔ type.isArrow = true := by
  cases outside : type.isArrow with
  | false =>
    have absent := arrow_not_mem_pieces (written.balanced outside) 0
    simp [absent]
  | true =>
    cases written with
    | function generics parameters before behind result =>
      have signature := generics.balanced_signature parameters before
      rw [List.append_assoc, arrow_mem_pieces_append signature rfl]
      simp [arrow, pieces]
    | constructor between parameters before behind result =>
      rw [List.append_assoc,
        arrow_mem_pieces_append (ParameterList.balanced_constructor _ between parameters before) rfl]
      simp [arrow, pieces]
    | _ => cases outside

theorem isConstructorType_of_starts {text : Text} (starts : Starts true text) :
    isConstructorType text = false := by
  obtain ⟨c, rest, rfl, -, opens⟩ := starts
  simp only [isCallOpener, Bool.or_eq_true, beq_iff_eq] at opens
  obtain rfl | rfl := opens <;> rfl

theorem isConstructorType_constructorWord (isAbstract : Bool) (rest : Text) :
    isConstructorType (constructorWord isAbstract ++ rest) = true := by
  cases isAbstract <;> simp [isConstructorType, constructorWord]

theorem TypeExpr.Written.isCallable_eq {type : TypeExpr} {text bare : Text}
    (written : type.Written breaks .whole bare) (stripped : TypeText.stripParens text = bare)
    (noLiteral : bare.head? ≠ some '{') : isCallable text = type.isFunction := by
  have noMembers : isTypeLiteral bare = false := by simp [isTypeLiteral, noLiteral]
  have arrows : (chunks 0 bare).contains arrow = type.isArrow := by
    rw [Bool.eq_iff_iff, contains_arrow_iff, written.arrow_mem_iff]
  simp only [isCallable, stripped, noMembers, arrows, Bool.false_and]
  have starts := written.starts
  cases written with
  | function =>
    rw [isConstructorType_of_starts starts]
    rfl
  | constructor => simp [isConstructorType_constructorWord, TypeExpr.isFunction]
  -- A name may spell the word of a constructor type, but then the answer is the same.
  | _ => simp [TypeExpr.isArrow, TypeExpr.isFunction]

end OptionsApi.TypeText

namespace OptionsApi

open TypeText

/-- Where the number of call signatures is not known, a type is callable exactly when it is a
function type inside the parentheses that wrap it, unless its text begins a type literal. -/
theorem DeclaredType.isCallable_iff_isFunction {type : TypeExpr} {text before behind : Text}
    (written : type.Written true .whole text) (first : Text.Blank before)
    (last : Text.Blank behind) :
    ∃ bare, type.unwrapped.Written true .whole bare ∧
      stripParens (before ++ text ++ behind) = bare ∧
      (bare.head? ≠ some '{' →
        (DeclaredType.isCallable ⟨before ++ text ++ behind, none⟩ = true ↔
          type.unwrapped.isFunction = true)) := by
  obtain ⟨bare, inside, stripped⟩ := written.stripParens first last
  refine ⟨bare, inside, stripped, fun noLiteral => ?_⟩
  have callable := inside.isCallable_eq stripped noLiteral
  rw [DeclaredType.isCallable, callable]

def wrappedCallback : TypeExpr :=
  .parens (.function [(['T'], none)]
    [(['x'], .generic ['M', 'a', 'p'] [.name ['T'], .function [] [] (.name ['T'])])]
    (.parens (.name ['T'])))

theorem wrappedCallback_written :
    wrappedCallback.Written true .whole "(<T>(x: Map<T, () => T>) => (T))" := by
  have name {level : Level} : (TypeExpr.name ['T']).Written true level ['T'] :=
    .name (by decide)
  have thunk : (TypeExpr.function [] [] (.name ['T'])).Written true .whole _ :=
    @TypeExpr.Written.function _ _ _ _ [] [] [' '] [' '] _ .none (.nil (by decide)) (by decide)
      (by decide) name
  have arguments : ArgumentList [.name ['T'], .function [] [] (.name ['T'])] _ :=
    @ArgumentList.cons _ _ [] _ [] _ (by decide) name (by decide)
      (@ArgumentList.last _ [' '] _ [] (by decide) thunk (by decide))
  have parameter : ParameterList
      [(['x'], .generic ['M', 'a', 'p'] [.name ['T'], .function [] [] (.name ['T'])])] _ :=
    .last (@Parameter.intro ['x'] [] [] [' '] _ [] _ (by decide) (by decide) (by decide) (by decide)
      (@TypeExpr.Written.generic _ _ ['M', 'a', 'p'] [] _ _ (by decide) (by decide) arguments)
      (by decide))
  have generics : Generics true [(['T'], none)] _ :=
    @Generics.some _ _ _ [] (.last (@Generic.free [] ['T'] [] (by decide) (by decide) (by decide)))
      (by decide)
  have result : (TypeExpr.parens (.name ['T'])).Written true .whole _ :=
    @TypeExpr.Written.parens _ _ _ [] _ [] (by decide) name (by decide)
  exact @TypeExpr.Written.parens _ _ _ [] _ [] (by decide)
    (@TypeExpr.Written.function _ _ _ _ _ _ [' '] [' '] _ generics parameter (by decide) (by decide)
      result) (by decide)

theorem wrappedCallback_isCallable :
    DeclaredType.isCallable ⟨" (<T>(x: Map<T, () => T>) => (T))\n", none⟩ = true := by
  obtain ⟨bare, -, stripped, callable⟩ := @DeclaredType.isCallable_iff_isFunction _ _ [' '] ['\n']
    wrappedCallback_written (by decide) (by decide)
  have opened : bare.head? ≠ some '{' := by
    rw [← stripped, stripParens_eq, if_pos (by decide), stripParens_eq, if_neg (by decide)]
    decide
  exact (callable opened).mpr rfl

end OptionsApi
