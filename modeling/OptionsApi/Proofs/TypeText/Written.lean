import OptionsApi.Proofs.TypeText.Balanced
import OptionsApi.Proofs.TypeText.Grammar

/-! What the text of a type looks like. Its brackets match, it begins and ends with ink, and outside
its brackets it has an arrow only if it is a function or constructor type. -/

set_option autoImplicit false

namespace OptionsApi.TypeText

open Text (Within Blank BeginsInk EndsInk)

/-! Matching brackets. -/

def isOutside (breaks : Bool) (c : Char) : Bool := (breaks && c == '\n') || !isSeparator c

def marks : Text := ['(', '[', '{', '<', ')', ']', '}', '>', '=']

theorem isPlain_of_kind {kind : Char → Bool} (unmarked : Within (fun c => !kind c) marks) {c : Char}
    (member : kind c = true) : isPlain c = true := by
  have other : ∀ d ∈ marks, c ≠ d := by
    rintro d mark rfl
    have absent := unmarked c mark
    simp [member] at absent
  simp only [marks, List.forall_mem_cons] at other
  simp [isPlain, isTypeOpener, isTypeCloser, other]

theorem isPlain_of_isTypeNameChar {c : Char} (named : isTypeNameChar c = true) :
    isPlain c = true :=
  isPlain_of_kind (by decide) named

theorem isPlain_of_isBlank {c : Char} (blank : Text.isBlank c = true) : isPlain c = true :=
  isPlain_of_kind (by decide) blank

theorem isSeparator_of_isTypeNameChar {c : Char} (named : isTypeNameChar c = true) :
    isSeparator c = false := by
  have other (d : Char) := ne_of_isTypeNameChar (d := d) named
  simp [isSeparator, other ';' (by decide), other ',' (by decide), other '\n' (by decide)]

variable {arrows breaks : Bool}

theorem IsTypeName.balanced {name : Text} (isName : IsTypeName name) :
    Balanced arrows (isOutside breaks) name :=
  .ofWithin isName.chars (fun _ named => isPlain_of_isTypeNameChar named)
    (fun _ named => by simp [isOutside, isSeparator_of_isTypeNameChar named])

theorem constructorWord_balanced (isAbstract : Bool) :
    Balanced arrows (isOutside breaks) (constructorWord isAbstract) := by
  have within : Within (fun c => isPlain c && !isSeparator c) (constructorWord isAbstract) := by
    cases isAbstract <;> decide
  refine .ofWithin within ?_ ?_
  · intro c both
    simp_all
  · intro c both
    simp_all [isOutside]

theorem Gap.blank {blanks : Text} (gap : Gap breaks blanks) : Blank blanks :=
  gap.mono fun c member => by simp_all [isGap]

theorem Gap.balanced {blanks : Text} (gap : Gap breaks blanks) :
    Balanced arrows (isOutside breaks) blanks := by
  refine .ofWithin gap ?_ ?_
  · intro c member
    exact isPlain_of_isBlank (by simp_all [isGap])
  · intro c member
    simp only [isGap, Bool.and_eq_true, Bool.or_eq_true, bne_iff_ne] at member
    have noSemicolon : c ≠ ';' := Text.ne_of_isBlank member.1 (by decide)
    have noComma : c ≠ ',' := Text.ne_of_isBlank member.1 (by decide)
    obtain allowed | noBreak := member.2
    · simp [isOutside, isSeparator, noSemicolon, noComma, allowed, Classical.em]
    · simp [isOutside, isSeparator, noSemicolon, noComma, noBreak]

theorem nested_blank {blanks : Text} (blank : Blank blanks) : Nested blanks :=
  .ofWithin blank (fun _ member => isPlain_of_isBlank member) (fun _ _ => rfl)

theorem IsTypeName.nested {name : Text} (isName : IsTypeName name) : Nested name :=
  (isName.balanced : Balanced true (isOutside true) name).nested

theorem Gap.nested {blanks : Text} (gap : Gap breaks blanks) : Nested blanks :=
  nested_blank gap.blank

theorem nested_padded {before text behind : Text} (first : Blank before) (nested : Nested text)
    (last : Blank behind) : Nested (before ++ text ++ behind) :=
  ((nested_blank first).append nested).append (nested_blank last)

theorem nested_constructorWord (isAbstract : Bool) : Nested (constructorWord isAbstract) :=
  (constructorWord_balanced isAbstract :
    Balanced true (isOutside true) (constructorWord isAbstract)).nested

theorem nested_arrow : Nested arrow := .arrow .nil

mutual

/-- The brackets of a written type match. -/
theorem TypeExpr.Written.nested {breaks : Bool} {level : Level} {type : TypeExpr} {text : Text}
    (written : type.Written breaks level text) : Nested text :=
  match written with
  | .name isName => isName.nested
  | .generic isName before arguments => by
    have inside := ArgumentList.nested arguments
    exact isName.nested.append (before.nested.append (.enclosed .angle inside))
  | .array element before inside => by
    have operand := TypeExpr.Written.nested element
    exact operand.append (before.nested.append (.enclosed .square (nested_blank inside)))
  | .parens before type behind => by
    have inside := TypeExpr.Written.nested type
    exact .enclosed .round (nested_padded before inside behind)
  | .literal members => .enclosed .curly (MemberList.nested members)
  | .union _ left before behind right => by
    have first := TypeExpr.Written.nested left
    have second := TypeExpr.Written.nested right
    exact first.append (before.nested.append (.char (by decide) rfl (behind.nested.append second)))
  | .function generics parameters before behind result => by
    have start := Generics.nested generics
    have inside := ParameterList.nested parameters
    have text := TypeExpr.Written.nested result
    exact (((start.append (.enclosed .round inside)).append before.nested).append
      nested_arrow).append (behind.nested.append text)
  | .constructor between parameters before behind result => by
    have inside := ParameterList.nested parameters
    have text := TypeExpr.Written.nested result
    exact (((((nested_constructorWord _).append between.nested).append
      (.enclosed .round inside)).append before.nested).append nested_arrow).append
      (behind.nested.append text)

theorem ArgumentList.nested {types : List TypeExpr} {text : Text} (list : ArgumentList types text) :
    Nested text :=
  match list with
  | .last before written behind => by
    have type := TypeExpr.Written.nested written
    exact nested_padded before type behind
  | .cons before written behind rest => by
    have type := TypeExpr.Written.nested written
    have more := ArgumentList.nested rest
    exact (nested_padded before type behind).append (.char (by decide) rfl more)

theorem Parameter.nested {parameter : Text × TypeExpr} {text : Text}
    (written : Parameter parameter text) : Nested text :=
  match written with
  | .intro before isName middle behind type after => by
    have inside := TypeExpr.Written.nested type
    exact (nested_padded before isName.nested middle).append
      (.char (by decide) rfl (nested_padded behind inside after))

theorem ParameterList.nested {parameters : List (Text × TypeExpr)} {text : Text}
    (list : ParameterList parameters text) : Nested text :=
  match list with
  | .nil blanks => nested_blank blanks
  | .last parameter => Parameter.nested parameter
  | .cons parameter rest => by
    have first := Parameter.nested parameter
    exact first.append (.char (by decide) rfl (ParameterList.nested rest))

theorem Generic.nested {generic : Text × Option TypeExpr} {text : Text}
    (written : Generic generic text) : Nested text :=
  match written with
  | .free before isName behind => nested_padded before isName.nested behind
  | .bounded before isName behind type after => by
    have inside := TypeExpr.Written.nested type
    have word : Nested " extends ".toList :=
      .ofWithin (show Within isPlain " extends ".toList by decide) (fun _ plain => plain)
        (fun _ _ => rfl)
    exact (((nested_blank before).append isName.nested).append word).append
      (nested_padded behind inside after)

theorem GenericList.nested {generics : List (Text × Option TypeExpr)} {text : Text}
    (list : GenericList generics text) : Nested text :=
  match list with
  | .last generic => Generic.nested generic
  | .cons generic rest => by
    have first := Generic.nested generic
    exact first.append (.char (by decide) rfl (GenericList.nested rest))

theorem Generics.nested {breaks : Bool} {generics : List (Text × Option TypeExpr)} {text : Text}
    (written : Generics breaks generics text) : Nested text :=
  match written with
  | .none => .nil
  | .some list blanks => by
    have inside := GenericList.nested list
    exact Balanced.append (.enclosed .angle inside) blanks.nested

theorem Member.Written.nested {breaks : Bool} {member : Member} {text : Text}
    (written : member.Written breaks text) : Nested text :=
  match written with
  | .property isName before behind type => by
    have inside := TypeExpr.Written.nested type
    exact ((isName.nested.append before.nested).append
      (.char (by decide) rfl behind.nested)).append inside
  | .method isName between parameters before behind result => by
    have inside := ParameterList.nested parameters
    have type := TypeExpr.Written.nested result
    exact ((((isName.nested.append between.nested).append
      (.enclosed .round inside)).append before.nested).append
      (.char (by decide) rfl behind.nested)).append type
  | .call generics parameters before behind result => by
    have start := Generics.nested generics
    have inside := ParameterList.nested parameters
    have type := TypeExpr.Written.nested result
    exact (((start.append (.enclosed .round inside)).append before.nested).append
      (.char (by decide) rfl behind.nested)).append type

theorem MemberList.nested {breaks : Bool} {members : List Member} {text : Text}
    (list : MemberList breaks members text) : Nested text :=
  match list with
  | .nil blanks => nested_blank blanks
  | .last before member behind => by
    have inside := Member.Written.nested member
    exact nested_padded before inside behind
  | .cons before member behind separates rest => by
    have inside := Member.Written.nested member
    have more := MemberList.nested rest
    exact (nested_padded before inside behind).append
      (.char (isPlain_of_isSeparator separates) rfl more)

end

/-! How a written type begins and ends. -/

def isCallOpener (c : Char) : Bool := c == '(' || c == '<'

/-- The text begins with ink, and says with it whether it may be a call signature. -/
def Starts (opens : Bool) (text : Text) : Prop :=
  ∃ c rest, text = c :: rest ∧ Text.isBlank c = false ∧ isCallOpener c = opens

theorem Starts.append {opens : Bool} {text : Text} (starts : Starts opens text) (rest : Text) :
    Starts opens (text ++ rest) := by
  obtain ⟨c, more, rfl, ink, same⟩ := starts
  exact ⟨c, more ++ rest, rfl, ink, same⟩

theorem Starts.begins {opens : Bool} {text : Text} (starts : Starts opens text) : BeginsInk text := by
  obtain ⟨c, rest, same, ink, -⟩ := starts
  exact ⟨c, rest, same, ink⟩

theorem IsTypeName.starts {name : Text} (isName : IsTypeName name) : Starts false name := by
  obtain ⟨c, rest, same, named⟩ := isName.exists_cons
  have noRound : c ≠ '(' := ne_of_isTypeNameChar named (by decide)
  have noAngle : c ≠ '<' := ne_of_isTypeNameChar named (by decide)
  exact ⟨c, rest, same, isBlank_of_isTypeNameChar named, by simp [isCallOpener, noRound, noAngle]⟩

theorem Generics.starts {generics : List (Text × Option TypeExpr)} {start : Text}
    (written : Generics breaks generics start) (rest : Text) : Starts true (start ++ '(' :: rest) := by
  cases written with
  | none => exact ⟨'(', _, rfl, by decide, by decide⟩
  | some => exact ⟨'<', _, rfl, by decide, by decide⟩

theorem starts_constructorWord (isAbstract : Bool) : Starts false (constructorWord isAbstract) := by
  cases isAbstract with
  | false => exact ⟨'n', _, rfl, by decide, by decide⟩
  | true => exact ⟨'a', _, rfl, by decide, by decide⟩

theorem TypeExpr.Written.starts {level : Level} {type : TypeExpr} {text : Text}
    (written : type.Written breaks level text) : Starts type.opens text :=
  match written with
  | .name isName => isName.starts
  | .generic isName _ _ => isName.starts.append _
  | .array element _ _ => (TypeExpr.Written.starts element).append _
  | .parens _ _ _ => ⟨'(', _, rfl, by decide, rfl⟩
  | .literal _ => ⟨'{', _, rfl, by decide, rfl⟩
  | .union _ left _ _ _ => (TypeExpr.Written.starts left).append _
  | .function generics _ _ _ _ => (((generics.starts _).append _).append _).append _
  | .constructor _ _ _ _ _ =>
    (((((starts_constructorWord _).append _).append _).append _).append _).append _

theorem endsInk_closer {opener closer : Char} (first : Char) (inside : Text)
    (pair : Pair opener closer) : EndsInk (first :: (inside ++ [closer])) :=
  ⟨first :: inside, closer, rfl, by cases pair <;> decide⟩

theorem TypeExpr.Written.ends {level : Level} {type : TypeExpr} {text : Text}
    (written : type.Written breaks level text) : EndsInk text :=
  match written with
  | .name isName => isName.ends
  | .generic _ _ _ => ((endsInk_closer _ _ .angle).append _).append _
  | .array _ _ _ => ((endsInk_closer _ _ .square).append _).append _
  | .parens _ _ _ => endsInk_closer _ _ .round
  | .literal _ => endsInk_closer _ _ .curly
  | .union _ _ _ _ right => by
    have last := TypeExpr.Written.ends right
    exact (((last.append _).append ['|']).append _).append _
  | .function _ _ _ _ result => by
    have last := TypeExpr.Written.ends result
    exact (last.append _).append _
  | .constructor _ _ _ _ result => by
    have last := TypeExpr.Written.ends result
    exact (last.append _).append _

/-! Arrows outside brackets. -/

theorem TypeExpr.Written.isArrow_of_level {level : Level} {type : TypeExpr} {text : Text}
    (written : type.Written breaks level text) (inner : level ≠ .whole) : type.isArrow = false := by
  cases written with
  | function => exact absurd rfl inner
  | constructor => exact absurd rfl inner
  | _ => rfl

theorem Generics.balanced {generics : List (Text × Option TypeExpr)} {text : Text}
    (written : Generics breaks generics text) : Balanced false (isOutside breaks) text := by
  cases written with
  | none => exact .nil
  | some list blanks => exact Balanced.append (.enclosed .angle list.nested) blanks.balanced

theorem Generics.balanced_signature {generics : List (Text × Option TypeExpr)}
    {parameters : List (Text × TypeExpr)} {start inside before : Text}
    (written : Generics breaks generics start) (list : ParameterList parameters inside)
    (between : Gap breaks before) :
    Balanced false (isOutside breaks) (start ++ '(' :: (inside ++ [')']) ++ before) :=
  (written.balanced.append (.enclosed .round list.nested)).append between.balanced

theorem ParameterList.balanced_constructor (isAbstract : Bool)
    {parameters : List (Text × TypeExpr)} {between inside before : Text}
    (spaced : Gap breaks between) (list : ParameterList parameters inside)
    (behind : Gap breaks before) : Balanced false (isOutside breaks)
      (constructorWord isAbstract ++ between ++ '(' :: (inside ++ [')']) ++ before) :=
  (((constructorWord_balanced isAbstract).append spaced.balanced).append
    (.enclosed .round list.nested)).append behind.balanced

/-- A type that is no function or constructor type has no arrow outside its brackets. -/
theorem TypeExpr.Written.balanced {level : Level} {type : TypeExpr} {text : Text}
    (written : type.Written breaks level text) (flat : type.isArrow = false) :
    Balanced false (isOutside breaks) text := by
  cases written with
  | name isName => exact isName.balanced
  | generic isName before arguments =>
    exact isName.balanced.append (before.balanced.append (.enclosed .angle arguments.nested))
  | array element before inside =>
    have operand := TypeExpr.Written.balanced element (element.isArrow_of_level (by simp))
    exact operand.append (before.balanced.append (.enclosed .square (nested_blank inside)))
  | parens before type behind => exact .enclosed .round (nested_padded before type.nested behind)
  | literal members => exact .enclosed .curly members.nested
  | union _ left before behind right =>
    have first := TypeExpr.Written.balanced left (left.isArrow_of_level (by simp))
    have second := TypeExpr.Written.balanced right (right.isArrow_of_level (by simp))
    exact first.append (before.balanced.append
      (.char (by decide) (by simp [isOutside, isSeparator]) (behind.balanced.append second)))
  | function => cases flat
  | constructor => cases flat
termination_by sizeOf type

end OptionsApi.TypeText
