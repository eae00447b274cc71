import OptionsApi.Proofs.TypeText.FunctionTypes

/-! Type literals are told callable by the beginnings of their pieces. The members are cut apart at
the arrows of their types too, so the result of a function type is looked at like a member: a literal
without a call signature is taken for callable as soon as one result begins with a bracket. -/

set_option autoImplicit false

namespace OptionsApi.TypeText

open Text (Blank BeginsInk EndsInk)

/-- Whether behind an arrow outside brackets the text begins with a round or an angle bracket. -/
def TypeExpr.opensBehindArrow : TypeExpr → Bool
  | .function _ _ result | .constructor _ _ result => result.opens || result.opensBehindArrow
  | .name _ | .generic .. | .array _ | .parens _ | .union .. | .literal _ => false

theorem TypeExpr.opensBehindArrow_of_flat {type : TypeExpr} (flat : type.isArrow = false) :
    type.opensBehindArrow = false := by
  cases type <;> first | rfl | cases flat

/-! Pieces that look like call signatures. -/

def Shows (opens : Bool) (text : Text) : Prop :=
  ∃ blanks body, Blank blanks ∧ Starts opens body ∧ text = blanks ++ body

theorem Shows.append {opens : Bool} {text : Text} (shows : Shows opens text) (rest : Text) :
    Shows opens (text ++ rest) := by
  obtain ⟨blanks, body, blank, starts, rfl⟩ := shows
  exact ⟨blanks, body ++ rest, blank, starts.append rest, List.append_assoc _ _ _⟩

theorem isCallSignature_blank_append {blanks : Text} (blank : Blank blanks) (text : Text) :
    isCallSignature (blanks ++ text) = isCallSignature text := by
  rw [isCallSignature, isCallSignature, Text.trim_append_of_blank blank]

theorem Shows.isCallSignature_eq {opens : Bool} {text : Text} (shows : Shows opens text) :
    isCallSignature text = opens := by
  obtain ⟨blanks, body, blank, ⟨c, more, rfl, ink, rfl⟩, rfl⟩ := shows
  have first : Text.trimStart (c :: more) = c :: more := Text.trimStart_of_begins ⟨c, more, rfl, ink⟩
  rw [isCallSignature_blank_append blank, isCallSignature, Text.trim, first,
    Text.trimEnd_cons_of_ink ink]
  rfl

theorem any_chunks (text : Text) :
    (chunks 0 text).any isCallSignature = (pieces 0 0 text).any isCallSignature := by
  -- Only blank pieces are left out, and no blank piece looks like a call signature.
  have blank (piece : Text) (called : isCallSignature piece = true) :
      Text.isBlankText piece = false := by
    cases all : Text.isBlankText piece with
    | false => rfl
    | true =>
      have trimmed : Text.trim piece = [] := Text.trim_of_blank (List.all_eq_true.mp all)
      simp [isCallSignature, trimmed] at called
  rw [Bool.eq_iff_iff]
  simp only [chunks, List.any_eq_true, List.mem_filter]
  constructor
  · rintro ⟨piece, ⟨member, -⟩, called⟩
    exact ⟨piece, member, called⟩
  · rintro ⟨piece, member, called⟩
    exact ⟨piece, ⟨member, by simp [blank piece called]⟩, called⟩

def Quiet (text : Text) : Prop :=
  ∀ piece ∈ (pieces 0 0 text).head?, isCallSignature piece = false

theorem quiet_nil : Quiet [] := by
  rintro piece ⟨⟩
  rfl

theorem pieces_separator {c : Char} (separates : isSeparator c = true) (rest : Text) :
    pieces 0 0 (c :: rest) = [] :: pieces 0 0 rest := by
  rw [pieces_plain (isPlain_of_isSeparator separates), separates]
  rfl

theorem quiet_separator {c : Char} (separates : isSeparator c = true) (rest : Text) :
    Quiet (c :: rest) := by
  rw [Quiet, pieces_separator separates]
  rintro piece ⟨⟩
  rfl

theorem quiet_arrow (rest : Text) : Quiet (arrow ++ rest) := by
  rintro piece ⟨⟩
  rfl

theorem any_pieces_separator {c : Char} (separates : isSeparator c = true) (rest : Text) :
    (pieces 0 0 (c :: rest)).any isCallSignature = (pieces 0 0 rest).any isCallSignature := by
  rw [pieces_separator separates]
  rfl

theorem any_pieces_arrow (rest : Text) :
    (pieces 0 0 (arrow ++ rest)).any isCallSignature = (pieces 0 0 rest).any isCallSignature := rfl

theorem any_pieces_append {opens : Bool} {start rest : Text}
    (balanced : Balanced false (isOutside false) start) (shows : Shows opens start)
    (quiet : Quiet rest) :
    (pieces 0 0 (start ++ rest)).any isCallSignature =
      (opens || (pieces 0 0 rest).any isCallSignature) := by
  have uncut := pieces_balanced balanced (Int.le_refl 0)
    (fun _ => ⟨rfl, fun c member => by simpa [isOutside] using member⟩) rest
  rw [uncut]
  cases cut : pieces 0 0 rest with
  | nil => exact absurd cut (pieces_ne_nil 0 0 rest)
  | cons first others =>
    have silent : isCallSignature first = false := quiet first (by simp [cut])
    simp [extendFirst, (shows.append first).isCallSignature_eq, silent]

theorem any_pieces_signature {opens : Bool} {lead signature : Text}
    (balanced : Balanced false (isOutside false) (lead ++ signature))
    (shows : Shows opens (lead ++ signature)) (result rest : Text) :
    (pieces 0 0 (lead ++ (signature ++ arrow ++ result) ++ rest)).any isCallSignature =
      (opens || (pieces 0 0 (result ++ rest)).any isCallSignature) := by
  have split := any_pieces_append balanced shows (quiet_arrow (result ++ rest))
  rw [any_pieces_arrow] at split
  simpa using split

theorem pieces_blank_cons {c : Char} (blank : Text.isBlank c = true) (rest : Text) :
    (Quiet rest → Quiet (c :: rest)) ∧
      (pieces 0 0 (c :: rest)).any isCallSignature = (pieces 0 0 rest).any isCallSignature := by
  have single : Blank [c] := Text.Within.cons blank .nil
  unfold Quiet
  rw [pieces_plain (isPlain_of_isBlank blank)]
  split
  · exact ⟨fun _ => by rintro piece ⟨⟩; rfl, rfl⟩
  · cases cut : pieces 0 0 rest with
    | nil => exact absurd cut (pieces_ne_nil 0 0 rest)
    | cons first others =>
      have same := isCallSignature_blank_append single first
      rw [List.singleton_append] at same
      simp [extendFirst, same]

theorem Quiet.blank_append {blanks rest : Text} (blank : Blank blanks) (quiet : Quiet rest) :
    Quiet (blanks ++ rest) := by
  induction blanks with
  | nil => exact quiet
  | cons c blanks ih =>
    exact (pieces_blank_cons (blank c List.mem_cons_self) _).1 (ih blank.tail)

theorem any_pieces_blank_append {blanks : Text} (blank : Blank blanks) (rest : Text) :
    (pieces 0 0 (blanks ++ rest)).any isCallSignature = (pieces 0 0 rest).any isCallSignature := by
  induction blanks with
  | nil => rfl
  | cons c blanks ih =>
    rw [List.cons_append, (pieces_blank_cons (blank c List.mem_cons_self) _).2, ih blank.tail]

theorem any_pieces_blank {blanks : Text} (blank : Blank blanks) :
    (pieces 0 0 blanks).any isCallSignature = false := by
  have same := any_pieces_blank_append blank []
  rw [List.append_nil] at same
  exact same

theorem quiet_blank {blanks : Text} (blank : Blank blanks) : Quiet blanks := by
  have quiet := Quiet.blank_append blank quiet_nil
  rw [List.append_nil] at quiet
  exact quiet

/-! Members. -/

/-- The pieces of a type behind what leads to it. The first one shows what the lead shows, or what
the type shows where the lead is blank; each of the others begins with a result. -/
theorem TypeExpr.Written.any_pieces {opens : Bool} {type : TypeExpr} {text lead rest : Text}
    (written : type.Written false .whole text) (led : Balanced false (isOutside false) lead)
    (shows : ∀ {start}, Starts type.opens start → Shows opens (lead ++ start)) (quiet : Quiet rest) :
    (pieces 0 0 (lead ++ text ++ rest)).any isCallSignature =
      (opens || type.opensBehindArrow || (pieces 0 0 rest).any isCallSignature) := by
  cases flat : type.isArrow with
  | false =>
    rw [any_pieces_append (led.append (written.balanced flat)) (shows written.starts) quiet,
      TypeExpr.opensBehindArrow_of_flat flat, Bool.or_false]
  | true =>
    cases written with
    | function generics parameters before behind result =>
      have signature := generics.balanced_signature parameters before
      -- Nothing but a gap leads to the result, which so shows itself.
      have later := TypeExpr.Written.any_pieces result behind.balanced
        (fun starts => ⟨_, _, behind.blank, starts, rfl⟩) quiet
      rw [any_pieces_signature (led.append signature) (shows ((generics.starts _).append _)), later]
      simp [TypeExpr.opensBehindArrow, Bool.or_assoc]
    | @constructor _ isAbstract _ _ _ _ _ _ _ between parameters before behind result =>
      have signature := ParameterList.balanced_constructor isAbstract between parameters before
      have later := TypeExpr.Written.any_pieces result behind.balanced
        (fun starts => ⟨_, _, behind.blank, starts, rfl⟩) quiet
      rw [any_pieces_signature (led.append signature)
        (shows ((((starts_constructorWord isAbstract).append _).append _).append _)), later]
      simp [TypeExpr.opensBehindArrow, Bool.or_assoc]
    | _ => cases flat
termination_by sizeOf type

theorem Gap.balanced_colon {breaks : Bool} {behind : Text} (gap : Gap breaks behind) :
    Balanced false (isOutside breaks) (':' :: behind) :=
  .char (by decide) (by simp [isOutside, isSeparator]) gap.balanced

theorem Starts.shows {opens : Bool} {lead : Text} (starts : Starts opens lead) (start : Text) :
    Shows opens (lead ++ start) :=
  ⟨[], lead ++ start, .nil, starts.append start, rfl⟩

theorem Member.Written.any_pieces {member : Member} {text rest : Text}
    (written : member.Written false text) (quiet : Quiet rest) :
    (pieces 0 0 (text ++ rest)).any isCallSignature =
      (member.isCall || member.type.opensBehindArrow || (pieces 0 0 rest).any isCallSignature) := by
  cases written with
  | property isName before behind type =>
    have lead := (isName.balanced.append before.balanced).append behind.balanced_colon
    exact type.any_pieces lead (fun _ => ((isName.starts.append _).append _).shows _) quiet
  | method isName between parameters before behind result =>
    have lead := (((isName.balanced.append between.balanced).append
      (.enclosed .round parameters.nested)).append before.balanced).append behind.balanced_colon
    exact result.any_pieces lead
      (fun _ => ((((isName.starts.append _).append _).append _).append _).shows _) quiet
  | call generics parameters before behind result =>
    have lead := (generics.balanced_signature parameters before).append behind.balanced_colon
    exact result.any_pieces lead (fun _ => (((generics.starts _).append _).append _).shows _) quiet

/-- The pieces of a member list that look like call signatures are the call signatures and the
results that begin with a bracket. -/
theorem MemberList.any_pieces {members : List Member} {text : Text}
    (list : MemberList false members text) : (pieces 0 0 text).any isCallSignature =
      members.any fun member => member.isCall || member.type.opensBehindArrow :=
  match list with
  | .nil blank => any_pieces_blank blank
  | .last before member behind => by
    rw [List.append_assoc, any_pieces_blank_append before, member.any_pieces (quiet_blank behind),
      any_pieces_blank behind]
    simp
  | .cons before member behind separates rest => by
    have later := MemberList.any_pieces rest
    rw [List.append_assoc, List.append_assoc, any_pieces_blank_append before,
      member.any_pieces (Quiet.blank_append behind (quiet_separator separates _)),
      any_pieces_blank_append behind, any_pieces_separator separates, later]
    simp

theorem MemberList.isCallable_eq {members : List Member} {inside before behind : Text}
    (list : MemberList false members inside) (first : Blank before) (last : Blank behind) :
    isCallable (before ++ '{' :: (inside ++ ['}']) ++ behind) =
      members.any fun member => member.isCall || member.type.opensBehindArrow := by
  have stripped : stripParens (before ++ '{' :: (inside ++ ['}']) ++ behind) =
      '{' :: (inside ++ ['}']) :=
    stripParens_of_not_parenthesized first last ⟨_, _, rfl, by decide⟩ (endsInk_closer _ _ .curly)
      (by simp [isParenthesized])
  have noArrow : (chunks 0 ('{' :: (inside ++ ['}']))).contains arrow = false := by
    have braces : Balanced false (isOutside true) ('{' :: (inside ++ ['}'])) :=
      .enclosed .curly list.nested
    rw [Bool.eq_false_iff, Ne, contains_arrow_iff]
    exact arrow_not_mem_pieces braces 0
  have noWord : isConstructorType ('{' :: (inside ++ ['}'])) = false := rfl
  have literal : isTypeLiteral ('{' :: (inside ++ ['}'])) = true := by
    simp [isTypeLiteral, List.getLast?_cons]
  have within : inner ('{' :: (inside ++ ['}'])) = inside := by simp [inner]
  simp only [isCallable, stripped, noWord, noArrow, literal, within, Bool.true_and, any_chunks,
    list.any_pieces]
  simp

end OptionsApi.TypeText

namespace OptionsApi

open TypeText

theorem DeclaredType.shape_eq_function_iff (declared : DeclaredType) :
    declared.shape = .function ↔ declared.isCallable = true := by
  rw [DeclaredType.shape]
  split
  next callable => simp [callable]
  next other => split <;> simp [other]

/-- Where the number of call signatures is not known, a type literal is callable, and a function at
run time, exactly when one of its members is a call signature or has a type in which a round or an
angle bracket follows an arrow outside brackets. -/
theorem DeclaredType.literal_isCallable_iff {members : List Member} {inside before behind : Text}
    (list : MemberList false members inside) (first : Text.Blank before)
    (last : Text.Blank behind) :
    let declared : DeclaredType := ⟨before ++ '{' :: (inside ++ ['}']) ++ behind, none⟩
    (declared.isCallable = true ↔
        ∃ member ∈ members, member.isCall = true ∨ member.type.opensBehindArrow = true) ∧
      (declared.shape = .function ↔
        ∃ member ∈ members, member.isCall = true ∨ member.type.opensBehindArrow = true) := by
  intro declared
  have callable : declared.isCallable =
      members.any fun member => member.isCall || member.type.opensBehindArrow :=
    list.isCallable_eq first last
  rw [DeclaredType.shape_eq_function_iff, callable]
  simp

def handlerMembers : List Member :=
  [.method ['r', 'u', 'n'] [(['f'], .function [] [] (.parens (.name ['A'])))]
      (.literal [.call [] [] (.name ['A'])]),
    .property ['g'] (.array (.parens (.function [] [] (.parens (.name ['A'])))))]

theorem handlerMembers_written :
    MemberList false handlerMembers "\n  run(f: () => (A)): \x7b (): A \x7d,\n  g: (() => (A))[]\n" := by
  have name {breaks : Bool} {level : Level} : (TypeExpr.name ['A']).Written breaks level ['A'] :=
    .name (by decide)
  have thunk : (TypeExpr.function [] [] (.parens (.name ['A']))).Written true .whole _ :=
    @TypeExpr.Written.function _ _ _ _ [] [] [' '] [' '] _ .none (.nil (by decide)) (by decide)
      (by decide) (@TypeExpr.Written.parens _ _ _ [] _ [] (by decide) name (by decide))
  have nested : (TypeExpr.literal [.call [] [] (.name ['A'])]).Written false .whole _ :=
    .literal (@MemberList.last _ _ [' '] _ [' '] (by decide)
      (@Member.Written.call _ _ _ _ [] [] [] [' '] _ .none (.nil (by decide)) (by decide) (by decide)
        name) (by decide))
  have run := @Member.Written.method false ['r', 'u', 'n'] [] _ [] [' '] _ _ _ (by decide) (by decide)
    (.last (@Parameter.intro ['f'] [] [] [' '] _ [] _ (by decide) (by decide) (by decide) (by decide)
      thunk (by decide))) (by decide) (by decide) nested
  have list := @Member.Written.property false ['g'] [] [' '] _ _ (by decide) (by decide) (by decide)
    (@TypeExpr.Written.array _ _ _ _ [] []
      (@TypeExpr.Written.parens _ _ _ [] _ [] (by decide) thunk (by decide)) (by decide) (by decide))
  exact @MemberList.cons _ _ _ ['\n', ' ', ' '] _ [] _ ',' (by decide) run (by decide) rfl
    (@MemberList.cons _ _ _ ['\n', ' ', ' '] _ [] [] '\n' (by decide) list (by decide) rfl
      (.nil (by decide)))

theorem handlerMembers_shape : DeclaredType.shape
    ⟨"\x7b\n  run(f: () => (A)): \x7b (): A \x7d,\n  g: (() => (A))[]\n\x7d", none⟩ ≠ .function := by
  have function := (@DeclaredType.literal_isCallable_iff _ _ [] [] handlerMembers_written (by decide)
    (by decide)).2
  intro called
  have found := function.mp called
  simp [handlerMembers, Member.isCall, Member.type, TypeExpr.opensBehindArrow] at found

/-- A property that holds a curried function makes its literal a function, without any call
signature. -/
theorem curriedProperty_shape :
    MemberList false [.property ['f'] (.function [] [] (.function [] [] (.name ['A'])))]
        " f: () => () => A " ∧
      DeclaredType.shape ⟨"\x7b f: () => () => A \x7d", none⟩ = .function := by
  constructor
  · have thunk := @TypeExpr.Written.function false _ _ _ [] [] [' '] [' '] _ .none (.nil (by decide))
      (by decide) (by decide) (.name (show IsTypeName ['A'] by decide))
    have curried := @TypeExpr.Written.function false _ _ _ [] [] [' '] [' '] _ .none
      (.nil (by decide)) (by decide) (by decide) thunk
    exact @MemberList.last _ _ [' '] _ [' '] (by decide)
      (@Member.Written.property _ ['f'] [] [' '] _ _ (by decide) (by decide) (by decide) curried)
      (by decide)
  · have bare : stripParens "\x7b f: () => () => A \x7d" = "\x7b f: () => () => A \x7d" := by
      rw [stripParens_eq, if_neg (by decide)]
      decide
    rw [DeclaredType.shape_eq_function_iff, DeclaredType.isCallable, isCallable, bare]
    decide

end OptionsApi
