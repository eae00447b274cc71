import OptionsApi.Proofs.Text.Lines

/-! Casts inside printed expressions. An expression is printed with the parentheses precedence asks
for and no others, so the text of a cast put behind it is the cast of the whole only if nothing in it
binds more loosely than a cast; otherwise it is the text of an expression in which the last operand
alone is cast. -/

set_option autoImplicit false

namespace OptionsApi

inductive Expression where
  /-- A name or a literal. -/
  | atom (text : Text)
  | call (callee : Expression) (arguments : List Expression)
  | conditional (test yes no : Expression)
  | arrow (parameters : Text) (body : Expression)
  | either (left right : Expression)
  | both (left right : Expression)
  | cast (operand : Expression) (type : Text)

namespace Expression

def level : Expression → Nat
  | .conditional .. | .arrow .. => 0
  | .either .. => 1
  | .both .. => 2
  | .cast .. => 3
  | .call .. | .atom .. => 4

def isTight (expression : Expression) : Bool := 3 ≤ expression.level

def enclose (level demanded : Nat) (text : Text) : Text :=
  if level < demanded then '(' :: text ++ [')'] else text

def castEnding (type : Text) : Text := [' ', 'a', 's', ' '] ++ type

mutual

/-- The text of an expression. An operand is parenthesised exactly if it binds more loosely than its
place allows; the operators of two operands group to the left. -/
def print : Expression → Text
  | .atom text => text
  | .call callee arguments =>
    enclose callee.level 4 callee.print ++ ['('] ++ Text.join [',', ' '] (texts arguments) ++ [')']
  | .conditional test yes no =>
    enclose test.level 1 test.print ++ [' ', '?', ' '] ++ yes.print ++ [' ', ':', ' '] ++ no.print
  | .arrow parameters body => ['('] ++ parameters ++ [')', ' ', '=', '>', ' '] ++ body.print
  | .either left right =>
    enclose left.level 1 left.print ++ [' ', '|', '|', ' '] ++
      enclose right.level 2 right.print
  | .both left right =>
    enclose left.level 2 left.print ++ [' ', '&', '&', ' '] ++
      enclose right.level 3 right.print
  | .cast operand type => enclose operand.level 3 operand.print ++ castEnding type

def texts : List Expression → List Text
  | [] => []
  | first :: rest => first.print :: texts rest

end

mutual

def castFree : Expression → Bool
  | .atom _ => true
  | .call callee arguments => callee.castFree && allCastFree arguments
  | .conditional test yes no => test.castFree && yes.castFree && no.castFree
  | .arrow _ body => body.castFree
  | .either left right | .both left right => left.castFree && right.castFree
  | .cast _ _ => false

def allCastFree : List Expression → Bool
  | [] => true
  | first :: rest => first.castFree && allCastFree rest

end

/-! Operands and their places. -/

/-- An expression with one operand left out. -/
inductive Frame where
  | callee (arguments : List Expression)
  | argument (function : Expression) (earlier later : List Expression)
  | test (yes no : Expression)
  | thenBranch (condition no : Expression)
  | elseBranch (condition yes : Expression)
  | body (parameters : Text)
  | eitherLeft (right : Expression)
  | eitherRight (left : Expression)
  | bothLeft (right : Expression)
  | bothRight (left : Expression)

namespace Frame

def fill : Frame → Expression → Expression
  | .callee arguments, part => .call part arguments
  | .argument function earlier later, part => .call function (earlier ++ part :: later)
  | .test yes no, part => .conditional part yes no
  | .thenBranch condition no, part => .conditional condition part no
  | .elseBranch condition yes, part => .conditional condition yes part
  | .body parameters, part => .arrow parameters part
  | .eitherLeft right, part => .either part right
  | .eitherRight left, part => .either left part
  | .bothLeft right, part => .both part right
  | .bothRight left, part => .both left part

def demands : Frame → Nat
  | .argument .. | .thenBranch .. | .elseBranch .. | .body .. => 0
  | .test .. | .eitherLeft .. => 1
  | .eitherRight .. | .bothLeft .. => 2
  | .bothRight .. => 3
  | .callee .. => 4

def before : Frame → Text
  | .callee _ | .test _ _ | .eitherLeft _ | .bothLeft _ => []
  | .argument function earlier _ =>
    enclose function.level 4 function.print ++ ['('] ++
      (texts earlier).flatMap (· ++ [',', ' '])
  | .thenBranch condition _ => enclose condition.level 1 condition.print ++ [' ', '?', ' ']
  | .elseBranch condition yes =>
    enclose condition.level 1 condition.print ++ [' ', '?', ' '] ++ yes.print ++ [' ', ':', ' ']
  | .body parameters => ['('] ++ parameters ++ [')', ' ', '=', '>', ' ']
  | .eitherRight left => enclose left.level 1 left.print ++ [' ', '|', '|', ' ']
  | .bothRight left => enclose left.level 2 left.print ++ [' ', '&', '&', ' ']

def behind : Frame → Text
  | .callee arguments => ['('] ++ Text.join [',', ' '] (texts arguments) ++ [')']
  | .argument _ _ later => (texts later).flatMap ([',', ' '] ++ ·) ++ [')']
  | .test yes no => [' ', '?', ' '] ++ yes.print ++ [' ', ':', ' '] ++ no.print
  | .thenBranch _ no => [' ', ':', ' '] ++ no.print
  | .eitherLeft right => [' ', '|', '|', ' '] ++ enclose right.level 2 right.print
  | .bothLeft right => [' ', '&', '&', ' '] ++ enclose right.level 3 right.print
  | .elseBranch _ _ | .body _ | .eitherRight _ | .bothRight _ => []

end Frame

theorem texts_append (left right : List Expression) :
    texts (left ++ right) = texts left ++ texts right := by
  induction left with
  | nil => rfl
  | cons first rest ih => simp only [List.cons_append, texts, ih]

theorem join_append_cons (separator middle : Text) (left right : List Text) :
    Text.join separator (left ++ middle :: right) =
      left.flatMap (· ++ separator) ++ middle ++ right.flatMap (separator ++ ·) := by
  induction left with
  | nil =>
    induction right generalizing middle with
    | nil => simp
    | cons first rest ih =>
      have later := ih first
      rw [List.nil_append] at later ⊢
      rw [Text.join_cons_cons, later]
      simp
  | cons first rest ih =>
    obtain ⟨second, others, same⟩ : ∃ second others, rest ++ middle :: right = second :: others :=
      List.exists_cons_of_ne_nil (by simp)
    rw [List.cons_append, same, Text.join_cons_cons, ← same, ih]
    simp

theorem enclose_of_lt {level demanded : Nat} (loose : level < demanded) (text : Text) :
    enclose level demanded text = '(' :: text ++ [')'] :=
  if_pos loose

theorem enclose_of_le {level demanded : Nat} (tight : demanded ≤ level) (text : Text) :
    enclose level demanded text = text :=
  if_neg (Nat.not_lt.mpr tight)

theorem enclose_zero (level : Nat) (text : Text) : enclose level 0 text = text :=
  enclose_of_le (Nat.zero_le level) text

/-- The text of an expression is that of an operand between the texts around it. -/
theorem print_fill (frame : Frame) (part : Expression) :
    (frame.fill part).print =
      frame.before ++ enclose part.level frame.demands part.print ++ frame.behind := by
  cases frame with
  | argument function earlier later =>
    simp [Frame.fill, Frame.before, Frame.behind, Frame.demands, print, texts_append, texts,
      join_append_cons, enclose_zero]
  | _ => simp [Frame.fill, Frame.before, Frame.behind, Frame.demands, print, enclose_zero]

theorem level_fill (frame : Frame) (part other : Expression) :
    (frame.fill part).level = (frame.fill other).level := by
  cases frame <;> rfl

theorem castFree_of_fill {frame : Frame} {part : Expression}
    (free : (frame.fill part).castFree = true) : part.castFree = true := by
  have among {before behind : List Expression}
      (all : allCastFree (before ++ part :: behind) = true) : part.castFree = true := by
    induction before with
    | nil => simp_all [allCastFree]
    | cons first rest ih =>
      simp only [List.cons_append, allCastFree, Bool.and_eq_true] at all
      exact ih all.2
  cases frame with
  | argument function earlier later =>
    simp only [Frame.fill, castFree, Bool.and_eq_true] at free
    exact among free.2
  | _ => simp_all [Frame.fill, castFree]

/-! Operands of operands. -/

def fillAll (frames : List Frame) (part : Expression) : Expression := frames.foldr Frame.fill part

theorem castFree_of_fillAll {frames : List Frame} {part : Expression}
    (free : (fillAll frames part).castFree = true) : part.castFree = true := by
  induction frames with
  | nil => exact free
  | cons frame rest ih => exact ih (castFree_of_fill free)

/-- What follows an operand cannot be taken for the text of a cast. -/
def Breaks (behind : Text) : Prop := behind = [] ∨ ∀ rest, ¬ [' ', 'a'] <+: behind ++ rest

theorem Breaks.of_cons {c : Char} (other : c ≠ ' ') (rest : Text) : Breaks (c :: rest) := by
  refine .inr fun more begins => ?_
  exact other (List.cons_prefix_cons.mp begins).1.symm

theorem Breaks.of_space {c : Char} (other : c ≠ 'a') (rest : Text) : Breaks (' ' :: c :: rest) := by
  refine .inr fun more begins => ?_
  exact other (List.cons_prefix_cons.mp (List.cons_prefix_cons.mp begins).2).1.symm

theorem Breaks.append {left right : Text} (first : Breaks left) (second : Breaks right) :
    Breaks (left ++ right) := by
  rcases first with rfl | other
  · exact second
  · refine .inr fun rest => ?_
    rw [List.append_assoc]
    exact other _

theorem Frame.breaks_behind (frame : Frame) : Breaks frame.behind := by
  cases frame with
  | callee => exact .of_cons (by decide) _
  | argument function earlier later =>
    cases later with
    | nil => exact .of_cons (by decide) _
    | cons first rest => exact .of_cons (by decide) _
  | test => exact .of_space (by decide) _
  | thenBranch => exact .of_space (by decide) _
  | eitherLeft => exact .of_space (by decide) _
  | bothLeft => exact .of_space (by decide) _
  | elseBranch | body | eitherRight | bothRight => exact .inl rfl

theorem Frame.demands_le (frame : Frame) : frame.demands ≤ 4 := by
  cases frame <;> simp [Frame.demands]

theorem exists_print_fillAll (frame : Frame) (frames : List Frame) :
    ∃ before behind demands, frame.behind <:+ behind ∧ Breaks behind ∧ demands ≤ 4 ∧ ∀ part,
      (fillAll (frame :: frames) part).print =
        before ++ enclose part.level demands part.print ++ behind := by
  induction frames generalizing frame with
  | nil =>
    exact ⟨_, _, _, List.suffix_rfl, frame.breaks_behind, frame.demands_le, print_fill frame⟩
  | cons inner rest ih =>
    obtain ⟨before, behind, demands, _, breaks, bound, printed⟩ := ih inner
    have outer (part : Expression) : (fillAll (frame :: inner :: rest) part).print =
        frame.before ++ enclose (fillAll (inner :: rest) part).level frame.demands
          (fillAll (inner :: rest) part).print ++ frame.behind :=
      print_fill frame _
    -- The parentheses around the inner expression depend on its outermost operator only.
    have same (part : Expression) :
        (fillAll (inner :: rest) part).level = (inner.fill (.atom [])).level :=
      level_fill inner _ _
    by_cases loose : (inner.fill (.atom [])).level < frame.demands
    · refine ⟨frame.before ++ '(' :: before, behind ++ ')' :: frame.behind, demands,
        ⟨behind ++ [')'], by simp⟩, breaks.append (.of_cons (by decide) _), bound, fun part => ?_⟩
      rw [outer, same, printed]
      simp [enclose, loose]
    · refine ⟨frame.before ++ before, behind ++ frame.behind, demands, ⟨behind, rfl⟩,
        breaks.append frame.breaks_behind, bound, fun part => ?_⟩
      rw [outer, same, printed]
      simp [enclose, loose]

/-! Casts of the whole and of a part. -/

/-- The second expression is the first with a proper part of it cast. -/
def CastsPart (type : Text) (expression other : Expression) : Prop :=
  ∃ frames part, frames ≠ [] ∧ fillAll frames part = expression ∧
    fillAll frames (.cast part type) = other

section
variable {type : Text} {expression other : Expression}

theorem print_cast_iff :
    (Expression.cast expression type).print = expression.print ++ castEnding type ↔
      expression.isTight = true := by
  rw [print, List.append_left_inj, isTight, decide_eq_true_iff]
  constructor
  · intro same
    rcases Nat.lt_or_ge expression.level 3 with loose | tight
    · rw [enclose_of_lt loose] at same
      have length := congrArg List.length same
      simp at length
      omega
    · exact tight
  · exact fun tight => enclose_of_le tight _

theorem castEnding_append_ne {behind : Text} (breaks : Breaks behind) (nonempty : behind ≠ []) :
    castEnding type ++ behind ≠ behind ++ castEnding type := by
  intro same
  exact breaks.resolve_left nonempty (castEnding type) (same ▸ ⟨['s', ' '] ++ type ++ behind, rfl⟩)

theorem behind_ne_nil_of_isTight {frame : Frame} {part : Expression}
    (tight : (frame.fill part).isTight = true) : frame.behind ≠ [] := by
  cases frame with
  | callee | argument => simp [Frame.behind]
  | _ => simp [isTight, Frame.fill, level] at tight

theorem enclose_cast_eq {part : Expression} {demands : Nat} {behind : Text} (bound : demands ≤ 4)
    (uncast : part.level ≠ 3)
    (same : enclose 3 demands (enclose part.level 3 part.print ++ castEnding type) ++ behind =
      enclose part.level demands part.print ++ behind ++ castEnding type) :
    castEnding type ++ behind = behind ++ castEnding type := by
  -- A difference in the parentheses would make one of the texts longer.
  have length := congrArg List.length same
  rcases Nat.lt_or_ge 3 demands with deep | shallow
  · rw [enclose_of_lt deep] at length
    rcases Nat.lt_or_ge part.level 3 with loose | tight
    · rw [enclose_of_lt loose, enclose_of_lt (Nat.lt_trans loose deep)] at length
      simp at length
      omega
    · rw [enclose_of_le tight, enclose_of_le (show demands ≤ part.level by omega)] at length
      simp at length
      omega
  · rw [enclose_of_le shallow] at same length
    rcases Nat.lt_or_ge part.level demands with enclosed | bare
    · rw [enclose_of_lt enclosed, enclose_of_lt (show part.level < 3 by omega)] at same
      simpa using same
    · rw [enclose_of_le bare] at same length
      rcases Nat.lt_or_ge part.level 3 with loose | tight
      · rw [enclose_of_lt loose] at length
        simp at length
        omega
      · rw [enclose_of_le tight] at same
        simpa using same

/-- No cast of a part is printed as a tight expression with the cast behind it. -/
theorem print_ne_of_isTight (free : expression.castFree = true) (tight : expression.isTight = true)
    (casts : CastsPart type expression other) : other.print ≠ expression.print ++ castEnding type := by
  obtain ⟨frames, part, inside, rfl, rfl⟩ := casts
  obtain ⟨frame, rest, rfl⟩ := List.exists_cons_of_ne_nil inside
  obtain ⟨before, behind, demands, ending, breaks, bound, printed⟩ := exists_print_fillAll frame rest
  have nonempty : behind ≠ [] := by
    rintro rfl
    exact behind_ne_nil_of_isTight tight (List.suffix_nil.mp ending)
  have uncast : part.level ≠ 3 := by
    have partFree := castFree_of_fillAll free
    cases part with
    | cast => simp [castFree] at partFree
    | _ => simp [level]
  intro same
  rw [printed, printed, List.append_assoc, List.append_assoc, List.append_assoc,
    List.append_cancel_left_eq, ← List.append_assoc] at same
  exact castEnding_append_ne breaks nonempty (enclose_cast_eq bound uncast same)

theorem level_fillAll {frames : List Frame} (inside : frames ≠ []) (part other : Expression) :
    (fillAll frames part).level = (fillAll frames other).level := by
  obtain ⟨frame, rest, rfl⟩ := List.exists_cons_of_ne_nil inside
  exact level_fill frame _ _

theorem exists_castsPart_fill (frame : Frame) (last : frame.behind = []) (bound : frame.demands ≤ 3)
    {part : Expression}
    (deeper : part.isTight = false →
      ∃ other, CastsPart type part other ∧ other.print = part.print ++ castEnding type) :
    ∃ other, CastsPart type (frame.fill part) other ∧
      other.print = (frame.fill part).print ++ castEnding type := by
  have fits : frame.demands ≤ (Expression.cast part type).level := bound
  rcases Nat.lt_or_ge part.level frame.demands with enclosed | bare
  · -- The operand stands in parentheses already, so it is cast as it stands.
    refine ⟨_, ⟨[frame], part, List.cons_ne_nil _ _, rfl, rfl⟩, ?_⟩
    change (frame.fill (.cast part type)).print = _
    rw [print_fill, print_fill, last, print, enclose_of_lt enclosed,
      enclose_of_lt (show part.level < 3 by omega), enclose_of_le fits]
    simp
  · cases tight : part.isTight with
    | true =>
      refine ⟨_, ⟨[frame], part, List.cons_ne_nil _ _, rfl, rfl⟩, ?_⟩
      change (frame.fill (.cast part type)).print = _
      rw [print_fill, print_fill, last, print_cast_iff.mpr tight, enclose_of_le bare,
        enclose_of_le fits]
      simp
    | false =>
      obtain ⟨_, ⟨frames, inner, inside, rfl, rfl⟩, printed⟩ := deeper tight
      refine ⟨_, ⟨frame :: frames, inner, List.cons_ne_nil _ _, rfl, rfl⟩, ?_⟩
      change (frame.fill (fillAll frames (.cast inner type))).print = _
      rw [print_fill, print_fill, last, printed,
        level_fillAll inside (.cast inner type) inner, enclose_of_le bare, enclose_of_le bare]
      simp

/-- Behind an expression that binds more loosely, a cast is the cast of a part: of the last operand,
or of the last operand of that one, and so on. -/
theorem exists_castsPart (type : Text) : (expression : Expression) → expression.isTight = false →
    ∃ other, CastsPart type expression other ∧ other.print = expression.print ++ castEnding type
  | .conditional test yes no, _ =>
    exists_castsPart_fill (.elseBranch test yes) rfl (by simp [Frame.demands]) (exists_castsPart type no)
  | .arrow parameters body, _ =>
    exists_castsPart_fill (.body parameters) rfl (by simp [Frame.demands]) (exists_castsPart type body)
  | .either left right, _ =>
    exists_castsPart_fill (.eitherRight left) rfl (by simp [Frame.demands]) (exists_castsPart type right)
  | .both left right, _ =>
    exists_castsPart_fill (.bothRight left) rfl (by simp [Frame.demands]) (exists_castsPart type right)
  | .cast _ _, loose | .call _ _, loose | .atom _, loose => by simp [isTight, level] at loose

end

end Expression

end OptionsApi
