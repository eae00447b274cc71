import OptionsApi.Proofs.TypeText.Balanced

/-! Laws of cutting a type text, for texts of any kind: brackets need not match, and an arrow may stand
next to anything. The cut counts the depth as it goes along. What it has counted at a place is a
property of the text before that place alone: its opening brackets less its closing ones, with those
of arrows left out. -/

set_option autoImplicit false

namespace OptionsApi.TypeText

open Text (Blank)

/-! The depth behind a text. -/

def arrowCount (text : Text) : Nat := (text.zip text.tail).count ('=', '>')

/-- The opening brackets of a text less the closing ones, where those of arrows do not count. -/
def bracketDepth (text : Text) : Int :=
  text.countP isTypeOpener + arrowCount text - text.countP isTypeCloser

/-- No arrow has its first character at the end of one text and its second at the start of the next. -/
def Apart (before text : Text) : Prop := before.getLast? = some '=' → text.head? ≠ some '>'

theorem arrowCount_append_singleton (before : Text) (c : Char) :
    arrowCount (before ++ [c]) =
      arrowCount before + if before.getLast? = some '=' ∧ c = '>' then 1 else 0 := by
  induction before with
  | nil => rfl
  | cons first rest ih =>
    cases rest with
    | nil => simp [arrowCount, List.count_cons]
    | cons second more =>
      simp only [arrowCount, List.cons_append, List.tail_cons, List.zip_cons_cons, List.count_cons,
        List.getLast?_cons_cons] at ih ⊢
      omega

theorem isTypeCloser_of_isTypeOpener {c : Char} (opens : isTypeOpener c = true) :
    isTypeCloser c = false := by
  simp only [isTypeOpener, Bool.or_eq_true, beq_iff_eq] at opens
  rcases opens with ((rfl | rfl) | rfl) | rfl <;> rfl

theorem bracketDepth_append_singleton {before : Text} {c : Char} (apart : Apart before [c]) :
    bracketDepth (before ++ [c]) = depthAfter c (bracketDepth before) := by
  have noArrow : ¬ (before.getLast? = some '=' ∧ c = '>') := by
    rintro ⟨last, rfl⟩
    exact apart last rfl
  have arrows : arrowCount (before ++ [c]) = arrowCount before := by
    rw [arrowCount_append_singleton, if_neg noArrow, Nat.add_zero]
  simp only [bracketDepth, depthAfter, arrows, List.countP_append, List.countP_singleton]
  by_cases opens : isTypeOpener c = true
  · rw [isTypeCloser_of_isTypeOpener opens]
    simp only [opens, if_true, Bool.false_eq_true, if_false]
    omega
  · simp only [opens, Bool.false_eq_true, if_false]
    split <;> omega

theorem bracketDepth_append_arrow (before : Text) :
    bracketDepth (before ++ arrow) = bracketDepth before := by
  have arrows : arrowCount (before ++ ['='] ++ ['>']) = arrowCount (before ++ ['=']) + 1 := by
    rw [arrowCount_append_singleton, if_pos ⟨List.getLast?_concat, rfl⟩]
  have sign : bracketDepth (before ++ ['=']) = bracketDepth before :=
    bracketDepth_append_singleton fun _ => by decide
  have openers : (before ++ ['='] ++ ['>']).countP isTypeOpener =
      (before ++ ['=']).countP isTypeOpener := by
    rw [List.countP_append, show List.countP isTypeOpener ['>'] = 0 from rfl, Nat.add_zero]
  have closers : (before ++ ['='] ++ ['>']).countP isTypeCloser =
      (before ++ ['=']).countP isTypeCloser + 1 := by
    rw [List.countP_append, show List.countP isTypeCloser ['>'] = 1 from rfl]
  rw [← sign, arrow, List.append_cons, bracketDepth, bracketDepth, arrows, openers, closers]
  omega

/-! Going along a text. -/

theorem apart_of_not_arrow {before rest : Text} {c : Char}
    (noArrow : ∀ later, c :: rest ≠ '=' :: '>' :: later) : Apart (before ++ [c]) rest := by
  intro last first
  obtain ⟨later, rfl⟩ : ∃ later, rest = '>' :: later := by
    cases rest with
    | nil => cases first
    | cons d later => exact ⟨later, by rw [Option.some.inj first]⟩
  rw [List.getLast?_concat] at last
  exact noArrow later (by rw [Option.some.inj last])

/-- A cut goes along a text by arrows and single characters. In front of the text stands what it has
already passed. -/
inductive Walk : Text → Text → Prop where
  | done {before : Text} : Walk before []
  | passArrow {before rest : Text} : Walk (before ++ arrow) rest → Walk before (arrow ++ rest)
  | passChar {before rest : Text} {c : Char} : (∀ later, c :: rest ≠ '=' :: '>' :: later) →
      Apart before [c] → Walk (before ++ [c]) rest → Walk before (c :: rest)

theorem Apart.walk {before text : Text} (apart : Apart before text) : Walk before text := by
  -- By the length, for an arrow takes two characters at once.
  induction size : text.length using Nat.strongRecOn generalizing before text with
  | ind size ih =>
    cases text with
    | nil => exact .done
    | cons c rest =>
      by_cases isArrow : ∃ later, c :: rest = '=' :: '>' :: later
      · obtain ⟨later, same⟩ := isArrow
        rw [same] at size ⊢
        have behind : Apart (before ++ arrow) later := by
          intro last
          simp [arrow] at last
        have shorter : later.length < _ := Nat.lt_succ_of_lt (Nat.lt_succ_self later.length)
        exact .passArrow (ih later.length (size ▸ shorter) behind rfl)
      · have noArrow : ∀ later, c :: rest ≠ '=' :: '>' :: later :=
          fun later same => isArrow ⟨later, same⟩
        exact .passChar noArrow apart
          (ih rest.length (by simp [← size]) (apart_of_not_arrow noArrow) rfl)

theorem walk_start (text : Text) : Walk [] text :=
  Apart.walk fun last => absurd last (by simp)

/-! Cutting at a separator. -/

theorem extendFirst_append (start : Text) {texts : List Text} (nonempty : texts ≠ [])
    (others : List Text) :
    extendFirst start (texts ++ others) = extendFirst start texts ++ others := by
  cases texts with
  | nil => exact absurd rfl nonempty
  | cons first rest => rfl

theorem pieces_arrow (target depth : Int) (rest : Text) : pieces target depth (arrow ++ rest) =
    if depth = target then [] :: arrow :: pieces target depth rest
    else extendFirst arrow (pieces target depth rest) := by
  rw [arrow, List.cons_append, List.cons_append, List.nil_append, pieces]
  rfl

theorem not_arrow_append {separator c : Char} (separates : isSeparator separator = true) {rest : Text}
    (noArrow : ∀ later, c :: rest ≠ '=' :: '>' :: later) (right : Text) :
    ∀ later, c :: (rest ++ separator :: right) ≠ '=' :: '>' :: later := by
  intro later same
  cases rest with
  | nil =>
    obtain ⟨rfl, behind⟩ := List.cons.inj same
    obtain ⟨rfl, _⟩ := List.cons.inj behind
    cases separates
  | cons d more =>
    obtain ⟨rfl, behind⟩ := List.cons.inj same
    obtain ⟨rfl, _⟩ := List.cons.inj behind
    exact noArrow more rfl

theorem Walk.pieces_append {target : Int} {separator : Char} (separates : isSeparator separator = true)
    (right : Text) {before left : Text} (walk : Walk before left)
    (level : bracketDepth (before ++ left) = target) :
    pieces target (bracketDepth before) (left ++ separator :: right) =
      pieces target (bracketDepth before) left ++ pieces target target right := by
  induction walk with
  | @done before =>
    rw [List.append_nil] at level
    rw [List.nil_append, pieces_plain (isPlain_of_isSeparator separates), level, separates]
    simp [pieces]
  | @passArrow before rest _ ih =>
    rw [← List.append_assoc] at level
    have later := ih level
    rw [bracketDepth_append_arrow] at later
    rw [List.append_assoc, pieces_arrow, pieces_arrow, later]
    split
    · rfl
    · exact extendFirst_append arrow (pieces_ne_nil _ _ _) _
  | @passChar before rest c noArrow apart _ ih =>
    rw [List.append_cons] at level
    have later := ih level
    rw [bracketDepth_append_singleton apart] at later
    -- Whether the character begins an arrow is seen in the text in front of the separator.
    rw [List.cons_append, pieces_cons (not_arrow_append separates noArrow right), pieces_cons noArrow,
      later]
    split
    · rfl
    · exact extendFirst_append [c] (pieces_ne_nil _ _ _) _

/-! What is left of a text. -/

def LeftOut (target depth : Int) (c : Char) : Prop :=
  Text.isBlank c = true ∨ ((c = ';' ∨ c = ',') ∧ depth = target)

instance (target depth : Int) (c : Char) : Decidable (LeftOut target depth c) :=
  inferInstanceAs (Decidable (_ ∨ _))

/-- The ink of a text without the semicolons and commas at the target depth. The depth at a character
is that of all that stands before it. -/
def inkApart (target : Int) (before : Text) : Text → Text
  | [] => []
  | c :: rest =>
    if LeftOut target (bracketDepth before) c then inkApart target (before ++ [c]) rest
    else c :: inkApart target (before ++ [c]) rest

def inkChars (text : Text) : Text := text.filter fun c => !Text.isBlank c

theorem inkChars_append (left right : Text) :
    inkChars (left ++ right) = inkChars left ++ inkChars right :=
  List.filter_append ..

theorem flatten_extendFirst (start : Text) (texts : List Text) :
    (extendFirst start texts).flatten = start ++ texts.flatten := by
  cases texts <;> simp [extendFirst]

theorem flatten_pieces_arrow (target depth : Int) (rest : Text) :
    (pieces target depth (arrow ++ rest)).flatten = arrow ++ (pieces target depth rest).flatten := by
  rw [pieces_arrow]
  split
  · rfl
  · exact flatten_extendFirst arrow _

theorem inkApart_arrow (target : Int) (before rest : Text) :
    inkApart target before (arrow ++ rest) = arrow ++ inkApart target (before ++ arrow) rest := by
  have ink : Text.isBlank '=' = false ∧ Text.isBlank '>' = false := by decide
  simp [arrow, inkApart, LeftOut, ink]

theorem leftOut_iff {target depth : Int} {c : Char} : LeftOut target depth c ↔
    Text.isBlank c = true ∨ (depthAfter c depth = target ∧ isSeparator c = true) := by
  constructor
  · rintro (blank | ⟨mark, level⟩)
    · exact .inl blank
    · have separates : isSeparator c = true := by rcases mark with rfl | rfl <;> rfl
      exact .inr ⟨by rwa [depthAfter_of_plain (isPlain_of_isSeparator separates)], separates⟩
  · rintro (blank | ⟨level, separates⟩)
    · exact .inl blank
    · rw [depthAfter_of_plain (isPlain_of_isSeparator separates)] at level
      simp only [isSeparator, Bool.or_eq_true, beq_iff_eq] at separates
      rcases separates with mark | rfl
      · exact .inr ⟨mark, level⟩
      · exact .inl (by decide)

theorem Walk.inkChars_pieces {target : Int} {before text : Text} (walk : Walk before text) :
    inkChars (pieces target (bracketDepth before) text).flatten = inkApart target before text := by
  induction walk with
  | done => rfl
  | @passArrow before rest _ ih =>
    rw [bracketDepth_append_arrow] at ih
    rw [flatten_pieces_arrow, inkChars_append, ih, inkApart_arrow]
    rfl
  | @passChar before rest c noArrow apart _ ih =>
    rw [bracketDepth_append_singleton apart] at ih
    rw [pieces_cons noArrow, inkApart]
    split
    next cut =>
      have out : LeftOut target (bracketDepth before) c := leftOut_iff.mpr (.inr (by simpa using cut))
      rw [if_pos out]
      exact ih
    next uncut =>
      have out : LeftOut target (bracketDepth before) c ↔ Text.isBlank c = true := by
        simp only [Bool.and_eq_true, decide_eq_true_eq] at uncut
        simp only [leftOut_iff, uncut, or_false]
      rw [flatten_extendFirst, inkChars_append, ih]
      by_cases blank : Text.isBlank c = true <;> simp [out, inkChars, blank]

theorem inkChars_of_blank {text : Text} (blank : Blank text) : inkChars text = [] := by
  rw [inkChars, List.filter_eq_nil_iff]
  intro c member
  simp [blank c member]

theorem inkChars_chunks (target : Int) (text : Text) :
    inkChars (chunks target text).flatten = inkChars (pieces target 0 text).flatten := by
  rw [chunks]
  induction pieces target 0 text with
  | nil => rfl
  | cons piece others ih =>
    rw [List.flatten_cons, inkChars_append, ← ih]
    by_cases blank : Text.isBlankText piece = true
    · rw [List.filter_cons_of_neg (by simp [blank]), inkChars_of_blank (Text.isBlankText_iff.mp blank),
        List.nil_append]
    · rw [List.filter_cons_of_pos (by simp [blank]), List.flatten_cons, inkChars_append]

/-- Cutting a type text is compositional: behind a text that closes as many brackets as it opens, of
whatever kinds and in whatever order, a separator parts the chunks of that text from those of the
rest. At any depth no chunk is blank, and the chunks hold the ink of the text in its order but for the
semicolons and commas at that depth. -/
theorem chunks_compositional :
    (∀ left right : Text, ∀ separator ∈ [';', ',', '\n'], bracketDepth left = 0 →
        chunks 0 (left ++ separator :: right) = chunks 0 left ++ chunks 0 right) ∧
      ∀ (target : Int) (text : Text),
        (∀ chunk ∈ chunks target text, ¬ Blank chunk) ∧
          inkChars (chunks target text).flatten = inkApart target [] text := by
  constructor
  · intro left right separator member level
    have separates : isSeparator separator = true := by
      simp only [List.mem_cons, List.not_mem_nil, or_false] at member
      rcases member with rfl | rfl | rfl <;> rfl
    have cut := (walk_start left).pieces_append separates right level
    change pieces 0 0 (left ++ separator :: right) = pieces 0 0 left ++ pieces 0 0 right at cut
    rw [chunks, chunks, chunks, cut, List.filter_append]
  · intro target text
    refine ⟨?_, ?_⟩
    · intro chunk member blank
      have ink := (List.mem_filter.mp member).2
      rw [Text.isBlankText_iff.mpr blank] at ink
      cases ink
    · rw [inkChars_chunks]
      exact (walk_start text).inkChars_pieces

/-- A function type among the arguments, and behind the separator an angle bracket that would end an
arrow if the separator were not there. -/
theorem brokenArrow_chunks :
    let left : Text := ['f', '<', '(', ')', '=', '>', 'a', ',', 'b', '>', '=']
    let right : Text := ['>', ' ', 'c', ';', ' ']
    bracketDepth left = 0 ∧ chunks 0 (left ++ ',' :: right) = [left, right] ∧
      inkChars (chunks 1 left).flatten = ['f', '<', '(', ')', '=', '>', 'a', 'b', '>', '='] := by
  intro left right
  have level : bracketDepth left = 0 := by decide
  exact ⟨level, chunks_compositional.1 left right ',' (by decide) level,
    (chunks_compositional.2 1 left).2⟩

end OptionsApi.TypeText
