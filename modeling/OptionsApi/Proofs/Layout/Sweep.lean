import OptionsApi.Proofs.Layout.Absorption
import OptionsApi.Proofs.Layout.TemplateContents
import OptionsApi.Proofs.Text.InkLines

/-! The scan of a whole text in one sweep. A line feed ends a line and leaves of the scan only the
region in which the next line begins. What is behind a quote does not depend on what stood before it
on its line, as long as that was neither a literal nor a slash. -/

set_option autoImplicit false

namespace OptionsApi.Layout

/-- The region that the lines of a text leave to the line behind them. -/
def regionBehind (text : Text) : Region := ((Text.lines text).foldl State.advance {}).region

/-- Where a sweep stands: the text of the line already read, nearest character first, and the mode. -/
structure Place where
  before : Text := []
  mode : Mode := .code
  deriving DecidableEq, Repr

def Place.step (place : Place) (c : Char) : Place :=
  if c = '\n' then ⟨[], place.mode.region.mode⟩
  else ⟨c :: place.before, place.mode.next place.before c⟩

def Place.sweep (place : Place) (text : Text) : Place := text.foldl Place.step place

theorem Place.sweep_append (place : Place) (left right : Text) :
    place.sweep (left ++ right) = (place.sweep left).sweep right :=
  List.foldl_append

/-! A sweep goes line by line. -/

theorem Place.sweep_of_single {text : Text} (single : '\n' ∉ text) (line : Nat) (cursor : Cursor) :
    Place.sweep ⟨cursor.before, cursor.mode⟩ text =
      ⟨(cursor.run line text).before, (cursor.run line text).mode⟩ := by
  induction text generalizing cursor with
  | nil => rfl
  | cons c rest ih =>
    have other : c ≠ '\n' := (List.ne_of_not_mem_cons single).symm
    have step : Place.step ⟨cursor.before, cursor.mode⟩ c =
        ⟨(cursor.step line c).before, (cursor.step line c).mode⟩ := if_neg other
    change Place.sweep (Place.step ⟨cursor.before, cursor.mode⟩ c) rest = _
    rw [step, ih (List.not_mem_of_not_mem_cons single)]
    rfl

theorem State.region_foldl_advance (state : State) (text : Text) :
    ((Text.lines text).foldl State.advance state).region =
      (Place.sweep ⟨[], state.region.mode⟩ text).mode.region := by
  induction text using Text.induction_on_lines generalizing state with
  | single line single =>
    rw [Text.lines_of_single single, List.foldl_cons, List.foldl_nil]
    have swept := Place.sweep_of_single single (state.lineCount + 1) ⟨[], state.region.mode, state.brackets⟩
    rw [swept]
    rfl
  | more line rest single ih =>
    rw [Text.lines_append_lineFeed, Text.lines_of_single single, List.foldl_append, List.foldl_cons,
      List.foldl_nil, ih, Place.sweep_append]
    have swept := Place.sweep_of_single single (state.lineCount + 1) ⟨[], state.region.mode, state.brackets⟩
    rw [swept]
    rfl

theorem regionBehind_eq (text : Text) : regionBehind text = (Place.sweep {} text).mode.region :=
  State.region_foldl_advance {} text

/-! Sweeps in step. -/

structure Place.Alike (left right : Place) : Prop where
  mode : left.mode = right.mode
  before : ∀ text, opensRegex (text ++ left.before) = opensRegex (text ++ right.before)

namespace Place.Alike

variable {left right : Place}

theorem next (alike : Place.Alike left right) (c : Char) :
    left.mode.next left.before c = right.mode.next right.before c := by
  have here : opensRegex left.before = opensRegex right.before := alike.before []
  rw [← alike.mode]
  cases left.mode <;> simp only [Mode.next, codeMode, here]

theorem step (alike : Place.Alike left right) (c : Char) : Place.Alike (left.step c) (right.step c) := by
  unfold Place.step
  split
  next => exact ⟨by rw [alike.mode], fun _ => rfl⟩
  next =>
    refine ⟨alike.next c, fun text => ?_⟩
    have further := alike.before (text ++ [c])
    simpa using further

theorem sweep (alike : Place.Alike left right) (text : Text) :
    Place.Alike (left.sweep text) (right.sweep text) := by
  induction text generalizing left right with
  | nil => exact alike
  | cons c rest ih => exact ih (alike.step c)

end Place.Alike

/-! Text that leaves a sweep where it is. -/

/-- The modes in which no literal ends with the line and no character waits for the next one. -/
inductive Mode.Calm : Mode → Prop where
  | code : Calm .code
  | comment : Calm .comment
  | commentStar : Calm .commentStar
  | template : Calm .template

theorem Region.calm_mode (region : Region) : region.mode.Calm := by
  cases region with
  | code => exact .code
  | comment => exact .comment
  | template => exact .template

def isInert (c : Char) : Bool := isPlain c && c != '\\'

theorem Mode.Calm.next_inert {mode : Mode} (calm : mode.Calm) {c : Char} (inert : isInert c = true)
    (before : Text) : (mode.next before c).Calm ∧ (mode.next before c).region = mode.region := by
  simp only [isInert, isPlain, Bool.and_eq_true, bne_iff_ne] at inert
  obtain ⟨⟨⟨⟨slash, single⟩, double⟩, tick⟩, backslash⟩ := inert
  cases calm with
  | code =>
    have stays : codeMode before c = .code := by simp [codeMode, slash, single, double, tick]
    rw [Mode.next, stays]
    exact ⟨.code, rfl⟩
  | comment =>
    rw [Mode.next]
    split
    · exact ⟨.commentStar, rfl⟩
    · exact ⟨.comment, rfl⟩
  | commentStar =>
    rw [Mode.next, if_neg slash]
    split
    · exact ⟨.commentStar, rfl⟩
    · exact ⟨.comment, rfl⟩
  | template =>
    rw [Mode.next, if_neg backslash, if_neg tick]
    exact ⟨.template, rfl⟩

theorem Mode.Calm.next_quote {mode : Mode} (calm : mode.Calm) {quote : Char}
    (quoted : quote = '\'' ∨ quote = '"') (before : Text) :
    mode.next before quote = if mode.region = .code then .quoted quote else mode.region.mode := by
  cases calm with
  | code => rcases quoted with rfl | rfl <;> rfl
  | comment => rcases quoted with rfl | rfl <;> rfl
  | commentStar => rcases quoted with rfl | rfl <;> rfl
  | template => rcases quoted with rfl | rfl <;> rfl

namespace Place

variable {place left right : Place}

theorem step_inert (calm : place.mode.Calm) {c : Char} (inert : isInert c = true) :
    (place.step c).mode.Calm ∧ (place.step c).mode.region = place.mode.region := by
  unfold step
  split
  next => exact ⟨Region.calm_mode _, Region.region_mode _⟩
  next => exact calm.next_inert inert place.before

theorem sweep_inert (calm : place.mode.Calm) {text : Text} (inert : Text.Within isInert text) :
    (place.sweep text).mode.Calm ∧ (place.sweep text).mode.region = place.mode.region := by
  induction text generalizing place with
  | nil => exact ⟨calm, rfl⟩
  | cons c rest ih =>
    obtain ⟨stepCalm, stepRegion⟩ := step_inert calm (inert c List.mem_cons_self)
    obtain ⟨lastCalm, lastRegion⟩ := ih stepCalm inert.tail
    exact ⟨lastCalm, lastRegion.trans stepRegion⟩

theorem Alike.of_quote {quote : Char} (quoted : quote = '\'' ∨ quote = '"') (leftCalm : left.mode.Calm)
    (rightCalm : right.mode.Calm) (same : left.mode.region = right.mode.region) :
    Alike (left.step quote) (right.step quote) := by
  have feed : quote ≠ '\n' := by rcases quoted with rfl | rfl <;> decide
  have noBlank : Text.isInlineBlank quote = false := by rcases quoted with rfl | rfl <;> decide
  have noName : Text.isNameChar quote = false := by rcases quoted with rfl | rfl <;> decide
  unfold Place.step
  rw [if_neg feed, if_neg feed]
  refine ⟨?_, fun text => opensRegex_append_stop noBlank noName text left.before right.before⟩
  dsimp only
  rw [leftCalm.next_quote quoted, rightCalm.next_quote quoted, same]

end Place

/-! Regions. -/

theorem regionBehind_lineFeed (text : Text) : regionBehind (text ++ ['\n']) = regionBehind text := by
  rw [regionBehind_eq, regionBehind_eq, Place.sweep_append]
  exact Region.region_mode _

def StartsLine (text : Text) : Prop := text = [] ∨ ∃ start, text = start ++ ['\n']

theorem StartsLine.calm_sweep {text : Text} (starts : StartsLine text) :
    (Place.sweep {} text).mode.Calm := by
  rcases starts with rfl | ⟨start, rfl⟩
  · exact .code
  · rw [Place.sweep_append]
    exact Region.calm_mode _

/-- What is behind a quote is in the same region whatever inert text stands between the start of a
line and the quote. -/
theorem regionBehind_exchange {before first second : Text} (starts : StartsLine before)
    (firstInert : Text.Within isInert first) (secondInert : Text.Within isInert second) {quote : Char}
    (quoted : quote = '\'' ∨ quote = '"') (behind : Text) :
    regionBehind (before ++ (first ++ quote :: behind)) =
      regionBehind (before ++ (second ++ quote :: behind)) := by
  obtain ⟨firstCalm, firstRegion⟩ := Place.sweep_inert starts.calm_sweep firstInert
  obtain ⟨secondCalm, secondRegion⟩ := Place.sweep_inert starts.calm_sweep secondInert
  have alike := (Place.Alike.of_quote quoted firstCalm secondCalm
    (firstRegion.trans secondRegion.symm)).sweep behind
  rw [regionBehind_eq, regionBehind_eq]
  simp only [Place.sweep_append]
  exact congrArg Mode.region alike.mode

end OptionsApi.Layout
