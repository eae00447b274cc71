import Mathlib.Data.List.Forall2
import OptionsApi.Journal
import OptionsApi.Proofs.Effect

/-! What a step of a conversion comes to. A step is told by four things: the failures it may end with,
of which the first counts; what it reports and which imports it asks for, one after another and all of
them if it succeeds; and what holds of its result. Each of them is put together from those of the steps
it is made of. -/

set_option autoImplicit false

namespace OptionsApi

namespace Effect

section
variable {ε σ α β : Type}

/-- Whatever state it finds, the step fails with the first of the failures, and succeeds if there are
none. -/
def Refuses (failures : List ε) (step : ExceptT ε (StateM σ) α) : Prop :=
  ∀ before failure, (step.run.run before).1 = .error failure ↔ failures.head? = some failure

theorem NeverFails.refuses {step : ExceptT ε (StateM σ) α} (never : NeverFails step) :
    Refuses [] step := by
  intro before failure
  obtain ⟨value, after, ran⟩ := never before
  rw [ran]
  simp

theorem Refuses.throw (failure : ε) : Refuses [failure] (throw failure : ExceptT ε (StateM σ) α) := by
  intro before other
  change Except.error failure = Except.error other ↔ some failure = some other
  simp

theorem Refuses.eq_nil {failures : List ε} {step : ExceptT ε (StateM σ) α}
    (refuses : Refuses failures step) {value : α} (returns : Returns step value) : failures = [] := by
  obtain ⟨before, after, ran⟩ := returns
  cases failures with
  | nil => rfl
  | cons failure others =>
    have failed := (refuses before failure).mpr rfl
    rw [ran] at failed
    cases failed

theorem Refuses.bind {failures later : List ε} {step : ExceptT ε (StateM σ) α}
    {next : α → ExceptT ε (StateM σ) β} (first : Refuses failures step)
    (second : ∀ value, Returns step value → Refuses later (next value)) :
    Refuses (failures ++ later) (step >>= next) := by
  intro before failure
  rw [run_bind]
  cases ran : step.run.run before with
  | mk outcome between =>
    cases outcome with
    | ok value =>
      -- A step that returns in one state fails in none, so the later failures are all there are.
      have returns : Returns step value := ⟨before, between, ran⟩
      rw [first.eq_nil returns]
      exact second value returns between failure
    | error found =>
      have head : failures.head? = some found := (first before found).mp (by rw [ran])
      simp [List.head?_append, head]

variable {Part Item : Type} {part : σ → Part} {act : Part → Item → Part}

/-- The step acts on a part of the state item by item, as planned. If it fails, it may have left off
anywhere. -/
def Follows (part : σ → Part) (act : Part → Item → Part) (plan : List Item)
    (step : ExceptT ε (StateM σ) α) : Prop :=
  ∀ before outcome after, step.run.run before = (outcome, after) →
    ∃ done, done <+: plan ∧ part after = done.foldl act (part before) ∧
      ∀ value, outcome = .ok value → done = plan

theorem Spares.follows {step : ExceptT ε (StateM σ) α} (spares : Spares part step) :
    Follows part act [] step := by
  intro before outcome after ran
  exact ⟨[], List.nil_prefix, spares before outcome after ran, fun _ _ => rfl⟩

theorem Follows.throw (plan : List Item) (failure : ε) :
    Follows part act plan (throw failure : ExceptT ε (StateM σ) α) := by
  intro before outcome after ran
  cases ran
  exact ⟨[], List.nil_prefix, rfl, fun _ => by simp⟩

theorem Follows.modify {change : σ → σ} {item : Item}
    (acts : ∀ state, part (change state) = act (part state) item) :
    Follows part act [item] (modify change : ExceptT ε (StateM σ) Unit) := by
  intro before outcome after ran
  cases ran
  exact ⟨[item], List.prefix_rfl, acts before, fun _ _ => rfl⟩

theorem Follows.bind {plan later : List Item} {step : ExceptT ε (StateM σ) α}
    {next : α → ExceptT ε (StateM σ) β} (first : Follows part act plan step)
    (second : ∀ value, Returns step value → Follows part act later (next value)) :
    Follows part act (plan ++ later) (step >>= next) := by
  intro before outcome after ran
  rw [run_bind] at ran
  split at ran
  next value between here =>
    obtain ⟨done, _, acted, whole⟩ := first before _ between here
    obtain rfl := whole value rfl
    obtain ⟨further, begun, actedToo, wholeToo⟩ :=
      second value ⟨before, between, here⟩ between outcome after ran
    -- The first plan was carried out to its end, and only the later one may have been left off.
    refine ⟨done ++ further, (List.prefix_append_right_inj done).mpr begun, ?_, ?_⟩
    · rw [actedToo, acted, List.foldl_append]
    · intro last succeeded
      rw [wholeToo last succeeded]
  next failure between here =>
    cases ran
    obtain ⟨done, begun, acted, _⟩ := first before _ _ here
    exact ⟨done, begun.trans (List.prefix_append plan later), acted, fun _ => by simp⟩

end

end Effect

open Effect

namespace Journal

def delivered (journal : Journal) : Option (List Diagnostic) :=
  if journal.listening then some journal.diagnostics else none

end Journal

def deliver (delivered : Option (List Diagnostic)) (diagnostic : Diagnostic) :
    Option (List Diagnostic) :=
  delivered.map (· ++ [diagnostic])

theorem foldl_deliver (taken reports : List Diagnostic) :
    reports.foldl deliver (some taken) = some (taken ++ reports) := by
  induction reports generalizing taken with
  | nil => simp
  | cons first rest ih =>
    rw [List.foldl_cons]
    exact (ih (taken ++ [first])).trans (by simp)

def request (queue : ImportQueue) (wanted : Text × Text) : ImportQueue :=
  if queue.contains wanted.1 wanted.2 then queue else queue.insert wanted.1 wanted.2

namespace Build

variable {α β : Type}

/-- What the step may refuse, what it reports, what it requests, and what holds of its result. -/
structure Meets (violations : List Violation) (reports : List Diagnostic)
    (requests : List (Text × Text)) (post : α → Prop) (step : Build α) : Prop where
  refuses : Refuses (violations.map Violation.refusal) step
  reports : Follows Journal.delivered deliver reports step
  requests : Follows Journal.imports request requests step
  ensures : ∀ value, Returns step value → post value

theorem Meets.violations_eq_nil {violations : List Violation} {reports : List Diagnostic}
    {requests : List (Text × Text)} {post : α → Prop} {step : Build α} {value : α}
    (meets : Meets violations reports requests post step) (returns : Returns step value) :
    violations = [] :=
  List.map_eq_nil_iff.mp (meets.refuses.eq_nil returns)

theorem Meets.pure {post : α → Prop} {value : α} (holds : post value) :
    Meets [] [] [] post (pure value) where
  refuses := (NeverFails.pure value).refuses
  reports := (Spares.pure value).follows
  requests := (Spares.pure value).follows
  ensures _ returns := returns.pure_eq ▸ holds

/-- Whatever would have come behind a refusal is left out. -/
theorem Meets.refuse (cause : Cause) (site : Site) (reports : List Diagnostic)
    (requests : List (Text × Text)) (post : α → Prop) :
    Meets [⟨cause, site⟩] reports requests post (Build.refuse cause site) where
  refuses := .throw _
  reports := .throw _ _
  requests := .throw _ _
  ensures _ returns := absurd returns Returns.not_throw

theorem Meets.note (message : Text) : Meets [] [] [] (fun _ => True) (Build.note message) where
  refuses := (NeverFails.modify _).refuses
  reports := (Spares.modify fun _ => rfl : Spares Journal.delivered (Build.note message)).follows
  requests := (Spares.modify fun _ => rfl : Spares Journal.imports (Build.note message)).follows
  ensures _ _ := trivial

theorem Meets.diagnose (diagnostic : Diagnostic) :
    Meets [] [diagnostic] [] (fun _ => True) (Build.diagnose diagnostic) where
  refuses := (NeverFails.modify _).refuses
  reports := .modify fun journal => by
    unfold Journal.diagnose Journal.delivered
    cases listening : journal.listening <;> simp [Journal.note, deliver, listening]
  requests := (Spares.modify fun journal => by
    unfold Journal.diagnose
    cases journal.listening <;> rfl).follows
  ensures _ _ := trivial

theorem Meets.requireImport (moduleName name : Text) :
    Meets [] [] [(moduleName, name)] (fun _ => True) (Build.requireImport moduleName name) where
  refuses := (NeverFails.modify _).refuses
  reports := (Spares.modify fun journal => by
    unfold Journal.requireImport
    split <;> rfl).follows
  requests := .modify fun journal => by
    unfold Journal.requireImport request
    split <;> rfl
  ensures _ _ := trivial

theorem Meets.bind {violations laterViolations : List Violation}
    {reports laterReports : List Diagnostic} {requests laterRequests : List (Text × Text)}
    {between : α → Prop} {post : β → Prop} {step : Build α} {next : α → Build β}
    (first : Meets violations reports requests between step)
    (second : ∀ value, between value →
      Meets laterViolations laterReports laterRequests post (next value)) :
    Meets (violations ++ laterViolations) (reports ++ laterReports) (requests ++ laterRequests) post
      (step >>= next) where
  refuses := by
    rw [List.map_append]
    exact first.refuses.bind fun value returns => (second value (first.ensures value returns)).refuses
  reports := first.reports.bind fun value returns => (second value (first.ensures value returns)).reports
  requests :=
    first.requests.bind fun value returns => (second value (first.ensures value returns)).requests
  ensures last returns := by
    obtain ⟨value, here, returns⟩ := returns.bind
    exact (second value (first.ensures value here)).ensures last returns

theorem Meets.bind_quiet {violations : List Violation} {reports : List Diagnostic}
    {requests : List (Text × Text)} {between : α → Prop} {post : β → Prop} {step : Build α}
    {next : α → Build β} (first : Meets violations reports requests between step)
    (second : ∀ value, between value → Meets [] [] [] post (next value)) :
    Meets violations reports requests post (step >>= next) := by
  have whole := first.bind second
  rwa [List.append_nil, List.append_nil, List.append_nil] at whole

theorem Meets.mapM {Member : Type} {violations : Member → List Violation}
    {reports : Member → List Diagnostic} {requests : Member → List (Text × Text)}
    {post : Member → α → Prop} {step : Member → Build α}
    (each : ∀ member,
      Meets (violations member) (reports member) (requests member) (post member) (step member))
    (members : List Member) :
    Meets (members.flatMap violations) (members.flatMap reports) (members.flatMap requests)
      (List.Forall₂ post members) (members.mapM step) := by
  induction members with
  | nil => exact .pure .nil
  | cons member rest ih =>
    rw [List.mapM_cons]
    exact (each member).bind fun value first => ih.bind_quiet fun values others =>
      .pure (.cons first others)

theorem Meets.behind_report {violations : List Violation} {later : List Diagnostic}
    {requests : List (Text × Text)} {post : α → Prop} {rest : PUnit → Build α}
    (meets : Meets violations later requests post (rest ())) (reports : Bool) (diagnostic : Diagnostic) :
    Meets violations ((if reports then [diagnostic] else []) ++ later) requests post
      (if reports = true then Build.diagnose diagnostic >>= rest else rest ()) := by
  cases reports with
  | true => exact (Meets.diagnose diagnostic).bind fun _ _ => meets
  | false => exact meets

end Build

end OptionsApi
