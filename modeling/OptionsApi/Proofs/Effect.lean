/-! Steps that change a state and may fail. What a step changed before it failed stays changed, so
one has to ask of each step what it returns, whether it can fail and what it leaves alone. -/

set_option autoImplicit false

namespace OptionsApi.Effect

variable {ε σ α β : Type}

theorem run_bind (step : ExceptT ε (StateM σ) α) (next : α → ExceptT ε (StateM σ) β) (state : σ) :
    (step >>= next).run.run state =
      match step.run.run state with
      | (.ok value, after) => (next value).run.run after
      | (.error failure, after) => (.error failure, after) := by
  change (match step state with
    | (outcome, after) => (ExceptT.bindCont next outcome) after) = _
  change _ = match step state with
    | (.ok value, after) => (next value).run.run after
    | (.error failure, after) => (.error failure, after)
  obtain ⟨outcome, after⟩ := step state
  cases outcome with
  | ok value => rfl
  | error failure => rfl

def Returns (step : ExceptT ε (StateM σ) α) (value : α) : Prop :=
  ∃ before after, step.run.run before = (.ok value, after)

theorem Returns.bind {step : ExceptT ε (StateM σ) α} {next : α → ExceptT ε (StateM σ) β} {last : β}
    (returns : Returns (step >>= next) last) : ∃ value, Returns step value ∧ Returns (next value) last := by
  obtain ⟨before, after, ran⟩ := returns
  rw [run_bind] at ran
  split at ran
  next value between first => exact ⟨value, ⟨before, between, first⟩, between, after, ran⟩
  next => cases ran

theorem Returns.pure_eq {value last : α} (returns : Returns (pure value : ExceptT ε (StateM σ) α) last) :
    last = value := by
  obtain ⟨before, after, ran⟩ := returns
  cases ran
  rfl

theorem Returns.not_throw {failure : ε} {last : α} :
    ¬ Returns (throw failure : ExceptT ε (StateM σ) α) last := by
  rintro ⟨before, after, ran⟩
  cases ran

theorem Returns.mapM {step : α → ExceptT ε (StateM σ) β} {items : List α} {values : List β}
    (returns : Returns (items.mapM step) values) :
    ∀ value ∈ values, ∃ item ∈ items, Returns (step item) value := by
  induction items generalizing values with
  | nil =>
    rw [List.mapM_nil] at returns
    rw [returns.pure_eq]
    simp
  | cons item rest ih =>
    rw [List.mapM_cons] at returns
    obtain ⟨first, here, returns⟩ := returns.bind
    obtain ⟨others, later, returns⟩ := returns.bind
    rw [returns.pure_eq]
    intro value member
    rcases List.mem_cons.mp member with rfl | inside
    · exact ⟨item, List.mem_cons_self, here⟩
    · obtain ⟨source, among, there⟩ := ih later value inside
      exact ⟨source, List.mem_cons_of_mem item among, there⟩

def NeverFails (step : ExceptT ε (StateM σ) α) : Prop :=
  ∀ before, ∃ value after, step.run.run before = (.ok value, after)

theorem NeverFails.pure (value : α) : NeverFails (pure value : ExceptT ε (StateM σ) α) :=
  fun before => ⟨value, before, rfl⟩

theorem NeverFails.modify (change : σ → σ) : NeverFails (modify change : ExceptT ε (StateM σ) Unit) :=
  fun before => ⟨(), change before, rfl⟩

theorem NeverFails.get : NeverFails (get : ExceptT ε (StateM σ) σ) :=
  fun before => ⟨before, before, rfl⟩

theorem NeverFails.bind {step : ExceptT ε (StateM σ) α} {next : α → ExceptT ε (StateM σ) β}
    (first : NeverFails step) (second : ∀ value, NeverFails (next value)) :
    NeverFails (step >>= next) := by
  intro before
  obtain ⟨value, between, ran⟩ := first before
  obtain ⟨last, after, finished⟩ := second value between
  refine ⟨last, after, ?_⟩
  rw [run_bind, ran]
  exact finished

theorem NeverFails.forM {step : α → ExceptT ε (StateM σ) PUnit} (each : ∀ item, NeverFails (step item))
    (items : List α) : NeverFails (items.forM step) := by
  induction items with
  | nil => exact NeverFails.pure PUnit.unit
  | cons item rest ih => exact (each item).bind fun _ => ih

def Fails (step : ExceptT ε (StateM σ) α) (state : σ) : Prop :=
  ∃ failure after, step.run.run state = (.error failure, after)

theorem fails_iff {step : ExceptT ε (StateM σ) α} {state : σ} :
    Fails step state ↔ ∃ failure, (step.run.run state).1 = .error failure :=
  ⟨fun ⟨failure, _, ran⟩ => ⟨failure, congrArg Prod.fst ran⟩,
    fun ⟨failure, ran⟩ => ⟨failure, _, Prod.ext ran rfl⟩⟩

section
variable {Part : Type} (part : σ → Part)

/-- If the step fails, it leaves the part of the state as it was. -/
def Atomic (step : ExceptT ε (StateM σ) α) : Prop :=
  ∀ before failure after, step.run.run before = (.error failure, after) → part after = part before

/-- The step leaves the part of the state as it was, whether it fails or not. -/
def Spares (step : ExceptT ε (StateM σ) α) : Prop :=
  ∀ before outcome after, step.run.run before = (outcome, after) → part after = part before

variable {part}

theorem Spares.atomic {step : ExceptT ε (StateM σ) α} (spares : Spares part step) : Atomic part step :=
  fun before failure after ran => spares before (.error failure) after ran

theorem Spares.get : Spares part (MonadState.get : ExceptT ε (StateM σ) σ) := by
  intro before outcome after ran
  cases ran
  rfl

theorem Spares.throw (failure : ε) : Spares part (throw failure : ExceptT ε (StateM σ) α) := by
  intro before outcome after ran
  cases ran
  rfl

theorem Spares.pure (value : α) : Spares part (pure value : ExceptT ε (StateM σ) α) := by
  intro before outcome after ran
  cases ran
  rfl

theorem Spares.modify {change : σ → σ} (kept : ∀ state, part (change state) = part state) :
    Spares part (modify change : ExceptT ε (StateM σ) Unit) := by
  intro before outcome after ran
  cases ran
  exact kept before

theorem Spares.bind {step : ExceptT ε (StateM σ) α} {next : α → ExceptT ε (StateM σ) β}
    (first : Spares part step) (second : ∀ value, Spares part (next value)) :
    Spares part (step >>= next) := by
  intro before outcome after ran
  rw [run_bind] at ran
  split at ran
  next value between here => rw [second value between outcome after ran, first before _ between here]
  next failure between here =>
    cases ran
    exact first before _ _ here

theorem Spares.forM {step : α → ExceptT ε (StateM σ) PUnit} (each : ∀ item, Spares part (step item))
    (items : List α) : Spares part (items.forM step) := by
  induction items with
  | nil => exact Spares.pure PUnit.unit
  | cons item rest ih => exact (each item).bind fun _ => ih

/-- If the step succeeds, it makes this change to the part of the state. -/
def Turns (part : σ → Part) (change : Part → Part) (step : ExceptT ε (StateM σ) α) : Prop :=
  ∀ before value after, step.run.run before = (.ok value, after) → part after = change (part before)

theorem Spares.turns {step : ExceptT ε (StateM σ) α} (spares : Spares part step) : Turns part id step :=
  fun before value after ran => spares before (.ok value) after ran

theorem Turns.bind {step : ExceptT ε (StateM σ) α} {next : α → ExceptT ε (StateM σ) β}
    {first second : Part → Part} (one : Turns part first step)
    (two : ∀ value, Turns part second (next value)) : Turns part (second ∘ first) (step >>= next) := by
  intro before last after ran
  rw [run_bind] at ran
  split at ran
  next value between here =>
    rw [two value between last after ran, one before value between here]
    rfl
  next => cases ran

theorem NeverFails.atomic {step : ExceptT ε (StateM σ) α} (never : NeverFails step) : Atomic part step := by
  intro before failure after ran
  obtain ⟨value, last, other⟩ := never before
  rw [other] at ran
  cases ran

/-- Before the part is touched, a later step may still fail. -/
theorem Atomic.bind_of_spares {step : ExceptT ε (StateM σ) α} {next : α → ExceptT ε (StateM σ) β}
    (first : Spares part step) (second : ∀ value, Atomic part (next value)) :
    Atomic part (step >>= next) := by
  intro before failure after ran
  rw [run_bind] at ran
  split at ran
  next value between here =>
    rw [second value between failure after ran, first before _ between here]
  next failure between here =>
    cases ran
    exact first before _ _ here

/-- Once the part is touched, no later step may fail. -/
theorem Atomic.bind_of_neverFails {step : ExceptT ε (StateM σ) α}
    {next : α → ExceptT ε (StateM σ) β} (first : Atomic part step)
    (second : ∀ value, NeverFails (next value)) : Atomic part (step >>= next) := by
  intro before failure after ran
  rw [run_bind] at ran
  split at ran
  next value between here =>
    obtain ⟨last, final, other⟩ := second value between
    rw [other] at ran
    cases ran
  next failure between here =>
    cases ran
    exact first before _ _ here

end

end OptionsApi.Effect
