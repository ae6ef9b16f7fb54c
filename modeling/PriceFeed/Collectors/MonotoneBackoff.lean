import PriceFeed.Collectors.Multipliers

/-! Runs of one replica: the multiplier of the internal scheduler never decreases exactly
when no call writes a multiplier that another one has overtaken. -/

namespace PriceFeed.Collectors

open PriceFeed.Library PriceFeed.Schedulers PriceFeed.Discovery

/-- A pending multiplier is overtaken when it is below the one in place. -/
def PendingMultiplier.Tracks (pending : PendingMultiplier) (inPlace : ℚ) : Prop :=
  pending.overtaken = pending.value.any (· < inPlace)

/-- A greater multiplier overtakes what is below it and leaves nothing behind. -/
theorem PendingMultiplier.Tracks.after {pending : PendingMultiplier} {inPlace written : ℚ}
    (tracks : pending.Tracks inPlace) (higher : inPlace ≤ written) :
    (pending.after written).Tracks written := by
  unfold Tracks at tracks ⊢
  simp only [PendingMultiplier.after, tracks]
  cases pending.value with
  | none => rfl
  | some value =>
    by_cases below : value < inPlace
    · simp [below, lt_of_lt_of_le below higher]
    · simp [below]

namespace MultiplierProcess

variable (operations : ℕ)

/-- No call writes a multiplier after a greater one has been written since the handler
decided on it, and no start one below the multiplier in place at its STATUS buffer. -/
def InTime (state : MultiplierProcess) (event : MultiplierEvent) : Prop :=
  (state.written event).overtaken = false

instance (state : MultiplierProcess) : DecidablePred state.InTime := fun event =>
  inferInstanceAs (Decidable ((state.written event).overtaken = false))

/-- The step leaves the multiplier of the internal scheduler or raises it. -/
def NotLower (state : MultiplierProcess) (event : MultiplierEvent) : Prop :=
  ∀ next ∈ state.step operations event, state.internalScheduler ≤ next.internalScheduler

instance (state : MultiplierProcess) : DecidablePred (state.NotLower operations) := fun event =>
  inferInstanceAs (Decidable (∀ next ∈ state.step operations event,
    state.internalScheduler ≤ next.internalScheduler))

/-- Each pending multiplier is marked as overtaken just when it is. -/
structure Tracked (state : MultiplierProcess) : Prop where
  starts : ∀ task, (state.starts task).Tracks state.internalScheduler
  reloads : ∀ task, (state.reloads task).Tracks state.internalScheduler

variable {operations} {state next : MultiplierProcess} {event : MultiplierEvent}

private theorem setInternal_internalScheduler (pending : PendingMultiplier) :
    (state.setInternal pending).internalScheduler =
      pending.value.getD state.internalScheduler := by
  unfold setInternal
  cases pending.value <;> rfl

theorem internalScheduler_step (taken : state.step operations event = some next) :
    next.internalScheduler = (state.written event).value.getD state.internalScheduler := by
  cases effect_step taken with
  | startCalled process quiet effect => simp [effect, quiet, startWith]
  | reloadCalled process quiet higher effect => simp [effect, quiet, reloadWith]
  | internalSet process effect => simp [effect, setInternal_internalScheduler]
  | marketsSet process quiet schedulers sources effect => simp [effect, quiet]

theorem Tracked.written (tracked : state.Tracked) (event : MultiplierEvent) :
    (state.written event).Tracks state.internalScheduler := by
  unfold MultiplierProcess.written
  split
  · exact tracked.starts _
  · exact tracked.reloads _
  · exact tracked.reloads _
  · rfl

/-- Under the invariant, the multiplier gets lower by a write that has been overtaken only. -/
theorem Tracked.notLower_iff (tracked : state.Tracked)
    (taken : state.step operations event = some next) :
    state.NotLower operations event ↔ state.InTime event := by
  have tracks := tracked.written event
  simp only [NotLower, InTime, taken, Option.mem_def, Option.some.injEq, forall_eq',
    internalScheduler_step taken]
  rw [tracks]
  cases (state.written event).value with
  | none => simp
  | some value => simp

theorem Tracked.setInternal (tracked : state.Tracked) {pending : PendingMultiplier}
    (higher : ∀ value ∈ pending.value, state.internalScheduler ≤ value) :
    (state.setInternal pending).Tracked := by
  unfold MultiplierProcess.setInternal
  cases carried : pending.value with
  | none => exact tracked
  | some value =>
    have above := higher value carried
    exact ⟨fun task => (tracked.starts task).after above, fun task => (tracked.reloads task).after above⟩

theorem tracked_step (tracked : state.Tracked) (notLower : state.NotLower operations event)
    (taken : state.step operations event = some next) : next.Tracked := by
  cases effect_step taken with
  | startCalled process quiet effect =>
    subst effect
    refine ⟨fun task => ?_, tracked.reloads⟩
    by_cases here : task = state.process.startCalls
    · subst here
      simp only [startWith, Function.update_self, PendingMultiplier.Tracks]
      rfl
    · simpa only [startWith, Function.update_of_ne here] using tracked.starts task
  | reloadCalled process quiet higher effect =>
    subst effect
    refine ⟨tracked.starts, fun task => ?_⟩
    by_cases here : task = state.process.reloadCalls
    · subst here
      simp only [reloadWith, Function.update_self, PendingMultiplier.Tracks]
      cases decision : state.decided event with
      | none => rfl
      | some value => exact (decide_eq_false (higher value decision).asymm).symm
    · simpa only [reloadWith, Function.update_of_ne here] using tracked.reloads task
  | internalSet process effect =>
    have above := notLower next taken
    rw [internalScheduler_step taken] at above
    subst effect
    have kept : Tracked { state with process := process } := ⟨tracked.starts, tracked.reloads⟩
    refine kept.setInternal fun value carried => ?_
    rw [carried] at above
    exact above
  | marketsSet process quiet schedulers sources effect =>
    subst effect
    exact ⟨tracked.starts, tracked.reloads⟩

theorem tracked_initial (internalScheduler : ℚ) : (initial internalScheduler).Tracked :=
  ⟨fun _ => rfl, fun _ => rfl⟩

/-- In every run of a replica the multiplier never decreases exactly when no call writes a
multiplier that has been overtaken. -/
theorem multiplier_neverDecreases_iff {internalScheduler : ℚ} {events : List MultiplierEvent}
    {last : MultiplierProcess}
    (ran : Run (step operations) (initial internalScheduler) events last) :
    Throughout (step operations) (NotLower operations) (initial internalScheduler) events ↔
      Throughout (step operations) InTime (initial internalScheduler) events :=
  ran.throughout_iff (fun tracked taken => Tracked.notLower_iff tracked taken) tracked_step
    (tracked_initial internalScheduler)

end MultiplierProcess

/-- The replica's own STATUS message comes after the debounce of another one's, and before
the markets have started. -/
def startedTwice : List MultiplierEvent :=
  [.lifecycle .statusArrives, .statusElapsed [⟨⟨"q2", "kraken"⟩, ⟨2, 2000⟩⟩],
    .lifecycle .statusArrives, .statusElapsed [⟨⟨"q1", "kraken"⟩, ⟨1, 1000⟩⟩]] ++
    ([.startAcquires 0, .marketsLoaded 0 [7], .contextLoaded 0 0, .schedulerStarted 0 0, .startReturns 0,
      .startAcquires 1] : List LifecycleEvent).map .lifecycle

theorem startedTwice_runs :
    (execute (MultiplierProcess.step 1) (.initial 1) startedTwice).isSome := by decide +kernel

def afterStarts : MultiplierProcess :=
  (execute (MultiplierProcess.step 1) (.initial 1) startedTwice).get startedTwice_runs

theorem run_startedTwice : Run (MultiplierProcess.step 1) (.initial 1) startedTwice afterStarts :=
  run_iff_execute.mpr (Option.some_get startedTwice_runs).symm

/-- The second start writes the multiplier 1 over the 2 of the first. -/
theorem startedTwice_decreases : ¬ ∀ (operations : ℕ) (internalScheduler : ℚ)
    (events : List MultiplierEvent) (last : MultiplierProcess),
    Run (MultiplierProcess.step operations) (.initial internalScheduler) events last →
      Throughout (MultiplierProcess.step operations) (MultiplierProcess.NotLower operations)
        (.initial internalScheduler) events := by
  intro always
  have inTime := always 1 1 startedTwice afterStarts run_startedTwice
  have decreases : ¬ Throughout (MultiplierProcess.step 1) (MultiplierProcess.NotLower 1)
      (.initial 1) startedTwice := by decide +kernel
  exact decreases inTime

theorem multiplier_neverDecreases_iff_startedTwice :
    Throughout (MultiplierProcess.step 1) (MultiplierProcess.NotLower 1) (.initial 1) startedTwice ↔
      Throughout (MultiplierProcess.step 1) MultiplierProcess.InTime (.initial 1) startedTwice :=
  MultiplierProcess.multiplier_neverDecreases_iff run_startedTwice

end PriceFeed.Collectors
