import PriceFeed.Collectors.SingleStart

/-! The reloads that calls of `reloadActive` set off on the schedulers. The mutex guards a
`Promise.all`, which is over when the first of them fails. -/

namespace PriceFeed.Collectors

open PriceFeed.Library PriceFeed.Schedulers

namespace MarketsProcess

variable (operations : ℕ)

/-- The process without timeouts of the reload mutex. -/
def untimedStep (process : MarketsProcess) (event : LifecycleEvent) : Option MarketsProcess :=
  if event = .reloadExpires then none else process.step operations event

/-- No scheduler has two reloads in progress, and a call that has begun is the only one with
reloads in progress. -/
structure ReloadsApart (process : MarketsProcess) : Prop where
  distinct : ∀ task, (process.reloads task).sleeping.Nodup
  single : ∀ scheduler first second, scheduler ∈ (process.reloads first).sleeping →
    scheduler ∈ (process.reloads second).sleeping → first = second
  before : ∀ first second, (process.reloads first).sleeping ≠ [] →
    (process.reloads second).phase = .reloading → first = second

/-- No reload of a scheduler fails while another one of the same call is in progress. -/
def LoneFailures (process : MarketsProcess) : LifecycleEvent → Prop
  | .reloadAcquires _ => process.destroyable = process.managedSchedulers ∨ process.destroyable = []
  | .reloadFails task scheduler => (process.reloads task).sleeping = [scheduler]
  | _ => True

instance (process : MarketsProcess) : DecidablePred process.LoneFailures := by
  intro event
  cases event <;> unfold LoneFailures <;> infer_instance

/-- Only the call that holds the mutex has reloads in progress. -/
structure ReloadSound (process : MarketsProcess) : Prop where
  unused : ∀ task, process.reloadCalls ≤ task → process.reloads task = {}
  idle : ∀ task, (process.reloads task).phase ≠ .reloading → (process.reloads task).sleeping = []
  locked : ∀ task, (process.reloads task).phase = .reloading → process.reloadLocked = true
  single : ∀ first second, (process.reloads first).phase = .reloading →
    (process.reloads second).phase = .reloading → first = second
  distinct : ∀ task, (process.reloads task).sleeping.Nodup
  fresh : FreshSchedulers (process.collectorsManagers, process.nextScheduler)

/-- A call in which a reload failed has no others in progress. -/
def Ended (process : MarketsProcess) : Prop :=
  ∀ task, (process.reloads task).failed = true → (process.reloads task).sleeping = []

variable {operations} {process next : MarketsProcess}

theorem ne_unused_of_reloadPhase {task : ℕ} {phase : ReloadPhase}
    (held : (process.reloads task).phase = phase) (other : phase ≠ .unused) :
    process.reloads task ≠ {} := by
  intro unused
  rw [unused] at held
  exact other held.symm

private theorem ne_unused_of_sleeping {task scheduler : ℕ}
    (sleeps : scheduler ∈ (process.reloads task).sleeping) : process.reloads task ≠ {} := by
  intro unused
  rw [unused] at sleeps
  cases sleeps

namespace ReloadSound

variable (sound : process.ReloadSound)

include sound

theorem reloading {task : ℕ} (busy : (process.reloads task).sleeping ≠ []) :
    (process.reloads task).phase = .reloading := by
  by_contra other
  exact busy (sound.idle task other)

private theorem reloadsApart : process.ReloadsApart where
  distinct := sound.distinct
  single _ first second one other := sound.single first second
    (sound.reloading (List.ne_nil_of_mem one)) (sound.reloading (List.ne_nil_of_mem other))
  before first second busy begun := sound.single first second (sound.reloading busy) begun

theorem advance {task : ℕ} {reload : ReloadTask} (used : process.reloads task ≠ {})
    (calls : next.reloadCalls = process.reloadCalls)
    (reloads : next.reloads = Function.update process.reloads task reload)
    (idle : reload.phase ≠ .reloading → reload.sleeping = []) (distinct : reload.sleeping.Nodup)
    (locked : ∀ other, (next.reloads other).phase = .reloading → next.reloadLocked = true)
    (single : ∀ first second, (next.reloads first).phase = .reloading →
      (next.reloads second).phase = .reloading → first = second)
    (fresh : FreshSchedulers (next.collectorsManagers, next.nextScheduler)) : next.ReloadSound where
  unused other beyond := by
    rw [calls] at beyond
    have apart : other ≠ task := by
      rintro rfl
      exact used (sound.unused other beyond)
    rw [reloads, Function.update_of_ne apart]
    exact sound.unused other beyond
  idle other phase := by
    rw [reloads] at phase ⊢
    by_cases here : other = task
    · subst here
      rw [Function.update_self] at phase ⊢
      exact idle phase
    · rw [Function.update_of_ne here] at phase ⊢
      exact sound.idle other phase
  locked := locked
  single := single
  distinct other := by
    rw [reloads]
    by_cases here : other = task
    · subst here
      rwa [Function.update_self]
    · rw [Function.update_of_ne here]
      exact sound.distinct other
  fresh := fresh

theorem proceed {task : ℕ} {reload : ReloadTask} (used : process.reloads task ≠ {})
    (calls : next.reloadCalls = process.reloadCalls)
    (reloads : next.reloads = Function.update process.reloads task reload)
    (begun : reload.phase = .reloading → (process.reloads task).phase = .reloading)
    (idle : reload.phase ≠ .reloading → reload.sleeping = []) (distinct : reload.sleeping.Nodup)
    (locked : next.reloadLocked = process.reloadLocked ∨ reload.phase ≠ .reloading ∧
      (process.reloads task).phase = .reloading)
    (fresh : FreshSchedulers (next.collectorsManagers, next.nextScheduler)) : next.ReloadSound := by
  have earlier : ∀ other, (next.reloads other).phase = .reloading →
      (process.reloads other).phase = .reloading := by
    intro other phase
    rw [reloads] at phase
    by_cases here : other = task
    · subst here
      rw [Function.update_self] at phase
      exact begun phase
    · rwa [Function.update_of_ne here] at phase
  refine sound.advance used calls reloads idle distinct (fun other phase => ?_)
    (fun first second one two => sound.single first second (earlier first one) (earlier second two)) fresh
  rcases locked with same | ⟨ended, held⟩
  · rw [same]
    exact sound.locked other (earlier other phase)
  · obtain rfl : other = task := sound.single other task (earlier other phase) held
    rw [reloads, Function.update_self] at phase
    exact absurd phase ended

theorem called (calls : next.reloadCalls = process.reloadCalls + 1)
    (reloads : next.reloads = Function.update process.reloads process.reloadCalls { phase := .waiting })
    (locked : next.reloadLocked = process.reloadLocked)
    (fresh : FreshSchedulers (next.collectorsManagers, next.nextScheduler)) : next.ReloadSound := by
  have waiting : ∀ task, next.reloads task = process.reloads task ∨
      task = process.reloadCalls ∧ next.reloads task = { phase := .waiting } := by
    intro task
    rw [reloads]
    by_cases new : task = process.reloadCalls
    · exact .inr ⟨new, by rw [new]; exact Function.update_self ..⟩
    · exact .inl (Function.update_of_ne new _ _)
  have begun : ∀ task, (next.reloads task).phase = .reloading →
      (process.reloads task).phase = .reloading := by
    intro task phase
    rcases waiting task with old | ⟨_, new⟩
    · rwa [old] at phase
    · rw [new] at phase
      cases phase
  constructor
  · intro task beyond
    rw [calls] at beyond
    rcases waiting task with old | ⟨new, _⟩
    · rw [old]
      exact sound.unused task (Nat.le_of_succ_le beyond)
    · rw [new] at beyond
      exact absurd beyond (Nat.not_succ_le_self _)
  · intro task phase
    rcases waiting task with old | ⟨_, new⟩
    · rw [old] at phase ⊢
      exact sound.idle task phase
    · rw [new]
  · intro task phase
    rw [locked]
    exact sound.locked task (begun task phase)
  · exact fun first second one other => sound.single first second (begun first one) (begun second other)
  · intro task
    rcases waiting task with old | ⟨_, new⟩
    · rw [old]
      exact sound.distinct task
    · rw [new]
      exact List.nodup_nil
  · exact fresh

theorem acquired {task : ℕ} {reload : ReloadTask} (waiting : (process.reloads task).phase = .waiting)
    (unlocked : process.reloadLocked = false) (calls : next.reloadCalls = process.reloadCalls)
    (reloads : next.reloads = Function.update process.reloads task reload)
    (begun : reload.phase = .reloading) (distinct : reload.sleeping.Nodup)
    (locked : next.reloadLocked = true)
    (fresh : FreshSchedulers (next.collectorsManagers, next.nextScheduler)) : next.ReloadSound := by
  have only : ∀ other, (next.reloads other).phase = .reloading → other = task := by
    intro other phase
    by_contra apart
    rw [reloads, Function.update_of_ne apart] at phase
    have held := sound.locked other phase
    rw [unlocked] at held
    cases held
  exact sound.advance (ne_unused_of_reloadPhase waiting (by simp)) calls reloads
    (fun idle => absurd begun idle) distinct (fun _ _ => locked)
    (fun first second one two => (only first one).trans (only second two).symm) fresh

end ReloadSound

private theorem freshSchedulers_step {event : LifecycleEvent}
    (fresh : FreshSchedulers (process.collectorsManagers, process.nextScheduler))
    (taken : process.step operations event = some next) :
    FreshSchedulers (next.collectorsManagers, next.nextScheduler) := by
  cases event with
  | startThrows task resolved =>
    obtain ⟨_, rfl⟩ := enabled taken
    exact fresh.resolveMarkets resolved
  | marketsLoaded task marketIds =>
    obtain ⟨_, rfl⟩ := enabled taken
    have resolved := fresh.resolveMarkets marketIds
    refine ⟨resolved.distinct.sublist (List.filter_sublist.map _), ?_⟩
    exact fun manager member => resolved.below manager (List.mem_of_mem_filter member)
  | statusElapsed =>
    obtain ⟨_, rfl⟩ := enabled taken
    unfold handleStatusMessage
    split
    · exact fresh
    · exact fresh
  | shareHandled reloads | closeHandled reloads =>
    simp only [step] at taken
    split at taken
    · cases taken
    · cases taken
      cases reloads with
      | true => exact fresh
      | false => exact fresh
  | backoffProcessed | policyStopped | stopCalled | startStopExpires | reloadExpires =>
    cases taken
    exact fresh
  | _ =>
    obtain ⟨_, rfl⟩ := enabled taken
    exact fresh

theorem step_of_untimedStep {event : LifecycleEvent}
    (taken : process.untimedStep operations event = some next) :
    event ≠ .reloadExpires ∧ process.step operations event = some next := by
  unfold untimedStep at taken
  split at taken
  · cases taken
  · next timed => exact ⟨timed, taken⟩

/-- With every call that failed ended, one that returns leaves no reload in progress. -/
theorem reloadSound_step (sound : process.ReloadSound) (ended : process.Ended) {event : LifecycleEvent}
    (taken : process.untimedStep operations event = some next) : next.ReloadSound := by
  obtain ⟨timed, taken⟩ := step_of_untimedStep taken
  have fresh := freshSchedulers_step sound.fresh taken
  cases reloadChange_of_step taken with
  | kept calls reloads locked =>
    constructor
    · rw [calls, reloads]
      exact sound.unused
    · rw [reloads]
      exact sound.idle
    · rw [reloads, locked timed]
      exact sound.locked
    · rw [reloads]
      exact sound.single
    · rw [reloads]
      exact sound.distinct
    · exact fresh
  | called calls reloads locked => exact sound.called calls reloads locked fresh
  | acquired waiting unlocked calls reloads locked =>
    have distinct : process.destroyable.Nodup := sound.fresh.distinct.sublist List.filter_sublist
    exact sound.acquired waiting unlocked calls reloads rfl distinct locked fresh
  | @threw task waiting calls reloads locked =>
    have none := sound.idle task (by simp [waiting])
    exact sound.proceed (ne_unused_of_reloadPhase waiting (by simp)) calls reloads (by simp)
      (fun _ => none) (sound.distinct task) (.inl locked) fresh
  | @started task _ sleeps calls reloads locked | @failed task _ sleeps calls reloads locked =>
    have begun := sound.reloading (List.ne_nil_of_mem sleeps)
    exact sound.proceed (ne_unused_of_sleeping sleeps) calls reloads id (fun idle => absurd begun idle)
      ((sound.distinct task).filter _) (.inl locked) fresh
  | @returned task phase done calls reloads locked =>
    have none : (process.reloads task).sleeping = [] := done.elim id (ended task)
    exact sound.proceed (ne_unused_of_reloadPhase phase (by simp)) calls reloads (by simp)
      (fun _ => none) (sound.distinct task) (.inr ⟨by simp, phase⟩) fresh

theorem Ended.advance (ended : process.Ended) {task : ℕ} {reload : ReloadTask}
    (reloads : next.reloads = Function.update process.reloads task reload)
    (done : reload.failed = true → reload.sleeping = []) : next.Ended := by
  intro other failed
  rw [reloads] at failed ⊢
  by_cases here : other = task
  · subst here
    rw [Function.update_self] at failed ⊢
    exact done failed
  · rw [Function.update_of_ne here] at failed ⊢
    exact ended other failed

private theorem ended_step (sound : process.ReloadSound) (ended : process.Ended) {event : LifecycleEvent}
    (lone : process.LoneFailures event) (taken : process.untimedStep operations event = some next) :
    next.Ended := by
  cases reloadChange_of_step (step_of_untimedStep taken).2 with
  | kept _ reloads =>
    intro task failed
    rw [reloads] at failed ⊢
    exact ended task failed
  | called _ reloads => exact ended.advance reloads (fun _ => rfl)
  | acquired _ _ _ reloads =>
    refine ended.advance reloads (fun failed => ?_)
    rcases lone with all | none
    · simp [all] at failed
    · exact none
  | @threw task waiting _ reloads =>
    exact ended.advance reloads (fun _ => sound.idle task (by simp [waiting]))
  | @started task _ sleeps _ reloads =>
    refine ended.advance reloads (fun failed => ?_)
    exact absurd (ended task failed) (List.ne_nil_of_mem sleeps)
  | @failed task scheduler _ _ reloads =>
    refine ended.advance reloads (fun _ => ?_)
    have only : (process.reloads task).sleeping = [scheduler] := lone
    simp [only]
  | @returned task _ _ _ reloads => exact ended.advance reloads (ended task)

/-- A call that failed returns, and one after it begins before its other reloads are over. -/
private theorem overlap_of_failed (sound : process.ReloadSound) {task : ℕ}
    (phase : (process.reloads task).phase = .reloading) (failed : (process.reloads task).failed = true)
    (busy : (process.reloads task).sleeping ≠ []) :
    ∃ events last, Run (untimedStep operations) process events last ∧ ¬ last.ReloadsApart := by
  have apart : task ≠ process.reloadCalls := by
    rintro rfl
    rw [sound.unused _ (Nat.le_refl _)] at phase
    cases phase
  have kept : process.callReload.reloads task = process.reloads task := Function.update_of_ne apart _ _
  let returned : MarketsProcess := { process.callReload.setReload task
    { process.reloads task with phase := .returned } with reloadLocked := false }
  have returns : process.callReload.untimedStep operations (.reloadReturns task) = returned := by
    have guard : (process.reloads task).phase = .reloading ∧
        ((process.reloads task).sleeping = [] ∨ (process.reloads task).failed = true) :=
      ⟨phase, .inr failed⟩
    simp only [untimedStep, step, kept, reduceCtorEq, if_false, if_pos guard]
    rfl
  have waiting : returned.reloads process.reloadCalls = { phase := .waiting } := by
    refine (Function.update_of_ne apart.symm _ _).trans ?_
    exact Function.update_self ..
  have held : returned.reloads task = { process.reloads task with phase := .returned } :=
    Function.update_self ..
  let begun : ReloadTask := { phase := .reloading, sleeping := returned.destroyable,
                              failed := returned.destroyable ≠ returned.managedSchedulers }
  let last : MarketsProcess := { returned.destroySchedulers.setReload process.reloadCalls begun with
    reloadLocked := true }
  have acquires : returned.untimedStep operations (.reloadAcquires process.reloadCalls) = last := by
    simp only [untimedStep, step, waiting, reduceCtorEq, if_false]
    rfl
  have calls : process.untimedStep operations .backoffProcessed = process.callReload := rfl
  refine ⟨_, last, .cons calls (.cons returns (.cons acquires (.nil _))), fun overlap => ?_⟩
  refine apart (overlap.before task process.reloadCalls ?_ ?_)
  · have same : last.reloads task = returned.reloads task := Function.update_of_ne apart _ _
    rw [same, held]
    exact busy
  · have began : last.reloads process.reloadCalls = begun := Function.update_self ..
    rw [began]

/-- The step that goes wrong leaves a failed call with reloads in progress. -/
private theorem failed_of_not_lone (sound : process.ReloadSound) {event : LifecycleEvent}
    (taken : process.untimedStep operations event = some next) (crossed : ¬ process.LoneFailures event) :
    ∃ task, (next.reloads task).phase = .reloading ∧ (next.reloads task).failed = true ∧
      (next.reloads task).sleeping ≠ [] := by
  cases event with
  | reloadAcquires task =>
    obtain ⟨_, rfl⟩ := enabled taken
    obtain ⟨threw, busy⟩ := not_or.mp crossed
    refine ⟨task, ?_⟩
    simp only [setReload, Function.update_self]
    exact ⟨trivial, decide_eq_true threw, busy⟩
  | reloadFails task scheduler =>
    obtain ⟨sleeps, rfl⟩ := enabled taken
    have phase := sound.reloading (List.ne_nil_of_mem sleeps)
    have others : (process.reloads task).sleeping.filter (fun other => other ≠ scheduler) ≠ [] := by
      intro none
      have alike : ∀ other ∈ (process.reloads task).sleeping, other = scheduler := by
        simpa [List.filter_eq_nil_iff] using none
      have copies := List.eq_replicate_of_mem alike
      have distinct := sound.distinct task
      have one : (process.reloads task).sleeping.length = 1 := by
        rw [copies, List.nodup_replicate] at distinct
        exact Nat.le_antisymm distinct (List.length_pos_of_mem sleeps)
      rw [one] at copies
      exact crossed copies
    refine ⟨task, ?_⟩
    simp only [setReload, Function.update_self]
    exact ⟨phase, trivial, others⟩
  | _ => exact absurd trivial crossed

private theorem reloadSound_initial : ({} : MarketsProcess).ReloadSound where
  unused _ _ := rfl
  idle _ _ := rfl
  locked _ phase := by cases phase
  single _ _ phase := by cases phase
  distinct _ := List.nodup_nil
  fresh := ⟨List.nodup_nil, fun _ member => by cases member⟩

private theorem ended_initial : ({} : MarketsProcess).Ended := by
  intro _ failed
  cases failed

private theorem run_reloadSound {events : List LifecycleEvent}
    (run : Run (untimedStep operations) {} events process)
    (lone : Throughout (untimedStep operations) LoneFailures {} events) :
    process.ReloadSound ∧ process.Ended := by
  let holds (state : MarketsProcess) : Prop := state.ReloadSound ∧ state.Ended
  have preserved : ∀ {state event next}, holds state → LoneFailures state event →
      untimedStep operations state event = some next → holds next := by
    rintro state event next ⟨sound, ended⟩ alone taken
    exact ⟨reloadSound_step sound ended taken, ended_step sound ended alone taken⟩
  have initial : holds {} := ⟨reloadSound_initial, ended_initial⟩
  have last : holds process := run.invariant_throughout preserved lone initial
  exact last

/-- The reloads of a scheduler are apart in every run in which a reload only fails when no
other one of its call is in progress, and after each step that breaks this they can come
to overlap. -/
theorem reloads_apart {events : List LifecycleEvent}
    (run : Run (untimedStep operations) {} events process)
    (lone : Throughout (untimedStep operations) LoneFailures {} events) :
    process.ReloadsApart ∧ ∀ event next, process.untimedStep operations event = some next →
      ¬ process.LoneFailures event →
        ∃ more last, Run (untimedStep operations) next more last ∧ ¬ last.ReloadsApart := by
  obtain ⟨sound, ended⟩ := run_reloadSound run lone
  refine ⟨sound.reloadsApart, fun event next taken crossed => ?_⟩
  obtain ⟨task, phase, failed, busy⟩ := failed_of_not_lone sound taken crossed
  exact overlap_of_failed (reloadSound_step sound ended taken) phase failed busy

/-- Two markets, and reloads after two rate limits. -/
def twoReloads : List LifecycleEvent :=
  [.statusArrives, .statusElapsed, .startAcquires 0, .marketsLoaded 0 [10, 11], .contextLoaded 0 0,
    .schedulerStarted 0 0, .contextLoaded 0 1, .schedulerStarted 0 1, .startReturns 0,
    .backoffProcessed, .reloadAcquires 0, .reloadStarts 0 0, .reloadFails 0 1, .reloadReturns 0,
    .backoffProcessed, .reloadAcquires 1]

theorem twoReloads_runs : (execute (untimedStep 1) {} twoReloads).isSome := by decide +kernel

/-- The market of scheduler 1 fails when no other reload is in progress. -/
theorem reloads_apart_twoReloads :
    ((execute (untimedStep 1) {} twoReloads).get twoReloads_runs).ReloadsApart :=
  (reloads_apart (run_iff_execute.mpr (Option.some_get twoReloads_runs).symm) (by decide +kernel)).1

/-- One of two markets fails to start, so that its scheduler throws at every reload while
the other scheduler sleeps. -/
def failingMarket : List LifecycleEvent :=
  [.statusArrives, .statusElapsed, .startAcquires 0, .marketsLoaded 0 [10, 11], .contextLoaded 0 0,
    .schedulerStarted 0 0, .marketFails 0 1, .startReturns 0,
    .backoffProcessed, .reloadAcquires 0, .backoffProcessed, .reloadReturns 0, .reloadAcquires 1]

theorem failingMarket_runs : (execute (untimedStep 1) {} failingMarket).isSome := by decide +kernel

/-- The second call finds scheduler 0 asleep in the first, and both will start it. -/
theorem not_reloadsApart_failingMarket : ¬ ∀ (operations : ℕ) (events : List LifecycleEvent)
    (process : MarketsProcess), Run (untimedStep operations) {} events process →
      process.ReloadsApart := by
  intro always
  have apart := always 1 failingMarket ((execute (untimedStep 1) {} failingMarket).get failingMarket_runs)
    (run_iff_execute.mpr (Option.some_get failingMarket_runs).symm)
  have same : 0 = 1 := apart.single 0 0 1 (by decide +kernel) (by decide +kernel)
  cases same

end MarketsProcess

end PriceFeed.Collectors
