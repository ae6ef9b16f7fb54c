import PriceFeed.Collectors.MarketsManager

/-! The stop of the markets: which of the calls, sleeps and buffers that it finds can
still bring a scheduler back after it has returned. -/

namespace PriceFeed.Collectors

open PriceFeed.Library PriceFeed.Schedulers

namespace MarketsProcess

variable (operations : ℕ)

/-- The steps after a stop. The backoff policy is stopped before the discovery
policy, so it passes no further message on. -/
def laterStep (process : MarketsProcess) (event : LifecycleEvent) : Option MarketsProcess :=
  if event = .backoffProcessed then none else process.step operations event

/-- Once this stop has returned nothing is left that could start an operation, however
the process goes on. -/
def StopFinal (task : ℕ) (stopped : MarketsProcess) : Prop :=
  ∀ events process, Run (laterStep operations) stopped events process →
    process.stops task = .returned → ∀ scheduler, (process.schedulers scheduler).Silent

/-- A STATUS message can still come to its handler. -/
def StatusPending (process : MarketsProcess) : Prop :=
  process.channelOpen = true ∨ process.statusArmed = true

/-- A call of `reloadActive` waits, or a SHARE or CLOSE message can still come to its handler. -/
def ReloadPending (process : MarketsProcess) : Prop :=
  process.channelOpen = true ∨ process.shareArmed = true ∨ process.closeArmed = true ∨
    process.waitingShares ≠ 0 ∨ process.waitingCloses ≠ 0 ∨
    ∃ task, (process.reloads task).phase = .waiting

/-- No start is on its way, no reload sleeps, and no message can bring a new one. -/
structure Settled (process : MarketsProcess) : Prop where
  starts : ∀ task, (process.starts task).phase ≠ .waiting ∧
    (process.starts task).phase ≠ .loadingMarkets ∧ (process.starts task).markets = []
  sleeping : ∀ task, (process.reloads task).sleeping = []
  status : process.hasStarted = true ∨ ¬ process.StatusPending
  reload : (∀ scheduler ∈ process.managedSchedulers,
    (process.schedulers scheduler).cronTask = none) ∨ ¬ process.ReloadPending

/-- What a stop that is final finds: besides, each live cron task and timer belongs
to a managed scheduler that refers to it. -/
structure StopReaches (process : MarketsProcess) : Prop where
  settled : process.Settled
  held : ∀ scheduler ∈ process.managedSchedulers, (process.schedulers scheduler).Held
  unmanaged : ∀ scheduler ∉ process.managedSchedulers, (process.schedulers scheduler).Silent

structure Finished (process : MarketsProcess) : Prop where
  settled : process.Settled
  silent : ∀ scheduler, (process.schedulers scheduler).Silent

variable {operations}
variable {process next : MarketsProcess} {task scheduler : ℕ}

theorem destroySchedulers_managed (member : scheduler ∈ process.managedSchedulers) :
    process.destroySchedulers.schedulers scheduler =
      (process.schedulers scheduler).destroyScheduler.getD (process.schedulers scheduler) := by
  simp [destroySchedulers, member]

theorem destroySchedulers_unmanaged (unmanaged : scheduler ∉ process.managedSchedulers) :
    process.destroySchedulers.schedulers scheduler = process.schedulers scheduler := by
  simp [destroySchedulers, unmanaged]

theorem destroySchedulers_cronTask (scheduler : ℕ) :
    (process.destroySchedulers.schedulers scheduler).cronTask =
      (process.schedulers scheduler).cronTask := by
  by_cases member : scheduler ∈ process.managedSchedulers
  · rw [destroySchedulers_managed member, SchedulerRuntime.destroyScheduler]
    split
    · rfl
    · rfl
  · rw [destroySchedulers_unmanaged member]

/-- A stop silences exactly the schedulers that hold what is live. -/
theorem destroySchedulers_silent_iff :
    (∀ scheduler, (process.destroySchedulers.schedulers scheduler).Silent) ↔
      (∀ scheduler ∈ process.managedSchedulers, (process.schedulers scheduler).Held) ∧
      ∀ scheduler ∉ process.managedSchedulers, (process.schedulers scheduler).Silent := by
  constructor
  · intro silent
    constructor
    · intro scheduler member
      have stopped := silent scheduler
      rw [destroySchedulers_managed member] at stopped
      exact SchedulerRuntime.held_iff.mpr stopped
    · intro scheduler unmanaged
      have stopped := silent scheduler
      rwa [destroySchedulers_unmanaged unmanaged] at stopped
  · intro ⟨held, unmanaged⟩ scheduler
    by_cases member : scheduler ∈ process.managedSchedulers
    · rw [destroySchedulers_managed member]
      exact SchedulerRuntime.held_iff.mp (held scheduler member)
    · rw [destroySchedulers_unmanaged member]
      exact unmanaged scheduler member

theorem sleeping_setReload {reload : ReloadTask} (awake : ∀ task, (process.reloads task).sleeping = [])
    (sleeping : reload.sleeping = []) (other : ℕ) :
    ((process.setReload task reload).reloads other).sleeping = [] := by
  by_cases here : other = task
  · simp [setReload, here, sleeping]
  · simp [setReload, Function.update_of_ne here, awake other]

theorem reloadPending_setReload {reload : ReloadTask} (phase : reload.phase ≠ .waiting)
    (pending : (process.setReload task reload).ReloadPending) : process.ReloadPending := by
  refine pending.imp_right (.imp_right (.imp_right (.imp_right (.imp_right ?_))))
  intro ⟨other, waiting⟩
  by_cases here : other = task
  · simp only [setReload, here, Function.update_self] at waiting
    exact absurd waiting phase
  · simp only [setReload, Function.update_of_ne here] at waiting
    exact ⟨other, waiting⟩

private theorem destroyable_nil (uncreated : ∀ scheduler ∈ process.managedSchedulers,
    (process.schedulers scheduler).cronTask = none) : process.destroyable = [] := by
  refine List.filter_eq_nil_iff.mpr fun scheduler member => ?_
  simp [SchedulerRuntime.destroyScheduler, uncreated scheduler member]

/-- Clearing the schedulers stops no call and no sleep. -/
theorem settled_destroySchedulers : process.destroySchedulers.Settled ↔ process.Settled := by
  constructor
  · intro settled
    refine ⟨settled.starts, settled.sleeping, settled.status, settled.reload.imp_left ?_⟩
    intro uncreated scheduler member
    rw [← destroySchedulers_cronTask]
    exact uncreated scheduler member
  · intro settled
    refine ⟨settled.starts, settled.sleeping, settled.status, settled.reload.imp_left ?_⟩
    intro uncreated scheduler member
    rw [destroySchedulers_cronTask]
    exact uncreated scheduler member

/-- A step that only passes messages and calls on. -/
theorem Settled.pass (settled : process.Settled) (starts : next.starts = process.starts)
    (managers : next.collectorsManagers = process.collectorsManagers)
    (schedulers : next.schedulers = process.schedulers)
    (sleeping : ∀ task, (next.reloads task).sleeping = [])
    (status : process.hasStarted = true ∨ ¬ process.StatusPending →
      next.hasStarted = true ∨ ¬ next.StatusPending)
    (pending : next.ReloadPending → process.ReloadPending) : next.Settled where
  starts := by
    rw [starts]
    exact settled.starts
  sleeping := sleeping
  status := status settled.status
  reload := by
    rw [managedSchedulers, managers, schedulers]
    cases settled.reload with
    | inl uncreated => exact .inl uncreated
    | inr quiet => exact .inr fun later => quiet (pending later)

namespace Finished

theorem pass (finished : process.Finished) (starts : next.starts = process.starts)
    (managers : next.collectorsManagers = process.collectorsManagers)
    (schedulers : next.schedulers = process.schedulers)
    (sleeping : ∀ task, (next.reloads task).sleeping = [])
    (status : process.hasStarted = true ∨ ¬ process.StatusPending →
      next.hasStarted = true ∨ ¬ next.StatusPending)
    (pending : next.ReloadPending → process.ReloadPending) : next.Finished where
  settled := finished.settled.pass starts managers schedulers sleeping status pending
  silent := by
    rw [schedulers]
    exact finished.silent

/-- A step of a start that has no market left. -/
theorem start (finished : process.Finished) {start : StartTask}
    (starts : next.starts = Function.update process.starts task start)
    (phase : start.phase = .returned) (markets : start.markets = [])
    (managers : next.collectorsManagers = process.collectorsManagers)
    (schedulers : next.schedulers = process.schedulers) (reloads : next.reloads = process.reloads)
    (status : process.hasStarted = true ∨ ¬ process.StatusPending →
      next.hasStarted = true ∨ ¬ next.StatusPending)
    (pending : next.ReloadPending → process.ReloadPending) : next.Finished := by
  have later : { next with starts := process.starts }.Finished :=
    finished.pass rfl managers schedulers (reloads ▸ finished.settled.sleeping) status pending
  refine ⟨⟨fun other => ?_, later.settled.sleeping, later.settled.status, later.settled.reload⟩,
    later.silent⟩
  rw [starts]
  by_cases here : other = task
  · rw [here, Function.update_self, phase, markets]
    simp
  · rw [Function.update_of_ne here]
    exact finished.settled.starts other

/-- A reload that no scheduler can follow. -/
theorem callReload (finished : process.Finished)
    (uncreated : ∀ scheduler ∈ process.managedSchedulers,
      (process.schedulers scheduler).cronTask = none) : process.callReload.Finished where
  settled.starts := finished.settled.starts
  settled.sleeping := sleeping_setReload finished.settled.sleeping rfl
  settled.status := finished.settled.status
  settled.reload := .inl uncreated
  silent := finished.silent

/-- The handler of a message, which calls for a reload if its vote does. -/
theorem mayReload (finished : process.Finished)
    (uncreated : ∀ scheduler ∈ process.managedSchedulers,
      (process.schedulers scheduler).cronTask = none) (reloads : Bool) :
    (if reloads then process.callReload else process).Finished := by
  cases reloads with
  | true => exact finished.callReload uncreated
  | false => exact finished

/-- A further stop finds nothing to clear. -/
theorem destroySchedulers (finished : process.Finished) : process.destroySchedulers.Finished where
  settled := settled_destroySchedulers.mpr finished.settled
  silent := destroySchedulers_silent_iff.mpr ⟨fun scheduler _ => (finished.silent scheduler).held,
    fun scheduler _ => finished.silent scheduler⟩

end Finished

private theorem finished_step (finished : process.Finished) {event : LifecycleEvent}
    (taken : process.laterStep operations event = some next) : next.Finished := by
  unfold laterStep at taken
  split at taken
  · cases taken
  · next inside =>
    cases event with
    | statusArrives =>
      obtain ⟨channel, rfl⟩ := enabled taken
      exact finished.pass rfl rfl rfl finished.settled.sleeping
        (fun status => .inl (status.resolve_right fun quiet => quiet (.inl channel))) id
    | statusElapsed =>
      obtain ⟨armed, rfl⟩ := enabled taken
      have started : process.hasStarted = true :=
        finished.settled.status.resolve_right fun quiet => quiet (.inr armed)
      simp only [handleStatusMessage, started, if_true]
      exact finished.pass rfl rfl rfl finished.settled.sleeping (fun _ => .inl rfl) id
    | shareArrives =>
      obtain ⟨channel, rfl⟩ := enabled taken
      exact finished.pass rfl rfl rfl finished.settled.sleeping id fun _ => .inl channel
    | shareElapsed =>
      obtain ⟨armed, rfl⟩ := enabled taken
      exact finished.pass rfl rfl rfl finished.settled.sleeping id fun _ => .inr (.inl armed)
    | shareHandled reloads =>
      simp only [step] at taken
      split at taken
      · cases taken
      · next waiting =>
        cases taken
        have pending : process.ReloadPending := .inr (.inr (.inr (.inl waiting)))
        have uncreated := finished.settled.reload.resolve_right fun quiet => quiet pending
        have handled : { process with waitingShares := process.waitingShares - 1 }.Finished :=
          finished.pass rfl rfl rfl finished.settled.sleeping id fun _ => pending
        exact handled.mayReload uncreated reloads
    | closeArrives =>
      obtain ⟨channel, rfl⟩ := enabled taken
      exact finished.pass rfl rfl rfl finished.settled.sleeping id fun _ => .inl channel
    | closeElapsed =>
      obtain ⟨armed, rfl⟩ := enabled taken
      exact finished.pass rfl rfl rfl finished.settled.sleeping id fun _ => .inr (.inr (.inl armed))
    | closeHandled reloads =>
      simp only [step] at taken
      split at taken
      · cases taken
      · next waiting =>
        cases taken
        have pending : process.ReloadPending := .inr (.inr (.inr (.inr (.inl waiting))))
        have uncreated := finished.settled.reload.resolve_right fun quiet => quiet pending
        have handled : { process with waitingCloses := process.waitingCloses - 1 }.Finished :=
          finished.pass rfl rfl rfl finished.settled.sleeping id fun _ => pending
        exact handled.mayReload uncreated reloads
    | backoffProcessed => exact absurd rfl inside
    | policyStopped =>
      cases taken
      exact finished.pass rfl rfl rfl finished.settled.sleeping
        (.imp_right fun quiet pending => quiet (.inr (pending.resolve_left (by simp [callStop, setStop]))))
        fun pending => .inr (pending.resolve_left (by simp [callStop, setStop]))
    | stopCalled =>
      cases taken
      exact finished.pass rfl rfl rfl finished.settled.sleeping id id
    | startAcquires task =>
      simp only [step] at taken
      split at taken
      · next ready => exact absurd ready.1 (finished.settled.starts task).1
      · cases taken
    | startThrows task resolved =>
      simp only [step] at taken
      split at taken
      · next loading => exact absurd loading (finished.settled.starts task).2.1
      · cases taken
    | marketsLoaded task marketIds =>
      simp only [step] at taken
      split at taken
      · next loading => exact absurd loading (finished.settled.starts task).2.1
      · cases taken
    | contextLoaded task scheduler =>
      simp [step, (finished.settled.starts task).2.2] at taken
    | schedulerStarted task scheduler =>
      simp [step, (finished.settled.starts task).2.2] at taken
    | marketFails task scheduler =>
      simp [step, (finished.settled.starts task).2.2] at taken
    | startReturns task =>
      obtain ⟨_, rfl⟩ := enabled taken
      exact finished.start rfl rfl (finished.settled.starts task).2.2 rfl rfl rfl
        (.imp_left fun started => by simp [started]) id
    | stopAcquires task =>
      obtain ⟨_, rfl⟩ := enabled taken
      have destroyed := finished.destroySchedulers
      exact destroyed.pass rfl rfl rfl destroyed.settled.sleeping id id
    | stopReturns task =>
      obtain ⟨_, rfl⟩ := enabled taken
      exact finished.pass rfl rfl rfl finished.settled.sleeping id id
    | reloadAcquires task =>
      obtain ⟨ready, rfl⟩ := enabled taken
      have pending : process.ReloadPending := .inr (.inr (.inr (.inr (.inr ⟨task, ready.1⟩))))
      have uncreated := finished.settled.reload.resolve_right fun quiet => quiet pending
      exact finished.destroySchedulers.pass rfl rfl rfl
        (sleeping_setReload finished.settled.sleeping (destroyable_nil uncreated)) id fun _ => pending
    | reloadThrows task =>
      obtain ⟨_, rfl⟩ := enabled taken
      exact finished.pass rfl rfl rfl
        (sleeping_setReload finished.settled.sleeping (finished.settled.sleeping task)) id
        (reloadPending_setReload (by simp))
    | reloadStarts task scheduler =>
      simp [step, finished.settled.sleeping task] at taken
    | reloadFails task scheduler =>
      simp [step, finished.settled.sleeping task] at taken
    | reloadReturns task =>
      obtain ⟨_, rfl⟩ := enabled taken
      exact finished.pass rfl rfl rfl
        (sleeping_setReload finished.settled.sleeping (finished.settled.sleeping task)) id
        (fun pending => reloadPending_setReload (by simp) pending)
    | startStopExpires =>
      cases taken
      exact finished.pass rfl rfl rfl finished.settled.sleeping id id
    | reloadExpires =>
      cases taken
      exact finished.pass rfl rfl rfl finished.settled.sleeping id id
    | cronTicks scheduler cron =>
      simp [step, (finished.silent scheduler).crons] at taken
    | clusterFires scheduler timer =>
      simp [step, (finished.silent scheduler).clusterTimers] at taken
    | batchFires scheduler timer lastCycle =>
      simp [step, (finished.silent scheduler).batchTimers] at taken
    | operationFires scheduler timer =>
      simp [step, (finished.silent scheduler).operationTimers] at taken

/-- The process can come to a live cron task although the stop has returned. -/
def Wakes (operations task : ℕ) (process : MarketsProcess) : Prop :=
  ∃ events last scheduler, Run (laterStep operations) process events last ∧
    last.stops task = .returned ∧ (last.schedulers scheduler).crons ≠ []

theorem wakes_before {event : LifecycleEvent}
    (taken : process.laterStep operations event = some next)
    (wakes : Wakes operations task next) : Wakes operations task process := by
  obtain ⟨events, last, scheduler, run, returned, live⟩ := wakes
  exact ⟨event :: events, last, scheduler, .cons taken run, returned, live⟩

private theorem not_stopFinal_of_wakes (wakes : Wakes operations task process) :
    ¬ process.StopFinal operations task := by
  intro final
  obtain ⟨events, last, scheduler, run, returned, live⟩ := wakes
  exact live (final events last run returned scheduler).crons

theorem wakes_of_started (process : MarketsProcess) (scheduler : ℕ)
    (returned : next.stops task = .returned)
    (schedulers : next.schedulers =
      (process.setScheduler scheduler (process.schedulers scheduler).initializeScheduler).schedulers) :
    Wakes operations task next := by
  refine ⟨[], next, scheduler, .nil _, returned, ?_⟩
  rw [schedulers]
  simp [setScheduler, SchedulerRuntime.initializeScheduler]

private theorem exists_resolveMarket (resolved : List CollectorsManager × ℕ) (marketId : ℕ) :
    ∃ manager ∈ (resolveMarket resolved marketId).1, manager.marketId = marketId := by
  unfold resolveMarket
  split
  · next known => exact known
  · exact ⟨⟨marketId, resolved.2⟩, by simp, rfl⟩

section Waking

variable (returned : process.stops task = .returned) (call : ℕ)

include returned

theorem wakes_of_sleeping (scheduler : ℕ)
    (sleeping : scheduler ∈ (process.reloads call).sleeping) :
    Wakes operations task process := by
  have taken : process.laterStep operations (.reloadStarts call scheduler) = some _ :=
    if_pos sleeping
  apply wakes_before taken
  exact wakes_of_started process scheduler returned rfl

theorem wakes_of_connecting (scheduler : ℕ)
    (market : ⟨scheduler, .connecting⟩ ∈ (process.starts call).markets) :
    Wakes operations task process := by
  have taken : process.laterStep operations (.schedulerStarted call scheduler) = some _ :=
    if_pos market
  apply wakes_before taken
  exact wakes_of_started process scheduler returned rfl

theorem wakes_of_market (market : StartingMarket)
    (member : market ∈ (process.starts call).markets) :
    Wakes operations task process := by
  obtain ⟨scheduler, phase⟩ := market
  cases phase with
  | connecting => exact wakes_of_connecting returned call scheduler member
  | loadingContext =>
    have taken : process.laterStep operations (.contextLoaded call scheduler) = some _ :=
      if_pos member
    apply wakes_before taken
    refine wakes_of_connecting returned call scheduler ?_
    simp only [setStart, Function.update_self]
    exact List.mem_map.mpr ⟨_, member, by simp⟩

theorem wakes_of_loadingMarkets (loading : (process.starts call).phase = .loadingMarkets) :
    Wakes operations task process := by
  have taken : process.laterStep operations (.marketsLoaded call [0]) = some _ := if_pos loading
  obtain ⟨manager, member, enabled⟩ :=
    exists_resolveMarket (process.collectorsManagers, process.nextScheduler) 0
  apply wakes_before taken
  refine wakes_of_market returned call ⟨manager.scheduler, .loadingContext⟩ ?_
  simp only [setStart, Function.update_self]
  have managed : manager.scheduler ∈
      ((process.resolveMarkets [0]).clearDisabledMarkets [0]).managedSchedulers :=
    List.mem_map_of_mem (List.mem_filter.mpr ⟨member, by simp [enabled]⟩)
  exact List.mem_map_of_mem managed

theorem wakes_of_startWaiting (waiting : (process.starts call).phase = .waiting) :
    Wakes operations task process := by
  have released : process.laterStep operations .startStopExpires = some _ := rfl
  have ready : (process.starts call).phase = .waiting ∧ false = false := ⟨waiting, rfl⟩
  have taken : { process with startStopLocked := false }.laterStep operations (.startAcquires call) =
    some _ := if_pos ready
  apply wakes_before released
  apply wakes_before taken
  refine wakes_of_loadingMarkets returned call ?_
  simp [setStart]

theorem wakes_of_statusArmed (unstarted : process.hasStarted = false)
    (armed : process.statusArmed = true) : Wakes operations task process := by
  have taken : process.laterStep operations .statusElapsed = some _ := if_pos armed
  apply wakes_before taken
  simp only [handleStatusMessage, unstarted]
  refine wakes_of_startWaiting returned process.startCalls ?_
  simp [callStart, setStart]

private theorem wakes_of_statusPending (unstarted : process.hasStarted = false)
    (pending : process.StatusPending) : Wakes operations task process := by
  cases pending with
  | inl channel =>
    have taken : process.laterStep operations .statusArrives = some _ := if_pos channel
    apply wakes_before taken
    exact wakes_of_statusArmed returned unstarted rfl
  | inr armed => exact wakes_of_statusArmed returned unstarted armed

variable (member : scheduler ∈ process.managedSchedulers)
variable (created : (process.schedulers scheduler).cronTask ≠ none)

include member created

theorem wakes_of_reloadWaiting (waiting : (process.reloads call).phase = .waiting) :
    Wakes operations task process := by
  have released : process.laterStep operations .reloadExpires = some _ := rfl
  have ready : (process.reloads call).phase = .waiting ∧ false = false := ⟨waiting, rfl⟩
  have taken : { process with reloadLocked := false }.laterStep operations (.reloadAcquires call) =
    some _ := if_pos ready
  apply wakes_before released
  apply wakes_before taken
  refine wakes_of_sleeping returned call scheduler ?_
  simp only [setReload, Function.update_self]
  refine List.mem_filter.mpr ⟨member, ?_⟩
  simp [SchedulerRuntime.destroyScheduler, created]

theorem wakes_of_callReload : Wakes operations task process.callReload := by
  refine wakes_of_reloadWaiting returned process.reloadCalls member created ?_
  simp [callReload, setReload]

theorem wakes_of_waitingShares (waiting : process.waitingShares ≠ 0) :
    Wakes operations task process := by
  have taken : process.laterStep operations (.shareHandled true) = some _ := if_neg waiting
  apply wakes_before taken
  exact wakes_of_callReload returned member created

theorem wakes_of_shareArmed (armed : process.shareArmed = true) : Wakes operations task process := by
  have taken : process.laterStep operations .shareElapsed = some _ := if_pos armed
  apply wakes_before taken
  exact wakes_of_waitingShares returned member created (Nat.succ_ne_zero _)

theorem wakes_of_waitingCloses (waiting : process.waitingCloses ≠ 0) :
    Wakes operations task process := by
  have taken : process.laterStep operations (.closeHandled true) = some _ := if_neg waiting
  apply wakes_before taken
  exact wakes_of_callReload returned member created

private theorem wakes_of_closeArmed (armed : process.closeArmed = true) : Wakes operations task process := by
  have taken : process.laterStep operations .closeElapsed = some _ := if_pos armed
  apply wakes_before taken
  exact wakes_of_waitingCloses returned member created (Nat.succ_ne_zero _)

private theorem wakes_of_reloadPending (pending : process.ReloadPending) :
    Wakes operations task process := by
  rcases pending with channel | share | close | shares | closes | ⟨call, waiting⟩
  · have taken : process.laterStep operations .shareArrives = some _ := if_pos channel
    apply wakes_before taken
    exact wakes_of_shareArmed returned member created rfl
  · exact wakes_of_shareArmed returned member created share
  · exact wakes_of_closeArmed returned member created close
  · exact wakes_of_waitingShares returned member created shares
  · exact wakes_of_waitingCloses returned member created closes
  · exact wakes_of_reloadWaiting returned call member created waiting

end Waking

private theorem settled_of_not_wakes (returned : process.stops task = .returned)
    (asleep : ¬ Wakes operations task process) : process.Settled where
  starts call := by
    refine ⟨fun waiting => asleep (wakes_of_startWaiting returned call waiting),
      fun loading => asleep (wakes_of_loadingMarkets returned call loading), ?_⟩
    refine List.eq_nil_iff_forall_not_mem.mpr fun market member => ?_
    exact asleep (wakes_of_market returned call market member)
  sleeping call := by
    refine List.eq_nil_iff_forall_not_mem.mpr fun scheduler sleeping => ?_
    exact asleep (wakes_of_sleeping returned call scheduler sleeping)
  status := by
    cases unstarted : process.hasStarted with
    | true => exact .inl rfl
    | false => exact .inr fun pending => asleep (wakes_of_statusPending returned unstarted pending)
  reload := by
    by_cases pending : process.ReloadPending
    · refine .inl fun scheduler member => ?_
      by_contra created
      exact asleep (wakes_of_reloadPending returned member created pending)
    · exact .inr pending

/-- What a final stop leaves behind, seen when it returns. -/
private theorem finished_of_stopFinal (stopping : process.stops task = .stopping)
    (final : process.StopFinal operations task) : process.Finished := by
  have taken : process.laterStep operations (.stopReturns task) =
      some { process.setStop task .returned with startStopLocked := false } := if_pos stopping
  have returned : { process.setStop task .returned with startStopLocked := false }.stops task =
      .returned := Function.update_self ..
  have settled := settled_of_not_wakes returned fun wakes =>
    not_stopFinal_of_wakes (wakes_before taken wakes) final
  have silent := final [.stopReturns task] _ (.cons taken (.nil _)) returned
  exact ⟨settled.pass rfl rfl rfl settled.sleeping id id, silent⟩

private theorem stopFinal_of_finished (finished : process.Finished) : process.StopFinal operations task := by
  intro events last run _
  have later : last.Finished :=
    run.invariant (fun finished taken => finished_step finished taken) finished
  exact later.silent

/-- A stop is final exactly when it finds each live cron task and timer under its
scheduler, and nothing under way that it does not wait for: no start, no sleeping
reload, no handler behind an armed buffer. -/
theorem stopFinal_iff {stopped : MarketsProcess}
    (taken : process.step operations (.stopAcquires task) = some stopped) :
    stopped.StopFinal operations task ↔ process.StopReaches := by
  obtain ⟨_, rfl⟩ := enabled taken
  constructor
  · intro final
    have finished := finished_of_stopFinal (Function.update_self ..) final
    have destroyed : process.destroySchedulers.Settled :=
      finished.settled.pass rfl rfl rfl finished.settled.sleeping id id
    obtain ⟨held, unmanaged⟩ := destroySchedulers_silent_iff.mp finished.silent
    exact ⟨settled_destroySchedulers.mp destroyed, held, unmanaged⟩
  · intro reaches
    have silent := destroySchedulers_silent_iff.mpr ⟨reaches.held, reaches.unmanaged⟩
    have finished : process.destroySchedulers.Finished :=
      ⟨settled_destroySchedulers.mpr reaches.settled, silent⟩
    exact stopFinal_of_finished (finished.pass rfl rfl rfl finished.settled.sleeping id id)

/-- The policy stops while a reload after a rate limit sleeps between its two phases. -/
def sleepingReload : List LifecycleEvent :=
  [.statusArrives, .statusElapsed, .startAcquires 0, .marketsLoaded 0 [7], .contextLoaded 0 0,
    .schedulerStarted 0 0, .startReturns 0, .backoffProcessed, .reloadAcquires 0, .policyStopped]

theorem sleepingReload_runs : (execute (step 1) {} sleepingReload).isSome := by decide +kernel

def beforeStop : MarketsProcess := (execute (step 1) {} sleepingReload).get sleepingReload_runs

theorem beforeStop_stops : (beforeStop.step 1 (.stopAcquires 0)).isSome := by decide +kernel

def duringStop : MarketsProcess := (beforeStop.step 1 (.stopAcquires 0)).get beforeStop_stops

theorem run_duringStop :
    Run (step 1) {} sleepingReload beforeStop ∧ beforeStop.step 1 (.stopAcquires 0) = some duringStop :=
  ⟨run_iff_execute.mpr (Option.some_get sleepingReload_runs).symm, (Option.some_get beforeStop_stops).symm⟩

theorem duringStop_runs :
    (execute (laterStep 1) duringStop [.stopReturns 0, .reloadStarts 0 0]).isSome := by decide +kernel

def afterStop : MarketsProcess :=
  (execute (laterStep 1) duringStop [.stopReturns 0, .reloadStarts 0 0]).get duringStop_runs

/-- The reload wakes up after the stop and starts its scheduler. -/
theorem stop_notFinal : ¬ ∀ (operations : ℕ) (events : List LifecycleEvent) (process : MarketsProcess)
    (task : ℕ) (stopped : MarketsProcess), Run (step operations) {} events process →
      process.step operations (.stopAcquires task) = some stopped →
        stopped.StopFinal operations task := by
  intro always
  obtain ⟨run, taken⟩ := run_duringStop
  have final := always 1 sleepingReload beforeStop 0 duringStop run taken
  have returned : afterStop.stops 0 = .returned := by decide +kernel
  have live : (afterStop.schedulers 0).crons = [1] := by decide +kernel
  have later : Run (laterStep 1) duringStop [.stopReturns 0, .reloadStarts 0 0] afterStop :=
    run_iff_execute.mpr (Option.some_get duringStop_runs).symm
  have silent := final _ _ later returned 0
  rw [silent.crons] at live
  cases live

theorem stopFinal_iff_duringStop : duringStop.StopFinal 1 0 ↔ beforeStop.StopReaches :=
  stopFinal_iff run_duringStop.2

end MarketsProcess

end PriceFeed.Collectors
