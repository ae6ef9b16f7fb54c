import Mathlib.Data.List.Nodup
import PriceFeed.Collectors.MarketsManager

/-! The start of the policy: STATUS messages, the firings of their buffer, and the
steps of `MarketsManager.start` in any order. -/

namespace PriceFeed.Collectors

open PriceFeed.Library PriceFeed.Schedulers

/-- STATUS arrivals, firings of the STATUS buffer, the steps of `start`, and the
timers of the schedulers it has started. -/
def LifecycleEvent.OfStart : LifecycleEvent → Bool
  | .statusArrives | .statusElapsed | .startAcquires _ | .startThrows _ _ | .marketsLoaded _ _
  | .contextLoaded _ _ | .schedulerStarted _ _ | .marketFails _ _ | .startReturns _
  | .startStopExpires | .cronTicks _ _ | .clusterFires _ _ | .batchFires _ _ _
  | .operationFires _ _ => true
  | _ => false

namespace MarketsProcess

variable (operations : ℕ)

/-- The process before anything else than its start happens. -/
def startStep (process : MarketsProcess) (event : LifecycleEvent) : Option MarketsProcess :=
  if event.OfStart then process.step operations event else none

/-- `start` has been called at most once, and no scheduler has two live cron tasks. -/
structure StartedOnce (process : MarketsProcess) : Prop where
  calls : process.startCalls ≤ 1
  crons : ∀ scheduler, (process.schedulers scheduler).crons.length ≤ 1

/-- While `hasStarted` is false the STATUS buffer fires only before any start: none
waits, is under way or has returned. -/
def FirstFiring (process : MarketsProcess) : LifecycleEvent → Prop
  | .statusElapsed =>
    process.hasStarted = false → ∀ task, (process.starts task).phase = .unused
  | _ => True

def pendingSchedulers (start : StartTask) : List ℕ := start.markets.map StartingMarket.scheduler

/-- A start that has not come to its markets. -/
def EarlyPhase (phase : StartPhase) : Prop :=
  phase = .unused ∨ phase = .waiting ∨ phase = .loadingMarkets

/-- The markets of the only start have no cron task yet. -/
structure OneStart (process : MarketsProcess) : Prop where
  early : EarlyPhase (process.starts 0).phase →
    process.collectorsManagers = [] ∧ ∀ scheduler, (process.schedulers scheduler).crons = []
  marketless : EarlyPhase (process.starts 0).phase → (process.starts 0).markets = []
  pending : (pendingSchedulers (process.starts 0)).Nodup
  uncreated : ∀ scheduler ∈ pendingSchedulers (process.starts 0),
    (process.schedulers scheduler).crons = []
  crons : ∀ scheduler, (process.schedulers scheduler).crons.length ≤ 1

structure StartSound (process : MarketsProcess) : Prop where
  unused : ∀ task, process.startCalls ≤ task → process.starts task = {}
  used : ∀ task < process.startCalls, (process.starts task).phase ≠ .unused
  one : process.startCalls ≤ 1 → process.OneStart

/-- Every manager has a scheduler of its own, created before the next one. -/
structure FreshSchedulers (resolved : List CollectorsManager × ℕ) : Prop where
  distinct : (resolved.1.map CollectorsManager.scheduler).Nodup
  below : ∀ manager ∈ resolved.1, manager.scheduler < resolved.2

theorem FreshSchedulers.resolveMarket {resolved : List CollectorsManager × ℕ}
    (fresh : FreshSchedulers resolved) (marketId : ℕ) :
    FreshSchedulers (MarketsProcess.resolveMarket resolved marketId) := by
  simp only [MarketsProcess.resolveMarket]
  split
  · exact fresh
  · refine ⟨?_, ?_⟩
    · rw [List.map_append]
      refine List.nodup_append.mpr ⟨fresh.distinct, List.nodup_singleton _, ?_⟩
      intro scheduler member other new same
      obtain ⟨manager, held, rfl⟩ := List.mem_map.mp member
      have below := fresh.below manager held
      have next : other = resolved.2 := by simpa using new
      omega
    · intro manager member
      rcases List.mem_append.mp member with old | new
      · exact Nat.lt_succ_of_lt (fresh.below manager old)
      · rw [List.mem_singleton.mp new]
        exact Nat.lt_succ_self _

theorem FreshSchedulers.resolveMarkets {resolved : List CollectorsManager × ℕ}
    (fresh : FreshSchedulers resolved) (marketIds : List ℕ) :
    FreshSchedulers (marketIds.foldl MarketsProcess.resolveMarket resolved) := by
  induction marketIds generalizing resolved with
  | nil => exact fresh
  | cons marketId rest ih => exact ih (fresh.resolveMarket marketId)

theorem OneStart.relabel {process next : MarketsProcess} (one : process.OneStart) {start : StartTask}
    (starts : next.starts = Function.update process.starts 0 start)
    (schedulers : next.schedulers = process.schedulers)
    (early : EarlyPhase start.phase → EarlyPhase (process.starts 0).phase ∧
      next.collectorsManagers = process.collectorsManagers)
    (pending : (pendingSchedulers start).Sublist (pendingSchedulers (process.starts 0))) :
    next.OneStart where
  early phase := by
    rw [starts, Function.update_self] at phase
    obtain ⟨before, managers⟩ := early phase
    rw [managers, schedulers]
    exact one.early before
  marketless phase := by
    rw [starts, Function.update_self] at phase ⊢
    have nothing : pendingSchedulers (process.starts 0) = [] := by
      rw [pendingSchedulers, one.marketless (early phase).1, List.map_nil]
    exact List.map_eq_nil_iff.mp (List.sublist_nil.mp (nothing ▸ pending))
  pending := by
    rw [starts, Function.update_self]
    exact one.pending.sublist pending
  uncreated scheduler member := by
    rw [starts, Function.update_self] at member
    rw [schedulers]
    exact one.uncreated scheduler (pending.subset member)
  crons := by
    rw [schedulers]
    exact one.crons

theorem OneStart.created {process next : MarketsProcess} (one : process.OneStart) {start : StartTask}
    {scheduler : ℕ} (member : scheduler ∈ pendingSchedulers (process.starts 0))
    (starts : next.starts = Function.update process.starts 0 start)
    (schedulers : next.schedulers = Function.update process.schedulers scheduler
      (process.schedulers scheduler).initializeScheduler)
    (early : ¬ EarlyPhase start.phase)
    (pending : pendingSchedulers start =
      (pendingSchedulers (process.starts 0)).filter fun other => other ≠ scheduler) :
    next.OneStart where
  early phase := by
    rw [starts, Function.update_self] at phase
    exact absurd phase early
  marketless phase := by
    rw [starts, Function.update_self] at phase
    exact absurd phase early
  pending := by
    rw [starts, Function.update_self, pending]
    exact one.pending.filter _
  uncreated other left := by
    rw [starts, Function.update_self, pending] at left
    obtain ⟨before, apart⟩ := List.mem_filter.mp left
    rw [schedulers, Function.update_of_ne (by simpa using apart)]
    exact one.uncreated other before
  crons other := by
    rw [schedulers]
    by_cases here : other = scheduler
    · subst here
      rw [Function.update_self]
      simp [SchedulerRuntime.initializeScheduler, one.uncreated other member]
    · rw [Function.update_of_ne here]
      exact one.crons other

namespace StartSound

variable {process next : MarketsProcess} {task : ℕ}

theorem task_lt (sound : process.StartSound) (used : process.starts task ≠ {}) :
    task < process.startCalls := by
  by_contra beyond
  exact used (sound.unused task (Nat.not_lt.mp beyond))

theorem quiet (sound : process.StartSound) (calls : next.startCalls = process.startCalls)
    (starts : next.starts = process.starts)
    (managers : next.collectorsManagers = process.collectorsManagers)
    (crons : ∀ scheduler,
      (next.schedulers scheduler).crons.Sublist (process.schedulers scheduler).crons) :
    next.StartSound where
  unused := by
    rw [calls, starts]
    exact sound.unused
  used := by
    rw [calls, starts]
    exact sound.used
  one single := by
    have one := sound.one (calls ▸ single)
    refine ⟨?_, ?_, ?_, ?_, ?_⟩
    · intro early
      rw [starts] at early
      obtain ⟨unmanaged, uncreated⟩ := one.early early
      refine ⟨managers ▸ unmanaged, fun scheduler => ?_⟩
      exact List.sublist_nil.mp (uncreated scheduler ▸ crons scheduler)
    · rw [starts]
      exact one.marketless
    · rw [starts]
      exact one.pending
    · intro scheduler member
      rw [starts] at member
      exact List.sublist_nil.mp (one.uncreated scheduler member ▸ crons scheduler)
    · intro scheduler
      exact Nat.le_trans (crons scheduler).length_le (one.crons scheduler)

theorem advance (sound : process.StartSound) (used : process.starts task ≠ {}) {start : StartTask}
    (calls : next.startCalls = process.startCalls)
    (starts : next.starts = Function.update process.starts task start)
    (phase : start.phase ≠ .unused)
    (one : process.OneStart → task = 0 → next.OneStart) : next.StartSound where
  unused other beyond := by
    have inside := sound.task_lt used
    rw [calls] at beyond
    rw [starts, Function.update_of_ne (by omega)]
    exact sound.unused other beyond
  used other called := by
    rw [calls] at called
    rw [starts]
    by_cases here : other = task
    · rw [here, Function.update_self]
      exact phase
    · rw [Function.update_of_ne here]
      exact sound.used other called
  one single := by
    have inside := sound.task_lt used
    rw [calls] at single
    exact one (sound.one single) (by omega)

theorem call (sound : process.StartSound) : process.callStart.StartSound where
  unused task beyond := by
    have later : process.startCalls + 1 ≤ task := beyond
    have other : task ≠ process.startCalls := by omega
    simp only [callStart, setStart, Function.update_of_ne other]
    exact sound.unused task (by omega)
  used task called := by
    have below : task < process.startCalls + 1 := called
    by_cases here : task = process.startCalls
    · simp [callStart, setStart, here]
    · simp only [callStart, setStart, Function.update_of_ne here]
      exact sound.used task (by omega)
  one single := by
    have none : process.startCalls = 0 := by
      have bound : process.startCalls + 1 ≤ 1 := single
      omega
    have one := sound.one (by omega)
    have unused := sound.unused 0 (by omega)
    obtain ⟨managers, crons⟩ := one.early (.inl (by rw [unused]))
    refine ⟨fun _ => ⟨managers, crons⟩, ?_, ?_, ?_, one.crons⟩
    · simp [callStart, setStart, none]
    · simp [callStart, setStart, none, pendingSchedulers]
    · simp [callStart, setStart, none, pendingSchedulers]

theorem load (one : process.OneStart) (early : (process.starts 0).phase = .loadingMarkets)
    (marketIds : List ℕ) :
    (((process.resolveMarkets marketIds).clearDisabledMarkets marketIds).setStart 0
      { process.starts 0 with
        phase := .starting
        markets := ((process.resolveMarkets marketIds).clearDisabledMarkets
          marketIds).managedSchedulers.map fun scheduler => ⟨scheduler, .loadingContext⟩ }).OneStart := by
  obtain ⟨managers, crons⟩ := one.early (.inr (.inr early))
  have fresh : FreshSchedulers
      (marketIds.foldl resolveMarket (process.collectorsManagers, process.nextScheduler)) :=
    .resolveMarkets ⟨by simp [managers], by simp [managers]⟩ marketIds
  refine ⟨?_, ?_, ?_, ?_, one.crons⟩
  · simp [setStart, EarlyPhase]
  · simp [setStart, EarlyPhase]
  · simp only [setStart, Function.update_self, pendingSchedulers, List.map_map]
    have shape : (StartingMarket.scheduler ∘ fun scheduler => ⟨scheduler, .loadingContext⟩) = id := rfl
    rw [shape, List.map_id]
    exact fresh.distinct.sublist ((List.filter_sublist).map _)
  · exact fun scheduler _ => crons scheduler

theorem ne_unused_of_phase (phase : (process.starts task).phase = phase') (other : phase' ≠ .unused) :
    process.starts task ≠ {} := by
  intro unused
  rw [unused] at phase
  exact other phase.symm

theorem ne_unused_of_market (market : entry ∈ (process.starts task).markets) :
    process.starts task ≠ {} := by
  intro unused
  rw [unused] at market
  cases market

end StartSound

variable {operations}

private theorem pendingSchedulers_contextLoaded (start : StartTask) (scheduler : ℕ) :
    pendingSchedulers { start with
      markets := start.markets.map fun market =>
        if market.scheduler = scheduler then ⟨scheduler, .connecting⟩ else market } =
      pendingSchedulers start := by
  simp only [pendingSchedulers, List.map_map]
  refine List.map_congr_left fun market _ => ?_
  simp only [Function.comp_apply]
  split
  · next same => exact same.symm
  · rfl

private theorem pendingSchedulers_filter (start : StartTask) (scheduler : ℕ) :
    pendingSchedulers { start with
      markets := start.markets.filter fun market => market.scheduler ≠ scheduler } =
      (pendingSchedulers start).filter fun other => other ≠ scheduler := by
  rw [pendingSchedulers, pendingSchedulers, List.filter_map]
  rfl

theorem StartSound.timer {process : MarketsProcess} (sound : process.StartSound) {scheduler : ℕ}
    {runtime : SchedulerRuntime}
    (crons : runtime.crons.Sublist (process.schedulers scheduler).crons) :
    (process.setScheduler scheduler runtime).StartSound := by
  refine sound.quiet rfl rfl rfl fun other => ?_
  by_cases here : other = scheduler
  · simpa only [setScheduler, here, Function.update_self] using crons
  · simp only [setScheduler, Function.update_of_ne here]
    exact .refl _

open StartSound in
theorem startSound_step {process next : MarketsProcess} (sound : process.StartSound)
    {event : LifecycleEvent} (taken : process.startStep operations event = some next) :
    next.StartSound := by
  unfold startStep at taken
  split at taken
  · next ofStart =>
    cases event with
    | statusArrives =>
      obtain ⟨_, rfl⟩ := enabled taken
      exact sound.quiet rfl rfl rfl fun _ => .refl _
    | statusElapsed =>
      obtain ⟨_, rfl⟩ := enabled taken
      have disarmed : { process with statusArmed := false }.StartSound :=
        sound.quiet rfl rfl rfl fun _ => .refl _
      unfold handleStatusMessage
      split
      · exact disarmed
      · exact disarmed.call
    | startAcquires task =>
      obtain ⟨ready, rfl⟩ := enabled taken
      refine sound.advance (ne_unused_of_phase ready.1 (by simp)) rfl rfl (by simp) ?_
      intro one first
      subst first
      exact one.relabel rfl rfl (fun _ => ⟨.inr (.inl ready.1), rfl⟩) (List.Sublist.refl _)
    | startThrows task resolved =>
      obtain ⟨loading, rfl⟩ := enabled taken
      refine sound.advance (ne_unused_of_phase loading (by simp)) rfl rfl (by simp) ?_
      intro one first
      subst first
      exact one.relabel rfl rfl (by simp [EarlyPhase]) (List.Sublist.refl _)
    | marketsLoaded task marketIds =>
      obtain ⟨loading, rfl⟩ := enabled taken
      refine sound.advance (ne_unused_of_phase loading (by simp)) rfl rfl (by simp) ?_
      intro one first
      subst first
      exact load one loading marketIds
    | contextLoaded task scheduler =>
      obtain ⟨market, rfl⟩ := enabled taken
      have used := ne_unused_of_market market
      refine sound.advance used rfl rfl (sound.used task (sound.task_lt used)) ?_
      intro one first
      subst first
      refine one.relabel rfl rfl (fun early => ⟨early, rfl⟩) ?_
      rw [pendingSchedulers_contextLoaded]
    | schedulerStarted task scheduler =>
      obtain ⟨market, rfl⟩ := enabled taken
      have used := ne_unused_of_market market
      refine sound.advance used rfl rfl (sound.used task (sound.task_lt used)) ?_
      intro one first
      subst first
      refine one.created (List.mem_map_of_mem market) rfl rfl ?_ (pendingSchedulers_filter _ _)
      intro early
      rw [one.marketless early] at market
      cases market
    | marketFails task scheduler =>
      obtain ⟨market, rfl⟩ := enabled taken
      obtain ⟨entry, member, _⟩ := List.mem_map.mp market
      have used := ne_unused_of_market member
      refine sound.advance used rfl rfl (sound.used task (sound.task_lt used)) ?_
      intro one first
      subst first
      exact one.relabel rfl rfl (fun early => ⟨early, rfl⟩) (List.filter_sublist.map _)
    | startReturns task =>
      obtain ⟨done, rfl⟩ := enabled taken
      refine sound.advance (ne_unused_of_phase done.1 (by simp)) rfl rfl (by simp) ?_
      intro one first
      subst first
      exact one.relabel rfl rfl (by simp [EarlyPhase]) (List.Sublist.refl _)
    | startStopExpires =>
      cases taken
      exact sound.quiet rfl rfl rfl fun _ => .refl _
    | cronTicks scheduler cron =>
      obtain ⟨_, rfl⟩ := enabled taken
      exact sound.timer (.refl _)
    | clusterFires scheduler timer =>
      obtain ⟨_, rfl⟩ := enabled taken
      exact sound.timer (.refl _)
    | batchFires scheduler timer lastCycle =>
      obtain ⟨_, rfl⟩ := enabled taken
      cases lastCycle with
      | true => exact sound.timer (SchedulerRuntime.stopCron_sublist _)
      | false => exact sound.timer (.refl _)
    | operationFires scheduler timer =>
      obtain ⟨_, rfl⟩ := enabled taken
      exact sound.timer (.refl _)
    | _ => cases ofStart
  · cases taken

theorem StartSound.startedOnce_iff_calls {process : MarketsProcess} (sound : process.StartSound) :
    process.StartedOnce ↔ process.startCalls ≤ 1 := by
  constructor
  · exact StartedOnce.calls
  · intro calls
    exact ⟨calls, (sound.one calls).crons⟩

private theorem StartSound.uncalled_iff {process : MarketsProcess} (sound : process.StartSound) :
    (∀ task, (process.starts task).phase = .unused) ↔ process.startCalls = 0 := by
  constructor
  · intro unused
    by_contra called
    exact sound.used 0 (by omega) (unused 0)
  · intro uncalled task
    rw [sound.unused task (by omega)]

/-- Only a firing of the STATUS buffer before `hasStarted` calls `start`. -/
private theorem startCalls_step {process next : MarketsProcess} {event : LifecycleEvent}
    (taken : process.startStep operations event = some next) :
    next.startCalls = process.startCalls +
      if event = .statusElapsed ∧ process.hasStarted = false then 1 else 0 := by
  unfold startStep at taken
  split at taken
  · next ofStart =>
    cases event with
    | statusElapsed =>
      obtain ⟨_, rfl⟩ := enabled taken
      cases process.hasStarted with
      | true => simp [handleStatusMessage]
      | false => simp [handleStatusMessage, callStart, setStart]
    | statusArrives | startAcquires | startThrows | marketsLoaded | contextLoaded
    | schedulerStarted | marketFails | startReturns | cronTicks | clusterFires | batchFires
    | operationFires =>
      obtain ⟨_, rfl⟩ := enabled taken
      rfl
    | startStopExpires =>
      cases taken
      rfl
    | _ => cases ofStart
  · cases taken

private theorem startedOnce_step {process next : MarketsProcess} (sound : process.StartSound)
    {event : LifecycleEvent} (taken : process.startStep operations event = some next) :
    next.StartedOnce ↔ process.StartedOnce ∧ process.FirstFiring event := by
  rw [(startSound_step sound taken).startedOnce_iff_calls, sound.startedOnce_iff_calls, startCalls_step taken]
  cases event with
  | statusElapsed =>
    simp only [FirstFiring, sound.uncalled_iff, true_and]
    split
    · next waiting =>
      constructor
      · intro bound
        exact ⟨by omega, fun _ => by omega⟩
      · rintro ⟨_, first⟩
        have := first waiting
        omega
    · next started =>
      simp [started]
  | _ => simp [FirstFiring]

private theorem startSound_initial : ({} : MarketsProcess).StartSound where
  unused _ _ := rfl
  used task called := by cases called
  one _ := ⟨fun _ => ⟨rfl, fun _ => rfl⟩, fun _ => rfl, List.nodup_nil, fun _ _ => rfl, by simp⟩

/-- The policy calls `start` once, and no scheduler has two live cron tasks, in exactly
the runs whose STATUS buffer never fires again between the first call of `start` and
the write of `hasStarted`. -/
theorem startedOnce_iff {events : List LifecycleEvent} {process : MarketsProcess}
    (run : Run (startStep operations) {} events process) :
    process.StartedOnce ↔ Throughout (startStep operations) FirstFiring {} events := by
  have kept : process.StartedOnce ↔ ({} : MarketsProcess).StartedOnce ∧
      Throughout (startStep operations) FirstFiring {} events :=
    run.keeps_iff (fun sound taken => startSound_step sound taken)
      (fun sound taken => startedOnce_step sound taken) startSound_initial
  have initial : ({} : MarketsProcess).StartedOnce := ⟨by simp, by simp⟩
  rw [kept]
  simp [initial]

/-- The first start still works on its market when the STATUS buffer fires again. -/
def lateStatus : List LifecycleEvent :=
  [.statusArrives, .statusElapsed, .startAcquires 0, .statusArrives, .marketsLoaded 0 [7],
    .contextLoaded 0 0, .statusElapsed, .schedulerStarted 0 0, .startReturns 0,
    .startAcquires 1, .marketsLoaded 1 [7], .contextLoaded 1 0, .schedulerStarted 1 0]

theorem lateStatus_runs : (execute (startStep 1) {} lateStatus).isSome := by decide +kernel

def afterLateStatus : MarketsProcess := (execute (startStep 1) {} lateStatus).get lateStatus_runs

theorem run_lateStatus : Run (startStep 1) {} lateStatus afterLateStatus :=
  run_iff_execute.mpr (Option.some_get lateStatus_runs).symm

/-- The second call of `start` leaves two live cron tasks on the scheduler of the market. -/
theorem lateStatus_startsTwice : ¬ ∀ (operations : ℕ) (events : List LifecycleEvent)
    (process : MarketsProcess), Run (startStep operations) {} events process →
      process.StartedOnce := by
  intro always
  have once := always 1 lateStatus afterLateStatus run_lateStatus
  have crons : (afterLateStatus.schedulers 0).crons = [0, 1] := by decide +kernel
  have bound := once.crons 0
  rw [crons] at bound
  exact absurd bound (by simp)

theorem startedOnce_iff_lateStatus :
    afterLateStatus.StartedOnce ↔ Throughout (startStep 1) FirstFiring {} lateStatus :=
  startedOnce_iff run_lateStatus

end MarketsProcess

end PriceFeed.Collectors
