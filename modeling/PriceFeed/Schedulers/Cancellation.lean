import PriceFeed.Library.Pipeline
import PriceFeed.Schedulers.SchedulerProcess
import PriceFeed.Schedulers.SlotDelays

/-! The timers of a scheduler whose slots are valid: what a tick starts has left each
stage of the delays before what the next tick starts comes to it. So a stage never
overwrites the descriptor of a timer that has still to fire, and a stop cancels all. -/

namespace PriceFeed.Schedulers

open PriceFeed.Library

namespace SchedulerProcess

/-- A start that leaves the scheduler with valid slots. -/
def ValidStart (process : SchedulerProcess) : SchedulerEvent → Prop
  | .starts dynamicConfig _ => ∀ scheduler,
    process.scheduler.setDynamicConfig dynamicConfig = .ok scheduler → scheduler.ValidSlots
  | _ => True

def clusterDelay (process : SchedulerProcess) : ℚ :=
  process.scheduler.getOperationsClusterDelay.getD 0

def batchDelay (process : SchedulerProcess) : ℚ :=
  process.scheduler.getOperationsBatchDelay.getD 0

/-- What is live in each stage, by the tick it comes from. -/
def Pending (process : SchedulerProcess) : ℕ → ℚ → Prop
  | 0, origin => ∃ cron ∈ process.runtime.crons, process.nextTick cron = origin
  | 1, origin => ∃ timer ∈ process.runtime.clusterTimers,
    process.due timer = origin + process.clusterDelay
  | 2, origin => ∃ timer ∈ process.runtime.batchTimers,
    process.due timer = origin + process.clusterDelay + process.batchDelay
  | 3, origin => ∃ timer ∈ process.runtime.operationTimers, process.due timer.handle =
    origin + process.clusterDelay + process.batchDelay +
      process.scheduler.getOperationDelay timer.operation
  | _, _ => False

structure OnTime (process : SchedulerProcess) : Prop where
  timely : process.Timely process.now
  fresh : process.runtime.Fresh
  idle : process.running = false → process.runtime.Silent
  delays : process.running = true → process.scheduler.ShortDelays
  positions : ∀ timer ∈ process.runtime.operationTimers,
    timer.operation < process.scheduler.operations
  staggered : Staggered process.scheduler.preciseNormalizedInterval process.Pending

variable {kind : SchedulerKind} {process next : SchedulerProcess}

section Scheduling

variable (timer : ℕ) (isLastCycle : Bool)

theorem scheduleOperations_crons :
    (process.scheduleOperations timer isLastCycle).runtime.crons.Sublist process.runtime.crons := by
  cases isLastCycle with
  | true => exact process.runtime.stopCron_sublist
  | false => exact List.Sublist.refl _

theorem scheduleOperations_cronTask :
    (process.scheduleOperations timer isLastCycle).runtime.cronTask = process.runtime.cronTask := by
  cases isLastCycle with
  | true => rfl
  | false => rfl

theorem scheduleOperations_clusterTimers :
    (process.scheduleOperations timer isLastCycle).runtime.clusterTimers =
      process.runtime.clusterTimers := by
  cases isLastCycle with
  | true => rfl
  | false => rfl

theorem scheduleOperations_batchTimers :
    (process.scheduleOperations timer isLastCycle).runtime.batchTimers =
      SchedulerRuntime.clearTimeout process.runtime.batchTimers (some timer) := by
  cases isLastCycle with
  | true => rfl
  | false => rfl

theorem scheduleOperations_timers (fired : process.runtime.operationTimers = []) :
    (process.scheduleOperations timer isLastCycle).runtime.operationTimers =
      process.runtime.newOperationTimers process.scheduler.operations := by
  cases isLastCycle with
  | true =>
    exact congrArg (· ++ process.runtime.newOperationTimers process.scheduler.operations) fired
  | false =>
    exact congrArg (· ++ process.runtime.newOperationTimers process.scheduler.operations) fired

theorem scheduleOperations_held (held : process.runtime.Held)
    (created : process.runtime.cronTask ≠ none) (fired : process.runtime.operationTimers = []) :
    (process.scheduleOperations timer isLastCycle).runtime.Held := by
  cases isLastCycle with
  | true => exact held.stopCron.runOperations created fired timer process.scheduler.operations
  | false => exact held.runOperations created fired timer process.scheduler.operations

private theorem scheduleOperations_fresh (fresh : process.runtime.Fresh) :
    (process.scheduleOperations timer isLastCycle).runtime.Fresh := by
  cases isLastCycle with
  | true => exact fresh.stopCron.runOperations timer _
  | false => exact fresh.runOperations timer _

theorem scheduleOperations_due_old {handle : ℕ} (old : handle < process.runtime.nextHandle) :
    (process.scheduleOperations timer isLastCycle).due handle = process.due handle := by
  cases isLastCycle with
  | true => simp [scheduleOperations, Nat.not_le.mpr old]
  | false => simp [scheduleOperations, Nat.not_le.mpr old]

theorem scheduleOperations_due_new {operation : ℕ}
    (inside : operation < process.scheduler.operations) :
    (process.scheduleOperations timer isLastCycle).due (process.runtime.nextHandle + operation) =
      process.now + process.scheduler.getOperationDelay operation := by
  cases isLastCycle with
  | true => simp [scheduleOperations, inside]
  | false => simp [scheduleOperations, inside]

end Scheduling

namespace OnTime

theorem started (onTime : process.OnTime) {handle : ℕ} (live : process.runtime.Live handle) :
    process.running = true := by
  cases running : process.running with
  | true => rfl
  | false => exact absurd live ((onTime.idle running).not_live handle)

/-- When a tick comes, the cluster delay of the tick before is over. -/
theorem clusterTimers_nil (onTime : process.OnTime) {cron : ℕ} (member : cron ∈ process.runtime.crons)
    (due : process.nextTick cron = process.now) : process.runtime.clusterTimers = [] := by
  have delays := onTime.delays (onTime.started (.inl member))
  apply List.eq_nil_iff_forall_not_mem.mpr
  intro timer present
  have apart := onTime.staggered 0 1 process.now (process.due timer - process.clusterDelay)
    Nat.zero_lt_one ⟨cron, member, due⟩ ⟨timer, present, by ring⟩
  have later := onTime.timely.2.1 timer present
  have short := delays.cluster.2
  unfold clusterDelay at apart
  linarith

theorem batchTimers_nil (onTime : process.OnTime) {fired : ℕ}
    (member : fired ∈ process.runtime.clusterTimers) (due : process.due fired = process.now) :
    process.runtime.batchTimers = [] := by
  have delays := onTime.delays (onTime.started (.inr (.inl member)))
  apply List.eq_nil_iff_forall_not_mem.mpr
  intro timer present
  have apart := onTime.staggered 1 2 (process.due fired - process.clusterDelay)
    (process.due timer - process.clusterDelay - process.batchDelay) (by omega)
    ⟨fired, member, by ring⟩ ⟨timer, present, by ring⟩
  have later := onTime.timely.2.2.1 timer present
  have short := delays.batch.2
  rw [due] at apart
  unfold batchDelay at apart
  linarith

theorem operationTimers_nil (onTime : process.OnTime) {fired : ℕ}
    (member : fired ∈ process.runtime.batchTimers) (due : process.due fired = process.now) :
    process.runtime.operationTimers = [] := by
  have delays := onTime.delays (onTime.started (.inr (.inr (.inl member))))
  apply List.eq_nil_iff_forall_not_mem.mpr
  intro timer present
  have apart := onTime.staggered 2 3
    (process.due fired - process.clusterDelay - process.batchDelay)
    (process.due timer.handle - process.clusterDelay - process.batchDelay -
      process.scheduler.getOperationDelay timer.operation) (by omega)
    ⟨fired, member, by ring⟩ ⟨timer, present, by ring⟩
  have later := onTime.timely.2.2.2 timer present
  have short := (delays.operation timer.operation (onTime.positions timer present)).2
  rw [due] at apart
  linarith

/-- Without a job or a timer there is nothing to be late for. -/
theorem of_silent (silent : next.runtime.Silent) (stopped : next.running = false) :
    next.OnTime := by
  have none : ∀ stage origin, ¬ next.Pending stage origin := by
    intro stage origin pending
    rcases stage with _ | _ | _ | _ | _
    · simp [Pending, silent.crons] at pending
    · simp [Pending, silent.clusterTimers] at pending
    · simp [Pending, silent.batchTimers] at pending
    · simp [Pending, silent.operationTimers] at pending
    · cases pending
  constructor
  · simp [Timely, silent.crons, silent.clusterTimers, silent.batchTimers, silent.operationTimers]
  · exact fun handle live => absurd live (silent.not_live handle)
  · exact fun _ => silent
  · exact fun running => absurd (stopped.symm.trans running) (by simp)
  · simp [silent.operationTimers]
  · exact fun stage _ origin _ _ pending _ => absurd pending (none stage origin)

theorem start (onTime : process.OnTime) (stopped : process.running = false)
    {scheduler : Scheduler} {firstTick : ℚ} (later : process.now < firstTick)
    (delays : scheduler.ShortDelays) : (process.start scheduler firstTick).OnTime := by
  have silent := onTime.idle stopped
  have crons : (process.start scheduler firstTick).runtime.crons = [process.runtime.nextHandle] := by
    simp [SchedulerProcess.start, SchedulerRuntime.initializeScheduler, silent.crons]
  constructor
  · refine ⟨?_, ?_, ?_, ?_⟩
    · intro cron present
      rw [crons, List.mem_singleton] at present
      simp only [SchedulerProcess.start, present, Function.update_self]
      exact later.le
    · simp [SchedulerProcess.start, SchedulerRuntime.initializeScheduler, silent.clusterTimers]
    · simp [SchedulerProcess.start, SchedulerRuntime.initializeScheduler, silent.batchTimers]
    · simp [SchedulerProcess.start, SchedulerRuntime.initializeScheduler, silent.operationTimers]
  · exact onTime.fresh.initializeScheduler
  · exact fun running => by cases running
  · exact fun _ => delays
  · simp [SchedulerProcess.start, SchedulerRuntime.initializeScheduler, silent.operationTimers]
  · intro stage after origin older before _ pending
    rcases after with _ | _ | _ | _ | _
    · cases before
    · simp [Pending, SchedulerProcess.start, SchedulerRuntime.initializeScheduler,
        silent.clusterTimers] at pending
    · simp [Pending, SchedulerProcess.start, SchedulerRuntime.initializeScheduler,
        silent.batchTimers] at pending
    · simp [Pending, SchedulerProcess.start, SchedulerRuntime.initializeScheduler,
        silent.operationTimers] at pending
    · cases pending

theorem startOperation (onTime : process.OnTime) (timer : OperationTimer) :
    (process.startOperation timer).OnTime := by
  obtain ⟨cronTimely, clusterTimely, batchTimely, operationTimely⟩ := onTime.timely
  constructor
  · refine ⟨cronTimely, clusterTimely, batchTimely, fun other present => ?_⟩
    exact operationTimely other (List.mem_of_mem_filter present)
  · exact onTime.fresh.startOperation timer.handle
  · intro stopped
    have silent := onTime.idle stopped
    refine ⟨silent.crons, silent.clusterTimers, silent.batchTimers, ?_⟩
    simp [SchedulerProcess.startOperation, SchedulerRuntime.startOperation, silent.operationTimers]
  · exact onTime.delays
  · exact fun other present => onTime.positions other (List.mem_of_mem_filter present)
  · apply onTime.staggered.mono
    intro stage origin pending
    rcases stage with _ | _ | _ | _ | _
    · exact pending
    · exact pending
    · exact pending
    · obtain ⟨other, present, fires⟩ := pending
      exact ⟨other, List.mem_of_mem_filter present, fires⟩
    · cases pending

section Firing

variable (onTime : process.OnTime) (held : process.runtime.Held)

include onTime

theorem due_update {handle : ℕ} (live : process.runtime.Live handle) (moment : ℚ) :
    Function.update process.due process.runtime.nextHandle moment handle = process.due handle :=
  Function.update_of_ne (onTime.fresh handle live).ne _ _

include held

theorem initializeClusterDelay {cron : ℕ} (member : cron ∈ process.runtime.crons)
    (due : process.nextTick cron = process.now) (empty : process.runtime.clusterTimers = []) :
    (process.initializeClusterDelay cron).OnTime := by
  have created := onTime.started (.inl member)
  obtain ⟨nonnegative, short⟩ := (onTime.delays created).cluster
  have single : ∀ other ∈ process.runtime.crons, other = cron := fun other present =>
    Option.some.inj ((held.cron other present).symm.trans (held.cron cron member))
  obtain ⟨cronTimely, _, batchTimely, operationTimely⟩ := onTime.timely
  constructor
  · refine ⟨?_, ?_, ?_, ?_⟩
    · intro other present
      obtain rfl := single other present
      simp only [SchedulerProcess.initializeClusterDelay, Function.update_self]
      linarith
    · intro timer present
      simp only [SchedulerProcess.initializeClusterDelay, SchedulerRuntime.initializeClusterDelay,
        empty, List.nil_append, List.mem_singleton] at present
      simp only [SchedulerProcess.initializeClusterDelay, present, Function.update_self, dueAfter]
      linarith
    · intro timer present
      simp only [SchedulerProcess.initializeClusterDelay,
        onTime.due_update (.inr (.inr (.inl present)))]
      exact batchTimely timer present
    · intro timer present
      simp only [SchedulerProcess.initializeClusterDelay,
        onTime.due_update (.inr (.inr (.inr ⟨timer, present, rfl⟩)))]
      exact operationTimely timer present
  · exact onTime.fresh.initializeClusterDelay
  · exact fun stopped => absurd (created.symm.trans stopped) (by simp)
  · exact onTime.delays
  · exact onTime.positions
  · refine onTime.staggered.enters (nonnegative.trans short.le) ⟨cron, member, due⟩ ?_
    intro stage origin pending
    rcases stage with _ | _ | _ | _ | _
    · obtain ⟨other, present, tick⟩ := pending
      obtain rfl := single other present
      simp only [SchedulerProcess.initializeClusterDelay, Function.update_self] at tick
      exact .inl ⟨rfl, tick.symm⟩
    · obtain ⟨timer, present, fires⟩ := pending
      simp only [SchedulerProcess.initializeClusterDelay, SchedulerRuntime.initializeClusterDelay,
        empty, List.nil_append, List.mem_singleton] at present
      simp only [SchedulerProcess.initializeClusterDelay, present, Function.update_self, dueAfter,
        clusterDelay] at fires
      exact .inr (.inl ⟨rfl, by linarith⟩)
    · obtain ⟨timer, present, fires⟩ := pending
      simp only [SchedulerProcess.initializeClusterDelay,
        onTime.due_update (.inr (.inr (.inl present)))] at fires
      exact .inr (.inr ⟨by omega, timer, present, fires⟩)
    · obtain ⟨timer, present, fires⟩ := pending
      simp only [SchedulerProcess.initializeClusterDelay,
        onTime.due_update (.inr (.inr (.inr ⟨timer, present, rfl⟩)))] at fires
      exact .inr (.inr ⟨by omega, timer, present, fires⟩)
    · cases pending

theorem initializeBatch {timer : ℕ} (member : timer ∈ process.runtime.clusterTimers)
    (due : process.due timer = process.now) (empty : process.runtime.batchTimers = []) :
    (process.initializeBatch timer).OnTime := by
  have created := onTime.started (.inr (.inl member))
  obtain ⟨nonnegative, short⟩ := (onTime.delays created).batch
  obtain ⟨cronTimely, clusterTimely, _, operationTimely⟩ := onTime.timely
  have moved : ∀ other, other ∉ (process.initializeBatch timer).runtime.clusterTimers := by
    intro other present
    obtain ⟨before, apart⟩ := SchedulerRuntime.mem_clearTimeout.mp present
    exact apart ((held.cluster timer member).symm.trans (held.cluster other before))
  constructor
  · refine ⟨cronTimely, ?_, ?_, ?_⟩
    · exact fun other present => absurd present (moved other)
    · intro other present
      simp only [SchedulerProcess.initializeBatch, SchedulerRuntime.initializeBatch, empty,
        List.nil_append, List.mem_singleton] at present
      simp only [SchedulerProcess.initializeBatch, present, Function.update_self, dueAfter]
      linarith
    · intro other present
      simp only [SchedulerProcess.initializeBatch,
        onTime.due_update (.inr (.inr (.inr ⟨other, present, rfl⟩)))]
      exact operationTimely other present
  · exact onTime.fresh.initializeBatch timer
  · exact fun stopped => absurd (created.symm.trans stopped) (by simp)
  · exact onTime.delays
  · exact onTime.positions
  · have item : process.Pending 1 (process.now - process.clusterDelay) :=
      ⟨timer, member, by rw [due]; ring⟩
    refine onTime.staggered.advance item fun stage origin pending => ?_
    rcases stage with _ | _ | _ | _ | _
    · exact .inr ⟨by omega, pending⟩
    · obtain ⟨other, present, _⟩ := pending
      exact absurd present (moved other)
    · obtain ⟨other, present, fires⟩ := pending
      simp only [SchedulerProcess.initializeBatch, SchedulerRuntime.initializeBatch, empty,
        List.nil_append, List.mem_singleton] at present
      simp only [SchedulerProcess.initializeBatch, present, Function.update_self, dueAfter, batchDelay,
        clusterDelay] at fires
      exact .inl ⟨rfl, by unfold clusterDelay; linarith⟩
    · obtain ⟨other, present, fires⟩ := pending
      simp only [SchedulerProcess.initializeBatch,
        onTime.due_update (.inr (.inr (.inr ⟨other, present, rfl⟩)))] at fires
      exact .inr ⟨by omega, other, present, fires⟩
    · cases pending

theorem scheduleOperations {timer : ℕ} (member : timer ∈ process.runtime.batchTimers)
    (due : process.due timer = process.now) (empty : process.runtime.operationTimers = [])
    (isLastCycle : Bool) : (process.scheduleOperations timer isLastCycle).OnTime := by
  have created := onTime.started (.inr (.inr (.inl member)))
  have delays := (onTime.delays created).operation
  obtain ⟨cronTimely, clusterTimely, _, _⟩ := onTime.timely
  have crons : (process.scheduleOperations timer isLastCycle).runtime.crons ⊆
      process.runtime.crons := (scheduleOperations_crons timer isLastCycle).subset
  have moved : ∀ other, other ∉ (process.scheduleOperations timer isLastCycle).runtime.batchTimers := by
    intro other present
    rw [scheduleOperations_batchTimers] at present
    obtain ⟨before, apart⟩ := SchedulerRuntime.mem_clearTimeout.mp present
    exact apart ((held.batch timer member).symm.trans (held.batch other before))
  have set : ∀ other ∈ (process.scheduleOperations timer isLastCycle).runtime.operationTimers,
      other.operation < process.scheduler.operations ∧
        (process.scheduleOperations timer isLastCycle).due other.handle =
          process.now + process.scheduler.getOperationDelay other.operation := by
    intro other present
    rw [scheduleOperations_timers timer isLastCycle empty,
      SchedulerRuntime.newOperationTimers] at present
    obtain ⟨operation, within, rfl⟩ := List.mem_map.mp present
    have inside := List.mem_range.mp within
    exact ⟨inside, scheduleOperations_due_new timer isLastCycle inside⟩
  constructor
  · refine ⟨fun cron present => cronTimely cron (crons present), ?_, ?_, ?_⟩
    · intro other present
      rw [scheduleOperations_clusterTimers] at present
      rw [scheduleOperations_due_old timer isLastCycle (onTime.fresh other (.inr (.inl present)))]
      exact clusterTimely other present
    · exact fun other present => absurd present (moved other)
    · intro other present
      obtain ⟨inside, fires⟩ := set other present
      rw [fires]
      have nonnegative := (delays other.operation inside).1
      exact le_add_of_nonneg_right nonnegative
  · exact scheduleOperations_fresh timer isLastCycle onTime.fresh
  · exact fun stopped => absurd (created.symm.trans stopped) (by simp)
  · exact onTime.delays
  · exact fun other present => (set other present).1
  · have item : process.Pending 2 (process.now - process.clusterDelay - process.batchDelay) :=
      ⟨timer, member, by rw [due]; ring⟩
    refine onTime.staggered.advance item fun stage origin pending => ?_
    rcases stage with _ | _ | _ | _ | _
    · obtain ⟨cron, present, tick⟩ := pending
      exact .inr ⟨by omega, cron, crons present, tick⟩
    · obtain ⟨other, present, fires⟩ := pending
      rw [scheduleOperations_clusterTimers] at present
      rw [scheduleOperations_due_old timer isLastCycle (onTime.fresh other (.inr (.inl present)))] at fires
      exact .inr ⟨by omega, other, present, fires⟩
    · obtain ⟨other, present, _⟩ := pending
      exact absurd present (moved other)
    · obtain ⟨other, present, fires⟩ := pending
      have same : process.now + process.scheduler.getOperationDelay other.operation =
          origin + process.clusterDelay + process.batchDelay +
            process.scheduler.getOperationDelay other.operation := (set other present).2.symm.trans fires
      exact .inl ⟨rfl, by linarith⟩
    · cases pending

end Firing

end OnTime

/-- What holds of a scheduler that only starts with valid slots. -/
structure Regular (process : SchedulerProcess) : Prop where
  held : process.runtime.Held
  onTime : process.OnTime

theorem regular_of_silent (silent : next.runtime.Silent) (stopped : next.running = false) :
    next.Regular where
  held := silent.held
  onTime := .of_silent silent stopped

/-- The counter of the cycles plays no part in it. -/
theorem Regular.counted (regular : process.Regular) (cycleCounter : ℕ) :
    { process with cycleCounter := cycleCounter }.Regular := by
  obtain ⟨held, onTime⟩ := regular
  exact ⟨held, onTime.timely, onTime.fresh, onTime.idle, onTime.delays, onTime.positions,
    onTime.staggered⟩

theorem regular_step (regular : process.Regular) {event : SchedulerEvent}
    (valid : process.ValidStart event) (taken : process.step kind event = some next) :
    next.Regular := by
  obtain ⟨held, onTime⟩ := regular
  cases event with
  | passes time =>
    obtain ⟨passed, rfl⟩ := enabled taken
    exact ⟨held, passed.2, onTime.fresh, onTime.idle, onTime.delays, onTime.positions,
      onTime.staggered⟩
  | starts dynamicConfig firstTick =>
    simp only [step] at taken
    split at taken
    · next ready =>
      have silent := onTime.idle ready.1
      split at taken
      · next scheduler success =>
        cases taken
        have delays := Scheduler.shortDelays_of_setDynamicConfig success (valid scheduler success)
        exact ⟨held.initializeScheduler silent.crons, onTime.start ready.1 ready.2 delays⟩
      · cases taken
        exact regular_of_silent silent ready.1
    · cases taken
  | stops =>
    obtain ⟨destroyed, cleared, rfl⟩ := Option.map_eq_some_iff.mp taken
    exact regular_of_silent (held.destroyScheduler cleared) rfl
  | reloadSleeps =>
    obtain ⟨stopped, rfl⟩ := enabled taken
    exact regular_of_silent (onTime.idle stopped) stopped
  | ticks cron =>
    obtain ⟨due, rfl⟩ := enabled taken
    have empty := onTime.clusterTimers_nil due.1 due.2
    exact ⟨held.initializeClusterDelay (held.created_of_live (.inl due.1)) empty,
      onTime.initializeClusterDelay held due.1 due.2 empty⟩
  | clusterFires timer =>
    obtain ⟨due, rfl⟩ := enabled taken
    have empty := onTime.batchTimers_nil due.1 due.2
    exact ⟨held.initializeBatch (held.created_of_live (.inr (.inl due.1))) empty timer,
      onTime.initializeBatch held due.1 due.2 empty⟩
  | batchFires timer =>
    obtain ⟨due, rfl⟩ := enabled taken
    have empty := onTime.operationTimers_nil due.1 due.2
    have created := held.created_of_live (.inr (.inr due.1))
    have counted := (Regular.mk held onTime).counted (kind.countCycle process.cycleCounter).1
    exact ⟨scheduleOperations_held timer _ held created empty,
      counted.onTime.scheduleOperations held due.1 due.2 empty _⟩
  | operationFires timer =>
    obtain ⟨_, rfl⟩ := enabled taken
    exact ⟨held.startOperation timer.handle, onTime.startOperation timer⟩

theorem regular_run {events : List SchedulerEvent} (regular : process.Regular)
    (run : Run (step kind) process events next)
    (valid : Throughout (step kind) ValidStart process events) : next.Regular :=
  run.invariant_throughout (fun regular valid taken => regular_step regular valid taken) valid regular

/-- Without a job or a timer nothing starts an operation, and only a start sets one. -/
theorem silent_step (silent : process.runtime.Silent) {event : SchedulerEvent}
    (other : ∀ dynamicConfig firstTick, event ≠ .starts dynamicConfig firstTick)
    (taken : process.step kind event = some next) :
    next.runtime.Silent ∧ ∀ timer, event ≠ .operationFires timer := by
  cases event with
  | passes time =>
    obtain ⟨_, rfl⟩ := enabled taken
    exact ⟨silent, fun timer same => by cases same⟩
  | starts dynamicConfig firstTick => exact absurd rfl (other dynamicConfig firstTick)
  | stops =>
    obtain ⟨destroyed, cleared, rfl⟩ := Option.map_eq_some_iff.mp taken
    exact ⟨silent.held.destroyScheduler cleared, fun timer same => by cases same⟩
  | reloadSleeps =>
    obtain ⟨_, rfl⟩ := enabled taken
    exact ⟨silent, fun timer same => by cases same⟩
  | ticks cron =>
    obtain ⟨due, _⟩ := enabled taken
    exact absurd (.inl due.1) (silent.not_live cron)
  | clusterFires timer =>
    obtain ⟨due, _⟩ := enabled taken
    exact absurd (.inr (.inl due.1)) (silent.not_live timer)
  | batchFires timer =>
    obtain ⟨due, _⟩ := enabled taken
    exact absurd (.inr (.inr (.inl due.1))) (silent.not_live timer)
  | operationFires timer =>
    obtain ⟨due, _⟩ := enabled taken
    exact absurd (.inr (.inr (.inr ⟨timer, due.1, rfl⟩))) (silent.not_live timer.handle)

private theorem silent_run {events : List SchedulerEvent} (run : Run (step kind) process events next)
    (silent : process.runtime.Silent)
    (others : ∀ dynamicConfig firstTick, .starts dynamicConfig firstTick ∉ events) :
    ∀ timer, .operationFires timer ∉ events := by
  induction run with
  | nil => exact fun timer member => by cases member
  | cons taken rest ih =>
    obtain ⟨kept, idle⟩ := silent_step silent
      (fun dynamicConfig firstTick same => others dynamicConfig firstTick (same ▸ List.mem_cons_self)) taken
    intro timer member
    rcases List.mem_cons.mp member with same | later
    · exact idle timer same.symm
    · exact ih kept (fun dynamicConfig firstTick inside =>
        others dynamicConfig firstTick (List.mem_cons_of_mem _ inside)) timer later

/-- A running scheduler has a cron task, which its stop needs. -/
def Created (process : SchedulerProcess) : Prop :=
  process.running = true → process.runtime.cronTask ≠ none

private theorem created_step (created : process.Created) {event : SchedulerEvent}
    (taken : process.step kind event = some next) : next.Created := by
  cases event with
  | starts dynamicConfig firstTick =>
    simp only [step] at taken
    split at taken
    · split at taken
      · cases taken
        simp [Created, start, SchedulerRuntime.initializeScheduler]
      · cases taken
        exact created
    · cases taken
  | stops =>
    obtain ⟨destroyed, _, rfl⟩ := Option.map_eq_some_iff.mp taken
    exact fun running => by cases running
  | batchFires timer =>
    obtain ⟨_, rfl⟩ := enabled taken
    have kept : (process.runOperations kind timer).runtime.cronTask = process.runtime.cronTask :=
      scheduleOperations_cronTask timer _
    exact fun running missing => created running (kept.symm.trans missing)
  | _ =>
    obtain ⟨_, rfl⟩ := enabled taken
    exact created

private theorem exists_stopped (created : process.runtime.cronTask ≠ none) :
    ∃ stopped, process.step kind .stops = some stopped := by
  simp [step, SchedulerRuntime.destroyScheduler, created]

/-- A scheduler that only starts with valid slots holds every job and timer it has set. So when it
is stopped none of them is left, and up to the next start no operation starts. -/
theorem stop_cancels {scheduler : Scheduler} {cycleCounter : ℕ} {events : List SchedulerEvent}
    (run : Run (step kind) (initial scheduler cycleCounter) events process)
    (valid : Throughout (step kind) ValidStart (initial scheduler cycleCounter) events) :
    process.runtime.Held ∧
      (process.running = true → ∃ stopped, process.step kind .stops = some stopped) ∧
      ∀ stopped, process.step kind .stops = some stopped →
        stopped.runtime.Silent ∧ ∀ later last, Run (step kind) stopped later last →
          (∀ dynamicConfig firstTick, .starts dynamicConfig firstTick ∉ later) →
            ∀ timer, .operationFires timer ∉ later := by
  have regular := regular_run (regular_of_silent SchedulerRuntime.silent_fresh rfl) run valid
  have initially : (initial scheduler cycleCounter).Created := fun running => by cases running
  have created : process.Created :=
    run.invariant (fun created taken => created_step created taken) initially
  refine ⟨regular.held, fun running => exists_stopped (created running), fun stopped taken => ?_⟩
  obtain ⟨destroyed, cleared, rfl⟩ := Option.map_eq_some_iff.mp taken
  have silent := regular.held.destroyScheduler cleared
  exact ⟨silent, fun _ _ rest others => silent_run rest silent others⟩

/-- The second of two members, with two requests in each of its windows. -/
def secondMember : Scheduler :=
  { baseRateLimit := 1000
    rateLimitMargin := 0
    queuePosition := some 0
    queueSize := 1
    operations := 2
    clusterMembers := some [⟨2000, .external⟩, ⟨2000, .self⟩] }

/-- The first of the two requests has started, and the second waits. -/
def betweenRequests : List SchedulerEvent :=
  [.starts {} 4000, .passes 4000, .ticks 0, .passes 6000, .clusterFires 1, .batchFires 2,
    .operationFires ⟨3, 0⟩]

theorem betweenRequests_runs :
    (execute (step .realtime) (initial secondMember 0) betweenRequests).isSome := by decide +kernel

def afterFirstRequest : SchedulerProcess :=
  (execute (step .realtime) (initial secondMember 0) betweenRequests).get betweenRequests_runs

private theorem secondMember_valid {scheduler : Scheduler}
    (success : secondMember.setDynamicConfig {} = .ok scheduler) : scheduler.ValidSlots := by
  have shape : secondMember.setDynamicConfig {} = .ok { secondMember with
      interval := some "*/4 * * * * *"
      normalizedInterval := some 4
      preciseNormalizedInterval := 4000 } := by decide +kernel
  obtain rfl := Except.ok.inj (shape.symm.trans success)
  refine ⟨⟨[⟨2000, .external⟩], ⟨2000, .self⟩, [], rfl, ?_, rfl, ?_, ?_⟩, ⟨0, rfl, ?_⟩, ?_, ?_, ?_, ?_⟩
  all_goals decide +kernel

private theorem betweenRequests_valid :
    Throughout (step .realtime) ValidStart (initial secondMember 0) betweenRequests := by
  refine ⟨fun scheduler success => secondMember_valid success, fun next _ => ?_⟩
  refine throughout_of_forall fun state event member => ?_
  simp only [List.mem_cons, List.not_mem_nil, or_false] at member
  rcases member with rfl | rfl | rfl | rfl | rfl | rfl
  all_goals trivial

theorem stop_cancels_betweenRequests : afterFirstRequest.runtime.Held ∧
    (afterFirstRequest.running = true →
      ∃ stopped, afterFirstRequest.step .realtime .stops = some stopped) ∧
    ∀ stopped, afterFirstRequest.step .realtime .stops = some stopped →
      stopped.runtime.Silent ∧ ∀ later last, Run (step .realtime) stopped later last →
        (∀ dynamicConfig firstTick, .starts dynamicConfig firstTick ∉ later) →
          ∀ timer, .operationFires timer ∉ later :=
  stop_cancels (run_iff_execute.mpr (Option.some_get betweenRequests_runs).symm) betweenRequests_valid

end SchedulerProcess

end PriceFeed.Schedulers
