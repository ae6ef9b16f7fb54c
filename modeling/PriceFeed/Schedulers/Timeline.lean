import PriceFeed.Library.Rounds
import PriceFeed.Schedulers.Cancellation

/-! A scheduler between its start and its stop: the moments at which its cron job and its
timers are due, by the first tick and the number of times it has run its operations. -/

namespace PriceFeed.Schedulers

open PriceFeed.Library

namespace SchedulerProcess

/-- The moment of a tick, counted from the first one. -/
def tickTime (process : SchedulerProcess) (firstTick : ℚ) (tick : ℕ) : ℚ :=
  firstTick + tick * process.scheduler.preciseNormalizedInterval

/-- The ticks so far: those whose operations were run, and those that are still in a delay. -/
def ticked (process : SchedulerProcess) (runs : ℕ) : ℕ :=
  runs + process.runtime.batchTimers.length + process.runtime.clusterTimers.length

/-- After so many calls of `runOperations` each timer is due where the tick that it comes from
and the delays put it. -/
structure Timeline (firstTick : ℚ) (runs : ℕ) (process : SchedulerProcess) : Prop where
  crons : ∀ cron ∈ process.runtime.crons,
    process.nextTick cron = process.tickTime firstTick (process.ticked runs)
  cluster : ∀ timer ∈ process.runtime.clusterTimers, process.due timer =
    process.tickTime firstTick (runs + process.runtime.batchTimers.length) + process.clusterDelay
  batch : ∀ timer ∈ process.runtime.batchTimers, process.due timer =
    process.tickTime firstTick runs + process.clusterDelay + process.batchDelay
  operations : ∀ timer ∈ process.runtime.operationTimers, ∃ earlier, runs = earlier + 1 ∧
    process.due timer.handle = process.tickTime firstTick earlier + process.clusterDelay +
      process.batchDelay + process.scheduler.getOperationDelay timer.operation
  past : ∀ tick < process.ticked runs, process.tickTime firstTick tick ≤ process.now
  single : process.runtime.clusterTimers.length ≤ 1 ∧ process.runtime.batchTimers.length ≤ 1
  ordered : ∃ first, ∀ timer ∈ process.runtime.operationTimers, timer.handle = first + timer.operation

/-- An event while the scheduler runs. -/
def Runs : SchedulerEvent → Prop
  | .starts _ _ | .stops | .reloadSleeps => False
  | _ => True

variable {kind : SchedulerKind} {process next : SchedulerProcess} {firstTick : ℚ} {runs : ℕ}

/-- The calls of `runOperations` after an event. -/
def runsAfter (runs : ℕ) : SchedulerEvent → ℕ
  | .batchFires _ => runs + 1
  | _ => runs

theorem timeline_start (silent : process.runtime.Silent) (scheduler : Scheduler) :
    (process.start scheduler firstTick).Timeline firstTick 0 := by
  have cluster : (process.start scheduler firstTick).runtime.clusterTimers = [] := silent.clusterTimers
  have batch : (process.start scheduler firstTick).runtime.batchTimers = [] := silent.batchTimers
  have operations : (process.start scheduler firstTick).runtime.operationTimers = [] := silent.operationTimers
  constructor
  · intro cron member
    have own : cron = process.runtime.nextHandle := by
      simpa [start, SchedulerRuntime.initializeScheduler, silent.crons] using member
    simp [ticked, cluster, batch, tickTime]
    simp [start, own]
  · simp [cluster]
  · simp [batch]
  · simp [operations]
  · simp [ticked, cluster, batch]
  · simp [cluster, batch]
  · simp [operations]

namespace Timeline

variable (timeline : process.Timeline firstTick runs) (regular : process.Regular)

include timeline

theorem passes {time : ℚ} (later : process.now ≤ time) :
    { process with now := time }.Timeline firstTick runs :=
  ⟨timeline.crons, timeline.cluster, timeline.batch, timeline.operations,
    fun tick before => (timeline.past tick before).trans later, timeline.single, timeline.ordered⟩

include regular

omit timeline in
theorem ticked_initializeClusterDelay {cron : ℕ} (member : cron ∈ process.runtime.crons)
    (due : process.nextTick cron = process.now) :
    (process.initializeClusterDelay cron).ticked runs = process.ticked runs + 1 := by
  have empty := regular.onTime.clusterTimers_nil member due
  have clusterTimers : (process.initializeClusterDelay cron).runtime.clusterTimers =
      [process.runtime.nextHandle] := congrArg (· ++ [process.runtime.nextHandle]) empty
  simp only [ticked, clusterTimers, empty, List.length_singleton, List.length_nil]
  rfl

theorem initializeClusterDelay {cron : ℕ} (member : cron ∈ process.runtime.crons)
    (due : process.nextTick cron = process.now) :
    (process.initializeClusterDelay cron).Timeline firstTick runs := by
  have empty := regular.onTime.clusterTimers_nil member due
  have clusterTimers : (process.initializeClusterDelay cron).runtime.clusterTimers =
      [process.runtime.nextHandle] := congrArg (· ++ [process.runtime.nextHandle]) empty
  have moment : process.now =
      process.tickTime firstTick (runs + process.runtime.batchTimers.length) := by
    have tick := timeline.crons cron member
    rwa [due, ticked, empty] at tick
  have more : (process.initializeClusterDelay cron).ticked runs = process.ticked runs + 1 :=
    ticked_initializeClusterDelay regular member due
  constructor
  · intro other present
    obtain rfl : other = cron :=
      Option.some.inj ((regular.held.cron other present).symm.trans (regular.held.cron cron member))
    have tick := timeline.crons other member
    rw [more]
    simp only [SchedulerProcess.initializeClusterDelay, Function.update_self, tickTime] at tick ⊢
    rw [← due, tick]
    push_cast
    ring
  · intro timer present
    rw [clusterTimers, List.mem_singleton] at present
    rw [present]
    simp only [SchedulerProcess.initializeClusterDelay, Function.update_self, dueAfter]
    exact congrArg (· + process.clusterDelay) moment
  · intro timer present
    simp only [SchedulerProcess.initializeClusterDelay,
      regular.onTime.due_update (.inr (.inr (.inl present)))]
    exact timeline.batch timer present
  · intro timer present
    simp only [SchedulerProcess.initializeClusterDelay,
      regular.onTime.due_update (.inr (.inr (.inr ⟨timer, present, rfl⟩)))]
    exact timeline.operations timer present
  · intro tick before
    rw [more] at before
    rcases Nat.lt_succ_iff_lt_or_eq.mp before with earlier | rfl
    · exact timeline.past tick earlier
    · have reached := timeline.crons cron member
      rw [due] at reached
      exact reached.ge
  · rw [clusterTimers]
    exact ⟨le_rfl, timeline.single.2⟩
  · exact timeline.ordered

omit regular in
/-- A timer that fires was the only one of its stage. -/
theorem clusterTimers_eq {timer : ℕ} (member : timer ∈ process.runtime.clusterTimers) :
    process.runtime.clusterTimers = [timer] := by
  have one := le_antisymm timeline.single.1 (List.length_pos_of_mem member)
  obtain ⟨only, same⟩ := List.length_eq_one_iff.mp one
  rw [same, List.mem_singleton] at member
  rw [same, member]

omit regular in
theorem batchTimers_eq {timer : ℕ} (member : timer ∈ process.runtime.batchTimers) :
    process.runtime.batchTimers = [timer] := by
  have one := le_antisymm timeline.single.2 (List.length_pos_of_mem member)
  obtain ⟨only, same⟩ := List.length_eq_one_iff.mp one
  rw [same, List.mem_singleton] at member
  rw [same, member]

omit regular in
theorem clusterTimers_initializeBatch {timer : ℕ} (member : timer ∈ process.runtime.clusterTimers) :
    (process.initializeBatch timer).runtime.clusterTimers = [] := by
  simp [SchedulerProcess.initializeBatch, SchedulerRuntime.initializeBatch,
    timeline.clusterTimers_eq member, SchedulerRuntime.clearTimeout]

theorem ticked_initializeBatch {timer : ℕ} (member : timer ∈ process.runtime.clusterTimers)
    (due : process.due timer = process.now) :
    (process.initializeBatch timer).ticked runs = process.ticked runs := by
  have empty := regular.onTime.batchTimers_nil member due
  have batchTimers : (process.initializeBatch timer).runtime.batchTimers =
      [process.runtime.nextHandle] := congrArg (· ++ [process.runtime.nextHandle]) empty
  simp [ticked, timeline.clusterTimers_initializeBatch member, batchTimers,
    timeline.clusterTimers_eq member, empty]

theorem initializeBatch {timer : ℕ} (member : timer ∈ process.runtime.clusterTimers)
    (due : process.due timer = process.now) :
    (process.initializeBatch timer).Timeline firstTick runs := by
  have empty := regular.onTime.batchTimers_nil member due
  have clusterTimers := timeline.clusterTimers_initializeBatch member
  have batchTimers : (process.initializeBatch timer).runtime.batchTimers =
      [process.runtime.nextHandle] := congrArg (· ++ [process.runtime.nextHandle]) empty
  have same := timeline.ticked_initializeBatch regular member due
  constructor
  · rw [same]
    exact timeline.crons
  · simp [clusterTimers]
  · intro other present
    rw [batchTimers, List.mem_singleton] at present
    rw [present]
    have moment := timeline.cluster timer member
    rw [due, empty] at moment
    simp only [SchedulerProcess.initializeBatch, Function.update_self, dueAfter]
    exact congrArg (· + process.batchDelay) moment
  · intro other present
    simp only [SchedulerProcess.initializeBatch,
      regular.onTime.due_update (.inr (.inr (.inr ⟨other, present, rfl⟩)))]
    exact timeline.operations other present
  · rw [same]
    exact timeline.past
  · rw [clusterTimers, batchTimers]
    exact ⟨Nat.zero_le _, le_rfl⟩
  · exact timeline.ordered

omit regular in
theorem batchTimers_scheduleOperations {timer : ℕ} (member : timer ∈ process.runtime.batchTimers)
    (isLastCycle : Bool) :
    (process.scheduleOperations timer isLastCycle).runtime.batchTimers = [] := by
  rw [scheduleOperations_batchTimers, timeline.batchTimers_eq member]
  simp [SchedulerRuntime.clearTimeout]

omit regular in
theorem ticked_scheduleOperations {timer : ℕ} (member : timer ∈ process.runtime.batchTimers)
    (isLastCycle : Bool) :
    (process.scheduleOperations timer isLastCycle).ticked (runs + 1) = process.ticked runs := by
  simp [ticked, scheduleOperations_clusterTimers, timeline.batchTimers_eq member,
    timeline.batchTimers_scheduleOperations member]

theorem scheduleOperations {timer : ℕ} (member : timer ∈ process.runtime.batchTimers)
    (due : process.due timer = process.now) (isLastCycle : Bool) :
    (process.scheduleOperations timer isLastCycle).Timeline firstTick (runs + 1) := by
  have empty := regular.onTime.operationTimers_nil member due
  have own := timeline.batchTimers_eq member
  have clusterTimers : (process.scheduleOperations timer isLastCycle).runtime.clusterTimers =
      process.runtime.clusterTimers := scheduleOperations_clusterTimers timer isLastCycle
  have batchTimers := timeline.batchTimers_scheduleOperations member isLastCycle
  have same := timeline.ticked_scheduleOperations member isLastCycle
  constructor
  · intro cron present
    rw [same]
    exact timeline.crons cron (scheduleOperations_crons timer isLastCycle |>.subset present)
  · intro other present
    rw [clusterTimers] at present
    rw [scheduleOperations_due_old timer isLastCycle (regular.onTime.fresh other (.inr (.inl present))),
      timeline.cluster other present, own, batchTimers]
    rfl
  · simp [batchTimers]
  · intro other present
    rw [scheduleOperations_timers timer isLastCycle empty] at present
    obtain ⟨operation, inside, rfl⟩ := List.mem_map.mp present
    refine ⟨runs, rfl, ?_⟩
    rw [scheduleOperations_due_new timer isLastCycle (List.mem_range.mp inside), ← due,
      timeline.batch timer member]
    rfl
  · rw [same]
    exact timeline.past
  · rw [clusterTimers, batchTimers]
    exact ⟨timeline.single.1, Nat.zero_le _⟩
  · refine ⟨process.runtime.nextHandle, fun other present => ?_⟩
    rw [scheduleOperations_timers timer isLastCycle empty] at present
    obtain ⟨operation, _, rfl⟩ := List.mem_map.mp present
    rfl

omit regular in
theorem startOperation (timer : OperationTimer) :
    (process.startOperation timer).Timeline firstTick runs :=
  ⟨timeline.crons, timeline.cluster, timeline.batch,
    fun other present => timeline.operations other (List.mem_of_mem_filter present),
    timeline.past, timeline.single, timeline.ordered.imp fun _ ordered other present =>
      ordered other (List.mem_of_mem_filter present)⟩

omit timeline regular in
theorem counted (timeline : process.Timeline firstTick runs) (cycleCounter : ℕ) :
    { process with cycleCounter := cycleCounter }.Timeline firstTick runs :=
  ⟨timeline.crons, timeline.cluster, timeline.batch, timeline.operations, timeline.past,
    timeline.single, timeline.ordered⟩

end Timeline

/-- Up to its stop a scheduler keeps to the timeline. -/
theorem timeline_step (regular : process.Regular) (timeline : process.Timeline firstTick runs)
    {event : SchedulerEvent} (going : Runs event) (taken : process.step kind event = some next) :
    next.Timeline firstTick (runsAfter runs event) := by
  cases event with
  | passes time =>
    obtain ⟨passed, rfl⟩ := enabled taken
    exact timeline.passes passed.1
  | starts dynamicConfig firstTick => exact going.elim
  | stops => exact going.elim
  | reloadSleeps => exact going.elim
  | ticks cron =>
    obtain ⟨due, rfl⟩ := enabled taken
    exact timeline.initializeClusterDelay regular due.1 due.2
  | clusterFires timer =>
    obtain ⟨due, rfl⟩ := enabled taken
    exact timeline.initializeBatch regular due.1 due.2
  | batchFires timer =>
    obtain ⟨due, rfl⟩ := enabled taken
    have counted := timeline.counted (kind.countCycle process.cycleCounter).1
    exact counted.scheduleOperations (regular.counted _) due.1 due.2
      (kind.countCycle process.cycleCounter).2
  | operationFires timer =>
    obtain ⟨_, rfl⟩ := enabled taken
    exact timeline.startOperation timer

/-- Only a tick adds to the ticks, and it comes at its moment. -/
theorem ticked_step (regular : process.Regular) (timeline : process.Timeline firstTick runs)
    {event : SchedulerEvent} (going : Runs event) (taken : process.step kind event = some next) :
    (∃ cron, event = .ticks cron) ∧ next.ticked (runsAfter runs event) = process.ticked runs + 1 ∧
        process.now = process.tickTime firstTick (process.ticked runs) ∨
      (∀ cron, event ≠ .ticks cron) ∧
        next.ticked (runsAfter runs event) = process.ticked runs := by
  cases event with
  | starts dynamicConfig firstTick => exact going.elim
  | stops => exact going.elim
  | reloadSleeps => exact going.elim
  | ticks cron =>
    obtain ⟨due, rfl⟩ := enabled taken
    refine .inl ⟨⟨cron, rfl⟩, Timeline.ticked_initializeClusterDelay regular due.1 due.2, ?_⟩
    rw [← due.2]
    exact timeline.crons cron due.1
  | clusterFires timer =>
    obtain ⟨due, rfl⟩ := enabled taken
    exact .inr ⟨nofun, timeline.ticked_initializeBatch regular due.1 due.2⟩
  | batchFires timer =>
    obtain ⟨due, rfl⟩ := enabled taken
    have counted := timeline.counted (kind.countCycle process.cycleCounter).1
    exact .inr ⟨nofun, counted.ticked_scheduleOperations due.1 _⟩
  | passes time =>
    obtain ⟨_, rfl⟩ := enabled taken
    exact .inr ⟨nofun, rfl⟩
  | operationFires timer =>
    obtain ⟨_, rfl⟩ := enabled taken
    exact .inr ⟨nofun, rfl⟩

theorem scheduler_step {event : SchedulerEvent} (going : Runs event)
    (taken : process.step kind event = some next) : next.scheduler = process.scheduler := by
  cases event with
  | starts dynamicConfig firstTick => exact going.elim
  | stops => exact going.elim
  | reloadSleeps => exact going.elim
  | _ =>
    obtain ⟨_, rfl⟩ := enabled taken
    rfl

theorem cronTask_step {event : SchedulerEvent} (going : Runs event)
    (taken : process.step kind event = some next) :
    next.runtime.cronTask = process.runtime.cronTask ∧ next.running = process.running := by
  cases event with
  | starts dynamicConfig firstTick => exact going.elim
  | stops => exact going.elim
  | reloadSleeps => exact going.elim
  | batchFires timer =>
    obtain ⟨_, rfl⟩ := enabled taken
    exact ⟨scheduleOperations_cronTask timer _, rfl⟩
  | _ =>
    obtain ⟨_, rfl⟩ := enabled taken
    exact ⟨rfl, rfl⟩

/-- The cron job of a realtime scheduler lasts until its stop. -/
theorem crons_step {event : SchedulerEvent} (going : Runs event)
    (taken : process.step .realtime event = some next) : next.runtime.crons = process.runtime.crons := by
  cases event with
  | starts dynamicConfig firstTick => exact going.elim
  | stops => exact going.elim
  | reloadSleeps => exact going.elim
  | _ =>
    obtain ⟨_, rfl⟩ := enabled taken
    rfl

/-- An operation whose timer has not fired yet. -/
def Waits (process : SchedulerProcess) (operation : ℕ) : Prop :=
  ∃ timer ∈ process.runtime.operationTimers, timer.operation = operation

/-- The turns of the operations after an event: one starts for the latest call of `runOperations`. -/
def turnsAfter (turns : List (ℕ × ℕ)) (runs : ℕ) : SchedulerEvent → List (ℕ × ℕ)
  | .operationFires timer => turns ++ [(timer.operation, runs - 1)]
  | _ => turns

private theorem waits_startOperation (timeline : process.Timeline firstTick runs) {timer : OperationTimer}
    (member : timer ∈ process.runtime.operationTimers) (other : ℕ) :
    (process.startOperation timer).Waits other ↔ process.Waits other ∧ other ≠ timer.operation := by
  obtain ⟨first, ordered⟩ := timeline.ordered
  constructor
  · rintro ⟨waiting, present, rfl⟩
    obtain ⟨before, apart⟩ := List.mem_filter.mp present
    refine ⟨⟨waiting, before, rfl⟩, fun same => ?_⟩
    simp [ordered waiting before, ordered timer member, same] at apart
  · rintro ⟨⟨waiting, before, rfl⟩, apart⟩
    refine ⟨waiting, List.mem_filter.mpr ⟨before, ?_⟩, rfl⟩
    simpa [ordered waiting before, ordered timer member] using apart

/-- Each operation starts once for each call of `runOperations`, before the next call. -/
theorem takesTurns_step {turns : List (ℕ × ℕ)} (regular : process.Regular)
    (timeline : process.Timeline firstTick runs)
    (takes : TakesTurns process.scheduler.operations process.Waits turns runs)
    {event : SchedulerEvent} (going : Runs event) (taken : process.step kind event = some next) :
    TakesTurns next.scheduler.operations next.Waits (turnsAfter turns runs event)
      (runsAfter runs event) := by
  rw [scheduler_step going taken]
  cases event with
  | starts dynamicConfig firstTick => exact going.elim
  | stops => exact going.elim
  | reloadSleeps => exact going.elim
  | batchFires timer =>
    obtain ⟨due, rfl⟩ := enabled taken
    have empty := regular.onTime.operationTimers_nil due.1 due.2
    refine takes.next (fun operation waits => ?_) fun operation inside => ?_
    · obtain ⟨waiting, present, _⟩ := waits
      rw [empty] at present
      cases present
    · refine ⟨⟨process.runtime.nextHandle + operation, operation⟩, ?_, rfl⟩
      have set : (process.runOperations kind timer).runtime.operationTimers =
          process.runtime.newOperationTimers process.scheduler.operations :=
        scheduleOperations_timers timer _ empty
      exact set ▸ List.mem_map_of_mem (List.mem_range.mpr inside)
  | operationFires timer =>
    obtain ⟨due, rfl⟩ := enabled taken
    obtain ⟨earlier, rfl, _⟩ := timeline.operations timer due.1
    exact takes.turn ⟨timer, due.1, rfl⟩ (waits_startOperation timeline due.1)
  | _ =>
    obtain ⟨_, rfl⟩ := enabled taken
    exact takes

end SchedulerProcess

end PriceFeed.Schedulers
