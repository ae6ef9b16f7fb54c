import PriceFeed.Schedulers.Cycles

/-! What the timers, the calls and the counter of a historical scheduler say about its
cycles, as long as no stage of the delays starts before its last timers are gone. -/

namespace PriceFeed.Schedulers

open PriceFeed.Library

namespace HistoricalProcess

/-- A stage of the delays sets its timers only after those it set before have fired. -/
def Orderly (process : HistoricalProcess) : HistoricalEvent → Prop
  | .ticks _ => process.runtime.clusterTimers = []
  | .clusterFires _ => process.runtime.batchTimers = []
  | .batchFires _ => process.runtime.operationTimers = []
  | _ => True

instance (process : HistoricalProcess) : DecidablePred process.Orderly
  | .ticks _ => inferInstanceAs (Decidable (process.runtime.clusterTimers = []))
  | .clusterFires _ => inferInstanceAs (Decidable (process.runtime.batchTimers = []))
  | .batchFires _ => inferInstanceAs (Decidable (process.runtime.operationTimers = []))
  | .passes _ | .operationFires _ | .callEnds _ _ | .resolves _ | .backoffProcessed _
  | .reloadStops _ | .starts _ _ => isTrue trivial

def Started (process : HistoricalProcess) (run operation : ℕ) : Prop :=
  ∃ call ∈ process.calls, call.run = run ∧ call.operation = operation

def Waiting (process : HistoricalProcess) (run operation : ℕ) : Prop :=
  ∃ timer ∈ process.runtime.operationTimers,
    process.runOf timer.handle = run ∧ timer.operation = operation

/-- The newest call of `runOperations` for a cycle. -/
structure LatestRun (process : HistoricalProcess) (cycle run : ℕ) : Prop where
  known : process.cycleOf run = some cycle
  latest : ∀ later, run < later → process.cycleOf later ≠ some cycle

variable (options : HistoricalOptions)

/-- One call of `runOperations` for the cycle has started all its operations. -/
def AllStarted (process : HistoricalProcess) (cycle : ℕ) : Prop :=
  ∃ run, process.cycleOf run = some cycle ∧
    ∀ operation < options.operations, process.Started run operation

/-- The fields hold the bounds of a cycle. -/
structure HoldsBounds (process : HistoricalProcess) (cycle : ℕ) : Prop where
  starts : process.intervalStart = options.cycleStart cycle
  ends : process.intervalEnd = options.cycleEnd cycle

structure CycleSound (process : HistoricalProcess) : Prop where
  held : process.runtime.Held
  single : ∀ timer ∈ process.runtime.operationTimers, ∀ other ∈ process.runtime.operationTimers,
    timer.handle = other.handle → timer = other
  stopped : process.reloading = true → process.runtime.crons = []
  counter : process.cycleCounter ≤ options.totalCycles
  inside : ∀ run cycle, process.cycleOf run = some cycle → cycle < options.totalCycles
  last : ∀ run : ℕ, ∀ operationsRun : OperationsRun, process.runs[run]? = some operationsRun →
    operationsRun.lastCycle = true → operationsRun.cycle + 1 = options.totalCycles ∧
      ∀ cycle < operationsRun.cycle, process.AllStarted options cycle
  calls : ∀ call ∈ process.calls, ∃ cycle, process.cycleOf call.run = some cycle ∧
    call.intervalStart = options.cycleStart cycle ∧ call.intervalEnd = options.cycleEnd cycle
  waiting : ∀ timer ∈ process.runtime.operationTimers, ∃ cycle, cycle + 1 = process.cycleCounter ∧
    process.cycleOf (process.runOf timer.handle) = some cycle ∧ process.HoldsBounds options cycle
  current : ∀ cycle, cycle + 1 = options.totalCycles → process.cycleCounter = options.totalCycles →
    process.HoldsBounds options cycle
  covered : ∀ cycle < process.cycleCounter, ∃ run, process.LatestRun cycle run ∧
    ∀ operation < options.operations, process.Started run operation ∨ process.Waiting run operation
  resolved : process.resolved = true → ∀ cycle < options.totalCycles, process.AllStarted options cycle

variable {options} {process next : HistoricalProcess}

theorem updateIntervalBounds_of_lt (inside : process.cycleCounter < options.totalCycles) :
    process.updateIntervalBounds options = ({ process with
      intervalStart := options.cycleStart process.cycleCounter
      intervalEnd := options.cycleEnd process.cycleCounter
      cycleCounter := process.cycleCounter + 1 },
      decide (options.totalCycles ≤ process.cycleCounter + 1)) := by
  have open_ : ¬ options.totalCycles ≤ process.cycleCounter := Nat.not_le.mpr inside
  simp only [updateIntervalBounds, if_neg open_, HistoricalOptions.cycleStart,
    HistoricalOptions.cycleEnd, HistoricalOptions.minuteStart, HistoricalOptions.cycleLimit,
    decide_eq_true_eq]
  push_cast
  simp only [add_mul]

theorem updateIntervalBounds_of_le (ended : options.totalCycles ≤ process.cycleCounter) :
    process.updateIntervalBounds options = (process, true) :=
  if_pos ended

/-- The calls of the next state continue those before. -/
structure SameCalls (process next : HistoricalProcess) : Prop where
  kept : ∀ run operation, process.Started run operation → next.Started run operation
  known : ∀ call ∈ next.calls, ∃ old ∈ process.calls, old.run = call.run ∧
    old.intervalStart = call.intervalStart ∧ old.intervalEnd = call.intervalEnd

theorem sameCalls_of_eq (calls : next.calls = process.calls) : process.SameCalls next := by
  refine ⟨?_, ?_⟩
  · simp only [Started, calls]
    exact fun _ _ started => started
  · rw [calls]
    exact fun call member => ⟨call, member, rfl, rfl, rfl⟩

theorem stopForReload_some {multiplier : Option ℚ}
    (taken : process.stopForReload options multiplier = some next) :
    ∃ destroyed, process.runtime.destroyScheduler = some destroyed ∧
      next = { process with
        internalMultiplier := multiplier.getD process.internalMultiplier
        runtime := destroyed
        reloading := true }.backoffCycles options := by
  simp only [stopForReload] at taken
  split at taken
  · cases taken
  · obtain ⟨destroyed, destroys, rfl⟩ := Option.map_eq_some_iff.mp taken
    exact ⟨destroyed, destroys, rfl⟩

theorem endCall_calls (process : HistoricalProcess) (index : ℕ) (call : OperationCall)
    (outcome : CallOutcome) : (process.endCall index call outcome).calls =
      process.calls.set index { call with outcome := some outcome } := by
  cases outcome with
  | finished => rfl
  | rateLimited => rfl

/-- Whatever does not depend on the outcome is kept of the calls. -/
theorem map_endCall_calls {Value : Type*} (read : OperationCall → Value)
    (kept : ∀ call outcome, read { call with outcome := outcome } = read call) {index : ℕ}
    {call : OperationCall} (found : process.calls[index]? = some call) (outcome : CallOutcome) :
    (process.endCall index call outcome).calls.map read = process.calls.map read := by
  obtain ⟨inside, rfl⟩ := List.getElem?_eq_some_iff.mp found
  have place : index < (process.calls.map read).length := by rwa [List.length_map]
  have same := List.set_getElem_self place
  rwa [List.getElem_map, ← kept process.calls[index] (some outcome), ← List.map_set,
    ← endCall_calls] at same

/-- A call that ends keeps its run, its operation and its bounds. -/
theorem sameCalls_endCall {index : ℕ} {call : OperationCall} (found : process.calls[index]? = some call)
    (outcome : CallOutcome) : process.SameCalls (process.endCall index call outcome) := by
  have present := List.mem_of_getElem? found
  constructor
  · intro run operation ⟨other, member, same⟩
    obtain ⟨position, held⟩ := List.mem_iff_getElem?.mp member
    by_cases here : position = index
    · subst here
      obtain rfl : call = other := Option.some.inj (found.symm.trans held)
      refine ⟨{ call with outcome := some outcome }, ?_, same⟩
      rw [endCall_calls]
      exact List.mem_set (List.getElem?_eq_some_iff.mp held).1 _
    · refine ⟨other, ?_, same⟩
      rw [endCall_calls]
      exact List.mem_of_getElem? ((List.getElem?_set_ne (Ne.symm here)).trans held)
  · intro other member
    rw [endCall_calls] at member
    rcases List.mem_or_eq_of_mem_set member with old | rfl
    · exact ⟨other, old, rfl, rfl, rfl⟩
    · exact ⟨call, present, rfl, rfl, rfl⟩

theorem AllStarted.mono {cycle : ℕ} (all : process.AllStarted options cycle)
    (runs : ∀ run, process.cycleOf run = some cycle → next.cycleOf run = some cycle)
    (started : ∀ run operation, process.Started run operation → next.Started run operation) :
    next.AllStarted options cycle := by
  obtain ⟨run, known, begun⟩ := all
  exact ⟨run, runs run known, fun operation inside => started run operation (begun operation inside)⟩

theorem run_lt_length {run cycle : ℕ} (known : process.cycleOf run = some cycle) :
    run < process.runs.length := by
  by_contra beyond
  rw [cycleOf, List.getElem?_eq_none (Nat.not_lt.mp beyond)] at known
  cases known

private theorem cycleOf_concat {operationsRun : OperationsRun}
    (runs : next.runs = process.runs ++ [operationsRun]) {run cycle : ℕ} :
    next.cycleOf run = some cycle ↔
      process.cycleOf run = some cycle ∨ run = process.runs.length ∧ operationsRun.cycle = cycle := by
  rw [cycleOf, cycleOf, runs]
  rcases Nat.lt_trichotomy run process.runs.length with before | here | after
  · rw [List.getElem?_append_left before]
    constructor
    · exact .inl
    · exact fun known => known.resolve_right fun new => by omega
  · simp [here]
  · rw [List.getElem?_eq_none (by simp; omega), List.getElem?_eq_none (by omega)]
    simp only [Option.map_none, reduceCtorEq, false_or, false_iff]
    omega

namespace CycleSound

/-- A step that leaves the runs, their operation timers and the counter. -/
theorem keep (sound : process.CycleSound options) (held : next.runtime.Held)
    (stopped : next.reloading = true → next.runtime.crons = [])
    (timers : next.runtime.operationTimers = process.runtime.operationTimers)
    (calls : process.SameCalls next) (runs : next.runs = process.runs)
    (runOf : next.runOf = process.runOf) (counter : next.cycleCounter = process.cycleCounter)
    (starts : next.intervalStart = process.intervalStart)
    (ends : next.intervalEnd = process.intervalEnd)
    (resolved : next.resolved = true →
      ∀ cycle < options.totalCycles, process.AllStarted options cycle) :
    next.CycleSound options := by
  obtain ⟨_, single, _, counted, inside, last, called, waiting, current, covered, _⟩ := sound
  have bounds : ∀ cycle, process.HoldsBounds options cycle → next.HoldsBounds options cycle :=
    fun cycle held => ⟨starts ▸ held.starts, ends ▸ held.ends⟩
  have cycles : ∀ run, next.cycleOf run = process.cycleOf run := fun run => by rw [cycleOf, runs]; rfl
  have all : ∀ cycle, process.AllStarted options cycle → next.AllStarted options cycle :=
    fun cycle all => all.mono (fun run known => (cycles run).trans known) calls.kept
  constructor
  · exact held
  · rwa [timers]
  · exact stopped
  · rwa [counter]
  · simpa only [cycles] using inside
  · intro run operationsRun known lastCycle
    rw [runs] at known
    obtain ⟨final, before⟩ := last run operationsRun known lastCycle
    exact ⟨final, fun cycle below => all cycle (before cycle below)⟩
  · intro call member
    obtain ⟨old, before, run, first, final⟩ := calls.known call member
    obtain ⟨cycle, known, opens, closes⟩ := called old before
    exact ⟨cycle, by rw [cycles, ← run, known], by rw [← first, opens], by rw [← final, closes]⟩
  · intro timer member
    rw [timers] at member
    obtain ⟨cycle, below, known, holds⟩ := waiting timer member
    rw [counter, runOf, cycles]
    exact ⟨cycle, below, known, bounds cycle holds⟩
  · intro cycle last full
    rw [counter] at full
    exact bounds cycle (current cycle last full)
  · intro cycle below
    rw [counter] at below
    obtain ⟨run, ⟨known, latest⟩, begun⟩ := covered cycle below
    refine ⟨run, ⟨(cycles run).trans known, fun later after => ?_⟩, fun operation inside => ?_⟩
    · rw [cycles]
      exact latest later after
    · refine (begun operation inside).imp (calls.kept run operation) ?_
      simp only [Waiting, timers, runOf, imp_self]
  · exact fun done cycle below => all cycle (resolved done cycle below)

/-- The bounds that `updateIntervalBounds` sets are those of the next cycle, or still
those of the last one. -/
private theorem exists_updated (sound : process.CycleSound options) (cycles : 0 < options.totalCycles) :
    ∃ cycle < options.totalCycles, process.cycleCounter ≤ cycle + 1 ∧ cycle ≤ process.cycleCounter ∧
      process.updateIntervalBounds options = ({ process with
        intervalStart := options.cycleStart cycle
        intervalEnd := options.cycleEnd cycle
        cycleCounter := cycle + 1 }, decide (options.totalCycles ≤ cycle + 1)) := by
  by_cases inside : process.cycleCounter < options.totalCycles
  · exact ⟨process.cycleCounter, inside, by omega, le_rfl, updateIntervalBounds_of_lt inside⟩
  · have full : process.cycleCounter = options.totalCycles :=
      le_antisymm sound.counter (Nat.not_lt.mp inside)
    obtain ⟨last, succ⟩ : ∃ last, last + 1 = options.totalCycles := ⟨_, Nat.sub_add_cancel cycles⟩
    have holds := sound.current last succ full
    refine ⟨last, by omega, by omega, by omega, ?_⟩
    rw [updateIntervalBounds_of_le full.ge, ← holds.starts, ← holds.ends, succ, ← full]
    simp

end CycleSound

/-- A state after `runOperations` for a cycle. -/
structure NextRun (options : HistoricalOptions) (process next : HistoricalProcess) (cycle : ℕ) :
    Prop where
  inside : cycle < options.totalCycles
  follows : process.cycleCounter ≤ cycle + 1
  reached : cycle ≤ process.cycleCounter
  counter : next.cycleCounter = cycle + 1
  holds : next.HoldsBounds options cycle
  runs : next.runs = process.runs ++ [⟨cycle, decide (options.totalCycles ≤ cycle + 1)⟩]
  calls : next.calls = process.calls
  resolved : next.resolved = process.resolved
  unreplayed : next.unreplayed = process.unreplayed
  reloading : next.reloading = process.reloading
  held : next.runtime.Held
  crons : next.runtime.crons.Sublist process.runtime.crons
  timers : next.runtime.operationTimers = process.runtime.newOperationTimers options.operations
  runOf : ∀ operation < options.operations,
    next.runOf (process.runtime.nextHandle + operation) = process.runs.length

section Scheduling

variable (timer : ℕ) (isLastCycle : Bool)

theorem scheduleOperations_timers (fired : process.runtime.operationTimers = []) :
    (process.scheduleOperations options timer isLastCycle).runtime.operationTimers =
      process.runtime.newOperationTimers options.operations := by
  cases isLastCycle with
  | true => simp [scheduleOperations, SchedulerRuntime.runOperations, fired,
      SchedulerRuntime.newOperationTimers]
  | false => simp [scheduleOperations, SchedulerRuntime.runOperations, fired]

theorem scheduleOperations_runOf {operation : ℕ} (inside : operation < options.operations) :
    (process.scheduleOperations options timer isLastCycle).runOf
      (process.runtime.nextHandle + operation) = process.runs.length := by
  cases isLastCycle with
  | true => simp [scheduleOperations, inside]
  | false => simp [scheduleOperations, inside]

theorem scheduleOperations_crons :
    (process.scheduleOperations options timer isLastCycle).runtime.crons.Sublist
      process.runtime.crons := by
  cases isLastCycle with
  | true => exact process.runtime.stopCron_sublist
  | false => exact .refl _

theorem scheduleOperations_held (held : process.runtime.Held)
    (created : process.runtime.cronTask ≠ none) (fired : process.runtime.operationTimers = []) :
    (process.scheduleOperations options timer isLastCycle).runtime.Held := by
  cases isLastCycle with
  | true => exact held.stopCron.runOperations created fired timer _
  | false => exact held.runOperations created fired timer _

end Scheduling

/-- `runOperations` sets up the next cycle, or the last one again. -/
theorem CycleSound.nextRun (sound : process.CycleSound options) (cycles : 0 < options.totalCycles)
    (created : process.runtime.cronTask ≠ none) (fired : process.runtime.operationTimers = [])
    (timer : ℕ) :
    ∃ cycle, NextRun options process (process.runOperations options timer) cycle := by
  obtain ⟨cycle, inside, follows, reached, updated⟩ := sound.exists_updated cycles
  refine ⟨cycle, ?_⟩
  unfold runOperations
  rw [updated]
  exact ⟨inside, follows, reached, rfl, ⟨rfl, rfl⟩, rfl, rfl, rfl, rfl, rfl,
    scheduleOperations_held timer _ sound.held created fired, scheduleOperations_crons timer _,
    scheduleOperations_timers timer _ fired, fun operation within =>
      scheduleOperations_runOf timer _ within⟩

namespace NextRun

variable {cycle : ℕ} (nextRun : NextRun options process next cycle)

include nextRun

theorem cycleOf_iff {run known : ℕ} : next.cycleOf run = some known ↔
    process.cycleOf run = some known ∨ run = process.runs.length ∧ cycle = known :=
  cycleOf_concat nextRun.runs

theorem allStarted {earlier : ℕ} (all : process.AllStarted options earlier) :
    next.AllStarted options earlier :=
  all.mono (fun _ known => nextRun.cycleOf_iff.mpr (.inl known))
    (sameCalls_of_eq nextRun.calls).kept

theorem mem_timers {timer : OperationTimer} (member : timer ∈ next.runtime.operationTimers) :
    timer.operation < options.operations ∧
      timer.handle = process.runtime.nextHandle + timer.operation ∧
      next.runOf timer.handle = process.runs.length := by
  rw [nextRun.timers, SchedulerRuntime.newOperationTimers] at member
  obtain ⟨operation, within, rfl⟩ := List.mem_map.mp member
  rw [List.mem_range] at within
  exact ⟨within, rfl, nextRun.runOf operation within⟩

theorem waiting {operation : ℕ} (within : operation < options.operations) :
    next.Waiting process.runs.length operation := by
  refine ⟨⟨process.runtime.nextHandle + operation, operation⟩, ?_, nextRun.runOf operation within, rfl⟩
  rw [nextRun.timers, SchedulerRuntime.newOperationTimers]
  exact List.mem_map.mpr ⟨operation, List.mem_range.mpr within, rfl⟩

theorem latestRun_new : next.LatestRun cycle process.runs.length where
  known := nextRun.cycleOf_iff.mpr (.inr ⟨rfl, rfl⟩)
  latest later after known := by
    have length := run_lt_length known
    rw [nextRun.runs, List.length_append, List.length_singleton] at length
    omega

private theorem latestRun_old {earlier run : ℕ} (latest : process.LatestRun earlier run)
    (before : earlier ≠ cycle) : next.LatestRun earlier run where
  known := nextRun.cycleOf_iff.mpr (.inl latest.known)
  latest later after known := by
    rcases nextRun.cycleOf_iff.mp known with old | ⟨_, same⟩
    · exact latest.latest later after old
    · exact before same.symm

end NextRun

namespace CycleSound

variable (sound : process.CycleSound options)

include sound

/-- The operations of a cycle are set up when those of the cycle before have started. -/
theorem runOperations (cycles : 0 < options.totalCycles) (created : process.runtime.cronTask ≠ none)
    (fired : process.runtime.operationTimers = []) (timer : ℕ) :
    (process.runOperations options timer).CycleSound options := by
  obtain ⟨cycle, nextRun⟩ := sound.nextRun cycles created fired timer
  have started : ∀ earlier < process.cycleCounter, ∃ run, process.LatestRun earlier run ∧
      ∀ operation < options.operations, process.Started run operation := by
    intro earlier below
    obtain ⟨run, latest, begun⟩ := sound.covered earlier below
    refine ⟨run, latest, fun operation within => (begun operation within).resolve_right ?_⟩
    intro ⟨timer, member, _⟩
    rw [fired] at member
    cases member
  constructor
  · exact nextRun.held
  · intro timer member other present same
    obtain ⟨_, handle, _⟩ := nextRun.mem_timers member
    obtain ⟨_, other_handle, _⟩ := nextRun.mem_timers present
    have position : timer.operation = other.operation := by omega
    exact OperationTimer.ext same position
  · intro reloading
    rw [nextRun.reloading] at reloading
    exact List.sublist_nil.mp (sound.stopped reloading ▸ nextRun.crons)
  · rw [nextRun.counter]
    exact nextRun.inside
  · intro run known cycleOf
    rcases nextRun.cycleOf_iff.mp cycleOf with old | ⟨_, rfl⟩
    · exact sound.inside run known old
    · exact nextRun.inside
  · intro run operationsRun known lastCycle
    rw [nextRun.runs, List.getElem?_append] at known
    split at known
    · obtain ⟨final, before⟩ := sound.last run operationsRun known lastCycle
      exact ⟨final, fun earlier below => nextRun.allStarted (before earlier below)⟩
    · obtain rfl := List.mem_singleton.mp (List.mem_of_getElem? known)
      refine ⟨?_, fun earlier below => ?_⟩
      · exact le_antisymm (Nat.succ_le_of_lt nextRun.inside) (of_decide_eq_true lastCycle)
      · obtain ⟨run, latest, begun⟩ := started earlier (below.trans_le nextRun.reached)
        exact nextRun.allStarted ⟨run, latest.known, begun⟩
  · intro call member
    rw [nextRun.calls] at member
    obtain ⟨known, old, bounds⟩ := sound.calls call member
    exact ⟨known, nextRun.cycleOf_iff.mpr (.inl old), bounds⟩
  · intro timer member
    refine ⟨cycle, nextRun.counter.symm, ?_, nextRun.holds⟩
    rw [(nextRun.mem_timers member).2.2]
    exact nextRun.latestRun_new.known
  · intro last final full
    rw [nextRun.counter] at full
    obtain rfl : last = cycle := by omega
    exact nextRun.holds
  · intro earlier below
    by_cases here : earlier = cycle
    · subst here
      exact ⟨process.runs.length, nextRun.latestRun_new, fun operation within =>
        .inr (nextRun.waiting within)⟩
    · rw [nextRun.counter] at below
      obtain ⟨run, latest, begun⟩ := started earlier (by have := nextRun.reached; omega)
      refine ⟨run, nextRun.latestRun_old latest here, fun operation within => .inl ?_⟩
      exact (sameCalls_of_eq nextRun.calls).kept run operation (begun operation within)
  · rw [nextRun.resolved]
    exact fun done earlier inside => nextRun.allStarted (sound.resolved done earlier inside)

/-- An operation reads the bounds of the cycle that set its timer. -/
theorem startOperation {timer : OperationTimer} (member : timer ∈ process.runtime.operationTimers) :
    (process.startOperation timer).CycleSound options := by
  obtain ⟨held, single, stopped, counter, inside, last, calls, waiting, current, covered, resolved⟩ :=
    sound
  have kept : ∀ run operation, process.Started run operation →
      (process.startOperation timer).Started run operation := by
    intro run operation ⟨call, before, same⟩
    exact ⟨call, List.mem_append_left _ before, same⟩
  have all : ∀ cycle, process.AllStarted options cycle →
      (process.startOperation timer).AllStarted options cycle :=
    fun cycle all => all.mono (fun _ known => known) kept
  constructor
  · exact held.startOperation timer.handle
  · intro one first other second
    exact single one (List.mem_of_mem_filter first) other (List.mem_of_mem_filter second)
  · exact stopped
  · exact counter
  · exact inside
  · intro run operationsRun known lastCycle
    obtain ⟨final, before⟩ := last run operationsRun known lastCycle
    exact ⟨final, fun cycle below => all cycle (before cycle below)⟩
  · intro call member
    rcases List.mem_append.mp member with old | new
    · exact calls call old
    · obtain rfl := List.mem_singleton.mp new
      obtain ⟨cycle, _, known, holds⟩ := waiting timer ‹_›
      exact ⟨cycle, known, holds.starts, holds.ends⟩
  · intro other member
    obtain ⟨cycle, below, known, holds⟩ := waiting other (List.mem_of_mem_filter member)
    exact ⟨cycle, below, known, holds.starts, holds.ends⟩
  · intro cycle final full
    exact ⟨(current cycle final full).starts, (current cycle final full).ends⟩
  · intro cycle below
    obtain ⟨run, latest, begun⟩ := covered cycle below
    refine ⟨run, ⟨latest.known, latest.latest⟩, fun operation within => ?_⟩
    rcases begun operation within with started | ⟨other, waits, same, position⟩
    · exact .inl (kept run operation started)
    · by_cases fired : other = timer
      · subst fired
        exact .inl ⟨_, List.mem_append_right _ (List.mem_singleton_self _), same, position⟩
      · refine .inr ⟨other, List.mem_filter.mpr ⟨waits, ?_⟩, same, position⟩
        have apart : other.handle ≠ timer.handle := fun same => fired (single other waits timer member same)
        simpa using apart
  · exact fun done cycle inside => all cycle (resolved done cycle inside)

/-- A reload forgets the timers of the newest cycle at most, and rolls back over it. -/
theorem stopForReload (cycles : 0 < options.totalCycles) (backoff : 1 ≤ options.reloadCyclesBackoff)
    {multiplier : Option ℚ} (taken : process.stopForReload options multiplier = some next) :
    next.CycleSound options := by
  obtain ⟨destroyed, destroys, rfl⟩ := stopForReload_some taken
  have silent := sound.held.destroyScheduler destroys
  have bound := sound.counter
  have rolled : process.cycleCounter - min process.cycleCounter options.reloadCyclesBackoff <
      process.cycleCounter ∨ process.cycleCounter = 0 := by omega
  constructor
  · exact silent.held
  · intro timer member
    exact absurd member (by simp [backoffCycles, silent.operationTimers])
  · exact fun _ => silent.crons
  · exact (Nat.sub_le ..).trans bound
  · exact sound.inside
  · exact sound.last
  · exact sound.calls
  · intro timer member
    exact absurd member (by simp [backoffCycles, silent.operationTimers])
  · intro cycle final full
    simp only [backoffCycles] at full
    omega
  · intro cycle below
    simp only [backoffCycles] at below
    obtain ⟨run, latest, begun⟩ := sound.covered cycle (by omega)
    refine ⟨run, ⟨latest.known, latest.latest⟩, fun operation within => .inl ?_⟩
    refine (begun operation within).resolve_right fun ⟨timer, member, same, _⟩ => ?_
    obtain ⟨newest, counter, known, _⟩ := sound.waiting timer member
    rw [same, latest.known] at known
    cases known
    omega
  · exact sound.resolved

end CycleSound

/-- The runs of `runOperations` and their calls, as long as the delays keep their order. -/
theorem cycleSound_step (cycles : 0 < options.totalCycles)
    (backoff : 1 ≤ options.reloadCyclesBackoff) (sound : process.CycleSound options)
    {event : HistoricalEvent} (orderly : process.Orderly event)
    (taken : process.step options event = some next) : next.CycleSound options := by
  cases event with
  | passes time =>
    obtain ⟨_, rfl⟩ := enabled taken
    exact sound.keep sound.held sound.stopped rfl (sameCalls_of_eq rfl) rfl rfl rfl rfl rfl
      sound.resolved
  | ticks cron =>
    obtain ⟨due, rfl⟩ := enabled taken
    have held := sound.held.initializeClusterDelay (sound.held.created_of_live (.inl due.1)) orderly
    exact sound.keep held sound.stopped rfl (sameCalls_of_eq rfl) rfl rfl rfl rfl rfl
      sound.resolved
  | clusterFires timer =>
    obtain ⟨due, rfl⟩ := enabled taken
    have created := sound.held.created_of_live (.inr (.inl due.1))
    have held := sound.held.initializeBatch created orderly timer
    exact sound.keep held sound.stopped rfl (sameCalls_of_eq rfl) rfl rfl rfl rfl rfl
      sound.resolved
  | batchFires timer =>
    obtain ⟨due, rfl⟩ := enabled taken
    have created := sound.held.created_of_live (.inr (.inr due.1))
    exact sound.runOperations cycles created orderly timer
  | operationFires timer =>
    obtain ⟨due, rfl⟩ := enabled taken
    exact sound.startOperation due.1
  | callEnds index outcome =>
    simp only [step] at taken
    split at taken
    · next call found =>
      split at taken
      · cases taken
        have calls := sameCalls_endCall found outcome
        cases outcome with
        | finished =>
          exact sound.keep sound.held sound.stopped rfl calls rfl rfl rfl rfl rfl sound.resolved
        | rateLimited =>
          exact sound.keep sound.held sound.stopped rfl calls rfl rfl rfl rfl rfl sound.resolved
      · cases taken
    · cases taken
  | resolves run =>
    simp only [step] at taken
    split at taken
    · next operationsRun found =>
      split at taken
      · next ended =>
        cases taken
        refine sound.keep sound.held sound.stopped rfl (sameCalls_of_eq rfl) rfl rfl rfl rfl rfl ?_
        intro _ cycle inside
        obtain ⟨last, before⟩ := sound.last run operationsRun found ended.1
        by_cases earlier : cycle < operationsRun.cycle
        · exact before cycle earlier
        · refine ⟨run, ?_, fun operation within => ?_⟩
          · obtain rfl : cycle = operationsRun.cycle := by omega
            rw [cycleOf, found]
            rfl
          · obtain ⟨call, member, same, position, _⟩ := ended.2 operation within
            exact ⟨call, member, same, position⟩
      · cases taken
    · cases taken
  | backoffProcessed multiplier =>
    simp only [step] at taken
    split at taken
    · have received : { process with
          broadcasts := process.broadcasts.erase multiplier }.CycleSound options :=
        sound.keep sound.held sound.stopped rfl (sameCalls_of_eq rfl) rfl rfl rfl rfl rfl
          sound.resolved
      split at taken
      · exact received.stopForReload cycles backoff taken
      · cases taken
        exact received
    · cases taken
  | reloadStops multiplier => exact sound.stopForReload cycles backoff taken
  | starts dynamicConfig firstTick =>
    simp only [step] at taken
    split at taken
    · next ready =>
      split at taken
      · cases taken
        have held := sound.held.initializeScheduler (sound.stopped ready.1)
        exact sound.keep held (fun more => by cases more) rfl (sameCalls_of_eq rfl) rfl rfl rfl rfl
          rfl sound.resolved
      · cases taken
    · cases taken

end HistoricalProcess

end PriceFeed.Schedulers
