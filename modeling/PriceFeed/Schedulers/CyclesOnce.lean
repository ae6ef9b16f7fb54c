import PriceFeed.Schedulers.HistoricalCoverage
import PriceFeed.Schedulers.Timeline

/-! Runs of a historical scheduler without a reload: each cycle is run once if the last one
stops the cron job before another tick. -/

namespace PriceFeed.Schedulers

open PriceFeed.Library

/-- The bounds of a cycle, as an operation is handed them. -/
def HistoricalOptions.cycleBounds (options : HistoricalOptions) (cycle : ℕ) : ℤ × ℤ :=
  (options.cycleStart cycle, options.cycleEnd cycle)

namespace HistoricalProcess

/-- No reload is requested, and none is called for by a backoff. -/
def Unreloaded (process : HistoricalProcess) : HistoricalEvent → Prop
  | .reloadStops _ => False
  | .backoffProcessed rateLimitMultiplier =>
    ¬ (rateLimitMultiplier ≠ 0 ∧ process.internalMultiplier < rateLimitMultiplier)
  | _ => True

instance (process : HistoricalProcess) : DecidablePred process.Unreloaded
  | .reloadStops _ => isFalse id
  | .backoffProcessed rateLimitMultiplier =>
    inferInstanceAs (Decidable (¬ (rateLimitMultiplier ≠ 0 ∧
      process.internalMultiplier < rateLimitMultiplier)))
  | .passes _ | .ticks _ | .clusterFires _ | .batchFires _ | .operationFires _ | .callEnds _ _
  | .resolves _ | .starts _ _ => isTrue trivial

/-- A start after which the delays up to `runOperations` are over before the next tick. -/
def PromptStart (options : HistoricalOptions) (process : HistoricalProcess) : HistoricalEvent → Prop
  | .starts dynamicConfig _ => ∀ scheduler,
    process.scheduler.setDynamicConfig { dynamicConfig with operations := some options.operations } =
      .ok scheduler →
      scheduler.getOperationsClusterDelay.getD 0 + scheduler.getOperationsBatchDelay.getD 0 <
        scheduler.preciseNormalizedInterval
  | _ => True

/-- The bounds that an operation was handed, start after start. -/
def boundsOf (process : HistoricalProcess) (operation : ℕ) : List (ℤ × ℤ) :=
  (process.calls.filter fun call => call.operation = operation).map fun call =>
    (call.intervalStart, call.intervalEnd)

/-- The operation was started for each of the cycles, in their order. -/
def Complete (options : HistoricalOptions) (process : HistoricalProcess) (operation : ℕ) : Prop :=
  process.boundsOf operation = (List.range options.totalCycles).map options.cycleBounds

/-- Each operation is started once for each cycle in its turn, for all of them when the schedule
is resolved, and not any more then. -/
structure RunsOnce (options : HistoricalOptions) (process : HistoricalProcess) : Prop where
  inOrder : ∀ operation < options.operations, ∃ count ≤ options.totalCycles,
    process.boundsOf operation = (List.range count).map options.cycleBounds
  complete : process.resolved = true → ∀ operation < options.operations,
    process.Complete options operation
  final : process.resolved = true → ∀ timer, process.step options (.operationFires timer) = none

def turns (process : HistoricalProcess) : List (ℕ × ℕ) :=
  process.calls.map fun call => (call.operation, call.run)

/-- After its start a scheduler is on time with its cycles: those that are run follow from the
moment, and the last one stops the cron job before a further tick. -/
structure Cycling (options : HistoricalOptions) (firstTick : ℚ) (process : HistoricalProcess) : Prop where
  running : process.reloading = false
  prompt : process.timers.clusterDelay + process.timers.batchDelay <
    process.scheduler.preciseNormalizedInterval
  timeline : process.timers.Timeline firstTick process.runs.length
  takes : TakesTurns options.operations process.timers.Waits process.turns process.runs.length
  counter : process.cycleCounter = process.runs.length
  within : process.runs.length ≤ options.totalCycles
  runs : process.runs = (List.range process.runs.length).map fun cycle =>
    ⟨cycle, options.totalCycles ≤ cycle + 1⟩
  bounds : ∀ cycle, process.runs.length = cycle + 1 → process.HoldsBounds options cycle
  runOf : ∀ timer ∈ process.runtime.operationTimers,
    process.runs.length = process.runOf timer.handle + 1
  calls : ∀ call ∈ process.calls, (call.intervalStart, call.intervalEnd) = options.cycleBounds call.run
  going : process.runs.length < options.totalCycles → process.runtime.crons ≠ []
  ended : process.runs.length = options.totalCycles → process.runtime.crons = [] ∧
    process.runtime.clusterTimers = [] ∧ process.runtime.batchTimers = []
  resolved : process.resolved = true → ∀ operation < options.operations,
    turnsOf process.turns operation = List.range options.totalCycles

variable {options : HistoricalOptions} {process next : HistoricalProcess} {firstTick : ℚ}

namespace Cycling

variable (cycling : process.Cycling options firstTick)

include cycling

theorem boundsOf_eq (operation : ℕ) :
    process.boundsOf operation = (turnsOf process.turns operation).map options.cycleBounds := by
  rw [boundsOf, turnsOf, turns, List.filter_map, List.map_map, List.map_map]
  exact List.map_congr_left fun call member => cycling.calls call (List.mem_of_mem_filter member)

theorem not_waits (resolved : process.resolved = true) {operation : ℕ}
    (inside : operation < options.operations) : ¬ process.timers.Waits operation := by
  intro waits
  rcases cycling.takes operation inside with ⟨none, _⟩ | ⟨_, earlier, rounds, taken⟩
  · exact none waits
  · have all := cycling.resolved resolved operation inside
    have length := congrArg List.length (taken.symm.trans all)
    have within := cycling.within
    simp only [List.length_range] at length
    omega

end Cycling

private theorem runs_of_timed {event : HistoricalEvent} {timerEvent : SchedulerEvent}
    (same : timed event = some timerEvent) : SchedulerProcess.Runs timerEvent := by
  cases event with
  | passes time => cases same; trivial
  | ticks cron => cases same; trivial
  | clusterFires timer => cases same; trivial
  | batchFires timer => cases same; trivial
  | operationFires timer => cases same; trivial
  | _ => cases same

namespace Cycling

variable (cycling : process.Cycling options firstTick) (held : process.runtime.Held)
variable (onTime : process.OnTime options)

include cycling held onTime

theorem timers_step {event : HistoricalEvent} {timerEvent : SchedulerEvent}
    (same : timed event = some timerEvent) (taken : process.step options event = some next) :
    next.timers.Timeline firstTick (SchedulerProcess.runsAfter process.runs.length timerEvent) ∧
      TakesTurns options.operations next.timers.Waits
        (SchedulerProcess.turnsAfter process.turns process.runs.length timerEvent)
        (SchedulerProcess.runsAfter process.runs.length timerEvent) := by
  have going := runs_of_timed same
  have stepped := HistoricalProcess.timers_step onTime same taken
  have regular : process.timers.Regular := ⟨held, onTime.timers⟩
  have operations : process.timers.scheduler.operations = options.operations :=
    onTime.operations cycling.running
  have takes : TakesTurns process.timers.scheduler.operations process.timers.Waits process.turns
      process.runs.length := operations ▸ cycling.takes
  have turned := SchedulerProcess.takesTurns_step regular cycling.timeline takes going stepped
  rw [SchedulerProcess.scheduler_step going stepped, operations] at turned
  exact ⟨SchedulerProcess.timeline_step regular cycling.timeline going stepped, turned⟩

omit held onTime in
/-- The last cycle comes before the tick that would follow it. -/
theorem clusterTimers_nil {timer : ℕ} (member : timer ∈ process.runtime.batchTimers)
    (due : process.due timer = process.now) : process.runtime.clusterTimers = [] := by
  have batch := cycling.timeline.batchTimers_eq member
  by_contra later
  have positive := List.length_pos_of_ne_nil later
  have ticked : process.runs.length + 1 < process.timers.ticked process.runs.length := by
    have one : process.timers.runtime.batchTimers.length = 1 := congrArg List.length batch
    have some : 0 < process.timers.runtime.clusterTimers.length := positive
    rw [SchedulerProcess.ticked]
    omega
  have past : process.timers.tickTime firstTick (process.runs.length + 1) ≤ process.now :=
    cycling.timeline.past _ ticked
  have moment : process.due timer = process.timers.tickTime firstTick process.runs.length +
      process.timers.clusterDelay + process.timers.batchDelay := cycling.timeline.batch timer member
  have prompt : process.timers.clusterDelay + process.timers.batchDelay <
      process.timers.scheduler.preciseNormalizedInterval := cycling.prompt
  rw [due] at moment
  simp only [SchedulerProcess.tickTime, Nat.cast_add, Nat.cast_one] at past moment
  linarith

theorem batchFires {timer : ℕ} (taken : process.step options (.batchFires timer) = some next) :
    next.Cycling options firstTick := by
  obtain ⟨timeline, takes⟩ := cycling.timers_step held onTime rfl taken
  obtain ⟨⟨member, due⟩, rfl⟩ := enabled taken
  have clusterTimers := cycling.clusterTimers_nil member due
  have empty := onTime.timers.operationTimers_nil member due
  have below : process.runs.length < options.totalCycles := by
    refine lt_of_le_of_ne cycling.within fun all => ?_
    rw [(cycling.ended all).2.2] at member
    cases member
  have inside : process.cycleCounter < options.totalCycles := cycling.counter ▸ below
  have updated := updateIntervalBounds_of_lt inside
  have shape : process.runOperations options timer = { process with
      intervalStart := options.cycleStart process.cycleCounter
      intervalEnd := options.cycleEnd process.cycleCounter
      cycleCounter := process.cycleCounter + 1 }.scheduleOperations options timer
        (decide (options.totalCycles ≤ process.cycleCounter + 1)) := by
    rw [runOperations, updated]
  have runs : (process.runOperations options timer).runs =
      process.runs ++ [⟨process.runs.length, options.totalCycles ≤ process.runs.length + 1⟩] := by
    rw [shape, ← cycling.counter]
    rfl
  have length : (process.runOperations options timer).runs.length = process.runs.length + 1 := by
    rw [runs, List.length_append, List.length_singleton]
  have timers : (process.runOperations options timer).runtime.operationTimers =
      process.runtime.newOperationTimers options.operations := by
    rw [shape]
    exact scheduleOperations_timers timer _ empty
  constructor
  · rw [shape]
    exact cycling.running
  · rw [shape]
    exact cycling.prompt
  · rw [length]
    exact timeline
  · rw [length]
    rw [shape] at takes ⊢
    exact takes
  · rw [length, shape, ← cycling.counter]
    rfl
  · rw [length]
    exact below
  · rw [length, runs, List.range_succ, List.map_append, ← cycling.runs]
    rfl
  · intro cycle last
    obtain rfl : process.runs.length = cycle := by omega
    rw [shape, ← cycling.counter]
    exact ⟨rfl, rfl⟩
  · intro other present
    rw [timers] at present
    obtain ⟨operation, set, rfl⟩ := List.mem_map.mp present
    rw [length, shape]
    exact congrArg (· + 1) (scheduleOperations_runOf timer _ (List.mem_range.mp set)).symm
  · rw [shape]
    exact cycling.calls
  · intro more
    have open_ : decide (options.totalCycles ≤ process.cycleCounter + 1) = false := by
      rw [length] at more
      rw [cycling.counter]
      exact decide_eq_false (Nat.not_le.mpr more)
    rw [shape, open_]
    exact cycling.going below
  · intro all
    have last : decide (options.totalCycles ≤ process.cycleCounter + 1) = true := by
      rw [length] at all
      rw [cycling.counter]
      exact decide_eq_true all.ge
    rw [shape, last]
    have fired : ∀ other ∈ process.runtime.batchTimers, some timer = some other := by
      intro other present
      have own : process.runtime.batchTimers = [timer] := cycling.timeline.batchTimers_eq member
      rw [own, List.mem_singleton] at present
      rw [present]
    exact ⟨SchedulerRuntime.clearTimeout_held held.cron, clusterTimers,
      SchedulerRuntime.clearTimeout_held fired⟩
  · rw [shape]
    exact cycling.resolved

theorem operationFires {timer : OperationTimer}
    (taken : process.step options (.operationFires timer) = some next) :
    next.Cycling options firstTick := by
  obtain ⟨timeline, takes⟩ := cycling.timers_step held onTime rfl taken
  obtain ⟨⟨member, due⟩, rfl⟩ := enabled taken
  have last := cycling.runOf timer member
  have bounds := cycling.bounds (process.runOf timer.handle) last
  have turns : (process.startOperation timer).turns =
      process.turns ++ [(timer.operation, process.runOf timer.handle)] := by
    simp [HistoricalProcess.turns, startOperation]
  constructor
  · exact cycling.running
  · exact cycling.prompt
  · exact timeline
  · rw [SchedulerProcess.turnsAfter, last, Nat.add_sub_cancel, ← turns] at takes
    exact last ▸ takes
  · exact cycling.counter
  · exact cycling.within
  · exact cycling.runs
  · exact fun cycle same => ⟨(cycling.bounds cycle same).starts, (cycling.bounds cycle same).ends⟩
  · exact fun other present => cycling.runOf other (List.mem_of_mem_filter present)
  · intro call present
    rcases List.mem_append.mp present with old | new
    · exact cycling.calls call old
    · obtain rfl := List.mem_singleton.mp new
      exact Prod.ext bounds.starts bounds.ends
  · exact cycling.going
  · exact cycling.ended
  · intro resolved operation inside
    have other : timer.operation ≠ operation := fun same =>
      cycling.not_waits resolved inside ⟨timer, member, same⟩
    rw [turns, turnsOf_concat, if_neg other]
    exact cycling.resolved resolved operation inside

theorem passes {time : ℚ} (taken : process.step options (.passes time) = some next) :
    next.Cycling options firstTick := by
  obtain ⟨timeline, takes⟩ := cycling.timers_step held onTime rfl taken
  obtain ⟨_, rfl⟩ := enabled taken
  exact { cycling with
    timeline := timeline
    takes := takes
    bounds := fun cycle last => ⟨(cycling.bounds cycle last).starts, (cycling.bounds cycle last).ends⟩ }

theorem ticks {cron : ℕ} (taken : process.step options (.ticks cron) = some next) :
    next.Cycling options firstTick := by
  obtain ⟨timeline, takes⟩ := cycling.timers_step held onTime rfl taken
  obtain ⟨due, rfl⟩ := enabled taken
  have more : process.runs.length ≠ options.totalCycles := by
    intro all
    have member := due.1
    rw [(cycling.ended all).1] at member
    cases member
  exact { cycling with
    timeline := timeline
    takes := takes
    bounds := fun cycle last => ⟨(cycling.bounds cycle last).starts, (cycling.bounds cycle last).ends⟩
    ended := fun all => absurd all more }

theorem clusterFires {timer : ℕ} (taken : process.step options (.clusterFires timer) = some next) :
    next.Cycling options firstTick := by
  obtain ⟨timeline, takes⟩ := cycling.timers_step held onTime rfl taken
  obtain ⟨due, rfl⟩ := enabled taken
  have more : process.runs.length ≠ options.totalCycles := by
    intro all
    have member := due.1
    rw [(cycling.ended all).2.1] at member
    cases member
  exact { cycling with
    timeline := timeline
    takes := takes
    bounds := fun cycle last => ⟨(cycling.bounds cycle last).starts, (cycling.bounds cycle last).ends⟩
    ended := fun all => absurd all more }

omit held onTime in
theorem endCall {index : ℕ} {call : OperationCall} (found : process.calls[index]? = some call)
    (outcome : CallOutcome) : (process.endCall index call outcome).Cycling options firstTick := by
  have turns : (process.endCall index call outcome).turns = process.turns :=
    map_endCall_calls _ (fun _ _ => rfl) found outcome
  have bounds : ∀ other ∈ (process.endCall index call outcome).calls,
      (other.intervalStart, other.intervalEnd) = options.cycleBounds other.run := by
    intro other member
    obtain ⟨old, before, run, first, last⟩ := (sameCalls_endCall found outcome).known other member
    rw [← first, ← last, ← run]
    exact cycling.calls old before
  cases outcome with
  | finished =>
    exact { cycling with
      takes := turns ▸ cycling.takes
      bounds := fun cycle last => ⟨(cycling.bounds cycle last).starts, (cycling.bounds cycle last).ends⟩
      calls := bounds
      resolved := fun resolved => turns ▸ cycling.resolved resolved }
  | rateLimited =>
    exact { cycling with
      takes := turns ▸ cycling.takes
      bounds := fun cycle last => ⟨(cycling.bounds cycle last).starts, (cycling.bounds cycle last).ends⟩
      calls := bounds
      resolved := fun resolved => turns ▸ cycling.resolved resolved }

omit held onTime in
theorem resolves {run : ℕ} (taken : process.step options (.resolves run) = some next) :
    next.Cycling options firstTick := by
  simp only [step] at taken
  split at taken
  · next operationsRun found =>
    split at taken
    · next ended =>
      cases taken
      refine { cycling with
        bounds := fun cycle last =>
          ⟨(cycling.bounds cycle last).starts, (cycling.bounds cycle last).ends⟩
        resolved := fun _ operation inside => ?_ }
      obtain ⟨call, member, ofRun, ofOperation, _⟩ := ended.2 operation inside
      obtain ⟨count, within, taken⟩ := cycling.takes.exists_range inside
      have turn : run ∈ turnsOf process.turns operation :=
        List.mem_map.mpr ⟨(call.operation, call.run), List.mem_filter.mpr
          ⟨List.mem_map.mpr ⟨call, member, rfl⟩, decide_eq_true ofOperation⟩, ofRun⟩
      rw [taken, List.mem_range] at turn
      have last := ended.1
      rw [cycling.runs] at found
      obtain ⟨inside, rfl⟩ := List.getElem?_eq_some_iff.mp found
      simp only [List.getElem_map, List.getElem_range, decide_eq_true_eq] at last
      have full := cycling.within
      obtain rfl : count = options.totalCycles := by omega
      exact taken
    · cases taken
  · cases taken

/-- Every step of a scheduler that does not reload leaves it on time with its cycles. -/
theorem step {event : HistoricalEvent} (unreloaded : process.Unreloaded event)
    (taken : process.step options event = some next) : next.Cycling options firstTick := by
  cases event with
  | passes time => exact cycling.passes held onTime taken
  | ticks cron => exact cycling.ticks held onTime taken
  | clusterFires timer => exact cycling.clusterFires held onTime taken
  | batchFires timer => exact cycling.batchFires held onTime taken
  | operationFires timer => exact cycling.operationFires held onTime taken
  | callEnds index outcome =>
    simp only [HistoricalProcess.step] at taken
    split at taken
    · next call found =>
      split at taken
      · cases taken
        exact cycling.endCall found outcome
      · cases taken
    · cases taken
  | resolves run => exact cycling.resolves taken
  | backoffProcessed multiplier =>
    simp only [HistoricalProcess.step, if_neg unreloaded] at taken
    obtain ⟨_, rfl⟩ := enabled taken
    exact { cycling with
      bounds := fun cycle last => ⟨(cycling.bounds cycle last).starts, (cycling.bounds cycle last).ends⟩ }
  | reloadStops multiplier => exact unreloaded.elim
  | starts dynamicConfig firstTick =>
    simp [HistoricalProcess.step, cycling.running] at taken

end Cycling

/-- A scheduler that has not been started yet. -/
structure Untouched (process : HistoricalProcess) : Prop where
  waiting : process.reloading = true
  runtime : process.runtime.Silent
  runs : process.runs = []
  calls : process.calls = []
  cycleCounter : process.cycleCounter = 0
  resolved : process.resolved = false
  broadcasts : process.broadcasts = []

theorem Untouched.start (untouched : process.Untouched) (cycles : 0 < options.totalCycles)
    {dynamicConfig : DynamicConfig} (prompt : process.PromptStart options (.starts dynamicConfig firstTick))
    (taken : process.step options (.starts dynamicConfig firstTick) = some next) :
    next.Cycling options firstTick := by
  simp only [HistoricalProcess.step] at taken
  split at taken
  · split at taken
    · next scheduler success =>
      cases taken
      have none : (process.start scheduler firstTick).runs.length = 0 :=
        List.length_eq_zero_iff.mpr untouched.runs
      have turns : (process.start scheduler firstTick).turns = [] :=
        congrArg (List.map _) untouched.calls
      have crons : (process.start scheduler firstTick).runtime.crons = [process.runtime.nextHandle] := by
        simp [start, SchedulerRuntime.initializeScheduler, untouched.runtime.crons]
      have operationTimers : (process.start scheduler firstTick).runtime.operationTimers = [] :=
        untouched.runtime.operationTimers
      constructor
      · rfl
      · exact prompt scheduler success
      · have timeline : (process.timers.start scheduler firstTick).Timeline firstTick 0 :=
          SchedulerProcess.timeline_start untouched.runtime scheduler
        rw [none]
        exact timeline
      · rw [none, turns]
        refine takesTurns_nil fun operation waits => ?_
        obtain ⟨timer, member, _⟩ := waits
        exact absurd member (by simp [timers, operationTimers])
      · rw [none]
        exact untouched.cycleCounter
      · rw [none]
        exact Nat.zero_le _
      · rw [none]
        exact untouched.runs
      · intro cycle more
        omega
      · intro timer member
        rw [operationTimers] at member
        cases member
      · intro call member
        have some : call ∈ process.calls := member
        rw [untouched.calls] at some
        cases some
      · intro _
        rw [crons]
        exact List.cons_ne_nil _ _
      · intro all
        omega
      · intro resolved
        have done : process.resolved = true := resolved
        rw [untouched.resolved] at done
        cases done
    · cases taken
  · cases taken

theorem Untouched.step (untouched : process.Untouched) {event : HistoricalEvent}
    (unreloaded : process.Unreloaded event)
    (other : ∀ dynamicConfig firstTick, event ≠ .starts dynamicConfig firstTick)
    (taken : process.step options event = some next) : next.Untouched := by
  have idle := untouched.runtime.not_live
  cases event with
  | passes time =>
    obtain ⟨_, rfl⟩ := enabled taken
    exact ⟨untouched.waiting, untouched.runtime, untouched.runs, untouched.calls,
      untouched.cycleCounter, untouched.resolved, untouched.broadcasts⟩
  | ticks cron =>
    obtain ⟨due, _⟩ := enabled taken
    exact absurd (.inl due.1) (idle cron)
  | clusterFires timer =>
    obtain ⟨due, _⟩ := enabled taken
    exact absurd (.inr (.inl due.1)) (idle timer)
  | batchFires timer =>
    obtain ⟨due, _⟩ := enabled taken
    exact absurd (.inr (.inr (.inl due.1))) (idle timer)
  | operationFires timer =>
    obtain ⟨due, _⟩ := enabled taken
    exact absurd (.inr (.inr (.inr ⟨timer, due.1, rfl⟩))) (idle timer.handle)
  | callEnds index outcome => simp [HistoricalProcess.step, untouched.calls] at taken
  | resolves run => simp [HistoricalProcess.step, untouched.runs] at taken
  | backoffProcessed multiplier => simp [HistoricalProcess.step, untouched.broadcasts] at taken
  | reloadStops multiplier => exact unreloaded.elim
  | starts dynamicConfig firstTick => exact absurd rfl (other dynamicConfig firstTick)

/-- What holds of a scheduler that is started promptly and not reloaded. -/
structure Steady (options : HistoricalOptions) (process : HistoricalProcess) : Prop where
  held : process.runtime.Held
  onTime : process.OnTime options
  phase : process.Untouched ∨ ∃ firstTick, process.Cycling options firstTick

/-- What each step of such a run meets. -/
structure Smooth (options : HistoricalOptions) (process : HistoricalProcess) (event : HistoricalEvent) :
    Prop where
  valid : process.ValidStart options event
  unreloaded : process.Unreloaded event
  prompt : process.PromptStart options event

private theorem steady_step (cycles : 0 < options.totalCycles) (steady : process.Steady options)
    {event : HistoricalEvent} (smooth : process.Smooth options event)
    (taken : process.step options event = some next) : next.Steady options := by
  obtain ⟨held, onTime⟩ := regular_timers_step steady.held steady.onTime smooth.valid taken
  refine ⟨held, onTime, ?_⟩
  rcases steady.phase with untouched | ⟨firstTick, cycling⟩
  · by_cases starts : ∃ dynamicConfig firstTick, event = .starts dynamicConfig firstTick
    · obtain ⟨dynamicConfig, firstTick, rfl⟩ := starts
      exact .inr ⟨firstTick, untouched.start cycles smooth.prompt taken⟩
    · refine .inl (untouched.step smooth.unreloaded (fun dynamicConfig firstTick same => ?_) taken)
      exact starts ⟨dynamicConfig, firstTick, same⟩
  · exact .inr ⟨firstTick, cycling.step steady.held steady.onTime smooth.unreloaded taken⟩

theorem steady_initial (scheduler : Scheduler) : (initial scheduler).Steady options where
  held := SchedulerRuntime.silent_fresh.held
  onTime := onTime_initial scheduler
  phase := .inl ⟨rfl, SchedulerRuntime.silent_fresh, rfl, rfl, rfl, rfl, rfl⟩

theorem Cycling.complete (cycling : process.Cycling options firstTick) (onTime : process.OnTime options)
    (late : firstTick + (options.totalCycles + 1) * process.scheduler.preciseNormalizedInterval ≤
      process.now) {operation : ℕ} (inside : operation < options.operations) :
    process.Complete options operation := by
  have delays := onTime.delays cycling.running
  have prompt := cycling.prompt
  have short : process.timers.clusterDelay < process.scheduler.preciseNormalizedInterval :=
    delays.cluster.2
  have positive := delays.cluster.1.trans_lt delays.cluster.2
  have onward : ∀ count : ℕ, count ≤ options.totalCycles →
      process.timers.tickTime firstTick count + process.scheduler.preciseNormalizedInterval ≤
        process.now := by
    intro count below
    have bound : (count : ℚ) * process.scheduler.preciseNormalizedInterval ≤
        options.totalCycles * process.scheduler.preciseNormalizedInterval :=
      mul_le_mul_of_nonneg_right (Nat.cast_le.mpr below) positive.le
    simp only [SchedulerProcess.tickTime, timers]
    linarith
  obtain ⟨cronTimely, clusterTimely, batchTimely, operationTimely⟩ := onTime.timely
  have all : process.runs.length = options.totalCycles := by
    by_contra fewer
    have below := lt_of_le_of_ne cycling.within fewer
    have moment := onward process.runs.length below.le
    have batch : process.timers.runtime.batchTimers = [] := by
      rw [List.eq_nil_iff_forall_not_mem]
      intro timer member
      have due : process.due timer = _ := cycling.timeline.batch timer member
      have early := batchTimely timer member
      linarith
    have cluster : process.timers.runtime.clusterTimers = [] := by
      rw [List.eq_nil_iff_forall_not_mem]
      intro timer member
      have due : process.due timer = _ := cycling.timeline.cluster timer member
      have early := clusterTimely timer member
      rw [batch] at due
      simp only [List.length_nil, Nat.add_zero] at due
      linarith
    obtain ⟨cron, member⟩ := List.exists_mem_of_ne_nil _ (cycling.going below)
    have tick : process.nextTick cron = _ := cycling.timeline.crons cron member
    have early := cronTimely cron member
    rw [SchedulerProcess.ticked, batch, cluster] at tick
    simp only [List.length_nil, Nat.add_zero] at tick
    linarith
  have started : ¬ process.timers.Waits operation := by
    rintro ⟨timer, member, rfl⟩
    obtain ⟨earlier, rounds, due⟩ := cycling.timeline.operations timer member
    have fires : process.due timer.handle = _ := due
    have early := operationTimely timer member
    have brief : process.timers.scheduler.getOperationDelay timer.operation <
        process.scheduler.preciseNormalizedInterval :=
      (delays.operation timer.operation (onTime.timers.positions timer member)).2
    have moment := onward (earlier + 1) (by omega)
    simp only [SchedulerProcess.tickTime, Nat.cast_add, Nat.cast_one, timers] at moment fires brief prompt
    linarith
  have taken := (cycling.takes operation inside).resolve_right fun waits => started waits.1
  rw [Complete, cycling.boundsOf_eq, taken.2, all]

private theorem RunsOnce.of_steady (steady : process.Steady options) : process.RunsOnce options := by
  rcases steady.phase with untouched | ⟨firstTick, cycling⟩
  · have unresolved : process.resolved = true → False := by simp [untouched.resolved]
    refine ⟨fun operation _ => ⟨0, Nat.zero_le _, ?_⟩, fun done => (unresolved done).elim,
      fun done => (unresolved done).elim⟩
    simp [boundsOf, untouched.calls]
  · refine ⟨fun operation inside => ?_, fun resolved operation inside => ?_, fun resolved timer => ?_⟩
    · obtain ⟨count, below, taken⟩ := cycling.takes.exists_range inside
      exact ⟨count, below.trans cycling.within, by rw [cycling.boundsOf_eq, taken]⟩
    · rw [Complete, cycling.boundsOf_eq, cycling.resolved resolved operation inside]
    · refine if_neg fun due => ?_
      have position := steady.onTime.positions timer due.1
      exact cycling.not_waits resolved position ⟨timer, due.1, rfl⟩

/-- A scheduler whose delays end before the next tick runs each cycle once, and after the periods
of all cycles and one more each operation has been started for all of them. -/
theorem cycles_runOnce {scheduler : Scheduler} {events : List HistoricalEvent}
    (minutes : 1 ≤ options.totalMinutes) (limit : 1 ≤ options.operationLimit)
    (run : Run (step options) (initial scheduler) events process)
    (valid : Throughout (step options) (ValidStart options) (initial scheduler) events)
    (unreloaded : Throughout (step options) Unreloaded (initial scheduler) events)
    (prompt : Throughout (step options) (PromptStart options) (initial scheduler) events) :
    process.RunsOnce options ∧
      ∀ dynamicConfig firstTick, .starts dynamicConfig firstTick ∈ events →
        firstTick + (options.totalCycles + 1) * process.scheduler.preciseNormalizedInterval ≤ process.now →
          ∀ operation < options.operations, process.Complete options operation := by
  have cycles := HistoricalOptions.totalCycles_pos limit minutes
  have smooth : Throughout (step options) (Smooth options) (initial scheduler) events :=
    ((valid.and unreloaded).and prompt).mono fun _ _ _ ⟨⟨valid, unreloaded⟩, prompt⟩ =>
      ⟨valid, unreloaded, prompt⟩
  have preserved : ∀ {state : HistoricalProcess} {event : HistoricalEvent} {next : HistoricalProcess},
      state.Steady options → state.Smooth options event →
        step options state event = some next → next.Steady options :=
    fun steady smooth taken => steady_step cycles steady smooth taken
  have steady := run.invariant_throughout preserved smooth (steady_initial scheduler)
  refine ⟨.of_steady steady, fun dynamicConfig firstTick member late operation inside => ?_⟩
  obtain ⟨before, after, rfl⟩ := List.append_of_mem member
  obtain ⟨middle, earlier, later⟩ := run_append_iff.mp run
  obtain ⟨smoothly, onward⟩ := earlier.throughout_append_iff.mp smooth
  have ready := earlier.invariant_throughout preserved smoothly (steady_initial scheduler)
  cases later with
  | @cons _ _ started _ _ taken rest =>
    have cycling : started.Cycling options firstTick := by
      rcases ready.phase with untouched | ⟨other, cycling⟩
      · exact untouched.start cycles onward.1.prompt taken
      · simp [HistoricalProcess.step, cycling.running] at taken
    have stays : ∀ {state : HistoricalProcess} {event : HistoricalEvent} {next : HistoricalProcess},
        state.Steady options ∧ state.Cycling options firstTick → state.Smooth options event →
          step options state event = some next →
            next.Steady options ∧ next.Cycling options firstTick :=
      fun kept smooth taken => ⟨preserved kept.1 smooth taken,
        kept.2.step kept.1.held kept.1.onTime smooth.unreloaded taken⟩
    have kept := rest.invariant_throughout stays (onward.2 _ taken)
      ⟨preserved ready onward.1 taken, cycling⟩
    exact kept.2.complete steady.onTime late inside

private theorem twoCycles_unreloaded :
    Throughout (step threeMinutes) Unreloaded (initial soleScheduler) twoCycles := by
  decide +kernel

private theorem twoCycles_prompt :
    Throughout (step threeMinutes) (PromptStart threeMinutes) (initial soleScheduler) twoCycles := by
  refine ⟨fun scheduler success => ?_, fun next _ => ?_⟩
  · have prompt : ∀ configured ∈ (soleScheduler.setDynamicConfig { operations := some 1 }).toOption,
        configured.getOperationsClusterDelay.getD 0 + configured.getOperationsBatchDelay.getD 0 <
          configured.preciseNormalizedInterval := by
      decide +kernel
    exact prompt scheduler (congrArg Except.toOption success)
  · refine throughout_of_forall fun state event member => ?_
    simp only [List.mem_cons, List.not_mem_nil, or_false] at member
    rcases member with rfl | rfl | rfl | rfl | rfl | rfl | rfl | rfl | rfl | rfl | rfl | rfl | rfl
    all_goals trivial

theorem cycles_runOnce_twoCycles : afterTwoCycles.RunsOnce threeMinutes ∧
    ∀ dynamicConfig firstTick, .starts dynamicConfig firstTick ∈ twoCycles →
      firstTick + (threeMinutes.totalCycles + 1) * afterTwoCycles.scheduler.preciseNormalizedInterval ≤
          afterTwoCycles.now →
        ∀ operation < threeMinutes.operations, afterTwoCycles.Complete threeMinutes operation :=
  cycles_runOnce (by decide +kernel) (by decide)
    (run_iff_execute.mpr (Option.some_get twoCycles_runs).symm) twoCycles_valid twoCycles_unreloaded
    twoCycles_prompt

/-- The one minute from the start, in a single cycle. -/
def oneMinute : HistoricalOptions :=
  { scheduleStartDate := 0
    scheduleEndDate := 60000
    operations := 1 }

/-- The last market of a queue of five, which waits for 62.5 of the 60 seconds of a period. -/
def lastInQueue : Scheduler :=
  { baseRateLimit := 6200
    rateLimitMargin := 0
    queuePosition := some 4
    queueSize := 5
    clusterMembers := some [⟨31000, .self⟩] }

/-- The tick after that of the last cycle comes before the cycle, and is run as well. -/
def tickTooMany : List HistoricalEvent :=
  [.starts {} 60000, .passes 60000, .ticks 0, .passes 74500, .clusterFires 1, .passes 120000, .ticks 0,
    .passes 122500, .batchFires 2, .operationFires ⟨4, 0⟩, .callEnds 0 .finished, .resolves 0,
    .passes 134500, .clusterFires 3, .passes 182500, .batchFires 5, .operationFires ⟨6, 0⟩]

theorem tickTooMany_runs :
    (execute (step oneMinute) (initial lastInQueue) tickTooMany).isSome := by decide +kernel

def afterTickTooMany : HistoricalProcess :=
  (execute (step oneMinute) (initial lastInQueue) tickTooMany).get tickTooMany_runs

private theorem lastInQueue_valid {scheduler : Scheduler}
    (success : lastInQueue.setDynamicConfig { operations := some 1 } = .ok scheduler) :
    scheduler.ValidSlots := by
  have shape : lastInQueue.setDynamicConfig { operations := some 1 } = .ok { lastInQueue with
      operations := 1
      interval := some "*/60 * * * * *"
      normalizedInterval := some 60
      preciseNormalizedInterval := 60000
      intraClusterDistance := 29000
      intraIntervalDistance := 5800 } := by decide +kernel
  obtain rfl := Except.ok.inj (shape.symm.trans success)
  refine ⟨⟨[], ⟨31000, .self⟩, [], rfl, ?_, rfl, ?_, ?_⟩, ⟨4, rfl, ?_⟩, ?_, ?_, ?_, ?_⟩
  all_goals decide +kernel

/-- The schedule was resolved after its cycle, and then the operation was started once more. -/
theorem not_runsOnce_tickTooMany : 1 ≤ oneMinute.totalMinutes ∧
    Run (step oneMinute) (initial lastInQueue) tickTooMany afterTickTooMany ∧
    Throughout (step oneMinute) (ValidStart oneMinute) (initial lastInQueue) tickTooMany ∧
    Throughout (step oneMinute) Unreloaded (initial lastInQueue) tickTooMany ∧
    afterTickTooMany.boundsOf 0 = [(0, 60000), (0, 60000)] ∧ ¬ afterTickTooMany.RunsOnce oneMinute := by
  have bounds : afterTickTooMany.boundsOf 0 = [(0, 60000), (0, 60000)] := by decide +kernel
  refine ⟨by decide +kernel, run_iff_execute.mpr (Option.some_get tickTooMany_runs).symm, ?_,
    by decide +kernel, bounds, fun once => ?_⟩
  · refine ⟨fun scheduler success => lastInQueue_valid success, fun next _ => ?_⟩
    refine throughout_of_forall fun state event member => ?_
    simp only [List.mem_cons, List.not_mem_nil, or_false] at member
    rcases member with rfl | rfl | rfl | rfl | rfl | rfl | rfl | rfl | rfl | rfl | rfl | rfl | rfl |
      rfl | rfl | rfl
    all_goals trivial
  · obtain ⟨count, within, same⟩ := once.inOrder 0 (by decide)
    have cycles : oneMinute.totalCycles = 1 := by decide +kernel
    have length := congrArg List.length (bounds.symm.trans same)
    simp only [List.length_cons, List.length_nil, List.length_map, List.length_range] at length
    omega

end HistoricalProcess

end PriceFeed.Schedulers
