import PriceFeed.Schedulers.OnTime

/-! Runs of a historical scheduler with valid slots: the bounds it has handed out when
its promise resolves. -/

namespace PriceFeed.Schedulers

open PriceFeed.Library

namespace HistoricalProcess

variable {options : HistoricalOptions} {process next : HistoricalProcess}

/-- The bounds handed out are those of the cycles: each minute is in the bounds of a
cycle whose operations have all started, and nothing else is. -/
structure CoversExactly (options : HistoricalOptions) (process : HistoricalProcess) : Prop where
  every : ∀ minute, options.collectionStartDate ≤ minute → minute < options.collectionEndDate →
    minute % millisecondsInAMinute = 0 → ∃ run cycle, process.cycleOf run = some cycle ∧
      ∀ operation < options.operations, ∃ call ∈ process.calls,
        call.run = run ∧ call.operation = operation ∧ call.intervalStart ≤ minute ∧
          minute + millisecondsInAMinute ≤ call.intervalEnd
  inside : ∀ call ∈ process.calls, options.collectionStartDate ≤ call.intervalStart ∧
    call.intervalEnd ≤ options.collectionEndDate
  disjoint : ∀ call ∈ process.calls, ∀ other ∈ process.calls,
    process.cycleOf call.run ≠ process.cycleOf other.run →
      call.intervalEnd ≤ other.intervalStart ∨ other.intervalEnd ≤ call.intervalStart
  handed : ∀ call ∈ process.calls, ∃ cycle < options.totalCycles,
    process.cycleOf call.run = some cycle ∧ call.intervalStart = options.cycleStart cycle ∧
      call.intervalEnd = options.cycleEnd cycle

theorem CycleSound.handed (sound : process.CycleSound options) {call : OperationCall}
    (member : call ∈ process.calls) : ∃ cycle < options.totalCycles,
    process.cycleOf call.run = some cycle ∧ call.intervalStart = options.cycleStart cycle ∧
      call.intervalEnd = options.cycleEnd cycle := by
  obtain ⟨cycle, known, bounds⟩ := sound.calls call member
  exact ⟨cycle, sound.inside call.run cycle known, known, bounds⟩

private theorem CycleSound.coversExactly (sound : process.CycleSound options)
    (minutes : 1 ≤ options.totalMinutes) (limit : 1 ≤ options.operationLimit)
    (resolved : process.resolved = true) : process.CoversExactly options where
  every minute after before whole := by
    obtain ⟨index, inside, rfl⟩ := HistoricalOptions.exists_minute minutes after before whole
    obtain ⟨cycle, known, opens, closes⟩ := HistoricalOptions.exists_cycle limit inside
    obtain ⟨run, same, started⟩ := sound.resolved resolved cycle known
    refine ⟨run, cycle, same, fun operation within => ?_⟩
    obtain ⟨call, member, of, position⟩ := started operation within
    obtain ⟨own, _, held, first, last⟩ := sound.handed member
    obtain rfl : cycle = own := by
      rw [of, same] at held
      exact Option.some.inj held
    exact ⟨call, member, of, position, first ▸ opens,
      by rw [HistoricalOptions.minuteStart_add, last]; exact closes⟩
  inside call member := by
    obtain ⟨cycle, known, _, first, last⟩ := sound.handed member
    rw [first, last]
    exact ⟨HistoricalOptions.collectionStartDate_le_cycleStart cycle,
      HistoricalOptions.cycleEnd_le_collectionEndDate limit minutes known⟩
  disjoint call member other present apart := by
    obtain ⟨cycle, known, held, first, last⟩ := sound.handed member
    obtain ⟨later, inside, same, opens, closes⟩ := sound.handed present
    rw [held, same] at apart
    rw [first, last, opens, closes]
    rcases Nat.lt_or_gt_of_ne fun equal => apart (congrArg some equal) with before | after
    · exact .inl (HistoricalOptions.cycleEnd_le_cycleStart limit known before)
    · exact .inr (HistoricalOptions.cycleEnd_le_cycleStart limit inside after)
  handed _ member := sound.handed member

theorem cycleSound_initial (cycles : 0 < options.totalCycles) (scheduler : Scheduler) :
    (initial scheduler).CycleSound options where
  held := SchedulerRuntime.silent_fresh.held
  single timer member := by cases member
  stopped _ := rfl
  counter := Nat.zero_le _
  inside run cycle known := by simp [cycleOf, initial] at known
  last run operationsRun known := by simp [initial] at known
  calls call member := by cases member
  waiting timer member := by cases member
  current cycle _ full := absurd full (Nat.ne_of_lt cycles)
  covered cycle below := by cases below
  resolved done := by cases done

structure Regular (options : HistoricalOptions) (process : HistoricalProcess) : Prop where
  sound : process.CycleSound options
  onTime : process.OnTime options

theorem regular_step (cycles : 0 < options.totalCycles) (backoff : 1 ≤ options.reloadCyclesBackoff)
    (regular : process.Regular options) {event : HistoricalEvent}
    (valid : process.ValidStart options event)
    (taken : process.step options event = some next) : next.Regular options where
  sound := cycleSound_step cycles backoff regular.sound (regular.onTime.orderly taken) taken
  onTime := onTime_step regular.sound.held regular.onTime valid taken

private theorem regular_initial (cycles : 0 < options.totalCycles) (scheduler : Scheduler) :
    (initial scheduler).Regular options where
  sound := cycleSound_initial cycles scheduler
  onTime := onTime_initial scheduler

/-- Runs of a scheduler that only starts with valid slots. -/
theorem regular_run {scheduler : Scheduler} {events : List HistoricalEvent}
    (cycles : 0 < options.totalCycles) (backoff : 1 ≤ options.reloadCyclesBackoff)
    (run : Run (step options) (initial scheduler) events process)
    (valid : Throughout (step options) (ValidStart options) (initial scheduler) events) :
    process.Regular options :=
  run.invariant_throughout (fun regular valid taken => regular_step cycles backoff regular valid taken)
    valid (regular_initial cycles scheduler)

/-- When the schedule promise has resolved, the bounds that were handed out cover the
collection exactly, whatever reloads came in between. -/
theorem resolved_coversExactly {scheduler : Scheduler} {events : List HistoricalEvent}
    (minutes : 1 ≤ options.totalMinutes) (limit : 1 ≤ options.operationLimit)
    (backoff : 1 ≤ options.reloadCyclesBackoff)
    (run : Run (step options) (initial scheduler) events process)
    (valid : Throughout (step options) (ValidStart options) (initial scheduler) events)
    (resolved : process.resolved = true) : process.CoversExactly options := by
  have cycles := HistoricalOptions.totalCycles_pos limit minutes
  exact (regular_run cycles backoff run valid).sound.coversExactly minutes limit resolved

/-- Three minutes in cycles of at most two, with one collector. -/
def threeMinutes : HistoricalOptions :=
  { scheduleStartDate := 30000
    scheduleEndDate := 210000
    operationLimit := 2
    reloadCyclesBackoff := 1
    operations := 1 }

/-- The only market of the only replica, with a request a second. -/
def soleScheduler : Scheduler :=
  { baseRateLimit := 1000
    rateLimitMargin := 0
    queuePosition := some 0
    queueSize := 1
    clusterMembers := some [⟨1000, .self⟩] }

/-- Two cycles, the second of them with the one minute that is left. -/
def twoCycles : List HistoricalEvent :=
  [.starts {} 1000, .passes 1000, .ticks 0, .clusterFires 1, .batchFires 2,
    .operationFires ⟨3, 0⟩, .callEnds 0 .finished, .passes 2000, .ticks 0, .clusterFires 4,
    .batchFires 5, .operationFires ⟨6, 0⟩, .callEnds 1 .finished, .resolves 1]

theorem twoCycles_runs :
    (execute (step threeMinutes) (initial soleScheduler) twoCycles).isSome := by decide +kernel

def afterTwoCycles : HistoricalProcess :=
  (execute (step threeMinutes) (initial soleScheduler) twoCycles).get twoCycles_runs

private theorem soleScheduler_valid {scheduler : Scheduler}
    (success : soleScheduler.setDynamicConfig { operations := some 1 } = .ok scheduler) :
    scheduler.ValidSlots := by
  have shape : soleScheduler.setDynamicConfig { operations := some 1 } = .ok { soleScheduler with
      operations := 1
      interval := some "*/1 * * * * *"
      normalizedInterval := some 1
      preciseNormalizedInterval := 1000 } := by decide +kernel
  obtain rfl := Except.ok.inj (shape.symm.trans success)
  refine ⟨⟨[], ⟨1000, .self⟩, [], rfl, ?_, rfl, ?_, ?_⟩, ⟨0, rfl, ?_⟩, ?_, ?_, ?_, ?_⟩
  all_goals decide +kernel

theorem twoCycles_valid :
    Throughout (step threeMinutes) (ValidStart threeMinutes) (initial soleScheduler) twoCycles := by
  refine ⟨fun scheduler success => soleScheduler_valid success, fun next _ => ?_⟩
  refine throughout_of_forall fun state event member => ?_
  simp only [List.mem_cons, List.not_mem_nil, or_false] at member
  rcases member with rfl | rfl | rfl | rfl | rfl | rfl | rfl | rfl | rfl | rfl | rfl | rfl | rfl
  all_goals trivial

theorem resolved_coversExactly_twoCycles : afterTwoCycles.CoversExactly threeMinutes :=
  resolved_coversExactly (by decide +kernel) (by decide) (by decide)
    (run_iff_execute.mpr (Option.some_get twoCycles_runs).symm) twoCycles_valid (by decide +kernel)

end HistoricalProcess

end PriceFeed.Schedulers
