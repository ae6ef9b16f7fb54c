import PriceFeed.Schedulers.Cancellation
import PriceFeed.Schedulers.CycleCoverage

/-! The timers of a historical scheduler are those of the scheduler it is: each of its
steps is a run of the scheduler, and its calls and bounds are all it adds. -/

namespace PriceFeed.Schedulers

open PriceFeed.Library

namespace HistoricalProcess

/-- A start that leaves the scheduler with valid slots. -/
def ValidStart (options : HistoricalOptions) (process : HistoricalProcess) : HistoricalEvent → Prop
  | .starts dynamicConfig _ => ∀ scheduler,
    process.scheduler.setDynamicConfig { dynamicConfig with operations := some options.operations } =
      .ok scheduler → scheduler.ValidSlots
  | _ => True

def clusterDelay (process : HistoricalProcess) : ℚ :=
  process.scheduler.getOperationsClusterDelay.getD 0

def batchDelay (process : HistoricalProcess) : ℚ :=
  process.scheduler.getOperationsBatchDelay.getD 0

/-- What is live in each stage, by the tick it comes from. -/
def Pending (process : HistoricalProcess) : ℕ → ℚ → Prop
  | 0, origin => ∃ cron ∈ process.runtime.crons, process.nextTick cron = origin
  | 1, origin => ∃ timer ∈ process.runtime.clusterTimers,
    process.due timer = origin + process.clusterDelay
  | 2, origin => ∃ timer ∈ process.runtime.batchTimers,
    process.due timer = origin + process.clusterDelay + process.batchDelay
  | 3, origin => ∃ timer ∈ process.runtime.operationTimers, process.due timer.handle =
    origin + process.clusterDelay + process.batchDelay +
      process.scheduler.getOperationDelay timer.operation
  | _, _ => False

structure OnTime (options : HistoricalOptions) (process : HistoricalProcess) : Prop where
  timely : process.Timely process.now
  fresh : process.runtime.Fresh
  idle : process.reloading = true → process.runtime.Silent
  delays : process.reloading = false → process.scheduler.ShortDelays
  operations : process.reloading = false → process.scheduler.operations = options.operations
  positions : ∀ timer ∈ process.runtime.operationTimers, timer.operation < options.operations
  staggered : Staggered process.scheduler.preciseNormalizedInterval process.Pending

/-- The scheduler without its bounds and calls. -/
def timers (process : HistoricalProcess) : SchedulerProcess where
  now := process.now
  scheduler := process.scheduler
  runtime := process.runtime
  nextTick := process.nextTick
  due := process.due
  running := !process.reloading
  cycleCounter := process.cycleCounter

variable {options : HistoricalOptions} {process next : HistoricalProcess}

theorem timers_running : process.timers.running = true ↔ process.reloading = false := by
  simp [timers]

theorem timers_stopped : process.timers.running = false ↔ process.reloading = true := by
  simp [timers]

namespace OnTime

theorem timers (onTime : process.OnTime options) : process.timers.OnTime where
  timely := onTime.timely
  fresh := onTime.fresh
  idle stopped := onTime.idle (timers_stopped.mp stopped)
  delays running := onTime.delays (timers_running.mp running)
  positions timer member := by
    have live : process.runtime.Live timer.handle := .inr (.inr (.inr ⟨timer, member, rfl⟩))
    have running : process.reloading = false := by
      by_contra stopped
      exact (onTime.idle (Bool.eq_true_of_not_eq_false stopped)).not_live _ live
    exact (onTime.positions timer member).trans_eq (onTime.operations running).symm
  staggered := onTime.staggered.mono fun stage origin pending => by
    rcases stage with _ | _ | _ | _ | _
    all_goals exact pending

theorem of_timers (onTime : process.timers.OnTime)
    (operations : process.reloading = false → process.scheduler.operations = options.operations) :
    process.OnTime options where
  timely := onTime.timely
  fresh := onTime.fresh
  idle reloading := onTime.idle (timers_stopped.mpr reloading)
  delays running := onTime.delays (timers_running.mpr running)
  operations := operations
  positions timer member := by
    have live : process.runtime.Live timer.handle := .inr (.inr (.inr ⟨timer, member, rfl⟩))
    have running := timers_running.mp (onTime.started live)
    exact (onTime.positions timer member).trans_eq (operations running)
  staggered := onTime.staggered.mono fun stage origin pending => by
    rcases stage with _ | _ | _ | _ | _
    all_goals exact pending

end OnTime

/-- The call of `runOperations` counts the cycle and sets the timers. -/
theorem timers_runOperations (operations : process.scheduler.operations = options.operations)
    (timer : ℕ) : (process.runOperations options timer).timers =
      process.timers.runOperations (.historical options) timer := by
  have scheduled : ∀ (updated : HistoricalProcess) (isLastCycle : Bool),
      updated.scheduler.operations = options.operations →
        (updated.scheduleOperations options timer isLastCycle).timers =
          updated.timers.scheduleOperations timer isLastCycle := by
    intro updated isLastCycle same
    simp only [timers, scheduleOperations, SchedulerProcess.scheduleOperations, same]
  by_cases ended : options.totalCycles ≤ process.cycleCounter
  · have counted : (SchedulerKind.historical options).countCycle process.cycleCounter =
        (process.cycleCounter, true) := if_pos ended
    rw [runOperations, updateIntervalBounds_of_le ended, SchedulerProcess.runOperations]
    simp only [timers, counted]
    exact scheduled process true operations
  · have counted : (SchedulerKind.historical options).countCycle process.cycleCounter =
        (process.cycleCounter + 1, decide (options.totalCycles ≤ process.cycleCounter + 1)) :=
      if_neg ended
    rw [runOperations, updateIntervalBounds_of_lt (Nat.not_le.mp ended),
      SchedulerProcess.runOperations]
    simp only [timers, counted]
    exact scheduled { process with
      intervalStart := options.cycleStart process.cycleCounter
      intervalEnd := options.cycleEnd process.cycleCounter
      cycleCounter := process.cycleCounter + 1 } _ operations

/-- The timers of one process become those of the other by valid starts only, which take
over the operations of the manager. -/
structure TimersLead (options : HistoricalOptions) (process next : HistoricalProcess) : Prop where
  run : ∃ events, Run (SchedulerProcess.step (.historical options)) process.timers events next.timers ∧
    Throughout (SchedulerProcess.step (.historical options)) SchedulerProcess.ValidStart
      process.timers events
  operations : (process.reloading = false → process.scheduler.operations = options.operations) →
    next.reloading = false → next.scheduler.operations = options.operations

namespace TimersLead

theorem of_eq (same : next.timers = process.timers) : process.TimersLead options next where
  run := ⟨[], same ▸ .nil _, trivial⟩
  operations kept running := by
    have scheduler : next.scheduler = process.scheduler := congrArg SchedulerProcess.scheduler same
    rw [scheduler]
    exact kept (timers_running.mp (same ▸ timers_running.mpr running))

theorem of_step (event : SchedulerEvent) (valid : process.timers.ValidStart event)
    (taken : process.timers.step (.historical options) event = some next.timers)
    (operations : (process.reloading = false → process.scheduler.operations = options.operations) →
      next.reloading = false → next.scheduler.operations = options.operations) :
    process.TimersLead options next where
  run := ⟨[event], .cons taken (.nil _), valid, fun _ _ => trivial⟩
  operations := operations

/-- A reload stops the scheduler, and moves its counter back before it sleeps. -/
theorem of_stopForReload {multiplier : Option ℚ}
    (taken : process.stopForReload options multiplier = some next) :
    process.TimersLead options next := by
  obtain ⟨destroyed, destroys, rfl⟩ := stopForReload_some taken
  have stops : process.timers.step (.historical options) .stops =
      some { process.timers with runtime := destroyed, running := false } :=
    Option.map_eq_some_iff.mpr ⟨destroyed, destroys, rfl⟩
  refine ⟨⟨[.stops, .reloadSleeps], .cons stops (.cons ?_ (.nil _)), trivial, fun _ _ =>
    ⟨trivial, fun _ _ => trivial⟩⟩, fun _ running => by cases running⟩
  rw [SchedulerProcess.step, if_pos rfl]
  rfl

end TimersLead

/-- What an event between a start and a stop is to the timers. -/
def timed : HistoricalEvent → Option SchedulerEvent
  | .passes time => some (.passes time)
  | .ticks cron => some (.ticks cron)
  | .clusterFires timer => some (.clusterFires timer)
  | .batchFires timer => some (.batchFires timer)
  | .operationFires timer => some (.operationFires timer)
  | _ => none

theorem timers_step (onTime : process.OnTime options) {event : HistoricalEvent}
    {timerEvent : SchedulerEvent} (same : timed event = some timerEvent)
    (taken : process.step options event = some next) :
    process.timers.step (.historical options) timerEvent = some next.timers := by
  cases event with
  | batchFires timer =>
    cases same
    obtain ⟨due, rfl⟩ := enabled taken
    have running : process.reloading = false :=
      timers_running.mp (onTime.timers.started (.inr (.inr (.inl due.1))))
    rw [timers_runOperations (onTime.operations running) timer]
    exact if_pos due
  | passes time =>
    cases same
    obtain ⟨passed, rfl⟩ := enabled taken
    exact if_pos passed
  | ticks cron =>
    cases same
    obtain ⟨due, rfl⟩ := enabled taken
    exact if_pos due
  | clusterFires timer =>
    cases same
    obtain ⟨due, rfl⟩ := enabled taken
    exact if_pos due
  | operationFires timer =>
    cases same
    obtain ⟨due, rfl⟩ := enabled taken
    exact if_pos due
  | _ => cases same

/-- Each step is one of the timers, or a reload, or none of their business. -/
theorem timersLead_step (onTime : process.OnTime options) {event : HistoricalEvent}
    (valid : process.ValidStart options event) (taken : process.step options event = some next) :
    process.TimersLead options next := by
  cases event with
  | passes time =>
    have stepped := timers_step onTime rfl taken
    obtain ⟨_, rfl⟩ := enabled taken
    exact .of_step (.passes time) trivial stepped id
  | ticks cron =>
    have stepped := timers_step onTime rfl taken
    obtain ⟨_, rfl⟩ := enabled taken
    exact .of_step (.ticks cron) trivial stepped id
  | clusterFires timer =>
    have stepped := timers_step onTime rfl taken
    obtain ⟨_, rfl⟩ := enabled taken
    exact .of_step (.clusterFires timer) trivial stepped id
  | batchFires timer =>
    have stepped := timers_step onTime rfl taken
    obtain ⟨due, rfl⟩ := enabled taken
    have running : process.reloading = false :=
      timers_running.mp (onTime.timers.started (.inr (.inr (.inl due.1))))
    have scheduler : (process.runOperations options timer).scheduler = process.scheduler :=
      congrArg SchedulerProcess.scheduler (timers_runOperations (onTime.operations running) timer)
    refine .of_step (.batchFires timer) trivial stepped fun _ _ => ?_
    rw [scheduler]
    exact onTime.operations running
  | operationFires timer =>
    have stepped := timers_step onTime rfl taken
    obtain ⟨_, rfl⟩ := enabled taken
    exact .of_step (.operationFires timer) trivial stepped id
  | callEnds index outcome =>
    simp only [step] at taken
    split at taken
    · split at taken
      · cases taken
        cases outcome with
        | finished => exact .of_eq rfl
        | rateLimited => exact .of_eq rfl
      · cases taken
    · cases taken
  | resolves run =>
    simp only [step] at taken
    split at taken
    · split at taken
      · cases taken
        exact .of_eq rfl
      · cases taken
    · cases taken
  | backoffProcessed multiplier =>
    simp only [step] at taken
    split at taken
    · split at taken
      · have stops : TimersLead options { process with
            broadcasts := process.broadcasts.erase multiplier } next := .of_stopForReload taken
        exact ⟨stops.run, stops.operations⟩
      · cases taken
        exact .of_eq rfl
    · cases taken
  | reloadStops multiplier => exact .of_stopForReload taken
  | starts dynamicConfig firstTick =>
    simp only [step] at taken
    split at taken
    · next ready =>
      split at taken
      · next scheduler success =>
        cases taken
        have stopped : process.timers.running = false ∧ process.timers.now < firstTick :=
          ⟨timers_stopped.mpr ready.1, ready.2⟩
        refine .of_step (.starts { dynamicConfig with
          operations := some options.operations } firstTick) valid ?_
          fun _ _ => Scheduler.operations_of_setDynamicConfig success rfl
        rw [SchedulerProcess.step, if_pos stopped]
        simp only [timers, success]
        rfl
      · cases taken
    · cases taken

/-- Each stage is empty before something new comes to it. -/
theorem OnTime.orderly (onTime : process.OnTime options) {event : HistoricalEvent}
    (taken : process.step options event = some next) : process.Orderly event := by
  cases event with
  | ticks cron =>
    obtain ⟨due, _⟩ := enabled taken
    exact onTime.timers.clusterTimers_nil due.1 due.2
  | clusterFires timer =>
    obtain ⟨due, _⟩ := enabled taken
    exact onTime.timers.batchTimers_nil due.1 due.2
  | batchFires timer =>
    obtain ⟨due, _⟩ := enabled taken
    exact onTime.timers.operationTimers_nil due.1 due.2
  | _ => trivial

theorem onTime_step (held : process.runtime.Held) (onTime : process.OnTime options)
    {event : HistoricalEvent} (valid : process.ValidStart options event)
    (taken : process.step options event = some next) : next.OnTime options := by
  obtain ⟨⟨events, run, starts⟩, operations⟩ := timersLead_step onTime valid taken
  have regular : process.timers.Regular := ⟨held, onTime.timers⟩
  exact .of_timers (SchedulerProcess.regular_run regular run starts).onTime
    (operations onTime.operations)

theorem regular_timers_step (held : process.runtime.Held) (onTime : process.OnTime options)
    {event : HistoricalEvent} (valid : process.ValidStart options event)
    (taken : process.step options event = some next) : next.runtime.Held ∧ next.OnTime options := by
  obtain ⟨⟨events, run, starts⟩, _⟩ := timersLead_step onTime valid taken
  have regular : process.timers.Regular := ⟨held, onTime.timers⟩
  exact ⟨(SchedulerProcess.regular_run regular run starts).held, onTime_step held onTime valid taken⟩

theorem onTime_initial (scheduler : Scheduler) : (initial scheduler).OnTime options :=
  .of_timers (.of_silent SchedulerRuntime.silent_fresh rfl) fun running => by cases running

end HistoricalProcess

end PriceFeed.Schedulers
