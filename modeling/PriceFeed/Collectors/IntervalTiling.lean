import Mathlib.Data.Rat.Floor
import PriceFeed.Collectors.IntervalChains
import PriceFeed.Schedulers.Period
import PriceFeed.Schedulers.Timeline

/-! The bounds that the markets of all replicas hand to their collectors. Each operation
reads them when it starts, at its own moment after the tick, and perhaps after the next. -/

namespace PriceFeed.Collectors

open PriceFeed.Library PriceFeed.Schedulers

/-- An operation that was started, with the bounds it was handed. Without a run of the cron
job there are none. -/
structure OperationStart where
  operation : ℕ
  startedAt : ℚ
  bounds : Option IntervalBounds
  deriving DecidableEq, Repr

/-- A realtime scheduler with the `currentRun` of its cron task. -/
structure RealtimeProcess where
  timers : SchedulerProcess
  currentRun : Option ℚ := none
  starts : List OperationStart := []

namespace RealtimeProcess

def initial (scheduler : Scheduler) : RealtimeProcess where
  timers := .initial scheduler 0

def getIntervalBounds (process : RealtimeProcess) : Option IntervalBounds :=
  process.currentRun.map fun currentRun =>
    getRealtimeIntervalBounds ⌊process.timers.scheduler.preciseNormalizedInterval⌋ ⌊currentRun⌋

/-- What an event means for the cron task and the operations. -/
def follow (process : RealtimeProcess) (timers : SchedulerProcess) : SchedulerEvent → RealtimeProcess
  | .starts _ _ =>
    { process with
      timers := timers
      currentRun := if timers.running then none else process.currentRun }
  | .ticks _ => { process with timers := timers, currentRun := some process.timers.now }
  | .operationFires timer =>
    { process with
      timers := timers
      starts := process.starts ++ [⟨timer.operation, process.timers.now, process.getIntervalBounds⟩] }
  | _ => { process with timers := timers }

def step (process : RealtimeProcess) (event : SchedulerEvent) : Option RealtimeProcess :=
  (process.timers.step .realtime event).map fun timers => process.follow timers event

/-- The bounds that an operation was handed, start after start. -/
def boundsOf (process : RealtimeProcess) (operation : ℕ) : List (Option IntervalBounds) :=
  (process.starts.filter fun start => start.operation = operation).map OperationStart.bounds

/-- The only start takes over valid slots in a cluster of this total interval, with a cron job
that ticks at the multiples of the period. No operation starts at a multiple. -/
def OffTick (total : ℚ) (process : RealtimeProcess) : SchedulerEvent → Prop
  | .starts dynamicConfig firstTick => process.timers.runtime.cronTask = none ∧ ∀ configured,
    process.timers.scheduler.setDynamicConfig dynamicConfig = .ok configured →
      configured.ValidSlots ∧
      Scheduler.clusterInterval (configured.clusterMembers.getD []) = total ∧
      ∃ tick : ℤ, firstTick = tick * configured.preciseNormalizedInterval
  | .operationFires _ => ∀ tick : ℤ,
    process.timers.now ≠ tick * process.timers.scheduler.preciseNormalizedInterval
  | _ => True

end RealtimeProcess

/-- The last whole interval before a moment. -/
def lastInterval (period : ℕ) (moment : ℚ) : IntervalBounds :=
  ⟨(⌊moment / period⌋ - 1) * period, ⌊moment / period⌋ * period⟩

private theorem floor_div_eq {period : ℕ} (positive : 0 < period) {tick : ℤ} {moment : ℚ}
    (after : tick * (period : ℚ) ≤ moment) (before : moment < (tick + 1) * (period : ℚ)) :
    ⌊moment / period⌋ = tick := by
  have positive' : (0 : ℚ) < period := Nat.cast_pos.mpr positive
  rw [Int.floor_eq_iff]
  exact ⟨(le_div_iff₀ positive').mpr after, (div_lt_iff₀ positive').mpr before⟩

private theorem getRealtimeIntervalBounds_eq {period : ℕ} (positive : 0 < period)
    (whole : millisecondsInASecond ∣ period) {tick : ℤ} {moment : ℚ}
    (after : tick * (period : ℚ) ≤ moment) (before : moment < (tick + 1) * (period : ℚ)) :
    getRealtimeIntervalBounds ⌊(period : ℚ)⌋ ⌊tick * (period : ℚ)⌋ = lastInterval period moment := by
  have run : ⌊tick * (period : ℚ)⌋ = tick * period := by
    rw [← Int.cast_natCast, ← Int.cast_mul, Int.floor_intCast]
  have rounded : tick * (period : ℤ) % millisecondsInASecond = 0 :=
    Int.emod_eq_zero_of_dvd (dvd_mul_of_dvd_right (Int.natCast_dvd_natCast.mpr whole) _)
  rw [lastInterval, floor_div_eq positive after before, getRealtimeIntervalBounds, run, rounded,
    Int.floor_natCast]
  simp only [IntervalBounds.mk.injEq]
  constructor
  · ring
  · ring

private theorem lastInterval_add {period : ℕ} (positive : 0 < period) (moment : ℚ) (rounds : ℕ) :
    lastInterval period (moment + rounds * period) =
      ⟨(⌊moment / period⌋ - 1 + rounds) * period, (⌊moment / period⌋ - 1 + rounds + 1) * period⟩ := by
  have later : ⌊(moment + rounds * period) / period⌋ = ⌊moment / period⌋ + rounds := by
    rw [add_div, mul_div_cancel_right₀ _ (Nat.cast_pos.mpr positive).ne', Int.floor_add_natCast]
  rw [lastInterval, later]
  simp only [IntervalBounds.mk.injEq]
  constructor
  · ring
  · ring

namespace RealtimeProcess

variable {process next : RealtimeProcess} {total firstTick : ℚ} {runs : ℕ} {turns : List (ℕ × ℕ)}

/-- The start of an operation in its turn. -/
def startOf (process : RealtimeProcess) (period : ℕ) (firstTick : ℚ) (turn : ℕ × ℕ) :
    OperationStart :=
  let startedAt := process.timers.tickTime firstTick turn.2 + process.timers.clusterDelay +
    process.timers.batchDelay + process.timers.scheduler.getOperationDelay turn.1
  ⟨turn.1, startedAt, some (lastInterval period startedAt)⟩

/-- All starts so far, each with the last interval before it. -/
structure Tiling (total firstTick : ℚ) (turns : List (ℕ × ℕ)) (process : RealtimeProcess) : Prop where
  created : process.timers.runtime.cronTask ≠ none
  period : process.timers.scheduler.preciseNormalizedInterval = Scheduler.periodOf total
  positive : 0 < Scheduler.periodOf total
  first : ∃ tick : ℤ, firstTick = tick * Scheduler.periodOf total
  rounds : ∀ operation < process.timers.scheduler.operations,
    ∃ count, turnsOf turns operation = List.range count
  starts : process.starts = turns.map (process.startOf (Scheduler.periodOf total) firstTick)

/-- Between the start and the stop the cron task knows the latest tick. -/
structure Ticking (firstTick : ℚ) (runs : ℕ) (turns : List (ℕ × ℕ)) (process : RealtimeProcess) :
    Prop where
  running : process.timers.running = true
  crons : process.timers.runtime.crons ≠ []
  timeline : process.timers.Timeline firstTick runs
  takes : TakesTurns process.timers.scheduler.operations process.timers.Waits turns runs
  currentRun : ∀ tick, process.timers.ticked runs = tick + 1 →
    process.currentRun = some (process.timers.tickTime firstTick tick)

inductive Phase (total : ℚ) (process : RealtimeProcess) : Prop where
  | fresh (created : process.timers.runtime.cronTask = none) (stopped : process.timers.running = false)
      (none : process.starts = [])
  | going (firstTick : ℚ) (runs : ℕ) (turns : List (ℕ × ℕ)) (tiling : process.Tiling total firstTick turns)
      (ticking : process.Ticking firstTick runs turns)
  | ended (firstTick : ℚ) (turns : List (ℕ × ℕ)) (tiling : process.Tiling total firstTick turns)
      (stopped : process.timers.running = false)

theorem Tiling.kept (tiling : process.Tiling total firstTick turns)
    (created : next.timers.runtime.cronTask = process.timers.runtime.cronTask)
    (scheduler : next.timers.scheduler = process.timers.scheduler)
    (starts : next.starts = process.starts) : next.Tiling total firstTick turns := by
  have same : next.startOf (Scheduler.periodOf total) firstTick =
      process.startOf (Scheduler.periodOf total) firstTick := by
    funext turn
    simp only [startOf, SchedulerProcess.tickTime, SchedulerProcess.clusterDelay,
      SchedulerProcess.batchDelay, scheduler]
  constructor
  · rw [created]
    exact tiling.created
  · rw [scheduler]
    exact tiling.period
  · exact tiling.positive
  · exact tiling.first
  · rw [scheduler]
    exact tiling.rounds
  · rw [starts, same]
    exact tiling.starts

theorem follow_timers (timers : SchedulerProcess) (event : SchedulerEvent) :
    (process.follow timers event).timers = timers := by
  cases event <;> rfl

theorem follow_starts {timers : SchedulerProcess} {event : SchedulerEvent}
    (other : ∀ timer, event ≠ .operationFires timer) :
    (process.follow timers event).starts = process.starts := by
  cases event with
  | operationFires timer => exact absurd rfl (other timer)
  | _ => rfl

private theorem follow_currentRun {timers : SchedulerProcess} {event : SchedulerEvent}
    (going : SchedulerProcess.Runs event) (other : ∀ cron, event ≠ .ticks cron) :
    (process.follow timers event).currentRun = process.currentRun := by
  cases event with
  | starts dynamicConfig firstTick => exact going.elim
  | ticks cron => exact absurd rfl (other cron)
  | _ => rfl

/-- The latest tick is the last multiple of the period that is not after the start. -/
theorem Ticking.getIntervalBounds (ticking : process.Ticking firstTick runs turns)
    (tiling : process.Tiling total firstTick turns) (regular : process.timers.Regular)
    {timer : OperationTimer} (member : timer ∈ process.timers.runtime.operationTimers)
    (offTick : process.OffTick total (.operationFires timer)) :
    process.getIntervalBounds =
      some (lastInterval (Scheduler.periodOf total) process.timers.now) := by
  obtain ⟨earlier, rfl, _⟩ := ticking.timeline.operations timer member
  obtain ⟨tick, ticked⟩ : ∃ tick, process.timers.ticked (earlier + 1) = tick + 1 :=
    Nat.exists_eq_succ_of_ne_zero (by unfold SchedulerProcess.ticked; omega)
  obtain ⟨first, aligned⟩ := tiling.first
  obtain ⟨cron, present⟩ := List.exists_mem_of_ne_nil _ ticking.crons
  have moment : ∀ count : ℕ, process.timers.tickTime firstTick count =
      ((first + count : ℤ) : ℚ) * Scheduler.periodOf total := by
    intro count
    rw [SchedulerProcess.tickTime, tiling.period, aligned]
    push_cast
    ring
  have after := ticking.timeline.past tick (ticked ▸ Nat.lt_succ_self tick)
  have upcoming := regular.onTime.timely.1 cron present
  rw [ticking.timeline.crons cron present, ticked] at upcoming
  have apart : process.timers.now ≠ process.timers.tickTime firstTick (tick + 1) := by
    rw [moment, ← tiling.period]
    exact offTick _
  have before := lt_of_le_of_ne upcoming apart
  rw [moment] at after before
  rw [RealtimeProcess.getIntervalBounds, ticking.currentRun tick ticked, Option.map_some, moment,
    tiling.period]
  refine congrArg some (getRealtimeIntervalBounds_eq tiling.positive (Scheduler.dvd_periodOf total)
    after ?_)
  push_cast at before ⊢
  linarith

private theorem going_step (regular : process.timers.Regular) (tiling : process.Tiling total firstTick turns)
    (ticking : process.Ticking firstTick runs turns) {event : SchedulerEvent}
    (going : SchedulerProcess.Runs event) (offTick : process.OffTick total event)
    {timers : SchedulerProcess} (stepped : process.timers.step .realtime event = some timers) :
    (process.follow timers event).Tiling total firstTick (SchedulerProcess.turnsAfter turns runs event) ∧
      (process.follow timers event).Ticking firstTick (SchedulerProcess.runsAfter runs event)
        (SchedulerProcess.turnsAfter turns runs event) := by
  have scheduler := SchedulerProcess.scheduler_step going stepped
  obtain ⟨created, running⟩ := SchedulerProcess.cronTask_step going stepped
  have takes := SchedulerProcess.takesTurns_step regular ticking.timeline ticking.takes going stepped
  have timers_eq : (process.follow timers event).timers = timers := follow_timers timers event
  refine ⟨?_, ?_⟩
  · by_cases fires : ∃ timer, event = .operationFires timer
    · obtain ⟨timer, rfl⟩ := fires
      obtain ⟨due, rfl⟩ := enabled stepped
      obtain ⟨earlier, same, moment⟩ := ticking.timeline.operations timer due.1
      refine ⟨tiling.created, tiling.period, tiling.positive, tiling.first, ?_, ?_⟩
      · exact fun operation inside => (takes.exists_range inside).imp fun _ range => range.2
      · have bounds := ticking.getIntervalBounds tiling regular due.1 offTick
        have started : process.startOf (Scheduler.periodOf total) firstTick (timer.operation, earlier) =
            ⟨timer.operation, process.timers.now, process.getIntervalBounds⟩ := by
          rw [startOf, ← moment, due.2, bounds]
        subst same
        rw [SchedulerProcess.turnsAfter, List.map_append, List.map_singleton]
        exact congrArg₂ _ tiling.starts (congrArg (fun start => [start]) started.symm)
    · have other : ∀ timer, event ≠ .operationFires timer := fun timer same => fires ⟨timer, same⟩
      have same : SchedulerProcess.turnsAfter turns runs event = turns := by
        cases event with
        | operationFires timer => exact absurd rfl (other timer)
        | _ => rfl
      rw [same]
      exact tiling.kept ((congrArg (·.runtime.cronTask) timers_eq).trans created)
        ((congrArg (·.scheduler) timers_eq).trans scheduler) (follow_starts other)
  · constructor
    · rw [timers_eq, running]
      exact ticking.running
    · rw [timers_eq, SchedulerProcess.crons_step going stepped]
      exact ticking.crons
    · rw [timers_eq]
      exact SchedulerProcess.timeline_step regular ticking.timeline going stepped
    · rw [timers_eq]
      exact takes
    · rw [timers_eq]
      intro tick ticked
      have same : timers.tickTime firstTick tick = process.timers.tickTime firstTick tick := by
        rw [SchedulerProcess.tickTime, SchedulerProcess.tickTime, scheduler]
      rcases SchedulerProcess.ticked_step regular ticking.timeline going stepped with
        ⟨⟨cron, rfl⟩, more, moment⟩ | ⟨other, unchanged⟩
      · obtain rfl : process.timers.ticked runs = tick := by omega
        rw [same, ← moment]
        rfl
      · rw [follow_currentRun going other, same]
        exact ticking.currentRun tick (unchanged ▸ ticked)

private theorem ticking_start (silent : process.timers.runtime.Silent) (none : process.starts = [])
    {configured : Scheduler} {dynamicConfig : DynamicConfig}
    (success : process.timers.scheduler.setDynamicConfig dynamicConfig = .ok configured)
    (offTick : process.OffTick total (.starts dynamicConfig firstTick)) :
    (process.follow (process.timers.start configured firstTick) (.starts dynamicConfig firstTick)).Tiling
        total firstTick [] ∧
      (process.follow (process.timers.start configured firstTick) (.starts dynamicConfig firstTick)).Ticking
        firstTick 0 [] := by
  obtain ⟨members, present, timing⟩ := Scheduler.exists_timing success
  obtain ⟨_, shared, first⟩ := offTick.2 configured success
  have kept : configured.clusterMembers = some members :=
    ((congrArg Scheduler.clusterMembers timing.unchanged).trans rfl).trans present
  rw [kept, Option.getD_some] at shared
  obtain ⟨period, positive⟩ := timing.period_eq
  rw [shared] at period positive
  rw [period] at first
  have created : (process.timers.start configured firstTick).runtime.cronTask =
      some process.timers.runtime.nextHandle := rfl
  have crons : (process.timers.start configured firstTick).runtime.crons =
      [process.timers.runtime.nextHandle] := by
    simp [SchedulerProcess.start, SchedulerRuntime.initializeScheduler, silent.crons]
  have operations : (process.timers.start configured firstTick).runtime.operationTimers = [] :=
    silent.operationTimers
  have clusterTimers : (process.timers.start configured firstTick).runtime.clusterTimers = [] :=
    silent.clusterTimers
  have batchTimers : (process.timers.start configured firstTick).runtime.batchTimers = [] :=
    silent.batchTimers
  constructor
  · refine ⟨by rw [follow_timers, created]; exact Option.some_ne_none _, period, positive, first, ?_, none⟩
    exact fun operation _ => ⟨0, rfl⟩
  · refine ⟨rfl, ?_, SchedulerProcess.timeline_start silent configured, takesTurns_nil ?_, ?_⟩
    · rw [follow_timers, crons]
      exact List.cons_ne_nil _ _
    · rintro operation ⟨timer, member, -⟩
      rw [follow_timers, operations] at member
      cases member
    · intro tick ticked
      rw [follow_timers, SchedulerProcess.ticked, clusterTimers, batchTimers] at ticked
      cases ticked

theorem destroyScheduler_cronTask {runtime destroyed : SchedulerRuntime}
    (destroys : runtime.destroyScheduler = some destroyed) : destroyed.cronTask = runtime.cronTask := by
  simp only [SchedulerRuntime.destroyScheduler] at destroys
  split at destroys
  · cases destroys
  · cases destroys
    rfl

private theorem phase_step (regular : process.timers.Regular) (phase : process.Phase total)
    {event : SchedulerEvent} (offTick : process.OffTick total event)
    (taken : process.step event = some next) : next.Phase total := by
  obtain ⟨timers, stepped, rfl⟩ := Option.map_eq_some_iff.mp taken
  have timers_eq : (process.follow timers event).timers = timers := follow_timers timers event
  cases phase with
  | fresh created stopped none =>
    have silent := regular.held.created created
    cases event with
    | starts dynamicConfig firstTick =>
      simp only [SchedulerProcess.step] at stepped
      split at stepped
      · split at stepped
        · next configured success =>
          cases stepped
          obtain ⟨tiling, ticking⟩ := ticking_start silent none success offTick
          exact .going firstTick 0 [] tiling ticking
        · cases stepped
          exact .fresh created stopped none
      · cases stepped
    | stops =>
      obtain ⟨destroyed, destroys, _⟩ := Option.map_eq_some_iff.mp stepped
      rw [SchedulerRuntime.destroyScheduler, if_pos created] at destroys
      cases destroys
    | reloadSleeps =>
      obtain ⟨_, rfl⟩ := enabled stepped
      exact .fresh created stopped none
    | _ =>
      obtain ⟨created', running⟩ := SchedulerProcess.cronTask_step (by trivial) stepped
      have idle := (SchedulerProcess.silent_step silent (fun _ _ same => by cases same) stepped).2
      refine .fresh ?_ ?_ ((follow_starts idle).trans none)
      · rw [timers_eq, created', created]
      · rw [timers_eq, running, stopped]
  | going firstTick runs turns tiling ticking =>
    cases event with
    | starts dynamicConfig firstTick =>
      simp only [SchedulerProcess.step, ticking.running] at stepped
      cases stepped
    | stops =>
      obtain ⟨destroyed, destroys, rfl⟩ := Option.map_eq_some_iff.mp stepped
      exact .ended firstTick turns (tiling.kept (destroyScheduler_cronTask destroys) rfl rfl) rfl
    | reloadSleeps =>
      obtain ⟨stopped, _⟩ := enabled stepped
      rw [ticking.running] at stopped
      cases stopped
    | _ =>
      obtain ⟨tiles, ticks⟩ := going_step regular tiling ticking (by trivial) offTick stepped
      exact .going firstTick _ _ tiles ticks
  | ended firstTick turns tiling stopped =>
    have silent := regular.onTime.idle stopped
    cases event with
    | starts dynamicConfig firstTick => exact absurd offTick.1 tiling.created
    | stops =>
      obtain ⟨destroyed, destroys, rfl⟩ := Option.map_eq_some_iff.mp stepped
      exact .ended firstTick turns (tiling.kept (destroyScheduler_cronTask destroys) rfl rfl) rfl
    | reloadSleeps =>
      obtain ⟨_, rfl⟩ := enabled stepped
      exact .ended firstTick turns (tiling.kept rfl rfl rfl) stopped
    | _ =>
      obtain ⟨created, running⟩ := SchedulerProcess.cronTask_step (by trivial) stepped
      have scheduler := SchedulerProcess.scheduler_step (by trivial) stepped
      have idle := (SchedulerProcess.silent_step silent (fun _ _ same => by cases same) stepped).2
      refine .ended firstTick turns (tiling.kept ?_ ?_ (follow_starts idle)) ?_
      · rw [timers_eq, created]
      · rw [timers_eq, scheduler]
      · rw [timers_eq, running, stopped]

theorem OffTick.valid {event : SchedulerEvent} (offTick : process.OffTick total event) :
    process.timers.ValidStart event := by
  cases event with
  | starts dynamicConfig firstTick =>
    exact fun configured success => (offTick.2 configured success).1
  | _ => trivial

/-- What holds of a market that is started once. -/
structure Sound (total : ℚ) (process : RealtimeProcess) : Prop where
  regular : process.timers.Regular
  phase : process.Phase total

theorem sound_step (sound : process.Sound total) {event : SchedulerEvent}
    (offTick : process.OffTick total event) (taken : process.step event = some next) :
    next.Sound total where
  regular := by
    obtain ⟨timers, stepped, rfl⟩ := Option.map_eq_some_iff.mp taken
    rw [follow_timers]
    exact SchedulerProcess.regular_step sound.regular offTick.valid stepped
  phase := phase_step sound.regular sound.phase offTick taken

private theorem sound_run {scheduler : Scheduler} {events : List SchedulerEvent}
    (run : Run step (initial scheduler) events process)
    (offTick : Throughout step (OffTick total) (initial scheduler) events) : process.Sound total := by
  have initially : (initial scheduler).Sound total :=
    ⟨SchedulerProcess.regular_of_silent SchedulerRuntime.silent_fresh rfl, .fresh rfl rfl rfl⟩
  exact run.invariant_throughout (fun sound offTick taken => sound_step sound offTick taken) offTick
    initially

/-- A market that has started has the period of its cluster; one that has not has no bounds. -/
theorem Phase.tiling (phase : process.Phase total) :
    process.timers.runtime.cronTask = none ∧ process.starts = [] ∨
      ∃ firstTick turns, process.Tiling total firstTick turns := by
  cases phase with
  | fresh created _ none => exact .inl ⟨created, none⟩
  | going firstTick _ turns tiling _ => exact .inr ⟨firstTick, turns, tiling⟩
  | ended firstTick turns tiling _ => exact .inr ⟨firstTick, turns, tiling⟩

end RealtimeProcess

/-- Intervals of one length and between its multiples, each from where the one before it ends. -/
def TilesGrid (period : ℕ) (bounds : List (Option IntervalBounds)) : Prop :=
  ∃ first : ℤ, bounds = (List.range bounds.length).map fun round =>
    some ⟨(first + round) * period, (first + round + 1) * period⟩

theorem tilesGrid_nil (period : ℕ) : TilesGrid period [] := ⟨0, rfl⟩

namespace RealtimeProcess

variable {process : RealtimeProcess} {total firstTick : ℚ} {turns : List (ℕ × ℕ)}

private theorem Tiling.tilesGrid (tiling : process.Tiling total firstTick turns) {operation : ℕ}
    (inside : operation < process.timers.scheduler.operations) :
    TilesGrid (Scheduler.periodOf total) (process.boundsOf operation) := by
  obtain ⟨count, rounds⟩ := tiling.rounds operation inside
  have turned : process.boundsOf operation = (turnsOf turns operation).map fun round =>
      (process.startOf (Scheduler.periodOf total) firstTick (operation, round)).bounds := by
    rw [boundsOf, tiling.starts, List.filter_map, List.map_map, turnsOf, List.map_map]
    refine List.map_congr_left fun turn member => ?_
    obtain rfl : turn.1 = operation := of_decide_eq_true (List.mem_filter.mp member).2
    rfl
  rw [rounds] at turned
  refine ⟨⌊(firstTick + process.timers.clusterDelay + process.timers.batchDelay +
    process.timers.scheduler.getOperationDelay operation) / Scheduler.periodOf total⌋ - 1, ?_⟩
  rw [turned, List.length_map, List.length_range]
  refine List.map_congr_left fun round _ => congrArg some ?_
  rw [← lastInterval_add tiling.positive, SchedulerProcess.tickTime, tiling.period]
  congr 1
  ring

/-- The markets of all replicas that share a cluster hand out intervals of one grid, one after
the other for each operation, however late in the period or after it the operation starts. -/
theorem intervals_tiled {Market : Type*} {total : ℚ} {scheduler : Market → Scheduler}
    {events : Market → List SchedulerEvent} {process : Market → RealtimeProcess}
    (runs : ∀ market, Run step (initial (scheduler market)) (events market) (process market))
    (offTick : ∀ market,
      Throughout step (OffTick total) (initial (scheduler market)) (events market)) :
    ∃ period : ℕ, 0 < period ∧ ∀ market,
      ((process market).timers.runtime.cronTask ≠ none →
        (process market).timers.scheduler.preciseNormalizedInterval = period) ∧
      ∀ operation < (process market).timers.scheduler.operations,
        TilesGrid period ((process market).boundsOf operation) := by
  have phase market := (sound_run (runs market) (offTick market)).phase.tiling
  rcases Nat.eq_zero_or_pos (Scheduler.periodOf total) with zero | positive
  · refine ⟨1, Nat.one_pos, fun market => ?_⟩
    rcases phase market with ⟨created, none⟩ | ⟨_, _, tiling⟩
    · refine ⟨fun started => absurd created started, fun operation _ => ?_⟩
      rw [boundsOf, none]
      exact tilesGrid_nil 1
    · exact absurd zero tiling.positive.ne'
  · refine ⟨Scheduler.periodOf total, positive, fun market => ?_⟩
    rcases phase market with ⟨created, none⟩ | ⟨_, _, tiling⟩
    · refine ⟨fun started => absurd created started, fun operation _ => ?_⟩
      rw [boundsOf, none]
      exact tilesGrid_nil _
    · exact ⟨fun _ => tiling.period, fun operation inside => tiling.tilesGrid inside⟩

/-- The first and the last market of a queue of five, a request each in 31 seconds. -/
def queueEnds (last : Bool) : Scheduler :=
  { baseRateLimit := 6200
    rateLimitMargin := 0
    queuePosition := some (if last then 4 else 0)
    queueSize := 5
    operations := 1
    clusterMembers := some [⟨31000, .self⟩] }

/-- The last market starts two and a half seconds after the next tick. -/
def twoRounds : Bool → List SchedulerEvent
  | false => [.passes 60000, .ticks 0, .passes 74500, .clusterFires 1, .batchFires 2,
    .operationFires ⟨3, 0⟩, .passes 120000, .ticks 0, .passes 134500, .clusterFires 4, .batchFires 5,
    .operationFires ⟨6, 0⟩]
  | true => [.passes 60000, .ticks 0, .passes 74500, .clusterFires 1, .passes 120000, .ticks 0,
    .passes 122500, .batchFires 2, .operationFires ⟨4, 0⟩, .passes 134500, .clusterFires 3,
    .passes 180000, .ticks 0, .passes 182500, .batchFires 5, .operationFires ⟨7, 0⟩]

theorem twoRounds_runs (last : Bool) :
    (execute step (initial (queueEnds last)) (.starts {} 60000 :: twoRounds last)).isSome := by
  cases last <;> decide +kernel

def afterTwoRounds (last : Bool) : RealtimeProcess :=
  (execute step (initial (queueEnds last)) (.starts {} 60000 :: twoRounds last)).get (twoRounds_runs last)

private theorem queueEnds_configured (last : Bool) {configured : Scheduler}
    (success : (queueEnds last).setDynamicConfig {} = .ok configured) :
    configured.ValidSlots ∧ configured.clusterMembers = some [⟨31000, .self⟩] ∧
      configured.preciseNormalizedInterval = 60000 := by
  have shape : (queueEnds last).setDynamicConfig {} = .ok { queueEnds last with
      interval := some "*/60 * * * * *"
      normalizedInterval := some 60
      preciseNormalizedInterval := 60000
      intraClusterDistance := 29000
      intraIntervalDistance := 5800 } := by
    cases last <;> decide +kernel
  obtain rfl := Except.ok.inj (shape.symm.trans success)
  refine ⟨⟨⟨[], ⟨31000, .self⟩, [], rfl, ?_, rfl, ?_, ?_⟩, ⟨if last then 4 else 0, rfl, ?_⟩,
    ?_, ?_, ?_, ?_⟩, rfl, rfl⟩
  all_goals cases last <;> decide +kernel

/-- No start of an operation falls on a whole minute. -/
def OffMinute (process : RealtimeProcess) : SchedulerEvent → Prop
  | .starts _ _ => False
  | .operationFires _ => process.timers.scheduler.preciseNormalizedInterval = 60000 ∧
    (process.timers.now / 60000).den ≠ 1
  | _ => True

instance (process : RealtimeProcess) : DecidablePred process.OffMinute
  | .starts _ _ => isFalse id
  | .operationFires _ => inferInstanceAs (Decidable (_ ∧ _))
  | .passes _ | .stops | .reloadSleeps | .ticks _ | .clusterFires _ | .batchFires _ => isTrue trivial

theorem OffMinute.offTick {process : RealtimeProcess} {event : SchedulerEvent} {total : ℚ}
    (offMinute : process.OffMinute event) : process.OffTick total event := by
  cases event with
  | starts dynamicConfig firstTick => exact offMinute.elim
  | operationFires timer =>
    intro tick same
    refine offMinute.2 ?_
    rw [same, offMinute.1, mul_div_cancel_right₀ _ (by norm_num)]
    exact Rat.den_intCast tick
  | _ => trivial

private theorem twoRounds_offTick (last : Bool) : Throughout step (OffTick 31000) (initial (queueEnds last))
    (.starts {} 60000 :: twoRounds last) := by
  refine ⟨⟨rfl, fun configured success => ?_⟩, fun next taken => ?_⟩
  · obtain ⟨valid, members, period⟩ := queueEnds_configured last success
    rw [members, period]
    exact ⟨valid, by decide +kernel, 1, by norm_num⟩
  · have checked : ∀ middle ∈ (initial (queueEnds last)).step (.starts {} 60000),
        Throughout step OffMinute middle (twoRounds last) := by
      cases last <;> decide +kernel
    exact (checked next taken).mono fun _ _ _ offMinute => offMinute.offTick

/-- Both markets hand out the intervals between the minutes. -/
theorem intervals_tiled_queueEnds : (∃ period : ℕ, 0 < period ∧ ∀ last,
      ((afterTwoRounds last).timers.runtime.cronTask ≠ none →
        (afterTwoRounds last).timers.scheduler.preciseNormalizedInterval = period) ∧
      ∀ operation < (afterTwoRounds last).timers.scheduler.operations,
        TilesGrid period ((afterTwoRounds last).boundsOf operation)) ∧
    (afterTwoRounds true).boundsOf 0 = [some ⟨60000, 120000⟩, some ⟨120000, 180000⟩] :=
  ⟨intervals_tiled (fun last => run_iff_execute.mpr (Option.some_get (twoRounds_runs last)).symm)
    twoRounds_offTick, by decide +kernel⟩

end RealtimeProcess

end PriceFeed.Collectors
