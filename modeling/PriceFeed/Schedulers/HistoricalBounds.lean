import PriceFeed.Library.Number
import PriceFeed.Schedulers.OnTime

/-! The bounds that a historical scheduler hands to its operations, for every pair of dates and
every `operationLimit`. Before the first cycle they are undefined. -/

namespace PriceFeed.Schedulers

open PriceFeed.Library

/-- The dates as the validator let them through. -/
structure HistoricalRange where
  scheduleStartDate : ℤ
  scheduleEndDate : ℤ
  operationLimit : ℚ := 500
  reloadCyclesBackoff : ℕ := 5
  deriving DecidableEq, Repr

namespace HistoricalRange

variable (range : HistoricalRange)

def collectionStartDate : ℤ := roundDateToMinute range.scheduleStartDate

def collectionEndDate : ℤ := roundDateToMinute range.scheduleEndDate

def totalMinutes : ℚ :=
  (range.collectionEndDate - range.collectionStartDate : ℤ) / millisecondsInAMinute

def calculateTotalCycles : Number := (Number.quotient range.totalMinutes range.operationLimit).ceil

def calculateLastCycleLimit : ℚ :=
  Number.orElse (Number.remainder range.totalMinutes range.operationLimit) range.operationLimit

end HistoricalRange

/-- The bounds as `getIntervalBounds` gives them. -/
structure HandedBounds where
  intervalStart : Option ℚ
  intervalEnd : Option ℚ
  deriving DecidableEq, Repr

/-- Numbers in their order, inside the rounded range. -/
def HistoricalRange.InRange (range : HistoricalRange) (bounds : HandedBounds) : Prop :=
  ∃ intervalStart intervalEnd : ℚ, bounds = ⟨some intervalStart, some intervalEnd⟩ ∧
    intervalStart < intervalEnd ∧ range.collectionStartDate ≤ intervalStart ∧
    intervalEnd ≤ range.collectionEndDate

/-- The cycles of a historical scheduler, whether operations are set up, and the bounds that those
it started have received. -/
structure BoundsState where
  cycleCounter : ℕ := 0
  intervalStart : Option ℚ := none
  intervalEnd : Option ℚ := none
  scheduled : Bool := false
  received : List HandedBounds := []
  deriving DecidableEq, Repr

inductive BoundsEvent where
  | runsOperations
  | startsOperation
  | reloads
  deriving DecidableEq, Repr

namespace BoundsState

variable (range : HistoricalRange)

/-- `updateIntervalBounds`, which tells whether this is the last cycle. -/
def updateIntervalBounds (state : BoundsState) : BoundsState × Bool :=
  if range.calculateTotalCycles.AtMost state.cycleCounter then (state, true)
  else
    let isFinalCycle : Bool := range.calculateTotalCycles.AtMost (state.cycleCounter + 1)
    let cycleLimit := if isFinalCycle then range.calculateLastCycleLimit else range.operationLimit
    let intervalStartOffset := state.cycleCounter * range.operationLimit * millisecondsInAMinute
    let intervalEndOffset := intervalStartOffset + cycleLimit * millisecondsInAMinute
    ({ state with
        intervalStart := some (range.collectionStartDate + intervalStartOffset)
        intervalEnd := some (range.collectionStartDate + intervalEndOffset)
        cycleCounter := state.cycleCounter + 1 }, isFinalCycle)

def getIntervalBounds (state : BoundsState) : HandedBounds := ⟨state.intervalStart, state.intervalEnd⟩

def backoffCycles (state : BoundsState) : BoundsState :=
  { state with cycleCounter := state.cycleCounter - min state.cycleCounter range.reloadCyclesBackoff }

/-- A reload takes back what is set up, and an operation starts only if it is set up. -/
def step (state : BoundsState) : BoundsEvent → Option BoundsState
  | .runsOperations => some { (state.updateIntervalBounds range).1 with scheduled := true }
  | .startsOperation =>
    if state.scheduled then some { state with received := state.received ++ [state.getIntervalBounds] }
    else none
  | .reloads => some { state.backoffCycles range with scheduled := false }

end BoundsState

namespace HistoricalRange

variable {range : HistoricalRange}

theorem collectionEndDate_eq (range : HistoricalRange) :
    (range.collectionEndDate : ℚ) = range.collectionStartDate + range.totalMinutes * millisecondsInAMinute := by
  rw [totalMinutes, div_mul_cancel₀ _ (by norm_num [millisecondsInAMinute])]
  push_cast
  ring

end HistoricalRange

namespace BoundsState

variable {range : HistoricalRange} {state next : BoundsState}

theorem updateIntervalBounds_received (range : HistoricalRange) (state : BoundsState) :
    (state.updateIntervalBounds range).1.received = state.received := by
  unfold updateIntervalBounds
  split
  · rfl
  · rfl

/-- A cycle that has not been run yet lies in the range. -/
private theorem updateIntervalBounds_inRange (limited : 0 < range.operationLimit)
    (more : ¬ range.calculateTotalCycles.AtMost state.cycleCounter) :
    range.InRange (state.updateIntervalBounds range).1.getIntervalBounds := by
  have below : (state.cycleCounter : ℤ) * range.operationLimit < range.totalMinutes :=
    (Number.not_ceil_quotient_atMost_iff limited).mp (by exact_mod_cast more)
  obtain ⟨rest, ends⟩ := Number.remainder_orElse limited (Int.natCast_nonneg _) below
  have started : 0 ≤ (state.cycleCounter : ℚ) * range.operationLimit :=
    mul_nonneg (Nat.cast_nonneg _) limited.le
  have minute : (0 : ℚ) < millisecondsInAMinute := by norm_num [millisecondsInAMinute]
  obtain ⟨cycleLimit, positive, within, updated⟩ : ∃ cycleLimit : ℚ, 0 < cycleLimit ∧
      state.cycleCounter * range.operationLimit + cycleLimit ≤ range.totalMinutes ∧
      (state.updateIntervalBounds range).1.getIntervalBounds = ⟨
        some (range.collectionStartDate + state.cycleCounter * range.operationLimit * millisecondsInAMinute),
        some (range.collectionStartDate + (state.cycleCounter * range.operationLimit * millisecondsInAMinute +
          cycleLimit * millisecondsInAMinute))⟩ := by
    by_cases final : range.calculateTotalCycles.AtMost (state.cycleCounter + 1)
    · refine ⟨range.calculateLastCycleLimit, rest, by exact_mod_cast ends, ?_⟩
      simp [updateIntervalBounds, more, final, getIntervalBounds]
    · have onward : ((state.cycleCounter + 1 : ℕ) : ℤ) * range.operationLimit < range.totalMinutes :=
        (Number.not_ceil_quotient_atMost_iff limited).mp (by exact_mod_cast final)
      refine ⟨range.operationLimit, limited, ?_, ?_⟩
      · push_cast at onward
        linarith
      · simp [updateIntervalBounds, more, final, getIntervalBounds]
  refine ⟨_, _, updated, ?_, ?_, ?_⟩
  · have length := mul_pos positive minute
    linarith
  · have offset := mul_nonneg started minute.le
    linarith
  · have scaled := mul_le_mul_of_nonneg_right within minute.le
    rw [range.collectionEndDate_eq]
    linarith

/-- The bounds of a range with a whole minute: undefined before the first cycle, and in the range
from there on. -/
structure Bounded (range : HistoricalRange) (state : BoundsState) : Prop where
  current : state.cycleCounter = 0 ∧ state.scheduled = false ∨ range.InRange state.getIntervalBounds
  received : ∀ bounds ∈ state.received, range.InRange bounds

private theorem bounded_step (limited : 0 < range.operationLimit) (minutes : 0 < range.totalMinutes)
    (bounded : state.Bounded range) {event : BoundsEvent} (taken : state.step range event = some next) :
    next.Bounded range := by
  cases event with
  | runsOperations =>
    cases taken
    by_cases ended : range.calculateTotalCycles.AtMost state.cycleCounter
    · have same : state.updateIntervalBounds range = (state, true) := if_pos ended
      rw [same]
      refine ⟨.inr (bounded.current.resolve_left fun fresh => ?_), bounded.received⟩
      rw [fresh.1] at ended
      refine (Number.not_ceil_quotient_atMost_iff limited).mpr ?_ ended
      simpa using minutes
    · have kept := updateIntervalBounds_received range state
      exact ⟨.inr (updateIntervalBounds_inRange limited ended), kept ▸ bounded.received⟩
  | startsOperation =>
    obtain ⟨scheduled, rfl⟩ := enabled taken
    have current : range.InRange state.getIntervalBounds :=
      bounded.current.resolve_left fun fresh => by simp [fresh.2] at scheduled
    refine ⟨.inr current, fun bounds member => ?_⟩
    rcases List.mem_append.mp member with old | new
    · exact bounded.received bounds old
    · exact List.mem_singleton.mp new ▸ current
  | reloads =>
    cases taken
    refine ⟨bounded.current.imp (fun fresh => ⟨?_, rfl⟩) id, bounded.received⟩
    simp [backoffCycles, fresh.1]

theorem received_inRange (limited : 0 < range.operationLimit) (minutes : 0 < range.totalMinutes)
    {events : List BoundsEvent} (run : Run (step range) {} events state) :
    ∀ bounds ∈ state.received, range.InRange bounds := by
  have bounded : state.Bounded range := run.invariant
    (fun bounded taken => bounded_step limited minutes bounded taken)
    ⟨.inl ⟨rfl, rfl⟩, fun _ none => (by cases none)⟩
  exact bounded.received

end BoundsState

/-- The range of a scheduler with a whole number of minutes for its limit. -/
def HistoricalOptions.range (options : HistoricalOptions) : HistoricalRange where
  scheduleStartDate := options.scheduleStartDate
  scheduleEndDate := options.scheduleEndDate
  operationLimit := options.operationLimit
  reloadCyclesBackoff := options.reloadCyclesBackoff

namespace HistoricalOptions

variable {options : HistoricalOptions}

theorem range_totalMinutes (minutes : 1 ≤ options.totalMinutes) :
    options.range.totalMinutes = options.totalMinutes := by
  have ends := collectionEndDate_eq minutes
  have length : options.range.collectionEndDate - options.range.collectionStartDate =
      options.totalMinutes * millisecondsInAMinute := by
    change options.collectionEndDate - options.collectionStartDate = _
    rw [ends, minuteStart]
    ring
  rw [HistoricalRange.totalMinutes, length]
  push_cast
  exact mul_div_cancel_right₀ _ (by norm_num [millisecondsInAMinute])

theorem range_atMost_iff (limit : 1 ≤ options.operationLimit) (minutes : 1 ≤ options.totalMinutes)
    {counter : ℕ} : options.range.calculateTotalCycles.AtMost counter ↔ options.totalCycles ≤ counter := by
  have positive : (0 : ℚ) < options.range.operationLimit := by
    change (0 : ℚ) < options.operationLimit
    exact_mod_cast limit
  have below : ¬ options.range.calculateTotalCycles.AtMost ((counter : ℤ) : ℚ) ↔
      ((counter : ℤ) : ℚ) * options.range.operationLimit < options.range.totalMinutes :=
    Number.not_ceil_quotient_atMost_iff positive
  have same : ((counter : ℚ) * options.operationLimit < options.totalMinutes) ↔
      counter * options.operationLimit < options.totalMinutes := by
    exact_mod_cast Iff.rfl
  rw [← not_iff_not, not_le, lt_totalCycles_iff limit, ← same, ← range_totalMinutes minutes]
  exact below

private theorem range_lastCycleLimit (limit : 1 ≤ options.operationLimit) (minutes : 1 ≤ options.totalMinutes) :
    options.range.calculateLastCycleLimit = options.lastCycleLimit := by
  have left : Number.remainder options.range.totalMinutes options.range.operationLimit =
      some ((options.totalMinutes % options.operationLimit : ℕ) : ℚ) := by
    rw [range_totalMinutes minutes]
    exact Number.remainder_natCast limit
  rw [HistoricalRange.calculateLastCycleLimit, left, Number.orElse, lastCycleLimit]
  simp only [Nat.cast_eq_zero]
  split
  · rfl
  · rfl

end HistoricalOptions

/-- The state that a process with its timers and calls is in as far as the bounds go. -/
structure FollowsBounds (process : HistoricalProcess) (state : BoundsState) : Prop where
  counter : state.cycleCounter = process.cycleCounter
  bounds : process.runs ≠ [] →
    state.getIntervalBounds = ⟨some process.intervalStart, some process.intervalEnd⟩
  scheduled : process.runtime.operationTimers ≠ [] → state.scheduled = true ∧ process.runs ≠ []
  received : state.received = process.calls.map fun call =>
    ⟨some call.intervalStart, some call.intervalEnd⟩
  counted : process.cycleCounter ≠ 0 → process.runs ≠ []

namespace FollowsBounds

variable {options : HistoricalOptions} {process next : HistoricalProcess} {state : BoundsState}
variable (follows : FollowsBounds process state)

include follows

/-- `runOperations` sets the bounds of the same cycle. -/
theorem runOperations (limit : 1 ≤ options.operationLimit) (minutes : 1 ≤ options.totalMinutes)
    (timer : ℕ) : FollowsBounds (process.runOperations options timer)
      { (state.updateIntervalBounds options.range).1 with scheduled := true } := by
  by_cases ended : options.totalCycles ≤ process.cycleCounter
  · have reached : options.range.calculateTotalCycles.AtMost state.cycleCounter := by
      rw [HistoricalOptions.range_atMost_iff limit minutes, follows.counter]
      exact ended
    have same : state.updateIntervalBounds options.range = (state, true) := if_pos reached
    have cycles := HistoricalOptions.totalCycles_pos limit minutes
    have some := follows.counted (by omega)
    rw [same, HistoricalProcess.runOperations, HistoricalProcess.updateIntervalBounds_of_le ended]
    exact ⟨follows.counter, fun _ => follows.bounds some, fun _ => ⟨rfl, by
      simp [HistoricalProcess.scheduleOperations]⟩, follows.received, fun _ => by
      simp [HistoricalProcess.scheduleOperations]⟩
  · have more : ¬ options.range.calculateTotalCycles.AtMost state.cycleCounter := by
      rw [HistoricalOptions.range_atMost_iff limit minutes, follows.counter]
      exact ended
    have final : options.range.calculateTotalCycles.AtMost ((state.cycleCounter : ℚ) + 1) ↔
        options.totalCycles ≤ process.cycleCounter + 1 := by
      rw [← Nat.cast_add_one, HistoricalOptions.range_atMost_iff limit minutes, follows.counter]
    have limited : (if decide (options.range.calculateTotalCycles.AtMost ((state.cycleCounter : ℚ) + 1)) then
        options.range.calculateLastCycleLimit else options.range.operationLimit) =
          (options.cycleLimit process.cycleCounter : ℚ) := by
      rw [HistoricalOptions.cycleLimit, decide_eq_decide.mpr final,
        HistoricalOptions.range_lastCycleLimit limit minutes]
      split
      · next last => rw [if_pos (of_decide_eq_true last)]
      · next last => rw [if_neg (fun below => last (decide_eq_true below))]; rfl
    have starts : (options.range.collectionStartDate : ℚ) +
        state.cycleCounter * options.range.operationLimit * millisecondsInAMinute =
          (options.cycleStart process.cycleCounter : ℤ) := by
      rw [HistoricalOptions.cycleStart, HistoricalOptions.minuteStart, follows.counter]
      push_cast
      rfl
    have ends : (options.range.collectionStartDate : ℚ) +
        (state.cycleCounter * options.range.operationLimit * millisecondsInAMinute +
          options.cycleLimit process.cycleCounter * millisecondsInAMinute) =
          (options.cycleEnd process.cycleCounter : ℤ) := by
      rw [← add_assoc, starts, HistoricalOptions.cycleStart, HistoricalOptions.cycleEnd,
        HistoricalOptions.minuteStart, HistoricalOptions.minuteStart]
      push_cast
      ring
    have updated : state.updateIntervalBounds options.range = ({ state with
        intervalStart := some (options.cycleStart process.cycleCounter : ℤ)
        intervalEnd := some (options.cycleEnd process.cycleCounter : ℤ)
        cycleCounter := state.cycleCounter + 1 },
        decide (options.range.calculateTotalCycles.AtMost ((state.cycleCounter : ℚ) + 1))) := by
      rw [BoundsState.updateIntervalBounds, if_neg more]
      simp only [limited, starts, ends]
    rw [HistoricalProcess.runOperations,
      HistoricalProcess.updateIntervalBounds_of_lt (Nat.not_le.mp ended), updated]
    have run : ∀ (process : HistoricalProcess) (isLastCycle : Bool),
        (process.scheduleOperations options timer isLastCycle).runs ≠ [] := by
      intro process isLastCycle
      simp [HistoricalProcess.scheduleOperations]
    exact ⟨congrArg (· + 1) follows.counter, fun _ => rfl, fun _ => ⟨rfl, run _ _⟩,
      follows.received, fun _ => run _ _⟩

theorem stopForReload (held : process.runtime.Held) {multiplier : Option ℚ}
    (taken : process.stopForReload options multiplier = some next) :
    FollowsBounds next { state.backoffCycles options.range with scheduled := false } := by
  obtain ⟨destroyed, destroys, rfl⟩ := HistoricalProcess.stopForReload_some taken
  have silent := held.destroyScheduler destroys
  constructor
  · simp [BoundsState.backoffCycles, HistoricalProcess.backoffCycles, follows.counter,
      HistoricalOptions.range]
  · exact follows.bounds
  · exact fun some => absurd silent.operationTimers some
  · exact follows.received
  · intro counted
    refine follows.counted fun zero => counted ?_
    simp [HistoricalProcess.backoffCycles, zero]

/-- Each step of the process is one of the bounds, or does not touch them. -/
theorem step (limit : 1 ≤ options.operationLimit) (minutes : 1 ≤ options.totalMinutes)
    (held : process.runtime.Held) {event : HistoricalEvent}
    (taken : process.step options event = some next) :
    ∃ events after, Run (BoundsState.step options.range) state events after ∧
      FollowsBounds next after := by
  cases event with
  | passes time =>
    obtain ⟨_, rfl⟩ := enabled taken
    exact ⟨[], state, .nil _, follows.counter, follows.bounds, follows.scheduled, follows.received,
      follows.counted⟩
  | ticks cron =>
    obtain ⟨_, rfl⟩ := enabled taken
    exact ⟨[], state, .nil _, follows.counter, follows.bounds, follows.scheduled, follows.received,
      follows.counted⟩
  | clusterFires timer =>
    obtain ⟨_, rfl⟩ := enabled taken
    exact ⟨[], state, .nil _, follows.counter, follows.bounds, follows.scheduled, follows.received,
      follows.counted⟩
  | batchFires timer =>
    obtain ⟨_, rfl⟩ := enabled taken
    exact ⟨[.runsOperations], _, .cons rfl (.nil _), follows.runOperations limit minutes timer⟩
  | operationFires timer =>
    obtain ⟨due, rfl⟩ := enabled taken
    obtain ⟨scheduled, runs⟩ := follows.scheduled (List.ne_nil_of_mem due.1)
    refine ⟨[.startsOperation], _, .cons (if_pos scheduled) (.nil _), follows.counter, follows.bounds,
      fun _ => ⟨scheduled, runs⟩, ?_, follows.counted⟩
    simp [HistoricalProcess.startOperation, follows.received, follows.bounds runs]
  | callEnds index outcome =>
    simp only [HistoricalProcess.step] at taken
    split at taken
    · next call found =>
      split at taken
      · cases taken
        have received := HistoricalProcess.map_endCall_calls (fun call : OperationCall =>
          HandedBounds.mk (some (call.intervalStart : ℚ)) (some (call.intervalEnd : ℚ)))
          (fun _ _ => rfl) found outcome
        refine ⟨[], state, .nil _, ?_⟩
        cases outcome with
        | finished => exact ⟨follows.counter, follows.bounds, follows.scheduled,
            follows.received.trans received.symm, follows.counted⟩
        | rateLimited => exact ⟨follows.counter, follows.bounds, follows.scheduled,
            follows.received.trans received.symm, follows.counted⟩
      · cases taken
    · cases taken
  | resolves run =>
    simp only [HistoricalProcess.step] at taken
    split at taken
    · split at taken
      · cases taken
        exact ⟨[], state, .nil _, follows.counter, follows.bounds, follows.scheduled,
          follows.received, follows.counted⟩
      · cases taken
    · cases taken
  | backoffProcessed multiplier =>
    simp only [HistoricalProcess.step] at taken
    split at taken
    · have kept : FollowsBounds { process with
          broadcasts := process.broadcasts.erase multiplier } state :=
        ⟨follows.counter, follows.bounds, follows.scheduled, follows.received, follows.counted⟩
      split at taken
      · exact ⟨[.reloads], _, .cons rfl (.nil _), kept.stopForReload held taken⟩
      · cases taken
        exact ⟨[], state, .nil _, kept⟩
    · cases taken
  | reloadStops multiplier =>
    exact ⟨[.reloads], _, .cons rfl (.nil _), follows.stopForReload held taken⟩
  | starts dynamicConfig firstTick =>
    simp only [HistoricalProcess.step] at taken
    split at taken
    · split at taken
      · cases taken
        exact ⟨[], state, .nil _, follows.counter, follows.bounds, follows.scheduled,
          follows.received, follows.counted⟩
      · cases taken
    · cases taken

end FollowsBounds

/-- What a historical scheduler hands out, with its timers and its calls, is what its bounds allow. -/
structure BoundsSound (options : HistoricalOptions) (process : HistoricalProcess) : Prop where
  held : process.runtime.Held
  onTime : process.OnTime options
  follows : ∃ events state, Run (BoundsState.step options.range) {} events state ∧
    FollowsBounds process state

namespace HistoricalProcess

variable {options : HistoricalOptions} {process next : HistoricalProcess}

private theorem boundsSound_step (limit : 1 ≤ options.operationLimit) (minutes : 1 ≤ options.totalMinutes)
    (sound : BoundsSound options process) {event : HistoricalEvent}
    (valid : process.ValidStart options event) (taken : process.step options event = some next) :
    BoundsSound options next := by
  obtain ⟨held, onTime⟩ := regular_timers_step sound.held sound.onTime valid taken
  obtain ⟨earlier, state, run, follows⟩ := sound.follows
  obtain ⟨events, after, more, followed⟩ := follows.step limit minutes sound.held taken
  exact ⟨held, onTime, earlier ++ events, after, run_append_iff.mpr ⟨state, run, more⟩, followed⟩

/-- All operations of a run with valid starts receive bounds in the range. -/
theorem calls_inRange {scheduler : Scheduler} {events : List HistoricalEvent}
    (limit : 1 ≤ options.operationLimit) (minutes : 1 ≤ options.totalMinutes)
    (run : Run (step options) (initial scheduler) events process)
    (valid : Throughout (step options) (ValidStart options) (initial scheduler) events) :
    ∀ call ∈ process.calls,
      options.range.InRange ⟨some call.intervalStart, some call.intervalEnd⟩ := by
  have initially : BoundsSound options (initial scheduler) :=
    ⟨SchedulerRuntime.silent_fresh.held, onTime_initial scheduler, [], {}, .nil _, rfl,
      fun none => absurd rfl none, fun none => absurd rfl none, rfl, fun none => absurd rfl none⟩
  have sound : BoundsSound options process := run.invariant_throughout
    (fun sound valid taken => boundsSound_step limit minutes sound valid taken) valid initially
  obtain ⟨_, state, bounded, follows⟩ := sound.follows
  have limited : 0 < options.range.operationLimit := by
    change (0 : ℚ) < options.operationLimit
    exact_mod_cast limit
  have whole : 0 < options.range.totalMinutes := by
    rw [HistoricalOptions.range_totalMinutes minutes]
    exact_mod_cast minutes
  intro call member
  refine BoundsState.received_inRange limited whole bounded _ ?_
  rw [follows.received]
  exact List.mem_map_of_mem member

end HistoricalProcess

end PriceFeed.Schedulers
