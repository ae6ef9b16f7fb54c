import PriceFeed.Library.Adjoining
import PriceFeed.Schedulers.Cycles

/-! The interval bounds that the scheduler of one market hands to its collectors,
tick after tick: each interval starts where the one before ended. -/

namespace PriceFeed.Collectors

open PriceFeed.Library PriceFeed.Schedulers

structure IntervalBounds where
  intervalStart : ℤ
  intervalEnd : ℤ
  deriving DecidableEq, Repr

/-- `getIntervalBounds` of `RestrictedRealtimeScheduler`, in a run of its cron job. -/
def getRealtimeIntervalBounds (preciseNormalizedInterval currentRun : ℤ) : IntervalBounds :=
  let intervalEnd := currentRun - currentRun % millisecondsInASecond
  ⟨intervalEnd - preciseNormalizedInterval, intervalEnd⟩

/-- Successive runs of the cron job of a realtime scheduler: one in each interval of
whole seconds, late by less than a second. -/
structure RealtimeRuns where
  start : ℤ
  preciseNormalizedInterval : ℕ
  count : ℕ
  lateness : ℕ → ℤ
  positive : 0 < preciseNormalizedInterval
  wholeStart : (millisecondsInASecond : ℤ) ∣ start
  wholeInterval : millisecondsInASecond ∣ preciseNormalizedInterval
  prompt : ∀ index, 0 ≤ lateness index ∧ lateness index < millisecondsInASecond

namespace RealtimeRuns

variable (runs : RealtimeRuns)

def boundary (index : ℕ) : ℤ := runs.start + index * runs.preciseNormalizedInterval

def currentRun (index : ℕ) : ℤ := runs.boundary (index + 1) + runs.lateness index

def intervalBounds (index : ℕ) : IntervalBounds :=
  getRealtimeIntervalBounds runs.preciseNormalizedInterval (runs.currentRun index)

theorem boundary_succ (index : ℕ) :
    runs.boundary (index + 1) = runs.boundary index + runs.preciseNormalizedInterval := by
  simp only [boundary]
  push_cast
  ring

theorem dvd_boundary (index : ℕ) : (millisecondsInASecond : ℤ) ∣ runs.boundary index :=
  dvd_add runs.wholeStart (dvd_mul_of_dvd_right (Int.natCast_dvd_natCast.mpr runs.wholeInterval) _)

/-- The milliseconds by which a run is late do not show. -/
theorem intervalBounds_eq (index : ℕ) :
    runs.intervalBounds index = ⟨runs.boundary index, runs.boundary (index + 1)⟩ := by
  have whole := Int.emod_eq_zero_of_dvd (runs.dvd_boundary (index + 1))
  have prompt := runs.prompt index
  have late : runs.currentRun index % millisecondsInASecond = runs.lateness index := by
    rw [currentRun, Int.add_emod, whole, zero_add, Int.emod_emod_of_dvd _ dvd_rfl,
      Int.emod_eq_of_lt prompt.1 prompt.2]
  have ending : runs.currentRun index - runs.currentRun index % millisecondsInASecond =
      runs.boundary (index + 1) := by
    rw [late, currentRun, add_sub_cancel_right]
  simp only [intervalBounds, getRealtimeIntervalBounds, ending, IntervalBounds.mk.injEq, and_true]
  rw [runs.boundary_succ, add_sub_cancel_right]

end RealtimeRuns

/-- Successive cycles of a historical scheduler. -/
structure HistoricalCycles where
  options : HistoricalOptions
  first : ℕ
  count : ℕ
  limited : 1 ≤ options.operationLimit
  within : first + count ≤ options.totalCycles

namespace HistoricalCycles

variable (cycles : HistoricalCycles)

def intervalBounds (index : ℕ) : IntervalBounds :=
  ⟨cycles.options.cycleStart (cycles.first + index), cycles.options.cycleEnd (cycles.first + index)⟩

def boundary (index : ℕ) : ℤ :=
  cycles.options.minuteStart
    (min ((cycles.first + index) * cycles.options.operationLimit) cycles.options.totalMinutes)

theorem intervalBounds_eq (inside : index < cycles.count) :
    cycles.intervalBounds index = ⟨cycles.boundary index, cycles.boundary (index + 1)⟩ := by
  have known : cycles.first + index < cycles.options.totalCycles :=
    (Nat.add_lt_add_left inside _).trans_le cycles.within
  have started := (HistoricalOptions.lt_totalCycles_iff cycles.limited).mp known
  simp only [intervalBounds, boundary, HistoricalOptions.cycleStart, HistoricalOptions.cycleEnd,
    HistoricalOptions.cycle_limit_eq cycles.limited known, Nat.min_eq_left started.le, Nat.add_assoc]

theorem boundary_lt (inside : index < cycles.count) :
    cycles.boundary index < cycles.boundary (index + 1) := by
  have known : cycles.first + index < cycles.options.totalCycles :=
    (Nat.add_lt_add_left inside _).trans_le cycles.within
  have started := (HistoricalOptions.lt_totalCycles_iff cycles.limited).mp known
  have size : (cycles.first + (index + 1)) * cycles.options.operationLimit =
      (cycles.first + index) * cycles.options.operationLimit + cycles.options.operationLimit := by
    ring
  have limited := cycles.limited
  rw [← not_le, boundary, boundary, HistoricalOptions.minuteStart_le_iff, size]
  omega

end HistoricalCycles

/-- The successive intervals of one market. -/
inductive IntervalChain where
  | realtime (runs : RealtimeRuns)
  | historical (cycles : HistoricalCycles)

namespace IntervalChain

def intervalBounds : IntervalChain → ℕ → IntervalBounds
  | .realtime runs, index => runs.intervalBounds index
  | .historical cycles, index => cycles.intervalBounds index

def count : IntervalChain → ℕ
  | .realtime runs => runs.count
  | .historical cycles => cycles.count

/-- The same intervals by their boundaries. -/
def adjoining : IntervalChain → Adjoining ℤ
  | .realtime runs =>
    { boundary := runs.boundary
      count := runs.count
      increasing := fun index _ => by
        rw [runs.boundary_succ]
        exact lt_add_of_pos_right _ (Nat.cast_pos.mpr runs.positive) }
  | .historical cycles =>
    { boundary := cycles.boundary
      count := cycles.count
      increasing := fun _ inside => cycles.boundary_lt inside }

theorem count_eq (chain : IntervalChain) : chain.count = chain.adjoining.count := by cases chain <;> rfl

theorem intervalBounds_eq (chain : IntervalChain) (inside : index < chain.adjoining.count) :
    chain.intervalBounds index =
      ⟨chain.adjoining.boundary index, chain.adjoining.boundary (index + 1)⟩ := by
  cases chain with
  | realtime runs => exact runs.intervalBounds_eq index
  | historical cycles => exact cycles.intervalBounds_eq inside

/-- Two intervals of a minute. -/
def twoMinutes : IntervalChain :=
  .realtime
    { start := 1702384080000
      preciseNormalizedInterval := 60000
      count := 2
      lateness := fun _ => 0
      positive := by decide
      wholeStart := by decide
      wholeInterval := by decide
      prompt := fun _ => by decide }

end IntervalChain

end PriceFeed.Collectors
