import PriceFeed.Schedulers.Historical

/-! The intervals of the cycles of a historical schedule: consecutive, of
`operationLimit` minutes each but for the last, from the start date to the end date. -/

namespace PriceFeed.Schedulers

namespace HistoricalOptions

variable (options : HistoricalOptions)

/-- The first date of a minute, counted from the start of the collection. -/
def minuteStart (minute : ℕ) : ℤ := options.collectionStartDate + minute * millisecondsInAMinute

def cycleLimit (cycle : ℕ) : ℕ :=
  if options.totalCycles ≤ cycle + 1 then options.lastCycleLimit else options.operationLimit

def cycleStart (cycle : ℕ) : ℤ := options.minuteStart (cycle * options.operationLimit)

def cycleEnd (cycle : ℕ) : ℤ :=
  options.minuteStart (cycle * options.operationLimit + options.cycleLimit cycle)

variable {options}

theorem minuteStart_add (minute : ℕ) :
    options.minuteStart minute + millisecondsInAMinute = options.minuteStart (minute + 1) := by
  simp only [minuteStart]
  push_cast
  ring

theorem minuteStart_le_iff {minute later : ℕ} :
    options.minuteStart minute ≤ options.minuteStart later ↔ minute ≤ later := by
  simp only [minuteStart, millisecondsInAMinute]
  omega

theorem dvd_roundDateToMinute (date : ℤ) : (millisecondsInAMinute : ℤ) ∣ roundDateToMinute date :=
  Int.dvd_self_sub_emod

/-- The end date is reached after the whole minutes, if there are any. -/
theorem collectionEndDate_eq (minutes : 1 ≤ options.totalMinutes) :
    options.collectionEndDate = options.minuteStart options.totalMinutes := by
  obtain ⟨first, starts⟩ := dvd_roundDateToMinute options.scheduleStartDate
  obtain ⟨last, ends⟩ := dvd_roundDateToMinute options.scheduleEndDate
  simp only [minuteStart, totalMinutes, collectionStartDate, collectionEndDate, starts, ends,
    millisecondsInAMinute] at minutes ⊢
  omega

/-- A date between the two is in one of the minutes. -/
theorem exists_minute {date : ℤ} (minutes : 1 ≤ options.totalMinutes)
    (after : options.collectionStartDate ≤ date) (before : date < options.collectionEndDate)
    (whole : date % millisecondsInAMinute = 0) :
    ∃ minute < options.totalMinutes, date = options.minuteStart minute := by
  rw [collectionEndDate_eq minutes] at before
  obtain ⟨first, starts⟩ := dvd_roundDateToMinute options.scheduleStartDate
  refine ⟨((date - options.collectionStartDate) / millisecondsInAMinute).toNat, ?_, ?_⟩
  · simp only [minuteStart, collectionStartDate, starts, millisecondsInAMinute] at *
    omega
  · simp only [minuteStart, collectionStartDate, starts, millisecondsInAMinute] at *
    omega

theorem collectionStartDate_le_cycleStart (cycle : ℕ) :
    options.collectionStartDate ≤ options.cycleStart cycle := by
  have origin : options.collectionStartDate = options.minuteStart 0 := by simp [minuteStart]
  rw [origin, cycleStart, minuteStart_le_iff]
  exact Nat.zero_le _

section Limited

variable (limit : 1 ≤ options.operationLimit)

include limit

theorem lt_totalCycles_iff {cycle : ℕ} :
    cycle < options.totalCycles ↔ cycle * options.operationLimit < options.totalMinutes := by
  have positive : (0 : ℚ) < options.operationLimit := by exact_mod_cast limit
  rw [totalCycles, Nat.lt_ceil, lt_div_iff₀ positive]
  exact_mod_cast Iff.rfl

theorem totalCycles_pos (minutes : 1 ≤ options.totalMinutes) : 0 < options.totalCycles := by
  rw [lt_totalCycles_iff limit]
  omega

/-- A cycle ends after `operationLimit` minutes, or with the minutes. -/
theorem cycle_limit_eq {cycle : ℕ} (inside : cycle < options.totalCycles) :
    cycle * options.operationLimit + options.cycleLimit cycle =
      min ((cycle + 1) * options.operationLimit) options.totalMinutes := by
  have started := (lt_totalCycles_iff limit).mp inside
  have size : (cycle + 1) * options.operationLimit =
      cycle * options.operationLimit + options.operationLimit := Nat.succ_mul ..
  unfold cycleLimit
  split
  · next last =>
    have ended : options.totalMinutes ≤ (cycle + 1) * options.operationLimit := by
      by_contra more
      have later := (lt_totalCycles_iff limit).mpr (Nat.not_le.mp more)
      omega
    have remaining : options.totalMinutes % options.operationLimit =
        (options.totalMinutes - cycle * options.operationLimit) % options.operationLimit := by
      rw [Nat.mul_comm cycle, Nat.sub_mul_mod (by rw [Nat.mul_comm]; omega)]
    simp only [lastCycleLimit, remaining]
    rw [Nat.min_eq_right ended]
    by_cases full : options.totalMinutes = (cycle + 1) * options.operationLimit
    · have whole : options.totalMinutes - cycle * options.operationLimit = options.operationLimit := by
        omega
      simp only [whole, Nat.mod_self, if_true]
      omega
    · rw [Nat.mod_eq_of_lt (by omega)]
      split
      · omega
      · omega
  · next more =>
    have later := (lt_totalCycles_iff limit).mp (Nat.not_le.mp more)
    omega

theorem cycleEnd_le_collectionEndDate {cycle : ℕ} (minutes : 1 ≤ options.totalMinutes)
    (inside : cycle < options.totalCycles) :
    options.cycleEnd cycle ≤ options.collectionEndDate := by
  rw [collectionEndDate_eq minutes, cycleEnd, cycle_limit_eq limit inside, minuteStart_le_iff]
  exact Nat.min_le_right ..

/-- An earlier cycle ends before a later one starts. -/
theorem cycleEnd_le_cycleStart {cycle later : ℕ} (inside : cycle < options.totalCycles)
    (before : cycle < later) : options.cycleEnd cycle ≤ options.cycleStart later := by
  rw [cycleEnd, cycle_limit_eq limit inside, cycleStart, minuteStart_le_iff]
  exact (Nat.min_le_left ..).trans (Nat.mul_le_mul_right _ before)

/-- Every minute is in one cycle. -/
theorem exists_cycle {minute : ℕ} (inside : minute < options.totalMinutes) :
    ∃ cycle < options.totalCycles, options.cycleStart cycle ≤ options.minuteStart minute ∧
      options.minuteStart (minute + 1) ≤ options.cycleEnd cycle := by
  have lower := Nat.div_mul_le_self minute options.operationLimit
  have upper := Nat.lt_div_mul_add (a := minute) limit
  have cycle : minute / options.operationLimit < options.totalCycles := by
    rw [lt_totalCycles_iff limit]
    omega
  refine ⟨minute / options.operationLimit, cycle, minuteStart_le_iff.mpr lower, ?_⟩
  rw [cycleEnd, cycle_limit_eq limit cycle, minuteStart_le_iff, Nat.succ_mul]
  omega

end Limited

end HistoricalOptions

end PriceFeed.Schedulers
