import Mathlib.Order.Bounds.Basic
import PriceFeed.Schedulers.Scheduler

/-! The period of a cluster: the divisor that `closestDivisor` reaches, and when it
reaches none. -/

namespace PriceFeed.Schedulers

section ClosestDivisor

variable {frames num target divisor : ℕ}

/-- The search upwards stops at the least divisor from its argument on. -/
theorem closestDivisor_isLeast (positive : 0 < target)
    (found : closestDivisor frames num target = .ok divisor) :
    IsLeast {other | other ∣ target ∧ num ≤ other} divisor := by
  induction frames generalizing num with
  | zero => cases found
  | succ frames ih =>
    unfold closestDivisor at found
    split at found
    · next divides =>
      obtain rfl := Except.ok.inj found
      exact ⟨⟨Nat.dvd_of_mod_eq_zero divides.2, le_rfl⟩, fun other within => within.2⟩
    · next missed =>
      obtain ⟨⟨divides, above⟩, least⟩ := ih found
      refine ⟨⟨divides, Nat.le_of_succ_le above⟩, fun other within => least ⟨within.1, ?_⟩⟩
      refine Nat.lt_of_le_of_ne within.2 fun same => ?_
      subst same
      exact missed ⟨(Nat.pos_of_dvd_of_pos within.1 positive).ne', Nat.mod_eq_zero_of_dvd within.1⟩

theorem closestDivisor_beyond (positive : 0 < target) (beyond : target < num) (frames : ℕ) :
    closestDivisor frames num target = .error .maximumCallStack := by
  induction frames generalizing num with
  | zero => rfl
  | succ frames ih =>
    have missed : ¬ (num ≠ 0 ∧ target % num = 0) := by
      rw [Nat.mod_eq_of_lt beyond]
      exact fun divides => positive.ne' divides.2
    rw [closestDivisor, if_neg missed]
    exact ih (beyond.trans num.lt_succ_self)

/-- A divisor comes out for the arguments up to the target, within the frames that the target needs. -/
private theorem closestDivisor_ok_iff (positive : 0 < target) (granted : target < frames) :
    (∃ divisor, closestDivisor frames num target = .ok divisor) ↔ num ≤ target := by
  constructor
  · rintro ⟨divisor, found⟩
    by_contra beyond
    rw [closestDivisor_beyond positive (not_le.mp beyond)] at found
    cases found
  · exact fun within => closestDivisor_completes positive within (by omega)

end ClosestDivisor

namespace ScheduleUnitContext

/-- The whole units that an interval needs. -/
def intervalInUnits (intervalInMs : ℚ) : ℕ := ⌈intervalInMs / (getContext intervalInMs).timeUnitDivisor⌉₊

theorem unit_pos (intervalInMs : ℚ) : 0 < (getContext intervalInMs).unit := by
  unfold getContext
  split
  · decide
  · split <;> decide

private theorem unit_le (intervalInMs : ℚ) : (getContext intervalInMs).unit ≤ 60 := by
  unfold getContext
  split
  · decide
  · split <;> decide

/-- An interval needs no more units than there are, as long as it fits into a day. -/
theorem intervalInUnits_le_unit_iff (intervalInMs : ℚ) :
    intervalInUnits intervalInMs ≤ (getContext intervalInMs).unit ↔
      intervalInMs ≤ hoursInADay * millisecondsInAnHour := by
  have positive : (0 : ℚ) < (getContext intervalInMs).timeUnitDivisor :=
    Nat.cast_pos.mpr (timeUnitDivisor_pos intervalInMs)
  rw [intervalInUnits, Nat.ceil_le, div_le_iff₀ positive]
  by_cases second : intervalInMs < millisecondsInAMinute
  · simp only [getContext, if_pos second, ScheduleUnitContext.second]
    norm_num [millisecondsInAMinute, millisecondsInASecond, secondsInAMinute, hoursInADay,
      millisecondsInAnHour] at second ⊢
    exact iff_of_true second.le (by linarith)
  · by_cases minute : intervalInMs < millisecondsInAnHour
    · simp only [getContext, if_neg second, if_pos minute, ScheduleUnitContext.minute]
      norm_num [millisecondsInAMinute, minutesInAnHour, hoursInADay, millisecondsInAnHour] at minute ⊢
      exact iff_of_true minute.le (by linarith)
    · simp only [getContext, if_neg second, if_neg minute, hour]

end ScheduleUnitContext

namespace Scheduler

variable {scheduler configured : Scheduler} {members : List ClusterMember}

/-- The divisor is the least one of the unit that holds the interval, and its period covers the cluster. -/
structure CoversCluster (members : List ClusterMember) (configured : Scheduler) : Prop where
  normalized : ∃ normalized, configured.normalizedInterval = some normalized ∧
    IsLeast {divisor | divisor ∣ (ScheduleUnitContext.getContext (clusterInterval members)).unit ∧
      ScheduleUnitContext.intervalInUnits (clusterInterval members) ≤ divisor} normalized
  period : clusterInterval members ≤ configured.preciseNormalizedInterval
  distance : 0 ≤ configured.intraClusterDistance

/-- The scheduler with the period that a divisor makes. -/
def withPeriod (scheduler : Scheduler) (total : ℚ) (normalized : ℕ) : Scheduler :=
  { scheduler with
    normalizedInterval := some normalized
    preciseNormalizedInterval := normalized * (ScheduleUnitContext.getContext total).timeUnitDivisor
    intraClusterDistance := (normalized * (ScheduleUnitContext.getContext total).timeUnitDivisor - total) /
      (scheduler.clusterMembers.getD []).length
    interval := some (s!"*/{normalized} " ++ (ScheduleUnitContext.getContext total).cronString) }

theorem setupInterval_eq (total : ℚ) :
    scheduler.setupInterval total (ScheduleUnitContext.getContext total) =
      (closestDivisor callStackFrames (ScheduleUnitContext.intervalInUnits total)
        (ScheduleUnitContext.getContext total).unit).map (scheduler.withPeriod total) := by
  rw [setupInterval, ScheduleUnitContext.intervalInUnits]
  cases closestDivisor callStackFrames ⌈total / (ScheduleUnitContext.getContext total).timeUnitDivisor⌉₊
    (ScheduleUnitContext.getContext total).unit <;> rfl

theorem setupInterval_ok_iff {total : ℚ} :
    scheduler.setupInterval total (ScheduleUnitContext.getContext total) = .ok configured ↔
      ∃ normalized, closestDivisor callStackFrames (ScheduleUnitContext.intervalInUnits total)
          (ScheduleUnitContext.getContext total).unit = .ok normalized ∧
        configured = scheduler.withPeriod total normalized := by
  rw [setupInterval_eq]
  cases closestDivisor callStackFrames (ScheduleUnitContext.intervalInUnits total)
      (ScheduleUnitContext.getContext total).unit with
  | error error => simp [Except.map]
  | ok normalized => simp [Except.map, eq_comm]

theorem exists_setupInterval_iff (scheduler : Scheduler) {total : ℚ} :
    (∃ configured, scheduler.setupInterval total (ScheduleUnitContext.getContext total) = .ok configured) ↔
      total ≤ hoursInADay * millisecondsInAnHour := by
  have unit := ScheduleUnitContext.unit_le total
  have granted : (ScheduleUnitContext.getContext total).unit < callStackFrames :=
    unit.trans_lt (by norm_num [callStackFrames])
  rw [← ScheduleUnitContext.intervalInUnits_le_unit_iff,
    ← closestDivisor_ok_iff (ScheduleUnitContext.unit_pos total) granted]
  constructor
  · rintro ⟨configured, configures⟩
    obtain ⟨normalized, found, -⟩ := setupInterval_ok_iff.mp configures
    exact ⟨normalized, found⟩
  · rintro ⟨normalized, found⟩
    exact ⟨_, setupInterval_ok_iff.mpr ⟨normalized, found, rfl⟩⟩

theorem initInterval_completes_withinDay (present : scheduler.clusterMembers = some members)
    (brief : clusterInterval members ≤ hoursInADay * millisecondsInAnHour) :
    ∃ configured, scheduler.initInterval = .ok configured := by
  obtain ⟨timed, configures⟩ := (exists_setupInterval_iff scheduler).mpr brief
  refine ⟨timed.setupIntraIntervalDistance, ?_⟩
  simp only [initInterval, getIntervalContext, present, configures, bind, Except.bind, pure, Except.pure]

theorem initInterval_completes (present : scheduler.clusterMembers = some members)
    (brief : clusterInterval members < millisecondsInAnHour) :
    ∃ configured, scheduler.initInterval = .ok configured := by
  refine initInterval_completes_withinDay present (brief.le.trans ?_)
  norm_num [hoursInADay, millisecondsInAnHour]

private theorem coversCluster_of_setupInterval (configures : scheduler.setupInterval (clusterInterval members)
      (ScheduleUnitContext.getContext (clusterInterval members)) = .ok configured) :
    CoversCluster members configured := by
  obtain ⟨normalized, found, rfl⟩ := setupInterval_ok_iff.mp configures
  have least := closestDivisor_isLeast (ScheduleUnitContext.unit_pos _) found
  have positive : (0 : ℚ) < (ScheduleUnitContext.getContext (clusterInterval members)).timeUnitDivisor :=
    Nat.cast_pos.mpr (ScheduleUnitContext.timeUnitDivisor_pos _)
  have period : clusterInterval members ≤
      normalized * (ScheduleUnitContext.getContext (clusterInterval members)).timeUnitDivisor :=
    (div_le_iff₀ positive).mp (Nat.ceil_le.mp least.1.2)
  exact ⟨⟨normalized, rfl, least⟩, period, div_nonneg (sub_nonneg.mpr period) (Nat.cast_nonneg _)⟩

/-- The period covers the cluster exactly up to a day, beyond which no divisor is found. -/
theorem setupInterval_covers_iff (present : scheduler.clusterMembers = some members) :
    (∃ context configured, scheduler.getIntervalContext = .ok context ∧
      scheduler.setupInterval context.1 context.2 = .ok configured ∧ CoversCluster members configured) ↔
      clusterInterval members ≤ hoursInADay * millisecondsInAnHour := by
  have context : scheduler.getIntervalContext =
      .ok (clusterInterval members, ScheduleUnitContext.getContext (clusterInterval members)) := by
    rw [getIntervalContext, present]
  rw [← exists_setupInterval_iff scheduler]
  constructor
  · rintro ⟨_, configured, found, configures, -⟩
    obtain rfl := Except.ok.inj (context.symm.trans found)
    exact ⟨configured, configures⟩
  · rintro ⟨configured, configures⟩
    exact ⟨_, configured, context, configures, coversCluster_of_setupInterval configures⟩

/-- The period of every cluster that needs this interval in total; zero if it has none. -/
def periodOf (total : ℚ) : ℕ :=
  match closestDivisor callStackFrames (ScheduleUnitContext.intervalInUnits total)
    (ScheduleUnitContext.getContext total).unit with
  | .ok normalized => normalized * (ScheduleUnitContext.getContext total).timeUnitDivisor
  | .error _ => 0

theorem dvd_periodOf (total : ℚ) : millisecondsInASecond ∣ periodOf total := by
  have unit : millisecondsInASecond ∣ (ScheduleUnitContext.getContext total).timeUnitDivisor := by
    unfold ScheduleUnitContext.getContext
    split
    · decide
    · split <;> decide
  unfold periodOf
  split
  · exact Dvd.dvd.mul_left unit _
  · exact dvd_zero _

theorem Timing.period_eq (timing : scheduler.Timing members configured) :
    configured.preciseNormalizedInterval = periodOf (clusterInterval members) ∧
      0 < periodOf (clusterInterval members) := by
  obtain ⟨normalized, _, found, precise⟩ := timing.divisor
  have least := closestDivisor_isLeast (ScheduleUnitContext.unit_pos _) found
  have period : periodOf (clusterInterval members) = normalized *
      (ScheduleUnitContext.getContext (clusterInterval members)).timeUnitDivisor := by
    rw [periodOf, ScheduleUnitContext.intervalInUnits, found]
  rw [precise, period]
  refine ⟨by push_cast; rfl, Nat.mul_pos ?_ (ScheduleUnitContext.timeUnitDivisor_pos _)⟩
  exact Nat.pos_of_dvd_of_pos least.1.1 (ScheduleUnitContext.unit_pos _)

section OverADay

/-- Twenty-four hours and a millisecond for the replicas of one exchange, after many backoffs. -/
def overADay : Scheduler where
  baseRateLimit := 1000
  rateLimitMargin := 0
  queueSize := 1
  operations := 1
  clusterMembers := some [⟨86400001, .self⟩]

private theorem clusterInterval_overADay : clusterInterval [⟨86400001, .self⟩] = 86400001 := by
  norm_num [clusterInterval]

/-- The stack is exhausted instead. -/
theorem setupInterval_overADay :
    overADay.setupInterval 86400001 (ScheduleUnitContext.getContext 86400001) = .error .maximumCallStack ∧
      ¬ ∃ context configured, overADay.getIntervalContext = .ok context ∧
        overADay.setupInterval context.1 context.2 = .ok configured ∧
          CoversCluster [⟨86400001, .self⟩] configured := by
  have beyond : (ScheduleUnitContext.getContext 86400001).unit < ScheduleUnitContext.intervalInUnits 86400001 := by
    rw [← not_le, ScheduleUnitContext.intervalInUnits_le_unit_iff]
    norm_num [hoursInADay, millisecondsInAnHour]
  have exhausted : overADay.setupInterval 86400001 (ScheduleUnitContext.getContext 86400001) =
      .error .maximumCallStack := by
    rw [setupInterval_eq, closestDivisor_beyond (ScheduleUnitContext.unit_pos _) beyond]
    rfl
  refine ⟨exhausted, ?_⟩
  rintro ⟨context, configured, found, configures, -⟩
  have total : context = (86400001, ScheduleUnitContext.getContext 86400001) := by
    rw [← clusterInterval_overADay]
    exact (Except.ok.inj found).symm
  rw [total, exhausted] at configures
  cases configures

theorem setupInterval_covers_iff_overADay :
    (∃ context configured, overADay.getIntervalContext = .ok context ∧
      overADay.setupInterval context.1 context.2 = .ok configured ∧
        CoversCluster [⟨86400001, .self⟩] configured) ↔
      clusterInterval [⟨86400001, .self⟩] ≤ hoursInADay * millisecondsInAnHour :=
  setupInterval_covers_iff rfl

end OverADay

end Scheduler

end PriceFeed.Schedulers
