import PriceFeed.Library.CronPattern
import PriceFeed.Schedulers.Period

/-! The interval string of a scheduler as a cron pattern, beside the period it stands for. -/

namespace PriceFeed.Schedulers

open PriceFeed.Library

/-- The pattern is valid and fires exactly at the multiples of the period. -/
def DenotesPeriod (text : String) (period : ℚ) : Prop :=
  ∃ pattern, CronPattern.parse text = some pattern ∧ ∀ calendar (time : ℤ),
    pattern.Occurs calendar time ↔ ∃ count : ℤ, (time : ℚ) = count * period

theorem multiple_iff_dvd {unit size : ℕ} {time : ℤ} :
    (∃ count : ℤ, (time : ℚ) = count * (size * unit)) ↔ (unit : ℤ) * size ∣ time := by
  constructor
  · rintro ⟨count, multiple⟩
    refine ⟨count, ?_⟩
    have whole : time = count * (size * unit) := by exact_mod_cast multiple
    rw [whole]
    ring
  · rintro ⟨count, rfl⟩
    refine ⟨count, ?_⟩
    push_cast
    ring

namespace ScheduleUnitContext

/-- Six fields, of which the first is that of the seconds. -/
private theorem denotesPeriod_second {size : ℕ} (divides : size ∣ second.unit) :
    DenotesPeriod (s!"*/{size} " ++ second.cronString) (size * second.timeUnitDivisor) := by
  have positive : size ≠ 0 := (Nat.pos_of_dvd_of_pos divides (by decide)).ne'
  refine ⟨⟨.step size, .every, .every, .every, .every, .every⟩, ?_, fun calendar time => ?_⟩
  · rw [CronPattern.parse_step positive]
    rfl
  · rw [CronPattern.occurs_seconds_iff divides, multiple_iff_dvd]
    rfl

/-- Five fields, of which the first is that of the minutes. -/
private theorem denotesPeriod_minute {size : ℕ} (divides : size ∣ minute.unit) :
    DenotesPeriod (s!"*/{size} " ++ minute.cronString) (size * minute.timeUnitDivisor) := by
  have positive : size ≠ 0 := (Nat.pos_of_dvd_of_pos divides (by decide)).ne'
  refine ⟨⟨.zero, .step size, .every, .every, .every, .every⟩, ?_, fun calendar time => ?_⟩
  · rw [CronPattern.parse_step positive]
    rfl
  · rw [CronPattern.occurs_minutes_iff divides, multiple_iff_dvd]
    rfl

/-- Four fields, which are no pattern. -/
private theorem not_denotesPeriod_hour {size : ℕ} (divides : size ∣ hour.unit) (period : ℚ) :
    ¬ DenotesPeriod (s!"*/{size} " ++ hour.cronString) period := by
  have positive : size ≠ 0 := (Nat.pos_of_dvd_of_pos divides (by decide)).ne'
  rintro ⟨pattern, parsed, -⟩
  rw [CronPattern.parse_step positive] at parsed
  cases parsed

/-- The strings of the seconds and the minutes denote their periods, that of the hours does not. -/
private theorem denotesPeriod_iff {intervalInMs : ℚ} {size : ℕ} (divides : size ∣ (getContext intervalInMs).unit) :
    DenotesPeriod (s!"*/{size} " ++ (getContext intervalInMs).cronString)
        (size * (getContext intervalInMs).timeUnitDivisor) ↔
      intervalInMs < millisecondsInAnHour := by
  unfold getContext at divides ⊢
  split
  · next short =>
    rw [if_pos short] at divides
    refine iff_of_true (denotesPeriod_second divides) (short.trans ?_)
    norm_num [millisecondsInAMinute, millisecondsInAnHour]
  · next long =>
    rw [if_neg long] at divides
    split
    · next short =>
      rw [if_pos short] at divides
      exact iff_of_true (denotesPeriod_minute divides) short
    · next longer =>
      rw [if_neg longer] at divides
      exact iff_of_false (not_denotesPeriod_hour divides _) longer

end ScheduleUnitContext

namespace Scheduler

variable {scheduler : Scheduler} {members : List ClusterMember}

/-- Up to a day there is a period, and below an hour the interval string denotes it. From an
hour on the string has a field too few. -/
theorem interval_denotes_iff (present : scheduler.clusterMembers = some members)
    (day : clusterInterval members ≤ hoursInADay * millisecondsInAnHour) :
    ∃ context configured text, scheduler.getIntervalContext = .ok context ∧
      scheduler.setupInterval context.1 context.2 = .ok configured ∧ configured.interval = some text ∧
      (DenotesPeriod text configured.preciseNormalizedInterval ↔
        clusterInterval members < millisecondsInAnHour) := by
  have context : scheduler.getIntervalContext =
      .ok (clusterInterval members, ScheduleUnitContext.getContext (clusterInterval members)) := by
    rw [getIntervalContext, present]
  obtain ⟨configured, configures⟩ := (exists_setupInterval_iff scheduler).mpr day
  obtain ⟨normalized, found, rfl⟩ := setupInterval_ok_iff.mp configures
  have least := closestDivisor_isLeast (ScheduleUnitContext.unit_pos _) found
  exact ⟨_, _, _, context, configures, rfl, ScheduleUnitContext.denotesPeriod_iff least.1.1⟩

section WholeHour

/-- A cluster that needs an hour. -/
def wholeHour : Scheduler where
  baseRateLimit := 1000
  rateLimitMargin := 0
  queueSize := 1
  operations := 1
  clusterMembers := some [⟨3600000, .self⟩]

private theorem clusterInterval_wholeHour : clusterInterval [⟨3600000, .self⟩] = 3600000 := by
  norm_num [clusterInterval]

/-- One field is missing in the string of the hour. -/
theorem interval_wholeHour : ∃ configured,
    wholeHour.setupInterval 3600000 (ScheduleUnitContext.getContext 3600000) = .ok configured ∧
      configured.interval = some "*/1 * * *" ∧ CronPattern.parse "*/1 * * *" = none ∧
      ¬ DenotesPeriod "*/1 * * *" configured.preciseNormalizedInterval := by
  have context : ScheduleUnitContext.getContext 3600000 = ScheduleUnitContext.hour := by
    norm_num [ScheduleUnitContext.getContext, millisecondsInAMinute, millisecondsInAnHour]
  have units : ScheduleUnitContext.intervalInUnits 3600000 = 1 := by
    rw [ScheduleUnitContext.intervalInUnits, context]
    norm_num [ScheduleUnitContext.hour, millisecondsInAnHour]
  have configures : wholeHour.setupInterval 3600000 (ScheduleUnitContext.getContext 3600000) =
      .ok (wholeHour.withPeriod 3600000 1) := by
    rw [setupInterval_eq, units, context]
    rfl
  have text : (wholeHour.withPeriod 3600000 1).interval = some "*/1 * * *" := by
    rw [withPeriod, context]
    decide
  have invalid : CronPattern.parse "*/1 * * *" = none := by decide +kernel
  refine ⟨_, configures, text, invalid, ?_⟩
  rintro ⟨pattern, parsed, -⟩
  rw [invalid] at parsed
  cases parsed

theorem interval_denotes_iff_wholeHour :
    ∃ context configured text, wholeHour.getIntervalContext = .ok context ∧
      wholeHour.setupInterval context.1 context.2 = .ok configured ∧ configured.interval = some text ∧
      (DenotesPeriod text configured.preciseNormalizedInterval ↔
        clusterInterval [⟨3600000, .self⟩] < millisecondsInAnHour) := by
  refine interval_denotes_iff rfl ?_
  rw [clusterInterval_wholeHour]
  norm_num [hoursInADay, millisecondsInAnHour]

end WholeHour

end Scheduler

end PriceFeed.Schedulers
