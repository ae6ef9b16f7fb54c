import Mathlib.Order.Monotone.Basic
import Mathlib.Tactic.IntervalCases
import PriceFeed.Library.CodeUnits
import PriceFeed.UseCases.DateParse

/-! Timestamps of one precision are ordered as what their clocks show: their numerals stand from
the years down, and each is less than the unit before it. Their offsets come last. -/

namespace PriceFeed.UseCases

open PriceFeed.Library

/-! The calendar. -/

theorem dayFromYear_succ (year : ℤ) :
    dayFromYear (year + 1) = dayFromYear year + if inLeapYear year then 366 else 365 := by
  have leap : inLeapYear year = true ↔ (year % 4 = 0 ∧ year % 100 ≠ 0) ∨ year % 400 = 0 := by
    simp [inLeapYear]
  unfold dayFromYear
  split
  · next held =>
    have := leap.mp held
    omega
  · next held =>
    have := mt leap.mpr held
    omega

private theorem dayFromYear_mono {year other : ℤ} (less : year < other) :
    dayFromYear (year + 1) ≤ dayFromYear other := by
  have monotone : Monotone dayFromYear := by
    refine monotone_int_of_le_succ fun year => ?_
    rw [dayFromYear_succ]
    split <;> omega
  exact monotone less

theorem dayFromMonth_succ (leap : Bool) {month : ℕ} (positive : 1 ≤ month) :
    dayFromMonth leap (month + 1) = dayFromMonth leap month + daysInMonth leap month := by
  obtain ⟨earlier, rfl⟩ := Nat.exists_eq_add_of_le' positive
  simp [dayFromMonth, List.range_succ]

theorem dayFromMonth_mono (leap : Bool) : Monotone (dayFromMonth leap) := by
  refine monotone_nat_of_le_succ fun month => ?_
  rcases Nat.eq_zero_or_pos month with rfl | positive
  · exact Nat.le_refl _
  · rw [dayFromMonth_succ leap positive]
    exact Nat.le_add_right _ _

private theorem dayFromMonth_thirteen (leap : Bool) : dayFromMonth leap 13 = if leap then 366 else 365 := by
  cases leap <;> decide

/-- A day of the calendar. -/
structure ExistingDay (year : ℤ) (month day : ℕ) : Prop where
  months : 1 ≤ month ∧ month ≤ 12
  days : 1 ≤ day ∧ day ≤ daysInMonth (inLeapYear year) month

section Days

variable {year other : ℤ} {month later day last : ℕ}

theorem makeDay_lt_of_month (exist : ExistingDay year month day) (follows : ExistingDay year later last)
    (less : month < later) : makeDay year month day < makeDay year later last := by
  have next := dayFromMonth_mono (inLeapYear year) less
  rw [dayFromMonth_succ _ exist.months.1] at next
  have := exist.days
  have := follows.days
  unfold makeDay
  omega

theorem makeDay_lt_of_year (exist : ExistingDay year month day) (follows : ExistingDay other later last)
    (less : year < other) : makeDay year month day < makeDay other later last := by
  have next := dayFromYear_mono less
  have length : (dayFromMonth (inLeapYear year) 13 : ℤ) = if inLeapYear year then 366 else 365 := by
    rw [dayFromMonth_thirteen]
    split <;> rfl
  rw [dayFromYear_succ, ← length] at next
  have within : dayFromMonth (inLeapYear year) (month + 1) ≤ dayFromMonth (inLeapYear year) 13 :=
    dayFromMonth_mono _ (Nat.succ_le_succ exist.months.2)
  rw [dayFromMonth_succ _ exist.months.1] at within
  have := exist.days
  have := follows.days
  unfold makeDay
  omega

/-- Days are ordered by year, month and day of the month. -/
private theorem cmp_makeDay (exist : ExistingDay year month day) (follows : ExistingDay other later last) :
    cmp (makeDay year month day) (makeDay other later last) =
      (cmp year other).then ((cmp month later).then (cmp day last)) := by
  refine cmp_eq_then (makeDay_lt_of_year exist follows) (makeDay_lt_of_year follows exist) ?_
  rintro rfl
  refine cmp_eq_then (makeDay_lt_of_month exist follows) (makeDay_lt_of_month follows exist) ?_
  rintro rfl
  unfold makeDay
  rw [cmp_add_left, sub_eq_add_neg, sub_eq_add_neg, cmp_add_right]
  exact Nat.strictMono_cast.cmp_map_eq _ _

end Days

private theorem cmp_makeTime {hour minute second millisecond hours minutes seconds milliseconds : ℕ}
    (minuteBound : minute < 60 ∧ minutes < 60) (secondBound : second < 60 ∧ seconds < 60)
    (millisecondBound : millisecond < 1000 ∧ milliseconds < 1000) :
    cmp (makeTime hour minute second millisecond) (makeTime hours minutes seconds milliseconds) =
      (cmp hour hours).then ((cmp minute minutes).then
        ((cmp second seconds).then (cmp millisecond milliseconds))) := by
  unfold makeTime
  refine cmp_eq_then (by omega) (by omega) ?_
  rintro rfl
  refine cmp_eq_then (by omega) (by omega) ?_
  rintro rfl
  refine cmp_eq_then (by omega) (by omega) ?_
  rintro rfl
  rw [cmp_add_left]
  exact Nat.strictMono_cast.cmp_map_eq _ _

private theorem cmp_makeDate {day last time later : ℤ} (within : 0 ≤ time ∧ time < 86400000)
    (other : 0 ≤ later ∧ later < 86400000) :
    cmp (makeDate day time) (makeDate last later) = (cmp day last).then (cmp time later) := by
  unfold makeDate
  refine cmp_eq_then (by omega) (by omega) ?_
  rintro rfl
  exact cmp_add_left _ _ _

theorem makeTime_within {hour minute second millisecond : ℕ} (hours : hour < 24) (minutes : minute < 60)
    (seconds : second < 60) (milliseconds : millisecond < 1000) :
    0 ≤ makeTime hour minute second millisecond ∧ makeTime hour minute second millisecond < 86400000 := by
  unfold makeTime
  omega

namespace Fraction

theorem millisecond_lt {fraction : Fraction} (fits : fraction.number < 10 ^ fraction.width) :
    fraction.millisecond < 1000 := by
  rw [millisecond, Nat.div_lt_iff_lt_mul (by positivity), mul_comm]
  exact Nat.mul_lt_mul_of_pos_left fits (by norm_num)

theorem millisecond_of_le {fraction : Fraction} (short : fraction.width ≤ 3) :
    fraction.millisecond = fraction.number * 10 ^ (3 - fraction.width) := by
  have thousand : 1000 = 10 ^ (3 - fraction.width) * 10 ^ fraction.width := by
    rw [← pow_add, Nat.sub_add_cancel short]
    rfl
  rw [millisecond, thousand, ← mul_assoc, Nat.mul_div_cancel _ (by positivity)]

private theorem cmp_millisecond {first second : Fraction} (same : first.width = second.width)
    (short : first.width ≤ 3) :
    cmp first.millisecond second.millisecond = cmp first.number second.number := by
  rw [millisecond_of_le short, millisecond_of_le (same ▸ short), same]
  have scaled : StrictMono (· * 10 ^ (3 - second.width)) := fun _ _ less =>
    Nat.mul_lt_mul_of_pos_right less (by positivity)
  exact scaled.cmp_map_eq _ _

end Fraction

/-! The texts. -/

private theorem writeNumeral_plain (width number : ℕ) : Plain (writeNumeral width number) := by
  induction width generalizing number with
  | zero => exact Plain.nil
  | succ width ih =>
    refine Plain.cons ?_ (ih _)
    generalize number / 10 ^ width = digit
    rcases lt_or_ge digit 16 with small | large
    · interval_cases digit <;> decide
    · rw [Nat.digitChar_eq_star.mpr large]
      decide

private theorem writePart_plain {mark : Char} (small : mark.toNat < 0x10000) (width : ℕ) (part : Option ℕ) :
    Plain (writePart mark width part) := by
  cases part with
  | none => exact Plain.nil
  | some number => exact Plain.cons small (writeNumeral_plain width number)

private theorem TimeOfDay.text_plain (time : TimeOfDay) : Plain time.text := by
  have fraction : Plain (writeFraction time.fraction) := by
    cases time.fraction with
    | none => exact Plain.nil
    | some digits => exact Plain.cons (by decide) (writeNumeral_plain _ _)
  have zone : Plain time.zone.text := by
    cases time.zone with
    | localTime => exact Plain.nil
    | utc => exact Plain.cons (by decide) Plain.nil
    | offset negative hours minutes =>
      refine Plain.cons (by cases negative <;> decide) ((writeNumeral_plain _ _).append ?_)
      exact Plain.cons (by decide) (writeNumeral_plain _ _)
  refine Plain.cons (by decide) ((writeNumeral_plain _ _).append (Plain.cons (by decide) ?_))
  exact (writeNumeral_plain _ _).append ((writePart_plain (by decide) _ _).append (fraction.append zone))

theorem DateTime.text_plain (date : DateTime) : Plain date.text := by
  have sign : Plain date.sign.text := by
    cases date.sign with
    | unsigned => exact Plain.nil
    | plus => exact Plain.cons (by decide) Plain.nil
    | minus => exact Plain.cons (by decide) Plain.nil
  have time : Plain ((date.time.map TimeOfDay.text).getD []) := by
    cases date.time with
    | none => exact Plain.nil
    | some time => exact time.text_plain
  exact sign.append ((writeNumeral_plain _ _).append
    ((writePart_plain (by decide) _ _).append ((writePart_plain (by decide) _ _).append time)))

theorem cmp_writePart_append {mark : Char} {width : ℕ} {first second : Option ℕ}
    (same : first.isSome = second.isSome) (small : ∀ number ∈ first, number < 10 ^ width)
    (other : ∀ number ∈ second, number < 10 ^ width) (missing : ℕ) (left right : List Char) :
    cmp (writePart mark width first ++ left) (writePart mark width second ++ right) =
      (cmp (first.getD missing) (second.getD missing)).then (cmp left right) := by
  match first, second, same with
  | none, none, _ =>
    rw [Option.getD_none, cmp_self_eq_eq]
    rfl
  | some number, some counterpart, _ =>
    have numerals := cmp_writeNumeral_append (small number rfl) (other counterpart rfl) left right
    rw [writePart, writePart, List.cons_append, List.cons_append, cmp_cons, cmp_self_eq_eq, numerals]
    rfl

private theorem cmp_writeFraction_append {first second : Option Fraction}
    (same : first.map Fraction.width = second.map Fraction.width)
    (small : ∀ fraction ∈ first, fraction.number < 10 ^ fraction.width)
    (other : ∀ fraction ∈ second, fraction.number < 10 ^ fraction.width)
    (short : ∀ fraction ∈ first, fraction.width ≤ 3) (left right : List Char) :
    cmp (writeFraction first ++ left) (writeFraction second ++ right) =
      (cmp ((first.map Fraction.millisecond).getD 0) ((second.map Fraction.millisecond).getD 0)).then
        (cmp left right) := by
  match first, second with
  | none, none =>
    rw [cmp_self_eq_eq]
    rfl
  | some fraction, some counterpart =>
    have width : fraction.width = counterpart.width := Option.some.inj same
    have below := other counterpart rfl
    rw [← width] at below
    have numerals := cmp_writeNumeral_append (small fraction rfl) below left right
    rw [writeFraction, writeFraction, List.cons_append, List.cons_append, cmp_cons, cmp_self_eq_eq,
      Option.map_some, Option.map_some, Option.getD_some, Option.getD_some, Fraction.cmp_millisecond width (short fraction rfl), ← width, numerals]
    rfl
  | none, some _ => cases same
  | some _, none => cases same

/-- The time with its numerals and its offset blanked. -/
def TimeOfDay.precision (time : TimeOfDay) : TimeOfDay where
  hour := 0
  minute := 0
  second := time.second.map fun _ => 0
  fraction := time.fraction.map fun fraction => ⟨fraction.width, 0⟩
  zone := .utc

/-- What timestamps have in common that are spelled with the same sign and the same parts. -/
def DateTime.precision (date : DateTime) : DateTime :=
  { date with
    year := 0
    month := date.month.map fun _ => 0
    day := date.day.map fun _ => 0
    time := date.time.map TimeOfDay.precision }

/-- No later day or longer unit is spelled through an earlier or shorter one. -/
structure TimeOfDay.Regular (time : TimeOfDay) : Prop where
  hour : time.hour < 24
  fraction : ∀ fraction ∈ time.fraction, fraction.width ≤ 3

structure DateTime.Regular (date : DateTime) : Prop where
  year : date.sign ≠ .minus
  day : ExistingDay date.yearNumber (date.month.getD 1) (date.day.getD 1)
  time : ∀ time ∈ date.time, time.Regular

def DateTime.dayNumber (date : DateTime) : ℤ :=
  makeDay date.yearNumber (date.month.getD 1) (date.day.getD 1)

/-- The spelling of the offset, which comes last. -/
def DateTime.zoneText (date : DateTime) : List Char := (date.time.map fun time => time.zone.text).getD []

theorem isSome_eq_of_blank {first second : Option ℕ}
    (same : (first.map fun _ => 0) = second.map fun _ => 0) : first.isSome = second.isSome := by
  have blank := congrArg Option.isSome same
  rwa [Option.isSome_map, Option.isSome_map] at blank

namespace TimeOfDay

variable {first second : TimeOfDay}

theorem second_lt (valid : first.Valid) : first.second.getD 0 < 60 := by
  cases stated : first.second with
  | none => decide
  | some seconds => exact valid.second seconds stated

theorem millisecond_lt
    (fits : ∀ fraction ∈ first.fraction, fraction.number < 10 ^ fraction.width) :
    (first.fraction.map Fraction.millisecond).getD 0 < 1000 := by
  cases stated : first.fraction with
  | none => decide
  | some fraction => exact Fraction.millisecond_lt (fits fraction stated)

private theorem milliseconds_within (valid : first.Valid) (regular : first.Regular)
    (fits : ∀ fraction ∈ first.fraction, fraction.number < 10 ^ fraction.width) :
    0 ≤ first.milliseconds ∧ first.milliseconds < 86400000 :=
  makeTime_within regular.hour valid.minute (second_lt valid) (millisecond_lt fits)

/-- The end of a day is its last time. -/
private theorem milliseconds_le (valid : first.Valid)
    (fits : ∀ fraction ∈ first.fraction, fraction.number < 10 ^ fraction.width) :
    0 ≤ first.milliseconds ∧ first.milliseconds ≤ 86400000 := by
  rcases valid.hour with early | ⟨hour, minute, second, fraction⟩
  · have within := makeTime_within early valid.minute (second_lt valid) (millisecond_lt fits)
    exact ⟨within.1, within.2.le⟩
  · have none : (first.fraction.map Fraction.millisecond).getD 0 = 0 := by
      cases stated : first.fraction with
      | none => rfl
      | some digits =>
        have zero : digits.number = 0 := by simpa [stated] using fraction
        simp [Fraction.millisecond, zero]
    rw [milliseconds, hour, minute, second, none]
    decide

theorem cmp_text (same : first.precision = second.precision) (valid : first.Valid) (other : second.Valid)
    (regular : first.Regular) (regularOther : second.Regular)
    (fits : ∀ fraction ∈ first.fraction, fraction.number < 10 ^ fraction.width)
    (fitsOther : ∀ fraction ∈ second.fraction, fraction.number < 10 ^ fraction.width) :
    cmp first.text second.text =
      (cmp first.milliseconds second.milliseconds).then (cmp first.zone.text second.zone.text) := by
  have seconds : first.second.isSome = second.second.isSome :=
    isSome_eq_of_blank (congrArg TimeOfDay.second same)
  have widths : first.fraction.map Fraction.width = second.fraction.map Fraction.width := by
    have blank := congrArg (fun time => time.fraction.map Fraction.width) same
    simpa [precision, Function.comp_def] using blank
  have hours : first.hour < 10 ^ 2 ∧ second.hour < 10 ^ 2 :=
    ⟨regular.hour.trans (by decide), regularOther.hour.trans (by decide)⟩
  have minutes : first.minute < 10 ^ 2 ∧ second.minute < 10 ^ 2 :=
    ⟨valid.minute.trans (by decide), other.minute.trans (by decide)⟩
  have small : ∀ number ∈ first.second, number < 10 ^ 2 := fun number stated =>
    (valid.second number stated).trans (by decide)
  have smallOther : ∀ number ∈ second.second, number < 10 ^ 2 := fun number stated =>
    (other.second number stated).trans (by decide)
  unfold text milliseconds
  rw [cmp_makeTime ⟨valid.minute, other.minute⟩ ⟨second_lt valid, second_lt other⟩
      ⟨millisecond_lt fits, millisecond_lt fitsOther⟩,
    cmp_cons, cmp_self_eq_eq, cmp_writeNumeral_append hours.1 hours.2, cmp_cons, cmp_self_eq_eq,
    cmp_writeNumeral_append minutes.1 minutes.2, cmp_writePart_append seconds small smallOther 0,
    cmp_writeFraction_append widths fits fitsOther regular.fraction, Ordering.then_assoc, Ordering.then_assoc, Ordering.then_assoc]
  rfl

end TimeOfDay

namespace DateTime

variable {first second : DateTime}

private theorem cmp_clock (valid : first.Valid) (other : second.Valid) (regular : first.Regular)
    (regularOther : second.Regular) (fits : first.Fits) (fitsOther : second.Fits) :
    cmp first.clock second.clock = (cmp first.dayNumber second.dayNumber).then
      (cmp ((first.time.map TimeOfDay.milliseconds).getD 0)
        ((second.time.map TimeOfDay.milliseconds).getD 0)) := by
  have within : ∀ {date : DateTime}, date.Valid → date.Regular → date.Fits →
      0 ≤ (date.time.map TimeOfDay.milliseconds).getD 0 ∧
        (date.time.map TimeOfDay.milliseconds).getD 0 < 86400000 := by
    intro date valid regular fits
    cases stated : date.time with
    | none => decide
    | some time =>
      exact time.milliseconds_within (valid.time time stated) (regular.time time stated)
        (fits.fraction time stated)
  exact cmp_makeDate (within valid regular fits) (within other regularOther fitsOther)

theorem yearNumber_of_ne {date : DateTime} (later : date.sign ≠ .minus) : date.yearNumber = date.year := by
  unfold yearNumber
  cases stated : date.sign with
  | minus => exact absurd stated later
  | _ => rfl

private theorem cmp_time (same : first.precision = second.precision) (valid : first.Valid) (other : second.Valid)
    (regular : first.Regular) (regularOther : second.Regular)
    (fits : first.Fits) (fitsOther : second.Fits) :
    cmp ((first.time.map TimeOfDay.text).getD []) ((second.time.map TimeOfDay.text).getD []) =
      (cmp ((first.time.map TimeOfDay.milliseconds).getD 0)
        ((second.time.map TimeOfDay.milliseconds).getD 0)).then (cmp first.zoneText second.zoneText) := by
  have parts : first.time.map TimeOfDay.precision = second.time.map TimeOfDay.precision :=
    congrArg DateTime.time same
  unfold zoneText
  cases stated : first.time with
  | none =>
    cases counterpart : second.time with
    | none => rfl
    | some later =>
      rw [stated, counterpart] at parts
      cases parts
  | some time =>
    cases counterpart : second.time with
    | none =>
      rw [stated, counterpart] at parts
      cases parts
    | some later =>
      rw [stated, counterpart] at parts
      exact TimeOfDay.cmp_text (Option.some.inj parts) (valid.time time stated)
        (other.time later counterpart) (regular.time time stated) (regularOther.time later counterpart)
        (fits.fraction time stated) (fitsOther.fraction later counterpart)

theorem month_lt {date : DateTime} (valid : date.Valid) : ∀ month ∈ date.month, month < 10 ^ 2 :=
  fun month stated => (Nat.lt_succ_of_le (valid.month month stated).2).trans (by decide)

theorem day_lt {date : DateTime} (valid : date.Valid) : ∀ day ∈ date.day, day < 10 ^ 2 :=
  fun day stated => (Nat.lt_succ_of_le (valid.day day stated).2).trans (by decide)

/-- Texts with the same parts of a date are compared by their days first. -/
theorem cmp_text_day (signs : first.sign = second.sign) (later : first.sign ≠ .minus)
    (months : first.month.isSome = second.month.isSome) (days : first.day.isSome = second.day.isSome)
    (valid : first.Valid) (other : second.Valid)
    (exists_ : ExistingDay first.yearNumber (first.month.getD 1) (first.day.getD 1))
    (existsOther : ExistingDay second.yearNumber (second.month.getD 1) (second.day.getD 1))
    (fits : first.Fits) (fitsOther : second.Fits) :
    cmp first.text second.text = (cmp first.dayNumber second.dayNumber).then
      (cmp ((first.time.map TimeOfDay.text).getD []) ((second.time.map TimeOfDay.text).getD [])) := by
  have years : cmp (first.year : ℤ) second.year = cmp first.year second.year :=
    Nat.strictMono_cast.cmp_map_eq _ _
  have below := fits.year
  rw [signs] at below
  unfold text dayNumber
  rw [cmp_makeDay exists_ existsOther, yearNumber_of_ne later, yearNumber_of_ne (signs ▸ later), years, signs,
    cmp_append_left, cmp_writeNumeral_append below fitsOther.year,
    cmp_writePart_append months (month_lt valid) (month_lt other) 1,
    cmp_writePart_append days (day_lt valid) (day_lt other) 1, Ordering.then_assoc, Ordering.then_assoc]

/-- Texts of one precision are compared as what their clocks show, and then by their offsets. -/
theorem cmp_text (same : first.precision = second.precision) (valid : first.Valid) (other : second.Valid)
    (regular : first.Regular) (regularOther : second.Regular) (fits : first.Fits) (fitsOther : second.Fits) :
    cmp first.text second.text =
      (cmp first.clock second.clock).then (cmp first.zoneText second.zoneText) := by
  have signs : first.precision.sign = second.precision.sign := congrArg DateTime.sign same
  change first.sign = second.sign at signs
  have months : first.month.isSome = second.month.isSome :=
    isSome_eq_of_blank (congrArg DateTime.month same)
  have days : first.day.isSome = second.day.isSome := isSome_eq_of_blank (congrArg DateTime.day same)
  rw [cmp_text_day signs regular.year months days valid other regular.day regularOther.day fits fitsOther,
    cmp_clock valid other regular regularOther fits fitsOther,
    cmp_time same valid other regular regularOther fits fitsOther, Ordering.then_assoc]

/-- The later text of one precision is that of the later clock, or of the same clock under the
greater spelling of an offset. -/
theorem text_lt_iff (same : first.precision = second.precision) (valid : first.Valid) (other : second.Valid)
    (regular : first.Regular) (regularOther : second.Regular) (fits : first.Fits) (fitsOther : second.Fits) :
    first.text < second.text ↔
      first.clock < second.clock ∨ first.clock = second.clock ∧ first.zoneText < second.zoneText := by
  rw [← cmp_eq_lt, cmp_text same valid other regular regularOther fits fitsOther, Ordering.then_eq_lt, cmp_eq_lt,
    cmp_eq_eq_iff, cmp_eq_lt]

/-- A day of the calendar is spelled, in a year that is not negative. -/
structure FullDate (date : DateTime) : Prop where
  year : date.sign ≠ .minus
  month : date.month.isSome
  day : date.day.isSome
  exists_ : ExistingDay date.yearNumber (date.month.getD 1) (date.day.getD 1)

theorem text_lt_of_days (signs : first.sign = second.sign) (full : first.FullDate) (fullOther : second.FullDate)
    (valid : first.Valid) (other : second.Valid) (fits : first.Fits) (fitsOther : second.Fits)
    (earlier : first.dayNumber < second.dayNumber) : first.text < second.text := by
  have compared := cmp_text_day signs full.year (full.month.trans fullOther.month.symm)
    (full.day.trans fullOther.day.symm) valid other full.exists_ fullOther.exists_ fits fitsOther
  rw [← cmp_eq_lt, compared, earlier.cmp_eq_lt]
  rfl

theorem abs_toUTC_sub_lt {zone : Zone} {localTime : ℤ → ℤ} (valid : zone.Valid)
    (near : ∀ time, |localTime time - time| < 86400000) (time : ℤ) :
    |zone.toUTC localTime time - time| < 86400000 := by
  cases zone with
  | localTime => exact near time
  | utc => simp [Zone.toUTC]
  | offset negative hours minutes =>
    obtain ⟨small, short⟩ := valid
    rw [abs_lt, Zone.toUTC, makeTime]
    split <;> omega

theorem clock_within {date : DateTime} (valid : date.Valid) (fits : date.Fits) :
    date.dayNumber * 86400000 ≤ date.clock ∧ date.clock ≤ date.dayNumber * 86400000 + 86400000 := by
  have within : 0 ≤ (date.time.map TimeOfDay.milliseconds).getD 0 ∧
      (date.time.map TimeOfDay.milliseconds).getD 0 ≤ 86400000 := by
    cases stated : date.time with
    | none => decide
    | some time => exact time.milliseconds_le (valid.time time stated) (fits.fraction time stated)
  rw [clock, makeDate, ← dayNumber]
  omega

theorem zone_valid {date : DateTime} (valid : date.Valid) : date.zone.Valid := by
  unfold zone
  cases stated : date.time with
  | none => trivial
  | some time => exact (valid.time time stated).zone

/-- An instant is less than a day off what the clock shows, which is within the day. -/
theorem instant_lt_of_days {localTime : ℤ → ℤ} (near : ∀ time, |localTime time - time| < 86400000)
    (valid : first.Valid) (other : second.Valid) (fits : first.Fits) (fitsOther : second.Fits)
    (earlier : first.dayNumber + 3 ≤ second.dayNumber) :
    first.zone.toUTC localTime first.clock < second.zone.toUTC localTime second.clock := by
  have here := abs_lt.mp (abs_toUTC_sub_lt (zone_valid valid) near first.clock)
  have there := abs_lt.mp (abs_toUTC_sub_lt (zone_valid other) near second.clock)
  have clock := clock_within valid fits
  have clockOther := clock_within other fitsOther
  omega

end DateTime

theorem dateParse_of_spelled {engine : DateEngine} {text : List Char} {date : DateTime} {instant : ℤ}
    (spelled : date.Spelled text) (parsed : dateParse engine text = some instant) :
    instant = date.zone.toUTC engine.localTime date.clock := by
  simp only [dateParse, spelled.1, if_pos spelled.2, DateTime.instant, timeClip] at parsed
  split at parsed
  · exact (Option.some.inj parsed).symm
  · cases parsed

end PriceFeed.UseCases
