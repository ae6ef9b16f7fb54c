import PriceFeed.Library.Number
import PriceFeed.UseCases.TimestampOrder

/-! The validators of a date range. `iso_timestamp` accepts what `Date.parse` reads, and
`date_compare` checks two accepted timestamps against each other and a limit. -/

namespace PriceFeed.UseCases

open PriceFeed.Library

variable (engine : DateEngine)

def isValidISOTimestamp (timestamp : List Char) : Bool := (dateParse engine timestamp).isSome

/-- The error of a value. An empty one is left to other validators. -/
def isoTimestamp (value : List Char) : Option String :=
  if value = [] then none
  else if !isValidISOTimestamp engine value then some "INVALID_ISO_DATE_OR_TIMESTAMP"
  else if (dateParse engine value).isNone then some ("WRONG_DATE " ++ String.ofList value)
  else none

/-- The texts are compared by their code units, their difference is one of instants. -/
def dateCompare (differenceLimit : Number) (rangeDateStart rangeDateEnd : Option (List Char)) :
    Option String :=
  match rangeDateStart, rangeDateEnd with
  | some start, some finish =>
    match dateParse engine start, dateParse engine finish with
    | some opens, some closes =>
      if codeUnits finish < codeUnits start then some "START_DATE_GREATER_THAN_END_DATE"
      else if differenceLimit.Below (closes - opens) then some "TOO_BIG_DATE_RANGE"
      else none
    | _, _ => none
  | _, _ => none

private theorem isoTimestamp_eq_none_iff {value : List Char} (written : value ≠ []) :
    isoTimestamp engine value = none ↔ (dateParse engine value).isSome := by
  unfold isoTimestamp isValidISOTimestamp
  rw [if_neg written]
  cases dateParse engine value <;> simp

/-- A timestamp that `iso_timestamp` accepts. -/
structure IsoTimestamp where
  text : List Char
  written : text ≠ []
  accepted : isoTimestamp engine text = none

namespace IsoTimestamp

variable {engine} (timestamp : IsoTimestamp engine)

theorem parses : (dateParse engine timestamp.text).isSome :=
  (isoTimestamp_eq_none_iff engine timestamp.written).mp timestamp.accepted

def instant : ℤ := (dateParse engine timestamp.text).get timestamp.parses

theorem parsed : dateParse engine timestamp.text = some timestamp.instant :=
  (Option.some_get timestamp.parses).symm

variable {timestamp}

theorem instant_eq {date : DateTime} (spelled : date.Spelled timestamp.text) :
    timestamp.instant = date.zone.toUTC engine.localTime date.clock :=
  dateParse_of_spelled spelled timestamp.parsed

end IsoTimestamp

variable {engine}

/-- The range starts no later than it ends, and its length does not exceed the limit. -/
def InLimit (differenceLimit : Number) (start finish : IsoTimestamp engine) : Prop :=
  start.instant ≤ finish.instant ∧ ¬ differenceLimit.Below (finish.instant - start.instant)

/-- `date_compare` accepts just the ranges within the limit. -/
def ComparesInstants (differenceLimit : Number) (start finish : IsoTimestamp engine) : Prop :=
  dateCompare engine differenceLimit start.text finish.text = none ↔ InLimit differenceLimit start finish

variable {differenceLimit : Number} {start finish : IsoTimestamp engine}

theorem dateCompare_eq_none_iff_not_lt : dateCompare engine differenceLimit start.text finish.text = none ↔
    ¬ codeUnits finish.text < codeUnits start.text ∧ ¬ differenceLimit.Below (finish.instant - start.instant) := by
  simp only [dateCompare, start.parsed, finish.parsed]
  split_ifs with later long
  · simp [later]
  · simp [long]
  · simp [later, long]

theorem comparesInstants_of_long (long : differenceLimit.Below (finish.instant - start.instant)) :
    ComparesInstants differenceLimit start finish := by
  rw [ComparesInstants, dateCompare_eq_none_iff_not_lt, InLimit]
  exact iff_of_false (fun held => held.2 long) fun held => held.2 long

/-- A range that is not too long is checked as its texts are ordered. -/
theorem comparesInstants_iff : ComparesInstants differenceLimit start finish ↔
    differenceLimit.Below (finish.instant - start.instant) ∨
      (codeUnits finish.text < codeUnits start.text ↔ finish.instant < start.instant) := by
  by_cases long : differenceLimit.Below (finish.instant - start.instant)
  · exact iff_of_true (comparesInstants_of_long long) (.inl long)
  · rw [or_iff_right long, ComparesInstants, dateCompare_eq_none_iff_not_lt, InLimit, and_iff_left long,
      and_iff_left long, ← not_lt]
    exact not_iff_not

/-- How far the clock of a timestamp is ahead of UTC. -/
def DateTime.offset (engine : DateEngine) (date : DateTime) : ℤ :=
  date.clock - date.zone.toUTC engine.localTime date.clock

variable (engine) in
/-- The offsets do not turn round the order of the clocks. Where these show the same, the texts of
the offsets come in the opposite order. -/
structure KeepsOrder (opens closes : DateTime) : Prop where
  ahead : opens.clock < closes.clock →
    closes.offset engine - opens.offset engine ≤ closes.clock - opens.clock
  behind : closes.clock < opens.clock →
    opens.offset engine - closes.offset engine < opens.clock - closes.clock
  same : opens.clock = closes.clock →
    (closes.zoneText < opens.zoneText ↔ opens.offset engine < closes.offset engine)

section Spelled

variable {opens closes : DateTime}

theorem DateTime.offset_eq_of_zone (same : opens.zone = closes.zone) (known : opens.zone ≠ .localTime) :
    opens.offset engine = closes.offset engine := by
  unfold DateTime.offset
  rw [← same]
  cases stated : opens.zone with
  | localTime => exact absurd stated known
  | utc => simp [Zone.toUTC]
  | offset negative hours minutes => cases negative <;> simp [Zone.toUTC]

private theorem DateTime.zoneText_eq_of_zone (precision : opens.precision = closes.precision)
    (same : opens.zone = closes.zone) : opens.zoneText = closes.zoneText := by
  have parts : opens.time.map TimeOfDay.precision = closes.time.map TimeOfDay.precision :=
    congrArg DateTime.time precision
  unfold DateTime.zoneText
  unfold DateTime.zone at same
  cases stated : opens.time <;> cases counterpart : closes.time <;> simp_all

/-- One offset keeps the order of any two clocks. -/
private theorem keepsOrder_of_zone (precision : opens.precision = closes.precision) (same : opens.zone = closes.zone)
    (known : opens.zone ≠ .localTime) : KeepsOrder engine opens closes where
  ahead later := by
    rw [DateTime.offset_eq_of_zone same known]
    omega
  behind earlier := by
    rw [DateTime.offset_eq_of_zone same known]
    omega
  same _ := by
    rw [DateTime.offset_eq_of_zone same known, DateTime.zoneText_eq_of_zone precision same]
    exact iff_of_false (lt_irrefl _) (lt_irrefl _)

private theorem texts_ordered_iff (opened : opens.Spelled start.text) (closed : closes.Spelled finish.text)
    (precision : opens.precision = closes.precision) (regular : opens.Regular) (regularEnd : closes.Regular) :
    (codeUnits finish.text < codeUnits start.text ↔ finish.instant < start.instant) ↔
      KeepsOrder engine opens closes := by
  obtain ⟨fits, written⟩ := readDateTime_sound opened.1
  obtain ⟨fitsEnd, writtenEnd⟩ := readDateTime_sound closed.1
  have texts := DateTime.text_lt_iff precision.symm closed.2 opened.2 regularEnd regular fitsEnd fits
  have opening : start.instant = opens.clock - opens.offset engine := by
    rw [IsoTimestamp.instant_eq opened, DateTime.offset, sub_sub_cancel]
  have closing : finish.instant = closes.clock - closes.offset engine := by
    rw [IsoTimestamp.instant_eq closed, DateTime.offset, sub_sub_cancel]
  rw [written, writtenEnd, closes.text_plain.codeUnits_lt_iff opens.text_plain, texts, opening, closing]
  constructor
  · intro ordered
    refine ⟨fun ahead => ?_, fun behind => ?_, fun same => ?_⟩
    · by_contra turned
      have later : closes.clock - closes.offset engine < opens.clock - opens.offset engine := by omega
      rcases ordered.mpr later with less | ⟨equal, -⟩ <;> omega
    · have earlier := ordered.mp (.inl behind)
      omega
    · rw [same] at ordered
      simp only [lt_self_iff_false, true_and, false_or] at ordered
      rw [ordered]
      omega
  · intro keeps
    rcases lt_trichotomy opens.clock closes.clock with ahead | same | behind
    · have bound := keeps.ahead ahead
      constructor <;> intro held <;> omega
    · rw [same]
      simp only [lt_self_iff_false, true_and, false_or]
      rw [keeps.same same]
      omega
    · have bound := keeps.behind behind
      exact iff_of_true (.inl behind) (by omega)

/-- Three days are more than two offsets and a day can make up for. -/
private theorem texts_ordered_of_days (opened : opens.Spelled start.text) (closed : closes.Spelled finish.text)
    (signs : opens.sign = closes.sign) (full : opens.FullDate) (fullEnd : closes.FullDate)
    (near : ∀ time, |engine.localTime time - time| < 86400000)
    (apart : opens.dayNumber + 3 ≤ closes.dayNumber ∨ closes.dayNumber + 3 ≤ opens.dayNumber) :
    codeUnits finish.text < codeUnits start.text ↔ finish.instant < start.instant := by
  obtain ⟨fits, written⟩ := readDateTime_sound opened.1
  obtain ⟨fitsEnd, writtenEnd⟩ := readDateTime_sound closed.1
  rw [written, writtenEnd, closes.text_plain.codeUnits_lt_iff opens.text_plain,
    IsoTimestamp.instant_eq opened, IsoTimestamp.instant_eq closed]
  rcases apart with later | earlier
  · have texts := DateTime.text_lt_of_days signs full fullEnd opened.2 closed.2 fits fitsEnd (by omega)
    have instants := DateTime.instant_lt_of_days near opened.2 closed.2 fits fitsEnd later
    exact iff_of_false texts.not_gt instants.not_gt
  · have texts := DateTime.text_lt_of_days signs.symm fullEnd full closed.2 opened.2 fitsEnd fits (by omega)
    have instants := DateTime.instant_lt_of_days near closed.2 opened.2 fitsEnd fits earlier
    exact iff_of_true texts instants

end Spelled

/-- `date_compare` compares instants when the range is too long anyway. Of timestamps with the same
parts, in days of the calendar, it does exactly when the offsets keep the order of the clocks, and it
does whatever follows the dates when these are three days apart. -/
theorem dateCompare_instants_iff (differenceLimit : Number) (start finish : IsoTimestamp engine) :
    (differenceLimit.Below (finish.instant - start.instant) → ComparesInstants differenceLimit start finish) ∧
    ∀ opens closes : DateTime, opens.Spelled start.text → closes.Spelled finish.text →
      (opens.precision = closes.precision → opens.Regular → closes.Regular →
        (ComparesInstants differenceLimit start finish ↔
          differenceLimit.Below (finish.instant - start.instant) ∨ KeepsOrder engine opens closes)) ∧
      (opens.sign = closes.sign → opens.FullDate → closes.FullDate →
        (∀ time, |engine.localTime time - time| < 86400000) →
        (opens.dayNumber + 3 ≤ closes.dayNumber ∨ closes.dayNumber + 3 ≤ opens.dayNumber) →
        ComparesInstants differenceLimit start finish) := by
  refine ⟨comparesInstants_of_long, fun opens closes opened closed => ⟨fun precision regular regularEnd => ?_,
    fun signs full fullEnd near apart => ?_⟩⟩
  · rw [comparesInstants_iff, texts_ordered_iff opened closed precision regular regularEnd]
  · exact comparesInstants_iff.mpr (.inr (texts_ordered_of_days opened closed signs full fullEnd near apart))

/-- An engine in Greenwich that knows no other formats. -/
def greenwich : DateEngine := ⟨id, fun _ => none⟩

def midnight (zone : Zone) : DateTime := ⟨.unsigned, 2020, some 1, some 1, some ⟨0, 0, some 0, none, zone⟩⟩

def oneHourLater : DateTime := ⟨.unsigned, 2020, some 1, some 1, some ⟨1, 0, some 0, none, .utc⟩⟩

def atMidnight : IsoTimestamp greenwich where
  text := (midnight .utc).text
  written := by decide +kernel
  accepted := by decide +kernel

/-- Midnight five hours west of Greenwich. -/
def westernMidnight : IsoTimestamp greenwich where
  text := (midnight (.offset true 5 0)).text
  written := by decide +kernel
  accepted := by decide +kernel

def nextHour : IsoTimestamp greenwich where
  text := oneHourLater.text
  written := by decide +kernel
  accepted := by decide +kernel

theorem dateCompare_instants_iff_nextHour : ComparesInstants (.finite 86400000) atMidnight nextHour := by
  have opened : (midnight .utc).Spelled atMidnight.text := ⟨by decide +kernel, by decide +kernel⟩
  have closed : oneHourLater.Spelled nextHour.text := ⟨by decide +kernel, by decide +kernel⟩
  have regular : ∀ {hour : ℕ}, hour < 24 →
      (DateTime.mk .unsigned 2020 (some 1) (some 1) (some ⟨hour, 0, some 0, none, .utc⟩)).Regular := by
    intro hour early
    have newYear : ExistingDay 2020 1 1 := ⟨by decide, by decide⟩
    refine ⟨by simp, newYear, fun time stated => ?_⟩
    obtain rfl := Option.some.inj stated
    exact ⟨early, fun _ absent => (by cases absent)⟩
  have keeps : KeepsOrder greenwich (midnight .utc) oneHourLater :=
    keepsOrder_of_zone rfl rfl (by decide)
  exact (((dateCompare_instants_iff (.finite 86400000) atMidnight nextHour).2 _ _ opened closed).1 rfl
    (regular (by decide)) (regular (by decide))).mpr (.inr keeps)

/-- The text of the later instant is the lesser one, so the range passes inverted. -/
theorem dateCompare_inverted : ¬ ∀ (engine : DateEngine) (differenceLimit : Number)
    (start finish : IsoTimestamp engine), ComparesInstants differenceLimit start finish := by
  intro always
  have passed : dateCompare greenwich (.finite 86400000) westernMidnight.text nextHour.text = none := by
    decide +kernel
  have ordered := ((always greenwich (.finite 86400000) westernMidnight nextHour).mp passed).1
  exact absurd ordered (by decide +kernel)

end PriceFeed.UseCases
