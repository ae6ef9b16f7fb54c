import Mathlib.Algebra.BigOperators.Group.List.Basic
import PriceFeed.Library.Numerals

/-! `Date.parse`: its own format has years of four digits, or six with a sign, dates and times
of every precision, and offsets from UTC. Other spellings it leaves to the engine. Instants are
milliseconds since 1970. -/

namespace PriceFeed.UseCases

open PriceFeed.Library

def inLeapYear (year : ℤ) : Bool := (year % 4 = 0 ∧ year % 100 ≠ 0) ∨ year % 400 = 0

/-- Days from 1970 to the first day of a year. -/
def dayFromYear (year : ℤ) : ℤ :=
  365 * (year - 1970) + (year - 1969) / 4 - (year - 1901) / 100 + (year - 1601) / 400

def daysInMonth (leap : Bool) : ℕ → ℕ
  | 2 => if leap then 29 else 28
  | 4 | 6 | 9 | 11 => 30
  | _ => 31

/-- Days from the first day of a year to the first of a month. -/
def dayFromMonth (leap : Bool) (month : ℕ) : ℕ :=
  ((List.range (month - 1)).map fun earlier => daysInMonth leap (earlier + 1)).sum

/-- A day past the end of its month belongs to the next one. -/
def makeDay (year : ℤ) (month day : ℕ) : ℤ :=
  dayFromYear year + dayFromMonth (inLeapYear year) month + (day - 1)

def makeTime (hour minute second millisecond : ℕ) : ℤ :=
  hour * 3600000 + minute * 60000 + second * 1000 + millisecond

def makeDate (day time : ℤ) : ℤ := day * 86400000 + time

/-- Instants further from 1970 are invalid dates. -/
def timeClip (time : ℤ) : Option ℤ := if |time| ≤ 8640000000000000 then some time else none

inductive YearSign where
  | unsigned
  | plus
  | minus
  deriving DecidableEq, Repr

inductive Zone where
  | localTime
  | utc
  | offset (negative : Bool) (hours minutes : ℕ)
  deriving DecidableEq, Repr

/-- Digits after the decimal point. -/
structure Fraction where
  width : ℕ
  number : ℕ
  deriving DecidableEq, Repr

structure TimeOfDay where
  hour : ℕ
  minute : ℕ
  second : Option ℕ
  fraction : Option Fraction
  zone : Zone
  deriving DecidableEq, Repr

/-- The parts a text spells. -/
structure DateTime where
  sign : YearSign
  year : ℕ
  month : Option ℕ
  day : Option ℕ
  time : Option TimeOfDay
  deriving DecidableEq, Repr

/-- A numeral behind its mark. -/
def readMarked (mark : Char) (width : ℕ) : List Char → Option (ℕ × List Char)
  | [] => none
  | symbol :: text => if symbol = mark then readNumeral width text else none

/-- A part that is there if the text goes on with its mark. -/
def readPart (mark : Char) (width : ℕ) (text : List Char) : Option (Option ℕ × List Char) :=
  if text.head? = some mark then do
    let (number, text) ← readMarked mark width text
    return (some number, text)
  else some (none, text)

def readYear (text : List Char) : Option ((YearSign × ℕ) × List Char) :=
  if text.head? = some '+' then do
    let (year, text) ← readMarked '+' 6 text
    return ((.plus, year), text)
  else if text.head? = some '-' then do
    let (year, text) ← readMarked '-' 6 text
    return ((.minus, year), text)
  else do
    let (year, text) ← readNumeral 4 text
    return ((.unsigned, year), text)

/-- The digits behind a decimal point, at least one. -/
def readFraction (text : List Char) : Option (Option Fraction × List Char) :=
  if text.head? = some '.' then do
    let width := (text.tail.takeWhile Char.isDigit).length
    let (number, text) ← readMarked '.' width text
    if width = 0 then none else return (some ⟨width, number⟩, text)
  else some (none, text)

/-- Only seconds have a fraction. -/
def readFractionBehind (second : Option ℕ) (text : List Char) : Option (Option Fraction × List Char) :=
  if second.isSome then readFraction text else some (none, text)

def readOffset (negative : Bool) (mark : Char) (text : List Char) : Option Zone := do
  let (hours, text) ← readMarked mark 2 text
  let (minutes, text) ← readMarked ':' 2 text
  if text = [] then return .offset negative hours minutes else none

def readZone (text : List Char) : Option Zone :=
  if text = [] then some .localTime
  else if text = ['Z'] then some .utc
  else if text.head? = some '-' then readOffset true '-' text
  else readOffset false '+' text

def readTime (text : List Char) : Option (Option TimeOfDay) :=
  if text = [] then some none
  else do
    let (hour, text) ← readMarked 'T' 2 text
    let (minute, text) ← readMarked ':' 2 text
    let (second, text) ← readPart ':' 2 text
    let (fraction, text) ← readFractionBehind second text
    let zone ← readZone text
    return some ⟨hour, minute, second, fraction, zone⟩

def readDateTime (text : List Char) : Option DateTime := do
  let ((sign, year), text) ← readYear text
  let (month, text) ← readPart '-' 2 text
  let (day, text) ← readPart '-' 2 text
  let time ← readTime text
  return ⟨sign, year, month, day, time⟩

/-- What `Date.parse` takes from where it runs: the reading of local times as UTC, and the formats
that the engine knows beside its own. -/
structure DateEngine where
  localTime : ℤ → ℤ
  otherFormats : List Char → Option ℤ

/-- Digits past the millisecond are dropped. -/
def Fraction.millisecond (fraction : Fraction) : ℕ := fraction.number * 1000 / 10 ^ fraction.width

namespace Zone

/-- An offset is a time of the day. -/
def Valid : Zone → Prop
  | .offset _ hours minutes => hours < 24 ∧ minutes < 60
  | _ => True

instance : DecidablePred Valid := fun zone => by
  cases zone <;> unfold Valid <;> infer_instance

def toUTC (localTime : ℤ → ℤ) (time : ℤ) : Zone → ℤ
  | .localTime => localTime time
  | .utc => time
  | .offset negative hours minutes =>
    if negative then time + makeTime hours minutes 0 0 else time - makeTime hours minutes 0 0

end Zone

namespace TimeOfDay

def milliseconds (time : TimeOfDay) : ℤ :=
  makeTime time.hour time.minute (time.second.getD 0) ((time.fraction.map Fraction.millisecond).getD 0)

/-- Midnight written as the end of a day. -/
def EndOfDay (time : TimeOfDay) : Prop :=
  time.hour = 24 ∧ time.minute = 0 ∧ time.second.getD 0 = 0 ∧
    (time.fraction.map Fraction.number).getD 0 = 0

instance : DecidablePred EndOfDay := fun _ => inferInstanceAs (Decidable (_ ∧ _))

structure Valid (time : TimeOfDay) : Prop where
  hour : time.hour < 24 ∨ time.EndOfDay
  minute : time.minute < 60
  second : ∀ second ∈ time.second, second < 60
  zone : time.zone.Valid

instance : DecidablePred Valid := fun time =>
  decidable_of_iff ((time.hour < 24 ∨ time.EndOfDay) ∧ time.minute < 60 ∧
      (∀ second ∈ time.second, second < 60) ∧ time.zone.Valid)
    ⟨fun ⟨hour, minute, second, zone⟩ => ⟨hour, minute, second, zone⟩,
      fun valid => ⟨valid.hour, valid.minute, valid.second, valid.zone⟩⟩

end TimeOfDay

namespace DateTime

def yearNumber (date : DateTime) : ℤ :=
  match date.sign with
  | .minus => -date.year
  | _ => date.year

/-- There is no negative year zero. -/
structure Valid (date : DateTime) : Prop where
  year : date.sign = .minus → date.year ≠ 0
  month : ∀ month ∈ date.month, 1 ≤ month ∧ month ≤ 12
  day : ∀ day ∈ date.day, 1 ≤ day ∧ day ≤ 31
  time : ∀ time ∈ date.time, time.Valid

instance : DecidablePred Valid := fun date =>
  decidable_of_iff ((date.sign = .minus → date.year ≠ 0) ∧ (∀ month ∈ date.month, 1 ≤ month ∧ month ≤ 12) ∧
      (∀ day ∈ date.day, 1 ≤ day ∧ day ≤ 31) ∧ ∀ time ∈ date.time, time.Valid)
    ⟨fun ⟨year, month, day, time⟩ => ⟨year, month, day, time⟩,
      fun valid => ⟨valid.year, valid.month, valid.day, valid.time⟩⟩

/-- What the clock shows; a date alone stands for its midnight. -/
def clock (date : DateTime) : ℤ :=
  makeDate (makeDay date.yearNumber (date.month.getD 1) (date.day.getD 1))
    ((date.time.map TimeOfDay.milliseconds).getD 0)

/-- A date alone is in UTC. -/
def zone (date : DateTime) : Zone := (date.time.map TimeOfDay.zone).getD .utc

def instant (engine : DateEngine) (date : DateTime) : Option ℤ :=
  timeClip (date.zone.toUTC engine.localTime date.clock)

/-- The text spells these parts, each within its bounds. -/
def Spelled (date : DateTime) (text : List Char) : Prop := readDateTime text = some date ∧ date.Valid

end DateTime

/-- Other texts, and parts out of their bounds, are left to the engine. -/
def dateParse (engine : DateEngine) (text : List Char) : Option ℤ :=
  match readDateTime text with
  | some date => if date.Valid then date.instant engine else engine.otherFormats text
  | none => engine.otherFormats text

/-! A text can be written back from the parts it spells. -/

def YearSign.text : YearSign → List Char
  | .unsigned => []
  | .plus => ['+']
  | .minus => ['-']

def YearSign.width : YearSign → ℕ
  | .unsigned => 4
  | _ => 6

def writePart (mark : Char) (width : ℕ) : Option ℕ → List Char
  | none => []
  | some number => mark :: writeNumeral width number

def writeFraction : Option Fraction → List Char
  | none => []
  | some fraction => '.' :: writeNumeral fraction.width fraction.number

def Zone.text : Zone → List Char
  | .localTime => []
  | .utc => ['Z']
  | .offset negative hours minutes =>
    (if negative then '-' else '+') :: (writeNumeral 2 hours ++ ':' :: writeNumeral 2 minutes)

def TimeOfDay.text (time : TimeOfDay) : List Char :=
  'T' :: (writeNumeral 2 time.hour ++ ':' :: (writeNumeral 2 time.minute ++
    (writePart ':' 2 time.second ++ (writeFraction time.fraction ++ time.zone.text))))

def DateTime.text (date : DateTime) : List Char :=
  date.sign.text ++ (writeNumeral date.sign.width date.year ++ (writePart '-' 2 date.month ++
    (writePart '-' 2 date.day ++ (date.time.map TimeOfDay.text).getD [])))

/-- The numerals that no other check bounds have their width. -/
structure DateTime.Fits (date : DateTime) : Prop where
  year : date.year < 10 ^ date.sign.width
  fraction : ∀ time ∈ date.time, ∀ fraction ∈ time.fraction, fraction.number < 10 ^ fraction.width

variable {text rest : List Char} {mark : Char} {width number : ℕ}

theorem readMarked_sound (taken : readMarked mark width text = some (number, rest)) :
    number < 10 ^ width ∧ text = mark :: (writeNumeral width number ++ rest) := by
  cases text with
  | nil => cases taken
  | cons symbol text =>
    simp only [readMarked] at taken
    split at taken
    · next same =>
      obtain ⟨small, spelled⟩ := readNumeral_sound taken
      exact ⟨small, by rw [same, spelled]⟩
    · cases taken

theorem readPart_sound {part : Option ℕ} (taken : readPart mark width text = some (part, rest)) :
    text = writePart mark width part ++ rest := by
  simp only [readPart] at taken
  split at taken
  · obtain ⟨⟨number, later⟩, read, taken⟩ := Option.bind_eq_some_iff.mp taken
    cases taken
    exact (readMarked_sound read).2
  · cases taken
    rfl

private theorem readYear_sound {sign : YearSign} {year : ℕ} (taken : readYear text = some ((sign, year), rest)) :
    year < 10 ^ sign.width ∧ text = sign.text ++ (writeNumeral sign.width year ++ rest) := by
  simp only [readYear] at taken
  split at taken
  · obtain ⟨⟨number, later⟩, read, taken⟩ := Option.bind_eq_some_iff.mp taken
    cases taken
    exact readMarked_sound read
  · split at taken
    · obtain ⟨⟨number, later⟩, read, taken⟩ := Option.bind_eq_some_iff.mp taken
      cases taken
      exact readMarked_sound read
    · obtain ⟨⟨number, later⟩, read, taken⟩ := Option.bind_eq_some_iff.mp taken
      cases taken
      exact readNumeral_sound read

private theorem readFraction_sound {part : Option Fraction} (taken : readFraction text = some (part, rest)) :
    (∀ fraction ∈ part, fraction.number < 10 ^ fraction.width) ∧ text = writeFraction part ++ rest := by
  simp only [readFraction] at taken
  split at taken
  · obtain ⟨⟨number, later⟩, read, taken⟩ := Option.bind_eq_some_iff.mp taken
    obtain ⟨small, spelled⟩ := readMarked_sound read
    split at taken
    · cases taken
    · cases taken
      refine ⟨?_, spelled⟩
      rintro fraction ⟨⟩
      exact small
  · cases taken
    exact ⟨fun _ absent => (by cases absent), rfl⟩

private theorem readFractionBehind_sound {second : Option ℕ} {part : Option Fraction}
    (taken : readFractionBehind second text = some (part, rest)) :
    (∀ fraction ∈ part, fraction.number < 10 ^ fraction.width) ∧ text = writeFraction part ++ rest := by
  unfold readFractionBehind at taken
  split at taken
  · exact readFraction_sound taken
  · cases taken
    exact ⟨fun _ absent => (by cases absent), rfl⟩

theorem readOffset_sound {negative : Bool} {zone : Zone} (taken : readOffset negative mark text = some zone)
    (sign : mark = if negative then '-' else '+') : text = zone.text := by
  obtain ⟨⟨hours, later⟩, first, taken⟩ := Option.bind_eq_some_iff.mp taken
  obtain ⟨⟨minutes, last⟩, second, taken⟩ := Option.bind_eq_some_iff.mp taken
  simp only at taken
  split at taken
  · next none =>
    cases taken
    rw [(readMarked_sound first).2, (readMarked_sound second).2, none, sign, List.append_nil]
    rfl
  · cases taken

private theorem readZone_sound {zone : Zone} (taken : readZone text = some zone) : text = zone.text := by
  simp only [readZone] at taken
  split_ifs at taken with none utc behind
  · cases taken
    exact none
  · cases taken
    exact utc
  · exact readOffset_sound taken rfl
  · exact readOffset_sound taken rfl

private theorem readTime_sound {part : Option TimeOfDay} (taken : readTime text = some part) :
    (∀ time ∈ part, ∀ fraction ∈ time.fraction, fraction.number < 10 ^ fraction.width) ∧
      text = (part.map TimeOfDay.text).getD [] := by
  simp only [readTime] at taken
  split at taken
  · next none =>
    cases taken
    exact ⟨fun _ absent => (by cases absent), none⟩
  · obtain ⟨⟨hour, _⟩, first, taken⟩ := Option.bind_eq_some_iff.mp taken
    obtain ⟨⟨minute, _⟩, second, taken⟩ := Option.bind_eq_some_iff.mp taken
    obtain ⟨⟨seconds, _⟩, third, taken⟩ := Option.bind_eq_some_iff.mp taken
    obtain ⟨⟨fraction, _⟩, fourth, taken⟩ := Option.bind_eq_some_iff.mp taken
    obtain ⟨zone, fifth, taken⟩ := Option.bind_eq_some_iff.mp taken
    cases taken
    dsimp only at second third fourth fifth
    obtain ⟨small, digits⟩ := readFractionBehind_sound fourth
    refine ⟨?_, ?_⟩
    · rintro time ⟨⟩
      exact small
    · rw [(readMarked_sound first).2, (readMarked_sound second).2, readPart_sound third, digits,
        readZone_sound fifth]
      rfl

theorem readDateTime_sound {date : DateTime} (taken : readDateTime text = some date) :
    date.Fits ∧ text = date.text := by
  obtain ⟨⟨⟨sign, year⟩, _⟩, first, taken⟩ := Option.bind_eq_some_iff.mp taken
  obtain ⟨⟨month, _⟩, second, taken⟩ := Option.bind_eq_some_iff.mp taken
  obtain ⟨⟨day, _⟩, third, taken⟩ := Option.bind_eq_some_iff.mp taken
  obtain ⟨time, fourth, taken⟩ := Option.bind_eq_some_iff.mp taken
  cases taken
  obtain ⟨small, spelled⟩ := readYear_sound first
  obtain ⟨digits, written⟩ := readTime_sound fourth
  refine ⟨⟨small, digits⟩, ?_⟩
  rw [spelled, readPart_sound second, readPart_sound third, written]
  rfl

end PriceFeed.UseCases
