import Mathlib.Algebra.Order.Group.Int
import Mathlib.Tactic.NormNum

/-! Cron patterns of fields that match every value or the multiples of a step, and the
instants at which they fire. -/

namespace PriceFeed.Library

/-- A field without restriction, a step, or the zero that a missing field of seconds stands for. -/
inductive CronField where
  | every
  | step (size : ℕ)
  | zero
  deriving DecidableEq, Repr

namespace CronField

def Matches (value : ℤ) : CronField → Prop
  | every => True
  | step size => (size : ℤ) ∣ value
  | zero => value = 0

/-- `*`, or `*/n` for a positive number in decimal digits. -/
def parse : List Char → Option CronField
  | ['*'] => some every
  | '*' :: '/' :: digits =>
    if digits ≠ [] ∧ digits.all Char.isDigit ∧ Nat.ofDigitChars 10 digits 0 ≠ 0 then
      some (step (Nat.ofDigitChars 10 digits 0))
    else none
  | _ => none

theorem parse_step {size : ℕ} (positive : size ≠ 0) :
    parse ('*' :: '/' :: (toString size).toList) = some (step size) := by
  have digits : (toString size).toList = Nat.toDigits 10 size := by
    rw [Nat.toString_eq_repr, Nat.toList_repr]
  have decimal : (Nat.toDigits 10 size).all Char.isDigit := by
    rw [List.all_eq_true]
    exact fun char member => Nat.isDigit_of_mem_toDigits (by decide) (by decide) member
  have condition : (toString size).toList ≠ [] ∧ (toString size).toList.all Char.isDigit ∧
      Nat.ofDigitChars 10 (toString size).toList 0 ≠ 0 := by
    rw [digits, Nat.ofDigitChars_ten_toDigits]
    exact ⟨Nat.toDigits_ne_nil, decimal, positive⟩
  change (if _ then some (step (Nat.ofDigitChars 10 (toString size).toList 0)) else none) = _
  rw [if_pos condition, digits, Nat.ofDigitChars_ten_toDigits]

end CronField

/-- The parts between single blanks. -/
def splitBlanks : List Char → List (List Char)
  | [] => [[]]
  | char :: rest =>
    if char = ' ' then [] :: splitBlanks rest
    else
      match splitBlanks rest with
      | [] => [[char]]
      | part :: parts => (char :: part) :: parts

theorem splitBlanks_append {part : List Char} (whole : ' ' ∉ part) (rest : List Char) :
    splitBlanks (part ++ ' ' :: rest) = part :: splitBlanks rest := by
  induction part with
  | nil => rfl
  | cons char others ih =>
    obtain ⟨other, later⟩ := List.ne_and_not_mem_of_not_mem_cons whole
    rw [List.cons_append, splitBlanks, if_neg other.symm, ih later]

structure CronPattern where
  second : CronField
  minute : CronField
  hour : CronField
  dayOfMonth : CronField
  month : CronField
  dayOfWeek : CronField
  deriving DecidableEq, Repr

/-- What the fields of the day are on each day since the epoch. -/
structure Calendar where
  dayOfMonth : ℤ → ℤ
  month : ℤ → ℤ
  dayOfWeek : ℤ → ℤ

namespace CronPattern

/-- Five fields from the minute on, or six from the second on. -/
def ofFields : List CronField → Option CronPattern
  | [minute, hour, dayOfMonth, month, dayOfWeek] => some ⟨.zero, minute, hour, dayOfMonth, month, dayOfWeek⟩
  | [second, minute, hour, dayOfMonth, month, dayOfWeek] =>
    some ⟨second, minute, hour, dayOfMonth, month, dayOfWeek⟩
  | _ => none

def parse (text : String) : Option CronPattern :=
  (splitBlanks text.toList).mapM CronField.parse >>= ofFields

/-- The pattern fires at an instant, in whole milliseconds since the epoch. -/
structure Occurs (calendar : Calendar) (pattern : CronPattern) (time : ℤ) : Prop where
  whole : (1000 : ℤ) ∣ time
  second : pattern.second.Matches (time / 1000 % 60)
  minute : pattern.minute.Matches (time / 60000 % 60)
  hour : pattern.hour.Matches (time / 3600000 % 24)
  dayOfMonth : pattern.dayOfMonth.Matches (calendar.dayOfMonth (time / 86400000))
  month : pattern.month.Matches (calendar.month (time / 86400000))
  dayOfWeek : pattern.dayOfWeek.Matches (calendar.dayOfWeek (time / 86400000))

/-- A pattern that begins with a step on its first field. -/
theorem parse_step {size : ℕ} (positive : size ≠ 0) (tail : String) :
    parse (s!"*/{size} " ++ tail) =
      (splitBlanks tail.toList).mapM CronField.parse >>= fun fields => ofFields (.step size :: fields) := by
  have text : (s!"*/{size} " ++ tail).toList = ('*' :: '/' :: (toString size).toList) ++ ' ' :: tail.toList := by
    change ("*/" ++ toString size ++ " " ++ tail).toList = _
    simp only [String.toList_append, List.append_assoc]
    rfl
  have whole : ' ' ∉ '*' :: '/' :: (toString size).toList := by
    rw [Nat.toString_eq_repr, Nat.toList_repr]
    intro blank
    simp only [List.mem_cons, Char.reduceEq, false_or] at blank
    have digit := Nat.isDigit_of_mem_toDigits (by decide) (by decide) blank
    revert digit
    decide
  rw [parse, text, splitBlanks_append whole, List.mapM_cons, CronField.parse_step positive]
  cases (splitBlanks tail.toList).mapM CronField.parse <;> rfl

variable {calendar : Calendar} {size : ℕ} {time : ℤ}

theorem step_matches_iff (divides : size ∣ 60) {unit : ℤ} (positive : 0 < unit) :
    unit ∣ time ∧ (CronField.step size).Matches (time / unit % 60) ↔ unit * size ∣ time := by
  have cycle : (size : ℤ) ∣ time / unit % 60 ↔ (size : ℤ) ∣ time / unit := by
    rw [Int.dvd_iff_emod_eq_zero, Int.emod_emod_of_dvd _ (by exact_mod_cast divides), ← Int.dvd_iff_emod_eq_zero]
  rw [CronField.Matches, cycle]
  constructor
  · rintro ⟨⟨count, rfl⟩, multiple⟩
    rw [Int.mul_ediv_cancel_left _ positive.ne'] at multiple
    exact mul_dvd_mul_left unit multiple
  · rintro ⟨count, rfl⟩
    rw [mul_assoc, Int.mul_ediv_cancel_left _ positive.ne']
    exact ⟨dvd_mul_right _ _, dvd_mul_right _ _⟩

theorem occurs_seconds_iff (divides : size ∣ 60) :
    Occurs calendar ⟨.step size, .every, .every, .every, .every, .every⟩ time ↔ 1000 * (size : ℤ) ∣ time := by
  rw [← step_matches_iff divides (by norm_num)]
  constructor
  · intro occurs
    exact ⟨occurs.whole, occurs.second⟩
  · rintro ⟨whole, second⟩
    exact ⟨whole, second, trivial, trivial, trivial, trivial, trivial⟩

theorem occurs_minutes_iff (divides : size ∣ 60) :
    Occurs calendar ⟨.zero, .step size, .every, .every, .every, .every⟩ time ↔ 60000 * (size : ℤ) ∣ time := by
  rw [← step_matches_iff divides (by norm_num)]
  have minutes : (60000 : ℤ) ∣ time ↔ (1000 : ℤ) ∣ time ∧ time / 1000 % 60 = 0 := by omega
  rw [minutes, and_assoc]
  constructor
  · intro occurs
    exact ⟨occurs.whole, occurs.second, occurs.minute⟩
  · rintro ⟨whole, second, minute⟩
    exact ⟨whole, second, minute, trivial, trivial, trivial, trivial⟩

end CronPattern

end PriceFeed.Library
