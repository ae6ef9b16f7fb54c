import Mathlib.Data.Rat.Floor
import Mathlib.Tactic.Linarith

/-! Numbers with what a division by zero gives: an infinity, or no number. Their arithmetic is
exact otherwise. -/

namespace PriceFeed.Library

inductive Number where
  | finite (value : ℚ)
  | infinite (negative : Bool)
  | notANumber
  deriving DecidableEq, Repr

namespace Number

def quotient (dividend divisor : ℚ) : Number :=
  if divisor = 0 then
    if dividend = 0 then .notANumber else .infinite (dividend < 0)
  else .finite (dividend / divisor)

/-- The remainder, with the sign of the dividend; by zero there is none. -/
def remainder (dividend divisor : ℚ) : Option ℚ :=
  if divisor = 0 then none
  else
    let quotient := dividend / divisor
    some (dividend - divisor * if 0 ≤ quotient then ⌊quotient⌋ else ⌈quotient⌉)

def ceil : Number → Number
  | .finite value => .finite ⌈value⌉
  | number => number

/-- A comparison with what is no number fails. -/
def AtMost : Number → ℚ → Prop
  | .finite value, bound => value ≤ bound
  | .infinite negative, _ => negative = true
  | .notANumber, _ => False

instance (number : Number) (bound : ℚ) : Decidable (number.AtMost bound) :=
  match number with
  | .finite value => inferInstanceAs (Decidable (value ≤ bound))
  | .infinite negative => inferInstanceAs (Decidable (negative = true))
  | .notANumber => isFalse id

/-- So does the strict one. -/
def Below : Number → ℚ → Prop
  | .finite value, bound => value < bound
  | .infinite negative, _ => negative = true
  | .notANumber, _ => False

instance (number : Number) (bound : ℚ) : Decidable (number.Below bound) :=
  match number with
  | .finite value => inferInstanceAs (Decidable (value < bound))
  | .infinite negative => inferInstanceAs (Decidable (negative = true))
  | .notANumber => isFalse id

/-- The alternative takes the place of zero and of what is no number. -/
def orElse : Option ℚ → ℚ → ℚ
  | some value, alternative => if value = 0 then alternative else value
  | none, alternative => alternative

variable {dividend divisor : ℚ}

theorem quotient_of_ne (nonzero : divisor ≠ 0) :
    quotient dividend divisor = .finite (dividend / divisor) := if_neg nonzero

/-- Below the ceiling of a quotient the multiples of the divisor are less than the dividend. -/
theorem not_ceil_quotient_atMost_iff (positive : 0 < divisor) {count : ℤ} :
    ¬ (quotient dividend divisor).ceil.AtMost count ↔ count * divisor < dividend := by
  rw [quotient_of_ne positive.ne', ceil, AtMost, Int.cast_le, not_le, Int.lt_ceil,
    lt_div_iff₀ positive]

/-- What is left over, or a whole divisor where nothing is, lies between zero and what a smaller
multiple leaves. -/
theorem remainder_orElse (positive : 0 < divisor) {count : ℤ} (nonneg : 0 ≤ count)
    (below : count * divisor < dividend) :
    0 < orElse (remainder dividend divisor) divisor ∧
      count * divisor + orElse (remainder dividend divisor) divisor ≤ dividend := by
  have ratio : (count : ℚ) < dividend / divisor := (lt_div_iff₀ positive).mpr below
  have sign : 0 ≤ dividend / divisor := (Int.cast_nonneg nonneg).trans ratio.le
  have whole : divisor * ⌊dividend / divisor⌋ ≤ dividend := by
    rw [mul_comm]
    exact (le_div_iff₀ positive).mp (Int.floor_le _)
  have steps : count ≤ ⌊dividend / divisor⌋ := Int.le_floor.mpr ratio.le
  have reached : (count : ℚ) * divisor ≤ divisor * ⌊dividend / divisor⌋ := by
    rw [mul_comm divisor]
    exact mul_le_mul_of_nonneg_right (Int.cast_le.mpr steps) positive.le
  simp only [remainder, if_neg positive.ne', if_pos sign, orElse]
  split
  · next none =>
    refine ⟨positive, ?_⟩
    have exact_ : dividend / divisor = ⌊dividend / divisor⌋ := by
      rw [div_eq_iff positive.ne']
      linarith
    have next : count + 1 ≤ ⌊dividend / divisor⌋ := by
      rw [Int.add_one_le_iff, ← Int.cast_lt (R := ℚ), ← exact_]
      exact ratio
    have multiple : ((count + 1 : ℤ) : ℚ) * divisor ≤ ⌊dividend / divisor⌋ * divisor :=
      mul_le_mul_of_nonneg_right (Int.cast_le.mpr next) positive.le
    push_cast at multiple
    linarith
  · next some =>
    exact ⟨lt_of_le_of_ne (by linarith) (Ne.symm some), by linarith⟩

theorem remainder_natCast {dividend divisor : ℕ} (positive : 0 < divisor) :
    remainder dividend divisor = some ((dividend % divisor : ℕ) : ℚ) := by
  have nonzero : (divisor : ℚ) ≠ 0 := Nat.cast_ne_zero.mpr positive.ne'
  have sign : (0 : ℚ) ≤ dividend / divisor := div_nonneg (Nat.cast_nonneg _) (Nat.cast_nonneg _)
  have parts : (dividend : ℚ) = (dividend % divisor : ℕ) + divisor * (dividend / divisor : ℕ) := by
    exact_mod_cast (Nat.mod_add_div dividend divisor).symm
  simp only [remainder, if_neg nonzero, if_pos sign, Rat.floor_natCast_div_natCast]
  rw [← Int.natCast_div, Int.cast_natCast]
  exact congrArg some (sub_eq_of_eq_add parts)

end Number

end PriceFeed.Library
