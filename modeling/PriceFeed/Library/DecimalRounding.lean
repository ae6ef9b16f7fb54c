import Mathlib.Algebra.Order.Round
import Mathlib.Data.Rat.Floor
import Mathlib.Tactic.FieldSimp
import Mathlib.Tactic.Linarith
import Mathlib.Tactic.Positivity
import PriceFeed.Library.Number

/-! Division rounded to a fixed number of decimal places, and what a relative error costs in
a quotient. -/

namespace PriceFeed.Library

/-- To the nearest multiple of the last place. A half goes away from zero. -/
def roundHalfUp (places : ℕ) (value : ℚ) : ℚ :=
  let units : ℚ := ⌊|value| * 10 ^ places + 1 / 2⌋
  if value < 0 then -(units / 10 ^ places) else units / 10 ^ places

def Number.dividedBy (places : ℕ) : Number → Number → Number
  | .finite dividend, .finite divisor =>
    match quotient dividend divisor with
    | .finite value => .finite (roundHalfUp places value)
    | number => number
  | .finite _, .infinite _ => .finite 0
  | .infinite negative, .finite divisor => .infinite (negative != decide (divisor < 0))
  | _, _ => .notANumber

/-- Some multiple of the last place has at most a relative error. -/
def NearMultiple (places : ℕ) (error value : ℚ) : Prop :=
  ∃ units : ℤ, |units / 10 ^ places - value| ≤ error * value

variable {places : ℕ} {value error : ℚ}

theorem dividedBy_of_ne {dividend divisor : ℚ} (nonzero : divisor ≠ 0) :
    Number.dividedBy places (.finite dividend) (.finite divisor) =
      .finite (roundHalfUp places (dividend / divisor)) := by
  simp only [Number.dividedBy, Number.quotient_of_ne nonzero]

theorem roundHalfUp_of_nonneg (nonneg : 0 ≤ value) :
    roundHalfUp places value = round (value * 10 ^ places) / 10 ^ places := by
  simp only [roundHalfUp, if_neg (not_lt.mpr nonneg), abs_of_nonneg nonneg, round_eq]

/-- No multiple is nearer than the rounded value. -/
theorem roundHalfUp_nearest (nonneg : 0 ≤ value) (units : ℤ) :
    |roundHalfUp places value - value| ≤ |units / 10 ^ places - value| := by
  have scale : (0 : ℚ) < 10 ^ places := by positivity
  have scaled : ∀ count : ℤ, |(count : ℚ) / 10 ^ places - value| =
      |value * 10 ^ places - count| / 10 ^ places := by
    intro count
    rw [eq_div_iff scale.ne', ← abs_of_pos scale, ← abs_mul, abs_of_pos scale, abs_sub_comm]
    congr 1
    field_simp
  rw [roundHalfUp_of_nonneg nonneg, scaled, scaled]
  exact div_le_div_of_nonneg_right (round_le _ _) scale.le

theorem roundHalfUp_half (nonneg : 0 ≤ value) : |roundHalfUp places value - value| ≤ 1 / 2 / 10 ^ places := by
  have scale : (0 : ℚ) < 10 ^ places := by positivity
  have same : (round (value * 10 ^ places) : ℚ) / 10 ^ places - value =
      -((value * 10 ^ places - round (value * 10 ^ places)) / 10 ^ places) := by
    field_simp
    ring
  rw [roundHalfUp_of_nonneg nonneg, same, abs_neg, abs_div, abs_of_pos scale]
  exact div_le_div_of_nonneg_right (abs_sub_round _) scale.le

theorem nearMultiple_iff (nonneg : 0 ≤ value) :
    NearMultiple places error value ↔ |roundHalfUp places value - value| ≤ error * value := by
  constructor
  · rintro ⟨units, close⟩
    exact (roundHalfUp_nearest nonneg units).trans close
  · intro close
    rw [roundHalfUp_of_nonneg nonneg] at close
    exact ⟨_, close⟩

theorem roundHalfUp_of_multiple (nonneg : 0 ≤ value) (multiple : NearMultiple places 0 value) :
    roundHalfUp places value = value := by
  have none := (nearMultiple_iff nonneg).mp multiple
  rw [zero_mul] at none
  exact sub_eq_zero.mp (abs_nonpos_iff.mp none)

theorem roundHalfUp_pos_iff (nonneg : 0 ≤ value) :
    0 < roundHalfUp places value ↔ 1 / 2 ≤ value * 10 ^ places := by
  have scale : (0 : ℚ) < 10 ^ places := by positivity
  rw [roundHalfUp_of_nonneg nonneg, div_pos_iff_of_pos_right scale, Int.cast_pos, round_eq, Int.floor_pos]
  constructor <;> intro bound <;> linarith

theorem nearMultiple_zero {units : ℤ} (same : value * 10 ^ places = units) :
    NearMultiple places 0 value := by
  have scale : (0 : ℚ) < 10 ^ places := by positivity
  refine ⟨units, ?_⟩
  rw [← same, mul_div_cancel_right₀ _ scale.ne', sub_self, abs_zero, zero_mul]

/-- What relative errors of its terms cost a quotient. -/
theorem quotient_error {dividend divisor near far errorNear errorFar : ℚ} (positive : 0 < dividend)
    (other : 0 < divisor) (small : errorFar < 1) (closeNear : |near - dividend| ≤ errorNear * dividend)
    (closeFar : |far - divisor| ≤ errorFar * divisor) :
    |near / far - dividend / divisor| ≤ (errorNear + errorFar) / (1 - errorFar) * (dividend / divisor) := by
  have least : (1 - errorFar) * divisor ≤ far := by
    have below := (abs_le.mp closeFar).1
    linarith
  have rest : 0 < 1 - errorFar := sub_pos.mpr small
  have farPositive : 0 < far := (mul_pos rest other).trans_le least
  have product : 0 ≤ (errorNear + errorFar) * dividend := by
    have first : 0 ≤ errorNear * dividend := (abs_nonneg _).trans closeNear
    have second : 0 ≤ errorFar * divisor := (abs_nonneg _).trans closeFar
    have bound : 0 ≤ errorFar := nonneg_of_mul_nonneg_left second other
    rw [add_mul]
    exact add_nonneg first (mul_nonneg bound positive.le)
  have difference : near / far - dividend / divisor =
      ((near - dividend) * divisor - dividend * (far - divisor)) / (far * divisor) := by
    field_simp
    ring
  have numerator : |(near - dividend) * divisor - dividend * (far - divisor)| ≤
      (errorNear + errorFar) * dividend * divisor := by
    calc |(near - dividend) * divisor - dividend * (far - divisor)|
        ≤ |(near - dividend) * divisor| + |dividend * (far - divisor)| := abs_sub _ _
      _ = |near - dividend| * divisor + dividend * |far - divisor| := by
          rw [abs_mul, abs_mul, abs_of_pos other, abs_of_pos positive]
      _ ≤ errorNear * dividend * divisor + dividend * (errorFar * divisor) := by
          gcongr
      _ = (errorNear + errorFar) * dividend * divisor := by ring
  calc |near / far - dividend / divisor|
      = |(near - dividend) * divisor - dividend * (far - divisor)| / (far * divisor) := by
        rw [difference, abs_div, abs_of_pos (mul_pos farPositive other)]
    _ ≤ (errorNear + errorFar) * dividend * divisor / (far * divisor) := by gcongr
    _ = (errorNear + errorFar) * dividend / far := mul_div_mul_right _ _ other.ne'
    _ ≤ (errorNear + errorFar) * dividend / ((1 - errorFar) * divisor) := by gcongr
    _ = (errorNear + errorFar) / (1 - errorFar) * (dividend / divisor) := mul_div_mul_comm _ _ _ _

/-- A quotient shows what its divisor has lost. -/
theorem divisor_error {dividend divisor far error : ℚ} (positive : 0 < dividend) (other : 0 < divisor)
    (kept : 0 < far) (close : |dividend / far - dividend / divisor| ≤ error * (dividend / divisor)) :
    |far - divisor| ≤ error * far := by
  have ratio : 0 < dividend / divisor := div_pos positive other
  have difference : dividend / far - dividend / divisor = (divisor - far) / far * (dividend / divisor) := by
    field_simp
  rw [difference, abs_mul, abs_of_pos ratio, abs_div, abs_of_pos kept] at close
  have scaled := le_of_mul_le_mul_right close ratio
  rwa [div_le_iff₀ kept, abs_sub_comm] at scaled

end PriceFeed.Library
