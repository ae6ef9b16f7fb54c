import Mathlib.Tactic.NormNum
import PriceFeed.Library.DecimalRounding

/-! `BaseUDEXDriver`: the exchange rate of a pair from the reserves of its pool. A BigNumber
division keeps twenty decimal places; everything else is exact. -/

namespace PriceFeed.Collectors

open PriceFeed.Library

/-- What `getReserves` reads, in the least units of the two tokens. -/
structure Reserves where
  poolASize : ℕ
  poolBSize : ℕ
  deriving DecidableEq, Repr

/-- A pair, by the decimals in the meta data of its tokens. -/
structure UDEXPair where
  inDecimals : Option ℕ
  outDecimals : Option ℕ
  deriving DecidableEq, Repr

structure ExchangeRate where
  poolASize : Number
  poolBSize : Number
  exchangeRate : Number
  deriving DecidableEq, Repr

inductive UDEXError (Error : Type*) where
  | rateLimitExceeded
  | other (error : Error)

def decimalPlaces : ℕ := 20

def getPrecisePoolSize (poolSize : ℕ) (decimals : Option ℕ) : Number :=
  .dividedBy decimalPlaces (.finite poolSize) (.finite (10 ^ decimals.getD 0))

variable {Error : Type*} (verifyRateLimitError : Error → Bool)

def getReservesWithErrorTranslation (reserves : Except Error Reserves) :
    Except (UDEXError Error) Reserves :=
  reserves.mapError fun error => if verifyRateLimitError error then .rateLimitExceeded else .other error

def getExchangeRate (reserves : Except Error Reserves) (pair : UDEXPair) :
    Except (UDEXError Error) ExchangeRate := do
  let ⟨poolASize, poolBSize⟩ ← getReservesWithErrorTranslation verifyRateLimitError reserves
  let precisePoolASize := getPrecisePoolSize poolASize pair.inDecimals
  let precisePoolBSize := getPrecisePoolSize poolBSize pair.outDecimals
  return ⟨precisePoolASize, precisePoolBSize, .dividedBy decimalPlaces precisePoolBSize precisePoolASize⟩

namespace Reserves

variable (reserves : Reserves) (pair : UDEXPair)

/-- The reserves in whole tokens, and their ratio, as they are. -/
def poolA : ℚ := reserves.poolASize / 10 ^ pair.inDecimals.getD 0

def poolB : ℚ := reserves.poolBSize / 10 ^ pair.outDecimals.getD 0

def rate : ℚ := reserves.poolB pair / reserves.poolA pair

/-- The pool sizes and the rate lie close enough to multiples of the last place. -/
def CloseQuotients : Prop :=
  ∃ errorA errorB errorRate : ℚ,
    NearMultiple decimalPlaces errorA (reserves.poolA pair) ∧
      NearMultiple decimalPlaces errorB (reserves.poolB pair) ∧
        NearMultiple decimalPlaces errorRate (reserves.rate pair) ∧
          errorA < 1 ∧ errorB < 1 ∧ errorRate + 2 * ((errorB + errorA) / (1 - errorA)) ≤ 1 / 10 ^ 6

variable {reserves pair}

theorem poolA_pos (positive : 0 < reserves.poolASize) : 0 < reserves.poolA pair :=
  div_pos (Nat.cast_pos.mpr positive) (by positivity)

theorem poolB_pos (positive : 0 < reserves.poolBSize) : 0 < reserves.poolB pair :=
  div_pos (Nat.cast_pos.mpr positive) (by positivity)

end Reserves

/-- Both pool sizes are positive, and so is the rate, whose relative error is at most a millionth. -/
def KeepsPrecision (reserves : Reserves) (pair : UDEXPair) : Prop :=
  ∃ poolASize poolBSize exchangeRate : ℚ,
    getExchangeRate verifyRateLimitError (.ok reserves) pair =
        .ok ⟨.finite poolASize, .finite poolBSize, .finite exchangeRate⟩ ∧
      0 < poolASize ∧ 0 < poolBSize ∧ 0 < exchangeRate ∧
        |exchangeRate - reserves.rate pair| ≤ 1 / 10 ^ 6 * reserves.rate pair

theorem getPrecisePoolSize_eq (poolSize : ℕ) (decimals : Option ℕ) :
    getPrecisePoolSize poolSize decimals =
      .finite (roundHalfUp decimalPlaces (poolSize / 10 ^ decimals.getD 0)) :=
  dividedBy_of_ne (by positivity)

variable {verifyRateLimitError} {reserves : Reserves} {pair : UDEXPair}

theorem getExchangeRate_ok : getExchangeRate verifyRateLimitError (.ok reserves) pair =
    .ok ⟨.finite (roundHalfUp decimalPlaces (reserves.poolA pair)),
      .finite (roundHalfUp decimalPlaces (reserves.poolB pair)),
      .dividedBy decimalPlaces (.finite (roundHalfUp decimalPlaces (reserves.poolB pair)))
        (.finite (roundHalfUp decimalPlaces (reserves.poolA pair)))⟩ := by
  have sizeA := getPrecisePoolSize_eq reserves.poolASize pair.inDecimals
  have sizeB := getPrecisePoolSize_eq reserves.poolBSize pair.outDecimals
  unfold Reserves.poolA Reserves.poolB
  rw [← sizeA, ← sizeB]
  rfl

theorem keepsPrecision_iff_rounded : KeepsPrecision verifyRateLimitError reserves pair ↔
    0 < roundHalfUp decimalPlaces (reserves.poolA pair) ∧
      0 < roundHalfUp decimalPlaces (reserves.poolB pair) ∧
        0 < roundHalfUp decimalPlaces (roundHalfUp decimalPlaces (reserves.poolB pair) /
          roundHalfUp decimalPlaces (reserves.poolA pair)) ∧
        |roundHalfUp decimalPlaces (roundHalfUp decimalPlaces (reserves.poolB pair) /
          roundHalfUp decimalPlaces (reserves.poolA pair)) - reserves.rate pair| ≤
            1 / 10 ^ 6 * reserves.rate pair := by
  constructor
  · rintro ⟨poolASize, poolBSize, exchangeRate, answer, positiveA, positiveB, positive, close⟩
    rw [getExchangeRate_ok] at answer
    injection answer with answer
    injection answer with sizeA sizeB rate
    injection sizeA with sizeA
    injection sizeB with sizeB
    rw [sizeA, sizeB, dividedBy_of_ne positiveA.ne'] at rate
    injection rate with rate
    rw [sizeA, sizeB, rate]
    exact ⟨positiveA, positiveB, positive, close⟩
  · rintro ⟨positiveA, positiveB, positive, close⟩
    refine ⟨_, _, _, ?_, positiveA, positiveB, positive, close⟩
    rw [getExchangeRate_ok, dividedBy_of_ne positiveA.ne']

/-- The last rounding is the third: it adds no more than the distance of the rate itself and
what the pool sizes have cost already. -/
theorem keepsPrecision_of_closeQuotients (positiveA : 0 < reserves.poolASize)
    (positiveB : 0 < reserves.poolBSize) (close : reserves.CloseQuotients pair) :
    KeepsPrecision verifyRateLimitError reserves pair := by
  obtain ⟨errorA, errorB, errorRate, nearA, nearB, ⟨units, nearRate⟩, smallA, smallB, budget⟩ := close
  have poolA : 0 < reserves.poolA pair := Reserves.poolA_pos positiveA
  have poolB : 0 < reserves.poolB pair := Reserves.poolB_pos positiveB
  have rate : 0 < reserves.rate pair := div_pos poolB poolA
  have closeA := (nearMultiple_iff poolA.le).mp nearA
  have closeB := (nearMultiple_iff poolB.le).mp nearB
  set roundedA := roundHalfUp decimalPlaces (reserves.poolA pair)
  set roundedB := roundHalfUp decimalPlaces (reserves.poolB pair)
  have least : ∀ {rounded value error : ℚ}, 0 < value → error < 1 → |rounded - value| ≤ error * value →
      0 < rounded := by
    intro rounded value error positive small near
    have below := (abs_le.mp near).1
    have rest := mul_pos (sub_pos.mpr small) positive
    linarith
  have sizeA := least poolA smallA closeA
  have sizeB := least poolB smallB closeB
  have cost : |roundedB / roundedA - reserves.rate pair| ≤
      (errorB + errorA) / (1 - errorA) * reserves.rate pair :=
    quotient_error poolB poolA smallA closeB closeA
  have nearest : |roundHalfUp decimalPlaces (roundedB / roundedA) - roundedB / roundedA| ≤
      |units / 10 ^ decimalPlaces - roundedB / roundedA| :=
    roundHalfUp_nearest (div_nonneg sizeB.le sizeA.le) units
  have final : |roundHalfUp decimalPlaces (roundedB / roundedA) - reserves.rate pair| ≤
      1 / 10 ^ 6 * reserves.rate pair := by
    calc |roundHalfUp decimalPlaces (roundedB / roundedA) - reserves.rate pair|
        ≤ |roundHalfUp decimalPlaces (roundedB / roundedA) - roundedB / roundedA| +
            |roundedB / roundedA - reserves.rate pair| := abs_sub_le _ _ _
      _ ≤ |units / 10 ^ decimalPlaces - roundedB / roundedA| +
            |roundedB / roundedA - reserves.rate pair| := by gcongr
      _ ≤ |units / 10 ^ decimalPlaces - reserves.rate pair| +
            |reserves.rate pair - roundedB / roundedA| + |roundedB / roundedA - reserves.rate pair| := by
          gcongr
          exact abs_sub_le _ _ _
      _ ≤ errorRate * reserves.rate pair + (errorB + errorA) / (1 - errorA) * reserves.rate pair +
            (errorB + errorA) / (1 - errorA) * reserves.rate pair := by
          rw [abs_sub_comm (reserves.rate pair)]
          gcongr
      _ = (errorRate + 2 * ((errorB + errorA) / (1 - errorA))) * reserves.rate pair := by ring
      _ ≤ 1 / 10 ^ 6 * reserves.rate pair := by gcongr
  exact keepsPrecision_iff_rounded.mpr ⟨sizeA, sizeB, least rate (by norm_num) final, final⟩

/-- Whatever is lost, the rate is near a multiple of the last place and no pool size is below half
of it. -/
theorem near_of_keepsPrecision (positiveA : 0 < reserves.poolASize) (positiveB : 0 < reserves.poolBSize)
    (keeps : KeepsPrecision verifyRateLimitError reserves pair) :
    NearMultiple decimalPlaces (1 / 10 ^ 6) (reserves.rate pair) ∧
      1 / 2 ≤ reserves.poolA pair * 10 ^ decimalPlaces ∧ 1 / 2 ≤ reserves.poolB pair * 10 ^ decimalPlaces := by
  obtain ⟨sizeA, sizeB, _, close⟩ := keepsPrecision_iff_rounded.mp keeps
  refine ⟨?_, (roundHalfUp_pos_iff (Reserves.poolA_pos positiveA).le).mp sizeA,
    (roundHalfUp_pos_iff (Reserves.poolB_pos positiveB).le).mp sizeB⟩
  rw [roundHalfUp_of_nonneg (div_nonneg sizeB.le sizeA.le)] at close
  exact ⟨_, close⟩

/-- The rounded sizes have nearly the ratio that a precise rate shows. -/
theorem ratio_of_keepsPrecision (keeps : KeepsPrecision verifyRateLimitError reserves pair)
    (largeRate : 1 / 10 ^ 14 ≤ reserves.rate pair) :
    |roundHalfUp decimalPlaces (reserves.poolB pair) / roundHalfUp decimalPlaces (reserves.poolA pair) -
      reserves.rate pair| ≤ 15 / 10 ^ 7 * reserves.rate pair := by
  obtain ⟨sizeA, sizeB, _, close⟩ := keepsPrecision_iff_rounded.mp keeps
  set ratio := roundHalfUp decimalPlaces (reserves.poolB pair) /
    roundHalfUp decimalPlaces (reserves.poolA pair)
  have half : |roundHalfUp decimalPlaces ratio - ratio| ≤ 1 / 2 / 10 ^ decimalPlaces :=
    roundHalfUp_half (div_nonneg sizeB.le sizeA.le)
  have place : 1 / 2 / 10 ^ decimalPlaces ≤ 5 / 10 ^ 7 * reserves.rate pair := by
    rw [decimalPlaces]
    linarith
  calc |ratio - reserves.rate pair|
      ≤ |ratio - roundHalfUp decimalPlaces ratio| + |roundHalfUp decimalPlaces ratio - reserves.rate pair| :=
        abs_sub_le _ _ _
    _ ≤ 5 / 10 ^ 7 * reserves.rate pair + 1 / 10 ^ 6 * reserves.rate pair := by
        rw [abs_sub_comm ratio]
        exact add_le_add (half.trans place) close
    _ = 15 / 10 ^ 7 * reserves.rate pair := by ring

/-- With one exact size the rate is only precise if the other size is. -/
private theorem near_poolA_of_keepsPrecision (positiveA : 0 < reserves.poolASize)
    (positiveB : 0 < reserves.poolBSize) (exactB : NearMultiple decimalPlaces 0 (reserves.poolB pair))
    (largeRate : 1 / 10 ^ 14 ≤ reserves.rate pair)
    (keeps : KeepsPrecision verifyRateLimitError reserves pair) :
    NearMultiple decimalPlaces (2 / 10 ^ 6) (reserves.poolA pair) := by
  have poolA : 0 < reserves.poolA pair := Reserves.poolA_pos positiveA
  have poolB : 0 < reserves.poolB pair := Reserves.poolB_pos positiveB
  have sizeA := (keepsPrecision_iff_rounded.mp keeps).1
  have ratio := ratio_of_keepsPrecision keeps largeRate
  rw [roundHalfUp_of_multiple poolB.le exactB] at ratio
  have lost := divisor_error poolB poolA sizeA ratio
  refine (nearMultiple_iff poolA.le).mpr (lost.trans ?_)
  have above := (abs_le.mp lost).2
  linarith

private theorem near_poolB_of_keepsPrecision (positiveA : 0 < reserves.poolASize)
    (positiveB : 0 < reserves.poolBSize) (exactA : NearMultiple decimalPlaces 0 (reserves.poolA pair))
    (largeRate : 1 / 10 ^ 14 ≤ reserves.rate pair)
    (keeps : KeepsPrecision verifyRateLimitError reserves pair) :
    NearMultiple decimalPlaces (2 / 10 ^ 6) (reserves.poolB pair) := by
  have poolA : 0 < reserves.poolA pair := Reserves.poolA_pos positiveA
  have poolB : 0 < reserves.poolB pair := Reserves.poolB_pos positiveB
  have ratio := ratio_of_keepsPrecision keeps largeRate
  rw [roundHalfUp_of_multiple poolA.le exactA, Reserves.rate, ← sub_div, abs_div, abs_of_pos poolA,
    ← mul_div_assoc, div_le_div_iff_of_pos_right poolA] at ratio
  refine (nearMultiple_iff poolB.le).mpr (ratio.trans ?_)
  linarith

/-- A reserve of a token with at most as many decimals as are kept is a multiple of the last place. -/
theorem nearMultiple_of_decimals {poolSize decimals : ℕ} (few : decimals ≤ decimalPlaces) :
    NearMultiple decimalPlaces 0 (poolSize / 10 ^ decimals) := by
  have split : (10 : ℚ) ^ decimalPlaces = 10 ^ (decimalPlaces - decimals) * 10 ^ decimals := by
    rw [← pow_add, Nat.sub_add_cancel few]
  have units : (poolSize : ℚ) / 10 ^ decimals * 10 ^ decimalPlaces =
      ((poolSize * 10 ^ (decimalPlaces - decimals) : ℕ) : ℤ) := by
    rw [split]
    push_cast
    field_simp
  exact nearMultiple_zero units

/-- The rate keeps its precision if the pool sizes and the rate are close enough to multiples of
the last place. It does so only if the rate is, and no pool size vanishes. Where the pool sizes are
multiples, as for tokens with at most twenty decimals, the rate alone decides; where one is, the
other must be near one. -/
theorem keepsPrecision_closeQuotients (positiveA : 0 < reserves.poolASize)
    (positiveB : 0 < reserves.poolBSize) :
    (reserves.CloseQuotients pair → KeepsPrecision verifyRateLimitError reserves pair) ∧
    (KeepsPrecision verifyRateLimitError reserves pair →
      NearMultiple decimalPlaces (1 / 10 ^ 6) (reserves.rate pair) ∧
        1 / 2 ≤ reserves.poolA pair * 10 ^ decimalPlaces ∧
          1 / 2 ≤ reserves.poolB pair * 10 ^ decimalPlaces) ∧
    (NearMultiple decimalPlaces 0 (reserves.poolA pair) →
      NearMultiple decimalPlaces 0 (reserves.poolB pair) →
        (KeepsPrecision verifyRateLimitError reserves pair ↔
          NearMultiple decimalPlaces (1 / 10 ^ 6) (reserves.rate pair))) ∧
    (KeepsPrecision verifyRateLimitError reserves pair → 1 / 10 ^ 14 ≤ reserves.rate pair →
      (NearMultiple decimalPlaces 0 (reserves.poolB pair) →
        NearMultiple decimalPlaces (2 / 10 ^ 6) (reserves.poolA pair)) ∧
      (NearMultiple decimalPlaces 0 (reserves.poolA pair) →
        NearMultiple decimalPlaces (2 / 10 ^ 6) (reserves.poolB pair))) := by
  refine ⟨keepsPrecision_of_closeQuotients positiveA positiveB, near_of_keepsPrecision positiveA positiveB,
    fun exactA exactB => ⟨fun keeps => (near_of_keepsPrecision positiveA positiveB keeps).1, fun near => ?_⟩,
    fun keeps largeRate => ⟨fun exactB => ?_, fun exactA => ?_⟩⟩
  · refine keepsPrecision_of_closeQuotients positiveA positiveB
      ⟨0, 0, 1 / 10 ^ 6, exactA, exactB, near, ?_⟩
    norm_num
  · exact near_poolA_of_keepsPrecision positiveA positiveB exactB largeRate keeps
  · exact near_poolB_of_keepsPrecision positiveA positiveB exactA largeRate keeps

/-- A million tokens of eighteen decimals against five million of six. -/
theorem keepsPrecision_closeQuotients_stable :
    KeepsPrecision (fun _ : Unit => false) ⟨10 ^ 24, 5 * 10 ^ 12⟩ ⟨some 18, some 6⟩ := by
  have near : NearMultiple decimalPlaces (1 / 10 ^ 6)
      (Reserves.rate ⟨10 ^ 24, 5 * 10 ^ 12⟩ ⟨some 18, some 6⟩) :=
    ⟨5 * 10 ^ 20, by norm_num [Reserves.rate, Reserves.poolA, Reserves.poolB, decimalPlaces]⟩
  exact ((keepsPrecision_closeQuotients (by decide) (by decide)).2.2.1
    (nearMultiple_of_decimals (by decide)) (nearMultiple_of_decimals (by decide))).mpr near

/-- A drained pool: one least unit against a thousand tokens has the rate zero. -/
theorem not_keepsPrecision_drained : ¬ ∀ (verifyRateLimitError : Unit → Bool) (reserves : Reserves)
    (pair : UDEXPair), 0 < reserves.poolASize → reserves.poolASize < 2 ^ 256 → 0 < reserves.poolBSize →
      reserves.poolBSize < 2 ^ 256 → pair.inDecimals.getD 0 ≤ 255 → pair.outDecimals.getD 0 ≤ 255 →
        KeepsPrecision verifyRateLimitError reserves pair := by
  intro always
  have keeps := always (fun _ => false) ⟨10 ^ 21, 1⟩ ⟨some 18, some 18⟩ (by decide) (by decide)
    (by decide) (by decide) (by decide) (by decide)
  have positive := (keepsPrecision_iff_rounded.mp keeps).2.2.1
  exact absurd positive (by decide +kernel)

end PriceFeed.Collectors
