import Mathlib.Algebra.Ring.Parity
import PriceFeed.MarketRecords.SlicePass

/-! One timeframe of `DiscreteAggregation` beside `AggregateCandleSticks` over the same
records: their medians tell apart an even number of markets, and they sum up the volumes
in different orders. -/

namespace PriceFeed.MarketRecords

open PriceFeed.Library DiscreteAggregation AggregateCandleSticks

section Medians

/-- The mean of the two values in the middle of the sorted numbers comes out as the upper one. -/
def MiddlesMeet [Arithmetic] (numbers : List ℚ) : Prop :=
  let sorted := numbers.insertionSort (· ≤ ·)
  let upper := sorted.getD (numbers.length / 2) 0
  Arithmetic.half (Arithmetic.add (sorted.getD (numbers.length / 2 - 1) 0) upper) = upper

instance [Arithmetic] (numbers : List ℚ) : Decidable (MiddlesMeet numbers) := inferInstanceAs (Decidable (_ = _))

theorem middlesMeet_exact {numbers : List ℚ} : MiddlesMeet numbers ↔
    (numbers.insertionSort (· ≤ ·)).getD (numbers.length / 2 - 1) 0 =
      (numbers.insertionSort (· ≤ ·)).getD (numbers.length / 2) 0 := by
  simp only [MiddlesMeet, add_exact, half_exact]
  constructor
  · intro mean
    linarith
  · intro meet
    linarith

end Medians

section OneTimeframe

variable {start duration : ℤ} {charts : List MarketChart}

variable {records : List CandleStick}

end OneTimeframe

section Compare

variable {charts : List MarketChart}

private theorem groupValues_groupChartsByMarket (charts : List MarketChart) : groupValues (groupChartsByMarket charts) =
    ((marketsOf charts).insertionSort (· ≤ ·)).map (recordedCharts charts) := by
  have : Std.Total fun first second : ℕ × List Chart => first.1 ≤ second.1 :=
    ⟨fun first second => le_total first.1 second.1⟩
  have : IsTrans (ℕ × List Chart) fun first second => first.1 ≤ second.1 := ⟨fun _ _ _ => le_trans⟩
  let listed := ((marketsOf charts).insertionSort (· ≤ ·)).map fun marketId =>
    (marketId, recordedCharts charts marketId)
  have permuted : listed.Perm (groupChartsByMarket charts).entries :=
    ((List.perm_insertionSort _ _).map _).trans entries_groupBy_perm.symm
  have apart : ∀ entry ∈ listed, ∀ other ∈ listed, entry.1 ≤ other.1 → other.1 ≤ entry.1 → entry = other := by
    intro entry member other present before after
    obtain ⟨marketId, -, rfl⟩ := List.mem_map.mp member
    obtain ⟨again, -, rfl⟩ := List.mem_map.mp present
    obtain rfl : marketId = again := le_antisymm before after
    rfl
  have ordered : listed.Pairwise fun first second => first.1 ≤ second.1 :=
    List.pairwise_map.mpr (List.pairwise_insertionSort _ _)
  rw [groupValues, ← insertionSort_eq_of_perm apart permuted, ordered.insertionSort_eq, List.map_map]
  rfl

/-- The sum over the markets, in the order of their ids, of what the charts of each sum up to. -/
def volumeByMarket [Arithmetic] (charts : List MarketChart) : ℚ :=
  total (((marketsOf charts).insertionSort (· ≤ ·)).map fun marketId =>
    total ((recordedCharts charts marketId).map Chart.volume))

theorem aggregateCharts_volumeByMarket [Arithmetic] (charts : List MarketChart) (timestamp : ℤ) :
    (aggregateCharts charts timestamp).volume = volumeByMarket charts := by
  simp only [aggregateCharts, withAveragePrice_volume, aggregateChartsByMarket, groupValues_groupChartsByMarket,
    List.map_map, volumeByMarket]
  exact congrArg total (List.map_congr_left fun marketId _ => aggregateMarket_volume _)

/-- Exact sums do not depend on their order. -/
theorem volumeByMarket_exact (data : List CandleStick) :
    volumeByMarket (chartsOf data) = volumeByRecord data := by
  rw [volumeByRecord_exact, ← aggregateCharts_volumeByMarket _ 0, aggregateCharts_volume]

end Compare

variable {rows : List CandleStickRow} {queryParams : SearchParams}

section TwoPrices

end TwoPrices

end PriceFeed.MarketRecords
