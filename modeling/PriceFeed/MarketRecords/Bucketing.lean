import PriceFeed.Library.Grouping
import PriceFeed.Library.Lists
import PriceFeed.MarketRecords.BatchIndependence

/-! The candles of a single batch, one for each window that holds a chart. -/

namespace PriceFeed.MarketRecords.DiscreteAggregation

open PriceFeed.Library

def InWindow (start duration : ℤ) (index : ℕ) (entry : MarketChart) : Prop :=
  start + index * duration ≤ entry.chart.timestamp ∧
    entry.chart.timestamp < start + (index + 1) * duration

instance (start duration : ℤ) (index : ℕ) : DecidablePred (InWindow start duration index) := fun _ =>
  inferInstanceAs (Decidable (_ ∧ _))

def windowCharts (start duration : ℤ) (charts : List MarketChart) (index : ℕ) : List MarketChart :=
  charts.filter (InWindow start duration index)

/-- The markets present among the charts. -/
def marketsOf (charts : List MarketChart) : List ℕ := (charts.map MarketChart.marketId).dedup

section Medians

variable {numbers : List ℚ}

end Medians

theorem aggregateChartsByMarket_perm [Arithmetic] (charts : List MarketChart) :
    (aggregateChartsByMarket (groupChartsByMarket charts)).Perm
      ((marketsOf charts).map fun marketId =>
        aggregateMarket (group MarketChart.marketId MarketChart.chart charts marketId)) := by
  rw [groupChartsByMarket_eq, aggregateChartsByMarket, groupValues]
  have sorted := List.perm_insertionSort (fun first second : ℕ × List Chart => first.1 ≤ second.1)
    (groupBy MarketChart.marketId MarketChart.chart charts).entries
  have entries := sorted.trans entries_groupBy_perm
  simpa [marketsOf, Function.comp_def] using (entries.map Prod.snd).map aggregateMarket

/-- What a market makes of its charts, of which it has at least one. -/
structure Summarizes (charts : List Chart) (aggregate : MarketAggregate) : Prop where
  opening : charts.head?.map Chart.opening = some aggregate.opening
  high : (charts.map Chart.high).max? = some aggregate.high
  low : (charts.map Chart.low).min? = some aggregate.low
  close : charts.getLast?.map Chart.close = some aggregate.close

theorem aggregateMarket_summarizes [Arithmetic] {charts : List Chart} (some : charts ≠ []) :
    Summarizes charts (aggregateMarket charts) := by
  cases charts with
  | nil => exact absurd rfl some
  | cons first rest =>
    constructor
    · rfl
    · simp [aggregateMarket, List.max?, List.foldl_map]
    · simp [aggregateMarket, List.min?, List.foldl_map]
    · simp [aggregateMarket, List.getLast?_cons, List.getLastD_eq_getLast?]

variable {start duration : ℤ} {seen : List MarketChart} {state : BatchState}

/-- A window that holds a chart from before the beginning of another comes before it. -/
theorem InWindow.lt {index other : ℕ} {entry : MarketChart} (positive : 0 < duration)
    (inside : InWindow start duration index entry)
    (before : entry.chart.timestamp < start + other * duration) : index < other := by
  have below : (index : ℤ) * duration < other * duration := by linarith [inside.1]
  exact_mod_cast lt_of_mul_lt_mul_right below positive.le

theorem InWindow.unique {index other : ℕ} {entry : MarketChart} (positive : 0 < duration)
    (inside : InWindow start duration index entry) (within : InWindow start duration other entry) :
    index = other := by
  have upper : index < other + 1 := inside.lt positive (by push_cast; exact within.2)
  have lower : other < index + 1 := within.lt positive (by push_cast; exact inside.2)
  omega

/-- Windows lie on a grid, so one that begins before another has ended when it begins. -/
theorem end_le_iff {index other : ℕ} (positive : 0 < duration) :
    start + ((index : ℤ) + 1) * duration ≤ start + other * duration ↔ index < other := by
  rw [add_le_add_iff_left, mul_le_mul_iff_of_pos_right positive]
  omega

/-- The candle of a window of the charts in order. -/
def windowCandle (start duration : ℤ) (charts : List MarketChart) (index : ℕ) : Candle :=
  aggregateCharts (windowCharts start duration charts index) (start + index * duration)

/-- The candles are those of the windows that hold a chart and have ended by a time. -/
structure Buckets (start duration : ℤ) (charts : List MarketChart) (holds : ℕ → Prop) (candles : List Candle)
    (indices : List ℕ) : Prop where
  increasing : indices.Pairwise (· < ·)
  windows : ∀ index, index ∈ indices ↔ windowCharts start duration charts index ≠ [] ∧ holds index
  candles : candles = indices.map (windowCandle start duration charts)

namespace Collecting

/-- The open timeframe is the last window that holds a chart, if it holds one. -/
private theorem data_eq_windowCharts (collecting : Collecting start duration seen state) {index : ℕ}
    (aligned : state.currentTimeframeStart = start + index * duration) :
    state.currentTimeframeData = windowCharts start duration seen index := by
  rw [collecting.data, windowCharts]
  refine List.filter_congr fun entry member => ?_
  have before := collecting.before entry member
  have inside : state.currentTimeframeStart ≤ entry.chart.timestamp ↔ InWindow start duration index entry := by
    rw [InWindow, ← aligned, add_mul, one_mul, ← add_assoc, ← aligned]
    exact (and_iff_left before).symm
  exact decide_eq_decide.mpr inside

theorem close {indices : List ℕ} (collecting : Collecting start duration seen state)
    (positive : 0 < duration) (buckets : Buckets start duration seen
      (fun index => start + (index + 1) * duration ≤ state.currentTimeframeStart)
      state.aggregatedTimeframes indices) :
    ∃ all, Buckets start duration seen (fun _ => True)
      (state.aggregatedTimeframes ++ (lastCandle state).toList) all := by
  obtain ⟨last, aligned⟩ := collecting.aligned
  have data := collecting.data_eq_windowCharts aligned
  rw [aligned] at buckets
  have ended : ∀ index, index ∈ indices ↔ windowCharts start duration seen index ≠ [] ∧ index < last := by
    intro index
    rw [buckets.windows, end_le_iff positive]
  -- a chart of a window is in a window before the last or has been collected
  have covered : ∀ index, windowCharts start duration seen index ≠ [] → index < last ∨
      index = last ∧ state.currentTimeframeData ≠ [] := by
    intro index some
    obtain ⟨entry, member⟩ := List.exists_mem_of_ne_nil _ some
    obtain ⟨present, inside⟩ := List.mem_filter.mp member
    have inside := of_decide_eq_true inside
    by_cases early : entry.chart.timestamp < start + last * duration
    · exact .inl (inside.lt positive early)
    · have collected : entry ∈ state.currentTimeframeData := by
        rw [collecting.data, aligned]
        exact List.mem_filter.mpr ⟨present, by simpa using early⟩
      refine .inr ⟨?_, List.ne_nil_of_mem collected⟩
      rw [data] at collected
      exact inside.unique positive (of_decide_eq_true (List.mem_filter.mp collected).2)
  by_cases none : state.currentTimeframeData = []
  · refine ⟨indices, buckets.increasing, fun index => ?_, ?_⟩
    · rw [ended]
      refine and_congr_right fun some => iff_of_true ?_ trivial
      exact (covered index some).resolve_right fun found => found.2 none
    · rw [lastCandle, if_pos none, Option.toList_none, List.append_nil]
      exact buckets.candles
  · refine ⟨indices ++ [last], ?_, fun index => ?_, ?_⟩
    · refine List.pairwise_append.mpr ⟨buckets.increasing, List.pairwise_singleton _ _, ?_⟩
      intro index member other tail
      obtain rfl := List.mem_singleton.mp tail
      exact ((ended index).mp member).2
    · rw [List.mem_append, List.mem_singleton, ended]
      constructor
      · rintro (⟨some, -⟩ | rfl)
        · exact ⟨some, trivial⟩
        · exact ⟨data ▸ none, trivial⟩
      · rintro ⟨some, -⟩
        exact (covered index some).imp (fun before => ⟨some, before⟩) And.left
    · rw [lastCandle, if_neg none, Option.toList_some, List.map_append, ← buckets.candles, data, aligned]
      rfl

end Collecting

variable {records : List CandleStick} {stepSize : ℕ}

end PriceFeed.MarketRecords.DiscreteAggregation
