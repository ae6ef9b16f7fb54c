import Mathlib.Data.List.Induction
import Mathlib.Tactic.Linarith
import Mathlib.Tactic.Positivity
import Mathlib.Tactic.Ring
import PriceFeed.Library.Cells
import PriceFeed.Library.Grouping
import PriceFeed.MarketRecords.DiscreteAggregation

/-! One batch without a transition: its timeframes hold every chart exactly once. -/

namespace PriceFeed.MarketRecords.DiscreteAggregation

open PriceFeed.Library

def volumeOf (entry : MarketChart) : ℚ := entry.chart.volume

@[simp] theorem withAveragePrice_timestamp [Arithmetic] (timestamp : ℤ) (aggregate : MarketAggregate) :
    (withAveragePrice timestamp aggregate).timestamp = timestamp := rfl

@[simp] theorem withAveragePrice_volume [Arithmetic] (timestamp : ℤ) (aggregate : MarketAggregate) :
    (withAveragePrice timestamp aggregate).volume = aggregate.volume := rfl

@[simp] theorem aggregateCharts_timestamp [Arithmetic] (charts : List MarketChart) (timestamp : ℤ) :
    (aggregateCharts charts timestamp).timestamp = timestamp := rfl

theorem aggregateMarket_volume [Arithmetic] (charts : List Chart) :
    (aggregateMarket charts).volume = total (charts.map Chart.volume) := by
  cases charts with
  | nil => rfl
  | cons first rest => rfl

/-- The volume all groups hold. -/
def groupedVolume (groups : OrderedMap ℕ (List Chart)) : ℚ :=
  (groups.values.map fun charts => (charts.map Chart.volume).sum).sum

theorem groupChartsByMarket_eq (charts : List MarketChart) :
    groupChartsByMarket charts = groupBy MarketChart.marketId MarketChart.chart charts := rfl

private theorem groupedVolume_groupChartsByMarket (charts : List MarketChart) :
    groupedVolume (groupChartsByMarket charts) = (charts.map volumeOf).sum := by
  rw [groupChartsByMarket_eq]
  exact sum_groupBy Chart.volume

/-- Grouping by market keeps the total volume. -/
theorem aggregateCharts_volume (charts : List MarketChart) (timestamp : ℤ) :
    (aggregateCharts charts timestamp).volume = (charts.map volumeOf).sum := by
  have sorted := List.perm_insertionSort
    (fun first second : ℕ × List Chart => first.1 ≤ second.1) (groupChartsByMarket charts).entries
  have volumes : ((groupValues (groupChartsByMarket charts)).map
      fun charts => (charts.map Chart.volume).sum).sum = groupedVolume (groupChartsByMarket charts) :=
    ((sorted.map Prod.snd).map _).sum_eq
  rw [← groupedVolume_groupChartsByMarket, ← volumes]
  simp only [aggregateCharts, withAveragePrice_volume, aggregateChartsByMarket, List.map_map, total_exact]
  congr 1
  exact List.map_congr_left fun group _ => (aggregateMarket_volume group).trans (total_exact _)

/-- The chart falls into the candle's timeframe. -/
def Within (duration : ℤ) (candle : Candle) (entry : MarketChart) : Prop :=
  candle.timestamp ≤ entry.chart.timestamp ∧ entry.chart.timestamp < candle.timestamp + duration

instance (duration : ℤ) (candle : Candle) (entry : MarketChart) :
    Decidable (Within duration candle entry) := inferInstanceAs (Decidable (_ ∧ _))

/-- The volume of the charts in a candle's timeframe. -/
def timeframeVolume (duration : ℤ) (charts : List MarketChart) (candle : Candle) : ℚ :=
  cellAmount (Within duration) volumeOf charts candle

/-- The candles are distinct timeframes in order, and each chart is counted in exactly one. -/
structure Conserves (start duration : ℤ) (charts : List MarketChart) (candles : List Candle) : Prop where
  increasing : candles.Pairwise fun first second => first.timestamp < second.timestamp
  aligned : ∀ candle ∈ candles, ∃ index : ℕ, candle.timestamp = start + index * duration
  volume : ∀ candle ∈ candles, candle.volume = timeframeVolume duration charts candle
  counted : ∀ entry ∈ charts, ∃ candle ∈ candles, Within duration candle entry

/-- The candle of the charts collected since the last closing, if there are any. -/
def lastCandle (state : BatchState) : Option Candle :=
  if state.currentTimeframeData = [] then none
  else some (aggregateCharts state.currentTimeframeData state.currentTimeframeStart)

/-- What `forEach` has reached after the charts seen so far, when no transition
came in: the closed candles are final, and the open timeframe holds the rest. -/
structure Collecting (start duration : ℤ) (seen : List MarketChart) (state : BatchState) : Prop where
  stop : state.currentTimeframeEnd = state.currentTimeframeStart + duration
  aligned : ∃ index : ℕ, state.currentTimeframeStart = start + index * duration
  before : ∀ entry ∈ seen, entry.chart.timestamp < state.currentTimeframeStart + duration
  data : state.currentTimeframeData =
    seen.filter fun entry => state.currentTimeframeStart ≤ entry.chart.timestamp
  reached : state.currentTimeframeStart = start ∨
    ∃ entry ∈ seen, state.currentTimeframeStart ≤ entry.chart.timestamp
  earlier : ∀ candle ∈ state.aggregatedTimeframes,
    candle.timestamp + duration ≤ state.currentTimeframeStart
  closed : Conserves start duration
    (seen.filter fun entry => entry.chart.timestamp < state.currentTimeframeStart)
    state.aggregatedTimeframes

private theorem timeframeVolume_append (duration : ℤ) (first second : List MarketChart) (candle : Candle) :
    timeframeVolume duration (first ++ second) candle =
      timeframeVolume duration first candle + timeframeVolume duration second candle :=
  cellAmount_append first second

/-- Charts after a candle's timeframe add nothing to it. -/
private theorem timeframeVolume_later {duration : ℤ} {charts : List MarketChart} {candle : Candle}
    (later : ∀ entry ∈ charts, candle.timestamp + duration ≤ entry.chart.timestamp) :
    timeframeVolume duration charts candle = 0 :=
  cellAmount_outside fun entry member within => absurd within.2 (not_lt.mpr (later entry member))

/-- The next timeframe holds the chart and lies a whole number of durations after the last. -/
theorem nextTimeframe_holds {duration stop timestamp : ℤ} (positive : 0 < duration)
    (late : stop ≤ timestamp) :
    ∃ skipped : ℕ, (resolveNextTimeframeInterval stop duration timestamp).1 = stop + skipped * duration ∧
      (resolveNextTimeframeInterval stop duration timestamp).1 ≤ timestamp ∧
      timestamp < (resolveNextTimeframeInterval stop duration timestamp).1 + duration := by
  have nonneg : 0 ≤ (timestamp - stop) / duration := Int.ediv_nonneg (by omega) positive.le
  have split := Int.mul_ediv_add_emod (timestamp - stop) duration
  have small := Int.emod_lt_of_pos (timestamp - stop) positive
  have rest := Int.emod_nonneg (timestamp - stop) positive.ne'
  refine ⟨((timestamp - stop) / duration).toNat, ?_, ?_, ?_⟩
  · rw [Int.toNat_of_nonneg nonneg, mul_comm]
    rfl
  · simp only [resolveNextTimeframeInterval]
    omega
  · simp only [resolveNextTimeframeInterval]
    omega

namespace Collecting

variable {start duration : ℤ} {seen : List MarketChart} {state : BatchState}

theorem initial (start duration : ℤ) : Collecting start duration []
    { currentTimeframeStart := start, currentTimeframeEnd := start + duration } where
  stop := rfl
  aligned := ⟨0, by simp⟩
  before := by simp
  data := rfl
  reached := .inl rfl
  earlier := by simp
  closed := ⟨.nil, by simp, by simp, by simp⟩

/-- The charts seen, split at the start of the open timeframe. -/
theorem timeframeVolume_seen (collecting : Collecting start duration seen state) (candle : Candle) :
    timeframeVolume duration seen candle =
      timeframeVolume duration
          (seen.filter fun entry => entry.chart.timestamp < state.currentTimeframeStart) candle +
        timeframeVolume duration state.currentTimeframeData candle := by
  rw [← timeframeVolume_append, collecting.data]
  apply cellAmount_perm
  have parts := List.filter_append_perm
    (fun entry : MarketChart => entry.chart.timestamp < state.currentTimeframeStart) seen
  have rest : (seen.filter fun entry => !decide (entry.chart.timestamp < state.currentTimeframeStart)) =
      seen.filter fun entry => state.currentTimeframeStart ≤ entry.chart.timestamp := by
    apply List.filter_congr
    intro entry _
    by_cases early : entry.chart.timestamp < state.currentTimeframeStart
    · simp [early, not_le.mpr early]
    · simp [early, not_lt.mp early]
  rw [rest] at parts
  exact parts.symm

theorem within_data (collecting : Collecting start duration seen state) :
    ∀ entry ∈ state.currentTimeframeData, state.currentTimeframeStart ≤ entry.chart.timestamp ∧
      entry.chart.timestamp < state.currentTimeframeStart + duration := by
  intro entry member
  rw [collecting.data] at member
  obtain ⟨present, late⟩ := List.mem_filter.mp member
  exact ⟨by simpa using late, collecting.before entry present⟩

private theorem volume_aggregated (collecting : Collecting start duration seen state)
    (closed : candle ∈ state.aggregatedTimeframes) :
    candle.volume = timeframeVolume duration seen candle := by
  have later : ∀ entry ∈ state.currentTimeframeData,
      candle.timestamp + duration ≤ entry.chart.timestamp := by
    intro entry member
    exact (collecting.earlier candle closed).trans (collecting.within_data entry member).1
  rw [collecting.timeframeVolume_seen, timeframeVolume_later later, add_zero]
  exact collecting.closed.volume candle closed

theorem volume_lastCandle (collecting : Collecting start duration seen state)
    (last : lastCandle state = some candle) :
    candle.timestamp = state.currentTimeframeStart ∧
      candle.volume = timeframeVolume duration seen candle := by
  simp only [lastCandle] at last
  split at last
  · cases last
  · obtain rfl := Option.some.inj last
    refine ⟨rfl, ?_⟩
    have earlier : timeframeVolume duration
        (seen.filter fun entry => entry.chart.timestamp < state.currentTimeframeStart)
        (aggregateCharts state.currentTimeframeData state.currentTimeframeStart) = 0 := by
      refine cellAmount_outside fun entry member within => ?_
      have before : entry.chart.timestamp < state.currentTimeframeStart := by
        simpa using (List.mem_filter.mp member).2
      exact absurd within.1 (not_le.mpr before)
    have all : timeframeVolume duration state.currentTimeframeData
        (aggregateCharts state.currentTimeframeData state.currentTimeframeStart) =
          (state.currentTimeframeData.map volumeOf).sum :=
      cellAmount_inside collecting.within_data
    rw [collecting.timeframeVolume_seen, earlier, all, zero_add, aggregateCharts_volume]

/-- Closing the open timeframe accounts for all charts seen. -/
theorem conserves (collecting : Collecting start duration seen state) (positive : 0 < duration) :
    Conserves start duration seen (state.aggregatedTimeframes ++ (lastCandle state).toList) where
  increasing := by
    refine List.pairwise_append.mpr ⟨collecting.closed.increasing, ?_, ?_⟩
    · cases lastCandle state with
      | none => exact .nil
      | some candle => exact List.pairwise_singleton _ candle
    · intro candle closed other last
      rw [(collecting.volume_lastCandle (Option.mem_toList.mp last)).1]
      have boundary := collecting.earlier candle closed
      omega
  aligned candle member := by
    rcases List.mem_append.mp member with closed | last
    · exact collecting.closed.aligned candle closed
    · rw [(collecting.volume_lastCandle (Option.mem_toList.mp last)).1]
      exact collecting.aligned
  volume candle member := by
    rcases List.mem_append.mp member with closed | last
    · exact collecting.volume_aggregated closed
    · exact (collecting.volume_lastCandle (Option.mem_toList.mp last)).2
  counted entry member := by
    by_cases early : entry.chart.timestamp < state.currentTimeframeStart
    · obtain ⟨candle, closed, within⟩ := collecting.closed.counted entry
        (List.mem_filter.mpr ⟨member, by simpa using early⟩)
      exact ⟨candle, List.mem_append_left _ closed, within⟩
    · have collected : entry ∈ state.currentTimeframeData := by
        rw [collecting.data]
        exact List.mem_filter.mpr ⟨member, by simpa using early⟩
      have some : state.currentTimeframeData ≠ [] := List.ne_nil_of_mem collected
      refine ⟨aggregateCharts state.currentTimeframeData state.currentTimeframeStart, ?_,
        collecting.within_data entry collected⟩
      simp [lastCandle, some]

theorem ends (collecting : Collecting start duration seen state) (positive : 0 < duration) :
    ∀ candle ∈ state.aggregatedTimeframes ++ (lastCandle state).toList,
      candle.timestamp ≤ state.currentTimeframeStart := by
  intro candle member
  rcases List.mem_append.mp member with closed | last
  · have boundary := collecting.earlier candle closed
    omega
  · exact (collecting.volume_lastCandle (Option.mem_toList.mp last)).1.le

private theorem reopen {candles : List Candle} {nextStart : ℤ} {entry : MarketChart}
    (conserved : Conserves start duration seen candles)
    (earlier : ∀ candle ∈ candles, candle.timestamp + duration ≤ nextStart)
    (before : ∀ other ∈ seen, other.chart.timestamp < nextStart)
    (aligned : ∃ index : ℕ, nextStart = start + index * duration)
    (holds : nextStart ≤ entry.chart.timestamp) (within : entry.chart.timestamp < nextStart + duration) :
    Collecting start duration (seen ++ [entry]) ⟨candles, nextStart, nextStart + duration, [entry]⟩ where
  stop := rfl
  aligned := aligned
  before other member := by
    rcases List.mem_append.mp member with old | new
    · have early := before other old
      have opened : nextStart < nextStart + duration := holds.trans_lt within
      exact early.trans opened
    · obtain rfl := List.mem_singleton.mp new
      exact within
  data := by
    have none : seen.filter (fun other => nextStart ≤ other.chart.timestamp) = [] := by
      rw [List.filter_eq_nil_iff]
      simpa using before
    simp [none, holds]
  reached := .inr ⟨entry, by simp, holds⟩
  earlier := earlier
  closed := by
    have all : seen.filter (fun other => other.chart.timestamp < nextStart) = seen := by
      rw [List.filter_eq_self]
      simpa using before
    simpa [all, not_lt.mpr holds] using conserved

/-- A chart outside the open timeframe closes it and opens its own. -/
theorem visitChart_outside (outside : isOutsideTimeframe candle.chart.timestamp
    state.currentTimeframeStart state.currentTimeframeEnd) :
    DiscreteAggregation.visitChart duration none state candle =
      { aggregatedTimeframes := state.aggregatedTimeframes ++ (lastCandle state).toList
        currentTimeframeStart :=
          (resolveNextTimeframeInterval state.currentTimeframeEnd duration candle.chart.timestamp).1
        currentTimeframeEnd :=
          (resolveNextTimeframeInterval state.currentTimeframeEnd duration candle.chart.timestamp).2
        currentTimeframeData := [candle] } := by
  simp only [DiscreteAggregation.visitChart, if_pos outside]
  rfl

theorem visitChart_inside [Arithmetic] (inside : ¬ isOutsideTimeframe candle.chart.timestamp
    state.currentTimeframeStart state.currentTimeframeEnd) :
    DiscreteAggregation.visitChart duration none state candle =
      { state with currentTimeframeData := state.currentTimeframeData ++ [candle] } := by
  simp only [DiscreteAggregation.visitChart, if_neg inside]

theorem reaches {candle : MarketChart} (collecting : Collecting start duration seen state)
    (sorted : ∀ entry ∈ seen, entry.chart.timestamp ≤ candle.chart.timestamp)
    (started : start ≤ candle.chart.timestamp) : state.currentTimeframeStart ≤ candle.chart.timestamp := by
  rcases collecting.reached with same | ⟨entry, member, late⟩
  · rw [same]
    exact started
  · exact late.trans (sorted entry member)

theorem visitChart (collecting : Collecting start duration seen state) (positive : 0 < duration)
    (sorted : ∀ entry ∈ seen, entry.chart.timestamp ≤ candle.chart.timestamp)
    (started : start ≤ candle.chart.timestamp) :
    Collecting start duration (seen ++ [candle])
      (DiscreteAggregation.visitChart duration none state candle) := by
  have reached := collecting.reaches sorted started
  have stop := collecting.stop
  by_cases outside : isOutsideTimeframe candle.chart.timestamp state.currentTimeframeStart
      state.currentTimeframeEnd
  · have late : state.currentTimeframeEnd ≤ candle.chart.timestamp := by
      rcases outside with early | late
      · exact absurd reached (not_le.mpr early)
      · exact late
    obtain ⟨skipped, next, holds, before⟩ := nextTimeframe_holds positive late
    rw [visitChart_outside outside]
    have skips : 0 ≤ (skipped : ℤ) * duration := by positivity
    refine reopen (collecting.conserves positive) ?_ ?_ ?_ holds before
    · intro closed member
      have boundary := collecting.ends positive closed member
      omega
    · intro entry member
      have earlier := collecting.before entry member
      omega
    · obtain ⟨index, aligned⟩ := collecting.aligned
      refine ⟨index + 1 + skipped, ?_⟩
      rw [next, stop, aligned]
      push_cast
      ring
  · have inside : candle.chart.timestamp < state.currentTimeframeStart + duration := by
      rw [← stop]
      exact not_le.mp fun late => outside (.inr late)
    rw [visitChart_inside outside]
    refine ⟨stop, collecting.aligned, ?_, ?_, ?_, collecting.earlier, ?_⟩
    · intro entry member
      rcases List.mem_append.mp member with old | new
      · exact collecting.before entry old
      · obtain rfl := List.mem_singleton.mp new
        exact inside
    · simp [collecting.data, reached]
    · exact .inr ⟨candle, by simp, reached⟩
    · simpa [not_lt.mpr reached] using collecting.closed

theorem visitCharts (positive : 0 < duration) {charts : List MarketChart}
    (sorted : charts.Pairwise chartLe) (started : ∀ entry ∈ charts, start ≤ entry.chart.timestamp) :
    Collecting start duration charts
      (DiscreteAggregation.visitCharts duration none start charts) := by
  induction charts using List.reverseRecOn with
  | nil => exact initial start duration
  | append_singleton charts entry ih =>
    obtain ⟨before, _, last⟩ := List.pairwise_append.mp sorted
    have collected := ih before fun other member => started other (List.mem_append_left _ member)
    have step : DiscreteAggregation.visitCharts duration none start (charts ++ [entry]) =
        DiscreteAggregation.visitChart duration none
          (DiscreteAggregation.visitCharts duration none start charts) entry := by
      simp [DiscreteAggregation.visitCharts]
    rw [step]
    refine collected.visitChart positive ?_ (started entry (by simp))
    exact fun other member => last other member entry (by simp)

end Collecting

instance : Std.Total chartLe := ⟨fun first second => le_total first.chart.timestamp second.chart.timestamp⟩

instance : IsTrans MarketChart chartLe := ⟨fun _ _ _ before after => le_trans before after⟩

/-- The candles a single batch of all records gives. -/
def singleBatchCandles [Arithmetic] (duration : ℤ) (records : List CandleStick) (start : ℤ) : List Candle :=
  let batch := processBatch duration none records start
  batch.aggregatedTimeframes ++ batch.unfinishedTimeframe.toList

/-- A single batch counts every chart of its records in exactly one timeframe. -/
theorem conserves_singleBatchCandles {start duration : ℤ} {records : List CandleStick}
    (positive : 0 < duration) (started : ∀ entry ∈ chartsOf records, start ≤ entry.chart.timestamp) :
    Conserves start duration (chartsOf records) (singleBatchCandles duration records start) := by
  have permuted := List.perm_insertionSort chartLe (chartsOf records)
  have collected : Collecting start duration (sortChartsByTimestamp records)
      (visitCharts duration none start (sortChartsByTimestamp records)) :=
    .visitCharts positive (List.pairwise_insertionSort chartLe _)
      fun entry member => started entry (permuted.mem_iff.mp member)
  have conserved := collected.conserves positive
  refine ⟨conserved.increasing, conserved.aligned, ?_, ?_⟩
  · intro candle member
    rw [conserved.volume candle member]
    exact cellAmount_perm permuted
  · exact fun entry member => conserved.counted entry (permuted.mem_iff.mpr member)

end PriceFeed.MarketRecords.DiscreteAggregation
