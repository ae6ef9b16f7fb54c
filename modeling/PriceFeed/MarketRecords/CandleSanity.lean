import PriceFeed.MarketRecords.Bucketing

/-! Open, close and average of every candle lie between its low and its high, through the
medians over the markets and the merges across batches. -/

namespace PriceFeed.MarketRecords.DiscreteAggregation

open PriceFeed.Library

/-- The open and the close of a chart or an aggregate lie within its range. -/
structure WithinRange (opening high low close : ℚ) : Prop where
  low_le_opening : low ≤ opening
  opening_le_high : opening ≤ high
  low_le_close : low ≤ close
  close_le_high : close ≤ high

def SaneChart (chart : Chart) : Prop := WithinRange chart.opening chart.high chart.low chart.close

def SaneCharts (charts : List MarketChart) : Prop := ∀ entry ∈ charts, SaneChart entry.chart

structure SaneCandle (candle : Candle) : Prop where
  prices : WithinRange candle.opening candle.high candle.low candle.close
  low_le_average : candle.low ≤ candle.aggregatedAveragePrice
  average_le_high : candle.aggregatedAveragePrice ≤ candle.high

theorem withAveragePrice_sane {aggregate : MarketAggregate} (timestamp : ℤ)
    (prices : WithinRange aggregate.opening aggregate.high aggregate.low aggregate.close) :
    SaneCandle (withAveragePrice timestamp aggregate) := by
  have range := prices.low_le_opening.trans prices.opening_le_high
  refine ⟨prices, ?_, ?_⟩
  · change aggregate.low ≤ (aggregate.high + aggregate.low) / 2
    linarith
  · change (aggregate.high + aggregate.low) / 2 ≤ aggregate.high
    linarith

/-- A market's open and close come from charts that its high and its low enclose. -/
private theorem aggregateMarket_sane {charts : List Chart} (some : charts ≠ []) (sane : ∀ chart ∈ charts, SaneChart chart) :
    WithinRange (aggregateMarket charts).opening (aggregateMarket charts).high
      (aggregateMarket charts).low (aggregateMarket charts).close := by
  have summarizes := aggregateMarket_summarizes some
  have high : ∀ chart ∈ charts, chart.high ≤ (aggregateMarket charts).high := fun chart member =>
    (List.max?_eq_some_iff.mp summarizes.high).2 _ (List.mem_map_of_mem member)
  have low : ∀ chart ∈ charts, (aggregateMarket charts).low ≤ chart.low := fun chart member =>
    (List.min?_eq_some_iff.mp summarizes.low).2 _ (List.mem_map_of_mem member)
  obtain ⟨first, found, opening⟩ := Option.map_eq_some_iff.mp summarizes.opening
  obtain ⟨last, ended, close⟩ := Option.map_eq_some_iff.mp summarizes.close
  have firstMember := List.mem_of_mem_head? found
  have lastMember := List.mem_of_getLast? ended
  rw [← opening, ← close]
  exact {
    low_le_opening := (low first firstMember).trans (sane first firstMember).low_le_opening
    opening_le_high := (sane first firstMember).opening_le_high.trans (high first firstMember)
    low_le_close := (low last lastMember).trans (sane last lastMember).low_le_close
    close_le_high := (sane last lastMember).close_le_high.trans (high last lastMember) }

theorem median_le_median {Item : Type*} {items : List Item} {first second : Item → ℚ}
    (below : ∀ item ∈ items, first item ≤ second item) :
    (median (items.map first)).getD 0 ≤ (median (items.map second)).getD 0 := by
  have dominated : List.Forall₂ (· ≤ ·) (items.map first) (items.map second) := by
    rw [List.forall₂_map_left_iff, List.forall₂_map_right_iff, List.forall₂_same]
    exact below
  rw [median, median, List.length_map, List.length_map]
  exact getD_le_getD (forall₂_insertionSort dominated) _ _

theorem aggregateCharts_sane {charts : List MarketChart} (sane : SaneCharts charts) (timestamp : ℤ) :
    SaneCandle (aggregateCharts charts timestamp) := by
  have markets : ∀ aggregate ∈ aggregateChartsByMarket (groupChartsByMarket charts),
      WithinRange aggregate.opening aggregate.high aggregate.low aggregate.close := by
    intro aggregate member
    obtain ⟨marketId, present, rfl⟩ := List.mem_map.mp ((aggregateChartsByMarket_perm charts).mem_iff.mp member)
    refine aggregateMarket_sane (group_ne_nil_iff.mpr (List.mem_dedup.mp present)) fun chart held => ?_
    obtain ⟨entry, selected, rfl⟩ := List.mem_map.mp held
    exact sane entry (List.mem_of_mem_filter selected)
  apply withAveragePrice_sane
  exact {
    low_le_opening := median_le_median fun aggregate member => (markets aggregate member).low_le_opening
    opening_le_high := median_le_median fun aggregate member => (markets aggregate member).opening_le_high
    low_le_close := median_le_median fun aggregate member => (markets aggregate member).low_le_close
    close_le_high := median_le_median fun aggregate member => (markets aggregate member).close_le_high }

/-- A candle that may be missing. -/
def SaneIfAny (candle : Option Candle) : Prop := ∀ found ∈ candle, SaneCandle found

theorem saneIfAny_none : SaneIfAny none := fun _ found => absurd found (Option.not_mem_none _)

theorem mergeTransitionalData_sane {previous current : Option Candle} (before : SaneIfAny previous)
    (after : SaneIfAny current) : SaneIfAny (mergeTransitionalData previous current) := by
  rcases previous with - | previous
  · cases current <;> exact after
  rcases current with - | current
  · exact before
  rintro _ ⟨⟩
  have early := (before previous rfl).prices
  have late := (after current rfl).prices
  apply withAveragePrice_sane
  exact {
    low_le_opening := (min_le_left _ _).trans early.low_le_opening
    opening_le_high := early.opening_le_high.trans (le_max_left _ _)
    low_le_close := (min_le_right _ _).trans late.low_le_close
    close_le_high := late.close_le_high.trans (le_max_right _ _) }

private theorem resolveLastTimeframeAggregation_sane {charts : List MarketChart} {transition : Option Candle}
    (sane : SaneCharts charts) (carried : SaneIfAny transition) (start : ℤ) :
    SaneIfAny (resolveLastTimeframeAggregation start charts transition) := by
  have closed : SaneIfAny (if charts = [] then none else some (aggregateCharts charts start)) := by
    split
    · exact saneIfAny_none
    · rintro _ ⟨⟩
      exact aggregateCharts_sane sane start
  cases transition with
  | none => exact closed
  | some transition => exact mergeTransitionalData_sane carried closed

private theorem handleUnfinishedTimeframe_sane {charts : List MarketChart} {transition unfinished : Option Candle}
    (sane : SaneCharts charts) (carried : SaneIfAny transition) (before : SaneIfAny unfinished) (start : ℤ) :
    SaneIfAny (handleUnfinishedTimeframe unfinished charts start transition) := by
  cases transition with
  | none =>
    rintro _ ⟨⟩
    exact aggregateCharts_sane sane start
  | some transition => exact mergeTransitionalData_sane carried before

variable {duration : ℤ} {transition : Option Candle} {stepSize : ℕ} {records : List CandleStick}

structure SaneBatch (state : BatchState) : Prop where
  closed : ∀ candle ∈ state.aggregatedTimeframes, SaneCandle candle
  collected : SaneCharts state.currentTimeframeData

theorem SaneBatch.visitChart {state : BatchState} {entry : MarketChart} (sane : SaneBatch state)
    (carried : SaneIfAny transition) (visited : SaneChart entry.chart) :
    SaneBatch (visitChart duration transition state entry) := by
  simp only [DiscreteAggregation.visitChart]
  split
  · refine ⟨fun candle member => ?_, by simpa [SaneCharts] using visited⟩
    rcases List.mem_append.mp member with old | new
    · exact sane.closed candle old
    · exact resolveLastTimeframeAggregation_sane sane.collected carried _ candle (Option.mem_toList.mp new)
  · refine ⟨sane.closed, fun other member => ?_⟩
    rcases List.mem_append.mp member with old | new
    · exact sane.collected other old
    · rwa [List.mem_singleton.mp new]

private theorem visitCharts_sane {charts : List MarketChart} (carried : SaneIfAny transition) (sane : SaneCharts charts)
    (start : ℤ) : SaneBatch (visitCharts duration transition start charts) := by
  induction charts using List.reverseRecOn with
  | nil => exact ⟨List.forall_mem_nil _, List.forall_mem_nil _⟩
  | append_singleton charts entry ih =>
    rw [visitCharts_concat]
    refine (ih fun other member => sane other (List.mem_append_left _ member)).visitChart carried ?_
    exact sane entry (by simp)

private theorem processBatch_sane {batch : List CandleStick} (carried : SaneIfAny transition)
    (sane : SaneCharts (chartsOf batch)) (start : ℤ) :
    (∀ candle ∈ (processBatch duration transition batch start).aggregatedTimeframes, SaneCandle candle) ∧
      SaneIfAny (processBatch duration transition batch start).unfinishedTimeframe := by
  have visited : SaneBatch (visitCharts duration transition start (sortChartsByTimestamp batch)) :=
    visitCharts_sane carried (fun entry member => sane entry ((List.mem_insertionSort chartLe).mp member)) start
  refine ⟨visited.closed, ?_⟩
  rw [processBatch]
  dsimp only
  split
  · exact saneIfAny_none
  · exact handleUnfinishedTimeframe_sane visited.collected carried saneIfAny_none _

structure SaneState (state : AggregationState) : Prop where
  closed : ∀ candle ∈ state.aggregatedData, SaneCandle candle
  carried : SaneIfAny state.transitionTimeframe

theorem SaneState.next {state : AggregationState} (sane : SaneState state)
    (charts : SaneCharts (chartsOf records)) :
    SaneState (fetchAndProcessBatch stepSize records duration state) := by
  have fetched : SaneCharts (chartsOf (fetchCandleSticks stepSize records state.offset)) := by
    intro entry member
    obtain ⟨record, present, held⟩ := List.mem_flatMap.mp member
    exact charts entry (List.mem_flatMap.mpr ⟨record, List.mem_of_mem_drop (List.mem_of_mem_take present), held⟩)
  rw [fetchAndProcessBatch]
  dsimp only
  split
  · exact ⟨sane.closed, sane.carried⟩
  · obtain ⟨closed, unfinished⟩ := processBatch_sane sane.carried fetched state.timeframeStart
    refine ⟨fun candle member => ?_, unfinished⟩
    exact (List.mem_append.mp member).elim (sane.closed candle) (closed candle)

/-- Every candle that comes out is sane if every stored chart is, and with a positive step
size the candles do come out. -/
theorem aggregateCandleSticks_sane (symbol : String) (start duration : ℤ) (stepSize : ℕ)
    (charts : SaneCharts (chartsOf records)) :
    (0 < stepSize → (aggregateCandleSticksForSymbol stepSize records duration symbol start).isSome) ∧
      ∀ result, aggregateCandleSticksForSymbol stepSize records duration symbol start = some result →
        ∀ candle ∈ result.candles, SaneCandle candle := by
  constructor
  · intro positive
    rw [aggregateCandleSticksForSymbol, Option.isSome_map]
    exact aggregateBatches_isSome positive (paged_initial start) (by simp)
  · intro result computed candle member
    obtain ⟨final, ended, rfl⟩ := Option.map_eq_some_iff.mp computed
    have sane : SaneState final := (aggregateBatches_invariant SaneState
      (fun state sane _ => sane.next charts) ended ⟨List.forall_mem_nil _, saneIfAny_none⟩).1
    rcases List.mem_append.mp member with closed | unfinished
    · exact sane.closed candle closed
    · exact sane.carried candle (Option.mem_toList.mp unfinished)

theorem aggregateCandleSticks_sane_cutTimeframe :
    (0 < 1 → (aggregateCandleSticksForSymbol 1 cutTimeframe 120000 "BTC/USD" 0).isSome) ∧
      ∀ result, aggregateCandleSticksForSymbol 1 cutTimeframe 120000 "BTC/USD" 0 = some result →
        ∀ candle ∈ result.candles, SaneCandle candle := by
  have sane : ∀ timestamp volume, SaneChart (chartAt timestamp volume) := by
    intro timestamp volume
    constructor <;> norm_num [chartAt]
  have charts : SaneCharts (chartsOf cutTimeframe) := by
    simp [SaneCharts, chartsOf, cutTimeframe, sane]
  exact aggregateCandleSticks_sane "BTC/USD" 0 120000 1 charts

end PriceFeed.MarketRecords.DiscreteAggregation
