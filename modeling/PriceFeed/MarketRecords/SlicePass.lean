import PriceFeed.MarketRecords.Aggregate
import PriceFeed.MarketRecords.Bucketing

/-! `AggregateCandleSticks` over a database with one order of its rows: the steps fold the
rows of the requested slice, and the result is the aggregate of one pass over them. -/

namespace PriceFeed.MarketRecords.AggregateCandleSticks

open PriceFeed.Library DiscreteAggregation SearchMarketRecordsScope

section Slice

/-- The rows from the offset on, up to the limit. -/
def slice (queryParams : SearchParams) (ordering : List CandleStickRow) : List CandleStickRow :=
  (ordering.drop queryParams.offset).take queryParams.limit

variable {queryParams : SearchParams} {ordering : List CandleStickRow} {state : StepState}

private theorem page_step [Arithmetic] {step : ℕ} (running : step < stepCount queryParams.limit)
    (folded : state.folded = (ordering.drop queryParams.offset).take (step * AGGREGATION_STEP_SIZE))
    (offset : state.offset = queryParams.offset + step * AGGREGATION_STEP_SIZE) :
    (aggregateStep queryParams (fun _ => ordering) step state).1.folded =
      (ordering.drop queryParams.offset).take (min queryParams.limit ((step + 1) * AGGREGATION_STEP_SIZE)) := by
  rw [← add_getStepLimit running, List.take_add, List.drop_drop, ← offset, ← folded]
  rfl

/-- The steps that remain fold what is left of the slice. -/
private theorem aggregateSteps_slice [Arithmetic] {remaining : ℕ} (within : remaining ≤ stepCount queryParams.limit)
    (folded : state.folded = (ordering.drop queryParams.offset).take
      (min queryParams.limit ((stepCount queryParams.limit - remaining) * AGGREGATION_STEP_SIZE)))
    (offset : 0 < remaining → state.offset =
      queryParams.offset + (stepCount queryParams.limit - remaining) * AGGREGATION_STEP_SIZE) :
    (aggregateSteps queryParams (fun _ => ordering) remaining state).folded =
      slice queryParams ordering := by
  induction remaining generalizing state with
  | zero =>
    have covered := limit_le_stepCount queryParams.limit
    rw [aggregateSteps, folded, Nat.sub_zero, min_eq_left covered, slice]
  | succ remaining ih =>
    obtain ⟨step, place⟩ : ∃ step, step = stepCount queryParams.limit - (remaining + 1) := ⟨_, rfl⟩
    rw [← place] at folded offset
    have running : step < stepCount queryParams.limit := by omega
    have next : stepCount queryParams.limit - remaining = step + 1 := by omega
    have reach := add_getStepLimit running
    have start := offset (Nat.succ_pos _)
    rw [min_eq_right (mul_le_limit running)] at folded
    have paged := page_step running folded start
    have size : (fetchCandleSticks queryParams
        (getStepLimit step (stepCount queryParams.limit) queryParams.limit) state.offset ordering).length =
      min (getStepLimit step (stepCount queryParams.limit) queryParams.limit)
        (ordering.length - state.offset) := by
      rw [fetchCandleSticks, page, List.length_take, List.length_drop]
    simp only [aggregateSteps, ← place]
    split
    · next short =>
      -- a short page is the last one of the ordering
      rw [aggregateStep, decide_eq_true_iff, size] at short
      rw [paged, slice, List.take_of_length_le, List.take_of_length_le]
      · rw [List.length_drop]
        omega
      · rw [List.length_drop]
        omega
    · next full =>
      rw [aggregateStep, decide_eq_true_iff, size] at full
      apply ih (by omega)
      · rw [next]
        exact paged
      · intro more
        have moved : (aggregateStep queryParams (fun _ => ordering) step state).1.offset = state.offset +
            min (getStepLimit step (stepCount queryParams.limit) queryParams.limit)
              (ordering.length - state.offset) := by
          rw [← size]
          rfl
        have beyond : step + 1 < stepCount queryParams.limit := by omega
        have whole := mul_le_limit beyond
        rw [next, moved, start, Nat.succ_mul]
        rw [Nat.succ_mul] at whole reach
        omega

theorem foldSymbol_slice [Arithmetic] (queryParams : SearchParams) (ordering : List CandleStickRow) :
    (foldSymbol queryParams fun _ => ordering).folded = slice queryParams ordering := by
  apply aggregateSteps_slice le_rfl
  · simp
  · simp

end Slice

section OnePass

/-- The charts of a market, in the order of the records. -/
abbrev recordedCharts (charts : List MarketChart) (marketId : ℕ) : List Chart :=
  group MarketChart.marketId MarketChart.chart charts marketId

def firstOpen (charts : List Chart) : Option ℚ := charts.head?.map Chart.opening

def maximalHigh (charts : List Chart) : Option ℚ := (charts.map Chart.high).max?

def minimalLow (charts : List Chart) : Option ℚ := (charts.map Chart.low).min?

def lastClose (charts : List Chart) : Option ℚ := charts.getLast?.map Chart.close

/-- The median over the markets of what each makes of all its charts. -/
def medianOf [Arithmetic] (summary : List Chart → Option ℚ) (charts : List MarketChart) : Option ℚ :=
  calculateMedian ((marketsOf charts).filterMap fun marketId => summary (recordedCharts charts marketId))

/-- Without any chart the medians are `null`. -/
structure HasCommonMedians [Arithmetic] (charts : List MarketChart) (aggregate : CommonAggregate) : Prop where
  opening : aggregate.opening = medianOf firstOpen charts
  high : aggregate.high = medianOf maximalHigh charts
  low : aggregate.low = medianOf minimalLow charts
  close : aggregate.close = medianOf lastClose charts

/-- Half the sum of two `null`s is zero. -/
structure IsAggregateOf (charts : List MarketChart) (aggregate : CommonAggregate) : Prop extends
    HasCommonMedians charts aggregate where
  volume : aggregate.volume = (charts.map volumeOf).sum
  average : aggregate.aggregatedAveragePrice = (aggregate.high.getD 0 + aggregate.low.getD 0) / 2

/-- Every positive number of the language lies between the initial values of both extremes. -/
def PositivePrices (charts : List MarketChart) : Prop :=
  ∀ entry ∈ charts, MIN_VALUE ≤ entry.chart.high ∧ entry.chart.low ≤ MAX_VALUE

/-- The entries of the markets, each from all charts of its market. -/
def PerMarket (summary : List Chart → Option ℚ) (charts : List MarketChart) (entries : OrderedMap ℕ ℚ) :
    Prop :=
  ∀ marketId, entries.get? marketId = summary (recordedCharts charts marketId)

structure Summarized (charts : List MarketChart) (aggregate : MarketsAggregate) : Prop where
  opening : PerMarket firstOpen charts aggregate.opening
  high : PerMarket maximalHigh charts aggregate.high
  low : PerMarket minimalLow charts aggregate.low
  close : PerMarket lastClose charts aggregate.close

/-- The sum over the records that have charts of what those of each sum up to. -/
def volumeByRecord [Arithmetic] (data : List CandleStick) : ℚ :=
  total ((data.filter fun candleStick => candleStick.charts ≠ []).map fun candleStick =>
    total (candleStick.charts.map Chart.volume))

private theorem recordedCharts_append (charts : List MarketChart) (candleStick : CandleStick) (marketId : ℕ) :
    recordedCharts (charts ++ chartsOf [candleStick]) marketId = recordedCharts charts marketId ++
      if candleStick.marketId = marketId then candleStick.charts else [] := by
  rw [recordedCharts, group_append]
  by_cases same : candleStick.marketId = marketId <;>
    simp [group, chartsOf, same, List.filter_map, Function.comp_def]

/-- A candle stick changes the entry of its own market only. -/
theorem PerMarket.set {charts : List MarketChart} {entries : OrderedMap ℕ ℚ} {candleStick : CandleStick}
    {summary : List Chart → Option ℚ} {value : ℚ} (perMarket : PerMarket summary charts entries)
    (own : some value = summary (recordedCharts charts candleStick.marketId ++ candleStick.charts)) :
    PerMarket summary (charts ++ chartsOf [candleStick]) (entries.set candleStick.marketId value) := by
  intro marketId
  rw [OrderedMap.get?_set, recordedCharts_append]
  by_cases same : candleStick.marketId = marketId
  · subst same
    rw [if_pos rfl, if_pos rfl, own]
  · rw [if_neg same, if_neg same, List.append_nil, perMarket]

theorem Summarized.update [Arithmetic] {charts : List MarketChart} {aggregate : MarketsAggregate}
    {candleStick : CandleStick} (summarized : Summarized charts aggregate)
    (positive : PositivePrices (chartsOf [candleStick])) :
    Summarized (charts ++ chartsOf [candleStick]) (updateMarket aggregate candleStick) := by
  obtain ⟨marketId, intervalStart, added⟩ := candleStick
  cases added with
  | nil => simpa [chartsOf, updateMarket] using summarized
  | cons first rest =>
    have prices : ∀ chart ∈ first :: rest, MIN_VALUE ≤ chart.high ∧ chart.low ≤ MAX_VALUE :=
      fun chart member => positive ⟨marketId, chart⟩ (by simpa [chartsOf] using member)
    have highs : ∀ high ∈ (first :: rest).map Chart.high, MIN_VALUE ≤ high := by
      intro high member
      obtain ⟨chart, held, rfl⟩ := List.mem_map.mp member
      exact (prices chart held).1
    have lows : ∀ low ∈ (first :: rest).map Chart.low, low ≤ MAX_VALUE := by
      intro low member
      obtain ⟨chart, held, rfl⟩ := List.mem_map.mp member
      exact (prices chart held).2
    constructor
    · apply PerMarket.set summarized.opening
      rw [getFirstOpen, summarized.opening, firstOpen, firstOpen, List.head?_append]
      cases (recordedCharts charts marketId).head? <;> rfl
    · apply PerMarket.set summarized.high
      rw [getMaxHigh, summarized.high, maximalHigh, maximalHigh, List.map_append,
        max?_append (by simp) highs, List.foldl_map]
    · apply PerMarket.set summarized.low
      rw [getMinLow, summarized.low, minimalLow, minimalLow, List.map_append,
        min?_append (by simp) lows, List.foldl_map]
    · apply PerMarket.set summarized.close
      simp [lastClose, getLastClose, List.getLast?_cons, List.getLastD_eq_getLast?]

theorem summarized_updateMarketsAggregate [Arithmetic] {data : List CandleStick}
    (positive : PositivePrices (chartsOf data)) :
    Summarized (chartsOf data) (updateMarketsAggregate {} data) := by
  induction data using List.reverseRecOn with
  | nil => exact ⟨fun _ => rfl, fun _ => rfl, fun _ => rfl, fun _ => rfl⟩
  | append_singleton data candleStick ih =>
    rw [chartsOf_append] at positive ⊢
    rw [updateMarketsAggregate, List.foldl_concat]
    obtain ⟨earlier, own⟩ := List.forall_mem_append.mp positive
    exact (ih earlier).update own

theorem volume_updateMarketsAggregate [Arithmetic] (data : List CandleStick) :
    (updateMarketsAggregate {} data).volume = volumeByRecord data := by
  induction data using List.reverseRecOn with
  | nil => rfl
  | append_singleton data candleStick ih =>
    rw [updateMarketsAggregate] at ih ⊢
    rw [List.foldl_concat, updateMarket]
    split
    · next none => simpa [volumeByRecord, none] using ih
    · next first rest some => simp [volumeByRecord, total, some, ih, getTotalVolume]

theorem volumeByRecord_exact (data : List CandleStick) :
    volumeByRecord data = ((chartsOf data).map volumeOf).sum := by
  induction data with
  | nil => rfl
  | cons candleStick rest ih =>
    simp only [volumeByRecord, total_exact] at ih ⊢
    by_cases none : candleStick.charts = []
    · simpa [none, chartsOf] using ih
    · simpa [none, chartsOf, volumeOf, Function.comp_def] using ih

private theorem calculateMedian_eq_of_perm [Arithmetic] {first second : List ℚ} (permuted : first.Perm second) :
    calculateMedian first = calculateMedian second := by
  have empty : first = [] ↔ second = [] := by
    rw [← List.length_eq_zero_iff, permuted.length_eq, List.length_eq_zero_iff]
  simp only [calculateMedian, insertionSort_eq_of_perm (fun _ _ _ _ => le_antisymm) permuted, empty]

/-- The entries are those of the markets present. -/
theorem calculateMedian_values [Arithmetic] {charts : List MarketChart} {entries : OrderedMap ℕ ℚ}
    {summary : List Chart → Option ℚ} (perMarket : PerMarket summary charts entries)
    (nothing : summary [] = none) : calculateMedian entries.values = medianOf summary charts := by
  have present : ∀ marketId, (entries.get? marketId).isSome → marketId ∈ marketsOf charts := by
    intro marketId held
    have some : recordedCharts charts marketId ≠ [] := by
      intro none
      rw [perMarket marketId, none, nothing] at held
      cases held
    exact List.mem_dedup.mpr (group_ne_nil_iff.mp some)
  rw [medianOf, calculateMedian_eq_of_perm (entries.values_perm_filterMap (List.nodup_dedup _) present)]
  exact congrArg calculateMedian (List.filterMap_congr fun marketId _ => perMarket marketId)

theorem calculateCommonAggregate_medians [Arithmetic] {charts : List MarketChart} {aggregate : MarketsAggregate}
    (summarized : Summarized charts aggregate) : HasCommonMedians charts (calculateCommonAggregate aggregate) where
  opening := calculateMedian_values summarized.opening rfl
  high := calculateMedian_values summarized.high rfl
  low := calculateMedian_values summarized.low rfl
  close := calculateMedian_values summarized.close rfl

end OnePass

/-- The steps fold the rows of the slice in their order, each once, and give the aggregate of
one pass over their charts. -/
theorem aggregatedData_slice (queryParams : SearchParams) (ordering : List CandleStickRow)
    (positive : PositivePrices (chartsOf ((slice queryParams ordering).map CandleStickRow.candleStick))) :
    (foldSymbol queryParams fun _ => ordering).folded = slice queryParams ordering ∧
      IsAggregateOf (chartsOf ((slice queryParams ordering).map CandleStickRow.candleStick))
        (aggregateDataForSymbol queryParams fun _ => ordering).aggregatedData := by
  refine ⟨foldSymbol_slice queryParams ordering, ?_⟩
  rw [aggregatedData_onePass, foldSymbol_slice]
  refine ⟨calculateCommonAggregate_medians (summarized_updateMarketsAggregate positive), ?_, rfl⟩
  rw [calculateCommonAggregate, volume_updateMarketsAggregate, volumeByRecord_exact]

section TwoMarkets

def rowOf (marketId : ℕ) (charts : List Chart) : CandleStickRow where
  id := marketId
  symbol := "BTC/EUR"
  exchangeName := "kraken"
  candleStick := ⟨marketId, 0, charts⟩

def twoMarkets : List CandleStickRow :=
  [rowOf 1 [], rowOf 1 [⟨0, 1, 2, 1, 2, 10⟩], rowOf 2 [⟨0, 1, 2, 1, 2, 10⟩]]

/-- The last two of three rows. -/
def lastTwo : SearchParams where
  symbol := "BTC/EUR"
  exchangeNames := ["kraken"]
  rangeDateStart := 0
  rangeDateEnd := 60000
  limit := 2
  offset := 1

theorem aggregatedData_slice_lastTwo :
    (foldSymbol lastTwo fun _ => twoMarkets).folded = slice lastTwo twoMarkets ∧
      IsAggregateOf (chartsOf ((slice lastTwo twoMarkets).map CandleStickRow.candleStick))
        (aggregateDataForSymbol lastTwo fun _ => twoMarkets).aggregatedData := by
  have least : MIN_VALUE ≤ 2 := by
    have power : (1 : ℚ) ≤ 2 ^ 1074 := one_le_pow₀ (by norm_num)
    exact (div_le_one_of_le₀ power (by positivity)).trans (by norm_num)
  have greatest : 1 ≤ MAX_VALUE := by
    have power : (1 : ℚ) ≤ 2 ^ 971 := one_le_pow₀ (by norm_num)
    have factor : (1 : ℚ) ≤ 2 ^ 53 - 1 := by norm_num
    exact one_le_mul_of_one_le_of_one_le factor power
  refine aggregatedData_slice lastTwo twoMarkets ?_
  simp [PositivePrices, slice, lastTwo, twoMarkets, rowOf, chartsOf, least, greatest]

end TwoMarkets

end PriceFeed.MarketRecords.AggregateCandleSticks
