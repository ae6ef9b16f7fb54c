import PriceFeed.MarketRecords.BatchBoundaries

/-! When the candles of a symbol do not depend on the step size, and when they
count every chart of every market exactly once. -/

namespace PriceFeed.MarketRecords.DiscreteAggregation

open PriceFeed.Library

variable {stepSize : ℕ} {records : List CandleStick} {duration start : ℤ} {state : AggregationState}

/-- Distinct timeframes on one grid do not overlap. -/
theorem Conserves.apart (conserves : Conserves start duration charts candles)
    (positive : 0 < duration) : Apart (Within duration) candles := by
  refine List.Pairwise.imp_of_mem ?_ conserves.increasing
  intro first second member present before entry within again
  obtain ⟨index, here⟩ := conserves.aligned first member
  obtain ⟨other, there⟩ := conserves.aligned second present
  have order : (index : ℤ) < other := by
    rw [here, there] at before
    have scaled : (index : ℤ) * duration < other * duration := by omega
    exact lt_of_mul_lt_mul_right scaled positive.le
  have step : ((index : ℤ) + 1) * duration ≤ other * duration :=
    mul_le_mul_of_nonneg_right (by omega) positive.le
  have expanded : ((index : ℤ) + 1) * duration = index * duration + duration := by ring
  have upper := within.2
  have lower := again.1
  omega

theorem Conserves.total (conserves : Conserves start duration charts candles)
    (positive : 0 < duration) : candleVolume candles = totalVolume charts := by
  have volumes : candles.map Candle.volume = candles.map (timeframeVolume duration charts) :=
    List.map_congr_left conserves.volume
  rw [candleVolume, volumes]
  exact sum_cellAmount (conserves.apart positive) conserves.counted

/-- A loop that ended short does not conserve the charts. -/
private theorem Short.not_conserves (short : Short stepSize records state) (positive : 0 < duration)
    (volumes : PositiveVolumes (chartsOf records)) (ended : state.offset = records.length) :
    ¬ Conserves start duration (chartsOf records)
      (state.aggregatedData ++ state.transitionTimeframe.toList) := by
  intro conserves
  have total := conserves.total positive
  have all : fetchedCharts records state = chartsOf records := by
    rw [fetchedCharts, ended, List.take_length]
  have missing := short.short volumes (List.pairwise_append.mp conserves.increasing).1
  rw [all] at missing
  rw [candleVolume_append] at total
  cases transition : state.transitionTimeframe with
  | none =>
    rw [transition] at missing total
    simp only [FallsShort] at missing
    simp only [Option.toList_none, candleVolume, List.map_nil, List.sum_nil, add_zero] at total missing
    linarith
  | some carried =>
    rw [transition] at missing total conserves
    obtain ⟨_, ⟨_, bounded⟩ | ⟨⟨emitted, member, same⟩, _⟩⟩ := missing
    · simp only [Option.toList_some, candleVolume, List.map_cons, List.map_nil, List.sum_cons,
        List.sum_nil, add_zero] at total bounded
      linarith
    · have after := (List.pairwise_append.mp conserves.increasing).2.2 emitted member carried (by simp)
      omega

private theorem phase_initial (start : ℤ) :
    Phase stepSize start duration records { timeframeStart := start } :=
  .inl ⟨by simp [fetchedCharts, chartsOf], rfl, rfl, rfl⟩

/-- What comes out: the candles of a single batch when all charts are in the last
one, and otherwise candles that lose volume. -/
theorem aggregateCandleSticks_cases (symbol : String) (step : 0 < stepSize) (positive : 0 < duration) :
    ∃ result, aggregateCandleSticksForSymbol stepSize records duration symbol start = some result ∧
      ((ChartsInLastBatch stepSize records ∧
          result.candles = singleBatchCandles duration records start) ∨
        (¬ ChartsInLastBatch stepSize records ∧ (PositiveVolumes (chartsOf records) →
          ¬ Conserves start duration (chartsOf records) result.candles))) := by
  have ends : (aggregateBatches stepSize records duration (records.length + 1)
      { timeframeStart := start }).isSome :=
    aggregateBatches_isSome step (paged_initial start) (by simp)
  obtain ⟨final, ended⟩ := Option.isSome_iff_exists.mp ends
  have reached := aggregateBatches_invariant
    (fun state => Paged stepSize records state ∧ Phase stepSize start duration records state)
    (fun state held running => ⟨held.1.next running, held.2.next held.1 running⟩) ended
    ⟨paged_initial start, phase_initial start⟩
  obtain ⟨⟨paged, phase⟩, last⟩ := reached
  have offset := paged.finished last
  have all : records.take final.offset = records := by rw [offset, List.take_length]
  refine ⟨_, by rw [aggregateCandleSticksForSymbol, ended]; rfl, ?_⟩
  rcases phase with untouched | oneBatch | short
  · left
    have none : chartsOf records = [] := by
      rw [← all]
      exact untouched.charts
    refine ⟨fun record member => chartsOf_eq_nil_iff.mp none record (List.mem_of_mem_take member), ?_⟩
    simp [untouched.candles, untouched.transition, singleBatchCandles, processBatch_empty _ _ none]
  · left
    obtain ⟨unfinished, carried, _, same, _⟩ := oneBatch.unfinished
    obtain ⟨page, multiple, before, bounded, none⟩ := oneBatch.page
    rw [offset] at before bounded
    refine ⟨?_, ?_⟩
    · rw [ChartsInLastBatch, ← page_eq_lastBatchStart multiple before bounded]
      exact chartsOf_eq_nil_iff.mp none
    · rw [all] at same
      simpa [carried] using same
  · right
    refine ⟨?_, fun volumes => short.not_conserves positive volumes offset⟩
    obtain ⟨page, multiple, before, held⟩ := short.later
    rw [offset] at before
    intro inLast
    have early := page_le_lastBatchStart step multiple before
    apply held
    rw [chartsOf_eq_nil_iff]
    exact fun record member => inLast record (List.take_subset_take_left records early member)

private theorem chartsInLastBatch_whole {wholeSize : ℕ} (fits : records.length ≤ wholeSize) :
    ChartsInLastBatch wholeSize records := by
  have first : lastBatchStart wholeSize records.length = 0 := by
    by_cases none : records.length = 0
    · simp [lastBatchStart, none]
    · have below : (records.length - 1) / wholeSize = 0 := Nat.div_eq_of_lt (by omega)
      rw [lastBatchStart, below, Nat.zero_mul]
  simp [ChartsInLastBatch, first]

section StepSizes

variable {wholeSize : ℕ} (symbol : String)

/-- Every step size gives the candles of a step size that takes all records at once if all charts
are in the last batch, and, as far as the charts have volume, only then. Neither one market nor
charts in order are needed. -/
theorem stepSize_independent_iff (step : 0 < stepSize) (whole : 0 < wholeSize)
    (fits : records.length ≤ wholeSize) (positive : 0 < duration)
    (started : ∀ entry ∈ chartsOf records, start ≤ entry.chart.timestamp) :
    ∃ batched single,
      aggregateCandleSticksForSymbol stepSize records duration symbol start = some batched ∧
      aggregateCandleSticksForSymbol wholeSize records duration symbol start = some single ∧
      (ChartsInLastBatch stepSize records → batched.candles = single.candles) ∧
      (PositiveVolumes (chartsOf records) → batched.candles = single.candles →
        ChartsInLastBatch stepSize records) := by
  obtain ⟨batched, computed, outcome⟩ := aggregateCandleSticks_cases symbol step positive
  obtain ⟨single, computed', outcome'⟩ := aggregateCandleSticks_cases symbol whole positive
  have reference : single.candles = singleBatchCandles duration records start := by
    rcases outcome' with ⟨_, same⟩ | ⟨apart, _⟩
    · exact same
    · exact absurd (chartsInLastBatch_whole fits) apart
  refine ⟨batched, single, computed, computed', ?_, ?_⟩
  · intro inLast
    rcases outcome with ⟨_, same⟩ | ⟨apart, _⟩
    · rw [same, reference]
    · exact absurd inLast apart
  · intro volumes same
    rcases outcome with ⟨inLast, _⟩ | ⟨_, loses⟩
    · exact inLast
    · rw [same, reference] at loses
      exact absurd (conserves_singleBatchCandles positive started) (loses volumes)

/-- The candles count every chart of every market exactly once if all charts are in the last batch,
and, as far as the charts have volume, only then. The order of the records is not needed. -/
theorem charts_counted_once_iff (step : 0 < stepSize) (positive : 0 < duration)
    (started : ∀ entry ∈ chartsOf records, start ≤ entry.chart.timestamp) :
    ∃ result, aggregateCandleSticksForSymbol stepSize records duration symbol start = some result ∧
      (ChartsInLastBatch stepSize records →
        Conserves start duration (chartsOf records) result.candles) ∧
      (PositiveVolumes (chartsOf records) →
        Conserves start duration (chartsOf records) result.candles →
        ChartsInLastBatch stepSize records) := by
  obtain ⟨result, computed, outcome⟩ := aggregateCandleSticks_cases symbol step positive
  refine ⟨result, computed, ?_, ?_⟩
  · intro inLast
    rcases outcome with ⟨_, same⟩ | ⟨apart, _⟩
    · rw [same]
      exact conserves_singleBatchCandles positive started
    · exact absurd inLast apart
  · intro volumes conserves
    rcases outcome with ⟨inLast, _⟩ | ⟨_, loses⟩
    · exact inLast
    · exact absurd conserves (loses volumes)

end StepSizes

def chartAt (timestamp : ℤ) (volume : ℚ) : Chart := ⟨timestamp, 10, 12, 8, 11, volume⟩

/-- One timeframe of two minutes, cut by a batch boundary at step size one. -/
def cutTimeframe : List CandleStick :=
  [⟨1, 0, [chartAt 0 1]⟩, ⟨1, 60000, [chartAt 60000 2]⟩]

/-- The second batch keeps the candle of the first and forgets its own chart. -/
theorem stepSize_changes_candles : ¬ ∀ (stepSize wholeSize : ℕ) (records : List CandleStick)
    (duration start : ℤ) (symbol : String), 0 < stepSize → 0 < wholeSize →
    records.length ≤ wholeSize → 0 < duration →
    (∀ first ∈ records, ∀ second ∈ records, first.marketId = second.marketId) →
    (chartsOf records).Pairwise chartLe →
    (∀ entry ∈ chartsOf records, start ≤ entry.chart.timestamp) →
    (aggregateCandleSticksForSymbol stepSize records duration symbol start).map
        AggregationResult.candles =
      (aggregateCandleSticksForSymbol wholeSize records duration symbol start).map
        AggregationResult.candles := by
  intro same
  have equal := same 1 3 cutTimeframe 120000 0 "BTC/USD" (by decide) (by decide) (by decide)
    (by decide) (by decide) (by decide) (by decide)
  revert equal
  decide +kernel

theorem stepSize_independent_iff_cutTimeframe :
    ∃ batched single,
      aggregateCandleSticksForSymbol 2 cutTimeframe 120000 "BTC/USD" 0 = some batched ∧
      aggregateCandleSticksForSymbol 3 cutTimeframe 120000 "BTC/USD" 0 = some single ∧
      (ChartsInLastBatch 2 cutTimeframe → batched.candles = single.candles) ∧
      (PositiveVolumes (chartsOf cutTimeframe) → batched.candles = single.candles →
        ChartsInLastBatch 2 cutTimeframe) :=
  stepSize_independent_iff "BTC/USD" (by decide) (by decide) (by decide) (by decide) (by decide)

/-- Two markets whose records overlap: the second reaches back before the last timeframe of the first. -/
def overlappingMarkets : List CandleStick :=
  [⟨1, 0, [chartAt 0 1, chartAt 120000 1]⟩, ⟨2, 60000, [chartAt 60000 2]⟩]

/-- The last timeframe of the first market comes out twice, and the chart of the second is lost. -/
theorem charts_not_counted : ¬ ∀ (stepSize : ℕ) (records : List CandleStick) (duration start : ℤ)
    (symbol : String), 0 < stepSize → 0 < duration →
    records.Pairwise (fun first second => first.intervalStart ≤ second.intervalStart) →
    (∀ entry ∈ chartsOf records, start ≤ entry.chart.timestamp) →
    ∃ result, aggregateCandleSticksForSymbol stepSize records duration symbol start = some result ∧
      Conserves start duration (chartsOf records) result.candles := by
  intro counted
  obtain ⟨result, computed, conserves⟩ := counted 1 overlappingMarkets 120000 0 "BTC/USD"
    (by decide) (by decide) (by decide) (by decide)
  have timestamps : (aggregateCandleSticksForSymbol 1 overlappingMarkets 120000 "BTC/USD" 0).map
      (fun result => result.candles.map Candle.timestamp) = some [0, 120000, 120000] := by
    decide +kernel
  rw [computed] at timestamps
  have increasing := conserves.increasing.map Candle.timestamp fun _ _ before => before
  have emitted : result.candles.map Candle.timestamp = [0, 120000, 120000] := Option.some.inj timestamps
  rw [emitted] at increasing
  revert increasing
  decide

theorem charts_counted_once_iff_overlappingMarkets :
    ∃ result, aggregateCandleSticksForSymbol 2 overlappingMarkets 120000 "BTC/USD" 0 = some result ∧
      (ChartsInLastBatch 2 overlappingMarkets →
        Conserves 0 120000 (chartsOf overlappingMarkets) result.candles) ∧
      (PositiveVolumes (chartsOf overlappingMarkets) →
        Conserves 0 120000 (chartsOf overlappingMarkets) result.candles →
        ChartsInLastBatch 2 overlappingMarkets) :=
  charts_counted_once_iff "BTC/USD" (by decide) (by decide) (by decide)

end PriceFeed.MarketRecords.DiscreteAggregation
