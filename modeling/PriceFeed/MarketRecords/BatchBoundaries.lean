import PriceFeed.MarketRecords.BatchOutcomes

/-! The loop over the batches: where its pages end, what a batch after the first
one with charts loses, and when the result counts every chart once. -/

namespace PriceFeed.MarketRecords.DiscreteAggregation

open PriceFeed.Library

variable {stepSize : ℕ} {records : List CandleStick} {duration start : ℤ} {state : AggregationState}

section Pages

/-- Where the last page that is not empty starts. -/
def lastBatchStart (stepSize count : ℕ) : ℕ := (count - 1) / stepSize * stepSize

/-- All charts are in the last batch that is not empty: the records of every earlier one have none. -/
def ChartsInLastBatch (stepSize : ℕ) (records : List CandleStick) : Prop :=
  ∀ record ∈ records.take (lastBatchStart stepSize records.length), record.charts = []

instance (stepSize : ℕ) (records : List CandleStick) : Decidable (ChartsInLastBatch stepSize records) :=
  inferInstanceAs (Decidable (∀ record ∈ _, _))

theorem chartsOf_append (first second : List CandleStick) :
    chartsOf (first ++ second) = chartsOf first ++ chartsOf second := by
  simp [chartsOf]

theorem chartsOf_eq_nil_iff {records : List CandleStick} :
    chartsOf records = [] ↔ ∀ record ∈ records, record.charts = [] := by
  simp [chartsOf]

/-- A page that starts before the end starts no later than the last one. -/
theorem page_le_lastBatchStart (positive : 0 < stepSize) (page : stepSize ∣ offset)
    (inside : offset < count) : offset ≤ lastBatchStart stepSize count := by
  obtain ⟨index, rfl⟩ := page
  have before : index ≤ (count - 1) / stepSize := by
    rw [Nat.le_div_iff_mul_le positive, Nat.mul_comm]
    omega
  rw [lastBatchStart, Nat.mul_comm]
  exact Nat.mul_le_mul_right stepSize before

theorem page_eq_lastBatchStart (page : stepSize ∣ offset)
    (inside : offset < count) (last : count ≤ offset + stepSize) :
    offset = lastBatchStart stepSize count := by
  obtain ⟨index, rfl⟩ := page
  have here : (count - 1) / stepSize = index := by
    apply Nat.div_eq_of_lt_le
    · rw [Nat.mul_comm]
      omega
    · rw [Nat.succ_mul, Nat.mul_comm index]
      omega
  rw [lastBatchStart, here, Nat.mul_comm]

private theorem take_fetch (offset : ℕ) :
    records.take (offset + (fetchCandleSticks stepSize records offset).length) =
      records.take offset ++ fetchCandleSticks stepSize records offset := by
  rw [List.take_add, fetchCandleSticks, List.length_take]
  congr 1
  by_cases short : (records.drop offset).length ≤ stepSize
  · rw [Nat.min_eq_right short, List.take_length, List.take_of_length_le short]
  · rw [Nat.min_eq_left (by omega)]

/-- Where the loop stands in the records. -/
structure Paged (stepSize : ℕ) (records : List CandleStick) (state : AggregationState) : Prop where
  bounded : state.offset ≤ records.length
  page : state.isLastBatch = false → stepSize ∣ state.offset
  finished : state.isLastBatch = true → state.offset = records.length

theorem paged_initial (start : ℤ) : Paged stepSize records { timeframeStart := start } :=
  ⟨Nat.zero_le _, fun _ => Nat.dvd_zero _, by simp⟩

theorem fetchAndProcessBatch_offset :
    (fetchAndProcessBatch stepSize records duration state).offset =
      state.offset + (fetchCandleSticks stepSize records state.offset).length := by
  by_cases empty : fetchCandleSticks stepSize records state.offset = []
  · simp [fetchAndProcessBatch, empty]
  · simp [fetchAndProcessBatch, empty]

theorem fetchAndProcessBatch_isLastBatch :
    (fetchAndProcessBatch stepSize records duration state).isLastBatch =
      decide ((fetchCandleSticks stepSize records state.offset).length < stepSize) := by
  by_cases empty : fetchCandleSticks stepSize records state.offset = []
  · simp [fetchAndProcessBatch, empty]
  · simp [fetchAndProcessBatch, empty]

theorem length_fetchCandleSticks (offset : ℕ) :
    (fetchCandleSticks stepSize records offset).length = min stepSize (records.length - offset) := by
  simp [fetchCandleSticks]

theorem Paged.next (paged : Paged stepSize records state) (running : state.isLastBatch = false) :
    Paged stepSize records (fetchAndProcessBatch stepSize records duration state) := by
  have bounded := paged.bounded
  have length : (fetchCandleSticks stepSize records state.offset).length =
      min stepSize (records.length - state.offset) := length_fetchCandleSticks state.offset
  refine ⟨?_, ?_, ?_⟩
  · rw [fetchAndProcessBatch_offset]
    omega
  · rw [fetchAndProcessBatch_isLastBatch, fetchAndProcessBatch_offset]
    intro more
    have full : (fetchCandleSticks stepSize records state.offset).length = stepSize := by
      have long := of_decide_eq_false more
      omega
    rw [full]
    exact Nat.dvd_add (paged.page running) (Nat.dvd_refl stepSize)
  · rw [fetchAndProcessBatch_isLastBatch, fetchAndProcessBatch_offset]
    intro last
    have short := of_decide_eq_true last
    omega

/-- The loop reaches a last batch within its rounds. -/
theorem aggregateBatches_isSome (positive : 0 < stepSize) {rounds : ℕ}
    (paged : Paged stepSize records state)
    (enough : state.isLastBatch = false → records.length - state.offset < rounds) :
    (aggregateBatches stepSize records duration rounds state).isSome := by
  induction rounds generalizing state with
  | zero =>
    cases last : state.isLastBatch with
    | false => exact absurd (enough last) (Nat.not_lt_zero _)
    | true => simp [aggregateBatches, last]
  | succ rounds ih =>
    cases last : state.isLastBatch with
    | true => simp [aggregateBatches, last]
    | false =>
      simp only [aggregateBatches, last, Bool.false_eq_true, ↓reduceIte]
      refine ih (paged.next last) fun more => ?_
      have before := enough last
      have length : (fetchCandleSticks stepSize records state.offset).length =
          min stepSize (records.length - state.offset) := length_fetchCandleSticks state.offset
      rw [fetchAndProcessBatch_isLastBatch] at more
      have long := of_decide_eq_false more
      rw [fetchAndProcessBatch_offset]
      omega

/-- What every round keeps holds when the loop ends. -/
theorem aggregateBatches_invariant (holds : AggregationState → Prop)
    (preserved : ∀ state, holds state → state.isLastBatch = false →
      holds (fetchAndProcessBatch stepSize records duration state))
    {rounds : ℕ} (ended : aggregateBatches stepSize records duration rounds state = some final)
    (initial : holds state) : holds final ∧ final.isLastBatch = true := by
  induction rounds generalizing state with
  | zero =>
    simp only [aggregateBatches] at ended
    split at ended
    · next last =>
      obtain rfl := Option.some.inj ended
      exact ⟨initial, last⟩
    · cases ended
  | succ rounds ih =>
    simp only [aggregateBatches] at ended
    split at ended
    · next last =>
      obtain rfl := Option.some.inj ended
      exact ⟨initial, last⟩
    · next running => exact ih ended (preserved state initial (by simpa using running))

end Pages

section Phases

/-- The charts of the records fetched so far. -/
def fetchedCharts (records : List CandleStick) (state : AggregationState) : List MarketChart :=
  chartsOf (records.take state.offset)

/-- No record fetched so far had charts. -/
structure Untouched (start : ℤ) (records : List CandleStick) (state : AggregationState) : Prop where
  charts : fetchedCharts records state = []
  candles : state.aggregatedData = []
  transition : state.transitionTimeframe = none
  timeframe : state.timeframeStart = start

/-- All charts so far came with the page fetched last. -/
structure OneBatch (stepSize : ℕ) (start duration : ℤ) (records : List CandleStick)
    (state : AggregationState) : Prop where
  charts : fetchedCharts records state ≠ []
  page : ∃ page, stepSize ∣ page ∧ page < state.offset ∧ state.offset ≤ page + stepSize ∧
    chartsOf (records.take page) = []
  unfinished : ∃ unfinished, state.transitionTimeframe = some unfinished ∧
    unfinished.timestamp = state.timeframeStart ∧
    state.aggregatedData ++ [unfinished] =
      singleBatchCandles duration (records.take state.offset) start ∧
    candleVolume state.aggregatedData + unfinished.volume = totalVolume (fetchedCharts records state) ∧
    (PositiveVolumes (fetchedCharts records state) → 0 < unfinished.volume)

/-- Volume is missing for good. A transition that is still open could not make up
for it, and one that has been emitted can only repeat its timestamp. -/
def FallsShort (fetched : ℚ) (candles : List Candle) (timeframeStart : ℤ) : Option Candle → Prop
  | none => candleVolume candles < fetched
  | some carried => 0 < carried.volume ∧
      ((carried.timestamp = timeframeStart ∧ candleVolume candles + carried.volume < fetched) ∨
        (∃ candle ∈ candles, candle.timestamp = carried.timestamp) ∧ candleVolume candles < fetched)

def Increasing (candles : List Candle) : Prop :=
  candles.Pairwise fun first second => first.timestamp < second.timestamp

/-- A page was fetched after one with charts. -/
structure Short (stepSize : ℕ) (records : List CandleStick) (state : AggregationState) : Prop where
  later : ∃ page, stepSize ∣ page ∧ page < state.offset ∧ chartsOf (records.take page) ≠ []
  short : PositiveVolumes (chartsOf records) → Increasing state.aggregatedData →
    FallsShort (totalVolume (fetchedCharts records state)) state.aggregatedData state.timeframeStart
      state.transitionTimeframe

private theorem singleBatchCandles_congr {first second : List CandleStick}
    (same : chartsOf first = chartsOf second) :
    singleBatchCandles duration first start = singleBatchCandles duration second start := by
  have sorted : sortChartsByTimestamp first = sortChartsByTimestamp second := by
    rw [sortChartsByTimestamp, sortChartsByTimestamp, same]
  have processed : processBatch duration none first start = processBatch duration none second start := by
    rw [processBatch, processBatch, sorted]
  rw [singleBatchCandles, singleBatchCandles, processed]

section Next

variable {batch : List CandleStick}

/-- A batch that starts with an open transition falls short afterwards. -/
theorem fallsShort_open {carried : Candle} {candles : List Candle} {fetched : ℚ}
    (held : chartsOf batch ≠ []) (positive : PositiveVolumes (chartsOf batch))
    (stamped : carried.timestamp = start) (volume : 0 < carried.volume)
    (bounded : candleVolume candles + carried.volume ≤ fetched)
    (increasing : Increasing
      (candles ++ (processBatch duration (some carried) batch start).aggregatedTimeframes)) :
    FallsShort (fetched + totalVolume (chartsOf batch))
      (candles ++ (processBatch duration (some carried) batch start).aggregatedTimeframes)
      (processBatch duration (some carried) batch start).lastTimeframeStart (some carried) := by
  obtain ⟨_, repeated, first⟩ := processBatch_carried duration start held carried
  have more := totalVolume_pos positive held
  refine ⟨volume, ?_⟩
  rcases first stamped with ⟨none, kept⟩ | ⟨candle, rest, shape, same, lost⟩
  · left
    rw [none, List.append_nil, kept]
    exact ⟨stamped, by linarith⟩
  · right
    rw [shape] at repeated increasing ⊢
    have alone : rest = [] := by
      cases rest with
      | nil => rfl
      | cons second others =>
        have order := (List.pairwise_append.mp increasing).2.1
        have after := (List.pairwise_cons.mp order).1 second (by simp)
        have again := repeated second (by simp)
        omega
    have less := lost alone positive
    refine ⟨⟨candle, by simp, same⟩, ?_⟩
    rw [alone, candleVolume_append]
    simp only [candleVolume, List.map_cons, List.map_nil, List.sum_cons, List.sum_nil] at bounded ⊢
    linarith

/-- A batch after the shortfall does not make up for it. -/
private theorem fallsShort_next {transition : Option Candle} {candles : List Candle} {fetched : ℚ}
    (positive : PositiveVolumes (chartsOf batch))
    (short : FallsShort fetched candles start transition)
    (increasing : Increasing
      (candles ++ (processBatch duration transition batch start).aggregatedTimeframes)) :
    FallsShort (fetched + totalVolume (chartsOf batch))
      (candles ++ (processBatch duration transition batch start).aggregatedTimeframes)
      (processBatch duration transition batch start).lastTimeframeStart
      (processBatch duration transition batch start).unfinishedTimeframe := by
  by_cases empty : chartsOf batch = []
  · rw [processBatch_empty duration start empty, empty]
    simp only [List.append_nil, totalVolume, List.map_nil, List.sum_nil, add_zero]
    cases transition with
    | none => exact short
    | some carried =>
      obtain ⟨volume, ⟨_, bounded⟩ | ⟨_, bounded⟩⟩ := short
      · simp only [FallsShort]
        linarith
      · exact bounded
  · have more := totalVolume_pos positive empty
    cases transition with
    | none =>
      obtain ⟨unfinished, result, stamped, kept, volume⟩ :=
        processBatch_fresh duration start empty
      rw [result]
      refine ⟨volume positive, .inl ⟨stamped, ?_⟩⟩
      simp only [FallsShort] at short
      rw [candleVolume_append]
      linarith
    | some carried =>
      obtain ⟨result, repeated, _⟩ :=
        processBatch_carried duration start empty carried
      rw [result]
      obtain ⟨volume, ⟨stamped, bounded⟩ | ⟨⟨emitted, member, same⟩, bounded⟩⟩ := short
      · exact fallsShort_open empty positive stamped volume bounded.le increasing
      · -- a second emission would not come after the first
        have none : (processBatch duration (some carried) batch start).aggregatedTimeframes = [] := by
          rw [List.eq_nil_iff_forall_not_mem]
          intro candle again
          have after := (List.pairwise_append.mp increasing).2.2 emitted member candle again
          have before := repeated candle again
          omega
        refine ⟨volume, .inr ?_⟩
        rw [none, List.append_nil]
        exact ⟨⟨emitted, member, same⟩, by linarith⟩

end Next

/-- Where a loop can stand. -/
def Phase (stepSize : ℕ) (start duration : ℤ) (records : List CandleStick)
    (state : AggregationState) : Prop :=
  Untouched start records state ∨ OneBatch stepSize start duration records state ∨
    Short stepSize records state

theorem fetchedCharts_next :
    fetchedCharts records (fetchAndProcessBatch stepSize records duration state) =
      fetchedCharts records state ++ chartsOf (fetchCandleSticks stepSize records state.offset) := by
  rw [fetchedCharts, fetchAndProcessBatch_offset, take_fetch, chartsOf_append]
  rfl

theorem next_nonempty (nonempty : fetchCandleSticks stepSize records state.offset ≠ []) :
    fetchAndProcessBatch stepSize records duration state =
      let batch := processBatch duration state.transitionTimeframe
        (fetchCandleSticks stepSize records state.offset) state.timeframeStart
      { aggregatedData := state.aggregatedData ++ batch.aggregatedTimeframes
        offset := state.offset + (fetchCandleSticks stepSize records state.offset).length
        isLastBatch :=
          decide ((fetchCandleSticks stepSize records state.offset).length < stepSize)
        transitionTimeframe := batch.unfinishedTimeframe
        timeframeStart := batch.lastTimeframeStart } := by
  rw [fetchAndProcessBatch, if_neg nonempty]

theorem offset_lt_next (nonempty : fetchCandleSticks stepSize records state.offset ≠ []) :
    state.offset < (fetchAndProcessBatch stepSize records duration state).offset := by
  have some := List.length_pos_iff.mpr nonempty
  rw [fetchAndProcessBatch_offset]
  omega

private theorem next_le_page : (fetchAndProcessBatch stepSize records duration state).offset ≤
    state.offset + stepSize := by
  have length : (fetchCandleSticks stepSize records state.offset).length =
      min stepSize (records.length - state.offset) := length_fetchCandleSticks state.offset
  rw [fetchAndProcessBatch_offset]
  omega

/-- From no charts to none, or to the one batch that brought them. -/
theorem Untouched.next (untouched : Untouched start records state)
    (paged : Paged stepSize records state) (running : state.isLastBatch = false)
    (nonempty : fetchCandleSticks stepSize records state.offset ≠ []) :
    Phase stepSize start duration records (fetchAndProcessBatch stepSize records duration state) := by
  have charts : fetchedCharts records (fetchAndProcessBatch stepSize records duration state) =
      chartsOf (fetchCandleSticks stepSize records state.offset) := by
    rw [fetchedCharts_next, untouched.charts, List.nil_append]
  have offset : state.offset < (fetchAndProcessBatch stepSize records duration state).offset :=
    offset_lt_next nonempty
  have page : (fetchAndProcessBatch stepSize records duration state).offset ≤
      state.offset + stepSize := next_le_page
  by_cases empty : chartsOf (fetchCandleSticks stepSize records state.offset) = []
  · left
    refine ⟨charts.trans empty, ?_, ?_, ?_⟩
    · simp [next_nonempty nonempty, processBatch_empty _ _ empty, untouched.candles]
    · simp [next_nonempty nonempty, processBatch_empty _ _ empty]
    · simp [next_nonempty nonempty, processBatch_empty _ _ empty, untouched.timeframe]
  · right; left
    obtain ⟨unfinished, result, stamped, kept, volume⟩ := processBatch_fresh duration start empty
    refine ⟨by rw [charts]; exact empty, ⟨state.offset, paged.page running, offset, page,
      untouched.charts⟩, unfinished, ?_, ?_, ?_, ?_, ?_⟩
    · simp [next_nonempty nonempty, untouched.transition, untouched.timeframe, result]
    · simp [next_nonempty nonempty, untouched.transition, untouched.timeframe, stamped]
    · rw [singleBatchCandles_congr charts]
      simp [next_nonempty nonempty, untouched.transition, untouched.timeframe, untouched.candles,
        singleBatchCandles, result]
    · rw [charts]
      simp [next_nonempty nonempty, untouched.transition, untouched.timeframe, untouched.candles, kept]
    · rw [charts]
      exact volume

theorem positive_fetched (positive : PositiveVolumes (chartsOf records)) (offset : ℕ) :
    PositiveVolumes (chartsOf (fetchCandleSticks stepSize records offset)) := by
  intro entry member
  refine positive entry ?_
  obtain ⟨record, fetched, chart⟩ := List.mem_flatMap.mp member
  exact List.mem_flatMap.mpr ⟨record, List.mem_of_mem_drop (List.mem_of_mem_take fetched), chart⟩

private theorem positive_taken (positive : PositiveVolumes (chartsOf records)) :
    PositiveVolumes (fetchedCharts records state) := by
  intro entry member
  refine positive entry ?_
  obtain ⟨record, fetched, chart⟩ := List.mem_flatMap.mp member
  exact List.mem_flatMap.mpr ⟨record, List.mem_of_mem_take fetched, chart⟩

/-- Any page after the one with the charts loses volume. -/
theorem OneBatch.next (oneBatch : OneBatch stepSize start duration records state)
    (paged : Paged stepSize records state) (running : state.isLastBatch = false)
    (nonempty : fetchCandleSticks stepSize records state.offset ≠ []) :
    Short stepSize records (fetchAndProcessBatch stepSize records duration state) := by
  obtain ⟨unfinished, carried, stamped, _, kept, volume⟩ := oneBatch.unfinished
  refine ⟨⟨state.offset, paged.page running, offset_lt_next nonempty, oneBatch.charts⟩, ?_⟩
  intro positive increasing
  have pending := volume (positive_taken positive)
  have later : PositiveVolumes (chartsOf (fetchCandleSticks stepSize records state.offset)) :=
    positive_fetched positive state.offset
  rw [fetchedCharts_next, totalVolume_append]
  rw [next_nonempty nonempty, carried] at increasing ⊢
  by_cases empty : chartsOf (fetchCandleSticks stepSize records state.offset) = []
  · rw [processBatch_empty _ _ empty, empty]
    simp only [FallsShort, List.append_nil, totalVolume, List.map_nil, List.sum_nil, add_zero] at kept ⊢
    linarith
  · have result := (processBatch_carried duration state.timeframeStart empty unfinished).1
    simp only [result]
    exact fallsShort_open empty later stamped pending kept.le increasing

theorem Short.next (short : Short stepSize records state)
    (nonempty : fetchCandleSticks stepSize records state.offset ≠ []) :
    Short stepSize records (fetchAndProcessBatch stepSize records duration state) := by
  obtain ⟨page, multiple, before, held⟩ := short.later
  have offset : state.offset < (fetchAndProcessBatch stepSize records duration state).offset :=
    offset_lt_next nonempty
  refine ⟨⟨page, multiple, before.trans offset, held⟩, ?_⟩
  intro positive increasing
  rw [fetchedCharts_next, totalVolume_append]
  rw [next_nonempty nonempty] at increasing ⊢
  have earlier : Increasing state.aggregatedData := (List.pairwise_append.mp increasing).1
  exact fallsShort_next (positive_fetched positive _) (short.short positive earlier) increasing

theorem Phase.next (phase : Phase stepSize start duration records state)
    (paged : Paged stepSize records state) (running : state.isLastBatch = false) :
    Phase stepSize start duration records (fetchAndProcessBatch stepSize records duration state) := by
  by_cases empty : fetchCandleSticks stepSize records state.offset = []
  · rw [fetchAndProcessBatch, if_pos empty]
    rcases phase with untouched | oneBatch | short
    · exact .inl ⟨untouched.charts, untouched.candles, untouched.transition, untouched.timeframe⟩
    · exact .inr (.inl ⟨oneBatch.charts, oneBatch.page, oneBatch.unfinished⟩)
    · exact .inr (.inr ⟨short.later, short.short⟩)
  · rcases phase with untouched | oneBatch | short
    · exact untouched.next paged running empty
    · exact .inr (.inr (oneBatch.next paged running empty))
    · exact .inr (.inr (short.next empty))

end Phases

end PriceFeed.MarketRecords.DiscreteAggregation
