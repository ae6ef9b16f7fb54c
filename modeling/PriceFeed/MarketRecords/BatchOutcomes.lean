import PriceFeed.MarketRecords.SingleBatch

/-! What one batch does to the volumes: without a transition it keeps the charts
it closes and the charts it leaves open; with one it repeats the transition at
every closing and forgets the charts of its last timeframe. -/

namespace PriceFeed.MarketRecords.DiscreteAggregation

def totalVolume (charts : List MarketChart) : ℚ := (charts.map volumeOf).sum

def candleVolume (candles : List Candle) : ℚ := (candles.map Candle.volume).sum

def PositiveVolumes (charts : List MarketChart) : Prop := ∀ entry ∈ charts, 0 < entry.chart.volume

@[simp] theorem totalVolume_append (first second : List MarketChart) :
    totalVolume (first ++ second) = totalVolume first + totalVolume second := by
  simp [totalVolume]

@[simp] theorem candleVolume_append (first second : List Candle) :
    candleVolume (first ++ second) = candleVolume first + candleVolume second := by
  simp [candleVolume]

theorem totalVolume_pos {charts : List MarketChart} (positive : PositiveVolumes charts)
    (some : charts ≠ []) : 0 < totalVolume charts := by
  induction charts with
  | nil => exact absurd rfl some
  | cons entry rest ih =>
    obtain ⟨first, others⟩ := List.forall_mem_cons.mp positive
    by_cases last : rest = []
    · simpa [totalVolume, last, volumeOf] using first
    · have more := ih others last
      simp only [totalVolume, List.map_cons, List.sum_cons, volumeOf] at more ⊢
      linarith

variable {duration : ℤ} {transition : Option Candle} {state : BatchState} {seen : List MarketChart}

/-- What holds of the open timeframe whatever came in. -/
structure Open (seen : List MarketChart) (state : BatchState) : Prop where
  collected : ∀ entry ∈ state.currentTimeframeData, entry ∈ seen
  nonempty : seen ≠ [] → state.currentTimeframeData ≠ []

theorem Open.visitChart (opened : Open seen state) (entry : MarketChart) :
    Open (seen ++ [entry]) (visitChart duration transition state entry) := by
  simp only [DiscreteAggregation.visitChart]
  split
  · exact ⟨by simp, by simp⟩
  · refine ⟨?_, by simp⟩
    intro other member
    rcases List.mem_append.mp member with old | new
    · exact List.mem_append_left _ (opened.collected other old)
    · exact List.mem_append_right _ new

theorem visitCharts_concat [Arithmetic] (start : ℤ) (charts : List MarketChart) (entry : MarketChart) :
    visitCharts duration transition start (charts ++ [entry]) =
      visitChart duration transition (visitCharts duration transition start charts) entry := by
  simp [visitCharts]

theorem open_visitCharts (start : ℤ) (charts : List MarketChart) :
    Open charts (visitCharts duration transition start charts) := by
  induction charts using List.reverseRecOn with
  | nil => exact ⟨by simp [visitCharts], by simp⟩
  | append_singleton charts entry ih =>
    rw [visitCharts_concat]
    exact ih.visitChart entry

section Fresh

/-- Without a transition no volume is lost: the closed candles and the open
timeframe hold what was seen. -/
def KeepsVolume (seen : List MarketChart) (state : BatchState) : Prop :=
  candleVolume state.aggregatedTimeframes + totalVolume state.currentTimeframeData = totalVolume seen

private theorem candleVolume_lastCandle (state : BatchState) :
    candleVolume (lastCandle state).toList = totalVolume state.currentTimeframeData := by
  simp only [lastCandle]
  split
  · next none => simp [none, candleVolume, totalVolume]
  · simp [candleVolume, totalVolume, aggregateCharts_volume]

theorem KeepsVolume.visitChart (keeps : KeepsVolume seen state) (entry : MarketChart) :
    KeepsVolume (seen ++ [entry]) (visitChart duration none state entry) := by
  simp only [KeepsVolume] at keeps ⊢
  simp only [DiscreteAggregation.visitChart]
  split
  · have closed := candleVolume_lastCandle state
    simp only [lastCandle] at closed
    simp only [resolveLastTimeframeAggregation, candleVolume_append, closed, totalVolume_append]
    linarith
  · simp only [totalVolume_append]
    linarith

private theorem keepsVolume_visitCharts (start : ℤ) (charts : List MarketChart) :
    KeepsVolume charts (visitCharts duration none start charts) := by
  induction charts using List.reverseRecOn with
  | nil => simp [KeepsVolume, visitCharts, candleVolume, totalVolume]
  | append_singleton charts entry ih =>
    rw [visitCharts_concat]
    exact ih.visitChart entry

end Fresh

section Carried

variable {carried : Candle}

/-- With a transition every closing repeats it. If it was the open timeframe, the
first closing bears its timestamp. -/
structure Repeats (carried : Candle) (start : ℤ) (seen : List MarketChart) (state : BatchState) :
    Prop where
  repeated : ∀ candle ∈ state.aggregatedTimeframes, candle.timestamp ≤ carried.timestamp
  first : carried.timestamp = start →
    (state.aggregatedTimeframes = [] ∧ state.currentTimeframeStart = start) ∨
      ∃ candle rest, state.aggregatedTimeframes = candle :: rest ∧
        candle.timestamp = carried.timestamp ∧
        (rest = [] → candle.volume + totalVolume state.currentTimeframeData =
          carried.volume + totalVolume seen)
  whole : state.aggregatedTimeframes = [] → state.currentTimeframeData = seen

/-- The candle emitted by a closing. -/
private theorem resolve_carried (start : ℤ) (data : List MarketChart) (carried : Candle) :
    ∃ candle, resolveLastTimeframeAggregation start data (some carried) = some candle ∧
      candle.timestamp ≤ carried.timestamp ∧
      (carried.timestamp = start → candle.timestamp = carried.timestamp) ∧
      candle.volume = carried.volume + totalVolume data := by
  by_cases none : data = []
  · refine ⟨carried, ?_, le_rfl, fun _ => rfl, ?_⟩
    · simp [resolveLastTimeframeAggregation, none, mergeTransitionalData]
    · simp [none, totalVolume]
  · refine ⟨_, by simp only [resolveLastTimeframeAggregation, none, ↓reduceIte,
      mergeTransitionalData]; rfl, ?_, ?_, ?_⟩
    · exact min_le_left _ _
    · intro same
      simp [same]
    · simp [aggregateCharts_volume, totalVolume]

theorem Repeats.visitChart {start : ℤ} (repeats : Repeats carried start seen state)
    (entry : MarketChart) :
    Repeats carried start (seen ++ [entry]) (visitChart duration (some carried) state entry) := by
  obtain ⟨candle, resolved, bounded, stamped, volume⟩ := resolve_carried
    state.currentTimeframeStart state.currentTimeframeData carried
  simp only [DiscreteAggregation.visitChart]
  split
  · rw [resolved]
    refine ⟨?_, ?_, by simp⟩
    · intro other member
      rcases List.mem_append.mp member with old | new
      · exact repeats.repeated other old
      · obtain rfl : other = candle := by simpa using new
        exact bounded
    · intro same
      rcases repeats.first same with ⟨none, kept⟩ | ⟨first, rest, shape, firstStamp, _⟩
      · refine .inr ⟨candle, [], by simp [none], stamped (by rw [kept, same]), fun _ => ?_⟩
        rw [volume, repeats.whole none, totalVolume_append, add_assoc]
      · exact .inr ⟨first, rest ++ [candle], by simp [shape], firstStamp, by simp⟩
  · refine ⟨repeats.repeated, ?_, fun none => by rw [repeats.whole none]⟩
    intro same
    rcases repeats.first same with unmoved | ⟨first, rest, shape, firstStamp, single⟩
    · exact .inl unmoved
    · refine .inr ⟨first, rest, shape, firstStamp, fun none => ?_⟩
      rw [totalVolume_append, totalVolume_append, ← add_assoc, single none, add_assoc]

private theorem repeats_visitCharts (start : ℤ) (charts : List MarketChart) :
    Repeats carried start charts (visitCharts duration (some carried) start charts) := by
  induction charts using List.reverseRecOn with
  | nil => exact ⟨by simp [visitCharts], fun _ => .inl ⟨rfl, rfl⟩, fun _ => rfl⟩
  | append_singleton charts entry ih =>
    rw [visitCharts_concat]
    exact ih.visitChart entry

end Carried

section Outcome

variable {batch : List CandleStick} (duration start : ℤ)

theorem totalVolume_sort (batch : List CandleStick) :
    totalVolume (sortChartsByTimestamp batch) = totalVolume (chartsOf batch) :=
  ((List.perm_insertionSort chartLe (chartsOf batch)).map volumeOf).sum_eq

theorem sort_eq_nil_iff : sortChartsByTimestamp batch = [] ↔ chartsOf batch = [] := by
  rw [← List.length_eq_zero_iff, ← List.length_eq_zero_iff, sortChartsByTimestamp,
    List.length_insertionSort]

/-- Records without charts close nothing and return no timeframe, not even one that came in. -/
theorem processBatch_empty [Arithmetic] (empty : chartsOf batch = []) :
    processBatch duration transition batch start = ⟨[], none, start⟩ := by
  simp [processBatch, sort_eq_nil_iff.mpr empty, visitCharts]

theorem data_ne_nil (held : chartsOf batch ≠ []) :
    (visitCharts duration transition start (sortChartsByTimestamp batch)).currentTimeframeData ≠ [] :=
  (open_visitCharts start _).nonempty (mt sort_eq_nil_iff.mp held)

theorem data_positive (held : chartsOf batch ≠ []) (positive : PositiveVolumes (chartsOf batch)) :
    0 < totalVolume
      (visitCharts duration transition start (sortChartsByTimestamp batch)).currentTimeframeData := by
  refine totalVolume_pos (fun entry member => ?_) (data_ne_nil duration start held)
  have seen := (open_visitCharts start _).collected entry member
  exact positive entry ((List.mem_insertionSort chartLe).mp seen)

/-- Without a transition the candles and the unfinished timeframe hold the batch. -/
theorem processBatch_fresh (held : chartsOf batch ≠ []) :
    ∃ unfinished, (processBatch duration none batch start).unfinishedTimeframe = some unfinished ∧
      unfinished.timestamp = (processBatch duration none batch start).lastTimeframeStart ∧
      candleVolume (processBatch duration none batch start).aggregatedTimeframes + unfinished.volume =
        totalVolume (chartsOf batch) ∧
      (PositiveVolumes (chartsOf batch) → 0 < unfinished.volume) := by
  have keeps : KeepsVolume (sortChartsByTimestamp batch)
      (visitCharts duration none start (sortChartsByTimestamp batch)) := keepsVolume_visitCharts start _
  refine ⟨_, if_neg (data_ne_nil duration start held), rfl, ?_, ?_⟩
  · simp only [aggregateCharts_volume]
    rw [← totalVolume_sort]
    exact keeps
  · intro positive
    simp only [aggregateCharts_volume]
    exact data_positive duration start held positive

/-- A transition comes out unchanged. Every closing repeats it under a timestamp no later than its
own; if its timeframe was open, the first closing bears its timestamp, and one closing alone leaves
out the volume of the last timeframe. -/
theorem processBatch_carried (held : chartsOf batch ≠ []) (carried : Candle) :
    (processBatch duration (some carried) batch start).unfinishedTimeframe = some carried ∧
      (∀ candle ∈ (processBatch duration (some carried) batch start).aggregatedTimeframes,
        candle.timestamp ≤ carried.timestamp) ∧
      (carried.timestamp = start →
        ((processBatch duration (some carried) batch start).aggregatedTimeframes = [] ∧
          (processBatch duration (some carried) batch start).lastTimeframeStart = start) ∨
        ∃ candle rest,
          (processBatch duration (some carried) batch start).aggregatedTimeframes = candle :: rest ∧
          candle.timestamp = carried.timestamp ∧
          (rest = [] → PositiveVolumes (chartsOf batch) →
            candle.volume < carried.volume + totalVolume (chartsOf batch))) := by
  have repeats : Repeats carried start (sortChartsByTimestamp batch)
      (visitCharts duration (some carried) start (sortChartsByTimestamp batch)) :=
    repeats_visitCharts start _
  refine ⟨?_, repeats.repeated, ?_⟩
  · exact if_neg (data_ne_nil duration start held)
  · intro same
    rcases repeats.first same with unmoved | ⟨candle, rest, shape, stamped, single⟩
    · exact .inl unmoved
    · refine .inr ⟨candle, rest, shape, stamped, fun alone positive => ?_⟩
      have lost : 0 < totalVolume (visitCharts duration (some carried) start
          (sortChartsByTimestamp batch)).currentTimeframeData := data_positive duration start held positive
      have kept := single alone
      rw [totalVolume_sort] at kept
      linarith

end Outcome

end PriceFeed.MarketRecords.DiscreteAggregation
