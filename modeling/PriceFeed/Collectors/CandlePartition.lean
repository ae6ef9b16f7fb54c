import PriceFeed.Collectors.IntervalChains
import PriceFeed.Library.Lists

/-! `CandleStickCollector` over the successive intervals of one market: which of the
published messages hold a candle of the exchange. -/

namespace PriceFeed.Collectors

open PriceFeed.Library PriceFeed.Schedulers

/-- `CandleStickCollector.TIMEFRAMES`. -/
inductive Timeframe where
  | second
  | minute
  deriving DecidableEq, Repr

def Timeframe.duration : Timeframe → ℕ
  | .second => millisecondsInASecond
  | .minute => millisecondsInAMinute

/-- A fetched candle: its timestamp and the rest of its array. -/
structure OHLCV where
  timestamp : ℤ
  values : List ℚ
  deriving DecidableEq, Repr

/-- An exchange: whether its `timeframes` list `1s`, and the candles it has, each at a
whole second or minute. -/
structure ExchangeAPI where
  listsSecond : Bool
  candles : Timeframe → List OHLCV
  increasing : ∀ timeframe,
    (candles timeframe).Pairwise fun first second => first.timestamp < second.timestamp
  onGrid : ∀ timeframe, ∀ candle ∈ candles timeframe, (timeframe.duration : ℤ) ∣ candle.timestamp

/-- The first candles from a moment on. -/
def ExchangeAPI.fetchOHLCV (api : ExchangeAPI) (timeframe : Timeframe) (since : ℤ) (limit : ℕ) :
    List OHLCV :=
  ((api.candles timeframe).filter fun candle => since ≤ candle.timestamp).take limit

/-- The payload of a published message. -/
structure ChartsPayload where
  charts : List OHLCV
  intervalStart : ℤ
  intervalEnd : ℤ
  deriving DecidableEq, Repr

namespace CandleStickCollector

def getTimeframe (api : ExchangeAPI) (bounds : IntervalBounds) : Timeframe :=
  if bounds.intervalEnd - bounds.intervalStart < millisecondsInAMinute ∧ api.listsSecond then .second
  else .minute

def getLimit (bounds : IntervalBounds) (timeframe : Timeframe) : ℕ :=
  ⌈((bounds.intervalEnd - bounds.intervalStart : ℤ) : ℚ) / timeframe.duration⌉₊

def formatAggregationInterval (bounds : IntervalBounds) : IntervalBounds :=
  ⟨bounds.intervalStart - millisecondsInAMinute, bounds.intervalEnd - millisecondsInAMinute⟩

def fetchData (api : ExchangeAPI) (bounds : IntervalBounds) : List OHLCV :=
  let timeframe := getTimeframe api bounds
  api.fetchOHLCV timeframe bounds.intervalStart (getLimit bounds timeframe)

def saveData (fetchedData : List OHLCV) (bounds : IntervalBounds) : ChartsPayload :=
  { charts := fetchedData.filter fun candle =>
      bounds.intervalStart ≤ candle.timestamp ∧ candle.timestamp ≤ bounds.intervalEnd
    intervalStart := bounds.intervalStart
    intervalEnd := bounds.intervalEnd }

end CandleStickCollector

namespace HistoricalCandleStickCollector

def formatAggregationInterval (bounds : IntervalBounds) : IntervalBounds :=
  ⟨bounds.intervalStart, bounds.intervalEnd⟩

end HistoricalCandleStickCollector

namespace IntervalChain

variable (chain : IntervalChain) (api : ExchangeAPI)

/-- The collector that runs under the scheduler takes its bounds as they are, or a minute earlier. -/
def formatAggregationInterval : IntervalChain → IntervalBounds → IntervalBounds
  | .realtime _ => CandleStickCollector.formatAggregationInterval
  | .historical _ => HistoricalCandleStickCollector.formatAggregationInterval

/-- The interval of the collector. -/
def collectorBounds (index : ℕ) : IntervalBounds :=
  chain.formatAggregationInterval (chain.intervalBounds index)

/-- What `start` publishes. -/
def publishedCharts (index : ℕ) : ChartsPayload :=
  CandleStickCollector.saveData (CandleStickCollector.fetchData api (chain.collectorBounds index))
    (chain.collectorBounds index)

/-- By how much the collector's intervals precede the scheduler's. -/
def lead : IntervalChain → ℤ
  | .realtime _ => millisecondsInAMinute
  | .historical _ => 0

/-- The collector's intervals adjoin as well. -/
def collectorIntervals : Adjoining ℤ where
  boundary index := chain.adjoining.boundary index - chain.lead
  count := chain.adjoining.count
  increasing index inside := sub_lt_sub_right (chain.adjoining.increasing index inside) _

variable {chain}

theorem collectorBounds_eq (inside : index < chain.collectorIntervals.count) :
    chain.collectorBounds index =
      ⟨chain.collectorIntervals.boundary index, chain.collectorIntervals.boundary (index + 1)⟩ := by
  rw [collectorBounds, chain.intervalBounds_eq inside]
  cases chain with
  | realtime runs => rfl
  | historical cycles =>
    simp [formatAggregationInterval, HistoricalCandleStickCollector.formatAggregationInterval,
      collectorIntervals, lead]

variable (chain)

/-- The timeframe of the candles that are collected, by the first interval. -/
def collectedTimeframe : Timeframe := CandleStickCollector.getTimeframe api (chain.collectorBounds 0)

variable {chain} {api}

private theorem getTimeframe_collectorBounds (inside : index < chain.collectorIntervals.count) :
    CandleStickCollector.getTimeframe api (chain.collectorBounds index) = chain.collectedTimeframe api := by
  have first : 0 < chain.collectorIntervals.count := Nat.zero_lt_of_lt inside
  rw [collectedTimeframe, collectorBounds_eq inside, collectorBounds_eq first]
  simp only [CandleStickCollector.getTimeframe, collectorIntervals, sub_sub_sub_cancel_right]
  cases chain with
  | realtime runs => simp only [adjoining, runs.boundary_succ, add_sub_cancel_left]
  | historical cycles =>
    have long : ∀ {index}, index < cycles.count →
        ¬ cycles.boundary (index + 1) - cycles.boundary index < millisecondsInAMinute := by
      intro index inside
      have order := cycles.boundary_lt inside
      simp only [HistoricalCycles.boundary, HistoricalOptions.minuteStart, millisecondsInAMinute] at order ⊢
      omega
    simp only [adjoining, long inside, long first, false_and]

private theorem mem_fetchOHLCV {timeframe : Timeframe} {since : ℤ} {limit : ℕ} {candle : OHLCV} :
    candle ∈ api.fetchOHLCV timeframe since limit ↔
      candle ∈ api.candles timeframe ∧ since ≤ candle.timestamp ∧
        ((api.candles timeframe).filter fun other =>
          since ≤ other.timestamp ∧ other.timestamp < candle.timestamp).length < limit := by
  rw [ExchangeAPI.fetchOHLCV, mem_take_iff ((api.increasing timeframe).filter _), List.mem_filter,
    List.filter_filter, decide_eq_true_eq, and_assoc]
  simp only [Bool.decide_and, Bool.and_comm]

variable (chain) (api)

/-- The candles that start in an interval of the collector. -/
def candlesWithin (index : ℕ) : List OHLCV :=
  (api.candles (chain.collectedTimeframe api)).filter fun candle =>
    chain.collectorIntervals.boundary index ≤ candle.timestamp ∧
      candle.timestamp < chain.collectorIntervals.boundary (index + 1)

/-- The exchange has as many candles in an interval as are fetched for it. -/
def Filled (index : ℕ) : Prop :=
  CandleStickCollector.getLimit (chain.collectorBounds index) (chain.collectedTimeframe api) ≤
    (chain.candlesWithin api index).length

instance (index : ℕ) : Decidable (chain.Filled api index) := inferInstanceAs (Decidable (_ ≤ _))

/-- Every collected candle within the chain is in the charts of exactly one interval,
and no candle is in those of two. -/
def CandlesPartitioned : Prop :=
  ∀ candle ∈ api.candles (chain.collectedTimeframe api),
    (chain.collectorIntervals.Spans candle.timestamp →
      ∃! index, index < chain.count ∧ candle ∈ (chain.publishedCharts api index).charts) ∧
    ∀ first < chain.count, ∀ second < chain.count,
      candle ∈ (chain.publishedCharts api first).charts →
        candle ∈ (chain.publishedCharts api second).charts → first = second

variable {chain} {api}

private theorem count_collectorIntervals : chain.count = chain.collectorIntervals.count := chain.count_eq

private theorem length_lt_getLimit {index : ℕ} {candle : OHLCV}
    (inside : index < chain.collectorIntervals.count)
    (present : candle ∈ api.candles (chain.collectedTimeframe api))
    (cell : chain.collectorIntervals.Cell index candle.timestamp) :
    ((api.candles (chain.collectedTimeframe api)).filter fun other =>
        chain.collectorIntervals.boundary index ≤ other.timestamp ∧
          other.timestamp < candle.timestamp).length <
      CandleStickCollector.getLimit (chain.collectorBounds index) (chain.collectedTimeframe api) := by
  have grid := api.onGrid (chain.collectedTimeframe api)
  have room := length_mul_le (chain.collectedTimeframe api).duration
    ((api.increasing (chain.collectedTimeframe api)).filter fun other =>
      chain.collectorIntervals.boundary index ≤ other.timestamp ∧ other.timestamp < candle.timestamp)
    (fun other member => grid other (List.mem_filter.mp member).1) (grid candle present) cell.1
    (fun other member => by simpa using (List.mem_filter.mp member).2)
  have positive : (0 : ℚ) < (chain.collectedTimeframe api).duration := by
    cases chain.collectedTimeframe api <;> norm_num [Timeframe.duration, millisecondsInASecond,
      millisecondsInAMinute]
  rw [CandleStickCollector.getLimit, Nat.lt_ceil, lt_div_iff₀ positive, collectorBounds_eq inside]
  exact_mod_cast room.trans_lt (sub_lt_sub_right cell.2 _)

/-- An interval publishes the candles that start in it, and the one that starts at its
end unless the limit is used up. -/
private theorem mem_publishedCharts_iff {index : ℕ} {candle : OHLCV}
    (inside : index < chain.collectorIntervals.count)
    (present : candle ∈ api.candles (chain.collectedTimeframe api)) :
    candle ∈ (chain.publishedCharts api index).charts ↔
      chain.collectorIntervals.Cell index candle.timestamp ∨
        candle.timestamp = chain.collectorIntervals.boundary (index + 1) ∧ ¬ chain.Filled api index := by
  have room := length_lt_getLimit inside present
  have published : candle ∈ (chain.publishedCharts api index).charts ↔
      (chain.collectorIntervals.boundary index ≤ candle.timestamp ∧
        candle.timestamp ≤ chain.collectorIntervals.boundary (index + 1)) ∧
      ((api.candles (chain.collectedTimeframe api)).filter fun other =>
        chain.collectorIntervals.boundary index ≤ other.timestamp ∧
          other.timestamp < candle.timestamp).length <
        CandleStickCollector.getLimit (chain.collectorBounds index) (chain.collectedTimeframe api) := by
    simp only [publishedCharts, CandleStickCollector.saveData, CandleStickCollector.fetchData,
      List.mem_filter, decide_eq_true_eq, getTimeframe_collectorBounds inside, mem_fetchOHLCV]
    simp only [collectorBounds_eq inside, present, true_and]
    tauto
  rw [published]
  constructor
  · rintro ⟨⟨after, before⟩, few⟩
    rcases lt_or_eq_of_le before with within | ended
    · exact .inl ⟨after, within⟩
    · rw [ended] at few
      exact .inr ⟨ended, not_le.mpr few⟩
  · rintro (cell | ⟨ended, unfilled⟩)
    · exact ⟨⟨cell.1, cell.2.le⟩, room cell⟩
    · have order := chain.collectorIntervals.increasing index inside
      refine ⟨⟨ended ▸ order.le, ended.le⟩, ?_⟩
      rw [ended]
      exact not_le.mp unfilled

/-- The candles are partitioned exactly when no candle starts at an inner boundary
whose preceding interval misses a candle that is fetched for it. -/
theorem candles_partitioned_iff (chain : IntervalChain) (api : ExchangeAPI) :
    chain.CandlesPartitioned api ↔
      ∀ index, index + 1 < chain.count →
        (∃ candle ∈ api.candles (chain.collectedTimeframe api),
          candle.timestamp = chain.collectorIntervals.boundary (index + 1)) →
        chain.Filled api index := by
  have collected : ∀ candle ∈ api.candles (chain.collectedTimeframe api),
      ∀ index < chain.collectorIntervals.count,
        (candle ∈ (chain.publishedCharts api index).charts ↔
          chain.collectorIntervals.Cell index candle.timestamp ∨
            candle.timestamp = chain.collectorIntervals.boundary (index + 1) ∧
              ¬ chain.Filled api index) :=
    fun candle present index inside => mem_publishedCharts_iff inside present
  rw [CandlesPartitioned, count_collectorIntervals]
  constructor
  · rintro partitioned index inner ⟨candle, present, ended⟩
    by_contra unfilled
    exact (Adjoining.takes_once_iff (collected candle present)).mp (partitioned candle present).1
      index inner ended unfilled
  · intro filled candle present
    have clear : ∀ index, index + 1 < chain.collectorIntervals.count →
        candle.timestamp = chain.collectorIntervals.boundary (index + 1) →
        ¬ ¬ chain.Filled api index :=
      fun index inner ended => not_not_intro (filled index inner ⟨candle, present, ended⟩)
    refine ⟨(Adjoining.takes_once_iff (collected candle present)).mpr clear, ?_⟩
    exact fun first inside second within here there =>
      Adjoining.takes_unique (collected candle present) clear inside within here there

/-- An exchange without trades in the first of the two minutes. -/
def quietMinute : ExchangeAPI where
  listsSecond := true
  candles
    | .second => []
    | .minute => [⟨1702384080000, [42, 43, 41, 42, 7]⟩]
  increasing timeframe := by cases timeframe <;> simp
  onGrid timeframe := by cases timeframe <;> simp [Timeframe.duration, millisecondsInAMinute]

/-- The candle after a missing one is published twice. -/
theorem gap_duplicates_candle : ¬ ∀ (chain : IntervalChain) (api : ExchangeAPI),
    chain.CandlesPartitioned api := by
  intro partitioned
  have twice := (partitioned twoMinutes quietMinute ⟨1702384080000, [42, 43, 41, 42, 7]⟩ (by decide +kernel)).2
  exact absurd (twice 0 (by decide) 1 (by decide) (by decide +kernel) (by decide +kernel)) (by decide)

end IntervalChain

end PriceFeed.Collectors
