import Mathlib.Algebra.Order.Ring.Rat
import Mathlib.Data.List.Sort
import PriceFeed.Library.OrderedMap

/-! `DiscreteAggregation`: candle sticks of one symbol are fetched in batches and
their charts aggregated into timeframes of one duration. Timestamps are whole
milliseconds. -/

namespace PriceFeed.MarketRecords

open PriceFeed.Library

/-- How a sum of two numbers and the half of one come out. Those of doubles are rounded. -/
class Arithmetic where
  add : ℚ → ℚ → ℚ
  half : ℚ → ℚ

/-- Prices and volumes are exact where nothing else is said. -/
instance : Arithmetic where
  add first second := first + second
  half number := number / 2

@[simp] theorem add_exact (first second : ℚ) : Arithmetic.add first second = first + second := rfl

@[simp] theorem half_exact (number : ℚ) : Arithmetic.half number = number / 2 := rfl

/-- `reduce` with a sum that starts at zero. -/
def total [Arithmetic] (numbers : List ℚ) : ℚ := numbers.foldl Arithmetic.add 0

@[simp] theorem total_exact (numbers : List ℚ) : total numbers = numbers.sum :=
  List.sum_eq_foldl.symm

/-- One chart row: timestamp, open, high, low, close and volume. -/
structure Chart where
  timestamp : ℤ
  opening : ℚ
  high : ℚ
  low : ℚ
  close : ℚ
  volume : ℚ
  deriving DecidableEq, Repr

structure CandleStick where
  marketId : ℕ
  intervalStart : ℤ
  charts : List Chart
  deriving DecidableEq, Repr

/-- A chart beside the market it came from. -/
structure MarketChart where
  marketId : ℕ
  chart : Chart
  deriving DecidableEq, Repr

/-- The aggregate of one market's charts. -/
structure MarketAggregate where
  opening : ℚ
  high : ℚ
  low : ℚ
  close : ℚ
  volume : ℚ
  deriving DecidableEq, Repr

structure Candle where
  timestamp : ℤ
  opening : ℚ
  high : ℚ
  low : ℚ
  close : ℚ
  volume : ℚ
  aggregatedAveragePrice : ℚ
  deriving DecidableEq, Repr

/-- The upper median; `null` for no numbers. -/
def median (numbers : List ℚ) : Option ℚ :=
  (numbers.insertionSort (· ≤ ·))[numbers.length / 2]?

namespace DiscreteAggregation

def chartLe (first second : MarketChart) : Prop := first.chart.timestamp ≤ second.chart.timestamp

instance : DecidableRel chartLe := fun first second =>
  inferInstanceAs (Decidable (first.chart.timestamp ≤ second.chart.timestamp))

def chartsOf (candleSticks : List CandleStick) : List MarketChart :=
  candleSticks.flatMap fun candleStick =>
    candleStick.charts.map fun chart => ⟨candleStick.marketId, chart⟩

def sortChartsByTimestamp (candleSticks : List CandleStick) : List MarketChart :=
  (chartsOf candleSticks).insertionSort chartLe

def groupChartsByMarket (charts : List MarketChart) : OrderedMap ℕ (List Chart) :=
  charts.foldl (fun groups entry =>
    groups.set entry.marketId ((groups.get? entry.marketId).getD [] ++ [entry.chart])) .empty

/-- Number keys of an object come out in ascending order. -/
def groupValues (groups : OrderedMap ℕ (List Chart)) : List (List Chart) :=
  (groups.entries.insertionSort fun first second => first.1 ≤ second.1).map Prod.snd

section Arithmetic

variable [Arithmetic]

/-- No group is empty, so the first case is never met. -/
def aggregateMarket : List Chart → MarketAggregate
  | [] => ⟨0, 0, 0, 0, 0⟩
  | first :: rest =>
    { opening := first.opening
      high := rest.foldl (fun highest chart => max highest chart.high) first.high
      low := rest.foldl (fun lowest chart => min lowest chart.low) first.low
      close := (rest.getLastD first).close
      volume := total ((first :: rest).map Chart.volume) }

def aggregateChartsByMarket (groups : OrderedMap ℕ (List Chart)) : List MarketAggregate :=
  (groupValues groups).map aggregateMarket

def withAveragePrice (timestamp : ℤ) (aggregate : MarketAggregate) : Candle where
  timestamp := timestamp
  opening := aggregate.opening
  high := aggregate.high
  low := aggregate.low
  close := aggregate.close
  volume := aggregate.volume
  aggregatedAveragePrice := Arithmetic.half (Arithmetic.add aggregate.high aggregate.low)

/-- Called with at least one chart, so the medians exist. -/
def aggregateCharts (charts : List MarketChart) (timestamp : ℤ) : Candle :=
  let aggregates := aggregateChartsByMarket (groupChartsByMarket charts)
  withAveragePrice timestamp
    { opening := (median (aggregates.map MarketAggregate.opening)).getD 0
      high := (median (aggregates.map MarketAggregate.high)).getD 0
      low := (median (aggregates.map MarketAggregate.low)).getD 0
      close := (median (aggregates.map MarketAggregate.close)).getD 0
      volume := total (aggregates.map MarketAggregate.volume) }

def mergeTransitionalData : Option Candle → Option Candle → Option Candle
  | some previous, some current =>
    some (withAveragePrice (min previous.timestamp current.timestamp)
      { opening := previous.opening
        high := max previous.high current.high
        low := min previous.low current.low
        close := current.close
        volume := Arithmetic.add previous.volume current.volume })
  | previous, current => previous <|> current

/-- What `forEach` carries over the charts of a batch. -/
structure BatchState where
  aggregatedTimeframes : List Candle := []
  currentTimeframeStart : ℤ
  currentTimeframeEnd : ℤ
  currentTimeframeData : List MarketChart := []
  deriving DecidableEq, Repr

structure BatchProcessResult where
  aggregatedTimeframes : List Candle
  unfinishedTimeframe : Option Candle
  lastTimeframeStart : ℤ
  deriving DecidableEq, Repr

def isOutsideTimeframe (chartTimestamp currentTimeframeStart currentTimeframeEnd : ℤ) : Prop :=
  chartTimestamp < currentTimeframeStart ∨ currentTimeframeEnd ≤ chartTimestamp

instance : Decidable (isOutsideTimeframe timestamp start stop) :=
  inferInstanceAs (Decidable (_ ∨ _))

def resolveLastTimeframeAggregation (currentTimeframeStart : ℤ)
    (currentTimeframeData : List MarketChart) (transitionTimeframe : Option Candle) : Option Candle :=
  let aggregatedCharts :=
    if currentTimeframeData = [] then none
    else some (aggregateCharts currentTimeframeData currentTimeframeStart)
  match transitionTimeframe with
  | none => aggregatedCharts
  | some transition => mergeTransitionalData (some transition) aggregatedCharts

/-- The start and end of the timeframe a chart falls into. The division rounds down. -/
def resolveNextTimeframeInterval (currentTimeframeEnd timeframeDurationMs chartTimestamp : ℤ) :
    ℤ × ℤ :=
  let timeframesToSkip := (chartTimestamp - currentTimeframeEnd) / timeframeDurationMs
  let nextTimeframeStart := currentTimeframeEnd + timeframeDurationMs * timeframesToSkip
  (nextTimeframeStart, nextTimeframeStart + timeframeDurationMs)

/-- The merge takes `unfinishedTimeframe`, not the aggregate made two lines above. -/
def handleUnfinishedTimeframe (unfinishedTimeframe : Option Candle)
    (currentTimeframeData : List MarketChart) (currentTimeframeStart : ℤ)
    (transitionTimeframe : Option Candle) : Option Candle :=
  match transitionTimeframe with
  | none => some (aggregateCharts currentTimeframeData currentTimeframeStart)
  | some transition => mergeTransitionalData (some transition) unfinishedTimeframe

section Batch

variable (timeframeDurationMs : ℤ) (transitionTimeframe : Option Candle)

/-- The body of `forEach`. -/
def visitChart (state : BatchState) (candle : MarketChart) : BatchState :=
  if isOutsideTimeframe candle.chart.timestamp state.currentTimeframeStart
      state.currentTimeframeEnd then
    let aggregatedCharts := resolveLastTimeframeAggregation state.currentTimeframeStart
      state.currentTimeframeData transitionTimeframe
    let timeframeBounds := resolveNextTimeframeInterval state.currentTimeframeEnd
      timeframeDurationMs candle.chart.timestamp
    { aggregatedTimeframes := state.aggregatedTimeframes ++ aggregatedCharts.toList
      currentTimeframeStart := timeframeBounds.1
      currentTimeframeEnd := timeframeBounds.2
      currentTimeframeData := [candle] }
  else { state with currentTimeframeData := state.currentTimeframeData ++ [candle] }

def visitCharts (timeframeStart : ℤ) (charts : List MarketChart) : BatchState :=
  charts.foldl (visitChart timeframeDurationMs transitionTimeframe)
    { currentTimeframeStart := timeframeStart
      currentTimeframeEnd := timeframeStart + timeframeDurationMs }

def processBatch (candleSticks : List CandleStick) (timeframeStart : ℤ) : BatchProcessResult :=
  let final := visitCharts timeframeDurationMs transitionTimeframe timeframeStart
    (sortChartsByTimestamp candleSticks)
  { aggregatedTimeframes := final.aggregatedTimeframes
    unfinishedTimeframe :=
      if final.currentTimeframeData = [] then none
      else handleUnfinishedTimeframe none final.currentTimeframeData final.currentTimeframeStart
        transitionTimeframe
    lastTimeframeStart := final.currentTimeframeStart }

end Batch

/-- What `while` carries over the batches. -/
structure AggregationState where
  aggregatedData : List Candle := []
  offset : ℕ := 0
  isLastBatch : Bool := false
  transitionTimeframe : Option Candle := none
  timeframeStart : ℤ
  deriving DecidableEq, Repr

structure AggregationResult where
  symbol : String
  processedCount : ℕ
  count : ℕ
  candles : List Candle
  deriving DecidableEq, Repr

section Loop

variable (stepSize : ℕ) (records : List CandleStick) (timeframeDurationMs : ℤ)

/-- One page of the records the query matches, in ascending order of their intervals. -/
def fetchCandleSticks (offset : ℕ) : List CandleStick := (records.drop offset).take stepSize

/-- `fetchAndProcessBatch` and the updates the loop makes with its result. -/
def fetchAndProcessBatch (state : AggregationState) : AggregationState :=
  let candleSticks := fetchCandleSticks stepSize records state.offset
  let isLastBatch := decide (candleSticks.length < stepSize)
  if candleSticks = [] then { state with isLastBatch := isLastBatch }
  else
    let batch := processBatch timeframeDurationMs state.transitionTimeframe candleSticks
      state.timeframeStart
    { aggregatedData := state.aggregatedData ++ batch.aggregatedTimeframes
      offset := state.offset + candleSticks.length
      isLastBatch := isLastBatch
      transitionTimeframe := batch.unfinishedTimeframe
      timeframeStart := batch.lastTimeframeStart }

/-- The loop, cut off after a number of rounds. -/
def aggregateBatches : ℕ → AggregationState → Option AggregationState
  | 0, state => if state.isLastBatch then some state else none
  | rounds + 1, state =>
    if state.isLastBatch then some state
    else aggregateBatches rounds (fetchAndProcessBatch stepSize records timeframeDurationMs state)

/-- Each round but the last takes a record, so the rounds suffice for a positive step size. -/
def aggregateCandleSticksForSymbol (symbol : String) (rangeDateStart : ℤ) :
    Option AggregationResult :=
  (aggregateBatches stepSize records timeframeDurationMs (records.length + 1)
    { timeframeStart := rangeDateStart }).map fun final =>
      let candles := final.aggregatedData ++ final.transitionTimeframe.toList
      { symbol := symbol
        processedCount := final.offset
        count := candles.length
        candles := candles }

end Loop

end Arithmetic

end DiscreteAggregation

end PriceFeed.MarketRecords
