import Mathlib.Data.PNat.Basic
import PriceFeed.Library.Loops
import PriceFeed.Library.Runs
import PriceFeed.MarketRecords.Aggregate
import PriceFeed.MarketRecords.BatchBoundaries

/-! The loops of the aggregating use cases, one for each symbol. Each query of a loop reads
what is stored at its moment, and the loops of one request take turns. -/

namespace PriceFeed.UseCases

open PriceFeed.Library PriceFeed.MarketRecords

structure DiscreteAggregationParams where
  symbols : List String
  exchangeNames : List String
  rangeDateStart : ℤ
  rangeDateEnd : ℤ
  timeframeMinutes : ℕ := 60
  deriving DecidableEq, Repr

/-- The loop of `DiscreteAggregation` over the batches of one symbol. -/
structure SymbolLoop where
  symbol : String
  aggregation : DiscreteAggregation.AggregationState
  deriving DecidableEq, Repr

namespace SymbolLoop

section Batches

variable (asyncStepSize : ℕ+) (params : DiscreteAggregationParams)

def initial (symbol : String) : SymbolLoop where
  symbol := symbol
  aggregation := { timeframeStart := params.rangeDateStart }

/-- The candle sticks that the query matches, in ascending order. -/
def matching (symbol : String) (candleSticks : List CandleStickRow) : List CandleStick :=
  (SearchMarketRecordsScope.findAll
    { symbol := symbol
      exchangeNames := params.exchangeNames
      rangeDateStart := params.rangeDateStart
      rangeDateEnd := params.rangeDateEnd
      orderBy := some .ASC
      limit := candleSticks.length } candleSticks).map CandleStickRow.candleStick

/-- One batch, from what is stored at that moment. -/
def fetch (candleSticks : List CandleStickRow) (loop : SymbolLoop) : SymbolLoop where
  symbol := loop.symbol
  aggregation := DiscreteAggregation.fetchAndProcessBatch asyncStepSize
    (matching params loop.symbol candleSticks) (params.timeframeMinutes * 60000) loop.aggregation

def ended (loop : SymbolLoop) : Bool := loop.aggregation.isLastBatch

/-- The loop on its own: nothing is stored until it ends. -/
def finish (candleSticks : List CandleStickRow) : SymbolLoop → SymbolLoop :=
  runLoop ended (fetch asyncStepSize params candleSticks) (candleSticks.length + 1)

end Batches

def result (loop : SymbolLoop) : DiscreteAggregation.AggregationResult :=
  let candles := loop.aggregation.aggregatedData ++ loop.aggregation.transitionTimeframe.toList
  { symbol := loop.symbol
    processedCount := loop.aggregation.offset
    count := candles.length
    candles := candles }

variable {asyncStepSize : ℕ+} {params : DiscreteAggregationParams} {candleSticks : List CandleStickRow}

private theorem length_matching (symbol : String) : (matching params symbol candleSticks).length ≤ candleSticks.length := by
  rw [matching, List.length_map, SearchMarketRecordsScope.findAll, SearchMarketRecordsScope.page]
  exact List.length_take_le _ _

/-- Each batch but the last takes the loop on among the candle sticks. -/
theorem ended_finish (loop : SymbolLoop) : ended (finish asyncStepSize params candleSticks loop) := by
  apply ended_runLoop fun loop => (matching params loop.symbol candleSticks).length - loop.aggregation.offset
  · intro loop _
    have positive := asyncStepSize.pos
    have length : (DiscreteAggregation.fetchCandleSticks asyncStepSize (matching params loop.symbol candleSticks)
        loop.aggregation.offset).length = _ := DiscreteAggregation.length_fetchCandleSticks _
    cases last : ended (fetch asyncStepSize params candleSticks loop) with
    | true => exact .inl rfl
    | false =>
      rw [ended, fetch, DiscreteAggregation.fetchAndProcessBatch_isLastBatch] at last
      have full := of_decide_eq_false last
      have onward : (fetch asyncStepSize params candleSticks loop).aggregation.offset =
          loop.aggregation.offset + _ := DiscreteAggregation.fetchAndProcessBatch_offset
      refine .inr ?_
      rw [onward]
      change (matching params loop.symbol candleSticks).length - _ < _
      omega
  · have short : (matching params loop.symbol candleSticks).length ≤ _ := length_matching loop.symbol
    omega

theorem finish_fetch {loop : SymbolLoop} (more : loop.aggregation.isLastBatch = false) :
    finish asyncStepSize params candleSticks (fetch asyncStepSize params candleSticks loop) =
      finish asyncStepSize params candleSticks loop :=
  runLoop_body more (ended_finish loop)

theorem finish_ended {loop : SymbolLoop} (last : loop.aggregation.isLastBatch) :
    finish asyncStepSize params candleSticks loop = loop :=
  have ends : ended loop := last
  runLoop_ended ends _

theorem symbol_finish (loop : SymbolLoop) : (finish asyncStepSize params candleSticks loop).symbol = loop.symbol := by
  rw [finish]
  generalize candleSticks.length + 1 = rounds
  induction rounds generalizing loop with
  | zero => rfl
  | succ rounds ih =>
    cases last : ended loop with
    | true => rw [runLoop_ended last]
    | false =>
      rw [runLoop_running last, ih]
      rfl

/-- The rounds of the loop are those of `aggregateBatches`. -/
private theorem aggregateBatches_runLoop {loop : SymbolLoop} {rounds : ℕ}
    {final : DiscreteAggregation.AggregationState}
    (ends : DiscreteAggregation.aggregateBatches asyncStepSize (matching params loop.symbol candleSticks)
      (params.timeframeMinutes * 60000) rounds loop.aggregation = some final) :
    finish asyncStepSize params candleSticks loop = ⟨loop.symbol, final⟩ := by
  induction rounds generalizing loop with
  | zero =>
    rw [DiscreteAggregation.aggregateBatches] at ends
    obtain ⟨last, rfl⟩ := enabled ends
    exact finish_ended last
  | succ rounds ih =>
    rw [DiscreteAggregation.aggregateBatches] at ends
    split at ends
    · next last =>
      obtain rfl := Option.some.inj ends
      exact finish_ended last
    · next running =>
      rw [← finish_fetch (Bool.eq_false_iff.mpr running)]
      exact ih ends

/-- Without insertions the loop gives what `aggregateCandleSticksForSymbol` returns. -/
theorem aggregateCandleSticksForSymbol_finish (symbol : String) :
    DiscreteAggregation.aggregateCandleSticksForSymbol asyncStepSize (matching params symbol candleSticks)
      (params.timeframeMinutes * 60000) symbol params.rangeDateStart =
        some (finish asyncStepSize params candleSticks (initial params symbol)).result := by
  have ends : (DiscreteAggregation.aggregateBatches asyncStepSize (matching params symbol candleSticks)
      (params.timeframeMinutes * 60000) ((matching params symbol candleSticks).length + 1)
      { timeframeStart := params.rangeDateStart }).isSome :=
    DiscreteAggregation.aggregateBatches_isSome asyncStepSize.pos
      (DiscreteAggregation.paged_initial _) fun _ => Nat.lt_succ_of_le (Nat.sub_le _ _)
  obtain ⟨final, ended⟩ := Option.isSome_iff_exists.mp ends
  have same : finish asyncStepSize params candleSticks (initial params symbol) = ⟨symbol, final⟩ :=
    aggregateBatches_runLoop ended
  rw [DiscreteAggregation.aggregateCandleSticksForSymbol, ended, same]
  rfl

end SymbolLoop

structure AggregateParams where
  symbols : List String
  exchangeNames : List String
  rangeDateStart : ℤ
  rangeDateEnd : ℤ
  limit : ℕ := 1000
  offset : ℕ := 0
  deriving DecidableEq, Repr

def AggregateParams.queryParams (params : AggregateParams) (symbol : String) : SearchParams where
  symbol := symbol
  exchangeNames := params.exchangeNames
  rangeDateStart := params.rangeDateStart
  rangeDateEnd := params.rangeDateEnd
  limit := params.limit
  offset := params.offset

/-- The loop of `AggregateCandleSticks` over the steps of one symbol. -/
structure StepLoop where
  symbol : String
  step : ℕ := 0
  state : AggregateCandleSticks.StepState
  isBroken : Bool := false

namespace StepLoop

open AggregateCandleSticks SearchMarketRecordsScope

section Steps

variable (params : AggregateParams)

def initial (symbol : String) : StepLoop where
  symbol := symbol
  state := { offset := params.offset }

/-- The rows that the query matches, in ascending order. -/
def ordering (symbol : String) (rows : List CandleStickRow) : List CandleStickRow :=
  (rows.filter fun row => Matches (params.queryParams symbol) row).insertionSort
    (orderLe { params.queryParams symbol with orderBy := some .ASC })

def fetch (rows : List CandleStickRow) (loop : StepLoop) : StepLoop :=
  let result := aggregateStep (params.queryParams loop.symbol) (fun _ => ordering params loop.symbol rows)
    loop.step loop.state
  { loop with step := loop.step + 1, state := result.1, isBroken := result.2 }

def ended (loop : StepLoop) : Bool := loop.isBroken || decide (stepCount params.limit ≤ loop.step)

def finish (rows : List CandleStickRow) : StepLoop → StepLoop :=
  runLoop (ended params) (fetch params rows) (stepCount params.limit + 1)

end Steps

def result (loop : StepLoop) : SymbolAggregate where
  symbol := loop.symbol
  aggregatedData := calculateCommonAggregate loop.state.aggregatedDataByMarket
  aggregatedRecords := loop.state.offset

variable {params : AggregateParams} {rows : List CandleStickRow}

theorem ended_finish (loop : StepLoop) : ended params (finish params rows loop) := by
  apply ended_runLoop fun loop => stepCount params.limit - loop.step
  · intro loop running
    rw [ended, Bool.or_eq_false_iff] at running
    have more := of_decide_eq_false running.2
    refine .inr ?_
    change stepCount params.limit - (loop.step + 1) < _
    omega
  · omega

/-- The rounds of the loop are those of `aggregateSteps`. -/
theorem finish_eq {loop : StepLoop} (running : loop.isBroken = false) (remaining : ℕ)
    (left : remaining + loop.step = stepCount params.limit) :
    (finish params rows loop).symbol = loop.symbol ∧
      (finish params rows loop).state = aggregateSteps (params.queryParams loop.symbol)
        (fun _ => ordering params loop.symbol rows) remaining loop.state := by
  induction remaining generalizing loop with
  | zero =>
    have last : ended params loop := by
      rw [ended, running, Bool.false_or, decide_eq_true_iff]
      omega
    rw [finish, runLoop_ended last]
    exact ⟨rfl, rfl⟩
  | succ remaining ih =>
    have more : ended params loop = false := by
      rw [ended, running, Bool.false_or, decide_eq_false_iff_not]
      omega
    have place : stepCount params.limit - (remaining + 1) = loop.step := by omega
    have fetched : finish params rows (fetch params rows loop) = finish params rows loop :=
      runLoop_body more (ended_finish loop)
    rw [← fetched, aggregateSteps]
    simp only [AggregateParams.queryParams, place]
    split
    · next broken =>
      have last : ended params (fetch params rows loop) := by
        rw [ended, Bool.or_eq_true]
        exact .inl broken
      rw [finish, runLoop_ended last]
      exact ⟨rfl, rfl⟩
    · next whole =>
      apply ih
      · exact Bool.eq_false_iff.mpr whole
      · change remaining + (loop.step + 1) = _
        omega

/-- Without insertions the loop gives what `aggregateDataForSymbol` returns. -/
theorem result_finish (symbol : String) : (finish params rows (initial params symbol)).result =
    aggregateDataForSymbol (params.queryParams symbol) fun _ => ordering params symbol rows := by
  have same : (finish params rows (initial params symbol)).symbol = symbol ∧ _ = aggregateSteps _ _ _ _ :=
    finish_eq rfl (stepCount params.limit) rfl
  rw [result, same.1, same.2]
  rfl

end StepLoop

end PriceFeed.UseCases
