import PriceFeed.MarketRecords.SearchScope

/-! `AggregateCandleSticks`: the candle sticks of one symbol are fetched in steps of at
most a thousand and folded into one aggregate a market, whose medians are the result. -/

namespace PriceFeed.MarketRecords.AggregateCandleSticks

open PriceFeed.Library SearchMarketRecordsScope

def AGGREGATION_STEP_SIZE : ℕ := 1000

/-- `Number.MIN_VALUE`, the least positive number. -/
def MIN_VALUE : ℚ := 1 / 2 ^ 1074

/-- `Number.MAX_VALUE`. -/
def MAX_VALUE : ℚ := (2 ^ 53 - 1) * 2 ^ 971

/-- One entry a market, and the volume of them all. -/
structure MarketsAggregate where
  opening : OrderedMap ℕ ℚ := .empty
  high : OrderedMap ℕ ℚ := .empty
  low : OrderedMap ℕ ℚ := .empty
  close : OrderedMap ℕ ℚ := .empty
  volume : ℚ := 0

structure CommonAggregate where
  opening : Option ℚ
  high : Option ℚ
  low : Option ℚ
  close : Option ℚ
  volume : ℚ
  aggregatedAveragePrice : ℚ
  deriving DecidableEq, Repr

structure SymbolAggregate where
  symbol : String
  aggregatedData : CommonAggregate
  aggregatedRecords : ℕ
  deriving DecidableEq, Repr

def getFirstOpen (currentOpen : Option ℚ) (first : Chart) : ℚ := currentOpen.getD first.opening

def getMaxHigh (currentHigh : Option ℚ) (charts : List Chart) : ℚ :=
  charts.foldl (fun highest chart => max highest chart.high) (currentHigh.getD MIN_VALUE)

def getMinLow (currentLow : Option ℚ) (charts : List Chart) : ℚ :=
  charts.foldl (fun lowest chart => min lowest chart.low) (currentLow.getD MAX_VALUE)

def getLastClose (first : Chart) (rest : List Chart) : ℚ := (rest.getLastD first).close

section Arithmetic

variable [Arithmetic]

def getTotalVolume (charts : List Chart) : ℚ := total (charts.map Chart.volume)

/-- The body of `reduce`. -/
def updateMarket (aggregate : MarketsAggregate) (candleStick : CandleStick) : MarketsAggregate :=
  let marketId := candleStick.marketId
  match candleStick.charts with
  | [] => aggregate
  | first :: rest =>
    { opening := aggregate.opening.set marketId (getFirstOpen (aggregate.opening.get? marketId) first)
      high := aggregate.high.set marketId (getMaxHigh (aggregate.high.get? marketId) (first :: rest))
      low := aggregate.low.set marketId (getMinLow (aggregate.low.get? marketId) (first :: rest))
      close := aggregate.close.set marketId (getLastClose first rest)
      volume := Arithmetic.add aggregate.volume (getTotalVolume (first :: rest)) }

def updateMarketsAggregate (aggregate : MarketsAggregate) (data : List CandleStick) : MarketsAggregate :=
  data.foldl updateMarket aggregate

def calculateMedian (numbers : List ℚ) : Option ℚ :=
  let sortedNumbers := numbers.insertionSort (· ≤ ·)
  let half := sortedNumbers.length / 2
  if numbers = [] then none
  else if sortedNumbers.length % 2 = 1 then sortedNumbers[half]?
  else some (Arithmetic.half (Arithmetic.add (sortedNumbers.getD (half - 1) 0) (sortedNumbers.getD half 0)))

/-- The medians are `null` together, and half the sum of two nulls is zero. -/
def calculateCommonAggregate (marketsAggregate : MarketsAggregate) : CommonAggregate :=
  let high := calculateMedian marketsAggregate.high.values
  let low := calculateMedian marketsAggregate.low.values
  { opening := calculateMedian marketsAggregate.opening.values
    high := high
    low := low
    close := calculateMedian marketsAggregate.close.values
    volume := marketsAggregate.volume
    aggregatedAveragePrice := Arithmetic.half (Arithmetic.add (high.getD 0) (low.getD 0)) }

end Arithmetic

/-- The steps `execute` makes: the limit over the step size, rounded up. -/
def stepCount (limit : ℕ) : ℕ := (limit + AGGREGATION_STEP_SIZE - 1) / AGGREGATION_STEP_SIZE

def getStepLimit (step steps limit : ℕ) : ℕ :=
  let stepLimit := if step + 1 = steps then limit % AGGREGATION_STEP_SIZE else AGGREGATION_STEP_SIZE
  if stepLimit = 0 then AGGREGATION_STEP_SIZE else stepLimit

theorem getStepLimit_le (step steps limit : ℕ) : getStepLimit step steps limit ≤ AGGREGATION_STEP_SIZE := by
  simp only [getStepLimit, AGGREGATION_STEP_SIZE]
  split_ifs <;> omega

theorem limit_le_stepCount (limit : ℕ) : limit ≤ stepCount limit * AGGREGATION_STEP_SIZE := by
  simp only [stepCount, AGGREGATION_STEP_SIZE]
  omega

/-- A step reaches the end of its full step size or the limit. -/
theorem add_getStepLimit {step limit : ℕ} (running : step < stepCount limit) :
    step * AGGREGATION_STEP_SIZE + getStepLimit step (stepCount limit) limit =
      min limit ((step + 1) * AGGREGATION_STEP_SIZE) := by
  by_cases last : step + 1 = stepCount limit
  · by_cases whole : limit % AGGREGATION_STEP_SIZE = 0
    · rw [getStepLimit, if_pos last, if_pos whole]
      simp only [stepCount, AGGREGATION_STEP_SIZE] at last whole ⊢
      omega
    · rw [getStepLimit, if_pos last, if_neg whole]
      simp only [stepCount, AGGREGATION_STEP_SIZE] at last whole ⊢
      omega
  · rw [getStepLimit, if_neg last, if_neg (by decide)]
    simp only [stepCount, AGGREGATION_STEP_SIZE] at last running ⊢
    omega

/-- No step begins beyond the limit. -/
theorem mul_le_limit {step limit : ℕ} (running : step < stepCount limit) :
    step * AGGREGATION_STEP_SIZE ≤ limit := by
  simp only [stepCount, AGGREGATION_STEP_SIZE] at running ⊢
  omega

/-- The last step takes the rest of the limit, every other one a full step. -/
theorem getStepLimit_cases (step limit : ℕ) :
    getStepLimit step (stepCount limit) limit = AGGREGATION_STEP_SIZE ∨
      step + 1 = stepCount limit ∧ step * AGGREGATION_STEP_SIZE +
        getStepLimit step (stepCount limit) limit = limit := by
  by_cases last : step + 1 = stepCount limit
  · have covered := limit_le_stepCount limit
    refine .inr ⟨last, ?_⟩
    rw [add_getStepLimit (Nat.lt_of_succ_le last.le), last, min_eq_left covered]
  · exact .inl (by simp [getStepLimit, last])

/-- What the loop carries, and the rows it has folded. -/
structure StepState where
  aggregatedDataByMarket : MarketsAggregate := {}
  offset : ℕ
  folded : List CandleStickRow := []

section Loop

variable [Arithmetic] (queryParams : SearchParams) (orderings : ℕ → List CandleStickRow)

/-- The page of the ordering that the database has for this query. -/
def fetchCandleSticks (stepLimit offset : ℕ) (ordering : List CandleStickRow) : List CandleStickRow :=
  page { queryParams with limit := stepLimit, offset := offset, orderBy := some .ASC } ordering

/-- One step, and whether the loop breaks after it. -/
def aggregateStep (step : ℕ) (state : StepState) : StepState × Bool :=
  let stepLimit := getStepLimit step (stepCount queryParams.limit) queryParams.limit
  let candleSticks := fetchCandleSticks queryParams stepLimit state.offset (orderings step)
  ({ aggregatedDataByMarket := updateMarketsAggregate state.aggregatedDataByMarket
       (candleSticks.map CandleStickRow.candleStick)
     offset := state.offset + candleSticks.length
     folded := state.folded ++ candleSticks },
    decide (candleSticks.length < stepLimit))

/-- The loop over the steps that remain. -/
def aggregateSteps : ℕ → StepState → StepState
  | 0, state => state
  | remaining + 1, state =>
    let result := aggregateStep queryParams orderings (stepCount queryParams.limit - (remaining + 1)) state
    if result.2 then result.1 else aggregateSteps remaining result.1

def foldSymbol : StepState :=
  aggregateSteps queryParams orderings (stepCount queryParams.limit) { offset := queryParams.offset }

def aggregateDataForSymbol : SymbolAggregate :=
  let final := foldSymbol queryParams orderings
  { symbol := queryParams.symbol
    aggregatedData := calculateCommonAggregate final.aggregatedDataByMarket
    aggregatedRecords := final.offset }

end Loop

variable [Arithmetic] {queryParams : SearchParams} {orderings : ℕ → List CandleStickRow}

/-- What the loop has aggregated is one pass over the rows it has folded. -/
private theorem aggregateSteps_onePass {state : StepState} (remaining : ℕ)
    (onePass : state.aggregatedDataByMarket =
      updateMarketsAggregate {} (state.folded.map CandleStickRow.candleStick)) :
    (aggregateSteps queryParams orderings remaining state).aggregatedDataByMarket =
      updateMarketsAggregate {} ((aggregateSteps queryParams orderings remaining state).folded.map
        CandleStickRow.candleStick) := by
  induction remaining generalizing state with
  | zero => exact onePass
  | succ remaining ih =>
    have stepped : ∀ step, (aggregateStep queryParams orderings step state).1.aggregatedDataByMarket =
        updateMarketsAggregate {} ((aggregateStep queryParams orderings step state).1.folded.map
          CandleStickRow.candleStick) := by
      intro step
      simp only [aggregateStep, onePass, updateMarketsAggregate, List.map_append, List.foldl_append]
    simp only [aggregateSteps]
    split
    · exact stepped _
    · exact ih (stepped _)

theorem aggregatedData_onePass : (aggregateDataForSymbol queryParams orderings).aggregatedData =
    calculateCommonAggregate (updateMarketsAggregate {}
      ((foldSymbol queryParams orderings).folded.map CandleStickRow.candleStick)) :=
  congrArg calculateCommonAggregate (aggregateSteps_onePass _ rfl)

end PriceFeed.MarketRecords.AggregateCandleSticks
