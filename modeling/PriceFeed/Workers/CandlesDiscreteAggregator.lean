import Mathlib.Data.PNat.Basic
import PriceFeed.Library.Fallible
import PriceFeed.Library.Lists
import PriceFeed.Library.SerialTable
import PriceFeed.MarketRecords.BatchIndependence
import PriceFeed.UseCases.CachedRuns

/-! `CandlesDiscreteAggregator`: one execution of an aggregation task against a database
whose every call may fail. -/

namespace PriceFeed.Workers

open PriceFeed.Library PriceFeed.MarketRecords PriceFeed.UseCases

inductive Status where
  | PENDING
  | PROCESSING
  | COMPLETED
  | ERROR
  deriving DecidableEq, Repr

/-- The calls of `execute` that may fail, in the order in which it makes them. -/
inductive Step where
  | findTask
  | updateProcessing
  | executeUseCase
  | createResults
  | findExchanges
  | createAssociations
  | updateCompleted
  | updateError
  deriving DecidableEq, Repr

inductive Exception where
  | notFound
  | failed (step : Step)
  deriving DecidableEq, Repr

structure AggregationTask where
  status : Status := .PENDING
  error : Option Exception := none
  deriving DecidableEq, Repr

structure DiscreteAggregationResult where
  symbol : String
  processedCount : ℕ
  count : ℕ
  rangeDateStart : ℤ
  rangeDateEnd : ℤ
  timeframeMinutes : ℕ
  candles : List Candle
  taskId : ℕ
  deriving DecidableEq, Repr

structure DiscreteAggregationExchange where
  discreteAggregationResultId : ℕ
  exchangeId : ℕ
  deriving DecidableEq, Repr

structure Exchange where
  id : ℕ
  name : String
  deriving DecidableEq, Repr

/-- Tasks are kept by their ids. -/
structure Database where
  tasks : ℕ → Option AggregationTask
  results : SerialTable DiscreteAggregationResult
  associations : SerialTable DiscreteAggregationExchange
  exchanges : List Exchange
  candleSticks : List CandleStickRow

structure Message where
  taskId : ℕ
  params : DiscreteAggregationParams
  deriving DecidableEq, Repr

namespace Database

variable (database : Database)

def status (taskId : ℕ) : Option Status := (database.tasks taskId).map AggregationTask.status

def updateTask (taskId : ℕ) (change : AggregationTask → AggregationTask) : Database :=
  { database with tasks := Function.update database.tasks taskId ((database.tasks taskId).map change) }

def createResults (rows : List DiscreteAggregationResult) : Database :=
  { database with results := database.results.bulkCreate rows }

def createAssociations (rows : List DiscreteAggregationExchange) : Database :=
  { database with associations := database.associations.bulkCreate rows }

def findExchanges (exchangeNames : List String) : List Exchange :=
  database.exchanges.filter fun exchange => exchange.name ∈ exchangeNames

end Database

namespace CandlesDiscreteAggregator

abbrev Worker := Fallible Exception Database

section Execution

variable (asyncStepSize : ℕ+) (faults : Step → Option Fault)

def call (step : Step) (effect : Database → Value × Database) : Worker Value :=
  Fallible.perform (faults step) (.failed step) effect

def findOneOrFail (taskId : ℕ) : Worker AggregationTask := do
  let found ← call faults .findTask fun database => (database.tasks taskId, database)
  match found with
  | some task => pure task
  | none => Fallible.throwing .notFound

def update (step : Step) (taskId : ℕ) (change : AggregationTask → AggregationTask) : Worker Unit :=
  call faults step fun database => ((), database.updateTask taskId change)

def initiateTaskStatus (taskId : ℕ) : Worker Unit := do
  let _ ← findOneOrFail faults taskId
  update faults .updateProcessing taskId fun task => { task with status := .PROCESSING }

/-- `systemCall` neither hashes the parameters nor caches the response. The use case throws
on no records, so the default is never met. -/
def systemCall (params : DiscreteAggregationParams) (candleSticks : List CandleStickRow) :
    List DiscreteAggregation.AggregationResult :=
  ((discreteAggregation (fun _ => "") asyncStepSize).runInTransaction params candleSticks).elim []
    DiscreteAggregationResponse.pairs

def executeUseCase (params : DiscreteAggregationParams) :
    Worker (List DiscreteAggregation.AggregationResult) :=
  call faults .executeUseCase fun database =>
    (systemCall asyncStepSize params database.candleSticks, database)

def formatResult (taskId : ℕ) (params : DiscreteAggregationParams)
    (pair : DiscreteAggregation.AggregationResult) : DiscreteAggregationResult where
  symbol := pair.symbol
  processedCount := pair.processedCount
  count := pair.count
  rangeDateStart := params.rangeDateStart
  rangeDateEnd := params.rangeDateEnd
  timeframeMinutes := params.timeframeMinutes
  candles := pair.candles
  taskId := taskId

/-- Every exchange that was found beside every result. -/
def joinTableData (createdResults : List (ℕ × DiscreteAggregationResult)) (exchanges : List Exchange) :
    List DiscreteAggregationExchange :=
  exchanges.flatMap fun exchange => createdResults.map fun result => ⟨result.1, exchange.id⟩

def setResultsAssociations (createdResults : List (ℕ × DiscreteAggregationResult))
    (exchangeNames : List String) : Worker Unit := do
  let exchanges ← call faults .findExchanges fun database =>
    (database.findExchanges exchangeNames, database)
  call faults .createAssociations fun database =>
    ((), database.createAssociations (joinTableData createdResults exchanges))

def saveTaskResults (taskId : ℕ) (params : DiscreteAggregationParams)
    (results : List DiscreteAggregation.AggregationResult) : Worker Unit := do
  let formattedResults := results.map (formatResult taskId params)
  let createdResults ← call faults .createResults fun database =>
    (database.results.numbered formattedResults, database.createResults formattedResults)
  setResultsAssociations faults createdResults params.exchangeNames

/-- What `execute` tries once the task is in processing. -/
def aggregate (message : Message) : Worker Unit := do
  let results ← executeUseCase asyncStepSize faults message.params
  saveTaskResults faults message.taskId message.params results
  update faults .updateCompleted message.taskId fun task => { task with status := .COMPLETED }

def handleError (taskId : ℕ) (error : Exception) : Worker Unit :=
  update faults .updateError taskId fun task => { task with status := .ERROR, error := some error }

def execute (message : Message) : Worker Unit := do
  initiateTaskStatus faults message.taskId
  Fallible.attempt (aggregate asyncStepSize faults message) (handleError faults message.taskId)

end Execution

/-- The use case has one result for every requested symbol, that of its loop on its own. -/
theorem systemCall_eq_map (asyncStepSize : ℕ+) (params : DiscreteAggregationParams)
    (candleSticks : List CandleStickRow) : systemCall asyncStepSize params candleSticks =
      params.symbols.map fun symbol =>
        (SymbolLoop.finish asyncStepSize params candleSticks (SymbolLoop.initial params symbol)).result := by
  change ((params.symbols.map _).map _).map _ = _
  rw [List.map_map, List.map_map]
  rfl

theorem systemCall_symbols (asyncStepSize : ℕ+) (params : DiscreteAggregationParams)
    (candleSticks : List CandleStickRow) :
    (systemCall asyncStepSize params candleSticks).map DiscreteAggregation.AggregationResult.symbol =
      params.symbols := by
  rw [systemCall_eq_map, List.map_map]
  refine (List.map_congr_left fun symbol _ => ?_).trans (List.map_id _)
  exact SymbolLoop.symbol_finish _

end CandlesDiscreteAggregator

end PriceFeed.Workers
