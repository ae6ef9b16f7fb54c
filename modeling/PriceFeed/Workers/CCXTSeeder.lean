import Mathlib.Logic.Function.Basic
import PriceFeed.Library.Runs
import PriceFeed.Library.SerialTable

/-! `CCXTSeeder`: the realtime and the historical seeders of any exchanges write to one
table of markets, each call on the database a step of its own that may throw. -/

namespace PriceFeed.Workers.CCXTSeeder

open PriceFeed.Library

/-- What an exchange says of a market. -/
structure MarketData where
  externalMarketId : String
  base : String
  quote : String
  baseId : String
  quoteId : String
  deriving DecidableEq, Repr

structure Market extends MarketData where
  exchangeId : ℕ
  symbol : String
  active : Bool := false
  historical : Bool := false
  deriving DecidableEq, Repr

abbrev MarketTable := SerialTable Market

/-- `CCXTRealtimeSeeder` and `CCXTHistoricalSeeder`. -/
inductive Kind where
  | realtime
  | historical
  deriving DecidableEq, Repr

/-- The column that a seeder resets and sets. -/
def Kind.flag : Kind → Market → Bool
  | .realtime => Market.active
  | .historical => Market.historical

def Kind.setFlag (kind : Kind) (market : Market) (value : Bool) : Market :=
  match kind with
  | .realtime => { market with active := value }
  | .historical => { market with historical := value }

/-- One exchange in the configuration of one seeder, with the answer of its `loadMarkets`. -/
structure Seeding where
  kind : Kind
  exchangeId : ℕ
  symbols : List String
  currentExchangeMarkets : String → Option MarketData

/-- An instance writes the columns that differ from what it was loaded with. -/
def changed {Value : Type} [DecidableEq Value] (loaded value current : Value) : Value :=
  if value = loaded then current else value

def updateData (loaded value current : MarketData) : MarketData where
  externalMarketId := changed loaded.externalMarketId value.externalMarketId current.externalMarketId
  base := changed loaded.base value.base current.base
  quote := changed loaded.quote value.quote current.quote
  baseId := changed loaded.baseId value.baseId current.baseId
  quoteId := changed loaded.quoteId value.quoteId current.quoteId

namespace Seeding

variable (seeding : Seeding)

def resetMarket (market : Market) : Market :=
  if market.exchangeId = seeding.exchangeId then seeding.kind.setFlag market false else market

def updateMarket (loaded : Market) (data : MarketData) (market : Market) : Market :=
  seeding.kind.setFlag { market with toMarketData := updateData loaded.toMarketData data market.toMarketData }
    (changed (seeding.kind.flag loaded) true (seeding.kind.flag market))

def createMarket (symbol : String) (data : MarketData) : Market :=
  seeding.kind.setFlag { data with exchangeId := seeding.exchangeId, symbol := symbol } true

def isMarket (symbol : String) (market : Market) : Bool :=
  market.exchangeId = seeding.exchangeId && market.symbol = symbol

def resetMarketStatuses (table : MarketTable) : MarketTable :=
  table.mapRows fun row => seeding.resetMarket row.2

def findOne (table : MarketTable) (symbol : String) : Option (ℕ × Market) :=
  table.rows.find? fun row => seeding.isMarket symbol row.2

/-- The second half of `updateOrCreate`. A market that has come to exist since the first
half violates the unique index. -/
def save (table : MarketTable) (symbol : String) (data : MarketData) :
    Option (ℕ × Market) → Option MarketTable
  | some existingRecord => some (table.mapRows fun row =>
      if row.1 = existingRecord.1 then seeding.updateMarket existingRecord.2 data row.2 else row.2)
  | none =>
    if (seeding.findOne table symbol).isNone then some (table.bulkCreate [seeding.createMarket symbol data])
    else none

end Seeding

inductive Phase where
  | resetting
  | loading
  | finding (symbols : List String)
  | saving (symbol : String) (data : MarketData) (existingRecord : Option (ℕ × Market)) (rest : List String)
  | finished

/-- How far a seeding is, which symbols it has stored, and which it has logged as errors. -/
structure Progress where
  phase : Phase := .resetting
  reset : Bool := false
  loaded : Bool := false
  stored : List String := []
  failed : List String := []

structure State where
  table : MarketTable
  progress : ℕ → Progress := fun _ => {}

inductive Event where
  | resets (index : ℕ)
  | resetThrows (index : ℕ) (stored : Bool)
  | loads (index : ℕ)
  | loadThrows (index : ℕ)
  | finds (index : ℕ)
  | findThrows (index : ℕ)
  | saves (index : ℕ)
  | saveThrows (index : ℕ) (stored : Bool)
  deriving DecidableEq, Repr

namespace State

variable (seedings : ℕ → Seeding) (state : State)

def setProgress (index : ℕ) (progress : Progress) : State :=
  { state with progress := Function.update state.progress index progress }

def reset (index : ℕ) : State :=
  { state with table := (seedings index).resetMarketStatuses state.table }

/-- The steps of one exchange after another, and within one from reset to the last symbol.
An error of a market is logged, and one before them ends the exchange. -/
def step : Event → Option State
  | .resets index =>
    match (state.progress index).phase with
    | .resetting => some ((state.reset seedings index).setProgress index
        { state.progress index with phase := .loading, reset := true })
    | _ => none
  | .resetThrows index stored =>
    match (state.progress index).phase with
    | .resetting => some ((if stored then state.reset seedings index else state).setProgress index
        { state.progress index with phase := .finished, reset := stored })
    | _ => none
  | .loads index =>
    match (state.progress index).phase with
    | .loading => some (state.setProgress index
        { state.progress index with phase := .finding (seedings index).symbols, loaded := true })
    | _ => none
  | .loadThrows index =>
    match (state.progress index).phase with
    | .loading => some (state.setProgress index { state.progress index with phase := .finished })
    | _ => none
  | .finds index =>
    match (state.progress index).phase with
    | .finding [] => some (state.setProgress index { state.progress index with phase := .finished })
    | .finding (symbol :: rest) =>
      match (seedings index).currentExchangeMarkets symbol with
      | none => some (state.setProgress index { state.progress index with phase := .finding rest })
      | some data => some (state.setProgress index { state.progress index with
          phase := .saving symbol data ((seedings index).findOne state.table symbol) rest })
    | _ => none
  | .findThrows index =>
    match (state.progress index).phase with
    | .finding (symbol :: rest) =>
      if ((seedings index).currentExchangeMarkets symbol).isSome then
        some (state.setProgress index { state.progress index with
          phase := .finding rest, failed := symbol :: (state.progress index).failed })
      else none
    | _ => none
  | .saves index =>
    match (state.progress index).phase with
    | .saving symbol data existingRecord rest =>
      match (seedings index).save state.table symbol data existingRecord with
      | some table => some ({ state with table }.setProgress index { state.progress index with
          phase := .finding rest, stored := symbol :: (state.progress index).stored })
      | none => some (state.setProgress index { state.progress index with
          phase := .finding rest, failed := symbol :: (state.progress index).failed })
    | _ => none
  -- the answer may be lost after the row has been stored
  | .saveThrows index stored =>
    match (state.progress index).phase with
    | .saving symbol data existingRecord rest =>
      match if stored then (seedings index).save state.table symbol data existingRecord else none with
      | some table => some ({ state with table }.setProgress index { state.progress index with
          phase := .finding rest
          stored := symbol :: (state.progress index).stored
          failed := symbol :: (state.progress index).failed })
      | none => some (state.setProgress index { state.progress index with
          phase := .finding rest, failed := symbol :: (state.progress index).failed })
    | _ => none

end State

end PriceFeed.Workers.CCXTSeeder
