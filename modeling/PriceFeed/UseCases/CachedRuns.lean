import Mathlib.Logic.Function.Basic
import PriceFeed.UseCases.QueryLoops

/-! `BaseUseCase.run` with its `RedisLRUCache`, beside the insertions of market
records: any number of calls that look up the cache, make their queries and store. No
transaction holds the queries of a call together. -/

namespace PriceFeed.UseCases

open PriceFeed.Library PriceFeed.MarketRecords

/-- The keys of one namespace: the values set with `setex`, and the sorted set of the
times of their last use. An expired value leaves its key in the set. -/
structure RedisLRUCache (Value : Type) where
  values : String → Option Value := fun _ => none
  lruCache : List (ℤ × String) := []

namespace RedisLRUCache

variable {Value : Type} (cache : RedisLRUCache Value)

/-- A member that is there already gets the new score. -/
def zadd (timestamp : ℤ) (key : String) : RedisLRUCache Value :=
  { cache with lruCache := (cache.lruCache.filter fun entry => entry.2 ≠ key) ++ [(timestamp, key)] }

/-- `zrange` from 0 to 0: the lowest score, and among equal ones the first key. -/
def oldestKey : Option String :=
  (cache.lruCache.insertionSort fun first second =>
    first.1 < second.1 ∨ first.1 = second.1 ∧ first.2 ≤ second.2).head?.map Prod.snd

def setex (key : String) (value : Value) : RedisLRUCache Value :=
  { cache with values := Function.update cache.values key (some value) }

def del (key : String) : RedisLRUCache Value :=
  { cache with values := Function.update cache.values key none }

def zrem (key : String) : RedisLRUCache Value :=
  { cache with lruCache := cache.lruCache.filter fun entry => entry.2 ≠ key }

def addToCache (maxCacheSize : ℕ) (timestamp : ℤ) (key : String) (value : Value) :
    RedisLRUCache Value :=
  let added := (cache.zadd timestamp key).setex key value
  if maxCacheSize < added.lruCache.length then
    match added.oldestKey with
    | none => added
    | some oldestKey => (added.zrem oldestKey).del oldestKey
  else added

def getFromCache (timestamp : ℤ) (key : String) : RedisLRUCache Value × Option Value :=
  match cache.values key with
  | some value => (cache.zadd timestamp key, some value)
  | none => (cache, none)

variable {cache}

@[simp] theorem values_getFromCache : (cache.getFromCache timestamp key).1.values = cache.values := by
  unfold getFromCache
  split <;> rfl

@[simp] theorem snd_getFromCache : (cache.getFromCache timestamp key).2 = cache.values key := by
  unfold getFromCache
  split <;> simp_all

theorem values_del {value : Value} (held : (cache.del key).values other = some value) :
    cache.values other = some value := by
  by_cases same : other = key
  · subst same
    simp [del] at held
  · simpa [del, same] using held

/-- A value that is there after an insertion is the new one or was there before. -/
theorem values_addToCache {value response : Value}
    (held : (cache.addToCache maxCacheSize timestamp key value).values other = some response) :
    other = key ∧ response = value ∨ cache.values other = some response := by
  have added : ∀ {response : Value},
      ((cache.zadd timestamp key).setex key value).values other = some response →
        other = key ∧ response = value ∨ cache.values other = some response := by
    intro response held
    by_cases same : other = key
    · subst same
      have equal : value = response := by simpa [setex] using held
      exact .inl ⟨rfl, equal.symm⟩
    · exact .inr (by simpa [setex, zadd, same] using held)
  simp only [addToCache] at held
  split at held
  · split at held
    · exact added held
    · exact added (values_del held)
  · exact added held

end RedisLRUCache

/-- A use case as `run` calls it. A request makes its queries in loops that take turns:
`fetch` is a `findAll` and what its loop makes of it. `respond` gives the response once all
loops have ended, as the JSON it is sent as, and none where it throws; `rangeDateEnd` is
none where it is not a date. -/
structure UseCase (Params Record Loop Response : Type) where
  name : String
  hash : Params → String
  rangeDateEnd : Params → Option ℤ
  loops : Params → List Loop
  ended : Params → Loop → Bool
  fetch : Params → List Record → Loop → Loop
  rounds : Params → List Record → ℕ
  /-- On given records every loop comes to its end. -/
  ends : ∀ params records loop,
    ended params (runLoop (ended params) (fetch params records) (rounds params records) loop)
  respond : Params → List Loop → Option Response
  maxCacheSize : ℕ := 10000

variable {Params Record Loop Response : Type}

namespace UseCase

variable (useCase : UseCase Params Record Loop Response)

def getNamespacedKey (params : Params) : String := useCase.name ++ ":" ++ useCase.hash params

/-- `shouldCache` of the queries: their range is over. -/
def shouldCache (now : ℤ) (params : Params) : Prop :=
  ∃ rangeDateEnd ∈ useCase.rangeDateEnd params, rangeDateEnd < now

instance (now : ℤ) (params : Params) : Decidable (useCase.shouldCache now params) := by
  unfold shouldCache
  exact inferInstance

def finish (params : Params) (records : List Record) : Loop → Loop :=
  runLoop (useCase.ended params) (useCase.fetch params records) (useCase.rounds params records)

/-- The response to a request that has come to these loops, if no record is inserted any more. -/
def answer (params : Params) (records : List Record) (loops : List Loop) : Option Response :=
  useCase.respond params (loops.map (useCase.finish params records))

/-- An execution on its own. -/
def runInTransaction (params : Params) (records : List Record) : Option Response :=
  useCase.answer params records (useCase.loops params)

variable {useCase} {params : Params} {records : List Record}

/-- A query does not change the answer. -/
theorem answer_set {loops : List Loop} {index : ℕ} {loop : Loop} (found : loops[index]? = some loop)
    (running : useCase.ended params loop = false) :
    useCase.answer params records (loops.set index (useCase.fetch params records loop)) =
      useCase.answer params records loops := by
  have fetched : useCase.finish params records (useCase.fetch params records loop) =
      useCase.finish params records loop := runLoop_body running (useCase.ends params records loop)
  obtain ⟨inside, rfl⟩ := List.getElem?_eq_some_iff.mp found
  have own := List.getElem_map (useCase.finish params records) (l := loops) (i := index)
    (h := by rwa [List.length_map])
  rw [answer, List.map_set, fetched, ← own, List.set_getElem_self, answer]

/-- Nor is there anything left to be read once all loops have ended. -/
theorem answer_ended {loops : List Loop} (ended : ∀ loop ∈ loops, useCase.ended params loop) :
    useCase.answer params records loops = useCase.respond params loops := by
  have kept : loops.map (useCase.finish params records) = loops.map id :=
    List.map_congr_left fun loop member => runLoop_ended (ended loop member) _
  rw [answer, kept, List.map_id]

end UseCase

/-- How far a call of `run` has come. -/
inductive CallPhase (Loop Response : Type) where
  | lookingUp
  | executing (cached : Bool) (loops : List Loop)
  | storing (response : Response)
  | returned
  deriving DecidableEq, Repr

def CallPhase.isStoring : CallPhase Loop Response → Bool
  | .storing _ => true
  | _ => false

structure Call (Params Loop Response : Type) where
  params : Params
  phase : CallPhase Loop Response
  deriving DecidableEq, Repr

/-- A response that `run` came to, with the records stored at that moment. -/
structure Served (Params Record Response : Type) where
  params : Params
  records : List Record
  response : Option Response
  deriving DecidableEq, Repr

/-- The processes that serve one use case on one database. `served` is there for the
statements only. -/
structure CachedRuns (Params Record Loop Response : Type) where
  now : ℤ
  records : List Record
  cache : RedisLRUCache Response := {}
  calls : List (Call Params Loop Response) := []
  served : List (Served Params Record Response) := []

/-- What can happen next. A call is known by its position, and so are its loops. -/
inductive CacheEvent (Params Record : Type) where
  | passes (time : ℤ)
  | inserts (record : Record)
  | runs (params : Params)
  | looksUp (call : ℕ)
  | fetches (call loop : ℕ)
  | responds (call : ℕ)
  | stores (call : ℕ)
  | expires (key : String)
  deriving DecidableEq, Repr

namespace CachedRuns

def setCall (process : CachedRuns Params Record Loop Response) (index : ℕ) (params : Params)
    (phase : CallPhase Loop Response) : CachedRuns Params Record Loop Response :=
  { process with calls := process.calls.set index ⟨params, phase⟩ }

def serve (process : CachedRuns Params Record Loop Response) (params : Params) (response : Option Response) :
    CachedRuns Params Record Loop Response :=
  { process with served := process.served ++ [⟨params, process.records, response⟩] }

/-- The phase after an execution: only a result that was not thrown is stored. -/
def afterExecution (cached : Bool) (response : Option Response) : CallPhase Loop Response :=
  match cached, response with
  | true, some response => .storing response
  | _, _ => .returned

variable (useCase : UseCase Params Record Loop Response)

def step (process : CachedRuns Params Record Loop Response) :
    CacheEvent Params Record → Option (CachedRuns Params Record Loop Response)
  | .passes time => if process.now ≤ time then some { process with now := time } else none
  | .inserts record => some { process with records := process.records ++ [record] }
  | .runs params =>
    let phase :=
      if useCase.shouldCache process.now params then .lookingUp
      else .executing false (useCase.loops params)
    some { process with calls := process.calls ++ [⟨params, phase⟩] }
  | .looksUp index =>
    match process.calls[index]? with
    | some ⟨params, .lookingUp⟩ =>
      let (cache, value) :=
        process.cache.getFromCache process.now (useCase.getNamespacedKey params)
      let used := { process with cache := cache }
      match value with
      | some response => some ((used.serve params (some response)).setCall index params .returned)
      | none => some (used.setCall index params (.executing true (useCase.loops params)))
    | _ => none
  | .fetches index place =>
    match process.calls[index]? with
    | some ⟨params, .executing cached loops⟩ =>
      (loops[place]?).bind fun loop =>
        if useCase.ended params loop = false then
          let fetched := useCase.fetch params process.records loop
          some (process.setCall index params (.executing cached (loops.set place fetched)))
        else none
    | _ => none
  | .responds index =>
    match process.calls[index]? with
    | some ⟨params, .executing cached loops⟩ =>
      if ∀ loop ∈ loops, useCase.ended params loop then
        -- An uncached call has its response here; a cached one stores it first.
        let response := useCase.respond params loops
        some ((process.serve params response).setCall index params (afterExecution cached response))
      else none
    | _ => none
  | .stores index =>
    match process.calls[index]? with
    | some ⟨params, .storing response⟩ =>
      let cache := process.cache.addToCache useCase.maxCacheSize process.now
        (useCase.getNamespacedKey params) response
      some ({ process with cache := cache }.setCall index params .returned)
    | _ => none
  | .expires key => some { process with cache := process.cache.del key }

def initial (now : ℤ) (records : List Record) : CachedRuns Params Record Loop Response :=
  { now := now, records := records }

end CachedRuns

section Queries

/-- The response of the use cases that list market records. -/
structure MarketRecordsResponse where
  data : List CandleStickRow
  fetchCount : ℕ
  deriving DecidableEq, Repr

/-- There is one query, which has been made or not. -/
def candleSticksList (hash : SearchParams → String) :
    UseCase SearchParams CandleStickRow (Option (List CandleStickRow)) MarketRecordsResponse where
  name := "CandleSticksList"
  hash := hash
  rangeDateEnd params := some params.rangeDateEnd
  loops _ := [none]
  ended _ found := found.isSome
  fetch params rows _ := some (SearchMarketRecordsScope.findAll params rows)
  rounds _ _ := 1
  ends _ _ found := by cases found <;> rfl
  respond _ loops := loops.head?.join.map fun candleSticks => ⟨candleSticks, candleSticks.length⟩

structure DiscreteAggregationResponse where
  timeframeMinutes : ℕ
  rangeDateStart : ℤ
  rangeDateEnd : ℤ
  exchangeNames : List String
  pairs : List DiscreteAggregation.AggregationResult
  deriving DecidableEq, Repr

def discreteAggregation (hash : DiscreteAggregationParams → String) (stepSize : ℕ+) :
    UseCase DiscreteAggregationParams CandleStickRow SymbolLoop DiscreteAggregationResponse where
  name := "DiscreteAggregation"
  hash := hash
  rangeDateEnd params := some params.rangeDateEnd
  loops params := params.symbols.map (SymbolLoop.initial params)
  ended _ := SymbolLoop.ended
  fetch := SymbolLoop.fetch stepSize
  rounds _ rows := rows.length + 1
  ends _ _ := SymbolLoop.ended_finish
  respond params loops := some
    { timeframeMinutes := params.timeframeMinutes
      rangeDateStart := params.rangeDateStart
      rangeDateEnd := params.rangeDateEnd
      exchangeNames := params.exchangeNames
      pairs := loops.map SymbolLoop.result }

/-- What `dumpCandleStickAggregate` makes of one pair. -/
structure DumpedAggregate where
  opening : Option ℚ
  high : Option ℚ
  low : Option ℚ
  close : Option ℚ
  volume : Option ℚ
  aggregatedAveragePrice : Option ℚ
  aggregatedRecords : ℕ
  deriving DecidableEq, Repr

structure AggregateResponse where
  rangeDateStart : ℤ
  rangeDateEnd : ℤ
  aggregatedPairs : List (String × DumpedAggregate)
  deriving DecidableEq, Repr

/-- `|| null` of a number. -/
def orNull (number : ℚ) : Option ℚ := if number = 0 then none else some number

def dumpCandleStickAggregate (pairs : List AggregateCandleSticks.SymbolAggregate)
    (rangeDateStart rangeDateEnd : ℤ) : AggregateResponse where
  rangeDateStart := rangeDateStart
  rangeDateEnd := rangeDateEnd
  aggregatedPairs := (pairs.foldl (fun results pair =>
    let aggregatedData := pair.aggregatedData
    OrderedMap.set results pair.symbol
      { opening := aggregatedData.opening
        high := aggregatedData.high
        low := if aggregatedData.low = some AggregateCandleSticks.MAX_VALUE then none else aggregatedData.low
        close := aggregatedData.close
        volume := orNull aggregatedData.volume
        aggregatedAveragePrice := orNull aggregatedData.aggregatedAveragePrice
        aggregatedRecords := pair.aggregatedRecords }) .empty).entries

def aggregateCandleSticks (hash : AggregateParams → String) :
    UseCase AggregateParams CandleStickRow StepLoop AggregateResponse where
  name := "AggregateCandleSticks"
  hash := hash
  rangeDateEnd params := some params.rangeDateEnd
  loops params := params.symbols.map (StepLoop.initial params)
  ended := StepLoop.ended
  fetch := StepLoop.fetch
  rounds params _ := AggregateCandleSticks.stepCount params.limit + 1
  ends _ _ := StepLoop.ended_finish
  respond params loops :=
    some (dumpCandleStickAggregate (loops.map StepLoop.result) params.rangeDateStart params.rangeDateEnd)

/-- On its own an execution gives each symbol what `aggregateCandleSticksForSymbol` returns. -/
theorem discreteAggregation_pairs {hash : DiscreteAggregationParams → String} {stepSize : ℕ+}
    {params : DiscreteAggregationParams} {rows : List CandleStickRow} :
    ((discreteAggregation hash stepSize).runInTransaction params rows).map DiscreteAggregationResponse.pairs =
      params.symbols.mapM fun symbol => DiscreteAggregation.aggregateCandleSticksForSymbol stepSize
        (SymbolLoop.matching params symbol rows) (params.timeframeMinutes * 60000) symbol
        params.rangeDateStart := by
  rw [funext SymbolLoop.aggregateCandleSticksForSymbol_finish]
  refine Eq.trans ?_ List.mapM_pure.symm
  change some (((params.symbols.map _).map _).map _) = _
  rw [List.map_map, List.map_map]
  rfl

/-- And what `aggregateDataForSymbol` returns. -/
theorem aggregateCandleSticks_pairs {hash : AggregateParams → String} {params : AggregateParams}
    {rows : List CandleStickRow} : (aggregateCandleSticks hash).runInTransaction params rows =
      some (dumpCandleStickAggregate (params.symbols.map fun symbol =>
        AggregateCandleSticks.aggregateDataForSymbol (params.queryParams symbol) fun _ =>
          StepLoop.ordering params symbol rows) params.rangeDateStart params.rangeDateEnd) := by
  have each : (fun symbol => (StepLoop.finish params rows (StepLoop.initial params symbol)).result) = _ :=
    funext StepLoop.result_finish
  rw [← each]
  change some (dumpCandleStickAggregate (((params.symbols.map _).map _).map _) _ _) = _
  rw [List.map_map, List.map_map]
  rfl

end Queries

end PriceFeed.UseCases
