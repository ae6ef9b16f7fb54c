import PriceFeed.Workers.CandlesDiscreteAggregator

/-! What an execution of an aggregation task leaves in the database when one of its calls
fails: the task ends in error, and what was stored before stays. -/

namespace PriceFeed.Workers

open PriceFeed.Library PriceFeed.MarketRecords PriceFeed.UseCases

namespace Database

variable {database : Database} {taskId : ℕ} {change : AggregationTask → AggregationTask}

@[simp] theorem results_updateTask : (database.updateTask taskId change).results = database.results := rfl

@[simp] theorem associations_updateTask :
    (database.updateTask taskId change).associations = database.associations := rfl

@[simp] theorem tasks_updateTask :
    (database.updateTask taskId change).tasks taskId = (database.tasks taskId).map change := by
  simp [updateTask]

theorem status_updateTask (change : AggregationTask → AggregationTask) {task : AggregationTask}
    (found : database.tasks taskId = some task) :
    (database.updateTask taskId change).status taskId = some (change task).status := by
  simp [status, found]

end Database

/-- The result rows that an execution has added. -/
def createdResults (before after : Database) : List (ℕ × DiscreteAggregationResult) :=
  before.results.addedTo after.results

def createdAssociations (before after : Database) : List DiscreteAggregationExchange :=
  (before.associations.addedTo after.associations).map Prod.snd

/-- A task in error has added no rows, and a completed one a single row for each symbol,
beside every exchange that it names. -/
structure AllOrNothing (message : Message) (before after : Database) : Prop where
  error : after.status message.taskId = some .ERROR →
    createdResults before after = [] ∧ createdAssociations before after = []
  completed : after.status message.taskId = some .COMPLETED →
    (∀ symbol ∈ message.params.symbols,
      (createdResults before after).countP (fun result => result.2.symbol = symbol) = 1) ∧
    ∀ result ∈ createdResults before after, ∀ exchange ∈ after.exchanges,
      exchange.name ∈ message.params.exchangeNames →
        ⟨result.1, exchange.id⟩ ∈ createdAssociations before after

namespace CandlesDiscreteAggregator

/-- The calls under `try`. -/
def tried : List Step :=
  [.executeUseCase, .createResults, .findExchanges, .createAssociations, .updateCompleted]

def firstFault (faults : Step → Option Fault) : Option (Step × Fault) :=
  tried.findSome? fun step => (faults step).map fun fault => (step, fault)

/-- No symbols are requested, or nothing fails and they are distinct, or the first call
to fail comes before the results are stored. -/
def SparesOutcome (faults : Step → Option Fault) (symbols : List String) : Prop :=
  symbols = [] ∨
    match firstFault faults with
    | none => symbols.Nodup
    | some (.executeUseCase, _) => True
    | some (.createResults, fault) => fault = .throws false
    | some _ => False

section Stages

variable (asyncStepSize : ℕ+) (message : Message) (database : Database)

def formattedResults : List DiscreteAggregationResult :=
  (systemCall asyncStepSize message.params database.candleSticks).map
    (formatResult message.taskId message.params)

def withResults : Database := database.createResults (formattedResults asyncStepSize message database)

def associationRows : List DiscreteAggregationExchange :=
  joinTableData (database.results.numbered (formattedResults asyncStepSize message database))
    (database.findExchanges message.params.exchangeNames)

def withAssociations : Database :=
  (withResults asyncStepSize message database).createAssociations
    (associationRows asyncStepSize message database)

def completed : Database :=
  (withAssociations asyncStepSize message database).updateTask message.taskId
    fun task => { task with status := .COMPLETED }

/-- What is stored when a call throws. -/
def reached : Step → Bool → Database
  | .createResults, true | .findExchanges, _ | .createAssociations, false =>
    withResults asyncStepSize message database
  | .createAssociations, true | .updateCompleted, false => withAssociations asyncStepSize message database
  | .updateCompleted, true => completed asyncStepSize message database
  | _, _ => database

end Stages

variable {asyncStepSize : ℕ+} {faults : Step → Option Fault} {message : Message}
  {database final before after : Database} {taskId : ℕ}

section Calls

variable {Value : Type} {value : Value} {step : Step} {effect : Database → Value × Database}
  {exception : Exception}

theorem call_returned (returned : call faults step effect database = (.returned value, final)) :
    faults step = none ∧ value = (effect database).1 ∧ final = (effect database).2 := by
  obtain ⟨fine, ran⟩ := Fallible.perform_returned_iff.mp returned
  rw [ran]
  exact ⟨fine, rfl, rfl⟩

theorem call_threw (threw : call faults step effect database = (.threw exception, final)) :
    ∃ stored, faults step = some (.throws stored) ∧
      final = if stored then (effect database).2 else database :=
  (Fallible.perform_threw_iff.mp threw).2

theorem update_returned {change : AggregationTask → AggregationTask}
    (returned : update faults step taskId change database = (.returned (), final)) :
    final = database.updateTask taskId change :=
  (call_returned returned).2.2

end Calls

theorem initiateTaskStatus_returned
    (returned : initiateTaskStatus faults taskId before = (.returned (), final)) :
    (∃ task, before.tasks taskId = some task) ∧
      final = before.updateTask taskId fun task => { task with status := .PROCESSING } := by
  obtain ⟨task, middle, lookup, update⟩ := Fallible.bind_returned_iff.mp returned
  obtain ⟨found, start, call, rest⟩ := Fallible.bind_returned_iff.mp lookup
  obtain ⟨-, rfl, rfl⟩ := call_returned call
  obtain rfl := update_returned update
  cases present : start.tasks taskId with
  | none =>
    simp only [present] at rest
    cases rest
  | some row =>
    simp only [present] at rest
    obtain ⟨-, rfl⟩ := Fallible.pure_returned_iff.mp rest
    exact ⟨⟨row, rfl⟩, rfl⟩

section Associations

variable {results : List (ℕ × DiscreteAggregationResult)} {exchangeNames : List String}
  {exception : Exception}

theorem setResultsAssociations_returned
    (returned : setResultsAssociations faults results exchangeNames database = (.returned (), final)) :
    faults .findExchanges = none ∧ faults .createAssociations = none ∧
      final = database.createAssociations
        (joinTableData results (database.findExchanges exchangeNames)) := by
  obtain ⟨exchanges, middle, lookup, join⟩ := Fallible.bind_returned_iff.mp returned
  obtain ⟨looked, rfl, rfl⟩ := call_returned lookup
  obtain ⟨joined, -, rfl⟩ := call_returned join
  exact ⟨looked, joined, rfl⟩

private theorem setResultsAssociations_threw
    (threw : setResultsAssociations faults results exchangeNames database = (.threw exception, final)) :
    (∃ stored, faults .findExchanges = some (.throws stored) ∧ final = database) ∨
      faults .findExchanges = none ∧ ∃ stored, faults .createAssociations = some (.throws stored) ∧
        final = if stored then database.createAssociations
          (joinTableData results (database.findExchanges exchangeNames)) else database := by
  rcases Fallible.bind_threw_iff.mp threw with lookup | ⟨exchanges, middle, lookup, join⟩
  · obtain ⟨stored, failed, rfl⟩ := call_threw lookup
    exact .inl ⟨stored, failed, ite_self _⟩
  · obtain ⟨looked, rfl, rfl⟩ := call_returned lookup
    exact .inr ⟨looked, call_threw join⟩

end Associations

/-- Nothing fails where the tried calls come to their end. -/
private theorem aggregate_returned
    (returned : aggregate asyncStepSize faults message database = (.returned (), final)) :
    firstFault faults = none ∧ final = completed asyncStepSize message database := by
  obtain ⟨results, read, useCase, rest⟩ := Fallible.bind_returned_iff.mp returned
  obtain ⟨_, saved, save, update⟩ := Fallible.bind_returned_iff.mp rest
  obtain ⟨created, inserted, insert, associate⟩ := Fallible.bind_returned_iff.mp save
  obtain ⟨first, rfl, rfl⟩ := call_returned useCase
  obtain ⟨second, rfl, rfl⟩ := call_returned insert
  obtain ⟨third, fourth, rfl⟩ := setResultsAssociations_returned associate
  obtain ⟨fifth, -, rfl⟩ := call_returned update
  exact ⟨by simp [firstFault, tried, first, second, third, fourth, fifth], rfl⟩

/-- The first call that fails says what has been stored. -/
private theorem aggregate_threw {exception : Exception}
    (threw : aggregate asyncStepSize faults message database = (.threw exception, final)) :
    ∃ step stored, firstFault faults = some (step, .throws stored) ∧
      final = reached asyncStepSize message database step stored := by
  rcases Fallible.bind_threw_iff.mp threw with useCase | ⟨results, read, useCase, rest⟩
  · obtain ⟨stored, failed, rfl⟩ := call_threw useCase
    exact ⟨.executeUseCase, stored, by simp [firstFault, tried, failed], by simp [reached]⟩
  obtain ⟨first, rfl, rfl⟩ := call_returned useCase
  rcases Fallible.bind_threw_iff.mp rest with save | ⟨_, saved, save, update⟩
  · rcases Fallible.bind_threw_iff.mp save with insert | ⟨created, inserted, insert, associate⟩
    · obtain ⟨stored, failed, rfl⟩ := call_threw insert
      refine ⟨.createResults, stored, by simp [firstFault, tried, first, failed], ?_⟩
      cases stored with
      | false => rfl
      | true => rfl
    obtain ⟨second, rfl, rfl⟩ := call_returned insert
    rcases setResultsAssociations_threw associate with ⟨stored, failed, rfl⟩ | ⟨third, stored, failed, rfl⟩
    · exact ⟨.findExchanges, stored, by simp [firstFault, tried, first, second, failed], rfl⟩
    · refine ⟨.createAssociations, stored, by simp [firstFault, tried, first, second, third, failed], ?_⟩
      cases stored with
      | false => rfl
      | true => rfl
  · obtain ⟨created, inserted, insert, associate⟩ := Fallible.bind_returned_iff.mp save
    obtain ⟨second, rfl, rfl⟩ := call_returned insert
    obtain ⟨third, fourth, rfl⟩ := setResultsAssociations_returned associate
    obtain ⟨stored, failed, rfl⟩ := call_threw update
    refine ⟨.updateCompleted, stored, by simp [firstFault, tried, first, second, third, fourth, failed], ?_⟩
    cases stored with
    | false => rfl
    | true => rfl

/-- Where the execution returns, the task is completed and everything is stored, or it is
in error and what was stored before the first call that failed stays. -/
theorem execute_returned
    (returned : execute asyncStepSize faults message before = (.returned (), after)) :
    ∃ started task, started.results = before.results ∧ started.associations = before.associations ∧
      started.tasks message.taskId = some task ∧
      (firstFault faults = none ∧ after = completed asyncStepSize message started ∨
        ∃ step stored error, firstFault faults = some (step, .throws stored) ∧
          after = (reached asyncStepSize message started step stored).updateTask message.taskId
            fun task => { task with status := .ERROR, error := some error }) := by
  obtain ⟨_, started, initiate, rest⟩ := Fallible.bind_returned_iff.mp returned
  obtain ⟨⟨task, found⟩, processing⟩ := initiateTaskStatus_returned initiate
  refine ⟨started, { task with status := .PROCESSING }, by simp [processing], by simp [processing],
    by simp [processing, found], ?_⟩
  rcases Fallible.attempt_returned_iff.mp rest with tried | ⟨error, middle, tried, handle⟩
  · exact .inl (aggregate_returned tried)
  · obtain ⟨step, stored, failed, rfl⟩ := aggregate_threw tried
    exact .inr ⟨step, stored, error, failed, update_returned handle⟩

section Rows

variable (asyncStepSize message database)

theorem symbols_formattedResults :
    (formattedResults asyncStepSize message database).map DiscreteAggregationResult.symbol =
      message.params.symbols := by
  rw [formattedResults, List.map_map]
  exact systemCall_symbols asyncStepSize message.params database.candleSticks

theorem formattedResults_eq_nil_iff :
    formattedResults asyncStepSize message database = [] ↔ message.params.symbols = [] := by
  rw [← symbols_formattedResults asyncStepSize message database, List.map_eq_nil_iff]

private theorem associationRows_eq_nil (none : message.params.symbols = []) :
    associationRows asyncStepSize message database = [] := by
  have empty := (formattedResults_eq_nil_iff asyncStepSize message database).mpr none
  simp [associationRows, joinTableData, empty, SerialTable.numbered]

theorem createdResults_withResults :
    createdResults database (withResults asyncStepSize message database) =
      database.results.numbered (formattedResults asyncStepSize message database) :=
  SerialTable.addedTo_bulkCreate _ _

theorem createdAssociations_withAssociations :
    createdAssociations database (withAssociations asyncStepSize message database) =
      associationRows asyncStepSize message database := by
  rw [createdAssociations]
  exact (congrArg _ (SerialTable.addedTo_bulkCreate _ _)).trans (SerialTable.map_snd_numbered _ _)

theorem countP_numbered (symbol : String) :
    (database.results.numbered (formattedResults asyncStepSize message database)).countP
      (fun result => result.2.symbol = symbol) = message.params.symbols.count symbol := by
  have rows := congrArg (List.countP fun row => row.symbol = symbol)
    (database.results.map_snd_numbered (formattedResults asyncStepSize message database))
  rw [List.countP_map] at rows
  rw [← symbols_formattedResults asyncStepSize message database, List.count, List.countP_map]
  exact rows

/-- Each result is associated with each exchange that has one of the names. -/
private theorem mem_associationRows {result : ℕ × DiscreteAggregationResult}
    (created : result ∈ database.results.numbered (formattedResults asyncStepSize message database))
    {exchange : Exchange} (listed : exchange ∈ database.exchanges)
    (named : exchange.name ∈ message.params.exchangeNames) :
    ⟨result.1, exchange.id⟩ ∈ associationRows asyncStepSize message database := by
  refine List.mem_flatMap.mpr ⟨exchange, ?_, List.mem_map.mpr ⟨result, created, rfl⟩⟩
  exact List.mem_filter.mpr ⟨listed, by simpa using named⟩

end Rows

/-- A completed execution has added what it promises when the symbols are distinct. -/
private theorem completed_allOrNothing_iff {task : AggregationTask}
    (found : database.tasks message.taskId = some task) :
    AllOrNothing message database (completed asyncStepSize message database) ↔
      message.params.symbols.Nodup := by
  have status : (completed asyncStepSize message database).status message.taskId = some .COMPLETED :=
    Database.status_updateTask _ found
  have results : createdResults database (completed asyncStepSize message database) = _ :=
    createdResults_withResults asyncStepSize message database
  have associations : createdAssociations database (completed asyncStepSize message database) = _ :=
    createdAssociations_withAssociations asyncStepSize message database
  rw [List.nodup_iff_count_eq_one]
  constructor
  · intro outcome symbol requested
    rw [← countP_numbered asyncStepSize message database, ← results]
    exact (outcome.completed status).1 symbol requested
  · intro distinct
    refine ⟨fun error => ?_, fun _ => ⟨?_, ?_⟩⟩
    · rw [status] at error
      cases error
    · intro symbol requested
      rw [results, countP_numbered]
      exact distinct symbol requested
    · intro result created exchange listed named
      rw [results] at created
      rw [associations]
      exact mem_associationRows asyncStepSize message database created listed named

/-- An execution in error has to have added nothing. -/
private theorem error_allOrNothing_iff {task : AggregationTask} {error : Option Exception}
    (found : final.tasks message.taskId = some task) :
    AllOrNothing message database (final.updateTask message.taskId
        fun task => { task with status := .ERROR, error := error }) ↔
      createdResults database final = [] ∧ createdAssociations database final = [] := by
  have status := Database.status_updateTask
    (fun task => { task with status := .ERROR, error := error }) found
  constructor
  · intro outcome
    exact outcome.error status
  · intro nothing
    refine ⟨fun _ => nothing, fun completed => ?_⟩
    rw [status] at completed
    cases completed

theorem firstFault_mem {step : Step} {fault : Fault} (first : firstFault faults = some (step, fault)) :
    step ∈ tried := by
  obtain ⟨failed, member, found⟩ := List.exists_of_findSome?_eq_some first
  obtain ⟨_, _, same⟩ := Option.map_eq_some_iff.mp found
  obtain ⟨rfl, -⟩ := Prod.ext_iff.mp same
  exact member

theorem tasks_reached (asyncStepSize : ℕ+) {task : AggregationTask}
    (found : database.tasks message.taskId = some task) (step : Step) (stored : Bool) :
    ∃ task, (reached asyncStepSize message database step stored).tasks message.taskId = some task := by
  have kept : (withAssociations asyncStepSize message database).tasks message.taskId = some task := found
  unfold reached
  split
  · exact ⟨task, found⟩
  · exact ⟨task, found⟩
  · exact ⟨task, found⟩
  · exact ⟨task, found⟩
  · exact ⟨task, found⟩
  · exact ⟨{ task with status := .COMPLETED }, by rw [completed, Database.tasks_updateTask, kept]; rfl⟩
  · exact ⟨task, found⟩

/-- The rows of an execution are missing when there are none to add, or the first call to
fail came before they were stored. -/
private theorem reached_nothing_iff {step : Step} {stored : Bool} (member : step ∈ tried) :
    createdResults database (reached asyncStepSize message database step stored) = [] ∧
        createdAssociations database (reached asyncStepSize message database step stored) = [] ↔
      message.params.symbols = [] ∨ step = .executeUseCase ∨ step = .createResults ∧ stored = false := by
  have untouched : createdResults database database = [] ∧ createdAssociations database database = [] := by
    simp [createdResults, createdAssociations]
  have inserted : ∀ later : Database, later.results = (withResults asyncStepSize message database).results →
      (createdResults database later = [] ↔ message.params.symbols = []) := by
    intro later same
    have created : createdResults database later = _ :=
      (congrArg database.results.addedTo same).trans
        (createdResults_withResults asyncStepSize message database)
    rw [created, ← List.length_eq_zero_iff, SerialTable.length_numbered, List.length_eq_zero_iff,
      formattedResults_eq_nil_iff]
  have unassociated : createdAssociations database (withResults asyncStepSize message database) = [] := by
    simp [createdAssociations, withResults, Database.createResults]
  have associated : ∀ later : Database,
      later.associations = (withAssociations asyncStepSize message database).associations →
        message.params.symbols = [] → createdAssociations database later = [] := by
    intro later same empty
    have created : createdAssociations database later = _ :=
      (congrArg (fun table => (database.associations.addedTo table).map Prod.snd) same).trans
        (createdAssociations_withAssociations asyncStepSize message database)
    rw [created, associationRows_eq_nil _ _ _ empty]
  simp only [tried, List.mem_cons, List.not_mem_nil, or_false] at member
  rcases member with rfl | rfl | rfl | rfl | rfl
  · simpa [reached] using untouched
  · cases stored with
    | false => simpa [reached] using untouched
    | true => simp [reached, inserted _ rfl, unassociated]
  · simp [reached, inserted _ rfl, unassociated]
  · cases stored with
    | false => simp [reached, inserted _ rfl, unassociated]
    | true =>
      simpa [reached, inserted (withAssociations asyncStepSize message database) rfl]
        using associated _ rfl
  · cases stored with
    | false =>
      simpa [reached, inserted (withAssociations asyncStepSize message database) rfl]
        using associated _ rfl
    | true =>
      simpa [reached, inserted (completed asyncStepSize message database) rfl]
        using associated (completed asyncStepSize message database) rfl

/-- The stored state of an execution that returns is all or nothing exactly when no symbol
is requested, or nothing fails and the symbols are distinct, or the first call to fail is
the use case or an insert of results that stores none. -/
theorem outcome_allOrNothing_iff
    (returned : execute asyncStepSize faults message before = (.returned (), after)) :
    AllOrNothing message before after ↔ SparesOutcome faults message.params.symbols := by
  obtain ⟨started, task, results, associations, found, ended⟩ := execute_returned returned
  have shift : AllOrNothing message before after ↔ AllOrNothing message started after := by
    have sameResults : createdResults started after = createdResults before after := by
      rw [createdResults, createdResults, results]
    have sameAssociations : createdAssociations started after = createdAssociations before after := by
      rw [createdAssociations, createdAssociations, associations]
    constructor
    · intro outcome
      exact ⟨by rw [sameResults, sameAssociations]; exact outcome.error,
        by rw [sameResults, sameAssociations]; exact outcome.completed⟩
    · intro outcome
      exact ⟨by rw [← sameResults, ← sameAssociations]; exact outcome.error,
        by rw [← sameResults, ← sameAssociations]; exact outcome.completed⟩
  rw [shift, SparesOutcome]
  rcases ended with ⟨none, rfl⟩ | ⟨step, stored, error, failed, rfl⟩
  · rw [completed_allOrNothing_iff found, none]
    constructor
    · exact .inr
    · intro condition
      rcases condition with empty | distinct
      · simp [empty]
      · exact distinct
  · obtain ⟨row, kept⟩ := tasks_reached asyncStepSize found step stored
    rw [error_allOrNothing_iff kept, reached_nothing_iff (firstFault_mem failed), failed]
    have member := firstFault_mem failed
    simp only [tried, List.mem_cons, List.not_mem_nil, or_false] at member
    rcases member with rfl | rfl | rfl | rfl | rfl
    · simp
    · simp
    · simp
    · simp
    · simp

section OneSymbol

def oneSymbol : Message where
  taskId := 1
  params :=
    { symbols := ["BTC/EUR"], exchangeNames := ["kraken"], rangeDateStart := 0, rangeDateEnd := 60000 }

def oneTask : Database where
  tasks := Function.update (fun _ => none) 1 (some {})
  results := .empty
  associations := .empty
  exchanges := [⟨1, "kraken"⟩]
  candleSticks := []

def lookupFails (step : Step) : Option Fault :=
  if step = .findExchanges then some (.throws false) else none

theorem outcome_allOrNothing_noFault :
    AllOrNothing oneSymbol oneTask (execute 1 (fun _ => none) oneSymbol oneTask).2 := by
  have returned : execute 1 (fun _ => none) oneSymbol oneTask =
      (.returned (), (execute 1 (fun _ => none) oneSymbol oneTask).2) := rfl
  have distinct : oneSymbol.params.symbols.Nodup := by decide
  exact (outcome_allOrNothing_iff returned).mpr (.inr distinct)

/-- The lookup of the exchanges fails: the task is in error, and its result stays. -/
theorem result_outlives_error : ∃ after,
    execute 1 lookupFails oneSymbol oneTask = (.returned (), after) ∧
      after.status 1 = some .ERROR ∧
      (createdResults oneTask after).map (fun result => result.2.symbol) = ["BTC/EUR"] ∧
      ¬ AllOrNothing oneSymbol oneTask after := by
  refine ⟨_, rfl, rfl, rfl, ?_⟩
  intro outcome
  have nothing := (outcome.error rfl).1
  cases nothing

end OneSymbol

end CandlesDiscreteAggregator

end PriceFeed.Workers
