import PriceFeed.Workers.MarketRecordWriter
import PriceFeed.Workers.TaskOutcomes

/-! Aggregation tasks from their requests to their results: `CreateDiscreteAggregationTask`
stores a task and sends it to the queue, and any number of executions of
`CandlesDiscreteAggregator` make their calls in turns. -/

namespace PriceFeed.Workers

open PriceFeed.Library PriceFeed.MarketRecords PriceFeed.UseCases

/-- `update` writes the columns in which the instance changes. -/
def AggregationTask.save (task changed row : AggregationTask) : AggregationTask where
  status := if changed.status = task.status then row.status else changed.status
  error := if changed.error = task.error then row.error else changed.error

namespace AggregationTask

variable (task changed row : AggregationTask)

theorem status_save_cases : changed.status = task.status ∧ (task.save changed row).status = row.status ∨
    changed.status ≠ task.status ∧ (task.save changed row).status = changed.status := by
  by_cases same : changed.status = task.status
  · exact .inl ⟨same, if_pos same⟩
  · exact .inr ⟨same, if_neg same⟩

theorem error_save_cases : changed.error = task.error ∧ (task.save changed row).error = row.error ∨
    changed.error ≠ task.error ∧ (task.save changed row).error = changed.error := by
  by_cases same : changed.error = task.error
  · exact .inl ⟨same, if_pos same⟩
  · exact .inr ⟨same, if_neg same⟩

private theorem save_self : task.save task row = row := by
  rw [save, if_pos rfl, if_pos rfl]

end AggregationTask

/-- The call that an execution makes next, with what the earlier ones have given. -/
inductive Progress where
  | findTask
  | updateProcessing (task : AggregationTask)
  | executeUseCase (task : AggregationTask) (loops : List SymbolLoop)
  | createResults (task : AggregationTask) (results : List DiscreteAggregation.AggregationResult)
  | findExchanges (task : AggregationTask) (createdResults : List (ℕ × DiscreteAggregationResult))
  | createAssociations (task : AggregationTask) (createdResults : List (ℕ × DiscreteAggregationResult))
      (exchanges : List Exchange)
  | updateCompleted (task : AggregationTask)
  | updateError (task : AggregationTask) (error : Exception)
  deriving DecidableEq, Repr

inductive Outcome where
  | continues (progress : Progress)
  | returned
  | threw
  deriving DecidableEq, Repr

namespace Database

/-- A new row is pending and has no error. -/
def createTask (database : Database) (taskId : ℕ) : Database :=
  { database with tasks := Function.update database.tasks taskId (some {}) }

variable {database : Database}

theorem tasks_createTask {taskId : ℕ} :
    (database.createTask taskId).tasks = Function.update database.tasks taskId (some {}) := rfl

private theorem updateTask_save_self {taskId : ℕ} {task : AggregationTask} :
    database.updateTask taskId (task.save task) = database := by
  have kept : task.save task = id := funext task.save_self
  rw [updateTask, kept, Option.map_id, id, Function.update_eq_self]

theorem createResults_nil : database.createResults [] = database := by
  rw [createResults, SerialTable.bulkCreate_nil]

theorem createAssociations_nil : database.createAssociations [] = database := by
  rw [createAssociations, SerialTable.bulkCreate_nil]

end Database

namespace Progress

/-- A call that makes no query cannot fail. One that throws may have been stored. -/
def query (makes : Prop) [Decidable makes] (fault : Option Bool) (next failed : Outcome)
    (database written : Database) : Outcome × Database :=
  match fault with
  | some stored =>
    if makes then (failed, if stored then written else database) else (next, database)
  | none => (next, if makes then written else database)

section Queries

variable {makes : Prop} [Decidable makes] {fault : Option Bool} {next failed outcome : Outcome}
  {database written after : Database} (asked : query makes fault next failed database written = (outcome, after))

include asked

theorem query_outcome : outcome = next ∧ (after = written ∨ ¬ makes ∧ after = database) ∨
    outcome = failed ∧ (after = database ∨ after = written) := by
  unfold query at asked
  split at asked
  next stored =>
    by_cases asks : makes
    · rw [if_pos asks] at asked
      obtain ⟨rfl, rfl⟩ := Prod.mk.inj asked
      refine .inr ⟨rfl, ?_⟩
      cases stored with
      | true => exact .inr rfl
      | false => exact .inl rfl
    · rw [if_neg asks] at asked
      obtain ⟨rfl, rfl⟩ := Prod.mk.inj asked
      exact .inl ⟨rfl, .inr ⟨asks, rfl⟩⟩
  next =>
    obtain ⟨rfl, rfl⟩ := Prod.mk.inj asked
    refine .inl ⟨rfl, ?_⟩
    by_cases asks : makes
    · exact .inl (if_pos asks)
    · exact .inr ⟨asks, if_neg asks⟩

theorem query_cases (idle : ¬ makes → written = database) :
    outcome = next ∧ after = written ∨ outcome = failed ∧ (after = database ∨ after = written) := by
  rcases query_outcome asked with ⟨goes, rfl | ⟨asks, rfl⟩⟩ | failed
  · exact .inl ⟨goes, rfl⟩
  · exact .inl ⟨goes, (idle asks).symm⟩
  · exact .inr failed

end Queries

def update (taskId : ℕ) (task changed : AggregationTask) (fault : Option Bool) (next failed : Outcome)
    (database : Database) : Outcome × Database :=
  query (changed ≠ task) fault next failed database (database.updateTask taskId (task.save changed))

theorem update_cases {taskId : ℕ} {task changed : AggregationTask} {fault : Option Bool}
    {next failed outcome : Outcome} {database after : Database}
    (asked : update taskId task changed fault next failed database = (outcome, after)) :
    outcome = next ∧ after = database.updateTask taskId (task.save changed) ∨
      outcome = failed ∧ (after = database ∨ after = database.updateTask taskId (task.save changed)) := by
  apply query_cases asked
  intro idle
  obtain rfl := not_not.mp idle
  exact Database.updateTask_save_self

variable (message : Message) (fault : Option Bool) (database : Database)

/-- The next call of an execution. That of the use case is its `COMMIT`, once all its
loops have come to their end. -/
def perform : Progress → Option (Outcome × Database)
  | .findTask =>
    match fault, database.tasks message.taskId with
    | none, some task => some (.continues (.updateProcessing task), database)
    | _, _ => some (.threw, database)
  | .updateProcessing task =>
    let changed := { task with status := .PROCESSING }
    some (update message.taskId task changed fault
      (.continues (.executeUseCase changed (message.params.symbols.map (SymbolLoop.initial message.params))))
      .threw database)
  | .executeUseCase task loops =>
    if ∀ loop ∈ loops, loop.aggregation.isLastBatch then
      some (query True fault (.continues (.createResults task (loops.map SymbolLoop.result)))
        (.continues (.updateError task (.failed .executeUseCase))) database database)
    else none
  | .createResults task results =>
    let formattedResults := results.map (CandlesDiscreteAggregator.formatResult message.taskId message.params)
    some (query (formattedResults ≠ []) fault
      (.continues (.findExchanges task (database.results.numbered formattedResults)))
      (.continues (.updateError task (.failed .createResults)))
      database (database.createResults formattedResults))
  | .findExchanges task createdResults =>
    some (query True fault
      (.continues (.createAssociations task createdResults (database.findExchanges message.params.exchangeNames)))
      (.continues (.updateError task (.failed .findExchanges))) database database)
  | .createAssociations task createdResults exchanges =>
    let joinTableData := CandlesDiscreteAggregator.joinTableData createdResults exchanges
    some (query (joinTableData ≠ []) fault (.continues (.updateCompleted task))
      (.continues (.updateError task (.failed .createAssociations)))
      database (database.createAssociations joinTableData))
  | .updateCompleted task =>
    let changed := { task with status := .COMPLETED }
    some (update message.taskId task changed fault .returned
      (.continues (.updateError changed (.failed .updateCompleted))) database)
  | .updateError task error =>
    some (update message.taskId task { task with status := .ERROR, error := some error } fault
      .returned .threw database)

def elsewhere (database : Database) : List CandleStickRow × List Exchange :=
  (database.candleSticks, database.exchanges)

theorem elsewhere_query {makes : Prop} [Decidable makes] {fault : Option Bool} {next failed outcome : Outcome}
    {database written after : Database} (asked : query makes fault next failed database written = (outcome, after))
    (kept : elsewhere written = elsewhere database) : elsewhere after = elsewhere database := by
  rcases query_outcome asked with ⟨-, rfl | ⟨-, rfl⟩⟩ | ⟨-, rfl | rfl⟩
  · exact kept
  · rfl
  · rfl
  · exact kept

variable {message fault database} in
theorem elsewhere_perform {progress : Progress} {outcome : Outcome} {after : Database}
    (performed : progress.perform message fault database = some (outcome, after)) :
    elsewhere after = elsewhere database := by
  cases progress with
  | findTask =>
    simp only [perform] at performed
    split at performed
    · obtain ⟨-, rfl⟩ := Prod.mk.inj (Option.some.inj performed)
      rfl
    · obtain ⟨-, rfl⟩ := Prod.mk.inj (Option.some.inj performed)
      rfl
  | executeUseCase task loops => exact elsewhere_query (enabled performed).2 rfl
  | updateProcessing task => exact elsewhere_query (Option.some.inj performed) rfl
  | createResults task results => exact elsewhere_query (Option.some.inj performed) rfl
  | findExchanges task created => exact elsewhere_query (Option.some.inj performed) rfl
  | createAssociations task created exchanges => exact elsewhere_query (Option.some.inj performed) rfl
  | updateCompleted task => exact elsewhere_query (Option.some.inj performed) rfl
  | updateError task error => exact elsewhere_query (Option.some.inj performed) rfl

/-- A batch of one of the use case's loops. -/
def fetchBatch (asyncStepSize : ℕ+) (index : ℕ) : Progress → Option Progress
  | .executeUseCase task loops => (loops[index]?).bind fun loop =>
    if loop.aggregation.isLastBatch then none
    else
      match fault with
      | none => some (.executeUseCase task
          (loops.set index (loop.fetch asyncStepSize message.params database.candleSticks)))
      | some _ => some (.updateError task (.failed .executeUseCase))
  | _ => none

end Progress

inductive RequestStage where
  | sending
  | rejected
  | answered
  deriving DecidableEq, Repr

/-- A request to create a task, whose parameters are the `context` of its row. -/
structure TaskRequest where
  params : DiscreteAggregationParams
  stage : RequestStage := .sending
  arrived : Bool := false
  deriving DecidableEq, Repr

/-- Requests are kept by the ids of their tasks, executions by the tags of their
deliveries. -/
structure TaskState where
  database : Database
  requests : ℕ → Option TaskRequest := fun _ => none
  worker : BaseAMQPWorker.State := {}
  progress : ℕ → Progress := fun _ => .findTask

inductive TaskEvent where
  | creates (taskId : ℕ) (params : DiscreteAggregationParams)
  | createThrows (taskId : ℕ) (stored : Bool)
  | sends (taskId id : ℕ)
  | sendThrows (taskId : ℕ)
  | answers (taskId : ℕ)
  | queue (event : BaseAMQPWorker.Event)
  | fetchesBatch (tag index : ℕ) (fault : Option Bool)
  | calls (tag : ℕ) (fault : Option Bool)
  | writesCandleSticks (candleSticks : List CandleStickRow)
  | writesExchanges (exchanges : List Exchange)
  deriving DecidableEq, Repr

namespace TaskState

variable (state : TaskState)

def setProgress (tag : ℕ) (progress : Progress) : TaskState :=
  { state with progress := Function.update state.progress tag progress }

def setRequest (taskId : ℕ) (request : TaskRequest) : TaskState :=
  { state with requests := Function.update state.requests taskId (some request) }

def createTask (taskId : ℕ) : TaskState :=
  { state with database := state.database.createTask taskId }

end TaskState

/-- The queue of the tasks. Its messages are known by their ids. -/
structure AggregationTasks where
  retryLimit : ℕ
  asyncStepSize : ℕ+
  messages : ℕ → Message

namespace AggregationTasks

variable (tasks : AggregationTasks) (state : TaskState)

/-- Messages come by the requests, and executions end by their last calls. -/
def IsStep : BaseAMQPWorker.Event → Bool
  | .accepts _ | .succeeds _ | .fails _ => true
  | _ => false

def queueEvent : TaskEvent → Option BaseAMQPWorker.Event
  | .sends _ id => some (.accepts id)
  | .queue event => some event
  | .calls tag fault => (state.worker.executing tag).bind fun id =>
    match (state.progress tag).perform (tasks.messages id) fault state.database with
    | some (.returned, _) => some (.succeeds tag)
    | some (.threw, _) => some (.fails tag)
    | _ => none
  | _ => none

/-- What an event does to the database, the requests and the executions. -/
def effect : TaskEvent → Option TaskState
  | .creates taskId params =>
    if state.database.tasks taskId = none then
      some ((state.createTask taskId).setRequest taskId { params := params })
    else none
  | .createThrows taskId stored =>
    if state.database.tasks taskId = none then some (if stored then state.createTask taskId else state)
    else none
  -- a message whose confirmation is lost is sent again, and one may arrive after the call has thrown
  | .sends taskId id => (state.requests taskId).bind fun request =>
    if request.stage ≠ .answered ∧ tasks.messages id = ⟨taskId, request.params⟩ then
      some (state.setRequest taskId { request with arrived := true })
    else none
  | .sendThrows taskId => (state.requests taskId).bind fun request =>
    if request.stage = .sending then some (state.setRequest taskId { request with stage := .rejected })
    else none
  | .answers taskId => (state.requests taskId).bind fun request =>
    if request.stage = .sending ∧ request.arrived then
      some (state.setRequest taskId { request with stage := .answered })
    else none
  | .queue event => if !IsStep event then some state else none
  | .fetchesBatch tag index fault => (state.worker.executing tag).bind fun id =>
    ((state.progress tag).fetchBatch (tasks.messages id) fault state.database tasks.asyncStepSize index).map
      (state.setProgress tag)
  | .calls tag fault => (state.worker.executing tag).bind fun id =>
    ((state.progress tag).perform (tasks.messages id) fault state.database).map fun performed =>
      let written := { state with database := performed.2 }
      match performed.1 with
      | .continues progress => written.setProgress tag progress
      | .returned | .threw => written
  | .writesCandleSticks candleSticks => some { state with database.candleSticks := candleSticks }
  | .writesExchanges exchanges => some { state with database.exchanges := exchanges }

def step (event : TaskEvent) : Option TaskState :=
  (tasks.effect state event).bind fun changed =>
    match tasks.queueEvent state event with
    | none => some changed
    | some queueEvent =>
      (state.worker.step tasks.retryLimit queueEvent).map fun worker => { changed with worker }

def Orderly (event : TaskEvent) : Prop :=
  ∀ queueEvent ∈ tasks.queueEvent state event, state.worker.Orderly queueEvent

instance (event : TaskEvent) : Decidable (tasks.Orderly state event) :=
  inferInstanceAs (Decidable (∀ queueEvent ∈ tasks.queueEvent state event, state.worker.Orderly queueEvent))

inductive Transition : TaskEvent → TaskState → Prop where
  | created {taskId : ℕ} {params : DiscreteAggregationParams} (fresh : state.database.tasks taskId = none) :
      Transition (.creates taskId params) ((state.createTask taskId).setRequest taskId { params := params })
  | createdInVain {taskId : ℕ} (fresh : state.database.tasks taskId = none) :
      Transition (.createThrows taskId true) (state.createTask taskId)
  | notCreated {taskId : ℕ} : Transition (.createThrows taskId false) state
  | sent {taskId id : ℕ} {request : TaskRequest} {worker : BaseAMQPWorker.State}
      (asked : state.requests taskId = some request) (message : tasks.messages id = ⟨taskId, request.params⟩)
      (stepped : state.worker.step tasks.retryLimit (.accepts id) = some worker) :
      Transition (.sends taskId id) { state.setRequest taskId { request with arrived := true } with worker }
  | moved {event : TaskEvent} {taskId : ℕ} {request : TaskRequest} {stage : RequestStage}
      (asked : state.requests taskId = some request) (confirmed : stage = .answered → request.arrived) :
      Transition event (state.setRequest taskId { request with stage })
  | queue {event : BaseAMQPWorker.Event} {worker : BaseAMQPWorker.State} (goes : IsStep event = false)
      (stepped : state.worker.step tasks.retryLimit event = some worker) :
      Transition (.queue event) { state with worker }
  | fetched {tag index id : ℕ} {fault : Option Bool} {progress : Progress} (executing : state.worker.executing tag = some id)
      (fetched : (state.progress tag).fetchBatch (tasks.messages id) fault state.database tasks.asyncStepSize
        index = some progress) :
      Transition (.fetchesBatch tag index fault) (state.setProgress tag progress)
  | called {tag id : ℕ} {fault : Option Bool} {progress : Progress} {database : Database}
      (executing : state.worker.executing tag = some id)
      (performed : (state.progress tag).perform (tasks.messages id) fault state.database =
        some (.continues progress, database)) :
      Transition (.calls tag fault) ({ state with database }.setProgress tag progress)
  | ended {tag id : ℕ} {fault : Option Bool} {outcome : Outcome} {event : BaseAMQPWorker.Event}
      {database : Database} {worker : BaseAMQPWorker.State} (executing : state.worker.executing tag = some id)
      (performed : (state.progress tag).perform (tasks.messages id) fault state.database =
        some (outcome, database))
      (ends : outcome = .returned ∧ event = .succeeds tag ∨ outcome = .threw ∧ event = .fails tag)
      (stepped : state.worker.step tasks.retryLimit event = some worker) :
      Transition (.calls tag fault) { state with database, worker }
  | wroteCandleSticks {candleSticks : List CandleStickRow} :
      Transition (.writesCandleSticks candleSticks) { state with database.candleSticks := candleSticks }
  | wroteExchanges {exchanges : List Exchange} :
      Transition (.writesExchanges exchanges) { state with database.exchanges := exchanges }

variable {tasks state} {next changed : TaskState} {event : TaskEvent}

theorem step_idle (idle : tasks.queueEvent state event = none) (effect : tasks.effect state event = some changed)
    (taken : tasks.step state event = some next) : next = changed := by
  rw [step, effect, Option.bind_some, idle] at taken
  exact (Option.some.inj taken).symm

/-- A step that means something to the queues changes them beside its own effect. -/
theorem step_queues {queueEvent : BaseAMQPWorker.Event} (means : tasks.queueEvent state event = some queueEvent)
    (effect : tasks.effect state event = some changed) (taken : tasks.step state event = some next) :
    ∃ worker, state.worker.step tasks.retryLimit queueEvent = some worker ∧ next = { changed with worker } := by
  rw [step, effect, Option.bind_some, means] at taken
  obtain ⟨worker, stepped, rfl⟩ := Option.map_eq_some_iff.mp taken
  exact ⟨worker, stepped, rfl⟩

theorem step_transition (taken : tasks.step state event = some next) : tasks.Transition state event next := by
  obtain ⟨changed, effect, -⟩ := Option.bind_eq_some_iff.mp taken
  cases event with
  | creates taskId params =>
    rw [step_idle rfl effect taken]
    obtain ⟨fresh, rfl⟩ := enabled effect
    exact .created fresh
  | createThrows taskId stored =>
    rw [step_idle rfl effect taken]
    obtain ⟨fresh, rfl⟩ := enabled effect
    cases stored with
    | true => exact .createdInVain fresh
    | false => exact .notCreated
  | sends taskId id =>
    obtain ⟨worker, stepped, rfl⟩ := step_queues rfl effect taken
    obtain ⟨request, asked, guarded⟩ := Option.bind_eq_some_iff.mp effect
    obtain ⟨⟨-, message⟩, rfl⟩ := enabled guarded
    exact .sent asked message stepped
  | sendThrows taskId =>
    rw [step_idle rfl effect taken]
    obtain ⟨request, asked, guarded⟩ := Option.bind_eq_some_iff.mp effect
    obtain ⟨-, rfl⟩ := enabled guarded
    exact .moved asked nofun
  | answers taskId =>
    rw [step_idle rfl effect taken]
    obtain ⟨request, asked, guarded⟩ := Option.bind_eq_some_iff.mp effect
    obtain ⟨⟨-, arrived⟩, rfl⟩ := enabled guarded
    exact .moved asked fun _ => arrived
  | queue event =>
    obtain ⟨worker, stepped, rfl⟩ := step_queues rfl effect taken
    obtain ⟨goes, rfl⟩ := enabled effect
    exact .queue (by simpa using goes) stepped
  | fetchesBatch tag index fault =>
    rw [step_idle rfl effect taken]
    obtain ⟨id, executing, mapped⟩ := Option.bind_eq_some_iff.mp effect
    obtain ⟨progress, fetched, rfl⟩ := Option.map_eq_some_iff.mp mapped
    exact .fetched executing fetched
  | calls tag fault =>
    obtain ⟨id, executing, mapped⟩ := Option.bind_eq_some_iff.mp effect
    obtain ⟨⟨outcome, database⟩, performed, rfl⟩ := Option.map_eq_some_iff.mp mapped
    cases outcome with
    | continues progress =>
      have idle : tasks.queueEvent state (.calls tag fault) = none := by
        simp [queueEvent, executing, performed]
      rw [step_idle idle effect taken]
      exact .called executing performed
    | returned =>
      have means : tasks.queueEvent state (.calls tag fault) = some (.succeeds tag) := by
        simp [queueEvent, executing, performed]
      obtain ⟨worker, stepped, rfl⟩ := step_queues means effect taken
      exact .ended executing performed (.inl ⟨rfl, rfl⟩) stepped
    | threw =>
      have means : tasks.queueEvent state (.calls tag fault) = some (.fails tag) := by
        simp [queueEvent, executing, performed]
      obtain ⟨worker, stepped, rfl⟩ := step_queues means effect taken
      exact .ended executing performed (.inr ⟨rfl, rfl⟩) stepped
  | writesCandleSticks candleSticks =>
    rw [step_idle rfl effect taken]
    obtain rfl := Option.some.inj effect
    exact .wroteCandleSticks
  | writesExchanges exchanges =>
    rw [step_idle rfl effect taken]
    obtain rfl := Option.some.inj effect
    exact .wroteExchanges

end AggregationTasks

end PriceFeed.Workers
