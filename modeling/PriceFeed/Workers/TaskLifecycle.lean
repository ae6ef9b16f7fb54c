import PriceFeed.Workers.AggregationTasks

/-! What an aggregation task comes to: whatever the order of the calls that requests and
executions make, its status says what is stored for it. -/

namespace PriceFeed.Workers

open PriceFeed.Library PriceFeed.MarketRecords PriceFeed.UseCases BaseAMQPWorker.State

/-- What the candle sticks and the exchanges have been. -/
structure Tables where
  candleSticks : List CandleStickRow → Prop
  exchanges : List Exchange → Prop

section Answers

variable (asyncStepSize : ℕ+) (tables : Tables) (message : Message)

/-- The batches of a loop are read one after the other, up to the last. -/
inductive Fetched (params : DiscreteAggregationParams) : SymbolLoop → Prop where
  | initial (symbol : String) : Fetched params (SymbolLoop.initial params symbol)
  | fetch {loop : SymbolLoop} {candleSticks : List CandleStickRow} (earlier : Fetched params loop)
      (held : tables.candleSticks candleSticks) (more : loop.aggregation.isLastBatch = false) :
      Fetched params (loop.fetch asyncStepSize params candleSticks)

def Aggregated (params : DiscreteAggregationParams) (result : DiscreteAggregation.AggregationResult) : Prop :=
  ∃ loop, Fetched asyncStepSize tables params loop ∧ loop.aggregation.isLastBatch ∧ result = loop.result

/-- The row is an aggregation that the task asks for. -/
def ResultOf (row : DiscreteAggregationResult) : Prop :=
  ∃ result, result.symbol ∈ message.params.symbols ∧ Aggregated asyncStepSize tables message.params result ∧
    row = CandlesDiscreteAggregator.formatResult message.taskId message.params result

/-- A row for each symbol that the task asks for, in their order. -/
structure Batch (database : Database) (created : List (ℕ × DiscreteAggregationResult)) : Prop where
  stored : created ⊆ database.results.rows
  distinct : (created.map Prod.fst).Nodup
  symbols : created.map (fun row => row.2.symbol) = message.params.symbols
  taskId : ∀ row ∈ created, row.2.taskId = message.taskId

/-- The answer to a task: its rows, beside every exchange that has one of its names. -/
def Answered (database : Database) : Prop :=
  ∃ created exchanges, Batch message database created ∧ tables.exchanges exchanges ∧
    ∀ row ∈ created, ∀ exchange ∈ exchanges, exchange.name ∈ message.params.exchangeNames →
      ⟨row.1, exchange.id⟩ ∈ database.associations.rows.map Prod.snd

/-- The exchange is one that the task of the result names. -/
def Named (association : DiscreteAggregationExchange) : Prop :=
  ∃ exchanges, tables.exchanges exchanges ∧ ∃ exchange ∈ exchanges,
    exchange.id = association.exchangeId ∧ exchange.name ∈ message.params.exchangeNames

end Answers

section UseCase

variable {asyncStepSize : ℕ+} {tables : Tables} {params : DiscreteAggregationParams}
  {candleSticks : List CandleStickRow} {loop : SymbolLoop}

/-- A batch leaves each loop with its symbol. -/
theorem symbols_set {loops : List SymbolLoop} {index : ℕ} (found : loops[index]? = some loop) :
    (loops.set index (loop.fetch asyncStepSize params candleSticks)).map SymbolLoop.symbol =
      loops.map SymbolLoop.symbol := by
  have same : (loops.map SymbolLoop.symbol)[index]? =
      some (loop.fetch asyncStepSize params candleSticks).symbol := by
    rw [List.getElem?_map, found]
    rfl
  obtain ⟨bound, own⟩ := List.getElem?_eq_some_iff.mp same
  rw [List.map_set, ← own, List.set_getElem_self]

/-- While the candle sticks stay as they are, a loop is on its way to where the use case's ends. -/
theorem Fetched.finish_eq (fetched : Fetched asyncStepSize tables params loop)
    (only : ∀ rows, tables.candleSticks rows → rows = candleSticks) :
    SymbolLoop.finish asyncStepSize params candleSticks loop =
      SymbolLoop.finish asyncStepSize params candleSticks (SymbolLoop.initial params loop.symbol) := by
  induction fetched with
  | initial symbol => rfl
  | @fetch loop rows earlier held more ih =>
    rw [only rows held, SymbolLoop.finish_fetch more]
    exact ih

/-- What a loop that has come to its end gives is what the use case computes for its symbol. -/
theorem Fetched.result_eq (fetched : Fetched asyncStepSize tables params loop)
    (last : loop.aggregation.isLastBatch) (only : ∀ rows, tables.candleSticks rows → rows = candleSticks) :
    loop.result =
      (SymbolLoop.finish asyncStepSize params candleSticks (SymbolLoop.initial params loop.symbol)).result := by
  rw [← fetched.finish_eq only, SymbolLoop.finish_ended last]

/-- Loops for the symbols that have all come to their ends are the use case's `systemCall`. -/
theorem systemCall_eq {loops : List SymbolLoop} (symbols : loops.map SymbolLoop.symbol = params.symbols)
    (fetched : ∀ loop ∈ loops, Fetched asyncStepSize tables params loop)
    (last : ∀ loop ∈ loops, loop.aggregation.isLastBatch)
    (only : ∀ rows, tables.candleSticks rows → rows = candleSticks) :
    CandlesDiscreteAggregator.systemCall asyncStepSize params candleSticks = loops.map SymbolLoop.result := by
  rw [CandlesDiscreteAggregator.systemCall_eq_map, ← symbols, List.map_map]
  apply List.map_congr_left
  intro loop member
  exact ((fetched loop member).result_eq (last loop member) only).symm

/-- The results of the executions are then those of the use case's `systemCall`. -/
theorem Aggregated.mem_systemCall {result : DiscreteAggregation.AggregationResult}
    (aggregated : Aggregated asyncStepSize tables params result) (asked : result.symbol ∈ params.symbols)
    (only : ∀ rows, tables.candleSticks rows → rows = candleSticks) :
    result ∈ CandlesDiscreteAggregator.systemCall asyncStepSize params candleSticks := by
  obtain ⟨loop, fetched, last, rfl⟩ := aggregated
  rw [CandlesDiscreteAggregator.systemCall_eq_map]
  exact List.mem_map.mpr ⟨loop.symbol, asked, (fetched.result_eq last only).symm⟩

end UseCase

namespace Database

variable (database : Database) (taskId : ℕ)

def LeftPending : Prop := ∃ task ∈ database.tasks taskId, task.status ≠ .PENDING

def HasError : Prop := ∃ task ∈ database.tasks taskId, task.error ≠ none

/-- What stays whatever is written. -/
structure Grows (after : Database) : Prop where
  present : ∀ taskId, (database.tasks taskId).isSome → (after.tasks taskId).isSome
  leftPending : ∀ taskId, database.LeftPending taskId → after.LeftPending taskId
  hasError : ∀ taskId, database.HasError taskId → after.HasError taskId
  results : database.results.rows ⊆ after.results.rows
  associations : database.associations.rows ⊆ after.associations.rows

variable {database taskId} {after : Database}

theorem grows_refl : database.Grows database where
  present _ held := held
  leftPending _ held := held
  hasError _ held := held
  results := List.Subset.refl _
  associations := List.Subset.refl _

theorem Grows.trans {last : Database} (first : database.Grows after) (second : after.Grows last) :
    database.Grows last where
  present taskId held := second.present taskId (first.present taskId held)
  leftPending taskId held := second.leftPending taskId (first.leftPending taskId held)
  hasError taskId held := second.hasError taskId (first.hasError taskId held)
  results := List.Subset.trans first.results second.results
  associations := List.Subset.trans first.associations second.associations

theorem leftPending_iff : database.LeftPending taskId ↔
    database.status taskId ≠ none ∧ database.status taskId ≠ some .PENDING := by
  rw [LeftPending, status]
  cases database.tasks taskId with
  | none => simp
  | some task => simp

theorem grows_createResults (database : Database) (rows : List DiscreteAggregationResult) : database.Grows (database.createResults rows) where
  present _ held := held
  leftPending _ held := held
  hasError _ held := held
  results := List.subset_append_left _ _
  associations := List.Subset.refl _

theorem grows_createAssociations (database : Database) (rows : List DiscreteAggregationExchange) :
    database.Grows (database.createAssociations rows) where
  present _ held := held
  leftPending _ held := held
  hasError _ held := held
  results := List.Subset.refl _
  associations := List.subset_append_left _ _

theorem mem_tasks_updateTask {change : AggregationTask → AggregationTask} {other : ℕ} {task : AggregationTask}
    (found : (database.updateTask taskId change).tasks other = some task) :
    other ≠ taskId ∧ database.tasks other = some task ∨
      other = taskId ∧ ∃ row, database.tasks taskId = some row ∧ change row = task := by
  by_cases own : other = taskId
  · subst own
    rw [tasks_updateTask] at found
    exact .inr ⟨rfl, Option.map_eq_some_iff.mp found⟩
  · have same : (database.updateTask taskId change).tasks other = database.tasks other :=
      Function.update_of_ne own _ _
    exact .inl ⟨own, same ▸ found⟩

/-- A task that is changed keeps what the change keeps. -/
theorem exists_updateTask {change : AggregationTask → AggregationTask} (kept : AggregationTask → Prop)
    (keeps : ∀ row, kept row → kept (change row)) (other : ℕ) :
    (∃ task ∈ database.tasks other, kept task) → ∃ task ∈ (database.updateTask taskId change).tasks other, kept task := by
  rintro ⟨task, found, held⟩
  by_cases own : other = taskId
  · subst own
    exact ⟨change task, by rw [tasks_updateTask]; exact congrArg (Option.map change) found, keeps task held⟩
  · have same : (database.updateTask taskId change).tasks other = database.tasks other :=
      Function.update_of_ne own _ _
    exact ⟨task, same ▸ found, held⟩

theorem grows_save {task changed : AggregationTask} (leaves : changed.status ≠ .PENDING)
    (errs : changed.error = task.error ∨ changed.error ≠ none) :
    database.Grows (database.updateTask taskId (task.save changed)) where
  present other held := by
    obtain ⟨row, found⟩ := Option.isSome_iff_exists.mp held
    obtain ⟨after, found, -⟩ := exists_updateTask (fun _ => True) (fun _ _ => trivial) other ⟨row, found, trivial⟩
    exact Option.isSome_iff_exists.mpr ⟨after, found⟩
  leftPending := by
    apply exists_updateTask (fun task => task.status ≠ .PENDING)
    intro row left
    rcases task.status_save_cases changed row with ⟨-, kept⟩ | ⟨-, written⟩
    · rwa [kept]
    · rwa [written]
  hasError := by
    apply exists_updateTask (fun task => task.error ≠ none)
    intro row held
    rcases task.error_save_cases changed row with ⟨-, kept⟩ | ⟨differs, written⟩
    · rwa [kept]
    · rw [written]
      exact errs.resolve_left differs
  results := List.Subset.refl _
  associations := List.Subset.refl _

end Database

section Invariants

variable {asyncStepSize : ℕ+} {tables : Tables} {message : Message} {database after : Database}

theorem Batch.grows {created : List (ℕ × DiscreteAggregationResult)} (batch : Batch message database created)
    (grows : database.Grows after) : Batch message after created :=
  { batch with stored := List.Subset.trans batch.stored grows.results }

theorem Answered.grows (answered : Answered tables message database) (grows : database.Grows after) :
    Answered tables message after := by
  obtain ⟨created, exchanges, batch, held, associated⟩ := answered
  refine ⟨created, exchanges, batch.grows grows, held, fun row member exchange among named => ?_⟩
  exact List.map_subset _ grows.associations (associated row member exchange among named)

variable (asyncStepSize tables message)

/-- What the row of a task is known to have left behind, from the instance that was read. -/
structure Seen (database : Database) (task : AggregationTask) : Prop where
  present : (database.tasks message.taskId).isSome
  status : task.status ≠ .PENDING → database.LeftPending message.taskId
  error : task.error ≠ none → database.HasError message.taskId

structure Started (database : Database) (task : AggregationTask) : Prop extends Seen message database task where
  started : task.status ≠ .PENDING

/-- What holds when an execution comes to its next call. -/
def Reached (database : Database) : Progress → Prop
  | .findTask => True
  | .updateProcessing task => Seen message database task
  | .executeUseCase task loops =>
    Started message database task ∧ loops.map SymbolLoop.symbol = message.params.symbols ∧
      ∀ loop ∈ loops, Fetched asyncStepSize tables message.params loop
  | .createResults task results =>
    Started message database task ∧
      results.map DiscreteAggregation.AggregationResult.symbol = message.params.symbols ∧
        ∀ result ∈ results, Aggregated asyncStepSize tables message.params result
  | .findExchanges task createdResults =>
    Started message database task ∧ Batch message database createdResults
  | .createAssociations task createdResults exchanges =>
    Started message database task ∧ Batch message database createdResults ∧
      ∃ held, tables.exchanges held ∧
        exchanges = held.filter fun exchange => exchange.name ∈ message.params.exchangeNames
  | .updateCompleted task => Started message database task ∧ Answered tables message database
  | .updateError task _ => Started message database task

/-- What holds of an execution that goes on, or has returned. -/
def Outcome.Holds (database : Database) : Outcome → Prop
  | .continues progress => Reached asyncStepSize tables message database progress
  | .returned => database.LeftPending message.taskId
  | .threw => True

/-- What is stored is of the tasks that have been asked for, and is as their statuses say. -/
structure Sound (contexts : ℕ → Option DiscreteAggregationParams) (database : Database) : Prop where
  known : ∀ taskId, database.LeftPending taskId → (contexts taskId).isSome
  completed : ∀ taskId task, database.tasks taskId = some task → task.status = .COMPLETED →
    ∃ params ∈ contexts taskId, Answered tables ⟨taskId, params⟩ database
  failed : ∀ taskId task, database.tasks taskId = some task → task.status = .ERROR → task.error ≠ none
  results : ∀ row ∈ database.results.rows, database.LeftPending row.2.taskId ∧
    ∃ params ∈ contexts row.2.taskId, ResultOf asyncStepSize tables ⟨row.2.taskId, params⟩ row.2
  associations : ∀ association ∈ database.associations.rows.map Prod.snd,
    ∃ row ∈ database.results.rows, row.1 = association.discreteAggregationResultId ∧
      ∃ params ∈ contexts row.2.taskId, Named tables ⟨row.2.taskId, params⟩ association

variable {asyncStepSize tables message} {contexts : ℕ → Option DiscreteAggregationParams}

theorem Seen.grows {task : AggregationTask} (seen : Seen message database task) (grows : database.Grows after) :
    Seen message after task where
  present := grows.present _ seen.present
  status left := grows.leftPending _ (seen.status left)
  error held := grows.hasError _ (seen.error held)

theorem Started.grows {task : AggregationTask} (started : Started message database task)
    (grows : database.Grows after) : Started message after task :=
  ⟨started.toSeen.grows grows, started.started⟩

theorem Reached.grows {progress : Progress} (reached : Reached asyncStepSize tables message database progress)
    (grows : database.Grows after) : Reached asyncStepSize tables message after progress := by
  cases progress with
  | findTask => trivial
  | updateProcessing task => exact Seen.grows reached grows
  | executeUseCase task loops => exact ⟨reached.1.grows grows, reached.2⟩
  | createResults task results => exact ⟨reached.1.grows grows, reached.2⟩
  | findExchanges task created => exact ⟨reached.1.grows grows, reached.2.grows grows⟩
  | createAssociations task created exchanges =>
    exact ⟨reached.1.grows grows, reached.2.1.grows grows, reached.2.2⟩
  | updateCompleted task => exact ⟨reached.1.grows grows, reached.2.grows grows⟩
  | updateError task error => exact Started.grows reached grows

section Writes

variable {task changed : AggregationTask}

theorem Started.withStatus {status : Status} (started : Started message database task)
    (leaves : status ≠ .PENDING) : Started message database { task with status } where
  present := started.present
  status _ := started.status started.started
  error held := started.error held
  started := leaves

/-- The instance that was written is as good as the one that was read. -/
theorem Seen.save (seen : Seen message database task) (leaves : changed.status ≠ .PENDING)
    (errs : changed.error = task.error ∨ changed.error ≠ none) :
    Started message (database.updateTask message.taskId (task.save changed)) changed := by
  have grows : database.Grows (database.updateTask message.taskId (task.save changed)) :=
    Database.grows_save leaves errs
  obtain ⟨row, found⟩ := Option.isSome_iff_exists.mp seen.present
  have written : task.save changed row ∈
      (database.updateTask message.taskId (task.save changed)).tasks message.taskId := by
    rw [Database.tasks_updateTask, found]
    rfl
  refine ⟨⟨grows.present _ seen.present, fun _ => ?_, fun held => ?_⟩, leaves⟩
  · rcases task.status_save_cases changed row with ⟨same, -⟩ | ⟨-, status⟩
    · exact grows.leftPending _ (seen.status (same ▸ leaves))
    · exact ⟨_, written, by rwa [status]⟩
  · rcases task.error_save_cases changed row with ⟨same, -⟩ | ⟨-, error⟩
    · exact grows.hasError _ (seen.error (same ▸ held))
    · exact ⟨_, written, by rwa [error]⟩

/-- Results and associations are added beside tasks that stay as they are. -/
theorem Sound.results_grow (sound : Sound asyncStepSize tables contexts database) (grows : database.Grows after)
    (same : after.tasks = database.tasks)
    (results : ∀ row ∈ after.results.rows, row ∈ database.results.rows ∨ database.LeftPending row.2.taskId ∧
      ∃ params ∈ contexts row.2.taskId, ResultOf asyncStepSize tables ⟨row.2.taskId, params⟩ row.2)
    (associations : ∀ association ∈ after.associations.rows.map Prod.snd,
      association ∈ database.associations.rows.map Prod.snd ∨
        ∃ row ∈ database.results.rows, row.1 = association.discreteAggregationResultId ∧
          ∃ params ∈ contexts row.2.taskId, Named tables ⟨row.2.taskId, params⟩ association) :
    Sound asyncStepSize tables contexts after where
  known taskId left := by
    rw [Database.LeftPending, same] at left
    exact sound.known taskId left
  completed taskId task found completed := by
    rw [same] at found
    obtain ⟨params, context, answered⟩ := sound.completed taskId task found completed
    exact ⟨params, context, answered.grows grows⟩
  failed taskId task found failed := by
    rw [same] at found
    exact sound.failed taskId task found failed
  results row member := by
    rcases results row member with before | ⟨left, own⟩
    · exact ⟨grows.leftPending _ (sound.results row before).1, (sound.results row before).2⟩
    · exact ⟨grows.leftPending _ left, own⟩
  associations association member := by
    rcases associations association member with before | ⟨row, stored, own⟩
    · obtain ⟨row, stored, own⟩ := sound.associations association before
      exact ⟨row, grows.results stored, own⟩
    · exact ⟨row, grows.results stored, own⟩

theorem Sound.save (sound : Sound asyncStepSize tables contexts database)
    (context : contexts message.taskId = some message.params) (seen : Seen message database task)
    (changed : AggregationTask) (leaves : changed.status ≠ .PENDING) (errs : changed.error = task.error ∨ changed.error ≠ none)
    (completes : changed.status = .COMPLETED → Answered tables message database)
    (fails : changed.status = .ERROR → changed.error ≠ none) :
    Sound asyncStepSize tables contexts (database.updateTask message.taskId (task.save changed)) := by
  have grows : database.Grows (database.updateTask message.taskId (task.save changed)) :=
    Database.grows_save leaves errs
  constructor
  · rintro other ⟨row, found, left⟩
    rcases Database.mem_tasks_updateTask found with ⟨-, before⟩ | ⟨rfl, -⟩
    · exact sound.known other ⟨row, before, left⟩
    · rw [context]
      rfl
  · intro other row found completed
    rcases Database.mem_tasks_updateTask found with ⟨-, before⟩ | ⟨rfl, old, present, rfl⟩
    · obtain ⟨params, own, answered⟩ := sound.completed other row before completed
      exact ⟨params, own, answered.grows grows⟩
    · rcases task.status_save_cases changed old with ⟨-, kept⟩ | ⟨-, written⟩
      · obtain ⟨params, own, answered⟩ := sound.completed _ old present (kept ▸ completed)
        exact ⟨params, own, answered.grows grows⟩
      · exact ⟨message.params, context, (completes (written ▸ completed)).grows grows⟩
  · intro other row found failed
    rcases Database.mem_tasks_updateTask found with ⟨-, before⟩ | ⟨rfl, old, present, rfl⟩
    · exact sound.failed other row before failed
    · rcases task.error_save_cases changed old with ⟨same, kept⟩ | ⟨differs, written⟩
      · rw [kept]
        rcases task.status_save_cases changed old with ⟨-, status⟩ | ⟨-, status⟩
        · exact sound.failed _ old present (status ▸ failed)
        · obtain ⟨row, found, held⟩ := seen.error (same ▸ fails (status ▸ failed))
          obtain rfl := Option.some.inj (present.symm.trans found)
          exact held
      · rw [written]
        exact errs.resolve_left differs
  · intro row member
    obtain ⟨left, own⟩ := sound.results row member
    exact ⟨grows.leftPending _ left, own⟩
  · intro association member
    exact sound.associations association member

end Writes

section Requests

variable {taskId : ℕ}

theorem Database.mem_tasks_createTask {other : ℕ} {task : AggregationTask}
    (found : (database.createTask taskId).tasks other = some task) :
    task = {} ∨ database.tasks other = some task := by
  by_cases own : other = taskId
  · subst own
    rw [tasks_createTask, Function.update_self] at found
    exact .inl (Option.some.inj found).symm
  · rw [tasks_createTask, Function.update_of_ne own] at found
    exact .inr found

theorem Database.tasks_createTask_of_present (fresh : database.tasks taskId = none) {other : ℕ}
    {task : AggregationTask} (found : database.tasks other = some task) :
    (database.createTask taskId).tasks other = some task := by
  have different : other ≠ taskId := by
    rintro rfl
    cases fresh.symm.trans found
  rw [tasks_createTask, Function.update_of_ne different]
  exact found

theorem Database.grows_createTask (fresh : database.tasks taskId = none) :
    database.Grows (database.createTask taskId) where
  present other held := by
    obtain ⟨task, found⟩ := Option.isSome_iff_exists.mp held
    exact Option.isSome_iff_exists.mpr ⟨task, tasks_createTask_of_present fresh found⟩
  leftPending other held := by
    obtain ⟨task, found, left⟩ := held
    exact ⟨task, tasks_createTask_of_present fresh found, left⟩
  hasError other held := by
    obtain ⟨task, found, error⟩ := held
    exact ⟨task, tasks_createTask_of_present fresh found, error⟩
  results := List.Subset.refl _
  associations := List.Subset.refl _

theorem Sound.createTask (sound : Sound asyncStepSize tables contexts database)
    (fresh : database.tasks taskId = none) :
    Sound asyncStepSize tables contexts (database.createTask taskId) := by
  have grows := Database.grows_createTask fresh
  constructor
  · rintro other ⟨task, found, left⟩
    rcases Database.mem_tasks_createTask found with rfl | before
    · exact absurd rfl left
    · exact sound.known other ⟨task, before, left⟩
  · intro other task found completed
    rcases Database.mem_tasks_createTask found with rfl | before
    · cases completed
    · obtain ⟨params, context, answered⟩ := sound.completed other task before completed
      exact ⟨params, context, answered.grows grows⟩
  · intro other task found failed
    rcases Database.mem_tasks_createTask found with rfl | before
    · cases failed
    · exact sound.failed other task before failed
  · intro row member
    obtain ⟨left, own⟩ := sound.results row member
    exact ⟨grows.leftPending _ left, own⟩
  · exact sound.associations

theorem Sound.contexts_grow {later : ℕ → Option DiscreteAggregationParams}
    (sound : Sound asyncStepSize tables contexts database)
    (grow : ∀ taskId params, contexts taskId = some params → later taskId = some params) :
    Sound asyncStepSize tables later database where
  known taskId left := by
    obtain ⟨params, context⟩ := Option.isSome_iff_exists.mp (sound.known taskId left)
    exact Option.isSome_iff_exists.mpr ⟨params, grow taskId params context⟩
  completed taskId task found completed := by
    obtain ⟨params, context, answered⟩ := sound.completed taskId task found completed
    exact ⟨params, grow taskId params context, answered⟩
  failed := sound.failed
  results row member := by
    obtain ⟨left, params, context, own⟩ := sound.results row member
    exact ⟨left, params, grow _ params context, own⟩
  associations association member := by
    obtain ⟨row, stored, same, params, context, named⟩ := sound.associations association member
    exact ⟨row, stored, same, params, grow _ params context, named⟩

theorem Database.grows_elsewhere (database : Database) (candleSticks : List CandleStickRow)
    (exchanges : List Exchange) : database.Grows { database with candleSticks, exchanges } :=
  ⟨fun _ held => held, fun _ held => held, fun _ held => held, List.Subset.refl _, List.Subset.refl _⟩

/-- What is found in the other tables does not matter to what is stored of the tasks. -/
theorem Sound.elsewhere (sound : Sound asyncStepSize tables contexts database)
    (candleSticks : List CandleStickRow) (exchanges : List Exchange) :
    Sound asyncStepSize tables contexts { database with candleSticks, exchanges } :=
  sound.results_grow (database.grows_elsewhere candleSticks exchanges) rfl (fun _ member => .inl member)
    fun _ member => .inl member

end Requests

section Calls

variable {progress : Progress} {outcome : Outcome} {fault : Option Bool} {task : AggregationTask}

private theorem batch_createResults {results : List DiscreteAggregation.AggregationResult}
    (symbols : results.map DiscreteAggregation.AggregationResult.symbol = message.params.symbols) :
    let rows := results.map (CandlesDiscreteAggregator.formatResult message.taskId message.params)
    Batch message (database.createResults rows) (database.results.numbered rows) := by
  intro rows
  have formatted : (database.results.numbered rows).map Prod.snd = rows := database.results.map_snd_numbered rows
  constructor
  · exact List.subset_append_right _ _
  · rw [SerialTable.map_fst_numbered]
    exact List.nodup_range'
  · calc (database.results.numbered rows).map (fun row => row.2.symbol)
        = ((database.results.numbered rows).map Prod.snd).map DiscreteAggregationResult.symbol := by
          rw [List.map_map]
          rfl
      _ = rows.map DiscreteAggregationResult.symbol := by rw [formatted]
      _ = results.map DiscreteAggregation.AggregationResult.symbol := by
          rw [List.map_map]
          rfl
      _ = message.params.symbols := symbols
  · intro row member
    have formatted : row.2 ∈ rows := formatted ▸ List.mem_map_of_mem member
    obtain ⟨result, -, same⟩ := List.mem_map.mp formatted
    rw [← same]
    rfl

private theorem mem_createResults {rows : List DiscreteAggregationResult} {row : ℕ × DiscreteAggregationResult}
    (member : row ∈ (database.createResults rows).results.rows) : row ∈ database.results.rows ∨ row.2 ∈ rows := by
  rcases List.mem_append.mp member with before | new
  · exact .inl before
  · right
    rw [← database.results.map_snd_numbered rows]
    exact List.mem_map_of_mem new

theorem mem_createAssociations {rows : List DiscreteAggregationExchange} {row : DiscreteAggregationExchange} :
    row ∈ (database.createAssociations rows).associations.rows.map Prod.snd ↔
      row ∈ database.associations.rows.map Prod.snd ∨ row ∈ rows := by
  have added : (database.createAssociations rows).associations.rows.map Prod.snd =
      database.associations.rows.map Prod.snd ++ rows := by
    rw [Database.createAssociations, SerialTable.bulkCreate, List.map_append, SerialTable.map_snd_numbered]
  rw [added, List.mem_append]

theorem Sound.createResults {results : List DiscreteAggregation.AggregationResult}
    (sound : Sound asyncStepSize tables contexts database)
    (context : contexts message.taskId = some message.params) (left : database.LeftPending message.taskId)
    (symbols : results.map DiscreteAggregation.AggregationResult.symbol = message.params.symbols)
    (aggregated : ∀ result ∈ results, Aggregated asyncStepSize tables message.params result) :
    Sound asyncStepSize tables contexts (database.createResults
      (results.map (CandlesDiscreteAggregator.formatResult message.taskId message.params))) := by
  refine sound.results_grow (Database.grows_createResults _ _) rfl (fun row member => ?_) fun _ member => .inl member
  rcases mem_createResults member with before | new
  · exact .inl before
  · right
    obtain ⟨result, own, formatted⟩ := List.mem_map.mp new
    have taskId : row.2.taskId = message.taskId := by rw [← formatted]; rfl
    have asked : result.symbol ∈ message.params.symbols := symbols ▸ List.mem_map_of_mem own
    rw [taskId]
    exact ⟨left, message.params, context, result, asked, aggregated result own, formatted.symm⟩

/-- Every exchange that was found stands beside every row. -/
private theorem answered_createAssociations {created : List (ℕ × DiscreteAggregationResult)} {held : List Exchange}
    (batch : Batch message database created) (exchanges : tables.exchanges held) :
    Answered tables message (database.createAssociations (CandlesDiscreteAggregator.joinTableData created
      (held.filter fun exchange => exchange.name ∈ message.params.exchangeNames))) := by
  refine ⟨created, held, batch.grows (Database.grows_createAssociations _ _), exchanges, ?_⟩
  intro row member exchange among named
  apply mem_createAssociations.mpr
  right
  have found : exchange ∈ held.filter fun exchange => exchange.name ∈ message.params.exchangeNames :=
    List.mem_filter.mpr ⟨among, by simpa using named⟩
  exact List.mem_flatMap.mpr ⟨exchange, found, List.mem_map.mpr ⟨row, member, rfl⟩⟩

theorem Sound.createAssociations {created : List (ℕ × DiscreteAggregationResult)} {held : List Exchange}
    (sound : Sound asyncStepSize tables contexts database)
    (context : contexts message.taskId = some message.params)
    (batch : Batch message database created) (exchanges : tables.exchanges held) :
    Sound asyncStepSize tables contexts (database.createAssociations
      (CandlesDiscreteAggregator.joinTableData created
        (held.filter fun exchange => exchange.name ∈ message.params.exchangeNames))) := by
  refine sound.results_grow (Database.grows_createAssociations _ _) rfl (fun _ member => .inl member) ?_
  intro association member
  rcases mem_createAssociations.mp member with before | new
  · exact .inl before
  · right
    obtain ⟨exchange, found, joined⟩ := List.mem_flatMap.mp new
    obtain ⟨row, own, rfl⟩ := List.mem_map.mp joined
    obtain ⟨among, named⟩ := List.mem_filter.mp found
    refine ⟨row, batch.stored own, rfl, ?_⟩
    rw [batch.taskId row own]
    exact ⟨message.params, context, held, exchanges, exchange, among, rfl, by simpa using named⟩

theorem ne_pending {status : Status} (other : status = .PROCESSING ∨ status = .COMPLETED ∨ status = .ERROR) :
    status ≠ .PENDING := by
  rintro rfl
  simp at other

/-- A batch of a loop is read from what the candle sticks are. -/
theorem fetchBatch_reached {progress : Progress} {index : ℕ} {fetched : Progress}
    (candleSticks : tables.candleSticks database.candleSticks)
    (reached : Reached asyncStepSize tables message database progress)
    (fetches : progress.fetchBatch message fault database asyncStepSize index = some fetched) :
    Reached asyncStepSize tables message database fetched := by
  cases progress with
  | executeUseCase task loops =>
    obtain ⟨started, symbols, earlier⟩ := reached
    obtain ⟨loop, found, guarded⟩ := Option.bind_eq_some_iff.mp fetches
    split at guarded
    next => cases guarded
    next more =>
      have more : loop.aggregation.isLastBatch = false := by simpa using more
      cases fault with
      | some stored =>
        obtain rfl := Option.some.inj guarded
        exact started
      | none =>
        obtain rfl := Option.some.inj guarded
        refine ⟨started, ?_, fun other member => ?_⟩
        · rw [symbols_set found]
          exact symbols
        · rcases List.mem_or_eq_of_mem_set member with before | rfl
          · exact earlier other before
          · exact (earlier loop (List.mem_of_getElem? found)).fetch candleSticks more
  | findTask => cases fetches
  | updateProcessing task => cases fetches
  | createResults task results => cases fetches
  | findExchanges task created => cases fetches
  | createAssociations task created exchanges => cases fetches
  | updateCompleted task => cases fetches
  | updateError task error => cases fetches

variable (sound : Sound asyncStepSize tables contexts database)
  (context : contexts message.taskId = some message.params)

include sound context

private theorem updateProcessing_sound (seen : Seen message database task) :
    let after := database.updateTask message.taskId (task.save { task with status := .PROCESSING })
    Sound asyncStepSize tables contexts after ∧ database.Grows after ∧
      Started message after { task with status := .PROCESSING } := by
  intro after
  have leaves : Status.PROCESSING ≠ .PENDING := ne_pending (.inl rfl)
  refine ⟨?_, Database.grows_save leaves (.inl rfl), seen.save leaves (.inl rfl)⟩
  apply sound.save context seen { task with status := .PROCESSING } leaves (.inl rfl)
  · intro same
    cases same
  · intro same
    cases same

private theorem updateCompleted_sound (started : Started message database task) (answered : Answered tables message database) :
    let after := database.updateTask message.taskId (task.save { task with status := .COMPLETED })
    Sound asyncStepSize tables contexts after ∧ database.Grows after := by
  intro after
  have leaves : Status.COMPLETED ≠ .PENDING := ne_pending (.inr (.inl rfl))
  refine ⟨?_, Database.grows_save leaves (.inl rfl)⟩
  apply sound.save context started.toSeen { task with status := .COMPLETED } leaves (.inl rfl)
  · exact fun _ => answered
  · intro same
    cases same

private theorem updateError_sound (started : Started message database task) (error : Exception) :
    let after := database.updateTask message.taskId
      (task.save { task with status := .ERROR, error := some error })
    Sound asyncStepSize tables contexts after ∧ database.Grows after := by
  intro after
  have leaves : Status.ERROR ≠ .PENDING := ne_pending (.inr (.inr rfl))
  have errs : some error ≠ none := Option.some_ne_none error
  refine ⟨?_, Database.grows_save leaves (.inr errs)⟩
  apply sound.save context started.toSeen { task with status := .ERROR, error := some error } leaves (.inr errs)
  · intro same
    cases same
  · exact fun _ => errs

/-- One call of an execution, whatever it comes to. -/
theorem perform_sound {after : Database} (exchanges : tables.exchanges database.exchanges)
    (reached : Reached asyncStepSize tables message database progress)
    (performed : progress.perform message fault database = some (outcome, after)) :
    Sound asyncStepSize tables contexts after ∧ database.Grows after ∧
      outcome.Holds asyncStepSize tables message after := by
  have unchanged : database.Grows database := Database.grows_refl
  cases progress with
  | findTask =>
    simp only [Progress.perform] at performed
    split at performed
    next task found =>
      obtain ⟨rfl, rfl⟩ := Prod.mk.inj (Option.some.inj performed)
      have seen : Seen message database task := by
        constructor
        · rw [found]
          rfl
        · exact fun left => ⟨task, found, left⟩
        · exact fun held => ⟨task, found, held⟩
      exact ⟨sound, unchanged, seen⟩
    next =>
      obtain ⟨rfl, rfl⟩ := Prod.mk.inj (Option.some.inj performed)
      exact ⟨sound, unchanged, trivial⟩
  | updateProcessing task =>
    obtain ⟨kept, grows, started⟩ := updateProcessing_sound sound context reached
    rcases Progress.update_cases (Option.some.inj performed) with ⟨rfl, rfl⟩ | ⟨rfl, rfl | rfl⟩
    · refine ⟨kept, grows, started, ?_, ?_⟩
      · rw [List.map_map]
        exact List.map_id _
      · intro loop member
        obtain ⟨symbol, -, rfl⟩ := List.mem_map.mp member
        exact .initial symbol
    · exact ⟨sound, unchanged, trivial⟩
    · exact ⟨kept, grows, trivial⟩
  | executeUseCase task loops =>
    obtain ⟨started, symbols, fetched⟩ := reached
    obtain ⟨ended, asked⟩ := enabled performed
    rcases Progress.query_cases asked fun _ => rfl with ⟨rfl, rfl⟩ | ⟨rfl, rfl | rfl⟩
    · refine ⟨sound, unchanged, started, ?_, ?_⟩
      · rw [List.map_map]
        exact symbols
      · intro result member
        obtain ⟨loop, own, rfl⟩ := List.mem_map.mp member
        exact ⟨loop, fetched loop own, ended loop own, rfl⟩
    · exact ⟨sound, unchanged, started⟩
    · exact ⟨sound, unchanged, started⟩
  | createResults task results =>
    obtain ⟨started, symbols, aggregated⟩ := reached
    have left := started.status started.started
    have grows := Database.grows_createResults database
      (results.map (CandlesDiscreteAggregator.formatResult message.taskId message.params))
    have kept := sound.createResults context left symbols aggregated
    have idle : ¬ results.map (CandlesDiscreteAggregator.formatResult message.taskId message.params) ≠ [] →
        database.createResults (results.map
          (CandlesDiscreteAggregator.formatResult message.taskId message.params)) = database := by
      intro none
      rw [not_not.mp none]
      exact Database.createResults_nil
    rcases Progress.query_cases (Option.some.inj performed) idle with ⟨rfl, rfl⟩ | ⟨rfl, rfl | rfl⟩
    · exact ⟨kept, grows, started.grows grows, batch_createResults symbols⟩
    · exact ⟨sound, unchanged, started⟩
    · exact ⟨kept, grows, started.grows grows⟩
  | findExchanges task created =>
    obtain ⟨started, batch⟩ := reached
    rcases Progress.query_cases (Option.some.inj performed) fun _ => rfl with ⟨rfl, rfl⟩ | ⟨rfl, rfl | rfl⟩
    · exact ⟨sound, unchanged, started, batch, after.exchanges, exchanges, rfl⟩
    · exact ⟨sound, unchanged, started⟩
    · exact ⟨sound, unchanged, started⟩
  | createAssociations task created found =>
    obtain ⟨started, batch, held, own, rfl⟩ := reached
    have grows := Database.grows_createAssociations database
      (CandlesDiscreteAggregator.joinTableData created
        (held.filter fun exchange => exchange.name ∈ message.params.exchangeNames))
    have kept := sound.createAssociations context batch own
    have idle : ¬ CandlesDiscreteAggregator.joinTableData created
        (held.filter fun exchange => exchange.name ∈ message.params.exchangeNames) ≠ [] →
        database.createAssociations (CandlesDiscreteAggregator.joinTableData created
          (held.filter fun exchange => exchange.name ∈ message.params.exchangeNames)) = database := by
      intro none
      rw [not_not.mp none]
      exact Database.createAssociations_nil
    rcases Progress.query_cases (Option.some.inj performed) idle with ⟨rfl, rfl⟩ | ⟨rfl, rfl | rfl⟩
    · exact ⟨kept, grows, started.grows grows, answered_createAssociations batch own⟩
    · exact ⟨sound, unchanged, started⟩
    · exact ⟨kept, grows, started.grows grows⟩
  | updateCompleted task =>
    obtain ⟨started, answered⟩ := reached
    have leaves : Status.COMPLETED ≠ .PENDING := ne_pending (.inr (.inl rfl))
    obtain ⟨kept, grows⟩ := updateCompleted_sound sound context started answered
    rcases Progress.update_cases (Option.some.inj performed) with ⟨rfl, rfl⟩ | ⟨rfl, rfl | rfl⟩
    · exact ⟨kept, grows, grows.leftPending _ (started.status started.started)⟩
    · exact ⟨sound, unchanged, started.withStatus leaves⟩
    · exact ⟨kept, grows, (started.withStatus leaves).grows grows⟩
  | updateError task error =>
    have started : Started message database task := reached
    obtain ⟨kept, grows⟩ := updateError_sound sound context started error
    rcases Progress.update_cases (Option.some.inj performed) with ⟨rfl, rfl⟩ | ⟨rfl, rfl | rfl⟩
    · exact ⟨kept, grows, grows.leftPending _ (started.status started.started)⟩
    · exact ⟨sound, unchanged, trivial⟩
    · exact ⟨kept, grows, trivial⟩

end Calls

end Invariants

end PriceFeed.Workers
