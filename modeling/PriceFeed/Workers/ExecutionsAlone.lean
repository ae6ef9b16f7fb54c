import PriceFeed.Workers.TaskRuns

/-! An execution of an aggregation task that has the database to itself: its calls, made one by
one between the events of the queue, come to what `execute` does with the same faults. -/

namespace PriceFeed.Workers

open PriceFeed.Library PriceFeed.MarketRecords PriceFeed.UseCases

namespace CandlesDiscreteAggregator

section Remainders

variable (asyncStepSize : ℕ+) (faults : Step → Option Fault) (message : Message)

def complete : Worker Unit :=
  update faults .updateCompleted message.taskId fun task => { task with status := .COMPLETED }

/-- What is left of `execute` at a call. -/
def remainder : Progress → Worker Unit
  | .findTask => execute asyncStepSize faults message
  | .updateProcessing _ => do
    update faults .updateProcessing message.taskId fun task => { task with status := .PROCESSING }
    Fallible.attempt (aggregate asyncStepSize faults message) (handleError faults message.taskId)
  | .executeUseCase _ _ =>
    Fallible.attempt (aggregate asyncStepSize faults message) (handleError faults message.taskId)
  | .createResults _ results =>
    Fallible.attempt (do
      saveTaskResults faults message.taskId message.params results
      complete faults message) (handleError faults message.taskId)
  | .findExchanges _ createdResults =>
    Fallible.attempt (do
      setResultsAssociations faults createdResults message.params.exchangeNames
      complete faults message) (handleError faults message.taskId)
  | .createAssociations _ createdResults exchanges =>
    Fallible.attempt (do
      call faults .createAssociations fun database =>
        ((), database.createAssociations (joinTableData createdResults exchanges))
      complete faults message) (handleError faults message.taskId)
  | .updateCompleted _ => Fallible.attempt (complete faults message) (handleError faults message.taskId)
  | .updateError _ error => handleError faults message.taskId error

/-- What an execution that is alone knows of the database. -/
def Knows (database : Database) : Progress → Prop
  | .findTask => True
  | .updateProcessing task => database.tasks message.taskId = some task
  | .executeUseCase task loops =>
    (database.tasks message.taskId = some task ∧ task.status = .PROCESSING) ∧
      loops.map SymbolLoop.symbol = message.params.symbols ∧ ∀ loop ∈ loops,
        Fetched asyncStepSize ⟨(· = database.candleSticks), (· = database.exchanges)⟩ message.params loop
  | .createResults task results =>
    (database.tasks message.taskId = some task ∧ task.status = .PROCESSING) ∧
      results = systemCall asyncStepSize message.params database.candleSticks
  | .findExchanges task _ => database.tasks message.taskId = some task ∧ task.status = .PROCESSING
  | .createAssociations task _ exchanges =>
    (database.tasks message.taskId = some task ∧ task.status = .PROCESSING) ∧
      exchanges = database.findExchanges message.params.exchangeNames
  | .updateCompleted task => database.tasks message.taskId = some task ∧ task.status = .PROCESSING
  | .updateError task _ => ∃ row ∈ database.tasks message.taskId, row.error = task.error ∧ task.status ≠ .ERROR

end Remainders

variable {asyncStepSize : ℕ+} {faults : Step → Option Fault} {message : Message}
  {database after : Database} {progress next : Progress} {fault : Option Bool}

section Calls

variable {Value : Type} {step other : Step} {effect : Database → Value × Database} {own : Option Fault}

theorem call_update (different : other ≠ step) :
    call (Function.update faults step own) other effect = call faults other effect := by
  rw [call, Function.update_of_ne different, call]

theorem call_update_self :
    call (Function.update faults step own) step effect = Fallible.perform own (.failed step) effect := by
  rw [call, Function.update_self]

theorem handleError_update {taskId : ℕ} (different : Step.updateError ≠ step) :
    handleError (Function.update faults step own) taskId = handleError faults taskId :=
  funext fun _ => call_update different

theorem complete_update (different : Step.updateCompleted ≠ step) :
    complete (Function.update faults step own) message = complete faults message :=
  call_update different

theorem setResultsAssociations_update {created : List (ℕ × DiscreteAggregationResult)} {exchangeNames : List String}
    (lookup : Step.findExchanges ≠ step) (insert : Step.createAssociations ≠ step) :
    setResultsAssociations (Function.update faults step own) created exchangeNames =
      setResultsAssociations faults created exchangeNames := by
  simp only [setResultsAssociations, call_update lookup, call_update insert]

theorem saveTaskResults_update {taskId : ℕ} {params : DiscreteAggregationParams}
    {results : List DiscreteAggregation.AggregationResult} (rows : Step.createResults ≠ step)
    (lookup : Step.findExchanges ≠ step) (insert : Step.createAssociations ≠ step) :
    saveTaskResults (Function.update faults step own) taskId params results =
      saveTaskResults faults taskId params results := by
  simp only [saveTaskResults, call_update rows, setResultsAssociations_update lookup insert]

theorem aggregate_update (early : step ∉ Step.updateError :: tried) :
    aggregate asyncStepSize (Function.update faults step own) message = aggregate asyncStepSize faults message := by
  simp only [tried, List.mem_cons, List.not_mem_nil, or_false, not_or] at early
  obtain ⟨-, lookup, rows, exchanges, associations, last⟩ := early
  simp only [aggregate, executeUseCase, update, call_update (Ne.symm lookup), call_update (Ne.symm last),
    saveTaskResults_update (Ne.symm rows) (Ne.symm exchanges) (Ne.symm associations)]

end Calls

section Rows

variable {taskId : ℕ} {task changed row : AggregationTask}

theorem save_own : task.save changed task = changed := by
  obtain ⟨status, error⟩ := changed
  rw [AggregationTask.save]
  congr
  · split
    next same => exact same.symm
    next => rfl
  · split
    next same => exact same.symm
    next => rfl

theorem save_error {error : Exception} (same : row.error = task.error) (left : task.status ≠ .ERROR) :
    task.save { task with status := .ERROR, error := some error } row =
      { row with status := .ERROR, error := some error } := by
  rw [AggregationTask.save, if_neg left.symm]
  congr
  split
  next kept => rw [same, ← kept]
  next => rfl

/-- The instance is written over the row. -/
theorem updateTask_save (change : AggregationTask → AggregationTask) (found : database.tasks taskId = some row)
    (saved : task.save changed row = change row) :
    database.updateTask taskId (task.save changed) = database.updateTask taskId change := by
  rw [Database.updateTask, Database.updateTask, found, Option.map_some, Option.map_some, saved]

theorem updateTask_own (change : AggregationTask → AggregationTask) (found : database.tasks taskId = some task) :
    database.updateTask taskId (task.save (change task)) = database.updateTask taskId change :=
  updateTask_save change found save_own

theorem found_updateTask (found : database.tasks taskId = some task) :
    (database.updateTask taskId (task.save changed)).tasks taskId = some changed := by
  rw [Database.tasks_updateTask, found, Option.map_some, save_own]

end Rows

theorem knows_updateError (database : Database) {task : AggregationTask} {error : Exception}
    (found : database.tasks message.taskId = some task ∧ task.status = .PROCESSING) :
    Knows asyncStepSize message database (.updateError task error) :=
  ⟨task, found.1, rfl, by rw [found.2]; decide⟩

/-- An execution that is alone goes on to know what it needs. -/
private theorem knows_perform (knows : Knows asyncStepSize message database progress)
    (performed : progress.perform message fault database = some (.continues next, after)) :
    Knows asyncStepSize message after next := by
  cases progress with
  | findTask =>
    simp only [Progress.perform] at performed
    split at performed
    next task found =>
      obtain ⟨goes, rfl⟩ := Prod.mk.inj (Option.some.inj performed)
      obtain rfl := Outcome.continues.inj goes
      exact found
    next => cases performed
  | updateProcessing task =>
    rcases Progress.update_cases (Option.some.inj performed) with ⟨goes, rfl⟩ | ⟨fails, -⟩
    · obtain rfl := Outcome.continues.inj goes
      refine ⟨⟨found_updateTask knows, rfl⟩, ?_, fun loop member => ?_⟩
      · rw [List.map_map]
        exact List.map_id _
      · obtain ⟨symbol, -, rfl⟩ := List.mem_map.mp member
        exact .initial symbol
    · cases fails
  | executeUseCase task loops =>
    obtain ⟨found, symbols, fetched⟩ := knows
    obtain ⟨last, answered⟩ := enabled performed
    rcases Progress.query_cases answered fun _ => rfl with ⟨goes, rfl⟩ | ⟨fails, same⟩
    · obtain rfl := Outcome.continues.inj goes
      exact ⟨found, (systemCall_eq symbols fetched last fun _ held => held).symm⟩
    · obtain rfl := Outcome.continues.inj fails
      obtain rfl := or_self_iff.mp same
      exact knows_updateError _ found
  | createResults task results =>
    rcases Progress.query_outcome (Option.some.inj performed) with ⟨goes, same⟩ | ⟨fails, same⟩
    · obtain rfl := Outcome.continues.inj goes
      rcases same with rfl | ⟨-, rfl⟩
      · exact knows.1
      · exact knows.1
    · obtain rfl := Outcome.continues.inj fails
      rcases same with rfl | rfl
      · exact knows_updateError _ knows.1
      · exact knows_updateError (database.createResults _) knows.1
  | findExchanges task created =>
    rcases Progress.query_cases (Option.some.inj performed) fun _ => rfl with ⟨goes, rfl⟩ | ⟨fails, same⟩
    · obtain rfl := Outcome.continues.inj goes
      exact ⟨knows, rfl⟩
    · obtain rfl := Outcome.continues.inj fails
      obtain rfl := or_self_iff.mp same
      exact knows_updateError _ knows
  | createAssociations task created exchanges =>
    rcases Progress.query_outcome (Option.some.inj performed) with ⟨goes, same⟩ | ⟨fails, same⟩
    · obtain rfl := Outcome.continues.inj goes
      rcases same with rfl | ⟨-, rfl⟩
      · exact knows.1
      · exact knows.1
    · obtain rfl := Outcome.continues.inj fails
      rcases same with rfl | rfl
      · exact knows_updateError _ knows.1
      · exact knows_updateError (database.createAssociations _) knows.1
  | updateCompleted task =>
    obtain ⟨found, -⟩ := knows
    rcases Progress.update_cases (Option.some.inj performed) with ⟨goes, -⟩ | ⟨fails, same⟩
    · cases goes
    · obtain rfl := Outcome.continues.inj fails
      have left : Status.COMPLETED ≠ .ERROR := by decide
      rcases same with rfl | rfl
      · exact ⟨task, found, rfl, left⟩
      · exact ⟨_, found_updateTask found, rfl, left⟩
  | updateError task error =>
    rcases Progress.update_cases (Option.some.inj performed) with ⟨goes, -⟩ | ⟨fails, -⟩
    · cases goes
    · cases fails

theorem exists_stored {written : Database} (either : after = database ∨ after = written) :
    ∃ stored : Bool, after = if stored then written else database := by
  rcases either with rfl | rfl
  · exact ⟨false, rfl⟩
  · exact ⟨true, rfl⟩

section Tried

variable {Value : Type} {step : Step} {effect : Database → Value × Database}
  {rest : (Step → Option Fault) → Value → Worker Unit}

/-- A call under `try` is answered, and what follows it goes on. -/
theorem remainder_answered
    (tried : ∀ faults, remainder asyncStepSize faults message progress =
      Fallible.attempt (call faults step effect >>= rest faults) (handleError faults message.taskId))
    (early : Step.updateError ≠ step)
    (later : ∀ value, rest (Function.update faults step none) value = rest faults value) :
    ∃ others, remainder asyncStepSize others message progress database =
      Fallible.attempt (rest faults (effect database).1) (handleError faults message.taskId) (effect database).2 := by
  refine ⟨Function.update faults step none, ?_⟩
  rw [tried, call_update_self, Fallible.attempt_perform_bind, handleError_update early, later]

/-- A call under `try` throws, and the handler follows it. -/
theorem remainder_failed {task : AggregationTask}
    (tried : ∀ faults, remainder asyncStepSize faults message progress =
      Fallible.attempt (call faults step effect >>= rest faults) (handleError faults message.taskId))
    (early : Step.updateError ≠ step) (reached : after = database ∨ after = (effect database).2) :
    ∃ others, remainder asyncStepSize others message progress database =
      remainder asyncStepSize faults message (.updateError task (.failed step)) after := by
  obtain ⟨stored, rfl⟩ := exists_stored reached
  refine ⟨Function.update faults step (some (.throws stored)), ?_⟩
  rw [tried, call_update_self, Fallible.attempt_perform_bind, handleError_update early]
  rfl

end Tried

theorem remainder_executeUseCase (task : AggregationTask) (loops : List SymbolLoop) (faults : Step → Option Fault) :
    remainder asyncStepSize faults message (.executeUseCase task loops) =
      Fallible.attempt (call faults .executeUseCase (fun database =>
        (systemCall asyncStepSize message.params database.candleSticks, database)) >>= fun results =>
          saveTaskResults faults message.taskId message.params results >>= fun _ => complete faults message)
        (handleError faults message.taskId) := rfl

/-- What is left of `execute` goes on as the execution does. -/
private theorem remainder_perform (knows : Knows asyncStepSize message database progress)
    (performed : progress.perform message fault database = some (.continues next, after))
    (faults : Step → Option Fault) : ∃ others, remainder asyncStepSize others message progress database =
      remainder asyncStepSize faults message next after := by
  cases progress with
  | findTask =>
    simp only [Progress.perform] at performed
    split at performed
    next task found =>
      obtain ⟨goes, rfl⟩ := Prod.mk.inj (Option.some.inj performed)
      obtain rfl := Outcome.continues.inj goes
      refine ⟨Function.update faults .findTask none, ?_⟩
      rw [remainder, execute, initiateTaskStatus, findOneOrFail, call_update_self, aggregate_update (by decide),
        handleError_update (by decide)]
      simp only [update, call_update, ne_eq, reduceCtorEq, not_false_eq_true, Fallible.bind_apply, Fallible.perform,
        found]
      rfl
    next => cases performed
  | updateProcessing task =>
    rcases Progress.update_cases (Option.some.inj performed) with ⟨goes, rfl⟩ | ⟨fails, -⟩
    · obtain rfl := Outcome.continues.inj goes
      refine ⟨Function.update faults .updateProcessing none, ?_⟩
      rw [remainder, update, call_update_self, aggregate_update (by decide), handleError_update (by decide),
        updateTask_own (fun task => { task with status := .PROCESSING }) knows]
      rfl
    · cases fails
  | executeUseCase task loops =>
    obtain ⟨found, symbols, fetched⟩ := knows
    obtain ⟨last, answered⟩ := enabled performed
    rcases Progress.query_cases answered fun _ => rfl with ⟨goes, rfl⟩ | ⟨fails, same⟩
    · obtain rfl := Outcome.continues.inj goes
      rw [← systemCall_eq symbols fetched last fun _ held => held]
      apply remainder_answered (remainder_executeUseCase task loops) (by decide)
      intro results
      rw [saveTaskResults_update (by decide) (by decide) (by decide), complete_update (by decide)]
    · obtain rfl := Outcome.continues.inj fails
      exact remainder_failed (remainder_executeUseCase task loops) (by decide) same
  | createResults task results =>
    have tried (faults) : remainder asyncStepSize faults message (.createResults task results) =
        Fallible.attempt (call faults .createResults (fun database =>
          (database.results.numbered (results.map (formatResult message.taskId message.params)),
            database.createResults (results.map (formatResult message.taskId message.params)))) >>= fun created =>
              setResultsAssociations faults created message.params.exchangeNames >>= fun _ => complete faults message)
          (handleError faults message.taskId) := by
      rw [remainder, saveTaskResults, Fallible.bind_bind]
    have idle (rows : List DiscreteAggregationResult) (none : ¬ rows ≠ []) : database.createResults rows = database := by
      rw [not_not.mp none, Database.createResults_nil]
    rcases Progress.query_cases (Option.some.inj performed) (idle _) with ⟨goes, rfl⟩ | ⟨fails, same⟩
    · obtain rfl := Outcome.continues.inj goes
      apply remainder_answered tried (by decide)
      intro created
      rw [setResultsAssociations_update (by decide) (by decide), complete_update (by decide)]
    · obtain rfl := Outcome.continues.inj fails
      exact remainder_failed tried (by decide) same
  | findExchanges task created =>
    have tried (faults) : remainder asyncStepSize faults message (.findExchanges task created) =
        Fallible.attempt (call faults .findExchanges (fun database =>
          (database.findExchanges message.params.exchangeNames, database)) >>= fun exchanges =>
            call faults .createAssociations (fun database =>
              ((), database.createAssociations (joinTableData created exchanges))) >>= fun _ =>
                complete faults message) (handleError faults message.taskId) := by
      rw [remainder, setResultsAssociations, Fallible.bind_bind]
    rcases Progress.query_cases (Option.some.inj performed) fun _ => rfl with ⟨goes, rfl⟩ | ⟨fails, same⟩
    · obtain rfl := Outcome.continues.inj goes
      apply remainder_answered tried (by decide)
      intro exchanges
      rw [call_update (by decide), complete_update (by decide)]
    · obtain rfl := Outcome.continues.inj fails
      exact remainder_failed tried (by decide) same
  | createAssociations task created exchanges =>
    have idle (rows : List DiscreteAggregationExchange) (none : ¬ rows ≠ []) :
        database.createAssociations rows = database := by
      rw [not_not.mp none, Database.createAssociations_nil]
    have tried (faults) : remainder asyncStepSize faults message (.createAssociations task created exchanges) =
        Fallible.attempt (call faults .createAssociations (fun database =>
          ((), database.createAssociations (joinTableData created exchanges))) >>= fun _ => complete faults message)
          (handleError faults message.taskId) := rfl
    rcases Progress.query_cases (Option.some.inj performed) (idle _) with ⟨goes, rfl⟩ | ⟨fails, same⟩
    · obtain rfl := Outcome.continues.inj goes
      apply remainder_answered tried (by decide)
      intro _
      exact complete_update (by decide)
    · obtain rfl := Outcome.continues.inj fails
      exact remainder_failed tried (by decide) same
  | updateCompleted task =>
    obtain ⟨found, -⟩ := knows
    rcases Progress.update_cases (Option.some.inj performed) with ⟨goes, -⟩ | ⟨fails, same⟩
    · cases goes
    · obtain rfl := Outcome.continues.inj fails
      obtain ⟨stored, rfl⟩ := exists_stored same
      refine ⟨Function.update faults .updateCompleted (some (.throws stored)), ?_⟩
      rw [remainder, complete, update, call_update_self, handleError_update (by decide),
        updateTask_own (fun task => { task with status := .COMPLETED }) found]
      rfl
  | updateError task error =>
    rcases Progress.update_cases (Option.some.inj performed) with ⟨goes, -⟩ | ⟨fails, -⟩
    · cases goes
    · cases fails

private theorem knows_fetchBatch {index : ℕ} (knows : Knows asyncStepSize message database progress)
    (fetched : progress.fetchBatch message fault database asyncStepSize index = some next) :
    Knows asyncStepSize message database next := by
  cases progress with
  | executeUseCase task loops =>
    obtain ⟨found, symbols, read⟩ := knows
    obtain ⟨loop, held, more⟩ := Option.bind_eq_some_iff.mp fetched
    split at more
    next => cases more
    next unfinished =>
      cases fault with
      | none =>
        obtain rfl := Option.some.inj more
        have own := read loop (List.mem_of_getElem? held)
        refine ⟨found, ?_, fun other member => ?_⟩
        · rw [symbols_set held]
          exact symbols
        · rcases List.mem_or_eq_of_mem_set member with before | rfl
          · exact read other before
          · exact .fetch own rfl (eq_false_of_ne_true unfinished)
      | some stored =>
        obtain rfl := Option.some.inj more
        exact knows_updateError _ found
  | _ => cases fetched

private theorem remainder_fetchBatch {index : ℕ}
    (fetched : progress.fetchBatch message fault database asyncStepSize index = some next)
    (faults : Step → Option Fault) : ∃ others, remainder asyncStepSize others message progress database =
      remainder asyncStepSize faults message next database := by
  cases progress with
  | executeUseCase task loops =>
    obtain ⟨loop, held, more⟩ := Option.bind_eq_some_iff.mp fetched
    split at more
    next => cases more
    next unfinished =>
      cases fault with
      | none =>
        obtain rfl := Option.some.inj more
        exact ⟨faults, rfl⟩
      | some stored =>
        obtain rfl := Option.some.inj more
        exact remainder_failed (remainder_executeUseCase task loops) (by decide) (.inl rfl)
  | _ => cases fetched

/-- An execution that returns has done what is left of `execute`. -/
private theorem remainder_returns (knows : Knows asyncStepSize message database progress)
    (performed : progress.perform message fault database = some (.returned, after)) :
    ∃ faults, remainder asyncStepSize faults message progress database = (.returned (), after) := by
  refine ⟨fun _ => none, ?_⟩
  cases progress with
  | findTask =>
    simp only [Progress.perform] at performed
    split at performed
    next => cases performed
    next => cases performed
  | updateCompleted task =>
    rcases Progress.update_cases (Option.some.inj performed) with ⟨-, rfl⟩ | ⟨fails, -⟩
    · rw [updateTask_own (fun task => { task with status := .COMPLETED }) knows.1]
      rfl
    · cases fails
  | updateError task error =>
    obtain ⟨row, found, same, left⟩ := knows
    rcases Progress.update_cases (Option.some.inj performed) with ⟨-, rfl⟩ | ⟨fails, -⟩
    · rw [updateTask_save (fun task => { task with status := .ERROR, error := some error }) found
        (save_error same left)]
      rfl
    · cases fails
  | executeUseCase task loops =>
    obtain ⟨-, answered⟩ := enabled performed
    rcases Progress.query_outcome answered with ⟨goes, -⟩ | ⟨fails, -⟩
    · cases goes
    · cases fails
  | _ =>
    rcases Progress.query_outcome (Option.some.inj performed) with ⟨goes, -⟩ | ⟨fails, -⟩
    · cases goes
    · cases fails

/-- What an execution throws, what is left of `execute` throws. -/
private theorem remainder_throws (knows : Knows asyncStepSize message database progress)
    (performed : progress.perform message fault database = some (.threw, after)) :
    ∃ faults exception, remainder asyncStepSize faults message progress database = (.threw exception, after) := by
  cases progress with
  | findTask =>
    cases fault with
    | none =>
      cases found : database.tasks message.taskId with
      | none =>
        simp only [Progress.perform, found] at performed
        obtain rfl := (Prod.mk.inj (Option.some.inj performed)).2
        refine ⟨fun _ => none, .notFound, ?_⟩
        rw [remainder, execute, initiateTaskStatus, findOneOrFail]
        simp only [call, Fallible.bind_apply, Fallible.perform, found]
        rfl
      | some task =>
        simp only [Progress.perform, found] at performed
        cases performed
    | some stored =>
      obtain rfl := (Prod.mk.inj (Option.some.inj performed)).2
      exact ⟨fun _ => some (.throws false), .failed .findTask, rfl⟩
  | updateProcessing task =>
    rcases Progress.update_cases (Option.some.inj performed) with ⟨goes, -⟩ | ⟨-, same⟩
    · cases goes
    · obtain ⟨stored, rfl⟩ := exists_stored same
      refine ⟨fun _ => some (.throws stored), .failed .updateProcessing, ?_⟩
      rw [updateTask_own (fun task => { task with status := .PROCESSING }) knows]
      rfl
  | updateError task error =>
    obtain ⟨row, found, same, left⟩ := knows
    rcases Progress.update_cases (Option.some.inj performed) with ⟨goes, -⟩ | ⟨-, either⟩
    · cases goes
    · obtain ⟨stored, rfl⟩ := exists_stored either
      refine ⟨fun _ => some (.throws stored), .failed .updateError, ?_⟩
      rw [updateTask_save (fun task => { task with status := .ERROR, error := some error }) found
        (save_error same left)]
      rfl
  | executeUseCase task loops =>
    obtain ⟨-, answered⟩ := enabled performed
    rcases Progress.query_outcome answered with ⟨goes, -⟩ | ⟨fails, -⟩
    · cases goes
    · cases fails
  | _ =>
    rcases Progress.query_outcome (Option.some.inj performed) with ⟨goes, -⟩ | ⟨fails, -⟩
    · cases goes
    · cases fails

/-- Whatever it comes to next may crash. -/
private theorem remainder_stops (progress : Progress) (database : Database) :
    ∃ faults, remainder asyncStepSize faults message progress database = (.crashed, database) := by
  refine ⟨fun _ => some (.crashes false), ?_⟩
  cases progress with
  | findTask => rfl
  | updateProcessing task => rfl
  | executeUseCase task loops => rfl
  | createResults task results => rfl
  | findExchanges task created => rfl
  | createAssociations task created exchanges => rfl
  | updateCompleted task => rfl
  | updateError task error => rfl

end CandlesDiscreteAggregator

namespace AggregationTasks

open BaseAMQPWorker.State

/-- The event leaves the database to the execution of a delivery. -/
def LeavesDatabaseTo (tag : ℕ) : TaskEvent → Prop
  | .calls other _ | .fetchesBatch other _ _ => other = tag
  | .creates _ _ | .createThrows _ _ | .writesCandleSticks _ | .writesExchanges _ => False
  | .sends _ _ | .sendThrows _ | .answers _ | .queue _ => True

instance (tag : ℕ) : DecidablePred (LeavesDatabaseTo tag)
  | .calls other _ | .fetchesBatch other _ _ => inferInstanceAs (Decidable (other = tag))
  | .creates _ _ | .createThrows _ _ | .writesCandleSticks _ | .writesExchanges _ => isFalse id
  | .sends _ _ | .sendThrows _ | .answers _ | .queue _ => isTrue trivial

/-- How an execution has ended for the queue. One that has not may have crashed. -/
def EndsAs (worker : BaseAMQPWorker.State) (tag id : ℕ) : Ending Exception Unit → Prop
  | .returned _ => worker.executing tag = none ∧ id ∈ worker.record.executed
  | .threw _ => worker.executing tag = none ∧ ∃ message ∈ worker.record.failed, message.id = id
  | .crashed => worker.executing tag = some id

variable {tasks : AggregationTasks} {state next : TaskState} {event : TaskEvent} {events : List TaskEvent}
  {tag id : ℕ} {ending : Ending Exception Unit} {worker after : BaseAMQPWorker.State}

/-- An execution that has ended makes no more calls. -/
structure Ended (worker : BaseAMQPWorker.State) (tag id : ℕ) (ending : Ending Exception Unit) : Prop where
  delivered : worker.deliveries tag ≠ none
  finished : worker.executing tag = none
  ends : EndsAs worker tag id ending

theorem Ended.worker_step {queueEvent : BaseAMQPWorker.Event} (ended : Ended worker tag id ending)
    (stepped : worker.step tasks.retryLimit queueEvent = some after) : Ended after tag id ending := by
  have advances := step_advances stepped
  have finished : after.executing tag = none := by
    by_contra runs
    obtain ⟨other, executing⟩ := Option.ne_none_iff_exists'.mp runs
    rcases executing_of_advances advances executing with absent | before
    · exact ended.delivered absent
    · cases ended.finished.symm.trans before
  obtain ⟨executed, failed⟩ := record_grows stepped
  refine ⟨fun absent => ended.delivered (advances.kept tag absent), finished, ?_⟩
  have ends := ended.ends
  cases ending with
  | returned value => exact ⟨finished, executed ends.2⟩
  | threw exception =>
    obtain ⟨-, message, member, own⟩ := ends
    exact ⟨finished, message, failed member, own⟩
  | crashed => cases ended.finished.symm.trans ends

/-- An execution ends by what the queue is told. -/
theorem finished_of_ended {queueEvent : BaseAMQPWorker.Event} (executing : worker.executing tag = some id)
    (stepped : worker.step tasks.retryLimit queueEvent = some after)
    (ends : queueEvent = .succeeds tag ∨ queueEvent = .fails tag) :
    after.deliveries tag ≠ none ∧ after.executing tag = none := by
  have advances := step_advances stepped
  constructor
  · intro absent
    obtain ⟨delivery, found, -, -⟩ := executing_iff.mp executing
    cases (advances.kept tag absent).symm.trans found
  · by_contra runs
    obtain ⟨other, executing⟩ := Option.ne_none_iff_exists'.mp runs
    exact not_executing_of_ended advances ends executing

private theorem ended_of_succeeds (executing : worker.executing tag = some id)
    (stepped : worker.step tasks.retryLimit (.succeeds tag) = some after) : Ended after tag id (.returned ()) := by
  obtain ⟨delivered, finished⟩ := finished_of_ended executing stepped (.inl rfl)
  refine ⟨delivered, finished, finished, ?_⟩
  obtain ⟨delivery, found, guarded⟩ := Option.bind_eq_some_iff.mp stepped
  obtain ⟨-, rfl⟩ := enabled guarded
  exact message_of_executing executing found ▸ List.mem_cons_self

private theorem ended_of_fails {exception : Exception} (executing : worker.executing tag = some id)
    (stepped : worker.step tasks.retryLimit (.fails tag) = some after) : Ended after tag id (.threw exception) := by
  obtain ⟨delivered, finished⟩ := finished_of_ended executing stepped (.inr rfl)
  obtain ⟨delivery, found, guarded⟩ := Option.bind_eq_some_iff.mp stepped
  obtain ⟨-, rfl⟩ := enabled guarded
  refine ⟨delivered, finished, finished, delivery.message, ?_, message_of_executing executing found⟩
  rw [record_handleRetry]
  exact List.mem_append_right _ (List.mem_singleton.mpr rfl)

/-- After the end of its execution the database stays as it is. -/
theorem Ended.step (ended : Ended state.worker tag id ending) (alone : LeavesDatabaseTo tag event)
    (taken : tasks.step state event = some next) :
    next.database = state.database ∧ Ended next.worker tag id ending := by
  have idle {other : ℕ} (runs : state.worker.executing tag = some other) : False := by
    cases ended.finished.symm.trans runs
  cases step_transition taken with
  | created => cases alone
  | createdInVain => cases alone
  | notCreated => cases alone
  | sent asked message stepped => exact ⟨rfl, ended.worker_step stepped⟩
  | moved asked confirmed => exact ⟨rfl, ended⟩
  | queue goes stepped => exact ⟨rfl, ended.worker_step stepped⟩
  | fetched executing fetched =>
    obtain rfl : _ = tag := alone
    exact absurd executing idle
  | called executing performed =>
    obtain rfl : _ = tag := alone
    exact absurd executing idle
  | ended executing performed ends stepped =>
    obtain rfl : _ = tag := alone
    exact absurd executing idle
  | wroteCandleSticks => cases alone
  | wroteExchanges => cases alone

theorem Ended.run (run : Run tasks.step state events next) (alone : ∀ event ∈ events, LeavesDatabaseTo tag event)
    (ended : Ended state.worker tag id ending) :
    next.database = state.database ∧ Ended next.worker tag id ending := by
  induction run with
  | nil => exact ⟨rfl, ended⟩
  | cons taken rest ih =>
    obtain ⟨same, still⟩ := ended.step (alone _ List.mem_cons_self) taken
    obtain ⟨kept, final⟩ := ih (fun other member => alone other (List.mem_cons_of_mem _ member)) still
    exact ⟨kept.trans same, final⟩

private theorem continues_of_isStep {queueEvent : BaseAMQPWorker.Event} (goes : IsStep queueEvent = false) :
    EndsExecution queueEvent = false := by
  cases queueEvent with
  | succeeds other => cases goes
  | fails other => cases goes
  | _ => rfl

theorem progress_setProgress {progress : Progress} : (state.setProgress tag progress).progress tag = progress :=
  Function.update_self _ _ _

open CandlesDiscreteAggregator in
/-- From any call on, the execution does what is left of `execute`. -/
private theorem remainder_alone (run : Run tasks.step state events next)
    (alone : ∀ event ∈ events, LeavesDatabaseTo tag event) (executing : state.worker.executing tag = some id)
    (knows : Knows tasks.asyncStepSize (tasks.messages id) state.database (state.progress tag)) :
    ∃ faults ending, remainder tasks.asyncStepSize faults (tasks.messages id) (state.progress tag) state.database =
      (ending, next.database) ∧ EndsAs next.worker tag id ending := by
  induction run with
  | nil state =>
    obtain ⟨faults, crashed⟩ := remainder_stops (state.progress tag) state.database
    exact ⟨faults, .crashed, crashed, executing⟩
  | @cons state event middle events last taken rest ih =>
    have later : ∀ event ∈ events, LeavesDatabaseTo tag event :=
      fun other member => alone other (List.mem_cons_of_mem _ member)
    have own := alone event List.mem_cons_self
    cases step_transition taken with
    | created => cases own
    | createdInVain => cases own
    | notCreated => cases own
    | sent asked message stepped =>
      exact ih later (executing_of_continues stepped rfl executing) knows
    | moved asked confirmed => exact ih later executing knows
    | queue goes stepped =>
      exact ih later (executing_of_continues stepped (continues_of_isStep goes) executing) knows
    | fetched runs fetched =>
      obtain rfl : _ = tag := own
      obtain rfl := Option.some.inj (runs.symm.trans executing)
      rw [progress_setProgress] at ih
      obtain ⟨faults, ending, onward, ends⟩ := ih later executing (knows_fetchBatch knows fetched)
      obtain ⟨others, same⟩ := remainder_fetchBatch fetched faults
      exact ⟨others, ending, same.trans onward, ends⟩
    | called runs performed =>
      obtain rfl : _ = tag := own
      obtain rfl := Option.some.inj (runs.symm.trans executing)
      rw [progress_setProgress] at ih
      obtain ⟨faults, ending, onward, ends⟩ := ih later executing (knows_perform knows performed)
      obtain ⟨others, same⟩ := remainder_perform knows performed faults
      exact ⟨others, ending, same.trans onward, ends⟩
    | ended runs performed ends stepped =>
      obtain rfl : _ = tag := own
      obtain rfl := Option.some.inj (runs.symm.trans executing)
      rcases ends with ⟨rfl, rfl⟩ | ⟨rfl, rfl⟩
      · obtain ⟨faults, done⟩ := remainder_returns knows performed
        obtain ⟨kept, final⟩ := Ended.run rest later (ended_of_succeeds executing stepped)
        exact ⟨faults, _, by rw [done, kept], final.ends⟩
      · obtain ⟨faults, exception, done⟩ := remainder_throws knows performed
        obtain ⟨kept, final⟩ := Ended.run rest later (ended_of_fails executing stepped)
        exact ⟨faults, .threw exception, by rw [done, kept], final.ends⟩
    | wroteCandleSticks => cases own
    | wroteExchanges => cases own

/-- Between the events of the queue and of requests, the calls of an execution that has the
database to itself come to what `execute` does with faults of theirs. -/
theorem executions_alone (run : Run tasks.step state events next)
    (alone : ∀ event ∈ events, LeavesDatabaseTo tag event)
    (executing : state.worker.executing tag = some id) (begins : state.progress tag = .findTask) :
    ∃ faults ending, CandlesDiscreteAggregator.execute tasks.asyncStepSize faults (tasks.messages id) state.database =
      (ending, next.database) ∧ EndsAs next.worker tag id ending := by
  have done := remainder_alone run alone executing (begins ▸ trivial)
  rw [begins] at done
  exact done

section OneTask

def delivered : List TaskEvent :=
  [.creates 1 CandlesDiscreteAggregator.oneSymbol.params, .sends 1 0, .answers 1, .queue (.delivers 0 { id := 0 })]

/-- The channel is lost and the message requeued, while the execution goes on. -/
def requeuedMeanwhile : List TaskEvent :=
  [.calls 0 none, .calls 0 none, .fetchesBatch 0 0 none, .queue (.requeues 0), .calls 0 none, .calls 0 (some true)]

theorem executions_alone_requeuedMeanwhile : ∃ state next,
    Run oneTaskQueue.step (.initial [] [⟨1, "kraken"⟩]) delivered state ∧
      Run oneTaskQueue.step state requeuedMeanwhile next ∧ next.database.status 1 = some .PROCESSING ∧
      ∃ faults ending, CandlesDiscreteAggregator.execute 2 faults CandlesDiscreteAggregator.oneSymbol state.database =
        (ending, next.database) ∧ EndsAs next.worker 0 0 ending := by
  obtain ⟨state, next, came, run, executing, begins, processing⟩ : ∃ state next,
      Run oneTaskQueue.step (.initial [] [⟨1, "kraken"⟩]) delivered state ∧
        Run oneTaskQueue.step state requeuedMeanwhile next ∧ state.worker.executing 0 = some 0 ∧
        state.progress 0 = .findTask ∧ next.database.status 1 = some .PROCESSING :=
    ⟨_, _, run_iff_execute.mpr rfl, run_iff_execute.mpr rfl, rfl, rfl, rfl⟩
  exact ⟨state, next, came, run, processing, executions_alone run (by decide) executing begins⟩

end OneTask

end AggregationTasks

end PriceFeed.Workers
