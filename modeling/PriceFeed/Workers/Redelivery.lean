import PriceFeed.Library.Runs
import PriceFeed.Workers.TaskOutcomes

/-! The deliveries of one aggregation task: every execution that gets as far as the insert
of its results adds a row for each symbol, whatever earlier executions have stored. -/

namespace PriceFeed.Workers

open PriceFeed.Library PriceFeed.MarketRecords PriceFeed.UseCases

/-- What the rest of the system writes leaves a task and its results alone. -/
structure Elsewhere (taskId : ℕ) (database written : Database) : Prop where
  task : written.tasks taskId = database.tasks taskId
  results : written.results.rows.filter (fun row => row.2.taskId = taskId) =
    database.results.rows.filter (fun row => row.2.taskId = taskId)

instance (taskId : ℕ) (database written : Database) : Decidable (Elsewhere taskId database written) :=
  decidable_of_iff (_ ∧ _) ⟨fun both => ⟨both.1, both.2⟩, fun both => ⟨both.task, both.results⟩⟩

/-- The result rows of a task for one symbol. -/
def Database.taskRows (database : Database) (taskId : ℕ) (symbol : String) : ℕ :=
  database.results.rows.countP fun row => row.2.taskId = taskId ∧ row.2.symbol = symbol

/-- The task has a single result row for each requested symbol, and no other. -/
def OneRowPerSymbol (message : Message) (database : Database) : Prop :=
  ∀ symbol, database.taskRows message.taskId symbol = if symbol ∈ message.params.symbols then 1 else 0

namespace CandlesDiscreteAggregator

inductive TaskEvent where
  | delivers (faults : Step → Option Fault)
  | elsewhere (written : Database)

/-- The insert of the results is reached, and its rows are stored. -/
def StoresResults (faults : Step → Option Fault) : Prop :=
  faults .findTask = none ∧ faults .updateProcessing = none ∧ faults .executeUseCase = none ∧
    ∀ fault ∈ faults .createResults, fault.stored

instance (faults : Step → Option Fault) : Decidable (StoresResults faults) :=
  inferInstanceAs (Decidable (_ ∧ _ ∧ _ ∧ _))

def TaskEvent.storesResults : TaskEvent → Bool
  | .delivers faults => StoresResults faults
  | .elsewhere _ => false

section Deliveries

variable (asyncStepSize : ℕ+) (message : Message)

/-- A redelivery runs the whole of `execute` again on what is stored by then. -/
def taskStep (database : Database) : TaskEvent → Option Database
  | .delivers faults => some (execute asyncStepSize faults message database).2
  | .elsewhere written => if Elsewhere message.taskId database written then some written else none

/-- A delivery that comes to its end and leaves the task completed. -/
def CompletesNormally (faults : Step → Option Fault) (before after : Database) : Prop :=
  execute asyncStepSize faults message before = (.returned (), after) ∧
    after.status message.taskId = some .COMPLETED

end Deliveries

variable {asyncStepSize : ℕ+} {faults : Step → Option Fault} {message : Message}
  {database before after : Database} {taskId : ℕ}

section Keeps

variable {Measure : Type*} {measure : Database → Measure}

theorem keeps_update {step : Step} {change : AggregationTask → AggregationTask}
    (kept : ∀ database, measure (database.updateTask taskId change) = measure database) :
    Fallible.Keeps measure (update faults step taskId change) :=
  Fallible.keeps_perform kept

private theorem keeps_findOneOrFail : Fallible.Keeps measure (findOneOrFail faults taskId) := by
  refine Fallible.Keeps.bind (Fallible.keeps_perform fun _ => rfl) fun found => ?_
  cases found with
  | none => exact Fallible.keeps_throwing
  | some task => exact Fallible.keeps_pure

theorem keeps_initiateTaskStatus
    (kept : ∀ database change, measure (database.updateTask taskId change) = measure database) :
    Fallible.Keeps measure (initiateTaskStatus faults taskId) :=
  keeps_findOneOrFail.bind fun _ => keeps_update fun database => kept database _

theorem keeps_setResultsAssociations {results : List (ℕ × DiscreteAggregationResult)}
    {exchangeNames : List String}
    (kept : ∀ database rows, measure (database.createAssociations rows) = measure database) :
    Fallible.Keeps measure (setResultsAssociations faults results exchangeNames) :=
  (Fallible.keeps_perform fun _ => rfl).bind fun _ => Fallible.keeps_perform fun database => kept database _

end Keeps

private theorem results_saveTaskResults {params : DiscreteAggregationParams}
    {results : List DiscreteAggregation.AggregationResult} :
    (saveTaskResults faults taskId params results database).2.results =
      if ∀ fault ∈ faults .createResults, fault.stored then
        database.results.bulkCreate (results.map (formatResult taskId params))
      else database.results := by
  have inserted : (saveTaskResults faults taskId params results database).2.results = _ :=
    Fallible.measure_bind (fun _ => keeps_setResultsAssociations fun _ _ => rfl) database
  rw [inserted, call, Fallible.snd_perform, apply_ite Database.results]
  rfl

/-- The use case and the insert of its results decide what `aggregate` adds. -/
private theorem results_aggregate : (aggregate asyncStepSize faults message database).2.results =
    if faults .executeUseCase = none ∧ ∀ fault ∈ faults .createResults, fault.stored then
      (withResults asyncStepSize message database).results else database.results := by
  rcases Fallible.bind_cases (executeUseCase asyncStepSize faults message.params)
    (fun results => do
      saveTaskResults faults message.taskId message.params results
      update faults .updateCompleted message.taskId fun task => { task with status := .COMPLETED })
    database with ⟨results, read, useCase, onward⟩ | ⟨failed, ended⟩
  · obtain ⟨fine, rfl, rfl⟩ := call_returned useCase
    have saved : (aggregate asyncStepSize faults message read).2.results = _ :=
      (congrArg (fun ended => ended.2.results) onward).trans
        (Fallible.measure_bind (fun _ => keeps_update fun _ => rfl) read)
    rw [saved, results_saveTaskResults]
    simp only [fine, true_and]
    rfl
  · have faulty : faults .executeUseCase ≠ none := by
      intro fine
      exact failed _ (congrArg Prod.fst (Fallible.perform_returned_iff.mpr ⟨fine, rfl⟩))
    have kept : (aggregate asyncStepSize faults message database).2.results = _ :=
      congrArg Database.results ended
    rw [kept, if_neg fun both => faulty both.1]
    exact Fallible.keeps_perform (fun _ => rfl) database

theorem initiateTaskStatus_returned_iff {task : AggregationTask}
    (found : database.tasks taskId = some task) :
    initiateTaskStatus faults taskId database =
        (.returned (), database.updateTask taskId fun task => { task with status := .PROCESSING }) ↔
      faults .findTask = none ∧ faults .updateProcessing = none := by
  constructor
  · intro returned
    obtain ⟨task, middle, lookup, update⟩ := Fallible.bind_returned_iff.mp returned
    obtain ⟨_, _, call, -⟩ := Fallible.bind_returned_iff.mp lookup
    exact ⟨(call_returned call).1, (call_returned update).1⟩
  · rintro ⟨looked, updated⟩
    have lookup : findOneOrFail faults taskId database = (.returned task, database) :=
      Fallible.bind_returned_iff.mpr
        ⟨some task, database, Fallible.perform_returned_iff.mpr ⟨looked, by rw [found]⟩, rfl⟩
    refine Fallible.bind_returned_iff.mpr ⟨task, database, lookup, ?_⟩
    rw [update, call]
    exact Fallible.perform_returned_iff.mpr ⟨updated, rfl⟩

private theorem results_execute {task : AggregationTask} (found : database.tasks message.taskId = some task) :
    (execute asyncStepSize faults message database).2.results =
      if StoresResults faults then (withResults asyncStepSize message database).results
      else database.results := by
  rcases Fallible.bind_cases (initiateTaskStatus faults message.taskId)
    (fun _ => Fallible.attempt (aggregate asyncStepSize faults message) (handleError faults message.taskId))
    database with ⟨_, started, initiate, onward⟩ | ⟨failed, ended⟩
  · obtain ⟨-, rfl⟩ := initiateTaskStatus_returned initiate
    obtain ⟨looked, updated⟩ := (initiateTaskStatus_returned_iff found).mp initiate
    have tried : (execute asyncStepSize faults message database).2.results = _ :=
      (congrArg (fun ended => ended.2.results) onward).trans
        (Fallible.measure_attempt (fun _ => keeps_update fun _ => rfl) _)
    rw [tried, results_aggregate]
    simp only [StoresResults, looked, updated, true_and]
    rfl
  · have faulty : ¬ StoresResults faults := by
      rintro ⟨looked, updated, -⟩
      exact failed () (congrArg Prod.fst ((initiateTaskStatus_returned_iff found).mpr ⟨looked, updated⟩))
    have kept : (execute asyncStepSize faults message database).2.results = _ :=
      congrArg Database.results ended
    rw [kept, if_neg faulty]
    exact keeps_initiateTaskStatus (fun _ _ => rfl) database

private theorem keeps_execute : Fallible.Keeps (fun database => (database.tasks message.taskId).isSome)
    (execute asyncStepSize faults message) := by
  have updated : ∀ (database : Database) (change : AggregationTask → AggregationTask),
      ((database.updateTask message.taskId change).tasks message.taskId).isSome =
        (database.tasks message.taskId).isSome := by
    simp
  refine (keeps_initiateTaskStatus updated).bind fun _ => Fallible.Keeps.attempt ?_ fun _ => ?_
  · refine (Fallible.keeps_perform fun _ => rfl).bind fun results => ?_
    refine Fallible.Keeps.bind ?_ fun _ => keeps_update fun database => updated database _
    exact (Fallible.keeps_perform fun _ => rfl).bind fun _ => keeps_setResultsAssociations fun _ _ => rfl
  · exact keeps_update fun database => updated database _

private theorem taskRows_withResults (asyncStepSize : ℕ+) (message : Message) (database : Database) (symbol : String) :
    (withResults asyncStepSize message database).taskRows message.taskId symbol =
      database.taskRows message.taskId symbol + message.params.symbols.count symbol := by
  have own : ∀ row ∈ database.results.numbered (formattedResults asyncStepSize message database),
      row.2.taskId = message.taskId := by
    intro row member
    have formatted : row.2 ∈ formattedResults asyncStepSize message database := by
      rw [← database.results.map_snd_numbered (formattedResults asyncStepSize message database)]
      exact List.mem_map_of_mem member
    obtain ⟨_, -, same⟩ := List.mem_map.mp formatted
    rw [← same]
    rfl
  rw [← countP_numbered asyncStepSize message database symbol, Database.taskRows, Database.taskRows,
    withResults, Database.createResults, SerialTable.bulkCreate, List.countP_append]
  congr 1
  refine List.countP_congr fun row member => ?_
  simp [own row member]

theorem taskRows_execute (found : (database.tasks message.taskId).isSome) (symbol : String) :
    (execute asyncStepSize faults message database).2.taskRows message.taskId symbol =
      database.taskRows message.taskId symbol +
        if StoresResults faults then message.params.symbols.count symbol else 0 := by
  obtain ⟨task, present⟩ := Option.isSome_iff_exists.mp found
  rw [Database.taskRows, results_execute present]
  split
  · exact taskRows_withResults asyncStepSize message database symbol
  · rfl

private theorem taskRows_elsewhere {written : Database} (elsewhere : Elsewhere taskId database written)
    (symbol : String) : written.taskRows taskId symbol = database.taskRows taskId symbol := by
  have filtered : ∀ database : Database, database.taskRows taskId symbol =
      (database.results.rows.filter fun row => row.2.taskId = taskId).countP
        fun row => row.2.symbol = symbol := by
    intro database
    rw [Database.taskRows, List.countP_filter]
    exact List.countP_congr fun row _ => by simp [and_comm]
  rw [filtered written, filtered database, elsewhere.results]

private theorem taskRows_run {events : List TaskEvent} (run : Run (taskStep asyncStepSize message) before events after) :
    (after.tasks message.taskId).isSome = (before.tasks message.taskId).isSome ∧
      ((before.tasks message.taskId).isSome → ∀ symbol, after.taskRows message.taskId symbol =
        before.taskRows message.taskId symbol +
          events.countP TaskEvent.storesResults * message.params.symbols.count symbol) := by
  induction run with
  | nil => simp
  | @cons before event middle events after next _ ih =>
    obtain ⟨kept, added⟩ := ih
    cases event with
    | delivers faults =>
      obtain rfl := Option.some.inj next
      have present : ((execute asyncStepSize faults message before).2.tasks message.taskId).isSome =
          (before.tasks message.taskId).isSome := keeps_execute before
      rw [present] at kept added
      refine ⟨kept, fun found symbol => ?_⟩
      rw [added found, taskRows_execute found, List.countP_cons, TaskEvent.storesResults, Nat.add_mul,
        Nat.add_assoc, Nat.add_comm (_ * _)]
      simp
    | elsewhere written =>
      obtain ⟨elsewhere, rfl⟩ := enabled next
      rw [elsewhere.task] at kept added
      refine ⟨kept, fun found symbol => ?_⟩
      rw [added found, taskRows_elsewhere elsewhere]
      simp [TaskEvent.storesResults]

theorem CompletesNormally.storesResults (normal : CompletesNormally asyncStepSize message faults before after) :
    StoresResults faults := by
  obtain ⟨returned, status⟩ := normal
  obtain ⟨_, _, initiate, -⟩ := Fallible.bind_returned_iff.mp returned
  obtain ⟨⟨task, found⟩, rfl⟩ := initiateTaskStatus_returned initiate
  obtain ⟨looked, updated⟩ := (initiateTaskStatus_returned_iff found).mp initiate
  obtain ⟨started, row, -, -, present, ⟨noFault, -⟩ | ⟨step, stored, error, -, ended⟩⟩ := execute_returned returned
  · have fine : ∀ step ∈ tried, faults step = none := by
      simpa [firstFault] using noFault
    refine ⟨looked, updated, fine _ (by simp [tried]), ?_⟩
    simp [fine .createResults (by simp [tried])]
  · obtain ⟨row, kept⟩ := tasks_reached asyncStepSize present step stored
    rw [ended, Database.status_updateTask _ kept] at status
    cases status

private theorem mul_count_eq_one_iff {symbols : List String} {earlier : ℕ} :
    (∀ symbol, (earlier + 1) * symbols.count symbol = if symbol ∈ symbols then 1 else 0) ↔
      symbols = [] ∨ symbols.Nodup ∧ earlier = 0 := by
  constructor
  · intro one
    rcases symbols with _ | ⟨first, rest⟩
    · exact .inl rfl
    · have single : ∀ symbol ∈ first :: rest, (earlier + 1) * (first :: rest).count symbol = 1 :=
        fun symbol requested => (one symbol).trans (if_pos requested)
      have once := Nat.eq_one_of_mul_eq_one_right (single first List.mem_cons_self)
      refine .inr ⟨List.nodup_iff_count_eq_one.mpr fun symbol requested => ?_, Nat.succ.inj once⟩
      exact Nat.eq_one_of_mul_eq_one_left (single symbol requested)
  · rintro (rfl | ⟨distinct, rfl⟩) symbol
    · simp
    · simp [distinct.count]

/-- After the delivery that completes normally, a task whose results had not been stored
before its deliveries has one row for each requested symbol exactly when no symbol is
requested, or the symbols are distinct and no earlier delivery has stored its results. -/
theorem oneRowPerSymbol_iff {events : List TaskEvent} {middle : Database}
    (run : Run (taskStep asyncStepSize message) before events middle)
    (fresh : ∀ symbol, before.taskRows message.taskId symbol = 0)
    (normal : CompletesNormally asyncStepSize message faults middle after) :
    OneRowPerSymbol message after ↔ message.params.symbols = [] ∨
      message.params.symbols.Nodup ∧ ∀ event ∈ events, ¬ event.storesResults := by
  obtain ⟨returned, -⟩ := id normal
  obtain ⟨_, _, initiate, -⟩ := Fallible.bind_returned_iff.mp returned
  obtain ⟨⟨task, found⟩, -⟩ := initiateTaskStatus_returned initiate
  obtain ⟨kept, added⟩ := taskRows_run run
  have present : (middle.tasks message.taskId).isSome := Option.isSome_iff_exists.mpr ⟨task, found⟩
  have rows : ∀ symbol, after.taskRows message.taskId symbol =
      (events.countP TaskEvent.storesResults + 1) * message.params.symbols.count symbol := by
    intro symbol
    have delivered : (execute asyncStepSize faults message middle).2.taskRows message.taskId symbol =
        middle.taskRows message.taskId symbol +
          if StoresResults faults then message.params.symbols.count symbol else 0 :=
      taskRows_execute present symbol
    rw [returned, if_pos normal.storesResults, added (kept ▸ present), fresh] at delivered
    rw [delivered]
    ring
  rw [← List.countP_eq_zero, ← mul_count_eq_one_iff]
  simp only [OneRowPerSymbol, rows]

section OneSymbol

/-- The process stops once a call has had its effect. -/
def stopsAfter (stopped step : Step) : Option Fault :=
  if step = stopped then some (.crashes true) else none

theorem oneRowPerSymbol_stoppedBefore :
    OneRowPerSymbol oneSymbol (execute 1 (fun _ => none) oneSymbol
      (execute 1 (stopsAfter .executeUseCase) oneSymbol oneTask).2).2 := by
  have run : Run (taskStep 1 oneSymbol) oneTask [.delivers (stopsAfter .executeUseCase)] _ :=
    .cons rfl (.nil _)
  have fresh : ∀ symbol, oneTask.taskRows 1 symbol = 0 := fun _ => rfl
  have normal : CompletesNormally 1 oneSymbol (fun _ => none)
      (execute 1 (stopsAfter .executeUseCase) oneSymbol oneTask).2 _ := ⟨rfl, rfl⟩
  have unstored : ¬ StoresResults (stopsAfter .executeUseCase) := by decide
  refine (oneRowPerSymbol_iff run fresh normal).mpr (.inr ⟨by decide, ?_⟩)
  simpa [TaskEvent.storesResults] using unstored

/-- The consumer stops after the insert of the results, and the message is delivered again. -/
theorem redelivery_duplicates : ∃ single redelivered after,
    CompletesNormally 1 oneSymbol (fun _ => none) oneTask single ∧ single.taskRows 1 "BTC/EUR" = 1 ∧
      Run (taskStep 1 oneSymbol) oneTask [.delivers (stopsAfter .createResults)] redelivered ∧
      CompletesNormally 1 oneSymbol (fun _ => none) redelivered after ∧
      after.taskRows 1 "BTC/EUR" = 2 ∧ ¬ OneRowPerSymbol oneSymbol after := by
  refine ⟨_, _, _, ⟨rfl, rfl⟩, rfl, .cons rfl (.nil _), ⟨rfl, rfl⟩, rfl, ?_⟩
  intro single
  have one := single "BTC/EUR"
  contradiction

end OneSymbol

end CandlesDiscreteAggregator

end PriceFeed.Workers
