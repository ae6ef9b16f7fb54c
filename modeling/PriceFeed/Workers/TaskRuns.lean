import PriceFeed.Workers.TaskLifecycle

/-! Runs of the aggregation tasks, from the requests to the results that are read. -/

namespace PriceFeed.Workers

open PriceFeed.Library PriceFeed.MarketRecords PriceFeed.UseCases BaseAMQPWorker.State

namespace TaskState

variable {state : TaskState} {taskId : ℕ} {request : TaskRequest}

/-- The parameters that the tasks have been created with. -/
def contexts (state : TaskState) (taskId : ℕ) : Option DiscreteAggregationParams :=
  (state.requests taskId).map TaskRequest.params

theorem requests_setRequest : (state.setRequest taskId request).requests =
    Function.update state.requests taskId (some request) := rfl

theorem progress_setProgress {tag : ℕ} {progress : Progress} :
    (state.setProgress tag progress).progress = Function.update state.progress tag progress := rfl

/-- A request that moves on keeps its parameters. -/
private theorem contexts_setRequest {moved : TaskRequest} (asked : state.requests taskId = some request)
    (same : moved.params = request.params) : (state.setRequest taskId moved).contexts = state.contexts := by
  funext other
  by_cases own : other = taskId
  · subst own
    rw [contexts, contexts, requests_setRequest, Function.update_self, asked, Option.map_some, Option.map_some, same]
  · rw [contexts, contexts, requests_setRequest, Function.update_of_ne own]

theorem mem_setRequest {other : ℕ} {found : TaskRequest}
    (member : (state.setRequest taskId request).requests other = some found) :
    other = taskId ∧ found = request ∨ state.requests other = some found := by
  by_cases own : other = taskId
  · subst own
    rw [requests_setRequest, Function.update_self] at member
    exact .inl ⟨rfl, (Option.some.inj member).symm⟩
  · rw [requests_setRequest, Function.update_of_ne own] at member
    exact .inr member

end TaskState

namespace AggregationTasks

variable (tasks : AggregationTasks) (tables : Tables)

structure Consistent (state : TaskState) : Prop where
  known : ∀ id, state.worker.Waiting id ∨ state.worker.Delivered id → id ∈ state.worker.record.accepted
  fresh : ∀ tag, state.worker.deliveries tag = none → state.progress tag = .findTask
  sent : ∀ id ∈ state.worker.record.accepted,
    state.contexts (tasks.messages id).taskId = some (tasks.messages id).params
  arrived : ∀ taskId, ∀ request ∈ state.requests taskId, request.arrived →
    ∃ id ∈ state.worker.record.accepted, tasks.messages id = ⟨taskId, request.params⟩
  answered : ∀ taskId, ∀ request ∈ state.requests taskId, request.stage = .answered → request.arrived
  stored : ∀ taskId, ∀ request ∈ state.requests taskId, (state.database.tasks taskId).isSome
  executed : ∀ id ∈ state.worker.record.executed, state.database.LeftPending (tasks.messages id).taskId
  reached : ∀ tag id, state.worker.executing tag = some id →
    Reached tasks.asyncStepSize tables (tasks.messages id) state.database (state.progress tag)
  sound : Sound tasks.asyncStepSize tables state.contexts state.database
  candleSticks : tables.candleSticks state.database.candleSticks
  exchanges : tables.exchanges state.database.exchanges

variable {tasks tables} {state next : TaskState} {event : TaskEvent} {tag id taskId : ℕ}

section Steps

variable (consistent : tasks.Consistent tables state)

include consistent

theorem Consistent.context_of_executing (executing : state.worker.executing tag = some id) :
    state.contexts (tasks.messages id).taskId = some (tasks.messages id).params :=
  consistent.sent id (consistent.known id (.inr (delivered_of_executing executing)))

/-- The queues go on. A message whose execution succeeds has its task under way. -/
theorem Consistent.advance {worker : BaseAMQPWorker.State} {queueEvent : BaseAMQPWorker.Event}
    (stepped : state.worker.step tasks.retryLimit queueEvent = some worker)
    (accepted : ∀ id, queueEvent = .accepts id →
      state.contexts (tasks.messages id).taskId = some (tasks.messages id).params)
    (succeeded : ∀ tag, queueEvent = .succeeds tag → ∀ delivery ∈ state.worker.deliveries tag,
      state.database.LeftPending (tasks.messages delivery.message.id).taskId) :
    tasks.Consistent tables { state with worker } := by
  have advances := step_advances stepped
  refine { consistent with known := ?_, fresh := ?_, sent := ?_, arrived := ?_, executed := ?_, reached := ?_ }
  · intro id either
    rcases advances.known id either with waiting | delivered | accepted
    · exact advances.accepted (consistent.known id (.inl waiting))
    · exact advances.accepted (consistent.known id (.inr delivered))
    · exact accepted
  · exact fun tag absent => consistent.fresh tag (advances.kept tag absent)
  · intro id member
    rcases accepted_of_step stepped member with before | accepts
    · exact consistent.sent id before
    · exact accepted id accepts
  · intro taskId request asked arrived
    obtain ⟨id, before, message⟩ := consistent.arrived taskId request asked arrived
    exact ⟨id, advances.accepted before, message⟩
  · intro id member
    rcases advances.executed id member with before | ⟨tag, succeeds, delivery, found, rfl⟩
    · exact consistent.executed id before
    · exact succeeded tag succeeds delivery found
  · intro tag id runs
    rcases executing_of_advances advances runs with absent | executing
    · have finding : state.progress tag = .findTask := consistent.fresh tag absent
      change Reached tasks.asyncStepSize tables (tasks.messages id) state.database (state.progress tag)
      rw [finding]
      trivial
    · exact consistent.reached tag id executing

theorem Consistent.write {database : Database} (grows : state.database.Grows database)
    (sound : Sound tasks.asyncStepSize tables state.contexts database)
    (candleSticks : tables.candleSticks database.candleSticks) (exchanges : tables.exchanges database.exchanges) :
    tasks.Consistent tables { state with database } where
  known := consistent.known
  fresh := consistent.fresh
  sent := consistent.sent
  arrived := consistent.arrived
  answered := consistent.answered
  stored taskId request asked := grows.present taskId (consistent.stored taskId request asked)
  executed id member := grows.leftPending _ (consistent.executed id member)
  reached tag id runs := (consistent.reached tag id runs).grows grows
  sound := sound
  candleSticks := candleSticks
  exchanges := exchanges

theorem Consistent.setProgress {progress : Progress} (executing : state.worker.executing tag = some id)
    (reached : Reached tasks.asyncStepSize tables (tasks.messages id) state.database progress) :
    tasks.Consistent tables (state.setProgress tag progress) := by
  refine { consistent with fresh := ?_, reached := ?_ }
  · intro other absent
    rw [TaskState.progress_setProgress, Function.update_of_ne (ne_tag_of_executing executing absent)]
    exact consistent.fresh other absent
  · intro other message runs
    by_cases own : other = tag
    · subst own
      obtain rfl := Option.some.inj (executing.symm.trans runs)
      rw [TaskState.progress_setProgress, Function.update_self]
      exact reached
    · rw [TaskState.progress_setProgress, Function.update_of_ne own]
      exact consistent.reached other message runs

theorem Consistent.setRequest {request moved : TaskRequest} (asked : state.requests taskId = some request)
    (same : moved.params = request.params) (answered : moved.stage = .answered → moved.arrived)
    (arrived : moved.arrived → ∃ id ∈ state.worker.record.accepted, tasks.messages id = ⟨taskId, moved.params⟩) :
    tasks.Consistent tables (state.setRequest taskId moved) := by
  have contexts := TaskState.contexts_setRequest asked same
  refine { consistent with sent := ?_, arrived := ?_, answered := ?_, stored := ?_, sound := ?_ }
  · intro id member
    rw [contexts]
    exact consistent.sent id member
  · intro other found member came
    rcases TaskState.mem_setRequest member with ⟨rfl, rfl⟩ | before
    · exact arrived came
    · exact consistent.arrived other found before came
  · intro other found member
    rcases TaskState.mem_setRequest member with ⟨rfl, rfl⟩ | before
    · exact answered
    · exact consistent.answered other found before
  · intro other found member
    rcases TaskState.mem_setRequest member with ⟨rfl, -⟩ | before
    · exact consistent.stored other request asked
    · exact consistent.stored other found before
  · rw [contexts]
    exact consistent.sound

end Steps

/-- What an event writes to the candle sticks and the exchanges. -/
def Writes (tables : Tables) : TaskEvent → Prop
  | .writesCandleSticks candleSticks => tables.candleSticks candleSticks
  | .writesExchanges exchanges => tables.exchanges exchanges
  | _ => True

theorem Consistent.createTask (consistent : tasks.Consistent tables state)
    (fresh : state.database.tasks taskId = none) : tasks.Consistent tables (state.createTask taskId) :=
  consistent.write (Database.grows_createTask fresh) (consistent.sound.createTask fresh) consistent.candleSticks
    consistent.exchanges

/-- The request of a task that has just been created. -/
theorem Consistent.request {params : DiscreteAggregationParams} (consistent : tasks.Consistent tables state)
    (unasked : state.requests taskId = none) (present : (state.database.tasks taskId).isSome) :
    tasks.Consistent tables (state.setRequest taskId { params := params }) := by
  have different : ∀ other, state.requests other ≠ none → other ≠ taskId := by
    rintro other asked rfl
    exact asked unasked
  have kept : ∀ other found, state.contexts other = some found →
      (state.setRequest taskId { params := params }).contexts other = some found := by
    intro other found context
    obtain ⟨request, asked, rfl⟩ := Option.map_eq_some_iff.mp context
    have other : other ≠ taskId := different other (asked ▸ Option.some_ne_none request)
    rw [TaskState.contexts, TaskState.requests_setRequest, Function.update_of_ne other, asked]
    rfl
  refine { consistent with sent := ?_, arrived := ?_, answered := ?_, stored := ?_, sound := ?_ }
  · exact fun id member => kept _ _ (consistent.sent id member)
  · intro other found member came
    rcases TaskState.mem_setRequest member with ⟨rfl, rfl⟩ | before
    · cases came
    · exact consistent.arrived other found before came
  · intro other found member
    rcases TaskState.mem_setRequest member with ⟨rfl, rfl⟩ | before
    · intro sending
      cases sending
    · exact consistent.answered other found before
  · intro other found member
    rcases TaskState.mem_setRequest member with ⟨rfl, -⟩ | before
    · exact present
    · exact consistent.stored other found before
  · exact consistent.sound.contexts_grow kept

/-- A call of an execution leaves what it writes consistent, and goes on where it may. -/
theorem Consistent.perform {fault : Option Bool} {outcome : Outcome} {database : Database}
    (consistent : tasks.Consistent tables state) (executing : state.worker.executing tag = some id)
    (performed : (state.progress tag).perform (tasks.messages id) fault state.database = some (outcome, database)) :
    tasks.Consistent tables { state with database } ∧
      outcome.Holds tasks.asyncStepSize tables (tasks.messages id) database := by
  have reached := consistent.reached tag id executing
  have context := consistent.context_of_executing executing
  obtain ⟨sound, grows, holds⟩ := perform_sound consistent.sound context consistent.exchanges reached performed
  obtain ⟨candleSticks, exchanges⟩ := Prod.mk.inj (Progress.elsewhere_perform performed)
  refine ⟨consistent.write grows sound ?_ ?_, holds⟩
  · rw [candleSticks]
    exact consistent.candleSticks
  · rw [exchanges]
    exact consistent.exchanges

theorem Consistent.step (consistent : tasks.Consistent tables state) (writes : Writes tables event)
    (taken : tasks.step state event = some next) : tasks.Consistent tables next := by
  cases step_transition taken with
  | @created taskId params fresh =>
    have unasked : state.requests taskId = none := by
      apply Option.eq_none_iff_forall_not_mem.mpr
      intro request asked
      have present := consistent.stored taskId request asked
      rw [fresh] at present
      cases present
    refine (consistent.createTask fresh).request unasked ?_
    rw [TaskState.createTask, Database.tasks_createTask, Function.update_self]
    rfl
  | createdInVain fresh => exact consistent.createTask fresh
  | notCreated => exact consistent
  | @sent taskId id request worker asked message stepped =>
    have context : state.contexts taskId = some request.params := congrArg (Option.map TaskRequest.params) asked
    have advanced : tasks.Consistent tables { state with worker } := by
      apply consistent.advance stepped
      · intro other accepts
        obtain rfl := BaseAMQPWorker.Event.accepts.inj accepts
        rw [message]
        exact context
      · intro tag succeeds
        cases succeeds
    exact advanced.setRequest asked rfl (fun _ => rfl) fun _ => ⟨id, mem_accepted_of_step stepped, message⟩
  | @moved event taskId request stage asked confirmed =>
    exact consistent.setRequest asked rfl confirmed (consistent.arrived taskId request asked)
  | queue goes stepped =>
    apply consistent.advance stepped
    · rintro id rfl
      cases goes
    · rintro tag rfl
      cases goes
  | fetched executing fetched =>
    exact consistent.setProgress executing
      (fetchBatch_reached consistent.candleSticks (consistent.reached _ _ executing) fetched)
  | called executing performed =>
    obtain ⟨written, holds⟩ := consistent.perform executing performed
    exact written.setProgress executing holds
  | @ended tag id fault outcome event database worker executing performed ends stepped =>
    obtain ⟨written, holds⟩ := consistent.perform executing performed
    apply written.advance stepped
    · rintro other rfl
      rcases ends with ⟨-, accepts⟩ | ⟨-, accepts⟩
      · cases accepts
      · cases accepts
    · rintro other rfl delivery found
      rcases ends with ⟨rfl, succeeds⟩ | ⟨-, succeeds⟩
      · obtain rfl := BaseAMQPWorker.Event.succeeds.inj succeeds
        rw [message_of_executing executing found]
        exact holds
      · cases succeeds
  | wroteCandleSticks =>
    exact consistent.write (Database.grows_elsewhere _ _ _) (consistent.sound.elsewhere _ _) writes consistent.exchanges
  | wroteExchanges =>
    exact consistent.write (Database.grows_elsewhere _ _ _) (consistent.sound.elsewhere _ _) consistent.candleSticks writes

/-- No step takes a row away, or makes a task pending again. -/
theorem Consistent.grows (consistent : tasks.Consistent tables state) (taken : tasks.step state event = some next) :
    state.database.Grows next.database := by
  have performs : ∀ {tag id : ℕ} {fault : Option Bool} {outcome : Outcome} {database : Database},
      state.worker.executing tag = some id → (state.progress tag).perform (tasks.messages id) fault
        state.database = some (outcome, database) → state.database.Grows database := by
    intro tag id fault outcome database executing performed
    exact (perform_sound consistent.sound (consistent.context_of_executing executing) consistent.exchanges
      (consistent.reached tag id executing) performed).2.1
  cases step_transition taken with
  | created fresh => exact Database.grows_createTask fresh
  | createdInVain fresh => exact Database.grows_createTask fresh
  | called executing performed => exact performs executing performed
  | ended executing performed => exact performs executing performed
  | wroteCandleSticks => exact Database.grows_elsewhere _ _ _
  | wroteExchanges => exact Database.grows_elsewhere _ _ _
  | _ => exact Database.grows_refl

theorem worker_effect {changed : TaskState} (effect : tasks.effect state event = some changed) :
    changed.worker = state.worker := by
  cases event with
  | creates taskId params =>
    obtain ⟨-, rfl⟩ := enabled effect
    rfl
  | createThrows taskId stored =>
    obtain ⟨-, rfl⟩ := enabled effect
    cases stored with
    | true => rfl
    | false => rfl
  | sends taskId id =>
    obtain ⟨request, -, guarded⟩ := Option.bind_eq_some_iff.mp effect
    obtain ⟨-, rfl⟩ := enabled guarded
    rfl
  | sendThrows taskId =>
    obtain ⟨request, -, guarded⟩ := Option.bind_eq_some_iff.mp effect
    obtain ⟨-, rfl⟩ := enabled guarded
    rfl
  | answers taskId =>
    obtain ⟨request, -, guarded⟩ := Option.bind_eq_some_iff.mp effect
    obtain ⟨-, rfl⟩ := enabled guarded
    rfl
  | queue event =>
    obtain ⟨-, rfl⟩ := enabled effect
    rfl
  | fetchesBatch tag index fault =>
    obtain ⟨id, -, mapped⟩ := Option.bind_eq_some_iff.mp effect
    obtain ⟨progress, -, rfl⟩ := Option.map_eq_some_iff.mp mapped
    rfl
  | calls tag fault =>
    obtain ⟨id, -, mapped⟩ := Option.bind_eq_some_iff.mp effect
    obtain ⟨⟨outcome, database⟩, -, rfl⟩ := Option.map_eq_some_iff.mp mapped
    cases outcome with
    | continues progress => rfl
    | returned => rfl
    | threw => rfl
  | writesCandleSticks candleSticks =>
    obtain rfl := Option.some.inj effect
    rfl
  | writesExchanges exchanges =>
    obtain rfl := Option.some.inj effect
    rfl

def QueuesSound (tasks : AggregationTasks) (state : TaskState) : Prop := state.worker.Sound tasks.retryLimit

theorem QueuesSound.step (sound : tasks.QueuesSound state) (orderly : tasks.Orderly state event)
    (taken : tasks.step state event = some next) : tasks.QueuesSound next := by
  obtain ⟨changed, effect, -⟩ := Option.bind_eq_some_iff.mp taken
  cases means : tasks.queueEvent state event with
  | none =>
    rw [step_idle means effect taken, QueuesSound, worker_effect effect]
    exact sound
  | some queueEvent =>
    obtain ⟨worker, stepped, rfl⟩ := step_queues means effect taken
    exact BaseAMQPWorker.State.Sound.step sound (orderly queueEvent means) stepped

end AggregationTasks

section Runs

/-- No task has been created yet. -/
def TaskState.initial (candleSticks : List CandleStickRow) (exchanges : List Exchange) : TaskState where
  database := { tasks := fun _ => none, results := .empty, associations := .empty, exchanges, candleSticks }

/-- What the candle sticks and the exchanges are in a run. -/
def tablesOf (candleSticks : List CandleStickRow) (exchanges : List Exchange) (events : List TaskEvent) : Tables where
  candleSticks rows := rows = candleSticks ∨ .writesCandleSticks rows ∈ events
  exchanges rows := rows = exchanges ∨ .writesExchanges rows ∈ events

/-- `GetDiscreteAggregationTaskResults`: a task with the rows of its results. -/
def GetDiscreteAggregationTaskResults.execute (database : Database) (id : ℕ) :
    Option (AggregationTask × List (ℕ × DiscreteAggregationResult)) :=
  (database.tasks id).map fun task => (task, database.results.rows.filter fun row => row.2.taskId = id)

namespace AggregationTasks

variable {tasks : AggregationTasks} {tables : Tables} {candleSticks : List CandleStickRow}
  {exchanges : List Exchange}

theorem consistent_initial (held : tables.candleSticks candleSticks) (also : tables.exchanges exchanges) :
    tasks.Consistent tables (.initial candleSticks exchanges) where
  known id either := by
    rcases either with (⟨_, member, _⟩ | ⟨_, member, _⟩ | ⟨_, member, _⟩) | ⟨_, _, member, _⟩
    · cases member
    · cases member
    · cases member
    · cases member
  fresh _ _ := rfl
  sent _ member := nomatch member
  arrived _ _ asked := nomatch asked
  answered _ _ asked := nomatch asked
  stored _ _ asked := nomatch asked
  executed _ member := nomatch member
  reached _ _ executing := nomatch executing
  sound :=
    { known := fun _ ⟨_, found, _⟩ => nomatch found
      completed := fun _ _ found => nomatch found
      failed := fun _ _ found => nomatch found
      results := fun _ member => nomatch member
      associations := fun _ member => nomatch member }
  candleSticks := held
  exchanges := also

variable {events : List TaskEvent} {final : TaskState}

theorem consistent_of_writes (tables : Tables) (run : Run tasks.step (.initial candleSticks exchanges) events final)
    (held : tables.candleSticks candleSticks) (also : tables.exchanges exchanges)
    (writes : ∀ event ∈ events, Writes tables event) : tasks.Consistent tables final :=
  run.invariant_throughout Consistent.step (throughout_of_forall fun _ => writes) (consistent_initial held also)

theorem run_consistent (run : Run tasks.step (.initial candleSticks exchanges) events final) :
    tasks.Consistent (tablesOf candleSticks exchanges events) final := by
  apply consistent_of_writes (tablesOf candleSticks exchanges events) run (.inl rfl) (.inl rfl)
  intro event member
  cases event with
  | writesCandleSticks rows => exact .inr member
  | writesExchanges rows => exact .inr member
  | _ => trivial

/-- Of the tables nothing is said. -/
def anyTables : Tables where
  candleSticks _ := True
  exchanges _ := True

private theorem writes_anyTables (event : TaskEvent) : Writes anyTables event := by
  cases event <;> trivial

private theorem Consistent.grows_run {start : TaskState} (consistent : tasks.Consistent anyTables start)
    (run : Run tasks.step start events final) : start.database.Grows final.database := by
  induction run with
  | nil => exact Database.grows_refl
  | @cons start event middle rest last taken later ih =>
    exact (consistent.grows taken).trans (ih (consistent.step (writes_anyTables event) taken))

/-- A task is stored before its message is sent, and what has left it pending is not taken back.
While it is pending after its request has been answered its message waits in one of the queues,
or has been discarded after one failure more than the limit. -/
theorem pending_tasks_waiting (run : Run tasks.step (.initial candleSticks exchanges) events final)
    (orderly : Throughout tasks.step tasks.Orderly (.initial candleSticks exchanges) events) :
    (∀ id ∈ final.worker.record.accepted, final.database.status (tasks.messages id).taskId ≠ none) ∧
    (∀ earlier later middle,
      Run tasks.step (.initial candleSticks exchanges) earlier middle → Run tasks.step middle later final →
      ∀ taskId, middle.database.status taskId ≠ none → middle.database.status taskId ≠ some .PENDING →
        final.database.status taskId ≠ some .PENDING) ∧
    ∀ taskId, ∀ request ∈ final.requests taskId, request.stage = .answered →
      final.database.status taskId ≠ none ∧ (final.database.status taskId = some .PENDING →
        ∃ id, tasks.messages id = ⟨taskId, request.params⟩ ∧
          (final.worker.InPrimary id ∨ final.worker.InRetry id ∨
            final.worker.Discarded tasks.retryLimit id)) := by
  have consistent := run_consistent run
  have sound : tasks.QueuesSound final := run.invariant_throughout QueuesSound.step orderly sound_initial
  refine ⟨fun id accepted => ?_, fun earlier later middle before after taskId stored left => ?_,
    fun taskId request asked answered => ?_⟩
  · obtain ⟨request, asked, -⟩ := Option.map_eq_some_iff.mp (consistent.sent id accepted)
    obtain ⟨task, present⟩ := Option.isSome_iff_exists.mp (consistent.stored _ request asked)
    rw [Database.status, present]
    exact Option.some_ne_none _
  · have reached := consistent_of_writes anyTables before trivial trivial fun event _ => writes_anyTables event
    have kept := (reached.grows_run after).leftPending taskId (Database.leftPending_iff.mpr ⟨stored, left⟩)
    exact (Database.leftPending_iff.mp kept).2
  · obtain ⟨task, present⟩ := Option.isSome_iff_exists.mp (consistent.stored taskId request asked)
    have status : final.database.status taskId = some task.status := congrArg (Option.map AggregationTask.status) present
    refine ⟨by rw [status]; exact Option.some_ne_none _, fun pending => ?_⟩
    have arrived := consistent.answered taskId request asked answered
    obtain ⟨id, accepted, message⟩ := consistent.arrived taskId request asked arrived
    refine ⟨id, message, ?_⟩
    rcases BaseAMQPWorker.State.Sound.noneLost sound id accepted with executed | elsewhere
    · obtain ⟨found, held, left⟩ := consistent.executed id executed
      rw [message] at held
      obtain rfl := Option.some.inj (present.symm.trans held)
      exact absurd (Option.some.inj (status.symm.trans pending)) left
    · exact elsewhere

/-- What a client reads of a task is as its status says: nothing while it is pending, every
symbol once it is completed, beside the exchanges that it names, and an error where it failed. -/
theorem results_asTheirStatusSays (run : Run tasks.step (.initial candleSticks exchanges) events final) :
    ∀ taskId task results,
      GetDiscreteAggregationTaskResults.execute final.database taskId = some (task, results) →
      (task.status = .PENDING → results = []) ∧ (task.status = .ERROR → task.error ≠ none) ∧
      (task.status = .COMPLETED → ∃ request ∈ final.requests taskId, ∃ created ⊆ results, ∃ found,
        (created.map Prod.fst).Nodup ∧ created.map (fun row => row.2.symbol) = request.params.symbols ∧
        (tablesOf candleSticks exchanges events).exchanges found ∧
        ∀ row ∈ created, ∀ exchange ∈ found, exchange.name ∈ request.params.exchangeNames →
          ⟨row.1, exchange.id⟩ ∈ final.database.associations.rows.map Prod.snd) := by
  have sound := (run_consistent run).sound
  intro taskId task results read
  obtain ⟨row, found, same⟩ := Option.map_eq_some_iff.mp read
  obtain ⟨rfl, rfl⟩ := Prod.mk.inj same
  refine ⟨fun pending => ?_, sound.failed taskId row found, fun completed => ?_⟩
  · apply List.filter_eq_nil_iff.mpr
    intro result member own
    obtain ⟨other, held, left⟩ := (sound.results result member).1
    rw [of_decide_eq_true own] at held
    obtain rfl := Option.some.inj (found.symm.trans held)
    exact left pending
  · obtain ⟨params, context, created, exchanges, batch, held, associated⟩ :=
      sound.completed taskId row found completed
    obtain ⟨request, asked, rfl⟩ := Option.map_eq_some_iff.mp context
    refine ⟨request, asked, created, fun result member => ?_, exchanges, batch.distinct, batch.symbols, held,
      associated⟩
    exact List.mem_filter.mpr ⟨batch.stored member, decide_eq_true (batch.taskId result member)⟩

/-- Every stored result is one that the request of its task asks for, aggregated from
batches of the candle sticks there have been, and is put beside exchanges that it names. -/
theorem results_ofTheirRequests (run : Run tasks.step (.initial candleSticks exchanges) events final) :
    (∀ row ∈ final.database.results.rows, ∃ request ∈ final.requests row.2.taskId,
      ResultOf tasks.asyncStepSize (tablesOf candleSticks exchanges events)
        ⟨row.2.taskId, request.params⟩ row.2) ∧
    ∀ association ∈ final.database.associations.rows.map Prod.snd,
      ∃ row ∈ final.database.results.rows, row.1 = association.discreteAggregationResultId ∧
        ∃ request ∈ final.requests row.2.taskId,
          Named (tablesOf candleSticks exchanges events) ⟨row.2.taskId, request.params⟩ association := by
  have sound := (run_consistent run).sound
  constructor
  · intro row member
    obtain ⟨-, params, context, own⟩ := sound.results row member
    obtain ⟨request, asked, rfl⟩ := Option.map_eq_some_iff.mp context
    exact ⟨request, asked, own⟩
  · intro association member
    obtain ⟨row, stored, same, params, context, named⟩ := sound.associations association member
    obtain ⟨request, asked, rfl⟩ := Option.map_eq_some_iff.mp context
    exact ⟨row, stored, same, request, asked, named⟩

/-- Where the candle sticks stay as they are, a result is one of the use case's `systemCall`. -/
theorem results_ofSystemCall (run : Run tasks.step (.initial candleSticks exchanges) events final)
    (steady : ∀ rows, .writesCandleSticks rows ∉ events) :
    ∀ row ∈ final.database.results.rows, ∃ request ∈ final.requests row.2.taskId,
      row.2 ∈ (CandlesDiscreteAggregator.systemCall tasks.asyncStepSize request.params candleSticks).map
        (CandlesDiscreteAggregator.formatResult row.2.taskId request.params) := by
  have sound := (run_consistent run).sound
  intro row member
  obtain ⟨-, params, context, result, asked, aggregated, same⟩ := sound.results row member
  obtain ⟨request, created, rfl⟩ := Option.map_eq_some_iff.mp context
  have only : ∀ rows, (tablesOf candleSticks exchanges events).candleSticks rows → rows = candleSticks :=
    fun rows held => held.resolve_right (steady rows)
  exact ⟨request, created, List.mem_map.mpr ⟨result, Aggregated.mem_systemCall aggregated asked only, same.symm⟩⟩

section Redelivered

def oneTaskQueue : AggregationTasks where
  retryLimit := 3
  asyncStepSize := 2
  messages _ := CandlesDiscreteAggregator.oneSymbol

/-- The channel is lost while the first execution runs, and a second one is to take the message. -/
def requeued : List TaskEvent :=
  [.creates 1 CandlesDiscreteAggregator.oneSymbol.params, .sends 1 0, .answers 1,
    .queue (.delivers 0 { id := 0 }), .calls 0 none, .queue (.requeues 0)]

/-- The second execution comes to its end before the first has made its task `PROCESSING`. -/
def overtaken : List TaskEvent :=
  requeued ++ [.queue (.delivers 1 { id := 0 }), .calls 1 none, .calls 1 none, .fetchesBatch 1 0 none,
    .calls 1 none, .calls 1 none, .calls 1 none, .calls 1 none, .calls 1 none]

theorem pending_tasks_waiting_requeued : ∃ final, Run oneTaskQueue.step (.initial [] [⟨1, "kraken"⟩]) requeued final ∧
    final.database.status 1 = some .PENDING ∧ ∃ id, oneTaskQueue.messages id = CandlesDiscreteAggregator.oneSymbol ∧
      (final.worker.InPrimary id ∨ final.worker.InRetry id ∨ final.worker.Discarded 3 id) := by
  obtain ⟨final, run, request, pending⟩ : ∃ final,
      Run oneTaskQueue.step (.initial [] [⟨1, "kraken"⟩]) requeued final ∧
        final.requests 1 = some ⟨CandlesDiscreteAggregator.oneSymbol.params, .answered, true⟩ ∧
        final.database.status 1 = some .PENDING := ⟨_, run_iff_execute.mpr rfl, rfl, rfl⟩
  have orderly : Throughout oneTaskQueue.step oneTaskQueue.Orderly (.initial [] [⟨1, "kraken"⟩]) requeued := by
    decide
  have waiting := (pending_tasks_waiting run orderly).2.2 1 _ request rfl
  exact ⟨final, run, pending, waiting.2 pending⟩

theorem results_asTheirStatusSays_overtaken : ∃ final task results,
    Run oneTaskQueue.step (.initial [] [⟨1, "kraken"⟩]) overtaken final ∧
      GetDiscreteAggregationTaskResults.execute final.database 1 = some (task, results) ∧
      task.status = .COMPLETED ∧ ∃ request ∈ final.requests 1, ∃ created ⊆ results,
        created.map (fun row => row.2.symbol) = request.params.symbols := by
  obtain ⟨final, task, results, run, read, completed⟩ : ∃ final task results,
      Run oneTaskQueue.step (.initial [] [⟨1, "kraken"⟩]) overtaken final ∧
        GetDiscreteAggregationTaskResults.execute final.database 1 = some (task, results) ∧
        task.status = .COMPLETED := ⟨_, _, _, run_iff_execute.mpr rfl, rfl, rfl⟩
  obtain ⟨request, asked, created, among, -, -, symbols, -⟩ :=
    (results_asTheirStatusSays run 1 task results read).2.2 completed
  exact ⟨final, task, results, run, read, completed, request, asked, created, among, symbols⟩

theorem results_ofTheirRequests_overtaken : ∃ final,
    Run oneTaskQueue.step (.initial [] [⟨1, "kraken"⟩]) overtaken final ∧
      ∀ row ∈ final.database.results.rows, ∃ request ∈ final.requests row.2.taskId,
        ResultOf 2 (tablesOf [] [⟨1, "kraken"⟩] overtaken) ⟨row.2.taskId, request.params⟩ row.2 := by
  obtain ⟨final, run⟩ : ∃ final, Run oneTaskQueue.step (.initial [] [⟨1, "kraken"⟩]) overtaken final :=
    ⟨_, run_iff_execute.mpr rfl⟩
  exact ⟨final, run, (results_ofTheirRequests run).1⟩

theorem results_ofSystemCall_overtaken : ∃ final,
    Run oneTaskQueue.step (.initial [] [⟨1, "kraken"⟩]) overtaken final ∧ final.database.results.rows ≠ [] ∧
      ∀ row ∈ final.database.results.rows, ∃ request ∈ final.requests row.2.taskId,
        row.2 ∈ (CandlesDiscreteAggregator.systemCall 2 request.params []).map
          (CandlesDiscreteAggregator.formatResult row.2.taskId request.params) := by
  obtain ⟨final, run, some⟩ : ∃ final, Run oneTaskQueue.step (.initial [] [⟨1, "kraken"⟩]) overtaken final ∧
      final.database.results.rows.length = 1 := ⟨_, run_iff_execute.mpr rfl, rfl⟩
  have steady : ∀ rows, .writesCandleSticks rows ∉ overtaken := by
    intro rows member
    simp [overtaken, requeued] at member
  refine ⟨final, run, ?_, results_ofSystemCall run steady⟩
  intro none
  rw [none] at some
  cases some

end Redelivered

end AggregationTasks

end Runs

end PriceFeed.Workers
