import PriceFeed.Library.FirstOfKey
import PriceFeed.Library.SerialTable
import PriceFeed.Workers.RetryPath

/-! `BaseMarketRecordWriter`: any number of executions that find or create the record of
their message, between the queues of `BaseAMQPWorker`, and what they send on to the
pricing queue. -/

namespace PriceFeed.Workers

open PriceFeed.Library

inductive CollectorType where
  | CANDLE_STICK
  | ORDER_BOOK
  | TICKER
  | TRADE
  | EXCHANGE_RATE
  deriving DecidableEq, Repr

/-- The columns of a record's unique index. -/
structure RecordKey where
  intervalStart : ℤ
  intervalEnd : ℤ
  marketId : ℕ
  deriving DecidableEq, Repr

/-- A record with the columns of its type. -/
structure MarketRecord (Contents : Type*) extends RecordKey where
  contents : Contents
  deriving DecidableEq, Repr

structure MarketRecordMessage (Contents : Type*) where
  exchange : String
  symbol : String
  payload : MarketRecord Contents
  collectorTraceId : String
  deriving DecidableEq, Repr

/-- What is sent to `WS_PRICING_QUEUE`. -/
structure PricingNotification (Contents : Type*) where
  exchange : String
  symbol : String
  payload : MarketRecord Contents
  type : CollectorType
  collectorTraceId : String
  deriving DecidableEq, Repr

inductive ExecutionStage where
  | finding
  | creating
  | announcing
  deriving DecidableEq, Repr

/-- The executions are kept by the tags of their deliveries. -/
structure WriterState (Contents : Type*) where
  worker : BaseAMQPWorker.State := {}
  rows : SerialTable (MarketRecord Contents) := .empty
  stages : ℕ → ExecutionStage := fun _ => .finding
  pricing : List (PricingNotification Contents) := []

inductive WriterEvent where
  | queue (event : BaseAMQPWorker.Event)
  | finds (tag : ℕ)
  | findThrows (tag : ℕ)
  | creates (tag : ℕ)
  | createThrows (tag : ℕ) (stored : Bool)
  | announces (tag : ℕ) (arrives : Bool)
  deriving DecidableEq, Repr

/-- The message that is being executed for a delivery. -/
def BaseAMQPWorker.State.executing (worker : BaseAMQPWorker.State) (tag : ℕ) : Option ℕ :=
  (worker.deliveries tag).bind fun delivery =>
    if delivery.stage = .executing then some delivery.message.id else none

variable {Contents : Type*}

namespace WriterState

variable (state : WriterState Contents)

def records : List (MarketRecord Contents) := state.rows.rows.map Prod.snd

/-- What `findOne` finds. -/
def holds (key : RecordKey) : Bool := state.records.any fun record => record.toRecordKey = key

def executing (tag : ℕ) : Option ℕ := state.worker.executing tag

def setStage (tag : ℕ) (stage : ExecutionStage) : WriterState Contents :=
  { state with stages := Function.update state.stages tag stage }

def create (record : MarketRecord Contents) : WriterState Contents :=
  { state with rows := state.rows.bulkCreate [record] }

end WriterState

/-- A writer of one type of record. The messages are known by their ids, and a record of
a market that is not in the database is refused. -/
structure MarketRecordWriter (Contents : Type*) where
  type : CollectorType
  retryLimit : ℕ
  markets : List ℕ
  messages : ℕ → MarketRecordMessage Contents

/-- An execution ends by the steps of its own. -/
def EndsExecution : BaseAMQPWorker.Event → Bool
  | .succeeds _ | .fails _ => true
  | _ => false

namespace MarketRecordWriter

variable (writer : MarketRecordWriter Contents) (state : WriterState Contents)

def record (id : ℕ) : MarketRecord Contents := (writer.messages id).payload

def notification (id : ℕ) : PricingNotification Contents where
  exchange := (writer.messages id).exchange
  symbol := (writer.messages id).symbol
  payload := (writer.messages id).payload
  type := writer.type
  collectorTraceId := (writer.messages id).collectorTraceId

/-- The database stores the record. -/
def accepts (id : ℕ) : Bool :=
  !state.holds (writer.record id).toRecordKey && decide ((writer.record id).marketId ∈ writer.markets)

/-- What an event means to the queues. -/
def queueEvent : WriterEvent → Option BaseAMQPWorker.Event
  | .queue event => some event
  | .finds tag => (state.executing tag).bind fun id =>
    if state.holds (writer.record id).toRecordKey then some (.succeeds tag) else none
  | .creates tag => (state.executing tag).bind fun id =>
    -- the index is looked at before the foreign key, and `findOrCreate` catches its violation
    if state.holds (writer.record id).toRecordKey then some (.succeeds tag)
    else if writer.accepts state id then none else some (.fails tag)
  | .announces tag _ => some (.succeeds tag)
  | .findThrows tag | .createThrows tag _ => some (.fails tag)

/-- What an event does to the records, the executions and the notifications. -/
def effect : WriterEvent → Option (WriterState Contents)
  | .queue event => if !EndsExecution event then some state else none
  | .finds tag => (state.executing tag).bind fun id =>
    if state.stages tag = .finding then
      if state.holds (writer.record id).toRecordKey then some state else some (state.setStage tag .creating)
    else none
  | .findThrows tag => if state.stages tag = .finding then some state else none
  | .creates tag => (state.executing tag).bind fun id =>
    if state.stages tag = .creating then
      if writer.accepts state id then some ((state.create (writer.record id)).setStage tag .announcing)
      else some state
    else none
  -- the connection may be lost after the record has been stored
  | .createThrows tag stored => (state.executing tag).bind fun id =>
    if state.stages tag = .creating then
      if stored && writer.accepts state id then some (state.create (writer.record id)) else some state
    else none
  -- the notification is not waited for
  | .announces tag arrives => (state.executing tag).bind fun id =>
    if state.stages tag = .announcing then
      some { state with
        pricing := if arrives then state.pricing ++ [writer.notification id] else state.pricing }
    else none

def step (event : WriterEvent) : Option (WriterState Contents) :=
  (writer.effect state event).bind fun changed =>
    match writer.queueEvent state event with
    | none => some changed
    | some queueEvent =>
      (state.worker.step writer.retryLimit queueEvent).map fun worker => { changed with worker }

/-- The retry path of the queues is kept to. -/
def Orderly (event : WriterEvent) : Prop :=
  ∀ queueEvent ∈ writer.queueEvent state event, state.worker.Orderly queueEvent

instance (event : WriterEvent) : Decidable (writer.Orderly state event) :=
  inferInstanceAs (Decidable (∀ queueEvent ∈ writer.queueEvent state event, state.worker.Orderly queueEvent))

/-- What a step can do. -/
inductive Transition : WriterEvent → WriterState Contents → Prop where
  | queue {event : BaseAMQPWorker.Event} {worker : BaseAMQPWorker.State} (goes : EndsExecution event = false)
      (stepped : state.worker.step writer.retryLimit event = some worker) :
      Transition (.queue event) { state with worker }
  | found {event : WriterEvent} {tag id : ℕ} {worker : BaseAMQPWorker.State} (executing : state.executing tag = some id)
      (held : state.holds (writer.record id).toRecordKey = true)
      (stepped : state.worker.step writer.retryLimit (.succeeds tag) = some worker) :
      Transition event { state with worker }
  | missed {tag id : ℕ} (executing : state.executing tag = some id) :
      Transition (.finds tag) (state.setStage tag .creating)
  | created {tag id : ℕ} (executing : state.executing tag = some id) (accepted : writer.accepts state id = true) :
      Transition (.creates tag) ((state.create (writer.record id)).setStage tag .announcing)
  | failed {event : WriterEvent} {tag : ℕ} {worker : BaseAMQPWorker.State}
      (stepped : state.worker.step writer.retryLimit (.fails tag) = some worker) :
      Transition event { state with worker }
  | createdAndFailed {tag id : ℕ} {worker : BaseAMQPWorker.State} (executing : state.executing tag = some id)
      (accepted : writer.accepts state id = true)
      (stepped : state.worker.step writer.retryLimit (.fails tag) = some worker) :
      Transition (.createThrows tag true) { state.create (writer.record id) with worker }
  | announced {tag id : ℕ} {arrives : Bool} {worker : BaseAMQPWorker.State}
      (executing : state.executing tag = some id)
      (announcing : state.stages tag = .announcing)
      (stepped : state.worker.step writer.retryLimit (.succeeds tag) = some worker) :
      Transition (.announces tag arrives) { state with
        worker, pricing := if arrives then state.pricing ++ [writer.notification id] else state.pricing }

end MarketRecordWriter

/-! What a step of the queues can do. -/

namespace BaseAMQPWorker.State

variable (state : State)

/-- The message is in a queue or in publication. -/
def Waiting (id : ℕ) : Prop :=
  (∃ message ∈ state.ready, message.id = id) ∨ (∃ message ∈ state.retryQueue, message.id = id) ∨
    ∃ publication ∈ state.publications, publication.2.id = id

def Delivered (id : ℕ) : Prop := ∃ tag, ∃ delivery ∈ state.deliveries tag, delivery.message.id = id

structure Advances (event : Event) (next : State) : Prop where
  accepted : state.record.accepted ⊆ next.record.accepted
  executed : ∀ id ∈ next.record.executed, id ∈ state.record.executed ∨
    ∃ tag, event = .succeeds tag ∧ ∃ delivery ∈ state.deliveries tag, delivery.message.id = id
  deliveries : ∀ tag, ∀ after ∈ next.deliveries tag, state.deliveries tag = none ∨
    ∃ before ∈ state.deliveries tag, before.message = after.message ∧
      (after.stage = .executing → before.stage = .executing)
  ended : ∀ tag, event = .succeeds tag ∨ event = .fails tag →
    ∀ delivery ∈ next.deliveries tag, delivery.stage ≠ .executing
  kept : ∀ tag, next.deliveries tag = none → state.deliveries tag = none
  known : ∀ id, next.Waiting id ∨ next.Delivered id →
    state.Waiting id ∨ state.Delivered id ∨ id ∈ next.record.accepted

variable {state} {next middle : State} {event : Event} {tag retryLimit : ℕ} {delivery changed : Delivery}

theorem not_ends (idle : EndsExecution event = false) (other : ℕ) :
    ¬ (event = .succeeds other ∨ event = .fails other) := by
  intro ends
  rcases ends with rfl | rfl
  · cases idle
  · cases idle

/-- The queues and the record change beside a delivery that is not executed any more, or
goes on as it was. -/
theorem advances_setDelivery (found : state.deliveries tag = some delivery)
    (same : middle.deliveries = state.deliveries) (message : delivery.message = changed.message)
    (stage : changed.stage = .executing → delivery.stage = .executing)
    (ended : ∀ other, event = .succeeds other ∨ event = .fails other →
      other = tag ∧ changed.stage ≠ .executing)
    (accepted : state.record.accepted ⊆ middle.record.accepted)
    (executed : ∀ id ∈ middle.record.executed, id ∈ state.record.executed ∨
      event = .succeeds tag ∧ delivery.message.id = id)
    (waiting : ∀ id, middle.Waiting id → state.Waiting id ∨ delivery.message.id = id) :
    state.Advances event (middle.setDelivery tag changed) where
  accepted := accepted
  executed := by
    intro id member
    rcases executed id member with before | ⟨succeeds, own⟩
    · exact .inl before
    · exact .inr ⟨tag, succeeds, delivery, found, own⟩
  deliveries := by
    intro other after present
    by_cases own : other = tag
    · subst own
      rw [deliveries_setDelivery, Function.update_self] at present
      obtain rfl := Option.some.inj present
      exact .inr ⟨delivery, found, message, stage⟩
    · rw [deliveries_setDelivery, Function.update_of_ne own, same] at present
      exact .inr ⟨after, present, rfl, fun executing => executing⟩
  ended := by
    intro other ends after present
    obtain ⟨rfl, finished⟩ := ended other ends
    rw [deliveries_setDelivery, Function.update_self] at present
    exact Option.some.inj present ▸ finished
  kept := by
    intro other absent
    by_cases own : other = tag
    · subst own
      rw [deliveries_setDelivery, Function.update_self] at absent
      cases absent
    · rwa [deliveries_setDelivery, Function.update_of_ne own, same] at absent
  known := by
    intro id either
    rcases either with queued | ⟨other, after, present, own⟩
    · rcases waiting id queued with before | own
      · exact .inl before
      · exact .inr (.inl ⟨tag, delivery, found, own⟩)
    · rcases mem_setDelivery present with rfl | before
      · exact .inr (.inl ⟨tag, delivery, found, message ▸ own⟩)
      · rw [same] at before
        exact .inr (.inl ⟨other, after, before, own⟩)

theorem advances_handleRetry (found : state.deliveries tag = some delivery)
    (same : middle.deliveries = state.deliveries)
    (ended : ∀ other, event = .succeeds other ∨ event = .fails other → other = tag)
    (accepted : middle.record.accepted = state.record.accepted)
    (executed : middle.record.executed = state.record.executed)
    (waiting : ∀ id, middle.Waiting id → state.Waiting id) :
    state.Advances event (middle.handleRetry retryLimit tag delivery) := by
  have resumes : ∀ {stage : Stage}, stage ≠ .executing → stage = .executing → delivery.stage = .executing :=
    fun finished executing => absurd executing finished
  have finished : ∀ {stage : Stage}, stage ≠ .executing → ∀ other,
      event = .succeeds other ∨ event = .fails other → other = tag ∧ stage ≠ .executing :=
    fun finished other ends => ⟨ended other ends, finished⟩
  have kept : ∀ id ∈ middle.record.executed, id ∈ state.record.executed ∨
      event = .succeeds tag ∧ delivery.message.id = id := fun id member => .inl (executed ▸ member)
  have retrying : Stage.retrying ≠ .executing := by decide
  have discarding : Stage.discarding ≠ .executing := by decide
  rw [State.handleRetry]
  split
  next within =>
    -- the copy is published beside the delivery
    change state.Advances event ((middle.publish tag delivery.message.retried).setDelivery tag _)
    refine advances_setDelivery found same rfl (resumes retrying) (finished retrying)
      (fun id member => accepted ▸ member) kept fun id queued => ?_
    rcases queued with ready | queued | ⟨publication, member, own⟩
    · exact .inl (waiting id (.inl ready))
    · exact .inl (waiting id (.inr (.inl queued)))
    · rcases List.mem_append.mp member with before | new
      · exact .inl (waiting id (.inr (.inr ⟨publication, before, own⟩)))
      · obtain rfl := List.mem_singleton.mp new
        exact .inr own
  next beyond =>
    exact advances_setDelivery found same rfl (resumes discarding) (finished discarding)
      (fun id member => accepted ▸ member) kept fun id queued => .inl (waiting id queued)

theorem advances_queues (same : next.deliveries = state.deliveries)
    (idle : EndsExecution event = false)
    (accepted : state.record.accepted ⊆ next.record.accepted)
    (executed : next.record.executed = state.record.executed)
    (waiting : ∀ id, next.Waiting id → state.Waiting id ∨ id ∈ next.record.accepted) :
    state.Advances event next where
  accepted := accepted
  executed id member := .inl (executed ▸ member)
  deliveries := by
    intro tag after found
    rw [same] at found
    exact .inr ⟨after, found, rfl, fun executing => executing⟩
  ended := by
    intro tag ends
    exact absurd ends (not_ends idle tag)
  kept tag absent := same ▸ absent
  known := by
    intro id either
    rcases either with queued | ⟨tag, delivery, found, own⟩
    · exact (waiting id queued).imp_right .inr
    · exact .inr (.inl ⟨tag, delivery, same ▸ found, own⟩)

/-- The cases of the queues' events, by what they do to deliveries. -/
theorem step_advances (taken : state.step retryLimit event = some next) : state.Advances event next := by
  cases event with
  | accepts id =>
    obtain ⟨-, rfl⟩ := enabled taken
    refine advances_queues rfl rfl (List.subset_cons_self _ _) rfl fun other queued => ?_
    rcases queued with ⟨message, member, own⟩ | queued
    · rcases List.mem_append.mp member with before | new
      · exact .inl (.inl ⟨message, before, own⟩)
      · obtain rfl := List.mem_singleton.mp new
        exact .inr (own ▸ List.mem_cons_self)
    · exact .inl (.inr queued)
  | delivers tag message =>
    obtain ⟨⟨ready, free⟩, rfl⟩ := enabled taken
    constructor
    · exact List.Subset.refl _
    · exact fun _ member => .inl member
    · intro other after present
      by_cases own : other = tag
      · subst own
        exact .inl free
      · rw [deliveries_setDelivery, Function.update_of_ne own] at present
        exact .inr ⟨after, present, rfl, fun executing => executing⟩
    · intro other ends
      exact absurd ends (not_ends rfl other)
    · intro other absent
      by_cases own : other = tag
      · exact own ▸ free
      · rwa [deliveries_setDelivery, Function.update_of_ne own] at absent
    · intro id either
      rcases either with (⟨other, member, own⟩ | queued) | ⟨other, after, present, own⟩
      · exact .inl (.inl ⟨other, List.mem_of_mem_erase member, own⟩)
      · exact .inl (.inr queued)
      · rcases mem_setDelivery present with rfl | before
        · exact .inl (.inl ⟨message, ready, own⟩)
        · exact .inr (.inl ⟨other, after, before, own⟩)
  | succeeds tag =>
    obtain ⟨delivery, found, guarded⟩ := Option.bind_eq_some_iff.mp taken
    obtain ⟨executing, rfl⟩ := enabled guarded
    refine advances_setDelivery found rfl rfl (fun _ => executing) ?_ (List.Subset.refl _) (fun id member => ?_)
      fun _ queued => .inl queued
    · intro other ends
      have succeeded : Stage.succeeded ≠ .executing := by decide
      rcases ends with succeeds | fails
      · exact ⟨(Event.succeeds.inj succeeds).symm, succeeded⟩
      · cases fails
    · rcases List.mem_cons.mp member with rfl | before
      · exact .inr ⟨rfl, rfl⟩
      · exact .inl before
  | fails tag =>
    obtain ⟨delivery, found, guarded⟩ := Option.bind_eq_some_iff.mp taken
    obtain ⟨executing, rfl⟩ := enabled guarded
    refine advances_handleRetry found rfl ?_ rfl rfl fun _ queued => queued
    intro other ends
    rcases ends with succeeds | fails
    · cases succeeds
    · exact (Event.fails.inj fails).symm
  | ackThrows tag =>
    obtain ⟨delivery, found, guarded⟩ := Option.bind_eq_some_iff.mp taken
    obtain ⟨succeeded, rfl⟩ := enabled guarded
    exact advances_handleRetry found rfl (fun other ends => absurd ends (not_ends rfl other)) rfl rfl fun _ queued => queued
  | copyArrives tag copy confirmed =>
    obtain ⟨delivery, found, guarded⟩ := Option.bind_eq_some_iff.mp taken
    obtain ⟨published, rfl⟩ := enabled guarded
    refine advances_setDelivery found rfl rfl (fun executing => executing) (fun other ends => absurd ends (not_ends rfl other))
      (List.Subset.refl _) (fun _ member => .inl member) fun id queued => .inl ?_
    rcases queued with ready | ⟨message, member, own⟩ | ⟨publication, member, own⟩
    · exact .inl ready
    · rcases List.mem_append.mp member with before | new
      · exact .inr (.inl ⟨message, before, own⟩)
      · obtain rfl := List.mem_singleton.mp new
        exact .inr (.inr ⟨_, published, own⟩)
    · refine .inr (.inr ⟨publication, ?_, own⟩)
      cases confirmed with
      | true => exact List.mem_of_mem_erase member
      | false => exact member
  | copyFails tag copy =>
    obtain ⟨-, rfl⟩ := enabled taken
    refine advances_queues rfl rfl (List.Subset.refl _) rfl fun id queued => .inl ?_
    rcases queued with ready | queued | ⟨publication, member, own⟩
    · exact .inl ready
    · exact .inr (.inl queued)
    · exact .inr (.inr ⟨publication, List.mem_of_mem_erase member, own⟩)
  | ackArrives tag =>
    obtain ⟨delivery, found, guarded⟩ := Option.bind_eq_some_iff.mp taken
    obtain ⟨⟨-, finished⟩, rfl⟩ := enabled guarded
    rw [State.acknowledge]
    split
    · exact advances_setDelivery found rfl rfl (fun executing => executing) (fun other ends => absurd ends (not_ends rfl other))
        (List.Subset.refl _) (fun _ member => .inl member) fun _ queued => .inl queued
    · exact advances_setDelivery found rfl rfl (fun executing => executing) (fun other ends => absurd ends (not_ends rfl other))
        (List.Subset.refl _) (fun _ member => .inl member) fun _ queued => .inl queued
  | requeues tag =>
    obtain ⟨delivery, found, guarded⟩ := Option.bind_eq_some_iff.mp taken
    obtain ⟨-, rfl⟩ := enabled guarded
    refine advances_setDelivery found rfl rfl (fun executing => executing) (fun other ends => absurd ends (not_ends rfl other))
      (List.Subset.refl _) (fun _ member => .inl member) fun id queued => ?_
    rcases queued with ⟨message, member, own⟩ | queued
    · rcases List.mem_append.mp member with before | new
      · exact .inl (.inl ⟨message, before, own⟩)
      · obtain rfl := List.mem_singleton.mp new
        exact .inr own
    · exact .inl (.inr queued)
  | deadLetters message =>
    obtain ⟨queued, rfl⟩ := enabled taken
    refine advances_queues rfl rfl (List.Subset.refl _) rfl fun id waiting => .inl ?_
    rcases waiting with ⟨other, member, own⟩ | ⟨other, member, own⟩ | published
    · rcases List.mem_append.mp member with before | new
      · exact .inl ⟨other, before, own⟩
      · obtain rfl := List.mem_singleton.mp new
        exact .inr (.inl ⟨other, queued, own⟩)
    · exact .inr (.inl ⟨other, List.mem_of_mem_erase member, own⟩)
    · exact .inr (.inr published)

variable {id : ℕ}

theorem executing_iff : state.executing tag = some id ↔
    ∃ delivery ∈ state.deliveries tag, delivery.stage = .executing ∧ delivery.message.id = id := by
  simp [executing, Option.bind_eq_some_iff]

theorem delivered_of_executing (executing : state.executing tag = some id) : state.Delivered id := by
  obtain ⟨delivery, found, -, own⟩ := executing_iff.mp executing
  exact ⟨tag, delivery, found, own⟩

theorem message_of_executing (executing : state.executing tag = some id) (found : delivery ∈ state.deliveries tag) :
    delivery.message.id = id := by
  obtain ⟨other, held, -, own⟩ := executing_iff.mp executing
  rw [Option.some.inj (found.symm.trans held), own]

theorem ne_tag_of_executing {other : ℕ} (executing : state.executing tag = some id)
    (absent : state.deliveries other = none) : other ≠ tag := by
  obtain ⟨delivery, found, -⟩ := executing_iff.mp executing
  intro same
  cases (same ▸ absent).symm.trans found

/-- A delivery that is being executed has just come, or was being executed before. -/
theorem executing_of_advances (advances : state.Advances event next) (executing : next.executing tag = some id) :
    state.deliveries tag = none ∨ state.executing tag = some id := by
  obtain ⟨after, found, runs, own⟩ := executing_iff.mp executing
  rcases advances.deliveries tag after found with fresh | ⟨before, held, message, stage⟩
  · exact .inl fresh
  · exact .inr (executing_iff.mpr ⟨before, held, stage runs, by rw [message, own]⟩)

theorem not_executing_of_ended (advances : state.Advances event next)
    (ended : event = .succeeds tag ∨ event = .fails tag) : next.executing tag ≠ some id := by
  intro executing
  obtain ⟨after, found, runs, -⟩ := executing_iff.mp executing
  exact advances.ended tag ended after found runs

@[simp] theorem record_handleRetry : (state.handleRetry retryLimit tag delivery).record = state.record := by
  rw [handleRetry]
  split
  · rfl
  · rfl

@[simp] theorem accepted_acknowledge : (state.acknowledge tag delivery).record.accepted = state.record.accepted := by
  by_cases discarding : delivery.stage = .discarding
  · rw [acknowledge, if_pos discarding]
    rfl
  · rw [acknowledge, if_neg discarding]
    rfl

/-- Messages are accepted by the event that says so. -/
theorem accepted_of_step (taken : state.step retryLimit event = some next) (member : id ∈ next.record.accepted) :
    id ∈ state.record.accepted ∨ event = .accepts id := by
  cases event with
  | accepts other =>
    obtain ⟨-, rfl⟩ := enabled taken
    rcases List.mem_cons.mp member with rfl | before
    · exact .inr rfl
    · exact .inl before
  | delivers other message =>
    obtain ⟨-, rfl⟩ := enabled taken
    exact .inl member
  | succeeds other =>
    obtain ⟨held, -, guarded⟩ := Option.bind_eq_some_iff.mp taken
    obtain ⟨-, rfl⟩ := enabled guarded
    exact .inl member
  | fails other =>
    obtain ⟨held, -, guarded⟩ := Option.bind_eq_some_iff.mp taken
    obtain ⟨-, rfl⟩ := enabled guarded
    rw [record_handleRetry] at member
    exact .inl member
  | ackThrows other =>
    obtain ⟨held, -, guarded⟩ := Option.bind_eq_some_iff.mp taken
    obtain ⟨-, rfl⟩ := enabled guarded
    rw [record_handleRetry] at member
    exact .inl member
  | copyArrives other copy confirmed =>
    obtain ⟨held, -, guarded⟩ := Option.bind_eq_some_iff.mp taken
    obtain ⟨-, rfl⟩ := enabled guarded
    exact .inl member
  | copyFails other copy =>
    obtain ⟨-, rfl⟩ := enabled taken
    exact .inl member
  | ackArrives other =>
    obtain ⟨held, -, guarded⟩ := Option.bind_eq_some_iff.mp taken
    obtain ⟨-, rfl⟩ := enabled guarded
    rw [accepted_acknowledge] at member
    exact .inl member
  | requeues other =>
    obtain ⟨held, -, guarded⟩ := Option.bind_eq_some_iff.mp taken
    obtain ⟨-, rfl⟩ := enabled guarded
    exact .inl member
  | deadLetters message =>
    obtain ⟨-, rfl⟩ := enabled taken
    exact .inl member

theorem record_grows (taken : state.step retryLimit event = some next) :
    state.record.executed ⊆ next.record.executed ∧ state.record.failed ⊆ next.record.failed := by
  cases event with
  | accepts other =>
    obtain ⟨-, rfl⟩ := enabled taken
    exact ⟨List.Subset.refl _, List.Subset.refl _⟩
  | delivers other message =>
    obtain ⟨-, rfl⟩ := enabled taken
    exact ⟨List.Subset.refl _, List.Subset.refl _⟩
  | succeeds other =>
    obtain ⟨held, -, guarded⟩ := Option.bind_eq_some_iff.mp taken
    obtain ⟨-, rfl⟩ := enabled guarded
    exact ⟨List.subset_cons_self _ _, List.Subset.refl _⟩
  | fails other =>
    obtain ⟨held, -, guarded⟩ := Option.bind_eq_some_iff.mp taken
    obtain ⟨-, rfl⟩ := enabled guarded
    rw [record_handleRetry]
    exact ⟨List.Subset.refl _, List.subset_append_left _ _⟩
  | ackThrows other =>
    obtain ⟨held, -, guarded⟩ := Option.bind_eq_some_iff.mp taken
    obtain ⟨-, rfl⟩ := enabled guarded
    rw [record_handleRetry]
    exact ⟨List.Subset.refl _, List.Subset.refl _⟩
  | copyArrives other copy confirmed =>
    obtain ⟨held, -, guarded⟩ := Option.bind_eq_some_iff.mp taken
    obtain ⟨-, rfl⟩ := enabled guarded
    exact ⟨List.Subset.refl _, List.Subset.refl _⟩
  | copyFails other copy =>
    obtain ⟨-, rfl⟩ := enabled taken
    exact ⟨List.Subset.refl _, List.Subset.refl _⟩
  | ackArrives other =>
    obtain ⟨held, -, guarded⟩ := Option.bind_eq_some_iff.mp taken
    obtain ⟨-, rfl⟩ := enabled guarded
    rw [acknowledge]
    split
    · exact ⟨List.Subset.refl _, List.Subset.refl _⟩
    · exact ⟨List.Subset.refl _, List.Subset.refl _⟩
  | requeues other =>
    obtain ⟨held, -, guarded⟩ := Option.bind_eq_some_iff.mp taken
    obtain ⟨-, rfl⟩ := enabled guarded
    exact ⟨List.Subset.refl _, List.Subset.refl _⟩
  | deadLetters message =>
    obtain ⟨-, rfl⟩ := enabled taken
    exact ⟨List.Subset.refl _, List.Subset.refl _⟩

/-- A delivery that is changed without an end to its execution goes on. -/
theorem executing_setDelivery {other : ℕ} (same : middle.deliveries = state.deliveries)
    (executing : state.executing tag = some id) (found : state.deliveries other = some delivery)
    (message : changed.message = delivery.message) (stage : delivery.stage = .executing → changed.stage = .executing) :
    (middle.setDelivery other changed).executing tag = some id := by
  obtain ⟨held, present, runs, own⟩ := executing_iff.mp executing
  apply executing_iff.mpr
  rw [deliveries_setDelivery]
  by_cases here : tag = other
  · subst here
    obtain rfl := Option.some.inj (found.symm.trans present)
    exact ⟨changed, Function.update_self _ _ _, stage runs, by rw [message, own]⟩
  · exact ⟨held, by rw [Function.update_of_ne here, same]; exact present, runs, own⟩

/-- An execution goes on until it says that it ends. -/
theorem executing_of_continues (taken : state.step retryLimit event = some next) (continues : EndsExecution event = false)
    (executing : state.executing tag = some id) : next.executing tag = some id := by
  obtain ⟨held, present, runs, own⟩ := executing_iff.mp executing
  cases event with
  | accepts other =>
    obtain ⟨-, rfl⟩ := enabled taken
    exact executing
  | delivers other message =>
    obtain ⟨⟨-, free⟩, rfl⟩ := enabled taken
    refine executing_iff.mpr ⟨held, ?_, runs, own⟩
    exact (Function.update_of_ne (ne_tag_of_executing executing free).symm _ _).trans present
  | succeeds other => cases continues
  | fails other => cases continues
  | ackThrows other =>
    obtain ⟨delivery, found, guarded⟩ := Option.bind_eq_some_iff.mp taken
    obtain ⟨ended, rfl⟩ := enabled guarded
    have ends : delivery.stage ≠ .executing := by
      rw [ended]
      decide
    rw [handleRetry]
    split
    · exact executing_setDelivery rfl executing found rfl fun executing => absurd executing ends
    · exact executing_setDelivery rfl executing found rfl fun executing => absurd executing ends
  | copyArrives other copy confirmed =>
    obtain ⟨delivery, found, guarded⟩ := Option.bind_eq_some_iff.mp taken
    obtain ⟨-, rfl⟩ := enabled guarded
    exact executing_setDelivery rfl executing found rfl fun executing => executing
  | copyFails other copy =>
    obtain ⟨-, rfl⟩ := enabled taken
    exact executing
  | ackArrives other =>
    obtain ⟨delivery, found, guarded⟩ := Option.bind_eq_some_iff.mp taken
    obtain ⟨⟨-, ended⟩, rfl⟩ := enabled guarded
    rw [acknowledge]
    split
    · exact executing_setDelivery rfl executing found rfl fun executing => absurd executing ended
    · exact executing_setDelivery rfl executing found rfl fun executing => absurd executing ended
  | requeues other =>
    obtain ⟨delivery, found, guarded⟩ := Option.bind_eq_some_iff.mp taken
    obtain ⟨-, rfl⟩ := enabled guarded
    exact executing_setDelivery rfl executing found rfl fun executing => executing
  | deadLetters message =>
    obtain ⟨-, rfl⟩ := enabled taken
    exact executing

theorem mem_accepted_of_step (taken : state.step retryLimit (.accepts id) = some next) :
    id ∈ next.record.accepted := by
  obtain ⟨-, rfl⟩ := enabled taken
  exact List.mem_cons_self

end BaseAMQPWorker.State

end PriceFeed.Workers
