import PriceFeed.Workers.MarketRecordWriter

/-! From the queues to the tables: the writers store the first record of each key, lose
none on the way, and announce no record that is not stored. -/

namespace PriceFeed.Workers

open PriceFeed.Library BaseAMQPWorker.State

variable {Contents : Type*}

namespace WriterState

variable {state : WriterState Contents} {tag id : ℕ} {key : RecordKey} {record : MarketRecord Contents}
  {stage : ExecutionStage}

theorem holds_iff : state.holds key = true ↔ key ∈ state.records.map MarketRecord.toRecordKey := by
  simp [holds]

@[simp] theorem records_create : (state.create record).records = state.records ++ [record] := by
  simp [records, create, SerialTable.bulkCreate]

@[simp] theorem worker_create : (state.create record).worker = state.worker := rfl

@[simp] theorem worker_setStage : (state.setStage tag stage).worker = state.worker := rfl

theorem stages_setStage : (state.setStage tag stage).stages = Function.update state.stages tag stage := rfl

end WriterState

namespace MarketRecordWriter

variable {writer : MarketRecordWriter Contents} {state next changed : WriterState Contents}
  {history : List ℕ} {tag id : ℕ} {event : WriterEvent}

theorem accepts_iff : writer.accepts state id = true ↔
    (writer.record id).toRecordKey ∉ state.records.map MarketRecord.toRecordKey ∧
      (writer.record id).marketId ∈ writer.markets := by
  rw [accepts, Bool.and_eq_true, decide_eq_true_eq, Bool.not_eq_true', ← Bool.not_eq_true,
    WriterState.holds_iff]

/-- The records are the first of their keys among those that executions have found or
created, in the order in which they did. -/
structure Consistent (writer : MarketRecordWriter Contents) (history : List ℕ)
    (state : WriterState Contents) : Prop where
  known : ∀ id, state.worker.Waiting id ∨ state.worker.Delivered id → id ∈ state.worker.record.accepted
  fresh : ∀ tag, state.worker.deliveries tag = none → state.stages tag = .finding
  offered : ∀ id ∈ history, id ∈ state.worker.record.accepted
  executed : ∀ id ∈ state.worker.record.executed, id ∈ history
  announcing : ∀ tag id, state.executing tag = some id → state.stages tag = .announcing → id ∈ history
  records : state.records = firstOfKey MarketRecord.toRecordKey (history.map writer.record)

theorem consistent_initial : writer.Consistent [] {} where
  known id either := by
    rcases either with (⟨_, member, _⟩ | ⟨_, member, _⟩ | ⟨_, member, _⟩) | ⟨_, _, member, _⟩
    · cases member
    · cases member
    · cases member
    · cases member
  fresh _ _ := rfl
  offered _ member := nomatch member
  executed _ member := nomatch member
  announcing _ _ executing := nomatch executing
  records := rfl

section Steps

variable (consistent : writer.Consistent history state)

include consistent

private theorem Consistent.accepted_of_executing (executing : state.executing tag = some id) :
    id ∈ state.worker.record.accepted :=
  consistent.known id (.inr (delivered_of_executing executing))

/-- A message that is looked up or created is offered to the table. -/
theorem Consistent.offer (executing : state.executing tag = some id)
    (worker : changed.worker = state.worker) (stages : changed.stages = state.stages)
    (records : changed.records = addNew MarketRecord.toRecordKey state.records (writer.record id)) :
    writer.Consistent (history ++ [id]) changed where
  known := by
    rw [worker]
    exact consistent.known
  fresh := by
    rw [worker, stages]
    exact consistent.fresh
  offered := by
    rw [worker]
    intro other member
    rcases List.mem_append.mp member with before | new
    · exact consistent.offered other before
    · rw [List.mem_singleton.mp new]
      exact consistent.accepted_of_executing executing
  executed := by
    rw [worker]
    exact fun other member => List.mem_append_left _ (consistent.executed other member)
  announcing other message runs announcing := by
    rw [WriterState.executing, worker] at runs
    rw [stages] at announcing
    exact List.mem_append_left _ (consistent.announcing other message runs announcing)
  records := by
    rw [records, consistent.records, List.map_append, List.map_singleton, firstOfKey_concat]

theorem Consistent.find (executing : state.executing tag = some id)
    (held : state.holds (writer.record id).toRecordKey = true) : writer.Consistent (history ++ [id]) state :=
  consistent.offer executing rfl rfl (addNew_of_mem (WriterState.holds_iff.mp held)).symm

theorem Consistent.create (executing : state.executing tag = some id)
    (accepted : writer.accepts state id = true) :
    writer.Consistent (history ++ [id]) (state.create (writer.record id)) := by
  refine consistent.offer executing rfl rfl ?_
  rw [WriterState.records_create, addNew_of_not_mem (accepts_iff.mp accepted).1]

theorem Consistent.setStage {stage : ExecutionStage} (executing : state.executing tag = some id)
    (announcing : stage = .announcing → id ∈ history) :
    writer.Consistent history (state.setStage tag stage) where
  known := consistent.known
  fresh other absent := by
    rw [WriterState.stages_setStage, Function.update_of_ne (ne_tag_of_executing executing absent)]
    exact consistent.fresh other absent
  offered := consistent.offered
  executed := consistent.executed
  announcing other message runs announces := by
    by_cases own : other = tag
    · subst own
      rw [WriterState.stages_setStage, Function.update_self] at announces
      obtain rfl := Option.some.inj (executing.symm.trans runs)
      exact announcing announces
    · rw [WriterState.stages_setStage, Function.update_of_ne own] at announces
      exact consistent.announcing other message runs announces
  records := consistent.records

/-- The queues go on. A message has been offered before its execution succeeds. -/
theorem Consistent.advance {worker : BaseAMQPWorker.State} {queueEvent : BaseAMQPWorker.Event}
    (advances : state.worker.Advances queueEvent worker)
    (succeeded : ∀ tag, queueEvent = .succeeds tag →
      ∀ delivery ∈ state.worker.deliveries tag, delivery.message.id ∈ history) :
    writer.Consistent history { state with worker } where
  known id either := by
    rcases advances.known id either with waiting | delivered | accepted
    · exact advances.accepted (consistent.known id (.inl waiting))
    · exact advances.accepted (consistent.known id (.inr delivered))
    · exact accepted
  fresh tag absent := consistent.fresh tag (advances.kept tag absent)
  offered id member := advances.accepted (consistent.offered id member)
  executed id member := by
    rcases advances.executed id member with before | ⟨tag, succeeds, delivery, found, rfl⟩
    · exact consistent.executed id before
    · exact succeeded tag succeeds delivery found
  announcing tag id runs announcing := by
    rcases executing_of_advances advances runs with absent | executing
    · have finding := consistent.fresh tag absent
      cases finding.symm.trans announcing
    · exact consistent.announcing tag id executing announcing
  records := consistent.records

end Steps

theorem step_idle (idle : writer.queueEvent state event = none) (effect : writer.effect state event = some changed)
    (taken : writer.step state event = some next) : next = changed := by
  rw [step, effect, Option.bind_some, idle] at taken
  exact (Option.some.inj taken).symm

/-- A step that means something to the queues changes them beside its own effect. -/
theorem step_queues {queueEvent : BaseAMQPWorker.Event} (means : writer.queueEvent state event = some queueEvent)
    (effect : writer.effect state event = some changed) (taken : writer.step state event = some next) :
    ∃ worker, state.worker.step writer.retryLimit queueEvent = some worker ∧ next = { changed with worker } := by
  rw [step, effect, Option.bind_some, means] at taken
  obtain ⟨worker, stepped, rfl⟩ := Option.map_eq_some_iff.mp taken
  exact ⟨worker, stepped, rfl⟩

theorem step_transition (taken : writer.step state event = some next) : writer.Transition state event next := by
  obtain ⟨changed, effect, rest⟩ := Option.bind_eq_some_iff.mp taken
  cases event with
  | queue event =>
    obtain ⟨worker, stepped, rfl⟩ := step_queues rfl effect taken
    obtain ⟨goes, rfl⟩ := enabled effect
    exact .queue (by simpa using goes) stepped
  | finds tag =>
    obtain ⟨id, executing, guarded⟩ := Option.bind_eq_some_iff.mp effect
    by_cases held : state.holds (writer.record id).toRecordKey = true
    · have means : writer.queueEvent state (.finds tag) = some (.succeeds tag) := by
        simp [queueEvent, executing, held]
      obtain ⟨worker, stepped, rfl⟩ := step_queues means effect taken
      simp only [held, if_true] at guarded
      obtain ⟨_, rfl⟩ := enabled guarded
      exact .found executing held stepped
    · have idle : writer.queueEvent state (.finds tag) = none := by
        simp [queueEvent, executing, held]
      rw [step_idle idle effect taken]
      simp only [held, Bool.false_eq_true, if_false] at guarded
      obtain ⟨_, rfl⟩ := enabled guarded
      exact .missed executing
  | findThrows tag =>
    obtain ⟨worker, stepped, rfl⟩ := step_queues rfl effect taken
    obtain ⟨_, rfl⟩ := enabled effect
    exact .failed stepped
  | creates tag =>
    obtain ⟨id, executing, guarded⟩ := Option.bind_eq_some_iff.mp effect
    by_cases accepted : writer.accepts state id = true
    · have absent : ¬ state.holds (writer.record id).toRecordKey = true := fun held =>
        (accepts_iff.mp accepted).1 (WriterState.holds_iff.mp held)
      have idle : writer.queueEvent state (.creates tag) = none := by
        simp [queueEvent, executing, accepted, absent]
      rw [step_idle idle effect taken]
      simp only [accepted, if_true] at guarded
      obtain ⟨_, rfl⟩ := enabled guarded
      exact .created executing accepted
    · simp only [accepted, Bool.false_eq_true, if_false] at guarded
      obtain ⟨_, rfl⟩ := enabled guarded
      by_cases held : state.holds (writer.record id).toRecordKey = true
      · have means : writer.queueEvent state (.creates tag) = some (.succeeds tag) := by
          simp [queueEvent, executing, held]
        obtain ⟨worker, stepped, rfl⟩ := step_queues means effect taken
        exact .found executing held stepped
      · have means : writer.queueEvent state (.creates tag) = some (.fails tag) := by
          simp [queueEvent, executing, held, accepted]
        obtain ⟨worker, stepped, rfl⟩ := step_queues means effect taken
        exact .failed stepped
  | createThrows tag stored =>
    obtain ⟨id, executing, guarded⟩ := Option.bind_eq_some_iff.mp effect
    obtain ⟨worker, stepped, rfl⟩ := step_queues rfl effect taken
    cases created : stored && writer.accepts state id with
    | true =>
      simp only [created, if_true] at guarded
      obtain ⟨_, rfl⟩ := enabled guarded
      obtain ⟨rfl, accepted⟩ := Bool.and_eq_true_iff.mp created
      exact .createdAndFailed executing accepted stepped
    | false =>
      simp only [created, Bool.false_eq_true, if_false] at guarded
      obtain ⟨_, rfl⟩ := enabled guarded
      exact .failed stepped
  | announces tag arrives =>
    obtain ⟨id, executing, guarded⟩ := Option.bind_eq_some_iff.mp effect
    obtain ⟨worker, stepped, rfl⟩ := step_queues rfl effect taken
    obtain ⟨announcing, rfl⟩ := enabled guarded
    exact .announced executing announcing stepped

theorem Consistent.send (consistent : writer.Consistent history state)
    (pricing : List (PricingNotification Contents)) : writer.Consistent history { state with pricing } :=
  ⟨consistent.known, consistent.fresh, consistent.offered, consistent.executed, consistent.announcing,
    consistent.records⟩

/-- The steps of an execution after which its message has been offered. -/
theorem Consistent.succeed {worker : BaseAMQPWorker.State} (consistent : writer.Consistent history state)
    (executing : state.executing tag = some id) (offered : id ∈ history)
    (stepped : state.worker.step writer.retryLimit (.succeeds tag) = some worker) :
    writer.Consistent history { state with worker } := by
  refine consistent.advance (step_advances stepped) fun other succeeds delivery found => ?_
  obtain rfl := BaseAMQPWorker.Event.succeeds.inj succeeds
  rwa [message_of_executing executing found]

theorem Consistent.fail {worker : BaseAMQPWorker.State} (consistent : writer.Consistent history state)
    (stepped : state.worker.step writer.retryLimit (.fails tag) = some worker) :
    writer.Consistent history { state with worker } :=
  consistent.advance (step_advances stepped) fun _ succeeds => nomatch succeeds

theorem Consistent.step (consistent : writer.Consistent history state)
    (taken : writer.step state event = some next) : ∃ offered, writer.Consistent (history ++ offered) next := by
  cases step_transition taken with
  | queue goes stepped =>
    refine ⟨[], ?_⟩
    rw [List.append_nil]
    refine consistent.advance (step_advances stepped) fun tag succeeds => ?_
    rw [succeeds] at goes
    cases goes
  | found executing held stepped =>
    have found := consistent.find executing held
    exact ⟨_, found.succeed executing (List.mem_append_right _ List.mem_cons_self) stepped⟩
  | missed executing =>
    refine ⟨[], ?_⟩
    rw [List.append_nil]
    exact consistent.setStage executing nofun
  | created executing accepted =>
    have created := consistent.create executing accepted
    exact ⟨_, created.setStage executing fun _ => List.mem_append_right _ List.mem_cons_self⟩
  | failed stepped =>
    refine ⟨[], ?_⟩
    rw [List.append_nil]
    exact consistent.fail stepped
  | createdAndFailed executing accepted stepped =>
    exact ⟨_, (consistent.create executing accepted).fail stepped⟩
  | announced executing announcing stepped =>
    refine ⟨[], ?_⟩
    rw [List.append_nil]
    have offered := consistent.announcing _ _ executing announcing
    exact (consistent.succeed executing offered stepped).send _

def Linearized (writer : MarketRecordWriter Contents) (state : WriterState Contents) : Prop :=
  ∃ history, writer.Consistent history state

theorem Linearized.step (linearized : writer.Linearized state) (taken : writer.step state event = some next) :
    writer.Linearized next := by
  obtain ⟨history, consistent⟩ := linearized
  obtain ⟨offered, consistent⟩ := consistent.step taken
  exact ⟨history ++ offered, consistent⟩

theorem run_linearized {events : List WriterEvent} {final : WriterState Contents}
    (run : Run writer.step {} events final) : writer.Linearized final :=
  run.invariant Linearized.step ⟨[], consistent_initial⟩

theorem worker_effect (effect : writer.effect state event = some changed) : changed.worker = state.worker := by
  cases event with
  | queue event =>
    obtain ⟨_, rfl⟩ := enabled effect
    rfl
  | findThrows tag =>
    obtain ⟨_, rfl⟩ := enabled effect
    rfl
  | finds tag =>
    obtain ⟨id, _, guarded⟩ := Option.bind_eq_some_iff.mp effect
    split at guarded
    · split at guarded
      · rw [← Option.some.inj guarded]
      · rw [← Option.some.inj guarded, WriterState.worker_setStage]
    · cases guarded
  | creates tag =>
    obtain ⟨id, _, guarded⟩ := Option.bind_eq_some_iff.mp effect
    split at guarded
    · split at guarded
      · rw [← Option.some.inj guarded, WriterState.worker_setStage, WriterState.worker_create]
      · rw [← Option.some.inj guarded]
    · cases guarded
  | createThrows tag stored =>
    obtain ⟨id, _, guarded⟩ := Option.bind_eq_some_iff.mp effect
    split at guarded
    · split at guarded
      · rw [← Option.some.inj guarded, WriterState.worker_create]
      · rw [← Option.some.inj guarded]
    · cases guarded
  | announces tag arrives =>
    obtain ⟨id, _, guarded⟩ := Option.bind_eq_some_iff.mp effect
    obtain ⟨_, rfl⟩ := enabled guarded
    rfl

/-- The queues of a writer are those of `BaseAMQPWorker`. -/
theorem worker_step (taken : writer.step state event = some next) :
    writer.queueEvent state event = none ∧ next.worker = state.worker ∨
      ∃ queueEvent, writer.queueEvent state event = some queueEvent ∧
        state.worker.step writer.retryLimit queueEvent = some next.worker := by
  obtain ⟨changed, effect, -⟩ := Option.bind_eq_some_iff.mp taken
  cases means : writer.queueEvent state event with
  | none =>
    rw [step_idle means effect taken]
    exact .inl ⟨rfl, worker_effect effect⟩
  | some queueEvent =>
    obtain ⟨worker, stepped, rfl⟩ := step_queues means effect taken
    exact .inr ⟨queueEvent, rfl, stepped⟩

def QueuesSound (writer : MarketRecordWriter Contents) (state : WriterState Contents) : Prop :=
  state.worker.Sound writer.retryLimit

theorem QueuesSound.step (sound : writer.QueuesSound state) (orderly : writer.Orderly state event)
    (taken : writer.step state event = some next) : writer.QueuesSound next := by
  rcases worker_step taken with ⟨-, same⟩ | ⟨queueEvent, means, stepped⟩
  · rwa [QueuesSound, same]
  · exact BaseAMQPWorker.State.Sound.step sound (orderly queueEvent means) stepped

/-- Every message that a collector has published has its interval stored, or waits in one
of the queues, or has been discarded after one failure more than the limit. -/
theorem records_storedOrWaiting {events : List WriterEvent} {final : WriterState Contents}
    (run : Run writer.step {} events final) (orderly : Throughout writer.step writer.Orderly {} events) :
    ∀ id ∈ final.worker.record.accepted,
      (writer.record id).toRecordKey ∈ final.records.map MarketRecord.toRecordKey ∨
        final.worker.InPrimary id ∨ final.worker.InRetry id ∨ final.worker.Discarded writer.retryLimit id := by
  have sound : writer.QueuesSound final := run.invariant_throughout QueuesSound.step orderly sound_initial
  obtain ⟨history, consistent⟩ := run_linearized run
  intro id accepted
  rcases BaseAMQPWorker.State.Sound.noneLost sound id accepted with executed | elsewhere
  · left
    rw [consistent.records, mem_keys_firstOfKey, List.map_map]
    exact List.mem_map_of_mem (consistent.executed id executed)
  · exact .inr elsewhere

/-- Whatever the interleaving of the executions, `findOrCreate` acts as one step: the
records are the first of their keys among the messages in some order, which has all that
have been executed. -/
theorem findOrCreate_keepsFirst {events : List WriterEvent} {final : WriterState Contents}
    (run : Run writer.step {} events final) : ∃ history : List ℕ,
      (∀ id ∈ history, id ∈ final.worker.record.accepted) ∧
      (∀ id ∈ final.worker.record.executed, id ∈ history) ∧
      final.records = firstOfKey MarketRecord.toRecordKey (history.map writer.record) := by
  obtain ⟨history, consistent⟩ := run_linearized run
  exact ⟨history, consistent.offered, consistent.executed, consistent.records⟩

/-- Once all messages have been executed, which intervals are stored does not depend on the
order of the deliveries, their failures and repetitions; nor does what is stored, where
messages about the same interval agree. -/
theorem records_orderIndependent {events others : List WriterEvent} {final last : WriterState Contents}
    (run : Run writer.step {} events final) (another : Run writer.step {} others last)
    (same : ∀ id, id ∈ final.worker.record.accepted ↔ id ∈ last.worker.record.accepted)
    (executed : ∀ id ∈ final.worker.record.accepted, id ∈ final.worker.record.executed)
    (also : ∀ id ∈ last.worker.record.accepted, id ∈ last.worker.record.executed) :
    (final.records.map MarketRecord.toRecordKey).Perm (last.records.map MarketRecord.toRecordKey) ∧
      ((∀ id ∈ final.worker.record.accepted, ∀ other ∈ final.worker.record.accepted,
          (writer.record id).toRecordKey = (writer.record other).toRecordKey →
            writer.record id = writer.record other) →
        final.records.Perm last.records) := by
  obtain ⟨history, consistent⟩ := run_linearized run
  obtain ⟨other, alike⟩ := run_linearized another
  have offered : ∀ id, id ∈ history ↔ id ∈ other := by
    intro id
    constructor
    · intro member
      exact alike.executed id (also id ((same id).mp (consistent.offered id member)))
    · intro member
      exact consistent.executed id (executed id ((same id).mpr (alike.offered id member)))
  have records : ∀ record, record ∈ history.map writer.record ↔ record ∈ other.map writer.record := by
    intro record
    simp only [List.mem_map, offered]
  rw [consistent.records, alike.records]
  constructor
  · apply (List.perm_ext_iff_of_nodup (nodup_keys_firstOfKey _) (nodup_keys_firstOfKey _)).mpr
    intro key
    rw [mem_keys_firstOfKey, mem_keys_firstOfKey]
    simp only [List.mem_map, exists_exists_and_eq_and, offered]
  · intro determined
    apply firstOfKey_perm records
    intro record member record' member' equal
    obtain ⟨id, present, rfl⟩ := List.mem_map.mp member
    obtain ⟨id', present', rfl⟩ := List.mem_map.mp member'
    exact determined id (consistent.offered id present) id' (consistent.offered id' present') equal

section Announcements

/-- Each record is announced once at most, by the execution that has created it. -/
structure Announced (writer : MarketRecordWriter Contents) (state : WriterState Contents) : Prop where
  fresh : ∀ tag, state.worker.deliveries tag = none → state.stages tag = .finding
  stored : ∀ notification ∈ state.pricing, notification.payload ∈ state.records
  once : (state.pricing.map fun notification => notification.payload.toRecordKey).Nodup
  pending : ∀ tag id, state.executing tag = some id → state.stages tag = .announcing →
    writer.record id ∈ state.records ∧
      (writer.record id).toRecordKey ∉ state.pricing.map fun notification => notification.payload.toRecordKey
  apart : ∀ tag other id message, state.executing tag = some id → state.stages tag = .announcing →
    state.executing other = some message → state.stages other = .announcing →
      (writer.record id).toRecordKey = (writer.record message).toRecordKey → tag = other

variable {worker : BaseAMQPWorker.State} {queueEvent : BaseAMQPWorker.Event}

private theorem announced_initial : writer.Announced {} where
  fresh _ _ := rfl
  stored _ member := nomatch member
  once := List.nodup_nil
  pending _ _ executing := nomatch executing
  apart _ _ _ _ executing := nomatch executing

/-- An execution with a notification to send has not just come. -/
theorem Announced.executing_before (announced : writer.Announced state)
    (advances : state.worker.Advances queueEvent worker) (runs : { state with worker }.executing tag = some id)
    (announcing : state.stages tag = .announcing) : state.executing tag = some id := by
  rcases executing_of_advances advances runs with absent | executing
  · have finding := announced.fresh tag absent
    cases finding.symm.trans announcing
  · exact executing

theorem Announced.advance (announced : writer.Announced state) (advances : state.worker.Advances queueEvent worker) :
    writer.Announced { state with worker } := by
  constructor
  · exact fun tag absent => announced.fresh tag (advances.kept tag absent)
  · exact announced.stored
  · exact announced.once
  · intro tag id runs announcing
    exact announced.pending tag id (announced.executing_before advances runs announcing) announcing
  · intro tag other id message runs announcing also announces
    exact announced.apart tag other id message (announced.executing_before advances runs announcing) announcing
      (announced.executing_before advances also announces) announces

theorem Announced.create (announced : writer.Announced state) (record : MarketRecord Contents) :
    writer.Announced (state.create record) := by
  constructor
  · exact announced.fresh
  · intro notification member
    rw [WriterState.records_create]
    exact List.mem_append_left _ (announced.stored notification member)
  · exact announced.once
  · intro tag message runs announcing
    have pending := announced.pending tag message runs announcing
    rw [WriterState.records_create]
    exact ⟨List.mem_append_left _ pending.1, pending.2⟩
  · exact announced.apart

/-- An execution goes on to announce a record that has not been announced, nor will be by
another. -/
theorem Announced.setStage (announced : writer.Announced state) (executing : state.executing tag = some id)
    {stage : ExecutionStage}
    (created : stage = .announcing → writer.record id ∈ state.records ∧
      ((writer.record id).toRecordKey ∉ state.pricing.map fun notification => notification.payload.toRecordKey) ∧
      ∀ other message, state.executing other = some message → state.stages other = .announcing →
        (writer.record id).toRecordKey ≠ (writer.record message).toRecordKey) :
    writer.Announced (state.setStage tag stage) := by
  have stage_of : ∀ other, other ≠ tag → (state.setStage tag stage).stages other = state.stages other :=
    fun other different => by rw [WriterState.stages_setStage, Function.update_of_ne different]
  have own : (state.setStage tag stage).stages tag = stage := by
    rw [WriterState.stages_setStage, Function.update_self]
  constructor
  · intro other absent
    rw [stage_of other (ne_tag_of_executing executing absent)]
    exact announced.fresh other absent
  · exact announced.stored
  · exact announced.once
  · intro other message runs announcing
    by_cases same : other = tag
    · subst same
      obtain rfl := Option.some.inj (executing.symm.trans runs)
      obtain ⟨present, unannounced, -⟩ := created (own.symm.trans announcing)
      exact ⟨present, unannounced⟩
    · rw [stage_of other same] at announcing
      exact announced.pending other message runs announcing
  · intro first second message other runs announcing also announces equal
    by_cases here : first = tag
    · by_cases there : second = tag
      · rw [here, there]
      · subst here
        obtain rfl := Option.some.inj (executing.symm.trans runs)
        rw [stage_of second there] at announces
        exact absurd equal ((created (own.symm.trans announcing)).2.2 second other also announces)
    · by_cases there : second = tag
      · subst there
        obtain rfl := Option.some.inj (executing.symm.trans also)
        rw [stage_of first here] at announcing
        exact absurd equal.symm ((created (own.symm.trans announces)).2.2 first message runs announcing)
      · rw [stage_of first here] at announcing
        rw [stage_of second there] at announces
        exact announced.apart first second message other runs announcing also announces equal

private theorem Announced.keys_held (announced : writer.Announced state) {key : RecordKey}
    (member : key ∈ state.pricing.map fun notification => notification.payload.toRecordKey) :
    key ∈ state.records.map MarketRecord.toRecordKey := by
  obtain ⟨notification, sent, rfl⟩ := List.mem_map.mp member
  exact List.mem_map_of_mem (announced.stored notification sent)

theorem Announced.step (announced : writer.Announced state) (taken : writer.step state event = some next) :
    writer.Announced next := by
  cases step_transition taken with
  | queue _ stepped => exact announced.advance (step_advances stepped)
  | found _ _ stepped => exact announced.advance (step_advances stepped)
  | missed executing => exact announced.setStage executing nofun
  | failed stepped => exact announced.advance (step_advances stepped)
  | created executing accepted =>
    have absent := (accepts_iff.mp accepted).1
    refine (announced.create _).setStage executing fun _ => ⟨?_, ?_, ?_⟩
    · rw [WriterState.records_create]
      exact List.mem_append_right _ List.mem_cons_self
    · exact fun sent => absent (announced.keys_held sent)
    · intro other message runs announcing same
      have stored := (announced.pending other message runs announcing).1
      exact absent (same ▸ List.mem_map_of_mem stored)
  | createdAndFailed executing accepted stepped =>
    exact (announced.create _).advance (step_advances stepped)
  | @announced tag id arrives worker executing announcing stepped =>
    have advances := step_advances stepped
    have moved := announced.advance advances
    have pending := announced.pending tag id executing announcing
    cases arrives with
    | false => exact moved
    | true =>
      constructor
      · exact moved.fresh
      · intro notification member
        rcases List.mem_append.mp member with before | new
        · exact moved.stored notification before
        · rw [List.mem_singleton.mp new]
          exact pending.1
      · rw [if_pos rfl, List.map_append, List.map_singleton, ← List.concat_eq_append]
        exact moved.once.concat pending.2
      · intro other message runs announces
        have kept := moved.pending other message runs announces
        refine ⟨kept.1, fun sent => ?_⟩
        rw [if_pos rfl, List.map_append, List.map_singleton] at sent
        rcases List.mem_append.mp sent with before | new
        · exact kept.2 before
        · have earlier := announced.executing_before advances runs announces
          have same := List.mem_singleton.mp new
          obtain rfl := announced.apart other tag message id earlier announces executing announcing same
          exact not_executing_of_ended advances (.inl rfl) runs
      · exact moved.apart

/-- No interval is stored or announced twice, and what is announced for one is stored. -/
theorem notifications_ofRecords {events : List WriterEvent} {final : WriterState Contents}
    (run : Run writer.step {} events final) :
    (final.records.map MarketRecord.toRecordKey).Nodup ∧
      (final.pricing.map fun notification => notification.payload.toRecordKey).Nodup ∧
      ∀ notification ∈ final.pricing, notification.payload ∈ final.records := by
  have announced : writer.Announced final := run.invariant Announced.step announced_initial
  obtain ⟨history, consistent⟩ := run_linearized run
  refine ⟨?_, announced.once, announced.stored⟩
  rw [consistent.records]
  exact nodup_keys_firstOfKey _

end Announcements

section TwoDeliveries

/-- A trade record of one market that two collectors have published. -/
def tradeWriter : MarketRecordWriter ℕ where
  type := .TRADE
  retryLimit := 3
  markets := [7]
  messages collector := {
    exchange := "kraken"
    symbol := "BTC/USD"
    payload := { intervalStart := 0, intervalEnd := 60000, marketId := 7, contents := 5 }
    collectorTraceId := if collector = 0 then "1f00" else "2e00" }

def bothDelivered : List WriterEvent :=
  [.queue (.accepts 0), .queue (.accepts 1), .queue (.delivers 0 { id := 0 }), .queue (.delivers 1 { id := 1 })]

/-- Neither execution finds the record that the other one creates. -/
def racing : List WriterEvent :=
  bothDelivered ++ [.finds 0, .finds 1, .creates 1, .creates 0, .announces 1 true]

def oneAfterTheOther : List WriterEvent :=
  bothDelivered ++ [.finds 0, .creates 0, .announces 0 true, .finds 1]

theorem records_storedOrWaiting_racing : ∃ final, Run tradeWriter.step {} racing final ∧
    ∀ id ∈ final.worker.record.accepted,
      (tradeWriter.record id).toRecordKey ∈ final.records.map MarketRecord.toRecordKey ∨
        final.worker.InPrimary id ∨ final.worker.InRetry id ∨ final.worker.Discarded 3 id := by
  obtain ⟨final, run⟩ : ∃ final, Run tradeWriter.step {} racing final := ⟨_, run_iff_execute.mpr rfl⟩
  have orderly : Throughout tradeWriter.step tradeWriter.Orderly {} racing := by decide
  exact ⟨final, run, records_storedOrWaiting run orderly⟩

theorem findOrCreate_keepsFirst_racing : ∃ final, Run tradeWriter.step {} racing final ∧
    ∃ history : List ℕ, (∀ id ∈ history, id ∈ final.worker.record.accepted) ∧
      (∀ id ∈ final.worker.record.executed, id ∈ history) ∧
      final.records = firstOfKey MarketRecord.toRecordKey (history.map tradeWriter.record) := by
  obtain ⟨final, run⟩ : ∃ final, Run tradeWriter.step {} racing final := ⟨_, run_iff_execute.mpr rfl⟩
  exact ⟨final, run, findOrCreate_keepsFirst run⟩

theorem records_orderIndependent_racing : ∃ final last, Run tradeWriter.step {} racing final ∧
    Run tradeWriter.step {} oneAfterTheOther last ∧ final.records.Perm last.records := by
  obtain ⟨final, run, accepted, executed⟩ : ∃ final, Run tradeWriter.step {} racing final ∧
      final.worker.record.accepted = [1, 0] ∧ final.worker.record.executed = [1, 0] :=
    ⟨_, run_iff_execute.mpr rfl, rfl, rfl⟩
  obtain ⟨last, another, received, completed⟩ : ∃ last, Run tradeWriter.step {} oneAfterTheOther last ∧
      last.worker.record.accepted = [1, 0] ∧ last.worker.record.executed = [1, 0] :=
    ⟨_, run_iff_execute.mpr rfl, rfl, rfl⟩
  refine ⟨final, last, run, another, (records_orderIndependent run another ?_ ?_ ?_).2 fun _ _ _ _ _ => rfl⟩
  · exact fun id => by rw [accepted, received]
  · exact fun id => by rw [accepted, executed]; exact fun member => member
  · exact fun id => by rw [received, completed]; exact fun member => member

theorem notifications_ofRecords_racing : ∃ final, Run tradeWriter.step {} racing final ∧
    final.pricing.length = 1 ∧ ∀ notification ∈ final.pricing, notification.payload ∈ final.records := by
  obtain ⟨final, run, sent⟩ : ∃ final, Run tradeWriter.step {} racing final ∧ final.pricing.length = 1 :=
    ⟨_, run_iff_execute.mpr rfl, rfl⟩
  exact ⟨final, run, sent, (notifications_ofRecords run).2.2⟩

end TwoDeliveries

end MarketRecordWriter

end PriceFeed.Workers
