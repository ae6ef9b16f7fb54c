import Mathlib.Data.List.Basic
import Mathlib.Logic.Function.Basic
import PriceFeed.Library.Runs

/-! `BaseAMQPWorker` between its primary queue and its retry queue: the copy of a failed
message is published without waiting for the broker, and the message is acknowledged. -/

namespace PriceFeed.Workers.BaseAMQPWorker

open PriceFeed.Library

/-- A message in a queue with its `retryCount` header. -/
structure QueuedMessage where
  id : ℕ
  retryCount : Option ℕ := none
  deriving DecidableEq, Repr

namespace QueuedMessage

/-- `headers.retryCount || 1`. -/
def count (message : QueuedMessage) : ℕ :=
  match message.retryCount with
  | none | some 0 => 1
  | some count => count

def retried (message : QueuedMessage) : QueuedMessage :=
  { message with retryCount := some (message.count + 1) }

end QueuedMessage

inductive Stage where
  | executing
  | succeeded
  | retrying
  | discarding
  deriving DecidableEq, Repr

/-- A delivery is attached while the broker waits for its acknowledgement. The worker
goes on with a delivery that has been requeued. -/
structure Delivery where
  message : QueuedMessage
  stage : Stage := .executing
  attached : Bool := true
  copied : Bool := false
  deriving DecidableEq, Repr

/-- What has happened to the messages. -/
structure Record where
  accepted : List ℕ := []
  executed : List ℕ := []
  failed : List QueuedMessage := []
  discarded : List ℕ := []

/-- Deliveries are kept by their tags, and the publications that the broker has not
confirmed beside the tag of the delivery that they copy. -/
structure State where
  ready : List QueuedMessage := []
  deliveries : ℕ → Option Delivery := fun _ => none
  publications : List (ℕ × QueuedMessage) := []
  retryQueue : List QueuedMessage := []
  record : Record := {}

inductive Event where
  | accepts (id : ℕ)
  | delivers (tag : ℕ) (message : QueuedMessage)
  | succeeds (tag : ℕ)
  | fails (tag : ℕ)
  | ackThrows (tag : ℕ)
  | copyArrives (tag : ℕ) (copy : QueuedMessage) (confirmed : Bool)
  | copyFails (tag : ℕ) (copy : QueuedMessage)
  | ackArrives (tag : ℕ)
  | requeues (tag : ℕ)
  | deadLetters (message : QueuedMessage)
  deriving DecidableEq, Repr

namespace Record

variable (record : Record)

/-- The counts at which the executions of a message have failed. -/
def failedCounts (id : ℕ) : List ℕ :=
  (record.failed.filter fun message => message.id = id).map QueuedMessage.count

end Record

namespace State

variable (state : State) (retryLimit : ℕ)

def setDelivery (tag : ℕ) (delivery : Delivery) : State :=
  { state with deliveries := Function.update state.deliveries tag (some delivery) }

def publish (tag : ℕ) (copy : QueuedMessage) : State :=
  { state with publications := state.publications ++ [(tag, copy)] }

def handleRetry (tag : ℕ) (delivery : Delivery) : State :=
  if delivery.message.count ≤ retryLimit then
    (state.setDelivery tag { delivery with stage := .retrying, copied := false }).publish tag
      delivery.message.retried
  else state.setDelivery tag { delivery with stage := .discarding }

/-- Where a delivery is over for the broker, the message has been discarded if it was
not retried. -/
def acknowledge (tag : ℕ) (delivery : Delivery) : State :=
  let recorded := if delivery.stage = .discarding then
      { state with record.discarded := delivery.message.id :: state.record.discarded }
    else state
  recorded.setDelivery tag { delivery with attached := false }

def step : Event → Option State
  | .accepts id =>
    if id ∉ state.record.accepted then
      some { state with
        ready := state.ready ++ [{ id := id }]
        record.accepted := id :: state.record.accepted }
    else none
  | .delivers tag message =>
    if message ∈ state.ready ∧ state.deliveries tag = none then
      some { state.setDelivery tag { message := message } with ready := state.ready.erase message }
    else none
  | .succeeds tag => (state.deliveries tag).bind fun delivery =>
    if delivery.stage = .executing then
      some ({ state with record.executed := delivery.message.id :: state.record.executed }.setDelivery tag
        { delivery with stage := .succeeded })
    else none
  | .fails tag => (state.deliveries tag).bind fun delivery =>
    if delivery.stage = .executing then
      some ({ state with record.failed := state.record.failed ++ [delivery.message] }.handleRetry
        retryLimit tag delivery)
    else none
  -- the acknowledgement stands under the same `try` as the execution
  | .ackThrows tag => (state.deliveries tag).bind fun delivery =>
    if delivery.stage = .succeeded then some (state.handleRetry retryLimit tag delivery) else none
  -- a publication whose confirmation is lost is sent again
  | .copyArrives tag copy confirmed => (state.deliveries tag).bind fun delivery =>
    if (tag, copy) ∈ state.publications then
      some ({ state with
        retryQueue := state.retryQueue ++ [copy]
        publications := if confirmed then state.publications.erase (tag, copy)
          else state.publications }.setDelivery tag { delivery with copied := true })
    else none
  | .copyFails tag copy =>
    if (tag, copy) ∈ state.publications then
      some { state with publications := state.publications.erase (tag, copy) }
    else none
  | .ackArrives tag => (state.deliveries tag).bind fun delivery =>
    if delivery.attached ∧ delivery.stage ≠ .executing then some (state.acknowledge tag delivery) else none
  | .requeues tag => (state.deliveries tag).bind fun delivery =>
    if delivery.attached then
      some ({ state with ready := state.ready ++ [delivery.message] }.setDelivery tag
        { delivery with attached := false })
    else none
  | .deadLetters message =>
    if message ∈ state.retryQueue then
      some { state with
        retryQueue := state.retryQueue.erase message
        ready := state.ready ++ [message] }
    else none

/-- Ready, or delivered and not acknowledged. -/
def InPrimary (id : ℕ) : Prop :=
  (∃ message ∈ state.ready, message.id = id) ∨
    ∃ tag delivery, state.deliveries tag = some delivery ∧ delivery.attached ∧ delivery.message.id = id

/-- The count in the retry queue is one more than that of an execution that failed. -/
def InRetry (id : ℕ) : Prop :=
  ∃ message ∈ state.retryQueue, message.id = id ∧
    ∃ count ∈ state.record.failedCounts id, message.retryCount = some (count + 1)

def Discarded (id : ℕ) : Prop :=
  id ∈ state.record.discarded ∧ (state.record.failedCounts id).length = retryLimit + 1

/-- Every accepted message is where the retry path wants it. -/
def NoneLost : Prop :=
  ∀ id ∈ state.record.accepted,
    id ∈ state.record.executed ∨ state.InPrimary id ∨ state.InRetry id ∨ state.Discarded retryLimit id

/-- A message that has not been executed fails once at each count, and its delivery is
acknowledged for a retry once the copy is in the retry queue. -/
def Orderly : Event → Prop
  | .fails tag => ∀ delivery ∈ state.deliveries tag, delivery.message.id ∈ state.record.executed ∨
      delivery.message.count ∉ state.record.failedCounts delivery.message.id
  | .ackArrives tag => ∀ delivery ∈ state.deliveries tag, delivery.message.id ∈ state.record.executed ∨
      (delivery.stage = .retrying → delivery.copied)
  | _ => True

instance : ∀ event, Decidable (state.Orderly event)
  | .fails tag => inferInstanceAs (Decidable (∀ delivery ∈ state.deliveries tag,
      delivery.message.id ∈ state.record.executed ∨
        delivery.message.count ∉ state.record.failedCounts delivery.message.id))
  | .ackArrives tag => inferInstanceAs (Decidable (∀ delivery ∈ state.deliveries tag,
      delivery.message.id ∈ state.record.executed ∨ (delivery.stage = .retrying → delivery.copied)))
  | .accepts _ | .delivers .. | .succeeds _ | .ackThrows _ | .copyArrives .. | .copyFails ..
  | .requeues _ | .deadLetters _ => isTrue trivial

end State

namespace Record

variable (record : Record) (retryLimit : ℕ)

/-- A message that is waiting or being executed has a count that its failures have led to. -/
def Reached (message : QueuedMessage) : Prop :=
  message.id ∈ record.executed ∨ message.count ≤ retryLimit + 1 ∧
    (message.count = 1 ∨ ∃ count ∈ record.failedCounts message.id, message.count = count + 1)

def IsCopy (copy : QueuedMessage) : Prop :=
  copy.id ∈ record.executed ∨
    ∃ count ∈ record.failedCounts copy.id, count ≤ retryLimit ∧ copy.retryCount = some (count + 1)

/-- A delivery whose execution is over without success has failed at its count. -/
def Settled (delivery : Delivery) : Prop :=
  delivery.message.id ∈ record.executed ∨ match delivery.stage with
    | .executing => True
    | .succeeded => False
    | .retrying => delivery.message.count ∈ record.failedCounts delivery.message.id
    | .discarding => delivery.message.count ∈ record.failedCounts delivery.message.id ∧
        delivery.message.count = retryLimit + 1

/-- The counts of the failures are those from one on. -/
def Numbered (id : ℕ) : Prop :=
  id ∈ record.executed ∨ ∃ failures ≤ retryLimit + 1, record.failedCounts id = List.range' 1 failures

structure Extends (later : Record) : Prop where
  executed : record.executed ⊆ later.executed
  failed : ∀ id, record.failedCounts id ⊆ later.failedCounts id

variable {record retryLimit} {later : Record}

theorem Extends.reached {message : QueuedMessage} (grows : record.Extends later)
    (reached : record.Reached retryLimit message) : later.Reached retryLimit message := by
  rcases reached with executed | ⟨within, first | ⟨count, failed, next⟩⟩
  · exact .inl (grows.executed executed)
  · exact .inr ⟨within, .inl first⟩
  · exact .inr ⟨within, .inr ⟨count, grows.failed _ failed, next⟩⟩

theorem Extends.isCopy {copy : QueuedMessage} (grows : record.Extends later)
    (isCopy : record.IsCopy retryLimit copy) : later.IsCopy retryLimit copy := by
  rcases isCopy with executed | ⟨count, failed, counted⟩
  · exact .inl (grows.executed executed)
  · exact .inr ⟨count, grows.failed _ failed, counted⟩

theorem Extends.settled {delivery : Delivery} (grows : record.Extends later)
    (settled : record.Settled retryLimit delivery) : later.Settled retryLimit delivery := by
  rcases settled with executed | settled
  · exact .inl (grows.executed executed)
  · refine .inr ?_
    cases stage : delivery.stage with
    | executing => trivial
    | succeeded =>
      rw [stage] at settled
      exact settled
    | retrying =>
      rw [stage] at settled
      exact grows.failed _ settled
    | discarding =>
      rw [stage] at settled
      exact ⟨grows.failed _ settled.1, settled.2⟩

theorem failedCounts_append (message : QueuedMessage) (id : ℕ) :
    { record with failed := record.failed ++ [message] : Record }.failedCounts id =
      record.failedCounts id ++ if message.id = id then [message.count] else [] := by
  by_cases same : message.id = id
  · simp [failedCounts, same]
  · simp [failedCounts, same]

/-- A message that has not failed at its count has failed at every lower one. -/
theorem Reached.count_eq {message : QueuedMessage} {failures : ℕ}
    (first : message.count = 1 ∨ ∃ count ∈ record.failedCounts message.id, message.count = count + 1)
    (numbered : record.failedCounts message.id = List.range' 1 failures)
    (unfailed : message.count ∉ record.failedCounts message.id) : message.count = failures + 1 := by
  rw [numbered] at first unfailed
  simp only [List.mem_range'_1] at first unfailed
  rcases first with first | ⟨count, failed, next⟩
  · omega
  · omega

theorem IsCopy.reached {copy : QueuedMessage} (isCopy : record.IsCopy retryLimit copy) :
    record.Reached retryLimit copy := by
  rcases isCopy with executed | ⟨count, failed, within, counted⟩
  · exact .inl executed
  · have same : copy.count = count + 1 := by
      rw [QueuedMessage.count, counted]
      rfl
    exact .inr ⟨by omega, .inr ⟨count, failed, same⟩⟩

end Record

/-- The broker will not drop the delivery before its message is in the retry queue. -/
def Delivery.Carries (delivery : Delivery) (id : ℕ) : Prop :=
  delivery.attached ∧ (delivery.stage = .retrying → delivery.copied = false) ∧ delivery.message.id = id

namespace State

variable (state : State) (retryLimit : ℕ)

/-- The message is in a queue in its own right, not as the original of a copy. -/
def Alive (id : ℕ) : Prop :=
  (∃ message ∈ state.ready, message.id = id) ∨ (∃ message ∈ state.retryQueue, message.id = id) ∨
    ∃ tag delivery, state.deliveries tag = some delivery ∧ delivery.Carries id

structure Sound : Prop where
  numbered : ∀ id, state.record.Numbered retryLimit id
  ready : ∀ message ∈ state.ready, state.record.Reached retryLimit message
  retryQueue : ∀ message ∈ state.retryQueue, state.record.IsCopy retryLimit message
  publications : ∀ publication ∈ state.publications, state.record.IsCopy retryLimit publication.2
  copied : ∀ publication ∈ state.publications, ∃ delivery ∈ state.deliveries publication.1,
    delivery.message.id = publication.2.id
  deliveries : ∀ tag, ∀ delivery ∈ state.deliveries tag,
    state.record.Reached retryLimit delivery.message ∧ state.record.Settled retryLimit delivery
  alive : ∀ id ∈ state.record.accepted,
    id ∈ state.record.executed ∨ state.Alive id ∨ state.Discarded retryLimit id

variable {state retryLimit}

theorem Sound.noneLost (sound : state.Sound retryLimit) : state.NoneLost retryLimit := by
  intro id accepted
  rcases sound.alive id accepted with executed | alive | discarded
  · exact .inl executed
  · rcases alive with ready | ⟨message, queued, rfl⟩ | ⟨tag, delivery, found, attached, -, same⟩
    · exact .inr (.inl (.inl ready))
    · rcases sound.retryQueue message queued with executed | ⟨count, failed, -, counted⟩
      · exact .inl executed
      · exact .inr (.inr (.inl ⟨message, queued, rfl, count, failed, counted⟩))
    · exact .inr (.inl (.inr ⟨tag, delivery, found, attached, same⟩))
  · exact .inr (.inr (.inr discarded))

theorem sound_initial : ({} : State).Sound retryLimit where
  numbered _ := .inr ⟨0, Nat.zero_le _, rfl⟩
  ready _ member := nomatch member
  retryQueue _ member := nomatch member
  publications _ member := nomatch member
  copied _ member := nomatch member
  deliveries _ _ member := nomatch member
  alive _ member := nomatch member

section Deliveries

variable {tag : ℕ} {delivery changed : Delivery} {id : ℕ}

@[simp] theorem deliveries_setDelivery :
    (state.setDelivery tag changed).deliveries = Function.update state.deliveries tag (some changed) := rfl

theorem mem_setDelivery {other : ℕ} {found : Delivery}
    (member : found ∈ (state.setDelivery tag changed).deliveries other) :
    found = changed ∨ found ∈ state.deliveries other := by
  by_cases same : other = tag
  · subst same
    rw [deliveries_setDelivery, Function.update_self] at member
    exact .inl (Option.some.inj member).symm
  · rw [deliveries_setDelivery, Function.update_of_ne same] at member
    exact .inr member

/-- What the delivery carried before a change has to be accounted for after it. -/
theorem Sound.setDelivery (sound : state.Sound retryLimit)
    (reached : state.record.Reached retryLimit changed.message)
    (settled : state.record.Settled retryLimit changed)
    (same : ∀ delivery ∈ state.deliveries tag, delivery.message = changed.message)
    (kept : ∀ delivery ∈ state.deliveries tag, ∀ id, delivery.Carries id →
      id ∈ state.record.executed ∨ (state.setDelivery tag changed).Alive id ∨ state.Discarded retryLimit id) :
    (state.setDelivery tag changed).Sound retryLimit where
  numbered := sound.numbered
  ready := sound.ready
  retryQueue := sound.retryQueue
  publications := sound.publications
  copied := by
    intro publication member
    obtain ⟨delivery, found, copies⟩ := sound.copied publication member
    by_cases own : publication.1 = tag
    · rw [own] at found ⊢
      exact ⟨changed, Function.update_self .., by rw [← same delivery found, copies]⟩
    · exact ⟨delivery, (Function.update_of_ne own ..).trans found, copies⟩
  deliveries := by
    intro other found present
    rcases mem_setDelivery present with rfl | before
    · exact ⟨reached, settled⟩
    · exact sound.deliveries other found before
  alive := by
    intro id accepted
    rcases sound.alive id accepted with executed | alive | discarded
    · exact .inl executed
    · rcases alive with ready | queued | ⟨other, carrier, found, carries⟩
      · exact .inr (.inl (.inl ready))
      · exact .inr (.inl (.inr (.inl queued)))
      · by_cases same : other = tag
        · subst same
          exact kept carrier found id carries
        · exact .inr (.inl (.inr (.inr ⟨other, carrier, (Function.update_of_ne same ..).trans found, carries⟩)))
    · exact .inr (.inr discarded)

/-- A delivery goes on with its message. -/
theorem Sound.replaceDelivery (sound : state.Sound retryLimit)
    (found : state.deliveries tag = some delivery) (same : changed.message = delivery.message)
    (settled : state.record.Settled retryLimit changed)
    (kept : delivery.Carries delivery.message.id → delivery.message.id ∈ state.record.executed ∨
      (state.setDelivery tag changed).Alive delivery.message.id ∨
        state.Discarded retryLimit delivery.message.id) :
    (state.setDelivery tag changed).Sound retryLimit := by
  have own : ∀ other ∈ state.deliveries tag, other = delivery :=
    fun other present => (Option.some.inj (found.symm.trans present)).symm
  refine sound.setDelivery ?_ settled (fun other present => ?_) fun other present id carries => ?_
  · exact same ▸ (sound.deliveries tag delivery found).1
  · rw [own other present, same]
  · obtain rfl := own other present
    obtain rfl := carries.2.2
    exact kept carries

theorem alive_setDelivery (carries : changed.Carries id) : (state.setDelivery tag changed).Alive id :=
  .inr (.inr ⟨tag, changed, Function.update_self .., carries⟩)

theorem Sound.queues {ready retryQueue : List QueuedMessage} {publications : List (ℕ × QueuedMessage)}
    (sound : state.Sound retryLimit)
    (reached : ∀ message ∈ ready, state.record.Reached retryLimit message)
    (queued : ∀ message ∈ retryQueue, state.record.IsCopy retryLimit message)
    (published : publications ⊆ state.publications)
    (alive : ∀ id, state.Alive id →
      { state with ready, retryQueue, publications : State }.Alive id) :
    { state with ready, retryQueue, publications : State }.Sound retryLimit where
  numbered := sound.numbered
  ready := reached
  retryQueue := queued
  publications publication member := sound.publications publication (published member)
  copied publication member := sound.copied publication (published member)
  deliveries := sound.deliveries
  alive id accepted := (sound.alive id accepted).imp_right (.imp_left (alive id))

theorem Sound.publish {copy : QueuedMessage} (sound : state.Sound retryLimit)
    (isCopy : state.record.IsCopy retryLimit copy) (found : state.deliveries tag = some delivery)
    (copies : delivery.message.id = copy.id) : (state.publish tag copy).Sound retryLimit where
  numbered := sound.numbered
  ready := sound.ready
  retryQueue := sound.retryQueue
  publications := by
    intro publication member
    rcases List.mem_append.mp member with before | new
    · exact sound.publications publication before
    · obtain rfl := List.mem_singleton.mp new
      exact isCopy
  copied := by
    intro publication member
    rcases List.mem_append.mp member with before | new
    · exact sound.copied publication before
    · obtain rfl := List.mem_singleton.mp new
      exact ⟨delivery, found, copies⟩
  deliveries := sound.deliveries
  alive := sound.alive

/-- A copy of the message is published, or the message is to be discarded, once its
execution is over. -/
theorem Sound.handleRetry (sound : state.Sound retryLimit) (found : state.deliveries tag = some delivery)
    (failed : delivery.message.id ∈ state.record.executed ∨
      delivery.message.count ∈ state.record.failedCounts delivery.message.id) :
    (state.handleRetry retryLimit tag delivery).Sound retryLimit := by
  rw [State.handleRetry]
  split
  next within =>
    have retrying : (state.setDelivery tag { delivery with stage := .retrying, copied := false }).Sound
        retryLimit :=
      sound.replaceDelivery found rfl failed fun carries =>
        .inr (.inl (alive_setDelivery ⟨carries.1, fun _ => rfl, rfl⟩))
    refine retrying.publish ?_ (Function.update_self ..) rfl
    rcases failed with executed | failed
    · exact .inl executed
    · exact .inr ⟨_, failed, within, rfl⟩
  next beyond =>
    refine sound.replaceDelivery found rfl ?_ fun carries => ?_
    · rcases failed with executed | failed
      · exact .inl executed
      · rcases (sound.deliveries tag delivery found).1 with executed | ⟨most, -⟩
        · exact .inl executed
        · exact .inr ⟨failed, by dsimp only; omega⟩
    · exact .inr (.inl (alive_setDelivery ⟨carries.1, nofun, rfl⟩))

end Deliveries

theorem Sound.record {later : Record} (sound : state.Sound retryLimit) (grows : state.record.Extends later)
    (numbered : ∀ id, later.Numbered retryLimit id)
    (alive : ∀ id ∈ later.accepted, id ∈ later.executed ∨ state.Alive id ∨
      { state with record := later }.Discarded retryLimit id) :
    { state with record := later }.Sound retryLimit where
  numbered := numbered
  ready message member := grows.reached (sound.ready message member)
  retryQueue message member := grows.isCopy (sound.retryQueue message member)
  publications publication member := grows.isCopy (sound.publications publication member)
  copied := sound.copied
  deliveries tag delivery found :=
    (sound.deliveries tag delivery found).imp grows.reached grows.settled
  alive := alive

/-- An execution fails for the first time at its count. -/
theorem Sound.failed {message : QueuedMessage} (sound : state.Sound retryLimit)
    (reached : state.record.Reached retryLimit message)
    (once : message.id ∈ state.record.executed ∨
      message.count ∉ state.record.failedCounts message.id) :
    { state with record.failed := state.record.failed ++ [message] }.Sound retryLimit := by
  have grows : state.record.Extends { state.record with failed := state.record.failed ++ [message] } := by
    refine ⟨List.Subset.refl _, fun id => ?_⟩
    rw [Record.failedCounts_append]
    exact List.subset_append_left _ _
  have others : ∀ id, message.id ≠ id →
      { state.record with failed := state.record.failed ++ [message] }.failedCounts id =
        state.record.failedCounts id := by
    intro id other
    rw [Record.failedCounts_append, if_neg other, List.append_nil]
  have next : message.id ∈ state.record.executed ∨ ∃ failures ≤ retryLimit,
      state.record.failedCounts message.id = List.range' 1 failures ∧ message.count = failures + 1 := by
    rcases once with executed | unfailed
    · exact .inl executed
    · rcases reached with executed | ⟨within, first⟩
      · exact .inl executed
      · rcases sound.numbered message.id with executed | ⟨failures, -, numbered⟩
        · exact .inl executed
        · have count := Record.Reached.count_eq first numbered unfailed
          exact .inr ⟨failures, by omega, numbered, count⟩
  refine sound.record grows (fun id => ?_) fun id accepted => ?_
  · by_cases own : message.id = id
    · subst own
      rcases next with executed | ⟨failures, within, numbered, count⟩
      · exact .inl executed
      · refine .inr ⟨failures + 1, by omega, ?_⟩
        rw [Record.failedCounts_append, if_pos rfl, numbered, count, List.range'_1_concat, Nat.add_comm 1]
    · rw [Record.Numbered, others id own]
      exact sound.numbered id
  · rcases sound.alive id accepted with executed | alive | ⟨discarded, all⟩
    · exact .inl executed
    · exact .inr (.inl alive)
    · by_cases own : message.id = id
      · subst own
        rcases next with executed | ⟨failures, within, numbered, -⟩
        · exact .inl executed
        · rw [numbered, List.length_range'] at all
          omega
      · exact .inr (.inr ⟨discarded, by rw [others id own]; exact all⟩)

/-- A message is discarded at the highest count. -/
theorem Sound.discarded {message : QueuedMessage} (sound : state.Sound retryLimit)
    (failed : message.id ∈ state.record.executed ∨
      message.count ∈ state.record.failedCounts message.id ∧ message.count = retryLimit + 1) :
    message.id ∈ state.record.executed ∨
      (state.record.failedCounts message.id).length = retryLimit + 1 := by
  rcases failed with executed | ⟨failed, last⟩
  · exact .inl executed
  · rcases sound.numbered message.id with executed | ⟨failures, within, numbered⟩
    · exact .inl executed
    · rw [numbered, List.mem_range'_1] at failed
      rw [numbered, List.length_range']
      exact .inr (by omega)

theorem Sound.ready_append {message : QueuedMessage} (sound : state.Sound retryLimit)
    (reached : state.record.Reached retryLimit message) :
    { state with ready := state.ready ++ [message] }.Sound retryLimit := by
  refine sound.queues (fun other member => ?_) sound.retryQueue (List.Subset.refl _) fun id alive => ?_
  · rcases List.mem_append.mp member with before | new
    · exact sound.ready other before
    · rwa [List.mem_singleton.mp new]
  · exact alive.imp_left fun ⟨other, member, same⟩ => ⟨other, List.mem_append_left _ member, same⟩

theorem Sound.executed (sound : state.Sound retryLimit) (id : ℕ) :
    { state with record.executed := id :: state.record.executed }.Sound retryLimit := by
  refine sound.record ⟨List.subset_cons_self _ _, fun _ => List.Subset.refl _⟩ (fun other => ?_)
    fun other accepted => ?_
  · exact (sound.numbered other).imp_left (List.mem_cons_of_mem _)
  · exact (sound.alive other accepted).imp_left (List.mem_cons_of_mem _)

/-- The broker drops a delivery whose message has been executed or discarded, or is in the
retry queue. -/
theorem Sound.acknowledge {tag : ℕ} {delivery : Delivery} (sound : state.Sound retryLimit)
    (found : state.deliveries tag = some delivery) (finished : delivery.stage ≠ .executing)
    (orderly : delivery.message.id ∈ state.record.executed ∨ (delivery.stage = .retrying → delivery.copied)) :
    (state.acknowledge tag delivery).Sound retryLimit := by
  have settled := (sound.deliveries tag delivery found).2
  by_cases discarding : delivery.stage = .discarding
  · have recorded : { state with
        record.discarded := delivery.message.id :: state.record.discarded }.Sound retryLimit := by
      refine sound.record ⟨List.Subset.refl _, fun _ => List.Subset.refl _⟩ sound.numbered
        fun id accepted => ?_
      exact (sound.alive id accepted).imp_right (.imp_right (.imp_left (List.mem_cons_of_mem _)))
    rw [State.acknowledge, if_pos discarding]
    refine recorded.replaceDelivery found rfl settled fun _ => ?_
    rw [Record.Settled, discarding] at settled
    exact (sound.discarded settled).imp_right fun all => .inr ⟨List.mem_cons_self, all⟩
  · rw [State.acknowledge, if_neg discarding]
    refine sound.replaceDelivery found rfl settled fun carries => .inl ?_
    rcases orderly with executed | ready
    · exact executed
    · cases stage : delivery.stage with
      | executing => exact absurd stage finished
      | succeeded =>
        rw [Record.Settled, stage, or_false] at settled
        exact settled
      | retrying =>
        have copied := ready stage
        rw [carries.2.1 stage] at copied
        cases copied
      | discarding => exact absurd stage discarding

theorem Sound.step (sound : state.Sound retryLimit) {event : Event} {next : State}
    (orderly : state.Orderly event) (taken : state.step retryLimit event = some next) :
    next.Sound retryLimit := by
  cases event with
  | accepts id =>
    obtain ⟨-, rfl⟩ := enabled taken
    have first : state.record.Reached retryLimit { id := id } := .inr ⟨Nat.le_add_left 1 _, .inl rfl⟩
    have queued := sound.ready_append first
    refine queued.record ⟨List.Subset.refl _, fun _ => List.Subset.refl _⟩ sound.numbered fun other accepted => ?_
    rcases List.mem_cons.mp accepted with rfl | before
    · exact .inr (.inl (.inl ⟨{ id := other }, List.mem_append_right _ List.mem_cons_self, rfl⟩))
    · exact queued.alive other before
  | delivers tag message =>
    obtain ⟨⟨ready, free⟩, rfl⟩ := enabled taken
    have unused : ∀ delivery, delivery ∉ state.deliveries tag := by simp [free]
    have delivered : (state.setDelivery tag { message := message }).Sound retryLimit :=
      sound.setDelivery (sound.ready message ready) (.inr trivial)
        (fun delivery found => absurd found (unused delivery))
        fun delivery found => absurd found (unused delivery)
    refine delivered.queues (fun other member => sound.ready other (List.mem_of_mem_erase member))
      sound.retryQueue (List.Subset.refl _) fun id alive => ?_
    rcases alive with ⟨other, member, same⟩ | alive
    · by_cases chosen : other = message
      · have carries : ({ message := message } : Delivery).Carries id := ⟨rfl, nofun, chosen ▸ same⟩
        exact .inr (.inr ⟨tag, _, Function.update_self .., carries⟩)
      · exact .inl ⟨other, (List.mem_erase_of_ne chosen).mpr member, same⟩
    · exact .inr alive
  | succeeds tag =>
    obtain ⟨delivery, found, guarded⟩ := Option.bind_eq_some_iff.mp taken
    obtain ⟨executing, rfl⟩ := enabled guarded
    have executed := sound.executed delivery.message.id
    exact executed.replaceDelivery found rfl (.inl List.mem_cons_self) fun _ => .inl List.mem_cons_self
  | fails tag =>
    obtain ⟨delivery, found, guarded⟩ := Option.bind_eq_some_iff.mp taken
    obtain ⟨executing, rfl⟩ := enabled guarded
    refine (sound.failed (sound.deliveries tag delivery found).1 (orderly delivery found)).handleRetry found ?_
    rw [Record.failedCounts_append, if_pos rfl]
    exact .inr (List.mem_append_right _ List.mem_cons_self)
  | ackThrows tag =>
    obtain ⟨delivery, found, guarded⟩ := Option.bind_eq_some_iff.mp taken
    obtain ⟨succeeded, rfl⟩ := enabled guarded
    have settled := (sound.deliveries tag delivery found).2
    rw [Record.Settled, succeeded, or_false] at settled
    exact sound.handleRetry found (.inl settled)
  | copyArrives tag copy confirmed =>
    obtain ⟨delivery, found, guarded⟩ := Option.bind_eq_some_iff.mp taken
    obtain ⟨published, rfl⟩ := enabled guarded
    obtain ⟨origin, present, copies⟩ := sound.copied _ published
    obtain rfl := Option.some.inj (found.symm.trans present)
    have arrived : { state with
        retryQueue := state.retryQueue ++ [copy]
        publications := if confirmed then state.publications.erase (tag, copy)
          else state.publications }.Sound retryLimit := by
      refine sound.queues sound.ready (fun message member => ?_) ?_ fun id alive => ?_
      · rcases List.mem_append.mp member with before | new
        · exact sound.retryQueue message before
        · obtain rfl := List.mem_singleton.mp new
          exact sound.publications _ published
      · split
        · exact List.erase_subset
        · exact List.Subset.refl _
      · exact alive.imp_right (.imp_left fun ⟨message, member, same⟩ =>
          ⟨message, List.mem_append_left _ member, same⟩)
    refine arrived.replaceDelivery found rfl (sound.deliveries tag delivery found).2 fun _ => ?_
    exact .inr (.inl (.inr (.inl ⟨copy, List.mem_append_right _ List.mem_cons_self, copies.symm⟩)))
  | copyFails tag copy =>
    obtain ⟨-, rfl⟩ := enabled taken
    exact sound.queues sound.ready sound.retryQueue List.erase_subset fun _ => id
  | ackArrives tag =>
    obtain ⟨delivery, found, guarded⟩ := Option.bind_eq_some_iff.mp taken
    obtain ⟨⟨-, finished⟩, rfl⟩ := enabled guarded
    exact sound.acknowledge found finished (orderly delivery found)
  | requeues tag =>
    obtain ⟨delivery, found, guarded⟩ := Option.bind_eq_some_iff.mp taken
    obtain ⟨-, rfl⟩ := enabled guarded
    have requeued := sound.ready_append (sound.deliveries tag delivery found).1
    refine requeued.replaceDelivery found rfl (sound.deliveries tag delivery found).2 fun _ => ?_
    exact .inr (.inl (.inl ⟨delivery.message, List.mem_append_right _ List.mem_cons_self, rfl⟩))
  | deadLetters message =>
    obtain ⟨queued, rfl⟩ := enabled taken
    have appended := sound.ready_append (sound.retryQueue message queued).reached
    refine appended.queues appended.ready
      (fun other member => sound.retryQueue other (List.mem_of_mem_erase member))
      (List.Subset.refl _) fun id alive => ?_
    rcases alive with ready | ⟨other, member, same⟩ | carried
    · exact .inl ready
    · by_cases chosen : other = message
      · exact .inl ⟨message, List.mem_append_right _ List.mem_cons_self, chosen ▸ same⟩
      · exact .inr (.inl ⟨other, (List.mem_erase_of_ne chosen).mpr member, same⟩)
    · exact .inr (.inr carried)

/-- In every orderly run each accepted message has been executed, is in the primary queue,
is in the retry queue with its count increased, or has been discarded after one failure
more than the limit. -/
theorem noneLost_of_orderly {events : List Event} {final : State}
    (run : Run (State.step · retryLimit) {} events final)
    (orderly : Throughout (State.step · retryLimit) Orderly {} events) : final.NoneLost retryLimit := by
  have preserved : ∀ {state : State} {event next}, state.Sound retryLimit → state.Orderly event →
      state.step retryLimit event = some next → next.Sound retryLimit :=
    fun sound orderly taken => sound.step orderly taken
  exact (run.invariant_throughout preserved orderly sound_initial).noneLost

section OneMessage

def oneFailure : List Event :=
  [.accepts 0, .delivers 0 { id := 0 }, .fails 0]

/-- The copy arrives before the acknowledgement, and the second execution succeeds. -/
def retried : List Event :=
  oneFailure ++ [.copyArrives 0 ⟨0, some 2⟩ true, .ackArrives 0, .deadLetters ⟨0, some 2⟩,
    .delivers 1 ⟨0, some 2⟩, .succeeds 1, .ackArrives 1]

theorem noneLost_retried : ∃ final, Run (State.step · 3) {} retried final ∧ final.NoneLost 3 := by
  obtain ⟨final, run⟩ : ∃ final, Run (State.step · 3) {} retried final := ⟨_, run_iff_execute.mpr rfl⟩
  have orderly : Throughout (State.step · 3) Orderly {} retried := by decide
  exact ⟨final, run, noneLost_of_orderly run orderly⟩

/-- The publication of the copy fails, and the message is acknowledged all the same. -/
theorem message_lost : ∃ final,
    Run (State.step · 3) {} (oneFailure ++ [.copyFails 0 ⟨0, some 2⟩, .ackArrives 0]) final ∧
      0 ∈ final.record.accepted ∧ final.record.failed.length = 1 ∧ ¬ final.NoneLost 3 := by
  refine ⟨_, run_iff_execute.mpr rfl, List.mem_cons_self, rfl, fun kept => ?_⟩
  rcases kept 0 List.mem_cons_self with executed | primary | ⟨_, member, -⟩ | ⟨discarded, -⟩
  · cases executed
  · rcases primary with ⟨_, member, -⟩ | ⟨tag, delivery, found, attached, -⟩
    · cases member
    · cases tag with
      | zero =>
        cases found
        cases attached
      | succ tag => cases found
  · cases member
  · cases discarded

end OneMessage

end State

end PriceFeed.Workers.BaseAMQPWorker
