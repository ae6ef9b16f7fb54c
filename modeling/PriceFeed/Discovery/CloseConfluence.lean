import Mathlib.Data.Int.ConditionallyCompleteOrder
import Mathlib.Data.Set.Function
import Mathlib.Order.Interval.Set.Defs
import PriceFeed.Discovery.SlotValidity

/-! The survivors of an identity receive the same CLOSE messages in buffers of their own, and
end with the same lists and a position each. -/

namespace PriceFeed.Discovery

open PriceFeed.Library PriceFeed.Schedulers

namespace Replica

variable (collation : Collation)

/-- `handleCloseMessage` on one buffer: the replica and the configuration its reload takes. -/
def closeBatch (replica : Replica) (buffer : List Credentials) : Except StateError (Replica × DynamicConfig) :=
  let (narrowed, result) := replica.aggregateCloseState buffer
  match result with
  | .error error => .error error
  | .ok state => (narrowed.normalizeState collation state).map fun config => (narrowed, config)

/-- The buffers one after the other, with the configuration in force after them. -/
def closeBatches (replica : Replica) (config : DynamicConfig) :
    List (List Credentials) → Except StateError (Replica × DynamicConfig)
  | [] => .ok (replica, config)
  | buffer :: rest => do
    let (narrowed, next) ← replica.closeBatch collation buffer
    narrowed.closeBatches next rest

end Replica

/-- The handler of a node passes on what `closeBatch` computes. -/
theorem Node.handleCloseMessage_closeBatch {collation : Collation} (node : Node) {narrowed : Replica}
    {config : DynamicConfig}
    (closed : node.replica.closeBatch collation node.closeMessageBuffer.messages = .ok (narrowed, config)) :
    (node.handleCloseMessage collation).1.replica = narrowed ∧
      (node.handleCloseMessage collation).2 = some config := by
  rw [Replica.closeBatch] at closed
  rw [Node.handleCloseMessage]
  cases outcome : node.replica.aggregateCloseState node.closeMessageBuffer.messages with
  | mk other result =>
    rw [outcome] at closed
    cases result with
    | error error => cases closed
    | ok state =>
      dsimp only at closed ⊢
      cases passed : other.normalizeState collation state with
      | error error =>
        rw [passed] at closed
        cases closed
      | ok made =>
        rw [passed] at closed
        cases closed
        exact ⟨rfl, rfl⟩

/-- The replica of an identity has adopted these lists, and runs under the slot they give it. -/
structure Holds (identity : String) (members : List String) (reports : List MemberReport) (replica : Replica)
    (config : DynamicConfig) : Prop where
  identity : replica.identity = identity
  replicaMembers : replica.replicaMembers = some members
  clusterMembers : replica.clusterMembers = some reports
  replicaSize : config.replicaSize = some members.length
  instancePosition : config.instancePosition = some (indexOf members replica.address)

/-- The addresses that are left when these senders have closed. -/
def openMembers (members : List String) (closed : List Credentials) : List String :=
  members.filter fun address => address ∉ closed.map Credentials.address

def openReports (reports : List MemberReport) (closed : List Credentials) : List MemberReport :=
  reports.filter fun report => report.address ∉ closed.map Credentials.address

/-- The senders of one identity. -/
def ofIdentity (identity : String) (closed : List Credentials) : List Credentials :=
  closed.filter fun sender => sender.identity = identity

section Batches

variable {collation : Collation} {identity : String} {members : List String} {reports : List MemberReport}
  {replica : Replica} {config : DynamicConfig}

/-- One buffer removes the senders of the own identity from the members, and all senders from the cluster. -/
theorem Holds.closeBatch (holds : Holds identity members reports replica config) (collation : Collation)
    (buffer : List Credentials) :
    ∃ narrowed next, replica.closeBatch collation buffer = .ok (narrowed, next) ∧
      narrowed.address = replica.address ∧
      Holds identity (openMembers members (ofIdentity identity buffer)) (openReports reports buffer) narrowed next := by
  obtain ⟨rfl, adopted, cluster, -, -⟩ := holds
  refine ⟨{ replica with
      replicaMembers := some (openMembers members (ofIdentity replica.identity buffer))
      clusterMembers := some (openReports reports buffer) },
    { replicaSize := some (openMembers members (ofIdentity replica.identity buffer)).length
      instancePosition := some
        (indexOf (openMembers members (ofIdentity replica.identity buffer)) replica.address)
      clusterMembers := some (ClusterMembersReducer.hydratedMembers collation replica.identity
        (openReports reports buffer)) }, ?_, rfl, ⟨rfl, rfl, rfl, rfl, rfl⟩⟩
  simp only [Replica.closeBatch, Replica.aggregateCloseState, ReplicaMembersReducer.aggregateCloseState,
    ClusterMembersReducer.aggregateCloseState, adopted, cluster]
  rfl

private theorem openMembers_append (first second : List Credentials) :
    openMembers (openMembers members first) second = openMembers members (first ++ second) := by
  rw [openMembers, openMembers, openMembers, List.filter_filter]
  refine List.filter_congr fun address _ => ?_
  simp only [List.map_append, List.mem_append, not_or, Bool.decide_and]
  exact Bool.and_comm _ _

private theorem openReports_append (first second : List Credentials) :
    openReports (openReports reports first) second = openReports reports (first ++ second) := by
  rw [openReports, openReports, openReports, List.filter_filter]
  refine List.filter_congr fun report _ => ?_
  simp only [List.map_append, List.mem_append, not_or, Bool.decide_and]
  exact Bool.and_comm _ _

private theorem ofIdentity_append (first second : List Credentials) :
    ofIdentity identity (first ++ second) = ofIdentity identity first ++ ofIdentity identity second :=
  List.filter_append ..

/-- However the messages are split into buffers, the removals add up to those of all messages. -/
theorem Holds.closeBatches (collation : Collation) (batches : List (List Credentials))
    (holds : Holds identity members reports replica config) :
    ∃ final last, replica.closeBatches collation config batches = .ok (final, last) ∧
      final.address = replica.address ∧
      Holds identity (openMembers members (ofIdentity identity batches.flatten))
        (openReports reports batches.flatten) final last := by
  induction batches generalizing replica config members reports with
  | nil =>
    refine ⟨replica, config, rfl, rfl, ?_⟩
    simpa [openMembers, openReports, ofIdentity] using holds
  | cons buffer rest ih =>
    obtain ⟨narrowed, next, closed, address, narrows⟩ := holds.closeBatch collation buffer
    obtain ⟨final, last, others, kept, settled⟩ := ih narrows
    refine ⟨final, last, ?_, kept.trans address, ?_⟩
    · rw [Replica.closeBatches, closed]
      exact others
    · rwa [openMembers_append, openReports_append, ← ofIdentity_append] at settled

/-- Only the set of the senders matters. -/
private theorem openReports_congr {first second : List Credentials} (same : ∀ sender, sender ∈ first ↔ sender ∈ second) :
    openReports reports first = openReports reports second := by
  refine List.filter_congr fun report _ => ?_
  simp only [List.mem_map, same]

/-- The filter by identity changes nothing for addresses that belong to one identity. -/
private theorem openMembers_ofIdentity {closed departed : List Credentials}
    (same : ∀ sender, sender ∈ closed ↔ sender ∈ departed)
    (own : ∀ sender ∈ departed, sender.address ∈ members → sender.identity = identity) :
    openMembers members (ofIdentity identity closed) = openMembers members departed := by
  refine List.filter_congr fun address listed => ?_
  have closes : address ∈ (ofIdentity identity closed).map Credentials.address ↔
      address ∈ departed.map Credentials.address := by
    constructor
    · intro closing
      obtain ⟨sender, present, rfl⟩ := List.mem_map.mp closing
      exact List.mem_map_of_mem ((same sender).mp (List.mem_filter.mp present).1)
    · intro closing
      obtain ⟨sender, present, rfl⟩ := List.mem_map.mp closing
      refine List.mem_map_of_mem (List.mem_filter.mpr ⟨(same sender).mpr present, ?_⟩)
      simpa using own sender present listed
  simp only [closes]

end Batches

private theorem indexOf_bijOn {members : List String} (distinct : members.Nodup) :
    Set.BijOn (indexOf members) {address | address ∈ members} (Set.Ico 0 (members.length : ℤ)) := by
  refine ⟨fun address listed => indexOf_valid_iff.mpr listed, fun first listed second present same => ?_,
    fun position within => ?_⟩
  · change first ∈ members at listed
    change second ∈ members at present
    simp only [indexOf, listed, present, if_true, Nat.cast_inj] at same
    exact (List.idxOf_inj listed).mp same
  · obtain ⟨index, rfl⟩ := Int.eq_ofNat_of_zero_le within.1
    have inside : index < members.length := by exact_mod_cast within.2
    refine ⟨members[index], List.getElem_mem inside, ?_⟩
    rw [indexOf, if_pos (List.getElem_mem inside), distinct.idxOf_getElem index inside]

/-- The survivors of an identity that hold the same lists, each with the buffers in which it receives
the CLOSE messages of the departed, end with the same lists, which have lost the departed addresses,
and with the positions of a list of their size. -/
theorem close_confluent {Survivor : Type*} {collation : Collation} {identity : String} {members : List String}
    {reports : List MemberReport} {replica : Survivor → Replica} {config : Survivor → DynamicConfig}
    {batches : Survivor → List (List Credentials)} {departed : List Credentials}
    (shared : ∀ survivor, Holds identity members reports (replica survivor) (config survivor))
    (distinct : members.Nodup)
    (own : ∀ sender ∈ departed, sender.address ∈ members → sender.identity = identity)
    (received : ∀ survivor sender, sender ∈ (batches survivor).flatten ↔ sender ∈ departed)
    (apart : Function.Injective fun survivor => (replica survivor).address)
    (surviving : ∀ address, (∃ survivor, (replica survivor).address = address) ↔
      address ∈ members ∧ address ∉ departed.map Credentials.address) :
    ∃ position : Survivor → ℤ,
      (∀ survivor, ∃ final last, (replica survivor).closeBatches collation (config survivor) (batches survivor) =
          .ok (final, last) ∧
        final.replicaMembers = some (openMembers members departed) ∧
        final.clusterMembers = some (openReports reports departed) ∧
        last.replicaSize = some (openMembers members departed).length ∧
        last.instancePosition = some (position survivor)) ∧
      Set.BijOn position Set.univ (Set.Ico 0 ((openMembers members departed).length : ℤ)) := by
  refine ⟨fun survivor => indexOf (openMembers members departed) (replica survivor).address, fun survivor => ?_, ?_⟩
  · obtain ⟨final, last, closed, address, holds⟩ :=
      (shared survivor).closeBatches collation (batches survivor)
    rw [openMembers_ofIdentity (received survivor) own, openReports_congr (received survivor)] at holds
    have placed := holds.instancePosition
    rw [address] at placed
    exact ⟨final, last, closed, holds.replicaMembers, holds.clusterMembers, holds.replicaSize, placed⟩
  · have positions := indexOf_bijOn (distinct.filter fun address => address ∉ departed.map Credentials.address)
    refine positions.comp ⟨fun survivor _ => ?_, apart.injOn, fun address listed => ?_⟩
    · obtain ⟨listed, left⟩ := (surviving (replica survivor).address).mp ⟨survivor, rfl⟩
      exact List.mem_filter.mpr ⟨listed, by simpa using left⟩
    · obtain ⟨present, left⟩ := List.mem_filter.mp listed
      obtain ⟨survivor, here⟩ := (surviving address).mpr ⟨present, by simpa using left⟩
      exact ⟨survivor, trivial, here⟩

section TwoSurvivors

/-- Two of three replicas of the identity `kraken`, in a cluster with one of another. -/
def survivorAddress (first : Bool) : String := if first then "q1" else "q2"

def clusterOfFour : List MemberReport :=
  [⟨"b1", "binance", 500⟩, ⟨"q1", "kraken", 1000⟩, ⟨"q2", "kraken", 1000⟩, ⟨"q3", "kraken", 1000⟩]

def survivor (first : Bool) : Replica :=
  { knownPair (survivorAddress first) with
    replicaMembers := some ["q1", "q2", "q3"]
    clusterMembers := some clusterOfFour }

def survivorConfig (first : Bool) : DynamicConfig :=
  { replicaSize := some 3, instancePosition := some (indexOf ["q1", "q2", "q3"] (survivorAddress first)) }

def departedPair : List Credentials := [⟨"b1", "binance"⟩, ⟨"q3", "kraken"⟩]

/-- The first receives one of the messages twice, the second both in one buffer. -/
def survivorBatches (first : Bool) : List (List Credentials) :=
  if first then [[⟨"q3", "kraken"⟩], [⟨"q3", "kraken"⟩, ⟨"b1", "binance"⟩]] else [departedPair]

theorem close_confluent_survivors : ∃ position : Bool → ℤ,
    (∀ first, ∃ final last, (survivor first).closeBatches .ascii (survivorConfig first) (survivorBatches first) =
        .ok (final, last) ∧
      final.replicaMembers = some (openMembers ["q1", "q2", "q3"] departedPair) ∧
      final.clusterMembers = some (openReports clusterOfFour departedPair) ∧
      last.replicaSize = some (openMembers ["q1", "q2", "q3"] departedPair).length ∧
      last.instancePosition = some (position first)) ∧
    Set.BijOn position Set.univ (Set.Ico 0 ((openMembers ["q1", "q2", "q3"] departedPair).length : ℤ)) := by
  have shared : ∀ first, Holds "kraken" ["q1", "q2", "q3"] clusterOfFour (survivor first)
      (survivorConfig first) := fun first => ⟨rfl, rfl, rfl, rfl, rfl⟩
  refine close_confluent shared (by decide) (by decide) (fun first sender => ?_) (by decide)
    (fun address => ?_)
  · cases first with
    | false => simp [survivorBatches, departedPair]
    | true =>
      simp only [survivorBatches, departedPair, if_true, List.flatten_cons, List.flatten_nil, List.append_nil,
        List.mem_append, List.mem_cons, List.not_mem_nil, or_false]
      tauto
  · constructor
    · rintro ⟨first, rfl⟩
      cases first <;> decide
    · rintro ⟨listed, left⟩
      simp only [List.mem_cons, List.not_mem_nil, or_false] at listed
      rcases listed with rfl | rfl | rfl
      · exact ⟨true, rfl⟩
      · exact ⟨false, rfl⟩
      · exact absurd (by decide) left

end TwoSurvivors

end PriceFeed.Discovery
