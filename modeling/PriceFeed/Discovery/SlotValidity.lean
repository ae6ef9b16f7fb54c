import PriceFeed.Discovery.IdentityMap
import PriceFeed.Discovery.NetworkSoundness
import PriceFeed.Discovery.ShareAgreement

/-! Which configurations a replica passes to its markets manager give it a slot:
a position inside its replica list, and exactly one self member. -/

namespace PriceFeed.Discovery

open PriceFeed.Library PriceFeed.Schedulers

/-- A configuration that sets a position sets one inside `replicaSize`, and one
that sets the cluster has a single self member. -/
structure ValidSlot (config : DynamicConfig) : Prop where
  position : ∀ position ∈ config.instancePosition, ∃ size ∈ config.replicaSize,
    0 ≤ position ∧ position < size
  self : ∀ members ∈ config.clusterMembers, members.countP ClusterMember.isSelf = 1

theorem indexOf_valid_iff {members : List String} {address : String} :
    0 ≤ indexOf members address ∧ indexOf members address < members.length ↔ address ∈ members := by
  by_cases listed : address ∈ members
  · have inside := List.idxOf_lt_length_of_mem listed
    simp only [indexOf, listed, ↓reduceIte, iff_true]
    omega
  · simp [indexOf, listed]

/-- The state `normalizeState` works on lists the replica and its identity. -/
structure ReplicaState.Lists (state : ReplicaState) (replica : Replica) : Prop where
  address : ∀ members ∈ state.replicaMembers, replica.address ∈ members
  identity : ∀ reports ∈ state.clusterMembers, ∃ report ∈ reports, report.identity = replica.identity

variable (collation : Collation)

/-- A normalised state is a valid slot exactly when it lists the replica. -/
theorem validSlot_normalizeState_iff {replica : Replica} {state : ReplicaState} {config : DynamicConfig}
    (passed : replica.normalizeState collation state = .ok config) :
    ValidSlot config ↔ state.Lists replica := by
  obtain ⟨replicaMembers, rateLimitMultiplier, clusterMembers⟩ := state
  cases clusterMembers with
  | none => cases passed
  | some reports =>
    cases passed
    have single := ClusterMembersReducer.count_self collation replica.identity reports
    have owned : (ClusterMembersReducer.hydratedMembers collation replica.identity reports).countP
        ClusterMember.isSelf = 1 ↔ ∃ report ∈ reports, report.identity = replica.identity := by
      rw [single]
      split <;> simp_all
    constructor
    · rintro ⟨position, self⟩
      refine ⟨?_, ?_⟩
      · rintro members ⟨⟩
        obtain ⟨size, same, inside⟩ := position _ rfl
        cases same
        exact indexOf_valid_iff.mp inside
      · rintro reports ⟨⟩
        exact owned.mp (self _ rfl)
    · rintro ⟨address, identity⟩
      refine ⟨?_, ?_⟩
      · intro position present
        cases replicaMembers with
        | none => cases present
        | some members =>
          cases present
          exact ⟨members.length, rfl, indexOf_valid_iff.mpr (address members rfl)⟩
      · rintro members ⟨⟩
        exact owned.mpr (identity reports rfl)

/-- A handler that passes on what `normalizeState` returns, and nothing when it
throws for want of a cluster list, passes a valid slot exactly when its state lists the replica. -/
theorem passed_valid_iff {replica : Replica} {state : ReplicaState} :
    (∀ config ∈ (replica.normalizeState collation state).toOption, ValidSlot config) ↔
      (state.clusterMembers.isSome → state.Lists replica) := by
  cases reports : state.clusterMembers with
  | none =>
    simp [Replica.normalizeState, reports, ClusterMembersReducer.normalizeState, bind, Except.bind,
      Except.toOption]
  | some cluster =>
    have normalised : ∃ config, replica.normalizeState collation state = .ok config := by
      simp [Replica.normalizeState, reports, ClusterMembersReducer.normalizeState_some, bind,
        Except.bind, pure, Except.pure]
    obtain ⟨config, passed⟩ := normalised
    have valid := validSlot_normalizeState_iff collation passed
    simp [passed, Except.toOption, valid]

/-- A STATUS handler that starts the markets finds the replica's own report,
under its present address, in its buffer. -/
def Node.OwnStatusBuffered (node : Node) : Prop :=
  node.hasStarted = false →
    ∃ message ∈ node.statusMessageBuffer.messages,
      message.sender = node.replica.getSenderCredentials

/-- When both lists have been adopted, the replica list has the present address,
and a member of the own identity that has not closed is left in the cluster. -/
def Node.CloseKeepsOwn (node : Node) : Prop :=
  ∀ members ∈ node.replica.replicaMembers, ∀ reports ∈ node.replica.clusterMembers,
    node.replica.address ∈ members ∧
      ∃ report ∈ reports, report.identity = node.replica.identity ∧
        report.address ∉ node.closeMessageBuffer.messages.map Credentials.address

instance (node : Node) : Decidable node.OwnStatusBuffered :=
  inferInstanceAs (Decidable (_ → _))

private theorem lists_aggregateState_iff {replica : Replica} {buffer : List StatusMessage} :
    (replica.aggregateState collation buffer).2.Lists (replica.aggregateState collation buffer).1 ↔
      ∃ message ∈ buffer, message.sender = replica.getSenderCredentials := by
  constructor
  · rintro ⟨address, -⟩
    have listed : replica.address ∈ ReplicaMembersReducer.aggregateState replica.identity buffer :=
      address _ rfl
    rw [ReplicaMembersReducer.aggregateState, List.mem_insertionSort] at listed
    obtain ⟨message, kept, here⟩ := List.mem_map.mp listed
    obtain ⟨present, same⟩ := List.mem_filter.mp kept
    refine ⟨message, present, ?_⟩
    simp only [decide_eq_true_eq] at same
    simp only [Replica.getSenderCredentials, ← here, ← same]
  · rintro ⟨message, present, own⟩
    refine ⟨?_, ?_⟩
    · rintro members ⟨⟩
      rw [ReplicaMembersReducer.aggregateState, List.mem_insertionSort]
      refine List.mem_map.mpr ⟨message, List.mem_filter.mpr ⟨present, ?_⟩, ?_⟩
      · simp [own, Replica.getSenderCredentials]
      · simp [own, Replica.getSenderCredentials, Replica.aggregateState]
    · rintro reports ⟨⟩
      refine ⟨⟨message.sender.address, message.sender.identity, message.data.clusterMemberInterval⟩,
        ?_, ?_⟩
      · rw [ClusterMembersReducer.aggregateState, List.mem_insertionSort]
        exact List.mem_map.mpr ⟨message, present, rfl⟩
      · simp [own, Replica.getSenderCredentials, Replica.aggregateState]

theorem handleStatusMessage_valid_iff (node : Node) :
    (∀ config ∈ (node.handleStatusMessage collation).2, ValidSlot config) ↔
      node.OwnStatusBuffered := by
  cases started : node.hasStarted with
  | true => simp [Node.handleStatusMessage, Node.OwnStatusBuffered, started]
  | false =>
    have normalised : ∃ config, (node.replica.aggregateState collation
        node.statusMessageBuffer.messages).1.normalizeState collation
          (node.replica.aggregateState collation node.statusMessageBuffer.messages).2 = .ok config :=
      ⟨_, rfl⟩
    obtain ⟨config, passed⟩ := normalised
    have valid := validSlot_normalizeState_iff collation passed
    rw [lists_aggregateState_iff] at valid
    simp [Node.handleStatusMessage, Node.OwnStatusBuffered, started, passed, valid]

theorem handleCloseMessage_valid_iff {node : Node}
    (foreign : ∀ sender ∈ node.closeMessageBuffer.messages, sender.address ≠ node.replica.address) :
    (∀ config ∈ (node.handleCloseMessage collation).2, ValidSlot config) ↔ node.CloseKeepsOwn := by
  cases members : node.replica.replicaMembers with
  | none =>
    simp [Node.handleCloseMessage, Node.CloseKeepsOwn, Replica.aggregateCloseState,
      ReplicaMembersReducer.aggregateCloseState, members]
  | some list =>
    cases reports : node.replica.clusterMembers with
    | none =>
      simp [Node.handleCloseMessage, Node.CloseKeepsOwn, Replica.aggregateCloseState,
        ReplicaMembersReducer.aggregateCloseState, ClusterMembersReducer.aggregateCloseState,
        members, reports]
    | some cluster =>
      have kept : node.replica.address ∉
          (node.closeMessageBuffer.messages.filter fun sender =>
            sender.identity = node.replica.identity).map Credentials.address := by
        intro closed
        obtain ⟨sender, present, here⟩ := List.mem_map.mp closed
        exact foreign sender (List.mem_filter.mp present).1 here
      simp only [Node.handleCloseMessage, Node.CloseKeepsOwn, Replica.aggregateCloseState,
        ReplicaMembersReducer.aggregateCloseState, ClusterMembersReducer.aggregateCloseState,
        members, reports, passed_valid_iff]
      constructor
      · rintro lists _ ⟨⟩ _ ⟨⟩
        obtain ⟨address, identity⟩ := lists rfl
        obtain ⟨report, left, own⟩ := identity _ rfl
        obtain ⟨present, open'⟩ := List.mem_filter.mp left
        exact ⟨(List.mem_filter.mp (address _ rfl)).1, report, present, own, by simpa using open'⟩
      · intro keeps _
        obtain ⟨listed, report, present, own, open'⟩ := keeps list rfl cluster rfl
        refine ⟨?_, ?_⟩
        · rintro members ⟨⟩
          exact List.mem_filter.mpr ⟨listed, by simpa using kept⟩
        · rintro reports ⟨⟩
          exact ⟨report, List.mem_filter.mpr ⟨present, by simpa using open'⟩, own⟩

/-- What a SHARE handler passes on is always a valid slot: the sanitised lists hold the present
address, which no other identity ever had. -/
theorem handleShareMessage_valid {node : Node} {issued : List Credentials}
    (distinct : AddressesDistinct issued) (heard : node.Heard issued) :
    ∀ config ∈ (node.handleShareMessage collation).2, ValidSlot config := by
  simp only [Node.handleShareMessage]
  split
  · rw [passed_valid_iff]
    intro _
    refine ⟨?_, ?_⟩
    · intro members sanitised
      obtain ⟨_, listed⟩ := Option.filter_eq_some_iff.mp sanitised
      exact of_decide_eq_true listed
    · intro reports sanitised
      have filtered : (some (ClusterMembersReducer.aggregateShareState collation
          node.shareMessageBuffer.messages)).filter
            (fun members => members.any fun member => member.address = node.replica.address) =
          some reports := sanitised
      obtain ⟨merged, listed⟩ := Option.filter_eq_some_iff.mp filtered
      cases merged
      obtain ⟨report, present, here⟩ := List.any_eq_true.mp listed
      obtain ⟨message, buffered, member⟩ := mem_buffer_of_mem_aggregateShareState collation present
      have joined : node.link ≠ .idle := by
        intro idle
        rw [heard.silent idle] at buffered
        cases buffered
      have same : report.credentials = node.replica.getSenderCredentials :=
        distinct.eq (heard.share message buffered report member) (heard.own joined)
          (of_decide_eq_true here)
      exact ⟨report, present, congrArg Credentials.identity same⟩
  · simp

end PriceFeed.Discovery
