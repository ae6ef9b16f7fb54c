import PriceFeed.Discovery.IdentityMap
import PriceFeed.Discovery.ShareAgreement

/-! What a STATUS buffer counts when an address has answered more than once. -/

namespace PriceFeed.Discovery

open PriceFeed.Library PriceFeed.Schedulers

def addressOf (message : StatusMessage) : String := message.sender.address

/-- The messages of one identity, as they arrived. -/
def statusesOf (identity : String) (buffer : List StatusMessage) : List StatusMessage :=
  buffer.filter fun message => message.sender.identity = identity

/-- The addresses of an identity, each once. -/
def distinctAddresses (identity : String) (buffer : List StatusMessage) : List String :=
  ((statusesOf identity buffer).map addressOf).dedup

/-- The sum of one reported interval for each address of an identity. -/
def OnePerAddress (identity : String) (buffer : List StatusMessage) (interval : ℚ) : Prop :=
  ∃ chosen : List StatusMessage, (∀ message ∈ chosen, message ∈ statusesOf identity buffer) ∧
    (chosen.map addressOf).Perm (distinctAddresses identity buffer) ∧
    interval = (chosen.map fun message => message.data.clusterMemberInterval).sum

/-- The members of a configuration before they are hydrated: the identities of the buffer, each
with one interval an address. -/
structure CountsIdentities (buffer : List StatusMessage) (dry : List ClusterMembersReducer.DryMember) :
    Prop where
  distinct : (dry.map ClusterMembersReducer.DryMember.identity).Nodup
  present : ∀ identity, identity ∈ dry.map ClusterMembersReducer.DryMember.identity ↔
    statusesOf identity buffer ≠ []
  intervals : ∀ member ∈ dry, OnePerAddress member.identity buffer member.interval

/-- A replica is counted once: in the lists, in the size of its identity and in the interval. -/
structure CountedOnce (collation : Collation) (replica : Replica) (buffer : List StatusMessage) : Prop where
  replicaMembers : ∀ members ∈ (replica.aggregateState collation buffer).2.replicaMembers,
    members.Pairwise codeUnitLe ∧ members.Nodup
  clusterMembers : ∀ reports ∈ (replica.aggregateState collation buffer).2.clusterMembers,
    reports.Pairwise (ClusterMembersReducer.addressLe collation) ∧ (reports.map MemberReport.address).Nodup
  configured : ∃ config dry, (replica.aggregateState collation buffer).1.normalizeState collation
      (replica.aggregateState collation buffer).2 = .ok config ∧
    config.replicaSize = some (distinctAddresses replica.identity buffer).length ∧
    config.clusterMembers = some (dry.map fun member => ⟨member.interval, member.type⟩) ∧
    CountsIdentities buffer dry

section Lists

variable {collation : Collation} {identity : String} {buffer : List StatusMessage}

/-- The report a STATUS message turns into. -/
def reportOf (message : StatusMessage) : MemberReport :=
  ⟨message.sender.address, message.sender.identity, message.data.clusterMemberInterval⟩

theorem aggregateState_perm (collation : Collation) (buffer : List StatusMessage) :
    (ClusterMembersReducer.aggregateState collation buffer).Perm (buffer.map reportOf) :=
  List.perm_insertionSort _ _

theorem map_address_aggregateState : ((ClusterMembersReducer.aggregateState collation buffer).map
    MemberReport.address).Perm (buffer.map addressOf) := by
  have addresses := (aggregateState_perm collation buffer).map MemberReport.address
  rwa [List.map_map] at addresses

theorem replicaMembers_perm :
    (ReplicaMembersReducer.aggregateState identity buffer).Perm ((statusesOf identity buffer).map addressOf) :=
  List.perm_insertionSort _ _

theorem reportsOf_perm (collation : Collation) (identity : String) (buffer : List StatusMessage) :
    (ClusterMembersReducer.reportsOf identity (ClusterMembersReducer.aggregateState collation buffer)).Perm
      ((statusesOf identity buffer).map reportOf) := by
  have reports := (aggregateState_perm collation buffer).filter fun report => report.identity = identity
  rwa [List.filter_map] at reports

variable (distinct : (buffer.map addressOf).Nodup)

include distinct

theorem statusesOf_nodup (identity : String) : ((statusesOf identity buffer).map addressOf).Nodup :=
  distinct.sublist (List.filter_sublist.map addressOf)

theorem distinctAddresses_eq (identity : String) :
    distinctAddresses identity buffer = (statusesOf identity buffer).map addressOf :=
  (statusesOf_nodup distinct identity).dedup

end Lists

variable (collation : Collation) (own : String) {buffer : List StatusMessage}

private theorem countsIdentities_dryMembers (distinct : (buffer.map addressOf).Nodup) :
    CountsIdentities buffer
      (ClusterMembersReducer.dryMembers collation own (ClusterMembersReducer.aggregateState collation buffer)) where
  distinct := ClusterMembersReducer.nodup_identities collation own _
  present identity := by
    rw [ClusterMembersReducer.mem_identities_iff, ← List.length_pos_iff, (reportsOf_perm collation identity buffer).length_eq,
      List.length_map, List.length_pos_iff]
  intervals member listed := by
    have found := (ClusterMembersReducer.mem_dryMembers collation).mp listed
    refine ⟨statusesOf member.identity buffer, fun message sent => sent, ?_, ?_⟩
    · rw [distinctAddresses_eq distinct]
    · have intervals := (reportsOf_perm collation member.identity buffer).map MemberReport.interval
      rw [List.map_map] at intervals
      exact (ClusterMembersReducer.interval_of_identityEntry found).trans intervals.sum_eq

/-- The lists hold an entry for every message, so each replica is counted once when no address
has sent two. -/
theorem countedOnce_iff (collation : Collation) (replica : Replica) (buffer : List StatusMessage) :
    CountedOnce collation replica buffer ↔ (buffer.map addressOf).Nodup := by
  constructor
  · intro counted
    have listed := (counted.clusterMembers (ClusterMembersReducer.aggregateState collation buffer) rfl).2
    exact map_address_aggregateState.nodup_iff.mp listed
  · intro distinct
    refine ⟨?_, ?_, ?_⟩
    · rintro _ ⟨⟩
      exact ⟨List.pairwise_insertionSort _ _, replicaMembers_perm.nodup_iff.mpr (statusesOf_nodup distinct _)⟩
    · rintro _ ⟨⟩
      exact ⟨List.pairwise_insertionSort _ _, map_address_aggregateState.nodup_iff.mpr distinct⟩
    · refine ⟨_, ClusterMembersReducer.dryMembers collation replica.identity
        (ClusterMembersReducer.aggregateState collation buffer), rfl, ?_, rfl,
        countsIdentities_dryMembers collation replica.identity distinct⟩
      rw [distinctAddresses_eq distinct]
      exact congrArg some replicaMembers_perm.length_eq

section TwoAnswers

/-- The answer of one replica of the identity `kraken`. -/
def answerOf (address : String) : StatusMessage := ⟨⟨address, "kraken"⟩, 1, 1000⟩

/-- Two greetings within one window, both answered by the only other replica. -/
def twoAnswers : List StatusMessage := [answerOf "q1", answerOf "q2", answerOf "q2"]

/-- Two replicas are counted as three, with three intervals. -/
theorem twoAnswers_counted_twice :
    (((knownPair "q1").aggregateState .ascii twoAnswers).1.normalizeState .ascii
      ((knownPair "q1").aggregateState .ascii twoAnswers).2).toOption.map
        (fun config => (config.replicaSize, config.clusterMembers)) =
      some (some 3, some [⟨3000, .self⟩]) ∧
      ¬ CountedOnce .ascii (knownPair "q1") twoAnswers := by
  constructor
  · decide +kernel
  · intro counted
    have listed := (counted.replicaMembers (ReplicaMembersReducer.aggregateState "kraken" twoAnswers) rfl).2
    revert listed
    decide +kernel

end TwoAnswers

end PriceFeed.Discovery
