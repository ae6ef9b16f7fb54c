import Mathlib.Algebra.BigOperators.Ring.List
import PriceFeed.Discovery.IdentityMap

/-! The window a replica reserves for its identity beside the multiplier it
adopts from the same STATUS buffer. -/

namespace PriceFeed.Discovery

open PriceFeed.Library PriceFeed.Schedulers

/-- The interval of the first self member. -/
def selfInterval (scheduler : Scheduler) : Option ℚ :=
  ((scheduler.clusterMembers.getD []).find? ClusterMember.isSelf).map ClusterMember.interval

/-- The time the requests of the whole identity take in one period. -/
def neededInterval (scheduler : Scheduler) : ℚ :=
  scheduler.replicaSize * scheduler.queueSize * scheduler.operations *
    (scheduler.baseRateLimit + scheduler.rateLimitMargin) * scheduler.rateLimitMultiplier

/-- The scheduler once it has taken the configuration concluded from a STATUS
buffer. Setting up the interval afterwards changes none of these fields. -/
def appliedStatus (collation : Collation) (own : Replica) (buffer : List StatusMessage) :
    Except StateError Scheduler := do
  let (adopting, state) := own.aggregateState collation buffer
  let config ← adopting.normalizeState collation state
  return own.internalScheduler.assign config

/-- Replicas of one identity run the same operations on the same markets under
the same limits. Only their multipliers may differ. -/
structure SameWork (first second : Scheduler) : Prop where
  baseRateLimit : first.baseRateLimit = second.baseRateLimit
  rateLimitMargin : first.rateLimitMargin = second.rateLimitMargin
  queueSize : first.queueSize = second.queueSize
  operations : first.operations = second.operations

def sameIdentity (own : Replica) (live : List Replica) : List Replica :=
  live.filter fun replica => replica.identity = own.identity

def multiplierOf (replica : Replica) : ℚ := replica.internalScheduler.rateLimitMultiplier

/-- Values below a bound reach its multiple only if each of them is the bound. -/
private theorem length_mul_le_sum_iff {values : List ℚ} {bound : ℚ}
    (bounded : ∀ value ∈ values, value ≤ bound) :
    values.length * bound ≤ values.sum ↔ ∀ value ∈ values, value = bound := by
  induction values with
  | nil => simp
  | cons value rest ih =>
    have first := bounded value (List.mem_cons_self ..)
    have others : ∀ value ∈ rest, value ≤ bound :=
      fun other member => bounded other (List.mem_cons_of_mem _ member)
    have total : rest.sum ≤ rest.length * bound := by
      simpa using List.sum_le_card_nsmul rest bound others
    have tail := ih others
    simp only [List.length_cons, List.sum_cons, List.forall_mem_cons]
    push_cast
    constructor
    · intro reached
      have exact : value = bound := by linarith
      exact ⟨exact, tail.mp (by linarith)⟩
    · rintro ⟨same, rest'⟩
      have reached := tail.mpr rest'
      linarith

section Status

variable (collation : Collation) {own : Replica} {live : List Replica} {buffer : List StatusMessage}
variable (answered : buffer.Perm (live.map Replica.statusMessage))

include answered

private theorem replicaSize_status :
    (ReplicaMembersReducer.aggregateState own.identity buffer).length =
      (sameIdentity own live).length := by
  have kept := (answered.filter fun message => message.sender.identity = own.identity).length_eq
  simp only [ReplicaMembersReducer.aggregateState, List.length_insertionSort, List.length_map, kept,
    List.filter_map, sameIdentity]
  rfl

private theorem intervals_status :
    ((ClusterMembersReducer.reportsOf own.identity
        (ClusterMembersReducer.aggregateState collation buffer)).map MemberReport.interval).sum =
      ((sameIdentity own live).map fun replica => replica.internalScheduler.getIntervalSize).sum := by
  have sorted := List.perm_insertionSort (ClusterMembersReducer.addressLe collation)
    (buffer.map fun message =>
      (⟨message.sender.address, message.sender.identity, message.data.clusterMemberInterval⟩ :
        MemberReport))
  have reports := (sorted.trans (answered.map _)).filter fun report => report.identity = own.identity
  rw [ClusterMembersReducer.reportsOf, ClusterMembersReducer.aggregateState,
    (reports.map MemberReport.interval).sum_eq]
  simp only [List.map_map, List.filter_map, sameIdentity]
  rfl

private theorem mathMax_status (nonempty : live ≠ []) :
    ∃ multiplier, RateLimitReducer.aggregateState buffer = some multiplier ∧
      (∀ replica ∈ live, multiplierOf replica ≤ multiplier) ∧
      ∃ replica ∈ live, multiplierOf replica = multiplier := by
  have multipliers : (buffer.map fun message => message.data.rateLimitMultiplier).Perm
      (live.map multiplierOf) := by
    have moved := answered.map fun message => message.data.rateLimitMultiplier
    rwa [List.map_map] at moved
  cases largest : RateLimitReducer.aggregateState buffer with
  | none =>
    have empty := List.max?_eq_none_iff.mp largest
    rw [empty] at multipliers
    exact absurd (List.map_eq_nil_iff.mp multipliers.nil_eq.symm) nonempty
  | some multiplier =>
    obtain ⟨reported, bound⟩ := List.max?_eq_some_iff.mp largest
    refine ⟨multiplier, rfl, ?_, ?_⟩
    · intro replica member
      exact bound _ (multipliers.mem_iff.mpr (List.mem_map_of_mem member))
    · simpa using multipliers.mem_iff.mp reported

private theorem reported_status (present : own ∈ live) :
    ∃ report ∈ ClusterMembersReducer.aggregateState collation buffer,
      report.identity = own.identity := by
  have message : own.statusMessage ∈ buffer :=
    answered.mem_iff.mpr (List.mem_map_of_mem present)
  refine ⟨⟨own.address, own.identity, own.internalScheduler.getIntervalSize⟩, ?_, rfl⟩
  rw [ClusterMembersReducer.aggregateState, List.mem_insertionSort]
  exact List.mem_map.mpr ⟨own.statusMessage, message, rfl⟩

omit answered in
theorem normalizeState_positive (positive : 0 < multiplier) :
    RateLimitReducer.normalizeState (some multiplier) = { rateLimitMultiplier := some multiplier } := by
  simp [RateLimitReducer.normalizeState, Option.filter, positive.ne']

private theorem appliedStatus_eq (largest : RateLimitReducer.aggregateState buffer = some multiplier)
    (positive : 0 < multiplier) :
    appliedStatus collation own buffer = .ok { own.internalScheduler with
      rateLimitMultiplier := multiplier
      replicaSize := (sameIdentity own live).length
      instancePosition := indexOf
        (ReplicaMembersReducer.aggregateState own.identity buffer) own.address
      clusterMembers := some (ClusterMembersReducer.hydratedMembers collation own.identity
        (ClusterMembersReducer.aggregateState collation buffer)) } := by
  simp [appliedStatus, Replica.aggregateState, Replica.normalizeState, largest,
    ClusterMembersReducer.normalizeState_some, ReplicaMembersReducer.normalizeState,
    normalizeState_positive positive, ← replicaSize_status answered,
    Scheduler.assign, bind, Except.bind, pure, Except.pure]

/-- The window reserved for the own identity is as long as its requests take
under the adopted multiplier exactly when every replica of the identity already
reports the largest multiplier of the cluster. -/
theorem selfWindow_covers_iff (present : own ∈ live)
    (work : ∀ replica ∈ live, replica.identity = own.identity →
      SameWork replica.internalScheduler own.internalScheduler)
    (limited : 0 < own.internalScheduler.baseRateLimit + own.internalScheduler.rateLimitMargin)
    (queued : 0 < own.internalScheduler.queueSize) (operating : 0 < own.internalScheduler.operations)
    (started : ∀ replica ∈ live, 0 < multiplierOf replica) :
    ∃ applied window, appliedStatus collation own buffer = .ok applied ∧
      selfInterval applied = some window ∧
      (neededInterval applied ≤ window ↔
        ∀ replica ∈ live, replica.identity = own.identity →
          ∀ other ∈ live, multiplierOf other ≤ multiplierOf replica) := by
  obtain ⟨multiplier, largest, bound, top, topLive, topEq⟩ :=
    mathMax_status answered (List.ne_nil_of_mem present)
  have positive : 0 < multiplier := topEq ▸ started top topLive
  have window := ClusterMembersReducer.find_self collation
    (reported_status collation answered present)
  refine ⟨_, _, appliedStatus_eq collation answered largest positive, window, ?_⟩
  rw [intervals_status collation answered]
  let unit := (own.internalScheduler.baseRateLimit + own.internalScheduler.rateLimitMargin) *
    own.internalScheduler.queueSize * own.internalScheduler.operations
  have unitPositive : 0 < unit :=
    mul_pos (mul_pos limited (Nat.cast_pos.mpr queued)) (Nat.cast_pos.mpr operating)
  let multipliers := (sameIdentity own live).map multiplierOf
  have mine : ∀ replica ∈ sameIdentity own live,
      replica ∈ live ∧ replica.identity = own.identity := by
    intro replica member
    obtain ⟨isLive, same⟩ := List.mem_filter.mp member
    exact ⟨isLive, by simpa using same⟩
  have reserved : ((sameIdentity own live).map fun replica =>
      replica.internalScheduler.getIntervalSize).sum = unit * multipliers.sum := by
    rw [← List.sum_map_mul_left]
    congr 1
    apply List.map_congr_left
    intro replica member
    obtain ⟨isLive, same⟩ := mine replica member
    have shared := work replica isLive same
    simp only [Scheduler.getIntervalSize, Scheduler.baseRate, shared.baseRateLimit,
      shared.rateLimitMargin, shared.queueSize, shared.operations, multiplierOf, unit]
    ring
  have needed : ((sameIdentity own live).length : ℚ) * own.internalScheduler.queueSize *
      own.internalScheduler.operations *
      (own.internalScheduler.baseRateLimit + own.internalScheduler.rateLimitMargin) * multiplier =
      unit * (multipliers.length * multiplier) := by
    simp only [multipliers, List.length_map, unit]
    ring
  have bounded : ∀ value ∈ multipliers, value ≤ multiplier := by
    intro value member
    obtain ⟨replica, owned, rfl⟩ := List.mem_map.mp member
    exact bound replica (mine replica owned).1
  simp only [neededInterval]
  rw [needed, reserved, mul_le_mul_iff_right₀ unitPositive, length_mul_le_sum_iff bounded]
  constructor
  · intro reached replica isLive same other otherLive
    have owned : replica ∈ sameIdentity own live :=
      List.mem_filter.mpr ⟨isLive, by simpa using same⟩
    rw [reached _ (List.mem_map_of_mem owned)]
    exact bound other otherLive
  · intro largestAll value member
    obtain ⟨replica, owned, rfl⟩ := List.mem_map.mp member
    obtain ⟨isLive, same⟩ := mine replica owned
    exact le_antisymm (bound replica isLive) (topEq ▸ largestAll replica isLive same top topLive)

end Status

/-- A replica of the identity `kraken`, slowed down or not. -/
def limitedReplica (address : String) (rateLimitMultiplier : ℚ) : Replica where
  address := address
  identity := "kraken"
  internalScheduler :=
    { baseRateLimit := 1000, rateLimitMargin := 0, rateLimitMultiplier := rateLimitMultiplier,
      queueSize := 1, operations := 1 }

/-- A replica that joins at the first multiplier beside one that has backed off. -/
def joiningCluster : List Replica := [limitedReplica "q1" 1, limitedReplica "q2" 2]

/-- The joining replica adopts the doubled limit with a window of three single
requests, where the two replicas need four. -/
theorem selfWindow_too_small : ¬ ∀ (collation : Collation) (own : Replica) (live : List Replica)
    (buffer : List StatusMessage), buffer.Perm (live.map Replica.statusMessage) → own ∈ live →
    (∀ replica ∈ live, replica.identity = own.identity →
      SameWork replica.internalScheduler own.internalScheduler) →
    0 < own.internalScheduler.baseRateLimit + own.internalScheduler.rateLimitMargin →
    0 < own.internalScheduler.queueSize → 0 < own.internalScheduler.operations →
    (∀ replica ∈ live, 0 < multiplierOf replica) →
    ∃ applied window, appliedStatus collation own buffer = .ok applied ∧
      selfInterval applied = some window ∧ neededInterval applied ≤ window := by
  intro covered
  obtain ⟨applied, window, success, reserved, enough⟩ := covered .ascii (limitedReplica "q1" 1)
    joiningCluster (joiningCluster.map Replica.statusMessage) (.refl _) (List.mem_cons_self ..)
    (by intro replica member _
        rcases List.mem_pair.mp member with rfl | rfl <;> exact ⟨rfl, rfl, rfl, rfl⟩)
    (by decide +kernel) (by decide) (by decide) (by decide +kernel)
  have computed : (appliedStatus .ascii (limitedReplica "q1" 1)
      (joiningCluster.map Replica.statusMessage)).toOption.map
        (fun scheduler => (selfInterval scheduler, neededInterval scheduler)) =
      some (some 3000, 4000) := by decide +kernel
  simp only [success, Except.toOption, Option.map_some, Option.some.injEq, Prod.mk.injEq,
    reserved] at computed
  linarith

theorem selfWindow_covers_iff_joiningCluster :
    ∃ applied window, appliedStatus .ascii (limitedReplica "q1" 1)
        (joiningCluster.map Replica.statusMessage) = .ok applied ∧
      selfInterval applied = some window ∧
      (neededInterval applied ≤ window ↔
        ∀ replica ∈ joiningCluster, replica.identity = "kraken" →
          ∀ other ∈ joiningCluster, multiplierOf other ≤ multiplierOf replica) :=
  selfWindow_covers_iff .ascii (.refl _) (List.mem_cons_self ..)
    (by intro replica member _
        rcases List.mem_pair.mp member with rfl | rfl <;> exact ⟨rfl, rfl, rfl, rfl⟩)
    (by decide +kernel) (by decide) (by decide) (by decide +kernel)

end PriceFeed.Discovery
