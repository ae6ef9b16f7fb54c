import PriceFeed.Library.CyclicSlots
import PriceFeed.Schedulers.Scheduler

/-! Requests of a whole cluster: every replica of every identity derives its
delays from the same ordered members, and the slots they reserve tile the period. -/

namespace PriceFeed.Schedulers

open PriceFeed.Library

/-- The replicas of one identity share a rate limit, a queue of markets and a list of operations. -/
structure Identity where
  baseRateLimit : ℚ
  rateLimitMargin : ℚ
  rateLimitMultiplier : ℚ
  replicaSize : ℕ
  queueSize : ℕ
  operations : ℕ
  replicated : 1 ≤ replicaSize
  queued : 1 ≤ queueSize
  operating : 1 ≤ operations
  limited : 0 < (baseRateLimit + rateLimitMargin) * rateLimitMultiplier

namespace Identity

def rateLimit (identity : Identity) : ℚ :=
  (identity.baseRateLimit + identity.rateLimitMargin) * identity.rateLimitMultiplier

/-- Requests of the identity in one period. -/
def slots (identity : Identity) : ℕ :=
  identity.replicaSize * identity.queueSize * identity.operations

def interval (identity : Identity) : ℚ :=
  identity.replicaSize * identity.queueSize * identity.operations * identity.rateLimit

private theorem slots_pos (identity : Identity) : 0 < identity.slots :=
  Nat.mul_pos (Nat.mul_pos identity.replicated identity.queued) identity.operating

private theorem interval_eq (identity : Identity) :
    identity.interval = identity.slots * identity.rateLimit := by
  simp [interval, slots]

end Identity

/-- The ordered members as the replicas of the identity at `own` hold them. -/
def clusterMembersOf (cluster : List Identity) (own : ℕ) : List ClusterMember :=
  cluster.mapIdx fun index identity => ⟨identity.interval, if index = own then .self else .external⟩

/-- One operation of one replica on one of its markets, in the period of one cron tick. -/
structure Request (cluster : List Identity) where
  tick : ℤ
  identity : Fin cluster.length
  queuePosition : Fin (cluster.get identity).queueSize
  instancePosition : Fin (cluster.get identity).replicaSize
  operation : Fin (cluster.get identity).operations
  deriving DecidableEq

namespace Request

variable {cluster : List Identity}

def owner (request : Request cluster) : Identity := cluster.get request.identity

/-- The scheduler of the request's market before its cluster is set up. -/
def scheduler (request : Request cluster) : Scheduler :=
  { baseRateLimit := request.owner.baseRateLimit
    rateLimitMargin := request.owner.rateLimitMargin
    rateLimitMultiplier := request.owner.rateLimitMultiplier
    queuePosition := some request.queuePosition
    queueSize := request.owner.queueSize
    replicaSize := request.owner.replicaSize
    instancePosition := request.instancePosition.val
    operations := request.owner.operations
    clusterMembers := some (clusterMembersOf cluster request.identity) }

theorem timing (request : Request cluster)
    (success : request.scheduler.initInterval = .ok configured) :
    request.scheduler.Timing (clusterMembersOf cluster request.identity) configured :=
  Scheduler.initInterval_ok success rfl

/-- The start of the request when crons tick at the multiples of the period. -/
def startTime (request : Request cluster) (configured : Scheduler) : Option ℚ :=
  configured.startTime (request.tick * configured.preciseNormalizedInterval) request.operation

end Request

theorem clusterInterval_membersOf (cluster : List Identity) (own : ℕ) :
    Scheduler.clusterInterval (clusterMembersOf cluster own) =
      (cluster.map Identity.interval).sum := by
  rw [Scheduler.clusterInterval_eq_sum]
  congr 1
  exact List.ext_getElem (by simp [clusterMembersOf]) (by simp [clusterMembersOf])

/-- Each identity's window: its requests, each as long as its rate limit with
the identity's share of the slack. -/
def clusterWindows (cluster : List Identity) (distance : ℚ) : List (Window ℚ) :=
  cluster.map fun identity => ⟨identity.slots, identity.rateLimit + distance / identity.slots⟩

theorem length_clusterWindow (identity : Identity) (distance : ℚ) :
    Window.length ⟨identity.slots, identity.rateLimit + distance / identity.slots⟩ =
      identity.interval + distance := by
  have positive : (identity.slots : ℚ) ≠ 0 := Nat.cast_ne_zero.mpr identity.slots_pos.ne'
  rw [Window.length, identity.interval_eq]
  field_simp

private theorem clusterWindows_lengths (cluster : List Identity) (distance : ℚ) :
    (clusterWindows cluster distance).map Window.length =
      cluster.map fun identity => identity.interval + distance := by
  simp [clusterWindows, Function.comp_def, length_clusterWindow]

private theorem sum_intervals_add (cluster : List Identity) (distance : ℚ) :
    (cluster.map fun identity => identity.interval + distance).sum =
      (cluster.map Identity.interval).sum + cluster.length * distance := by
  induction cluster with
  | nil => simp
  | cons identity rest ih =>
    simp only [List.map_cons, List.sum_cons, ih, List.length_cons]
    push_cast
    ring

/-- The slack is shared out evenly, so the windows fill the period exactly. -/
private theorem period_clusterWindows {cluster : List Identity} (nonempty : cluster ≠ []) (period : ℚ) :
    Window.period (clusterWindows cluster
      ((period - (cluster.map Identity.interval).sum) / cluster.length)) = period := by
  have members : (cluster.length : ℚ) ≠ 0 := by simpa using nonempty
  rw [Window.period, clusterWindows_lengths, sum_intervals_add]
  field_simp
  ring

/-- The delay loop adds up the windows before the own one. -/
private theorem clusterDelay_membersOf (cluster : List Identity) (distance : ℚ) (own : Fin cluster.length) :
    Scheduler.clusterDelayFrom distance 0 (clusterMembersOf cluster own) =
      some (Window.origin (clusterWindows cluster distance) own + distance / 2) := by
  have general : ∀ (rest : List Identity) (delay : ℚ) (position : ℕ), position < rest.length →
      Scheduler.clusterDelayFrom distance delay (clusterMembersOf rest position) =
        some (delay + Window.origin (clusterWindows rest distance) position + distance / 2) := by
    intro rest
    induction rest with
    | nil => intro delay position inside; simp at inside
    | cons identity rest ih =>
      intro delay position inside
      cases position with
      | zero => simp [clusterMembersOf, Scheduler.clusterDelayFrom, ClusterMember.isSelf, Window.origin]
      | succ position =>
        have later := ih (delay + (identity.interval + distance)) position
          (Nat.lt_of_succ_lt_succ inside)
        have window := length_clusterWindow identity distance
        simp only [clusterMembersOf, List.mapIdx_cons, Scheduler.clusterDelayFrom,
          ClusterMember.isSelf]
        simp only [clusterMembersOf, clusterWindows, Window.origin, List.map_cons,
          List.take_succ_cons, List.sum_cons, window] at later ⊢
        simp only [add_assoc, add_comm, add_left_comm] at later ⊢
        simpa using later
  simpa using general cluster 0 own own.isLt

/-- Position of a request among the requests of its identity. -/
def Request.place {cluster : List Identity} (request : Request cluster) : ℕ :=
  (request.queuePosition * request.owner.replicaSize + request.instancePosition) *
    request.owner.operations + request.operation

private theorem Request.place_lt {cluster : List Identity} (request : Request cluster) :
    request.place < request.owner.slots := by
  have operation := request.operation.isLt
  have instancePosition := request.instancePosition.isLt
  have queuePosition := request.queuePosition.isLt
  have replicas : request.queuePosition * request.owner.replicaSize + request.instancePosition <
      request.owner.queueSize * request.owner.replicaSize := by
    calc request.queuePosition * request.owner.replicaSize + request.instancePosition
        < (request.queuePosition + 1) * request.owner.replicaSize := by
          rw [Nat.succ_mul]; exact Nat.add_lt_add_left instancePosition _
      _ ≤ request.owner.queueSize * request.owner.replicaSize := Nat.mul_le_mul_right _ queuePosition
  calc request.place
      < (request.queuePosition * request.owner.replicaSize + request.instancePosition + 1) *
          request.owner.operations := by
        rw [Nat.succ_mul]; exact Nat.add_lt_add_left operation _
    _ ≤ request.owner.queueSize * request.owner.replicaSize * request.owner.operations :=
        Nat.mul_le_mul_right _ replicas
    _ = request.owner.slots := by rw [Identity.slots, Nat.mul_comm request.owner.queueSize]

/-- The slot of the tiling that a request occupies. -/
def Request.slot {cluster : List Identity} (distance : ℚ) (request : Request cluster) :
    Window.Slot (clusterWindows cluster distance) where
  cycle := request.tick
  window := ⟨request.identity, by simp [clusterWindows]⟩
  position := ⟨request.place, by simpa [clusterWindows, owner] using request.place_lt⟩

private theorem Request.slot_injective {cluster : List Identity} (distance : ℚ) :
    Function.Injective fun request : Request cluster => request.slot distance := by
  rintro ⟨tick, identity, queue₁, instance₁, operation₁⟩ ⟨_, identity₂, queue₂, instance₂, operation₂⟩ same
  have sameTick := congrArg Window.Slot.cycle same
  have sameIdentity := congrArg (fun slot => slot.window.val) same
  have samePlace := congrArg (fun slot => slot.position.val) same
  simp only [slot] at sameTick sameIdentity samePlace
  obtain rfl := sameTick
  obtain rfl : identity = identity₂ := Fin.ext sameIdentity
  have operations : operation₁.val = operation₂.val := by
    have remainder := congrArg (· % (cluster.get identity).operations) samePlace
    simp only [place, owner, Nat.mul_add_mod_self_right] at remainder
    rwa [Nat.mod_eq_of_lt operation₁.isLt, Nat.mod_eq_of_lt operation₂.isLt] at remainder
  have positive : 0 < (cluster.get identity).operations := (cluster.get identity).operating
  simp only [place, owner, operations, Nat.add_right_cancel_iff] at samePlace
  have outer := Nat.eq_of_mul_eq_mul_right positive samePlace
  have instances : instance₁.val = instance₂.val := by
    have remainder := congrArg (· % (cluster.get identity).replicaSize) outer
    simp only [Nat.mul_add_mod_self_right] at remainder
    rwa [Nat.mod_eq_of_lt instance₁.isLt, Nat.mod_eq_of_lt instance₂.isLt] at remainder
  rw [instances, Nat.add_right_cancel_iff] at outer
  have queues : queue₁.val = queue₂.val :=
    Nat.eq_of_mul_eq_mul_right (cluster.get identity).replicated outer
  simp [Fin.ext operations, Fin.ext instances, Fin.ext queues]

/-- A configured start time is the start of the request's slot, after half a cluster distance. -/
theorem Request.startTime_eq {cluster : List Identity} (request : Request cluster)
    (success : request.scheduler.initInterval = .ok configured) :
    request.startTime configured = some (configured.intraClusterDistance / 2 +
      (request.slot configured.intraClusterDistance).start) := by
  have timing := request.timing success
  have whole := timing.unchanged
  have nonempty : cluster ≠ [] := List.ne_nil_of_length_pos (Nat.zero_lt_of_lt request.identity.isLt)
  have shared : configured.intraClusterDistance = (configured.preciseNormalizedInterval -
      (cluster.map Identity.interval).sum) / cluster.length := by
    rw [timing.clusterDistance, clusterInterval_membersOf, clusterMembersOf, List.length_mapIdx]
  have tiled := period_clusterWindows nonempty configured.preciseNormalizedInterval
  rw [← shared] at tiled
  have delay : configured.getOperationsClusterDelay =
      some (Window.origin (clusterWindows cluster configured.intraClusterDistance) request.identity +
        configured.intraClusterDistance / 2) := by
    rw [← clusterDelay_membersOf, whole]
    rfl
  have rate : configured.rateLimit =
      request.owner.rateLimit + configured.intraClusterDistance / request.owner.slots := by
    have slots : (request.owner.slots : ℚ) =
        request.owner.queueSize * request.owner.operations * request.owner.replicaSize := by
      simp only [Identity.slots]
      push_cast
      ring
    have share := timing.intervalDistance
    simp only [scheduler] at share
    rw [slots, ← share, whole]
    rfl
  have length : (request.slot configured.intraClusterDistance).length = configured.rateLimit := by
    simp [rate, slot, Window.Slot.length, clusterWindows, owner]
  have batch : configured.getOperationsBatchDelay = some (configured.rateLimit *
      request.queuePosition * request.owner.operations * request.owner.replicaSize) := by
    rw [whole]
    rfl
  have operation : configured.getOperationDelay request.operation =
      configured.rateLimit * request.operation +
        configured.rateLimit * request.instancePosition * request.owner.operations := by
    rw [whole]
    rfl
  simp only [startTime, Scheduler.startTime, delay, batch, operation, Window.Slot.start, length, tiled,
    Option.bind_eq_bind, Option.bind_some, Option.pure_def, Option.some.injEq]
  simp only [slot, place]
  push_cast
  ring

/-- Two different requests anywhere in the cluster start at least the earlier
identity's rate limit apart, across windows and across ticks. -/
theorem requests_spaced {cluster : List Identity} (earlier later : Request cluster)
    (distinct : earlier ≠ later)
    (configured₁ : earlier.scheduler.initInterval = .ok scheduler₁)
    (configured₂ : later.scheduler.initInterval = .ok scheduler₂)
    (started₁ : earlier.startTime scheduler₁ = some time₁)
    (started₂ : later.startTime scheduler₂ = some time₂)
    (order : time₁ ≤ time₂) :
    time₁ + earlier.owner.rateLimit ≤ time₂ := by
  have timing₁ := earlier.timing configured₁
  have timing₂ := later.timing configured₂
  have distances : scheduler₁.intraClusterDistance = scheduler₂.intraClusterDistance := by
    have total₁ := clusterInterval_membersOf cluster earlier.identity
    have total₂ := clusterInterval_membersOf cluster later.identity
    exact (timing₁.determined timing₂ (total₁.trans total₂.symm) (by simp [clusterMembersOf])).2
  have nonneg := timing₁.clusterDistance_nonneg
  rw [Request.startTime_eq earlier configured₁, Option.some.injEq] at started₁
  rw [Request.startTime_eq later configured₂, Option.some.injEq, ← distances] at started₂
  subst started₁ started₂
  have positive : ∀ window ∈ clusterWindows cluster scheduler₁.intraClusterDistance,
      0 < window.slotLength := by
    intro window member
    obtain ⟨identity, present, rfl⟩ := List.mem_map.mp member
    have slack : 0 ≤ scheduler₁.intraClusterDistance / identity.slots :=
      div_nonneg nonneg (Nat.cast_nonneg _)
    have limited : 0 < identity.rateLimit := identity.limited
    exact add_pos_of_pos_of_nonneg limited slack
  have different := (Request.slot_injective scheduler₁.intraClusterDistance).ne distinct
  have apart := Window.Slot.spaced positive different (by linarith)
  have share : 0 ≤ scheduler₁.intraClusterDistance / earlier.owner.slots :=
    div_nonneg nonneg (Nat.cast_nonneg _)
  have length : (earlier.slot scheduler₁.intraClusterDistance).length =
      earlier.owner.rateLimit + scheduler₁.intraClusterDistance / earlier.owner.slots := by
    simp [Request.slot, Window.Slot.length, clusterWindows, Request.owner]
  linarith

/-- Two replicas of one identity beside a single replica of another: 3300 ms of
requests in a period of four seconds. -/
def mixedCluster : List Identity :=
  [⟨1000, 100, 1, 2, 1, 1, by decide, by decide, by decide, by decide +kernel⟩,
    ⟨1000, 100, 1, 1, 1, 1, by decide, by decide, by decide, by decide +kernel⟩]

def mixedCluster.lastOfTick : Request mixedCluster :=
  ⟨0, ⟨1, by decide⟩, ⟨0, by decide⟩, ⟨0, by decide⟩, ⟨0, by decide⟩⟩

def mixedCluster.firstOfNextTick : Request mixedCluster :=
  ⟨1, ⟨0, by decide⟩, ⟨0, by decide⟩, ⟨0, by decide⟩, ⟨0, by decide⟩⟩

private theorem started_of_toOption {time : ℚ} {request : Request cluster}
    (run : request.scheduler.initInterval.toOption.bind request.startTime = some time) :
    ∃ configured, request.scheduler.initInterval = .ok configured ∧
      request.startTime configured = some time := by
  cases success : request.scheduler.initInterval with
  | error error => simp [success, Except.toOption] at run
  | ok configured => exact ⟨configured, rfl, by simpa [success, Except.toOption] using run⟩

theorem requests_spaced_mixedCluster :
    ∃ scheduler₁ scheduler₂,
      mixedCluster.lastOfTick.scheduler.initInterval = .ok scheduler₁ ∧
      mixedCluster.firstOfNextTick.scheduler.initInterval = .ok scheduler₂ ∧
      mixedCluster.lastOfTick.startTime scheduler₁ = some 2725 ∧
      mixedCluster.firstOfNextTick.startTime scheduler₂ = some 4175 ∧
      2725 + mixedCluster.lastOfTick.owner.rateLimit ≤ (4175 : ℚ) := by
  obtain ⟨scheduler₁, configured₁, started₁⟩ :=
    @started_of_toOption _ 2725 mixedCluster.lastOfTick (by decide +kernel)
  obtain ⟨scheduler₂, configured₂, started₂⟩ :=
    @started_of_toOption _ 4175 mixedCluster.firstOfNextTick (by decide +kernel)
  exact ⟨scheduler₁, scheduler₂, configured₁, configured₂, started₁, started₂,
    requests_spaced mixedCluster.lastOfTick mixedCluster.firstOfNextTick (by decide)
      configured₁ configured₂ started₁ started₂ (by decide +kernel)⟩

end PriceFeed.Schedulers
