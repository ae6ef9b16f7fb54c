import PriceFeed.Schedulers.Scheduler

/-! The delays of a scheduler whose own window fits its cluster: each of them is
shorter than the period. -/

namespace PriceFeed.Schedulers

namespace Scheduler

/-- The first own member among those of the cluster reserves the window that the
queue, the replicas and the operations of the scheduler need, and the scheduler has
its place in each of them. -/
structure ValidSlots (scheduler : Scheduler) : Prop where
  members : ∃ before own after, scheduler.clusterMembers = some (before ++ own :: after) ∧
    (∀ member ∈ before, member.isSelf = false) ∧ own.isSelf = true ∧
    own.interval = scheduler.replicaSize * scheduler.queueSize * scheduler.operations *
      scheduler.baseRate ∧
    ∀ member ∈ before ++ after, 0 ≤ member.interval
  queue : ∃ position, scheduler.queuePosition = some position ∧ position < scheduler.queueSize
  nonnegative : 0 ≤ scheduler.instancePosition
  replica : scheduler.instancePosition < scheduler.replicaSize
  rate : 0 < scheduler.baseRate
  operating : 1 ≤ scheduler.operations

/-- Every delay is over before a period is. -/
structure ShortDelays (scheduler : Scheduler) : Prop where
  cluster : 0 ≤ scheduler.getOperationsClusterDelay.getD 0 ∧
    scheduler.getOperationsClusterDelay.getD 0 < scheduler.preciseNormalizedInterval
  batch : 0 ≤ scheduler.getOperationsBatchDelay.getD 0 ∧
    scheduler.getOperationsBatchDelay.getD 0 < scheduler.preciseNormalizedInterval
  operation : ∀ position < scheduler.operations, 0 ≤ scheduler.getOperationDelay position ∧
    scheduler.getOperationDelay position < scheduler.preciseNormalizedInterval

/-- The loop adds up the windows before the own one. -/
private theorem clusterDelayFrom_own {before after : List ClusterMember} {own : ClusterMember}
    (others : ∀ member ∈ before, member.isSelf = false) (self : own.isSelf = true)
    (distance delay : ℚ) : clusterDelayFrom distance delay (before ++ own :: after) =
      some (delay + (before.map fun member => member.interval + distance).sum + distance / 2) := by
  induction before generalizing delay with
  | nil => simp [clusterDelayFrom, self]
  | cons member rest ih =>
    have other := others member List.mem_cons_self
    have later := ih (fun member inside => others member (List.mem_cons_of_mem _ inside))
      (delay + (member.interval + distance))
    simp [clusterDelayFrom, other, later, add_assoc]

theorem sum_windows (members : List ClusterMember) (distance : ℚ) :
    (members.map fun member => member.interval + distance).sum =
      clusterInterval members + members.length * distance := by
  rw [clusterInterval_eq_sum]
  induction members with
  | nil => simp
  | cons member rest ih =>
    simp only [List.map_cons, List.sum_cons, ih, List.length_cons]
    push_cast
    ring

theorem sum_windows_nonneg {members : List ClusterMember} {distance : ℚ} (apart : 0 ≤ distance)
    (intervals : ∀ member ∈ members, 0 ≤ member.interval) :
    0 ≤ (members.map fun member => member.interval + distance).sum := by
  refine List.sum_nonneg fun window inside => ?_
  obtain ⟨member, present, rfl⟩ := List.mem_map.mp inside
  exact add_nonneg (intervals member present) apart

theorem Timing.sum_windows {scheduler configured : Scheduler} {members : List ClusterMember}
    (timing : scheduler.Timing members configured) (nonempty : members ≠ []) :
    (members.map fun member => member.interval + configured.intraClusterDistance).sum =
      configured.preciseNormalizedInterval := by
  have length : (members.length : ℚ) ≠ 0 := by simpa using nonempty
  rw [Scheduler.sum_windows, timing.clusterDistance]
  field_simp
  ring

/-- The requests of a scheduler fill its own window. -/
theorem Timing.window {scheduler configured : Scheduler} {members : List ClusterMember}
    (timing : scheduler.Timing members configured)
    (slots : configured.queueSize * configured.operations * configured.replicaSize ≠ 0) :
    configured.rateLimit * (configured.queueSize * configured.operations * configured.replicaSize : ℕ) =
      configured.replicaSize * configured.queueSize * configured.operations * configured.baseRate +
        configured.intraClusterDistance := by
  have queue : configured.queueSize = scheduler.queueSize :=
    (congrArg queueSize timing.unchanged).trans rfl
  have operating : configured.operations = scheduler.operations :=
    (congrArg operations timing.unchanged).trans rfl
  have replicas : configured.replicaSize = scheduler.replicaSize :=
    (congrArg replicaSize timing.unchanged).trans rfl
  have divisor : (configured.queueSize * configured.operations * configured.replicaSize : ℚ) ≠ 0 := by
    exact_mod_cast slots
  rw [rateLimit, timing.intervalDistance, ← queue, ← operating, ← replicas]
  push_cast
  rw [add_mul, div_mul_cancel₀ _ divisor]
  ring

private theorem shortDelays {scheduler configured : Scheduler} {members : List ClusterMember}
    (timing : scheduler.Timing members configured)
    (present : configured.clusterMembers = some members) (valid : configured.ValidSlots) :
    configured.ShortDelays := by
  obtain ⟨⟨before, own, after, list, others, self, interval, intervals⟩, ⟨queue, held, queued⟩,
    nonnegative, replica, rate, operating⟩ := valid
  obtain rfl : members = before ++ own :: after := Option.some.inj (present.symm.trans list)
  obtain ⟨instance_, position⟩ := Int.eq_ofNat_of_zero_le nonnegative
  have replicated : instance_ < configured.replicaSize := by
    rw [position] at replica
    exact_mod_cast replica
  have distance := timing.clusterDistance_nonneg
  have slots : 0 < configured.queueSize * configured.operations * configured.replicaSize :=
    Nat.mul_pos (Nat.mul_pos (by omega) operating) (by omega)
  have window := timing.window slots.ne'
  rw [← interval] at window
  have reserved : 0 < own.interval := by
    rw [interval]
    have sizes : 0 < configured.replicaSize * configured.queueSize * configured.operations := by
      rw [Nat.mul_assoc, Nat.mul_comm]
      exact slots
    exact mul_pos (by exact_mod_cast sizes) rate
  have limit : 0 < configured.rateLimit := by
    by_contra negative
    have small := mul_nonpos_of_nonpos_of_nonneg (not_lt.mp negative)
      (Nat.cast_nonneg (α := ℚ) (configured.queueSize * configured.operations * configured.replicaSize))
    linarith
  have period := timing.sum_windows (by simp)
  rw [List.map_append, List.sum_append, List.map_cons, List.sum_cons] at period
  have first := sum_windows_nonneg distance fun member inside =>
    intervals member (List.mem_append_left after inside)
  have last := sum_windows_nonneg distance fun member inside =>
    intervals member (List.mem_append_right before inside)
  -- a place among the requests of the window is reached within the period
  have place : ∀ count, count < configured.queueSize * configured.operations * configured.replicaSize →
      0 ≤ configured.rateLimit * (count : ℕ) ∧
        configured.rateLimit * (count : ℕ) < configured.preciseNormalizedInterval := by
    intro count inside
    have below : configured.rateLimit * (count : ℕ) < configured.rateLimit *
        (configured.queueSize * configured.operations * configured.replicaSize : ℕ) :=
      mul_lt_mul_of_pos_left (by exact_mod_cast inside) limit
    exact ⟨mul_nonneg limit.le (Nat.cast_nonneg _), by linarith⟩
  refine ⟨?_, ?_, ?_⟩
  · rw [getOperationsClusterDelay, list, Option.getD_some, clusterDelayFrom_own others self,
      Option.getD_some]
    constructor <;> linarith
  · have count : queue * configured.operations * configured.replicaSize <
        configured.queueSize * configured.operations * configured.replicaSize :=
      Nat.mul_lt_mul_of_pos_right (Nat.mul_lt_mul_of_pos_right queued operating) (by omega)
    have delay : configured.getOperationsBatchDelay.getD 0 = configured.rateLimit *
        (queue * configured.operations * configured.replicaSize : ℕ) := by
      simp [getOperationsBatchDelay, held]
      ring
    rw [delay]
    exact place _ count
  · intro operation inside
    have count : operation + instance_ * configured.operations <
        configured.queueSize * configured.operations * configured.replicaSize := by
      calc operation + instance_ * configured.operations
          < (instance_ + 1) * configured.operations := by rw [Nat.succ_mul]; omega
        _ ≤ configured.replicaSize * configured.operations := Nat.mul_le_mul_right _ replicated
        _ ≤ configured.queueSize * (configured.operations * configured.replicaSize) := by
          rw [Nat.mul_comm]
          exact Nat.le_mul_of_pos_left _ (by omega)
        _ = configured.queueSize * configured.operations * configured.replicaSize :=
          (Nat.mul_assoc ..).symm
    have delay : configured.getOperationDelay operation = configured.rateLimit *
        (operation + instance_ * configured.operations : ℕ) := by
      rw [getOperationDelay, position]
      push_cast
      ring
    rw [delay]
    exact place _ count

theorem shortDelays_of_setDynamicConfig {scheduler configured : Scheduler} {config : DynamicConfig}
    (success : scheduler.setDynamicConfig config = .ok configured) (valid : configured.ValidSlots) :
    configured.ShortDelays := by
  obtain ⟨members, present, timing⟩ := exists_timing success
  have kept : configured.clusterMembers = (scheduler.assign config).clusterMembers :=
    (congrArg clusterMembers timing.unchanged).trans rfl
  exact shortDelays timing (kept.trans present) valid

theorem operations_of_setDynamicConfig {scheduler configured : Scheduler} {config : DynamicConfig}
    {count : ℕ} (success : scheduler.setDynamicConfig config = .ok configured)
    (given : config.operations = some count) : configured.operations = count := by
  obtain ⟨members, _, timing⟩ := exists_timing success
  have kept : configured.operations = (scheduler.assign config).operations :=
    (congrArg operations timing.unchanged).trans rfl
  simp [kept, assign, given]

end Scheduler

end PriceFeed.Schedulers
