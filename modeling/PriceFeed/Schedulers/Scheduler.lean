import Mathlib.Data.Rat.Floor
import Mathlib.Tactic.FieldSimp
import Mathlib.Tactic.Linarith
import Mathlib.Tactic.Positivity
import Mathlib.Tactic.Ring

/-! The configuration of `BaseScheduler` and `RestrictedRealtimeScheduler`: the
fields a scheduler carries, the period it derives from its cluster, and the
delays it puts before each operation. Times are exact milliseconds. -/

namespace PriceFeed.Schedulers

def millisecondsInASecond : ℕ := 1000
def millisecondsInAMinute : ℕ := 60000
def millisecondsInAnHour : ℕ := 3600000
def secondsInAMinute : ℕ := 60
def minutesInAnHour : ℕ := 60
def hoursInADay : ℕ := 24

/-- What the configuration code can throw. -/
inductive SchedulerError where
  | clusterMembersMissing
  | maximumCallStack
  deriving DecidableEq, Repr

/-- Frames the interpreter grants before it raises `RangeError`. -/
def callStackFrames : ℕ := 10000

/-- `closestDivisor` recurses upwards from `num`; a remainder by zero is `NaN`,
which is not zero. Past `target` no argument returns. -/
def closestDivisor : ℕ → ℕ → ℕ → Except SchedulerError ℕ
  | 0, _, _ => .error .maximumCallStack
  | frames + 1, num, target =>
    if num ≠ 0 ∧ target % num = 0 then .ok num else closestDivisor frames (num + 1) target

/-- A divisor that comes out is at least the argument. -/
private theorem le_of_closestDivisor (found : closestDivisor frames num target = .ok divisor) :
    num ≤ divisor := by
  induction frames generalizing num with
  | zero => simp [closestDivisor] at found
  | succ frames ih =>
    unfold closestDivisor at found
    split at found
    · exact (Except.ok.inj found).le
    · exact Nat.le_of_succ_le (ih found)

/-- Up to its target, an argument finds a divisor within the frames it needs to climb there. -/
theorem closestDivisor_completes (positive : 0 < target) (within : num ≤ target)
    (granted : target - num < frames) :
    ∃ divisor, closestDivisor frames num target = .ok divisor := by
  induction frames generalizing num with
  | zero => omega
  | succ frames ih =>
    unfold closestDivisor
    split
    · exact ⟨num, rfl⟩
    · next missed =>
      have below : num ≠ target := by
        rintro rfl
        exact missed ⟨positive.ne', Nat.mod_self num⟩
      exact ih (by omega) (by omega)

inductive MemberType where
  | self
  | external
  deriving DecidableEq, Repr

structure ClusterMember where
  interval : ℚ
  type : MemberType
  deriving DecidableEq, Repr

def ClusterMember.isSelf (member : ClusterMember) : Bool := member.type = .self

structure ScheduleUnitContext where
  unit : ℕ
  timeUnitDivisor : ℕ
  cronString : String
  deriving DecidableEq, Repr

namespace ScheduleUnitContext

def second : ScheduleUnitContext := ⟨secondsInAMinute, millisecondsInASecond, "* * * * *"⟩
def minute : ScheduleUnitContext := ⟨minutesInAnHour, millisecondsInAMinute, "* * * *"⟩
def hour : ScheduleUnitContext := ⟨hoursInADay, millisecondsInAnHour, "* * *"⟩

def getContext (intervalInMs : ℚ) : ScheduleUnitContext :=
  if intervalInMs < millisecondsInAMinute then second
  else if intervalInMs < millisecondsInAnHour then minute
  else hour

theorem timeUnitDivisor_pos (intervalInMs : ℚ) : 0 < (getContext intervalInMs).timeUnitDivisor := by
  unfold getContext
  split
  · decide
  · split <;> decide

end ScheduleUnitContext

/-- The fields of a realtime scheduler. `operations` is the number of operations,
an absent `queuePosition` is the internal scheduler's, and the derived fields
start at the `null` and `0` of the constructors. -/
structure Scheduler where
  baseRateLimit : ℚ
  rateLimitMargin : ℚ
  rateLimitMultiplier : ℚ := 1
  queuePosition : Option ℕ := none
  queueSize : ℕ
  replicaSize : ℕ := 1
  instancePosition : ℤ := 0
  taskName : String := "anonymous"
  baseSleepReloadTime : ℚ := millisecondsInAMinute * 30
  operations : ℕ := 0
  clusterMembers : Option (List ClusterMember) := none
  intraClusterDistance : ℚ := 0
  intraIntervalDistance : ℚ := 0
  interval : Option String := none
  normalizedInterval : Option ℕ := none
  preciseNormalizedInterval : ℚ := 0
  deriving DecidableEq, Repr

/-- The part of a configuration object a caller sets; absent keys leave the field. -/
structure DynamicConfig where
  rateLimitMultiplier : Option ℚ := none
  replicaSize : Option ℕ := none
  instancePosition : Option ℤ := none
  queueSize : Option ℕ := none
  queuePosition : Option ℕ := none
  operations : Option ℕ := none
  taskName : Option String := none
  clusterMembers : Option (List ClusterMember) := none
  deriving DecidableEq, Repr

namespace Scheduler

/-- The getter of `BaseScheduler`, which the subclass reaches as `super.rateLimit`. -/
def baseRate (scheduler : Scheduler) : ℚ :=
  (scheduler.baseRateLimit + scheduler.rateLimitMargin) * scheduler.rateLimitMultiplier

def rateLimit (scheduler : Scheduler) : ℚ :=
  scheduler.baseRate + scheduler.intraIntervalDistance

def clusterInterval (members : List ClusterMember) : ℚ :=
  members.foldl (fun sum member => sum + member.interval) 0

/-- `getIntervalContext`: the total interval of the cluster and the unit it is counted in. -/
def getIntervalContext (scheduler : Scheduler) : Except SchedulerError (ℚ × ScheduleUnitContext) :=
  match scheduler.clusterMembers with
  | none => .error .clusterMembersMissing
  | some members =>
    let total := clusterInterval members
    .ok (total, ScheduleUnitContext.getContext total)

def setupInterval (scheduler : Scheduler) (total : ℚ) (context : ScheduleUnitContext) :
    Except SchedulerError Scheduler := do
  let intervalInUnits := ⌈total / context.timeUnitDivisor⌉₊
  let normalized ← closestDivisor callStackFrames intervalInUnits context.unit
  let precise : ℚ := normalized * context.timeUnitDivisor
  let members := (scheduler.clusterMembers.getD []).length
  return { scheduler with
    normalizedInterval := some normalized
    preciseNormalizedInterval := precise
    intraClusterDistance := (precise - total) / members
    interval := some (s!"*/{normalized} " ++ context.cronString) }

def setupIntraIntervalDistance (scheduler : Scheduler) : Scheduler :=
  { scheduler with
    intraIntervalDistance := scheduler.intraClusterDistance /
      (scheduler.queueSize * scheduler.operations * scheduler.replicaSize) }

def initInterval (scheduler : Scheduler) : Except SchedulerError Scheduler := do
  let (total, context) ← scheduler.getIntervalContext
  let timed ← scheduler.setupInterval total context
  return timed.setupIntraIntervalDistance

/-- `Object.assign` of the keys that are present. -/
def assign (scheduler : Scheduler) (config : DynamicConfig) : Scheduler :=
  { scheduler with
    rateLimitMultiplier := config.rateLimitMultiplier.getD scheduler.rateLimitMultiplier
    replicaSize := config.replicaSize.getD scheduler.replicaSize
    instancePosition := config.instancePosition.getD scheduler.instancePosition
    queueSize := config.queueSize.getD scheduler.queueSize
    queuePosition := config.queuePosition <|> scheduler.queuePosition
    operations := config.operations.getD scheduler.operations
    taskName := config.taskName.getD scheduler.taskName
    clusterMembers := config.clusterMembers <|> scheduler.clusterMembers }

def setDynamicConfig (scheduler : Scheduler) (config : DynamicConfig) : Except SchedulerError Scheduler :=
  (scheduler.assign config).initInterval

def getDynamicConfig (scheduler : Scheduler) : DynamicConfig where
  rateLimitMultiplier := some scheduler.rateLimitMultiplier
  replicaSize := some scheduler.replicaSize
  instancePosition := some scheduler.instancePosition
  queueSize := some scheduler.queueSize
  clusterMembers := scheduler.clusterMembers

def setQueueSize (scheduler : Scheduler) (queueSize : ℕ) : Scheduler :=
  { scheduler with queueSize := queueSize }

/-- The loop over the members before the own one; without one it returns nothing. -/
def clusterDelayFrom (distance : ℚ) : ℚ → List ClusterMember → Option ℚ
  | _, [] => none
  | delay, member :: rest =>
    if member.isSelf then some (delay + distance / 2)
    else clusterDelayFrom distance (delay + (member.interval + distance)) rest

def getOperationsClusterDelay (scheduler : Scheduler) : Option ℚ :=
  clusterDelayFrom scheduler.intraClusterDistance 0 (scheduler.clusterMembers.getD [])

def getOperationsBatchDelay (scheduler : Scheduler) : Option ℚ :=
  scheduler.queuePosition.map fun position =>
    scheduler.rateLimit * position * scheduler.operations * scheduler.replicaSize

def getOperationDelay (scheduler : Scheduler) (operationPosition : ℕ) : ℚ :=
  scheduler.rateLimit * operationPosition +
    scheduler.rateLimit * scheduler.instancePosition * scheduler.operations

/-- When an operation starts after a cron tick, with exact timers. -/
def startTime (scheduler : Scheduler) (tick : ℚ) (operationPosition : ℕ) : Option ℚ := do
  let clusterDelay ← scheduler.getOperationsClusterDelay
  let batchDelay ← scheduler.getOperationsBatchDelay
  return tick + clusterDelay + batchDelay + scheduler.getOperationDelay operationPosition

def getIntervalSize (scheduler : Scheduler) : ℚ :=
  scheduler.baseRate * scheduler.queueSize * scheduler.operations

def getReloadSleepTime (scheduler : Scheduler) : ℚ :=
  scheduler.rateLimitMultiplier * scheduler.baseSleepReloadTime

def getMultiplierBackoff (scheduler : Scheduler) : ℚ := scheduler.rateLimitMultiplier + 1

theorem clusterInterval_eq_sum (members : List ClusterMember) :
    clusterInterval members = (members.map ClusterMember.interval).sum := by
  have general : ∀ (rest : List ClusterMember) (sum : ℚ),
      rest.foldl (fun sum member => sum + member.interval) sum =
        sum + (rest.map ClusterMember.interval).sum := by
    intro rest
    induction rest with
    | nil => simp
    | cons member rest ih =>
      intro sum
      rw [List.foldl_cons, ih, List.map_cons, List.sum_cons, add_assoc]
  simpa [clusterInterval] using general members 0

/-- What a successful `initInterval` makes of a scheduler holding `members`. -/
structure Timing (scheduler : Scheduler) (members : List ClusterMember) (configured : Scheduler) :
    Prop where
  divisor : ∃ normalized, configured.normalizedInterval = some normalized ∧
    closestDivisor callStackFrames
      ⌈clusterInterval members / (ScheduleUnitContext.getContext (clusterInterval members)).timeUnitDivisor⌉₊
      (ScheduleUnitContext.getContext (clusterInterval members)).unit = .ok normalized ∧
    configured.preciseNormalizedInterval =
      normalized * (ScheduleUnitContext.getContext (clusterInterval members)).timeUnitDivisor
  clusterDistance : configured.intraClusterDistance =
    (configured.preciseNormalizedInterval - clusterInterval members) / members.length
  intervalDistance : configured.intraIntervalDistance = configured.intraClusterDistance /
    (scheduler.queueSize * scheduler.operations * scheduler.replicaSize)
  unchanged : configured = { scheduler with
    intraClusterDistance := configured.intraClusterDistance
    intraIntervalDistance := configured.intraIntervalDistance
    interval := configured.interval
    normalizedInterval := configured.normalizedInterval
    preciseNormalizedInterval := configured.preciseNormalizedInterval }

theorem initInterval_ok {scheduler configured : Scheduler}
    (success : scheduler.initInterval = .ok configured)
    (present : scheduler.clusterMembers = some members) : scheduler.Timing members configured := by
  simp only [initInterval, getIntervalContext, present, setupInterval, bind, Except.bind,
    Option.getD_some, pure, Except.pure] at success
  cases found : closestDivisor callStackFrames
      ⌈clusterInterval members / (ScheduleUnitContext.getContext (clusterInterval members)).timeUnitDivisor⌉₊
      (ScheduleUnitContext.getContext (clusterInterval members)).unit with
  | error error => simp [found] at success
  | ok normalized =>
    simp only [found, Except.ok.injEq] at success
    subst configured
    exact ⟨⟨normalized, rfl, found, rfl⟩, rfl, rfl, by simp [setupIntraIntervalDistance, present]⟩

/-- A configuration that succeeds gives the members a timing, and changes nothing else. -/
theorem exists_timing {scheduler configured : Scheduler} {config : DynamicConfig}
    (success : scheduler.setDynamicConfig config = .ok configured) :
    ∃ members, (scheduler.assign config).clusterMembers = some members ∧
      (scheduler.assign config).Timing members configured := by
  cases present : (scheduler.assign config).clusterMembers with
  | none => simp [setDynamicConfig, initInterval, getIntervalContext, present, bind, Except.bind] at success
  | some members => exact ⟨members, rfl, initInterval_ok success present⟩

/-- The fields that a configuration has set, or left as they were. -/
theorem setDynamicConfig_ok {scheduler configured : Scheduler} {config : DynamicConfig}
    (success : scheduler.setDynamicConfig config = .ok configured) :
    configured = { scheduler.assign config with
      intraClusterDistance := configured.intraClusterDistance
      intraIntervalDistance := configured.intraIntervalDistance
      interval := configured.interval
      normalizedInterval := configured.normalizedInterval
      preciseNormalizedInterval := configured.preciseNormalizedInterval } := by
  obtain ⟨_, -, timing⟩ := exists_timing success
  exact timing.unchanged

/-- The computed period covers the cluster. -/
private theorem Timing.clusterInterval_le_period {scheduler configured : Scheduler}
    (timing : scheduler.Timing members configured) :
    clusterInterval members ≤ configured.preciseNormalizedInterval := by
  obtain ⟨normalized, _, divisor, precise⟩ := timing.divisor
  have positive : (0 : ℚ) <
      ((ScheduleUnitContext.getContext (clusterInterval members)).timeUnitDivisor : ℚ) :=
    Nat.cast_pos.mpr (ScheduleUnitContext.timeUnitDivisor_pos _)
  have units := (Nat.ceil_le (α := ℚ)).mp (le_of_closestDivisor divisor)
  rw [precise]
  exact (div_le_iff₀ positive).mp units

theorem Timing.clusterDistance_nonneg {scheduler configured : Scheduler}
    (timing : scheduler.Timing members configured) : 0 ≤ configured.intraClusterDistance := by
  rw [timing.clusterDistance]
  exact div_nonneg (sub_nonneg.mpr timing.clusterInterval_le_period) (Nat.cast_nonneg _)

/-- Schedulers that hold as many members with the same total interval use the
same period and the same distance. -/
theorem Timing.determined {scheduler other configured changed : Scheduler}
    (timing : scheduler.Timing members configured) (second : other.Timing others changed)
    (total : clusterInterval members = clusterInterval others)
    (sized : members.length = others.length) :
    configured.preciseNormalizedInterval = changed.preciseNormalizedInterval ∧
      configured.intraClusterDistance = changed.intraClusterDistance := by
  obtain ⟨normalized, _, divisor, precise⟩ := timing.divisor
  obtain ⟨normalized', _, divisor', precise'⟩ := second.divisor
  rw [total] at divisor precise
  have same : normalized = normalized' := Except.ok.inj (divisor.symm.trans divisor')
  have periods : configured.preciseNormalizedInterval = changed.preciseNormalizedInterval := by
    rw [precise, precise', same]
  exact ⟨periods, by rw [timing.clusterDistance, second.clusterDistance, periods, total, sized]⟩

end Scheduler

end PriceFeed.Schedulers
