import PriceFeed.Schedulers.Historical

/-! A realtime or historical scheduler with its clock: the cron job, the timers, and the
starts and stops of its owner, in exact time. -/

namespace PriceFeed.Schedulers

/-- The two schedulers with a cron job. They differ in `runOperations`, before which a
historical one moves on to its next cycle. -/
inductive SchedulerKind where
  | realtime
  | historical (options : HistoricalOptions)
  deriving DecidableEq, Repr

namespace SchedulerKind

/-- `updateIntervalBounds` as far as it counts cycles, with whether the cycle is the last. -/
def countCycle : SchedulerKind → ℕ → ℕ × Bool
  | .realtime, cycleCounter => (cycleCounter, false)
  | .historical options, cycleCounter =>
    if options.totalCycles ≤ cycleCounter then (cycleCounter, true)
    else (cycleCounter + 1, options.totalCycles ≤ cycleCounter + 1)

/-- `backoffCycles`, which `handleReloadSleep` of a historical scheduler calls. -/
def backoffCycles : SchedulerKind → ℕ → ℕ
  | .realtime, cycleCounter => cycleCounter
  | .historical options, cycleCounter => cycleCounter - min cycleCounter options.reloadCyclesBackoff

end SchedulerKind

/-- `nextTick` gives the next moment of a cron job and `due` that of a timer. `running` holds
from a start to the next stop. -/
structure SchedulerProcess where
  now : ℚ := 0
  scheduler : Scheduler
  runtime : SchedulerRuntime := {}
  nextTick : ℕ → ℚ := fun _ => 0
  due : ℕ → ℚ := fun _ => 0
  running : Bool := false
  cycleCounter : ℕ := 0

/-- Time passes, or something happens at the present moment. -/
inductive SchedulerEvent where
  | passes (time : ℚ)
  | starts (dynamicConfig : DynamicConfig) (firstTick : ℚ)
  | stops
  | reloadSleeps
  | ticks (cron : ℕ)
  | clusterFires (timer : ℕ)
  | batchFires (timer : ℕ)
  | operationFires (timer : OperationTimer)
  deriving DecidableEq, Repr

namespace SchedulerProcess

variable (kind : SchedulerKind)

/-- A scheduler as it was constructed. -/
def initial (scheduler : Scheduler) (cycleCounter : ℕ) : SchedulerProcess :=
  { scheduler := scheduler, cycleCounter := cycleCounter }

/-- No cron job or timer is passed over. -/
def Timely (process : SchedulerProcess) (time : ℚ) : Prop :=
  (∀ cron ∈ process.runtime.crons, time ≤ process.nextTick cron) ∧
    (∀ timer ∈ process.runtime.clusterTimers, time ≤ process.due timer) ∧
    (∀ timer ∈ process.runtime.batchTimers, time ≤ process.due timer) ∧
    ∀ timer ∈ process.runtime.operationTimers, time ≤ process.due timer.handle

instance (process : SchedulerProcess) (time : ℚ) : Decidable (process.Timely time) :=
  inferInstanceAs (Decidable (_ ∧ _ ∧ _ ∧ _))

/-- `setTimeout` with a delay; one that is not a number fires at once. -/
def dueAfter (process : SchedulerProcess) (delay : Option ℚ) : ℚ := process.now + delay.getD 0

/-- `initializeScheduler`, after the configuration was taken over. -/
def start (process : SchedulerProcess) (scheduler : Scheduler) (firstTick : ℚ) : SchedulerProcess :=
  { process with
    scheduler := scheduler
    runtime := process.runtime.initializeScheduler
    nextTick := Function.update process.nextTick process.runtime.nextHandle firstTick
    running := true }

/-- The callback of the cron job. -/
def initializeClusterDelay (process : SchedulerProcess) (cron : ℕ) : SchedulerProcess :=
  { process with
    runtime := process.runtime.initializeClusterDelay
    nextTick := Function.update process.nextTick cron
      (process.now + process.scheduler.preciseNormalizedInterval)
    due := Function.update process.due process.runtime.nextHandle
      (process.dueAfter process.scheduler.getOperationsClusterDelay) }

/-- The callback of the cluster delay. -/
def initializeBatch (process : SchedulerProcess) (timer : ℕ) : SchedulerProcess :=
  { process with
    runtime := process.runtime.initializeBatch timer
    due := Function.update process.due process.runtime.nextHandle
      (process.dueAfter process.scheduler.getOperationsBatchDelay) }

/-- `BaseScheduler.runOperations`, after the cron job was stopped in the last cycle. -/
def scheduleOperations (process : SchedulerProcess) (timer : ℕ) (isLastCycle : Bool) :
    SchedulerProcess :=
  let runtime := if isLastCycle then process.runtime.stopCron else process.runtime
  let first := runtime.nextHandle
  { process with
    runtime := runtime.runOperations timer process.scheduler.operations
    due := fun handle =>
      if first ≤ handle ∧ handle < first + process.scheduler.operations then
        process.now + process.scheduler.getOperationDelay (handle - first)
      else process.due handle }

/-- `runOperations`, the callback of the batch delay. -/
def runOperations (process : SchedulerProcess) (timer : ℕ) : SchedulerProcess :=
  let (cycleCounter, isLastCycle) := kind.countCycle process.cycleCounter
  { process with cycleCounter := cycleCounter }.scheduleOperations timer isLastCycle

def startOperation (process : SchedulerProcess) (timer : OperationTimer) : SchedulerProcess :=
  { process with runtime := process.runtime.startOperation timer.handle }

/-- An owner starts a scheduler that does not run. Where the interval has no divisor the start
throws, after `Object.assign`. A stop without a cron task throws. -/
def step (process : SchedulerProcess) : SchedulerEvent → Option SchedulerProcess
  | .passes time =>
    if process.now ≤ time ∧ process.Timely time then some { process with now := time } else none
  | .starts dynamicConfig firstTick =>
    if process.running = false ∧ process.now < firstTick then
      match process.scheduler.setDynamicConfig dynamicConfig with
      | .ok scheduler => some (process.start scheduler firstTick)
      | .error _ => some { process with scheduler := process.scheduler.assign dynamicConfig }
    else none
  | .stops =>
    process.runtime.destroyScheduler.map fun destroyed =>
      { process with runtime := destroyed, running := false }
  | .reloadSleeps =>
    if process.running = false then
      some { process with cycleCounter := kind.backoffCycles process.cycleCounter }
    else none
  | .ticks cron =>
    if cron ∈ process.runtime.crons ∧ process.nextTick cron = process.now then
      some (process.initializeClusterDelay cron)
    else none
  | .clusterFires timer =>
    if timer ∈ process.runtime.clusterTimers ∧ process.due timer = process.now then
      some (process.initializeBatch timer)
    else none
  | .batchFires timer =>
    if timer ∈ process.runtime.batchTimers ∧ process.due timer = process.now then
      some (process.runOperations kind timer)
    else none
  | .operationFires timer =>
    if timer ∈ process.runtime.operationTimers ∧ process.due timer.handle = process.now then
      some (process.startOperation timer)
    else none

end SchedulerProcess

end PriceFeed.Schedulers
