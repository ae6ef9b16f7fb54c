import PriceFeed.Library.Runs
import PriceFeed.Schedulers.Runtime
import PriceFeed.Schedulers.Scheduler

/-! `RestrictedHistoricalScheduler` with the parts that drive it: its cron job and
timers in exact time, the operations of `CollectorsManager`, and the reloads of the
backoff and discovery policies. -/

namespace PriceFeed.Schedulers

/-- What a historical scheduler is constructed with; `operations` counts the
collectors of its manager. Dates are milliseconds. -/
structure HistoricalOptions where
  scheduleStartDate : ℤ
  scheduleEndDate : ℤ
  operationLimit : ℕ := 500
  reloadCyclesBackoff : ℕ := 5
  operations : ℕ
  deriving DecidableEq, Repr

def roundDateToMinute (date : ℤ) : ℤ := date - date % millisecondsInAMinute

namespace HistoricalOptions

variable (options : HistoricalOptions)

def collectionStartDate : ℤ := roundDateToMinute options.scheduleStartDate

def collectionEndDate : ℤ := roundDateToMinute options.scheduleEndDate

/-- Whole minutes to collect. The runner only accepts an end after the start. -/
def totalMinutes : ℕ :=
  ((options.collectionEndDate - options.collectionStartDate) / millisecondsInAMinute).toNat

/-- `calculateTotalCycles`. -/
def totalCycles : ℕ := ⌈(options.totalMinutes : ℚ) / options.operationLimit⌉₊

/-- `calculateLastCycleLimit`. -/
def lastCycleLimit : ℕ :=
  let remainingMinutes := options.totalMinutes % options.operationLimit
  if remainingMinutes = 0 then options.operationLimit else remainingMinutes

end HistoricalOptions

/-- A call of `runOperations`: the cycle whose bounds it set, and what
`updateIntervalBounds` returned. -/
structure OperationsRun where
  cycle : ℕ
  lastCycle : Bool
  deriving DecidableEq, Repr

inductive CallOutcome where
  | finished
  | rateLimited
  deriving DecidableEq, Repr

/-- An operation that was started, with the bounds it was handed. Its outcome is
missing while it is under way; `startCollector` swallows every failure. -/
structure OperationCall where
  run : ℕ
  operation : ℕ
  intervalStart : ℤ
  intervalEnd : ℤ
  outcome : Option CallOutcome := none
  deriving DecidableEq, Repr

/-- `nextTick` gives the next moment of a cron job, `due` that of a timer, and `runOf`
the call of `runOperations` that set an operation timer. `reloading` holds before the first start
and between the stop and the start of a reload. The internal scheduler of the markets
manager is kept by its multiplier. `unreplayed` is there for the statements only: the
cycles with a rate limited call that no reload has rolled back yet. -/
structure HistoricalProcess where
  now : ℚ := 0
  scheduler : Scheduler
  internalMultiplier : ℚ
  runtime : SchedulerRuntime := {}
  nextTick : ℕ → ℚ := fun _ => 0
  due : ℕ → ℚ := fun _ => 0
  reloading : Bool := true
  cycleCounter : ℕ := 0
  intervalStart : ℤ := 0
  intervalEnd : ℤ := 0
  runs : List OperationsRun := []
  runOf : ℕ → ℕ := fun _ => 0
  calls : List OperationCall := []
  resolved : Bool := false
  broadcasts : List ℚ := []
  unreplayed : List ℕ := []

/-- Time passes, or something happens at the present moment. -/
inductive HistoricalEvent where
  | passes (time : ℚ)
  | ticks (cron : ℕ)
  | clusterFires (timer : ℕ)
  | batchFires (timer : ℕ)
  | operationFires (timer : OperationTimer)
  | callEnds (call : ℕ) (outcome : CallOutcome)
  | resolves (run : ℕ)
  | backoffProcessed (rateLimitMultiplier : ℚ)
  | reloadStops (rateLimitMultiplier : Option ℚ)
  | starts (dynamicConfig : DynamicConfig) (firstTick : ℚ)

namespace HistoricalProcess

/-- The cycle whose bounds a call of `runOperations` set. -/
def cycleOf (process : HistoricalProcess) (run : ℕ) : Option ℕ :=
  process.runs[run]?.map OperationsRun.cycle

variable (options : HistoricalOptions)

def initial (scheduler : Scheduler) : HistoricalProcess :=
  { scheduler := scheduler, internalMultiplier := scheduler.rateLimitMultiplier }

/-- No cron job or timer is passed over. -/
def Timely (process : HistoricalProcess) (time : ℚ) : Prop :=
  (∀ cron ∈ process.runtime.crons, time ≤ process.nextTick cron) ∧
    (∀ timer ∈ process.runtime.clusterTimers, time ≤ process.due timer) ∧
    (∀ timer ∈ process.runtime.batchTimers, time ≤ process.due timer) ∧
    ∀ timer ∈ process.runtime.operationTimers, time ≤ process.due timer.handle

instance (process : HistoricalProcess) (time : ℚ) : Decidable (process.Timely time) :=
  inferInstanceAs (Decidable (_ ∧ _ ∧ _ ∧ _))

/-- `setTimeout` with a delay; one that is not a number fires at once. -/
def dueAfter (process : HistoricalProcess) (delay : Option ℚ) : ℚ := process.now + delay.getD 0

/-- `updateIntervalBounds`, which tells whether this is the last cycle. -/
def updateIntervalBounds (process : HistoricalProcess) : HistoricalProcess × Bool :=
  if options.totalCycles ≤ process.cycleCounter then (process, true)
  else
    let isFinalCycle : Bool := options.totalCycles ≤ process.cycleCounter + 1
    let cycleLimit := if isFinalCycle then options.lastCycleLimit else options.operationLimit
    let intervalStartOffset : ℤ :=
      process.cycleCounter * options.operationLimit * millisecondsInAMinute
    let intervalEndOffset : ℤ := intervalStartOffset + cycleLimit * millisecondsInAMinute
    ({ process with
        intervalStart := options.collectionStartDate + intervalStartOffset
        intervalEnd := options.collectionStartDate + intervalEndOffset
        cycleCounter := process.cycleCounter + 1 }, isFinalCycle)

/-- `BaseScheduler.runOperations`, after the cron job was stopped in the last cycle. -/
def scheduleOperations (process : HistoricalProcess) (timer : ℕ) (isLastCycle : Bool) :
    HistoricalProcess :=
  let runtime := if isLastCycle then process.runtime.stopCron else process.runtime
  let first := runtime.nextHandle
  { process with
    runtime := runtime.runOperations timer options.operations
    due := fun handle =>
      if first ≤ handle ∧ handle < first + options.operations then
        process.now + process.scheduler.getOperationDelay (handle - first)
      else process.due handle
    runOf := fun handle =>
      if first ≤ handle ∧ handle < first + options.operations then process.runs.length
      else process.runOf handle
    runs := process.runs ++ [⟨process.cycleCounter - 1, isLastCycle⟩] }

/-- `runOperations`, the callback of the batch delay. -/
def runOperations (process : HistoricalProcess) (timer : ℕ) : HistoricalProcess :=
  let (updated, isLastCycle) := process.updateIntervalBounds options
  updated.scheduleOperations options timer isLastCycle

/-- An operation reads the bounds when it starts. -/
def startOperation (process : HistoricalProcess) (timer : OperationTimer) : HistoricalProcess :=
  { process with
    runtime := process.runtime.startOperation timer.handle
    calls := process.calls ++ [{
      run := process.runOf timer.handle
      operation := timer.operation
      intervalStart := process.intervalStart
      intervalEnd := process.intervalEnd }] }

/-- The end of `startCollector`: a rate limit error is broadcast, and nothing is thrown. -/
def endCall (process : HistoricalProcess) (index : ℕ) (call : OperationCall)
    (outcome : CallOutcome) : HistoricalProcess :=
  let ended := { process with calls := process.calls.set index { call with outcome := some outcome } }
  if outcome = .rateLimited then
    { ended with
      broadcasts := process.broadcasts ++ [process.scheduler.getMultiplierBackoff]
      unreplayed := process.unreplayed ++ (process.cycleOf call.run).toList }
  else ended

/-- All operations of a call of `runOperations` have ended, so its `Promise.all` resolves. -/
def RunEnded (process : HistoricalProcess) (run : ℕ) : Prop :=
  ∀ operation < options.operations, ∃ call ∈ process.calls,
    call.run = run ∧ call.operation = operation ∧ call.outcome ≠ none

instance (process : HistoricalProcess) (run : ℕ) : Decidable (process.RunEnded options run) :=
  inferInstanceAs (Decidable (∀ operation < options.operations, _))

def backoffCycles (process : HistoricalProcess) : HistoricalProcess :=
  let backoffSize := min process.cycleCounter options.reloadCyclesBackoff
  let cycleCounter := process.cycleCounter - backoffSize
  { process with
    cycleCounter := cycleCounter
    unreplayed := process.unreplayed.filter fun cycle => cycle < cycleCounter }

/-- `reloadActive` up to its sleep; one reload at a time. -/
def stopForReload (process : HistoricalProcess) (rateLimitMultiplier : Option ℚ) :
    Option HistoricalProcess :=
  if process.reloading then none
  else
    process.runtime.destroyScheduler.map fun destroyed =>
      { process with
        internalMultiplier := rateLimitMultiplier.getD process.internalMultiplier
        runtime := destroyed
        reloading := true }.backoffCycles options

/-- `start`, the first time or at the end of a reload. -/
def start (process : HistoricalProcess) (scheduler : Scheduler) (firstTick : ℚ) : HistoricalProcess :=
  { process with
    scheduler := scheduler
    internalMultiplier := scheduler.rateLimitMultiplier
    runtime := process.runtime.initializeScheduler
    nextTick := Function.update process.nextTick process.runtime.nextHandle firstTick
    reloading := false }

def step (process : HistoricalProcess) : HistoricalEvent → Option HistoricalProcess
  | .passes time =>
    if process.now ≤ time ∧ process.Timely time then some { process with now := time } else none
  | .ticks cron =>
    if cron ∈ process.runtime.crons ∧ process.nextTick cron = process.now then
      some { process with
        runtime := process.runtime.initializeClusterDelay
        nextTick := Function.update process.nextTick cron
          (process.now + process.scheduler.preciseNormalizedInterval)
        due := Function.update process.due process.runtime.nextHandle
          (process.dueAfter process.scheduler.getOperationsClusterDelay) }
    else none
  | .clusterFires timer =>
    if timer ∈ process.runtime.clusterTimers ∧ process.due timer = process.now then
      some { process with
        runtime := process.runtime.initializeBatch timer
        due := Function.update process.due process.runtime.nextHandle
          (process.dueAfter process.scheduler.getOperationsBatchDelay) }
    else none
  | .batchFires timer =>
    if timer ∈ process.runtime.batchTimers ∧ process.due timer = process.now then
      some (process.runOperations options timer)
    else none
  | .operationFires timer =>
    if timer ∈ process.runtime.operationTimers ∧ process.due timer.handle = process.now then
      some (process.startOperation timer)
    else none
  | .callEnds index outcome =>
    match process.calls[index]? with
    | some call => if call.outcome = none then some (process.endCall index call outcome) else none
    | none => none
  | .resolves run =>
    match process.runs[run]? with
    | some operationsRun =>
      if operationsRun.lastCycle ∧ process.RunEnded options run then
        some { process with resolved := true }
      else none
    | none => none
  | .backoffProcessed rateLimitMultiplier =>
    if rateLimitMultiplier ∈ process.broadcasts then
      let received := { process with broadcasts := process.broadcasts.erase rateLimitMultiplier }
      -- `shouldReload`
      if rateLimitMultiplier ≠ 0 ∧ process.internalMultiplier < rateLimitMultiplier then
        received.stopForReload options (some rateLimitMultiplier)
      else some received
    else none
  | .reloadStops rateLimitMultiplier => process.stopForReload options rateLimitMultiplier
  | .starts dynamicConfig firstTick =>
    if process.reloading ∧ process.now < firstTick then
      let assigned := { dynamicConfig with operations := some options.operations }
      match process.scheduler.setDynamicConfig assigned with
      | .ok scheduler => some (process.start scheduler firstTick)
      | .error _ => none
    else none

end HistoricalProcess

end PriceFeed.Schedulers
