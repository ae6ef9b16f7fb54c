import Mathlib.Logic.Function.Basic
import PriceFeed.Library.Runs
import PriceFeed.Schedulers.Runtime

/-! `MarketsManager` beside the discovery and backoff policies that call it: the
asynchronous steps of `start`, `stop` and `reloadActive`, the two mutexes they
take, and the schedulers they start and stop. -/

namespace PriceFeed.Collectors

open PriceFeed.Library PriceFeed.Schedulers

/-- A `CollectorsManager`, by its market and the scheduler it was created with. -/
structure CollectorsManager where
  marketId : ℕ
  scheduler : ℕ
  deriving DecidableEq, Repr

/-- How far `CollectorsManager.start` has come. -/
inductive MarketPhase where
  | loadingContext
  | connecting
  deriving DecidableEq, Repr

/-- A market whose scheduler is not started yet. -/
structure StartingMarket where
  scheduler : ℕ
  phase : MarketPhase
  deriving DecidableEq, Repr

/-- Calls of `MarketsManager.start` wait for the mutex, load the markets and start
them side by side. One that fails returns while the other markets go on. -/
inductive StartPhase where
  | unused
  | waiting
  | loadingMarkets
  | starting
  | returned
  deriving DecidableEq, Repr

structure StartTask where
  phase : StartPhase := .unused
  markets : List StartingMarket := []
  failed : Bool := false
  deriving DecidableEq, Repr

/-- Calls of `reloadActive` stop all schedulers at once; each sleeps and starts on its own. -/
inductive ReloadPhase where
  | unused
  | waiting
  | reloading
  | returned
  deriving DecidableEq, Repr

structure ReloadTask where
  phase : ReloadPhase := .unused
  sleeping : List ℕ := []
  failed : Bool := false
  deriving DecidableEq, Repr

inductive StopPhase where
  | unused
  | waiting
  | stopping
  | returned
  deriving DecidableEq, Repr

/-- One replica: its policies as far as they call the markets manager, and the
manager. Of the message buffers only the armed timers are kept, and of the mutexes
whether they are taken: a timed out one is free again, whoever holds it. -/
structure MarketsProcess where
  channelOpen : Bool := true
  hasStarted : Bool := false
  statusArmed : Bool := false
  shareArmed : Bool := false
  closeArmed : Bool := false
  waitingShares : ℕ := 0
  waitingCloses : ℕ := 0
  startStopLocked : Bool := false
  reloadLocked : Bool := false
  startCalls : ℕ := 0
  starts : ℕ → StartTask := fun _ => {}
  reloadCalls : ℕ := 0
  reloads : ℕ → ReloadTask := fun _ => {}
  stopCalls : ℕ := 0
  stops : ℕ → StopPhase := fun _ => .unused
  collectorsManagers : List CollectorsManager := []
  nextScheduler : ℕ := 0
  schedulers : ℕ → SchedulerRuntime := fun _ => {}

/-- What can happen next. `task` numbers the calls of a kind. Whether a SHARE or
CLOSE handler reloads depends on messages that are not modelled, so both are open, and
so is whether a batch is the last cycle of a historical scheduler. -/
inductive LifecycleEvent where
  | statusArrives
  | statusElapsed
  | shareArrives
  | shareElapsed
  | shareHandled (reloads : Bool)
  | closeArrives
  | closeElapsed
  | closeHandled (reloads : Bool)
  | backoffProcessed
  | policyStopped
  | stopCalled
  | startAcquires (task : ℕ)
  | startThrows (task : ℕ) (resolved : List ℕ)
  | marketsLoaded (task : ℕ) (marketIds : List ℕ)
  | contextLoaded (task scheduler : ℕ)
  | schedulerStarted (task scheduler : ℕ)
  | marketFails (task scheduler : ℕ)
  | startReturns (task : ℕ)
  | stopAcquires (task : ℕ)
  | stopReturns (task : ℕ)
  | reloadAcquires (task : ℕ)
  | reloadThrows (task : ℕ)
  | reloadStarts (task scheduler : ℕ)
  | reloadFails (task scheduler : ℕ)
  | reloadReturns (task : ℕ)
  | startStopExpires
  | reloadExpires
  | cronTicks (scheduler cron : ℕ)
  | clusterFires (scheduler timer : ℕ)
  | batchFires (scheduler timer : ℕ) (lastCycle : Bool)
  | operationFires (scheduler timer : ℕ)
  deriving DecidableEq, Repr

namespace MarketsProcess

def setScheduler (process : MarketsProcess) (scheduler : ℕ) (runtime : SchedulerRuntime) :
    MarketsProcess :=
  { process with schedulers := Function.update process.schedulers scheduler runtime }

def setStart (process : MarketsProcess) (task : ℕ) (start : StartTask) : MarketsProcess :=
  { process with starts := Function.update process.starts task start }

def setReload (process : MarketsProcess) (task : ℕ) (reload : ReloadTask) : MarketsProcess :=
  { process with reloads := Function.update process.reloads task reload }

def setStop (process : MarketsProcess) (task : ℕ) (phase : StopPhase) : MarketsProcess :=
  { process with stops := Function.update process.stops task phase }

/-- `marketsManager.start` is called and asks for the mutex. -/
def callStart (process : MarketsProcess) : MarketsProcess :=
  { process.setStart process.startCalls { phase := .waiting } with
    startCalls := process.startCalls + 1 }

def callReload (process : MarketsProcess) : MarketsProcess :=
  { process.setReload process.reloadCalls { phase := .waiting } with
    reloadCalls := process.reloadCalls + 1 }

def callStop (process : MarketsProcess) : MarketsProcess :=
  { process.setStop process.stopCalls .waiting with stopCalls := process.stopCalls + 1 }

/-- `handleStatusMessage` up to the call: `hasStarted` is set only after the start. -/
def handleStatusMessage (process : MarketsProcess) : MarketsProcess :=
  if process.hasStarted then process else process.callStart

/-- One market of `resolveMarkets`, with the number of the next scheduler: a known
market is updated, a new one gets a manager and a scheduler. -/
def resolveMarket (resolved : List CollectorsManager × ℕ) (marketId : ℕ) : List CollectorsManager × ℕ :=
  if ∃ manager ∈ resolved.1, manager.marketId = marketId then resolved
  else (resolved.1 ++ [⟨marketId, resolved.2⟩], resolved.2 + 1)

def resolveMarkets (process : MarketsProcess) (marketIds : List ℕ) : MarketsProcess :=
  let resolved := marketIds.foldl resolveMarket (process.collectorsManagers, process.nextScheduler)
  { process with collectorsManagers := resolved.1, nextScheduler := resolved.2 }

/-- A disabled market is forgotten; nobody stops its scheduler. -/
def clearDisabledMarkets (process : MarketsProcess) (marketIds : List ℕ) : MarketsProcess :=
  { process with
    collectorsManagers := process.collectorsManagers.filter fun manager =>
      manager.marketId ∈ marketIds }

def managedSchedulers (process : MarketsProcess) : List ℕ :=
  process.collectorsManagers.map CollectorsManager.scheduler

/-- The stop phase of all managed schedulers. One that throws stays as it is. -/
def destroySchedulers (process : MarketsProcess) : MarketsProcess :=
  { process with
    schedulers := fun scheduler =>
      if scheduler ∈ process.managedSchedulers then
        (process.schedulers scheduler).destroyScheduler.getD (process.schedulers scheduler)
      else process.schedulers scheduler }

/-- The managed schedulers whose stop does not throw. -/
def destroyable (process : MarketsProcess) : List ℕ :=
  process.managedSchedulers.filter fun scheduler =>
    (process.schedulers scheduler).destroyScheduler.isSome

variable (operations : ℕ)

def step (process : MarketsProcess) : LifecycleEvent → Option MarketsProcess
  | .statusArrives =>
    if process.channelOpen then some { process with statusArmed := true } else none
  | .statusElapsed =>
    if process.statusArmed then some { process with statusArmed := false }.handleStatusMessage
    else none
  | .shareArrives =>
    if process.channelOpen then some { process with shareArmed := true } else none
  | .shareElapsed =>
    if process.shareArmed then
      some { process with shareArmed := false, waitingShares := process.waitingShares + 1 }
    else none
  | .shareHandled reloads =>
    if process.waitingShares = 0 then none
    else
      let handled := { process with waitingShares := process.waitingShares - 1 }
      some (if reloads then handled.callReload else handled)
  | .closeArrives =>
    if process.channelOpen then some { process with closeArmed := true } else none
  | .closeElapsed =>
    if process.closeArmed then
      some { process with closeArmed := false, waitingCloses := process.waitingCloses + 1 }
    else none
  | .closeHandled reloads =>
    if process.waitingCloses = 0 then none
    else
      let handled := { process with waitingCloses := process.waitingCloses - 1 }
      some (if reloads then handled.callReload else handled)
  | .backoffProcessed => some process.callReload
  | .policyStopped => some { process with channelOpen := false }.callStop
  | .stopCalled => some process.callStop
  | .startAcquires task =>
    if (process.starts task).phase = .waiting ∧ process.startStopLocked = false then
      some { process.setStart task { process.starts task with phase := .loadingMarkets } with
        startStopLocked := true }
    else none
  | .startThrows task resolved =>
    -- the markets before the one whose update throws have been resolved
    if (process.starts task).phase = .loadingMarkets then
      some { (process.resolveMarkets resolved).setStart task
          { process.starts task with phase := .returned, failed := true } with
        startStopLocked := false }
    else none
  | .marketsLoaded task marketIds =>
    if (process.starts task).phase = .loadingMarkets then
      let loaded := (process.resolveMarkets marketIds).clearDisabledMarkets marketIds
      some (loaded.setStart task { process.starts task with
        phase := .starting
        markets := loaded.managedSchedulers.map fun scheduler => ⟨scheduler, .loadingContext⟩ })
    else none
  | .contextLoaded task scheduler =>
    let start := process.starts task
    if ⟨scheduler, .loadingContext⟩ ∈ start.markets then
      some (process.setStart task { start with
        markets := start.markets.map fun market =>
          if market.scheduler = scheduler then ⟨scheduler, .connecting⟩ else market })
    else none
  | .schedulerStarted task scheduler =>
    let start := process.starts task
    if ⟨scheduler, .connecting⟩ ∈ start.markets then
      some ((process.setScheduler scheduler
        (process.schedulers scheduler).initializeScheduler).setStart task { start with
          markets := start.markets.filter fun market => market.scheduler ≠ scheduler })
    else none
  | .marketFails task scheduler =>
    let start := process.starts task
    if scheduler ∈ start.markets.map StartingMarket.scheduler then
      some (process.setStart task { start with
        markets := start.markets.filter fun market => market.scheduler ≠ scheduler
        failed := true })
    else none
  | .startReturns task =>
    let start := process.starts task
    if start.phase = .starting ∧ (start.markets = [] ∨ start.failed) then
      some { process.setStart task { start with phase := .returned } with
        startStopLocked := false
        -- a start that throws leaves the flag as it was
        hasStarted := process.hasStarted || !start.failed }
    else none
  | .stopAcquires task =>
    if process.stops task = .waiting ∧ process.startStopLocked = false then
      some { process.destroySchedulers.setStop task .stopping with startStopLocked := true }
    else none
  | .stopReturns task =>
    if process.stops task = .stopping then
      some { process.setStop task .returned with startStopLocked := false }
    else none
  | .reloadAcquires task =>
    if (process.reloads task).phase = .waiting ∧ process.reloadLocked = false then
      some { process.destroySchedulers.setReload task { process.reloads task with
          phase := .reloading
          sleeping := process.destroyable
          failed := process.destroyable ≠ process.managedSchedulers } with
        reloadLocked := true }
    else none
  | .reloadThrows task =>
    if (process.reloads task).phase = .waiting ∧ process.reloadLocked = false then
      some (process.setReload task { process.reloads task with phase := .returned, failed := true })
    else none
  | .reloadStarts task scheduler =>
    let reload := process.reloads task
    if scheduler ∈ reload.sleeping then
      some ((process.setScheduler scheduler
        (process.schedulers scheduler).initializeScheduler).setReload task { reload with
          sleeping := reload.sleeping.filter fun other => other ≠ scheduler })
    else none
  | .reloadFails task scheduler =>
    let reload := process.reloads task
    if scheduler ∈ reload.sleeping then
      some (process.setReload task { reload with
        sleeping := reload.sleeping.filter fun other => other ≠ scheduler
        failed := true })
    else none
  | .reloadReturns task =>
    let reload := process.reloads task
    if reload.phase = .reloading ∧ (reload.sleeping = [] ∨ reload.failed) then
      some { process.setReload task { reload with phase := .returned } with reloadLocked := false }
    else none
  | .startStopExpires => some { process with startStopLocked := false }
  | .reloadExpires => some { process with reloadLocked := false }
  | .cronTicks scheduler cron =>
    if cron ∈ (process.schedulers scheduler).crons then
      some (process.setScheduler scheduler (process.schedulers scheduler).initializeClusterDelay)
    else none
  | .clusterFires scheduler timer =>
    if timer ∈ (process.schedulers scheduler).clusterTimers then
      some (process.setScheduler scheduler ((process.schedulers scheduler).initializeBatch timer))
    else none
  | .batchFires scheduler timer lastCycle =>
    let runtime := process.schedulers scheduler
    if timer ∈ runtime.batchTimers then
      some (process.setScheduler scheduler
        ((if lastCycle then runtime.stopCron else runtime).runOperations timer operations))
    else none
  | .operationFires scheduler timer =>
    if timer ∈ (process.schedulers scheduler).operationTimers.map OperationTimer.handle then
      some (process.setScheduler scheduler ((process.schedulers scheduler).startOperation timer))
    else none

/-- What a step does to the calls of `reloadActive` and their mutex. -/
inductive ReloadChange (process next : MarketsProcess) : LifecycleEvent → Prop where
  | kept {event : LifecycleEvent} (calls : next.reloadCalls = process.reloadCalls)
      (reloads : next.reloads = process.reloads)
      (locked : event ≠ .reloadExpires → next.reloadLocked = process.reloadLocked) :
      ReloadChange process next event
  | called {event : LifecycleEvent} (calls : next.reloadCalls = process.reloadCalls + 1)
      (reloads : next.reloads = Function.update process.reloads process.reloadCalls { phase := .waiting })
      (locked : next.reloadLocked = process.reloadLocked) : ReloadChange process next event
  | acquired {task : ℕ} (waiting : (process.reloads task).phase = .waiting)
      (unlocked : process.reloadLocked = false) (calls : next.reloadCalls = process.reloadCalls)
      (reloads : next.reloads = Function.update process.reloads task
        { phase := .reloading, sleeping := process.destroyable,
          failed := process.destroyable ≠ process.managedSchedulers })
      (locked : next.reloadLocked = true) : ReloadChange process next (.reloadAcquires task)
  | threw {task : ℕ} (waiting : (process.reloads task).phase = .waiting)
      (calls : next.reloadCalls = process.reloadCalls)
      (reloads : next.reloads = Function.update process.reloads task
        { process.reloads task with phase := .returned, failed := true })
      (locked : next.reloadLocked = process.reloadLocked) : ReloadChange process next (.reloadThrows task)
  | started {task scheduler : ℕ} (sleeps : scheduler ∈ (process.reloads task).sleeping)
      (calls : next.reloadCalls = process.reloadCalls)
      (reloads : next.reloads = Function.update process.reloads task { process.reloads task with
        sleeping := (process.reloads task).sleeping.filter fun other => other ≠ scheduler })
      (locked : next.reloadLocked = process.reloadLocked) :
      ReloadChange process next (.reloadStarts task scheduler)
  | failed {task scheduler : ℕ} (sleeps : scheduler ∈ (process.reloads task).sleeping)
      (calls : next.reloadCalls = process.reloadCalls)
      (reloads : next.reloads = Function.update process.reloads task { process.reloads task with
        sleeping := (process.reloads task).sleeping.filter fun other => other ≠ scheduler
        failed := true })
      (locked : next.reloadLocked = process.reloadLocked) :
      ReloadChange process next (.reloadFails task scheduler)
  | returned {task : ℕ} (reloading : (process.reloads task).phase = .reloading)
      (done : (process.reloads task).sleeping = [] ∨ (process.reloads task).failed = true)
      (calls : next.reloadCalls = process.reloadCalls)
      (reloads : next.reloads = Function.update process.reloads task
        { process.reloads task with phase := .returned })
      (locked : next.reloadLocked = false) : ReloadChange process next (.reloadReturns task)

variable {operations} {process next : MarketsProcess}

theorem reloadChange_of_step {event : LifecycleEvent}
    (taken : process.step operations event = some next) : ReloadChange process next event := by
  cases event with
  | statusElapsed =>
    obtain ⟨_, rfl⟩ := enabled taken
    unfold handleStatusMessage
    split
    · exact .kept rfl rfl (fun _ => rfl)
    · exact .kept rfl rfl (fun _ => rfl)
  | shareHandled reloads | closeHandled reloads =>
    simp only [step] at taken
    split at taken
    · cases taken
    · cases taken
      cases reloads with
      | true => exact .called rfl rfl rfl
      | false => exact .kept rfl rfl (fun _ => rfl)
  | backoffProcessed =>
    cases taken
    exact .called rfl rfl rfl
  | policyStopped | stopCalled | startStopExpires =>
    cases taken
    exact .kept rfl rfl (fun _ => rfl)
  | reloadExpires =>
    cases taken
    exact .kept rfl rfl (fun other => absurd rfl other)
  | reloadAcquires task =>
    obtain ⟨⟨waiting, unlocked⟩, rfl⟩ := enabled taken
    exact .acquired waiting unlocked rfl rfl rfl
  | reloadThrows task =>
    obtain ⟨⟨waiting, _⟩, rfl⟩ := enabled taken
    exact .threw waiting rfl rfl rfl
  | reloadStarts task scheduler =>
    obtain ⟨sleeps, rfl⟩ := enabled taken
    exact .started sleeps rfl rfl rfl
  | reloadFails task scheduler =>
    obtain ⟨sleeps, rfl⟩ := enabled taken
    exact .failed sleeps rfl rfl rfl
  | reloadReturns task =>
    obtain ⟨⟨reloading, done⟩, rfl⟩ := enabled taken
    exact .returned reloading done rfl rfl rfl
  | _ =>
    obtain ⟨_, rfl⟩ := enabled taken
    exact .kept rfl rfl (fun _ => rfl)

end MarketsProcess

end PriceFeed.Collectors
