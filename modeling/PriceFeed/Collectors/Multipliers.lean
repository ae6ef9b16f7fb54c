import PriceFeed.Collectors.MarketsManager
import PriceFeed.Discovery.Reducers

/-! The rate limit multipliers of one replica: what the STATUS, SHARE and backoff handlers
decide on, and when `start` and `reloadActive` write it into the internal scheduler and
into the schedulers of the markets. -/

namespace PriceFeed.Collectors

open PriceFeed.Library PriceFeed.Schedulers PriceFeed.Discovery

/-- The multiplier in the configuration of a call, which is written once the call has its
mutex. It is overtaken when a greater one was written since, or was there already. -/
structure PendingMultiplier where
  value : Option ℚ := none
  overtaken : Bool := false
  deriving DecidableEq, Repr

def PendingMultiplier.after (pending : PendingMultiplier) (written : ℚ) : PendingMultiplier :=
  { pending with overtaken := pending.overtaken || pending.value.any (· < written) }

/-- The lifecycle of a replica with the multipliers of its schedulers. The calls of `start`
and `reloadActive` are numbered as in the lifecycle. -/
structure MultiplierProcess where
  process : MarketsProcess := {}
  internalScheduler : ℚ
  schedulers : ℕ → ℚ
  starts : ℕ → PendingMultiplier := fun _ => {}
  reloads : ℕ → PendingMultiplier := fun _ => {}

/-- The events of the lifecycle, with the messages the handlers find. Where a scheduler
fails to start, the configuration may have been assigned before. -/
inductive MultiplierEvent where
  | statusElapsed (buffer : List StatusMessage)
  | shareHandled (buffer : List ShareMessage) (membersVote : Bool)
  | closeHandled (reloads : Bool)
  | backoffProcessed (rateLimitMultiplier : ℚ)
  | marketFails (task scheduler : ℕ) (assigned : Bool)
  | reloadFails (task scheduler : ℕ) (assigned : Bool)
  | lifecycle (event : LifecycleEvent)
  deriving DecidableEq, Repr

def LifecycleEvent.IsRefined : LifecycleEvent → Bool
  | .statusElapsed | .shareHandled _ | .closeHandled _ | .backoffProcessed | .marketFails _ _
  | .reloadFails _ _ => true
  | _ => false

namespace MultiplierProcess

def initial (internalScheduler : ℚ) : MultiplierProcess where
  internalScheduler := internalScheduler
  schedulers _ := internalScheduler

/-- `internalScheduler.setDynamicConfig` of the configuration of a call. -/
def setInternal (state : MultiplierProcess) (pending : PendingMultiplier) : MultiplierProcess :=
  match pending.value with
  | none => state
  | some value =>
    { state with
      internalScheduler := value
      starts := fun task => (state.starts task).after value
      reloads := fun task => (state.reloads task).after value }

def setMarket (state : MultiplierProcess) (scheduler : ℕ) (pending : PendingMultiplier) :
    MultiplierProcess :=
  { state with schedulers :=
      Function.update state.schedulers scheduler (pending.value.getD (state.schedulers scheduler)) }

/-- The managers of `resolveMarkets` are created or updated with the internal scheduler's
configuration. -/
def resolve (state : MultiplierProcess) (marketIds : List ℕ) : MultiplierProcess :=
  { state with schedulers := fun scheduler =>
      if ∃ manager ∈ state.process.collectorsManagers,
        manager.scheduler = scheduler ∧ manager.marketId ∈ marketIds
      then state.internalScheduler else state.schedulers scheduler }

def startWith (state : MultiplierProcess) (task : ℕ) (value : Option ℚ) : MultiplierProcess :=
  { state with starts :=
      Function.update state.starts task ⟨value, value.any (· < state.internalScheduler)⟩ }

def reloadWith (state : MultiplierProcess) (task : ℕ) (value : Option ℚ) : MultiplierProcess :=
  { state with reloads := Function.update state.reloads task ⟨value, false⟩ }

/-- What an event of the lifecycle does to the multipliers, after it has happened. -/
def follow (state : MultiplierProcess) : LifecycleEvent → MultiplierProcess
  | .startAcquires task => state.setInternal (state.starts task)
  | .reloadAcquires task => state.setInternal (state.reloads task)
  -- the configuration is assigned before the interval computed from it throws
  | .reloadThrows task => state.setInternal (state.reloads task)
  | .marketsLoaded _ marketIds => state.resolve marketIds
  | .startThrows _ resolved => state.resolve resolved
  | .schedulerStarted task scheduler => state.setMarket scheduler (state.starts task)
  | .reloadStarts task scheduler => state.setMarket scheduler (state.reloads task)
  | _ => state

variable (operations : ℕ)

def step (state : MultiplierProcess) : MultiplierEvent → Option MultiplierProcess
  | .statusElapsed buffer =>
    (state.process.step operations .statusElapsed).map fun process =>
      let next := { state with process := process }
      if state.process.hasStarted then next
      else next.startWith state.process.startCalls
        (RateLimitReducer.normalizeState (RateLimitReducer.aggregateState buffer)).rateLimitMultiplier
  | .shareHandled buffer membersVote =>
    let sanitized := RateLimitReducer.sanitizeShareState state.internalScheduler
      (RateLimitReducer.aggregateShareState buffer)
    let reloads := RateLimitReducer.shouldReload state.internalScheduler sanitized || membersVote
    (state.process.step operations (.shareHandled reloads)).map fun process =>
      let next := { state with process := process }
      if reloads then
        next.reloadWith state.process.reloadCalls
          (RateLimitReducer.normalizeState sanitized).rateLimitMultiplier
      else next
  | .closeHandled reloads =>
    (state.process.step operations (.closeHandled reloads)).map fun process =>
      let next := { state with process := process }
      if reloads then next.reloadWith state.process.reloadCalls none else next
  | .backoffProcessed rateLimitMultiplier =>
    -- `shouldReload` of the backoff policy
    if rateLimitMultiplier ≠ 0 ∧ state.internalScheduler < rateLimitMultiplier then
      (state.process.step operations .backoffProcessed).map fun process =>
        { state with process := process }.reloadWith state.process.reloadCalls
          (some rateLimitMultiplier)
    else some state
  | .marketFails task scheduler assigned =>
    (state.process.step operations (.marketFails task scheduler)).map fun process =>
      let next := { state with process := process }
      if assigned then next.setMarket scheduler (state.starts task) else next
  | .reloadFails task scheduler assigned =>
    (state.process.step operations (.reloadFails task scheduler)).map fun process =>
      let next := { state with process := process }
      if assigned then next.setMarket scheduler (state.reloads task) else next
  | .lifecycle event =>
    if event.IsRefined then none
    else (state.process.step operations event).map fun process =>
      { state with process := process }.follow event

/-- The multiplier a handler decides on, which the call it makes will carry. -/
def decided (state : MultiplierProcess) : MultiplierEvent → Option ℚ
  | .statusElapsed buffer =>
    (RateLimitReducer.normalizeState (RateLimitReducer.aggregateState buffer)).rateLimitMultiplier
  | .shareHandled buffer _ =>
    (RateLimitReducer.normalizeState (RateLimitReducer.sanitizeShareState state.internalScheduler
      (RateLimitReducer.aggregateShareState buffer))).rateLimitMultiplier
  | .backoffProcessed rateLimitMultiplier =>
    if state.internalScheduler < rateLimitMultiplier then some rateLimitMultiplier else none
  | _ => none

/-- The pending multiplier that an event writes into the internal scheduler. -/
def written (state : MultiplierProcess) : MultiplierEvent → PendingMultiplier
  | .lifecycle (.startAcquires task) => state.starts task
  | .lifecycle (.reloadAcquires task) => state.reloads task
  | .lifecycle (.reloadThrows task) => state.reloads task
  | _ => {}

def Source (state : MultiplierProcess) (scheduler : ℕ) (multiplier : ℚ) : Prop :=
  multiplier = state.schedulers scheduler ∨ multiplier = state.internalScheduler ∨
    (∃ task, multiplier ∈ (state.starts task).value) ∨
    ∃ task, multiplier ∈ (state.reloads task).value

inductive Effect (state : MultiplierProcess) (event : MultiplierEvent) (next : MultiplierProcess) :
    Prop where
  | startCalled (process : MarketsProcess) (quiet : state.written event = {})
      (effect : next = { state with process := process }.startWith state.process.startCalls
        (state.decided event))
  | reloadCalled (process : MarketsProcess) (quiet : state.written event = {})
      (higher : ∀ value ∈ state.decided event, state.internalScheduler < value)
      (effect : next = { state with process := process }.reloadWith state.process.reloadCalls
        (state.decided event))
  | internalSet (process : MarketsProcess)
      (effect : next = { state with process := process }.setInternal (state.written event))
  | marketsSet (process : MarketsProcess) (quiet : state.written event = {}) (schedulers : ℕ → ℚ)
      (sources : ∀ scheduler, state.Source scheduler (schedulers scheduler))
      (effect : next = { state with process := process, schedulers := schedulers })

variable {operations} {state next : MultiplierProcess} {event : MultiplierEvent}

theorem source_setMarket {pending : PendingMultiplier} (market : ℕ)
    (known : (∃ task, pending = state.starts task) ∨ ∃ task, pending = state.reloads task)
    (scheduler : ℕ) : state.Source scheduler
      (Function.update state.schedulers market (pending.value.getD (state.schedulers market)) scheduler) := by
  by_cases here : scheduler = market
  · subst here
    rw [Function.update_self]
    cases carried : pending.value with
    | none => exact .inl rfl
    | some value =>
      rcases known with ⟨task, rfl⟩ | ⟨task, rfl⟩
      · exact .inr (.inr (.inl ⟨task, carried⟩))
      · exact .inr (.inr (.inr ⟨task, carried⟩))
  · rw [Function.update_of_ne here]
    exact .inl rfl

private theorem decided_share (buffer : List ShareMessage) (membersVote : Bool) :
    ∀ value ∈ state.decided (.shareHandled buffer membersVote), state.internalScheduler < value := by
  intro value decided
  simp only [MultiplierProcess.decided, RateLimitReducer.normalizeState,
    RateLimitReducer.sanitizeShareState, Option.mem_def, Option.filter_eq_some_iff,
    decide_eq_true_eq] at decided
  exact decided.1.2

private theorem effect_follow (process : MarketsProcess) (event : LifecycleEvent) :
    state.Effect (.lifecycle event) ({ state with process := process }.follow event) := by
  have unchanged : ∀ scheduler, state.Source scheduler (state.schedulers scheduler) :=
    fun _ => .inl rfl
  cases event with
  | startAcquires task => exact .internalSet process rfl
  | reloadAcquires task => exact .internalSet process rfl
  | reloadThrows task => exact .internalSet process rfl
  | marketsLoaded task marketIds =>
    refine .marketsSet process rfl _ (fun scheduler => ?_) rfl
    simp only
    split
    · exact .inr (.inl rfl)
    · exact .inl rfl
  | startThrows task marketIds =>
    refine .marketsSet process rfl _ (fun scheduler => ?_) rfl
    simp only
    split
    · exact .inr (.inl rfl)
    · exact .inl rfl
  | schedulerStarted task scheduler =>
    exact .marketsSet process rfl _ (source_setMarket scheduler (.inl ⟨task, rfl⟩)) rfl
  | reloadStarts task scheduler =>
    exact .marketsSet process rfl _ (source_setMarket scheduler (.inr ⟨task, rfl⟩)) rfl
  | _ => exact .marketsSet process rfl _ unchanged rfl

theorem effect_step (taken : state.step operations event = some next) : state.Effect event next := by
  have unchanged : ∀ scheduler, state.Source scheduler (state.schedulers scheduler) :=
    fun _ => .inl rfl
  cases event with
  | statusElapsed buffer =>
    obtain ⟨process, _, rfl⟩ := Option.map_eq_some_iff.mp taken
    simp only
    split
    · exact .marketsSet process rfl _ unchanged rfl
    · exact .startCalled process rfl rfl
  | shareHandled buffer membersVote =>
    obtain ⟨process, _, rfl⟩ := Option.map_eq_some_iff.mp taken
    simp only
    split
    · exact .reloadCalled process rfl (decided_share buffer membersVote) rfl
    · exact .marketsSet process rfl _ unchanged rfl
  | closeHandled reloads =>
    obtain ⟨process, _, rfl⟩ := Option.map_eq_some_iff.mp taken
    cases reloads with
    | true => exact .reloadCalled process rfl (by simp [decided]) rfl
    | false => exact .marketsSet process rfl _ unchanged rfl
  | backoffProcessed rateLimitMultiplier =>
    simp only [step] at taken
    split at taken
    · next higher =>
      obtain ⟨process, _, rfl⟩ := Option.map_eq_some_iff.mp taken
      have carried : state.decided (.backoffProcessed rateLimitMultiplier) =
          some rateLimitMultiplier := if_pos higher.2
      refine .reloadCalled process rfl ?_ (by rw [carried])
      rw [carried]
      rintro value ⟨⟩
      exact higher.2
    · cases taken
      exact .marketsSet state.process rfl _ unchanged rfl
  | marketFails task scheduler assigned =>
    obtain ⟨process, _, rfl⟩ := Option.map_eq_some_iff.mp taken
    cases assigned with
    | true => exact .marketsSet process rfl _ (source_setMarket scheduler (.inl ⟨task, rfl⟩)) rfl
    | false => exact .marketsSet process rfl _ unchanged rfl
  | reloadFails task scheduler assigned =>
    obtain ⟨process, _, rfl⟩ := Option.map_eq_some_iff.mp taken
    cases assigned with
    | true => exact .marketsSet process rfl _ (source_setMarket scheduler (.inr ⟨task, rfl⟩)) rfl
    | false => exact .marketsSet process rfl _ unchanged rfl
  | lifecycle event =>
    simp only [step] at taken
    split at taken
    · cases taken
    · obtain ⟨process, _, rfl⟩ := Option.map_eq_some_iff.mp taken
      exact effect_follow process event

end MultiplierProcess

end PriceFeed.Collectors
