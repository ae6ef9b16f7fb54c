import PriceFeed.Collectors.MonotoneBackoff

/-! A group of replicas that back off: operations that are rate limited broadcast the next
multiplier, replicas reload with it, and report what they have adopted to each other. -/

namespace PriceFeed.Collectors

open PriceFeed.Library PriceFeed.Schedulers PriceFeed.Discovery

namespace MarketsProcess

variable {operations : ℕ} {process next : MarketsProcess}

private theorem reloads_step {event : LifecycleEvent} (taken : process.step operations event = some next) :
    process.reloadCalls ≤ next.reloadCalls ∧ ∀ task < process.reloadCalls,
      (next.reloads task).phase = .waiting → (process.reloads task).phase = .waiting := by
  have moved : ∀ (changed : ℕ) (reload : ReloadTask), (reload.phase = .waiting →
      (process.reloads changed).phase = .waiting) → ∀ task,
        (Function.update process.reloads changed reload task).phase = .waiting →
          (process.reloads task).phase = .waiting := by
    intro changed reload before task waiting
    by_cases here : task = changed
    · subst here
      rw [Function.update_self] at waiting
      exact before waiting
    · rwa [Function.update_of_ne here] at waiting
  cases reloadChange_of_step taken with
  | kept calls reloads =>
    rw [calls, reloads]
    exact ⟨le_rfl, fun _ _ waiting => waiting⟩
  | called calls reloads =>
    rw [calls, reloads]
    refine ⟨Nat.le_succ _, fun task known waiting => ?_⟩
    rwa [Function.update_of_ne known.ne] at waiting
  | acquired _ _ calls reloads | threw _ calls reloads | returned _ _ calls reloads =>
    rw [calls, reloads]
    exact ⟨le_rfl, fun other _ => moved _ _ (by simp) other⟩
  | started _ calls reloads | failed _ calls reloads =>
    rw [calls, reloads]
    exact ⟨le_rfl, fun other _ => moved _ _ (by exact id) other⟩

/-- A call that gets the mutex has waited for it, and waits no longer. -/
private theorem waited_of_acquires {task : ℕ}
    (taken : process.step operations (.reloadAcquires task) = some next) :
    (process.reloads task).phase = .waiting ∧ (next.reloads task).phase ≠ .waiting := by
  obtain ⟨waited, rfl⟩ := enabled taken
  exact ⟨waited.1, by simp [setReload]⟩

private theorem waited_of_throws {task : ℕ}
    (taken : process.step operations (.reloadThrows task) = some next) :
    (process.reloads task).phase = .waiting ∧ (next.reloads task).phase ≠ .waiting := by
  obtain ⟨waited, rfl⟩ := enabled taken
  exact ⟨waited.1, by simp [setReload]⟩

end MarketsProcess

/-- A call of a collector under way, with the highest multiplier that any scheduler of the
group had when it was started. -/
structure RunningOperation where
  scheduler : ℕ
  ceiling : ℚ
  deriving DecidableEq, Repr

/-- A replica with its running operations. The backoff policy takes one message at a time;
`backoff` is the reload it waits for, and `backoffReloads` are the multipliers of its
reloads that got the mutex. -/
structure BackoffReplica where
  state : MultiplierProcess
  running : List RunningOperation := []
  backoff : Option ℕ := none
  backoffReloads : List ℚ := []

/-- The replicas, and the multipliers in the STATUS, SHARE and backoff messages so far. -/
structure BackoffGroup where
  replicas : ℕ → BackoffReplica
  reported : List ℚ := []
  shared : List ℚ := []
  broadcast : List ℚ := []

inductive BackoffEvent where
  | reports (replica : ℕ)
  | statusElapsed (replica : ℕ) (buffer : List StatusMessage)
  | shareHandled (replica : ℕ) (buffer : List ShareMessage) (membersVote : Bool)
  | backoffDelivered (replica : ℕ) (rateLimitMultiplier : ℚ)
  | backoffAcknowledged (replica : ℕ)
  | operationEnds (replica position : ℕ)
  | operationFails (replica position : ℕ)
  | replicaSteps (replica : ℕ) (event : MultiplierEvent)
  deriving DecidableEq, Repr

/-- The events that take their multipliers from messages. -/
def MultiplierEvent.TakesMessage : MultiplierEvent → Bool
  | .statusElapsed _ | .shareHandled _ _ | .backoffProcessed _ => true
  | _ => false

namespace BackoffGroup

def initial (multiplier : ℕ → ℚ) : BackoffGroup where
  replicas index := { state := .initial (multiplier index) }

def setReplica (group : BackoffGroup) (index : ℕ) (replica : BackoffReplica) : BackoffGroup :=
  { group with replicas := Function.update group.replicas index replica }

/-- The highest multiplier of the internal scheduler and of the schedulers created so far. -/
def highestOf (state : MultiplierProcess) : ℚ :=
  ((List.range state.process.nextScheduler).map state.schedulers).foldl max state.internalScheduler

variable (size operations : ℕ)

/-- The highest multiplier of the group's first `size` replicas and of one of them. -/
def highest (group : BackoffGroup) (index : ℕ) : ℚ :=
  (List.range size).foldl (fun most other => max most (highestOf (group.replicas other).state))
    (highestOf (group.replicas index).state)

/-- What a replica keeps beside its multipliers when one of its events happens. -/
def record (group : BackoffGroup) (index : ℕ) (event : MultiplierEvent) (state : MultiplierProcess) :
    BackoffReplica :=
  let replica := group.replicas index
  match event with
  | .lifecycle (.operationFires scheduler _) =>
    { replica with
      state := state
      running := replica.running ++ [⟨scheduler, group.highest size index⟩] }
  | .lifecycle (.reloadAcquires task) =>
    if replica.backoff = some task then
      { replica with
        state := state
        backoffReloads := replica.backoffReloads ++ (replica.state.reloads task).value.toList }
    else { replica with state := state }
  | .lifecycle (.reloadThrows task) =>
    if replica.backoff = some task then
      { replica with
        state := state
        backoffReloads := replica.backoffReloads ++ (replica.state.reloads task).value.toList }
    else { replica with state := state }
  | _ => { replica with state := state }

def step (group : BackoffGroup) : BackoffEvent → Option BackoffGroup
  | .reports index =>
    some { group with
      reported := group.reported ++ [(group.replicas index).state.internalScheduler] }
  | .statusElapsed index buffer =>
    let replica := group.replicas index
    if ∀ message ∈ buffer, message.data.rateLimitMultiplier ∈ group.reported then
      (replica.state.step operations (.statusElapsed buffer)).map fun state =>
        { group.setReplica index { replica with state := state } with
          shared := group.shared ++ (RateLimitReducer.aggregateState buffer).toList }
    else none
  | .shareHandled index buffer membersVote =>
    let replica := group.replicas index
    if ∀ message ∈ buffer, message.data.rateLimitMultiplier ∈ group.shared then
      (replica.state.step operations (.shareHandled buffer membersVote)).map fun state =>
        group.setReplica index { replica with state := state }
    else none
  | .backoffDelivered index rateLimitMultiplier =>
    let replica := group.replicas index
    if rateLimitMultiplier ∈ group.broadcast ∧ replica.backoff = none then
      (replica.state.step operations (.backoffProcessed rateLimitMultiplier)).map fun state =>
        group.setReplica index { replica with
          state := state
          backoff :=
            if state.process.reloadCalls = replica.state.process.reloadCalls then none
            else some replica.state.process.reloadCalls }
    else none
  | .backoffAcknowledged index =>
    let replica := group.replicas index
    match replica.backoff with
    | none => none
    | some task =>
      if (replica.state.process.reloads task).phase = .returned then
        some (group.setReplica index { replica with backoff := none })
      else none
  | .operationEnds index position =>
    let replica := group.replicas index
    some (group.setReplica index { replica with running := replica.running.eraseIdx position })
  | .operationFails index position =>
    let replica := group.replicas index
    match replica.running[position]? with
    | none => none
    | some operation =>
      -- `getMultiplierBackoff` of the market's scheduler as it is now
      some { group.setReplica index { replica with running := replica.running.eraseIdx position } with
        broadcast := group.broadcast ++ [replica.state.schedulers operation.scheduler + 1] }
  | .replicaSteps index event =>
    if event.TakesMessage then none
    else ((group.replicas index).state.step operations event).map fun state =>
      group.setReplica index (group.record size index event state)

end BackoffGroup

/-- No multiplier in place or pending is above a bound. -/
structure MultiplierProcess.Bounded (bound : ℚ) (state : MultiplierProcess) : Prop where
  internalScheduler : state.internalScheduler ≤ bound
  schedulers : ∀ scheduler, state.schedulers scheduler ≤ bound
  starts : ∀ task, ∀ value ∈ (state.starts task).value, value ≤ bound
  reloads : ∀ task, ∀ value ∈ (state.reloads task).value, value ≤ bound

namespace MultiplierProcess

variable {operations : ℕ} {state next : MultiplierProcess} {event : MultiplierEvent} {bound : ℚ}

theorem Bounded.written (bounded : state.Bounded bound) (event : MultiplierEvent) :
    ∀ value ∈ (state.written event).value, value ≤ bound := by
  unfold MultiplierProcess.written
  split
  · exact bounded.starts _
  · exact bounded.reloads _
  · exact bounded.reloads _
  · simp

theorem Bounded.setInternal (bounded : state.Bounded bound) {pending : PendingMultiplier}
    (below : ∀ value ∈ pending.value, value ≤ bound) : (state.setInternal pending).Bounded bound := by
  unfold MultiplierProcess.setInternal
  cases carried : pending.value with
  | none => exact bounded
  | some value => exact ⟨below value carried, bounded.schedulers, bounded.starts, bounded.reloads⟩

/-- A step keeps a bound that holds for the multiplier its handler decides on. -/
theorem Bounded.step (bounded : state.Bounded bound)
    (taken : state.step operations event = some next)
    (decided : ∀ value ∈ state.decided event, value ≤ bound) : next.Bounded bound := by
  cases effect_step taken with
  | startCalled process quiet effect =>
    subst effect
    refine ⟨bounded.internalScheduler, bounded.schedulers, fun task => ?_, bounded.reloads⟩
    by_cases here : task = state.process.startCalls
    · subst here
      simpa only [startWith, Function.update_self] using decided
    · simpa only [startWith, Function.update_of_ne here] using bounded.starts task
  | reloadCalled process quiet higher effect =>
    subst effect
    refine ⟨bounded.internalScheduler, bounded.schedulers, bounded.starts, fun task => ?_⟩
    by_cases here : task = state.process.reloadCalls
    · subst here
      simpa only [reloadWith, Function.update_self] using decided
    · simpa only [reloadWith, Function.update_of_ne here] using bounded.reloads task
  | internalSet process effect =>
    subst effect
    have kept : Bounded bound { state with process := process } :=
      ⟨bounded.internalScheduler, bounded.schedulers, bounded.starts, bounded.reloads⟩
    exact kept.setInternal (bounded.written event)
  | marketsSet process quiet schedulers sources effect =>
    subst effect
    refine ⟨bounded.internalScheduler, fun scheduler => ?_, bounded.starts, bounded.reloads⟩
    rcases sources scheduler with same | same | ⟨task, carried⟩ | ⟨task, carried⟩
    · exact same.le.trans (bounded.schedulers scheduler)
    · exact same.le.trans bounded.internalScheduler
    · exact bounded.starts task _ carried
    · exact bounded.reloads task _ carried

private theorem reloads_value_step {task : ℕ} (known : task < state.process.reloadCalls)
    (taken : state.step operations event = some next) :
    (next.reloads task).value = (state.reloads task).value := by
  cases effect_step taken with
  | startCalled process quiet effect => rw [effect]; rfl
  | reloadCalled process quiet higher effect =>
    rw [effect, reloadWith]
    simp only [Function.update_of_ne known.ne]
  | internalSet process effect =>
    rw [effect, setInternal]
    split <;> rfl
  | marketsSet process quiet schedulers sources effect => rw [effect]

theorem process_setInternal (pending : PendingMultiplier) :
    (state.setInternal pending).process = state.process := by
  unfold MultiplierProcess.setInternal
  split <;> rfl

theorem process_lifecycle {event : LifecycleEvent}
    (taken : state.step operations (.lifecycle event) = some next) :
    state.process.step operations event = some next.process := by
  simp only [step] at taken
  split at taken
  · cases taken
  · obtain ⟨process, moved, rfl⟩ := Option.map_eq_some_iff.mp taken
    rw [moved]
    cases event with
    | startAcquires task => rw [follow, process_setInternal]
    | reloadAcquires task => rw [follow, process_setInternal]
    | reloadThrows task => rw [follow, process_setInternal]
    | _ => rfl

private theorem process_step (taken : state.step operations event = some next) :
    next.process = state.process ∨
      ∃ lifecycle, state.process.step operations lifecycle = some next.process := by
  have reached : ∀ (lifecycle : LifecycleEvent) (follow : MarketsProcess → MultiplierProcess),
      (∀ process, (follow process).process = process) →
        (state.process.step operations lifecycle).map follow = some next →
          ∃ lifecycle, state.process.step operations lifecycle = some next.process := by
    intro lifecycle follow keeps mapped
    obtain ⟨process, moved, rfl⟩ := Option.map_eq_some_iff.mp mapped
    exact ⟨lifecycle, by rw [moved, keeps]⟩
  cases event with
  | backoffProcessed rateLimitMultiplier =>
    simp only [step] at taken
    split at taken
    · exact .inr (reached _ _ (fun _ => rfl) taken)
    · cases taken
      exact .inl rfl
  | lifecycle event => exact .inr ⟨event, process_lifecycle taken⟩
  | _ =>
    refine .inr (reached _ _ (fun process => ?_) taken)
    simp only
    split <;> rfl

private theorem reloads_phase_step (taken : state.step operations event = some next) :
    state.process.reloadCalls ≤ next.process.reloadCalls ∧
      ∀ task < state.process.reloadCalls, (next.process.reloads task).phase = .waiting →
        (state.process.reloads task).phase = .waiting := by
  rcases process_step taken with same | ⟨lifecycle, moved⟩
  · rw [same]
    exact ⟨le_rfl, fun _ _ waiting => waiting⟩
  · exact MarketsProcess.reloads_step moved

end MultiplierProcess

/-- The backoff reloads of a replica have different multipliers, and the one it waits for
has a greater one. -/
structure BackoffReplica.Once (replica : BackoffReplica) : Prop where
  tracked : replica.state.Tracked
  nodup : replica.backoffReloads.Nodup
  below : ∀ multiplier ∈ replica.backoffReloads, multiplier ≤ replica.state.internalScheduler
  known : ∀ task ∈ replica.backoff, task < replica.state.process.reloadCalls
  waiting : ∀ task ∈ replica.backoff, (replica.state.process.reloads task).phase = .waiting →
    ∀ value ∈ (replica.state.reloads task).value, ∀ multiplier ∈ replica.backoffReloads,
      multiplier < value

namespace BackoffReplica.Once

variable {operations : ℕ} {replica : BackoffReplica} {next : MultiplierProcess}
variable {event : MultiplierEvent} (once : replica.Once)

include once

theorem advance (taken : replica.state.step operations event = some next)
    (inTime : replica.state.InTime event) :
    BackoffReplica.Once { replica with state := next } := by
  have notLower := (once.tracked.notLower_iff taken).mpr inTime
  obtain ⟨calls, phases⟩ := MultiplierProcess.reloads_phase_step taken
  constructor
  · exact MultiplierProcess.tracked_step once.tracked notLower taken
  · exact once.nodup
  · exact fun multiplier member => (once.below multiplier member).trans (notLower next taken)
  · exact fun task waited => (once.known task waited).trans_le calls
  · intro task waited waiting value carried multiplier member
    have known := once.known task waited
    rw [Option.mem_def, MultiplierProcess.reloads_value_step known taken] at carried
    exact once.waiting task waited (phases task known waiting) value carried multiplier member

theorem reloaded {task : ℕ} (taken : replica.state.step operations event = some next)
    (inTime : replica.state.InTime event) (waited : task ∈ replica.backoff)
    (writes : replica.state.written event = replica.state.reloads task)
    (waiting : (replica.state.process.reloads task).phase = .waiting)
    (granted : (next.process.reloads task).phase ≠ .waiting) :
    BackoffReplica.Once { replica with
      state := next
      backoffReloads := replica.backoffReloads ++ (replica.state.reloads task).value.toList } := by
  have advanced := once.advance taken inTime
  have place := MultiplierProcess.internalScheduler_step taken
  rw [writes] at place
  constructor
  · exact advanced.tracked
  · cases carried : (replica.state.reloads task).value with
    | none => simpa using once.nodup
    | some value =>
      have greater := once.waiting task waited waiting value carried
      refine List.nodup_append.mpr ⟨once.nodup, List.nodup_singleton _, ?_⟩
      intro multiplier member other same
      rw [List.mem_singleton.mp same]
      exact (greater multiplier member).ne
  · intro multiplier member
    rcases List.mem_append.mp member with old | new
    · exact advanced.below multiplier old
    · rw [Option.mem_toList.mp new, Option.getD_some] at place
      exact place.ge
  · exact advanced.known
  · intro other also phase
    obtain rfl : task = other := Option.some.inj (waited.symm.trans also)
    exact absurd phase granted

theorem withRunning (running : List RunningOperation) :
    BackoffReplica.Once { replica with running := running } :=
  ⟨once.tracked, once.nodup, once.below, once.known, once.waiting⟩

theorem delivered {rateLimitMultiplier : ℚ}
    (taken : replica.state.step operations (.backoffProcessed rateLimitMultiplier) = some next) :
    BackoffReplica.Once { replica with
      state := next
      backoff :=
        if next.process.reloadCalls = replica.state.process.reloadCalls then none
        else some replica.state.process.reloadCalls } := by
  have advanced := once.advance taken rfl
  simp only [MultiplierProcess.step] at taken
  split at taken
  · next higher =>
    obtain ⟨process, moved, rfl⟩ := Option.map_eq_some_iff.mp taken
    cases moved
    constructor
    · exact advanced.tracked
    · exact advanced.nodup
    · exact advanced.below
    · intro task waited
      simp only [MultiplierProcess.reloadWith, MarketsProcess.callReload] at waited ⊢
      simp only [Nat.succ_ne_self, if_false, Option.mem_def, Option.some.injEq] at waited
      omega
    · intro task waited _ value carried multiplier member
      simp only [MultiplierProcess.reloadWith, MarketsProcess.callReload, Nat.succ_ne_self, if_false,
        Option.mem_def, Option.some.injEq] at waited
      subst waited
      simp only [MultiplierProcess.reloadWith, Function.update_self, Option.mem_def,
        Option.some.injEq] at carried
      subst carried
      exact (once.below multiplier member).trans_lt higher.2
  · cases taken
    exact ⟨once.tracked, once.nodup, once.below, by simp, by simp⟩

end BackoffReplica.Once

namespace BackoffGroup

/-- No operation fails while its market's scheduler is above `m`, and the replicas write
their multipliers in time. -/
def Calm (m : ℚ) (group : BackoffGroup) : BackoffEvent → Prop
  | .operationFails index position =>
    ∀ operation ∈ (group.replicas index).running[position]?,
      (group.replicas index).state.schedulers operation.scheduler ≤ m
  | .replicaSteps index event => (group.replicas index).state.InTime event
  | _ => True

/-- The failures were all of operations started while no scheduler was above `m`. -/
def EarlyFailure (m : ℚ) (group : BackoffGroup) : BackoffEvent → Prop
  | .operationFails index position =>
    ∀ operation ∈ (group.replicas index).running[position]?, operation.ceiling ≤ m
  | _ => True

instance (m : ℚ) (group : BackoffGroup) : DecidablePred (group.Calm m)
  | .operationFails index position =>
    inferInstanceAs (Decidable (∀ operation ∈ (group.replicas index).running[position]?,
      (group.replicas index).state.schedulers operation.scheduler ≤ m))
  | .replicaSteps index event => inferInstanceAs (Decidable ((group.replicas index).state.InTime event))
  | .reports _ | .statusElapsed _ _ | .shareHandled _ _ _ | .backoffDelivered _ _
  | .backoffAcknowledged _ | .operationEnds _ _ => isTrue trivial

instance (m : ℚ) (group : BackoffGroup) : DecidablePred (group.EarlyFailure m)
  | .operationFails index position =>
    inferInstanceAs (Decidable (∀ operation ∈ (group.replicas index).running[position]?,
      operation.ceiling ≤ m))
  | .replicaSteps _ _ | .reports _ | .statusElapsed _ _ | .shareHandled _ _ _ | .backoffDelivered _ _
  | .backoffAcknowledged _ | .operationEnds _ _ => isTrue trivial

/-- No replica has backed off by more than one step, nor twice to the same multiplier. -/
structure OneStep (m : ℚ) (group : BackoffGroup) : Prop where
  bounded : ∀ index, (group.replicas index).state.internalScheduler ≤ m + 1
  once : ∀ index, (group.replicas index).backoffReloads.Nodup

structure Sound (m : ℚ) (group : BackoffGroup) : Prop where
  bounded : ∀ index, (group.replicas index).state.Bounded (m + 1)
  once : ∀ index, (group.replicas index).Once
  reported : ∀ multiplier ∈ group.reported, multiplier ≤ m + 1
  shared : ∀ multiplier ∈ group.shared, multiplier ≤ m + 1
  broadcast : ∀ multiplier ∈ group.broadcast, multiplier ≤ m + 1

variable {size operations : ℕ} {m : ℚ} {group next : BackoffGroup} {event : BackoffEvent}

theorem Sound.setReplica (sound : group.Sound m) (index : ℕ) {replica : BackoffReplica}
    (bounded : replica.state.Bounded (m + 1)) (once : replica.Once) :
    (group.setReplica index replica).Sound m := by
  refine ⟨fun other => ?_, fun other => ?_, sound.reported, sound.shared, sound.broadcast⟩
  · by_cases here : other = index
    · subst here
      simpa only [BackoffGroup.setReplica, Function.update_self] using bounded
    · simpa only [BackoffGroup.setReplica, Function.update_of_ne here] using sound.bounded other
  · by_cases here : other = index
    · subst here
      simpa only [BackoffGroup.setReplica, Function.update_self] using once
    · simpa only [BackoffGroup.setReplica, Function.update_of_ne here] using sound.once other

private theorem record_state (index : ℕ) (event : MultiplierEvent) (state : MultiplierProcess) :
    (group.record size index event state).state = state := by
  unfold record
  simp only
  repeat' split
  all_goals rfl

private theorem record_once {index : ℕ} {event : MultiplierEvent} {state : MultiplierProcess}
    (once : (group.replicas index).Once) (inTime : (group.replicas index).state.InTime event)
    (taken : (group.replicas index).state.step operations event = some state) :
    (group.record size index event state).Once := by
  have advanced := once.advance taken inTime
  unfold record
  simp only
  split
  · exact ⟨advanced.tracked, advanced.nodup, advanced.below, advanced.known, advanced.waiting⟩
  · next task =>
    split
    · next waited =>
      obtain ⟨waiting, granted⟩ :=
        MarketsProcess.waited_of_acquires (MultiplierProcess.process_lifecycle taken)
      exact once.reloaded taken inTime waited rfl waiting granted
    · exact advanced
  · next task =>
    split
    · next waited =>
      obtain ⟨waiting, granted⟩ :=
        MarketsProcess.waited_of_throws (MultiplierProcess.process_lifecycle taken)
      exact once.reloaded taken inTime waited rfl waiting granted
    · exact advanced
  · exact advanced

theorem mathMax_le {values : List ℚ} {bound : ℚ} (below : ∀ value ∈ values, value ≤ bound) :
    ∀ most ∈ mathMax values, most ≤ bound := fun most found =>
  below most (List.max?_mem found)

/-- What is aggregated from messages that were reported is no higher than any of them. -/
private theorem Sound.aggregateState_le (sound : group.Sound m) {buffer : List StatusMessage}
    (heard : ∀ message ∈ buffer, message.data.rateLimitMultiplier ∈ group.reported) :
    ∀ value ∈ RateLimitReducer.aggregateState buffer, value ≤ m + 1 := by
  refine mathMax_le fun value member => ?_
  obtain ⟨message, present, rfl⟩ := List.mem_map.mp member
  exact sound.reported _ (heard message present)

private theorem Sound.aggregateShareState_le (sound : group.Sound m) {buffer : List ShareMessage}
    (heard : ∀ message ∈ buffer, message.data.rateLimitMultiplier ∈ group.shared) :
    ∀ value ∈ RateLimitReducer.aggregateShareState buffer, value ≤ m + 1 := by
  refine mathMax_le fun value member => ?_
  obtain ⟨message, present, rfl⟩ := List.mem_map.mp member
  exact sound.shared _ (heard message present)

theorem multiplier_le {bound : ℚ} {aggregated : Option ℚ} (below : ∀ most ∈ aggregated, most ≤ bound) :
    ∀ value ∈ (RateLimitReducer.normalizeState aggregated).rateLimitMultiplier, value ≤ bound := by
  intro value carried
  simp only [RateLimitReducer.normalizeState, Option.mem_def, Option.filter_eq_some_iff] at carried
  exact below value carried.1

theorem sound_step (sound : group.Sound m) (calm : group.Calm m event)
    (taken : group.step size operations event = some next) : next.Sound m := by
  cases event with
  | reports index =>
    cases taken
    refine ⟨sound.bounded, sound.once, fun multiplier member => ?_, sound.shared, sound.broadcast⟩
    rcases List.mem_append.mp member with old | new
    · exact sound.reported multiplier old
    · rw [List.mem_singleton.mp new]
      exact (sound.bounded index).internalScheduler
  | statusElapsed index buffer =>
    simp only [step] at taken
    split at taken
    · next heard =>
      obtain ⟨state, moved, rfl⟩ := Option.map_eq_some_iff.mp taken
      have most := sound.aggregateState_le heard
      have bounded := (sound.bounded index).step moved
      have once := (sound.once index).advance moved
      have replaced := sound.setReplica index (bounded (multiplier_le most)) (once rfl)
      refine ⟨replaced.bounded, replaced.once, sound.reported, fun multiplier member => ?_,
        sound.broadcast⟩
      rcases List.mem_append.mp member with old | new
      · exact sound.shared multiplier old
      · exact most multiplier (Option.mem_toList.mp new)
    · cases taken
  | shareHandled index buffer membersVote =>
    simp only [step] at taken
    split at taken
    · next heard =>
      obtain ⟨state, moved, rfl⟩ := Option.map_eq_some_iff.mp taken
      have sanitized : ∀ value ∈ RateLimitReducer.sanitizeShareState
          (group.replicas index).state.internalScheduler
          (RateLimitReducer.aggregateShareState buffer), value ≤ m + 1 := fun value kept =>
        sound.aggregateShareState_le heard value (Option.filter_eq_some_iff.mp kept).1
      have bounded := (sound.bounded index).step moved
      have once := (sound.once index).advance moved
      exact sound.setReplica index (bounded (multiplier_le sanitized)) (once rfl)
    · cases taken
  | backoffDelivered index rateLimitMultiplier =>
    simp only [step] at taken
    split at taken
    · next ready =>
      obtain ⟨state, moved, rfl⟩ := Option.map_eq_some_iff.mp taken
      have bounded := (sound.bounded index).step moved
      have once := (sound.once index).delivered moved
      refine sound.setReplica index (bounded ?_) once
      intro value decided
      simp only [MultiplierProcess.decided] at decided
      split at decided
      · cases decided
        exact sound.broadcast _ ready.1
      · cases decided
    · cases taken
  | backoffAcknowledged index =>
    simp only [step] at taken
    split at taken
    · cases taken
    · obtain ⟨_, rfl⟩ := enabled taken
      have once := sound.once index
      exact sound.setReplica index (sound.bounded index)
        ⟨once.tracked, once.nodup, once.below, by simp, by simp⟩
  | operationEnds index position =>
    cases taken
    exact sound.setReplica index (sound.bounded index) ((sound.once index).withRunning _)
  | operationFails index position =>
    simp only [step] at taken
    split at taken
    · cases taken
    · next operation running =>
      cases taken
      have replaced : Sound m (group.setReplica index { group.replicas index with
          running := (group.replicas index).running.eraseIdx position }) :=
        sound.setReplica index (sound.bounded index) ((sound.once index).withRunning _)
      refine ⟨replaced.bounded, replaced.once, sound.reported, sound.shared,
        fun multiplier member => ?_⟩
      rcases List.mem_append.mp member with old | new
      · exact sound.broadcast multiplier old
      · rw [List.mem_singleton.mp new]
        have low := calm operation running
        linarith
  | replicaSteps index event =>
    simp only [step] at taken
    split at taken
    · cases taken
    · next own =>
      obtain ⟨state, moved, rfl⟩ := Option.map_eq_some_iff.mp taken
      have bounded := (sound.bounded index).step moved
      have undecided : (group.replicas index).state.decided event = none := by
        cases event with
        | statusElapsed buffer => exact absurd rfl own
        | shareHandled buffer membersVote => exact absurd rfl own
        | backoffProcessed rateLimitMultiplier => exact absurd rfl own
        | _ => rfl
      refine sound.setReplica index ?_ ?_
      · rw [record_state]
        exact bounded (by simp [undecided])
      · exact record_once (sound.once index) calm moved

theorem sound_initial {multiplier : ℕ → ℚ} (low : ∀ index, multiplier index ≤ m) :
    (initial multiplier).Sound m where
  bounded index := by
    have below : multiplier index ≤ m + 1 := (low index).trans (by linarith)
    exact ⟨below, fun _ => below, by simp [initial, MultiplierProcess.initial],
      by simp [initial, MultiplierProcess.initial]⟩
  once index := ⟨MultiplierProcess.tracked_initial _, List.nodup_nil, by simp [initial],
    by simp [initial], by simp [initial]⟩
  reported := by simp [initial]
  shared := by simp [initial]
  broadcast := by simp [initial]

/-- In every run of a group whose multipliers were at most `m`, in which no operation fails
while its market's scheduler is above `m` and no replica writes an overtaken multiplier, no
replica gets above `m + 1`, and none reloads twice for one multiplier. -/
theorem backoff_oneStep {multiplier : ℕ → ℚ} (low : ∀ index, multiplier index ≤ m)
    {events : List BackoffEvent} {last : BackoffGroup}
    (ran : Run (step size operations) (initial multiplier) events last)
    (calm : Throughout (step size operations) (Calm m) (initial multiplier) events) :
    last.OneStep m := by
  have sound : last.Sound m := ran.invariant_throughout sound_step calm (sound_initial low)
  exact ⟨fun index => (sound.bounded index).internalScheduler, fun index => (sound.once index).nodup⟩

end BackoffGroup

/-- A replica starts its only market, and one operation of it is under way. -/
def oneOperation (replica : ℕ) : List BackoffEvent :=
  .reports replica :: .replicaSteps replica (.lifecycle .statusArrives) ::
    .statusElapsed replica [⟨⟨"q", "kraken"⟩, ⟨1, 1000⟩⟩] ::
    ([.startAcquires 0, .marketsLoaded 0 [7], .contextLoaded 0 0, .schedulerStarted 0 0,
      .startReturns 0, .cronTicks 0 0, .clusterFires 0 1, .batchFires 0 2 false,
      .operationFires 0 3] : List LifecycleEvent).map fun event => .replicaSteps replica (.lifecycle event)

/-- The first replica fails and backs off. -/
def firstBackoff : List BackoffEvent :=
  oneOperation 0 ++ oneOperation 1 ++
    [.operationFails 0 0, .backoffDelivered 0 2, .replicaSteps 0 (.lifecycle (.reloadAcquires 0))]

theorem firstBackoff_runs :
    (execute (BackoffGroup.step 2 1) (.initial fun _ => 1) firstBackoff).isSome := by
  decide +kernel

theorem backoff_oneStep_firstBackoff :
    ((execute (BackoffGroup.step 2 1) (.initial fun _ => 1) firstBackoff).get
      firstBackoff_runs).OneStep 1 :=
  BackoffGroup.backoff_oneStep (fun _ => le_rfl)
    (run_iff_execute.mpr (Option.some_get firstBackoff_runs).symm) (by decide +kernel)

/-- The second replica adopts the multiplier from a SHARE, without a sleep, while its
operation is under way; the operation then fails. -/
def failureAfterShare : List BackoffEvent :=
  firstBackoff ++ [.reports 0, .replicaSteps 0 (.lifecycle .statusArrives),
    .statusElapsed 0 [⟨⟨"q", "kraken"⟩, ⟨2, 2000⟩⟩],
    .replicaSteps 1 (.lifecycle .shareArrives), .replicaSteps 1 (.lifecycle .shareElapsed),
    .shareHandled 1
      [⟨⟨"q", "kraken"⟩, ["q", "r"], 2, [⟨"q", "kraken", 2000⟩, ⟨"r", "kraken", 1000⟩]⟩] false,
    .replicaSteps 1 (.lifecycle (.reloadAcquires 0)), .replicaSteps 1 (.lifecycle (.reloadStarts 0 0)),
    .replicaSteps 1 (.lifecycle (.reloadReturns 0)), .operationFails 1 0, .backoffDelivered 1 3,
    .replicaSteps 1 (.lifecycle (.reloadAcquires 1))]

theorem failureAfterShare_runs :
    (execute (BackoffGroup.step 2 1) (.initial fun _ => 1) failureAfterShare).isSome := by
  decide +kernel

theorem failureAfterShare_twoSteps : ¬ ∀ (size operations : ℕ) (m : ℚ) (multiplier : ℕ → ℚ)
    (events : List BackoffEvent) (last : BackoffGroup), (∀ index, multiplier index ≤ m) →
    Run (BackoffGroup.step size operations) (.initial multiplier) events last →
      Throughout (BackoffGroup.step size operations) (BackoffGroup.EarlyFailure m)
        (.initial multiplier) events → last.OneStep m := by
  intro always
  have oneStep := always 2 1 1 (fun _ => 1) failureAfterShare _ (fun _ => le_rfl)
    (run_iff_execute.mpr (Option.some_get failureAfterShare_runs).symm) (by decide +kernel)
  have raised : ¬ (((execute (BackoffGroup.step 2 1) (.initial fun _ => 1) failureAfterShare).get
      failureAfterShare_runs).replicas 1).state.internalScheduler ≤ 1 + 1 := by decide +kernel
  exact raised (oneStep.bounded 1)

end PriceFeed.Collectors
