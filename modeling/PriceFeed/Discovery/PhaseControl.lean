import PriceFeed.Discovery.Network
import PriceFeed.Library.QueuedLock

/-! `interPhaseMutex` of one `ReplicaDiscoveryPolicy`: who takes it, and who frees it. A
greeting takes it and leaves it to the STATUS handler that ends its phase; SHARE and
CLOSE handlers take and free it themselves. No mutex timeout fires. -/

namespace PriceFeed.Discovery

open PriceFeed.Library

/-- What acquires the mutex: a phase from its HELLO to its SHARE, or a locked handler body. -/
inductive Phase where
  | greeting (number : ℕ)
  | share (number : ℕ)
  | close (number : ℕ)
  deriving DecidableEq, Repr

/-- A STATUS message is known by the greeting it answers, and a STATUS handler that has
not come to the end of `broadcastShare` by the messages of its buffer. -/
structure PhaseControl where
  interPhaseMutex : GuardedTasks Phase := {}
  greetings : ℕ := 0
  statusMessageBuffer : MessageBuffer ℕ := {}
  statusHandlers : List (List ℕ) := []
  shareArmed : Bool := false
  shares : ℕ := 0
  closeArmed : Bool := false
  closes : ℕ := 0
  deriving DecidableEq, Repr

inductive PhaseEvent where
  | broadcastHello
  | statusArrives (greeting : ℕ)
  | statusElapsed
  | broadcastShare (handler : ℕ)
  | statusHandlerFails (handler : ℕ)
  | shareArrives
  | shareElapsed
  | shareHandled (number : ℕ)
  | closeArrives
  | closeElapsed
  | closeHandled (number : ℕ)
  deriving DecidableEq, Repr

namespace PhaseControl

/-- The phases that end with the SHARE of a STATUS buffer. -/
def endedBy (batch : List ℕ) : Phase → Bool
  | .greeting number => number ∈ batch
  | _ => false

def step (control : PhaseControl) : PhaseEvent → Option PhaseControl
  -- the first greeting, a resync or a cluster reload
  | .broadcastHello => some { control with
      interPhaseMutex := control.interPhaseMutex.enter (.greeting control.greetings)
      greetings := control.greetings + 1 }
  -- any answer, however late, to a greeting that got the mutex
  | .statusArrives greeting =>
    if greeting < control.greetings ∧ .greeting greeting ∉ control.interPhaseMutex.lock.queue then
      some { control with
        statusMessageBuffer := control.statusMessageBuffer.addMessage greeting }
    else none
  | .statusElapsed =>
    if control.statusMessageBuffer.armed then
      some { control with
        statusHandlers := control.statusHandlers ++ [control.statusMessageBuffer.messages]
        statusMessageBuffer := control.statusMessageBuffer.elapsed.cleanBuffer }
    else none
  | .broadcastShare handler =>
    match control.statusHandlers[handler]? with
    | none => none
    | some batch => some { control with
        interPhaseMutex := control.interPhaseMutex.leave (endedBy batch)
        statusHandlers := control.statusHandlers.eraseIdx handler }
  -- the start of the markets or the broadcast throws before the release
  | .statusHandlerFails handler =>
    some { control with statusHandlers := control.statusHandlers.eraseIdx handler }
  | .shareArrives => some { control with shareArmed := true }
  | .shareElapsed =>
    if control.shareArmed then
      some { control with
        shareArmed := false
        interPhaseMutex := control.interPhaseMutex.enter (.share control.shares)
        shares := control.shares + 1 }
    else none
  | .shareHandled number =>
    if .share number ∈ control.interPhaseMutex.inside then
      some { control with
        interPhaseMutex := control.interPhaseMutex.leave fun phase => phase = .share number }
    else none
  | .closeArrives => some { control with closeArmed := true }
  | .closeElapsed =>
    if control.closeArmed then
      some { control with
        closeArmed := false
        interPhaseMutex := control.interPhaseMutex.enter (.close control.closes)
        closes := control.closes + 1 }
    else none
  | .closeHandled number =>
    if .close number ∈ control.interPhaseMutex.inside then
      some { control with
        interPhaseMutex := control.interPhaseMutex.leave fun phase => phase = .close number }
    else none

/-- The SHARE of a STATUS buffer is sent while the mutex is free, or held by a greeting
that a message of the buffer answers. -/
def SharesOwnPhase (control : PhaseControl) : PhaseEvent → Prop
  | .broadcastShare handler =>
    ∀ batch ∈ control.statusHandlers[handler]?, control.interPhaseMutex.OwnRelease (endedBy batch)
  | _ => True

variable {control next : PhaseControl} {event : PhaseEvent}

/-- A body that is inside holds the mutex, so its release is its own. -/
theorem ownRelease_of_mem {phase : Phase} (settled : control.interPhaseMutex.Settled)
    (member : phase ∈ control.interPhaseMutex.inside) :
    control.interPhaseMutex.OwnRelease fun other => other = phase := by
  intro holder held
  rw [settled.inside, Option.mem_toList] at member
  have same : holder = phase := Option.some.inj (held.symm.trans member)
  exact decide_eq_true same

private theorem settled_step (settled : control.interPhaseMutex.Settled)
    (own : control.SharesOwnPhase event) (taken : control.step event = some next) :
    next.interPhaseMutex.Settled := by
  cases event with
  | broadcastHello =>
    cases taken
    exact settled.enter _
  | broadcastShare handler =>
    simp only [step] at taken
    split at taken
    · cases taken
    · next batch found =>
      cases taken
      exact settled.leave (own batch found)
  | statusHandlerFails handler =>
    cases taken
    exact settled
  | shareArrives =>
    cases taken
    exact settled
  | closeArrives =>
    cases taken
    exact settled
  | statusArrives greeting =>
    obtain ⟨_, rfl⟩ := enabled taken
    exact settled
  | statusElapsed =>
    obtain ⟨_, rfl⟩ := enabled taken
    exact settled
  | shareElapsed =>
    obtain ⟨_, rfl⟩ := enabled taken
    exact settled.enter _
  | closeElapsed =>
    obtain ⟨_, rfl⟩ := enabled taken
    exact settled.enter _
  | shareHandled number =>
    obtain ⟨member, rfl⟩ := enabled taken
    exact settled.leave (ownRelease_of_mem settled member)
  | closeHandled number =>
    obtain ⟨member, rfl⟩ := enabled taken
    exact settled.leave (ownRelease_of_mem settled member)

theorem settled_run (reached : Run step {} events state) (own : Throughout step SharesOwnPhase {} events) :
    state.interPhaseMutex.Settled := by
  have preserved : ∀ {control : PhaseControl} {event next}, control.interPhaseMutex.Settled →
      control.SharesOwnPhase event → control.step event = some next → next.interPhaseMutex.Settled :=
    settled_step
  apply reached.invariant_throughout preserved own
  exact GuardedTasks.settled_empty

/-- A SHARE that frees somebody else's mutex, followed by a greeting. -/
private theorem not_exclusive_after_stray (settled : control.interPhaseMutex.Settled)
    (stray : ¬ control.SharesOwnPhase event) (taken : control.step event = some next) :
    ∃ last, Run step next [.broadcastHello] last ∧ ¬ last.interPhaseMutex.Exclusive := by
  cases event with
  | broadcastShare handler =>
    simp only [step] at taken
    split at taken
    · cases taken
    · next batch found =>
      cases taken
      simp only [SharesOwnPhase, found, Option.mem_def, Option.some.injEq, forall_eq'] at stray
      exact ⟨_, .cons rfl (.nil _), settled.not_exclusive_of_stray _ stray⟩
  | _ => exact absurd trivial stray

/-- The STATUS handlers of a run free the mutex only for their own phases exactly when no
state of the run has two bodies inside, nor any later one until another STATUS handler ends. -/
theorem phases_exclusive_iff {events : List PhaseEvent} {last : PhaseControl}
    (ran : Run step {} events last) :
    Throughout step SharesOwnPhase {} events ↔
      ∀ before after more state, events = before ++ after →
        (∀ event ∈ more, ∀ handler, event ≠ .broadcastShare handler) →
          Run step {} (before ++ more) state → state.interPhaseMutex.Exclusive := by
  constructor
  · rintro own before after more state rfl quiet reached
    obtain ⟨middle, earlier, later⟩ := run_append_iff.mp reached
    have throughout : Throughout step SharesOwnPhase middle more := by
      refine throughout_of_forall fun state event member => ?_
      cases event with
      | broadcastShare handler => exact absurd rfl (quiet _ member handler)
      | _ => trivial
    have settled : state.interPhaseMutex.Settled := settled_run reached
      (earlier.throughout_append_iff.mpr ⟨(earlier.throughout_append_iff.mp own).1, throughout⟩)
    exact settled.exclusive
  · intro exclusive
    by_contra failed
    obtain ⟨before, event, after, middle, next, rfl, earlier, own, stray, taken⟩ :=
      ran.first_failure failed
    have settled : middle.interPhaseMutex.Settled := settled_run earlier own
    obtain ⟨state, greeted, clash⟩ := not_exclusive_after_stray settled stray taken
    refine clash (exclusive (before ++ [event]) after [.broadcastHello] state (by simp) (by simp) ?_)
    exact run_append_iff.mpr ⟨next, run_append_iff.mpr ⟨middle, earlier, .cons taken (.nil _)⟩, greeted⟩

end PhaseControl

/-- The SHARE of the first phase is handled while a late STATUS comes in; its SHARE frees
the mutex, and a CLOSE handler takes it. -/
def lateAnswer : List PhaseEvent :=
  [.broadcastHello, .statusArrives 0, .statusElapsed, .broadcastShare 0, .shareArrives,
    .shareElapsed, .statusArrives 0, .statusElapsed, .broadcastShare 0, .closeArrives, .closeElapsed]

theorem lateAnswer_runs : (execute PhaseControl.step {} lateAnswer).isSome := by decide

def afterLateAnswer : PhaseControl := (execute PhaseControl.step {} lateAnswer).get lateAnswer_runs

theorem run_lateAnswer : Run PhaseControl.step {} lateAnswer afterLateAnswer :=
  run_iff_execute.mpr (Option.some_get lateAnswer_runs).symm

theorem lateAnswer_overlaps : ¬ ∀ (events : List PhaseEvent) (control : PhaseControl),
    Run PhaseControl.step {} events control → control.interPhaseMutex.Exclusive := by
  intro always
  have exclusive := always lateAnswer afterLateAnswer run_lateAnswer
  have both : afterLateAnswer.interPhaseMutex.inside.length = 2 := by decide
  rw [GuardedTasks.Exclusive, both] at exclusive
  omega

theorem phases_exclusive_iff_lateAnswer :
    Throughout PhaseControl.step PhaseControl.SharesOwnPhase {} lateAnswer ↔
      ∀ before after more state, lateAnswer = before ++ after →
        (∀ event ∈ more, ∀ handler, event ≠ .broadcastShare handler) →
          Run PhaseControl.step {} (before ++ more) state → state.interPhaseMutex.Exclusive :=
  PhaseControl.phases_exclusive_iff run_lateAnswer

end PriceFeed.Discovery
