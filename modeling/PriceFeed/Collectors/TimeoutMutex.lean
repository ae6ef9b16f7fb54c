import Mathlib.Data.List.Basic
import PriceFeed.Library.QueuedLock
import PriceFeed.Library.Runs

/-! `TimeoutMutex`: a lock of the package `async-mutex` with a timer, and what the functions
that its acquisitions return do to whoever holds it. -/

namespace PriceFeed.Collectors

open PriceFeed.Library

/-- A running timer, with the acquisition that held the lock when it was set. -/
structure LockTimer where
  guards : Option ℕ
  deriving DecidableEq, Repr

/-- Acquisitions are numbered in the order of their calls. `currentRelease` is the releaser of
one of them. `granted` got the lock from the mutex, but its `acquire` has not gone on yet;
`returned` came back with a function, and those `inside` have neither called it nor timed out. -/
structure TimeoutMutex where
  mutex : QueuedLock ℕ := {}
  currentRelease : Option ℕ := none
  timeoutHandle : Option LockTimer := none
  granted : Option ℕ := none
  returned : List ℕ := []
  inside : List ℕ := []
  acquisitions : ℕ := 0
  deriving DecidableEq, Repr

inductive MutexEvent where
  | acquires
  | resumes
  | releases (acquisition : ℕ)
  | addsTimeout
  | timesOut
  deriving DecidableEq, Repr

namespace TimeoutMutex

variable (timeoutMutex : TimeoutMutex)

/-- The call of `super.acquire`, which grants a free lock at once. -/
def acquire : TimeoutMutex :=
  { timeoutMutex with
    mutex := timeoutMutex.mutex.acquire timeoutMutex.acquisitions
    granted := if timeoutMutex.mutex.holder.isNone then some timeoutMutex.acquisitions else timeoutMutex.granted
    acquisitions := timeoutMutex.acquisitions + 1 }

/-- `setTimeoutHandler`: the timer that runs is cleared. -/
def setTimeoutHandler : TimeoutMutex :=
  { timeoutMutex with timeoutHandle := some ⟨timeoutMutex.mutex.holder⟩ }

/-- The rest of `acquire`, up to the function that it returns. -/
def resume (acquisition : ℕ) : TimeoutMutex :=
  let mine := { timeoutMutex with currentRelease := some acquisition, granted := none }
  { mine.setTimeoutHandler with
    returned := timeoutMutex.returned ++ [acquisition]
    inside := timeoutMutex.inside ++ [acquisition] }

/-- `this.currentRelease()`: a releaser frees the lock once, for the next in the queue. -/
def callCurrentRelease : TimeoutMutex :=
  if timeoutMutex.mutex.holder.isSome ∧ timeoutMutex.mutex.holder = timeoutMutex.currentRelease then
    { timeoutMutex with
      mutex := timeoutMutex.mutex.release
      granted := timeoutMutex.mutex.release.holder }
  else timeoutMutex

/-- The function that an acquisition returned. -/
def release (acquisition : ℕ) : TimeoutMutex :=
  { ({ timeoutMutex with timeoutHandle := none } : TimeoutMutex).callCurrentRelease with
    inside := timeoutMutex.inside.filter fun other => other ≠ acquisition }

/-- The callback of the timer. Whoever loses the lock has timed out. -/
def timeOut : TimeoutMutex :=
  let fired : TimeoutMutex := { timeoutMutex with timeoutHandle := none }
  if fired.mutex.holder.isNone then fired
  else
    { fired.callCurrentRelease with
      inside := timeoutMutex.inside.filter fun other => timeoutMutex.currentRelease ≠ some other }

/-- Timers fire only when no `acquire` is about to go on. -/
def step (timeoutMutex : TimeoutMutex) : MutexEvent → Option TimeoutMutex
  | .acquires => some timeoutMutex.acquire
  | .resumes => timeoutMutex.granted.map timeoutMutex.resume
  | .releases acquisition =>
    if acquisition ∈ timeoutMutex.returned then some (timeoutMutex.release acquisition) else none
  | .addsTimeout => some timeoutMutex.setTimeoutHandler
  | .timesOut =>
    if timeoutMutex.timeoutHandle.isSome ∧ timeoutMutex.granted = none then some timeoutMutex.timeOut else none

/-- Nobody but the caller loses the lock or the timer. -/
structure SparesOthers (acquisition : ℕ) (after : TimeoutMutex) : Prop where
  lock : timeoutMutex.mutex.holder ≠ some acquisition → after.mutex.holder = timeoutMutex.mutex.holder
  timer : ∀ timer, timeoutMutex.timeoutHandle = some timer → timer.guards ≠ some acquisition →
    after.timeoutHandle = some timer

/-- A function that an acquisition returned ends its own section and timer at most. -/
def OwnEnd (timeoutMutex : TimeoutMutex) : MutexEvent → Prop
  | .releases acquisition => timeoutMutex.SparesOthers acquisition (timeoutMutex.release acquisition)
  | _ => True

/-- At most one user is inside, of those that have not timed out. -/
def Exclusive : Prop := timeoutMutex.inside.length ≤ 1

/-- The function is called by the acquisition that holds the lock, or while nobody is inside
and no timer runs. -/
def Timely (timeoutMutex : TimeoutMutex) : MutexEvent → Prop
  | .releases acquisition => timeoutMutex.mutex.holder = some acquisition ∨
      timeoutMutex.inside = [] ∧ timeoutMutex.timeoutHandle = none
  | _ => True

instance (event : MutexEvent) : Decidable (timeoutMutex.Timely event) := by
  cases event <;> unfold Timely <;> infer_instance

/-- The lock is on its way to its holder. -/
structure Granting (holder : ℕ) : Prop where
  granted : timeoutMutex.granted = some holder
  inside : timeoutMutex.inside = []
  stale : ∀ releaser ∈ timeoutMutex.currentRelease, releaser < holder

/-- The holder is inside, under its own timer. -/
structure Holding (holder : ℕ) : Prop where
  granted : timeoutMutex.granted = none
  inside : timeoutMutex.inside = [holder]
  currentRelease : timeoutMutex.currentRelease = some holder
  timeoutHandle : timeoutMutex.timeoutHandle = some ⟨some holder⟩

/-- What holds as long as the functions are called in time. -/
structure Sound : Prop where
  free : timeoutMutex.mutex.holder = none →
    timeoutMutex.mutex.queue = [] ∧ timeoutMutex.granted = none ∧ timeoutMutex.inside = []
  held : ∀ holder, timeoutMutex.mutex.holder = some holder →
    timeoutMutex.Granting holder ∨ timeoutMutex.Holding holder
  queued : ∀ holder, timeoutMutex.mutex.holder = some holder →
    (holder :: timeoutMutex.mutex.queue).Pairwise (· < ·)
  known : ∀ holder, timeoutMutex.mutex.holder = some holder →
    ∀ acquisition ∈ holder :: timeoutMutex.mutex.queue, acquisition < timeoutMutex.acquisitions
  returned : ∀ acquisition ∈ timeoutMutex.returned, ∃ releaser,
    timeoutMutex.currentRelease = some releaser ∧ acquisition ≤ releaser
  released : ∀ releaser ∈ timeoutMutex.currentRelease, releaser < timeoutMutex.acquisitions
  timer : ∀ timer, timeoutMutex.timeoutHandle = some timer →
    timer.guards = none ∨ timer.guards = timeoutMutex.mutex.holder

variable {timeoutMutex : TimeoutMutex} {holder acquisition : ℕ}

theorem sound_initial : Sound {} where
  free := fun _ => ⟨rfl, rfl, rfl⟩
  held := fun _ impossible => nomatch impossible
  queued := fun _ impossible => nomatch impossible
  known := fun _ impossible => nomatch impossible
  returned := fun _ impossible => nomatch impossible
  released := fun _ impossible => nomatch impossible
  timer := fun _ impossible => nomatch impossible

theorem Sound.exclusive (sound : timeoutMutex.Sound) : timeoutMutex.Exclusive := by
  rw [Exclusive]
  cases held : timeoutMutex.mutex.holder with
  | none => rw [(sound.free held).2.2]; exact Nat.zero_le _
  | some holder =>
    rcases sound.held holder held with granting | holding
    · rw [granting.inside]; exact Nat.zero_le _
    · rw [holding.inside]; exact Nat.le_refl _

private theorem Sound.spent_of_empty (sound : timeoutMutex.Sound) (empty : timeoutMutex.inside = []) :
    ¬ (timeoutMutex.mutex.holder.isSome ∧ timeoutMutex.mutex.holder = timeoutMutex.currentRelease) := by
  rintro ⟨some, same⟩
  obtain ⟨holder, held⟩ := Option.isSome_iff_exists.mp some
  rcases sound.held holder held with granting | holding
  · exact Nat.lt_irrefl _ (granting.stale holder (same.symm.trans held))
  · rw [holding.inside] at empty
    cases empty

/-- The holder's section has ended, and the lock went to the next in the queue. -/
def handOn (timeoutMutex : TimeoutMutex) : TimeoutMutex :=
  { timeoutMutex with
    mutex := ⟨timeoutMutex.mutex.queue.head?, timeoutMutex.mutex.queue.tail⟩
    granted := timeoutMutex.mutex.queue.head?
    timeoutHandle := none
    inside := [] }

theorem Sound.handOn (sound : timeoutMutex.Sound) (held : timeoutMutex.mutex.holder = some holder)
    (holding : timeoutMutex.Holding holder) : timeoutMutex.handOn.Sound := by
  obtain ⟨first, later⟩ := List.pairwise_cons.mp (sound.queued holder held)
  obtain ⟨-, known⟩ := List.forall_mem_cons.mp (sound.known holder held)
  have split : ∀ next, timeoutMutex.mutex.queue.head? = some next →
      next :: timeoutMutex.mutex.queue.tail = timeoutMutex.mutex.queue := by
    intro next head
    exact List.cons_head?_tail head
  constructor
  · intro none
    have empty : timeoutMutex.mutex.queue = [] := List.head?_eq_none_iff.mp none
    exact ⟨congrArg List.tail empty, none, rfl⟩
  · intro next head
    refine .inl ⟨head, rfl, fun releaser current => ?_⟩
    obtain rfl : holder = releaser := Option.some.inj (holding.currentRelease.symm.trans current)
    exact first next (split next head ▸ List.mem_cons_self)
  · intro next head
    exact (split next head).symm ▸ later
  · intro next head
    exact (split next head).symm ▸ known
  · exact sound.returned
  · exact sound.released
  · exact fun _ impossible => nomatch impossible

/-- Whoever calls it, a returned function frees the holder that is inside. -/
theorem release_holding (held : timeoutMutex.mutex.holder = some holder) (holding : timeoutMutex.Holding holder) :
    timeoutMutex.release acquisition =
      { timeoutMutex.handOn with inside := [holder].filter fun other => other ≠ acquisition } := by
  simp [release, callCurrentRelease, QueuedLock.release, TimeoutMutex.handOn, held, holding.currentRelease,
    holding.inside]

private theorem timeOut_holding (held : timeoutMutex.mutex.holder = some holder) (holding : timeoutMutex.Holding holder) :
    timeoutMutex.timeOut = timeoutMutex.handOn := by
  simp [timeOut, callCurrentRelease, QueuedLock.release, TimeoutMutex.handOn, held, holding.currentRelease,
    holding.inside]

theorem Sound.release_of_empty (sound : timeoutMutex.Sound) (empty : timeoutMutex.inside = []) :
    timeoutMutex.release acquisition = { timeoutMutex with timeoutHandle := none } := by
  rw [TimeoutMutex.release, callCurrentRelease, if_neg (sound.spent_of_empty empty), empty]
  rfl

theorem Sound.holding_of_returned (sound : timeoutMutex.Sound) (held : timeoutMutex.mutex.holder = some acquisition)
    (returned : acquisition ∈ timeoutMutex.returned) : timeoutMutex.Holding acquisition := by
  rcases sound.held acquisition held with granting | holding
  · obtain ⟨releaser, current, later⟩ := sound.returned acquisition returned
    have earlier := granting.stale releaser current
    omega
  · exact holding

theorem Sound.release (sound : timeoutMutex.Sound) (returned : acquisition ∈ timeoutMutex.returned)
    (timely : timeoutMutex.Timely (.releases acquisition)) : (timeoutMutex.release acquisition).Sound := by
  rcases timely with held | ⟨empty, none⟩
  · have holding := sound.holding_of_returned held returned
    have ended : timeoutMutex.release acquisition = timeoutMutex.handOn := by
      rw [release_holding held holding]
      simp [TimeoutMutex.handOn]
    rw [ended]
    exact sound.handOn held holding
  · have same : timeoutMutex.release acquisition = timeoutMutex := by
      rw [sound.release_of_empty empty, ← none]
    rw [same]
    exact sound

theorem Sound.acquire (sound : timeoutMutex.Sound) : timeoutMutex.acquire.Sound := by
  have later : ∀ {earlier : ℕ}, earlier < timeoutMutex.acquisitions → earlier < timeoutMutex.acquisitions + 1 :=
    fun below => Nat.lt_succ_of_lt below
  cases held : timeoutMutex.mutex.holder with
  | none =>
    obtain ⟨empty, idle, alone⟩ := sound.free held
    have acquired : timeoutMutex.acquire.mutex = ⟨some timeoutMutex.acquisitions, []⟩ := by
      simp [TimeoutMutex.acquire, QueuedLock.acquire, held, empty]
    have granted : timeoutMutex.acquire.granted = some timeoutMutex.acquisitions := by
      simp [TimeoutMutex.acquire, held]
    constructor
    · rw [acquired]
      intro impossible
      cases impossible
    · intro holder same
      rw [acquired] at same
      obtain rfl := Option.some.inj same
      exact .inl ⟨granted, alone, sound.released⟩
    · rw [acquired]
      exact fun _ _ => List.pairwise_singleton _ _
    · intro holder same
      rw [acquired] at same ⊢
      obtain rfl := Option.some.inj same
      exact List.forall_mem_singleton.mpr (Nat.lt_succ_self _)
    · exact sound.returned
    · exact fun releaser current => later (sound.released releaser current)
    · intro timer running
      rcases sound.timer timer running with free | guards
      · exact .inl free
      · exact .inl (guards.trans held)
  | some holder =>
    have acquired : timeoutMutex.acquire.mutex =
        ⟨some holder, timeoutMutex.mutex.queue ++ [timeoutMutex.acquisitions]⟩ := by
      simp [TimeoutMutex.acquire, QueuedLock.acquire, held]
    have granted : timeoutMutex.acquire.granted = timeoutMutex.granted := by
      simp [TimeoutMutex.acquire, held]
    have known := sound.known holder held
    constructor
    · rw [acquired]
      intro impossible
      cases impossible
    · intro same equal
      rw [acquired] at equal
      obtain rfl := Option.some.inj equal
      exact (sound.held holder held).imp
        (fun granting => ⟨granted.trans granting.granted, granting.inside, granting.stale⟩)
        (fun holding => ⟨granted.trans holding.granted, holding.inside, holding.currentRelease,
          holding.timeoutHandle⟩)
    · intro same equal
      rw [acquired] at equal ⊢
      obtain rfl := Option.some.inj equal
      rw [← List.cons_append, List.pairwise_append]
      exact ⟨sound.queued holder held, List.pairwise_singleton _ _, fun earlier member last new =>
        List.mem_singleton.mp new ▸ known earlier member⟩
    · intro same equal
      rw [acquired] at equal ⊢
      obtain rfl := Option.some.inj equal
      rw [← List.cons_append]
      intro queued member
      rcases List.mem_append.mp member with earlier | new
      · exact later (known queued earlier)
      · exact List.mem_singleton.mp new ▸ Nat.lt_succ_self _
    · exact sound.returned
    · exact fun releaser current => later (sound.released releaser current)
    · intro timer running
      rw [acquired]
      exact held ▸ sound.timer timer running

theorem Sound.resume (sound : timeoutMutex.Sound) (granted : timeoutMutex.granted = some acquisition) :
    (timeoutMutex.resume acquisition).Sound := by
  cases held : timeoutMutex.mutex.holder with
  | none => exact absurd ((sound.free held).2.1.symm.trans granted) (by simp)
  | some holder =>
    rcases sound.held holder held with granting | holding
    · obtain rfl := Option.some.inj (granting.granted.symm.trans granted)
      have known := sound.known holder held
      constructor
      · intro none
        exact absurd (held.symm.trans none) (by simp)
      · intro same equal
        obtain rfl := Option.some.inj (held.symm.trans equal)
        refine .inr ⟨rfl, ?_, rfl, ?_⟩
        · exact congrArg (· ++ [holder]) granting.inside
        · exact congrArg (fun guards => some (LockTimer.mk guards)) held
      · exact sound.queued
      · exact sound.known
      · intro other member
        refine ⟨holder, rfl, ?_⟩
        rcases List.mem_append.mp member with earlier | own
        · obtain ⟨releaser, current, before⟩ := sound.returned other earlier
          exact Nat.le_trans before (Nat.le_of_lt (granting.stale releaser current))
        · exact Nat.le_of_eq (List.mem_singleton.mp own)
      · intro releaser current
        exact Option.some.inj current ▸ known holder List.mem_cons_self
      · intro timer running
        exact .inr (Option.some.inj running ▸ rfl)
    · exact absurd (holding.granted.symm.trans granted) (by simp)

theorem Sound.setTimeoutHandler (sound : timeoutMutex.Sound) : timeoutMutex.setTimeoutHandler.Sound where
  free := sound.free
  held := fun holder held => (sound.held holder held).imp
    (fun granting => ⟨granting.granted, granting.inside, granting.stale⟩)
    (fun holding => ⟨holding.granted, holding.inside, holding.currentRelease,
      congrArg (fun guards => some (LockTimer.mk guards)) held⟩)
  queued := sound.queued
  known := sound.known
  returned := sound.returned
  released := sound.released
  timer := fun _ running => .inr (Option.some.inj running ▸ rfl)

theorem Sound.timeOut (sound : timeoutMutex.Sound) (idle : timeoutMutex.granted = none) :
    timeoutMutex.timeOut.Sound := by
  cases held : timeoutMutex.mutex.holder with
  | none =>
    have fired : timeoutMutex.timeOut = { timeoutMutex with timeoutHandle := none } := by
      simp [TimeoutMutex.timeOut, held]
    rw [fired]
    exact ⟨sound.free, fun holder same => absurd (held.symm.trans same) (by simp), sound.queued, sound.known,
      sound.returned, sound.released, fun _ impossible => nomatch impossible⟩
  | some holder =>
    rcases sound.held holder held with granting | holding
    · exact absurd (idle.symm.trans granting.granted) (by simp)
    · rw [timeOut_holding held holding]
      exact sound.handOn held holding

theorem sound_step {event : MutexEvent} {next : TimeoutMutex} (sound : timeoutMutex.Sound)
    (timely : timeoutMutex.Timely event) (taken : step timeoutMutex event = some next) : next.Sound := by
  cases event with
  | acquires =>
    obtain rfl := Option.some.inj taken
    exact sound.acquire
  | resumes =>
    obtain ⟨acquisition, granted, rfl⟩ := Option.map_eq_some_iff.mp taken
    exact sound.resume granted
  | releases acquisition =>
    obtain ⟨returned, rfl⟩ := enabled taken
    exact sound.release returned timely
  | addsTimeout =>
    obtain rfl := Option.some.inj taken
    exact sound.setTimeoutHandler
  | timesOut =>
    obtain ⟨⟨-, idle⟩, rfl⟩ := enabled taken
    exact sound.timeOut idle

/-- In a sound state the calls in time are those that spare the others. -/
theorem Sound.ownEnd_iff {event : MutexEvent} {next : TimeoutMutex} (sound : timeoutMutex.Sound)
    (taken : step timeoutMutex event = some next) : timeoutMutex.OwnEnd event ↔ timeoutMutex.Timely event := by
  cases event with
  | releases acquisition =>
    obtain ⟨returned, rfl⟩ := enabled taken
    constructor
    · intro spares
      by_cases own : timeoutMutex.mutex.holder = some acquisition
      · exact .inl own
      · right
        have empty : timeoutMutex.inside = [] := by
          cases held : timeoutMutex.mutex.holder with
          | none => exact (sound.free held).2.2
          | some holder =>
            rcases sound.held holder held with granting | holding
            · exact granting.inside
            · -- the lock would pass from the holder to the next in the queue
              have kept := spares.lock own
              rw [release_holding held holding, held] at kept
              obtain ⟨first, -⟩ := List.pairwise_cons.mp (sound.queued holder held)
              have again := first holder (List.mem_of_mem_head? kept)
              omega
        refine ⟨empty, Option.eq_none_iff_forall_ne_some.mpr fun timer running => ?_⟩
        have other : timer.guards ≠ some acquisition := by
          rcases sound.timer timer running with free | guards
          · simp [free]
          · rw [guards]
            exact own
        have kept := spares.timer timer running other
        rw [sound.release_of_empty empty] at kept
        cases kept
    · rintro (held | ⟨empty, none⟩)
      · have holding := sound.holding_of_returned held returned
        refine ⟨fun other => absurd held other, fun timer running other => ?_⟩
        rw [holding.timeoutHandle, Option.some.injEq] at running
        exact absurd (running ▸ rfl) other
      · rw [OwnEnd, sound.release_of_empty empty]
        exact ⟨fun _ => rfl, fun timer running => nomatch none.symm.trans running⟩
  | acquires => exact Iff.rfl
  | resumes => exact Iff.rfl
  | addsTimeout => exact Iff.rfl
  | timesOut => exact Iff.rfl

/-- Every returned function ends its own section and timer at most, and no two users that have
not timed out are inside at any time. -/
def Ownership (events : List MutexEvent) : Prop :=
  Throughout step OwnEnd {} events ∧
    ∀ before after reached, events = before ++ after → Run step {} before reached → reached.Exclusive

/-- The mutex keeps its users apart exactly when its functions are called in time. -/
theorem ownership_iff {events : List MutexEvent} {last : TimeoutMutex} (run : Run step {} events last) :
    Ownership events ↔ Throughout step Timely {} events := by
  have preserved : ∀ {state : TimeoutMutex} {event next}, state.Sound → state.OwnEnd event →
      step state event = some next → next.Sound :=
    fun sound own taken => sound_step sound ((sound.ownEnd_iff taken).mp own) taken
  have agree := run.throughout_iff Sound.ownEnd_iff preserved sound_initial
  constructor
  · exact fun ownership => agree.mp ownership.1
  · intro timely
    refine ⟨agree.mpr timely, fun before after reached split reaches => ?_⟩
    subst split
    have earlier := (reaches.throughout_append_iff.mp timely).1
    have sound : reached.Sound := reaches.invariant_throughout sound_step earlier sound_initial
    exact sound.exclusive

/-- A holder times out, and the next one is through in time. -/
theorem ownership_iff_timedOut :
    Ownership [.acquires, .resumes, .acquires, .timesOut, .resumes, .addsTimeout, .releases 1, .releases 0] ↔
      Throughout step Timely {}
        [.acquires, .resumes, .acquires, .timesOut, .resumes, .addsTimeout, .releases 1, .releases 0] :=
  ownership_iff (run_iff_execute.mpr rfl)

/-- A holder that has timed out calls its function late: it frees the lock of the next one, and
a third one meets that inside. -/
theorem not_ownership_lateRelease :
    ¬ ∀ (events : List MutexEvent) (last : TimeoutMutex), Run step {} events last → Ownership events := by
  intro always
  have run : Run step {} [.acquires, .resumes, .acquires, .timesOut, .resumes, .releases 0, .acquires, .resumes] _ :=
    run_iff_execute.mpr rfl
  have alone := (always _ _ run).2 _ [] _ (List.append_nil _).symm run
  exact absurd alone (by unfold Exclusive; decide)

end TimeoutMutex

end PriceFeed.Collectors
