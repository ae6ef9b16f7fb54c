import PriceFeed.Discovery.Network
import PriceFeed.Library.Bursts
import PriceFeed.Library.Runs

/-! `MessageBuffer` in time: its timer calls the handler once no message has come for a
delay, and the handler takes what is in the buffer when it gets to `useBuffer`. -/

namespace PriceFeed.Discovery

open PriceFeed.Library

/-- A message and when it is added, in milliseconds. -/
structure Arrival (Message : Type) where
  time : ℕ
  message : Message
  deriving DecidableEq, Repr

/-- `debounceTimer` was set at `timerStart`, if it is armed. `calls` counts handlers that wait
before `useBuffer`, and `arrivals` and `batches` record what came and what was taken. -/
structure DebouncedBuffer (Message : Type) where
  buffer : MessageBuffer (Arrival Message) := {}
  timerStart : ℕ := 0
  calls : ℕ := 0
  now : ℕ := 0
  arrivals : List (Arrival Message) := []
  batches : List (List (Arrival Message)) := []

inductive BufferEvent (Message : Type) where
  | adds (arrival : Arrival Message)
  | fires (time : ℕ)
  | uses (time : ℕ)

/-- How a handler begins: the STATUS handler uses the buffer at once, the others acquire
the mutex first. -/
inductive HandlerStart where
  | usesAtOnce
  | acquires
  deriving DecidableEq, Repr

namespace DebouncedBuffer

variable {Message : Type}

def useBuffer (state : DebouncedBuffer Message) : DebouncedBuffer Message :=
  { state with
    buffer := state.buffer.cleanBuffer
    batches := state.batches ++ [state.buffer.messages] }

variable (delay : ℕ) (start : HandlerStart) (state : DebouncedBuffer Message)

def step : BufferEvent Message → Option (DebouncedBuffer Message)
  | .adds arrival =>
    if state.now ≤ arrival.time then
      some { state with
        buffer := state.buffer.addMessage arrival
        timerStart := arrival.time
        now := arrival.time
        arrivals := state.arrivals ++ [arrival] }
    else none
  | .fires time =>
    if state.buffer.armed ∧ state.timerStart + delay ≤ time ∧ state.now ≤ time then
      match start with
      | .usesAtOnce => some { state with buffer := state.buffer.elapsed, now := time }.useBuffer
      | .acquires => some { state with buffer := state.buffer.elapsed, now := time, calls := state.calls + 1 }
    else none
  | .uses time =>
    if 0 < state.calls ∧ state.now ≤ time then
      some { state with calls := state.calls - 1, now := time }.useBuffer
    else none

/-- Nothing is lost, and what waits will be taken. -/
structure Conserved : Prop where
  arrived : state.batches.flatten ++ state.buffer.messages = state.arrivals
  taken : state.buffer.messages ≠ [] → state.buffer.armed = true ∨ 0 < state.calls

variable {delay start state} {next : DebouncedBuffer Message} {event : BufferEvent Message}

theorem flatten_useBuffer : state.useBuffer.batches.flatten = state.batches.flatten ++ state.buffer.messages := by
  rw [useBuffer, List.flatten_append, List.flatten_singleton]

theorem Conserved.step (conserved : state.Conserved) (taken : state.step delay start event = some next) :
    next.Conserved := by
  cases event with
  | adds arrival =>
    obtain ⟨_, rfl⟩ := enabled taken
    refine ⟨?_, fun _ => .inl rfl⟩
    change state.batches.flatten ++ (state.buffer.messages ++ [arrival]) = state.arrivals ++ [arrival]
    rw [← List.append_assoc, conserved.arrived]
  | fires time =>
    simp only [DebouncedBuffer.step] at taken
    split at taken
    next =>
      cases start with
      | usesAtOnce =>
        cases taken
        refine ⟨?_, fun some => absurd rfl some⟩
        rw [flatten_useBuffer]
        exact (List.append_nil _).trans conserved.arrived
      | acquires =>
        cases taken
        exact ⟨conserved.arrived, fun _ => .inr (Nat.succ_pos _)⟩
    next => cases taken
  | uses time =>
    obtain ⟨_, rfl⟩ := enabled taken
    refine ⟨?_, fun some => absurd rfl some⟩
    rw [flatten_useBuffer]
    exact (List.append_nil _).trans conserved.arrived

/-- Every message that has come is handed out once and in order, or waits for a timer or a
handler that will hand it out. -/
theorem arrivals_handedOut {events : List (BufferEvent Message)} {final : DebouncedBuffer Message}
    (run : Run (step delay start) {} events final) :
    final.batches.flatten ++ final.buffer.messages = final.arrivals ∧
      (final.buffer.armed = false → final.calls = 0 → final.batches.flatten = final.arrivals) := by
  have conserved : final.Conserved := run.invariant Conserved.step ⟨rfl, fun some => absurd rfl some⟩
  refine ⟨conserved.arrived, fun idle settled => ?_⟩
  have empty : final.buffer.messages = [] := by
    by_contra some
    rcases conserved.taken some with armed | waiting
    · rw [idle] at armed
      cases armed
    · omega
  rw [← conserved.arrived, empty, List.append_nil]

/-- The second message comes when the timer of the first one may have run out. -/
def Late (delay : ℕ) (first second : Arrival Message) : Prop := first.time + delay ≤ second.time

/-- A buffer whose handler uses it at once: it is armed while it holds messages, and what has
been handed out is older than the delay. -/
structure Punctual (delay : ℕ) (state : DebouncedBuffer Message) : Prop where
  settled : state.calls = 0
  began : state.timerStart ≤ state.now
  armed : state.buffer.messages ≠ [] ↔ state.buffer.armed = true
  started : ∀ arrival ∈ state.buffer.messages, arrival.time ≤ state.timerStart
  aged : ∀ arrival ∈ state.batches.flatten, arrival.time + delay ≤ state.now
  separated : Separated (Late delay) (state.batches ++ [state.buffer.messages])
  nonempty : ∀ batch ∈ state.batches, batch ≠ []

private theorem punctual_initial : Punctual delay ({} : DebouncedBuffer Message) where
  settled := rfl
  began := Nat.le_refl _
  armed := ⟨fun some => absurd rfl some, fun armed => by cases armed⟩
  started _ held := by cases held
  aged _ held := by cases held
  separated := List.pairwise_singleton _ _
  nonempty _ held := by cases held

theorem Punctual.add {arrival : Arrival Message} (punctual : state.Punctual delay)
    (ordered : state.now ≤ arrival.time) : Punctual delay { state with
      buffer := state.buffer.addMessage arrival
      timerStart := arrival.time
      now := arrival.time
      arrivals := state.arrivals ++ [arrival] } := by
  constructor
  case settled => exact punctual.settled
  case began => exact Nat.le_refl _
  case armed => exact iff_of_true (List.concat_ne_nil _ _) rfl
  case started =>
    intro other held
    rcases List.mem_append.mp held with old | new
    · exact ((punctual.started other old).trans punctual.began).trans ordered
    · rw [List.mem_singleton.mp new]
  case aged => exact fun other held => (punctual.aged other held).trans ordered
  case separated =>
    obtain ⟨batches, last⟩ := separated_concat.mp punctual.separated
    refine separated_concat.mpr ⟨batches, fun first used second held => ?_⟩
    rcases List.mem_append.mp held with old | new
    · exact last first used second old
    · rw [List.mem_singleton.mp new]
      exact (punctual.aged first used).trans ordered
  case nonempty => exact punctual.nonempty

private theorem Punctual.fire {time : ℕ} (punctual : state.Punctual delay) (armed : state.buffer.armed = true)
    (elapsed : state.timerStart + delay ≤ time) (ordered : state.now ≤ time) :
    Punctual delay { state with buffer := state.buffer.elapsed, now := time }.useBuffer := by
  constructor
  case settled => exact punctual.settled
  case began => exact punctual.began.trans ordered
  case armed => exact ⟨fun some => absurd rfl some, fun armed => by cases armed⟩
  case started =>
    intro other held
    cases held
  case aged =>
    intro other held
    rw [flatten_useBuffer] at held
    rcases List.mem_append.mp held with old | new
    · exact (punctual.aged other old).trans ordered
    · exact (Nat.add_le_add_right (punctual.started other new) delay).trans elapsed
  case separated =>
    refine separated_concat.mpr ⟨punctual.separated, fun first _ second held => ?_⟩
    cases held
  case nonempty =>
    intro batch held
    rcases List.mem_append.mp held with old | new
    · exact punctual.nonempty batch old
    · rw [List.mem_singleton.mp new]
      exact punctual.armed.mpr armed

theorem Punctual.step (punctual : state.Punctual delay) (taken : state.step delay .usesAtOnce event = some next) :
    next.Punctual delay := by
  cases event with
  | adds arrival =>
    obtain ⟨ordered, rfl⟩ := enabled taken
    exact punctual.add ordered
  | fires time =>
    obtain ⟨⟨armed, elapsed, ordered⟩, rfl⟩ := enabled taken
    exact punctual.fire armed elapsed ordered
  | uses time =>
    obtain ⟨⟨waiting, _⟩, _⟩ := enabled taken
    rw [punctual.settled] at waiting
    cases waiting

/-- Messages that come in one burst, each within the delay after the one before, are handed
to one STATUS handler, however late timers run, and no STATUS handler gets an empty buffer. -/
theorem burst_inOneBatch {events : List (BufferEvent Message)} {final : DebouncedBuffer Message}
    {before burst after : List (Arrival Message)} (run : Run (step delay .usesAtOnce) {} events final)
    (came : final.arrivals = before ++ burst ++ after)
    (close : burst.IsChain fun first second => second.time < first.time + delay) (some : burst ≠ []) :
    (∃ batch ∈ final.batches ++ [final.buffer.messages], burst <:+: batch) ∧
      ∀ batch ∈ final.batches, batch ≠ [] := by
  have conserved : final.Conserved := run.invariant Conserved.step ⟨rfl, fun some => absurd rfl some⟩
  have punctual : final.Punctual delay := run.invariant Punctual.step punctual_initial
  have whole : (final.batches ++ [final.buffer.messages]).flatten = before ++ burst ++ after := by
    rw [List.flatten_append, List.flatten_singleton, conserved.arrived]
    exact came
  have uncut : burst.IsChain fun first second => ¬ Late delay first second :=
    close.imp fun first second less late => Nat.not_lt.mpr late less
  exact ⟨punctual.separated.burst_infix whole uncut some, punctual.nonempty⟩

section ThreeAnswers

/-- Three answers in a burst, and one after the handler was called. -/
def answers : List (BufferEvent ℕ) :=
  [.adds ⟨0, 1⟩, .adds ⟨300, 2⟩, .adds ⟨700, 3⟩, .fires 1210, .adds ⟨1300, 4⟩]

theorem arrivals_handedOut_answers : ∃ final, Run (step 500 .acquires) {} (answers ++ [.uses 1400, .fires 1900, .uses 1900]) final ∧
    final.batches.flatten = final.arrivals := by
  obtain ⟨final, run, idle, settled⟩ : ∃ final,
      Run (step 500 .acquires) {} (answers ++ [.uses 1400, .fires 1900, .uses 1900]) final ∧
        final.buffer.armed = false ∧ final.calls = 0 :=
    ⟨_, run_iff_execute.mpr rfl, rfl, rfl⟩
  exact ⟨final, run, (arrivals_handedOut run).2 idle settled⟩

theorem burst_inOneBatch_answers : ∃ final, Run (step 500 .usesAtOnce) {} answers final ∧
    ∃ batch ∈ final.batches ++ [final.buffer.messages],
      [⟨0, 1⟩, ⟨300, 2⟩, ⟨700, 3⟩] <:+: batch := by
  obtain ⟨final, run, came⟩ : ∃ final, Run (step 500 .usesAtOnce) {} answers final ∧
      final.arrivals = [] ++ [⟨0, 1⟩, ⟨300, 2⟩, ⟨700, 3⟩] ++ [⟨1300, 4⟩] :=
    ⟨_, run_iff_execute.mpr rfl, rfl⟩
  exact ⟨final, run, (burst_inOneBatch run came (by simp) (by simp)).1⟩

end ThreeAnswers

end DebouncedBuffer

end PriceFeed.Discovery
