import Mathlib.Data.Nat.Notation

/-! Loops whose body runs until they have ended. A bound on their rounds that suffices
once makes no difference to where they end. -/

namespace PriceFeed.Library

variable {State : Type*}

def runLoop (ended : State → Bool) (body : State → State) : ℕ → State → State
  | 0, state => state
  | rounds + 1, state => if ended state then state else runLoop ended body rounds (body state)

variable {ended : State → Bool} {body : State → State} {state : State} {rounds : ℕ}

theorem runLoop_ended (last : ended state) (rounds : ℕ) : runLoop ended body rounds state = state := by
  cases rounds with
  | zero => rfl
  | succ rounds => rw [runLoop, if_pos last]

theorem runLoop_running (running : ended state = false) :
    runLoop ended body (rounds + 1) state = runLoop ended body rounds (body state) := by
  rw [runLoop, running]
  rfl

theorem runLoop_succ (ends : ended (runLoop ended body rounds state)) :
    runLoop ended body (rounds + 1) state = runLoop ended body rounds state := by
  induction rounds generalizing state with
  | zero => exact runLoop_ended ends 1
  | succ rounds ih =>
    cases last : ended state with
    | true => rw [runLoop_ended last, runLoop_ended last]
    | false =>
      rw [runLoop_running last] at ends
      rw [runLoop_running last, runLoop_running last, ih ends]

theorem runLoop_body (running : ended state = false) (ends : ended (runLoop ended body rounds state)) :
    runLoop ended body rounds (body state) = runLoop ended body rounds state := by
  rw [← runLoop_running running, runLoop_succ ends]

/-- A measure that each round but the last lowers bounds the rounds. -/
theorem ended_runLoop (measure : State → ℕ)
    (lowers : ∀ state, ended state = false → ended (body state) ∨ measure (body state) < measure state)
    (enough : measure state < rounds) : ended (runLoop ended body rounds state) := by
  induction rounds generalizing state with
  | zero => exact absurd enough (Nat.not_lt_zero _)
  | succ rounds ih =>
    cases running : ended state with
    | true =>
      rw [runLoop_ended running]
      exact running
    | false =>
      rw [runLoop_running running]
      rcases lowers state running with last | lower
      · rw [runLoop_ended last]
        exact last
      · apply ih
        omega

end PriceFeed.Library
