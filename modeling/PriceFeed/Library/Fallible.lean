import Mathlib.Logic.Basic

/-! Computations that keep a store and whose steps may fail: a step that throws or stops
the process may have changed the store before. -/

namespace PriceFeed.Library

/-- What goes wrong at a step, and whether its effect has been stored all the same. -/
inductive Fault where
  | throws (stored : Bool)
  | crashes (stored : Bool)
  deriving DecidableEq, Repr

def Fault.stored : Fault → Bool
  | .throws stored | .crashes stored => stored

inductive Ending (Exception Value : Type) where
  | returned (value : Value)
  | threw (exception : Exception)
  | crashed
  deriving DecidableEq, Repr

def Fallible (Exception Store Value : Type) : Type := Store → Ending Exception Value × Store

namespace Fallible

variable {Exception Store Value Result : Type}

instance : Monad (Fallible Exception Store) where
  pure value store := (.returned value, store)
  bind run next store :=
    match run store with
    | (.returned value, stored) => next value stored
    | (.threw exception, stored) => (.threw exception, stored)
    | (.crashed, stored) => (.crashed, stored)

def throwing (exception : Exception) : Fallible Exception Store Value :=
  fun store => (.threw exception, store)

/-- One step with its effect on the store, and the fault it meets. -/
def perform (fault : Option Fault) (exception : Exception) (effect : Store → Value × Store) :
    Fallible Exception Store Value := fun store =>
  match fault with
  | none => (.returned (effect store).1, (effect store).2)
  | some (.throws stored) => (.threw exception, if stored then (effect store).2 else store)
  | some (.crashes stored) => (.crashed, if stored then (effect store).2 else store)

/-- `try` with its `catch`. A crash reaches neither the handler nor what follows. -/
def attempt (run : Fallible Exception Store Value)
    (handler : Exception → Fallible Exception Store Value) : Fallible Exception Store Value := fun store =>
  match run store with
  | (.threw exception, stored) => handler exception stored
  | ended => ended

variable {run : Fallible Exception Store Value} {next : Value → Fallible Exception Store Result}
  {fault : Option Fault} {effect : Store → Value × Store} {store final : Store}

theorem pure_returned_iff {value result : Value} :
    (pure value : Fallible Exception Store Value) store = (.returned result, final) ↔
      value = result ∧ store = final := by
  change (Ending.returned value, store) = _ ↔ _
  simp

theorem bind_apply : (run >>= next) store =
    match run store with
    | (.returned value, stored) => next value stored
    | (.threw exception, stored) => (.threw exception, stored)
    | (.crashed, stored) => (.crashed, stored) := rfl

theorem bind_returned_iff {result : Result} : (run >>= next) store = (.returned result, final) ↔
    ∃ value middle, run store = (.returned value, middle) ∧
      next value middle = (.returned result, final) := by
  rw [bind_apply]
  rcases run store with ⟨value | exception | _, middle⟩
  · simp [and_assoc]
  · simp
  · simp

/-- A sequence throws where its first part does, or after that has returned. -/
theorem bind_threw_iff {exception : Exception} : (run >>= next) store = (.threw exception, final) ↔
    run store = (.threw exception, final) ∨
      ∃ value middle, run store = (.returned value, middle) ∧
        next value middle = (.threw exception, final) := by
  rw [bind_apply]
  rcases run store with ⟨value | exception | _, middle⟩
  · simp [and_assoc]
  · simp
  · simp

theorem perform_returned_iff {exception : Exception} {value : Value} :
    perform fault exception effect store = (.returned value, final) ↔
      fault = none ∧ effect store = (value, final) := by
  rcases fault with _ | stored | stored
  · simp [perform, Prod.ext_iff]
  · simp [perform]
  · simp [perform]

theorem perform_threw_iff {exception thrown : Exception} :
    perform fault exception effect store = (.threw thrown, final) ↔
      exception = thrown ∧ ∃ stored, fault = some (.throws stored) ∧
        final = if stored then (effect store).2 else store := by
  rcases fault with _ | stored | stored
  · simp [perform]
  · simp [perform, eq_comm]
  · simp [perform]

theorem attempt_returned_iff {handler : Exception → Fallible Exception Store Value} {value : Value} :
    attempt run handler store = (.returned value, final) ↔
      run store = (.returned value, final) ∨ ∃ exception middle,
        run store = (.threw exception, middle) ∧ handler exception middle = (.returned value, final) := by
  rw [attempt]
  rcases run store with ⟨value | exception | _, middle⟩
  · simp
  · simp [and_assoc]
  · simp

theorem bind_bind {Last : Type} (last : Result → Fallible Exception Store Last) :
    (run >>= next) >>= last = run >>= fun value => next value >>= last := by
  funext store
  rw [bind_apply, bind_apply, bind_apply]
  rcases run store with ⟨value | exception | _, middle⟩
  · rfl
  · rfl
  · rfl

/-- A step under `try` goes on to what follows it, or to the handler. -/
theorem attempt_perform_bind {exception : Exception} {handler : Exception → Fallible Exception Store Result} :
    attempt (perform fault exception effect >>= next) handler store =
      match fault with
      | none => attempt (next (effect store).1) handler (effect store).2
      | some (.throws stored) => handler exception (if stored then (effect store).2 else store)
      | some (.crashes stored) => (.crashed, if stored then (effect store).2 else store) := by
  rcases fault with _ | stored | stored
  · rfl
  · rfl
  · rfl

theorem snd_perform {exception : Exception} : (perform fault exception effect store).2 =
    if ∀ failed ∈ fault, failed.stored then (effect store).2 else store := by
  rcases fault with _ | ⟨_ | _⟩ | ⟨_ | _⟩ <;> simp [perform, Fault.stored]

/-- However it ends, the computation leaves what is measured as it was. -/
def Keeps {Measure : Type*} (measure : Store → Measure) (run : Fallible Exception Store Value) : Prop :=
  ∀ store, measure (run store).2 = measure store

section Keeps

variable {Measure : Type*} {measure : Store → Measure}

theorem keeps_pure {value : Value} : Keeps measure (pure value : Fallible Exception Store Value) :=
  fun _ => rfl

theorem keeps_throwing {exception : Exception} :
    Keeps measure (throwing exception : Fallible Exception Store Value) :=
  fun _ => rfl

theorem keeps_perform {exception : Exception} (kept : ∀ store, measure (effect store).2 = measure store) :
    Keeps measure (perform fault exception effect) := by
  intro store
  rw [snd_perform]
  split
  · exact kept store
  · rfl

/-- A sequence goes on from where its first part returned, or ends where that ended. -/
theorem bind_cases (run : Fallible Exception Store Value)
    (next : Value → Fallible Exception Store Result) (store : Store) :
    (∃ value middle, run store = (.returned value, middle) ∧ (run >>= next) store = next value middle) ∨
      (∀ value, (run store).1 ≠ .returned value) ∧ ((run >>= next) store).2 = (run store).2 := by
  rw [bind_apply]
  rcases run store with ⟨value | exception | _, middle⟩
  · exact .inl ⟨value, middle, rfl, rfl⟩
  · exact .inr ⟨nofun, rfl⟩
  · exact .inr ⟨nofun, rfl⟩

theorem Keeps.bind (first : Keeps measure run) (rest : ∀ value, Keeps measure (next value)) :
    Keeps measure (run >>= next) := by
  intro store
  have kept := first store
  rcases bind_cases run next store with ⟨value, middle, ran, onward⟩ | ⟨-, ended⟩
  · rw [ran] at kept
    rw [onward, rest value middle, kept]
  · rw [ended, kept]

/-- Where the rest changes nothing, a sequence leaves what its first part did. -/
theorem measure_bind (rest : ∀ value, Keeps measure (next value)) (store : Store) :
    measure ((run >>= next) store).2 = measure (run store).2 := by
  rcases bind_cases run next store with ⟨value, middle, ran, onward⟩ | ⟨-, ended⟩
  · rw [onward, rest value middle, ran]
  · rw [ended]

/-- A handler that changes nothing leaves what the attempt did. -/
theorem measure_attempt {handler : Exception → Fallible Exception Store Value}
    (handled : ∀ exception, Keeps measure (handler exception)) (store : Store) :
    measure (attempt run handler store).2 = measure (run store).2 := by
  rw [attempt]
  rcases run store with ⟨value | exception | _, middle⟩
  · rfl
  · exact handled exception middle
  · rfl

theorem Keeps.attempt {handler : Exception → Fallible Exception Store Value}
    (tried : Keeps measure run) (handled : ∀ exception, Keeps measure (handler exception)) :
    Keeps measure (attempt run handler) :=
  fun store => (measure_attempt handled store).trans (tried store)

end Keeps

end Fallible

end PriceFeed.Library
