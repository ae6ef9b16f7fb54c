import Mathlib.Data.List.Basic

/-! A lock without owners: it is granted in order of arrival, and any release frees
it, whoever calls it. Tasks that release only what they hold exclude each other. -/

namespace PriceFeed.Library

/-- Who was granted the lock last and not freed since, and who waits for it. -/
structure QueuedLock (Task : Type*) where
  holder : Option Task := none
  queue : List Task := []
  deriving DecidableEq, Repr

namespace QueuedLock

variable {Task : Type*}

def acquire (lock : QueuedLock Task) (task : Task) : QueuedLock Task :=
  match lock.holder with
  | none => { lock with holder := some task }
  | some _ => { lock with queue := lock.queue ++ [task] }

/-- Freeing a free lock does nothing; otherwise the first one in the queue gets it. -/
def release (lock : QueuedLock Task) : QueuedLock Task :=
  match lock.holder with
  | none => lock
  | some _ => { holder := lock.queue.head?, queue := lock.queue.tail }

end QueuedLock

/-- A lock with the tasks that were granted it and have not come to their own release. -/
structure GuardedTasks (Task : Type*) where
  lock : QueuedLock Task := {}
  inside : List Task := []
  deriving DecidableEq, Repr

namespace GuardedTasks

variable {Task : Type*}

def enter (tasks : GuardedTasks Task) (task : Task) : GuardedTasks Task :=
  { lock := tasks.lock.acquire task
    inside := if tasks.lock.holder.isNone then tasks.inside ++ [task] else tasks.inside }

/-- A release that ends some of the tasks, if any. -/
def leave (tasks : GuardedTasks Task) (ends : Task → Bool) : GuardedTasks Task :=
  { lock := tasks.lock.release
    inside := tasks.inside.filter (fun task => !ends task) ++
      if tasks.lock.holder.isSome then tasks.lock.queue.head?.toList else [] }

/-- At most one task is inside. -/
def Exclusive (tasks : GuardedTasks Task) : Prop := tasks.inside.length ≤ 1

/-- The release ends the task that holds the lock, if one does. -/
def OwnRelease (tasks : GuardedTasks Task) (ends : Task → Bool) : Prop :=
  ∀ task ∈ tasks.lock.holder, ends task

/-- Exactly the holder is inside, and nobody waits for a free lock. -/
structure Settled (tasks : GuardedTasks Task) : Prop where
  inside : tasks.inside = tasks.lock.holder.toList
  free : tasks.lock.holder = none → tasks.lock.queue = []

variable {tasks : GuardedTasks Task} {ends : Task → Bool} (task : Task)

theorem settled_empty : Settled ({} : GuardedTasks Task) := ⟨rfl, fun _ => rfl⟩

namespace Settled

variable (settled : tasks.Settled)

include settled

theorem exclusive : tasks.Exclusive := by
  rw [Exclusive, settled.inside]
  cases tasks.lock.holder with
  | none => exact Nat.zero_le _
  | some holder => exact Nat.le_refl _

theorem enter : (tasks.enter task).Settled := by
  have inside := settled.inside
  cases held : tasks.lock.holder with
  | none =>
    rw [held] at inside
    constructor
    · simp [GuardedTasks.enter, QueuedLock.acquire, held, inside]
    · simp [GuardedTasks.enter, QueuedLock.acquire, held]
  | some holder =>
    rw [held] at inside
    constructor
    · simp [GuardedTasks.enter, QueuedLock.acquire, held, inside]
    · simp [GuardedTasks.enter, QueuedLock.acquire, held]

/-- A task that frees the lock it holds hands it on. -/
theorem leave (own : tasks.OwnRelease ends) : (tasks.leave ends).Settled := by
  have inside := settled.inside
  cases held : tasks.lock.holder with
  | none =>
    rw [held] at inside
    constructor
    · simp [GuardedTasks.leave, QueuedLock.release, held, inside]
    · simpa [GuardedTasks.leave, QueuedLock.release, held] using settled.free held
  | some holder =>
    rw [held] at inside
    have ended := own holder held
    constructor
    · simp [GuardedTasks.leave, QueuedLock.release, held, inside, ended]
    · simp +contextual [GuardedTasks.leave, QueuedLock.release, held]

/-- After a release that does not end the holder, the next task to come meets it inside. -/
theorem not_exclusive_of_stray (stray : ¬ tasks.OwnRelease ends) :
    ¬ ((tasks.leave ends).enter task).Exclusive := by
  simp only [OwnRelease, not_forall, exists_prop] at stray
  obtain ⟨holder, held, goesOn⟩ := stray
  rw [Option.mem_def] at held
  have inside := settled.inside
  rw [held] at inside
  rw [Bool.not_eq_true] at goesOn
  cases waiting : tasks.lock.queue with
  | nil =>
    simp [Exclusive, GuardedTasks.enter, GuardedTasks.leave, QueuedLock.release, held, inside,
      goesOn, waiting]
  | cons first rest =>
    simp [Exclusive, GuardedTasks.enter, GuardedTasks.leave, QueuedLock.release, held, inside,
      goesOn, waiting]

end Settled

end GuardedTasks

end PriceFeed.Library
