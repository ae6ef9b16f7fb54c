import Mathlib.Data.List.Basic
import Mathlib.Tactic.Tauto

/-! The timers of a scheduler: its cron jobs, the three stages of delays behind a
tick, and the descriptors through which it can still cancel them. -/

namespace PriceFeed.Schedulers

/-- A pending operation timer with the position of its operation. -/
@[ext]
structure OperationTimer where
  handle : ℕ
  operation : ℕ
  deriving DecidableEq, Repr

/-- What is live, and what the fields of the scheduler refer to. Handles are
given out once, so a handle names one job or timer. -/
structure SchedulerRuntime where
  nextHandle : ℕ := 0
  crons : List ℕ := []
  cronTask : Option ℕ := none
  clusterTimers : List ℕ := []
  clusterTimeoutDescriptor : Option ℕ := none
  batchTimers : List ℕ := []
  batchTimeoutDescriptor : Option ℕ := none
  operationTimers : List OperationTimer := []
  operationTimeoutDescriptors : List ℕ := []
  deriving DecidableEq, Repr

namespace SchedulerRuntime

/-- `clearTimeout`, which ignores `null`. -/
def clearTimeout (timers : List ℕ) (descriptor : Option ℕ) : List ℕ :=
  timers.filter fun timer => descriptor ≠ some timer

def initializeScheduler (runtime : SchedulerRuntime) : SchedulerRuntime :=
  { runtime with
    nextHandle := runtime.nextHandle + 1
    crons := runtime.crons ++ [runtime.nextHandle]
    cronTask := some runtime.nextHandle }

/-- `cronTask.stop`. -/
def stopCron (runtime : SchedulerRuntime) : SchedulerRuntime :=
  { runtime with crons := clearTimeout runtime.crons runtime.cronTask }

/-- Stopping a scheduler that never had a cron task throws before it clears anything. -/
def destroyScheduler (runtime : SchedulerRuntime) : Option SchedulerRuntime :=
  if runtime.cronTask = none then none
  else some { runtime.stopCron with
    clusterTimers := clearTimeout runtime.clusterTimers runtime.clusterTimeoutDescriptor
    batchTimers := clearTimeout runtime.batchTimers runtime.batchTimeoutDescriptor
    operationTimers := runtime.operationTimers.filter fun timer =>
      timer.handle ∉ runtime.operationTimeoutDescriptors
    operationTimeoutDescriptors := [] }

/-- The cron callback. -/
def initializeClusterDelay (runtime : SchedulerRuntime) : SchedulerRuntime :=
  { runtime with
    nextHandle := runtime.nextHandle + 1
    clusterTimers := runtime.clusterTimers ++ [runtime.nextHandle]
    clusterTimeoutDescriptor := some runtime.nextHandle }

/-- The callback of the cluster delay. -/
def initializeBatch (runtime : SchedulerRuntime) (fired : ℕ) : SchedulerRuntime :=
  { runtime with
    nextHandle := runtime.nextHandle + 1
    clusterTimers := clearTimeout runtime.clusterTimers (some fired)
    batchTimers := runtime.batchTimers ++ [runtime.nextHandle]
    batchTimeoutDescriptor := some runtime.nextHandle }

/-- The timers `runOperations` sets, one for each operation. -/
def newOperationTimers (runtime : SchedulerRuntime) (operations : ℕ) : List OperationTimer :=
  (List.range operations).map fun operation => ⟨runtime.nextHandle + operation, operation⟩

/-- The callback of the batch delay. -/
def runOperations (runtime : SchedulerRuntime) (fired operations : ℕ) : SchedulerRuntime :=
  { runtime with
    nextHandle := runtime.nextHandle + operations
    batchTimers := clearTimeout runtime.batchTimers (some fired)
    operationTimers := runtime.operationTimers ++ runtime.newOperationTimers operations
    operationTimeoutDescriptors :=
      (runtime.newOperationTimers operations).map OperationTimer.handle }

/-- An operation starts. Its descriptor stays in the list. -/
def startOperation (runtime : SchedulerRuntime) (fired : ℕ) : SchedulerRuntime :=
  { runtime with
    operationTimers := runtime.operationTimers.filter fun timer => timer.handle ≠ fired }

theorem stopCron_sublist (runtime : SchedulerRuntime) :
    runtime.stopCron.crons.Sublist runtime.crons :=
  List.filter_sublist

@[simp] theorem stopCron_nextHandle (runtime : SchedulerRuntime) :
    runtime.stopCron.nextHandle = runtime.nextHandle := rfl

@[simp] theorem stopCron_operationTimers (runtime : SchedulerRuntime) :
    runtime.stopCron.operationTimers = runtime.operationTimers := rfl

/-- Nothing is left that could start an operation. -/
structure Silent (runtime : SchedulerRuntime) : Prop where
  crons : runtime.crons = []
  clusterTimers : runtime.clusterTimers = []
  batchTimers : runtime.batchTimers = []
  operationTimers : runtime.operationTimers = []

instance (runtime : SchedulerRuntime) : Decidable runtime.Silent :=
  decidable_of_iff (runtime.crons = [] ∧ runtime.clusterTimers = [] ∧ runtime.batchTimers = [] ∧
    runtime.operationTimers = []) ⟨fun ⟨crons, cluster, batch, operations⟩ =>
      ⟨crons, cluster, batch, operations⟩, fun silent =>
      ⟨silent.crons, silent.clusterTimers, silent.batchTimers, silent.operationTimers⟩⟩

/-- Whatever is live can still be reached through the scheduler's fields. -/
structure Held (runtime : SchedulerRuntime) : Prop where
  cron : ∀ cron ∈ runtime.crons, runtime.cronTask = some cron
  cluster : ∀ timer ∈ runtime.clusterTimers, runtime.clusterTimeoutDescriptor = some timer
  batch : ∀ timer ∈ runtime.batchTimers, runtime.batchTimeoutDescriptor = some timer
  operations : ∀ timer ∈ runtime.operationTimers, timer.handle ∈ runtime.operationTimeoutDescriptors
  created : runtime.cronTask = none → runtime.Silent

variable {runtime : SchedulerRuntime}

theorem mem_clearTimeout {timers : List ℕ} {descriptor : Option ℕ} {timer : ℕ} :
    timer ∈ clearTimeout timers descriptor ↔ timer ∈ timers ∧ descriptor ≠ some timer := by
  simp [clearTimeout]

theorem clearTimeout_held {timers : List ℕ} {descriptor : Option ℕ}
    (held : ∀ timer ∈ timers, descriptor = some timer) : clearTimeout timers descriptor = [] := by
  rw [List.eq_nil_iff_forall_not_mem]
  intro timer member
  obtain ⟨present, other⟩ := mem_clearTimeout.mp member
  exact other (held timer present)

theorem held_of_clearTimeout {timers : List ℕ} {descriptor : Option ℕ}
    (cleared : clearTimeout timers descriptor = []) : ∀ timer ∈ timers, descriptor = some timer := by
  intro timer member
  by_contra other
  have left := mem_clearTimeout.mpr ⟨member, other⟩
  rw [cleared] at left
  cases left

theorem silent_fresh : ({} : SchedulerRuntime).Silent := ⟨rfl, rfl, rfl, rfl⟩

theorem Silent.held (silent : runtime.Silent) : runtime.Held where
  cron := by simp [silent.crons]
  cluster := by simp [silent.clusterTimers]
  batch := by simp [silent.batchTimers]
  operations := by simp [silent.operationTimers]
  created _ := silent

namespace Held

/-- A scheduler that holds all its timers is silent once it is destroyed. -/
theorem destroyScheduler (held : runtime.Held)
    (destroyed : runtime.destroyScheduler = some next) : next.Silent := by
  simp only [SchedulerRuntime.destroyScheduler] at destroyed
  split at destroyed
  · cases destroyed
  · cases destroyed
    refine ⟨clearTimeout_held held.cron, clearTimeout_held held.cluster,
      clearTimeout_held held.batch, ?_⟩
    rw [List.filter_eq_nil_iff]
    simpa using held.operations

/-- Where destroying throws there was nothing to cancel. -/
private theorem silent_of_destroyScheduler_none (held : runtime.Held)
    (thrown : runtime.destroyScheduler = none) : runtime.Silent := by
  simp only [SchedulerRuntime.destroyScheduler] at thrown
  split at thrown
  · next missing => exact held.created missing
  · cases thrown

/-- Whatever is live was set after a cron job had been created. -/
theorem created_of_live (held : runtime.Held) {handle : ℕ}
    (live : handle ∈ runtime.crons ∨ handle ∈ runtime.clusterTimers ∨ handle ∈ runtime.batchTimers) :
    runtime.cronTask ≠ none := by
  intro missing
  have silent := held.created missing
  simp [silent.crons, silent.clusterTimers, silent.batchTimers] at live

theorem stopCron (held : runtime.Held) : runtime.stopCron.Held where
  cron cron member := held.cron cron (mem_clearTimeout.mp member).1
  cluster := held.cluster
  batch := held.batch
  operations := held.operations
  created missing := by
    have silent := held.created missing
    refine ⟨?_, silent.clusterTimers, silent.batchTimers, silent.operationTimers⟩
    exact List.sublist_nil.mp (silent.crons ▸ runtime.stopCron_sublist)

theorem initializeScheduler (held : runtime.Held) (stopped : runtime.crons = []) :
    runtime.initializeScheduler.Held where
  cron cron member := by
    obtain rfl : cron = runtime.nextHandle := by
      simpa [SchedulerRuntime.initializeScheduler, stopped] using member
    rfl
  cluster := held.cluster
  batch := held.batch
  operations := held.operations
  created missing := by simp [SchedulerRuntime.initializeScheduler] at missing

theorem initializeClusterDelay (held : runtime.Held) (created : runtime.cronTask ≠ none)
    (fired : runtime.clusterTimers = []) : runtime.initializeClusterDelay.Held where
  cron := held.cron
  cluster timer member := by
    obtain rfl : timer = runtime.nextHandle := by
      simpa [SchedulerRuntime.initializeClusterDelay, fired] using member
    rfl
  batch := held.batch
  operations := held.operations
  created missing := absurd missing created

theorem initializeBatch (held : runtime.Held) (created : runtime.cronTask ≠ none)
    (fired : runtime.batchTimers = []) (timer : ℕ) : (runtime.initializeBatch timer).Held where
  cron := held.cron
  cluster other member := held.cluster other (mem_clearTimeout.mp member).1
  batch other member := by
    obtain rfl : other = runtime.nextHandle := by
      simpa [SchedulerRuntime.initializeBatch, fired] using member
    rfl
  operations := held.operations
  created missing := absurd missing created

theorem runOperations (held : runtime.Held) (created : runtime.cronTask ≠ none)
    (fired : runtime.operationTimers = []) (timer operations : ℕ) :
    (runtime.runOperations timer operations).Held where
  cron := held.cron
  cluster := held.cluster
  batch other member := held.batch other (mem_clearTimeout.mp member).1
  operations other member := by
    rw [SchedulerRuntime.runOperations, fired, List.nil_append] at member
    exact List.mem_map_of_mem member
  created missing := absurd missing created

theorem startOperation (held : runtime.Held) (timer : ℕ) : (runtime.startOperation timer).Held where
  cron := held.cron
  cluster := held.cluster
  batch := held.batch
  operations other member := held.operations other (List.mem_of_mem_filter member)
  created missing := by
    have silent := held.created missing
    refine ⟨silent.crons, silent.clusterTimers, silent.batchTimers, ?_⟩
    simp [SchedulerRuntime.startOperation, silent.operationTimers]

end Held

/-- A scheduler holds all that is live exactly when destroying it leaves nothing live. -/
theorem held_iff : runtime.Held ↔ (runtime.destroyScheduler.getD runtime).Silent := by
  constructor
  · intro held
    cases destroyed : runtime.destroyScheduler with
    | none => exact held.silent_of_destroyScheduler_none destroyed
    | some next => exact held.destroyScheduler destroyed
  · intro silent
    unfold destroyScheduler at silent
    split at silent
    · exact silent.held
    · next created =>
      obtain ⟨crons, cluster, batch, operations⟩ := silent
      refine ⟨held_of_clearTimeout crons, held_of_clearTimeout cluster,
        held_of_clearTimeout batch, ?_, fun missing => absurd missing created⟩
      simpa using List.filter_eq_nil_iff.mp operations

/-- The handle of a cron job or a pending timer. -/
def Live (runtime : SchedulerRuntime) (handle : ℕ) : Prop :=
  handle ∈ runtime.crons ∨ handle ∈ runtime.clusterTimers ∨ handle ∈ runtime.batchTimers ∨
    ∃ timer ∈ runtime.operationTimers, timer.handle = handle

/-- Handles are given out in order. -/
def Fresh (runtime : SchedulerRuntime) : Prop :=
  ∀ handle, runtime.Live handle → handle < runtime.nextHandle

theorem Silent.not_live (silent : runtime.Silent) (handle : ℕ) : ¬ runtime.Live handle := by
  simp [Live, silent.crons, silent.clusterTimers, silent.batchTimers, silent.operationTimers]

namespace Fresh

variable (fresh : runtime.Fresh)

include fresh

/-- An operation that sets at most one timer or job, under the next handle. -/
theorem next {changed : SchedulerRuntime} (handles : changed.nextHandle = runtime.nextHandle + 1)
    (live : ∀ handle, changed.Live handle → handle = runtime.nextHandle ∨ runtime.Live handle) :
    changed.Fresh := by
  intro handle changedLive
  rw [handles]
  rcases live handle changedLive with rfl | old
  · exact Nat.lt_succ_self _
  · exact Nat.lt_succ_of_lt (fresh handle old)

theorem initializeScheduler : runtime.initializeScheduler.Fresh := by
  refine fresh.next rfl fun handle live => ?_
  simp only [Live, SchedulerRuntime.initializeScheduler, List.mem_append, List.mem_singleton] at live ⊢
  tauto

theorem initializeClusterDelay : runtime.initializeClusterDelay.Fresh := by
  refine fresh.next rfl fun handle live => ?_
  simp only [Live, SchedulerRuntime.initializeClusterDelay, List.mem_append,
    List.mem_singleton] at live ⊢
  tauto

theorem initializeBatch (timer : ℕ) : (runtime.initializeBatch timer).Fresh := by
  refine fresh.next rfl fun handle live => ?_
  simp only [Live, SchedulerRuntime.initializeBatch, List.mem_append, List.mem_singleton,
    mem_clearTimeout] at live ⊢
  tauto

theorem stopCron : runtime.stopCron.Fresh := by
  intro handle live
  refine fresh handle ?_
  simp only [Live, SchedulerRuntime.stopCron, mem_clearTimeout] at live ⊢
  tauto

theorem runOperations (timer operations : ℕ) : (runtime.runOperations timer operations).Fresh := by
  intro handle live
  have old : runtime.Live handle ∨ handle < runtime.nextHandle + operations := by
    simp only [Live, SchedulerRuntime.runOperations, newOperationTimers, mem_clearTimeout,
      List.mem_append, List.mem_map, List.mem_range] at live ⊢
    rcases live with cron | cluster | batch | ⟨timer, before | ⟨operation, inside, rfl⟩, rfl⟩
    · exact .inl (.inl cron)
    · exact .inl (.inr (.inl cluster))
    · exact .inl (.inr (.inr (.inl batch.1)))
    · exact .inl (.inr (.inr (.inr ⟨timer, before, rfl⟩)))
    · exact .inr (by simpa using inside)
  rcases old with live | below
  · exact Nat.lt_add_right _ (fresh handle live)
  · exact below

theorem startOperation (timer : ℕ) : (runtime.startOperation timer).Fresh := by
  intro handle live
  refine fresh handle ?_
  rcases live with cron | cluster | batch | ⟨other, waits, rfl⟩
  · exact .inl cron
  · exact .inr (.inl cluster)
  · exact .inr (.inr (.inl batch))
  · exact .inr (.inr (.inr ⟨other, List.mem_of_mem_filter waits, rfl⟩))

end Fresh

end SchedulerRuntime

end PriceFeed.Schedulers
