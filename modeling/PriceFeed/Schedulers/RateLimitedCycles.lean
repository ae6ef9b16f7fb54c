import PriceFeed.Schedulers.HistoricalCoverage

/-! Rate limit errors of a historical scheduler: which reloads make sure that the
cycles they hit have been collected when the schedule promise resolves. -/

namespace PriceFeed.Schedulers

open PriceFeed.Library

namespace HistoricalProcess

/-- The promise resolves, where any call was rate limited, only after each of these was
followed by a reload that still rolled its cycle back, and all cycles have been run
again since the last reload. No call is rate limited later. -/
def Replays (options : HistoricalOptions) (process : HistoricalProcess) : HistoricalEvent → Prop
  | .callEnds _ outcome => outcome = .rateLimited → process.resolved = false
  | .resolves run => (∀ call ∈ process.calls, call.outcome ≠ some .rateLimited) ∨
    process.unreplayed = [] ∧ process.cycleCounter = options.totalCycles ∧
      run + 1 = process.runs.length
  | event => process.Orderly event

instance (options : HistoricalOptions) (process : HistoricalProcess) :
    DecidablePred (process.Replays options)
  | .callEnds _ outcome =>
    inferInstanceAs (Decidable (outcome = .rateLimited → process.resolved = false))
  | .resolves run =>
    inferInstanceAs (Decidable ((∀ call ∈ process.calls, call.outcome ≠ some .rateLimited) ∨
      process.unreplayed = [] ∧ process.cycleCounter = options.totalCycles ∧
        run + 1 = process.runs.length))
  | .passes time => inferInstanceAs (Decidable (process.Orderly (.passes time)))
  | .ticks cron => inferInstanceAs (Decidable (process.Orderly (.ticks cron)))
  | .clusterFires timer => inferInstanceAs (Decidable (process.Orderly (.clusterFires timer)))
  | .batchFires timer => inferInstanceAs (Decidable (process.Orderly (.batchFires timer)))
  | .operationFires timer => inferInstanceAs (Decidable (process.Orderly (.operationFires timer)))
  | .backoffProcessed multiplier =>
    inferInstanceAs (Decidable (process.Orderly (.backoffProcessed multiplier)))
  | .reloadStops multiplier => inferInstanceAs (Decidable (process.Orderly (.reloadStops multiplier)))
  | .starts dynamicConfig firstTick =>
    inferInstanceAs (Decidable (process.Orderly (.starts dynamicConfig firstTick)))

/-- Every minute was handed, for each operation, to a call that has not been rate limited. -/
def WithoutHole (options : HistoricalOptions) (process : HistoricalProcess) : Prop :=
  ∀ minute, options.collectionStartDate ≤ minute → minute < options.collectionEndDate →
    minute % millisecondsInAMinute = 0 → ∀ operation < options.operations,
      ∃ call ∈ process.calls, call.operation = operation ∧ call.intervalStart ≤ minute ∧
        minute + millisecondsInAMinute ≤ call.intervalEnd ∧ call.outcome ≠ some .rateLimited

def Collected (options : HistoricalOptions) (process : HistoricalProcess) (cycle : ℕ) : Prop :=
  ∀ operation < options.operations, ∃ call ∈ process.calls,
    process.cycleOf call.run = some cycle ∧ call.operation = operation ∧
      call.outcome ≠ some .rateLimited

/-- A rate limited call below the counter waits for its reload, or its cycle was run again. -/
def Tracked (process : HistoricalProcess) : Prop :=
  ∀ call ∈ process.calls, call.outcome = some .rateLimited →
    ∀ cycle < process.cycleCounter, process.cycleOf call.run = some cycle →
      cycle ∈ process.unreplayed ∨ ∃ later, call.run < later ∧ process.cycleOf later = some cycle

structure Replayed (options : HistoricalOptions) (process : HistoricalProcess) : Prop where
  sound : process.CycleSound options
  tracked : process.Tracked
  collected : process.resolved = true → ∀ cycle < options.totalCycles, process.Collected options cycle

variable {options : HistoricalOptions} {process next : HistoricalProcess}

private theorem orderly_of_replays {event : HistoricalEvent} (replays : process.Replays options event) :
    process.Orderly event := by
  cases event with
  | callEnds => trivial
  | resolves => trivial
  | _ => exact replays

theorem Tracked.keep (tracked : process.Tracked) (calls : next.calls = process.calls)
    (runs : next.runs = process.runs) (counter : next.cycleCounter = process.cycleCounter)
    (unreplayed : next.unreplayed = process.unreplayed) : next.Tracked := by
  simpa only [Tracked, cycleOf, calls, runs, counter, unreplayed] using tracked

/-- A cycle that is run again is tracked by its new run. -/
theorem Tracked.nextRun (tracked : process.Tracked) (sound : process.CycleSound options) {cycle : ℕ}
    (nextRun : NextRun options process next cycle) : next.Tracked := by
  intro call member limited other below known
  rw [nextRun.calls] at member
  rw [nextRun.unreplayed]
  obtain ⟨own, old, _⟩ := sound.calls call member
  have inside := run_lt_length old
  have before : process.cycleOf call.run = some other :=
    (nextRun.cycleOf_iff.mp known).resolve_right fun new => by omega
  by_cases again : other = cycle
  · exact .inr ⟨process.runs.length, inside, nextRun.cycleOf_iff.mpr (.inr ⟨rfl, again.symm⟩)⟩
  · rw [nextRun.counter] at below
    have reached := nextRun.reached
    rcases tracked call member limited other (by omega) before with waits | ⟨later, after, same⟩
    · exact .inl waits
    · exact .inr ⟨later, after, nextRun.cycleOf_iff.mpr (.inl same)⟩

theorem Tracked.startOperation (tracked : process.Tracked) (timer : OperationTimer) :
    (process.startOperation timer).Tracked := by
  intro call member limited
  rcases List.mem_append.mp member with old | new
  · exact tracked call old limited
  · obtain rfl := List.mem_singleton.mp new
    cases limited

theorem Tracked.endCall (tracked : process.Tracked) {index : ℕ} {call : OperationCall}
    (outcome : CallOutcome) : (process.endCall index call outcome).Tracked := by
  intro other member limited cycle below known
  rw [endCall_calls] at member
  cases outcome with
  | finished =>
    rcases List.mem_or_eq_of_mem_set member with old | rfl
    · exact tracked other old limited cycle below known
    · cases limited
  | rateLimited =>
    rcases List.mem_or_eq_of_mem_set member with old | rfl
    · rcases tracked other old limited cycle below known with waits | later
      · exact .inl (List.mem_append_left _ waits)
      · exact .inr later
    · refine .inl (List.mem_append_right _ ?_)
      have own : process.cycleOf call.run = some cycle := known
      simp [own]

/-- What a reload rolls back over waits no more, and what it does not still waits. -/
theorem Tracked.stopForReload (tracked : process.Tracked) {multiplier : Option ℚ}
    (taken : process.stopForReload options multiplier = some next) : next.Tracked := by
  obtain ⟨destroyed, _, rfl⟩ := stopForReload_some taken
  intro call member limited cycle below known
  have before : cycle < process.cycleCounter := by
    simp only [backoffCycles] at below
    omega
  rcases tracked call member limited cycle before known with waits | later
  · exact .inl (List.mem_filter.mpr ⟨waits, decide_eq_true below⟩)
  · exact .inr later

theorem Collected.mono {cycle : ℕ} (collected : process.Collected options cycle)
    (runs : ∀ run, process.cycleOf run = some cycle → next.cycleOf run = some cycle)
    (calls : ∀ call ∈ process.calls, call.outcome ≠ some .rateLimited → ∃ later ∈ next.calls,
      later.run = call.run ∧ later.operation = call.operation ∧ later.outcome ≠ some .rateLimited) :
    next.Collected options cycle := by
  intro operation within
  obtain ⟨call, member, known, position, good⟩ := collected operation within
  obtain ⟨later, present, run, same, still⟩ := calls call member good
  exact ⟨later, present, run ▸ runs call.run known, same.trans position, still⟩

/-- What has been started and not rate limited is collected. -/
theorem collected_of_started {run cycle : ℕ} (known : process.cycleOf run = some cycle)
    (started : ∀ operation < options.operations, process.Started run operation)
    (good : ∀ call ∈ process.calls, call.run = run → call.outcome ≠ some .rateLimited) :
    process.Collected options cycle := by
  intro operation within
  obtain ⟨call, member, same, position⟩ := started operation within
  exact ⟨call, member, same ▸ known, position, good call member same⟩

namespace Replayed

variable (replayed : process.Replayed options)

include replayed

/-- A step that changes no run, no call and not the counter. -/
theorem keep (sound : next.CycleSound options) (calls : next.calls = process.calls)
    (runs : next.runs = process.runs) (counter : next.cycleCounter = process.cycleCounter)
    (unreplayed : next.unreplayed = process.unreplayed)
    (resolved : next.resolved = process.resolved) : next.Replayed options where
  sound := sound
  tracked := replayed.tracked.keep calls runs counter unreplayed
  collected := by
    rw [resolved]
    simpa only [Collected, cycleOf, calls, runs] using replayed.collected

/-- When the newest run ends and the counter is back at the end, every operation of
the newest run of a cycle has started. -/
private theorem started_of_ended {run : ℕ} {operationsRun : OperationsRun}
    (found : process.runs[run]? = some operationsRun) (lastCycle : operationsRun.lastCycle = true)
    (ended : process.RunEnded options run) (full : process.cycleCounter = options.totalCycles)
    (newest : run + 1 = process.runs.length) {cycle : ℕ} (inside : cycle < options.totalCycles) :
    ∃ latest, process.LatestRun cycle latest ∧
      ∀ operation < options.operations, process.Started latest operation := by
  obtain ⟨latest, isLatest, begun⟩ := replayed.sound.covered cycle (full ▸ inside)
  refine ⟨latest, isLatest, fun operation within => ?_⟩
  rcases begun operation within with started | ⟨timer, waits, of, _⟩
  · exact started
  · -- only the last cycle can still wait, and its newest run is the one that ended
    obtain ⟨waiting, counter, known, _⟩ := replayed.sound.waiting timer waits
    obtain ⟨final, _⟩ := replayed.sound.last run operationsRun found lastCycle
    rw [of, isLatest.known] at known
    obtain rfl := Option.some.inj known
    have here : process.cycleOf run = some cycle := by
      rw [cycleOf, found]
      exact congrArg some (by omega)
    have bound := run_lt_length isLatest.known
    have same : latest = run := by
      by_contra apart
      exact isLatest.latest run (by omega) here
    obtain ⟨call, member, own, position, _⟩ := ended operation within
    exact ⟨call, member, own.trans same.symm, position⟩

theorem resolves {run : ℕ} {operationsRun : OperationsRun}
    (found : process.runs[run]? = some operationsRun) (lastCycle : operationsRun.lastCycle = true)
    (ended : process.RunEnded options run)
    (sound : { process with resolved := true }.CycleSound options)
    (replays : process.Replays options (.resolves run)) :
    { process with resolved := true }.Replayed options where
  sound := sound
  tracked := replayed.tracked.keep rfl rfl rfl rfl
  collected _ cycle inside := by
    rcases replays with none | ⟨replayedAll, full, newest⟩
    · obtain ⟨own, known, started⟩ := sound.resolved rfl cycle inside
      exact collected_of_started known started fun call member _ => none call member
    · obtain ⟨latest, isLatest, started⟩ :=
        replayed.started_of_ended found lastCycle ended full newest inside
      refine collected_of_started isLatest.known started fun call member of limited => ?_
      rcases replayed.tracked call member limited cycle (full ▸ inside) (of ▸ isLatest.known) with
        waits | ⟨later, after, same⟩
      · rw [replayedAll] at waits
        cases waits
      · exact isLatest.latest later (of ▸ after) same

theorem endCall {index : ℕ} {call : OperationCall} (outcome : CallOutcome)
    (sound : (process.endCall index call outcome).CycleSound options)
    (found : process.calls[index]? = some call)
    (replays : process.Replays options (.callEnds index outcome)) :
    (process.endCall index call outcome).Replayed options where
  sound := sound
  tracked := replayed.tracked.endCall outcome
  collected resolved cycle inside := by
    cases outcome with
    | rateLimited =>
      have unresolved : process.resolved = false := replays rfl
      exact absurd (unresolved.symm.trans resolved) (by simp)
    | finished =>
      refine (replayed.collected resolved cycle inside).mono (fun _ known => known) ?_
      intro other member good
      obtain ⟨position, held⟩ := List.mem_iff_getElem?.mp member
      rw [endCall_calls]
      by_cases here : position = index
      · subst here
        obtain rfl : call = other := Option.some.inj (found.symm.trans held)
        refine ⟨_, List.mem_set (List.getElem?_eq_some_iff.mp held).1 _, rfl, rfl, by simp⟩
      · exact ⟨other, List.mem_of_getElem? ((List.getElem?_set_ne (Ne.symm here)).trans held),
          rfl, rfl, good⟩

theorem stopForReload {multiplier : Option ℚ} (sound : next.CycleSound options)
    (taken : process.stopForReload options multiplier = some next) : next.Replayed options := by
  refine ⟨sound, replayed.tracked.stopForReload taken, ?_⟩
  obtain ⟨destroyed, _, rfl⟩ := stopForReload_some taken
  exact replayed.collected

end Replayed

private theorem replayed_step (cycles : 0 < options.totalCycles) (backoff : 1 ≤ options.reloadCyclesBackoff)
    (replayed : process.Replayed options) {event : HistoricalEvent}
    (replays : process.Replays options event)
    (taken : process.step options event = some next) : next.Replayed options := by
  have orderly := orderly_of_replays replays
  have sound := cycleSound_step cycles backoff replayed.sound orderly taken
  cases event with
  | passes | ticks | clusterFires =>
    obtain ⟨_, rfl⟩ := enabled taken
    exact replayed.keep sound rfl rfl rfl rfl rfl
  | batchFires timer =>
    obtain ⟨due, rfl⟩ := enabled taken
    have created := replayed.sound.held.created_of_live (.inr (.inr due.1))
    obtain ⟨cycle, nextRun⟩ := replayed.sound.nextRun cycles created orderly timer
    refine ⟨sound, replayed.tracked.nextRun replayed.sound nextRun, ?_⟩
    rw [nextRun.resolved]
    intro resolved other inside
    refine (replayed.collected resolved other inside).mono ?_ ?_
    · exact fun run known => nextRun.cycleOf_iff.mpr (.inl known)
    · rw [nextRun.calls]
      exact fun call member good => ⟨call, member, rfl, rfl, good⟩
  | operationFires timer =>
    obtain ⟨_, rfl⟩ := enabled taken
    refine ⟨sound, replayed.tracked.startOperation timer, fun resolved cycle inside => ?_⟩
    refine (replayed.collected resolved cycle inside).mono (fun _ known => known) ?_
    exact fun call member good => ⟨call, List.mem_append_left _ member, rfl, rfl, good⟩
  | callEnds index outcome =>
    simp only [step] at taken
    split at taken
    · next call found =>
      split at taken
      · cases taken
        exact replayed.endCall outcome sound found replays
      · cases taken
    · cases taken
  | resolves run =>
    simp only [step] at taken
    split at taken
    · next operationsRun found =>
      split at taken
      · next ended =>
        cases taken
        exact replayed.resolves found ended.1 ended.2 sound replays
      · cases taken
    · cases taken
  | backoffProcessed multiplier =>
    simp only [step] at taken
    split at taken
    · split at taken
      · have received : { process with
            broadcasts := process.broadcasts.erase multiplier }.Replayed options :=
          replayed.keep (replayed.sound.keep replayed.sound.held replayed.sound.stopped rfl
            (sameCalls_of_eq rfl) rfl rfl rfl rfl rfl replayed.sound.resolved) rfl rfl rfl rfl rfl
        exact received.stopForReload sound taken
      · cases taken
        exact replayed.keep sound rfl rfl rfl rfl rfl
    · cases taken
  | reloadStops multiplier => exact replayed.stopForReload sound taken
  | starts dynamicConfig firstTick =>
    simp only [step] at taken
    split at taken
    · split at taken
      · cases taken
        exact replayed.keep sound rfl rfl rfl rfl rfl
      · cases taken
    · cases taken

private theorem replayed_initial (cycles : 0 < options.totalCycles) (scheduler : Scheduler) :
    (initial scheduler).Replayed options where
  sound := cycleSound_initial cycles scheduler
  tracked call member := by cases member
  collected resolved := by cases resolved

/-- No minute stays without a call that was not rate limited, in every run in which the
reloads come in time and the schedule resolves after their replays. -/
theorem resolved_withoutHole {scheduler : Scheduler} {events : List HistoricalEvent}
    (minutes : 1 ≤ options.totalMinutes) (limit : 1 ≤ options.operationLimit)
    (backoff : 1 ≤ options.reloadCyclesBackoff)
    (run : Run (step options) (initial scheduler) events process)
    (replays : Throughout (step options) (Replays options) (initial scheduler) events)
    (resolved : process.resolved = true) : process.WithoutHole options := by
  have cycles := HistoricalOptions.totalCycles_pos limit minutes
  have replayed : process.Replayed options := run.invariant_throughout
    (fun replayed replays taken => replayed_step cycles backoff replayed replays taken) replays
    (replayed_initial cycles scheduler)
  intro minute after before whole operation within
  obtain ⟨index, inside, rfl⟩ := HistoricalOptions.exists_minute minutes after before whole
  obtain ⟨cycle, known, opens, closes⟩ := HistoricalOptions.exists_cycle limit inside
  obtain ⟨call, member, of, position, good⟩ := replayed.collected resolved cycle known operation within
  obtain ⟨own, _, held, first, last⟩ := replayed.sound.handed member
  obtain rfl : cycle = own := Option.some.inj (of.symm.trans held)
  exact ⟨call, member, position, first ▸ opens,
    by rw [HistoricalOptions.minuteStart_add, last]; exact closes, good⟩

/-- The operation of the last cycle is rate limited, and the promise resolves. -/
def limitedLastCycle : List HistoricalEvent :=
  [.starts {} 1000, .passes 1000, .ticks 0, .clusterFires 1, .batchFires 2,
    .operationFires ⟨3, 0⟩, .callEnds 0 .finished, .passes 2000, .ticks 0, .clusterFires 4,
    .batchFires 5, .operationFires ⟨6, 0⟩, .callEnds 1 .rateLimited, .resolves 1]

theorem limitedLastCycle_runs :
    (execute (step threeMinutes) (initial soleScheduler) limitedLastCycle).isSome := by
  decide +kernel

def afterLimitedLastCycle : HistoricalProcess :=
  (execute (step threeMinutes) (initial soleScheduler) limitedLastCycle).get limitedLastCycle_runs

/-- The third minute was handed to one call only, which was rate limited. -/
theorem limitedLastCycle_leavesHole : ¬ ∀ (options : HistoricalOptions) (scheduler : Scheduler)
    (events : List HistoricalEvent) (process : HistoricalProcess),
    1 ≤ options.totalMinutes → 1 ≤ options.operationLimit → 1 ≤ options.reloadCyclesBackoff →
      Run (step options) (initial scheduler) events process → process.resolved = true →
        process.WithoutHole options := by
  intro always
  have filled := always threeMinutes soleScheduler limitedLastCycle afterLimitedLastCycle
    (by decide +kernel) (by decide) (by decide)
    (run_iff_execute.mpr (Option.some_get limitedLastCycle_runs).symm) (by decide +kernel)
  obtain ⟨call, member, _, starts, ends, good⟩ := filled 120000 (by decide +kernel)
    (by decide +kernel) (by decide +kernel) 0 (by decide)
  have hole : ∀ call ∈ afterLimitedLastCycle.calls, call.intervalStart ≤ 120000 →
      120000 + (millisecondsInAMinute : ℤ) ≤ call.intervalEnd →
        call.outcome = some .rateLimited := by decide +kernel
  exact good (hole call member starts ends)

/-- The first cycle is rate limited, and runs again at the doubled rate limit. -/
def replayedFirstCycle : List HistoricalEvent :=
  [.starts {} 1000, .passes 1000, .ticks 0, .clusterFires 1, .batchFires 2,
    .operationFires ⟨3, 0⟩, .callEnds 0 .rateLimited, .backoffProcessed 2,
    .starts { rateLimitMultiplier := some 2, clusterMembers := some [⟨2000, .self⟩] } 4000,
    .passes 4000, .ticks 4, .clusterFires 5, .batchFires 6, .operationFires ⟨7, 0⟩,
    .callEnds 1 .finished, .passes 6000, .ticks 4, .clusterFires 8, .batchFires 9,
    .operationFires ⟨10, 0⟩, .callEnds 2 .finished, .resolves 2]

theorem replayedFirstCycle_runs :
    (execute (step threeMinutes) (initial soleScheduler) replayedFirstCycle).isSome := by
  decide +kernel

theorem resolved_withoutHole_replayedFirstCycle :
    ((execute (step threeMinutes) (initial soleScheduler) replayedFirstCycle).get
      replayedFirstCycle_runs).WithoutHole threeMinutes :=
  resolved_withoutHole (by decide +kernel) (by decide) (by decide)
    (run_iff_execute.mpr (Option.some_get replayedFirstCycle_runs).symm) (by decide +kernel)
    (by decide +kernel)

end HistoricalProcess

end PriceFeed.Schedulers
