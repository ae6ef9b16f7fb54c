import PriceFeed.Discovery.SlotValidity

/-! Runs of a group: when every configuration its replicas adopt is a valid slot. -/

namespace PriceFeed.Discovery

open PriceFeed.Library PriceFeed.Schedulers

/-- Every configuration passed to a markets manager so far is a valid slot. -/
def Network.AllValid (network : Network) : Prop :=
  ∀ entry ∈ network.passed, ValidSlot entry.2

/-- The condition on a step: a first STATUS buffer holds the own report, and a
CLOSE leaves the own entries in the adopted lists. -/
def Network.KeepsOwn (network : Network) : Event → Prop
  | .statusElapsed index => (network.nodes index).OwnStatusBuffered
  | .handleClose index => (network.nodes index).CloseKeepsOwn
  | _ => True

namespace Network

theorem allValid_handled (network : Network) (index : ℕ) (outcome : Node × Option DynamicConfig) :
    (network.handled index outcome).AllValid ↔
      network.AllValid ∧ ∀ config ∈ outcome.2, ValidSlot config := by
  simp only [AllValid, handled, List.mem_append, List.mem_map, Option.mem_toList]
  constructor
  · intro valid
    exact ⟨fun entry member => valid entry (.inl member),
      fun config passed => valid (index, config) (.inr ⟨config, passed, rfl⟩)⟩
  · rintro ⟨earlier, now⟩ entry (member | ⟨config, passed, rfl⟩)
    · exact earlier entry member
    · exact now config passed

variable (collation : Collation)

private theorem passed_step {network next : Network} {event : Event}
    (taken : network.step collation event = some next)
    (quiet : ∀ index, event ≠ .statusElapsed index ∧ event ≠ .handleShare index ∧
      event ≠ .handleClose index) : next.passed = network.passed := by
  cases event with
  | statusElapsed index => exact absurd rfl (quiet index).1
  | handleShare index => exact absurd rfl (quiet index).2.1
  | handleClose index => exact absurd rfl (quiet index).2.2
  | _ =>
    simp only [Network.step] at taken
    repeat' split at taken
    all_goals cases taken
    all_goals rfl

private theorem allValid_step_iff {network next : Network} (sound : network.Sound) {event : Event}
    (taken : network.step collation event = some next) :
    next.AllValid ↔ network.AllValid ∧ network.KeepsOwn event := by
  cases event with
  | statusElapsed index =>
    simp only [Network.step] at taken
    split at taken
    · cases taken
      refine (allValid_handled ..).trans (and_congr_right fun _ => ?_)
      exact handleStatusMessage_valid_iff collation _
    · cases taken
  | handleShare index =>
    simp only [Network.step] at taken
    split at taken
    · cases taken
    · cases taken
      refine (allValid_handled ..).trans (and_congr_right fun _ => ?_)
      have waiting : Node.Follows network.issued (network.nodes index) { network.nodes index with
          waitingShares := (network.nodes index).waitingShares - 1 } := .rearm rfl rfl rfl rfl
      exact iff_of_true (handleShareMessage_valid collation sound.distinct
        (waiting.heard (sound.nodes index))) trivial
  | handleClose index =>
    simp only [Network.step] at taken
    split at taken
    · cases taken
    · cases taken
      refine (allValid_handled ..).trans (and_congr_right fun _ => ?_)
      exact handleCloseMessage_valid_iff collation (sound.foreign index)
  | _ =>
    have same := passed_step collation taken (by simp)
    simp [AllValid, KeepsOwn, same]

/-- In every run of a group of any size, with any order, delay and repetition of messages, any
moments at which the buffers fire and any reconnects, all configurations passed to the markets
managers are valid slots exactly when each first STATUS buffer that fires holds the own report
under the present address and each CLOSE handler leaves the own entries in the adopted lists. -/
theorem adoptedSlots_valid_iff (identity : ℕ → String) (scheduler : ℕ → Scheduler)
    {events : List Event} {network : Network}
    (ran : Run (Network.step collation) (initial identity scheduler) events network) :
    network.AllValid ↔
      Throughout (Network.step collation) KeepsOwn (initial identity scheduler) events := by
  have start : (initial identity scheduler).AllValid := by simp [AllValid, initial]
  have exactly : network.AllValid ↔ (initial identity scheduler).AllValid ∧
      Throughout (Network.step collation) KeepsOwn (initial identity scheduler) events :=
    ran.keeps_iff (fun sound taken => Sound.step collation sound taken)
      (fun sound taken => allValid_step_iff collation sound taken) (.initial identity scheduler)
  rw [exactly, and_iff_right start]

end Network

/-- Two replicas of one identity: the first discovers both, loses its connection
and comes back on a new queue; then the second closes. -/
def reconnectBeforeClose : List Event :=
  [.assertQueue 0 "q1", .setupConsumer 0, .assertQueue 1 "q2", .setupConsumer 1,
    .broadcastHello 0, .receive 0 0, .receive 1 0, .receive 0 1, .receive 0 2,
    .statusElapsed 0, .broadcastShare 0 0,
    .connectionLost 0, .assertQueue 0 "q3", .setupConsumer 0,
    .channelTeardown 1, .receive 0 4, .closeElapsed 0, .handleClose 0]

def krakenGroup : Network :=
  .initial (fun _ => "kraken") fun _ =>
    { baseRateLimit := 1000, rateLimitMargin := 0, queueSize := 1, operations := 1 }

theorem reconnect_runs :
    (execute (Network.step .ascii) krakenGroup reconnectBeforeClose).isSome := by decide +kernel

/-- The group after the CLOSE has been handled. -/
def reconnected : Network :=
  (execute (Network.step .ascii) krakenGroup reconnectBeforeClose).get reconnect_runs

theorem run_reconnected : Run (Network.step .ascii) krakenGroup reconnectBeforeClose reconnected :=
  run_iff_execute.mpr (Option.some_get reconnect_runs).symm

/-- The adopted list knows the first replica by its former queue only, so its position is -1. -/
theorem adoptedSlots_negative : ¬ ∀ (collation : Collation) (identity : ℕ → String)
    (scheduler : ℕ → Scheduler) (events : List Event) (network : Network),
    Run (Network.step collation) (.initial identity scheduler) events network →
      network.AllValid := by
  intro always
  have valid := always .ascii _ _ reconnectBeforeClose reconnected run_reconnected
  have negative : ∃ entry ∈ reconnected.passed, entry.2.instancePosition = some (-1) := by
    decide +kernel
  obtain ⟨entry, passed, position⟩ := negative
  obtain ⟨size, _, inside⟩ := (valid entry passed).position _ position
  omega

theorem adoptedSlots_valid_iff_reconnected :
    reconnected.AllValid ↔
      Throughout (Network.step .ascii) Network.KeepsOwn krakenGroup reconnectBeforeClose :=
  Network.adoptedSlots_valid_iff .ascii _ _ run_reconnected

end PriceFeed.Discovery
