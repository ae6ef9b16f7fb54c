import PriceFeed.Discovery.Network

/-! CLOSE handlers: what a replica must have adopted before one of them runs, and
which earlier steps of the run adopt it. -/

namespace PriceFeed.Discovery

open PriceFeed.Library PriceFeed.Schedulers

variable (collation : Collation)

/-- What the locked part of `handleCloseMessage` computes for `reloadActive`, or throws. -/
def Node.closeConfig (node : Node) : Except StateError DynamicConfig :=
  let (replica, result) := node.replica.aggregateCloseState node.closeMessageBuffer.messages
  match result with
  | .error error => .error error
  | .ok state => replica.normalizeState collation state

/-- The handler passes on what `closeConfig` computes. -/
theorem Node.handleCloseMessage_config (node : Node) :
    (node.handleCloseMessage collation).2 = (node.closeConfig collation).toOption := by
  unfold handleCloseMessage closeConfig
  cases node.replica.aggregateCloseState node.closeMessageBuffer.messages with
  | mk replica result =>
    cases result with
    | error error => rfl
    | ok state => rfl

private theorem Node.closeConfig_ok_iff (node : Node) :
    (∃ config, node.closeConfig collation = .ok config) ↔
      node.replica.replicaMembers ≠ none ∧ node.replica.clusterMembers ≠ none := by
  cases replicas : node.replica.replicaMembers with
  | none => simp [closeConfig, Replica.aggregateCloseState, ReplicaMembersReducer.aggregateCloseState, replicas]
  | some addresses =>
    cases members : node.replica.clusterMembers with
    | none =>
      simp [closeConfig, Replica.aggregateCloseState, ReplicaMembersReducer.aggregateCloseState,
        ClusterMembersReducer.aggregateCloseState, replicas, members]
    | some reports =>
      simp [closeConfig, Replica.aggregateCloseState, ReplicaMembersReducer.aggregateCloseState,
        ClusterMembersReducer.aggregateCloseState, Replica.normalizeState,
        ClusterMembersReducer.normalizeState, replicas, members, bind, Except.bind, pure, Except.pure]

namespace Network

/-- Every CLOSE handler of the run completes. -/
def ClosesComplete (start : Network) (events : List Event) : Prop :=
  ∀ before index after network, events = before ++ .handleClose index :: after →
    Run (Network.step collation) start before network →
      ∃ config, (network.nodes index).closeConfig collation = .ok config

/-- The SHARE buffer of a replica, as its handler aggregates it. -/
def shareState (network : Network) (index : ℕ) : ReplicaState :=
  let node := network.nodes index
  node.replica.aggregateShareState collation node.shareMessageBuffer.messages

/-- A STATUS buffer is aggregated, or a SHARE buffer whose last message of the own
identity lists the replica. -/
def AdoptsReplicaMembers (index : ℕ) (network : Network) : Event → Prop
  | .statusElapsed other => other = index
  | .handleShare other => other = index ∧ (network.shareState collation index).replicaMembers ≠ none
  | _ => False

/-- A STATUS buffer is aggregated, or a SHARE buffer whose merged members hold the replica. -/
def AdoptsClusterMembers (index : ℕ) (network : Network) : Event → Prop
  | .statusElapsed other => other = index
  | .handleShare other => other = index ∧ (network.shareState collation index).clusterMembers ≠ none
  | _ => False

variable {network next : Network} {event : Event} {index : ℕ}

private theorem handleStatusMessage_adopts (node : Node) :
    (node.handleStatusMessage collation).1.replica.replicaMembers ≠ none ∧
      (node.handleStatusMessage collation).1.replica.clusterMembers ≠ none := by
  have replica : (node.handleStatusMessage collation).1.replica =
      (node.replica.aggregateState collation node.statusMessageBuffer.messages).1 := by
    simp only [Node.handleStatusMessage]
    split
    · rfl
    · split <;> rfl
  rw [replica]
  cases node.replica.replicaMembers <;> cases node.replica.clusterMembers <;>
    simp [Replica.aggregateState]

private theorem handleShareMessage_adopts_iff (node : Node) :
    ((node.handleShareMessage collation).1.replica.replicaMembers ≠ none ↔
      node.replica.replicaMembers ≠ none ∨ (node.replica.aggregateShareState collation
        node.shareMessageBuffer.messages).replicaMembers ≠ none) ∧
    ((node.handleShareMessage collation).1.replica.clusterMembers ≠ none ↔
      node.replica.clusterMembers ≠ none ∨ (node.replica.aggregateShareState collation
        node.shareMessageBuffer.messages).clusterMembers ≠ none) := by
  generalize aggregated : node.replica.aggregateShareState collation
    node.shareMessageBuffer.messages = state
  by_cases reloads : node.replica.shouldReload state = true
  · have replica : (node.handleShareMessage collation).1.replica = node.replica.updateState state := by
      simp only [Node.handleShareMessage, aggregated, if_pos reloads]
    rw [replica]
    cases replicas : state.replicaMembers <;> cases members : state.clusterMembers <;>
      simp [Replica.updateState, ReplicaMembersReducer.updateState,
        ClusterMembersReducer.updateState, replicas, members]
  · have replica : (node.handleShareMessage collation).1.replica = node.replica := by
      simp only [Node.handleShareMessage, aggregated, if_neg reloads]
    rw [replica]
    -- without a vote, a list that is there is the adopted one
    simp only [Replica.shouldReload, ReplicaMembersReducer.shouldReload,
      ClusterMembersReducer.shouldReload, Bool.or_eq_true, Bool.and_eq_true, decide_eq_true_eq,
      not_or, not_and, not_not, Option.isSome_iff_ne_none] at reloads
    obtain ⟨⟨replicas, _⟩, members⟩ := reloads
    constructor
    · exact ⟨.inl, fun known => known.elim id fun present => replicas present ▸ present⟩
    · exact ⟨.inl, fun known => known.elim id fun present => members present ▸ present⟩

private theorem handleCloseMessage_adopts_iff (node : Node) :
    ((node.handleCloseMessage collation).1.replica.replicaMembers ≠ none ↔
      node.replica.replicaMembers ≠ none) ∧
    ((node.handleCloseMessage collation).1.replica.clusterMembers ≠ none ↔
      node.replica.clusterMembers ≠ none) := by
  have replica : (node.handleCloseMessage collation).1.replica =
      (node.replica.aggregateCloseState node.closeMessageBuffer.messages).1 := by
    simp only [Node.handleCloseMessage]
    split <;> rfl
  rw [replica]
  cases replicas : node.replica.replicaMembers with
  | none =>
    simp [Replica.aggregateCloseState, ReplicaMembersReducer.aggregateCloseState, replicas]
  | some addresses =>
    cases members : node.replica.clusterMembers with
    | none =>
      simp [Replica.aggregateCloseState, ReplicaMembersReducer.aggregateCloseState,
        ClusterMembersReducer.aggregateCloseState, replicas, members]
    | some reports =>
      simp [Replica.aggregateCloseState, ReplicaMembersReducer.aggregateCloseState,
        ClusterMembersReducer.aggregateCloseState, replicas, members]

variable {collation}

/-- What a replica has adopted. -/
def adoptedLists (replica : Replica) : Option (List String) × Option (List MemberReport) :=
  (replica.replicaMembers, replica.clusterMembers)

theorem adoptedLists_setNode {other : ℕ} {node : Node}
    (same : adoptedLists node.replica = adoptedLists (network.nodes other).replica) :
    adoptedLists ((network.setNode other node).nodes index).replica =
      adoptedLists (network.nodes index).replica := by
  by_cases here : index = other
  · subst here
    simpa only [setNode, Function.update_self] using same
  · simp only [setNode, Function.update_of_ne here]

private theorem adoptedLists_step (taken : network.step collation event = some next)
    (quiet : event ≠ .statusElapsed index ∧ event ≠ .handleShare index ∧ event ≠ .handleClose index) :
    adoptedLists (next.nodes index).replica = adoptedLists (network.nodes index).replica := by
  obtain ⟨status, share, close⟩ := quiet
  have elsewhere : ∀ (other : ℕ) (node : Node), index ≠ other →
      (network.setNode other node).nodes index = network.nodes index := by
    intro other node apart
    simp only [setNode, Function.update_of_ne apart]
  cases event with
  | statusElapsed other =>
    obtain ⟨_, rfl⟩ := enabled taken
    exact congrArg _ (congrArg _ (elsewhere other _ fun here => status (here ▸ rfl)))
  | handleShare other =>
    simp only [Network.step] at taken
    split at taken
    · cases taken
    · cases taken
      exact congrArg _ (congrArg _ (elsewhere other _ fun here => share (here ▸ rfl)))
  | handleClose other =>
    simp only [Network.step] at taken
    split at taken
    · cases taken
    · cases taken
      exact congrArg _ (congrArg _ (elsewhere other _ fun here => close (here ▸ rfl)))
  | receive other position =>
    simp only [Network.step] at taken
    split at taken
    · cases taken
    · next message _ =>
      obtain ⟨_, rfl⟩ := enabled taken
      cases message <;> exact adoptedLists_setNode rfl
  | broadcastHello other =>
    simp only [Network.step] at taken
    split at taken
    · cases taken
    · cases taken
      rfl
  | _ =>
    simp only [Network.step] at taken
    repeat' split at taken
    all_goals cases taken
    all_goals exact adoptedLists_setNode rfl

theorem handled_self (node : Node × Option DynamicConfig) :
    (network.handled index node).nodes index = node.1 := Function.update_self ..

theorem adopts_step_iff (taken : network.step collation event = some next) :
    ((next.nodes index).replica.replicaMembers ≠ none ↔
      (network.nodes index).replica.replicaMembers ≠ none ∨
        network.AdoptsReplicaMembers collation index event) ∧
    ((next.nodes index).replica.clusterMembers ≠ none ↔
      (network.nodes index).replica.clusterMembers ≠ none ∨
        network.AdoptsClusterMembers collation index event) := by
  by_cases status : event = .statusElapsed index
  · subst status
    obtain ⟨_, rfl⟩ := enabled taken
    rw [handled_self]
    obtain ⟨replicas, members⟩ := handleStatusMessage_adopts collation (network.nodes index)
    exact ⟨iff_of_true replicas (.inr rfl), iff_of_true members (.inr rfl)⟩
  by_cases share : event = .handleShare index
  · subst share
    simp only [Network.step] at taken
    split at taken
    · cases taken
    · cases taken
      rw [handled_self]
      simpa [AdoptsReplicaMembers, AdoptsClusterMembers, shareState] using
        handleShareMessage_adopts_iff collation { network.nodes index with
          waitingShares := (network.nodes index).waitingShares - 1 }
  by_cases close : event = .handleClose index
  · subst close
    simp only [Network.step] at taken
    split at taken
    · cases taken
    · cases taken
      rw [handled_self]
      simpa [AdoptsReplicaMembers, AdoptsClusterMembers] using
        handleCloseMessage_adopts_iff collation { network.nodes index with
          waitingCloses := (network.nodes index).waitingCloses - 1 }
  have same := adoptedLists_step taken ⟨status, share, close⟩
  obtain ⟨replicas, members⟩ := Prod.mk.inj same
  have never : ¬ network.AdoptsReplicaMembers collation index event ∧
      ¬ network.AdoptsClusterMembers collation index event := by
    cases event with
    | statusElapsed other =>
      exact ⟨fun here => status (here ▸ rfl), fun here => status (here ▸ rfl)⟩
    | handleShare other =>
      exact ⟨fun here => share (here.1 ▸ rfl), fun here => share (here.1 ▸ rfl)⟩
    | _ => exact ⟨id, id⟩
  simp [replicas, members, never]

/-- A CLOSE handler completes exactly when its replica adopted both lists earlier in the run. -/
theorem closeHandling_completes_iff (identity : ℕ → String) (scheduler : ℕ → Scheduler)
    {events : List Event} {last : Network}
    (ran : Run (Network.step collation) (initial identity scheduler) events last) :
    ClosesComplete collation (initial identity scheduler) events ↔
      ∀ before index after, events = before ++ .handleClose index :: after →
        Sometime (Network.step collation) (AdoptsReplicaMembers collation index)
          (initial identity scheduler) before ∧
        Sometime (Network.step collation) (AdoptsClusterMembers collation index)
          (initial identity scheduler) before := by
  have known : ∀ {before network}, Run (Network.step collation) (initial identity scheduler) before network →
      ∀ index, (∃ config, (network.nodes index).closeConfig collation = .ok config) ↔
        Sometime (Network.step collation) (AdoptsReplicaMembers collation index)
          (initial identity scheduler) before ∧
        Sometime (Network.step collation) (AdoptsClusterMembers collation index)
          (initial identity scheduler) before := by
    intro before network reached index
    have replicas := reached.reached_iff (fun state =>
      (state.nodes index).replica.replicaMembers ≠ none) fun taken => (adopts_step_iff taken).1
    have members := reached.reached_iff (fun state =>
      (state.nodes index).replica.clusterMembers ≠ none) fun taken => (adopts_step_iff taken).2
    rw [Node.closeConfig_ok_iff, replicas, members]
    simp [initial]
  constructor
  · intro completes before index after split
    rw [split] at ran
    obtain ⟨network, reached, _⟩ := run_append_iff.mp ran
    exact (known reached index).mp (completes before index after network split reached)
  · intro adopted before index after network split reached
    exact (known reached index).mpr (adopted before index after split)

end Network

/-- The second exchange closes before the first has aggregated any STATUS. -/
def closeBeforeStatus : List Event :=
  [.assertQueue 0 "q1", .setupConsumer 0, .assertQueue 1 "q2", .setupConsumer 1,
    .channelTeardown 1, .receive 0 0, .closeElapsed 0, .handleClose 0]

def twoExchanges : Network :=
  .initial (fun index => if index = 0 then "kraken" else "binance") fun _ =>
    { baseRateLimit := 1000, rateLimitMargin := 0, queueSize := 1, operations := 1 }

theorem closeBeforeStatus_runs :
    (execute (Network.step .ascii) twoExchanges closeBeforeStatus).isSome := by decide +kernel

theorem run_closeBeforeStatus : Run (Network.step .ascii) twoExchanges closeBeforeStatus
    ((execute (Network.step .ascii) twoExchanges closeBeforeStatus).get closeBeforeStatus_runs) :=
  run_iff_execute.mpr (Option.some_get closeBeforeStatus_runs).symm

/-- The lists are still `null` when the handler filters them. -/
theorem closeHandling_throws : ¬ ∀ (collation : Collation) (identity : ℕ → String)
    (scheduler : ℕ → Scheduler) (events : List Event) (last : Network),
    Run (Network.step collation) (.initial identity scheduler) events last →
      Network.ClosesComplete collation (.initial identity scheduler) events := by
  intro always
  have completes := always .ascii _ _ closeBeforeStatus _ run_closeBeforeStatus
  obtain ⟨network, reached, _⟩ := run_append_iff.mp
    (show Run (Network.step .ascii) twoExchanges (closeBeforeStatus.dropLast ++ [.handleClose 0]) _
      from run_closeBeforeStatus)
  obtain ⟨config, closes⟩ := completes closeBeforeStatus.dropLast 0 [] network rfl reached
  have throws : ∀ network ∈ execute (Network.step .ascii) twoExchanges closeBeforeStatus.dropLast,
      (network.nodes 0).closeConfig .ascii = .error .membersNotAdopted := by decide +kernel
  rw [throws network (run_iff_execute.mp reached)] at closes
  cases closes

theorem closeHandling_completes_iff_closeBeforeStatus :
    Network.ClosesComplete .ascii twoExchanges closeBeforeStatus ↔
      ∀ before index after, closeBeforeStatus = before ++ .handleClose index :: after →
        Sometime (Network.step .ascii) (Network.AdoptsReplicaMembers .ascii index)
          twoExchanges before ∧
        Sometime (Network.step .ascii) (Network.AdoptsClusterMembers .ascii index)
          twoExchanges before :=
  Network.closeHandling_completes_iff _ _ run_closeBeforeStatus

end PriceFeed.Discovery
