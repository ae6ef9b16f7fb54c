import PriceFeed.Discovery.Exchange
import PriceFeed.Discovery.ShareMerge

/-! A SHARE buffer from the vote it gives to the reload: which votes can be carried out,
and what the same messages do once more. -/

namespace PriceFeed.Discovery

open PriceFeed.Library PriceFeed.Schedulers

namespace Replica

variable (collation : Collation)

/-- The locked part of `handleShareMessage` up to `reloadActive`: the replica, and the configuration
of that call if there is a vote, or what is thrown. -/
def shareConfig (replica : Replica) (buffer : List ShareMessage) :
    Replica × Except StateError (Option DynamicConfig) :=
  let state := replica.aggregateShareState collation buffer
  if replica.shouldReload state then
    let updated := replica.updateState state
    (updated, (updated.normalizeState collation state).map some)
  else (replica, .ok none)

/-- The handler with its reload, if nothing throws. -/
def applyShares (replica : Replica) (buffer : List ShareMessage) : Option Replica :=
  match replica.shareConfig collation buffer with
  | (updated, .ok config) => updated.configure config
  | (_, .error _) => none

end Replica

section Handler

variable (collation : Collation)

/-- The handler of a node passes on what `shareConfig` computes. -/
private theorem Node.handleShareMessage_shareConfig (node : Node) :
    (node.handleShareMessage collation).1.replica =
        (node.replica.shareConfig collation node.shareMessageBuffer.messages).1 ∧
      (node.handleShareMessage collation).2 =
        (node.replica.shareConfig collation node.shareMessageBuffer.messages).2.toOption.join := by
  simp only [Node.handleShareMessage, Replica.shareConfig]
  split
  · refine ⟨rfl, ?_⟩
    dsimp only
    cases (node.replica.updateState _).normalizeState collation _ <;> rfl
  · exact ⟨rfl, rfl⟩

/-- A buffer whose reload is applied is handled like any other. -/
theorem Replica.handleShares_of_applyShares {replica after : Replica} {buffer : List ShareMessage}
    (applied : replica.applyShares collation buffer = some after) :
    replica.handleShares collation buffer = some after := by
  obtain ⟨same, passed⟩ := Node.handleShareMessage_shareConfig collation
    { replica := replica, shareMessageBuffer := ⟨buffer, false⟩ }
  rw [Replica.handleShares]
  dsimp only
  rw [same, passed]
  rw [Replica.applyShares] at applied
  cases outcome : replica.shareConfig collation buffer with
  | mk updated result =>
    rw [outcome] at applied
    cases result with
    | ok config => exact applied
    | error error => cases applied

end Handler

section Votes

variable (collation : Collation) (replica : Replica) (buffer : List ShareMessage)

/-- A vote can be carried out, and what cannot leaves the adopted lists alone. -/
structure VoteCarriedOut : Prop where
  normalizes : replica.shouldReload (replica.aggregateShareState collation buffer) = true →
    ∃ config, replica.normalizeState collation (replica.aggregateShareState collation buffer) = .ok config
  unchanged : ∀ error, (replica.shareConfig collation buffer).2 = .error error →
    (replica.shareConfig collation buffer).1.adopted = replica.adopted

/-- Some message lists the replica in its cluster. -/
def ListedInCluster : Prop :=
  ∃ message ∈ buffer, ∃ member ∈ message.data.clusterMembers, member.address = replica.address

/-- The last list of the own identity has the replica and is not the adopted one. -/
def MembersVote : Prop :=
  ∃ members ∈ lastMembers replica.identity buffer,
    replica.address ∈ members ∧ some members ≠ replica.replicaMembers

/-- The largest multiplier of the messages is above the current one, and not zero. -/
def MultiplierVotes : Prop :=
  ∃ message ∈ buffer,
    (∀ other ∈ buffer, other.data.rateLimitMultiplier ≤ message.data.rateLimitMultiplier) ∧
      multiplierOf replica < message.data.rateLimitMultiplier ∧ message.data.rateLimitMultiplier ≠ 0

variable {collation replica buffer}

private theorem membersVote_iff : ReplicaMembersReducer.shouldReload replica.replicaMembers
      (replica.aggregateShareState collation buffer).replicaMembers = true ↔ MembersVote replica buffer := by
  rw [MembersVote, Replica.aggregateShareState, Replica.sanitizeShareState]
  dsimp only
  change ReplicaMembersReducer.shouldReload replica.replicaMembers (ReplicaMembersReducer.sanitizeShareState
    replica.address (lastMembers replica.identity buffer)) = true ↔ _
  cases lastMembers replica.identity buffer with
  | none => simp [ReplicaMembersReducer.shouldReload, ReplicaMembersReducer.sanitizeShareState]
  | some members =>
    by_cases listed : replica.address ∈ members
    · simp [ReplicaMembersReducer.shouldReload, ReplicaMembersReducer.sanitizeShareState, Option.filter,
        listed]
    · simp [ReplicaMembersReducer.shouldReload, ReplicaMembersReducer.sanitizeShareState, Option.filter, listed]

theorem multiplierVotes_iff : RateLimitReducer.shouldReload replica.internalScheduler.rateLimitMultiplier
      (replica.aggregateShareState collation buffer).rateLimitMultiplier = true ↔ MultiplierVotes replica buffer := by
  rw [MultiplierVotes, Replica.aggregateShareState, Replica.sanitizeShareState]
  dsimp only
  cases largest : RateLimitReducer.aggregateShareState buffer with
  | none =>
    have silent := List.map_eq_nil_iff.mp (List.max?_eq_none_iff.mp largest)
    simp [RateLimitReducer.shouldReload, RateLimitReducer.sanitizeShareState, silent]
  | some multiplier =>
    obtain ⟨reported, bound⟩ := List.max?_eq_some_iff.mp largest
    obtain ⟨message, sent, rfl⟩ := List.mem_map.mp reported
    have votes : RateLimitReducer.shouldReload replica.internalScheduler.rateLimitMultiplier
        (RateLimitReducer.sanitizeShareState replica.internalScheduler.rateLimitMultiplier
          (some message.data.rateLimitMultiplier)) = true ↔
        multiplierOf replica < message.data.rateLimitMultiplier ∧ message.data.rateLimitMultiplier ≠ 0 := by
      by_cases above : replica.internalScheduler.rateLimitMultiplier < message.data.rateLimitMultiplier
      · simp [RateLimitReducer.shouldReload, RateLimitReducer.sanitizeShareState, Option.filter, multiplierOf, above]
      · simp [RateLimitReducer.shouldReload, RateLimitReducer.sanitizeShareState, Option.filter, multiplierOf, above]
    rw [votes]
    constructor
    · intro own
      exact ⟨message, sent, fun other among => bound _ (List.mem_map_of_mem among), own⟩
    · rintro ⟨other, among, above, own⟩
      have same : other.data.rateLimitMultiplier = message.data.rateLimitMultiplier :=
        le_antisymm (bound _ (List.mem_map_of_mem among)) (above message sent)
      rwa [same] at own

theorem clusterMembers_isSome_iff :
    (replica.aggregateShareState collation buffer).clusterMembers.isSome ↔ ListedInCluster replica buffer := by
  rw [ListedInCluster, ← mem_addresses_aggregateShareState collation, Replica.aggregateShareState,
    Replica.sanitizeShareState]
  dsimp only
  rw [ClusterMembersReducer.sanitizeShareState, Option.isSome_filter]
  simp

theorem normalizeState_ok_iff {state : ReplicaState} :
    (∃ config, replica.normalizeState collation state = .ok config) ↔ state.clusterMembers.isSome := by
  cases listed : state.clusterMembers with
  | none => simp [Replica.normalizeState, listed, ClusterMembersReducer.normalizeState, bind, Except.bind]
  | some reports =>
    simp [Replica.normalizeState, listed, ClusterMembersReducer.normalizeState_some, bind, Except.bind, pure,
      Except.pure]

theorem shouldReload_iff : replica.shouldReload (replica.aggregateShareState collation buffer) = true ↔
    MembersVote replica buffer ∨ MultiplierVotes replica buffer ∨
      ClusterMembersReducer.shouldReload replica.clusterMembers
        (replica.aggregateShareState collation buffer).clusterMembers = true := by
  rw [Replica.shouldReload, Bool.or_eq_true, Bool.or_eq_true, membersVote_iff, multiplierVotes_iff, or_assoc]

private theorem shareConfig_of_normalizes (normalizes : replica.shouldReload (replica.aggregateShareState collation buffer) =
      true → ∃ config, replica.normalizeState collation (replica.aggregateShareState collation buffer) = .ok config) :
    ∃ config, (replica.shareConfig collation buffer).2 = .ok config := by
  rw [Replica.shareConfig]
  dsimp only
  split
  · next votes =>
    obtain ⟨config, passed⟩ := normalizes votes
    have updated : (replica.updateState (replica.aggregateShareState collation buffer)).normalizeState collation
        (replica.aggregateShareState collation buffer) = .ok config := passed
    exact ⟨some config, by rw [updated]; rfl⟩
  · exact ⟨none, rfl⟩

/-- Every vote can be carried out when some message lists the replica in its cluster, or when
neither of the other reducers votes. -/
theorem voteCarriedOut_iff (collation : Collation) (replica : Replica) (buffer : List ShareMessage) :
    VoteCarriedOut collation replica buffer ↔
      ListedInCluster replica buffer ∨ ¬ MembersVote replica buffer ∧ ¬ MultiplierVotes replica buffer := by
  constructor
  · intro carried
    rw [← not_or, ← imp_iff_or_not]
    intro votes
    have reload : replica.shouldReload (replica.aggregateShareState collation buffer) = true := by
      rw [shouldReload_iff, ← or_assoc]
      exact .inl votes
    exact clusterMembers_isSome_iff.mp (normalizeState_ok_iff.mp (carried.normalizes reload))
  · intro condition
    have normalizes : replica.shouldReload (replica.aggregateShareState collation buffer) = true →
        ∃ config, replica.normalizeState collation (replica.aggregateShareState collation buffer) = .ok config := by
      intro reload
      rw [normalizeState_ok_iff]
      rcases condition with listed | ⟨members, multiplier⟩
      · exact clusterMembers_isSome_iff.mpr listed
      · rcases shouldReload_iff.mp reload with vote | vote | vote
        · exact absurd vote members
        · exact absurd vote multiplier
        · exact (Bool.and_eq_true_iff.mp vote).1
    refine ⟨normalizes, fun error thrown => ?_⟩
    obtain ⟨config, passed⟩ := shareConfig_of_normalizes normalizes
    rw [passed] at thrown
    cases thrown

section Stranger

/-- A share of an exchange that has met no replica of the identity `kraken` yet, with a greater multiplier. -/
def strangerShare : ShareMessage := ⟨⟨"q9", "binance"⟩, ["q9"], 2, [⟨"q9", "binance", 1000⟩]⟩

/-- A share of the own identity whose cluster leaves out the replica that its members have. -/
def partialShare : ShareMessage := ⟨⟨"q2", "kraken"⟩, ["q1", "q2", "q3"], 1, [⟨"q2", "kraken", 1000⟩]⟩

/-- The multiplier votes, and the configuration throws. In the second buffer the list of the
replica has already been replaced then. -/
theorem stranger_vote_throws :
    (knownPair "q1").shouldReload ((knownPair "q1").aggregateShareState .ascii [strangerShare]) = true ∧
      ((knownPair "q1").shareConfig .ascii [strangerShare]).2 = .error .clusterMembersUndefined ∧
      ((knownPair "q1").shareConfig .ascii [partialShare]).2 = .error .clusterMembersUndefined ∧
      ((knownPair "q1").shareConfig .ascii [partialShare]).1.adopted ≠ (knownPair "q1").adopted ∧
      ¬ VoteCarriedOut .ascii (knownPair "q1") [strangerShare] := by
  have votes : (knownPair "q1").shouldReload ((knownPair "q1").aggregateShareState .ascii [strangerShare]) =
      true := by
    decide +kernel
  refine ⟨votes, by decide +kernel, by decide +kernel, by decide +kernel, fun carried => ?_⟩
  obtain ⟨config, passed⟩ := carried.normalizes votes
  have throws : (knownPair "q1").normalizeState .ascii
      ((knownPair "q1").aggregateShareState .ascii [strangerShare]) = .error .clusterMembersUndefined := by
    decide +kernel
  rw [throws] at passed
  cases passed

end Stranger

end Votes

section Again

variable {collation : Collation} {replica after : Replica} {buffer : List ShareMessage}

/-- What a reload has made of a replica. -/
structure Reloaded (replica after : Replica) (state : ReplicaState) : Prop where
  credentials : after.getSenderCredentials = replica.getSenderCredentials
  replicaMembers : after.replicaMembers = (state.replicaMembers <|> replica.replicaMembers)
  clusterMembers : after.clusterMembers = (state.clusterMembers <|> replica.clusterMembers)
  multiplier : multiplierOf after =
    (state.rateLimitMultiplier.filter fun multiplier => multiplier ≠ 0).getD (multiplierOf replica)

/-- The multiplier is the only field of a scheduler that a normalised state sets and a vote compares. -/
private theorem multiplier_of_normalizeState {state : ReplicaState} {config : DynamicConfig}
    (passed : replica.normalizeState collation state = .ok config) :
    config.rateLimitMultiplier = state.rateLimitMultiplier.filter fun multiplier => multiplier ≠ 0 := by
  cases listed : state.clusterMembers with
  | none => simp [Replica.normalizeState, listed, ClusterMembersReducer.normalizeState, bind, Except.bind] at passed
  | some reports =>
    rw [Replica.normalizeState, listed, ClusterMembersReducer.normalizeState_some] at passed
    cases passed
    rfl

private theorem configure_ok {config : DynamicConfig} (configured : replica.configure (some config) = some after) :
    ∃ scheduler, after = { replica with internalScheduler := scheduler } ∧
      scheduler.rateLimitMultiplier =
        config.rateLimitMultiplier.getD replica.internalScheduler.rateLimitMultiplier := by
  rw [Replica.configure] at configured
  cases success : replica.internalScheduler.setDynamicConfig config with
  | error error => simp [success, Except.toOption] at configured
  | ok scheduler =>
    rw [success] at configured
    cases configured
    refine ⟨scheduler, rfl, ?_⟩
    rw [Scheduler.setDynamicConfig_ok success]
    rfl

private theorem applyShares_cases (applied : replica.applyShares collation buffer = some after) :
    Reloaded replica after (replica.aggregateShareState collation buffer) ∨
      replica.shouldReload (replica.aggregateShareState collation buffer) = false ∧ after = replica := by
  rw [Replica.applyShares, Replica.shareConfig] at applied
  dsimp only at applied
  by_cases votes : replica.shouldReload (replica.aggregateShareState collation buffer) = true
  · left
    rw [if_pos votes] at applied
    generalize replica.aggregateShareState collation buffer = state at *
    cases passed : (replica.updateState state).normalizeState collation state with
    | error error =>
      rw [passed] at applied
      cases applied
    | ok config =>
      rw [passed] at applied
      obtain ⟨scheduler, rfl, multiplier⟩ := configure_ok applied
      rw [multiplier_of_normalizeState passed] at multiplier
      exact ⟨rfl, rfl, rfl, multiplier⟩
  · right
    rw [if_neg votes] at applied
    exact ⟨by simpa using votes, (Option.some.inj applied).symm⟩

/-- The lists of a reloaded replica are those of the buffer, and its multiplier is the largest
it has met, so the same messages find nothing to vote for. -/
theorem Reloaded.shouldReload (reloaded : Reloaded replica after (replica.aggregateShareState collation buffer)) :
    after.shouldReload (after.aggregateShareState collation buffer) = false := by
  obtain ⟨credentials, replicaMembers, clusterMembers, multiplier⟩ := reloaded
  simp only [Replica.getSenderCredentials, Credentials.mk.injEq] at credentials
  have members : (after.aggregateShareState collation buffer).replicaMembers =
      (replica.aggregateShareState collation buffer).replicaMembers := by
    simp only [Replica.aggregateShareState, Replica.sanitizeShareState, credentials]
  have cluster : (after.aggregateShareState collation buffer).clusterMembers =
      (replica.aggregateShareState collation buffer).clusterMembers := by
    simp only [Replica.aggregateShareState, Replica.sanitizeShareState, credentials]
  have listsKept : ReplicaMembersReducer.shouldReload after.replicaMembers
      (after.aggregateShareState collation buffer).replicaMembers = false := by
    rw [members, replicaMembers]
    cases (replica.aggregateShareState collation buffer).replicaMembers <;>
      simp [ReplicaMembersReducer.shouldReload]
  have clusterKept : ClusterMembersReducer.shouldReload after.clusterMembers
      (after.aggregateShareState collation buffer).clusterMembers = false := by
    rw [cluster, clusterMembers]
    cases (replica.aggregateShareState collation buffer).clusterMembers <;>
      simp [ClusterMembersReducer.shouldReload]
  have reached : ¬ MultiplierVotes after buffer := by
    rintro ⟨message, sent, largest, above, nonzero⟩
    have most : RateLimitReducer.aggregateShareState buffer = some message.data.rateLimitMultiplier := by
      refine List.max?_eq_some_iff.mpr ⟨List.mem_map_of_mem sent, fun value reported => ?_⟩
      obtain ⟨other, among, rfl⟩ := List.mem_map.mp reported
      exact largest other among
    simp only [Replica.aggregateShareState, Replica.sanitizeShareState, most,
      RateLimitReducer.sanitizeShareState] at multiplier
    by_cases raised : replica.internalScheduler.rateLimitMultiplier < message.data.rateLimitMultiplier
    · simp only [Option.filter, raised, nonzero, decide_true, if_true, ne_eq,
        not_false_eq_true, Option.getD_some] at multiplier
      exact absurd above (multiplier ▸ lt_irrefl _)
    · simp only [Option.filter, raised, decide_false, Bool.false_eq_true, if_false,
        Option.getD_none] at multiplier
      exact raised (lt_of_eq_of_lt multiplier.symm above)
  rw [Replica.shouldReload, listsKept, clusterKept, Bool.or_false, Bool.false_or, ← Bool.not_eq_true,
    multiplierVotes_iff]
  exact reached

private theorem updateState_of_settled {state : ReplicaState} (settled : replica.shouldReload state = false) :
    replica.updateState state = replica := by
  simp only [Replica.shouldReload, Bool.or_eq_false_iff] at settled
  obtain ⟨⟨members, -⟩, cluster⟩ := settled
  have lists : ReplicaMembersReducer.updateState replica.replicaMembers state.replicaMembers =
      replica.replicaMembers := by
    cases listed : state.replicaMembers with
    | none => rfl
    | some list =>
      have same : some list = replica.replicaMembers := by
        simpa [ReplicaMembersReducer.shouldReload, listed] using members
      exact same
  have reports : ClusterMembersReducer.updateState replica.clusterMembers state.clusterMembers =
      replica.clusterMembers := by
    cases listed : state.clusterMembers with
    | none => rfl
    | some list =>
      have same : some list = replica.clusterMembers := by
        simpa [ClusterMembersReducer.shouldReload, listed] using cluster
      exact same
  rw [Replica.updateState, lists, reports]

/-- A buffer that has been applied is adopted: the same messages once more vote for nothing and
change nothing. -/
theorem applyShares_idempotent (applied : replica.applyShares collation buffer = some after) :
    after.shouldReload (after.aggregateShareState collation buffer) = false ∧
      after.applyShares collation buffer = some after ∧
      (after.updateState (after.aggregateShareState collation buffer)).adopted = after.adopted := by
  have settled : after.shouldReload (after.aggregateShareState collation buffer) = false := by
    rcases applyShares_cases applied with reloaded | ⟨silent, rfl⟩
    · exact reloaded.shouldReload
    · exact silent
  refine ⟨settled, ?_, ?_⟩
  · simp [Replica.applyShares, Replica.shareConfig, settled, Replica.configure]
  · rw [updateState_of_settled settled]

section TwoShares

/-- The replica once it has applied the shares of the pair, in which a third one has joined. -/
def joinedPair : Replica :=
  (((knownPair "q1").applyShares .ascii [earlyShare, lateShare])).getD (knownPair "q1")

private theorem applyShares_joinedPair :
    (knownPair "q1").applyShares .ascii [earlyShare, lateShare] = some joinedPair := by
  decide +kernel

theorem applyShares_idempotent_joinedPair :
    joinedPair.shouldReload (joinedPair.aggregateShareState .ascii [earlyShare, lateShare]) = false ∧
      joinedPair.applyShares .ascii [earlyShare, lateShare] = some joinedPair ∧
      (joinedPair.updateState (joinedPair.aggregateShareState .ascii [earlyShare, lateShare])).adopted =
        joinedPair.adopted :=
  applyShares_idempotent applyShares_joinedPair

end TwoShares

end Again

end PriceFeed.Discovery
