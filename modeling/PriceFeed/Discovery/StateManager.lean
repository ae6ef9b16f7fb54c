import PriceFeed.Discovery.Reducers

/-! `ReplicaStateManager`: every operation runs the reducers in turn and merges
their partial results, whose keys never collide. -/

namespace PriceFeed.Discovery

open PriceFeed.Library PriceFeed.Schedulers

namespace Replica

def getSenderCredentials (replica : Replica) : Credentials := ⟨replica.address, replica.identity⟩

def getCurrentState (replica : Replica) : StatusData :=
  { rateLimitMultiplier := replica.internalScheduler.rateLimitMultiplier
    clusterMemberInterval := replica.internalScheduler.getIntervalSize }

/-- The answer to a HELLO message. -/
def statusMessage (replica : Replica) : StatusMessage :=
  ⟨replica.getSenderCredentials, replica.getCurrentState⟩

variable (collation : Collation)

/-- The lists of a first STATUS buffer are adopted at once. -/
def aggregateState (replica : Replica) (buffer : List StatusMessage) : Replica × ReplicaState :=
  let replicaMembers := ReplicaMembersReducer.aggregateState replica.identity buffer
  let clusterMembers := ClusterMembersReducer.aggregateState collation buffer
  ({ replica with
      replicaMembers := replica.replicaMembers <|> some replicaMembers
      clusterMembers := replica.clusterMembers <|> some clusterMembers },
    { replicaMembers := some replicaMembers
      rateLimitMultiplier := RateLimitReducer.aggregateState buffer
      clusterMembers := some clusterMembers })

def normalizeState (replica : Replica) (state : ReplicaState) : Except StateError DynamicConfig := do
  let positions := ReplicaMembersReducer.normalizeState replica.address state.replicaMembers
  let limits := RateLimitReducer.normalizeState state.rateLimitMultiplier
  let members ← ClusterMembersReducer.normalizeState collation replica.identity state.clusterMembers
  return { replicaSize := positions.replicaSize
           instancePosition := positions.instancePosition
           rateLimitMultiplier := limits.rateLimitMultiplier
           clusterMembers := members.clusterMembers }

def sanitizeShareState (replica : Replica) (state : ReplicaState) : ReplicaState :=
  { replicaMembers := ReplicaMembersReducer.sanitizeShareState replica.address state.replicaMembers
    rateLimitMultiplier := RateLimitReducer.sanitizeShareState
      replica.internalScheduler.rateLimitMultiplier state.rateLimitMultiplier
    clusterMembers := ClusterMembersReducer.sanitizeShareState replica.address state.clusterMembers }

def aggregateShareState (replica : Replica) (buffer : List ShareMessage) : ReplicaState :=
  replica.sanitizeShareState
    { replicaMembers := ReplicaMembersReducer.aggregateShareState replica.identity buffer
      rateLimitMultiplier := RateLimitReducer.aggregateShareState buffer
      clusterMembers := some (ClusterMembersReducer.aggregateShareState collation buffer) }

def shouldReload (replica : Replica) (state : ReplicaState) : Bool :=
  ReplicaMembersReducer.shouldReload replica.replicaMembers state.replicaMembers ||
    RateLimitReducer.shouldReload replica.internalScheduler.rateLimitMultiplier
      state.rateLimitMultiplier ||
    ClusterMembersReducer.shouldReload replica.clusterMembers state.clusterMembers

/-- The rate limit reducer keeps no list of its own, so nothing of it is updated. -/
def updateState (replica : Replica) (state : ReplicaState) : Replica :=
  { replica with
    replicaMembers := ReplicaMembersReducer.updateState replica.replicaMembers state.replicaMembers
    clusterMembers := ClusterMembersReducer.updateState replica.clusterMembers state.clusterMembers }

/-- The reducers write their lists before the next one runs, so a throw of the
second leaves the first list filtered. -/
def aggregateCloseState (replica : Replica) (buffer : List Credentials) :
    Replica × Except StateError ReplicaState :=
  match ReplicaMembersReducer.aggregateCloseState replica.identity replica.replicaMembers buffer with
  | .error error => (replica, .error error)
  | .ok replicaMembers =>
    let narrowed := { replica with replicaMembers := some replicaMembers }
    match ClusterMembersReducer.aggregateCloseState replica.clusterMembers buffer with
    | .error error => (narrowed, .error error)
    | .ok clusterMembers =>
      ({ narrowed with clusterMembers := some clusterMembers },
        .ok { replicaMembers := some replicaMembers, clusterMembers := some clusterMembers })

end Replica

end PriceFeed.Discovery
