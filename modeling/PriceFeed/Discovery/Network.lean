import Mathlib.Logic.Function.Basic
import PriceFeed.Discovery.StateManager
import PriceFeed.Library.Runs

/-! `ReplicaDiscoveryPolicy` on every replica of a group: the private queues and
their reconnects, the messages at the broker, the debounced buffers, and the
configurations the handlers pass to their markets manager. -/

namespace PriceFeed.Discovery

open PriceFeed.Library PriceFeed.Schedulers

/-- `MessageBuffer`: the messages since the last use, and whether its debounce timer is armed. -/
structure MessageBuffer (Message : Type) where
  messages : List Message := []
  armed : Bool := false
  deriving DecidableEq, Repr

namespace MessageBuffer

def addMessage (buffer : MessageBuffer Message) (message : Message) : MessageBuffer Message :=
  ⟨buffer.messages ++ [message], true⟩

/-- The timer runs out and calls the handler. -/
def elapsed (buffer : MessageBuffer Message) : MessageBuffer Message :=
  { buffer with armed := false }

/-- What stays after `useBuffer` has handed the messages out. -/
def cleanBuffer (buffer : MessageBuffer Message) : MessageBuffer Message :=
  { buffer with messages := [] }

end MessageBuffer

/-- The private queue: never configured, asserted but not consumed yet, consumed, or lost. -/
inductive Link where
  | idle
  | asserted
  | consuming
  | down
  deriving DecidableEq, Repr

/-- The policy of one replica. `waitingShares` and `waitingCloses` count handlers
called by their timers that wait for the phase mutex, and `starting` holds the
states of STATUS handlers that await the start of their markets. -/
structure Node where
  replica : Replica
  link : Link := .idle
  statusMessageBuffer : MessageBuffer StatusMessage := {}
  shareMessageBuffer : MessageBuffer ShareMessage := {}
  closeMessageBuffer : MessageBuffer Credentials := {}
  waitingShares : ℕ := 0
  waitingCloses : ℕ := 0
  hasStarted : Bool := false
  starting : List ReplicaState := []
  deriving DecidableEq, Repr

/-- A message at the broker. A STATUS goes to one queue, the others to all. -/
inductive Message where
  | hello (sender : Credentials)
  | status (target : String) (message : StatusMessage)
  | share (message : ShareMessage)
  | close (sender : Credentials)
  deriving DecidableEq, Repr

/-- The payload of a SHARE message. -/
def ReplicaState.share? (state : ReplicaState) (sender : Credentials) : Option ShareMessage := do
  let replicaMembers ← state.replicaMembers
  let rateLimitMultiplier ← state.rateLimitMultiplier
  let clusterMembers ← state.clusterMembers
  return ⟨sender, replicaMembers, rateLimitMultiplier, clusterMembers⟩

namespace Node

variable (collation : Collation)

/-- `process` of a message that goes into a buffer. -/
def bufferMessage (node : Node) : Message → Node
  | .hello _ => node
  | .status _ message =>
    { node with statusMessageBuffer := node.statusMessageBuffer.addMessage message }
  | .share message => { node with shareMessageBuffer := node.shareMessageBuffer.addMessage message }
  | .close sender => { node with closeMessageBuffer := node.closeMessageBuffer.addMessage sender }

/-- `handleHelloMessage`: the answer goes to the sender's queue. -/
def answer (node : Node) : Message → Option Message
  | .hello sender => some (.status sender.address node.replica.statusMessage)
  | _ => none

/-- `handleStatusMessage` up to the call of `MarketsManager.start`, with the
configuration of that call. -/
def handleStatusMessage (node : Node) : Node × Option DynamicConfig :=
  let (replica, status) := node.replica.aggregateState collation node.statusMessageBuffer.messages
  let used := { node with
    replica := replica
    statusMessageBuffer := node.statusMessageBuffer.elapsed.cleanBuffer }
  let awaiting := { used with starting := used.starting ++ [status] }
  if node.hasStarted then (awaiting, none)
  else
    match replica.normalizeState collation status with
    | .error _ => (used, none)
    | .ok config => (awaiting, some config)

/-- The locked part of `handleShareMessage`. A throw of `normalizeState` comes
after the lists have been updated. -/
def handleShareMessage (node : Node) : Node × Option DynamicConfig :=
  let state := node.replica.aggregateShareState collation node.shareMessageBuffer.messages
  let used := { node with shareMessageBuffer := node.shareMessageBuffer.cleanBuffer }
  if node.replica.shouldReload state then
    let replica := node.replica.updateState state
    ({ used with replica := replica }, (replica.normalizeState collation state).toOption)
  else (used, none)

/-- The locked part of `handleCloseMessage`, which checks nothing before it reloads. -/
def handleCloseMessage (node : Node) : Node × Option DynamicConfig :=
  let (replica, result) := node.replica.aggregateCloseState node.closeMessageBuffer.messages
  let used := { node with
    replica := replica, closeMessageBuffer := node.closeMessageBuffer.cleanBuffer }
  match result with
  | .error _ => (used, none)
  | .ok state => (used, (replica.normalizeState collation state).toOption)

/-- The queue takes a message that is meant for it. -/
def Accepts (node : Node) (message : Message) : Prop :=
  node.link = .consuming ∧
    match message with
    | .status target _ => target = node.replica.address
    | _ => True

instance (node : Node) (message : Message) : Decidable (node.Accepts message) := by
  unfold Accepts
  cases message <;> exact inferInstance

end Node

/-- All replicas and the broker. `sent` keeps every message, so that it may arrive
late, out of order, or again through the retry queue; `issued` holds the
credentials handed out so far, and `passed` the configurations passed to
`MarketsManager.start` and `MarketsManager.reloadActive`. -/
structure Network where
  nodes : ℕ → Node
  sent : List Message := []
  issued : List Credentials := []
  passed : List (ℕ × DynamicConfig) := []

/-- What can happen next. The markets manager applies configurations and backs off
at its own pace, so `reconfigured` puts any scheduler in place. -/
inductive Event where
  | assertQueue (index : ℕ) (address : String)
  | setupConsumer (index : ℕ)
  | connectionLost (index : ℕ)
  | broadcastHello (index : ℕ)
  | receive (index : ℕ) (position : ℕ)
  | statusElapsed (index : ℕ)
  | broadcastShare (index : ℕ) (position : ℕ)
  | startFailed (index : ℕ) (position : ℕ)
  | shareElapsed (index : ℕ)
  | handleShare (index : ℕ)
  | closeElapsed (index : ℕ)
  | handleClose (index : ℕ)
  | channelTeardown (index : ℕ)
  | reconfigured (index : ℕ) (scheduler : Scheduler)
  deriving DecidableEq, Repr

namespace Network

def initial (identity : ℕ → String) (scheduler : ℕ → Scheduler) : Network where
  nodes index := { replica := ⟨"", identity index, scheduler index, none, none⟩ }

def setNode (network : Network) (index : ℕ) (node : Node) : Network :=
  { network with nodes := Function.update network.nodes index node }

def send (network : Network) (messages : List Message) : Network :=
  { network with sent := network.sent ++ messages }

/-- A handler's outcome: the new node and the configuration it passed on. -/
def handled (network : Network) (index : ℕ) (outcome : Node × Option DynamicConfig) : Network :=
  { network.setNode index outcome.1 with
    passed := network.passed ++ outcome.2.toList.map fun config => (index, config) }

variable (collation : Collation)

def step (network : Network) : Event → Option Network
  | .assertQueue index address =>
    let node := network.nodes index
    -- The broker is asked for 32 random bytes, which no earlier queue had.
    if address ∈ network.issued.map Credentials.address then none
    else
      let replica := { node.replica with address := address }
      some { network.setNode index { node with replica := replica, link := .asserted } with
        issued := network.issued ++ [replica.getSenderCredentials] }
  | .setupConsumer index =>
    let node := network.nodes index
    if node.link = .asserted then some (network.setNode index { node with link := .consuming })
    else none
  | .connectionLost index =>
    let node := network.nodes index
    if node.link = .idle then none else some (network.setNode index { node with link := .down })
  | .broadcastHello index =>
    let node := network.nodes index
    if node.link = .idle then none
    else some (network.send [.hello node.replica.getSenderCredentials])
  | .receive index position =>
    let node := network.nodes index
    match network.sent[position]? with
    | none => none
    | some message =>
      if node.Accepts message then
        some ((network.setNode index (node.bufferMessage message)).send (node.answer message).toList)
      else none
  | .statusElapsed index =>
    let node := network.nodes index
    if node.statusMessageBuffer.armed then
      some (network.handled index (node.handleStatusMessage collation))
    else none
  | .broadcastShare index position =>
    let node := network.nodes index
    match node.starting[position]? with
    | none => none
    | some status =>
      let started := { node with hasStarted := true, starting := node.starting.eraseIdx position }
      some ((network.setNode index started).send
        ((status.share? node.replica.getSenderCredentials).map Message.share).toList)
  | .startFailed index position =>
    let node := network.nodes index
    some (network.setNode index { node with starting := node.starting.eraseIdx position })
  | .shareElapsed index =>
    let node := network.nodes index
    if node.shareMessageBuffer.armed then
      some (network.setNode index { node with
        shareMessageBuffer := node.shareMessageBuffer.elapsed
        waitingShares := node.waitingShares + 1 })
    else none
  | .handleShare index =>
    let node := network.nodes index
    if node.waitingShares = 0 then none
    else some (network.handled index
      ({ node with waitingShares := node.waitingShares - 1 }.handleShareMessage collation))
  | .closeElapsed index =>
    let node := network.nodes index
    if node.closeMessageBuffer.armed then
      some (network.setNode index { node with
        closeMessageBuffer := node.closeMessageBuffer.elapsed
        waitingCloses := node.waitingCloses + 1 })
    else none
  | .handleClose index =>
    let node := network.nodes index
    if node.waitingCloses = 0 then none
    else some (network.handled index
      ({ node with waitingCloses := node.waitingCloses - 1 }.handleCloseMessage collation))
  | .channelTeardown index =>
    let node := network.nodes index
    if node.link = .consuming then
      some ((network.setNode index { node with link := .down }).send
        [.close node.replica.getSenderCredentials])
    else none
  | .reconfigured index scheduler =>
    let node := network.nodes index
    some (network.setNode index
      { node with replica := { node.replica with internalScheduler := scheduler } })

end Network

end PriceFeed.Discovery
