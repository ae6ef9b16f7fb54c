import PriceFeed.Discovery.Network

/-! What every reachable network satisfies: an address belongs to one queue for
ever, nothing circulates under credentials the broker never handed out, and a
replica never hears that its own present queue has closed. -/

namespace PriceFeed.Discovery

open PriceFeed.Library PriceFeed.Schedulers

/-- The credentials under which a member reported. -/
def MemberReport.credentials (report : MemberReport) : Credentials := ⟨report.address, report.identity⟩

/-- No two queues of the group were ever given one address. -/
def AddressesDistinct (issued : List Credentials) : Prop := (issued.map Credentials.address).Nodup

theorem AddressesDistinct.eq {issued : List Credentials} (distinct : AddressesDistinct issued)
    (present : first ∈ issued) (member : second ∈ issued) (same : first.address = second.address) :
    first = second :=
  List.inj_on_of_nodup_map distinct present member same

theorem AddressesDistinct.concat {issued : List Credentials} (distinct : AddressesDistinct issued)
    (fresh : credentials.address ∉ issued.map Credentials.address) :
    AddressesDistinct (issued ++ [credentials]) := by
  have whole := List.Nodup.concat fresh distinct
  rw [List.concat_eq_append] at whole
  simpa [AddressesDistinct] using whole

/-- The queue exists, so that messages may reach it now or once it is consumed. -/
def Link.Active (link : Link) : Prop := link = .asserted ∨ link = .consuming

def HeardReports (issued : List Credentials) (reports : List MemberReport) : Prop :=
  ∀ report ∈ reports, report.credentials ∈ issued

def ReplicaState.Heard (issued : List Credentials) (state : ReplicaState) : Prop :=
  ∀ reports ∈ state.clusterMembers, HeardReports issued reports

def Message.Heard (issued : List Credentials) : Message → Prop
  | .hello _ => True
  | .status _ message => message.sender ∈ issued
  | .share message => HeardReports issued message.data.clusterMembers
  | .close sender => sender ∈ issued

/-- What a node holds of other replicas comes from queues the broker has named. -/
structure Node.Heard (issued : List Credentials) (node : Node) : Prop where
  status : ∀ message ∈ node.statusMessageBuffer.messages, message.sender ∈ issued
  share : ∀ message ∈ node.shareMessageBuffer.messages, HeardReports issued message.data.clusterMembers
  close : ∀ sender ∈ node.closeMessageBuffer.messages, sender ∈ issued
  starting : ∀ state ∈ node.starting, state.Heard issued
  own : node.link ≠ .idle → node.replica.getSenderCredentials ∈ issued
  silent : node.link = .idle → node.shareMessageBuffer.messages = []

/-- The invariant of a run. -/
structure Network.Sound (network : Network) : Prop where
  distinct : AddressesDistinct network.issued
  nodes : ∀ index, (network.nodes index).Heard network.issued
  sent : ∀ message ∈ network.sent, message.Heard network.issued
  apart : ∀ first second, (network.nodes first).link ≠ .idle → (network.nodes second).link ≠ .idle →
    (network.nodes first).replica.address = (network.nodes second).replica.address → first = second
  closed : ∀ sender, .close sender ∈ network.sent → ∀ index, (network.nodes index).link.Active →
    (network.nodes index).replica.address ≠ sender.address
  foreign : ∀ index, ∀ sender ∈ (network.nodes index).closeMessageBuffer.messages,
    sender.address ≠ (network.nodes index).replica.address

section More

variable {issued : List Credentials} (later : List Credentials)

theorem Message.Heard.more {message : Message} (heard : message.Heard issued) :
    message.Heard (issued ++ later) := by
  cases message with
  | hello => trivial
  | status => exact List.mem_append_left later heard
  | share => exact fun report member => List.mem_append_left later (heard report member)
  | close => exact List.mem_append_left later heard

theorem Node.Heard.more {node : Node} (heard : node.Heard issued) : node.Heard (issued ++ later) where
  status message member := List.mem_append_left later (heard.status message member)
  share message member report listed :=
    List.mem_append_left later (heard.share message member report listed)
  close sender member := List.mem_append_left later (heard.close sender member)
  starting state member reports listed report present :=
    List.mem_append_left later (heard.starting state member reports listed report present)
  own joined := List.mem_append_left later (heard.own joined)
  silent := heard.silent

end More

/-- A handler leaves the queue alone and keeps what the node heard within bounds. -/
structure Node.Follows (issued : List Credentials) (before after : Node) : Prop where
  address : after.replica.address = before.replica.address
  link : after.link = before.link
  heard : before.Heard issued → after.Heard issued
  close : ∀ sender ∈ after.closeMessageBuffer.messages, sender ∈ before.closeMessageBuffer.messages

namespace Node.Follows

variable (collation : Collation) {issued : List Credentials} {node : Node}

theorem trans (first : Node.Follows issued before middle) (second : Node.Follows issued middle after) :
    Node.Follows issued before after where
  address := second.address.trans first.address
  link := second.link.trans first.link
  heard heard := second.heard (first.heard heard)
  close sender member := first.close sender (second.close sender member)

private theorem heard_aggregateState {replica : Replica} {buffer : List StatusMessage}
    (heard : ∀ message ∈ buffer, message.sender ∈ issued) :
    (replica.aggregateState collation buffer).2.Heard issued := by
  rintro reports ⟨⟩ report member
  rw [ClusterMembersReducer.aggregateState, List.mem_insertionSort] at member
  obtain ⟨message, present, rfl⟩ := List.mem_map.mp member
  exact heard message present

theorem handleStatusMessage : Node.Follows issued node (node.handleStatusMessage collation).1 := by
  have awaiting : node.Heard issued → ∀ state ∈ node.starting ++
      [(node.replica.aggregateState collation node.statusMessageBuffer.messages).2],
      state.Heard issued := by
    intro heard state member
    rcases List.mem_append.mp member with earlier | now
    · exact heard.starting state earlier
    · obtain rfl := List.mem_singleton.mp now
      exact heard_aggregateState collation heard.status
  simp only [Node.handleStatusMessage]
  split
  · exact ⟨rfl, rfl, fun heard => ⟨by simp [MessageBuffer.cleanBuffer], heard.share, heard.close,
      awaiting heard, heard.own, heard.silent⟩, fun _ member => member⟩
  · split
    · exact ⟨rfl, rfl, fun heard => ⟨by simp [MessageBuffer.cleanBuffer], heard.share, heard.close,
        heard.starting, heard.own, heard.silent⟩, fun _ member => member⟩
    · exact ⟨rfl, rfl, fun heard => ⟨by simp [MessageBuffer.cleanBuffer], heard.share, heard.close,
        awaiting heard, heard.own, heard.silent⟩, fun _ member => member⟩

theorem handleShareMessage : Node.Follows issued node (node.handleShareMessage collation).1 := by
  simp only [Node.handleShareMessage]
  split <;>
    exact ⟨rfl, rfl, fun heard => ⟨heard.status, by simp [MessageBuffer.cleanBuffer], heard.close,
      heard.starting, heard.own, fun _ => rfl⟩, fun _ member => member⟩

private theorem aggregateCloseState_address (replica : Replica) (buffer : List Credentials) :
    (replica.aggregateCloseState buffer).1.getSenderCredentials = replica.getSenderCredentials := by
  simp only [Replica.aggregateCloseState]
  split
  · rfl
  · split <;> rfl

theorem handleCloseMessage : Node.Follows issued node (node.handleCloseMessage collation).1 := by
  have same := aggregateCloseState_address node.replica node.closeMessageBuffer.messages
  simp only [Node.handleCloseMessage]
  split <;>
    exact ⟨congrArg Credentials.address same, rfl, fun heard => ⟨heard.status, heard.share,
      by simp [MessageBuffer.cleanBuffer], heard.starting, fun joined => same ▸ heard.own joined,
      heard.silent⟩, by simp [MessageBuffer.cleanBuffer]⟩

/-- Timers, waiting handlers and the scheduler say nothing about other replicas. -/
theorem rearm {before after : Node}
    (credentials : after.replica.getSenderCredentials = before.replica.getSenderCredentials)
    (link : after.link = before.link)
    (messages : (after.statusMessageBuffer.messages, after.shareMessageBuffer.messages,
        after.closeMessageBuffer.messages) =
      (before.statusMessageBuffer.messages, before.shareMessageBuffer.messages,
        before.closeMessageBuffer.messages))
    (starting : after.starting = before.starting) : Node.Follows issued before after := by
  simp only [Prod.mk.injEq] at messages
  obtain ⟨status, share, close⟩ := messages
  refine ⟨congrArg Credentials.address credentials, link, ?_, by simp [close]⟩
  intro heard
  refine ⟨?_, ?_, ?_, ?_, ?_, ?_⟩
  · rw [status]; exact heard.status
  · rw [share]; exact heard.share
  · rw [close]; exact heard.close
  · rw [starting]; exact heard.starting
  · rw [link, credentials]; exact heard.own
  · rw [link, share]; exact heard.silent

/-- A handler that stops awaiting the start. -/
theorem erase {hasStarted : Bool} {position : ℕ} : Node.Follows issued node { node with
    hasStarted := hasStarted, starting := node.starting.eraseIdx position } where
  address := rfl
  link := rfl
  heard heard := ⟨heard.status, heard.share, heard.close,
    fun state member => heard.starting state (List.mem_of_mem_eraseIdx member), heard.own, heard.silent⟩
  close _ member := member

end Node.Follows

namespace Network.Sound

/-- A step at one node that keeps its address, joins no queue to the broker, and
sends only what is known; a CLOSE it sends is its own and ends its queue. -/
theorem change {network : Network} (sound : network.Sound) (index : ℕ) {node : Node}
    {messages : List Message} {passed : List (ℕ × DynamicConfig)}
    (address : node.replica.address = (network.nodes index).replica.address)
    (active : node.link.Active → (network.nodes index).link.Active)
    (joined : node.link ≠ .idle → (network.nodes index).link ≠ .idle)
    (heard : node.Heard network.issued)
    (said : ∀ message ∈ messages, message.Heard network.issued)
    (closes : ∀ sender, .close sender ∈ messages →
      sender.address = node.replica.address ∧ (network.nodes index).link ≠ .idle ∧ ¬ node.link.Active)
    (foreign : ∀ sender ∈ node.closeMessageBuffer.messages, sender.address ≠ node.replica.address) :
    Sound { network with
      nodes := Function.update network.nodes index node
      sent := network.sent ++ messages
      passed := passed } where
  distinct := sound.distinct
  nodes other := by
    by_cases here : other = index
    · subst here
      simpa using heard
    · simpa [here] using sound.nodes other
  sent message member := by
    rcases List.mem_append.mp member with earlier | now
    · exact sound.sent message earlier
    · exact said message now
  apart first second joinedFirst joinedSecond same := by
    have before : ∀ other, (Function.update network.nodes index node other).link ≠ .idle →
        (network.nodes other).link ≠ .idle ∧
          (Function.update network.nodes index node other).replica.address =
            (network.nodes other).replica.address := by
      intro other joinedOther
      by_cases here : other = index
      · subst here
        rw [Function.update_self] at joinedOther ⊢
        exact ⟨joined joinedOther, address⟩
      · rw [Function.update_of_ne here] at joinedOther ⊢
        exact ⟨joinedOther, rfl⟩
    obtain ⟨joined₁, address₁⟩ := before first joinedFirst
    obtain ⟨joined₂, address₂⟩ := before second joinedSecond
    exact sound.apart first second joined₁ joined₂ (by rw [← address₁, ← address₂]; exact same)
  closed sender member other activeOther := by
    have before : (network.nodes other).link.Active ∧
        (Function.update network.nodes index node other).replica.address =
          (network.nodes other).replica.address := by
      by_cases here : other = index
      · subst here
        dsimp only at activeOther
        rw [Function.update_self] at activeOther ⊢
        exact ⟨active activeOther, address⟩
      · dsimp only at activeOther
        rw [Function.update_of_ne here] at activeOther ⊢
        exact ⟨activeOther, rfl⟩
    rw [before.2]
    rcases List.mem_append.mp member with earlier | now
    · exact sound.closed sender earlier other before.1
    · obtain ⟨own, wasJoined, ended⟩ := closes sender now
      intro same
      have joinedOther : (network.nodes other).link ≠ .idle := by
        rcases before.1 with link | link <;> simp [link]
      obtain rfl := sound.apart other index joinedOther wasJoined (by rw [same, own, address])
      simp only [Function.update_self] at activeOther
      exact ended activeOther
  foreign other := by
    by_cases here : other = index
    · subst here
      simpa using foreign
    · simpa [here] using sound.foreign other

/-- A handler that sends what is known and no CLOSE. -/
theorem follows {network : Network} (sound : network.Sound) {index : ℕ} {node : Node}
    {messages : List Message} {passed : List (ℕ × DynamicConfig)}
    (follows : Node.Follows network.issued (network.nodes index) node)
    (said : ∀ message ∈ messages, message.Heard network.issued)
    (open' : ∀ sender, .close sender ∉ messages) :
    Sound { network with
      nodes := Function.update network.nodes index node
      sent := network.sent ++ messages
      passed := passed } := by
  refine sound.change index follows.address ?_ ?_ (follows.heard (sound.nodes index)) said ?_ ?_
  · rw [follows.link]
    exact id
  · rw [follows.link]
    exact id
  · exact fun sender member => absurd member (open' sender)
  · intro sender buffered
    rw [follows.address]
    exact sound.foreign index sender (follows.close sender buffered)

theorem handled {network : Network} (sound : network.Sound) {index : ℕ}
    {outcome : Node × Option DynamicConfig}
    (follows : Node.Follows network.issued (network.nodes index) outcome.1) :
    (network.handled index outcome).Sound := by
  have quiet : Sound { network with
      nodes := Function.update network.nodes index outcome.1
      sent := network.sent ++ []
      passed := (network.handled index outcome).passed } := sound.follows follows (by simp) (by simp)
  rw [List.append_nil] at quiet
  exact quiet

theorem setNode {network : Network} (sound : network.Sound) {index : ℕ} {node : Node}
    (follows : Node.Follows network.issued (network.nodes index) node) :
    (network.setNode index node).Sound := by
  have quiet : (network.handled index (node, none)).Sound := sound.handled follows
  simpa [Network.handled, Network.setNode] using quiet

/-- A step that puts a node on a queue nobody had. -/
theorem assertQueue {network : Network} (sound : network.Sound) (index : ℕ) {node : Node}
    (same : node = { network.nodes index with
      replica := { (network.nodes index).replica with address := address }, link := .asserted })
    (fresh : address ∉ network.issued.map Credentials.address) :
    Sound { network with
      nodes := Function.update network.nodes index node
      issued := network.issued ++ [node.replica.getSenderCredentials] } where
  distinct := by
    subst same
    exact sound.distinct.concat fresh
  nodes other := by
    by_cases here : other = index
    · subst here same
      have heard := (sound.nodes other).more [⟨address, (network.nodes other).replica.identity⟩]
      simp only [Function.update_self]
      exact {
        status := heard.status
        share := heard.share
        close := heard.close
        starting := heard.starting
        own := fun _ => by simp
        silent := fun idle => by cases idle }
    · simpa [here] using (sound.nodes other).more _
  sent message member := (sound.sent message member).more _
  apart first second joinedFirst joinedSecond same' := by
    have elsewhere : ∀ other, other ≠ index → (network.nodes other).link ≠ .idle →
        (network.nodes other).replica.address ≠ address := by
      intro other _ joined here
      apply fresh
      rw [← here]
      exact List.mem_map_of_mem ((sound.nodes other).own joined)
    subst same
    by_cases here : first = index
    · by_cases there : second = index
      · rw [here, there]
      · subst here
        simp only [Function.update_self, Function.update_of_ne there] at joinedSecond same'
        exact absurd same'.symm (elsewhere second there joinedSecond)
    · by_cases there : second = index
      · subst there
        simp only [Function.update_self, Function.update_of_ne here] at joinedFirst same'
        exact absurd same' (elsewhere first here joinedFirst)
      · simp only [Function.update_of_ne here, Function.update_of_ne there] at joinedFirst joinedSecond same'
        exact sound.apart first second joinedFirst joinedSecond same'
  closed sender member other activeOther := by
    by_cases here : other = index
    · subst here same
      simp only [Function.update_self]
      intro same
      apply fresh
      rw [same]
      exact List.mem_map_of_mem (sound.sent _ member)
    · simp only [Function.update_of_ne here] at activeOther ⊢
      exact sound.closed sender member other activeOther
  foreign other := by
    by_cases here : other = index
    · subst here same
      simp only [Function.update_self]
      intro sender buffered same
      apply fresh
      rw [← same]
      exact List.mem_map_of_mem ((sound.nodes other).close sender buffered)
    · simpa [here] using sound.foreign other

/-- A queue goes down, or an asserted one gets its consumer. -/
theorem relink {network : Network} (sound : network.Sound) (index : ℕ) {link : Link}
    {messages : List Message} (joined : (network.nodes index).link ≠ .idle) (used : link ≠ .idle)
    (active : link.Active → (network.nodes index).link.Active)
    (said : ∀ message ∈ messages, message.Heard network.issued)
    (closes : ∀ sender, .close sender ∈ messages →
      sender.address = (network.nodes index).replica.address ∧ ¬ link.Active) :
    ((network.setNode index { network.nodes index with link := link }).send messages).Sound := by
  have heard := sound.nodes index
  refine sound.change index rfl active (fun _ => joined) ?_ said ?_ (sound.foreign index)
  · exact ⟨heard.status, heard.share, heard.close, heard.starting, fun _ => heard.own joined,
      fun idle => absurd idle used⟩
  · intro sender member
    obtain ⟨own, ended⟩ := closes sender member
    exact ⟨own, joined, ended⟩

theorem relinkQuietly {network : Network} (sound : network.Sound) (index : ℕ) {link : Link}
    (joined : (network.nodes index).link ≠ .idle) (used : link ≠ .idle)
    (active : link.Active → (network.nodes index).link.Active) :
    (network.setNode index { network.nodes index with link := link }).Sound := by
  have relinked : ((network.setNode index { network.nodes index with link := link }).send []).Sound :=
    sound.relink index joined used active (by simp) (by simp)
  simpa [Network.send] using relinked

theorem sends {network : Network} (sound : network.Sound) {messages : List Message}
    (said : ∀ message ∈ messages, message.Heard network.issued)
    (open' : ∀ sender, .close sender ∉ messages) : (network.send messages).Sound := by
  have idle : Node.Follows network.issued (network.nodes 0) (network.nodes 0) := .rearm rfl rfl rfl rfl
  have sent : Sound { network with
      nodes := Function.update network.nodes 0 (network.nodes 0)
      sent := network.sent ++ messages
      passed := network.passed } := sound.follows idle said open'
  rwa [Function.update_eq_self] at sent

/-- A message that reaches a consumed queue. A CLOSE is about a queue that is gone,
so it is not about this one. -/
theorem receive {network : Network} (sound : network.Sound) {index position : ℕ} {message : Message}
    (found : network.sent[position]? = some message)
    (accepts : (network.nodes index).Accepts message) :
    ((network.setNode index ((network.nodes index).bufferMessage message)).send
      ((network.nodes index).answer message).toList).Sound := by
  have present := List.mem_of_getElem? found
  have known := sound.sent message present
  have heard := sound.nodes index
  have consuming := accepts.1
  have joined : (network.nodes index).link ≠ .idle := by simp [consuming]
  cases message with
  | hello sender =>
    refine sound.follows (.rearm rfl rfl rfl rfl) ?_ ?_
    · simpa [Node.answer, Message.Heard, Replica.statusMessage] using heard.own joined
    · simp [Node.answer]
  | status target message =>
    refine sound.change index rfl id id ?_ (by simp [Node.answer]) (by simp [Node.answer])
      (sound.foreign index)
    refine ⟨?_, heard.share, heard.close, heard.starting, heard.own, heard.silent⟩
    intro other member
    rcases List.mem_append.mp member with earlier | now
    · exact heard.status other earlier
    · obtain rfl := List.mem_singleton.mp now
      exact known
  | share message =>
    refine sound.change index rfl id id ?_ (by simp [Node.answer]) (by simp [Node.answer])
      (sound.foreign index)
    refine ⟨heard.status, ?_, heard.close, heard.starting, heard.own, fun idle => absurd idle joined⟩
    intro other member
    rcases List.mem_append.mp member with earlier | now
    · exact heard.share other earlier
    · obtain rfl := List.mem_singleton.mp now
      exact known
  | close sender =>
    refine sound.change index rfl id id ?_ (by simp [Node.answer]) (by simp [Node.answer]) ?_
    · refine ⟨heard.status, heard.share, ?_, heard.starting, heard.own, heard.silent⟩
      intro other member
      rcases List.mem_append.mp member with earlier | now
      · exact heard.close other earlier
      · obtain rfl := List.mem_singleton.mp now
        exact known
    · intro other member
      rcases List.mem_append.mp member with earlier | now
      · exact sound.foreign index other earlier
      · obtain rfl := List.mem_singleton.mp now
        exact (sound.closed other present index (.inr consuming)).symm

private theorem heard_share? {issued : List Credentials} {state : ReplicaState} (heard : state.Heard issued) :
    ∀ message ∈ (state.share? sender).map Message.share, message.Heard issued := by
  intro message shared
  obtain ⟨replicaMembers, rateLimitMultiplier, clusterMembers⟩ := state
  cases replicaMembers with
  | none => cases shared
  | some members =>
    cases rateLimitMultiplier with
    | none => cases shared
    | some multiplier =>
      cases clusterMembers with
      | none => cases shared
      | some reports =>
        cases shared
        exact heard reports rfl

theorem initial (identity : ℕ → String) (scheduler : ℕ → Scheduler) :
    (Network.initial identity scheduler).Sound where
  distinct := by simp [AddressesDistinct, Network.initial]
  nodes _ := ⟨by simp [Network.initial], by simp [Network.initial], by simp [Network.initial],
    by simp [Network.initial], by simp [Network.initial], by simp [Network.initial]⟩
  sent := by simp [Network.initial]
  apart first _ joined := absurd rfl joined
  closed _ member := by simp [Network.initial] at member
  foreign _ := by simp [Network.initial]

variable (collation : Collation)

/-- Every step keeps the invariant. -/
theorem step {network next : Network} (sound : network.Sound) {event : Event}
    (taken : network.step collation event = some next) : next.Sound := by
  cases event with
  | assertQueue index address =>
    simp only [Network.step] at taken
    split at taken
    · cases taken
    · next fresh =>
      cases taken
      exact sound.assertQueue index rfl fresh
  | setupConsumer index =>
    simp only [Network.step] at taken
    split at taken
    · next asserted =>
      cases taken
      exact sound.relinkQuietly index (by simp [asserted]) (by simp) fun _ => .inl asserted
    · cases taken
  | connectionLost index =>
    simp only [Network.step] at taken
    split at taken
    · cases taken
    · next joined =>
      cases taken
      exact sound.relinkQuietly index joined (by simp) (by simp [Link.Active])
  | broadcastHello index =>
    simp only [Network.step] at taken
    split at taken
    · cases taken
    · cases taken
      exact sound.sends (by simp [Message.Heard]) (by simp)
  | receive index position =>
    simp only [Network.step] at taken
    split at taken
    · cases taken
    · next message found =>
      split at taken
      · next accepts =>
        cases taken
        exact sound.receive found accepts
      · cases taken
  | statusElapsed index =>
    simp only [Network.step] at taken
    split at taken
    · cases taken
      exact sound.handled (.handleStatusMessage collation)
    · cases taken
  | broadcastShare index position =>
    simp only [Network.step] at taken
    split at taken
    · cases taken
    · next status found =>
      cases taken
      have present := List.mem_of_getElem? found
      have heard := (sound.nodes index).starting status present
      refine sound.follows .erase ?_ ?_
      · simpa using heard_share? heard
      · simp
  | startFailed index position =>
    cases taken
    exact sound.setNode .erase
  | shareElapsed index =>
    simp only [Network.step] at taken
    split at taken
    · cases taken
      exact sound.setNode (.rearm rfl rfl rfl rfl)
    · cases taken
  | handleShare index =>
    simp only [Network.step] at taken
    split at taken
    · cases taken
    · cases taken
      have waiting : Node.Follows network.issued (network.nodes index) { network.nodes index with
          waitingShares := (network.nodes index).waitingShares - 1 } := .rearm rfl rfl rfl rfl
      exact sound.handled (waiting.trans (.handleShareMessage collation))
  | closeElapsed index =>
    simp only [Network.step] at taken
    split at taken
    · cases taken
      exact sound.setNode (.rearm rfl rfl rfl rfl)
    · cases taken
  | handleClose index =>
    simp only [Network.step] at taken
    split at taken
    · cases taken
    · cases taken
      have waiting : Node.Follows network.issued (network.nodes index) { network.nodes index with
          waitingCloses := (network.nodes index).waitingCloses - 1 } := .rearm rfl rfl rfl rfl
      exact sound.handled (waiting.trans (.handleCloseMessage collation))
  | channelTeardown index =>
    simp only [Network.step] at taken
    split at taken
    · next consuming =>
      cases taken
      refine sound.relink index (by simp [consuming]) (by simp) (by simp [Link.Active]) ?_ ?_
      · simpa [Message.Heard] using (sound.nodes index).own (by simp [consuming])
      · simp [Link.Active, Replica.getSenderCredentials]
    · cases taken
  | reconfigured index scheduler =>
    cases taken
    exact sound.setNode (.rearm rfl rfl rfl rfl)

end Network.Sound

end PriceFeed.Discovery
