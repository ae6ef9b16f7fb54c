import PriceFeed.Discovery.Network
import PriceFeed.Discovery.SelfWindow
import PriceFeed.Discovery.ShareAgreement
import PriceFeed.Schedulers.Period

/-! Exchanges between live replicas: one replica aggregates the STATUS messages of
all, and each carries out the vote of the SHARE message that follows. -/

namespace PriceFeed.Discovery

open PriceFeed.Library PriceFeed.Schedulers

namespace Replica

/-- The replica once its markets manager has taken the configuration a handler
passed on; none if the internal scheduler throws. -/
def configure (replica : Replica) : Option DynamicConfig → Option Replica
  | none => some replica
  | some config => do
    let scheduler ← (replica.internalScheduler.setDynamicConfig config).toOption
    return { replica with internalScheduler := scheduler }

variable (collation : Collation)

/-- A STATUS handler up to its SHARE message. -/
def handleStatuses (replica : Replica) (hasStarted : Bool) (buffer : List StatusMessage) :
    Option (Replica × ShareMessage) := do
  let node : Node :=
    { replica := replica
      statusMessageBuffer := ⟨buffer, true⟩
      hasStarted := hasStarted }
  let (handled, config) := node.handleStatusMessage collation
  let started ← handled.replica.configure config
  let status ← handled.starting.getLast?
  let share ← status.share? started.getSenderCredentials
  return (started, share)

/-- A SHARE handler with the reload it votes for. -/
def handleShares (replica : Replica) (buffer : List ShareMessage) : Option Replica :=
  let node : Node :=
    { replica := replica
      shareMessageBuffer := ⟨buffer, false⟩ }
  let (handled, config) := node.handleShareMessage collation
  handled.replica.configure config

/-- The interval of a replica at the multiplier one. -/
def unitInterval (replica : Replica) : ℚ :=
  (replica.internalScheduler.baseRateLimit + replica.internalScheduler.rateLimitMargin) *
    replica.internalScheduler.queueSize * replica.internalScheduler.operations

/-- What no exchange changes: who the replica is, and the work it does. -/
def site (replica : Replica) : Credentials × ℚ :=
  (replica.getSenderCredentials, replica.unitInterval)

theorem getIntervalSize_eq (replica : Replica) :
    replica.internalScheduler.getIntervalSize = replica.unitInterval * multiplierOf replica := by
  simp only [Scheduler.getIntervalSize, Scheduler.baseRate, unitInterval, multiplierOf]
  ring

/-- The entry of a replica in the cluster list that its STATUS message gives. -/
def report (replica : Replica) : MemberReport :=
  ⟨replica.address, replica.identity, replica.internalScheduler.getIntervalSize⟩

end Replica

/-- One exchange: who aggregates, whether its markets run already, and the STATUS
messages in the order of their arrival. -/
structure Exchange where
  position : ℕ
  hasStarted : Bool
  statuses : List StatusMessage
  deriving DecidableEq, Repr

variable (collation : Collation)

/-- The replicas after an exchange: one STATUS of each live replica, then the
SHARE message, which each replica processes alone. -/
def exchange (live : List Replica) (turn : Exchange) : Option (List Replica) :=
  if turn.statuses.Perm (live.map Replica.statusMessage) then do
    let own ← live[turn.position]?
    let (started, share) ← own.handleStatuses collation turn.hasStarted turn.statuses
    (live.set turn.position started).mapM fun replica => replica.handleShares collation [share]
  else none

/-- The cluster list that the live replicas report. -/
def reportsFrom (live : List Replica) : List MemberReport :=
  (live.map Replica.report).insertionSort (ClusterMembersReducer.addressLe collation)

/-- The addresses of one identity, as it lists them. -/
def membersFrom (identity : String) (live : List Replica) : List String :=
  ReplicaMembersReducer.aggregateState identity (live.map Replica.statusMessage)

/-- Live replicas with a private queue each and positive multipliers, whose total
interval under the largest multiplier is below an hour. -/
structure LiveCluster (live : List Replica) (multiplier : ℚ) : Prop where
  distinct : (live.map Replica.address).Nodup
  rated : ∀ replica ∈ live, 0 ≤ replica.unitInterval
  positive : ∀ replica ∈ live, 0 < multiplierOf replica
  largest : mathMax (live.map multiplierOf) = some multiplier
  brief : (live.map fun replica => replica.unitInterval * multiplier).sum < millisecondsInAnHour

/-- What an exchange of `own` makes of one of the replicas. -/
structure Exchanged (live : List Replica) (own : Replica) (multiplier : ℚ) (before after : Replica) :
    Prop where
  site : after.site = before.site
  multiplier : multiplierOf after = multiplier
  clusterMembers : after.clusterMembers = some (reportsFrom collation live)
  replicaMembers : after.replicaMembers =
    if own.identity = before.identity then some (membersFrom before.identity live)
    else before.replicaMembers

/-- The SHARE message of an exchange among the live replicas. -/
def shareFrom (live : List Replica) (multiplier : ℚ) (own : Replica) : ShareMessage :=
  ⟨own.getSenderCredentials, membersFrom own.identity live, multiplier, reportsFrom collation live⟩

namespace LiveCluster

variable {collation} {live : List Replica} {multiplier : ℚ} {buffer : List StatusMessage}

private theorem same_of_address (cluster : LiveCluster live multiplier) {first second : Replica}
    (present : first ∈ live) (listed : second ∈ live) (same : first.address = second.address) :
    first = second :=
  List.inj_on_of_nodup_map cluster.distinct present listed same

theorem multiplier_pos (cluster : LiveCluster live multiplier) : 0 < multiplier := by
  obtain ⟨member, -⟩ := List.max?_eq_some_iff.mp cluster.largest
  obtain ⟨replica, present, rfl⟩ := List.mem_map.mp member
  exact cluster.positive replica present

theorem le_multiplier (cluster : LiveCluster live multiplier) (present : replica ∈ live) :
    multiplierOf replica ≤ multiplier :=
  (List.max?_eq_some_iff.mp cluster.largest).2 _ (List.mem_map_of_mem present)

theorem reports_brief (cluster : LiveCluster live multiplier) (collation : Collation) :
    ((reportsFrom collation live).map MemberReport.interval).sum < millisecondsInAnHour := by
  have sorted := (List.perm_insertionSort (ClusterMembersReducer.addressLe collation)
    (live.map Replica.report)).map MemberReport.interval
  refine lt_of_le_of_lt ?_ cluster.brief
  rw [reportsFrom, sorted.sum_eq, List.map_map]
  apply List.sum_le_sum
  intro replica present
  simp only [Function.comp_apply, Replica.report, Replica.getIntervalSize_eq]
  exact mul_le_mul_of_nonneg_left (cluster.le_multiplier present) (cluster.rated replica present)

section Status

variable (cluster : LiveCluster live multiplier)
variable (answered : buffer.Perm (live.map Replica.statusMessage))
include cluster answered

theorem aggregate_clusterMembers :
    ClusterMembersReducer.aggregateState collation buffer = reportsFrom collation live := by
  have reports := answered.map fun message => (⟨message.sender.address, message.sender.identity,
    message.data.clusterMemberInterval⟩ : MemberReport)
  rw [List.map_map] at reports
  refine insertionSort_eq_of_perm ?_ reports
  intro report member other present before after
  obtain ⟨first, listed, rfl⟩ := List.mem_map.mp (reports.mem_iff.mp member)
  obtain ⟨second, listed', rfl⟩ := List.mem_map.mp (reports.mem_iff.mp present)
  rw [cluster.same_of_address listed listed' (collation.separates _ _ before after)]

omit cluster in
theorem aggregate_replicaMembers (identity : String) :
    ReplicaMembersReducer.aggregateState identity buffer = membersFrom identity live :=
  insertionSort_eq_of_perm (fun _ _ _ _ before after => codeUnitLe_antisymm before after)
    ((answered.filter _).map _)

private theorem aggregate_multiplier : RateLimitReducer.aggregateState buffer = some multiplier := by
  have multipliers := answered.map fun message => message.data.rateLimitMultiplier
  rw [List.map_map] at multipliers
  exact (mathMax_perm multipliers).trans cluster.largest

end Status

private theorem mem_reportsFrom {report : MemberReport} :
    report ∈ reportsFrom collation live ↔ ∃ replica ∈ live, replica.report = report := by
  rw [reportsFrom, List.mem_insertionSort, List.mem_map]

private theorem mem_membersFrom {identity address : String} :
    address ∈ membersFrom identity live ↔
      ∃ replica ∈ live, replica.identity = identity ∧ replica.address = address := by
  simp only [membersFrom, ReplicaMembersReducer.aggregateState, List.mem_insertionSort, List.mem_map,
    List.mem_filter, decide_eq_true_eq]
  constructor
  · rintro ⟨-, ⟨⟨replica, present, rfl⟩, same⟩, rfl⟩
    exact ⟨replica, present, same, rfl⟩
  · rintro ⟨replica, present, same, rfl⟩
    exact ⟨replica.statusMessage, ⟨⟨replica, present, rfl⟩, same⟩, rfl⟩

private theorem nodup_reportsFrom (cluster : LiveCluster live multiplier) :
    ((reportsFrom collation live).map MemberReport.address).Nodup := by
  have sorted := (List.perm_insertionSort (ClusterMembersReducer.addressLe collation)
    (live.map Replica.report)).map MemberReport.address
  rw [reportsFrom, sorted.nodup_iff, List.map_map]
  exact cluster.distinct

end LiveCluster

/-- The mentions of a list without repeated addresses fill a map in their order. -/
private theorem values_recordMention {members : List MemberReport} {map : OrderedMap String MemberReport}
    (distinct : (members.map MemberReport.address).Nodup)
    (fresh : ∀ member ∈ members, map.get? member.address = none) (sender : String) :
    ((members.map fun member => (sender, member)).foldl ClusterMembersReducer.recordMention
      map).values = map.values ++ members := by
  induction members generalizing map with
  | nil => simp
  | cons member rest ih =>
    obtain ⟨alone, others⟩ := List.nodup_cons.mp distinct
    have absent := fresh member List.mem_cons_self
    have recorded : ClusterMembersReducer.recordMention map (sender, member) =
        map.set member.address member := by
      simp [ClusterMembersReducer.recordMention, absent]
    rw [List.map_cons, List.foldl_cons, recorded, ih others, OrderedMap.values_set_new absent,
      List.append_assoc, List.singleton_append]
    intro other present
    rw [OrderedMap.get?_set, if_neg]
    · exact fresh other (List.mem_cons_of_mem _ present)
    · exact fun same => alone (same ▸ List.mem_map_of_mem present)

private theorem aggregateShareState_single (message : ShareMessage)
    (distinct : (message.data.clusterMembers.map MemberReport.address).Nodup)
    (sorted : message.data.clusterMembers.Pairwise (ClusterMembersReducer.addressLe collation)) :
    ClusterMembersReducer.aggregateShareState collation [message] = message.data.clusterMembers := by
  have visited : ClusterMembersReducer.mentions [message] =
      message.data.clusterMembers.map fun member => (message.sender.address, member) := by
    simp [ClusterMembersReducer.mentions]
  rw [ClusterMembersReducer.aggregateShareState, visited,
    values_recordMention distinct (fun _ _ => rfl)]
  exact sorted.insertionSort_eq

/-- When all messages carry one list, each entry is decided by that list. -/
theorem decidingReport_of_agreed {members : List MemberReport} {buffer : List ShareMessage}
    (distinct : (members.map MemberReport.address).Nodup) (nonempty : buffer ≠ [])
    (agreed : ∀ message ∈ buffer, message.data.clusterMembers = members) (address : String) :
    decidingReport address buffer = members.find? fun member => member.address = address := by
  have within : ∀ mention ∈ mentionsOf address buffer,
      mention.2 ∈ members ∧ mention.2.address = address := by
    intro mention visited
    obtain ⟨message, sent, listed, here⟩ := mem_mentionsOf visited
    exact ⟨agreed message sent ▸ listed, here⟩
  cases found : members.find? fun member => member.address = address with
  | none =>
    have missing := List.find?_eq_none.mp found
    have unmentioned : mentionsOf address buffer = [] := by
      apply List.eq_nil_iff_forall_not_mem.mpr
      intro mention visited
      obtain ⟨listed, here⟩ := within mention visited
      exact missing _ listed (by simpa using here)
    simp [decidingReport, unmentioned]
  | some report =>
    have here : report.address = address := by simpa using List.find?_some found
    have listed := List.mem_of_find?_eq_some found
    obtain ⟨message, sent⟩ := List.exists_mem_of_ne_nil buffer nonempty
    have mentioned := mem_mentionsOf_of_listed sent (agreed message sent ▸ listed)
    rw [here] at mentioned
    obtain ⟨chosen, decided⟩ := exists_decidingReport mentioned
    obtain ⟨mention, visited, rfl⟩ := mem_mentionsOf_of_decidingReport decided
    obtain ⟨listed', here'⟩ := within mention visited
    rw [decided, List.inj_on_of_nodup_map distinct listed' listed (here'.trans here.symm)]

/-- Messages that all carry one sorted list merge to it. -/
private theorem aggregateShareState_of_agreed {members : List MemberReport} {buffer : List ShareMessage}
    (distinct : (members.map MemberReport.address).Nodup)
    (sorted : members.Pairwise (ClusterMembersReducer.addressLe collation)) (nonempty : buffer ≠ [])
    (agreed : ∀ message ∈ buffer, message.data.clusterMembers = members) :
    ClusterMembersReducer.aggregateShareState collation buffer = members := by
  obtain ⟨message, sent⟩ := List.exists_mem_of_ne_nil buffer nonempty
  have carried := agreed message sent
  have alone := aggregateShareState_single collation message (by rwa [carried])
    (by rwa [carried])
  rw [← carried, ← alone, aggregateShareState_eq_iff]
  intro address
  rw [decidingReport_of_agreed distinct nonempty agreed,
    decidingReport_of_agreed distinct (List.cons_ne_nil _ _) (by simp [carried])]

/-- A configuration whose members need less than an hour is applied. -/
theorem Replica.configure_completes (replica other : Replica) (state : ReplicaState)
    (listed : state.clusterMembers = some reports)
    (brief : (reports.map MemberReport.interval).sum < millisecondsInAnHour) :
    ∃ config scheduler, other.normalizeState collation state = .ok config ∧
      replica.configure (some config) = some { replica with internalScheduler := scheduler } ∧
      Replica.site { replica with internalScheduler := scheduler } = replica.site ∧
      scheduler.rateLimitMultiplier =
        (RateLimitReducer.normalizeState state.rateLimitMultiplier).rateLimitMultiplier.getD
          replica.internalScheduler.rateLimitMultiplier := by
  obtain ⟨config, normalized, members, multiplier, queueSize, operations⟩ :
      ∃ config, other.normalizeState collation state = .ok config ∧
        config.clusterMembers =
          some (ClusterMembersReducer.hydratedMembers collation other.identity reports) ∧
        config.rateLimitMultiplier =
          (RateLimitReducer.normalizeState state.rateLimitMultiplier).rateLimitMultiplier ∧
        config.queueSize = none ∧ config.operations = none := by
    simp [Replica.normalizeState, listed, ClusterMembersReducer.normalizeState_some, bind, Except.bind,
      pure, Except.pure]
  have present : (replica.internalScheduler.assign config).clusterMembers =
      some (ClusterMembersReducer.hydratedMembers collation other.identity reports) := by
    simp [Scheduler.assign, members]
  obtain ⟨scheduler, success⟩ := Scheduler.initInterval_completes present
    (by rw [ClusterMembersReducer.clusterInterval_hydratedMembers]; exact brief)
  have kept := (Scheduler.initInterval_ok success present).unchanged
  refine ⟨config, scheduler, normalized, ?_, ?_, ?_⟩
  · simp [Replica.configure, Scheduler.setDynamicConfig, success, Except.toOption]
  · rw [kept]
    simp [Replica.site, Replica.getSenderCredentials, Replica.unitInterval, Scheduler.assign, queueSize,
      operations]
  · rw [kept]
    simp [Scheduler.assign, multiplier]

/-- Every message of the buffer comes from an exchange among the live replicas. -/
def FromExchanges (live : List Replica) (multiplier : ℚ) (buffer : List ShareMessage) : Prop :=
  ∀ message ∈ buffer, ∃ own ∈ live, message = shareFrom collation live multiplier own

namespace LiveCluster

variable {collation} {live : List Replica} {multiplier : ℚ} {buffer : List ShareMessage}
variable (cluster : LiveCluster live multiplier) (nonempty : buffer ≠ [])
variable (produced : FromExchanges collation live multiplier buffer)
include cluster nonempty produced

private theorem merged_clusterMembers :
    ClusterMembersReducer.aggregateShareState collation buffer = reportsFrom collation live := by
  apply aggregateShareState_of_agreed collation cluster.nodup_reportsFrom
    (List.pairwise_insertionSort _ _) nonempty
  intro message sent
  obtain ⟨own, -, rfl⟩ := produced message sent
  rfl

omit cluster in
private theorem merged_multiplier : RateLimitReducer.aggregateShareState buffer = some multiplier := by
  have carried : ∀ message ∈ buffer, message.data.rateLimitMultiplier = multiplier := by
    intro message sent
    obtain ⟨own, -, rfl⟩ := produced message sent
    rfl
  apply List.max?_eq_some_iff.mpr
  constructor
  · obtain ⟨message, sent⟩ := List.exists_mem_of_ne_nil buffer nonempty
    exact List.mem_map.mpr ⟨message, sent, carried message sent⟩
  · intro value member
    obtain ⟨message, sent, rfl⟩ := List.mem_map.mp member
    exact (carried message sent).le

omit cluster nonempty in
private theorem merged_replicaMembers (identity : String) :
    ReplicaMembersReducer.aggregateShareState identity buffer =
      if ∃ message ∈ buffer, message.sender.identity = identity then
        some (membersFrom identity live) else none := by
  split
  · next heard =>
    obtain ⟨message, sent, same⟩ := heard
    have kept : message ∈ buffer.filter fun message => message.sender.identity = identity :=
      List.mem_filter.mpr ⟨sent, by simpa using same⟩
    cases last : (buffer.filter fun message => message.sender.identity = identity).getLast? with
    | none => simp [List.getLast?_eq_none_iff.mp last] at kept
    | some final =>
      obtain ⟨sent', same'⟩ := List.mem_filter.mp (List.mem_of_getLast? last)
      obtain ⟨own, -, rfl⟩ := produced final sent'
      have named : own.identity = identity := of_decide_eq_true same'
      simp [ReplicaMembersReducer.aggregateShareState, last, shareFrom, named]
  · next silent =>
    have none : buffer.filter (fun message => message.sender.identity = identity) = [] := by
      apply List.filter_eq_nil_iff.mpr
      intro message sent same
      exact silent ⟨message, sent, by simpa using same⟩
    simp [ReplicaMembersReducer.aggregateShareState, none]

theorem aggregateShareState_eq {target : Replica}
    (listed : ∃ replica ∈ live, replica.site = target.site) :
    target.aggregateShareState collation buffer =
      { replicaMembers :=
          if ∃ message ∈ buffer, message.sender.identity = target.identity then
            some (membersFrom target.identity live) else none
        rateLimitMultiplier := if multiplierOf target < multiplier then some multiplier else none
        clusterMembers := some (reportsFrom collation live) } := by
  obtain ⟨replica, present, same⟩ := listed
  simp only [Replica.site, Replica.getSenderCredentials, Prod.mk.injEq, Credentials.mk.injEq] at same
  obtain ⟨⟨address, identity⟩, -⟩ := same
  have within : target.address ∈ membersFrom target.identity live :=
    mem_membersFrom.mpr ⟨replica, present, identity, address⟩
  have reported : ∃ report ∈ reportsFrom collation live, report.address = target.address :=
    ⟨replica.report, mem_reportsFrom.mpr ⟨replica, present, rfl⟩, address⟩
  simp only [Replica.aggregateShareState, Replica.sanitizeShareState,
    merged_replicaMembers produced, merged_multiplier nonempty produced,
    cluster.merged_clusterMembers nonempty produced, ReplicaState.mk.injEq]
  refine ⟨?_, ?_, ?_⟩
  · split <;> simp [ReplicaMembersReducer.sanitizeShareState, Option.filter, within]
  · by_cases behind : target.internalScheduler.rateLimitMultiplier < multiplier <;>
      simp [RateLimitReducer.sanitizeShareState, Option.filter, multiplierOf, behind]
  · simpa [ClusterMembersReducer.sanitizeShareState, Option.filter] using reported

omit produced in
theorem shouldReload_eq_false {target : Replica} (produced : FromExchanges collation live multiplier buffer)
    (listed : ∃ replica ∈ live, replica.site = target.site) (multiplier_eq : multiplierOf target = multiplier)
    (clusterMembers : target.clusterMembers = some (reportsFrom collation live))
    (replicaMembers : target.replicaMembers = some (membersFrom target.identity live)) :
    target.shouldReload (target.aggregateShareState collation buffer) = false := by
  rw [cluster.aggregateShareState_eq nonempty produced listed]
  by_cases heard : ∃ message ∈ buffer, message.sender.identity = target.identity <;>
    simp [Replica.shouldReload, ReplicaMembersReducer.shouldReload, RateLimitReducer.shouldReload,
      ClusterMembersReducer.shouldReload, multiplier_eq, clusterMembers, replicaMembers, heard]

theorem handleShares_completes {target : Replica}
    (listed : ∃ replica ∈ live, replica.site = target.site) (below : multiplierOf target ≤ multiplier) :
    ∃ after, target.handleShares collation buffer = some after ∧ after.site = target.site ∧
      multiplierOf after = multiplier ∧
      after.clusterMembers = some (reportsFrom collation live) ∧
      after.replicaMembers =
        if ∃ message ∈ buffer, message.sender.identity = target.identity then
          some (membersFrom target.identity live) else target.replicaMembers := by
  have concluded := cluster.aggregateShareState_eq nonempty produced listed
  cases vote : target.shouldReload (target.aggregateShareState collation buffer) with
  | true =>
    obtain ⟨config, scheduler, normalized, configured, site, limit⟩ :=
      Replica.configure_completes collation
        (target.updateState (target.aggregateShareState collation buffer))
        (target.updateState (target.aggregateShareState collation buffer))
        (target.aggregateShareState collation buffer) (by rw [concluded])
        (cluster.reports_brief collation)
    refine ⟨_, ?_, site, ?_, ?_, ?_⟩
    · simp only [Replica.handleShares, Node.handleShareMessage, vote, ↓reduceIte, normalized,
        Except.toOption]
      exact configured
    · have applied : (RateLimitReducer.normalizeState (if multiplierOf target < multiplier then
          some multiplier else none)).rateLimitMultiplier.getD (multiplierOf target) = multiplier := by
        split
        · rw [normalizeState_positive cluster.multiplier_pos]
          rfl
        · next reached => exact le_antisymm below (not_lt.mp reached)
      rw [multiplierOf, limit, concluded]
      exact applied
    · simp [Replica.updateState, ClusterMembersReducer.updateState, concluded]
    · simp only [Replica.updateState, ReplicaMembersReducer.updateState, concluded]
      split <;> rfl
  | false =>
    have kept : target.handleShares collation buffer = some target := by
      simp [Replica.handleShares, Node.handleShareMessage, vote, Replica.configure]
    rw [concluded] at vote
    simp only [Replica.shouldReload, Bool.or_eq_false_iff] at vote
    obtain ⟨⟨members, limit⟩, reports⟩ := vote
    refine ⟨target, kept, rfl, ?_, ?_, ?_⟩
    · by_contra differs
      have behind : multiplierOf target < multiplier := lt_of_le_of_ne below differs
      simp [RateLimitReducer.shouldReload, behind, cluster.multiplier_pos.ne'] at limit
      exact absurd behind (not_lt.mpr limit)
    · have same : some (reportsFrom collation live) = target.clusterMembers := by
        simpa [ClusterMembersReducer.shouldReload] using reports
      exact same.symm
    · split at members
      · next heard =>
        have same : some (membersFrom target.identity live) = target.replicaMembers := by
          simpa [ReplicaMembersReducer.shouldReload] using members
        rw [if_pos heard, same]
      · next silent => rw [if_neg silent]

end LiveCluster

namespace LiveCluster

variable {live : List Replica} {multiplier : ℚ} (cluster : LiveCluster live multiplier)
include cluster

/-- The replica that aggregates sends what the cluster holds, whether it starts its
markets first or not, and keeps the lists it had adopted. -/
theorem handleStatuses_completes (collation : Collation) (own : Replica) {buffer : List StatusMessage}
    (answered : buffer.Perm (live.map Replica.statusMessage)) (hasStarted : Bool) :
    ∃ started, own.handleStatuses collation hasStarted buffer =
        some (started, shareFrom collation live multiplier own) ∧
      started.site = own.site ∧
      (multiplierOf started = multiplierOf own ∨ multiplierOf started = multiplier) ∧
      started.replicaMembers = (own.replicaMembers <|> some (membersFrom own.identity live)) ∧
      started.clusterMembers = (own.clusterMembers <|> some (reportsFrom collation live)) := by
  let status : ReplicaState := ⟨some (membersFrom own.identity live), some multiplier,
    some (reportsFrom collation live)⟩
  obtain ⟨adopting, aggregated, same, kept, members, reports⟩ : ∃ adopting : Replica,
      own.aggregateState collation buffer = (adopting, status) ∧ adopting.site = own.site ∧
        multiplierOf adopting = multiplierOf own ∧
        adopting.replicaMembers = (own.replicaMembers <|> some (membersFrom own.identity live)) ∧
        adopting.clusterMembers = (own.clusterMembers <|> some (reportsFrom collation live)) := by
    refine ⟨(own.aggregateState collation buffer).1, ?_, rfl, rfl, ?_⟩
    · simp only [Replica.aggregateState, aggregate_replicaMembers answered,
        cluster.aggregate_clusterMembers answered, cluster.aggregate_multiplier answered, status]
    · simp only [Replica.aggregateState, aggregate_replicaMembers answered,
        cluster.aggregate_clusterMembers answered, and_self]
  have sender : adopting.getSenderCredentials = own.getSenderCredentials := congrArg Prod.fst same
  cases hasStarted with
  | true =>
    refine ⟨adopting, ?_, same, .inl kept, members, reports⟩
    simp [Replica.handleStatuses, Node.handleStatusMessage, aggregated, Replica.configure,
      ReplicaState.share?, status, shareFrom, sender]
  | false =>
    obtain ⟨config, scheduler, normalized, configured, site, limit⟩ :=
      Replica.configure_completes collation adopting adopting status rfl
        (cluster.reports_brief collation)
    refine ⟨{ adopting with internalScheduler := scheduler }, ?_, site.trans same, .inr ?_, members,
      reports⟩
    · have sender' : Replica.getSenderCredentials { adopting with internalScheduler := scheduler } =
          own.getSenderCredentials := sender
      simp [Replica.handleStatuses, Node.handleStatusMessage, aggregated, normalized, configured,
        ReplicaState.share?, shareFrom, sender', status]
    · rw [multiplierOf, limit, normalizeState_positive cluster.multiplier_pos]
      rfl

end LiveCluster

theorem LiveCluster.exchange_completes (collation : Collation) {live : List Replica} {multiplier : ℚ}
    (cluster : LiveCluster live multiplier) {turn : Exchange}
    (answered : turn.statuses.Perm (live.map Replica.statusMessage))
    (placed : live[turn.position]? = some own) :
    ∃ next, exchange collation live turn = some next ∧
      List.Forall₂ (Exchanged collation live own multiplier) live next := by
  have present := List.mem_of_getElem? placed
  obtain ⟨started, shared, site, raised, -⟩ :=
    cluster.handleStatuses_completes collation own answered turn.hasStarted
  have below : multiplierOf started ≤ multiplier := by
    rcases raised with kept | reached
    · exact kept ▸ cluster.le_multiplier present
    · exact reached.le
  have produced : FromExchanges collation live multiplier [shareFrom collation live multiplier own] := by
    intro message sent
    exact ⟨own, present, List.mem_singleton.mp sent⟩
  have single : ∀ identity, (∃ message ∈ [shareFrom collation live multiplier own],
      message.sender.identity = identity) ↔ own.identity = identity := by
    simp [shareFrom, Replica.getSenderCredentials]
  obtain ⟨next, processed, related⟩ : ∃ next, (live.set turn.position started).mapM
      (fun replica => replica.handleShares collation [shareFrom collation live multiplier own]) =
        some next ∧ List.Forall₂ (Exchanged collation live own multiplier) live next := by
    apply mapM_set_completes placed
    · obtain ⟨after, handled, same, limit, reports, members⟩ := cluster.handleShares_completes
        (List.cons_ne_nil _ _) produced ⟨own, present, site.symm⟩ below
      have identity : own.identity = started.identity := by
        simp only [Replica.site, Replica.getSenderCredentials, Prod.mk.injEq, Credentials.mk.injEq] at site
        exact site.1.2.symm
      simp only [single, identity, ↓reduceIte] at members
      exact ⟨after, handled, same.trans site, limit, reports, by rw [if_pos rfl, members, identity]⟩
    · intro target listed
      obtain ⟨after, handled, same, limit, reports, members⟩ := cluster.handleShares_completes
        (List.cons_ne_nil _ _) produced ⟨target, listed, rfl⟩ (cluster.le_multiplier listed)
      simp only [single] at members
      exact ⟨after, handled, same, limit, reports, members⟩
  refine ⟨next, ?_, related⟩
  simp [exchange, answered, placed, shared, processed]

end PriceFeed.Discovery
