import PriceFeed.Discovery.Exchange

/-! Convergence of discovery: after two passes of exchanges all live replicas hold
the same state, and the SHARE messages that follow change nothing. -/

namespace PriceFeed.Discovery

open PriceFeed.Library PriceFeed.Schedulers

variable {collation : Collation} {live next : List Replica} {multiplier : ℚ}

private theorem exchange_cases (cluster : LiveCluster live multiplier)
    (taken : exchange collation live turn = some next) :
    ∃ own, live[turn.position]? = some own ∧
      List.Forall₂ (Exchanged collation live own multiplier) live next := by
  by_cases answered : turn.statuses.Perm (live.map Replica.statusMessage)
  · have passed := taken
    rw [exchange, if_pos answered] at passed
    obtain ⟨own, placed, -⟩ := Option.bind_eq_some_iff.mp passed
    obtain ⟨other, completed, related⟩ := cluster.exchange_completes collation answered placed
    obtain rfl := Option.some.inj (taken.symm.trans completed)
    exact ⟨own, placed, related⟩
  · rw [exchange, if_neg answered] at taken
    cases taken

/-- All replicas run at one multiplier. -/
def Uniform (multiplier : ℚ) (live : List Replica) : Prop :=
  ∀ replica ∈ live, multiplierOf replica = multiplier

section Sites

variable (sites : next.map Replica.site = live.map Replica.site)
include sites

theorem exists_same_site (present : replica ∈ live) : ∃ other ∈ next, other.site = replica.site := by
  have listed : replica.site ∈ next.map Replica.site := sites ▸ List.mem_map_of_mem present
  exact List.mem_map.mp listed

theorem membersFrom_eq (identity : String) : membersFrom identity next = membersFrom identity live := by
  have credentials : next.map Replica.getSenderCredentials = live.map Replica.getSenderCredentials := by
    have firsts := congrArg (List.map Prod.fst) sites
    rwa [List.map_map, List.map_map] at firsts
  have senders : ∀ replicas : List Replica, membersFrom identity replicas =
      (((replicas.map Replica.getSenderCredentials).filter fun sender => sender.identity = identity).map
        Credentials.address).insertionSort codeUnitLe := by
    intro replicas
    simp only [membersFrom, ReplicaMembersReducer.aggregateState, List.filter_map, List.map_map]
    rfl
  rw [senders, senders, credentials]

theorem reportsFrom_eq (before : Uniform multiplier live) (after : Uniform multiplier next) :
    reportsFrom collation next = reportsFrom collation live := by
  have uniform : ∀ replicas, Uniform multiplier replicas → replicas.map Replica.report =
      (replicas.map Replica.site).map fun site =>
        (⟨site.1.address, site.1.identity, site.2 * multiplier⟩ : MemberReport) := by
    intro replicas same
    rw [List.map_map]
    apply List.map_congr_left
    intro replica present
    simp [Replica.report, Replica.getIntervalSize_eq, same replica present, Replica.site,
      Replica.getSenderCredentials]
  rw [reportsFrom, reportsFrom, uniform next after, uniform live before, sites]

theorem LiveCluster.of_sites (cluster : LiveCluster live multiplier) (uniform : Uniform multiplier next) :
    LiveCluster next multiplier := by
  have addresses := congrArg (List.map fun site : Credentials × ℚ => site.1.address) sites
  have intervals := congrArg (List.map fun site : Credentials × ℚ => site.2 * multiplier) sites
  rw [List.map_map, List.map_map] at addresses intervals
  refine ⟨?_, ?_, ?_, ?_, ?_⟩
  · exact addresses ▸ cluster.distinct
  · intro replica present
    obtain ⟨other, listed, same⟩ := exists_same_site sites.symm present
    have interval : other.unitInterval = replica.unitInterval := congrArg Prod.snd same
    exact interval ▸ cluster.rated other listed
  · intro replica present
    rw [uniform replica present]
    exact cluster.multiplier_pos
  · obtain ⟨member, -⟩ := List.max?_eq_some_iff.mp cluster.largest
    obtain ⟨replica, present, -⟩ := List.mem_map.mp member
    obtain ⟨other, listed, -⟩ := exists_same_site sites present
    apply List.max?_eq_some_iff.mpr
    refine ⟨List.mem_map.mpr ⟨other, listed, uniform other listed⟩, ?_⟩
    intro value reached
    obtain ⟨replica, present, rfl⟩ := List.mem_map.mp reached
    exact (uniform replica present).le
  · exact lt_of_eq_of_lt (congrArg List.sum intervals) cluster.brief

end Sites

/-- The replicas of an identity hold the list of its addresses. -/
def Known (identity : String) (live : List Replica) : Prop :=
  ∀ replica ∈ live, replica.identity = identity →
    replica.replicaMembers = some (membersFrom identity live)

/-- All replicas hold the cluster list that they report. -/
def ClusterKnown (collation : Collation) (live : List Replica) : Prop :=
  ∀ replica ∈ live, replica.clusterMembers = some (reportsFrom collation live)

/-- What one exchange does, as far as later exchanges depend on it. -/
structure ExchangeEffect (collation : Collation) (live : List Replica) (multiplier : ℚ)
    (turn : Exchange) (next : List Replica) : Prop where
  sites : next.map Replica.site = live.map Replica.site
  uniform : Uniform multiplier next
  performed : ∃ own, live[turn.position]? = some own ∧ Known own.identity next
  known : ∀ identity, Known identity live → Known identity next
  clusterKnown : Uniform multiplier live → ClusterKnown collation next

theorem exchange_effect (cluster : LiveCluster live multiplier)
    (taken : exchange collation live turn = some next) :
    ExchangeEffect collation live multiplier turn next := by
  obtain ⟨own, placed, related⟩ := exchange_cases cluster taken
  have sites := map_eq_of_forall₂ related fun _ _ exchanged => exchanged.site
  have uniform : Uniform multiplier next := by
    intro after listed
    obtain ⟨before, -, exchanged⟩ := exists_of_forall₂ related listed
    exact exchanged.multiplier
  have identities : ∀ {before after : Replica}, Exchanged collation live own multiplier before after →
      after.identity = before.identity := fun exchanged =>
    congrArg (fun site : Credentials × ℚ => site.1.identity) exchanged.site
  refine ⟨sites, uniform, ⟨own, placed, ?_⟩, ?_, ?_⟩
  · intro after listed same
    obtain ⟨before, -, exchanged⟩ := exists_of_forall₂ related listed
    rw [identities exchanged] at same
    rw [exchanged.replicaMembers, if_pos same.symm, same, membersFrom_eq sites]
  · intro identity held after listed same
    obtain ⟨before, present, exchanged⟩ := exists_of_forall₂ related listed
    rw [identities exchanged] at same
    rw [exchanged.replicaMembers, membersFrom_eq sites]
    split
    · rw [same]
    · exact held before present same
  · intro earlier after listed
    obtain ⟨before, -, exchanged⟩ := exists_of_forall₂ related listed
    rw [exchanged.clusterMembers, reportsFrom_eq sites earlier uniform]

/-- What holds after every run of exchanges. -/
structure RunEffect (live : List Replica) (multiplier : ℚ) (last : List Replica) : Prop where
  cluster : LiveCluster last multiplier
  sites : last.map Replica.site = live.map Replica.site

theorem run_effect (cluster : LiveCluster live multiplier)
    (run : Run (exchange collation) live turns last) : RunEffect live multiplier last := by
  have preserved : ∀ {state turn next}, RunEffect live multiplier state →
      exchange collation state turn = some next → RunEffect live multiplier next := by
    intro state turn next before taken
    have effect := exchange_effect before.cluster taken
    exact ⟨before.cluster.of_sites effect.sites effect.uniform, effect.sites.trans before.sites⟩
  exact run.invariant preserved ⟨cluster, rfl⟩

/-- One exchange is enough for the multiplier. -/
theorem run_uniform (cluster : LiveCluster live multiplier)
    (run : Run (exchange collation) live turns last) (exchanged : turns ≠ []) :
    Uniform multiplier last := by
  cases run with
  | nil => exact absurd rfl exchanged
  | cons taken rest =>
    have effect := exchange_effect cluster taken
    have preserved : ∀ {state turn next}, LiveCluster state multiplier ∧ Uniform multiplier state →
        exchange collation state turn = some next →
        LiveCluster next multiplier ∧ Uniform multiplier next := by
      rintro state turn next ⟨held, -⟩ taken
      have effect := exchange_effect held taken
      exact ⟨held.of_sites effect.sites effect.uniform, effect.uniform⟩
    exact (rest.invariant preserved ⟨cluster.of_sites effect.sites effect.uniform, effect.uniform⟩).2

private theorem run_clusterKnown (cluster : LiveCluster live multiplier) (uniform : Uniform multiplier live)
    (run : Run (exchange collation) live turns last) (exchanged : turns ≠ []) :
    ClusterKnown collation last := by
  induction run with
  | nil => exact absurd rfl exchanged
  | @cons live turn next turns last taken rest ih =>
    have effect := exchange_effect cluster taken
    by_cases final : turns = []
    · subst final
      cases rest
      exact effect.clusterKnown uniform
    · exact ih (cluster.of_sites effect.sites effect.uniform) effect.uniform final

/-- An identity knows its members once one of them has exchanged. -/
private theorem run_known (cluster : LiveCluster live multiplier)
    (run : Run (exchange collation) live turns last) (identity : String)
    (informed : Known identity live ∨ ∃ turn ∈ turns, ∃ own,
      live[turn.position]? = some own ∧ own.identity = identity) : Known identity last := by
  induction run with
  | nil =>
    rcases informed with known | ⟨turn, member, -⟩
    · exact known
    · cases member
  | @cons live turn next turns last taken rest ih =>
    have effect := exchange_effect cluster taken
    apply ih (cluster.of_sites effect.sites effect.uniform)
    rcases informed with known | ⟨performer, member, own, placed, rfl⟩
    · exact .inl (effect.known identity known)
    · rcases List.mem_cons.mp member with rfl | later
      · obtain ⟨own', placed', known⟩ := effect.performed
        obtain rfl := Option.some.inj (placed.symm.trans placed')
        exact .inl known
      · right
        have moved := congrArg (fun sites => sites[performer.position]?) effect.sites
        simp only [List.getElem?_map, placed, Option.map_some] at moved
        obtain ⟨other, placed', same⟩ := Option.map_eq_some_iff.mp moved
        have identity : other.identity = own.identity :=
          congrArg (fun site : Credentials × ℚ => site.1.identity) same
        exact ⟨performer, later, other, placed', identity⟩

/-- A pass in which a replica of every identity performs an exchange. -/
def Covers (turns : List Exchange) (live : List Replica) : Prop :=
  ∀ replica ∈ live, ∃ turn ∈ turns, ∃ own,
    live[turn.position]? = some own ∧ own.identity = replica.identity

/-- All replicas agree on what they report and on who they are. -/
structure Settled (collation : Collation) (multiplier : ℚ) (live : List Replica) : Prop where
  uniform : Uniform multiplier live
  clusterKnown : ClusterKnown collation live
  known : ∀ replica ∈ live, replica.replicaMembers = some (membersFrom replica.identity live)

theorem LiveCluster.nonempty (cluster : LiveCluster live multiplier) : live ≠ [] := by
  rintro rfl
  cases cluster.largest

theorem Covers.ne_nil (covers : Covers turns live) (nonempty : live ≠ []) : turns ≠ [] := by
  obtain ⟨replica, present⟩ := List.exists_mem_of_ne_nil live nonempty
  obtain ⟨turn, member, -⟩ := covers replica present
  exact List.ne_nil_of_mem member

/-- The first pass brings the largest multiplier and the lists of the identities,
the second the cluster list, whose intervals the first has changed. -/
private theorem settled_of_passes (cluster : LiveCluster live multiplier) (first : Covers earlier live)
    (second : Covers later live) (run : Run (exchange collation) live (earlier ++ later) last) :
    Settled collation multiplier last := by
  obtain ⟨middle, before, after⟩ := run_append_iff.mp run
  have passed := run_effect cluster before
  have done := run_effect cluster run
  have uniform := run_uniform cluster before (first.ne_nil cluster.nonempty)
  refine ⟨run_uniform passed.cluster after (second.ne_nil cluster.nonempty),
    run_clusterKnown passed.cluster uniform after (second.ne_nil cluster.nonempty), ?_⟩
  intro replica present
  obtain ⟨other, listed, same⟩ := exists_same_site done.sites.symm present
  have identity : other.identity = replica.identity :=
    congrArg (fun site : Credentials × ℚ => site.1.identity) same
  obtain ⟨turn, member, own, placed, shared⟩ := first other listed
  exact run_known cluster run replica.identity
    (.inr ⟨turn, List.mem_append_left _ member, own, placed, shared.trans identity⟩) replica present rfl

/-- The live replicas with the SHARE messages sent since they settled. -/
structure Gossip where
  live : List Replica
  sent : List ShareMessage := []
  deriving DecidableEq, Repr

/-- A replica aggregates the STATUS messages of all and sends its SHARE message, or
takes any messages sent so far as one buffer. -/
inductive GossipEvent where
  | share (turn : Exchange)
  | receive (position : ℕ) (buffer : List ShareMessage)
  deriving DecidableEq, Repr

def Gossip.step (collation : Collation) (gossip : Gossip) : GossipEvent → Option Gossip
  | .share turn =>
    if turn.statuses.Perm (gossip.live.map Replica.statusMessage) then do
      let own ← gossip.live[turn.position]?
      let (started, share) ← own.handleStatuses collation turn.hasStarted turn.statuses
      return ⟨gossip.live.set turn.position started, gossip.sent ++ [share]⟩
    else none
  | .receive position buffer =>
    if buffer ≠ [] ∧ ∀ message ∈ buffer, message ∈ gossip.sent then do
      let target ← gossip.live[position]?
      let after ← target.handleShares collation buffer
      return { gossip with live := gossip.live.set position after }
    else none

/-- Settled replicas, and only messages that tell what they hold. -/
structure Quiet (collation : Collation) (multiplier : ℚ) (gossip : Gossip) : Prop where
  cluster : LiveCluster gossip.live multiplier
  settled : Settled collation multiplier gossip.live
  produced : FromExchanges collation gossip.live multiplier gossip.sent

theorem Quiet.unmoved (quiet : Quiet collation multiplier gossip) (present : target ∈ gossip.live)
    (nonempty : buffer ≠ []) (sent : ∀ message ∈ buffer, message ∈ gossip.sent) :
    target.shouldReload (target.aggregateShareState collation buffer) = false ∧
      target.handleShares collation buffer = some target := by
  have silent := quiet.cluster.shouldReload_eq_false nonempty
    (fun message member => quiet.produced message (sent message member)) ⟨target, present, rfl⟩
    (quiet.settled.uniform target present) (quiet.settled.clusterKnown target present)
    (quiet.settled.known target present)
  exact ⟨silent, by simp [Replica.handleShares, Node.handleShareMessage, silent, Replica.configure]⟩

/-- A replica put in place of another that has its site, its multiplier and its lists. -/
theorem Quiet.replace (quiet : Quiet collation multiplier gossip)
    (placed : gossip.live[position]? = some own) (site : started.site = own.site)
    (limit : multiplierOf started = multiplier) (members : started.replicaMembers = own.replicaMembers)
    (reports : started.clusterMembers = own.clusterMembers) :
    Quiet collation multiplier { gossip with live := gossip.live.set position started } := by
  obtain ⟨inside, held⟩ := List.getElem?_eq_some_iff.mp placed
  have present := List.mem_of_getElem? placed
  have sites : (gossip.live.set position started).map Replica.site = gossip.live.map Replica.site := by
    rw [List.map_set, site, ← held, ← List.getElem_map Replica.site, List.set_getElem_self]
    simpa using inside
  have uniform : Uniform multiplier (gossip.live.set position started) := by
    intro replica member
    rcases List.mem_or_eq_of_mem_set member with kept | rfl
    · exact quiet.settled.uniform replica kept
    · exact limit
  have listed : reportsFrom collation (gossip.live.set position started) =
      reportsFrom collation gossip.live := reportsFrom_eq sites quiet.settled.uniform uniform
  refine ⟨quiet.cluster.of_sites sites uniform, ⟨uniform, ?_, ?_⟩, ?_⟩
  · intro replica member
    rw [listed]
    rcases List.mem_or_eq_of_mem_set member with kept | rfl
    · exact quiet.settled.clusterKnown replica kept
    · exact reports.trans (quiet.settled.clusterKnown own present)
  · intro replica member
    rw [membersFrom_eq sites]
    rcases List.mem_or_eq_of_mem_set member with kept | rfl
    · exact quiet.settled.known replica kept
    · have identity : replica.identity = own.identity :=
        congrArg (fun site : Credentials × ℚ => site.1.identity) site
      rw [members, identity]
      exact quiet.settled.known own present
  · intro message member
    obtain ⟨sender, owned, rfl⟩ := quiet.produced message member
    obtain ⟨other, found, same⟩ := exists_same_site sites owned
    have credentials : other.getSenderCredentials = sender.getSenderCredentials := congrArg Prod.fst same
    refine ⟨other, found, ?_⟩
    simp only [shareFrom, listed, membersFrom_eq sites, credentials]
    rw [show other.identity = sender.identity from congrArg Credentials.identity credentials]

theorem Quiet.step {gossip later : Gossip} (quiet : Quiet collation multiplier gossip)
    (taken : gossip.step collation event = some later) : Quiet collation multiplier later := by
  cases event with
  | share turn =>
    by_cases answered : turn.statuses.Perm (gossip.live.map Replica.statusMessage)
    · rw [Gossip.step, if_pos answered] at taken
      obtain ⟨own, placed, taken⟩ := Option.bind_eq_some_iff.mp taken
      have present := List.mem_of_getElem? placed
      obtain ⟨started, shared, site, raised, members, reports⟩ :=
        quiet.cluster.handleStatuses_completes collation own answered turn.hasStarted
      have limit : multiplierOf started = multiplier := by
        rcases raised with kept | reached
        · exact kept.trans (quiet.settled.uniform own present)
        · exact reached
      rw [quiet.settled.known own present] at members
      rw [quiet.settled.clusterKnown own present] at reports
      have spoken : Quiet collation multiplier { gossip with
          sent := gossip.sent ++ [shareFrom collation gossip.live multiplier own] } := by
        refine ⟨quiet.cluster, quiet.settled, ?_⟩
        intro message member
        rcases List.mem_append.mp member with earlier | new
        · exact quiet.produced message earlier
        · exact ⟨own, present, List.mem_singleton.mp new⟩
      simp only [shared, bind, Option.bind, pure, Option.some.injEq] at taken
      subst taken
      exact spoken.replace placed site limit
        (members.trans (quiet.settled.known own present).symm)
        (reports.trans (quiet.settled.clusterKnown own present).symm)
    · rw [Gossip.step, if_neg answered] at taken
      cases taken
  | receive position buffer =>
    by_cases delivered : buffer ≠ [] ∧ ∀ message ∈ buffer, message ∈ gossip.sent
    · rw [Gossip.step, if_pos delivered] at taken
      obtain ⟨target, placed, taken⟩ := Option.bind_eq_some_iff.mp taken
      have present := List.mem_of_getElem? placed
      have unmoved := (quiet.unmoved present delivered.1 delivered.2).2
      simp only [unmoved, bind, Option.bind, pure, Option.some.injEq] at taken
      subst taken
      exact quiet.replace placed rfl (quiet.settled.uniform target present) rfl rfl
    · rw [Gossip.step, if_neg delivered] at taken
      cases taken

/-- Discovery converges. No exchange fails; after two passes in which every identity
exchanges, all replicas hold one cluster list and the largest multiplier, and each
identity one replica list; and from then on no buffer of the SHARE messages sent makes
a replica reload or changes it. -/
theorem discovery_converges (cluster : LiveCluster live multiplier) (first : Covers earlier live)
    (second : Covers later live) (run : Run (exchange collation) live (earlier ++ later) last) :
    (∀ turns reached, Run (exchange collation) live turns reached → ∀ turn : Exchange,
        turn.statuses.Perm (reached.map Replica.statusMessage) → turn.position < reached.length →
        ∃ next, exchange collation reached turn = some next) ∧
      (∃ reports, ∀ replica ∈ last,
        replica.clusterMembers = some reports ∧ multiplierOf replica = multiplier) ∧
      (∀ replica ∈ last, ∀ other ∈ last, replica.identity = other.identity →
        replica.replicaMembers = other.replicaMembers) ∧
      ∀ events gossip, Run (Gossip.step collation) ⟨last, []⟩ events gossip →
        ∀ replica ∈ gossip.live, ∀ buffer, buffer ≠ [] → (∀ message ∈ buffer, message ∈ gossip.sent) →
          replica.shouldReload (replica.aggregateShareState collation buffer) = false ∧
            replica.handleShares collation buffer = some replica := by
  have settled := settled_of_passes cluster first second run
  refine ⟨?_, ?_, ?_, ?_⟩
  · intro turns reached ran turn answered inside
    have completed := (run_effect cluster ran).cluster.exchange_completes collation
      answered (List.getElem?_eq_getElem inside)
    obtain ⟨next, taken, -⟩ := completed
    exact ⟨next, taken⟩
  · exact ⟨_, fun replica present =>
      ⟨settled.clusterKnown replica present, settled.uniform replica present⟩⟩
  · intro replica present other listed same
    rw [settled.known replica present, settled.known other listed, same]
  · intro events gossip ran
    have initial : Quiet collation multiplier ⟨last, []⟩ :=
      ⟨(run_effect cluster run).cluster, settled, fun message member => by cases member⟩
    have quiet := ran.invariant Quiet.step initial
    exact fun replica present buffer nonempty sent => quiet.unmoved present nonempty sent

instance (turns : List Exchange) (live : List Replica) : Decidable (Covers turns live) := by
  unfold Covers
  exact inferInstance

/-- Two replicas of `kraken`, one of which has backed off, beside one of `binance`. -/
def mixedCluster : List Replica :=
  joiningCluster ++ [{ limitedReplica "b1" 1 with identity := "binance" }]

/-- The answers of the cluster once all its replicas run at the multiplier two. -/
def slowedAnswers : List StatusMessage :=
  mixedCluster.map fun replica => ⟨replica.getSenderCredentials, 2, 2000⟩

def firstPass : List Exchange :=
  [⟨0, false, mixedCluster.map Replica.statusMessage⟩, ⟨2, true, slowedAnswers⟩]

def secondPass : List Exchange := [⟨2, false, slowedAnswers⟩, ⟨1, true, slowedAnswers.reverse⟩]

theorem discovery_converges_mixedCluster :
    ∃ last, Run (exchange .ascii) mixedCluster (firstPass ++ secondPass) last ∧
      (∃ reports, ∀ replica ∈ last, replica.clusterMembers = some reports ∧ multiplierOf replica = 2) ∧
      ∀ replica ∈ last, ∀ other ∈ last, replica.identity = other.identity →
        replica.replicaMembers = other.replicaMembers := by
  have executed : (execute (exchange .ascii) mixedCluster (firstPass ++ secondPass)).isSome := by
    decide +kernel
  obtain ⟨last, reached⟩ := Option.isSome_iff_exists.mp executed
  have run := run_iff_execute.mpr reached
  have cluster : LiveCluster mixedCluster 2 :=
    ⟨by decide +kernel, by decide +kernel, by decide +kernel, by decide +kernel, by decide +kernel⟩
  obtain ⟨-, reports, members, -⟩ := discovery_converges cluster (by decide +kernel) (by decide +kernel) run
  exact ⟨last, run, reports, members⟩

end PriceFeed.Discovery
