import PriceFeed.Discovery.StateManager
import PriceFeed.Library.Lists

/-! Which report decides each entry of a merged SHARE buffer, and when two
replicas that met the same messages in different orders adopt the same state. -/

namespace PriceFeed.Discovery

open PriceFeed.Library

/-- Every mention of one address, in the order in which the reversed buffer is visited. -/
def mentionsOf (address : String) (buffer : List ShareMessage) : List (String × MemberReport) :=
  (ClusterMembersReducer.mentions buffer).filter fun mention => mention.2.address = address

/-- The entry that survives the merge: the last self-report visited, which is
the earliest to arrive, or else the first mention visited, which is the latest. -/
def decidingReport (address : String) (buffer : List ShareMessage) : Option MemberReport :=
  (((mentionsOf address buffer).filter fun mention => mention.1 = address).getLast? <|>
    (mentionsOf address buffer).head?).map Prod.snd

/-- The members listed by the last message of the identity. -/
def lastMembers (identity : String) (buffer : List ShareMessage) : Option (List String) :=
  ReplicaMembersReducer.aggregateShareState identity buffer

namespace ClusterMembersReducer

/-- The fold over mentions answers each address with the last self-report, the
entry it started with, or the first mention, in this order of preference. -/
private theorem get?_foldl_recordMention (visited : List (String × MemberReport))
    (map : OrderedMap String MemberReport) (address : String) :
    (visited.foldl recordMention map).get? address =
      ((((visited.filter fun mention => mention.2.address = address).filter
          fun mention => mention.1 = address).getLast?.map Prod.snd) <|>
        map.get? address <|>
        ((visited.filter fun mention => mention.2.address = address).head?.map Prod.snd)) := by
  induction visited generalizing map with
  | nil => cases held : map.get? address <;> simp [held]
  | cons mention rest ih =>
    obtain ⟨reporter, member⟩ := mention
    rw [List.foldl_cons, ih]
    by_cases here : member.address = address
    · subst here
      by_cases own : reporter = member.address
      · simp only [recordMention, own, or_true, ↓reduceIte, OrderedMap.get?_set_self,
          decide_true, List.filter_cons_of_pos, List.getLast?_cons]
        cases (((rest.filter fun mention => mention.2.address = member.address).filter
          fun mention => mention.1 = member.address).getLast?) <;> simp
      · cases held : map.get? member.address with
        | none => simp [recordMention, held, own]
        | some entry => simp [recordMention, held, own]
    · have untouched : (recordMention map (reporter, member)).get? address = map.get? address := by
        simp only [recordMention]
        split
        · simp [OrderedMap.get?_set, here]
        · rfl
      simp [untouched, here]

theorem get?_mentions (buffer : List ShareMessage) (address : String) :
    ((mentions buffer).foldl recordMention .empty).get? address = decidingReport address buffer := by
  rw [get?_foldl_recordMention]
  simp [decidingReport, mentionsOf, Option.map_or]

end ClusterMembersReducer

theorem mem_mentionsOf_of_listed {message : ShareMessage} {member : MemberReport}
    (sent : message ∈ buffer) (listed : member ∈ message.data.clusterMembers) :
    (message.sender.address, member) ∈ mentionsOf member.address buffer := by
  apply List.mem_filter.mpr
  refine ⟨List.mem_flatMap.mpr ⟨message, List.mem_reverse.mpr sent, ?_⟩, by simp⟩
  exact List.mem_map.mpr ⟨member, listed, rfl⟩

theorem mem_mentionsOf {mention : String × MemberReport} (visited : mention ∈ mentionsOf address buffer) :
    ∃ message ∈ buffer, mention.2 ∈ message.data.clusterMembers ∧ mention.2.address = address := by
  obtain ⟨among, here⟩ := List.mem_filter.mp visited
  obtain ⟨message, sent, carried⟩ := List.mem_flatMap.mp among
  obtain ⟨member, listed, rfl⟩ := List.mem_map.mp carried
  exact ⟨message, List.mem_reverse.mp sent, listed, by simpa using here⟩

theorem exists_decidingReport {mention : String × MemberReport}
    (mentioned : mention ∈ mentionsOf address buffer) :
    ∃ report, decidingReport address buffer = some report := by
  apply Option.isSome_iff_exists.mp
  cases first : (mentionsOf address buffer).head? with
  | none =>
    rw [List.head?_eq_none_iff] at first
    simp [first] at mentioned
  | some mention => simp [decidingReport, first]

theorem mem_mentionsOf_of_decidingReport (decided : decidingReport address buffer = some report) :
    ∃ mention ∈ mentionsOf address buffer, mention.2 = report := by
  obtain ⟨mention, chosen, rfl⟩ := Option.map_eq_some_iff.mp decided
  refine ⟨mention, ?_, rfl⟩
  cases self : ((mentionsOf address buffer).filter fun mention => mention.1 = address).getLast? with
  | none =>
    rw [self] at chosen
    exact List.mem_of_head? chosen
  | some own =>
    rw [self] at chosen
    obtain rfl := Option.some.inj chosen
    exact (List.mem_filter.mp (List.mem_of_getLast? self)).1

theorem address_of_decidingReport (decided : decidingReport address buffer = some report) :
    report.address = address := by
  obtain ⟨mention, visited, rfl⟩ := mem_mentionsOf_of_decidingReport decided
  obtain ⟨_, _, _, here⟩ := mem_mentionsOf visited
  exact here

variable (collation : Collation)

theorem mem_aggregateShareState {buffer : List ShareMessage} {report : MemberReport} :
    report ∈ ClusterMembersReducer.aggregateShareState collation buffer ↔
      decidingReport report.address buffer = some report := by
  rw [ClusterMembersReducer.aggregateShareState, List.mem_insertionSort,
    OrderedMap.mem_values_iff]
  simp only [ClusterMembersReducer.get?_mentions]
  constructor
  · rintro ⟨address, decided⟩
    rwa [address_of_decidingReport decided]
  · exact fun decided => ⟨report.address, decided⟩

theorem mem_buffer_of_mem_aggregateShareState {buffer : List ShareMessage} {report : MemberReport}
    (merged : report ∈ ClusterMembersReducer.aggregateShareState collation buffer) :
    ∃ message ∈ buffer, report ∈ message.data.clusterMembers := by
  have decided := (mem_aggregateShareState collation).mp merged
  obtain ⟨mention, visited, rfl⟩ := mem_mentionsOf_of_decidingReport decided
  obtain ⟨message, sent, listed, _⟩ := mem_mentionsOf visited
  exact ⟨message, sent, listed⟩

instance : Std.Total (ClusterMembersReducer.addressLe collation) :=
  ⟨fun first second => collation.total first.address second.address⟩

instance : IsTrans MemberReport (ClusterMembersReducer.addressLe collation) :=
  ⟨fun first second third => collation.trans first.address second.address third.address⟩

/-- Two buffers merge to the same list exactly when they decide every address alike. -/
theorem aggregateShareState_eq_iff (first second : List ShareMessage) :
    ClusterMembersReducer.aggregateShareState collation first =
        ClusterMembersReducer.aggregateShareState collation second ↔
      ∀ address, decidingReport address first = decidingReport address second := by
  constructor
  · intro same address
    apply Option.ext
    intro report
    have transfer : ∀ {buffer other : List ShareMessage},
        ClusterMembersReducer.aggregateShareState collation buffer =
          ClusterMembersReducer.aggregateShareState collation other →
        decidingReport address buffer = some report → decidingReport address other = some report := by
      intro buffer other equal decided
      have here := address_of_decidingReport decided
      subst here
      rwa [← mem_aggregateShareState collation, ← equal, mem_aggregateShareState]
    exact ⟨transfer same, transfer same.symm⟩
  · intro same
    have lookups : ∀ address,
        ((ClusterMembersReducer.mentions first).foldl ClusterMembersReducer.recordMention .empty).get?
            address =
          ((ClusterMembersReducer.mentions second).foldl ClusterMembersReducer.recordMention
            .empty).get? address := by
      intro address
      rw [ClusterMembersReducer.get?_mentions, ClusterMembersReducer.get?_mentions, same]
    have permuted := OrderedMap.values_perm_of_get? lookups
    refine insertionSort_eq_of_perm ?_ permuted
    intro report listed other listed' before after
    have member := (List.mem_insertionSort (ClusterMembersReducer.addressLe collation)).mpr listed
    have present := (List.mem_insertionSort (ClusterMembersReducer.addressLe collation)).mpr
      (permuted.mem_iff.mp listed')
    have shared := collation.separates _ _ before after
    have decided := (mem_aggregateShareState collation).mp member
    have decided' := (mem_aggregateShareState collation).mp present
    rw [shared, same] at decided
    exact Option.some.inj (decided.symm.trans decided')

/-- What a replica holds once a SHARE buffer has been merged and its vote carried out. -/
structure AdoptedState where
  replicaMembers : Option (List String)
  clusterMembers : Option (List MemberReport)
  rateLimitMultiplier : ℚ
  deriving DecidableEq, Repr

def Replica.adopted (replica : Replica) : AdoptedState :=
  ⟨replica.replicaMembers, replica.clusterMembers, replica.internalScheduler.rateLimitMultiplier⟩

/-- `aggregateShareState`, then `updateState`, with the multiplier the reload would set. -/
def Replica.adoptShare (replica : Replica) (buffer : List ShareMessage) : AdoptedState :=
  let state := replica.aggregateShareState collation buffer
  { (replica.updateState state).adopted with
    rateLimitMultiplier :=
      state.rateLimitMultiplier.getD replica.internalScheduler.rateLimitMultiplier }

theorem mathMax_perm (permuted : first.Perm second) : mathMax first = mathMax second := by
  apply Option.ext
  intro value
  simp only [mathMax, List.max?_eq_some_iff, permuted.mem_iff]

/-- A message names a replica when its cluster lists the replica's address and,
if the sender is of the same identity, its replica list does too. -/
def ShareMessage.Names (message : ShareMessage) (replica : Replica) : Prop :=
  (∃ member ∈ message.data.clusterMembers, member.address = replica.address) ∧
    (message.sender.identity = replica.identity → replica.address ∈ message.data.replicaMembers)

private theorem sanitize_aggregateShareState {replica : Replica} {buffer : List ShareMessage}
    (nonempty : buffer ≠ []) (named : ∀ message ∈ buffer, message.Names replica) :
    ClusterMembersReducer.sanitizeShareState replica.address
        (some (ClusterMembersReducer.aggregateShareState collation buffer)) =
      some (ClusterMembersReducer.aggregateShareState collation buffer) := by
  obtain ⟨message, present⟩ := List.exists_mem_of_ne_nil buffer nonempty
  obtain ⟨member, listed, own⟩ := (named message present).1
  have mentioned := mem_mentionsOf_of_listed present listed
  rw [own] at mentioned
  obtain ⟨report, chosen⟩ := exists_decidingReport mentioned
  have here := address_of_decidingReport chosen
  simp only [ClusterMembersReducer.sanitizeShareState, Option.filter_eq_some_iff, List.any_eq_true]
  refine ⟨trivial, report, ?_, by simpa using here⟩
  rw [mem_aggregateShareState, here]
  exact chosen

private theorem sanitize_lastMembers {replica : Replica} {buffer : List ShareMessage}
    (named : ∀ message ∈ buffer, message.Names replica) :
    ReplicaMembersReducer.sanitizeShareState replica.address (lastMembers replica.identity buffer) =
      lastMembers replica.identity buffer := by
  cases last : lastMembers replica.identity buffer with
  | none => rfl
  | some members =>
    obtain ⟨message, final, rfl⟩ := Option.map_eq_some_iff.mp last
    obtain ⟨present, own⟩ := List.mem_filter.mp (List.mem_of_getLast? final)
    have listed := (named message present).2 (by simpa using own)
    simp [ReplicaMembersReducer.sanitizeShareState, Option.filter_eq_some_iff, listed]

theorem lastMembers_eq_none_of_perm (permuted : first.Perm second)
    (absent : lastMembers identity first = none) : lastMembers identity second = none := by
  simp only [lastMembers, ReplicaMembersReducer.aggregateShareState, Option.map_eq_none_iff,
    List.getLast?_eq_none_iff, List.filter_eq_nil_iff] at absent ⊢
  exact fun message member => absent message (permuted.mem_iff.mpr member)

/-- After merging messages that name it, a replica holds the deciding lists, and
keeps its own where no message carries one. -/
theorem adoptShare_eq {replica : Replica} {buffer : List ShareMessage}
    (named : ∀ message ∈ buffer, message.Names replica) :
    replica.adoptShare collation buffer =
      { replicaMembers := lastMembers replica.identity buffer <|> replica.replicaMembers
        clusterMembers :=
          if buffer = [] then replica.clusterMembers
          else some (ClusterMembersReducer.aggregateShareState collation buffer)
        rateLimitMultiplier :=
          (RateLimitReducer.sanitizeShareState replica.internalScheduler.rateLimitMultiplier
            (RateLimitReducer.aggregateShareState buffer)).getD
              replica.internalScheduler.rateLimitMultiplier } := by
  have members := sanitize_lastMembers named
  simp only [lastMembers] at members
  by_cases none : buffer = []
  · subst none
    rfl
  · have cluster := sanitize_aggregateShareState collation none named
    simp [Replica.adoptShare, Replica.adopted, Replica.updateState, Replica.aggregateShareState,
      Replica.sanitizeShareState, ReplicaMembersReducer.updateState,
      ClusterMembersReducer.updateState, members, cluster, none, lastMembers]

/-- Two replicas of one identity that hold the same state and receive the same
SHARE messages agree on the multiplier whatever the arrival orders, and agree on
their lists exactly when the two orders have the same last list of the identity
and the same deciding report for every address. -/
theorem shareAgreement {first second : Replica} {received reordered : List ShareMessage}
    (identity : first.identity = second.identity) (state : first.adopted = second.adopted)
    (delivered : received.Perm reordered)
    (namesFirst : ∀ message ∈ received, message.Names first)
    (namesSecond : ∀ message ∈ received, message.Names second) :
    (first.adoptShare collation received).rateLimitMultiplier =
        (second.adoptShare collation reordered).rateLimitMultiplier ∧
      (first.adoptShare collation received = second.adoptShare collation reordered ↔
        lastMembers first.identity received = lastMembers first.identity reordered ∧
          ∀ address, decidingReport address received = decidingReport address reordered) := by
  have namesSecond' : ∀ message ∈ reordered, message.Names second :=
    fun message member => namesSecond message (delivered.mem_iff.mpr member)
  simp only [Replica.adopted, AdoptedState.mk.injEq] at state
  obtain ⟨members, cluster, multiplier⟩ := state
  have limits : RateLimitReducer.aggregateShareState received =
      RateLimitReducer.aggregateShareState reordered :=
    mathMax_perm (delivered.map _)
  rw [adoptShare_eq collation namesFirst, adoptShare_eq collation namesSecond']
  refine ⟨by simp only [multiplier, limits], ?_⟩
  rw [← aggregateShareState_eq_iff collation]
  simp only [AdoptedState.mk.injEq, multiplier, limits, and_true, ← identity, members, cluster]
  have replicaLists : (lastMembers first.identity received <|> second.replicaMembers) =
        (lastMembers first.identity reordered <|> second.replicaMembers) ↔
      lastMembers first.identity received = lastMembers first.identity reordered := by
    cases left : lastMembers first.identity received with
    | none => simp [lastMembers_eq_none_of_perm delivered left]
    | some list =>
      cases right : lastMembers first.identity reordered with
      | none => rw [lastMembers_eq_none_of_perm delivered.symm right] at left; cases left
      | some other => simp
  have emptied : received = [] ↔ reordered = [] :=
    ⟨fun none => by simpa [none] using delivered, fun none => by simpa [none] using delivered⟩
  rw [replicaLists]
  by_cases none : received = []
  · obtain rfl := none
    obtain rfl := emptied.mp rfl
    simp
  · simp [none, mt emptied.mpr none]

/-- A replica of the identity `kraken` whose discovery has adopted the two known addresses. -/
def knownPair (address : String) : Replica where
  address := address
  identity := "kraken"
  internalScheduler := { baseRateLimit := 1000, rateLimitMargin := 0, queueSize := 1, operations := 1 }
  replicaMembers := some ["q1", "q2"]
  clusterMembers := some [⟨"q1", "kraken", 1000⟩, ⟨"q2", "kraken", 1000⟩]

/-- A report made before the third replica was seen. -/
def earlyShare : ShareMessage :=
  ⟨⟨"q1", "kraken"⟩, ["q1", "q2"], 1, [⟨"q1", "kraken", 1000⟩, ⟨"q2", "kraken", 1000⟩]⟩

def lateShare : ShareMessage :=
  ⟨⟨"q2", "kraken"⟩, ["q1", "q2", "q3"], 1,
    [⟨"q1", "kraken", 1000⟩, ⟨"q2", "kraken", 1000⟩, ⟨"q3", "kraken", 1000⟩]⟩

instance (message : ShareMessage) (replica : Replica) : Decidable (message.Names replica) :=
  inferInstanceAs (Decidable (_ ∧ _))

/-- Arrival order alone separates two replicas: each adopts the list of the message it met last. -/
theorem shareOrder_disagrees : ¬ ∀ (collation : Collation) (first second : Replica)
    (received reordered : List ShareMessage), first.identity = second.identity →
    first.adopted = second.adopted → received.Perm reordered →
    (∀ message ∈ received, message.Names first ∧ message.Names second) →
    first.adoptShare collation received = second.adoptShare collation reordered := by
  intro agreement
  have same := agreement .ascii (knownPair "q1") (knownPair "q2") [earlyShare, lateShare]
    [lateShare, earlyShare] rfl rfl (List.Perm.swap ..) (by decide)
  revert same
  decide +kernel

theorem shareAgreement_knownPair :
    ((knownPair "q1").adoptShare .ascii [earlyShare, lateShare]).rateLimitMultiplier =
        ((knownPair "q2").adoptShare .ascii [lateShare, earlyShare]).rateLimitMultiplier ∧
      ((knownPair "q1").adoptShare .ascii [earlyShare, lateShare] =
          (knownPair "q2").adoptShare .ascii [lateShare, earlyShare] ↔
        lastMembers "kraken" [earlyShare, lateShare] = lastMembers "kraken" [lateShare, earlyShare] ∧
          ∀ address, decidingReport address [earlyShare, lateShare] =
            decidingReport address [lateShare, earlyShare]) :=
  shareAgreement .ascii rfl rfl (List.Perm.swap ..) (by decide) (by decide)

end PriceFeed.Discovery
