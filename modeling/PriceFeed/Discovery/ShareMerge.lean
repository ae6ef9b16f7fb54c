import PriceFeed.Discovery.ShareAgreement

/-! Which message each entry of a merged SHARE buffer comes from, beside the freshest
report that there is of its address. -/

namespace PriceFeed.Discovery

open PriceFeed.Library

/-- The entries of a message about one address. -/
def ShareMessage.listed (message : ShareMessage) (address : String) : List MemberReport :=
  message.data.clusterMembers.filter fun member => member.address = address

/-- The messages that mention an address, as they arrived. -/
def mentioning (address : String) (buffer : List ShareMessage) : List ShareMessage :=
  buffer.filter fun message => message.listed address ≠ []

/-- Those that the address has sent itself. -/
def selfReports (address : String) (buffer : List ShareMessage) : List ShareMessage :=
  (mentioning address buffer).filter fun message => message.sender.address = address

section Parts

variable {Item Part : Type*} (parts : Item → List Part) (keeps : Item → Bool)

/-- The first part of all is the first one of the first item that has any. -/
theorem head?_flatMap_filter (items : List Item) (kept : ∀ item, keeps item ↔ parts item ≠ []) :
    (items.flatMap parts).head? = (items.filter keeps).head?.bind fun item => (parts item).head? := by
  induction items with
  | nil => rfl
  | cons item rest ih =>
    rw [List.flatMap_cons, List.filter_cons]
    cases own : parts item with
    | nil =>
      have dropped : ¬ keeps item := fun held => (kept item).mp held own
      rw [if_neg dropped, List.nil_append, ih]
    | cons first others =>
      have held : keeps item := (kept item).mpr (by simp [own])
      simp [held, own]

private theorem getLast?_flatMap_filter (items : List Item) (kept : ∀ item, keeps item ↔ parts item ≠ []) :
    (items.flatMap parts).getLast? = (items.filter keeps).getLast?.bind fun item => (parts item).getLast? := by
  have reversed := head?_flatMap_filter (fun item => (parts item).reverse) keeps items.reverse
    (by simpa using kept)
  rw [List.getLast?_eq_head?_reverse, List.reverse_flatMap]
  simpa [Function.comp_def] using reversed

end Parts

theorem mentionsOf_eq (address : String) (buffer : List ShareMessage) :
    mentionsOf address buffer = buffer.reverse.flatMap fun message =>
      (message.listed address).map fun member => (message.sender.address, member) := by
  rw [mentionsOf, ClusterMembersReducer.mentions, List.filter_flatMap]
  simp only [List.filter_map, Function.comp_def, ShareMessage.listed]

/-- The first mention visited is in the latest message that has one. -/
private theorem head?_mentionsOf (address : String) (buffer : List ShareMessage) :
    (mentionsOf address buffer).head?.map Prod.snd =
      (mentioning address buffer).getLast?.bind fun message => (message.listed address).head? := by
  rw [mentionsOf_eq, head?_flatMap_filter _ (fun message => message.listed address ≠ []) _ (by simp),
    mentioning, List.filter_reverse, List.head?_reverse, Option.map_bind]
  simp [Function.comp_def]

theorem filter_ownMentions (message : ShareMessage) (address : String) :
    ((message.listed address).map fun member => (message.sender.address, member)).filter
        (fun mention => mention.1 = address) =
      if message.sender.address = address then
        (message.listed address).map fun member => (message.sender.address, member)
      else [] := by
  split
  · next own =>
    rw [List.filter_eq_self]
    simp [own]
  · next other =>
    rw [List.filter_eq_nil_iff]
    simp [other]

/-- The last self-report visited is in the earliest message of the address itself. -/
private theorem getLast?_selfMentions (address : String) (buffer : List ShareMessage) :
    ((mentionsOf address buffer).filter fun mention => mention.1 = address).getLast?.map Prod.snd =
      (selfReports address buffer).head?.bind fun message => (message.listed address).getLast? := by
  have kept : ∀ message : ShareMessage,
      (decide (message.sender.address = address) && decide (message.listed address ≠ [])) = true ↔
        ((message.listed address).map fun member => (message.sender.address, member)).filter
          (fun mention => mention.1 = address) ≠ [] := by
    intro message
    rw [filter_ownMentions]
    by_cases own : message.sender.address = address
    · rw [if_pos own]
      simp [own]
    · rw [if_neg own]
      simp [own]
  rw [mentionsOf_eq, List.filter_flatMap, getLast?_flatMap_filter _ _ _ kept, List.filter_reverse,
    List.getLast?_reverse, selfReports, mentioning, List.filter_filter]
  cases first : (buffer.filter fun message =>
      decide (message.sender.address = address) && decide (message.listed address ≠ [])).head? with
  | none => rfl
  | some message =>
    have own : message.sender.address = address ∧ message.listed address ≠ [] := by
      simpa using (List.mem_filter.mp (List.mem_of_head? first)).2
    rw [Option.bind_some, Option.bind_some, filter_ownMentions, if_pos own.1, List.getLast?_map, Option.map_map]
    exact Option.map_id'

theorem decidingReport_eq (address : String) (buffer : List ShareMessage) :
    decidingReport address buffer =
      (((selfReports address buffer).head?.bind fun message => (message.listed address).getLast?) <|>
        ((mentioning address buffer).getLast?.bind fun message => (message.listed address).head?)) := by
  rw [decidingReport, ← head?_mentionsOf, ← getLast?_selfMentions]
  cases ((mentionsOf address buffer).filter fun mention => mention.1 = address).getLast? <;> rfl

/-- The message whose report of an address is freshest: the latest by the address itself, and
without one the latest that mentions it. -/
def freshestMessage (address : String) (buffer : List ShareMessage) : Option ShareMessage :=
  (selfReports address buffer).getLast? <|> (mentioning address buffer).getLast?

/-- The merge lists every address that is mentioned once, in order, with its freshest report. -/
structure FreshestMerge (collation : Collation) (buffer : List ShareMessage) (merged : List MemberReport) :
    Prop where
  sorted : merged.Pairwise (ClusterMembersReducer.addressLe collation)
  distinct : (merged.map MemberReport.address).Nodup
  mentioned : ∀ address, address ∈ merged.map MemberReport.address ↔
    ∃ message ∈ buffer, ∃ member ∈ message.data.clusterMembers, member.address = address
  freshest : ∀ report ∈ merged, ∃ message, freshestMessage report.address buffer = some message ∧
    report ∈ message.listed report.address

/-- Where an address has sent several messages that mention it, the report that the earliest of
them lists last for it is also listed by the latest. -/
def SelfReportsAgree (buffer : List ShareMessage) : Prop :=
  ∀ address earliest latest report, (selfReports address buffer).head? = some earliest →
    (selfReports address buffer).getLast? = some latest →
    (earliest.listed address).getLast? = some report → report ∈ latest.listed address

section Merge

variable (collation : Collation) (buffer : List ShareMessage)

private theorem map_address_values :
    (((ClusterMembersReducer.mentions buffer).foldl ClusterMembersReducer.recordMention .empty).values).map
        MemberReport.address =
      ((ClusterMembersReducer.mentions buffer).foldl ClusterMembersReducer.recordMention .empty).entries.map
        Prod.fst := by
  rw [OrderedMap.values, List.map_map]
  apply List.map_congr_left
  intro entry member
  have held := (OrderedMap.mem_entries_iff _ entry.1 entry.2).mp member
  rw [ClusterMembersReducer.get?_mentions] at held
  exact address_of_decidingReport held

private theorem aggregateShareState_distinct :
    ((ClusterMembersReducer.aggregateShareState collation buffer).map MemberReport.address).Nodup := by
  have sorted := (List.perm_insertionSort (ClusterMembersReducer.addressLe collation)
    ((ClusterMembersReducer.mentions buffer).foldl ClusterMembersReducer.recordMention .empty).values).map
      MemberReport.address
  rw [ClusterMembersReducer.aggregateShareState, sorted.nodup_iff, map_address_values]
  exact OrderedMap.distinct _

theorem mem_addresses_aggregateShareState (address : String) :
    address ∈ (ClusterMembersReducer.aggregateShareState collation buffer).map MemberReport.address ↔
      ∃ message ∈ buffer, ∃ member ∈ message.data.clusterMembers, member.address = address := by
  constructor
  · intro listed
    obtain ⟨report, merged, rfl⟩ := List.mem_map.mp listed
    obtain ⟨message, sent, held⟩ := mem_buffer_of_mem_aggregateShareState collation merged
    exact ⟨message, sent, report, held, rfl⟩
  · rintro ⟨message, sent, member, held, rfl⟩
    obtain ⟨report, decided⟩ := exists_decidingReport (mem_mentionsOf_of_listed sent held)
    have here := address_of_decidingReport decided
    refine List.mem_map.mpr ⟨report, ?_, here⟩
    rw [mem_aggregateShareState, here]
    exact decided

end Merge

/-- The merge overwrites on every self-report while it walks back, so the earliest wins, and the
entries are the freshest when it agrees with the latest. -/
theorem aggregateShareState_freshest_iff (collation : Collation) (buffer : List ShareMessage) :
    FreshestMerge collation buffer (ClusterMembersReducer.aggregateShareState collation buffer) ↔
      SelfReportsAgree buffer := by
  constructor
  · intro fresh address earliest latest report first last listed
    have decided : decidingReport address buffer = some report := by
      rw [decidingReport_eq, first, Option.bind_some, listed]
      rfl
    have here := address_of_decidingReport decided
    subst here
    obtain ⟨message, freshest, held⟩ :=
      fresh.freshest report ((mem_aggregateShareState collation).mpr decided)
    rw [freshestMessage, last] at freshest
    obtain rfl := Option.some.inj freshest
    exact held
  · intro agree
    refine ⟨List.pairwise_insertionSort _ _, aggregateShareState_distinct collation buffer,
      mem_addresses_aggregateShareState collation buffer, fun report merged => ?_⟩
    have decided := (mem_aggregateShareState collation).mp merged
    rw [decidingReport_eq] at decided
    cases first : (selfReports report.address buffer).head? with
    | none =>
      have silent : (selfReports report.address buffer).getLast? = none := by
        rw [List.getLast?_eq_none_iff, ← List.head?_eq_none_iff, first]
      rw [first] at decided
      obtain ⟨message, last, listed⟩ := Option.bind_eq_some_iff.mp decided
      refine ⟨message, ?_, List.mem_of_head? listed⟩
      rw [freshestMessage, silent]
      exact last
    | some earliest =>
      have present := List.mem_of_head? first
      obtain ⟨latest, last⟩ := Option.isSome_iff_exists.mp
        (List.getLast?_isSome.mpr (List.ne_nil_of_mem present))
      have mentions : earliest.listed report.address ≠ [] := by
        simpa using (List.mem_filter.mp (List.mem_of_mem_filter present)).2
      obtain ⟨chosen, listed⟩ := Option.isSome_iff_exists.mp (List.getLast?_isSome.mpr mentions)
      rw [first, Option.bind_some, listed] at decided
      obtain rfl := Option.some.inj decided
      refine ⟨latest, ?_, agree chosen.address earliest latest chosen first last listed⟩
      rw [freshestMessage, last]
      rfl

section TwoReports

/-- The share of one replica of the identity `kraken` about itself. -/
def shareOf (address : String) (interval : ℚ) : ShareMessage :=
  ⟨⟨address, "kraken"⟩, [address], 1, [⟨address, "kraken", interval⟩]⟩

/-- The later of two shares of a replica is left out of the merge. -/
theorem aggregateShareState_earliest :
    ClusterMembersReducer.aggregateShareState .ascii [shareOf "q1" 1000, shareOf "q1" 2000] =
        [⟨"q1", "kraken", 1000⟩] ∧
      ¬ FreshestMerge .ascii [shareOf "q1" 1000, shareOf "q1" 2000]
        (ClusterMembersReducer.aggregateShareState .ascii [shareOf "q1" 1000, shareOf "q1" 2000]) := by
  have merged : ClusterMembersReducer.aggregateShareState .ascii [shareOf "q1" 1000, shareOf "q1" 2000] =
      [⟨"q1", "kraken", 1000⟩] := by
    decide +kernel
  refine ⟨merged, fun fresh => ?_⟩
  rw [merged] at fresh
  obtain ⟨message, freshest, listed⟩ := fresh.freshest _ List.mem_cons_self
  have latest : freshestMessage "q1" [shareOf "q1" 1000, shareOf "q1" 2000] = some (shareOf "q1" 2000) := by
    decide +kernel
  obtain rfl := Option.some.inj (latest.symm.trans freshest)
  revert listed
  decide

end TwoReports

end PriceFeed.Discovery
