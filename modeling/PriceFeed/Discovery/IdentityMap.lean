import Mathlib.Algebra.BigOperators.Group.List.Basic
import PriceFeed.Discovery.StateManager

/-! What `normalizeState` makes of a member list: one entry for each identity,
with the sum of its reports, of which at most one is the own. -/

namespace PriceFeed.Discovery.ClusterMembersReducer

open PriceFeed.Library PriceFeed.Schedulers

def memberType (own identity : String) : MemberType := if identity = own then .self else .external

def reportsOf (identity : String) (reports : List MemberReport) : List MemberReport :=
  reports.filter fun report => report.identity = identity

/-- The entry of one identity: none without a report, else the sum of its intervals. -/
def identityEntry (own identity : String) (reports : List MemberReport) : Option DryMember :=
  if reportsOf identity reports = [] then none
  else some ⟨identity, memberType own identity,
    ((reportsOf identity reports).map MemberReport.interval).sum⟩

theorem get?_getIdentityMap (own identity : String) (reports : List MemberReport) :
    (getIdentityMap own reports).get? identity = identityEntry own identity reports := by
  induction reports using List.reverseRecOn generalizing identity with
  | nil => rfl
  | append_singleton reports report ih =>
    have step : getIdentityMap own (reports ++ [report]) =
        addToIdentity own (getIdentityMap own reports) report := by
      simp [getIdentityMap]
    rw [step]
    simp only [addToIdentity, ih]
    by_cases here : report.identity = identity
    · subst here
      by_cases none : reportsOf report.identity reports = []
      · have alone : reportsOf report.identity (reports ++ [report]) = [report] := by
          simp only [reportsOf] at none
          simp [reportsOf, none]
        simp [identityEntry, none, alone, memberType]
      · have more : reportsOf report.identity (reports ++ [report]) =
            reportsOf report.identity reports ++ [report] := by
          simp [reportsOf]
        simp [identityEntry, none, more]
    · have same : reportsOf identity (reports ++ [report]) = reportsOf identity reports := by
        simp [reportsOf, here]
      have kept : ∀ member, ((getIdentityMap own reports).set report.identity member).get? identity =
          identityEntry own identity reports := by
        intro member
        rw [OrderedMap.get?_set, if_neg here, ih]
      have entry : identityEntry own identity (reports ++ [report]) =
          identityEntry own identity reports := by
        simp [identityEntry, same]
      rw [entry]
      split <;> exact kept _

variable (collation : Collation)

/-- The sorted entries before they become cluster members. -/
def dryMembers (own : String) (reports : List MemberReport) : List DryMember :=
  (getIdentityMap own reports).values.insertionSort (identityLe collation)

/-- The configured members of a list of reports. -/
def hydratedMembers (own : String) (reports : List MemberReport) : List ClusterMember :=
  (dryMembers collation own reports).map fun member => ⟨member.interval, member.type⟩

theorem normalizeState_some (own : String) (reports : List MemberReport) :
    normalizeState collation own (some reports) =
      .ok { clusterMembers := some (hydratedMembers collation own reports) } := rfl

theorem mem_dryMembers {own : String} {reports : List MemberReport} {member : DryMember} :
    member ∈ dryMembers collation own reports ↔
      identityEntry own member.identity reports = some member := by
  rw [dryMembers, List.mem_insertionSort, OrderedMap.mem_values_iff]
  simp only [get?_getIdentityMap]
  constructor
  · rintro ⟨identity, found⟩
    have here : member.identity = identity := by
      simp only [identityEntry] at found
      split at found
      · cases found
      · cases found
        rfl
    rwa [here]
  · exact fun found => ⟨member.identity, found⟩

theorem type_of_identityEntry (found : identityEntry own identity reports = some member) :
    member.type = memberType own identity ∧ member.identity = identity := by
  simp only [identityEntry] at found
  split at found
  · cases found
  · cases found
    exact ⟨rfl, rfl⟩

theorem interval_of_identityEntry (found : identityEntry own identity reports = some member) :
    member.interval = ((reportsOf identity reports).map MemberReport.interval).sum := by
  simp only [identityEntry] at found
  split at found
  · cases found
  · cases found
    rfl

/-- The identities that have an entry are those that reported. -/
theorem mem_identities_iff {own identity : String} {reports : List MemberReport} :
    identity ∈ (dryMembers collation own reports).map DryMember.identity ↔ reportsOf identity reports ≠ [] := by
  constructor
  · intro listed none
    obtain ⟨member, present, rfl⟩ := List.mem_map.mp listed
    have found := (mem_dryMembers collation).mp present
    simp [identityEntry, none] at found
  · intro some
    refine List.mem_map.mpr ⟨⟨identity, memberType own identity,
      ((reportsOf identity reports).map MemberReport.interval).sum⟩, ?_, rfl⟩
    exact (mem_dryMembers collation).mpr (by simp [identityEntry, some])

/-- A self member is the entry of the own identity. -/
theorem self_iff_own {own : String} {reports : List MemberReport} {member : DryMember}
    (present : member ∈ dryMembers collation own reports) :
    member.type = .self ↔ member.identity = own := by
  have typed := (type_of_identityEntry ((mem_dryMembers collation).mp present)).1
  rw [typed, memberType]
  by_cases same : member.identity = own <;> simp [same]

/-- The entries share out the reported intervals. -/
private theorem sum_getIdentityMap (own : String) (reports : List MemberReport) :
    ((getIdentityMap own reports).values.map DryMember.interval).sum =
      (reports.map MemberReport.interval).sum := by
  induction reports using List.reverseRecOn with
  | nil => rfl
  | append_singleton reports report ih =>
    have step : getIdentityMap own (reports ++ [report]) =
        addToIdentity own (getIdentityMap own reports) report := by
      simp [getIdentityMap]
    rw [step, List.map_append, List.sum_append, ← ih, addToIdentity]
    cases found : (getIdentityMap own reports).get? report.identity with
    | none => simp [OrderedMap.values_set_new found]
    | some member =>
      obtain ⟨before, after, held, replaced⟩ := OrderedMap.values_set_held found
        { member with interval := member.interval + report.interval }
      simp only [held, replaced, List.map_append, List.map_cons, List.sum_append, List.sum_cons,
        List.map_nil, List.sum_nil]
      ring

theorem clusterInterval_hydratedMembers (own : String) (reports : List MemberReport) :
    Scheduler.clusterInterval (hydratedMembers collation own reports) =
      (reports.map MemberReport.interval).sum := by
  rw [Scheduler.clusterInterval_eq_sum, hydratedMembers, List.map_map, ← sum_getIdentityMap own]
  exact ((List.perm_insertionSort (identityLe collation) _).map DryMember.interval).sum_eq

theorem nodup_identities (own : String) (reports : List MemberReport) :
    ((dryMembers collation own reports).map DryMember.identity).Nodup := by
  have keys : (getIdentityMap own reports).values.map DryMember.identity =
      (getIdentityMap own reports).entries.map Prod.fst := by
    simp only [OrderedMap.values, List.map_map]
    apply List.map_congr_left
    rintro ⟨identity, member⟩ present
    rw [OrderedMap.mem_entries_iff, get?_getIdentityMap] at present
    exact (type_of_identityEntry present).2
  have sorted := ((List.perm_insertionSort (identityLe collation)
    (getIdentityMap own reports).values).map DryMember.identity).nodup_iff
  rw [dryMembers, sorted, keys]
  exact (getIdentityMap own reports).distinct

/-- The number of configured self members is the number of own entries: one if
the own identity reported, and none otherwise. -/
theorem count_self (own : String) (reports : List MemberReport) :
    (hydratedMembers collation own reports).countP ClusterMember.isSelf =
      if ∃ report ∈ reports, report.identity = own then 1 else 0 := by
  have counted : (hydratedMembers collation own reports).countP ClusterMember.isSelf =
      ((dryMembers collation own reports).map DryMember.identity).count own := by
    rw [hydratedMembers, List.countP_map, List.count, List.countP_map]
    apply List.countP_congr
    intro member present
    simpa [ClusterMember.isSelf] using self_iff_own collation present
  rw [counted, (nodup_identities collation own reports).count]
  have owned : own ∈ (dryMembers collation own reports).map DryMember.identity ↔
      ∃ report ∈ reports, report.identity = own := by
    rw [mem_identities_iff]
    simp [reportsOf]
  simp only [owned]

/-- The interval of the self member is the sum over the own reports. -/
theorem find_self {own : String} {reports : List MemberReport}
    (reported : ∃ report ∈ reports, report.identity = own) :
    ((hydratedMembers collation own reports).find? ClusterMember.isSelf).map ClusterMember.interval =
      some ((reportsOf own reports).map MemberReport.interval).sum := by
  have single := count_self collation own reports
  rw [if_pos reported] at single
  have positive : 0 < (hydratedMembers collation own reports).countP ClusterMember.isSelf := by omega
  obtain ⟨witness, present, isSelf⟩ := List.countP_pos_iff.mp positive
  cases found : (hydratedMembers collation own reports).find? ClusterMember.isSelf with
  | none => exact absurd isSelf (List.find?_eq_none.mp found witness present)
  | some member =>
    obtain ⟨dry, listed, rfl⟩ := List.mem_map.mp (List.mem_of_find?_eq_some found)
    have own' : dry.identity = own := by
      apply (self_iff_own collation listed).mp
      simpa [ClusterMember.isSelf] using List.find?_some found
    have entry := (mem_dryMembers collation).mp listed
    rw [own'] at entry
    simp only [identityEntry] at entry
    split at entry
    · cases entry
    · cases entry
      rfl

end PriceFeed.Discovery.ClusterMembersReducer
