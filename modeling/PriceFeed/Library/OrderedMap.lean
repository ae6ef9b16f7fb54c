import Mathlib.Data.List.Nodup
import Mathlib.Data.List.Perm.Basic

/-! A finite map that keeps its entries in the order in which their keys were
first set, as the maps of the modelled runtime do. -/

namespace PriceFeed.Library

structure OrderedMap (Key Value : Type*) where
  entries : List (Key × Value)
  distinct : (entries.map Prod.fst).Nodup

namespace OrderedMap

variable {Key Value : Type*}

def empty : OrderedMap Key Value := ⟨[], List.nodup_nil⟩

def values (map : OrderedMap Key Value) : List Value := map.entries.map Prod.snd

variable [DecidableEq Key]

def get? (map : OrderedMap Key Value) (key : Key) : Option Value :=
  (map.entries.find? fun entry => entry.1 = key).map Prod.snd

/-- Overwrite in place, or append a new key at the end. -/
def setEntries (key : Key) (value : Value) : List (Key × Value) → List (Key × Value)
  | [] => [(key, value)]
  | entry :: rest =>
    if entry.1 = key then (key, value) :: rest else entry :: setEntries key value rest

theorem mem_keys_setEntries {key other : Key} {value : Value} {entries : List (Key × Value)} :
    other ∈ (setEntries key value entries).map Prod.fst ↔
      other = key ∨ other ∈ entries.map Prod.fst := by
  induction entries with
  | nil => simp [setEntries]
  | cons entry rest ih =>
    by_cases same : entry.1 = key
    · simp [setEntries, same]
    · simp only [setEntries, same, ↓reduceIte, List.map_cons, List.mem_cons, ih]
      exact or_left_comm

theorem nodup_setEntries {key : Key} {value : Value} {entries : List (Key × Value)}
    (distinct : (entries.map Prod.fst).Nodup) :
    ((setEntries key value entries).map Prod.fst).Nodup := by
  induction entries with
  | nil => simp [setEntries]
  | cons entry rest ih =>
    obtain ⟨fresh, others⟩ := List.nodup_cons.mp distinct
    by_cases same : entry.1 = key
    · subst key
      simpa [setEntries] using distinct
    · simp only [setEntries, same, ↓reduceIte, List.map_cons]
      refine List.nodup_cons.mpr ⟨?_, ih others⟩
      rw [mem_keys_setEntries]
      exact not_or.mpr ⟨same, fresh⟩

def set (map : OrderedMap Key Value) (key : Key) (value : Value) : OrderedMap Key Value :=
  ⟨setEntries key value map.entries, nodup_setEntries map.distinct⟩

def filter (map : OrderedMap Key Value) (keeps : Key × Value → Bool) : OrderedMap Key Value where
  entries := map.entries.filter keeps
  distinct := map.distinct.sublist (List.filter_sublist.map Prod.fst)

def delete (map : OrderedMap Key Value) (key : Key) : OrderedMap Key Value :=
  map.filter fun entry => entry.1 ≠ key

@[simp] theorem get?_empty (key : Key) : (empty : OrderedMap Key Value).get? key = none := rfl

theorem get?_set (map : OrderedMap Key Value) (key other : Key) (value : Value) :
    (map.set key value).get? other = if key = other then some value else map.get? other := by
  obtain ⟨entries, distinct⟩ := map
  simp only [get?, set]
  clear distinct
  induction entries with
  | nil => by_cases same : key = other <;> simp [setEntries, same]
  | cons entry rest ih =>
    by_cases held : entry.1 = key
    · by_cases same : key = other <;> simp [setEntries, held, same]
    · by_cases here : entry.1 = other
      · have different : key ≠ other := fun same => held (here.trans same.symm)
        simp [setEntries, here, different, different.symm]
      · simpa [setEntries, held, here] using ih

@[simp] theorem get?_set_self (map : OrderedMap Key Value) (key : Key) (value : Value) :
    (map.set key value).get? key = some value := by simp [get?_set]

theorem mem_entries_iff (map : OrderedMap Key Value) (key : Key) (value : Value) :
    (key, value) ∈ map.entries ↔ map.get? key = some value := by
  obtain ⟨entries, distinct⟩ := map
  simp only [get?]
  induction entries with
  | nil => simp
  | cons entry rest ih =>
    obtain ⟨fresh, others⟩ := List.nodup_cons.mp distinct
    by_cases same : entry.1 = key
    · have missing : (key, value) ∉ rest := by
        intro member
        exact fresh (same ▸ List.mem_map_of_mem (f := Prod.fst) member)
      simp [same, missing, Prod.ext_iff, eq_comm]
    · have other : (key, value) ≠ entry := fun equal => same (equal ▸ rfl)
      simp [same, other, ih others]

theorem get?_filter_eq_some_iff (map : OrderedMap Key Value) (keeps : Key × Value → Bool) (key : Key)
    (value : Value) :
    (map.filter keeps).get? key = some value ↔ map.get? key = some value ∧ keeps (key, value) := by
  rw [← mem_entries_iff, ← mem_entries_iff, filter, List.mem_filter]

theorem get?_delete (map : OrderedMap Key Value) (key other : Key) :
    (map.delete key).get? other = if key = other then none else map.get? other := by
  ext value
  rw [delete, get?_filter_eq_some_iff]
  by_cases same : key = other
  · simp [same]
  · simp [same, Ne.symm same]

theorem mem_keys_iff (map : OrderedMap Key Value) (key : Key) :
    key ∈ map.entries.map Prod.fst ↔ (map.get? key).isSome := by
  simp [Option.isSome_iff_exists, ← mem_entries_iff]

/-- A map that holds all the keys of another one is as long. -/
theorem length_le_of_isSome {Other : Type*} {first : OrderedMap Key Value} {second : OrderedMap Key Other}
    (held : ∀ key, (first.get? key).isSome → (second.get? key).isSome) :
    first.entries.length ≤ second.entries.length := by
  have keys : first.entries.map Prod.fst ⊆ second.entries.map Prod.fst := by
    intro key member
    rw [mem_keys_iff] at member ⊢
    exact held key member
  simpa using (List.subperm_of_subset first.distinct keys).length_le

theorem mem_values_iff (map : OrderedMap Key Value) (value : Value) :
    value ∈ map.values ↔ ∃ key, map.get? key = some value := by
  simp [values, ← mem_entries_iff]

/-- Maps that answer every lookup alike hold the same values, whatever their order. -/
theorem values_perm_of_get? {first second : OrderedMap Key Value}
    (same : ∀ key, first.get? key = second.get? key) : first.values.Perm second.values := by
  apply List.Perm.map
  apply (List.perm_ext_iff_of_nodup first.distinct.of_map second.distinct.of_map).mpr
  rintro ⟨key, value⟩
  rw [mem_entries_iff, mem_entries_iff, same]

/-- The values under any keys among which all held ones are. -/
theorem values_perm_filterMap (map : OrderedMap Key Value) {keys : List Key} (distinct : keys.Nodup)
    (held : ∀ key, (map.get? key).isSome → key ∈ keys) : map.values.Perm (keys.filterMap map.get?) := by
  have entries : map.entries.Perm (keys.filterMap fun key => (map.get? key).map (key, ·)) := by
    apply (List.perm_ext_iff_of_nodup map.distinct.of_map ?_).mpr
    · rintro ⟨key, value⟩
      rw [mem_entries_iff, List.mem_filterMap]
      constructor
      · exact fun found => ⟨key, held key (by simp [found]), by simp [found]⟩
      · rintro ⟨other, -, found⟩
        obtain ⟨_, found, ⟨⟩⟩ := Option.map_eq_some_iff.mp found
        exact found
    · apply distinct.filterMap
      intro key other entry here there
      obtain ⟨_, -, rfl⟩ := Option.map_eq_some_iff.mp here
      obtain ⟨_, -, same⟩ := Option.map_eq_some_iff.mp there
      exact (congrArg Prod.fst same).symm
  have held := entries.map Prod.snd
  rw [List.map_filterMap] at held
  simpa [values, Function.comp_def] using held

/-- A key has the one entry that a lookup finds, if any. -/
theorem filter_key (map : OrderedMap Key Value) (key : Key) :
    map.entries.filter (fun entry => entry.1 = key) = ((map.get? key).map (key, ·)).toList := by
  obtain ⟨entries, distinct⟩ := map
  simp only [get?]
  induction entries with
  | nil => rfl
  | cons entry rest ih =>
    obtain ⟨fresh, others⟩ := List.nodup_cons.mp distinct
    by_cases same : entry.1 = key
    · subst key
      have none : rest.filter (fun other => other.1 = entry.1) = [] := by
        rw [List.filter_eq_nil_iff]
        intro other member equal
        exact fresh (List.mem_map.mpr ⟨other, member, of_decide_eq_true equal⟩)
      simp [none]
    · simpa [same] using ih others

/-- Entries that were listed in another order. -/
theorem filter_key_of_perm {map : OrderedMap Key Value} {listed : List (Key × Value)}
    (same : listed.Perm map.entries) (key : Key) :
    (listed.filter fun entry => entry.1 = key).map Prod.snd = (map.get? key).toList := by
  have found := same.filter fun entry => entry.1 = key
  rw [filter_key] at found
  cases held : map.get? key with
  | none =>
    rw [held] at found
    rw [List.perm_nil.mp found]
    rfl
  | some value =>
    rw [held] at found
    rw [List.perm_singleton.mp found]
    rfl

/-- A new key adds its entry at the end. -/
theorem entries_set_new {map : OrderedMap Key Value} {key : Key} {value : Value}
    (absent : map.get? key = none) : (map.set key value).entries = map.entries ++ [(key, value)] := by
  obtain ⟨entries, distinct⟩ := map
  simp only [get?, Option.map_eq_none_iff, List.find?_eq_none] at absent
  simp only [set]
  clear distinct
  induction entries with
  | nil => rfl
  | cons entry rest ih =>
    obtain ⟨here, others⟩ := List.forall_mem_cons.mp absent
    have differs : entry.1 ≠ key := by simpa using here
    simp [setEntries, differs, ih others]

theorem values_set_new {map : OrderedMap Key Value} {key : Key} {value : Value}
    (absent : map.get? key = none) : (map.set key value).values = map.values ++ [value] := by
  simp [values, entries_set_new absent]

/-- A held key replaces its value where it stands. -/
theorem values_set_held {map : OrderedMap Key Value} {key : Key} {held : Value}
    (present : map.get? key = some held) (value : Value) :
    ∃ before after, map.values = before ++ held :: after ∧
      (map.set key value).values = before ++ value :: after := by
  obtain ⟨entries, distinct⟩ := map
  simp only [get?, Option.map_eq_some_iff] at present
  simp only [values, set]
  clear distinct
  induction entries with
  | nil => simp at present
  | cons entry rest ih =>
    by_cases same : entry.1 = key
    · obtain ⟨found, first, rfl⟩ := present
      rw [List.find?_cons_of_pos (by simpa using same)] at first
      obtain rfl := Option.some.inj first
      exact ⟨[], rest.map Prod.snd, rfl, by simp [setEntries, same]⟩
    · rw [List.find?_cons_of_neg (by simpa using same)] at present
      obtain ⟨before, after, old, new⟩ := ih present
      exact ⟨entry.2 :: before, after, by simp [old], by simp [setEntries, same, new]⟩

theorem length_set (map : OrderedMap Key Value) (key : Key) (value : Value) :
    (map.set key value).entries.length + (map.get? key).isSome.toNat = map.entries.length + 1 := by
  have values : ∀ map : OrderedMap Key Value, map.values.length = map.entries.length :=
    fun _ => List.length_map _
  rw [← values, ← values]
  cases found : map.get? key with
  | none => simp [values_set_new found]
  | some held =>
    obtain ⟨before, after, old, new⟩ := values_set_held found value
    simp [old, new]

theorem length_delete (map : OrderedMap Key Value) (key : Key) :
    (map.delete key).entries.length + (map.get? key).isSome.toNat = map.entries.length := by
  cases found : map.get? key with
  | none =>
    apply Nat.le_antisymm
    · exact List.length_filter_le _ _
    · refine length_le_of_isSome fun other held => ?_
      have different : key ≠ other := by
        rintro rfl
        simp [found] at held
      rwa [get?_delete, if_neg different]
  | some value =>
    -- The key set again, the map has its keys back.
    have again := length_set (map.delete key) key value
    rw [get?_delete, if_pos rfl] at again
    have same : ((map.delete key).set key value).entries.length = map.entries.length := by
      apply Nat.le_antisymm <;>
      · refine length_le_of_isSome fun other held => ?_
        by_cases own : key = other
        · subst own
          simp [found]
        · simpa [get?_set, get?_delete, own] using held
    rw [← same]
    exact again.symm

end OrderedMap

end PriceFeed.Library
