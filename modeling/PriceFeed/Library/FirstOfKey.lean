import Mathlib.Data.List.Induction
import Mathlib.Data.List.Nodup
import Mathlib.Data.List.Perm.Basic

/-! A store that keeps the first item of each key, and the items it has been offered. -/

namespace PriceFeed.Library

variable {Key Item : Type*} [DecidableEq Key]

/-- The item is added unless its key is held. -/
def addNew (key : Item → Key) (held : List Item) (item : Item) : List Item :=
  if key item ∈ held.map key then held else held ++ [item]

/-- What is held after items have been offered one after the other. -/
def firstOfKey (key : Item → Key) (items : List Item) : List Item := items.foldl (addNew key) []

variable {key : Item → Key} {held items : List Item} {item : Item}

theorem addNew_of_mem (known : key item ∈ held.map key) : addNew key held item = held := if_pos known

theorem addNew_of_not_mem (unknown : key item ∉ held.map key) : addNew key held item = held ++ [item] :=
  if_neg unknown

theorem firstOfKey_concat (items : List Item) (item : Item) :
    firstOfKey key (items ++ [item]) = addNew key (firstOfKey key items) item := by
  rw [firstOfKey, List.foldl_append]
  rfl

theorem mem_keys_addNew {wanted : Key} :
    wanted ∈ (addNew key held item).map key ↔ wanted ∈ held.map key ∨ wanted = key item := by
  by_cases known : key item ∈ held.map key
  · rw [addNew_of_mem known]
    constructor
    · exact Or.inl
    · intro either
      rcases either with old | same
      · exact old
      · rwa [same]
  · rw [addNew_of_not_mem known, List.map_append, List.mem_append, List.map_singleton, List.mem_singleton]

theorem nodup_keys_addNew (distinct : (held.map key).Nodup) : ((addNew key held item).map key).Nodup := by
  by_cases known : key item ∈ held.map key
  · rwa [addNew_of_mem known]
  · rw [addNew_of_not_mem known, List.map_append, List.map_singleton, ← List.concat_eq_append]
    exact distinct.concat known

/-- No key is held twice. -/
theorem nodup_keys_firstOfKey (items : List Item) : ((firstOfKey key items).map key).Nodup := by
  induction items using List.reverseRecOn with
  | nil => exact List.nodup_nil
  | append_singleton items item ih =>
    rw [firstOfKey_concat]
    exact nodup_keys_addNew ih

/-- Every key that was offered is held. -/
theorem mem_keys_firstOfKey {wanted : Key} :
    wanted ∈ (firstOfKey key items).map key ↔ wanted ∈ items.map key := by
  induction items using List.reverseRecOn with
  | nil => exact Iff.rfl
  | append_singleton items item ih =>
    rw [firstOfKey_concat, mem_keys_addNew, ih, List.map_append, List.mem_append, List.map_singleton,
      List.mem_singleton]

theorem firstOfKey_subset (items : List Item) : firstOfKey key items ⊆ items := by
  induction items using List.reverseRecOn with
  | nil => exact List.Subset.refl _
  | append_singleton items item ih =>
    rw [firstOfKey_concat]
    by_cases known : key item ∈ (firstOfKey key items).map key
    · rw [addNew_of_mem known]
      exact List.Subset.trans ih (List.subset_append_left _ _)
    · rw [addNew_of_not_mem known]
      exact List.append_subset.mpr ⟨List.Subset.trans ih (List.subset_append_left _ _), List.subset_append_right _ _⟩

/-- Where keys determine the items, the order of the offers and their repetitions do not matter. -/
theorem firstOfKey_perm {first second : List Item} (same : ∀ item, item ∈ first ↔ item ∈ second)
    (determined : ∀ item ∈ first, ∀ other ∈ first, key item = key other → item = other) :
    (firstOfKey key first).Perm (firstOfKey key second) := by
  have held : ∀ {offered : List Item}, (∀ item ∈ offered, item ∈ first) →
      ∀ item, item ∈ firstOfKey key offered ↔ item ∈ offered := by
    intro offered within item
    constructor
    · exact fun present => firstOfKey_subset offered present
    · intro present
      obtain ⟨holder, kept, equal⟩ :=
        List.mem_map.mp (mem_keys_firstOfKey.mpr (List.mem_map_of_mem (f := key) present))
      have also := within holder (firstOfKey_subset offered kept)
      rwa [← determined holder also item (within item present) equal]
  apply (List.perm_ext_iff_of_nodup (nodup_keys_firstOfKey first).of_map
    (nodup_keys_firstOfKey second).of_map).mpr
  intro item
  rw [held (fun item present => present), held (fun item present => (same item).mpr present), same]

end PriceFeed.Library
