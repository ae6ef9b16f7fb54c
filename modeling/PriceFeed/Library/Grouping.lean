import Mathlib.Algebra.BigOperators.Group.List.Basic
import Mathlib.Data.List.Dedup
import Mathlib.Data.List.Induction
import Mathlib.Tactic.Abel
import PriceFeed.Library.OrderedMap

/-! Items collected by a key, each group in the order of the items. -/

namespace PriceFeed.Library

variable {Item Key Value : Type*} [DecidableEq Key] (key : Item → Key) (value : Item → Value)

def groupBy (items : List Item) : OrderedMap Key (List Value) :=
  items.foldl (fun groups item =>
    groups.set (key item) ((groups.get? (key item)).getD [] ++ [value item])) .empty

/-- The values of the items with one key. -/
def group (items : List Item) (wanted : Key) : List Value :=
  (items.filter fun item => key item = wanted).map value

variable {key value} {items : List Item}

theorem group_append (first second : List Item) (wanted : Key) :
    group key value (first ++ second) wanted = group key value first wanted ++ group key value second wanted := by
  simp [group]

theorem group_concat (item : Item) (wanted : Key) : group key value (items ++ [item]) wanted =
    if key item = wanted then group key value items wanted ++ [value item]
    else group key value items wanted := by
  by_cases same : key item = wanted <;> simp [group, same]

theorem group_ne_nil_iff {wanted : Key} : group key value items wanted ≠ [] ↔ wanted ∈ items.map key := by
  simp [group]

theorem groupBy_concat (items : List Item) (item : Item) :
    groupBy key value (items ++ [item]) = (groupBy key value items).set (key item)
      (((groupBy key value items).get? (key item)).getD [] ++ [value item]) := by
  simp [groupBy]

theorem get?_groupBy (wanted : Key) : (groupBy key value items).get? wanted =
    if wanted ∈ items.map key then some (group key value items wanted) else none := by
  induction items using List.reverseRecOn with
  | nil => rfl
  | append_singleton items item ih =>
    rw [groupBy_concat, OrderedMap.get?_set, group_concat]
    by_cases same : key item = wanted
    · subst same
      rw [ih, if_pos rfl, if_pos rfl]
      by_cases held : key item ∈ items.map key
      · simp [held]
      · have none : group key value items (key item) = [] :=
          not_not.mp fun some => held (group_ne_nil_iff.mp some)
        simp [held, none]
    · rw [if_neg same, if_neg same, ih]
      simp [Ne.symm same]

/-- The groups, in an order of their own. -/
theorem entries_groupBy_perm : (groupBy key value items).entries.Perm
    ((items.map key).dedup.map fun wanted => (wanted, group key value items wanted)) := by
  apply (List.perm_ext_iff_of_nodup (groupBy key value items).distinct.of_map ?_).mpr
  · rintro ⟨wanted, values⟩
    rw [OrderedMap.mem_entries_iff, get?_groupBy]
    simp only [List.mem_map (l := (items.map key).dedup), List.mem_dedup, Prod.mk.injEq]
    constructor
    · intro found
      split at found
      next held => exact ⟨wanted, held, rfl, Option.some.inj found⟩
      next => cases found
    · rintro ⟨_, held, rfl, rfl⟩
      rw [if_pos held]
  · apply List.Nodup.map ?_ (List.nodup_dedup _)
    exact fun _ _ same => congrArg Prod.fst same

/-- Grouping keeps what the items weigh. -/
theorem sum_groupBy {Weight : Type*} [AddCommMonoid Weight] (weight : Value → Weight) :
    ((groupBy key value items).values.map fun values => (values.map weight).sum).sum =
      (items.map fun item => weight (value item)).sum := by
  induction items using List.reverseRecOn with
  | nil => rfl
  | append_singleton items item ih =>
    rw [groupBy_concat, List.map_append, List.sum_append, ← ih]
    cases found : (groupBy key value items).get? (key item) with
    | none => simp [OrderedMap.values_set_new found]
    | some values =>
      obtain ⟨before, after, held, replaced⟩ := OrderedMap.values_set_held found (values ++ [value item])
      simp only [Option.getD_some, held, replaced, List.map_append, List.map_cons, List.sum_append,
        List.sum_cons, List.map_nil, List.sum_nil]
      abel

end PriceFeed.Library
