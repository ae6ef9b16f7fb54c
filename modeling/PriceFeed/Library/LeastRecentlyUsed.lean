import Mathlib.Data.Int.Order.Basic
import Mathlib.Data.List.MinMax
import Mathlib.Data.List.Sort
import Mathlib.Data.Prod.Lex
import PriceFeed.Library.OrderedMap

/-! A cache of bounded size whose entries expire after a time without use: what a shared
cache stands for. -/

namespace PriceFeed.Library

section Minimum

variable {Item : Type*} [LinearOrder Item]

def least? (items : List Item) : Option Item := items.argmin id

theorem least?_eq_none {items : List Item} : least? items = none ↔ items = [] := List.argmin_eq_none

theorem least?_eq_some_iff {items : List Item} {item : Item} :
    least? items = some item ↔ item ∈ items ∧ ∀ other ∈ items, item ≤ other := by
  rw [least?, ← Option.mem_def, List.mem_argmin_iff]
  refine and_congr_right fun _ => and_iff_left_of_imp fun least other member less => ?_
  rw [show other = item from le_antisymm less (least other member)]

/-- Lists of the same members have the same minimum. -/
theorem least?_eq_of_mem_iff {first second : List Item} (same : ∀ item, item ∈ first ↔ item ∈ second) :
    least? first = least? second := by
  ext item
  rw [least?_eq_some_iff, least?_eq_some_iff]
  simp only [same]

theorem head?_insertionSort (items : List Item) :
    (items.insertionSort (· ≤ ·)).head? = least? items := by
  have sorted := List.pairwise_insertionSort (· ≤ ·) items
  rw [← least?_eq_of_mem_iff fun item => (List.perm_insertionSort (· ≤ ·) items).mem_iff]
  cases listed : items.insertionSort (· ≤ ·) with
  | nil => rfl
  | cons first rest =>
    rw [listed] at sorted
    refine (least?_eq_some_iff.mpr ⟨List.mem_cons_self, fun item member => ?_⟩).symm
    rcases List.mem_cons.mp member with rfl | later
    · exact le_refl item
    · exact List.rel_of_pairwise_cons sorted later

end Minimum

/-- Each value with the time of its last use. -/
abbrev LRUCache (Key Value : Type*) := OrderedMap Key (Value × ℤ)

namespace LRUCache

variable {Key Value : Type*} [LinearOrder Key]

/-- The entries that have been used within their lifetime. -/
def unexpired (lifetime now : ℤ) (cache : LRUCache Key Value) : LRUCache Key Value :=
  cache.filter fun entry => now ≤ entry.2.2 + lifetime

/-- The least recently used key, and the first one of several. -/
def leastRecent (cache : LRUCache Key Value) : Option Key :=
  (least? (cache.entries.map fun entry => toLex (entry.2.2, entry.1))).map fun use => (ofLex use).2

/-- A new value counts as used. Only unexpired entries count for the size. -/
def add (lifetime : ℤ) (maxSize : ℕ) (now : ℤ) (key : Key) (value : Value) (cache : LRUCache Key Value) :
    LRUCache Key Value :=
  let added := (cache.unexpired lifetime now).set key (value, now)
  if maxSize < added.entries.length then
    match leastRecent added with
    | some oldest => added.delete oldest
    | none => added
  else added

def use (lifetime now : ℤ) (key : Key) (cache : LRUCache Key Value) :
    LRUCache Key Value × Option Value :=
  match (cache.unexpired lifetime now).get? key with
  | some (value, _) => (cache.set key (value, now), some value)
  | none => (cache, none)

def remove (key : Key) (cache : LRUCache Key Value) : LRUCache Key Value := cache.delete key

variable {lifetime now : ℤ} {cache : LRUCache Key Value}

theorem get?_unexpired_iff {key : Key} {value : Value} {used : ℤ} :
    (cache.unexpired lifetime now).get? key = some (value, used) ↔
      cache.get? key = some (value, used) ∧ now ≤ used + lifetime := by
  rw [unexpired, OrderedMap.get?_filter_eq_some_iff, decide_eq_true_iff]

end LRUCache

end PriceFeed.Library
