import Mathlib.Algebra.BigOperators.Group.List.Basic
import Mathlib.Data.List.Perm.Basic
import Mathlib.Order.Basic

/-! Items placed into bins, each into one that has the fewest. -/

namespace PriceFeed.Library

variable {Item : Type*}

def placeItem (bins : List (List Item)) (index : ℕ) (item : Item) : List (List Item) :=
  bins.modify index fun bin => bin ++ [item]

/-- No bin has fewer items. -/
def Least (bins : List (List Item)) (bin : List Item) : Prop :=
  ∀ other ∈ bins, bin.length ≤ other.length

/-- No bin has two items more than another. -/
def Balanced (bins : List (List Item)) : Prop :=
  ∀ bin ∈ bins, ∀ other ∈ bins, bin.length ≤ other.length + 1

variable {bins : List (List Item)} {bin : List Item} {index : ℕ} {item : Item}

theorem exists_of_placeItem (found : bins[index]? = some bin) (item : Item) :
    ∃ before after, bins = before ++ bin :: after ∧ before.length = index ∧
      placeItem bins index item = before ++ (bin ++ [item]) :: after := by
  obtain ⟨inside, same⟩ := List.getElem?_eq_some_iff.mp found
  obtain ⟨before, other, after, split, length, placed⟩ :=
    List.exists_of_modify (fun bin => bin ++ [item]) inside
  subst split
  subst length
  have held : other = bin := by simpa using same
  subst held
  exact ⟨before, after, rfl, rfl, placed⟩

theorem flatten_placeItem (found : bins[index]? = some bin) :
    (placeItem bins index item).flatten.Perm (item :: bins.flatten) := by
  obtain ⟨before, after, rfl, _, placed⟩ := exists_of_placeItem found item
  rw [placed]
  simp only [List.flatten_append, List.flatten_cons, List.append_assoc, List.singleton_append]
  rw [← List.append_assoc, ← List.append_assoc]
  exact List.perm_middle

theorem length_placeItem : (placeItem bins index item).length = bins.length := List.length_modify ..

theorem mem_placeItem (found : bins[index]? = some bin) {other : List Item}
    (member : other ∈ placeItem bins index item) : other = bin ++ [item] ∨ other ∈ bins := by
  obtain ⟨before, after, rfl, _, placed⟩ := exists_of_placeItem found item
  rw [placed] at member
  simp only [List.mem_append, List.mem_cons] at member ⊢
  tauto

theorem getElem?_placeItem (found : bins[index]? = some bin) :
    (placeItem bins index item)[index]? = some (bin ++ [item]) := by
  rw [placeItem, List.getElem?_modify_eq, found]
  rfl

theorem placeItem_concat (bins : List (List Item)) (last : List Item) (item : Item) :
    placeItem (bins ++ [last]) bins.length item = bins ++ [last ++ [item]] := by
  induction bins with
  | nil => rfl
  | cons bin bins ih => exact congrArg (List.cons bin) ih

theorem Balanced.place (balanced : Balanced bins) (found : bins[index]? = some bin) (least : Least bins bin) :
    Balanced (placeItem bins index item) := by
  have held : bin ∈ bins := List.mem_of_getElem? found
  have range : ∀ other ∈ placeItem bins index item,
      bin.length ≤ other.length ∧ other.length ≤ bin.length + 1 := by
    intro other member
    rcases mem_placeItem found member with rfl | old
    · simp
    · exact ⟨least other old, balanced other old bin held⟩
  intro first member second other
  have above := (range first member).2
  have below := (range second other).1
  omega

/-! How many bins are in use. -/

theorem flatten_nonempty (bins : List (List Item)) :
    (bins.filter fun bin => bin.length ≠ 0).flatten = bins.flatten := by
  induction bins with
  | nil => rfl
  | cons bin bins ih =>
    cases bin with
    | nil => simpa using ih
    | cons item rest => simpa using ih

theorem length_flatten_le {capacity : ℕ} (within : ∀ bin ∈ bins, bin.length ≤ capacity) :
    bins.flatten.length ≤ bins.length * capacity := by
  induction bins with
  | nil => simp
  | cons bin bins ih =>
    have rest := ih fun other member => within other (List.mem_cons_of_mem _ member)
    have first := within bin List.mem_cons_self
    rw [List.flatten_cons, List.length_append, List.length_cons, Nat.succ_mul]
    omega

theorem length_flatten_of_full {capacity : ℕ} (full : ∀ bin ∈ bins, bin.length = capacity) :
    bins.flatten.length = bins.length * capacity := by
  induction bins with
  | nil => simp
  | cons bin bins ih =>
    have rest := ih fun other member => full other (List.mem_cons_of_mem _ member)
    rw [List.flatten_cons, List.length_append, List.length_cons, rest, full bin List.mem_cons_self,
      Nat.succ_mul, Nat.add_comm]

theorem length_nonempty_of_le_one (single : ∀ bin ∈ bins, bin.length ≤ 1) :
    (bins.filter fun bin => bin.length ≠ 0).length = bins.flatten.length := by
  induction bins with
  | nil => rfl
  | cons bin bins ih =>
    have rest := ih fun other member => single other (List.mem_cons_of_mem _ member)
    have one := single bin List.mem_cons_self
    rw [List.flatten_cons, List.length_append, ← rest, List.filter_cons]
    split
    · next used =>
      have used : bin.length ≠ 0 := of_decide_eq_true used
      rw [List.length_cons]
      omega
    · next unused =>
      have unused : bin.length = 0 := by simpa using unused
      omega

/-- Of balanced bins as many are in use as there are items, until all are. -/
theorem length_nonempty_of_balanced (balanced : Balanced bins) :
    (bins.filter fun bin => bin.length ≠ 0).length = min bins.flatten.length bins.length := by
  by_cases unused : ∃ bin ∈ bins, bin.length = 0
  · obtain ⟨empty, held, zero⟩ := unused
    have single : ∀ bin ∈ bins, bin.length ≤ 1 := by
      intro bin member
      have apart := balanced bin member empty held
      omega
    have few := length_flatten_le single
    rw [length_nonempty_of_le_one single]
    omega
  · have used : ∀ bin ∈ bins, bin.length ≠ 0 := fun bin member zero => unused ⟨bin, member, zero⟩
    have all : (bins.filter fun bin => bin.length ≠ 0) = bins :=
      List.filter_eq_self.mpr fun bin member => decide_eq_true (used bin member)
    have many : bins.length ≤ bins.flatten.length := by
      rw [List.length_flatten, ← List.length_map List.length]
      refine List.length_le_sum_of_one_le _ fun size member => ?_
      obtain ⟨bin, held, rfl⟩ := List.mem_map.mp member
      exact Nat.one_le_iff_ne_zero.mpr (used bin held)
    rw [all]
    omega

/-- Items that are looked up by the bins of their keys are all found, each in one bin. -/
theorem flatMap_filter_perm {Key : Type*} [DecidableEq Key] (key : Item → Key) {bins : List (List Key)}
    {items : List Item} (distinct : bins.flatten.Nodup) (covered : ∀ item ∈ items, key item ∈ bins.flatten) :
    (bins.flatMap fun bin => items.filter fun item => key item ∈ bin).Perm items := by
  induction bins generalizing items with
  | nil =>
    cases items with
    | nil => exact List.Perm.nil
    | cons item items => exact absurd (covered item List.mem_cons_self) List.not_mem_nil
  | cons bin bins ih =>
    obtain ⟨_, others, apart⟩ := List.nodup_append.mp distinct
    have rest : ∀ item ∈ items.filter (fun item => ¬ key item ∈ bin), key item ∈ bins.flatten := by
      intro item member
      obtain ⟨present, outside⟩ := List.mem_filter.mp member
      have held : key item ∈ bin ++ bins.flatten := covered item present
      exact (List.mem_append.mp held).resolve_left (by simpa using outside)
    have same : (bins.flatMap fun other => items.filter fun item => key item ∈ other) =
        bins.flatMap fun other => (items.filter fun item => ¬ key item ∈ bin).filter fun item => key item ∈ other := by
      refine List.flatMap_congr fun other held => ?_
      rw [List.filter_filter]
      refine List.filter_congr fun item _ => ?_
      by_cases within : key item ∈ other
      · have outside : key item ∉ bin := fun first =>
          apart _ first _ (List.mem_flatten_of_mem held within) rfl
        simp [within, outside]
      · simp [within]
    rw [List.flatMap_cons, same]
    refine ((ih others rest).append_left _).trans ?_
    have split := List.filter_append_perm (fun item => decide (key item ∈ bin)) items
    simpa using split

end PriceFeed.Library
