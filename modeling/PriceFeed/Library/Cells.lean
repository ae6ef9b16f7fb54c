import Mathlib.Algebra.BigOperators.Group.List.Basic

/-! Amounts collected by cells that share no item: together they hold what the
covered items hold. -/

namespace PriceFeed.Library

variable {Cell Item Amount : Type*} (inside : Cell → Item → Prop) [∀ cell item, Decidable (inside cell item)]
variable [AddCommMonoid Amount] (amount : Item → Amount)

/-- The total amount of the items inside a cell. -/
def cellAmount (items : List Item) (cell : Cell) : Amount :=
  ((items.filter (inside cell)).map amount).sum

variable {inside amount} {cells : List Cell} {item : Item} {items : List Item} {cell : Cell}

theorem cellAmount_append (first second : List Item) :
    cellAmount inside amount (first ++ second) cell =
      cellAmount inside amount first cell + cellAmount inside amount second cell := by
  simp [cellAmount]

theorem cellAmount_perm (permuted : first.Perm second) :
    cellAmount inside amount first cell = cellAmount inside amount second cell :=
  ((permuted.filter _).map amount).sum_eq

theorem cellAmount_outside (outside : ∀ item ∈ items, ¬ inside cell item) :
    cellAmount inside amount items cell = 0 := by
  have none : items.filter (fun item => inside cell item) = [] := by
    rw [List.filter_eq_nil_iff]
    simpa using outside
  simp [cellAmount, none]

theorem cellAmount_inside (within : ∀ item ∈ items, inside cell item) :
    cellAmount inside amount items cell = (items.map amount).sum := by
  rw [cellAmount, List.filter_eq_self.mpr (by simpa using within)]

/-- No item lies in two of the cells. -/
def Apart (inside : Cell → Item → Prop) (cells : List Cell) : Prop :=
  cells.Pairwise fun first second => ∀ item, inside first item → ¬ inside second item

theorem sum_outside (outside : ∀ cell ∈ cells, ¬ inside cell item) :
    (cells.map fun cell => if inside cell item then amount item else 0).sum = 0 := by
  induction cells with
  | nil => rfl
  | cons cell rest ih =>
    obtain ⟨here, others⟩ := List.forall_mem_cons.mp outside
    simp [here, ih others]

/-- An item of one cell is counted once. -/
theorem sum_single (apart : Apart inside cells) (covered : ∃ cell ∈ cells, inside cell item) :
    (cells.map fun cell => if inside cell item then amount item else 0).sum = amount item := by
  induction cells with
  | nil => simp at covered
  | cons cell rest ih =>
    obtain ⟨separate, others⟩ := List.pairwise_cons.mp apart
    by_cases here : inside cell item
    · have elsewhere : ∀ other ∈ rest, ¬ inside other item :=
        fun other member => separate other member item here
      simp [here, sum_outside elsewhere]
    · have covered' : ∃ other ∈ rest, inside other item := by
        obtain ⟨other, member, within⟩ := covered
        rcases List.mem_cons.mp member with rfl | later
        · exact absurd within here
        · exact ⟨other, later, within⟩
      simp [here, ih others covered']

/-- Cells that are apart and cover every item hold the total of all items. -/
theorem sum_cellAmount (apart : Apart inside cells)
    (covered : ∀ item ∈ items, ∃ cell ∈ cells, inside cell item) :
    (cells.map (cellAmount inside amount items)).sum = (items.map amount).sum := by
  induction items with
  | nil =>
    have empty : cellAmount inside amount [] = fun _ => 0 := rfl
    simp [empty]
  | cons item rest ih =>
    obtain ⟨first, others⟩ := List.forall_mem_cons.mp covered
    have split : cellAmount inside amount (item :: rest) = fun cell =>
        (if inside cell item then amount item else 0) + cellAmount inside amount rest cell := by
      funext cell
      by_cases here : inside cell item <;> simp [cellAmount, here]
    rw [split, List.sum_map_add, sum_single apart first, ih others, List.map_cons, List.sum_cons]

end PriceFeed.Library
