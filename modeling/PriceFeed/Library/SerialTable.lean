import Mathlib.Data.List.Nodup
import Mathlib.Data.List.Range

/-! Tables whose rows get their ids from a sequence. -/

namespace PriceFeed.Library

/-- Rows beside their ids. -/
structure SerialTable (Row : Type*) where
  rows : List (ℕ × Row)
  nextId : ℕ
  below : ∀ row ∈ rows, row.1 < nextId
  distinct : (rows.map Prod.fst).Nodup

namespace SerialTable

variable {Row : Type*}

def empty : SerialTable Row := ⟨[], 1, by simp, by simp⟩

/-- The rows with the ids that they get. -/
def numbered (table : SerialTable Row) (items : List Row) : List (ℕ × Row) :=
  (List.range' table.nextId items.length).zip items

variable (table : SerialTable Row) (items : List Row)

@[simp] theorem length_numbered : (table.numbered items).length = items.length := by
  simp [numbered]

@[simp] theorem map_fst_numbered :
    (table.numbered items).map Prod.fst = List.range' table.nextId items.length :=
  List.map_fst_zip (by simp)

@[simp] theorem map_snd_numbered : (table.numbered items).map Prod.snd = items :=
  List.map_snd_zip (by simp)

theorem mem_numbered {row : ℕ × Row} (member : row ∈ table.numbered items) :
    table.nextId ≤ row.1 ∧ row.1 < table.nextId + items.length := by
  have id : row.1 ∈ (table.numbered items).map Prod.fst := List.mem_map_of_mem member
  rw [map_fst_numbered] at id
  simpa [List.mem_range'_1] using id

def bulkCreate : SerialTable Row where
  rows := table.rows ++ table.numbered items
  nextId := table.nextId + items.length
  below := by
    intro row member
    rcases List.mem_append.mp member with old | new
    · exact Nat.lt_of_lt_of_le (table.below row old) (Nat.le_add_right _ _)
    · exact (table.mem_numbered items new).2
  distinct := by
    rw [List.map_append]
    refine table.distinct.append (by simp [List.nodup_range']) ?_
    intro id old new
    obtain ⟨row, present, rfl⟩ := List.mem_map.mp old
    obtain ⟨other, created, same⟩ := List.mem_map.mp new
    have less := table.below row present
    have more := (table.mem_numbered items created).1
    omega

@[simp] theorem bulkCreate_nil : table.bulkCreate [] = table := by
  simp [bulkCreate, numbered]

/-- Rows are changed in place and keep their ids. -/
def mapRows (change : ℕ × Row → Row) : SerialTable Row where
  rows := table.rows.map fun row => (row.1, change row)
  nextId := table.nextId
  below := by
    intro row member
    obtain ⟨old, present, rfl⟩ := List.mem_map.mp member
    exact table.below old present
  distinct := by
    rw [List.map_map]
    exact table.distinct

theorem eq_of_id_eq {row other : ℕ × Row} (present : row ∈ table.rows) (also : other ∈ table.rows)
    (same : row.1 = other.1) : row = other :=
  List.inj_on_of_nodup_map table.distinct present also same

/-- A row is found again after a change that keeps what it was found by. -/
theorem find?_mapRows {change : ℕ × Row → Row} {wanted : Row → Bool}
    (kept : ∀ row ∈ table.rows, wanted (change row) = wanted row.2) :
    ((table.mapRows change).rows.find? fun row => wanted row.2) =
      (table.rows.find? fun row => wanted row.2).map fun row => (row.1, change row) := by
  change (table.rows.map fun row => (row.1, change row)).find? (fun row => wanted row.2) = _
  generalize table.rows = rows at kept
  induction rows with
  | nil => rfl
  | cons row rows ih =>
    have same := kept row List.mem_cons_self
    rw [List.map_cons, List.find?_cons, List.find?_cons, same]
    cases wanted row.2 with
    | true => rfl
    | false => exact ih fun other member => kept other (List.mem_cons_of_mem _ member)

theorem find?_bulkCreate_singleton (item : Row) (wanted : Row → Bool) :
    ((table.bulkCreate [item]).rows.find? fun row => wanted row.2) =
      (table.rows.find? fun row => wanted row.2).or (if wanted item then some (table.nextId, item) else none) := by
  rw [bulkCreate, List.find?_append]
  congr 1
  cases found : wanted item with
  | true => simp [numbered, found]
  | false => simp [numbered, found]

/-- The rows that a later state of the table has on top. -/
def addedTo (later : SerialTable Row) : List (ℕ × Row) := later.rows.drop table.rows.length

@[simp] theorem addedTo_self : table.addedTo table = [] := by
  simp [addedTo]

@[simp] theorem addedTo_bulkCreate : table.addedTo (table.bulkCreate items) = table.numbered items := by
  simp [addedTo, bulkCreate]

end SerialTable

end PriceFeed.Library
