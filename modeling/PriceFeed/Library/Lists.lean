import Mathlib.Data.List.Forall2
import Mathlib.Data.List.Sort
import Mathlib.Tactic.Linarith

/-! Lists sorted by an order that tells their items apart, lists with increasing keys,
and partial functions carried through a list. -/

namespace PriceFeed.Library

section Sorting

variable {Item : Type*} {le : Item → Item → Prop} [DecidableRel le] [Std.Total le] [IsTrans Item le]

/-- The sorted list does not depend on the order of the items when no two of them tie. -/
theorem insertionSort_eq_of_perm {first second : List Item}
    (antisymm : ∀ item ∈ first, ∀ other ∈ first, le item other → le other item → item = other)
    (permuted : first.Perm second) : first.insertionSort le = second.insertionSort le := by
  refine List.Perm.eq_of_pairwise ?_ (List.pairwise_insertionSort le _)
    (List.pairwise_insertionSort le _)
    ((List.perm_insertionSort _ _).trans (permuted.trans (List.perm_insertionSort _ _).symm))
  intro item other member present before after
  exact antisymm item ((List.mem_insertionSort le).mp member) other
    (permuted.mem_iff.mpr ((List.mem_insertionSort le).mp present)) before after

omit [Std.Total le] [IsTrans Item le] in
theorem orderedInsert_of_forall {item : Item} {items : List Item} (least : ∀ other ∈ items, le item other) :
    items.orderedInsert le item = item :: items := by
  cases items with
  | nil => rfl
  | cons first rest => exact List.orderedInsert_cons_of_le _ _ (least first List.mem_cons_self)

end Sorting

section Dominance

variable {Item : Type*} [LinearOrder Item]

theorem forall₂_orderedInsert {first second : List Item} {item other : Item} (below : item ≤ other)
    (sorted : first.Pairwise (· ≤ ·)) (ordered : second.Pairwise (· ≤ ·))
    (dominated : List.Forall₂ (· ≤ ·) first second) :
    List.Forall₂ (· ≤ ·) (first.orderedInsert (· ≤ ·) item) (second.orderedInsert (· ≤ ·) other) := by
  induction dominated generalizing item other with
  | nil => exact .cons below .nil
  | @cons head next rest later here dominated ih =>
    obtain ⟨least, sorted⟩ := List.pairwise_cons.mp sorted
    obtain ⟨lowest, ordered⟩ := List.pairwise_cons.mp ordered
    by_cases before : item ≤ head <;> by_cases precedes : other ≤ next
    · rw [List.orderedInsert_cons_of_le _ _ before, List.orderedInsert_cons_of_le _ _ precedes]
      exact .cons below (.cons here dominated)
    · -- the items up to the place of the greater one move on by one
      have moved := ih (here.trans (not_le.mp precedes).le) sorted ordered
      rw [orderedInsert_of_forall least] at moved
      rw [List.orderedInsert_cons_of_le _ _ before, List.orderedInsert_of_not_le _ _ precedes]
      exact .cons (before.trans here) moved
    · have moved := ih (below.trans precedes) sorted ordered
      rw [orderedInsert_of_forall lowest] at moved
      rw [List.orderedInsert_of_not_le _ _ before, List.orderedInsert_cons_of_le _ _ precedes]
      exact .cons ((not_le.mp before).le.trans below) moved
    · rw [List.orderedInsert_of_not_le _ _ before, List.orderedInsert_of_not_le _ _ precedes]
      exact .cons here (ih below sorted ordered)

/-- Lists of which one lies below the other, item by item, still do when each is sorted. -/
theorem forall₂_insertionSort {first second : List Item} (dominated : List.Forall₂ (· ≤ ·) first second) :
    List.Forall₂ (· ≤ ·) (first.insertionSort (· ≤ ·)) (second.insertionSort (· ≤ ·)) := by
  induction dominated with
  | nil => exact .nil
  | cons below _ ih =>
    exact forall₂_orderedInsert below (List.pairwise_insertionSort _ _) (List.pairwise_insertionSort _ _) ih

theorem getD_le_getD {first second : List Item} (dominated : List.Forall₂ (· ≤ ·) first second)
    (position : ℕ) (missing : Item) : first[position]?.getD missing ≤ second[position]?.getD missing := by
  induction dominated generalizing position with
  | nil => exact le_refl _
  | cons below _ ih =>
    cases position with
    | zero => exact below
    | succ position => exact ih position

end Dominance

section Extremes

variable {Item : Type*} [LinearOrder Item]

theorem max?_append {first second : List Item} {bottom : Item} (some : second ≠ [])
    (below : ∀ item ∈ second, bottom ≤ item) :
    (first ++ second).max? = Option.some (second.foldl max (first.max?.getD bottom)) := by
  cases first with
  | nil =>
    cases second with
    | nil => exact absurd rfl some
    | cons head rest => simp [List.max?, below head List.mem_cons_self]
  | cons head rest => simp [List.max?]

theorem min?_append {first second : List Item} {top : Item} (some : second ≠ [])
    (above : ∀ item ∈ second, item ≤ top) :
    (first ++ second).min? = Option.some (second.foldl min (first.min?.getD top)) := by
  cases first with
  | nil =>
    cases second with
    | nil => exact absurd rfl some
    | cons head rest => simp [List.min?, above head List.mem_cons_self]
  | cons head rest => simp [List.min?]

end Extremes

section Increasing

variable {Item : Type*} {key : Item → ℤ}

theorem mem_take_iff {items : List Item} (increasing : items.Pairwise fun first second => key first < key second)
    {item : Item} {limit : ℕ} : item ∈ items.take limit ↔
      item ∈ items ∧ (items.filter fun other => key other < key item).length < limit := by
  induction items generalizing limit with
  | nil => simp
  | cons first rest ih =>
    obtain ⟨below, ordered⟩ := List.pairwise_cons.mp increasing
    cases limit with
    | zero => simp
    | succ limit =>
      rw [List.take_succ_cons, List.mem_cons, List.mem_cons, ih ordered]
      constructor
      · rintro (rfl | ⟨later, few⟩)
        · have none : (item :: rest).filter (fun other => key other < key item) = [] := by
            rw [List.filter_eq_nil_iff]
            simpa using fun other present => (below other present).le
          exact ⟨.inl rfl, by simp [none]⟩
        · refine ⟨.inr later, ?_⟩
          rw [List.filter_cons_of_pos (by simpa using below item later), List.length_cons]
          omega
      · rintro ⟨rfl | later, few⟩
        · exact .inl rfl
        · rw [List.filter_cons_of_pos (by simpa using below item later), List.length_cons] at few
          exact .inr ⟨later, by omega⟩

theorem add_le_of_dvd {step first second : ℤ} (here : step ∣ first) (there : step ∣ second)
    (before : first < second) : first + step ≤ second := by
  have gap := Int.le_of_dvd (sub_pos.mpr before) (Int.dvd_sub there here)
  omega

/-- Keys on a grid leave a step of room each. -/
theorem length_mul_le (step : ℤ) {items : List Item} {start stop : ℤ}
    (increasing : items.Pairwise fun first second => key first < key second)
    (grid : ∀ item ∈ items, step ∣ key item) (ends : step ∣ stop) (order : start ≤ stop)
    (within : ∀ item ∈ items, start ≤ key item ∧ key item < stop) :
    items.length * step ≤ stop - start := by
  induction items generalizing start with
  | nil => simpa using order
  | cons first rest ih =>
    obtain ⟨below, ordered⟩ := List.pairwise_cons.mp increasing
    obtain ⟨here, others⟩ := List.forall_mem_cons.mp grid
    obtain ⟨inside, later⟩ := List.forall_mem_cons.mp within
    have room := ih ordered others (add_le_of_dvd here ends inside.2) fun item present =>
      ⟨add_le_of_dvd here (others item present) (below item present), (later item present).2⟩
    rw [List.length_cons]
    push_cast
    linarith [inside.1]

end Increasing

section Traversal

variable {Item Result : Type*} {act : Item → Option Result} {becomes : Item → Result → Prop}

/-- A partial function that succeeds on every item succeeds on the list. -/
theorem mapM_completes {items : List Item}
    (each : ∀ item ∈ items, ∃ result, act item = some result ∧ becomes item result) :
    ∃ results, items.mapM act = some results ∧ List.Forall₂ becomes items results := by
  induction items with
  | nil => exact ⟨[], rfl, .nil⟩
  | cons item rest ih =>
    obtain ⟨result, success, related⟩ := each item List.mem_cons_self
    obtain ⟨results, successes, others⟩ :=
      ih fun other member => each other (List.mem_cons_of_mem _ member)
    exact ⟨result :: results, by simp [List.mapM_cons, success, successes], .cons related others⟩

/-- The same with one item put in another's place. -/
theorem mapM_set_completes {items : List Item} {position : ℕ} {own changed : Item}
    (placed : items[position]? = some own)
    (moved : ∃ result, act changed = some result ∧ becomes own result)
    (each : ∀ item ∈ items, ∃ result, act item = some result ∧ becomes item result) :
    ∃ results, (items.set position changed).mapM act = some results ∧
      List.Forall₂ becomes items results := by
  induction items generalizing position with
  | nil => cases placed
  | cons item rest ih =>
    have later : ∀ item ∈ rest, ∃ result, act item = some result ∧ becomes item result :=
      fun other member => each other (List.mem_cons_of_mem _ member)
    cases position with
    | zero =>
      obtain rfl := Option.some.inj placed
      obtain ⟨result, success, related⟩ := moved
      obtain ⟨results, successes, others⟩ := mapM_completes later
      exact ⟨result :: results, by simp [List.mapM_cons, success, successes], .cons related others⟩
    | succ position =>
      obtain ⟨result, success, related⟩ := each item List.mem_cons_self
      obtain ⟨results, successes, others⟩ := ih (by simpa using placed) later
      exact ⟨result :: results, by simp [List.mapM_cons, success, successes], .cons related others⟩

theorem map_eq_of_forall₂ {Measured : Type*} {measure : Item → Measured} {related : Item → Item → Prop}
    {before after : List Item} (pairs : List.Forall₂ related before after)
    (kept : ∀ first second, related first second → measure second = measure first) :
    after.map measure = before.map measure := by
  induction pairs with
  | nil => rfl
  | cons pair _ ih => rw [List.map_cons, List.map_cons, ih, kept _ _ pair]

theorem exists_of_forall₂ {items : List Item} {results : List Result}
    (pairs : List.Forall₂ becomes items results) (member : result ∈ results) :
    ∃ item ∈ items, becomes item result := by
  induction pairs with
  | nil => cases member
  | cons pair _ ih =>
    rcases List.mem_cons.mp member with rfl | later
    · exact ⟨_, List.mem_cons_self, pair⟩
    · obtain ⟨item, present, related⟩ := ih later
      exact ⟨item, List.mem_cons_of_mem _ present, related⟩

end Traversal

theorem filterMap_getElem?_range {Item : Type*} (items : List Item) :
    (List.range items.length).filterMap (items[·]?) = items := by
  induction items with
  | nil => rfl
  | cons item rest ih =>
    rw [List.length_cons, List.range_succ_eq_map, List.filterMap_cons, List.filterMap_map]
    simpa [Function.comp_def] using ih

end PriceFeed.Library
