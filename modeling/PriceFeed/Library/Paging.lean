import Mathlib.Data.List.Sort

/-! Pages of rows sorted by a key that several rows may share, each page taken from an
arrangement of its own. -/

namespace PriceFeed.Library

variable {Row Key : Type*} [LinearOrder Key] {key : Row → Key} {rows : List Row}
  {arrangements : ℕ → List Row} {step : ℕ}

/-- An order in which a query sorted by the key may return the rows. -/
structure Arrangement (key : Row → Key) (rows arrangement : List Row) : Prop where
  perm : arrangement.Perm rows
  sorted : arrangement.Pairwise fun first second => key first ≤ key second

/-- The first pages, each of the arrangement its query got. -/
def pages (step : ℕ) (arrangements : ℕ → List Row) (count : ℕ) : List Row :=
  (List.range count).flatMap fun query => ((arrangements query).drop (query * step)).take step

/-- Rows with one key lie on both sides of the position. -/
def Cut (key : Row → Key) (rows : List Row) (position : ℕ) : Prop :=
  ∃ row ∈ rows, rows.countP (fun other => key other < key row) < position ∧
    position < rows.countP fun other => key other ≤ key row

instance : Decidable (Cut key rows position) := inferInstanceAs (Decidable (∃ row ∈ rows, _))

theorem pages_succ (count : ℕ) : pages step arrangements (count + 1) =
    pages step arrangements count ++ ((arrangements count).drop (count * step)).take step := by
  simp [pages, List.range_succ]

section Prefixes

variable {below : Row → Bool} {arrangement : List Row}

/-- What holds downwards along a list holds of its first items. -/
theorem filter_eq_take (closed : arrangement.Pairwise fun first second => below second → below first) :
    arrangement.filter below = arrangement.take (arrangement.countP below) := by
  induction arrangement with
  | nil => rfl
  | cons first rest ih =>
    obtain ⟨down, ordered⟩ := List.pairwise_cons.mp closed
    by_cases here : below first
    · simp [here, ih ordered]
    · have none : ∀ other ∈ rest, ¬ below other := fun other member later =>
        here (down other member later)
      have empty : rest.filter below = [] := List.filter_eq_nil_iff.mpr none
      have zero : rest.countP below = 0 := List.countP_eq_zero.mpr none
      simp [here, empty, zero]

theorem getElem_iff_lt_countP
    (closed : arrangement.Pairwise fun first second => below second → below first)
    (inside : position < arrangement.length) :
    below arrangement[position] ↔ position < arrangement.countP below := by
  induction arrangement generalizing position with
  | nil => simp at inside
  | cons first rest ih =>
    obtain ⟨down, ordered⟩ := List.pairwise_cons.mp closed
    cases position with
    | zero =>
      by_cases here : below first
      · simp [here]
      · have zero : rest.countP below = 0 :=
          List.countP_eq_zero.mpr fun other member later => here (down other member later)
        simp [here, zero]
    | succ position =>
      have later := ih ordered (by simpa using inside)
      by_cases here : below first
      · simpa [here] using later
      · have zero : rest.countP below = 0 :=
          List.countP_eq_zero.mpr fun other member later => here (down other member later)
        rw [zero] at later
        simpa [here, zero] using later

end Prefixes

namespace Arrangement

variable {arrangement : List Row}

theorem lt_closed (valid : Arrangement key rows arrangement) (bound : Key) :
    arrangement.Pairwise fun first second => decide (key second < bound) → decide (key first < bound) := by
  apply valid.sorted.imp
  intro first second order
  simpa using order.trans_lt

theorem le_closed (valid : Arrangement key rows arrangement) (bound : Key) :
    arrangement.Pairwise fun first second => decide (key second ≤ bound) → decide (key first ≤ bound) := by
  apply valid.sorted.imp
  intro first second order
  simpa using order.trans

theorem key_lt_iff (valid : Arrangement key rows arrangement) (inside : position < arrangement.length)
    (bound : Key) : key arrangement[position] < bound ↔
      position < rows.countP fun other => key other < bound := by
  rw [← valid.perm.countP_eq, ← getElem_iff_lt_countP (valid.lt_closed bound) inside, decide_eq_true_iff]

theorem key_le_iff (valid : Arrangement key rows arrangement) (inside : position < arrangement.length)
    (bound : Key) : key arrangement[position] ≤ bound ↔
      position < rows.countP fun other => key other ≤ bound := by
  rw [← valid.perm.countP_eq, ← getElem_iff_lt_countP (valid.le_closed bound) inside, decide_eq_true_iff]

/-- Where no group is cut, the first rows are those below the next one's key. -/
theorem countP_eq_of_uncut (valid : Arrangement key rows arrangement)
    (inside : position < arrangement.length) (uncut : ¬ Cut key rows position) :
    rows.countP (fun other => key other < key arrangement[position]) = position := by
  have before := mt (valid.key_lt_iff inside (key arrangement[position])).mpr (lt_irrefl _)
  have after := (valid.key_le_iff inside (key arrangement[position])).mp le_rfl
  have member : arrangement[position] ∈ rows := valid.perm.mem_iff.mp (List.getElem_mem inside)
  by_contra different
  exact uncut ⟨_, member, by omega, after⟩

/-- The first rows up to a position that cuts no group are the same in every arrangement. -/
theorem take_perm {other : List Row} (valid : Arrangement key rows arrangement)
    (again : Arrangement key rows other) (uncut : ¬ Cut key rows position) :
    (arrangement.take position).Perm (other.take position) := by
  have same := valid.perm.trans again.perm.symm
  by_cases inside : position < arrangement.length
  · have count := valid.countP_eq_of_uncut inside uncut
    have first : arrangement.take position =
        arrangement.filter fun row => key row < key arrangement[position] := by
      rw [filter_eq_take (valid.lt_closed _), valid.perm.countP_eq, count]
    have second : other.take position =
        other.filter fun row => key row < key arrangement[position] := by
      rw [filter_eq_take (again.lt_closed _), again.perm.countP_eq, count]
    rw [first, second]
    exact same.filter _
  · rw [List.take_of_length_le (by omega), List.take_of_length_le (by rw [← same.length_eq]; omega)]
    exact same

theorem swap {front back : List Row} {first second : Row}
    (valid : Arrangement key rows (front ++ first :: second :: back)) (tied : key first = key second) :
    Arrangement key rows (front ++ second :: first :: back) := by
  constructor
  · exact ((List.Perm.swap first second back).append_left front).trans valid.perm
  · have sorted := valid.sorted
    simp only [List.pairwise_append, List.pairwise_cons, List.mem_cons, forall_eq_or_imp, tied] at sorted ⊢
    grind

/-- The rows on both sides of a cut have one key. -/
theorem tied_of_cut (valid : Arrangement key rows arrangement) (cut : Cut key rows position) :
    ∃ front first second back, arrangement = front ++ first :: second :: back ∧
      front.length + 1 = position ∧ key first = key second := by
  obtain ⟨row, _, before, after⟩ := cut
  have length := valid.perm.length_eq
  have bounded : rows.countP (fun other => key other ≤ key row) ≤ rows.length := List.countP_le_length
  obtain ⟨previous, rfl⟩ : ∃ previous, position = previous + 1 := ⟨position - 1, by omega⟩
  have last : previous < arrangement.length := by omega
  have next : previous + 1 < arrangement.length := by omega
  have tied : ∀ {here : ℕ} (inside : here < arrangement.length),
      rows.countP (fun other => key other < key row) ≤ here →
      here < rows.countP (fun other => key other ≤ key row) → key arrangement[here] = key row := by
    intro here inside low high
    exact le_antisymm ((valid.key_le_iff inside _).mpr high)
      (not_lt.mp (mt (valid.key_lt_iff inside _).mp (by omega)))
  refine ⟨arrangement.take previous, arrangement[previous], arrangement[previous + 1],
    arrangement.drop (previous + 2), ?_, by simp; omega, ?_⟩
  · rw [← List.drop_eq_getElem_cons next, ← List.drop_eq_getElem_cons last, List.take_append_drop]
  · rw [tied last (by omega) (by omega), tied next (by omega) after]

end Arrangement

theorem exists_arrangement (key : Row → Key) (rows : List Row) :
    ∃ arrangement, Arrangement key rows arrangement := by
  let le : Row → Row → Bool := fun first second => key first ≤ key second
  refine ⟨rows.mergeSort le, List.mergeSort_perm rows le, ?_⟩
  have sorted : (rows.mergeSort le).Pairwise fun first second => le first second := by
    apply List.pairwise_mergeSort
    · exact fun first second third => by simpa [le] using le_trans
    · exact fun first second => by simpa [le] using le_total _ _
  simpa [le] using sorted

/-- Pages that cut no group return every row once. -/
theorem pages_perm (valid : ∀ query, Arrangement key rows (arrangements query))
    (uncut : ∀ page, ¬ Cut key rows (page * step)) (enough : rows.length ≤ count * step) :
    (pages step arrangements count).Perm rows := by
  have taken : ∀ query, (pages step arrangements query).Perm
      ((arrangements query).take (query * step)) := by
    intro query
    induction query with
    | zero => simp [pages]
    | succ query ih =>
      rw [pages_succ]
      have joined : ((arrangements query).take (query * step) ++
          ((arrangements query).drop (query * step)).take step) =
            (arrangements query).take ((query + 1) * step) := by
        rw [Nat.succ_mul, List.take_add]
      refine (ih.append_right _).trans ?_
      rw [joined]
      exact (valid query).take_perm (valid (query + 1)) (uncut (query + 1))
  refine (taken count).trans ?_
  rw [List.take_of_length_le (by rw [(valid count).perm.length_eq]; exact enough)]
  exact (valid count).perm

theorem pages_const (arrangement : List Row) (count : ℕ) :
    pages step (fun _ => arrangement) count = arrangement.take (count * step) := by
  induction count with
  | zero => simp [pages]
  | succ count ih => rw [pages_succ, ih, Nat.succ_mul, List.take_add]

theorem pages_congr {others : ℕ → List Row} (same : ∀ query < count, arrangements query = others query) :
    pages step arrangements count = pages step others count := by
  apply List.flatMap_congr
  intro query member
  rw [same query (List.mem_range.mp member)]

theorem pages_sublist (fewer : first ≤ second) :
    (pages step arrangements first).Sublist (pages step arrangements second) := by
  induction second, fewer using Nat.le_induction with
  | base => exact List.Sublist.refl _
  | succ second _ ih =>
    rw [pages_succ]
    exact ih.trans (List.sublist_append_left _ _)

/-- Where a page ends within a group, the next query may swap the two rows beside
the cut and return one of them again. -/
theorem exists_repeat_of_cut (distinct : rows.Nodup) (positive : 0 < step)
    (cut : Cut key rows (page * step)) :
    ∃ arrangements : ℕ → List Row, (∀ query, Arrangement key rows (arrangements query)) ∧
      ∀ count, rows.length ≤ count * step → ¬ (pages step arrangements count).Perm rows := by
  obtain ⟨arrangement, valid⟩ := exists_arrangement key rows
  obtain ⟨front, first, second, back, rfl, place, tied⟩ := valid.tied_of_cut cut
  let swapped := front ++ second :: first :: back
  refine ⟨fun query => if query < page then front ++ first :: second :: back else swapped, ?_, ?_⟩
  · intro query
    by_cases before : query < page
    · simpa [before] using valid
    · simpa [before] using valid.swap tied
  · intro count enough permuted
    have length := valid.perm.length_eq
    simp only [List.length_append, List.length_cons] at length
    have more : page + 1 ≤ count := by
      by_contra few
      have short := Nat.mul_le_mul_right step (Nat.le_of_not_lt few)
      omega
    have unrepeated := (permuted.nodup_iff.mpr distinct).sublist (pages_sublist more)
    have earlier : first ∈ pages step (fun query =>
        if query < page then front ++ first :: second :: back else swapped) page := by
      have constant : pages step (fun query =>
          if query < page then front ++ first :: second :: back else swapped) page =
            pages step (fun _ => front ++ first :: second :: back) page :=
        pages_congr fun query before => if_pos before
      rw [constant, pages_const, ← place]
      simp [List.take_append]
    have again : first ∈ (swapped.drop (page * step)).take step := by
      rw [← place]
      obtain ⟨size, rfl⟩ : ∃ size, step = size + 1 := ⟨step - 1, by omega⟩
      simp [swapped, List.drop_append, List.drop_eq_nil_of_le]
    rw [pages_succ, List.nodup_append] at unrepeated
    exact unrepeated.2.2 first earlier first (by simpa using again) rfl

end PriceFeed.Library
