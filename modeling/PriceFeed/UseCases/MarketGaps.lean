import Mathlib.Algebra.BigOperators.Group.Finset.Piecewise
import Mathlib.Algebra.Order.Floor.Semiring
import Mathlib.Data.Rat.Floor
import PriceFeed.Library.OrderedMap

/-! `CheckCryptoMarketsGapsUseCase`: gaps between the records of a market, counted in
batches that share a row. -/

namespace PriceFeed.UseCases

open PriceFeed.Library

/-- The attributes that are loaded of a record. Dates are milliseconds. -/
structure IntervalRow where
  intervalStart : ℤ
  intervalEnd : ℤ
  marketId : ℕ
  deriving DecidableEq, Repr

/-- `Date.prototype.toString` writes the second that a date lies in. -/
def dateString (date : ℤ) : ℤ := date / 1000

structure GapResults where
  markets : OrderedMap ℕ ℕ := .empty
  total : ℕ := 0

namespace GapResults

/-- `results.markets[marketId] ??= 0`. -/
def ensure (results : GapResults) (marketId : ℕ) : GapResults :=
  match results.markets.get? marketId with
  | some _ => results
  | none => { results with markets := results.markets.set marketId 0 }

def count (results : GapResults) (marketId : ℕ) : ℕ := (results.markets.get? marketId).getD 0

end GapResults

/-- The body of the loop in `countGaps`, for an item and the one that comes after it. -/
def countItem (isLastBatch : Bool) (results : GapResults) (item : IntervalRow)
    (next : Option IntervalRow) : GapResults :=
  let results := results.ensure item.marketId
  if next.isNone ∧ !isLastBatch then results
  else
    let isMarketChangeOrLast : Bool :=
      (next.isNone ∧ isLastBatch) ∨ some item.marketId ≠ next.map IntervalRow.marketId
    let isIntervalGap : Bool :=
      some (dateString item.intervalEnd) ≠ next.map fun next => dateString next.intervalStart
    if isMarketChangeOrLast then
      { results with total := results.total + results.count item.marketId }
    else if isIntervalGap then
      { results with markets := results.markets.set item.marketId (results.count item.marketId + 1) }
    else results

def countGaps (isLastBatch : Bool) (results : GapResults) : List IntervalRow → GapResults
  | [] => results
  | item :: rest => countGaps isLastBatch (countItem isLastBatch results item rest.head?) rest

section Steps

variable (records : List IntervalRow) (stepSize : ℕ)

/-- `initializeStepsCount`. -/
def stepsCount : ℕ := ⌈(records.length : ℚ) / stepSize⌉₊

/-- The rows in their order, from the offset on. -/
def loadNextBatch (step : ℕ) : List IntervalRow := (records.drop (step * stepSize)).take stepSize

/-- One round of the loop, which leaves the last row for the next one. -/
def processStep (state : GapResults × Option IntervalRow) (step : ℕ) : GapResults × Option IntervalRow :=
  let rows := loadNextBatch records stepSize step
  let countData := match state.2 with
    | some lastEntryFromPrevBatch => lastEntryFromPrevBatch :: rows
    | none => rows
  (countGaps (step + 1 = stepsCount records stepSize) state.1 countData, rows.getLast?)

def processDataInSteps : GapResults :=
  ((List.range (stepsCount records stepSize)).foldl (processStep records stepSize) ({}, none)).1

end Steps

namespace GapResults

variable {results : GapResults} {marketId : ℕ}

theorem get?_ensure (results : GapResults) (marketId other : ℕ) :
    (results.ensure marketId).markets.get? other =
      if other = marketId then some (results.count marketId) else results.markets.get? other := by
  cases held : results.markets.get? marketId with
  | some value =>
    by_cases same : other = marketId
    · simp [ensure, count, held, same]
    · simp [ensure, held, same]
  | none =>
    by_cases same : other = marketId
    · simp [ensure, count, held, same]
    · simp [ensure, held, OrderedMap.get?_set, same, Ne.symm same]

private theorem ensure_ensure (results : GapResults) (marketId : ℕ) :
    (results.ensure marketId).ensure marketId = results.ensure marketId := by
  have held := get?_ensure results marketId marketId
  rw [if_pos rfl] at held
  rw [ensure, held]

theorem total_ensure (results : GapResults) (marketId : ℕ) :
    (results.ensure marketId).total = results.total := by
  rw [ensure]
  split <;> rfl

theorem count_ensure (results : GapResults) (marketId : ℕ) :
    (results.ensure marketId).count marketId = results.count marketId := by
  rw [count, get?_ensure, if_pos rfl, Option.getD_some]

end GapResults

section Batches

variable {isLastBatch : Bool} {results : GapResults}

private theorem countItem_last (results : GapResults) (item : IntervalRow) :
    countItem false results item none = results.ensure item.marketId := by
  simp [countItem]

private theorem countItem_some (isLastBatch : Bool) (results : GapResults) (item next : IntervalRow) :
    countItem isLastBatch results item (some next) = countItem false results item (some next) := by
  simp [countItem]

/-- The row that a batch leaves for the next one is counted there as if it came first. -/
private theorem countItem_carried (item : IntervalRow) (next : Option IntervalRow) :
    countItem isLastBatch (results.ensure item.marketId) item next = countItem isLastBatch results item next := by
  simp only [countItem, GapResults.ensure_ensure]

theorem countGaps_cons (isLastBatch : Bool) (results : GapResults) (item : IntervalRow)
    (rest : List IntervalRow) : countGaps isLastBatch results (item :: rest) =
      countGaps isLastBatch (countItem isLastBatch results item rest.head?) rest := rfl

private theorem countGaps_append (front rest : List IntervalRow) (item : IntervalRow) :
    countGaps isLastBatch (countGaps false results (front ++ [item])) (item :: rest) =
      countGaps isLastBatch results (front ++ item :: rest) := by
  induction front generalizing results with
  | nil =>
    rw [List.nil_append, List.nil_append, countGaps, countGaps, countGaps, countGaps, List.head?_nil,
      countItem_last, countItem_carried]
  | cons first front ih =>
    obtain ⟨next, before, after⟩ : ∃ next, (front ++ [item]).head? = some next ∧
        (front ++ item :: rest).head? = some next := by
      cases front with
      | nil => exact ⟨item, rfl, rfl⟩
      | cons next _ => exact ⟨next, rfl, rfl⟩
    rw [List.cons_append, List.cons_append, countGaps_cons _ _ first, ih, countGaps_cons _ _ first, before, after,
      countItem_some isLastBatch]

/-- Batches that overlap in the carried row count like one batch. -/
private theorem countGaps_batch (seen rows : List IntervalRow) :
    countGaps isLastBatch (countGaps false results seen)
        (match seen.getLast? with
          | some lastEntry => lastEntry :: rows
          | none => rows) =
      countGaps isLastBatch results (seen ++ rows) := by
  rcases List.eq_nil_or_concat' seen with rfl | ⟨front, item, rfl⟩
  · rfl
  · rw [List.getLast?_concat, countGaps_append, List.append_assoc, List.singleton_append]

end Batches

section Loop

variable {records : List IntervalRow} {stepSize : ℕ}

theorem stepsCount_bounds (positive : 1 ≤ stepSize) (some : records ≠ []) :
    (stepsCount records stepSize - 1) * stepSize < records.length ∧
      records.length ≤ stepsCount records stepSize * stepSize ∧ 0 < stepsCount records stepSize := by
  have size : (0 : ℚ) < stepSize := by exact_mod_cast positive
  have rows : (0 : ℚ) < records.length := by exact_mod_cast List.length_pos_iff.mpr some
  have steps : 0 < stepsCount records stepSize := Nat.ceil_pos.mpr (div_pos rows size)
  refine ⟨?_, ?_, steps⟩
  · have below : ((stepsCount records stepSize - 1 : ℕ) : ℚ) < records.length / stepSize :=
      Nat.lt_ceil.mp (Nat.sub_lt steps Nat.one_pos)
    rw [lt_div_iff₀ size] at below
    exact_mod_cast below
  · have above : (records.length : ℚ) / stepSize ≤ stepsCount records stepSize := Nat.le_ceil _
    rw [div_le_iff₀ size] at above
    exact_mod_cast above

/-- The rows of the first batches have been counted, as one batch with more to come. -/
def Seen (records : List IntervalRow) (stepSize step : ℕ) (state : GapResults × Option IntervalRow) : Prop :=
  state = (countGaps false {} (records.take (step * stepSize)), (records.take (step * stepSize)).getLast?)

/-- A batch counts its own rows and the pair that links them to the rows before. -/
theorem processStep_eq {step : ℕ} {state : GapResults × Option IntervalRow}
    (seen : Seen records stepSize step state) (more : step * stepSize < records.length) (positive : 1 ≤ stepSize) :
    processStep records stepSize state step =
      (countGaps (step + 1 = stepsCount records stepSize) {} (records.take ((step + 1) * stepSize)),
        (records.take ((step + 1) * stepSize)).getLast?) := by
  have rows : records.take ((step + 1) * stepSize) =
      records.take (step * stepSize) ++ loadNextBatch records stepSize step := by
    rw [Nat.succ_mul, List.take_add]
    rfl
  have loaded : loadNextBatch records stepSize step ≠ [] := by
    rw [loadNextBatch, Ne, List.take_eq_nil_iff, List.drop_eq_nil_iff]
    omega
  rw [seen, processStep, rows]
  refine Prod.ext ?_ ?_
  · exact countGaps_batch _ _
  · rw [List.getLast?_append_of_ne_nil _ loaded]

private theorem seen_foldl {steps : ℕ} (positive : 1 ≤ stepSize) (some : records ≠ [])
    (before : steps < stepsCount records stepSize) :
    Seen records stepSize steps ((List.range steps).foldl (processStep records stepSize) ({}, none)) := by
  induction steps with
  | zero => simp [Seen, countGaps]
  | succ steps ih =>
    have seen := ih (Nat.lt_of_succ_lt before)
    obtain ⟨rows, -, -⟩ := stepsCount_bounds positive some
    have more : steps * stepSize < records.length :=
      (Nat.mul_le_mul_right stepSize (Nat.le_sub_one_of_lt (Nat.lt_of_succ_lt before))).trans_lt rows
    have notLast : ¬ steps + 1 = stepsCount records stepSize := Nat.ne_of_lt before
    rw [List.range_succ, List.foldl_append, List.foldl_cons, List.foldl_nil, Seen,
      processStep_eq seen more positive]
    simp [notLast]

/-- Whatever the step size, the batches count like the whole list at once. -/
theorem processDataInSteps_eq (positive : 1 ≤ stepSize) :
    processDataInSteps records stepSize = countGaps true {} records := by
  by_cases some : records = []
  · subst some
    simp [processDataInSteps, stepsCount, countGaps]
  · obtain ⟨before, all, steps⟩ := stepsCount_bounds positive some
    obtain ⟨earlier, last⟩ := Nat.exists_eq_succ_of_ne_zero steps.ne'
    have final : earlier + 1 = stepsCount records stepSize := last.symm
    have seen := seen_foldl positive some (Nat.lt_of_lt_of_eq (Nat.lt_succ_self earlier) final)
    rw [← final, Nat.add_sub_cancel] at before
    rw [← final] at all
    rw [processDataInSteps, last, Nat.succ_eq_add_one, List.range_succ, List.foldl_append, List.foldl_cons,
      List.foldl_nil, processStep_eq seen before positive, List.take_of_length_le all]
    simp [final]

end Loop

/-- Neighbours whose intervals do not adjoin. -/
def adjacentGaps (rows : List IntervalRow) : ℕ :=
  (rows.zip rows.tail).countP fun pair => pair.1.intervalEnd ≠ pair.2.intervalStart

/-- The gaps between the records of one market. -/
def marketGaps (records : List IntervalRow) (marketId : ℕ) : ℕ :=
  adjacentGaps (records.filter fun row => row.marketId = marketId)

/-- The order of the queries: by market, then by start. -/
def SortedByMarket (records : List IntervalRow) : Prop :=
  records.Pairwise fun first second => first.marketId < second.marketId ∨
    first.marketId = second.marketId ∧ first.intervalStart ≤ second.intervalStart

/-- As the schedulers produce them. -/
def OnWholeSeconds (records : List IntervalRow) : Prop :=
  ∀ row ∈ records, 1000 ∣ row.intervalStart ∧ 1000 ∣ row.intervalEnd

/-- The count of every market that is present, of no other, and their sum. -/
structure GapResults.Exact (results : GapResults) (records : List IntervalRow) : Prop where
  counted : ∀ marketId ∈ records.map IntervalRow.marketId,
    results.markets.get? marketId = some (marketGaps records marketId)
  absent : ∀ marketId ∉ records.map IntervalRow.marketId, results.markets.get? marketId = none
  total : results.total = ∑ marketId ∈ (records.map IntervalRow.marketId).toFinset, marketGaps records marketId

section Counting

variable {item next : IntervalRow} {rest records : List IntervalRow} {results : GapResults}

private theorem dateString_eq_iff {first second : ℤ} (here : 1000 ∣ first) (there : 1000 ∣ second) :
    dateString first = dateString second ↔ first = second := by
  rw [dateString, dateString]
  omega

/-- The last record of a market closes its count. -/
theorem countItem_closes {next : Option IntervalRow} (closes : ∀ row ∈ next, row.marketId ≠ item.marketId) :
    countItem true results item next =
      { results.ensure item.marketId with total := results.total + results.count item.marketId } := by
  have change : some item.marketId ≠ next.map IntervalRow.marketId := by
    intro same
    obtain ⟨row, member, equal⟩ := Option.map_eq_some_iff.mp same.symm
    exact closes row member equal
  simp [countItem, change, GapResults.total_ensure, GapResults.count_ensure]

theorem countItem_pair (same : next.marketId = item.marketId) (whole : OnWholeSeconds [item, next]) :
    (∀ other, (countItem true results item (some next)).markets.get? other =
      if other = item.marketId then
        some (results.count item.marketId + if item.intervalEnd ≠ next.intervalStart then 1 else 0)
      else results.markets.get? other) ∧
    (countItem true results item (some next)).total = results.total := by
  have strings : dateString item.intervalEnd = dateString next.intervalStart ↔
      item.intervalEnd = next.intervalStart :=
    dateString_eq_iff (whole item (by simp)).2 (whole next (by simp)).1
  by_cases adjoins : item.intervalEnd = next.intervalStart
  · have counted : countItem true results item (some next) = results.ensure item.marketId := by
      simp [countItem, same, adjoins]
    rw [counted]
    refine ⟨fun other => ?_, GapResults.total_ensure _ _⟩
    rw [GapResults.get?_ensure, if_neg (not_not.mpr adjoins), Nat.add_zero]
  · have counted : countItem true results item (some next) =
        { results.ensure item.marketId with
          markets := (results.ensure item.marketId).markets.set item.marketId
            (results.count item.marketId + 1) } := by
      simp [countItem, same, strings, adjoins, GapResults.count_ensure]
    rw [counted]
    refine ⟨fun other => ?_, GapResults.total_ensure _ _⟩
    by_cases own : other = item.marketId
    · simp [own, adjoins]
    · simp [OrderedMap.get?_set, GapResults.get?_ensure, own, Ne.symm own]

theorem marketGaps_other {marketId : ℕ} (other : marketId ≠ item.marketId) :
    marketGaps (item :: rest) marketId = marketGaps rest marketId := by
  simp [marketGaps, Ne.symm other]

/-- A market's first record adds the gap to its next one. -/
theorem marketGaps_pair (same : next.marketId = item.marketId) (marketId : ℕ) :
    marketGaps (item :: next :: rest) marketId =
      (if marketId = item.marketId then if item.intervalEnd ≠ next.intervalStart then 1 else 0 else 0) +
        marketGaps (next :: rest) marketId := by
  by_cases own : marketId = item.marketId
  · simp [marketGaps, adjacentGaps, same, own, List.countP_cons, Nat.add_comm]
  · rw [marketGaps_other own, if_neg own, Nat.zero_add]

theorem marketGaps_alone (alone : item.marketId ∉ rest.map IntervalRow.marketId) :
    marketGaps (item :: rest) item.marketId = 0 := by
  have none : rest.filter (fun row => row.marketId = item.marketId) = [] := by
    rw [List.filter_eq_nil_iff]
    intro row member same
    exact alone (List.mem_map.mpr ⟨row, member, of_decide_eq_true same⟩)
  simp [marketGaps, adjacentGaps, none]

/-- Behind a record of another market there is none of the first one's. -/
theorem SortedByMarket.closed (sorted : SortedByMarket (item :: next :: rest))
    (change : next.marketId ≠ item.marketId) : item.marketId ∉ (next :: rest).map IntervalRow.marketId := by
  obtain ⟨before, sorted⟩ := List.pairwise_cons.mp sorted
  have first : item.marketId < next.marketId := by
    rcases before next List.mem_cons_self with less | ⟨same, -⟩
    · exact less
    · exact absurd same.symm change
  intro member
  obtain ⟨row, member, same⟩ := List.mem_map.mp member
  rcases List.mem_cons.mp member with rfl | later
  · exact change same
  · rcases (List.pairwise_cons.mp sorted).1 row later with less | ⟨equal, -⟩
    · omega
    · omega

/-- What `results` become once these rows are counted: the first row's market keeps what it
had, the others come for the first time. -/
structure Counts (results counted : GapResults) (item : IntervalRow) (rest : List IntervalRow) : Prop where
  present : ∀ marketId ∈ (item :: rest).map IntervalRow.marketId, counted.markets.get? marketId =
    some ((if marketId = item.marketId then results.count item.marketId else 0) +
      marketGaps (item :: rest) marketId)
  others : ∀ marketId ∉ (item :: rest).map IntervalRow.marketId,
    counted.markets.get? marketId = results.markets.get? marketId
  total : counted.total = results.total + results.count item.marketId +
    ∑ marketId ∈ ((item :: rest).map IntervalRow.marketId).toFinset, marketGaps (item :: rest) marketId

theorem Counts.pair {counted : GapResults} (same : next.marketId = item.marketId)
    (whole : OnWholeSeconds [item, next])
    (later : Counts (countItem true results item (some next)) counted next rest) :
    Counts results counted item (next :: rest) := by
  have ⟨lookups, total⟩ := @countItem_pair _ _ results same whole
  have ids : ∀ marketId, marketId ∈ (item :: next :: rest).map IntervalRow.marketId ↔
      marketId ∈ (next :: rest).map IntervalRow.marketId := by
    simp [same]
  have count : (countItem true results item (some next)).count next.marketId =
      results.count item.marketId + if item.intervalEnd ≠ next.intervalStart then 1 else 0 := by
    rw [GapResults.count, lookups, if_pos same, Option.getD_some]
  constructor
  · intro marketId member
    rw [later.present marketId ((ids marketId).mp member), count, same, marketGaps_pair same]
    by_cases own : marketId = item.marketId
    · simp only [own, ↓reduceIte, Nat.add_assoc]
    · simp only [own, ↓reduceIte, Nat.zero_add]
  · intro marketId missing
    rw [later.others marketId (mt (ids marketId).mpr missing), lookups, if_neg]
    rintro rfl
    exact missing List.mem_cons_self
  · have listed : item.marketId ∈ ((next :: rest).map IntervalRow.marketId).toFinset := by simp [same]
    have sum : ∑ marketId ∈ ((item :: next :: rest).map IntervalRow.marketId).toFinset,
        marketGaps (item :: next :: rest) marketId =
        (if item.intervalEnd ≠ next.intervalStart then 1 else 0) +
          ∑ marketId ∈ ((next :: rest).map IntervalRow.marketId).toFinset, marketGaps (next :: rest) marketId := by
      rw [List.map_cons, List.toFinset_cons, Finset.insert_eq_self.mpr listed,
        Finset.sum_congr rfl fun marketId _ => marketGaps_pair same marketId, Finset.sum_add_distrib,
        Finset.sum_ite_eq', if_pos listed]
    rw [later.total, total, count, sum]
    omega

theorem Counts.closes {counted : GapResults} (sorted : SortedByMarket (item :: next :: rest))
    (change : next.marketId ≠ item.marketId)
    (fresh : ∀ row ∈ next :: rest, row.marketId ≠ item.marketId → results.markets.get? row.marketId = none)
    (later : Counts (countItem true results item (some next)) counted next rest) :
    Counts results counted item (next :: rest) := by
  have alone := sorted.closed change
  have closed : countItem true results item (some next) =
      { results.ensure item.marketId with total := results.total + results.count item.marketId } :=
    countItem_closes fun row same => Option.some.inj same ▸ change
  rw [closed] at later
  have new : GapResults.count { results.ensure item.marketId with
      total := results.total + results.count item.marketId } next.marketId = 0 := by
    rw [GapResults.count, GapResults.get?_ensure, if_neg change, fresh next List.mem_cons_self change]
    rfl
  constructor
  · intro marketId member
    by_cases own : marketId = item.marketId
    · subst own
      rw [later.others _ alone, GapResults.get?_ensure, if_pos rfl, if_pos rfl, marketGaps_alone alone, Nat.add_zero]
    · have behind : marketId ∈ (next :: rest).map IntervalRow.marketId :=
        (List.mem_cons.mp member).resolve_left own
      rw [later.present marketId behind, new, marketGaps_other own, if_neg own, ite_self]
  · intro marketId missing
    rw [List.map_cons, List.mem_cons, not_or] at missing
    rw [later.others marketId missing.2, GapResults.get?_ensure, if_neg missing.1]
  · have sum : ∑ marketId ∈ ((item :: next :: rest).map IntervalRow.marketId).toFinset,
        marketGaps (item :: next :: rest) marketId =
        ∑ marketId ∈ ((next :: rest).map IntervalRow.marketId).toFinset, marketGaps (next :: rest) marketId := by
      rw [List.map_cons, List.toFinset_cons, Finset.sum_insert (by simpa using alone), marketGaps_alone alone,
        Nat.zero_add]
      refine Finset.sum_congr rfl fun marketId member => marketGaps_other ?_
      rintro rfl
      exact alone (List.mem_toFinset.mp member)
    rw [later.total, new, sum, Nat.add_zero]

private theorem counts_last (results : GapResults) (item : IntervalRow) :
    Counts results (countItem true results item none) item [] := by
  rw [countItem_closes (by simp)]
  constructor
  · intro marketId member
    obtain rfl := List.mem_singleton.mp member
    rw [GapResults.get?_ensure, if_pos rfl, if_pos rfl, marketGaps_alone (by simp), Nat.add_zero]
  · intro marketId missing
    rw [GapResults.get?_ensure, if_neg (by simpa using missing)]
  · simp [marketGaps_alone]

private theorem countGaps_counts (sorted : SortedByMarket (item :: rest)) (whole : OnWholeSeconds (item :: rest))
    (fresh : ∀ row ∈ rest, row.marketId ≠ item.marketId → results.markets.get? row.marketId = none) :
    Counts results (countGaps true results (item :: rest)) item rest := by
  induction rest generalizing item results with
  | nil => exact counts_last results item
  | cons next rest ih =>
    have remaining : SortedByMarket (next :: rest) := (List.pairwise_cons.mp sorted).2
    have seconds : OnWholeSeconds (next :: rest) := fun row member =>
      whole row (List.mem_cons_of_mem item member)
    rw [countGaps_cons, List.head?_cons]
    by_cases same : next.marketId = item.marketId
    · have pair : OnWholeSeconds [item, next] := by
        intro row member
        apply whole row
        simp only [List.mem_cons, List.not_mem_nil, or_false] at member ⊢
        exact member.imp_right .inl
      refine Counts.pair same pair (ih remaining seconds fun row member other => ?_)
      rw [(countItem_pair same pair).1, if_neg (same ▸ other)]
      exact fresh row (List.mem_cons_of_mem _ member) (same ▸ other)
    · refine Counts.closes sorted same fresh (ih remaining seconds fun row member other => ?_)
      have change : row.marketId ≠ item.marketId := by
        intro equal
        exact sorted.closed same (List.mem_map.mpr ⟨row, List.mem_cons_of_mem _ member, equal⟩)
      have closes : ∀ row ∈ some next, row.marketId ≠ item.marketId := by simpa using same
      rw [countItem_closes closes, GapResults.get?_ensure, if_neg change]
      exact fresh row (List.mem_cons_of_mem _ member) change

theorem countGaps_exact {records : List IntervalRow} (sorted : SortedByMarket records)
    (whole : OnWholeSeconds records) : (countGaps true {} records).Exact records := by
  cases records with
  | nil => exact ⟨List.forall_mem_nil _, fun _ _ => rfl, rfl⟩
  | cons item rest =>
    have counts : Counts {} (countGaps true {} (item :: rest)) item rest :=
      countGaps_counts sorted whole fun _ _ _ => rfl
    obtain ⟨present, others, total⟩ := counts
    have none : GapResults.count {} item.marketId = 0 := rfl
    constructor
    · intro marketId member
      rw [present marketId member, none, ite_self, Nat.zero_add]
    · exact others
    · rw [total, none, Nat.add_zero, Nat.zero_add]

end Counting

/-- The use case counts every gap of every market once, whatever the step size. -/
theorem processDataInSteps_exact {records : List IntervalRow} {stepSize : ℕ} (positive : 1 ≤ stepSize)
    (sorted : SortedByMarket records) (whole : OnWholeSeconds records) :
    (processDataInSteps records stepSize).Exact records := by
  rw [processDataInSteps_eq positive]
  exact countGaps_exact sorted whole

/-- Two markets in batches of two: the first has a gap between its second and third record. -/
theorem processDataInSteps_exact_twoMarkets :
    (processDataInSteps [⟨0, 60000, 1⟩, ⟨60000, 120000, 1⟩, ⟨180000, 240000, 1⟩, ⟨0, 60000, 2⟩] 2).Exact
      [⟨0, 60000, 1⟩, ⟨60000, 120000, 1⟩, ⟨180000, 240000, 1⟩, ⟨0, 60000, 2⟩] :=
  processDataInSteps_exact (by decide) (by simp [SortedByMarket]) (by simp [OnWholeSeconds])

end PriceFeed.UseCases
