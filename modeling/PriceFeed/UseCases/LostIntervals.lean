import PriceFeed.Collectors.IntervalChains
import PriceFeed.UseCases.MarketGaps

/-! What the gaps between records say of the collectors: each gap is one outage, in which the
records of successive intervals were lost. -/

namespace PriceFeed.UseCases

open PriceFeed.Library PriceFeed.Collectors PriceFeed.Schedulers

/-- The realtime schedule of one market, and whether the record of each run was stored. -/
structure MarketHistory where
  marketId : ℕ
  runs : RealtimeRuns
  stored : List Bool

/-- Outages that the stored intervals enclose: a stored one, a lost one after it, and a
stored one at some later time. -/
def outages (stored : List Bool) : ℕ :=
  stored.tails.countP fun
    | true :: false :: later => true ∈ later
    | _ => false

/-- The records of the intervals from an index on. -/
def storedRows (marketId : ℕ) (runs : RealtimeRuns) : ℕ → List Bool → List IntervalRow
  | _, [] => []
  | index, true :: stored =>
    ⟨(runs.intervalBounds index).intervalStart, (runs.intervalBounds index).intervalEnd, marketId⟩ ::
      storedRows marketId runs (index + 1) stored
  | index, false :: stored => storedRows marketId runs (index + 1) stored

def MarketHistory.records (history : MarketHistory) : List IntervalRow :=
  storedRows history.marketId history.runs 0 history.stored

/-- The records of all markets in the order of the queries. -/
def storedRecords (histories : List MarketHistory) : List IntervalRow :=
  histories.flatMap MarketHistory.records

section Chain

variable {marketId index : ℕ} {runs : RealtimeRuns} {stored : List Bool} {row : IntervalRow}

theorem boundary_lt (runs : RealtimeRuns) {first second : ℕ} (less : first < second) :
    runs.boundary first < runs.boundary second := by
  have next : ∀ index, runs.boundary index < runs.boundary (index + 1) := by
    intro index
    rw [runs.boundary_succ]
    exact Int.lt_add_of_pos_right _ (Int.natCast_pos.mpr runs.positive)
  induction less with
  | refl => exact next first
  | @step middle _ ih => exact Int.lt_trans ih (next middle)

/-- A record is of an interval from the index on. -/
theorem mem_storedRows (member : row ∈ storedRows marketId runs index stored) :
    row.marketId = marketId ∧ ∃ position ≥ index,
      row.intervalStart = runs.boundary position ∧ row.intervalEnd = runs.boundary (position + 1) := by
  induction stored generalizing index with
  | nil => cases member
  | cons kept stored ih =>
    cases kept with
    | true =>
      rcases List.mem_cons.mp member with rfl | later
      · rw [runs.intervalBounds_eq]
        exact ⟨rfl, index, le_rfl, rfl, rfl⟩
      · obtain ⟨market, position, beyond, interval⟩ := ih later
        exact ⟨market, position, (Nat.le_succ index).trans beyond, interval⟩
    | false =>
      obtain ⟨market, position, beyond, interval⟩ := ih member
      exact ⟨market, position, (Nat.le_succ index).trans beyond, interval⟩

theorem storedRows_eq_nil_iff : storedRows marketId runs index stored = [] ↔ true ∉ stored := by
  induction stored generalizing index with
  | nil => simp [storedRows]
  | cons kept stored ih =>
    cases kept with
    | true => simp [storedRows]
    | false => simp [storedRows, ih]

private theorem outages_false : outages (false :: stored) = outages stored := by
  simp [outages]

private theorem outages_true : outages (true :: stored) =
    (if stored.head? = some false ∧ true ∈ stored then 1 else 0) + outages stored := by
  cases stored with
  | nil => rfl
  | cons next stored =>
    cases next with
    | true => simp [outages]
    | false =>
      by_cases later : true ∈ stored
      · simp [outages, later, Nat.add_comm]
      · simp [outages, later]

private theorem adjacentGaps_cons (first : IntervalRow) (rows : List IntervalRow) : adjacentGaps (first :: rows) =
    (if ∃ next ∈ rows.head?, first.intervalEnd ≠ next.intervalStart then 1 else 0) + adjacentGaps rows := by
  cases rows with
  | nil => rfl
  | cons next rows => simp [adjacentGaps, List.countP_cons, Nat.add_comm]

/-- The record after a stored one adjoins it unless the next interval was lost. -/
private theorem gap_after_iff : (∃ next ∈ (storedRows marketId runs (index + 1) stored).head?,
    runs.boundary (index + 1) ≠ next.intervalStart) ↔ stored.head? = some false ∧ true ∈ stored := by
  cases stored with
  | nil => simp [storedRows]
  | cons kept stored =>
    cases kept with
    | true => simp [storedRows, runs.intervalBounds_eq]
    | false =>
      rw [storedRows]
      constructor
      · rintro ⟨next, first, _⟩
        refine ⟨rfl, List.mem_cons_of_mem _ ?_⟩
        by_contra none
        rw [storedRows_eq_nil_iff.mpr none] at first
        cases first
      · rintro ⟨_, later⟩
        have some : storedRows marketId runs (index + 1 + 1) stored ≠ [] := by
          rw [Ne, storedRows_eq_nil_iff, not_not]
          simpa using later
        refine ⟨_, List.head?_eq_some_head some, ?_⟩
        obtain ⟨_, position, beyond, start, _⟩ := mem_storedRows (List.head_mem some)
        rw [start]
        exact Int.ne_of_lt (boundary_lt runs beyond)

/-- The gaps between the records of a market are the outages of its schedule. -/
theorem adjacentGaps_storedRows : adjacentGaps (storedRows marketId runs index stored) = outages stored := by
  induction stored generalizing index with
  | nil => rfl
  | cons kept stored ih =>
    cases kept with
    | true =>
      rw [storedRows, adjacentGaps_cons, ih, outages_true, runs.intervalBounds_eq]
      simp only [gap_after_iff]
    | false => rw [storedRows, outages_false, ih]

end Chain

section Markets

variable {histories : List MarketHistory} {history : MarketHistory} {row : IntervalRow}

theorem mem_storedRecords (member : row ∈ storedRecords histories) :
    ∃ history ∈ histories, row.marketId = history.marketId ∧ ∃ position,
      row.intervalStart = history.runs.boundary position ∧
        row.intervalEnd = history.runs.boundary (position + 1) := by
  obtain ⟨history, held, present⟩ := List.mem_flatMap.mp member
  obtain ⟨market, position, _, interval⟩ := mem_storedRows present
  exact ⟨history, held, market, position, interval⟩

private theorem onWholeSeconds_storedRecords : OnWholeSeconds (storedRecords histories) := by
  intro row member
  obtain ⟨history, _, _, position, start, stop⟩ := mem_storedRecords member
  rw [start, stop]
  exact ⟨history.runs.dvd_boundary position, history.runs.dvd_boundary (position + 1)⟩

private theorem pairwise_storedRows (marketId : ℕ) (runs : RealtimeRuns) (index : ℕ) (stored : List Bool) :
    (storedRows marketId runs index stored).Pairwise fun first second =>
      first.marketId = second.marketId ∧ first.intervalStart < second.intervalStart := by
  induction stored generalizing index with
  | nil => exact List.Pairwise.nil
  | cons kept stored ih =>
    cases kept with
    | true =>
      refine List.pairwise_cons.mpr ⟨fun row member => ?_, ih (index + 1)⟩
      obtain ⟨market, position, beyond, start, _⟩ := mem_storedRows member
      rw [runs.intervalBounds_eq, market, start]
      exact ⟨rfl, boundary_lt runs beyond⟩
    | false => exact ih (index + 1)

/-- The records are strictly in the order of the queries. -/
theorem pairwise_storedRecords
    (ordered : histories.Pairwise fun first second => first.marketId < second.marketId) :
    (storedRecords histories).Pairwise fun first second => first.marketId < second.marketId ∨
      first.marketId = second.marketId ∧ first.intervalStart < second.intervalStart := by
  refine List.pairwise_flatMap.mpr ⟨fun history _ => ?_, ordered.imp fun less row member other also => ?_⟩
  · exact (pairwise_storedRows _ _ _ _).imp .inr
  · rw [(mem_storedRows member).1, (mem_storedRows also).1]
    exact .inl less

private theorem sortedByMarket_storedRecords
    (ordered : histories.Pairwise fun first second => first.marketId < second.marketId) :
    SortedByMarket (storedRecords histories) :=
  (pairwise_storedRecords ordered).imp fun before => before.imp_right fun same => ⟨same.1, Int.le_of_lt same.2⟩

/-- The records of one market are those of its history. -/
theorem filter_storedRecords
    (distinct : histories.Pairwise fun first second => first.marketId ≠ second.marketId) (held : history ∈ histories) :
    (storedRecords histories).filter (fun row => row.marketId = history.marketId) = history.records := by
  induction histories with
  | nil => cases held
  | cons first histories ih =>
    obtain ⟨apart, others⟩ := List.pairwise_cons.mp distinct
    rw [storedRecords, List.flatMap_cons, List.filter_append]
    rcases List.mem_cons.mp held with rfl | later
    · have own : history.records.filter (fun row => row.marketId = history.marketId) = history.records :=
        List.filter_eq_self.mpr fun row member => decide_eq_true (mem_storedRows member).1
      have foreign : (histories.flatMap MarketHistory.records).filter
          (fun row => row.marketId = history.marketId) = [] := by
        rw [List.filter_eq_nil_iff]
        intro row member same
        obtain ⟨other, present, market, _⟩ := mem_storedRecords member
        exact apart other present ((of_decide_eq_true same).symm.trans market)
      rw [own, foreign, List.append_nil]
    · have foreign : first.records.filter (fun row => row.marketId = history.marketId) = [] := by
        rw [List.filter_eq_nil_iff]
        intro row member same
        exact apart history later ((mem_storedRows member).1.symm.trans (of_decide_eq_true same))
      rw [foreign, List.nil_append]
      exact ih others later

theorem marketGaps_storedRecords
    (distinct : histories.Pairwise fun first second => first.marketId ≠ second.marketId) (held : history ∈ histories) :
    marketGaps (storedRecords histories) history.marketId = outages history.stored := by
  rw [marketGaps, filter_storedRecords distinct held]
  exact adjacentGaps_storedRows

theorem mem_marketIds_iff
    (distinct : histories.Pairwise fun first second => first.marketId ≠ second.marketId) (held : history ∈ histories) :
    history.marketId ∈ (storedRecords histories).map IntervalRow.marketId ↔ true ∈ history.stored := by
  have records := filter_storedRecords distinct held
  constructor
  · intro member
    obtain ⟨row, present, same⟩ := List.mem_map.mp member
    have own : row ∈ history.records := by
      rw [← records]
      exact List.mem_filter.mpr ⟨present, decide_eq_true same⟩
    by_contra none
    rw [MarketHistory.records, storedRows_eq_nil_iff.mpr none] at own
    cases own
  · intro kept
    have some : history.records ≠ [] := by
      rw [MarketHistory.records, Ne, storedRows_eq_nil_iff, not_not]
      exact kept
    obtain ⟨row, rest, first⟩ := List.exists_cons_of_ne_nil some
    have present : row ∈ (storedRecords histories).filter (fun row => row.marketId = history.marketId) := by
      rw [records, first]
      exact List.mem_cons_self
    obtain ⟨inside, same⟩ := List.mem_filter.mp present
    exact List.mem_map.mpr ⟨row, inside, of_decide_eq_true same⟩

private theorem outages_of_none (none : true ∉ history.stored) : outages history.stored = 0 := by
  have gaps : adjacentGaps (storedRows history.marketId history.runs 0 history.stored) = _ := adjacentGaps_storedRows
  rw [← gaps, storedRows_eq_nil_iff.mpr none]
  rfl

private theorem exact_storedRecords
    (ordered : histories.Pairwise fun first second => first.marketId < second.marketId) {stepSize : ℕ}
    (positive : 1 ≤ stepSize) : (processDataInSteps (storedRecords histories) stepSize).Exact (storedRecords histories) := by
  rw [processDataInSteps_eq positive]
  exact countGaps_exact (sortedByMarket_storedRecords ordered) onWholeSeconds_storedRecords

/-- The sum of the markets that have records is the sum of all. -/
private theorem sum_marketGaps (distinct : histories.Pairwise fun first second => first.marketId ≠ second.marketId) :
    ∑ marketId ∈ ((storedRecords histories).map IntervalRow.marketId).toFinset,
      marketGaps (storedRecords histories) marketId = (histories.map fun history => outages history.stored).sum := by
  have ids : (histories.map MarketHistory.marketId).Nodup := List.pairwise_map.mpr distinct
  have gaps : (histories.map fun history => outages history.stored) =
      (histories.map MarketHistory.marketId).map (marketGaps (storedRecords histories)) := by
    rw [List.map_map]
    exact List.map_congr_left fun history held => (marketGaps_storedRecords distinct held).symm
  rw [gaps, ← List.sum_toFinset _ ids]
  apply Finset.sum_subset
  · intro marketId member
    rw [List.mem_toFinset] at member ⊢
    obtain ⟨row, present, same⟩ := List.mem_map.mp member
    obtain ⟨history, held, market, _⟩ := mem_storedRecords present
    exact List.mem_map.mpr ⟨history, held, market.symm.trans same⟩
  · intro marketId member missing
    rw [List.mem_toFinset] at member missing
    obtain ⟨history, held, rfl⟩ := List.mem_map.mp member
    rw [mem_marketIds_iff distinct held] at missing
    rw [marketGaps_storedRecords distinct held, outages_of_none missing]

/-- The report has the outages of each market with records, and their sum. -/
structure ReportsOutages (histories : List MarketHistory) (report : GapResults) : Prop where
  markets : ∀ history ∈ histories, report.markets.get? history.marketId =
    if true ∈ history.stored then some (outages history.stored) else none
  total : report.total = (histories.map fun history => outages history.stored).sum

theorem reportsOutages_storedRecords
    (ordered : histories.Pairwise fun first second => first.marketId < second.marketId) {stepSize : ℕ}
    (positive : 1 ≤ stepSize) : ReportsOutages histories (processDataInSteps (storedRecords histories) stepSize) := by
  have exactly := exact_storedRecords ordered positive
  have distinct : histories.Pairwise fun first second => first.marketId ≠ second.marketId :=
    ordered.imp fun less => less.ne
  refine ⟨fun history held => ?_, exactly.total.trans (sum_marketGaps distinct)⟩
  split
  next kept =>
    rw [exactly.counted _ ((mem_marketIds_iff distinct held).mpr kept), marketGaps_storedRecords distinct held]
  next none => exact exactly.absent _ fun member => none ((mem_marketIds_iff distinct held).mp member)

/-- However records of realtime schedules were lost, the use case reports for each market that
has records its outages, each once however long it was, for no other market anything, and
their sum over all markets. -/
theorem processDataInSteps_outages
    (ordered : histories.Pairwise fun first second => first.marketId < second.marketId) {stepSize : ℕ}
    (positive : 1 ≤ stepSize) :
    (∀ history ∈ histories, (processDataInSteps (storedRecords histories) stepSize).markets.get? history.marketId =
      if true ∈ history.stored then some (outages history.stored) else none) ∧
    (processDataInSteps (storedRecords histories) stepSize).total =
      (histories.map fun history => outages history.stored).sum :=
  have reports := reportsOutages_storedRecords ordered positive
  ⟨reports.markets, reports.total⟩

/-- One run a minute. -/
def everyMinute : RealtimeRuns where
  start := 0
  preciseNormalizedInterval := 60000
  count := 8
  lateness _ := 7
  positive := Nat.succ_pos _
  wholeStart := ⟨0, rfl⟩
  wholeInterval := ⟨60, rfl⟩
  prompt _ := ⟨by decide, by decide⟩

/-- Two outages in one market, the second one longer, and losses at the ends of another. -/
def twoMarkets : List MarketHistory :=
  [⟨1, everyMinute, [true, false, true, true, false, false, false, true]⟩, ⟨2, everyMinute, [false, true, true, false]⟩]

theorem processDataInSteps_outages_twoMarkets :
    (∀ history ∈ twoMarkets, (processDataInSteps (storedRecords twoMarkets) 3).markets.get? history.marketId =
      if true ∈ history.stored then some (outages history.stored) else none) ∧
    (processDataInSteps (storedRecords twoMarkets) 3).total =
      (twoMarkets.map fun history => outages history.stored).sum :=
  processDataInSteps_outages (by simp [twoMarkets]) (by decide)

end Markets

end PriceFeed.UseCases
