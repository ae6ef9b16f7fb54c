import PriceFeed.Library.Paging
import PriceFeed.MarketRecords.Aggregate
import PriceFeed.MarketRecords.BatchBoundaries

/-! Both aggregations page through the matching rows with an offset, and each of their
queries may find rows of one `intervalStart` in another order. -/

namespace PriceFeed.MarketRecords

open PriceFeed.Library SearchMarketRecordsScope

/-- The table of candle sticks. The primary key tells its rows apart. -/
structure CandleStickTable where
  rows : List CandleStickRow
  distinct : (rows.map CandleStickRow.id).Nodup

namespace CandleStickTable

variable (table : CandleStickTable) (params : SearchParams)

def matching : List CandleStickRow := table.rows.filter fun row => Matches params row

/-- Every ascending query of a loop finds an ordering of its own. -/
def Answers (orderings : ℕ → List CandleStickRow) : Prop :=
  ∀ query, Orders { params with orderBy := some .ASC } table.rows (orderings query)

/-- No page of this size ends between two matching rows with the same `intervalStart`. -/
def PagesKeepIntervals (step : ℕ) : Prop :=
  ∀ page, ¬ Cut (fun row => row.candleStick.intervalStart) (table.matching params) (page * step)

/-- Whatever orderings its queries find, the loop ends with every matching row folded once. -/
def FoldsOnce (folds : (ℕ → List CandleStickRow) → List CandleStickRow → Prop) : Prop :=
  ∀ orderings, table.Answers params orderings →
    ∃ folded, folds orderings folded ∧ folded.Perm (table.matching params)

variable {table params} {orderings : ℕ → List CandleStickRow}

private theorem matching_nodup : (table.matching params).Nodup :=
  (List.Nodup.of_map _ table.distinct).filter _

theorem answers_iff : table.Answers params orderings ↔ ∀ query,
    Arrangement (fun row => row.candleStick.intervalStart) (table.matching params) (orderings query) := by
  constructor
  · intro answers query
    exact ⟨(answers query).1, (answers query).2⟩
  · intro arranged query
    exact ⟨(arranged query).perm, (arranged query).sorted⟩

theorem Answers.length (answers : table.Answers params orderings) (query : ℕ) :
    (orderings query).length = (table.matching params).length := (answers query).1.length_eq

private theorem exists_answers (table : CandleStickTable) (params : SearchParams) :
    ∃ orderings, table.Answers params orderings := by
  obtain ⟨ordering, arranged⟩ := exists_arrangement
    (fun row : CandleStickRow => row.candleStick.intervalStart) (table.matching params)
  exact ⟨fun _ => ordering, answers_iff.mpr fun _ => arranged⟩

/-- A loop that takes page after page folds every row once for any orderings, exactly
when its pages keep the intervals together. -/
theorem foldsOnce_iff {step : ℕ} {folds : (ℕ → List CandleStickRow) → List CandleStickRow → Prop}
    (positive : 0 < step)
    (ends : ∀ orderings, table.Answers params orderings → ∃ folded, folds orderings folded)
    (paged : ∀ orderings folded, table.Answers params orderings → folds orderings folded →
      ∃ count, (table.matching params).length ≤ count * step ∧ folded = pages step orderings count) :
    table.FoldsOnce params folds ↔ table.PagesKeepIntervals params step := by
  constructor
  · intro once page cut
    obtain ⟨orderings, arranged, repeated⟩ := exists_repeat_of_cut matching_nodup positive cut
    have answers := answers_iff.mpr arranged
    obtain ⟨folded, run, permuted⟩ := once orderings answers
    obtain ⟨count, enough, rfl⟩ := paged orderings folded answers run
    exact repeated count enough permuted
  · intro kept orderings answers
    obtain ⟨folded, run⟩ := ends orderings answers
    obtain ⟨count, enough, rfl⟩ := paged orderings folded answers run
    exact ⟨_, run, pages_perm (answers_iff.mp answers) kept enough⟩

end CandleStickTable

namespace DiscreteAggregation

/-- What the loop carries, the number of its queries and the rows it has folded. -/
structure FoldState where
  aggregation : AggregationState
  queries : ℕ := 0
  folded : List CandleStickRow := []

section Loop

variable (stepSize : ℕ) (params : SearchParams) (timeframeDurationMs : ℤ)
  (orderings : ℕ → List CandleStickRow)

def batchParams (offset : ℕ) : SearchParams :=
  { params with limit := stepSize, offset := offset, orderBy := some .ASC }

/-- A round of the loop on the ordering that the database has for its query. -/
def foldBatch (state : FoldState) : FoldState :=
  let ordering := orderings state.queries
  { aggregation := fetchAndProcessBatch stepSize (ordering.map CandleStickRow.candleStick)
      timeframeDurationMs state.aggregation
    queries := state.queries + 1
    folded := state.folded ++ page (batchParams stepSize params state.aggregation.offset) ordering }

/-- The loop, cut off after a number of rounds. -/
def foldBatches : ℕ → FoldState → Option FoldState
  | 0, state => if state.aggregation.isLastBatch then some state else none
  | rounds + 1, state =>
    if state.aggregation.isLastBatch then some state
    else foldBatches rounds (foldBatch stepSize params timeframeDurationMs orderings state)

def initialFold : FoldState := { aggregation := { timeframeStart := params.rangeDateStart } }

/-- The loop ends, with these rows folded. -/
def Folds (folded : List CandleStickRow) : Prop :=
  ∃ rounds final, foldBatches stepSize params timeframeDurationMs orderings rounds
    (initialFold params) = some final ∧ final.folded = folded

end Loop

variable {params : SearchParams} {orderings : ℕ → List CandleStickRow} {state final : FoldState}
  {count rounds : ℕ}

/-- The rows a round folds are the candle sticks that the batch is made of. -/
theorem page_candleSticks (ordering : List CandleStickRow) (offset : ℕ) :
    (page (batchParams stepSize params offset) ordering).map CandleStickRow.candleStick =
      fetchCandleSticks stepSize (ordering.map CandleStickRow.candleStick) offset := by
  simp [page, batchParams, fetchCandleSticks, List.map_take, List.map_drop]

/-- With one ordering for all queries the loop is the one over its candle sticks. -/
theorem foldBatches_aggregation (ordering : List CandleStickRow) :
    (foldBatches stepSize params duration (fun _ => ordering) rounds state).map FoldState.aggregation =
      aggregateBatches stepSize (ordering.map CandleStickRow.candleStick) duration rounds
        state.aggregation := by
  induction rounds generalizing state with
  | zero =>
    simp only [foldBatches, aggregateBatches]
    split <;> rfl
  | succ rounds ih =>
    simp only [foldBatches, aggregateBatches]
    split
    · rfl
    · exact ih

/-- Where the loop stands in the pages. -/
structure Folding (stepSize count : ℕ) (orderings : ℕ → List CandleStickRow) (state : FoldState) :
    Prop where
  folded : state.folded = pages stepSize orderings state.queries
  running : state.aggregation.isLastBatch = false →
    state.aggregation.offset = state.queries * stepSize ∧ state.queries * stepSize ≤ count
  finished : state.aggregation.isLastBatch = true → count ≤ state.queries * stepSize

theorem Folding.initial : Folding stepSize count orderings (initialFold params) where
  folded := rfl
  running := fun _ => by simp [initialFold]
  finished := fun last => by cases last

theorem foldBatch_isLastBatch (length : (orderings state.queries).length = count) :
    (foldBatch stepSize params duration orderings state).aggregation.isLastBatch =
      decide (min stepSize (count - state.aggregation.offset) < stepSize) := by
  rw [foldBatch, fetchAndProcessBatch_isLastBatch, length_fetchCandleSticks, List.length_map, length]

theorem Folding.next (folding : Folding stepSize count orderings state)
    (length : (orderings state.queries).length = count)
    (more : state.aggregation.isLastBatch = false) :
    Folding stepSize count orderings (foldBatch stepSize params duration orderings state) := by
  obtain ⟨place, inside⟩ := folding.running more
  refine ⟨?_, ?_, ?_⟩
  · rw [foldBatch, pages_succ, folding.folded, place]
    rfl
  · rw [foldBatch_isLastBatch length]
    intro full
    have long := of_decide_eq_false full
    rw [foldBatch, fetchAndProcessBatch_offset, length_fetchCandleSticks, List.length_map, length, place,
      Nat.succ_mul]
    omega
  · rw [foldBatch_isLastBatch length]
    intro last
    have short := of_decide_eq_true last
    rw [foldBatch, Nat.succ_mul]
    omega

theorem Folding.ended (folding : Folding stepSize count orderings state)
    (length : ∀ query, (orderings query).length = count)
    (ended : foldBatches stepSize params duration orderings rounds state = some final) :
    Folding stepSize count orderings final ∧ final.aggregation.isLastBatch = true := by
  induction rounds generalizing state with
  | zero =>
    simp only [foldBatches] at ended
    split at ended
    · next last =>
      obtain rfl := Option.some.inj ended
      exact ⟨folding, last⟩
    · cases ended
  | succ rounds ih =>
    simp only [foldBatches] at ended
    split at ended
    · next last =>
      obtain rfl := Option.some.inj ended
      exact ⟨folding, last⟩
    · next more => exact ih (folding.next (length _) (by simpa using more)) ended

/-- A full page brings the loop nearer to the end of the rows. -/
theorem Folding.ends (folding : Folding stepSize count orderings state) (positive : 0 < stepSize)
    (length : ∀ query, (orderings query).length = count)
    (enough : state.aggregation.isLastBatch = false → count - state.queries * stepSize < rounds) :
    ∃ final, foldBatches stepSize params duration orderings rounds state = some final := by
  induction rounds generalizing state with
  | zero =>
    cases last : state.aggregation.isLastBatch with
    | false => exact absurd (enough last) (Nat.not_lt_zero _)
    | true => exact ⟨state, by simp [foldBatches, last]⟩
  | succ rounds ih =>
    cases last : state.aggregation.isLastBatch with
    | true => exact ⟨state, by simp [foldBatches, last]⟩
    | false =>
      simp only [foldBatches, last, Bool.false_eq_true, ↓reduceIte]
      have next : Folding stepSize count orderings
          (foldBatch stepSize params duration orderings state) := folding.next (length _) last
      refine ih next fun more => ?_
      have before := enough last
      have inside := (next.running more).2
      have queries : (foldBatch stepSize params duration orderings state).queries =
          state.queries + 1 := rfl
      rw [queries, Nat.succ_mul] at inside ⊢
      omega

/-- A page of no rows is never short. -/
private theorem foldBatches_zero (more : state.aggregation.isLastBatch = false) :
    foldBatches 0 params duration orderings rounds state = none := by
  induction rounds generalizing state with
  | zero => simp [foldBatches, more]
  | succ rounds ih =>
    simp only [foldBatches, more, Bool.false_eq_true, ↓reduceIte]
    apply ih
    rw [foldBatch_isLastBatch rfl]
    simp

theorem foldsOnce_iff {table : CandleStickTable} : table.FoldsOnce params (Folds stepSize params duration) ↔
    0 < stepSize ∧ table.PagesKeepIntervals params stepSize := by
  have paged : 0 < stepSize → (table.FoldsOnce params (Folds stepSize params duration) ↔
      table.PagesKeepIntervals params stepSize) := by
    intro positive
    apply CandleStickTable.foldsOnce_iff positive
    · intro orderings answers
      obtain ⟨final, ended⟩ := Folding.initial.ends positive answers.length
        fun _ => Nat.lt_succ_of_le (Nat.sub_le _ _)
      exact ⟨_, _, final, ended, rfl⟩
    · intro orderings folded answers run
      obtain ⟨rounds, final, ended, rfl⟩ := run
      obtain ⟨folding, last⟩ := Folding.initial.ended answers.length ended
      exact ⟨final.queries, folding.finished last, folding.folded⟩
  constructor
  · intro once
    have positive : 0 < stepSize := by
      by_contra zero
      obtain rfl := Nat.eq_zero_of_not_pos zero
      obtain ⟨orderings, answers⟩ := table.exists_answers params
      obtain ⟨_, ⟨rounds, final, ended, _⟩, _⟩ := once orderings answers
      rw [foldBatches_zero rfl] at ended
      cases ended
    exact ⟨positive, (paged positive).mp once⟩
  · intro condition
    exact (paged condition.1).mpr condition.2

end DiscreteAggregation

namespace AggregateCandleSticks

variable {queryParams : SearchParams} {orderings : ℕ → List CandleStickRow} {state : StepState}
  {count step remaining : ℕ}

private theorem fetchCandleSticks_eq (step : ℕ) {ordering : List CandleStickRow}
    (covered : ordering.length ≤ queryParams.limit) :
    fetchCandleSticks queryParams (getStepLimit step (stepCount queryParams.limit) queryParams.limit)
        (step * AGGREGATION_STEP_SIZE) ordering =
      (ordering.drop (step * AGGREGATION_STEP_SIZE)).take AGGREGATION_STEP_SIZE := by
  have bound := getStepLimit_le step (stepCount queryParams.limit) queryParams.limit
  rw [fetchCandleSticks, page]
  rcases getStepLimit_cases step queryParams.limit with full | ⟨_, rest⟩
  · rw [full]
  · have short : (ordering.drop (step * AGGREGATION_STEP_SIZE)).length ≤
        getStepLimit step (stepCount queryParams.limit) queryParams.limit := by
      rw [List.length_drop]
      omega
    rw [List.take_of_length_le short, List.take_of_length_le (short.trans bound)]

private theorem aggregateSteps_pages (length : ∀ query, (orderings query).length = count)
    (covered : count ≤ queryParams.limit) (within : remaining ≤ stepCount queryParams.limit)
    (folded : state.folded =
      pages AGGREGATION_STEP_SIZE orderings (stepCount queryParams.limit - remaining))
    (offset : 0 < remaining →
      state.offset = (stepCount queryParams.limit - remaining) * AGGREGATION_STEP_SIZE) :
    ∃ queries, count ≤ queries * AGGREGATION_STEP_SIZE ∧
      (aggregateSteps queryParams orderings remaining state).folded =
        pages AGGREGATION_STEP_SIZE orderings queries := by
  induction remaining generalizing state with
  | zero => exact ⟨_, covered.trans (limit_le_stepCount _), folded⟩
  | succ remaining ih =>
    obtain ⟨step, place⟩ : ∃ step, step = stepCount queryParams.limit - (remaining + 1) := ⟨_, rfl⟩
    rw [← place] at folded offset
    have start := offset (Nat.succ_pos _)
    have next : stepCount queryParams.limit - remaining = step + 1 := by omega
    have fetched := fetchCandleSticks_eq step (by rw [length step]; exact covered)
    have added : (aggregateStep queryParams orderings step state).1.folded =
        pages AGGREGATION_STEP_SIZE orderings (step + 1) := by
      rw [pages_succ, aggregateStep, start, fetched, folded]
    have size : (fetchCandleSticks queryParams
        (getStepLimit step (stepCount queryParams.limit) queryParams.limit) state.offset
        (orderings step)).length = min AGGREGATION_STEP_SIZE (count - step * AGGREGATION_STEP_SIZE) := by
      rw [start, fetched, List.length_take, List.length_drop, length]
    have bound := getStepLimit_le step (stepCount queryParams.limit) queryParams.limit
    simp only [aggregateSteps, ← place]
    split
    · next short =>
      rw [aggregateStep, decide_eq_true_iff, size] at short
      refine ⟨step + 1, ?_, added⟩
      rw [Nat.succ_mul]
      omega
    · next full =>
      rw [aggregateStep, decide_eq_true_iff, size] at full
      apply ih (by omega)
      · rw [next]
        exact added
      · intro more
        have moved : (aggregateStep queryParams orderings step state).1.offset = state.offset +
            min AGGREGATION_STEP_SIZE (count - step * AGGREGATION_STEP_SIZE) := by
          rw [← size]
          rfl
        rw [next, moved, start, Nat.succ_mul]
        rcases getStepLimit_cases step queryParams.limit with whole | ⟨last, _⟩
        · omega
        · omega

/-- The loop ends, with these rows folded. -/
def Folds (queryParams : SearchParams) (orderings : ℕ → List CandleStickRow)
    (folded : List CandleStickRow) : Prop :=
  (foldSymbol queryParams orderings).folded = folded

theorem foldsOnce_iff {table : CandleStickTable} {params : SearchParams}
    (covered : (table.matching params).length ≤ limit) :
    table.FoldsOnce params (Folds { params with limit := limit, offset := 0 }) ↔
      table.PagesKeepIntervals params AGGREGATION_STEP_SIZE := by
  apply CandleStickTable.foldsOnce_iff (Nat.succ_pos _)
  · exact fun orderings _ => ⟨_, rfl⟩
  · intro orderings folded answers run
    subst run
    apply aggregateSteps_pages answers.length covered le_rfl
    · simp [pages]
    · simp

end AggregateCandleSticks

/-- Both aggregations fold every matching row exactly once, whatever order their queries
find the rows of one `intervalStart` in, exactly when the step size is positive and no page
of theirs ends between two rows with the same `intervalStart`. -/
theorem rows_folded_once_iff (table : CandleStickTable) (params : SearchParams) (stepSize : ℕ)
    (timeframeDurationMs : ℤ) :
    (table.FoldsOnce params (DiscreteAggregation.Folds stepSize params timeframeDurationMs) ∧
      ∀ limit, (table.matching params).length ≤ limit → table.FoldsOnce params
        (AggregateCandleSticks.Folds { params with limit := limit, offset := 0 })) ↔
      0 < stepSize ∧ table.PagesKeepIntervals params stepSize ∧
        table.PagesKeepIntervals params AggregateCandleSticks.AGGREGATION_STEP_SIZE := by
  rw [DiscreteAggregation.foldsOnce_iff, and_assoc]
  apply and_congr_right
  intro positive
  apply and_congr_right
  intro kept
  constructor
  · intro once
    exact (AggregateCandleSticks.foldsOnce_iff le_rfl).mp (once _ le_rfl)
  · intro kept limit covered
    exact (AggregateCandleSticks.foldsOnce_iff covered).mpr kept

section TiedRows

/-- Rows of two markets with the same `intervalStart`, as the aligned ticks of their collectors store them. -/
def tiedRow (marketId : ℕ) : CandleStickRow where
  id := marketId
  symbol := "BTC/EUR"
  exchangeName := "kraken"
  candleStick := ⟨marketId, 0, [⟨0, 1, 2, 1, 2, 10⟩]⟩

def tiedTable : CandleStickTable := ⟨[tiedRow 1, tiedRow 2], by decide⟩

def tiedParams : SearchParams :=
  { symbol := "BTC/EUR", exchangeNames := ["kraken"], rangeDateStart := 0, rangeDateEnd := 60000 }

/-- The first query finds the first market first, the later ones find it last. -/
def tiedOrderings : ℕ → List CandleStickRow
  | 0 => [tiedRow 1, tiedRow 2]
  | _ + 1 => [tiedRow 2, tiedRow 1]

theorem tied_row_foldedTwice : tiedTable.Answers tiedParams tiedOrderings ∧
    DiscreteAggregation.Folds 1 tiedParams 60000 tiedOrderings [tiedRow 1, tiedRow 1] ∧
    ¬ tiedTable.FoldsOnce tiedParams (DiscreteAggregation.Folds 1 tiedParams 60000) := by
  refine ⟨?_, ?_, ?_⟩
  · intro query
    cases query with
    | zero => exact ⟨by decide, by decide⟩
    | succ =>
      have later : Orders { tiedParams with orderBy := some .ASC } tiedTable.rows
          [tiedRow 2, tiedRow 1] := ⟨by decide, by decide⟩
      exact later
  · exact ⟨3, _, rfl, rfl⟩
  · intro once
    exact (DiscreteAggregation.foldsOnce_iff.mp once).2 1 (by decide)

end TiedRows

end PriceFeed.MarketRecords
