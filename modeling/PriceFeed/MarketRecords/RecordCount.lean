import PriceFeed.MarketRecords.Pagination

/-! The count of records that `AggregateCandleSticks` reports beside its aggregate. -/

namespace PriceFeed.MarketRecords.AggregateCandleSticks

open PriceFeed.Library SearchMarketRecordsScope

variable {queryParams : SearchParams} {orderings : ℕ → List CandleStickRow} {state : StepState}

private theorem aggregateStep_offset (step : ℕ) :
    (aggregateStep queryParams orderings step state).1.offset + state.folded.length =
      state.offset + (aggregateStep queryParams orderings step state).1.folded.length := by
  simp only [aggregateStep, List.length_append]
  omega

private theorem aggregateSteps_offset (remaining : ℕ) :
    (aggregateSteps queryParams orderings remaining state).offset + state.folded.length =
      state.offset + (aggregateSteps queryParams orderings remaining state).folded.length := by
  induction remaining generalizing state with
  | zero => rfl
  | succ remaining ih =>
    obtain ⟨step, place⟩ : ∃ step, step = stepCount queryParams.limit - (remaining + 1) := ⟨_, rfl⟩
    have moved : (aggregateStep queryParams orderings step state).1.offset + state.folded.length =
        state.offset + (aggregateStep queryParams orderings step state).1.folded.length :=
      aggregateStep_offset step
    simp only [aggregateSteps, ← place]
    split
    · exact moved
    · have later := @ih (aggregateStep queryParams orderings step state).1
      omega

/-- The offset that the loop ends with, which is also what it reports. -/
private theorem aggregatedRecords_eq (queryParams : SearchParams) (orderings : ℕ → List CandleStickRow) :
    (aggregateDataForSymbol queryParams orderings).aggregatedRecords =
      queryParams.offset + (foldSymbol queryParams orderings).folded.length := by
  let start : StepState := { offset := queryParams.offset }
  have moved : (foldSymbol queryParams orderings).offset + start.folded.length =
      start.offset + (foldSymbol queryParams orderings).folded.length := aggregateSteps_offset _
  exact moved

variable {count : ℕ}

theorem length_fetchCandleSticks (length : ∀ query, (orderings query).length = count) (step stepLimit : ℕ) :
    (fetchCandleSticks queryParams stepLimit state.offset (orderings step)).length =
      min stepLimit (count - state.offset) := by
  rw [fetchCandleSticks, page, List.length_take, List.length_drop, length]

/-- What the steps before have folded, and where the next one begins if there is one. -/
structure CountsTo (queryParams : SearchParams) (count steps : ℕ) (state : StepState) : Prop where
  folded : state.folded.length =
    min (min queryParams.limit (steps * AGGREGATION_STEP_SIZE)) (count - queryParams.offset)
  offset : steps < stepCount queryParams.limit →
    state.offset = queryParams.offset + steps * AGGREGATION_STEP_SIZE

theorem CountsTo.initial : CountsTo queryParams count 0 { offset := queryParams.offset } where
  folded := by simp
  offset _ := by simp

theorem CountsTo.folded_next {step : ℕ} (counts : CountsTo queryParams count step state)
    (length : ∀ query, (orderings query).length = count) (running : step < stepCount queryParams.limit) :
    (aggregateStep queryParams orderings step state).1.folded.length =
      min (min queryParams.limit ((step + 1) * AGGREGATION_STEP_SIZE)) (count - queryParams.offset) := by
  have folded := counts.folded
  have start := counts.offset running
  have reach := add_getStepLimit running
  rw [min_eq_right (mul_le_limit running)] at folded
  simp only [aggregateStep, List.length_append]
  rw [length_fetchCandleSticks length, ← reach]
  omega

theorem CountsTo.next {step : ℕ} (counts : CountsTo queryParams count step state)
    (length : ∀ query, (orderings query).length = count) (running : step < stepCount queryParams.limit)
    (full : (aggregateStep queryParams orderings step state).2 = false) :
    CountsTo queryParams count (step + 1) (aggregateStep queryParams orderings step state).1 where
  folded := counts.folded_next length running
  offset beyond := by
    rw [aggregateStep, decide_eq_false_iff_not, length_fetchCandleSticks length] at full
    have start := counts.offset running
    have moved : (aggregateStep queryParams orderings step state).1.offset = state.offset +
        min (getStepLimit step (stepCount queryParams.limit) queryParams.limit) (count - state.offset) := by
      rw [← length_fetchCandleSticks length]
      rfl
    rw [moved, start, Nat.succ_mul]
    rcases getStepLimit_cases step queryParams.limit with whole | ⟨last, -⟩
    · omega
    · omega

theorem CountsTo.short {step : ℕ} (counts : CountsTo queryParams count step state)
    (length : ∀ query, (orderings query).length = count) (running : step < stepCount queryParams.limit)
    (short : (aggregateStep queryParams orderings step state).2 = true) :
    (aggregateStep queryParams orderings step state).1.folded.length =
      min queryParams.limit (count - queryParams.offset) := by
  rw [aggregateStep, decide_eq_true_iff, length_fetchCandleSticks length] at short
  have start := counts.offset running
  have reach := add_getStepLimit running
  rw [counts.folded_next length running]
  omega

theorem CountsTo.finish {remaining : ℕ} (within : remaining ≤ stepCount queryParams.limit)
    (counts : CountsTo queryParams count (stepCount queryParams.limit - remaining) state)
    (length : ∀ query, (orderings query).length = count) :
    (aggregateSteps queryParams orderings remaining state).folded.length =
      min queryParams.limit (count - queryParams.offset) := by
  induction remaining generalizing state with
  | zero =>
    have covered := limit_le_stepCount queryParams.limit
    have folded := counts.folded
    rwa [Nat.sub_zero, min_eq_left covered] at folded
  | succ remaining ih =>
    obtain ⟨step, place⟩ : ∃ step, step = stepCount queryParams.limit - (remaining + 1) := ⟨_, rfl⟩
    have running : step < stepCount queryParams.limit := by omega
    have next : stepCount queryParams.limit - remaining = step + 1 := by omega
    simp only [aggregateSteps, ← place] at counts ⊢
    split
    · next short => exact counts.short length running short
    · next full =>
      apply ih (by omega)
      rw [next]
      exact counts.next length running (by simpa using full)

private theorem length_foldSymbol (length : ∀ query, (orderings query).length = count) :
    (foldSymbol queryParams orderings).folded.length = min queryParams.limit (count - queryParams.offset) := by
  apply CountsTo.finish le_rfl ?_ length
  rw [Nat.sub_self]
  exact .initial

/-- The reported count is that of the folded rows, which are at most the limit and what the
offset leaves of the matching rows. -/
structure CountsFolded (matching : ℕ) (queryParams : SearchParams) (orderings : ℕ → List CandleStickRow) :
    Prop where
  folded : (aggregateDataForSymbol queryParams orderings).aggregatedRecords =
    (foldSymbol queryParams orderings).folded.length
  formula : ((aggregateDataForSymbol queryParams orderings).aggregatedRecords : ℤ) =
    max 0 (min (queryParams.limit : ℤ) (matching - queryParams.offset))

/-- The loop counts from the offset on, so the count is right for the offset zero only. -/
theorem aggregatedRecords_countsFolded_iff {table : CandleStickTable} (queryParams : SearchParams)
    (answers : table.Answers queryParams orderings) :
    CountsFolded (table.matching queryParams).length queryParams orderings ↔ queryParams.offset = 0 := by
  have reported := aggregatedRecords_eq queryParams orderings
  have folded : (foldSymbol queryParams orderings).folded.length =
      min queryParams.limit ((table.matching queryParams).length - queryParams.offset) :=
    length_foldSymbol answers.length
  constructor
  · intro counts
    have same := counts.folded
    omega
  · intro first
    constructor
    · omega
    · omega

section SecondRow

/-- The second of the matching rows, and those after it. -/
def fromSecond : SearchParams := { tiedParams with limit := 5, offset := 1 }

theorem answers_fromSecond : tiedTable.Answers fromSecond fun _ => [tiedRow 1, tiedRow 2] := by
  have orders : Orders { fromSecond with orderBy := some .ASC } tiedTable.rows [tiedRow 1, tiedRow 2] :=
    ⟨by decide, by decide⟩
  exact fun _ => orders

/-- One row is folded and two are reported. -/
theorem aggregatedRecords_fromSecond :
    1 ≤ fromSecond.limit ∧ (tiedTable.Answers fromSecond fun _ => [tiedRow 1, tiedRow 2]) ∧
      ¬ CountsFolded (tiedTable.matching fromSecond).length fromSecond fun _ => [tiedRow 1, tiedRow 2] := by
  refine ⟨by decide, answers_fromSecond, fun counts => ?_⟩
  have folded := counts.folded
  revert folded
  decide +kernel

theorem aggregatedRecords_countsFolded_iff_fromSecond :
    (CountsFolded (tiedTable.matching fromSecond).length fromSecond fun _ => [tiedRow 1, tiedRow 2]) ↔
      fromSecond.offset = 0 :=
  aggregatedRecords_countsFolded_iff fromSecond answers_fromSecond

end SecondRow

end PriceFeed.MarketRecords.AggregateCandleSticks
