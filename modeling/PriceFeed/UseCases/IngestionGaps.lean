import PriceFeed.UseCases.LostIntervals
import PriceFeed.Workers.RecordIngestion

/-! From the schedules of the collectors to the report on gaps: what the use case counts are
the stretches of intervals whose messages were not published, still wait or were discarded. -/

namespace PriceFeed.UseCases

open PriceFeed.Library PriceFeed.Collectors PriceFeed.Workers

/-- The realtime schedule of one market. -/
structure MarketSchedule where
  marketId : ℕ
  runs : RealtimeRuns

/-- What the record of a run is found by. -/
def MarketSchedule.key (schedule : MarketSchedule) (index : ℕ) : RecordKey :=
  ⟨(schedule.runs.intervalBounds index).intervalStart, (schedule.runs.intervalBounds index).intervalEnd,
    schedule.marketId⟩

def Scheduled (schedules : List MarketSchedule) (key : RecordKey) : Prop :=
  ∃ schedule ∈ schedules, ∃ index < schedule.runs.count, key = schedule.key index

def intervalRow (key : RecordKey) : IntervalRow := ⟨key.intervalStart, key.intervalEnd, key.marketId⟩

private theorem intervalRow_injective : Function.Injective intervalRow := by
  intro first second same
  obtain ⟨start, stop, market⟩ := IntervalRow.mk.inj same
  cases first
  cases second
  congr

section Query

variable (rangeDateStart rangeDateEnd : ℤ)

def InRange (key : RecordKey) : Prop :=
  rangeDateStart ≤ key.intervalStart ∧ key.intervalStart ≤ rangeDateEnd

instance : DecidablePred (InRange rangeDateStart rangeDateEnd) := fun _ => inferInstanceAs (Decidable (_ ∧ _))

/-- The rows that `loadNextBatch` pages through, in its order. -/
structure LoadsRows (records : List RecordKey) (rows : List IntervalRow) : Prop where
  perm : rows.Perm ((records.filter fun key => InRange rangeDateStart rangeDateEnd key).map intervalRow)
  sorted : SortedByMarket rows

def MarketSchedule.history (records : List RecordKey) (schedule : MarketSchedule) : MarketHistory where
  marketId := schedule.marketId
  runs := schedule.runs
  stored := (List.range schedule.runs.count).map fun index =>
    decide (schedule.key index ∈ records ∧ InRange rangeDateStart rangeDateEnd (schedule.key index))

end Query

variable {rangeDateStart rangeDateEnd : ℤ} {records : List RecordKey} {rows : List IntervalRow}
  {schedules : List MarketSchedule} {schedule : MarketSchedule} {stepSize : ℕ}

section Rows

theorem mem_storedRows_iff {marketId index : ℕ} {runs : RealtimeRuns} {stored : List Bool} {row : IntervalRow} :
    row ∈ storedRows marketId runs index stored ↔ ∃ position, stored[position]? = some true ∧
      row = intervalRow (MarketSchedule.key ⟨marketId, runs⟩ (index + position)) := by
  induction stored generalizing index with
  | nil => simp [storedRows]
  | cons kept stored ih =>
    have later : (∃ position, stored[position]? = some true ∧
        row = intervalRow (MarketSchedule.key ⟨marketId, runs⟩ (index + 1 + position))) ↔
        ∃ position, (kept :: stored)[position + 1]? = some true ∧
          row = intervalRow (MarketSchedule.key ⟨marketId, runs⟩ (index + (position + 1))) := by
      simp only [List.getElem?_cons_succ, Nat.add_assoc, Nat.add_comm 1]
    cases kept with
    | true =>
      rw [storedRows, List.mem_cons, ih, later]
      constructor
      · rintro (own | ⟨position, held, own⟩)
        · exact ⟨0, rfl, own⟩
        · exact ⟨position + 1, held, own⟩
      · rintro ⟨position, held, own⟩
        cases position with
        | zero => exact .inl own
        | succ position => exact .inr ⟨position, held, own⟩
    | false =>
      rw [storedRows, ih, later]
      constructor
      · rintro ⟨position, held, own⟩
        exact ⟨position + 1, held, own⟩
      · rintro ⟨position, held, own⟩
        cases position with
        | zero => cases held
        | succ position => exact ⟨position, held, own⟩

theorem stored_history_iff {index : ℕ} :
    (schedule.history rangeDateStart rangeDateEnd records).stored[index]? = some true ↔
      index < schedule.runs.count ∧ schedule.key index ∈ records ∧
        InRange rangeDateStart rangeDateEnd (schedule.key index) := by
  rw [MarketSchedule.history, List.getElem?_map]
  by_cases inside : index < schedule.runs.count
  · rw [List.getElem?_range inside, Option.map_some, Option.some_inj, decide_eq_true_eq]
    exact (and_iff_right inside).symm
  · rw [List.getElem?_eq_none (by rwa [List.length_range, ← Nat.not_lt])]
    exact ⟨nofun, fun held => absurd held.1 inside⟩

private theorem mem_storedRecords_iff {row : IntervalRow} :
    row ∈ storedRecords (schedules.map (MarketSchedule.history rangeDateStart rangeDateEnd records)) ↔
      ∃ schedule ∈ schedules, ∃ index < schedule.runs.count, schedule.key index ∈ records ∧
        InRange rangeDateStart rangeDateEnd (schedule.key index) ∧ row = intervalRow (schedule.key index) := by
  rw [storedRecords, List.mem_flatMap]
  constructor
  · rintro ⟨history, member, present⟩
    obtain ⟨schedule, held, rfl⟩ := List.mem_map.mp member
    obtain ⟨index, stored, own⟩ := mem_storedRows_iff.mp present
    rw [Nat.zero_add] at own
    obtain ⟨inside, kept, ranged⟩ := stored_history_iff.mp stored
    exact ⟨schedule, held, index, inside, kept, ranged, own⟩
  · rintro ⟨schedule, held, index, inside, kept, ranged, own⟩
    refine ⟨_, List.mem_map_of_mem held, mem_storedRows_iff.mpr ⟨index, ?_, ?_⟩⟩
    · exact stored_history_iff.mpr ⟨inside, kept, ranged⟩
    · rw [Nat.zero_add]
      exact own

/-- The records of scheduled intervals leave the queries no choice. -/
theorem rows_eq_storedRecords
    (ordered : schedules.Pairwise fun first second => first.marketId < second.marketId)
    (distinct : records.Nodup) (scheduled : ∀ key ∈ records, Scheduled schedules key)
    (loads : LoadsRows rangeDateStart rangeDateEnd records rows) :
    rows = storedRecords (schedules.map (MarketSchedule.history rangeDateStart rangeDateEnd records)) := by
  have strictly : (storedRecords (schedules.map (MarketSchedule.history rangeDateStart rangeDateEnd records))).Pairwise
      fun first second => first.marketId < second.marketId ∨
        first.marketId = second.marketId ∧ first.intervalStart < second.intervalStart :=
    pairwise_storedRecords (List.pairwise_map.mpr ordered)
  have apart := strictly.imp fun before => before.imp Nat.ne_of_lt fun same => Int.ne_of_lt same.2
  have nodup : (storedRecords
      (schedules.map (MarketSchedule.history rangeDateStart rangeDateEnd records))).Nodup := by
    refine apart.imp fun differ same => ?_
    rcases differ with market | start
    · exact market (congrArg IntervalRow.marketId same)
    · exact start (congrArg IntervalRow.intervalStart same)
  have members : ∀ row, row ∈ rows ↔ row ∈ storedRecords
      (schedules.map (MarketSchedule.history rangeDateStart rangeDateEnd records)) := by
    intro row
    rw [loads.perm.mem_iff, mem_storedRecords_iff, List.mem_map]
    constructor
    · rintro ⟨key, member, rfl⟩
      obtain ⟨kept, ranged⟩ := List.mem_filter.mp member
      obtain ⟨schedule, held, index, inside, rfl⟩ := scheduled key kept
      exact ⟨schedule, held, index, inside, kept, of_decide_eq_true ranged, rfl⟩
    · rintro ⟨schedule, held, index, inside, kept, ranged, rfl⟩
      exact ⟨schedule.key index, List.mem_filter.mpr ⟨kept, decide_eq_true ranged⟩, rfl⟩
  have perm : rows.Perm (storedRecords
      (schedules.map (MarketSchedule.history rangeDateStart rangeDateEnd records))) := by
    have single : rows.Nodup := loads.perm.nodup_iff.mpr ((distinct.filter _).map intervalRow_injective)
    exact (List.perm_ext_iff_of_nodup single nodup).mpr members
  apply List.Perm.eq_of_pairwise ?_ loads.sorted (strictly.imp fun before => ?_) perm
  · intro first second member also before after
    by_contra different
    have symmetric : Std.Symm fun first second : IntervalRow =>
        first.marketId ≠ second.marketId ∨ first.intervalStart ≠ second.intervalStart :=
      ⟨fun _ _ differ => differ.imp Ne.symm Ne.symm⟩
    rcases apart.forall ((members first).mp member) also different with market | start
    · omega
    · omega
  · exact before.imp_right fun same => ⟨same.1, Int.le_of_lt same.2⟩

private theorem outages_eq_zero {stored : List Bool} (together : ∀ first last : ℕ, stored[first]? = some true →
    stored[last]? = some true → ∀ middle, first < middle → middle < last → stored[middle]? = some true) :
    outages stored = 0 := by
  rw [outages, List.countP_eq_zero]
  intro tail member enclosed
  obtain ⟨earlier, rfl⟩ := (List.mem_tails _ _).mp member
  split at enclosed
  next later =>
    have inside : true ∈ later := by simpa using enclosed
    obtain ⟨position, held⟩ := List.mem_iff_getElem?.mp inside
    have start : (earlier ++ true :: false :: later)[earlier.length]? = some true := by
      rw [List.getElem?_append_right le_rfl, Nat.sub_self]
      rfl
    have stop : (earlier ++ true :: false :: later)[earlier.length + (position + 2)]? = some true := by
      rw [List.getElem?_append_right (Nat.le_add_right _ _), Nat.add_sub_cancel_left]
      exact held
    have lost : (earlier ++ true :: false :: later)[earlier.length + 1]? = some false := by
      rw [List.getElem?_append_right (Nat.le_add_right _ _), Nat.add_sub_cancel_left]
      rfl
    have kept := together _ _ start stop (earlier.length + 1) (by omega) (by omega)
    cases lost.symm.trans kept
  next => cases enclosed

private theorem inRange_between {first middle last : ℕ}
    (from_first : InRange rangeDateStart rangeDateEnd (schedule.key first))
    (to_last : InRange rangeDateStart rangeDateEnd (schedule.key last)) (after : first < middle)
    (before : middle < last) : InRange rangeDateStart rangeDateEnd (schedule.key middle) := by
  have start : ∀ index, (schedule.key index).intervalStart = schedule.runs.boundary index := by
    intro index
    rw [MarketSchedule.key, schedule.runs.intervalBounds_eq]
  rw [InRange, start] at from_first to_last ⊢
  exact ⟨Int.le_trans from_first.1 (Int.le_of_lt (boundary_lt schedule.runs after)),
    Int.le_trans (Int.le_of_lt (boundary_lt schedule.runs before)) to_last.2⟩

end Rows

section Ingestion

variable {Contents : Type*} {writer : MarketRecordWriter Contents} {events : List WriterEvent}
  {final : WriterState Contents}

/-- What the writers have stored is scheduled, as what the collectors have published is. -/
theorem records_scheduled (run : Run writer.step {} events final)
    (scheduled : ∀ id ∈ final.worker.record.accepted, Scheduled schedules (writer.record id).toRecordKey) :
    (final.records.map MarketRecord.toRecordKey).Nodup ∧
      ∀ key ∈ final.records.map MarketRecord.toRecordKey, Scheduled schedules key := by
  obtain ⟨history, consistent⟩ := MarketRecordWriter.run_linearized run
  rw [consistent.records]
  refine ⟨nodup_keys_firstOfKey _, fun key member => ?_⟩
  obtain ⟨record, present, rfl⟩ := List.mem_map.mp (mem_keys_firstOfKey.mp member)
  obtain ⟨id, offered, rfl⟩ := List.mem_map.mp present
  exact scheduled id (consistent.offered id offered)

/-- An interval without a record has its messages on their way, or discarded. -/
theorem unstored_waiting (run : Run writer.step {} events final)
    (orderly : Throughout writer.step writer.Orderly {} events) {id : ℕ}
    (accepted : id ∈ final.worker.record.accepted)
    (unstored : (writer.record id).toRecordKey ∉ final.records.map MarketRecord.toRecordKey) :
    final.worker.InPrimary id ∨ final.worker.InRetry id ∨ final.worker.Discarded writer.retryLimit id := by
  have sound : writer.QueuesSound final :=
    run.invariant_throughout MarketRecordWriter.QueuesSound.step orderly BaseAMQPWorker.State.sound_initial
  obtain ⟨history, consistent⟩ := MarketRecordWriter.run_linearized run
  rcases BaseAMQPWorker.State.Sound.noneLost sound id accepted with executed | elsewhere
  · refine absurd ?_ unstored
    rw [consistent.records, mem_keys_firstOfKey, List.map_map]
    exact List.mem_map_of_mem (consistent.executed id executed)
  · exact elsewhere

/-- There is one order of the rows that the writers have stored, the report on them has the
outages of each market, and each of their intervals was not published, or its messages still
wait or were discarded. -/
theorem report_ofIngestion (run : Run writer.step {} events final)
    (orderly : Throughout writer.step writer.Orderly {} events)
    (ordered : schedules.Pairwise fun first second => first.marketId < second.marketId)
    (scheduled : ∀ id ∈ final.worker.record.accepted, Scheduled schedules (writer.record id).toRecordKey)
    (loads : LoadsRows rangeDateStart rangeDateEnd (final.records.map MarketRecord.toRecordKey) rows)
    (positive : 1 ≤ stepSize) :
    (∀ others, LoadsRows rangeDateStart rangeDateEnd (final.records.map MarketRecord.toRecordKey) others →
      others = rows) ∧
    ReportsOutages
      (schedules.map (MarketSchedule.history rangeDateStart rangeDateEnd (final.records.map MarketRecord.toRecordKey)))
      (processDataInSteps rows stepSize) ∧
    ∀ schedule ∈ schedules, ∀ index < schedule.runs.count,
      schedule.key index ∉ final.records.map MarketRecord.toRecordKey →
        ∀ id ∈ final.worker.record.accepted, (writer.record id).toRecordKey = schedule.key index →
          final.worker.InPrimary id ∨ final.worker.InRetry id ∨ final.worker.Discarded writer.retryLimit id := by
  obtain ⟨distinct, stored⟩ := records_scheduled run scheduled
  have unique := rows_eq_storedRecords ordered distinct stored loads
  refine ⟨fun others loaded => ?_, ?_, fun schedule _ index _ missing id accepted own => ?_⟩
  · exact (rows_eq_storedRecords ordered distinct stored loaded).trans unique.symm
  · rw [unique]
    exact reportsOutages_storedRecords (List.pairwise_map.mpr ordered) positive
  · exact unstored_waiting run orderly accepted (own ▸ missing)

section MinuteByMinute

def minuteSchedule : MarketSchedule := ⟨7, everyMinute⟩

/-- The message of each run, known by the number of the run. -/
def minuteWriter : MarketRecordWriter ℕ where
  type := .TRADE
  retryLimit := 3
  markets := [7]
  messages index :=
    { exchange := "kraken", symbol := "BTC/EUR"
      payload := { minuteSchedule.key index with contents := index }, collectorTraceId := "" }

def written (id : ℕ) : List WriterEvent :=
  [.queue (.accepts id), .queue (.delivers id { id := id }), .finds id, .creates id, .announces id true,
    .queue (.ackArrives id)]

/-- The second run's message is not delivered while those around it are. -/
def oneWaiting : List WriterEvent := written 0 ++ [.queue (.accepts 1)] ++ written 2

theorem report_ofIngestion_oneWaiting : ∃ final, Run minuteWriter.step {} oneWaiting final ∧
    (processDataInSteps [⟨0, 60000, 7⟩, ⟨120000, 180000, 7⟩] 1).total = 1 ∧
    (final.worker.InPrimary 1 ∨ final.worker.InRetry 1 ∨ final.worker.Discarded 3 1) := by
  obtain ⟨final, run, accepted, records⟩ : ∃ final, Run minuteWriter.step {} oneWaiting final ∧
      final.worker.record.accepted = [2, 1, 0] ∧
      final.records.map MarketRecord.toRecordKey = [⟨0, 60000, 7⟩, ⟨120000, 180000, 7⟩] :=
    ⟨_, run_iff_execute.mpr rfl, rfl, rfl⟩
  have orderly : Throughout minuteWriter.step minuteWriter.Orderly {} oneWaiting := by decide
  have scheduled : ∀ id ∈ final.worker.record.accepted, Scheduled [minuteSchedule]
      (minuteWriter.record id).toRecordKey := by
    intro id member
    have inside : id < 8 := by
      rw [accepted] at member
      simp at member
      omega
    exact ⟨minuteSchedule, List.mem_singleton.mpr rfl, id, inside, rfl⟩
  have loads : LoadsRows 0 480000 (final.records.map MarketRecord.toRecordKey)
      [⟨0, 60000, 7⟩, ⟨120000, 180000, 7⟩] := by
    rw [records]
    exact ⟨List.Perm.refl _, by simp [SortedByMarket]⟩
  obtain ⟨-, reports, missing⟩ := report_ofIngestion run orderly (List.pairwise_singleton _ _) scheduled loads le_rfl
  refine ⟨final, run, ?_, missing minuteSchedule (List.mem_singleton.mpr rfl) 1 (by decide) ?_ 1 ?_ rfl⟩
  · rw [reports.total, records]
    rfl
  · rw [records]
    decide
  · rw [accepted]
    decide

end MinuteByMinute

/-- Once every message has been stored, there are no gaps in what the collectors publish
without interruption. -/
theorem no_gaps_ofIngestion (run : Run writer.step {} events final)
    (orderly : Throughout writer.step writer.Orderly {} events)
    (ordered : schedules.Pairwise fun first second => first.marketId < second.marketId)
    (scheduled : ∀ id ∈ final.worker.record.accepted, Scheduled schedules (writer.record id).toRecordKey)
    (published : ∀ schedule ∈ schedules, ∀ index < schedule.runs.count,
      InRange rangeDateStart rangeDateEnd (schedule.key index) →
        ∃ id ∈ final.worker.record.accepted, (writer.record id).toRecordKey = schedule.key index)
    (settled : ∀ id ∈ final.worker.record.accepted, ¬ final.worker.InPrimary id ∧ ¬ final.worker.InRetry id ∧
      ¬ final.worker.Discarded writer.retryLimit id)
    (loads : LoadsRows rangeDateStart rangeDateEnd (final.records.map MarketRecord.toRecordKey) rows)
    (positive : 1 ≤ stepSize) :
    (processDataInSteps rows stepSize).total = 0 ∧ ∀ schedule ∈ schedules,
      ∀ gaps ∈ (processDataInSteps rows stepSize).markets.get? schedule.marketId, gaps = 0 := by
  obtain ⟨distinct, stored⟩ := records_scheduled run scheduled
  have reports : ReportsOutages (schedules.map
      (MarketSchedule.history rangeDateStart rangeDateEnd (final.records.map MarketRecord.toRecordKey)))
      (processDataInSteps rows stepSize) := by
    rw [rows_eq_storedRecords ordered distinct stored loads]
    exact reportsOutages_storedRecords (List.pairwise_map.mpr ordered) positive
  have none : ∀ schedule ∈ schedules, outages (schedule.history rangeDateStart rangeDateEnd
      (final.records.map MarketRecord.toRecordKey)).stored = 0 := by
    intro schedule held
    apply outages_eq_zero
    intro first last start stop middle after before
    obtain ⟨-, -, from_first⟩ := stored_history_iff.mp start
    obtain ⟨inside, -, to_last⟩ := stored_history_iff.mp stop
    have ranged := inRange_between from_first to_last after before
    refine stored_history_iff.mpr ⟨before.trans inside, ?_, ranged⟩
    obtain ⟨id, accepted, own⟩ := published schedule held middle (before.trans inside) ranged
    by_contra missing
    obtain ⟨primary, retry, discarded⟩ := settled id accepted
    rcases unstored_waiting run orderly accepted (own ▸ missing) with waits | waits | lost
    · exact primary waits
    · exact retry waits
    · exact discarded lost
  constructor
  · rw [reports.total, List.map_map]
    apply List.sum_eq_zero
    intro gaps member
    obtain ⟨schedule, held, rfl⟩ := List.mem_map.mp member
    exact none schedule held
  · intro schedule held gaps member
    have counted := reports.markets _ (List.mem_map_of_mem held)
    change (processDataInSteps rows stepSize).markets.get? schedule.marketId = _ at counted
    rw [counted, none schedule held] at member
    split at member
    · exact (Option.some.inj member).symm
    · cases member

/-- Nothing waits, and every delivery is over. -/
theorem no_gaps_ofIngestion_settled : ∃ final, Run minuteWriter.step {} (written 0 ++ written 1) final ∧
    (processDataInSteps [⟨0, 60000, 7⟩, ⟨60000, 120000, 7⟩] 1).total = 0 := by
  obtain ⟨final, run, accepted, records, ready, retryQueue, discarded, deliveries⟩ : ∃ final,
      Run minuteWriter.step {} (written 0 ++ written 1) final ∧ final.worker.record.accepted = [1, 0] ∧
        final.records.map MarketRecord.toRecordKey = [⟨0, 60000, 7⟩, ⟨60000, 120000, 7⟩] ∧
        final.worker.ready = [] ∧ final.worker.retryQueue = [] ∧ final.worker.record.discarded = [] ∧
        ∀ tag, ∀ delivery ∈ final.worker.deliveries tag, delivery.attached = false := by
    refine ⟨_, run_iff_execute.mpr rfl, rfl, rfl, rfl, rfl, rfl, fun tag delivery found => ?_⟩
    by_cases second : tag = 1
    · subst second
      obtain rfl := Option.some.inj found
      rfl
    · by_cases first : tag = 0
      · subst first
        obtain rfl := Option.some.inj found
        rfl
      · simp [BaseAMQPWorker.State.acknowledge, first, second] at found
  have orderly : Throughout minuteWriter.step minuteWriter.Orderly {} (written 0 ++ written 1) := by decide
  have small : ∀ id ∈ final.worker.record.accepted, id < 2 := by
    intro id member
    rw [accepted] at member
    simp at member
    omega
  have scheduled : ∀ id ∈ final.worker.record.accepted, Scheduled [minuteSchedule]
      (minuteWriter.record id).toRecordKey := fun id member =>
    ⟨minuteSchedule, List.mem_singleton.mpr rfl, id, Nat.lt_of_lt_of_le (small id member) (by decide), rfl⟩
  have published : ∀ schedule ∈ [minuteSchedule], ∀ index < schedule.runs.count,
      InRange 0 60000 (schedule.key index) →
        ∃ id ∈ final.worker.record.accepted, (minuteWriter.record id).toRecordKey = schedule.key index := by
    intro schedule member index _ ranged
    obtain rfl := List.mem_singleton.mp member
    refine ⟨index, ?_, rfl⟩
    have before := ranged.2
    rw [MarketSchedule.key, minuteSchedule, everyMinute.intervalBounds_eq] at before
    have inside : index = 0 ∨ index = 1 := by
      simp [RealtimeRuns.boundary, everyMinute] at before
      omega
    rw [accepted]
    rcases inside with rfl | rfl
    · decide
    · decide
  have settled : ∀ id ∈ final.worker.record.accepted, ¬ final.worker.InPrimary id ∧
      ¬ final.worker.InRetry id ∧ ¬ final.worker.Discarded minuteWriter.retryLimit id := by
    intro id _
    refine ⟨?_, ?_, ?_⟩
    · rintro (⟨message, member, -⟩ | ⟨tag, delivery, found, attached, -⟩)
      · rw [ready] at member
        cases member
      · rw [deliveries tag delivery found] at attached
        cases attached
    · rintro ⟨message, member, -⟩
      rw [retryQueue] at member
      cases member
    · rintro ⟨member, -⟩
      rw [discarded] at member
      cases member
  have loads : LoadsRows 0 60000 (final.records.map MarketRecord.toRecordKey)
      [⟨0, 60000, 7⟩, ⟨60000, 120000, 7⟩] := by
    rw [records]
    exact ⟨List.Perm.refl _, by simp [SortedByMarket]⟩
  exact ⟨final, run, (no_gaps_ofIngestion run orderly (List.pairwise_singleton _ _) scheduled published settled
    loads le_rfl).1⟩

end Ingestion

end PriceFeed.UseCases
