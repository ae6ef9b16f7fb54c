import PriceFeed.UseCases.CachedRuns

/-! Transparency of the cache: which insertions of records leave every cached
response, and every one that is being put together, what an execution would give. -/

namespace PriceFeed.UseCases

open PriceFeed.Library PriceFeed.MarketRecords

variable {Params Record Loop Response : Type} {useCase : UseCase Params Record Loop Response}

private theorem getNamespacedKey_inj {first second : Params}
    (same : useCase.getNamespacedKey first = useCase.getNamespacedKey second) :
    useCase.hash first = useCase.hash second := by
  have lists := congrArg String.toList same
  simp only [UseCase.getNamespacedKey, String.toList_append] at lists
  exact String.toList_injective (List.append_cancel_left lists)

namespace CachedRuns

variable {process next : CachedRuns Params Record Loop Response}

variable (useCase) in
/-- A response to the call's parameters is in the cache, or about to be stored there. -/
def Kept (process : CachedRuns Params Record Loop Response) (call : Call Params Loop Response) : Prop :=
  process.cache.values (useCase.getNamespacedKey call.params) ≠ none ∨ call.phase.isStoring

instance (process : CachedRuns Params Record Loop Response) (call : Call Params Loop Response) :
    Decidable (process.Kept useCase call) :=
  have : Decidable (process.cache.values (useCase.getNamespacedKey call.params) ≠ none) :=
    decidable_of_iff _ Option.isSome_iff_ne_none
  inferInstanceAs (Decidable (_ ∨ _))

variable (useCase) in
/-- With its other queries on these records, a call comes to the answer of one that
makes all its queries on them. -/
def Consistent (records : List Record) (call : Call Params Loop Response) : Prop :=
  match call.phase with
  | .executing _ loops =>
    useCase.answer call.params records loops = useCase.runInTransaction call.params records
  | _ => True

instance [DecidableEq Response] (records : List Record) (call : Call Params Loop Response) :
    Decidable (Consistent useCase records call) := by
  unfold Consistent
  split <;> exact inferInstance

variable (useCase) in
/-- An inserted record changes no answer to a call whose response is kept, and none
that is read in part before it and in part after it. -/
def LeavesKept (process : CachedRuns Params Record Loop Response) : CacheEvent Params Record → Prop
  | .inserts record => ∀ call ∈ process.calls,
      (process.Kept useCase call → useCase.runInTransaction call.params (process.records ++ [record]) =
        useCase.runInTransaction call.params process.records) ∧
      Consistent useCase (process.records ++ [record]) call
  | _ => True

instance [DecidableEq Response] (process : CachedRuns Params Record Loop Response)
    (event : CacheEvent Params Record) : Decidable (process.LeavesKept useCase event) := by
  unfold LeavesKept
  split <;> exact inferInstance

variable (useCase) in
/-- The calls of a run ask for given parameters only. -/
def AsksFor (requests : Params → Prop) (_ : CachedRuns Params Record Loop Response) :
    CacheEvent Params Record → Prop
  | .runs params => requests params
  | _ => True

variable (useCase) in
/-- Every kept response is what an execution would give now, every execution is on its
way there, and every response served was that when it was served. -/
structure Fresh (requests : Params → Prop) (process : CachedRuns Params Record Loop Response) : Prop where
  requested : ∀ call ∈ process.calls, requests call.params
  cached : ∀ key response, process.cache.values key = some response →
    ∃ call ∈ process.calls, useCase.getNamespacedKey call.params = key ∧
      useCase.runInTransaction call.params process.records = some response
  consistent : ∀ call ∈ process.calls, Consistent useCase process.records call
  pending : ∀ call ∈ process.calls, ∀ response, call.phase = .storing response →
    useCase.runInTransaction call.params process.records = some response
  served : ∀ served ∈ process.served,
    served.response = useCase.runInTransaction served.params served.records

private theorem exists_call_setCall {index : ℕ} {params : Params} {before : CallPhase Loop Response}
    (after : CallPhase Loop Response) {call : Call Params Loop Response}
    (placed : process.calls[index]? = some ⟨params, before⟩) (present : call ∈ process.calls) :
    ∃ other ∈ (process.setCall index params after).calls, other.params = call.params := by
  obtain ⟨position, inside, rfl⟩ := List.getElem_of_mem present
  by_cases same : index = position
  · subst same
    rw [List.getElem?_eq_getElem inside, Option.some.injEq] at placed
    refine ⟨⟨params, after⟩, List.mem_set inside _, ?_⟩
    rw [placed]
  · refine ⟨process.calls[position], ?_, rfl⟩
    apply List.mem_of_getElem? (i := position)
    rw [setCall, List.getElem?_set_ne same, List.getElem?_eq_getElem inside]

variable {requests : Params → Prop}

namespace Fresh

/-- A call moves on to a phase in which it keeps nothing, or what an execution gives. -/
theorem setCall (fresh : process.Fresh useCase requests) {index : ℕ} {params : Params}
    {before after : CallPhase Loop Response} (placed : process.calls[index]? = some ⟨params, before⟩)
    (onward : Consistent useCase process.records ⟨params, after⟩)
    (result : ∀ response, after = .storing response →
      useCase.runInTransaction params process.records = some response) :
    (process.setCall index params after).Fresh useCase requests where
  requested call member := by
    rcases List.mem_or_eq_of_mem_set member with kept | rfl
    · exact fresh.requested call kept
    · exact fresh.requested ⟨params, before⟩ (List.mem_of_getElem? placed)
  cached key response held := by
    obtain ⟨call, present, same, answer⟩ := fresh.cached key response held
    obtain ⟨other, member, equal⟩ := exists_call_setCall after placed present
    exact ⟨other, member, by rw [equal, same], by rw [equal]; exact answer⟩
  consistent call member := by
    rcases List.mem_or_eq_of_mem_set member with kept | rfl
    · exact fresh.consistent call kept
    · exact onward
  pending call member response storing := by
    rcases List.mem_or_eq_of_mem_set member with kept | rfl
    · exact fresh.pending call kept response storing
    · exact result response storing
  served := fresh.served

theorem returned (fresh : process.Fresh useCase requests) {index : ℕ} {params : Params}
    {before : CallPhase Loop Response} (placed : process.calls[index]? = some ⟨params, before⟩) :
    (process.setCall index params .returned).Fresh useCase requests :=
  fresh.setCall placed trivial fun _ stores => by cases stores

theorem executing (fresh : process.Fresh useCase requests) {index : ℕ} {params : Params}
    {before : CallPhase Loop Response} (placed : process.calls[index]? = some ⟨params, before⟩)
    (cached : Bool) {loops : List Loop}
    (onward : useCase.answer params process.records loops = useCase.runInTransaction params process.records) :
    (process.setCall index params (.executing cached loops)).Fresh useCase requests :=
  fresh.setCall placed onward fun _ stores => by cases stores

theorem storing (fresh : process.Fresh useCase requests) {index : ℕ} {params : Params} {response : Response}
    {before : CallPhase Loop Response} (placed : process.calls[index]? = some ⟨params, before⟩)
    (right : useCase.runInTransaction params process.records = some response) :
    (process.setCall index params (.storing response)).Fresh useCase requests := by
  refine fresh.setCall placed ?_ ?_
  · exact trivial
  · intro stored stores
    cases stores
    exact right

theorem serve (fresh : process.Fresh useCase requests)
    (right : response = useCase.runInTransaction params process.records) :
    (process.serve params response).Fresh useCase requests where
  requested := fresh.requested
  cached := fresh.cached
  consistent := fresh.consistent
  pending := fresh.pending
  served served member := by
    rcases List.mem_append.mp member with earlier | last
    · exact fresh.served served earlier
    · rw [List.mem_singleton.mp last]
      exact right

/-- A cache that only holds what was held, or a pending response, is as fresh. -/
theorem withCache (fresh : process.Fresh useCase requests) {cache : RedisLRUCache Response}
    (held : ∀ key response, cache.values key = some response →
      process.cache.values key = some response ∨ ∃ call ∈ process.calls,
        useCase.getNamespacedKey call.params = key ∧ call.phase = .storing response) :
    Fresh useCase requests { process with cache := cache } where
  requested := fresh.requested
  cached key response found := by
    rcases held key response found with earlier | ⟨call, present, same, storing⟩
    · exact fresh.cached key response earlier
    · exact ⟨call, present, same, fresh.pending call present response storing⟩
  consistent := fresh.consistent
  pending := fresh.pending
  served := fresh.served

theorem insert {record : Record} (fresh : process.Fresh useCase requests)
    (leavesKept : process.LeavesKept useCase (.inserts record)) :
    Fresh useCase requests { process with records := process.records ++ [record] } where
  requested := fresh.requested
  cached key response held := by
    obtain ⟨call, present, same, answer⟩ := fresh.cached key response held
    have kept : process.Kept useCase call := .inl (by rw [same, held]; exact Option.some_ne_none _)
    exact ⟨call, present, same, ((leavesKept call present).1 kept).trans answer⟩
  consistent call present := (leavesKept call present).2
  pending call present response storing := by
    have kept : process.Kept useCase call := .inr (by rw [storing]; rfl)
    exact ((leavesKept call present).1 kept).trans (fresh.pending call present response storing)
  served := fresh.served

theorem call (fresh : process.Fresh useCase requests) {call : Call Params Loop Response}
    (asked : requests call.params) (begins : Consistent useCase process.records call)
    (idle : ∀ response, call.phase ≠ .storing response) :
    Fresh useCase requests { process with calls := process.calls ++ [call] } where
  requested other member := by
    rcases List.mem_append.mp member with earlier | last
    · exact fresh.requested other earlier
    · rw [List.mem_singleton.mp last]
      exact asked
  cached key response held := by
    obtain ⟨other, present, rest⟩ := fresh.cached key response held
    exact ⟨other, List.mem_append_left _ present, rest⟩
  consistent other member := by
    rcases List.mem_append.mp member with earlier | last
    · exact fresh.consistent other earlier
    · rw [List.mem_singleton.mp last]
      exact begins
  pending other member response storing := by
    rcases List.mem_append.mp member with earlier | last
    · exact fresh.pending other earlier response storing
    · rw [List.mem_singleton.mp last] at storing
      exact absurd storing (idle response)
  served := fresh.served

theorem step
    (distinct : ∀ first second, requests first → requests second →
      useCase.hash first = useCase.hash second → first = second)
    (fresh : process.Fresh useCase requests) {event : CacheEvent Params Record}
    (meets : process.LeavesKept useCase event ∧ process.AsksFor requests event)
    (taken : process.step useCase event = some next) : next.Fresh useCase requests := by
  cases event with
  | passes time =>
    obtain ⟨-, rfl⟩ := enabled taken
    exact ⟨fresh.requested, fresh.cached, fresh.consistent, fresh.pending, fresh.served⟩
  | inserts record =>
    cases taken
    exact fresh.insert meets.1
  | runs params =>
    cases taken
    by_cases caches : useCase.shouldCache process.now params
    · rw [if_pos caches]
      exact fresh.call meets.2 trivial fun _ storing => by cases storing
    · rw [if_neg caches]
      exact fresh.call meets.2 rfl fun _ storing => by cases storing
  | looksUp index =>
    simp only [CachedRuns.step] at taken
    split at taken
    · next params placed =>
      have used : Fresh useCase requests { process with cache :=
          (process.cache.getFromCache process.now (useCase.getNamespacedKey params)).1 } :=
        fresh.withCache fun key response held => .inl (by simpa using held)
      split at taken
      · next response found =>
        cases taken
        have hit : process.cache.values (useCase.getNamespacedKey params) = some response := by
          simpa using found
        obtain ⟨call, present, same, answer⟩ := fresh.cached _ response hit
        have asked := fresh.requested ⟨params, .lookingUp⟩ (List.mem_of_getElem? placed)
        obtain rfl := distinct _ _ (fresh.requested call present) asked (getNamespacedKey_inj same)
        exact (used.serve answer.symm).returned placed
      · cases taken
        exact used.executing placed true rfl
    · cases taken
  | fetches index place =>
    simp only [CachedRuns.step] at taken
    split at taken
    · next params cached loops placed =>
      obtain ⟨loop, found, fetched⟩ := Option.bind_eq_some_iff.mp taken
      obtain ⟨running, rfl⟩ := enabled fetched
      have consistent : useCase.answer params process.records loops = _ :=
        fresh.consistent _ (List.mem_of_getElem? placed)
      exact fresh.executing placed cached ((UseCase.answer_set found running).trans consistent)
    · cases taken
  | responds index =>
    simp only [CachedRuns.step] at taken
    split at taken
    · next params cached loops placed =>
      obtain ⟨ended, rfl⟩ := enabled taken
      have consistent : useCase.answer params process.records loops = _ :=
        fresh.consistent _ (List.mem_of_getElem? placed)
      have right := (UseCase.answer_ended ended).symm.trans consistent
      have served := fresh.serve right
      cases cached with
      | false => exact served.returned placed
      | true =>
        cases answered : useCase.respond params loops with
        | none =>
          rw [answered] at served
          exact served.returned placed
        | some response =>
          rw [answered] at served
          exact served.storing placed (right.symm.trans answered)
    · cases taken
  | stores index =>
    simp only [CachedRuns.step] at taken
    split at taken
    · next params response placed =>
      cases taken
      have stored : Fresh useCase requests { process with cache := (process.cache.addToCache
          useCase.maxCacheSize process.now (useCase.getNamespacedKey params) response) } := by
        apply fresh.withCache
        intro key value held
        rcases RedisLRUCache.values_addToCache held with ⟨rfl, rfl⟩ | earlier
        · exact .inr ⟨_, List.mem_of_getElem? placed, rfl, rfl⟩
        · exact .inl earlier
      exact stored.returned placed
    · cases taken
  | expires key =>
    cases taken
    exact fresh.withCache fun other response held => .inl (RedisLRUCache.values_del held)

end Fresh

private theorem fresh_initial (now : ℤ) (records : List Record) :
    (initial now records : CachedRuns Params Record Loop Response).Fresh useCase requests where
  requested call member := by cases member
  cached key response held := by cases held
  consistent call member := by cases member
  pending call member := by cases member
  served served member := by cases member

/-- Every response served in a run is what an execution gives on the records stored at
that moment, if no inserted record changes the answer to a call whose response is kept or
being read. -/
theorem cache_transparent {events : List (CacheEvent Params Record)} {now : ℤ} {records : List Record}
    (distinct : ∀ first second, .runs first ∈ events → .runs second ∈ events →
      useCase.hash first = useCase.hash second → first = second)
    (run : Run (step useCase) (initial now records) events last)
    (leavesKept : Throughout (step useCase) (LeavesKept useCase) (initial now records) events) :
    ∀ served ∈ last.served,
      served.response = useCase.runInTransaction served.params served.records := by
  have asks : Throughout (step useCase) (AsksFor fun params => .runs params ∈ events)
      (initial now records) events := by
    apply throughout_of_forall
    intro state event member
    cases event with
    | runs params => exact member
    | _ => trivial
  have preserved : ∀ {state event next}, Fresh useCase (fun params => .runs params ∈ events) state →
      (LeavesKept useCase state event ∧ AsksFor (fun params => .runs params ∈ events) state event) →
      step useCase state event = some next → Fresh useCase (fun params => .runs params ∈ events) next :=
    fun fresh meets taken => fresh.step distinct meets taken
  exact (run.invariant_throughout preserved (leavesKept.and asks) (fresh_initial now records)).served

/-- A record that changes the answer of a cached response makes the next such call wrong. -/
theorem stale_response_served {record : Record} {params : Params} {response : Response}
    (held : process.cache.values (useCase.getNamespacedKey params) = some response)
    (past : useCase.shouldCache process.now params)
    (changes : useCase.runInTransaction params (process.records ++ [record]) ≠ some response) :
    ∃ last, Run (step useCase) process
        [.inserts record, .runs params, .looksUp process.calls.length] last ∧
      ∃ served ∈ last.served,
        served.response ≠ useCase.runInTransaction served.params served.records := by
  let inserted : CachedRuns Params Record Loop Response :=
    { process with records := process.records ++ [record] }
  let asked : CachedRuns Params Record Loop Response :=
    { inserted with calls := process.calls ++ [⟨params, .lookingUp⟩] }
  have runs : inserted.step useCase (.runs params) = some asked := by
    simp only [step, inserted, past, ↓reduceIte, asked]
  obtain ⟨last, hit, served⟩ : ∃ last, asked.step useCase (.looksUp process.calls.length) = some last ∧
      last.served = process.served ++ [⟨params, process.records ++ [record], some response⟩] := by
    have found : asked.cache.getFromCache asked.now (useCase.getNamespacedKey params) =
        (process.cache.zadd process.now (useCase.getNamespacedKey params), some response) := by
      simp [RedisLRUCache.getFromCache, held, asked, inserted]
    have placed : asked.calls[process.calls.length]? = some ⟨params, .lookingUp⟩ := by
      simp [asked]
    simp only [step, placed, found]
    exact ⟨_, rfl, rfl⟩
  refine ⟨last, .cons rfl (.cons runs (.cons hit (.nil last))),
    ⟨params, process.records ++ [record], some response⟩, ?_, changes.symm⟩
  rw [served]
  exact List.mem_append_right _ (List.mem_singleton_self _)

section Reading

variable {index : ℕ} {params : Params} {cached : Bool}

variable (useCase) in
private theorem run_fetches (inside : index < process.calls.length) (rounds : ℕ) {loops : List Loop} {place : ℕ}
    {loop : Loop} (found : loops[place]? = some loop) : ∃ events, Run (step useCase)
      (process.setCall index params (.executing cached loops)) events
      (process.setCall index params (.executing cached (loops.set place
        (runLoop (useCase.ended params) (useCase.fetch params process.records) rounds loop)))) := by
  induction rounds generalizing loops loop with
  | zero =>
    obtain ⟨bound, rfl⟩ := List.getElem?_eq_some_iff.mp found
    rw [runLoop, List.set_getElem_self]
    exact ⟨[], .nil _⟩
  | succ rounds ih =>
    cases running : useCase.ended params loop with
    | true =>
      obtain ⟨bound, rfl⟩ := List.getElem?_eq_some_iff.mp found
      rw [runLoop_ended running, List.set_getElem_self]
      exact ⟨[], .nil _⟩
    | false =>
      have bound := (List.getElem?_eq_some_iff.mp found).1
      have next : (loops.set place (useCase.fetch params process.records loop))[place]? =
          some (useCase.fetch params process.records loop) := List.getElem?_set_self bound
      obtain ⟨events, rest⟩ := ih next
      have fetched : (process.setCall index params (.executing cached loops)).step useCase
          (.fetches index place) = some (process.setCall index params (.executing cached
            (loops.set place (useCase.fetch params process.records loop)))) := by
        have placed : (process.setCall index params (.executing cached loops)).calls[index]? =
            some ⟨params, .executing cached loops⟩ := List.getElem?_set_self inside
        simp only [step, placed, found, Option.bind_some, running, ↓reduceIte]
        rw [setCall, setCall, List.set_set]
        rfl
      rw [runLoop_running running]
      rw [List.set_set] at rest
      exact ⟨_, .cons fetched rest⟩

variable (useCase process params cached) in
private theorem run_finish (inside : index < process.calls.length) (done left : List Loop) :
    ∃ events, Run (step useCase) (process.setCall index params (.executing cached (done ++ left))) events
      (process.setCall index params (.executing cached
        (done ++ left.map (useCase.finish params process.records)))) := by
  induction left generalizing done with
  | nil => exact ⟨[], .nil _⟩
  | cons loop left ih =>
    have found : (done ++ loop :: left)[done.length]? = some loop := by simp
    obtain ⟨queries, fetched⟩ := run_fetches useCase inside
      (useCase.rounds params process.records) found
    rw [List.set_append_right _ _ le_rfl, Nat.sub_self, List.set_cons_zero] at fetched
    obtain ⟨others, rest⟩ := ih (done ++ [useCase.finish params process.records loop])
    rw [List.append_assoc, List.append_assoc] at rest
    exact ⟨queries ++ others, run_append_iff.mpr ⟨_, fetched, rest⟩⟩

/-- A record that comes between two queries whose answers do not go together makes the
call that asks them wrong. -/
theorem torn_response_served {record : Record} {loops : List Loop}
    (placed : process.calls[index]? = some ⟨params, .executing cached loops⟩)
    (torn : ¬ Consistent useCase (process.records ++ [record]) ⟨params, .executing cached loops⟩) :
    ∃ events last, Run (step useCase) process (.inserts record :: events) last ∧
      ∃ served ∈ last.served,
        served.response ≠ useCase.runInTransaction served.params served.records := by
  obtain ⟨inside, own⟩ := List.getElem?_eq_some_iff.mp placed
  let inserted : CachedRuns Params Record Loop Response :=
    { process with records := process.records ++ [record] }
  have same : inserted.setCall index params (.executing cached loops) = inserted := by
    rw [setCall, ← own, List.set_getElem_self]
  obtain ⟨queries, fetched⟩ := run_finish useCase inserted params cached inside [] loops
  rw [List.nil_append, List.nil_append, same] at fetched
  let finished := loops.map (useCase.finish params (process.records ++ [record]))
  have ended : ∀ loop ∈ finished, useCase.ended params loop := by
    intro loop member
    obtain ⟨before, -, rfl⟩ := List.mem_map.mp member
    exact useCase.ends params _ before
  obtain ⟨last, responds, served⟩ : ∃ last, (inserted.setCall index params (.executing cached finished)).step
      useCase (.responds index) = some last ∧ last.served = process.served ++
        [⟨params, process.records ++ [record], useCase.respond params finished⟩] := by
    have position : (inserted.setCall index params (.executing cached finished)).calls[index]? =
        some ⟨params, .executing cached finished⟩ := List.getElem?_set_self inside
    simp only [step, position, if_pos ended]
    exact ⟨_, rfl, rfl⟩
  refine ⟨queries ++ [.responds index], last, .cons rfl (run_append_iff.mpr ⟨_, fetched, .cons responds (.nil last)⟩),
    ⟨params, process.records ++ [record], useCase.respond params finished⟩, ?_, torn⟩
  rw [served]
  exact List.mem_append_right _ (List.mem_singleton_self _)

end Reading

/-- The candle sticks of `BTC/USD` on one exchange from 12:00 to 12:10. -/
def pastRange : SearchParams :=
  { symbol := "BTC/USD"
    exchangeNames := ["kraken"]
    rangeDateStart := 43200000
    rangeDateEnd := 43800000 }

def rowAt (id : ℕ) (symbol : String) (intervalStart : ℤ) : CandleStickRow :=
  ⟨id, symbol, "kraken", ⟨1, intervalStart, [⟨intervalStart, 1, 1, 1, 1, 1⟩]⟩⟩

/-- The list of the range is served and cached, a record is inserted, and the list is asked for again. -/
def insertedBetween (row : CandleStickRow) : List (CacheEvent SearchParams CandleStickRow) :=
  [.runs pastRange, .looksUp 0, .fetches 0 0, .responds 0, .stores 0, .inserts row, .runs pastRange,
    .looksUp 1]

/-- The hash of the only parameters asked for. -/
def hashOf (_ : Params) : String := "f4f3ccb1b8a9d1f45cb8b5c4a9c5c6e2c7d3f0a1"

/-- A record written after its range has been asked for is missing from the second response. -/
theorem lateRecord_missing : ¬ ∀ (hash : SearchParams → String)
    (events : List (CacheEvent SearchParams CandleStickRow)) (now : ℤ) (records : List CandleStickRow) last,
    (∀ first second, .runs first ∈ events → .runs second ∈ events → hash first = hash second →
      first = second) →
    Run (step (candleSticksList hash)) (initial now records) events last →
    ∀ served ∈ last.served,
      served.response = (candleSticksList hash).runInTransaction served.params served.records := by
  intro transparent
  let first := rowAt 1 "BTC/USD" 43200000
  let late := rowAt 2 "BTC/USD" 43500000
  have executed : (execute (step (candleSticksList hashOf)) (initial 43860000 [first])
      (insertedBetween late)).map CachedRuns.served = some [⟨pastRange, [first], some ⟨[first], 1⟩⟩,
        ⟨pastRange, [first, late], some ⟨[first], 1⟩⟩] := by decide +kernel
  obtain ⟨last, reached, served⟩ := Option.map_eq_some_iff.mp executed
  have stale := transparent hashOf (insertedBetween late) 43860000 [first] last
    (by simp [insertedBetween, late]) (run_iff_execute.mpr reached)
    ⟨pastRange, [first, late], some ⟨[first], 1⟩⟩ (by simp [served])
  revert stale
  decide +kernel

def pastAggregation : DiscreteAggregationParams :=
  { symbols := ["BTC/USD"]
    exchangeNames := ["kraken"]
    rangeDateStart := 43200000
    rangeDateEnd := 43800000 }

/-- A record of another symbol comes between two batches, and the response is asked for again. -/
def insertedWhileReading : List (CacheEvent DiscreteAggregationParams CandleStickRow) :=
  [.runs pastAggregation, .looksUp 0, .fetches 0 0, .inserts (rowAt 2 "ETH/USD" 43500000), .fetches 0 0,
    .responds 0, .stores 0, .runs pastAggregation, .looksUp 1]

theorem cache_transparent_otherSymbol : ∃ last, Run (step (discreteAggregation hashOf 1))
      (initial 43860000 [rowAt 1 "BTC/USD" 43200000]) insertedWhileReading last ∧
    last.served.length = 2 ∧ ∀ served ∈ last.served, served.response =
      (discreteAggregation hashOf 1).runInTransaction served.params served.records := by
  have executed : (execute (step (discreteAggregation hashOf 1)) (initial 43860000 [rowAt 1 "BTC/USD" 43200000])
      insertedWhileReading).map (fun last => last.served.length) = some 2 := by decide +kernel
  obtain ⟨last, reached, served⟩ := Option.map_eq_some_iff.mp executed
  have run := run_iff_execute.mpr reached
  exact ⟨last, run, served, cache_transparent (by simp [insertedWhileReading]) run (by decide +kernel)⟩

end CachedRuns

end PriceFeed.UseCases
