import PriceFeed.Infrastructure.LRURefinement
import PriceFeed.Library.Runs

/-! Calls of `RedisLRUCache` that overlap: each sends its commands one by one, and between
two of them any other client may send its own. -/

namespace PriceFeed.Infrastructure.RedisLRUCache

open PriceFeed.Library

/-- The next command of a call, with what the call has read. -/
inductive Progress (Key Value : Type*) where
  | adding (key : Key) (value : Value)
  | storing (key : Key) (value : Value)
  | measuring
  | choosing
  | evicting (oldestKey : Option Key)
  | reading (key : Key)
  | refreshing (key : Key) (value : Value)
  | prolonging (key : Key) (value : Value)
  | removing (key : Key)
  | deleting (key : Option Key)
  | completed (result : Option Value)
  deriving DecidableEq, Repr

variable {Key Value : Type*} [LinearOrder Key]

namespace Progress

def begin : CacheCall Key Value → Progress Key Value
  | .addToCache key value => .adding key value
  | .getFromCache key => .reading key
  | .removeFromCache key => .removing key

/-- One command. `timestamp` is what `Date.now()` gave the client, `now` the time of Redis. -/
def perform (options : CacheOptions) (now timestamp : ℤ) (redis : Redis Key Value) :
    Progress Key Value → Option (Redis Key Value × Progress Key Value)
  | .adding key value => some (redis.zadd key timestamp, .storing key value)
  | .storing key value => some (redis.setex now key options.lifetime value, .measuring)
  | .measuring =>
    some (redis, if options.maxCacheSize < redis.zcard then .choosing else .completed none)
  | .choosing => some (redis, .evicting redis.oldestKey)
  -- an empty set has no oldest key, and the commands without a key change nothing
  | .evicting oldestKey => some (oldestKey.elim redis redis.zrem, .deleting oldestKey)
  | .reading key =>
    match redis.get now key with
    | some value => some (redis, .refreshing key value)
    | none => some (redis, .completed none)
  | .refreshing key value => some (redis.zadd key timestamp, .prolonging key value)
  | .prolonging key value => some (redis.expire now key options.lifetime, .completed (some value))
  | .removing key => some (redis.zrem key, .deleting (some key))
  | .deleting key => some (key.elim redis redis.del, .completed none)
  | .completed _ => none

/-- A key has been added to the set and not yet been weighed against its size. -/
def evicts : Progress Key Value → Bool
  | .storing _ _ | .measuring | .choosing | .evicting _ => true
  | _ => false

def isCompleted : Progress Key Value → Bool
  | .completed _ => true
  | _ => false

end Progress

/-- Redis, its clock, and the calls of all clients. -/
structure Clients (Key Value : Type*) where
  redis : Redis Key Value
  now : ℤ
  calls : List (Progress Key Value)

inductive ClientEvent (Key Value : Type*) where
  | call (call : CacheCall Key Value)
  | command (call : ℕ) (elapsed : ℕ) (timestamp : ℤ)
  deriving DecidableEq, Repr

namespace Clients

variable (options : CacheOptions) (clients : Clients Key Value)

def initial (now : ℤ) : Clients Key Value := ⟨.empty, now, []⟩

def step (clients : Clients Key Value) : ClientEvent Key Value → Option (Clients Key Value)
  | .call call => some { clients with calls := clients.calls ++ [.begin call] }
  | .command call elapsed timestamp =>
    (clients.calls[call]?).bind fun progress =>
      (progress.perform options (clients.now + elapsed) timestamp clients.redis).map fun (redis, next) =>
        ⟨redis, clients.now + elapsed, clients.calls.set call next⟩

def allCompleted : Bool := clients.calls.all Progress.isCompleted

def isMember (key : Key) : Bool := (clients.redis.sortedSet.get? key).isSome

/-- Room for one more key, where each call that has added one may still evict one. -/
def HasRoom : Prop :=
  clients.redis.zcard < options.maxCacheSize + clients.calls.countP Progress.evicts

/-- A call that takes a key to be in the set finds it there, or makes up for it. -/
def Undisturbed (clients : Clients Key Value) : Progress Key Value → Prop
  | .storing key _ => clients.isMember key ∨ .deleting (some key) ∈ clients.calls
  | .evicting oldestKey => oldestKey.any clients.isMember ∨ clients.HasRoom options
  | .refreshing key _ => clients.isMember key ∨ clients.HasRoom options
  | _ => True

/-- No key leaves the set between two commands of a call that takes it to be there. -/
def Orderly (clients : Clients Key Value) : ClientEvent Key Value → Prop
  | .call _ => True
  | .command call _ _ => ∀ progress ∈ clients.calls[call]?, clients.Undisturbed options progress

/-- Every value that can be read can be evicted, or its `del` is on its way. -/
def Tracked (redis : Redis Key Value) (now : ℤ) (calls : List (Progress Key Value)) : Prop :=
  ∀ key, (redis.get now key).isSome →
    (redis.sortedSet.get? key).isSome ∨ .deleting (some key) ∈ calls

structure Accounted : Prop where
  bounded : clients.redis.zcard ≤ options.maxCacheSize + clients.calls.countP Progress.evicts
  tracked : Tracked clients.redis clients.now clients.calls

variable {options : CacheOptions} {clients next : Clients Key Value} {event : ClientEvent Key Value}
variable {last : Clients Key Value} {events : List (ClientEvent Key Value)}
variable {redis : Redis Key Value} {now : ℤ} {calls : List (Progress Key Value)}

instance : Decidable (clients.HasRoom options) :=
  inferInstanceAs (Decidable (_ < _))

instance decidableUndisturbed [DecidableEq Value] :
    ∀ progress, Decidable (clients.Undisturbed options progress)
  | .storing _ _ | .evicting _ | .refreshing _ _ => inferInstanceAs (Decidable (_ ∨ _))
  | .adding _ _ | .measuring | .choosing | .reading _ | .prolonging _ _ | .removing _ | .deleting _
  | .completed _ => isTrue trivial

instance decidableOrderly [DecidableEq Value] : ∀ event, Decidable (clients.Orderly options event)
  | .call _ => isTrue trivial
  | .command _ _ _ => inferInstanceAs (Decidable (∀ progress ∈ _, _))

private theorem step_cases (taken : clients.step options event = some next) :
    (∃ call, event = .call call ∧ next = { clients with calls := clients.calls ++ [.begin call] }) ∨
    ∃ call elapsed timestamp progress redis after, event = .command call elapsed timestamp ∧
      clients.calls[call]? = some progress ∧
      progress.perform options (clients.now + elapsed) timestamp clients.redis = some (redis, after) ∧
      next = ⟨redis, clients.now + elapsed, clients.calls.set call after⟩ := by
  cases event with
  | call call => exact .inl ⟨call, rfl, (Option.some.inj taken).symm⟩
  | command call elapsed timestamp =>
    obtain ⟨progress, found, taken⟩ := Option.bind_eq_some_iff.mp taken
    obtain ⟨⟨redis, after⟩, performed, rfl⟩ := Option.map_eq_some_iff.mp taken
    exact .inr ⟨call, elapsed, timestamp, progress, redis, after, rfl, found, performed, rfl⟩

omit [LinearOrder Key] in
private theorem evicts_begin (call : CacheCall Key Value) : (Progress.begin call).evicts = false := by
  cases call <;> rfl

omit [LinearOrder Key] in
private theorem countP_set_add {call : ℕ} {progress : Progress Key Value} (after : Progress Key Value)
    (found : calls[call]? = some progress) :
    (calls.set call after).countP Progress.evicts + progress.evicts.toNat =
      calls.countP Progress.evicts + after.evicts.toNat := by
  obtain ⟨inside, rfl⟩ := List.getElem?_eq_some_iff.mp found
  rw [List.countP_set inside]
  by_cases before : calls[call].evicts
  · have positive : 0 < calls.countP Progress.evicts :=
      List.countP_pos_iff.mpr ⟨_, List.getElem_mem inside, before⟩
    rw [before, if_pos rfl, Bool.toNat_true]
    cases after.evicts
    · exact Nat.sub_add_cancel positive
    · exact congrArg (· + 1) (Nat.sub_add_cancel positive)
  · cases after.evicts <;> simp [before]

omit [LinearOrder Key] in
theorem mem_set_of_ne {call : ℕ} {progress other after : Progress Key Value}
    (found : calls[call]? = some progress) (different : progress ≠ other) :
    other ∈ calls → other ∈ calls.set call after := by
  intro member
  obtain ⟨index, held⟩ := List.mem_iff_getElem?.mp member
  refine List.mem_iff_getElem?.mpr ⟨index, ?_⟩
  rw [List.getElem?_set_ne, held]
  rintro rfl
  exact different (Option.some.inj (found.symm.trans held))

namespace Tracked

/-- Fewer values, more members and more pending deletions keep the values tracked. -/
theorem mono (tracked : Tracked redis now calls) {changed : Redis Key Value} {time : ℤ}
    {others : List (Progress Key Value)}
    (read : ∀ key, (changed.get time key).isSome → (redis.get now key).isSome)
    (members : ∀ key, (redis.sortedSet.get? key).isSome →
      (changed.sortedSet.get? key).isSome ∨ .deleting (some key) ∈ others)
    (pending : ∀ key, .deleting (some key) ∈ calls → (changed.get time key).isSome →
      .deleting (some key) ∈ others) :
    Tracked changed time others := by
  intro key held
  rcases tracked key (read key held) with member | deleting
  · exact members key member
  · exact .inr (pending key deleting held)

theorem later {time : ℤ} (tracked : Tracked redis now calls) (passed : now ≤ time) :
    Tracked redis time calls := by
  refine tracked.mono (fun key read => ?_) (fun _ member => .inl member) fun _ pending _ => pending
  obtain ⟨value, read⟩ := Option.isSome_iff_exists.mp read
  obtain ⟨used, live, stored⟩ := (get_eq_some_iff 0).mp read
  exact Option.isSome_iff_exists.mpr ⟨value, (get_eq_some_iff 0).mpr ⟨used, passed.trans live, stored⟩⟩

theorem command {call : ℕ} {progress after : Progress Key Value} (tracked : Tracked redis now calls)
    (found : calls[call]? = some progress) (different : ∀ key, progress ≠ .deleting key) :
    Tracked redis now (calls.set call after) :=
  tracked.mono (fun _ read => read) (fun _ member => .inl member)
    fun _ pending _ => mem_set_of_ne found (different _) pending

theorem zadd (tracked : Tracked redis now calls) (key : Key) (score : ℤ) :
    Tracked (redis.zadd key score) now calls := by
  refine tracked.mono (fun _ read => read) (fun other member => .inl ?_) fun _ pending _ => pending
  by_cases own : key = other
  · simp [Redis.zadd, own]
  · simpa [Redis.zadd, OrderedMap.get?_set, own] using member

theorem expire (tracked : Tracked redis now calls) (key : Key) :
    Tracked (redis.expire now key options.lifetime) now calls := by
  refine tracked.mono (fun other read => ?_) (fun other member => .inl ?_) fun _ pending _ => pending
  · rwa [Redis.get_expire _ _ _ (lifetime_nonneg options)] at read
  · rwa [Redis.sortedSet_expire]

private theorem setex_iff (tracked : Tracked redis now calls) (key : Key) (value : Value) :
    Tracked (redis.setex now key options.lifetime value) now calls ↔
      (redis.sortedSet.get? key).isSome ∨ .deleting (some key) ∈ calls := by
  constructor
  · intro kept
    apply kept key
    rw [Redis.get_setex _ _ _ (lifetime_nonneg options), if_pos rfl]
    rfl
  · intro held other read
    by_cases own : key = other
    · exact own ▸ held
    · rw [Redis.get_setex _ _ _ (lifetime_nonneg options), if_neg own] at read
      exact tracked other read

theorem zrem (tracked : Tracked redis now calls) {key : Key} (pending : .deleting (some key) ∈ calls) :
    Tracked (redis.zrem key) now calls := by
  refine tracked.mono (fun _ read => read) (fun other member => ?_) fun _ pending _ => pending
  by_cases own : key = other
  · exact .inr (own ▸ pending)
  · simpa [Redis.zrem, OrderedMap.get?_delete, own] using .inl member

theorem del {call : ℕ} {after : Progress Key Value} (tracked : Tracked redis now calls)
    {key : Option Key} (found : calls[call]? = some (.deleting key)) :
    Tracked (key.elim redis redis.del) now (calls.set call after) := by
  cases key with
  | none =>
    refine tracked.mono (fun _ read => read) (fun _ member => .inl member) fun _ pending _ => ?_
    exact mem_set_of_ne found nofun pending
  | some key =>
    refine tracked.mono (fun other read => ?_) (fun _ member => .inl member) fun other pending read => ?_
    · rw [Option.elim_some, Redis.get_del] at read
      split at read
      · cases read
      · exact read
    · refine mem_set_of_ne found ?_ pending
      rintro ⟨rfl⟩
      rw [Option.elim_some, Redis.get_del, if_pos rfl] at read
      cases read

end Tracked

/-- The size that a command may leave depends on the evictions that it begins or ends. -/
private theorem accounted_command_iff {call : ℕ} {progress : Progress Key Value} (after : Progress Key Value)
    (found : clients.calls[call]? = some progress) :
    Accounted options ⟨redis, now, clients.calls.set call after⟩ ↔
      redis.zcard + progress.evicts.toNat ≤
        options.maxCacheSize + clients.calls.countP Progress.evicts + after.evicts.toNat ∧
      Tracked redis now (clients.calls.set call after) := by
  have balance := countP_set_add after found
  constructor
  · rintro ⟨bounded, tracked⟩
    exact ⟨by simp only at bounded; omega, tracked⟩
  · rintro ⟨bounded, tracked⟩
    exact ⟨by simp only; omega, tracked⟩

/-- Under the invariant, a step keeps it exactly when it is orderly. -/
theorem accounted_iff_orderly (accounted : Accounted options clients)
    (taken : clients.step options event = some next) :
    Accounted options next ↔ clients.Orderly options event := by
  rcases step_cases taken with ⟨call, rfl, rfl⟩ | ⟨call, elapsed, timestamp, progress, redis, after, rfl,
    found, performed, rfl⟩
  · refine iff_of_true ⟨?_, ?_⟩ trivial
    · simpa [List.countP_append, evicts_begin] using accounted.bounded
    · exact accounted.tracked.mono (fun _ read => read) (fun _ member => .inl member)
        fun _ pending _ => List.mem_append_left _ pending
  have bounded := accounted.bounded
  have tracked := accounted.tracked.later (Int.le_add_of_nonneg_right (Int.natCast_nonneg elapsed))
  rw [accounted_command_iff after found, Orderly, found]
  simp only [Option.mem_def, Option.some.injEq, forall_eq']
  cases progress with
  | adding key value =>
    cases performed
    have size := clients.redis.zcard_zadd key timestamp
    refine iff_of_true ⟨?_, (tracked.zadd key timestamp).command found (by simp)⟩ trivial
    simp only [Progress.evicts, Bool.toNat_true, Bool.toNat_false]
    omega
  | storing key value =>
    cases performed
    have pending : .deleting (some key) ∈ clients.calls.set call .measuring ↔
        .deleting (some key) ∈ clients.calls := by
      refine ⟨fun member => ?_, mem_set_of_ne found (by simp)⟩
      exact (List.mem_or_eq_of_mem_set member).resolve_right (by simp)
    rw [(tracked.command found (by simp)).setex_iff, pending]
    exact and_iff_right (Nat.add_le_add_right bounded 1)
  | measuring =>
    cases performed
    refine iff_of_true ⟨?_, tracked.command found (by simp)⟩ trivial
    split
    next => exact Nat.add_le_add_right bounded 1
    next small =>
      -- the set is no longer than it may be, whatever the other calls still evict
      have pending : 0 < clients.calls.countP Progress.evicts :=
        List.countP_pos_iff.mpr ⟨.measuring, List.mem_of_getElem? found, rfl⟩
      change clients.redis.zcard + 1 ≤ _
      omega
  | choosing =>
    cases performed
    exact iff_of_true ⟨Nat.add_le_add_right bounded 1, tracked.command found (by simp)⟩ trivial
  | evicting oldestKey =>
    cases performed
    have kept : Tracked clients.redis (clients.now + elapsed)
        (clients.calls.set call (.deleting oldestKey)) := tracked.command found (by simp)
    have pending : .deleting oldestKey ∈ clients.calls.set call (.deleting oldestKey) := by
      obtain ⟨inside, -⟩ := List.getElem?_eq_some_iff.mp found
      exact List.mem_set inside _
    cases oldestKey with
    | none =>
      rw [Undisturbed, HasRoom, Option.any_none, Option.elim_none, and_iff_left kept]
      simp only [Progress.evicts, Bool.toNat_true, Bool.toNat_false, Bool.false_eq_true, false_or]
      omega
    | some key =>
      rw [Undisturbed, HasRoom, Option.any_some, isMember, Option.elim_some, and_iff_left (kept.zrem pending)]
      have size := clients.redis.zcard_zrem key
      cases member : (clients.redis.sortedSet.get? key).isSome <;>
        simp [member, Progress.evicts] at size ⊢ <;> omega
  | reading key =>
    simp only [Progress.perform] at performed
    split at performed <;> cases performed <;>
      exact iff_of_true ⟨bounded, tracked.command found (by simp)⟩ trivial
  | refreshing key value =>
    cases performed
    rw [Undisturbed, HasRoom, isMember,
      and_iff_left ((tracked.zadd key timestamp).command found (by simp))]
    have size := clients.redis.zcard_zadd key timestamp
    cases member : (clients.redis.sortedSet.get? key).isSome <;>
      simp [member, Progress.evicts] at size ⊢ <;> omega
  | prolonging key value =>
    cases performed
    refine iff_of_true ⟨?_, (tracked.expire key).command found (by simp)⟩ trivial
    rw [Redis.zcard, Redis.sortedSet_expire]
    exact bounded
  | removing key =>
    cases performed
    have kept : Tracked clients.redis (clients.now + elapsed)
        (clients.calls.set call (.deleting (some key))) := tracked.command found (by simp)
    obtain ⟨inside, -⟩ := List.getElem?_eq_some_iff.mp found
    refine iff_of_true ⟨?_, kept.zrem (List.mem_set inside _)⟩ trivial
    have size := clients.redis.zcard_zrem key
    simp only [Progress.evicts, Bool.toNat_false]
    omega
  | deleting key =>
    cases performed
    refine iff_of_true ⟨?_, tracked.del found⟩ trivial
    cases key <;> exact bounded
  | completed result => cases performed

/-- A run is orderly exactly when the invariant holds in every state that it reaches. -/
theorem orderly_iff_accounted (accounted : Accounted options clients)
    (run : Run (step options) clients events last) :
    Throughout (step options) (Orderly options) clients events ↔
      Throughout (step options) (fun before event =>
        ∀ after ∈ step options before event, Accounted options after) clients events := by
  refine run.throughout_iff (fun sound taken => ?_) (fun sound orderly taken => ?_) accounted
  · rw [← accounted_iff_orderly sound taken, taken]
    simp
  · exact (accounted_iff_orderly sound taken).mpr orderly

private theorem accounted_initial (options : CacheOptions) (now : ℤ) :
    Accounted options (initial now : Clients Key Value) :=
  ⟨Nat.zero_le _, fun _ read => nomatch read⟩

theorem step_last {options : CacheOptions} {redis after : Redis Key Value} {now : ℤ}
    {calls : List (Progress Key Value)} {progress next : Progress Key Value}
    (performed : progress.perform options now now redis = some (after, next)) :
    step options ⟨redis, now, calls ++ [progress]⟩ (.command calls.length 0 now) =
      some ⟨after, now, calls ++ [next]⟩ := by
  simp [step, performed]

/-- The commands of a call that no other call interrupts do what the call is. -/
theorem run_alone (options : CacheOptions) (redis : Redis Key Value) (now : ℤ)
    (calls : List (Progress Key Value)) (call : CacheCall Key Value) :
    ∃ events, Run (step options) ⟨redis, now, calls ++ [.begin call]⟩ events
      ⟨(serve options redis now call).1, now, calls ++ [.completed (serve options redis now call).2]⟩ := by
  cases call with
  | addToCache key value =>
    rw [serve, addToCache]
    generalize written : (redis.zadd key now).setex now key options.lifetime value = cached
    have stored : (Progress.storing key value).perform options now now (redis.zadd key now) =
        some (cached, .measuring) := by
      rw [Progress.perform, written]
    by_cases overflow : options.maxCacheSize < cached.zcard
    · have measured : Progress.perform options now now cached .measuring =
          some (cached, .choosing) := by
        rw [Progress.perform, if_pos overflow]
      have chosen : Progress.perform options now now cached .choosing =
          some (cached, .evicting cached.oldestKey) := rfl
      rw [if_pos overflow]
      generalize cached.oldestKey = oldestKey at chosen ⊢
      cases oldestKey <;>
        exact ⟨_, .cons (step_last rfl) <| .cons (step_last stored) <| .cons (step_last measured) <|
          .cons (step_last chosen) <| .cons (step_last rfl) <| .cons (step_last rfl) <| .nil _⟩
    · have measured : Progress.perform options now now cached .measuring =
          some (cached, .completed none) := by
        rw [Progress.perform, if_neg overflow]
      rw [if_neg overflow]
      exact ⟨_, .cons (step_last rfl) <| .cons (step_last stored) <| .cons (step_last measured) <| .nil _⟩
  | getFromCache key =>
    rw [serve, getFromCache]
    cases read : redis.get now key with
    | none =>
      have missed : (Progress.reading key).perform options now now redis =
          some (redis, .completed none) := by
        simp only [Progress.perform, read]
      exact ⟨_, .cons (step_last missed) <| .nil _⟩
    | some value =>
      have hit : (Progress.reading key).perform options now now redis =
          some (redis, .refreshing key value) := by
        simp only [Progress.perform, read]
      exact ⟨_, .cons (step_last hit) <| .cons (step_last rfl) <| .cons (step_last rfl) <| .nil _⟩
  | removeFromCache key => exact ⟨_, .cons (step_last rfl) <| .cons (step_last rfl) <| .nil _⟩

/-- The calls of any number of clients, completed in any order in which no key that a call
takes to be in the set has left it, leave no more members than the cache may have, and no
value that cannot be evicted. -/
theorem bounded_and_tracked {options : CacheOptions} {now : ℤ} {events : List (ClientEvent Key Value)}
    {last : Clients Key Value} (run : Run (step options) (initial now) events last)
    (orderly : Throughout (step options) (Orderly options) (initial now) events)
    (completed : last.allCompleted) :
    last.redis.zcard ≤ options.maxCacheSize ∧
      ∀ time, last.now ≤ time → ∀ key, (last.redis.get time key).isSome →
        (last.redis.sortedSet.get? key).isSome := by
  have accounted : Accounted options last := by
    refine run.invariant_throughout (fun sound met taken => ?_) orderly (accounted_initial options now)
    exact (accounted_iff_orderly sound taken).mpr met
  rw [allCompleted, List.all_eq_true] at completed
  constructor
  · have settled : last.calls.countP Progress.evicts = 0 := by
      rw [List.countP_eq_zero]
      intro progress member
      have done := completed progress member
      cases progress <;> simp [Progress.isCompleted, Progress.evicts] at done ⊢
    simpa [settled] using accounted.bounded
  · intro time passed key read
    refine (accounted.tracked.later passed key read).resolve_right fun deleting => ?_
    cases completed _ deleting

/-- A hit, and an addition that evicts its key when it is over. -/
def hitDuringAddition : List (ClientEvent ℕ ℕ) :=
  [.call (.addToCache 1 10), .command 0 0 0, .command 0 0 0, .command 0 1 0,
    .call (.getFromCache 1), .call (.addToCache 2 20), .command 1 1 2, .command 2 0 2, .command 1 0 2,
    .command 2 1 3, .command 1 0 3, .command 2 0 3, .command 2 0 3, .command 2 0 3, .command 2 0 3]

theorem bounded_and_tracked_hitDuringAddition : ∃ last,
    Run (step { maxCacheSize := 1 }) (initial 0) hitDuringAddition last ∧ last.redis.zcard ≤ 1 ∧
      ∀ time, last.now ≤ time → ∀ key, (last.redis.get time key).isSome →
        (last.redis.sortedSet.get? key).isSome := by
  obtain ⟨last, run⟩ : ∃ last, Run (step { maxCacheSize := 1 }) (initial 0) hitDuringAddition last :=
    ⟨_, run_iff_execute.mpr rfl⟩
  have completed : last.allCompleted := by
    have executed := run_iff_execute.mp run
    cases executed
    rfl
  exact ⟨last, run, bounded_and_tracked run (by decide) completed⟩

/-- Two additions that choose the same oldest key leave the set longer than it may be, and a
value set after the removal of its key cannot be evicted. -/
theorem overlapping_calls_lose_track :
    (∃ last : Clients ℕ ℕ, Run (step { maxCacheSize := 1 }) (initial 0)
      [.call (.addToCache 1 10), .command 0 0 0, .command 0 0 0, .command 0 0 0,
        .call (.addToCache 2 20), .call (.addToCache 3 30), .command 1 1 1, .command 1 0 1,
        .command 2 1 2, .command 2 0 2, .command 1 0 2, .command 2 0 2, .command 1 0 2, .command 2 0 2,
        .command 1 0 2, .command 2 0 2, .command 1 0 2, .command 2 0 2] last ∧
      last.allCompleted ∧ ¬ last.redis.zcard ≤ 1) ∧
    ∃ last : Clients ℕ ℕ, Run (step { maxCacheSize := 1 }) (initial 0)
      [.call (.addToCache 1 10), .call (.removeFromCache 1), .command 0 0 0, .command 1 0 0,
        .command 1 0 0, .command 0 0 0, .command 0 0 0] last ∧
      last.allCompleted ∧ (last.redis.get last.now 1).isSome ∧ ¬ (last.redis.sortedSet.get? 1).isSome := by
  refine ⟨⟨_, run_iff_execute.mpr rfl, ?_⟩, ⟨_, run_iff_execute.mpr rfl, ?_⟩⟩ <;> decide

end Clients

end PriceFeed.Infrastructure.RedisLRUCache
