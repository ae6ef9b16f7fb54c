import PriceFeed.Infrastructure.RedisLRUCache

/-! Calls of `RedisLRUCache` that do not overlap, against the reference cache: a value that
has expired leaves its key in the sorted set, below the keys of all others. -/

namespace PriceFeed.Infrastructure

open PriceFeed.Library

variable {Key Value : Type*} [LinearOrder Key]

inductive CacheCall (Key Value : Type*) where
  | addToCache (key : Key) (value : Value)
  | getFromCache (key : Key)
  | removeFromCache (key : Key)
  deriving DecidableEq, Repr

namespace RedisLRUCache

variable (options : CacheOptions)

def serve (redis : Redis Key Value) (now : ℤ) : CacheCall Key Value → Redis Key Value × Option Value
  | .addToCache key value => (addToCache options now key redis value, none)
  | .getFromCache key => getFromCache options now key redis
  | .removeFromCache key => (removeFromCache key redis, none)

/-- What the calls return, each at its time, and what they leave. -/
def serveAll (redis : Redis Key Value) : List (ℤ × CacheCall Key Value) → Redis Key Value × List (Option Value)
  | [] => (redis, [])
  | (now, call) :: later =>
    let (served, result) := serve options redis now call
    let (final, results) := serveAll served later
    (final, result :: results)

/-- The same calls of the reference cache. -/
def answer (cache : LRUCache Key Value) (now : ℤ) : CacheCall Key Value → LRUCache Key Value × Option Value
  | .addToCache key value => (cache.add options.lifetime options.maxCacheSize now key value, none)
  | .getFromCache key => cache.use options.lifetime now key
  | .removeFromCache key => (cache.remove key, none)

def answerAll (cache : LRUCache Key Value) :
    List (ℤ × CacheCall Key Value) → LRUCache Key Value × List (Option Value)
  | [] => (cache, [])
  | (now, call) :: later =>
    let (answered, result) := answer options cache now call
    let (final, results) := answerAll answered later
    (final, result :: results)

end RedisLRUCache

/-- The sorted set has the time of the last use of every value, expired or not, and the
unexpired ones are those of the cache. -/
structure Tracks (lifetime now : ℤ) (redis : Redis Key Value) (cache : LRUCache Key Value) : Prop where
  inStep : ∀ key, redis.sortedSet.get? key =
    (redis.strings.get? key).map fun entry => entry.2 - lifetime
  same : ∀ key value used, now ≤ used + lifetime →
    (redis.strings.get? key = some (value, used + lifetime) ↔ cache.get? key = some (value, used))

variable {lifetime now : ℤ} {redis : Redis Key Value} {cache : LRUCache Key Value}

/-- A value is read as long as its last use is not longer ago than its lifetime. -/
theorem get_eq_some_iff (lifetime : ℤ) {key : Key} {value : Value} : redis.get now key = some value ↔
    ∃ used, now ≤ used + lifetime ∧ redis.strings.get? key = some (value, used + lifetime) := by
  rw [Redis.get]
  cases stored : redis.strings.get? key with
  | none => simp
  | some entry =>
    obtain ⟨held, deadline⟩ := entry
    simp only [Option.some.injEq, Prod.mk.injEq]
    constructor
    · intro read
      split at read
      next live => exact ⟨deadline - lifetime, by omega, Option.some.inj read, by omega⟩
      next => cases read
    · rintro ⟨used, live, rfl, rfl⟩
      exact if_pos live

namespace Tracks

theorem later {time : ℤ} (tracks : Tracks lifetime now redis cache) (passed : now ≤ time) :
    Tracks lifetime time redis cache where
  inStep := tracks.inStep
  same key value used live := tracks.same key value used (passed.trans live)

theorem unexpired (tracks : Tracks lifetime now redis cache) :
    Tracks lifetime now redis (cache.unexpired lifetime now) where
  inStep := tracks.inStep
  same key value used live := by
    rw [tracks.same key value used live, LRUCache.get?_unexpired_iff, and_iff_left live]

/-- What is read from Redis is what the cache holds. -/
private theorem get_eq (tracks : Tracks lifetime now redis cache) (key : Key) :
    redis.get now key = ((cache.unexpired lifetime now).get? key).map Prod.fst := by
  ext value
  rw [get_eq_some_iff lifetime]
  constructor
  · rintro ⟨used, live, stored⟩
    have held := (tracks.same key value used live).mp stored
    rw [LRUCache.get?_unexpired_iff.mpr ⟨held, live⟩]
    rfl
  · intro held
    obtain ⟨⟨_, used⟩, found, rfl⟩ := Option.map_eq_some_iff.mp held
    obtain ⟨present, live⟩ := LRUCache.get?_unexpired_iff.mp found
    exact ⟨used, live, (tracks.same key _ used live).mpr present⟩

/-- A value that is set and its last use stay in step. -/
theorem touch (tracks : Tracks lifetime now redis cache) (key : Key) (value : Value) :
    Tracks lifetime now ((redis.zadd key now).setex now key lifetime value)
      (OrderedMap.set cache key (value, now)) where
  inStep other := by
    simp only [Redis.setex, Redis.zadd, OrderedMap.get?_set]
    split
    · simp
    · exact tracks.inStep other
  same other found used live := by
    simp only [Redis.setex, Redis.zadd, OrderedMap.get?_set]
    split
    · simp
    · exact tracks.same other found used live

theorem forget (tracks : Tracks lifetime now redis cache) (key : Key) :
    Tracks lifetime now ((redis.zrem key).del key) (OrderedMap.delete cache key) where
  inStep other := by
    simp only [Redis.del, Redis.zrem, OrderedMap.get?_delete]
    split
    · rfl
    · exact tracks.inStep other
  same other found used live := by
    simp only [Redis.del, Redis.zrem, OrderedMap.get?_delete]
    split
    · simp
    · exact tracks.same other found used live

theorem score_eq (tracks : Tracks lifetime now redis cache) {key : Key} {value : Value} {used : ℤ}
    (live : now ≤ used + lifetime) (held : cache.get? key = some (value, used)) :
    redis.sortedSet.get? key = some used := by
  rw [tracks.inStep, (tracks.same key value used live).mpr held]
  simp

private theorem exists_of_score (tracks : Tracks lifetime now redis cache) {key : Key} {score : ℤ}
    (member : redis.sortedSet.get? key = some score) (live : now ≤ score + lifetime) :
    ∃ value, cache.get? key = some (value, score) := by
  rw [tracks.inStep] at member
  obtain ⟨⟨value, deadline⟩, stored, rfl⟩ := Option.map_eq_some_iff.mp member
  refine ⟨value, (tracks.same key value _ live).mp ?_⟩
  rw [stored, sub_add_cancel]

/-- A value that has expired can be dropped. -/
private theorem forget_expired (tracks : Tracks lifetime now redis cache) {key : Key} {score : ℤ}
    (member : redis.sortedSet.get? key = some score) (expired : score + lifetime < now) :
    Tracks lifetime now ((redis.zrem key).del key) cache where
  inStep := (tracks.forget key).inStep
  same other value used live := by
    by_cases own : key = other
    · subst own
      have dropped : ((redis.zrem key).del key).strings.get? key = none := by
        simp [Redis.del, Redis.zrem, OrderedMap.get?_delete]
      rw [dropped]
      refine iff_of_false (by simp) fun held => ?_
      obtain rfl := Option.some.inj (member.symm.trans (tracks.score_eq live held))
      omega
    · rw [← tracks.same other value used live]
      simp [Redis.del, Redis.zrem, OrderedMap.get?_delete, own]

/-- The unexpired values are no more than the members of the set. -/
theorem length_le (tracks : Tracks lifetime now redis cache)
    (unexpired : ∀ key value used, cache.get? key = some (value, used) → now ≤ used + lifetime) :
    cache.entries.length ≤ redis.zcard := by
  refine OrderedMap.length_le_of_isSome fun key held => ?_
  obtain ⟨⟨value, used⟩, held⟩ := Option.isSome_iff_exists.mp held
  exact Option.isSome_iff_exists.mpr ⟨used, tracks.score_eq (unexpired key value used held) held⟩

private theorem length_unexpired_le (tracks : Tracks lifetime now redis cache) :
    (cache.unexpired lifetime now).entries.length ≤ redis.zcard :=
  tracks.unexpired.length_le fun _ _ _ held => (LRUCache.get?_unexpired_iff.mp held).2

end Tracks

/-- The first member of the sorted set, if there is any. -/
private theorem oldestKey_spec (occupied : 0 < redis.zcard) : ∃ key score, redis.oldestKey = some key ∧
    redis.sortedSet.get? key = some score ∧ ∀ other otherScore,
      redis.sortedSet.get? other = some otherScore → score ≤ otherScore := by
  rw [Redis.oldestKey, head?_insertionSort]
  cases oldest : least? (redis.sortedSet.entries.map fun entry => toLex (entry.2, entry.1)) with
  | none =>
    rw [least?_eq_none, List.map_eq_nil_iff] at oldest
    simp [Redis.zcard, oldest] at occupied
  | some member =>
    obtain ⟨present, least⟩ := least?_eq_some_iff.mp oldest
    obtain ⟨⟨key, score⟩, held, rfl⟩ := List.mem_map.mp present
    refine ⟨key, score, rfl, (OrderedMap.mem_entries_iff _ _ _).mp held, fun other otherScore found => ?_⟩
    have below := least (toLex (otherScore, other))
      (List.mem_map.mpr ⟨(other, otherScore), (OrderedMap.mem_entries_iff _ _ _).mpr found, rfl⟩)
    rcases Prod.Lex.toLex_le_toLex.mp below with less | ⟨same, -⟩
    · exact less.le
    · exact same.le

/-- Where the set and the cache hold the same uses, the same key is the least recent. -/
private theorem oldestKey_eq_leastRecent (same : ∀ key used, redis.sortedSet.get? key = some used ↔
    ∃ value, cache.get? key = some (value, used)) : redis.oldestKey = LRUCache.leastRecent cache := by
  rw [Redis.oldestKey, head?_insertionSort, LRUCache.leastRecent]
  congr 1
  refine least?_eq_of_mem_iff fun item => ?_
  constructor
  · intro member
    obtain ⟨⟨key, used⟩, present, rfl⟩ := List.mem_map.mp member
    obtain ⟨value, held⟩ := (same key used).mp ((OrderedMap.mem_entries_iff _ _ _).mp present)
    exact List.mem_map.mpr ⟨(key, value, used), (OrderedMap.mem_entries_iff _ _ _).mpr held, rfl⟩
  · intro member
    obtain ⟨⟨key, value, used⟩, present, rfl⟩ := List.mem_map.mp member
    have held := (same key used).mpr ⟨value, (OrderedMap.mem_entries_iff _ _ _).mp present⟩
    exact List.mem_map.mpr ⟨(key, used), (OrderedMap.mem_entries_iff _ _ _).mpr held, rfl⟩

/-- Where no member has expired, the set and the cache hold the same keys. -/
private theorem Tracks.oldestKey_live (tracks : Tracks lifetime now redis cache)
    (unexpired : ∀ key value used, cache.get? key = some (value, used) → now ≤ used + lifetime)
    (live : ∀ key score, redis.sortedSet.get? key = some score → now ≤ score + lifetime) :
    redis.oldestKey = LRUCache.leastRecent cache ∧ redis.zcard ≤ cache.entries.length := by
  have uses : ∀ key used, redis.sortedSet.get? key = some used ↔
      ∃ value, cache.get? key = some (value, used) := by
    intro key used
    constructor
    · exact fun member => tracks.exists_of_score member (live key used member)
    · rintro ⟨value, held⟩
      exact tracks.score_eq (unexpired key value used held) held
  refine ⟨oldestKey_eq_leastRecent uses, OrderedMap.length_le_of_isSome fun key member => ?_⟩
  obtain ⟨used, member⟩ := Option.isSome_iff_exists.mp member
  obtain ⟨_, held⟩ := (uses key used).mp member
  exact Option.isSome_iff_exists.mpr ⟨_, held⟩

namespace RedisLRUCache

variable {options : CacheOptions} {key : Key}

theorem lifetime_nonneg (options : CacheOptions) : 0 ≤ options.lifetime := by
  rw [CacheOptions.lifetime]
  omega

/-- One eviction is enough: a member that has expired goes before all others and leaves the
cache as it is, and where none has expired the set is as long as the cache. -/
private theorem addToCache_tracks (tracks : Tracks options.lifetime now redis cache)
    (bounded : redis.zcard ≤ options.maxCacheSize) (key : Key) (value : Value) :
    Tracks options.lifetime now (addToCache options now key redis value)
        (cache.add options.lifetime options.maxCacheSize now key value) ∧
      (addToCache options now key redis value).zcard ≤ options.maxCacheSize := by
  have touched := tracks.unexpired.touch key value
  rw [addToCache, LRUCache.add]
  generalize written : (redis.zadd key now).setex now key options.lifetime value = stored at touched ⊢
  generalize added : OrderedMap.set (cache.unexpired options.lifetime now) key (value, now) = grown at touched ⊢
  have unexpired : ∀ other found used, grown.get? other = some (found, used) →
      now ≤ used + options.lifetime := by
    intro other found used held
    rw [← added, OrderedMap.get?_set] at held
    split at held
    · obtain ⟨-, rfl⟩ := Prod.ext_iff.mp (Option.some.inj held)
      exact le_add_of_nonneg_right (lifetime_nonneg options)
    · exact (LRUCache.get?_unexpired_iff.mp held).2
  have size : stored.zcard ≤ options.maxCacheSize + 1 := by
    rw [← written]
    have grown := redis.zcard_zadd key now
    change (redis.zadd key now).zcard ≤ _
    omega
  have within : grown.entries.length ≤ stored.zcard := touched.length_le unexpired
  by_cases overflow : options.maxCacheSize < stored.zcard
  · obtain ⟨oldest, score, first, member, least⟩ := oldestKey_spec (Nat.zero_lt_of_lt overflow)
    have shorter : ((stored.zrem oldest).del oldest).zcard + 1 = stored.zcard := by
      have removed := stored.zcard_zrem oldest
      rwa [member] at removed
    simp only [if_pos overflow, first]
    refine ⟨?_, by omega⟩
    by_cases live : now ≤ score + options.lifetime
    · obtain ⟨same, full⟩ := touched.oldestKey_live unexpired fun other used found =>
        live.trans (Int.add_le_add_right (least other used found) _)
      rw [if_pos (overflow.trans_le full), ← same, first]
      exact touched.forget oldest
    · have evicted := touched.forget_expired member (not_le.mp live)
      have missing := evicted.length_le unexpired
      rw [if_neg (by omega)]
      exact evicted
  · rw [if_neg overflow, if_neg (by omega)]
    exact ⟨touched, by omega⟩

private theorem getFromCache_tracks (tracks : Tracks options.lifetime now redis cache)
    (bounded : redis.zcard ≤ options.maxCacheSize) (key : Key) :
    Tracks options.lifetime now (getFromCache options now key redis).1
        (cache.use options.lifetime now key).1 ∧
      (getFromCache options now key redis).2 = (cache.use options.lifetime now key).2 ∧
      (getFromCache options now key redis).1.zcard ≤ options.maxCacheSize := by
  have read := tracks.get_eq key
  rw [getFromCache, LRUCache.use]
  cases held : (cache.unexpired options.lifetime now).get? key with
  | none =>
    rw [held, Option.map_none] at read
    simp only [read]
    exact ⟨tracks, trivial, bounded⟩
  | some entry =>
    obtain ⟨value, used⟩ := entry
    rw [held, Option.map_some] at read
    have refreshed : (redis.zadd key now).expire now key options.lifetime =
        (redis.zadd key now).setex now key options.lifetime value := by
      have still : (redis.zadd key now).get now key = some value := read
      rw [Redis.expire, still]
    simp only [read, refreshed]
    refine ⟨tracks.touch key value, trivial, ?_⟩
    obtain ⟨present, live⟩ := LRUCache.get?_unexpired_iff.mp held
    have member := tracks.score_eq live present
    refine le_trans ?_ bounded
    refine OrderedMap.length_le_of_isSome fun other found => ?_
    by_cases own : key = other
    · subst own
      exact Option.isSome_iff_exists.mpr ⟨used, member⟩
    · simpa [Redis.zadd, Redis.setex, OrderedMap.get?_set, own] using found

private theorem serve_tracks (tracks : Tracks options.lifetime now redis cache)
    (bounded : redis.zcard ≤ options.maxCacheSize) (call : CacheCall Key Value) :
    Tracks options.lifetime now (serve options redis now call).1 (answer options cache now call).1 ∧
      (serve options redis now call).2 = (answer options cache now call).2 ∧
      (serve options redis now call).1.zcard ≤ options.maxCacheSize := by
  cases call with
  | addToCache key value =>
    obtain ⟨tracks, size⟩ := addToCache_tracks tracks bounded key value
    exact ⟨tracks, rfl, size⟩
  | getFromCache key => exact getFromCache_tracks tracks bounded key
  | removeFromCache key =>
    refine ⟨tracks.forget key, rfl, le_trans ?_ bounded⟩
    exact List.length_filter_le _ _

private theorem serveAll_tracks (tracks : Tracks options.lifetime now redis cache)
    (bounded : redis.zcard ≤ options.maxCacheSize) {calls : List (ℤ × CacheCall Key Value)}
    (ordered : (now :: calls.map Prod.fst).Pairwise (· ≤ ·)) {time : ℤ}
    (latest : ∀ call ∈ calls, call.1 ≤ time) (passed : now ≤ time) :
    Tracks options.lifetime time (serveAll options redis calls).1 (answerAll options cache calls).1 ∧
      (serveAll options redis calls).2 = (answerAll options cache calls).2 ∧
      (serveAll options redis calls).1.zcard ≤ options.maxCacheSize := by
  induction calls generalizing now redis cache with
  | nil => exact ⟨tracks.later passed, rfl, bounded⟩
  | cons timed later ih =>
    obtain ⟨moment, call⟩ := timed
    obtain ⟨after, ordered⟩ := List.pairwise_cons.mp ordered
    obtain ⟨ended, latest⟩ := List.forall_mem_cons.mp latest
    obtain ⟨tracks, result, size⟩ :=
      serve_tracks (tracks.later (after moment List.mem_cons_self)) bounded call
    obtain ⟨tracks, results, final⟩ := ih tracks size ordered latest ended
    exact ⟨tracks, congrArg₂ List.cons result results, final⟩

theorem tracks_empty (lifetime now : ℤ) :
    Tracks lifetime now (Redis.empty : Redis Key Value) OrderedMap.empty :=
  ⟨fun _ => rfl, fun _ _ _ _ => iff_of_false nofun nofun⟩

omit [LinearOrder Key] in
private theorem exists_time_after (calls : List (ℤ × CacheCall Key Value)) :
    ∃ time, ∀ call ∈ calls, call.1 ≤ time := by
  induction calls with
  | nil => exact ⟨0, nofun⟩
  | cons first later ih =>
    obtain ⟨time, bound⟩ := ih
    refine ⟨max first.1 time, List.forall_mem_cons.mpr ⟨le_max_left _ _, fun call member => ?_⟩⟩
    exact (bound call member).trans (le_max_right _ _)

/-- Calls that do not overlap, on a clock that does not run backwards, return what the
reference cache does, the sorted set is no longer than the cache may be, and neither is
what the reference cache holds unexpired. -/
theorem serveAll_refines (options : CacheOptions) {calls : List (ℤ × CacheCall Key Value)}
    (ordered : (calls.map Prod.fst).Pairwise (· ≤ ·)) :
    (serveAll options Redis.empty calls).2 = (answerAll options OrderedMap.empty calls).2 ∧
      (serveAll options Redis.empty calls).1.zcard ≤ options.maxCacheSize ∧
      ∀ time, (∀ call ∈ calls, call.1 ≤ time) →
        ((answerAll options OrderedMap.empty calls).1.unexpired options.lifetime time).entries.length ≤
          options.maxCacheSize := by
  have refined : ∀ time, (∀ call ∈ calls, call.1 ≤ time) →
      Tracks options.lifetime time (serveAll options Redis.empty calls).1
          (answerAll options OrderedMap.empty calls).1 ∧
        (serveAll options Redis.empty calls).2 = (answerAll options OrderedMap.empty calls).2 ∧
        (serveAll options Redis.empty calls).1.zcard ≤ options.maxCacheSize := by
    intro time latest
    cases calls with
    | nil => exact ⟨tracks_empty _ time, rfl, Nat.zero_le _⟩
    | cons first later =>
      refine serveAll_tracks (tracks_empty _ first.1) (Nat.zero_le _) ?_ latest
        (latest first List.mem_cons_self)
      refine List.pairwise_cons.mpr ⟨fun moment member => ?_, ordered⟩
      rcases List.mem_cons.mp member with rfl | member
      · exact le_refl _
      · exact List.rel_of_pairwise_cons ordered member
  obtain ⟨latest, bound⟩ := exists_time_after calls
  obtain ⟨-, results, size⟩ := refined latest bound
  refine ⟨results, size, fun time bound => ?_⟩
  obtain ⟨tracks, -, size⟩ := refined time bound
  exact tracks.length_unexpired_le.trans size

/-- Two of three values are kept, the one that was read last among them. -/
theorem serveAll_refines_evicting :
    (serveAll { maxCacheSize := 2 } Redis.empty ([(0, .addToCache 1 10), (1, .addToCache 2 20),
        (2, .getFromCache 1), (3, .addToCache 3 30), (4, .getFromCache 2), (5, .getFromCache 1)] :
        List (ℤ × CacheCall ℕ ℕ))).2 = [none, none, some 10, none, none, some 10] :=
  (serveAll_refines { maxCacheSize := 2 } (by decide)).1.trans (by decide)

end RedisLRUCache

end PriceFeed.Infrastructure
