import Mathlib.Data.PNat.Basic
import PriceFeed.Library.LeastRecentlyUsed

/-! `RedisLRUCache` on the Redis commands that it sends. -/

namespace PriceFeed.Infrastructure

open PriceFeed.Library

/-- The keys of one namespace, whose common prefix changes neither which keys are equal nor
their order: the values, each with the last moment at which it can be read, and the sorted
set of the times of their last use, which no value's key names. -/
structure Redis (Key Value : Type*) where
  strings : OrderedMap Key (Value × ℤ)
  sortedSet : OrderedMap Key ℤ

/-- `ttl` is in seconds. -/
structure CacheOptions where
  maxCacheSize : ℕ := 10000
  ttl : ℕ+ := 3600

def CacheOptions.lifetime (options : CacheOptions) : ℤ := options.ttl * 1000

namespace Redis

variable {Key Value : Type*} [LinearOrder Key] (redis : Redis Key Value) (now : ℤ) (key : Key)

def empty : Redis Key Value := ⟨.empty, .empty⟩

def get : Option Value :=
  match redis.strings.get? key with
  | some (value, deadline) => if now ≤ deadline then some value else none
  | none => none

def setex (lifetime : ℤ) (value : Value) : Redis Key Value :=
  { redis with strings := redis.strings.set key (value, now + lifetime) }

/-- A key that is not there is not touched. -/
def expire (lifetime : ℤ) : Redis Key Value :=
  match redis.get now key with
  | some value => redis.setex now key lifetime value
  | none => redis

def del : Redis Key Value := { redis with strings := redis.strings.delete key }

def zadd (score : ℤ) : Redis Key Value := { redis with sortedSet := redis.sortedSet.set key score }

def zrem : Redis Key Value := { redis with sortedSet := redis.sortedSet.delete key }

def zcard : ℕ := redis.sortedSet.entries.length

/-- `zrange` from 0 to 0: members are ordered by their scores, and equal scores by the member. -/
def oldestKey : Option Key :=
  ((redis.sortedSet.entries.map fun entry => toLex (entry.2, entry.1)).insertionSort (· ≤ ·)).head?.map
    fun member => (ofLex member).2

theorem zcard_zadd (score : ℤ) : (redis.zadd key score).zcard + (redis.sortedSet.get? key).isSome.toNat =
    redis.zcard + 1 :=
  OrderedMap.length_set redis.sortedSet key score

theorem zcard_zrem :
    (redis.zrem key).zcard + (redis.sortedSet.get? key).isSome.toNat = redis.zcard :=
  OrderedMap.length_delete redis.sortedSet key

theorem get_del (other : Key) :
    (redis.del key).get now other = if key = other then none else redis.get now other := by
  by_cases own : key = other <;> simp [get, del, OrderedMap.get?_delete, own]

theorem get_setex {lifetime : ℤ} (positive : 0 ≤ lifetime) (value : Value) (other : Key) :
    (redis.setex now key lifetime value).get now other =
      if key = other then some value else redis.get now other := by
  by_cases own : key = other <;> simp [get, setex, OrderedMap.get?_set, own, positive]

@[simp] theorem sortedSet_expire (lifetime : ℤ) :
    (redis.expire now key lifetime).sortedSet = redis.sortedSet := by
  rw [expire]
  split <;> rfl

theorem get_expire {lifetime : ℤ} (positive : 0 ≤ lifetime) (other : Key) :
    (redis.expire now key lifetime).get now other = redis.get now other := by
  rw [expire]
  cases read : redis.get now key with
  | none => rfl
  | some value =>
    simp only [get_setex _ _ _ positive]
    split
    next same => rw [← same, read]
    next => rfl

end Redis

namespace RedisLRUCache

variable {Key Value : Type*} [LinearOrder Key] (options : CacheOptions) (now : ℤ) (key : Key)
  (redis : Redis Key Value)

def addToCache (value : Value) : Redis Key Value :=
  let cached := (redis.zadd key now).setex now key options.lifetime value
  if options.maxCacheSize < cached.zcard then
    match cached.oldestKey with
    | some oldestKey => (cached.zrem oldestKey).del oldestKey
    | none => cached
  else cached

def getFromCache : Redis Key Value × Option Value :=
  match redis.get now key with
  | some value => ((redis.zadd key now).expire now key options.lifetime, some value)
  | none => (redis, none)

def removeFromCache : Redis Key Value := (redis.zrem key).del key

end RedisLRUCache

end PriceFeed.Infrastructure
