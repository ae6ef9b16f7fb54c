import Mathlib.Data.List.Sort
import Mathlib.Data.String.Basic
import PriceFeed.Library.CodeUnits
import PriceFeed.Library.OrderedMap
import PriceFeed.Library.Lists
import PriceFeed.Schedulers.Scheduler

/-! The three state reducers of a replica and the manager that merges them:
what a replica reports, what it concludes from STATUS, SHARE and CLOSE buffers,
and which configuration it hands to its markets. -/

namespace PriceFeed.Discovery

open PriceFeed.Library PriceFeed.Schedulers

/-- What the default array sort compares. -/
def codeUnitLe (first second : String) : Prop := codeUnits first.toList ≤ codeUnits second.toList

instance : DecidableRel codeUnitLe := fun first second =>
  inferInstanceAs (Decidable (codeUnits first.toList ≤ codeUnits second.toList))

instance : Std.Total codeUnitLe :=
  ⟨fun first second => le_total (codeUnits first.toList) (codeUnits second.toList)⟩

instance : IsTrans String codeUnitLe :=
  ⟨fun _ _ _ before after => le_trans (α := List ℕ) before after⟩

theorem codeUnitLe_antisymm (before : codeUnitLe first second) (after : codeUnitLe second first) :
    first = second :=
  String.toList_injective (codeUnits_injective (le_antisymm (α := List ℕ) before after))

/-- `localeCompare` as the runtime's locale has it: `le a b` when it is not positive.
Queue addresses are plain ASCII, so it tells different ones apart. -/
structure Collation where
  le : String → String → Bool
  trans : ∀ a b c, le a b → le b c → le a c
  total : ∀ a b, le a b ∨ le b a
  separates : ∀ a b, le a b → le b a → a = b

/-- The order of ASCII strings that share their case. -/
def Collation.ascii : Collation where
  le first second := first ≤ second
  trans a b c := by simpa using fun before after => le_trans before after
  total a b := by simpa using le_total a b
  separates a b := by simpa using fun before after => le_antisymm before after

/-- `getSenderCredentials`. -/
structure Credentials where
  address : String
  identity : String
  deriving DecidableEq, Repr

/-- One entry of the `clusterMembers` that messages carry. -/
structure MemberReport where
  address : String
  identity : String
  interval : ℚ
  deriving DecidableEq, Repr

/-- `getCurrentState` of all reducers: the payload of a STATUS message. -/
structure StatusData where
  rateLimitMultiplier : ℚ
  clusterMemberInterval : ℚ
  deriving DecidableEq, Repr

structure StatusMessage where
  sender : Credentials
  data : StatusData
  deriving DecidableEq, Repr

/-- An aggregated state; a key left out by sanitising is absent. -/
structure ReplicaState where
  replicaMembers : Option (List String) := none
  rateLimitMultiplier : Option ℚ := none
  clusterMembers : Option (List MemberReport) := none
  deriving DecidableEq, Repr

/-- The payload of a SHARE message, which `broadcastShare` takes from `aggregateState`. -/
structure ShareData where
  replicaMembers : List String
  rateLimitMultiplier : ℚ
  clusterMembers : List MemberReport
  deriving DecidableEq, Repr

structure ShareMessage where
  sender : Credentials
  data : ShareData
  deriving DecidableEq, Repr

/-- What the reducers throw: a list that was never adopted, or a missing argument. -/
inductive StateError where
  | membersNotAdopted
  | clusterMembersUndefined
  deriving DecidableEq, Repr

/-- One replica as its reducers see it: the own address and identity, the
internal scheduler, and the lists adopted so far. -/
structure Replica where
  address : String
  identity : String
  internalScheduler : Scheduler
  replicaMembers : Option (List String) := none
  clusterMembers : Option (List MemberReport) := none
  deriving DecidableEq, Repr

/-- `Math.max` of a spread list. An empty one gives `-Infinity`, which no
caller can use. -/
def mathMax (values : List ℚ) : Option ℚ := values.max?

/-- `Array.prototype.indexOf`. -/
def indexOf (items : List String) (item : String) : ℤ :=
  if item ∈ items then items.idxOf item else -1

namespace ReplicaMembersReducer

def aggregateState (identity : String) (buffer : List StatusMessage) : List String :=
  ((buffer.filter fun message => message.sender.identity = identity).map
    fun message => message.sender.address).insertionSort codeUnitLe

def normalizeState (address : String) (replicaMembers : Option (List String)) : DynamicConfig :=
  match replicaMembers with
  | none => {}
  | some members =>
    { replicaSize := some members.length
      instancePosition := some (indexOf members address) }

def aggregateShareState (identity : String) (buffer : List ShareMessage) : Option (List String) :=
  (buffer.filter fun message => message.sender.identity = identity).getLast?.map
    fun message => message.data.replicaMembers

def sanitizeShareState (address : String) (replicaMembers : Option (List String)) :
    Option (List String) :=
  replicaMembers.filter fun members => address ∈ members

def shouldReload (adopted replicaMembers : Option (List String)) : Bool :=
  replicaMembers.isSome && replicaMembers ≠ adopted

def updateState (adopted replicaMembers : Option (List String)) : Option (List String) :=
  replicaMembers <|> adopted

def aggregateCloseState (identity : String) (adopted : Option (List String))
    (buffer : List Credentials) : Except StateError (List String) :=
  let closed := (buffer.filter fun sender => sender.identity = identity).map Credentials.address
  match adopted with
  | none => .error .membersNotAdopted
  | some members => .ok (members.filter fun address => address ∉ closed)

end ReplicaMembersReducer

namespace RateLimitReducer

def aggregateState (buffer : List StatusMessage) : Option ℚ :=
  mathMax (buffer.map fun message => message.data.rateLimitMultiplier)

/-- Zero is falsy, so it is left out. -/
def normalizeState (rateLimitMultiplier : Option ℚ) : DynamicConfig :=
  { rateLimitMultiplier := rateLimitMultiplier.filter fun multiplier => multiplier ≠ 0 }

def aggregateShareState (buffer : List ShareMessage) : Option ℚ :=
  mathMax (buffer.map fun message => message.data.rateLimitMultiplier)

def sanitizeShareState (current : ℚ) (rateLimitMultiplier : Option ℚ) : Option ℚ :=
  rateLimitMultiplier.filter fun multiplier => current < multiplier

def shouldReload (current : ℚ) (rateLimitMultiplier : Option ℚ) : Bool :=
  match rateLimitMultiplier with
  | none => false
  | some multiplier => multiplier ≠ 0 && current < multiplier

end RateLimitReducer

namespace ClusterMembersReducer

variable (collation : Collation)

def addressLe (first second : MemberReport) : Prop := collation.le first.address second.address

instance : DecidableRel (addressLe collation) := fun first second =>
  inferInstanceAs (Decidable (collation.le first.address second.address = true))

def aggregateState (buffer : List StatusMessage) : List MemberReport :=
  (buffer.map fun message =>
    (⟨message.sender.address, message.sender.identity, message.data.clusterMemberInterval⟩ :
      MemberReport)).insertionSort (addressLe collation)

/-- An entry of the identity map, before it becomes a `ClusterMember`. -/
structure DryMember where
  identity : String
  type : MemberType
  interval : ℚ
  deriving DecidableEq, Repr

/-- One step of `#getIdentityMap`: add to the identity's interval or open its entry. -/
def addToIdentity (own : String) (map : OrderedMap String DryMember) (report : MemberReport) :
    OrderedMap String DryMember :=
  match map.get? report.identity with
  | some member => map.set report.identity { member with interval := member.interval + report.interval }
  | none => map.set report.identity
      ⟨report.identity, if report.identity = own then .self else .external, report.interval⟩

def getIdentityMap (own : String) (clusterMembers : List MemberReport) : OrderedMap String DryMember :=
  clusterMembers.foldl (addToIdentity own) .empty

def identityLe (first second : DryMember) : Prop := collation.le first.identity second.identity

instance : DecidableRel (identityLe collation) := fun first second =>
  inferInstanceAs (Decidable (collation.le first.identity second.identity = true))

def normalizeState (own : String) (clusterMembers : Option (List MemberReport)) :
    Except StateError DynamicConfig :=
  match clusterMembers with
  | none => .error .clusterMembersUndefined
  | some reports =>
    let dryClusterMembers := (getIdentityMap own reports).values.insertionSort (identityLe collation)
    .ok { clusterMembers := some (dryClusterMembers.map fun member => ⟨member.interval, member.type⟩) }

/-- One mention in the reversed buffer: the first one met opens the entry, a
member's report about itself overwrites it. -/
def recordMention (map : OrderedMap String MemberReport) (mention : String × MemberReport) :
    OrderedMap String MemberReport :=
  if (map.get? mention.2.address).isNone ∨ mention.1 = mention.2.address then
    map.set mention.2.address mention.2
  else map

/-- The members of all messages with their senders, in the order they are visited. -/
def mentions (buffer : List ShareMessage) : List (String × MemberReport) :=
  buffer.reverse.flatMap fun message =>
    message.data.clusterMembers.map fun member => (message.sender.address, member)

def aggregateShareState (buffer : List ShareMessage) : List MemberReport :=
  ((mentions buffer).foldl recordMention .empty).values.insertionSort (addressLe collation)

def sanitizeShareState (address : String) (clusterMembers : Option (List MemberReport)) :
    Option (List MemberReport) :=
  clusterMembers.filter fun members => members.any fun member => member.address = address

def shouldReload (adopted clusterMembers : Option (List MemberReport)) : Bool :=
  clusterMembers.isSome && clusterMembers ≠ adopted

def updateState (adopted clusterMembers : Option (List MemberReport)) : Option (List MemberReport) :=
  clusterMembers <|> adopted

def aggregateCloseState (adopted : Option (List MemberReport)) (buffer : List Credentials) :
    Except StateError (List MemberReport) :=
  let closed := buffer.map Credentials.address
  match adopted with
  | none => .error .membersNotAdopted
  | some members => .ok (members.filter fun member => member.address ∉ closed)

end ClusterMembersReducer

end PriceFeed.Discovery
