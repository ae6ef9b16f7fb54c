import PriceFeed.Collectors.MarketsManager
import PriceFeed.Library.OrderedMap
import PriceFeed.Schedulers.Period

/-! The markets that `MarketsManager` keeps: `loadMarkets` goes through a list of market
ids, and the list and the map of the managers follow it. -/

namespace PriceFeed.Collectors

open PriceFeed.Library PriceFeed.Schedulers

/-- The default options of `schedulersFactory`. -/
structure SchedulerOptions where
  baseRateLimit : ℚ
  rateLimitMargin : ℚ
  baseSleepReloadTime : ℚ := millisecondsInAMinute * 30
  deriving DecidableEq, Repr

/-- The constructor takes the options that are given and its defaults for the rest. -/
def SchedulerOptions.create (defaultOptions : SchedulerOptions) (options : DynamicConfig) : Scheduler :=
  Scheduler.assign
    { baseRateLimit := defaultOptions.baseRateLimit
      rateLimitMargin := defaultOptions.rateLimitMargin
      baseSleepReloadTime := defaultOptions.baseSleepReloadTime
      queueSize := 0 }
    options

/-- The managers in the order of their creation and by their markets, and the schedulers
that they refer to. -/
structure MarketRegistry where
  internalScheduler : Scheduler
  collectorsManagers : List CollectorsManager := []
  collectorsManagersMap : OrderedMap ℕ CollectorsManager := .empty
  schedulers : ℕ → Option Scheduler := fun _ => none
  nextScheduler : ℕ := 0

inductive RegistryEvent where
  | setDynamicConfig (config : DynamicConfig)
  | loadMarkets (queueSize : ℕ) (marketIds : List ℕ)

namespace MarketRegistry

variable (defaultOptions : SchedulerOptions) (registry : MarketRegistry)

/-- `init`, for a factory of managers with so many models. -/
def init (queueSize models : ℕ) : MarketRegistry where
  internalScheduler := defaultOptions.create { queueSize := some queueSize, operations := some models }

def initMarket (marketId queuePosition : ℕ) : MarketRegistry :=
  let collectorsManager : CollectorsManager := ⟨marketId, registry.nextScheduler⟩
  { registry with
    collectorsManagers := registry.collectorsManagers ++ [collectorsManager]
    collectorsManagersMap := registry.collectorsManagersMap.set marketId collectorsManager
    schedulers := Function.update registry.schedulers registry.nextScheduler
      (some (defaultOptions.create
        { registry.internalScheduler.getDynamicConfig with queuePosition := some queuePosition }))
    nextScheduler := registry.nextScheduler + 1 }

def updateMarket (collectorsManager : CollectorsManager) (queuePosition : ℕ) :
    Except SchedulerError MarketRegistry :=
  match registry.schedulers collectorsManager.scheduler with
  | none => .ok registry
  | some scheduler => do
    let configured ← scheduler.setDynamicConfig { registry.internalScheduler.getDynamicConfig with
      queuePosition := some queuePosition
      queueSize := some registry.internalScheduler.queueSize }
    return { registry with
      schedulers := Function.update registry.schedulers collectorsManager.scheduler (some configured) }

def resolveMarket (registry : MarketRegistry) (market : ℕ × ℕ) : Except SchedulerError MarketRegistry :=
  match registry.collectorsManagersMap.get? market.1 with
  | none => .ok (registry.initMarket defaultOptions market.1 market.2)
  | some collectorsManager => registry.updateMarket collectorsManager market.2

def clearDisabledMarkets (marketIds : List ℕ) : MarketRegistry :=
  let disabled := registry.collectorsManagers.filter fun manager => manager.marketId ∉ marketIds
  { registry with
    collectorsManagers := registry.collectorsManagers.filter fun manager => manager.marketId ∈ marketIds
    collectorsManagersMap :=
      disabled.foldl (fun map manager => map.delete manager.marketId) registry.collectorsManagersMap }

/-- Both reads of the database are given. -/
def loadMarkets (queueSize : ℕ) (marketIds : List ℕ) : Except SchedulerError MarketRegistry := do
  let sized := { registry with internalScheduler := registry.internalScheduler.setQueueSize queueSize }
  let resolved ← marketIds.zipIdx.foldlM (resolveMarket defaultOptions) sized
  return resolved.clearDisabledMarkets marketIds

def step : RegistryEvent → Option MarketRegistry
  | .setDynamicConfig config =>
    match registry.internalScheduler.setDynamicConfig config with
    | .ok configured => some { registry with internalScheduler := configured }
    | .error _ => none
  | .loadMarkets queueSize marketIds =>
    match registry.loadMarkets defaultOptions queueSize marketIds with
    | .ok loaded => some loaded
    | .error _ => none

/-- What a manager's scheduler has from the internal one, and its position in the queue. -/
structure Follows (internal : Scheduler) (queuePosition : ℕ) (scheduler : Scheduler) : Prop where
  queuePosition : scheduler.queuePosition = some queuePosition
  rateLimitMultiplier : scheduler.rateLimitMultiplier = internal.rateLimitMultiplier
  replicaSize : scheduler.replicaSize = internal.replicaSize
  instancePosition : scheduler.instancePosition = internal.instancePosition
  clusterMembers : scheduler.clusterMembers = internal.clusterMembers
  queueSize : scheduler.queueSize = internal.queueSize

/-- After a load the list and the map hold one manager for each id and nothing else, the
managers of markets that were there are kept, and the schedulers follow the internal one. -/
structure Loaded (before after : MarketRegistry) (queueSize : ℕ) (marketIds : List ℕ) : Prop where
  queueSize : after.internalScheduler.queueSize = queueSize
  same : ∀ id ∈ marketIds, ∃ manager, manager.marketId = id ∧
    after.collectorsManagersMap.get? id = some manager ∧
    after.collectorsManagers.filter (fun manager => manager.marketId = id) = [manager]
  listed : ∀ manager ∈ after.collectorsManagers, manager.marketId ∈ marketIds
  mapped : ∀ id manager, after.collectorsManagersMap.get? id = some manager → id ∈ marketIds
  stayed : ∀ id ∈ marketIds, ∀ manager, before.collectorsManagersMap.get? id = some manager →
    after.collectorsManagersMap.get? id = some manager
  follows : ∀ position id, marketIds[position]? = some id → ∃ manager scheduler,
    after.collectorsManagersMap.get? id = some manager ∧
    after.schedulers manager.scheduler = some scheduler ∧
    Follows after.internalScheduler position scheduler

structure Sound (registry : MarketRegistry) : Prop where
  listed : ∀ manager, manager ∈ registry.collectorsManagers ↔
    registry.collectorsManagersMap.get? manager.marketId = some manager
  keyed : ∀ id manager, registry.collectorsManagersMap.get? id = some manager → manager.marketId = id
  distinct : registry.collectorsManagers.Nodup
  created : ∀ manager ∈ registry.collectorsManagers, manager.scheduler < registry.nextScheduler ∧
    ∃ scheduler, registry.schedulers manager.scheduler = some scheduler
  own : ∀ manager ∈ registry.collectorsManagers, ∀ other ∈ registry.collectorsManagers,
    manager.scheduler = other.scheduler → manager = other

/-- The total interval of the cluster is known, and at most a day. -/
def WithinDay (internal : Scheduler) : Prop :=
  ∃ members, internal.clusterMembers = some members ∧
    Scheduler.clusterInterval members ≤ hoursInADay * millisecondsInAnHour

/-- What the markets gone through so far have become, with their positions. -/
structure Resolved (before after : MarketRegistry) (markets : List (ℕ × ℕ)) : Prop where
  sound : after.Sound
  internal : after.internalScheduler = before.internalScheduler
  others : ∀ id, id ∉ markets.map Prod.fst →
    after.collectorsManagersMap.get? id = before.collectorsManagersMap.get? id
  stayed : ∀ id manager, before.collectorsManagersMap.get? id = some manager →
    after.collectorsManagersMap.get? id = some manager
  untouched : ∀ manager ∈ before.collectorsManagers, manager.marketId ∉ markets.map Prod.fst →
    after.schedulers manager.scheduler = before.schedulers manager.scheduler
  follows : ∀ market ∈ markets, ∃ manager scheduler,
    after.collectorsManagersMap.get? market.1 = some manager ∧
    after.schedulers manager.scheduler = some scheduler ∧
    Follows before.internalScheduler market.2 scheduler

variable {defaultOptions registry} {before middle after : MarketRegistry} {marketId queuePosition : ℕ}

theorem Sound.mem_iff (sound : registry.Sound) {id : ℕ} {manager : CollectorsManager}
    (found : registry.collectorsManagersMap.get? id = some manager) :
    manager ∈ registry.collectorsManagers := by
  rw [sound.listed, sound.keyed id manager found]
  exact found

section InitMarket

variable (sound : registry.Sound)
include sound

theorem Sound.scheduler_ne_next {manager : CollectorsManager}
    (listed : manager ∈ registry.collectorsManagers) : manager.scheduler ≠ registry.nextScheduler :=
  (sound.created manager listed).1.ne

theorem Sound.schedulers_initMarket {manager : CollectorsManager}
    (listed : manager ∈ registry.collectorsManagers) :
    (registry.initMarket defaultOptions marketId queuePosition).schedulers manager.scheduler =
      registry.schedulers manager.scheduler :=
  Function.update_of_ne (sound.scheduler_ne_next listed) ..

theorem Sound.initMarket (absent : registry.collectorsManagersMap.get? marketId = none) :
    (registry.initMarket defaultOptions marketId queuePosition).Sound := by
  refine ⟨fun manager => ?_, fun id manager found => ?_, ?_, fun manager member => ?_, ?_⟩
  · rw [MarketRegistry.initMarket, OrderedMap.get?_set, List.mem_append, List.mem_singleton]
    by_cases same : marketId = manager.marketId
    · rw [if_pos same, Option.some.injEq, eq_comm (a := manager)]
      refine or_iff_right fun listed => ?_
      rw [same, (sound.listed manager).mp listed] at absent
      cases absent
    · rw [if_neg same, ← sound.listed]
      refine or_iff_left ?_
      rintro rfl
      exact same rfl
  · rw [MarketRegistry.initMarket, OrderedMap.get?_set] at found
    split at found
    next same => exact (Option.some.inj found) ▸ same
    next => exact sound.keyed id manager found
  · refine List.nodup_append.mpr ⟨sound.distinct, List.nodup_singleton _, fun manager listed new member => ?_⟩
    rintro rfl
    obtain rfl := List.mem_singleton.mp member
    exact sound.scheduler_ne_next listed rfl
  · rcases List.mem_append.mp member with listed | new
    · obtain ⟨below, created⟩ := sound.created manager listed
      exact ⟨below.trans (Nat.lt_succ_self _), by rwa [sound.schedulers_initMarket listed]⟩
    · obtain rfl := List.mem_singleton.mp new
      exact ⟨Nat.lt_succ_self _, _, Function.update_self ..⟩
  · intro manager member second others same
    rcases List.mem_append.mp member with listed | new
    · rcases List.mem_append.mp others with also | new
      · exact sound.own manager listed second also same
      · obtain rfl := List.mem_singleton.mp new
        exact absurd same (sound.scheduler_ne_next listed)
    · obtain rfl := List.mem_singleton.mp new
      rcases List.mem_append.mp others with also | new
      · exact absurd same.symm (sound.scheduler_ne_next also)
      · exact (List.mem_singleton.mp new).symm

private theorem initMarket_resolved (absent : registry.collectorsManagersMap.get? marketId = none) :
    Resolved registry (registry.initMarket defaultOptions marketId queuePosition)
      [(marketId, queuePosition)] := by
  refine
    { sound := sound.initMarket absent
      internal := rfl
      others := fun id different => ?_
      stayed := fun id manager found => ?_
      untouched := fun manager listed _ => sound.schedulers_initMarket listed
      follows := ?_ }
  · rw [initMarket, OrderedMap.get?_set, if_neg (by simpa [eq_comm] using different)]
  · rw [initMarket, OrderedMap.get?_set, if_neg ?_]
    · exact found
    · rintro rfl
      rw [found] at absent
      cases absent
  · intro market member
    obtain rfl := List.mem_singleton.mp member
    exact ⟨_, _, OrderedMap.get?_set_self .., Function.update_self .., rfl, rfl, rfl, rfl, by
      simp [SchedulerOptions.create, Scheduler.assign, Scheduler.getDynamicConfig], rfl⟩

end InitMarket

private theorem updateMarket_resolved (sound : registry.Sound) (brief : WithinDay registry.internalScheduler)
    {manager : CollectorsManager} (found : registry.collectorsManagersMap.get? marketId = some manager) :
    ∃ updated, registry.updateMarket manager queuePosition = .ok updated ∧
      Resolved registry updated [(marketId, queuePosition)] := by
  obtain ⟨members, present, total⟩ := brief
  have listed := sound.mem_iff found
  obtain ⟨-, scheduler, held⟩ := sound.created manager listed
  have joined : (scheduler.assign { registry.internalScheduler.getDynamicConfig with
      queuePosition := some queuePosition
      queueSize := some registry.internalScheduler.queueSize }).clusterMembers = some members := by
    simp [Scheduler.assign, Scheduler.getDynamicConfig, present]
  obtain ⟨configured, success⟩ := Scheduler.initInterval_completes_withinDay joined total
  have fields := Scheduler.setDynamicConfig_ok success
  refine ⟨_, by rw [updateMarket, held]; simp only [Scheduler.setDynamicConfig, success]; rfl, ?_⟩
  have kept : ∀ other ∈ registry.collectorsManagers, other.marketId ≠ marketId →
      Function.update registry.schedulers manager.scheduler (some configured) other.scheduler =
        registry.schedulers other.scheduler := by
    intro other member different
    refine Function.update_of_ne (fun same => different ?_) ..
    rw [sound.own other member manager listed same, sound.keyed marketId manager found]
  refine
    { sound := ⟨sound.listed, sound.keyed, sound.distinct, fun other member => ?_, sound.own⟩
      internal := rfl
      others := fun _ _ => rfl
      stayed := fun _ _ present => present
      untouched := fun other member different => kept other member (by simpa using different)
      follows := ?_ }
  · obtain ⟨below, existing, created⟩ := sound.created other member
    refine ⟨below, ?_⟩
    by_cases same : other.scheduler = manager.scheduler
    · exact ⟨configured, by rw [same]; exact Function.update_self ..⟩
    · exact ⟨existing, (Function.update_of_ne same ..).trans created⟩
  · intro market member
    obtain rfl := List.mem_singleton.mp member
    refine ⟨manager, configured, found, Function.update_self .., ?_⟩
    rw [fields]
    exact ⟨rfl, rfl, rfl, rfl, joined.trans present.symm, rfl⟩

theorem Resolved.trans {market : ℕ × ℕ} {rest : List (ℕ × ℕ)} (sound : before.Sound)
    (first : Resolved before middle [market])
    (fresh : market.1 ∉ rest.map Prod.fst) (later : Resolved middle after rest) :
    Resolved before after (market :: rest) where
  sound := later.sound
  internal := later.internal.trans first.internal
  others := by
    intro id other
    rw [List.map_cons, List.mem_cons, not_or] at other
    rw [later.others id other.2]
    exact first.others id (by simpa using other.1)
  stayed id manager found := later.stayed id manager (first.stayed id manager found)
  untouched := by
    intro manager listed other
    rw [List.map_cons, List.mem_cons, not_or] at other
    have still := first.stayed _ _ ((sound.listed manager).mp listed)
    rw [later.untouched manager ((first.sound.listed manager).mpr still) other.2]
    exact first.untouched manager listed (by simpa using other.1)
  follows := by
    intro asked member
    rcases List.mem_cons.mp member with rfl | member
    · obtain ⟨manager, scheduler, found, held, follows⟩ := first.follows asked List.mem_cons_self
      refine ⟨manager, scheduler, (later.others _ fresh).trans found, ?_, follows⟩
      rw [later.untouched manager (first.sound.mem_iff found)]
      · exact held
      · rwa [first.sound.keyed _ _ found]
    · rw [← first.internal]
      exact later.follows asked member

private theorem resolveMarkets_resolved (defaultOptions : SchedulerOptions) (sound : registry.Sound)
    (brief : WithinDay registry.internalScheduler) {markets : List (ℕ × ℕ)}
    (distinct : (markets.map Prod.fst).Nodup) :
    ∃ resolved, markets.foldlM (resolveMarket defaultOptions) registry = .ok resolved ∧
      Resolved registry resolved markets := by
  induction markets generalizing registry with
  | nil =>
    refine ⟨registry, rfl, sound, rfl, fun _ _ => rfl, fun _ _ found => found, fun _ _ _ => rfl, ?_⟩
    exact fun _ member => nomatch member
  | cons market rest ih =>
    obtain ⟨fresh, distinct⟩ := List.nodup_cons.mp distinct
    have first : ∃ middle, resolveMarket defaultOptions registry market = .ok middle ∧
        Resolved registry middle [market] := by
      cases found : registry.collectorsManagersMap.get? market.1 with
      | none => exact ⟨_, by rw [resolveMarket, found], initMarket_resolved sound found⟩
      | some manager =>
        rw [resolveMarket, found]
        exact updateMarket_resolved sound brief found
    obtain ⟨middle, success, resolved⟩ := first
    obtain ⟨after, remaining, later⟩ := ih resolved.sound (resolved.internal ▸ brief) distinct
    refine ⟨after, ?_, resolved.trans sound fresh later⟩
    rw [List.foldlM_cons, success]
    exact remaining

private theorem get?_foldl_delete (disabled : List CollectorsManager) (map : OrderedMap ℕ CollectorsManager)
    (id : ℕ) :
    (disabled.foldl (fun map manager => map.delete manager.marketId) map).get? id =
      if ∃ manager ∈ disabled, manager.marketId = id then none else map.get? id := by
  induction disabled generalizing map with
  | nil => simp
  | cons manager rest ih =>
    rw [List.foldl_cons, ih, OrderedMap.get?_delete]
    by_cases later : ∃ manager ∈ rest, manager.marketId = id
    · rw [if_pos later, if_pos]
      obtain ⟨other, member, same⟩ := later
      exact ⟨other, List.mem_cons_of_mem _ member, same⟩
    · rw [if_neg later]
      simp only [List.mem_cons, exists_eq_or_imp, later, or_false]

/-- The map keeps the managers of the ids of the list. -/
theorem get?_clearDisabledMarkets (sound : registry.Sound) (marketIds : List ℕ) (id : ℕ) :
    (registry.clearDisabledMarkets marketIds).collectorsManagersMap.get? id =
      if id ∈ marketIds then registry.collectorsManagersMap.get? id else none := by
  rw [clearDisabledMarkets, get?_foldl_delete]
  by_cases enabled : id ∈ marketIds
  · rw [if_pos enabled, if_neg]
    rintro ⟨manager, disabled, rfl⟩
    exact absurd enabled (by simpa using (List.mem_filter.mp disabled).2)
  · rw [if_neg enabled]
    cases found : registry.collectorsManagersMap.get? id with
    | none => exact ite_self _
    | some manager =>
      have keyed := sound.keyed id manager found
      refine if_pos ⟨manager, List.mem_filter.mpr ⟨sound.mem_iff found, ?_⟩, keyed⟩
      simpa [keyed] using enabled

private theorem clearDisabledMarkets_sound (sound : registry.Sound) (marketIds : List ℕ) :
    (registry.clearDisabledMarkets marketIds).Sound where
  listed := by
    intro manager
    rw [get?_clearDisabledMarkets sound, clearDisabledMarkets, List.mem_filter, sound.listed]
    by_cases enabled : manager.marketId ∈ marketIds
    · simp [enabled]
    · simp [enabled]
  keyed := by
    intro id manager found
    rw [get?_clearDisabledMarkets sound] at found
    split at found
    · exact sound.keyed id manager found
    · cases found
  distinct := sound.distinct.filter _
  created manager member := sound.created manager (List.mem_of_mem_filter member)
  own manager member other also := sound.own manager (List.mem_of_mem_filter member) other
    (List.mem_of_mem_filter also)

private theorem Sound.filter_eq (sound : registry.Sound) {manager : CollectorsManager} {id : ℕ}
    (found : registry.collectorsManagersMap.get? id = some manager) :
    registry.collectorsManagers.filter (fun other => other.marketId = id) = [manager] := by
  have keyed := sound.keyed id manager found
  have single : registry.collectorsManagers.filter (fun other => other.marketId = id) =
      registry.collectorsManagers.filter fun other => other == manager := by
    refine List.filter_congr fun other listed => ?_
    rw [Bool.eq_iff_iff, decide_eq_true_iff, beq_iff_eq]
    refine ⟨fun same => ?_, fun same => same ▸ keyed⟩
    have held := (sound.listed other).mp listed
    rw [same, found] at held
    exact (Option.some.inj held).symm
  rw [single, List.filter_beq, List.count_eq_one_of_mem sound.distinct (sound.mem_iff found)]
  rfl

theorem loadMarkets_loaded (defaultOptions : SchedulerOptions) (sound : before.Sound)
    (brief : WithinDay before.internalScheduler) {marketIds : List ℕ} (distinct : marketIds.Nodup)
    (queueSize : ℕ) :
    ∃ after, before.loadMarkets defaultOptions queueSize marketIds = .ok after ∧ after.Sound ∧
      after.internalScheduler = before.internalScheduler.setQueueSize queueSize ∧
      Loaded before after queueSize marketIds := by
  have sized : { before with
      internalScheduler := before.internalScheduler.setQueueSize queueSize }.Sound :=
    ⟨sound.listed, sound.keyed, sound.distinct, sound.created, sound.own⟩
  have positions : (marketIds.zipIdx.map Prod.fst).Nodup := by rwa [List.zipIdx_map_fst]
  obtain ⟨resolved, success, facts⟩ := resolveMarkets_resolved defaultOptions sized brief positions
  have follows : ∀ position id, marketIds[position]? = some id → ∃ manager scheduler,
      resolved.collectorsManagersMap.get? id = some manager ∧
      resolved.schedulers manager.scheduler = some scheduler ∧
      Follows (before.internalScheduler.setQueueSize queueSize) position scheduler :=
    fun position id found => facts.follows (id, position) (List.mem_zipIdx_iff_getElem?.mpr found)
  have cleared := clearDisabledMarkets_sound facts.sound marketIds
  refine ⟨resolved.clearDisabledMarkets marketIds, by rw [loadMarkets, success]; rfl, cleared,
    facts.internal, ?_⟩
  refine
    { queueSize := congrArg Scheduler.queueSize facts.internal
      same := fun id member => ?_
      listed := fun manager member => by simpa using (List.mem_filter.mp member).2
      mapped := fun id manager found => ?_
      stayed := fun id member manager found => ?_
      follows := fun position id found => ?_ }
  · obtain ⟨position, found⟩ := List.mem_iff_getElem?.mp member
    obtain ⟨manager, -, held, -⟩ := follows position id found
    have kept : (resolved.clearDisabledMarkets marketIds).collectorsManagersMap.get? id = some manager := by
      rw [get?_clearDisabledMarkets facts.sound, if_pos member, held]
    exact ⟨manager, cleared.keyed id manager kept, kept, cleared.filter_eq kept⟩
  · rw [get?_clearDisabledMarkets facts.sound] at found
    by_contra absent
    rw [if_neg absent] at found
    cases found
  · rw [get?_clearDisabledMarkets facts.sound, if_pos member]
    exact facts.stayed id manager found
  · obtain ⟨manager, scheduler, held, present, follow⟩ := follows position id found
    refine ⟨manager, scheduler, ?_, present, ?_⟩
    · rw [get?_clearDisabledMarkets facts.sound, if_pos (List.mem_of_getElem? found), held]
    · exact facts.internal ▸ follow

/-- A load reads distinct ids; the clusters that are set need at most a day. -/
def Permitted : RegistryEvent → Prop
  | .setDynamicConfig config => ∀ members ∈ config.clusterMembers,
      Scheduler.clusterInterval members ≤ hoursInADay * millisecondsInAnHour
  | .loadMarkets _ marketIds => marketIds.Nodup

private theorem init_sound (defaultOptions : SchedulerOptions) (queueSize models : ℕ) :
    (init defaultOptions queueSize models).Sound where
  listed _ := ⟨nofun, nofun⟩
  keyed _ _ found := nomatch found
  distinct := List.nodup_nil
  created _ member := nomatch member
  own _ member := nomatch member

theorem setDynamicConfig_step (sound : before.Sound) {config : DynamicConfig} {members : List ClusterMember}
    (joined : (config.clusterMembers <|> before.internalScheduler.clusterMembers) = some members)
    (brief : Scheduler.clusterInterval members ≤ hoursInADay * millisecondsInAnHour) :
    ∃ after, before.step defaultOptions (.setDynamicConfig config) = some after ∧ after.Sound ∧
      WithinDay after.internalScheduler := by
  have assigned : (before.internalScheduler.assign config).clusterMembers = some members := joined
  obtain ⟨configured, success⟩ := Scheduler.initInterval_completes_withinDay assigned brief
  have fields := Scheduler.setDynamicConfig_ok success
  have held : configured.clusterMembers = some members := by
    rw [fields]
    exact joined
  refine ⟨{ before with internalScheduler := configured }, ?_, ?_, members, held, brief⟩
  · rw [step, Scheduler.setDynamicConfig, success]
  · exact ⟨sound.listed, sound.keyed, sound.distinct, sound.created, sound.own⟩

private theorem run_completes {events : List RegistryEvent} (sound : before.Sound)
    (brief : WithinDay before.internalScheduler) (permitted : ∀ event ∈ events, Permitted event) :
    ∃ after, Run (step defaultOptions) before events after ∧ after.Sound ∧
      WithinDay after.internalScheduler := by
  induction events generalizing before with
  | nil => exact ⟨before, .nil before, sound, brief⟩
  | cons event rest ih =>
    obtain ⟨allowed, later⟩ := List.forall_mem_cons.mp permitted
    have taken : ∃ middle, before.step defaultOptions event = some middle ∧ middle.Sound ∧
        WithinDay middle.internalScheduler := by
      obtain ⟨members, present, total⟩ := brief
      cases event with
      | setDynamicConfig config =>
        cases set : config.clusterMembers with
        | none => exact setDynamicConfig_step sound (by rw [set, present]; rfl) total
        | some changed => exact setDynamicConfig_step sound (by rw [set]; rfl) (allowed changed set)
      | loadMarkets queueSize marketIds =>
        obtain ⟨after, success, sound', internal, -⟩ :=
          loadMarkets_loaded defaultOptions sound ⟨members, present, total⟩ allowed queueSize
        refine ⟨after, by rw [step, success], sound', members, ?_, total⟩
        rw [internal]
        exact present
    obtain ⟨middle, next, sound', brief'⟩ := taken
    obtain ⟨after, run, facts⟩ := ih sound' brief' later
    exact ⟨after, .cons next run, facts⟩

/-- A registry whose first configuration sets the cluster can go through any permitted events. -/
theorem run_started (defaultOptions : SchedulerOptions) (queueSize models : ℕ) {first : DynamicConfig}
    {members : List ClusterMember} (sets : first.clusterMembers = some members) {events : List RegistryEvent}
    (permitted : ∀ event ∈ .setDynamicConfig first :: events, Permitted event) :
    ∃ after, Run (step defaultOptions) (init defaultOptions queueSize models)
        (.setDynamicConfig first :: events) after ∧ after.Sound ∧ WithinDay after.internalScheduler := by
  obtain ⟨allowed, later⟩ := List.forall_mem_cons.mp permitted
  have joined : (first.clusterMembers <|>
      (init defaultOptions queueSize models).internalScheduler.clusterMembers) = some members := by
    rw [sets]
    rfl
  obtain ⟨started, next, sound, brief⟩ :=
    setDynamicConfig_step (init_sound defaultOptions queueSize models) joined (allowed members sets)
  obtain ⟨after, run, facts⟩ := run_completes sound brief later
  exact ⟨after, .cons next run, facts⟩

/-- Whatever loads and configurations came before, a load leaves in the list and in the
map one manager for each of its ids and no other, those that were there already among them,
with schedulers that follow the internal one in the order of the ids. -/
theorem loaded_after_run (defaultOptions : SchedulerOptions) (queueSize models : ℕ) {first : DynamicConfig}
    {members : List ClusterMember} (sets : first.clusterMembers = some members)
    {events : List RegistryEvent} {marketIds : List ℕ} (distinct : marketIds.Nodup)
    (permitted : ∀ event ∈ .setDynamicConfig first :: events, Permitted event) :
    ∃ before after, Run (step defaultOptions) (init defaultOptions queueSize models)
        (.setDynamicConfig first :: events) before ∧
      before.loadMarkets defaultOptions marketIds.length marketIds = .ok after ∧
      Loaded before after marketIds.length marketIds := by
  obtain ⟨before, run, sound, brief⟩ := run_started defaultOptions queueSize models sets permitted
  obtain ⟨after, success, -, -, loaded⟩ := loadMarkets_loaded defaultOptions sound brief distinct marketIds.length
  exact ⟨before, after, run, success, loaded⟩

/-- The first market is replaced while the second one stays. -/
theorem loaded_after_replacement : ∃ before after,
    Run (step ⟨1000, 0, 0⟩) (init ⟨1000, 0, 0⟩ 2 1)
        [.setDynamicConfig { clusterMembers := some [⟨2000, .self⟩] }, .loadMarkets 2 [1, 2]] before ∧
      before.loadMarkets ⟨1000, 0, 0⟩ 2 [2, 3] = .ok after ∧ Loaded before after 2 [2, 3] := by
  have sets : ({ clusterMembers := some [⟨2000, .self⟩] } : DynamicConfig).clusterMembers =
      some [⟨2000, .self⟩] := rfl
  have distinct : [2, 3].Nodup := by decide
  refine loaded_after_run ⟨1000, 0, 0⟩ 2 1 sets distinct ?_
  intro event member
  rcases List.mem_cons.mp member with rfl | member
  · rintro members ⟨⟩
    norm_num [Scheduler.clusterInterval, hoursInADay, millisecondsInAnHour]
  · obtain rfl := List.mem_singleton.mp member
    exact (by decide : [1, 2].Nodup)

end MarketRegistry

end PriceFeed.Collectors
