import PriceFeed.Collectors.MarketRegistry
import PriceFeed.Library.SerialTable

/-! The two reads of `loadMarkets` among the writes of a seeder: the slots of the schedulers
stay in range unless a market becomes active between the reads. -/

namespace PriceFeed.Collectors

open PriceFeed.Library PriceFeed.Schedulers

structure Market where
  exchangeId : ℕ
  externalMarketId : String
  active : Bool
  deriving DecidableEq, Repr

abbrev MarketTable := SerialTable Market

namespace MarketTable

variable (table : MarketTable) (exchangeId : ℕ)

/-- The rows of `searchActiveByExchange`. -/
def searchActiveByExchange : List (ℕ × Market) :=
  table.rows.filter fun row => row.2.exchangeId = exchangeId ∧ row.2.active

def getQueueSize : ℕ := (table.searchActiveByExchange exchangeId).length

def getMarketIds : List ℕ := (table.searchActiveByExchange exchangeId).map Prod.fst

def resetMarketStatuses : MarketTable :=
  table.mapRows fun row =>
    if row.2.exchangeId = exchangeId then { row.2 with active := false } else row.2

def findMarket (externalMarketId : String) : Option (ℕ × Market) :=
  table.rows.find? fun row => row.2.exchangeId = exchangeId ∧ row.2.externalMarketId = externalMarketId

def activate (id : ℕ) (row : ℕ × Market) : Market :=
  if row.1 = id then { row.2 with active := true } else row.2

/-- `updateOrCreate` with `active: true`. -/
def updateOrCreateMarket (externalMarketId : String) : MarketTable :=
  match table.findMarket exchangeId externalMarketId with
  | some existingRecord => table.mapRows (activate existingRecord.1)
  | none => table.bulkCreate [⟨exchangeId, externalMarketId, true⟩]

end MarketTable

/-- A market of the seeder's configuration, and whether storing it throws. -/
structure Seed where
  externalMarketId : String
  throws : Bool := false
  deriving DecidableEq, Repr

/-- A market that cannot be stored is logged and left out. -/
def seedMarket (exchangeId : ℕ) (table : MarketTable) (seed : Seed) : MarketTable :=
  if seed.throws then table else table.updateOrCreateMarket exchangeId seed.externalMarketId

/-- The table after so many writes of `setupMarkets`, the reset being the first. -/
def setupMarkets (exchangeId : ℕ) (table : MarketTable) (markets : List Seed) : ℕ → MarketTable
  | 0 => table
  | writes + 1 => (markets.take writes).foldl (seedMarket exchangeId) (table.resetMarketStatuses exchangeId)

/-- The markets that are made active by seeds. -/
def stored (seeds : List Seed) : List String :=
  (seeds.filter fun seed => !seed.throws).map Seed.externalMarketId

/-- The different markets among the first so many seeds. -/
def seeded (markets : List Seed) (seeds : ℕ) : List String := (stored (markets.take seeds)).dedup

/-- Between the two reads, which come after so many writes each, no market is made active
that was not, or the reset takes place and at most as many markets are made active after
it as were before. -/
def KeepsSlots (exchangeId : ℕ) (table : MarketTable) (markets : List Seed) : ℕ → ℕ → Prop
  | 0, 0 => True
  | 0, second + 1 => (seeded markets second).length ≤ table.getQueueSize exchangeId
  | first + 1, second => seeded markets (second - 1) ⊆ seeded markets first

namespace MarketTable

variable {table : MarketTable} {exchangeId : ℕ} {stored : List String}

/-- The active markets are those that have been stored, each in the row that is found for it. -/
structure Holds (table : MarketTable) (exchangeId : ℕ) (stored : List String) : Prop where
  first : ∀ row ∈ table.searchActiveByExchange exchangeId,
    table.findMarket exchangeId row.2.externalMarketId = some row
  active : ∀ externalMarketId,
    externalMarketId ∈ (table.searchActiveByExchange exchangeId).map (fun row => row.2.externalMarketId) ↔
      externalMarketId ∈ stored

theorem mem_searchActiveByExchange {row : ℕ × Market} :
    row ∈ table.searchActiveByExchange exchangeId ↔
      row ∈ table.rows ∧ row.2.exchangeId = exchangeId ∧ row.2.active := by
  simp [searchActiveByExchange]

theorem Holds.getQueueSize (holds : table.Holds exchangeId stored) :
    table.getQueueSize exchangeId = stored.dedup.length := by
  have rows : (table.searchActiveByExchange exchangeId).Nodup :=
    table.distinct.of_map.filter _
  have distinct : ((table.searchActiveByExchange exchangeId).map fun row => row.2.externalMarketId).Nodup := by
    refine rows.map_on fun row member other also same => ?_
    have found := holds.first row member
    rw [same, holds.first other also] at found
    exact (Option.some.inj found).symm
  have permuted := (List.perm_ext_iff_of_nodup distinct stored.nodup_dedup).mpr fun externalMarketId => by
    rw [holds.active, List.mem_dedup]
  rw [MarketTable.getQueueSize, ← permuted.length_eq, List.length_map]

private theorem holds_resetMarketStatuses (table : MarketTable) (exchangeId : ℕ) :
    (table.resetMarketStatuses exchangeId).Holds exchangeId [] := by
  have none : (table.resetMarketStatuses exchangeId).searchActiveByExchange exchangeId = [] := by
    refine List.filter_eq_nil_iff.mpr fun row member => ?_
    obtain ⟨old, -, rfl⟩ := List.mem_map.mp member
    by_cases own : old.2.exchangeId = exchangeId
    · simp [own]
    · simp [own]
  exact ⟨by simp [none], by simp [none]⟩

private theorem findMarket_mapRows {change : ℕ × Market → Market}
    (kept : ∀ row, (change row).exchangeId = row.2.exchangeId ∧
      (change row).externalMarketId = row.2.externalMarketId) (externalMarketId : String) :
    MarketTable.findMarket (table.mapRows change) exchangeId externalMarketId =
      (table.findMarket exchangeId externalMarketId).map fun row => (row.1, change row) := by
  rw [findMarket, SerialTable.mapRows, List.find?_map, findMarket]
  congr 2
  funext row
  simp [kept row]

private theorem findMarket_some {externalMarketId : String} {row : ℕ × Market}
    (found : table.findMarket exchangeId externalMarketId = some row) :
    row ∈ table.rows ∧ row.2.exchangeId = exchangeId ∧ row.2.externalMarketId = externalMarketId := by
  have key := List.find?_some found
  exact ⟨List.mem_of_find?_eq_some found, by simpa using key⟩

theorem activate_self (row : ℕ × Market) : activate row.1 row = { row.2 with active := true } := if_pos rfl

theorem activate_of_ne {id : ℕ} {row : ℕ × Market} (other : row.1 ≠ id) : activate id row = row.2 := if_neg other

private theorem activate_keeps (id : ℕ) (row : ℕ × Market) : (activate id row).exchangeId = row.2.exchangeId ∧
    (activate id row).externalMarketId = row.2.externalMarketId := by
  unfold activate
  split
  · exact ⟨rfl, rfl⟩
  · exact ⟨rfl, rfl⟩

theorem mem_searchActiveByExchange_activate {existingRecord row : ℕ × Market}
    (present : existingRecord ∈ table.rows) (own : existingRecord.2.exchangeId = exchangeId) :
    row ∈ MarketTable.searchActiveByExchange (table.mapRows (activate existingRecord.1)) exchangeId ↔
      row = (existingRecord.1, activate existingRecord.1 existingRecord) ∨
        row.1 ≠ existingRecord.1 ∧ row ∈ table.searchActiveByExchange exchangeId := by
  rw [mem_searchActiveByExchange, mem_searchActiveByExchange]
  constructor
  · rintro ⟨changed, exchange, active⟩
    obtain ⟨old, before, rfl⟩ := List.mem_map.mp changed
    by_cases same : old.1 = existingRecord.1
    · rw [table.eq_of_id_eq before present same]
      exact .inl rfl
    · simp only [activate_of_ne same] at exchange active ⊢
      exact .inr ⟨same, before, exchange, active⟩
  · rintro (rfl | ⟨other, before, exchange, active⟩)
    · rw [activate_self]
      exact ⟨List.mem_map.mpr ⟨existingRecord, present, by rw [activate_self]⟩, own, rfl⟩
    · exact ⟨List.mem_map.mpr ⟨row, before, by rw [activate_of_ne other]⟩, exchange, active⟩

theorem Holds.activate (holds : table.Holds exchangeId stored) {externalMarketId : String}
    {existingRecord : ℕ × Market}
    (found : table.findMarket exchangeId externalMarketId = some existingRecord) :
    MarketTable.Holds (table.mapRows (MarketTable.activate existingRecord.1)) exchangeId
      (externalMarketId :: stored) := by
  obtain ⟨present, own, named⟩ := findMarket_some found
  have keeps := activate_keeps existingRecord.1
  refine ⟨fun row member => ?_, fun asked => ?_⟩
  · rw [findMarket_mapRows keeps]
    rcases (mem_searchActiveByExchange_activate present own).mp member with rfl | ⟨other, before⟩
    · rw [(keeps _).2, named, found]
      rfl
    · rw [holds.first row before, Option.map_some, activate_of_ne other]
  · rw [List.mem_cons, ← holds.active]
    constructor
    · intro member
      obtain ⟨row, active, rfl⟩ := List.mem_map.mp member
      rcases (mem_searchActiveByExchange_activate present own).mp active with rfl | ⟨-, before⟩
      · exact .inl ((keeps _).2.trans named)
      · exact .inr (List.mem_map_of_mem before)
    · intro member
      have made := (mem_searchActiveByExchange_activate present own).mpr (.inl rfl)
      have again := List.mem_map_of_mem (f := fun row => row.2.externalMarketId) made
      rw [(keeps _).2, named] at again
      rcases member with rfl | member
      · exact again
      · obtain ⟨row, before, rfl⟩ := List.mem_map.mp member
        by_cases same : row.1 = existingRecord.1
        · obtain rfl := table.eq_of_id_eq (mem_searchActiveByExchange.mp before).1 present same
          rw [named]
          exact again
        · have kept := (mem_searchActiveByExchange_activate present own).mpr (.inr ⟨same, before⟩)
          exact List.mem_map_of_mem kept

theorem Holds.create (holds : table.Holds exchangeId stored) {externalMarketId : String}
    (absent : table.findMarket exchangeId externalMarketId = none) :
    MarketTable.Holds (table.bulkCreate [⟨exchangeId, externalMarketId, true⟩]) exchangeId
      (externalMarketId :: stored) := by
  have rows : MarketTable.searchActiveByExchange (table.bulkCreate [⟨exchangeId, externalMarketId, true⟩])
      exchangeId = table.searchActiveByExchange exchangeId ++
        [(table.nextId, ⟨exchangeId, externalMarketId, true⟩)] := by
    rw [searchActiveByExchange, searchActiveByExchange, SerialTable.bulkCreate, List.filter_append]
    simp [SerialTable.numbered]
  have lookup : ∀ asked, MarketTable.findMarket (table.bulkCreate [⟨exchangeId, externalMarketId, true⟩])
      exchangeId asked = (table.findMarket exchangeId asked).or
        (if externalMarketId = asked then some (table.nextId, ⟨exchangeId, externalMarketId, true⟩) else none) := by
    intro asked
    rw [findMarket, findMarket, SerialTable.bulkCreate, List.find?_append]
    congr 1
    by_cases same : externalMarketId = asked
    · simp [SerialTable.numbered, same]
    · simp [SerialTable.numbered, same]
  refine ⟨fun row member => ?_, fun asked => ?_⟩
  · rw [lookup]
    rw [rows] at member
    rcases List.mem_append.mp member with before | new
    · rw [holds.first row before, Option.some_or]
    · obtain rfl := List.mem_singleton.mp new
      rw [absent, Option.none_or, if_pos rfl]
  · rw [rows, List.map_append, List.mem_append, holds.active, List.mem_cons, or_comm]
    simp

theorem Holds.updateOrCreateMarket (holds : table.Holds exchangeId stored) (externalMarketId : String) :
    (table.updateOrCreateMarket exchangeId externalMarketId).Holds exchangeId (externalMarketId :: stored) := by
  rw [MarketTable.updateOrCreateMarket]
  cases found : table.findMarket exchangeId externalMarketId with
  | none => exact holds.create found
  | some existingRecord => exact holds.activate found

theorem Holds.foldl (holds : table.Holds exchangeId stored) (seeds : List Seed) :
    (seeds.foldl (seedMarket exchangeId) table).Holds exchangeId
      ((Collectors.stored seeds).reverse ++ stored) := by
  induction seeds generalizing table stored with
  | nil => exact holds
  | cons seed rest ih =>
    rw [List.foldl_cons, seedMarket]
    by_cases throws : seed.throws
    · rw [if_pos throws]
      have same : Collectors.stored (seed :: rest) = Collectors.stored rest := by
        simp [Collectors.stored, throws]
      rw [same]
      exact ih holds
    · rw [if_neg throws]
      have same : Collectors.stored (seed :: rest) = seed.externalMarketId :: Collectors.stored rest := by
        simp [Collectors.stored, throws]
      rw [same, List.reverse_cons, List.append_assoc]
      exact ih (holds.updateOrCreateMarket seed.externalMarketId)

theorem getQueueSize_setupMarkets (exchangeId : ℕ) (table : MarketTable) (markets : List Seed) (seeds : ℕ) :
    (setupMarkets exchangeId table markets (seeds + 1)).getQueueSize exchangeId =
      (seeded markets seeds).length := by
  have holds := (holds_resetMarketStatuses table exchangeId).foldl (markets.take seeds)
  rw [List.append_nil] at holds
  refine holds.getQueueSize.trans ?_
  exact (List.reverse_perm _).dedup.length_eq

end MarketTable

private theorem seeded_mono {markets : List Seed} {fewer more : ℕ} (less : fewer ≤ more) :
    seeded markets fewer ⊆ seeded markets more := by
  intro externalMarketId member
  rw [seeded, List.mem_dedup] at member ⊢
  refine List.map_subset _ (List.Sublist.subset ?_) member
  exact List.Sublist.filter _ (List.take_sublist_take_left less)

private theorem getQueueSize_le_iff {exchangeId : ℕ} {table : MarketTable} {markets : List Seed}
    {firstRead secondRead : ℕ} (order : firstRead ≤ secondRead) :
    (setupMarkets exchangeId table markets secondRead).getQueueSize exchangeId ≤
        (setupMarkets exchangeId table markets firstRead).getQueueSize exchangeId ↔
      KeepsSlots exchangeId table markets firstRead secondRead := by
  cases secondRead with
  | zero =>
    obtain rfl := Nat.le_zero.mp order
    exact iff_of_true le_rfl trivial
  | succ second =>
    rw [MarketTable.getQueueSize_setupMarkets]
    cases firstRead with
    | zero => exact Iff.rfl
    | succ first =>
      rw [MarketTable.getQueueSize_setupMarkets, KeepsSlots, Nat.add_sub_cancel]
      have grows : seeded markets first ⊆ seeded markets second :=
        seeded_mono (Nat.le_of_succ_le_succ order)
      have distinct : ∀ seeds, (seeded markets seeds).Nodup := fun seeds => List.nodup_dedup _
      constructor
      · intro within
        exact ((List.subperm_of_subset (distinct first) grows).perm_of_length_le within).symm.subset
      · intro none
        exact (List.subperm_of_subset (distinct second) none).length_le

section Slots

/-- What division by zero gives in the runtime is not a finite number. -/
def quotient (dividend divisor : ℚ) : Option ℚ :=
  if divisor = 0 then none else some (dividend / divisor)

/-- The distance between the operations is a finite number, so all delays are. -/
structure FiniteDelays (scheduler : Scheduler) : Prop where
  queueSize : scheduler.queueSize ≠ 0
  distance : quotient scheduler.intraClusterDistance
    (scheduler.queueSize * scheduler.operations * scheduler.replicaSize) =
      some scheduler.intraIntervalDistance
  batchDelay : scheduler.getOperationsBatchDelay.isSome

/-- What `startScheduler` passes on for so many models. -/
structure StartConfig (models : ℕ) (config : DynamicConfig) : Prop where
  operations : config.operations = some models
  queueSize : config.queueSize = none
  replicaSize : ∀ replicaSize ∈ config.replicaSize, 0 < replicaSize

/-- Every scheduler has a position below its queue size, and finite delays once it is started. -/
structure SlotsInRange (registry : MarketRegistry) (models : ℕ) : Prop where
  positions : ∀ manager ∈ registry.collectorsManagers, ∃ scheduler position,
    registry.schedulers manager.scheduler = some scheduler ∧
    scheduler.queuePosition = some position ∧ position < scheduler.queueSize
  delays : ∀ manager ∈ registry.collectorsManagers, ∀ scheduler config started,
    registry.schedulers manager.scheduler = some scheduler → StartConfig models config →
    scheduler.setDynamicConfig config = .ok started → FiniteDelays started

variable {before after : MarketRegistry} {queueSize models : ℕ} {marketIds : List ℕ}

private theorem MarketRegistry.Loaded.follows_listed (loaded : Loaded before after queueSize marketIds)
    {manager : CollectorsManager} (listed : manager ∈ after.collectorsManagers) :
    ∃ position scheduler, marketIds[position]? = some manager.marketId ∧
      after.schedulers manager.scheduler = some scheduler ∧
      Follows after.internalScheduler position scheduler := by
  have member := loaded.listed manager listed
  obtain ⟨position, found⟩ := List.mem_iff_getElem?.mp member
  obtain ⟨own, -, mapped, single⟩ := loaded.same _ member
  obtain ⟨other, scheduler, held, present, follows⟩ := loaded.follows position _ found
  obtain rfl := Option.some.inj (mapped.symm.trans held)
  have same : manager ∈ [own] := by
    rw [← single]
    exact List.mem_filter.mpr ⟨listed, by simp⟩
  obtain rfl := List.mem_singleton.mp same
  exact ⟨position, scheduler, found, present, follows⟩

private theorem finiteDelays_of_follows {internal scheduler started : Scheduler} {position : ℕ} {config : DynamicConfig}
    (follows : MarketRegistry.Follows internal position scheduler) (within : position < scheduler.queueSize)
    (replicas : 0 < internal.replicaSize) (operated : 0 < models) (start : StartConfig models config)
    (success : scheduler.setDynamicConfig config = .ok started) : FiniteDelays started := by
  obtain ⟨members, -, timing⟩ := Scheduler.exists_timing success
  have fields := timing.unchanged
  have queueSize : started.queueSize = scheduler.queueSize := by
    rw [fields]
    simp [Scheduler.assign, start.queueSize]
  have operations : started.operations = models := by
    rw [fields]
    simp [Scheduler.assign, start.operations]
  have replicaSize : 0 < started.replicaSize := by
    rw [fields]
    cases given : config.replicaSize with
    | none => simpa [Scheduler.assign, given, follows.replicaSize] using replicas
    | some replicaSize => simpa [Scheduler.assign, given] using start.replicaSize replicaSize given
  have position : started.queuePosition.isSome := by
    rw [fields]
    simp only [Scheduler.assign]
    cases config.queuePosition with
    | none => simp [follows.queuePosition]
    | some _ => rfl
  have assigned : (scheduler.assign config).queueSize = started.queueSize ∧
      (scheduler.assign config).operations = started.operations ∧
      (scheduler.assign config).replicaSize = started.replicaSize := by
    rw [fields]
    exact ⟨rfl, rfl, rfl⟩
  refine ⟨by omega, ?_, ?_⟩
  · have positive : (started.queueSize * started.operations * started.replicaSize : ℚ) ≠ 0 := by
      rw [queueSize, operations]
      have slots : 0 < scheduler.queueSize := by omega
      positivity
    rw [quotient, if_neg positive, timing.intervalDistance, assigned.1, assigned.2.1, assigned.2.2]
  · obtain ⟨slot, placed⟩ := Option.isSome_iff_exists.mp position
    simp [Scheduler.getOperationsBatchDelay, placed]

/-- The slots are in range exactly when the list that is loaded is at most as long as the
queue. -/
theorem MarketRegistry.Loaded.slotsInRange_iff (loaded : Loaded before after queueSize marketIds)
    (replicas : 0 < after.internalScheduler.replicaSize) (operated : 0 < models) :
    SlotsInRange after models ↔ marketIds.length ≤ queueSize := by
  constructor
  · intro slots
    rcases marketIds.eq_nil_or_concat with rfl | ⟨rest, last, rfl⟩
    · exact Nat.zero_le _
    · obtain ⟨manager, scheduler, found, present, follows⟩ := loaded.follows rest.length last (by simp)
      obtain ⟨own, -, mapped, single⟩ := loaded.same last (by simp)
      obtain rfl := Option.some.inj (mapped.symm.trans found)
      have listed : own ∈ after.collectorsManagers := by
        refine List.mem_of_mem_filter (p := fun manager => manager.marketId = last) ?_
        rw [single]
        exact List.mem_singleton_self own
      obtain ⟨held, position, also, placed, within⟩ := slots.positions own listed
      obtain rfl := Option.some.inj (present.symm.trans also)
      rw [follows.queuePosition, Option.some.injEq] at placed
      rw [follows.queueSize, loaded.queueSize, ← placed] at within
      simpa [Nat.succ_le_iff] using within
  · intro most
    have within : ∀ manager ∈ after.collectorsManagers, ∃ position scheduler,
        after.schedulers manager.scheduler = some scheduler ∧
        Follows after.internalScheduler position scheduler ∧ position < scheduler.queueSize := by
      intro manager listed
      obtain ⟨position, scheduler, found, present, follows⟩ := loaded.follows_listed listed
      obtain ⟨inside, -⟩ := List.getElem?_eq_some_iff.mp found
      refine ⟨position, scheduler, present, follows, ?_⟩
      rw [follows.queueSize, loaded.queueSize]
      omega
    refine ⟨fun manager listed => ?_, fun manager listed scheduler config started present start success => ?_⟩
    · obtain ⟨position, scheduler, present, follows, inside⟩ := within manager listed
      exact ⟨scheduler, position, present, follows.queuePosition, inside⟩
    · obtain ⟨position, held, also, follows, inside⟩ := within manager listed
      obtain rfl := Option.some.inj (present.symm.trans also)
      exact finiteDelays_of_follows follows inside replicas operated start success

/-- Whatever has been loaded before, the slots that a load gives out among the writes of a
seeder are in range, and the delays finite, exactly when the reads keep the slots. -/
theorem loadMarkets_slotsInRange_iff (defaultOptions : SchedulerOptions) {firstConfig : DynamicConfig}
    {members : List ClusterMember} (sets : firstConfig.clusterMembers = some members)
    {events : List RegistryEvent}
    (permitted : ∀ event ∈ .setDynamicConfig firstConfig :: events, MarketRegistry.Permitted event)
    (run : Run (MarketRegistry.step defaultOptions) (MarketRegistry.init defaultOptions queueSize models)
      (.setDynamicConfig firstConfig :: events) before)
    (replicas : 0 < before.internalScheduler.replicaSize) (operated : 0 < models)
    {exchangeId firstRead secondRead : ℕ} {table : MarketTable} {markets : List Seed}
    (order : firstRead ≤ secondRead)
    (listed : marketIds.Perm ((setupMarkets exchangeId table markets secondRead).getMarketIds exchangeId)) :
    ∃ after, before.loadMarkets defaultOptions
        ((setupMarkets exchangeId table markets firstRead).getQueueSize exchangeId) marketIds = .ok after ∧
      (SlotsInRange after models ↔ KeepsSlots exchangeId table markets firstRead secondRead) := by
  obtain ⟨reached, also, sound, brief⟩ :=
    MarketRegistry.run_started defaultOptions queueSize models sets permitted
  obtain rfl := Option.some.inj ((run_iff_execute.mp also).symm.trans (run_iff_execute.mp run))
  have distinct : marketIds.Nodup := by
    refine listed.nodup_iff.mpr ?_
    exact (SerialTable.distinct _).sublist (List.filter_sublist.map Prod.fst)
  obtain ⟨after, success, -, internal, loaded⟩ :=
    MarketRegistry.loadMarkets_loaded defaultOptions sound brief distinct _
  refine ⟨after, success, ?_⟩
  rw [loaded.slotsInRange_iff (by rw [internal]; exact replicas) operated, listed.length_eq,
    MarketTable.getMarketIds, List.length_map]
  exact getQueueSize_le_iff order

section OneMarket

def oneCluster : DynamicConfig := { clusterMembers := some [⟨2000, .self⟩] }

def oneMarket : MarketTable := SerialTable.empty.bulkCreate [⟨1, "XRP/USD", true⟩]

theorem oneCluster_permitted : ∀ event ∈ [.setDynamicConfig oneCluster], MarketRegistry.Permitted event := by
  intro event member
  obtain rfl := List.mem_singleton.mp member
  rintro members ⟨⟩
  norm_num [Scheduler.clusterInterval, hoursInADay, millisecondsInAnHour]

theorem oneCluster_started : ∃ before,
    Run (MarketRegistry.step ⟨1000, 0, 0⟩) (MarketRegistry.init ⟨1000, 0, 0⟩ 1 1)
      [.setDynamicConfig oneCluster] before ∧
    before.Sound ∧ MarketRegistry.WithinDay before.internalScheduler ∧
    before.internalScheduler.replicaSize = 1 := by
  obtain ⟨before, run, sound, brief⟩ :=
    MarketRegistry.run_started ⟨1000, 0, 0⟩ 1 1 rfl oneCluster_permitted
  refine ⟨before, run, sound, brief, ?_⟩
  cases run with
  | cons next rest =>
    cases rest
    cases success : (MarketRegistry.init ⟨1000, 0, 0⟩ 1 1).internalScheduler.setDynamicConfig oneCluster with
    | error error => simp [MarketRegistry.step, success] at next
    | ok configured =>
      simp only [MarketRegistry.step, success, Option.some.injEq] at next
      rw [← next, Scheduler.setDynamicConfig_ok success]
      rfl

/-- Both reads come after the market has been made active again. -/
theorem slotsInRange_afterSeeding : ∃ before after : MarketRegistry,
    before.loadMarkets ⟨1000, 0, 0⟩ ((setupMarkets 1 oneMarket [⟨"XRP/USD", false⟩] 2).getQueueSize 1) [1] =
        .ok after ∧ SlotsInRange after 1 := by
  obtain ⟨before, run, -, -, replicas⟩ := oneCluster_started
  have listed : [1].Perm ((setupMarkets 1 oneMarket [⟨"XRP/USD", false⟩] 2).getMarketIds 1) :=
    List.Perm.of_eq rfl
  have positive : 0 < before.internalScheduler.replicaSize := by omega
  obtain ⟨after, success, inRange⟩ := loadMarkets_slotsInRange_iff ⟨1000, 0, 0⟩ rfl oneCluster_permitted run
    positive Nat.one_pos (le_refl 2) listed
  exact ⟨before, after, success, inRange.mpr fun _ member => member⟩

/-- The size is read after the reset, and the list after the market has been made active. -/
theorem slot_outOfRange : ∃ before after,
    Run (MarketRegistry.step ⟨1000, 0, 0⟩) (MarketRegistry.init ⟨1000, 0, 0⟩ 1 1)
      [.setDynamicConfig oneCluster] before ∧
    before.loadMarkets ⟨1000, 0, 0⟩ ((setupMarkets 1 oneMarket [⟨"XRP/USD", false⟩] 1).getQueueSize 1)
      ((setupMarkets 1 oneMarket [⟨"XRP/USD", false⟩] 2).getMarketIds 1) = .ok after ∧
    (∃ manager scheduler, after.collectorsManagersMap.get? 1 = some manager ∧
      after.schedulers manager.scheduler = some scheduler ∧
      scheduler.queuePosition = some 0 ∧ scheduler.queueSize = 0) ∧
    ¬ SlotsInRange after 1 := by
  obtain ⟨before, run, sound, brief, replicas⟩ := oneCluster_started
  have distinct : [1].Nodup := List.nodup_singleton 1
  obtain ⟨after, success, -, internal, loaded⟩ :=
    MarketRegistry.loadMarkets_loaded ⟨1000, 0, 0⟩ sound brief distinct 0
  have positive : 0 < after.internalScheduler.replicaSize := by
    rw [internal]
    exact replicas ▸ Nat.one_pos
  refine ⟨before, after, run, success, ?_, fun slots => ?_⟩
  · obtain ⟨manager, scheduler, found, present, follows⟩ := loaded.follows 0 1 rfl
    exact ⟨manager, scheduler, found, present, follows.queuePosition, follows.queueSize.trans loaded.queueSize⟩
  · have short := (loaded.slotsInRange_iff positive Nat.one_pos).mp slots
    cases short

end OneMarket

end Slots

end PriceFeed.Collectors
