import Mathlib.Algebra.Order.Floor.Div
import Mathlib.Data.PNat.Basic
import PriceFeed.Library.LeastLoaded
import PriceFeed.Library.Runs

/-! `ProcessAllocator`: the exchanges of a group spread over processes, one for each CPU
and more where these are full. -/

namespace PriceFeed.Collectors

open PriceFeed.Library

/-- The configuration; its schema asks for positive integers. -/
structure ProcessAllocation where
  potentialExchangeSize : ℕ+
  tolerableProcessSize : ℕ+
  tolerableParallelExchanges : ℕ+

structure ProcessAllocator extends ProcessAllocation where
  exchangesPerProcess : ℕ
  cpuCount : ℕ

/-- The constructor. `cpuCount` is the number of CPUs of the host. -/
def ProcessAllocation.processAllocator (config : ProcessAllocation) (cpuCount : ℕ) : ProcessAllocator :=
  { config with
    exchangesPerProcess := min config.tolerableParallelExchanges
      (config.tolerableProcessSize / config.potentialExchangeSize : ℕ)
    cpuCount := cpuCount }

/-- The variables of the loop in `allocateExchangeBins`. -/
structure Allocation (Exchange : Type*) where
  bins : List (List Exchange)
  bestBinIndex : ℕ
  deriving DecidableEq, Repr

variable {Exchange : Type*}

/-- The first bin smaller than the last choice, or that choice again. Reading a bin that is
not there throws. -/
def getNextBestBinIndex (bins : List (List Exchange)) (bestBinIndex : ℕ) : Option ℕ :=
  if bins.isEmpty then some bestBinIndex
  else bins[bestBinIndex]?.map fun best =>
    (bins.findIdx? fun bin => bin.length < best.length).getD bestBinIndex

namespace ProcessAllocator

variable (allocator : ProcessAllocator)

def shouldExpandBins (bins : List (List Exchange)) : Bool :=
  bins.all fun bin => allocator.exchangesPerProcess ≤ bin.length

/-- The callback of `forEach`. Pushing to a bin that is not there throws. -/
def allocateExchange (allocation : Allocation Exchange) (exchange : Exchange) :
    Option (Allocation Exchange) :=
  (getNextBestBinIndex allocation.bins allocation.bestBinIndex).bind fun bestBinIndex =>
    if bestBinIndex < allocation.bins.length then
      let bins := placeItem allocation.bins bestBinIndex exchange
      some ⟨if allocator.shouldExpandBins bins then bins ++ [[]] else bins, bestBinIndex⟩
    else none

def allocateExchangeBins (exchanges : List Exchange) : Option (List (List Exchange)) :=
  (execute allocator.allocateExchange ⟨List.replicate allocator.cpuCount [], 0⟩ exchanges).map
    fun allocation => allocation.bins.filter fun bin => bin.length ≠ 0

/-- What the bins should be. No extra bin was needed if there are no more than CPUs. -/
structure BalancedPartition (exchanges : List Exchange) (bins : List (List Exchange)) : Prop where
  contents : bins.flatten.Perm exchanges
  nonempty : ∀ bin ∈ bins, bin ≠ []
  capacity : ∀ bin ∈ bins, bin.length ≤ allocator.exchangesPerProcess
  number : bins.length =
    min exchanges.length (max allocator.cpuCount (exchanges.length ⌈/⌉ allocator.exchangesPerProcess))
  balanced : bins.length ≤ allocator.cpuCount → Balanced bins

/-- The bins before any is full: those of the CPUs, one apart at most. -/
structure Levelling (bins : List (List Exchange)) : Prop where
  initial : bins.length = allocator.cpuCount
  balanced : Balanced bins

/-- The bins once those of the CPUs are full: only the last one is not. -/
def Expanded (bins : List (List Exchange)) : Prop :=
  ∃ full last, bins = full ++ [last] ∧ allocator.cpuCount ≤ full.length ∧
    (∀ bin ∈ full, bin.length = allocator.exchangesPerProcess) ∧
      last.length < allocator.exchangesPerProcess

/-- The bins smaller than the last choice are of one size, so the first of them is a least one. -/
structure Filling (allocation : Allocation Exchange) : Prop where
  choice : ∃ best, allocation.bins[allocation.bestBinIndex]? = some best ∧
    ∀ bin ∈ allocation.bins, bin.length < best.length → Least allocation.bins bin
  room : ∃ bin ∈ allocation.bins, bin.length < allocator.exchangesPerProcess
  shape : allocator.Levelling allocation.bins ∨ allocator.Expanded allocation.bins

variable {allocator} {allocation next : Allocation Exchange} {exchange : Exchange}

private theorem shouldExpandBins_iff {bins : List (List Exchange)} : allocator.shouldExpandBins bins = true ↔
    ∀ bin ∈ bins, allocator.exchangesPerProcess ≤ bin.length := by
  simp [shouldExpandBins]

theorem exists_spare {bins : List (List Exchange)} (spare : allocator.shouldExpandBins bins = false) :
    ∃ bin ∈ bins, bin.length < allocator.exchangesPerProcess := by
  simpa [shouldExpandBins] using spare

private theorem Filling.chooses (filling : allocator.Filling allocation) :
    ∃ index bin, getNextBestBinIndex allocation.bins allocation.bestBinIndex = some index ∧
      allocation.bins[index]? = some bin ∧ Least allocation.bins bin := by
  obtain ⟨best, found, least⟩ := filling.choice
  have present : allocation.bins.isEmpty = false := by
    rw [List.isEmpty_eq_false_iff]
    exact List.ne_nil_of_mem (List.mem_of_getElem? found)
  simp only [getNextBestBinIndex, present, found, Option.map_some, Bool.false_eq_true, if_false]
  cases smaller : allocation.bins.findIdx? fun bin => bin.length < best.length with
  | none =>
    refine ⟨_, best, rfl, found, fun other member => ?_⟩
    have larger := List.findIdx?_eq_none_iff.mp smaller other member
    simpa using larger
  | some index =>
    obtain ⟨inside, below, _⟩ := List.findIdx?_eq_some_iff_getElem.mp smaller
    have below : (allocation.bins[index]).length < best.length := of_decide_eq_true below
    exact ⟨index, _, rfl, List.getElem?_eq_getElem inside, least _ (List.getElem_mem inside) below⟩

private theorem Filling.allocates (filling : allocator.Filling allocation) (exchange : Exchange) :
    ∃ index bin, allocation.bins[index]? = some bin ∧ Least allocation.bins bin ∧
      bin.length < allocator.exchangesPerProcess ∧
      allocator.allocateExchange allocation exchange =
        some ⟨if allocator.shouldExpandBins (placeItem allocation.bins index exchange) then
            placeItem allocation.bins index exchange ++ [[]]
          else placeItem allocation.bins index exchange, index⟩ := by
  obtain ⟨index, bin, chosen, found, least⟩ := filling.chooses
  obtain ⟨spare, member, room⟩ := filling.room
  have inside : index < allocation.bins.length := (List.getElem?_eq_some_iff.mp found).1
  refine ⟨index, bin, found, least, (least spare member).trans_lt room, ?_⟩
  rw [allocateExchange, chosen, Option.bind_some, if_pos inside]

/-- The shape of the bins after a placement, before they are expanded. -/
theorem Expanded.place {bins : List (List Exchange)} {index : ℕ} {bin : List Exchange}
    (expanded : allocator.Expanded bins) (found : bins[index]? = some bin)
    (room : bin.length < allocator.exchangesPerProcess) (exchange : Exchange) :
    ∃ full, placeItem bins index exchange = full ++ [bin ++ [exchange]] ∧
      allocator.cpuCount ≤ full.length ∧ ∀ bin ∈ full, bin.length = allocator.exchangesPerProcess := by
  obtain ⟨full, last, rfl, many, filled, _⟩ := expanded
  have inside : index < (full ++ [last]).length := (List.getElem?_eq_some_iff.mp found).1
  have beyond : full.length ≤ index := by
    by_contra before
    rw [List.getElem?_append_left (Nat.lt_of_not_le before)] at found
    have size := filled bin (List.mem_of_getElem? found)
    omega
  rw [List.length_append, List.length_singleton] at inside
  obtain rfl : index = full.length := by omega
  have same : last = bin := by simpa using found
  rw [same]
  exact ⟨full, placeItem_concat full bin exchange, many, filled⟩

/-- The last choice after a placement: what is smaller has the size it had before. -/
private theorem choice_placeItem {bins : List (List Exchange)} {index : ℕ} {bin : List Exchange}
    (found : bins[index]? = some bin) (least : Least bins bin) :
    ∀ other ∈ placeItem bins index exchange, other.length < (bin ++ [exchange]).length →
      Least (placeItem bins index exchange) other := by
  intro other _ smaller
  rw [List.length_append, List.length_singleton] at smaller
  intro third present
  rcases mem_placeItem found present with rfl | old
  · rw [List.length_append, List.length_singleton]
    omega
  · have above := least third old
    omega

/-- A choice of a least bin keeps the shape while the bins are not full. -/
private theorem Filling.fill {index : ℕ} {bin : List Exchange} (filling : allocator.Filling allocation)
    (found : allocation.bins[index]? = some bin) (least : Least allocation.bins bin)
    (room : bin.length < allocator.exchangesPerProcess)
    (spare : allocator.shouldExpandBins (placeItem allocation.bins index exchange) = false) :
    allocator.Filling ⟨placeItem allocation.bins index exchange, index⟩ where
  choice := ⟨bin ++ [exchange], getElem?_placeItem found, choice_placeItem found least⟩
  room := exists_spare spare
  shape := by
    cases filling.shape with
    | inl levelling =>
      exact .inl ⟨length_placeItem.trans levelling.initial, levelling.balanced.place found least⟩
    | inr expanded =>
      obtain ⟨full, placed, many, filled⟩ := expanded.place found room exchange
      refine .inr ⟨full, bin ++ [exchange], placed, many, filled, ?_⟩
      obtain ⟨other, member, below⟩ := exists_spare spare
      rw [placed] at member
      rcases List.mem_append.mp member with old | new
      · exact absurd (filled other old) below.ne
      · rwa [List.mem_singleton.mp new] at below

/-- When the last of the bins is full, all of them are, and an empty one follows. -/
private theorem Filling.expand {index : ℕ} {bin : List Exchange} (filling : allocator.Filling allocation)
    (found : allocation.bins[index]? = some bin)
    (room : bin.length < allocator.exchangesPerProcess)
    (closed : allocator.shouldExpandBins (placeItem allocation.bins index exchange) = true) :
    allocator.Filling ⟨placeItem allocation.bins index exchange ++ [[]], index⟩ := by
  have least := shouldExpandBins_iff.mp closed
  have positive : 0 < allocator.exchangesPerProcess := Nat.zero_lt_of_lt room
  have filled : allocator.cpuCount ≤ (placeItem allocation.bins index exchange).length ∧
      ∀ other ∈ placeItem allocation.bins index exchange,
        other.length = allocator.exchangesPerProcess := by
    cases filling.shape with
    | inl levelling =>
      refine ⟨(length_placeItem.trans levelling.initial).ge, fun other member => ?_⟩
      refine Nat.le_antisymm ?_ (least other member)
      rcases mem_placeItem found member with rfl | old
      · rw [List.length_append, List.length_singleton]
        exact room
      · exact (levelling.balanced other old bin (List.mem_of_getElem? found)).trans room
    | inr expanded =>
      obtain ⟨full, placed, many, filled⟩ := expanded.place found room exchange
      rw [placed] at least ⊢
      refine ⟨by rw [List.length_append]; omega, fun other member => ?_⟩
      rcases List.mem_append.mp member with old | new
      · exact filled other old
      · refine Nat.le_antisymm ?_ (least other member)
        rw [List.mem_singleton.mp new, List.length_append, List.length_singleton]
        exact room
  refine ⟨⟨bin ++ [exchange], ?_, ?_⟩, ⟨[], by simp, positive⟩,
    .inr ⟨_, [], rfl, filled.1, filled.2, positive⟩⟩
  · have inside : index < (placeItem allocation.bins index exchange).length := by
      rw [length_placeItem]
      exact (List.getElem?_eq_some_iff.mp found).1
    rw [List.getElem?_append_left inside]
    exact getElem?_placeItem found
  · intro other member smaller
    rw [List.length_append, List.length_singleton] at smaller
    rcases List.mem_append.mp member with old | new
    · have size := least other old
      omega
    · rw [List.mem_singleton.mp new]
      exact fun _ _ => Nat.zero_le _

theorem filling_step (filling : allocator.Filling allocation) (exchange : Exchange) :
    ∃ next, allocator.allocateExchange allocation exchange = some next ∧ allocator.Filling next := by
  obtain ⟨index, bin, found, least, room, taken⟩ := filling.allocates exchange
  refine ⟨_, taken, ?_⟩
  cases full : allocator.shouldExpandBins (placeItem allocation.bins index exchange) with
  | true => exact filling.expand found room full
  | false => exact filling.fill found least room full

theorem filling_initial (cpus : 1 ≤ allocator.cpuCount) (tolerated : 1 ≤ allocator.exchangesPerProcess) :
    allocator.Filling (⟨List.replicate allocator.cpuCount [], 0⟩ : Allocation Exchange) := by
  have empty : ∀ bin ∈ List.replicate allocator.cpuCount ([] : List Exchange), bin = [] := fun bin member =>
    List.eq_of_mem_replicate member
  have first : ([] : List Exchange) ∈ List.replicate allocator.cpuCount [] :=
    List.mem_replicate.mpr ⟨Nat.one_le_iff_ne_zero.mp cpus, rfl⟩
  refine ⟨⟨[], ?_, fun _ _ smaller => absurd smaller (Nat.not_lt_zero _)⟩, ⟨[], first, tolerated⟩,
    .inl ⟨List.length_replicate, fun bin member other _ => ?_⟩⟩
  · exact List.getElem?_replicate.trans (if_pos cpus)
  · rw [empty bin member]
    exact Nat.zero_le _

private theorem contents_step (taken : allocator.allocateExchange allocation exchange = some next) :
    next.bins.flatten.Perm (exchange :: allocation.bins.flatten) := by
  obtain ⟨index, _, taken⟩ := Option.bind_eq_some_iff.mp taken
  obtain ⟨inside, rfl⟩ := enabled taken
  have placed : (placeItem allocation.bins index exchange).flatten.Perm
      (exchange :: allocation.bins.flatten) := flatten_placeItem (List.getElem?_eq_getElem inside)
  split
  · rwa [List.flatten_append, List.flatten_singleton, List.append_nil]
  · exact placed

private theorem run_contents {exchanges : List Exchange} {start last : Allocation Exchange}
    (run : Run allocator.allocateExchange start exchanges last) :
    last.bins.flatten.Perm (exchanges ++ start.bins.flatten) := by
  induction run with
  | nil => exact List.Perm.refl _
  | cons taken _ ih =>
    refine ih.trans (((contents_step taken).append_left _).trans ?_)
    exact List.perm_middle

section Partition

variable {exchanges : List Exchange}

theorem partition_of_bins {bins : List (List Exchange)} (contents : bins.flatten.Perm exchanges)
    (capacity : ∀ bin ∈ bins, bin.length ≤ allocator.exchangesPerProcess)
    (number : (bins.filter fun bin => bin.length ≠ 0).length =
      min exchanges.length (max allocator.cpuCount (exchanges.length ⌈/⌉ allocator.exchangesPerProcess)))
    (balanced : (bins.filter fun bin => bin.length ≠ 0).length ≤ allocator.cpuCount →
      Balanced (bins.filter fun bin => bin.length ≠ 0)) :
    allocator.BalancedPartition exchanges (bins.filter fun bin => bin.length ≠ 0) where
  contents := by
    rw [flatten_nonempty]
    exact contents
  nonempty := by
    rintro bin member rfl
    simpa using List.of_mem_filter member
  capacity bin member := capacity bin (List.mem_of_mem_filter member)
  number := number
  balanced := balanced

/-- While the bins of the CPUs fill, they are enough. -/
theorem Levelling.partition (levelling : allocator.Levelling allocation.bins)
    (room : ∃ bin ∈ allocation.bins, bin.length < allocator.exchangesPerProcess)
    (contents : allocation.bins.flatten.Perm exchanges) :
    allocator.BalancedPartition exchanges (allocation.bins.filter fun bin => bin.length ≠ 0) := by
  obtain ⟨spare, held, room⟩ := room
  have capacity : ∀ bin ∈ allocation.bins, bin.length ≤ allocator.exchangesPerProcess := fun bin member =>
    (levelling.balanced bin member spare held).trans room
  have enough : exchanges.length ⌈/⌉ allocator.exchangesPerProcess ≤ allocator.cpuCount := by
    rw [ceilDiv_le_iff_le_mul (Nat.zero_lt_of_lt room), mul_comm, ← contents.length_eq, ← levelling.initial]
    exact length_flatten_le capacity
  refine partition_of_bins contents capacity ?_ ?_
  · rw [length_nonempty_of_balanced levelling.balanced, contents.length_eq, levelling.initial,
      max_eq_left enough]
  · exact fun _ bin member other held => levelling.balanced bin (List.mem_of_mem_filter member) other
      (List.mem_of_mem_filter held)

/-- A number of bins that hold the items, and would not with one less. -/
theorem number_of_bounds {count items capacity : ℕ} (positive : 0 < capacity)
    (many : allocator.cpuCount ≤ count) (enough : items ≤ capacity * count)
    (needed : capacity * count < items + capacity) :
    count = min items (max allocator.cpuCount (items ⌈/⌉ capacity)) := by
  have least : items ⌈/⌉ capacity ≤ count := (ceilDiv_le_iff_le_mul positive).mpr enough
  have most : count ≤ items ⌈/⌉ capacity := by
    have holds : items ≤ capacity * (items ⌈/⌉ capacity) := (ceilDiv_le_iff_le_mul positive).mp le_rfl
    have next : capacity * count < capacity * (items ⌈/⌉ capacity + 1) := by
      rw [Nat.mul_add_one]
      omega
    exact Nat.lt_succ_iff.mp (Nat.lt_of_mul_lt_mul_left next)
  have few : count ≤ items := by
    have next : capacity * count < capacity * (items + 1) := by
      rw [Nat.mul_add_one]
      exact needed.trans_le (Nat.add_le_add_right (Nat.le_mul_of_pos_left _ positive) _)
    exact Nat.lt_succ_iff.mp (Nat.lt_of_mul_lt_mul_left next)
  rw [Nat.le_antisymm least most, max_eq_right many, min_eq_right few]

/-- Once the bins of the CPUs are full, all in use are full but the last. -/
theorem Expanded.partition (expanded : allocator.Expanded allocation.bins)
    (contents : allocation.bins.flatten.Perm exchanges) :
    allocator.BalancedPartition exchanges (allocation.bins.filter fun bin => bin.length ≠ 0) := by
  obtain ⟨full, last, bins, many, filled, below⟩ := expanded
  have positive : 0 < allocator.exchangesPerProcess := Nat.zero_lt_of_lt below
  have used : (full.filter fun bin => bin.length ≠ 0) = full :=
    List.filter_eq_self.mpr fun bin member => decide_eq_true ((filled bin member).trans_ne positive.ne')
  have total : exchanges.length = allocator.exchangesPerProcess * full.length + last.length := by
    rw [← contents.length_eq, bins, List.flatten_append, List.length_append, length_flatten_of_full filled,
      List.flatten_singleton, mul_comm]
  have capacity : ∀ bin ∈ allocation.bins, bin.length ≤ allocator.exchangesPerProcess := by
    intro bin member
    rw [bins] at member
    rcases List.mem_append.mp member with old | new
    · exact (filled bin old).le
    · rw [List.mem_singleton.mp new]
      exact below.le
  cases last with
  | nil =>
    have result : (allocation.bins.filter fun bin => bin.length ≠ 0) = full := by
      rw [bins, List.filter_append, used]
      simp
    rw [List.length_nil, add_zero] at total
    refine partition_of_bins contents capacity ?_ ?_
    · rw [result]
      exact number_of_bounds positive many total.le (by omega)
    · rw [result]
      intro _ bin member other held
      rw [filled bin member, filled other held]
      exact Nat.le_succ _
  | cons exchange rest =>
    have result : (allocation.bins.filter fun bin => bin.length ≠ 0).length = full.length + 1 := by
      rw [bins, List.filter_append, used]
      simp
    rw [List.length_cons] at total below
    refine partition_of_bins contents capacity ?_ ?_
    · rw [result]
      refine number_of_bounds positive (many.trans (Nat.le_succ _)) ?_ ?_
      · rw [Nat.mul_add_one]
        omega
      · rw [Nat.mul_add_one]
        omega
    · rw [result]
      omega

end Partition

theorem balanced_of_run {exchanges : List Exchange} {last : Allocation Exchange}
    (run : Run allocator.allocateExchange ⟨List.replicate allocator.cpuCount [], 0⟩ exchanges last)
    (filling : allocator.Filling last) :
    allocator.allocateExchangeBins exchanges = some (last.bins.filter fun bin => bin.length ≠ 0) ∧
      allocator.BalancedPartition exchanges (last.bins.filter fun bin => bin.length ≠ 0) := by
  have contents : last.bins.flatten.Perm exchanges := by
    have all := run_contents run
    simpa using all
  constructor
  · rw [allocateExchangeBins, run_iff_execute.mp run]
    rfl
  · cases filling.shape with
    | inl levelling => exact levelling.partition filling.room contents
    | inr expanded => exact expanded.partition contents

/-- The exchanges are spread over as many processes as there are CPUs, and evenly, until these
are full; each further process is filled before the next one is added. -/
theorem allocateExchangeBins_balanced (cpus : 1 ≤ allocator.cpuCount)
    (tolerated : 1 ≤ allocator.exchangesPerProcess) (exchanges : List Exchange) :
    ∃ bins, allocator.allocateExchangeBins exchanges = some bins ∧
      allocator.BalancedPartition exchanges bins := by
  obtain ⟨last, run, filling⟩ := exists_run (fun exchange filling => filling_step filling exchange)
    (filling_initial cpus tolerated) exchanges
  exact ⟨_, balanced_of_run run filling⟩

/-- Four CPUs, and at most two exchanges in a process. -/
theorem allocateExchangeBins_balanced_five : ∃ bins,
    ProcessAllocator.allocateExchangeBins ⟨⟨1, 3, 2⟩, 2, 4⟩ [0, 1, 2, 3, 4] = some bins ∧
      ProcessAllocator.BalancedPartition ⟨⟨1, 3, 2⟩, 2, 4⟩ [0, 1, 2, 3, 4] bins :=
  allocateExchangeBins_balanced (by decide) (by decide) [0, 1, 2, 3, 4]

end ProcessAllocator

end PriceFeed.Collectors
