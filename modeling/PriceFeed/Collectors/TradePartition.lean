import PriceFeed.Collectors.IntervalChains

/-! `TradeCollector` over the successive intervals of one market: which of the
published messages hold a trade of the exchange. -/

namespace PriceFeed.Collectors

open PriceFeed.Library PriceFeed.Schedulers

/-- A fetched trade, as far as the collector reads it. -/
structure Trade where
  side : Option String
  price : ℚ
  amount : ℚ
  timestamp : ℤ
  deriving DecidableEq, Repr

/-- The array `[sideNum, price, amount, timestamp]`. -/
structure TradeInfo where
  sideNum : ℕ
  price : ℚ
  amount : ℚ
  timestamp : ℤ
  deriving DecidableEq, Repr

/-- The payload of a published message. -/
structure TradesPayload where
  tradesInfo : List TradeInfo
  intervalStart : ℤ
  intervalEnd : ℤ
  deriving DecidableEq, Repr

/-- All trades of an exchange from a moment on. -/
def fetchTrades (trades : List Trade) (since : ℤ) : List Trade :=
  trades.filter fun trade => since ≤ trade.timestamp

namespace TradeCollector

def tradeInfo (trade : Trade) : TradeInfo :=
  ⟨if trade.side = some "sell" then 1 else 0, trade.price, trade.amount, trade.timestamp⟩

def fetchData (trades : List Trade) (bounds : IntervalBounds) : List Trade :=
  fetchTrades trades bounds.intervalStart

def saveData (fetchedData : List Trade) (bounds : IntervalBounds) : TradesPayload :=
  { tradesInfo := (fetchedData.filter fun trade =>
      bounds.intervalStart ≤ trade.timestamp ∧ trade.timestamp ≤ bounds.intervalEnd).map tradeInfo
    intervalStart := bounds.intervalStart
    intervalEnd := bounds.intervalEnd }

/-- `start`. The bounds are not shifted for this collector. -/
def start (trades : List Trade) (bounds : IntervalBounds) : TradesPayload :=
  saveData (fetchData trades bounds) bounds

theorem mem_tradesInfo {trades : List Trade} {bounds : IntervalBounds} {info : TradeInfo} :
    info ∈ (start trades bounds).tradesInfo ↔ info ∈ trades.map tradeInfo ∧
      bounds.intervalStart ≤ info.timestamp ∧ info.timestamp ≤ bounds.intervalEnd := by
  simp only [start, saveData, fetchData, fetchTrades, List.mem_map, List.mem_filter, decide_eq_true_eq]
  constructor
  · rintro ⟨trade, ⟨⟨present, -⟩, within⟩, rfl⟩
    exact ⟨⟨trade, present, rfl⟩, within⟩
  · rintro ⟨⟨trade, present, rfl⟩, within⟩
    exact ⟨trade, ⟨⟨present, within.1⟩, within⟩, rfl⟩

private theorem count_tradesInfo {trades : List Trade} {bounds : IntervalBounds} {info : TradeInfo}
    (published : info ∈ (start trades bounds).tradesInfo) :
    (start trades bounds).tradesInfo.count info = (trades.map tradeInfo).count info := by
  obtain ⟨-, within⟩ := mem_tradesInfo.mp published
  simp only [start, saveData, fetchData, fetchTrades, List.count, List.countP_map, List.countP_filter]
  apply List.countP_congr
  intro trade _
  simp only [Function.comp_apply, Bool.and_eq_true, beq_iff_eq, decide_eq_true_eq]
  constructor
  · exact fun held => held.1.1
  · rintro rfl
    exact ⟨⟨rfl, within⟩, within.1⟩

end TradeCollector

namespace IntervalChain

variable (chain : IntervalChain) (trades : List Trade)

def publishedTrades (index : ℕ) : TradesPayload :=
  TradeCollector.start trades (chain.intervalBounds index)

/-- Every trade within the chain is published, with the trades equal to it, in
exactly one interval. -/
def TradesPartitioned : Prop :=
  ∀ trade ∈ trades, chain.adjoining.Spans trade.timestamp →
    ∃ index < chain.count,
      (chain.publishedTrades trades index).tradesInfo.count (TradeCollector.tradeInfo trade) =
        (trades.map TradeCollector.tradeInfo).count (TradeCollector.tradeInfo trade) ∧
      ∀ other < chain.count, other ≠ index →
        TradeCollector.tradeInfo trade ∉ (chain.publishedTrades trades other).tradesInfo

variable {chain} {trades}

private theorem mem_publishedTrades_iff {trade : Trade} (present : trade ∈ trades) {index : ℕ}
    (inside : index < chain.adjoining.count) :
    TradeCollector.tradeInfo trade ∈ (chain.publishedTrades trades index).tradesInfo ↔
      chain.adjoining.Cell index trade.timestamp ∨
        trade.timestamp = chain.adjoining.boundary (index + 1) ∧ True := by
  have order := chain.adjoining.increasing index inside
  rw [publishedTrades, chain.intervalBounds_eq inside, TradeCollector.mem_tradesInfo,
    and_iff_right (List.mem_map_of_mem present), and_true]
  constructor
  · rintro ⟨after, before⟩
    rcases lt_or_eq_of_le before with within | ended
    · exact .inl ⟨after, within⟩
    · exact .inr ended
  · rintro (cell | ended)
    · exact ⟨cell.1, cell.2.le⟩
    · exact ⟨order.le.trans ended.ge, ended.le⟩

/-- Publishing once, with multiplicity, is being a member once. -/
private theorem tradesPartitioned_iff_existsUnique : chain.TradesPartitioned trades ↔
    ∀ trade ∈ trades, chain.adjoining.Spans trade.timestamp → ∃! index, index < chain.adjoining.count ∧
      TradeCollector.tradeInfo trade ∈ (chain.publishedTrades trades index).tradesInfo := by
  have copies : ∀ trade ∈ trades,
      0 < (trades.map TradeCollector.tradeInfo).count (TradeCollector.tradeInfo trade) :=
    fun trade present => List.count_pos_iff.mpr (List.mem_map_of_mem present)
  rw [TradesPartitioned, chain.count_eq]
  constructor
  · intro partitioned trade present spanned
    obtain ⟨index, inside, all, only⟩ := partitioned trade present spanned
    have published := List.count_pos_iff.mp (all ▸ copies trade present)
    refine ⟨index, ⟨inside, published⟩, ?_⟩
    rintro other ⟨within, again⟩
    by_contra different
    exact only other within different again
  · intro once trade present spanned
    obtain ⟨index, ⟨inside, published⟩, only⟩ := once trade present spanned
    refine ⟨index, inside, TradeCollector.count_tradesInfo published, ?_⟩
    exact fun other within different again => different (only other ⟨within, again⟩)

/-- The trades are partitioned exactly when none of them falls on an inner boundary. -/
theorem trades_partitioned_iff (chain : IntervalChain) (trades : List Trade) :
    chain.TradesPartitioned trades ↔ ∀ trade ∈ trades, ∀ index, index + 1 < chain.count →
      trade.timestamp ≠ chain.adjoining.boundary (index + 1) := by
  rw [tradesPartitioned_iff_existsUnique, chain.count_eq]
  apply forall₂_congr
  intro trade present
  rw [Adjoining.takes_once_iff fun index inside => mem_publishedTrades_iff present inside]
  simp only [not_true_eq_false]

/-- A trade in the millisecond of the tick between two intervals. -/
def tradeOnTick : Trade := ⟨some "sell", 42, 7, 1702384140000⟩

theorem tickTrade_publishedTwice : ¬ ∀ (chain : IntervalChain) (trades : List Trade),
    chain.TradesPartitioned trades := by
  intro partitioned
  obtain ⟨index, inside, -, only⟩ := partitioned twoMinutes [tradeOnTick] tradeOnTick
    (List.mem_singleton_self _) ⟨by decide +kernel, by decide +kernel⟩
  have published : ∀ index < 2, TradeCollector.tradeInfo tradeOnTick ∈
      (twoMinutes.publishedTrades [tradeOnTick] index).tradesInfo := by decide +kernel
  have inside : index < 2 := inside
  rcases Nat.lt_or_eq_of_le (Nat.le_of_lt_succ inside) with first | rfl
  · exact only 1 (by decide) (by omega) (published 1 (by decide))
  · exact only 0 (by decide) (by decide) (published 0 (by decide))

end IntervalChain

end PriceFeed.Collectors
