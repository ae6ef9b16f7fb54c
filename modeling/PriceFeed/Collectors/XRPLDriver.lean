import Mathlib.Algebra.Order.Field.Rat
import Mathlib.Data.List.Perm.Basic
import Mathlib.Data.List.Sort
import Mathlib.Tactic.Linarith

/-! The order book that `XRPLDriver` makes of the offers of the two `book_offers` requests.
Prices and amounts are exact. -/

namespace PriceFeed.Collectors

inductive Currency where
  | xrp
  | issued (code issuer : String)
  deriving DecidableEq, Repr

/-- An issued currency has its value in an object, XRP is a plain number of drops. -/
inductive Amount where
  | drops (count : ℕ)
  | issued (code issuer : String) (value : ℚ)
  deriving DecidableEq, Repr

namespace Amount

def currency : Amount → Currency
  | .drops _ => .xrp
  | .issued code issuer _ => .issued code issuer

/-- The number that the amount states, XRP in drops. -/
def quantity : Amount → ℚ
  | .drops count => count
  | .issued _ _ value => value

/-- `parseFloat(amount.value)`, where a plain number has no `value`. -/
def parsedValue : Amount → Option ℚ
  | .drops _ => none
  | .issued _ _ value => some value

end Amount

structure Offer where
  takerGets : Amount
  takerPays : Amount
  quality : ℚ
  deriving DecidableEq, Repr

/-- The market's base is `pair.in` and its quote is `pair.out`. -/
structure Pair where
  base : Currency
  quote : Currency
  distinct : base ≠ quote

inductive RequestError where
  | timeout
  | other (message : String)
  deriving DecidableEq, Repr

inductive DriverError where
  | rateLimitExceeded
  | request (error : RequestError)
  deriving DecidableEq, Repr

/-- Entries are prices with amounts, where no number stands for `NaN`. -/
structure OrderBook where
  bids : List (ℚ × Option ℚ)
  asks : List (ℚ × Option ℚ)
  deriving DecidableEq, Repr

namespace XRPLDriver

variable (requestBookOffers : Currency → Currency → Except RequestError (List Offer)) (pair : Pair)

def requestFailure : RequestError → DriverError
  | .timeout => .rateLimitExceeded
  | error => .request error

/-- The asks and the bids. The request names what the taker gets, then what it pays. -/
def loadOrders : Except DriverError (List Offer × List Offer) :=
  Except.mapError requestFailure do
    let asks ← requestBookOffers pair.quote pair.base
    let bids ← requestBookOffers pair.base pair.quote
    return (asks, bids)

def processOrder (isBids : Bool) (order : Offer) : ℚ × Option ℚ :=
  (order.quality, if isBids then order.takerPays.parsedValue else order.takerGets.parsedValue)

def comesBefore (isBids : Bool) (first second : ℚ × Option ℚ) : Prop :=
  if isBids then second.1 ≤ first.1 else first.1 ≤ second.1

instance (isBids : Bool) : DecidableRel (comesBefore isBids) := fun first second =>
  inferInstanceAs (Decidable (if isBids then second.1 ≤ first.1 else first.1 ≤ second.1))

def processOrders (orders : List Offer) (isBids : Bool) : List (ℚ × Option ℚ) :=
  (orders.map (processOrder isBids)).insertionSort (comesBefore isBids)

def fetchOrderBook : Except DriverError OrderBook := do
  let (asks, bids) ← loadOrders requestBookOffers pair
  return ⟨processOrders bids true, processOrders asks false⟩

end XRPLDriver

/-- An offer in the currencies asked for, at the quality that its amounts have. -/
structure Offer.IsFor (gets pays : Currency) (offer : Offer) : Prop where
  takerGets : offer.takerGets.currency = gets
  takerPays : offer.takerPays.currency = pays
  positive : 0 < offer.takerGets.quantity ∧ 0 < offer.takerPays.quantity
  quality : offer.quality = offer.takerPays.quantity / offer.takerGets.quantity

/-- What `book_offers` answers are offers for what was asked. -/
def AnswersBookOffers (requestBookOffers : Currency → Currency → Except RequestError (List Offer)) : Prop :=
  ∀ gets pays offers, requestBookOffers gets pays = .ok offers → ∀ offer ∈ offers, offer.IsFor gets pays

/-- The price of an offer in the market's unit, whichever of the two it gives. -/
def Offer.quotePerBase (pair : Pair) (offer : Offer) : ℚ :=
  if offer.takerPays.currency = pair.quote then offer.takerPays.quantity / offer.takerGets.quantity
  else offer.takerGets.quantity / offer.takerPays.quantity

/-- The amount of the quote that an offer gives or takes. -/
def Offer.quoteQuantity (pair : Pair) (offer : Offer) : ℚ :=
  if offer.takerPays.currency = pair.quote then offer.takerPays.quantity else offer.takerGets.quantity

/-- What an order book has of an offer: its price, on its own amount. -/
def Offer.bookEntry (pair : Pair) (offer : Offer) : ℚ × Option ℚ :=
  (offer.quotePerBase pair, some (offer.quoteQuantity pair))

/-- No two offers in opposite directions take less than they give. -/
def NonCrossing (asks bids : List Offer) : Prop :=
  ∀ ask ∈ asks, ∀ bid ∈ bids, 1 ≤ ask.quality * bid.quality

/-- An order book of the offers, in the market's unit. -/
structure OrderBook.IsBookOf (book : OrderBook) (pair : Pair) (asks bids : List Offer) : Prop where
  numeric : ∀ entry ∈ book.bids ++ book.asks, entry.2.isSome
  bidUnit : book.bids.Perm (bids.map (Offer.bookEntry pair))
  askUnit : book.asks.Perm (asks.map (Offer.bookEntry pair))
  descending : book.bids.Pairwise fun first second => second.1 ≤ first.1
  ascending : book.asks.Pairwise fun first second => first.1 ≤ second.1
  uncrossed : ∀ bid ∈ book.bids.head?, ∀ ask ∈ book.asks.head?, bid.1 ≤ ask.1

namespace XRPLDriver

variable {requestBookOffers : Currency → Currency → Except RequestError (List Offer)} {pair : Pair}
variable {asks bids : List Offer}

private theorem fetchOrderBook_ok (askAnswer : requestBookOffers pair.quote pair.base = .ok asks)
    (bidAnswer : requestBookOffers pair.base pair.quote = .ok bids) :
    fetchOrderBook requestBookOffers pair = .ok ⟨processOrders bids true, processOrders asks false⟩ := by
  simp [fetchOrderBook, loadOrders, askAnswer, bidAnswer, bind, Except.bind, pure, Except.pure,
    Except.mapError]

theorem perm_processOrders (orders : List Offer) (isBids : Bool) :
    (processOrders orders isBids).Perm (orders.map (processOrder isBids)) :=
  List.perm_insertionSort _ _

/-- The entries are in order, whatever the prices stand for. -/
theorem pairwise_processOrders (orders : List Offer) (isBids : Bool) :
    (processOrders orders isBids).Pairwise (comesBefore isBids) := by
  have total : Std.Total (comesBefore isBids) := by
    refine ⟨fun first second => ?_⟩
    cases isBids
    · exact le_total first.1 second.1
    · exact le_total second.1 first.1
  have trans : IsTrans _ (comesBefore isBids) := by
    refine ⟨fun first second third earlier later => ?_⟩
    cases isBids
    · exact le_trans earlier later
    · exact le_trans later earlier
  exact List.pairwise_insertionSort _ _

theorem exists_first {orders : List Offer} (isBids : Bool) {entry : ℚ × Option ℚ}
    (member : entry ∈ processOrders orders isBids) :
    ∃ first ∈ (processOrders orders isBids).head?, comesBefore isBids first entry := by
  have sorted := pairwise_processOrders orders isBids
  cases listed : processOrders orders isBids with
  | nil => rw [listed] at member; cases member
  | cons first rest =>
    rw [listed] at member sorted
    refine ⟨first, rfl, ?_⟩
    rcases List.mem_cons.mp member with rfl | later
    · cases isBids <;> exact le_refl entry.1
    · exact List.rel_of_pairwise_cons sorted later

theorem mem_processOrders {orders : List Offer} {isBids : Bool} {entry : ℚ × Option ℚ} :
    entry ∈ processOrders orders isBids ↔ ∃ offer ∈ orders, processOrder isBids offer = entry := by
  rw [(perm_processOrders orders isBids).mem_iff, List.mem_map]

theorem uncrossed_iff (asks bids : List Offer) :
    (∀ bid ∈ (processOrders bids true).head?, ∀ ask ∈ (processOrders asks false).head?, bid.1 ≤ ask.1) ↔
      ∀ bid ∈ bids, ∀ ask ∈ asks, bid.quality ≤ ask.quality := by
  constructor
  · intro best bid bidMember ask askMember
    obtain ⟨bestBid, bidFirst, highest⟩ :=
      exists_first true (mem_processOrders.mpr ⟨bid, bidMember, rfl⟩)
    obtain ⟨bestAsk, askFirst, lowest⟩ :=
      exists_first false (mem_processOrders.mpr ⟨ask, askMember, rfl⟩)
    have above : bid.quality ≤ bestBid.1 := highest
    have below : bestAsk.1 ≤ ask.quality := lowest
    exact above.trans ((best bestBid bidFirst bestAsk askFirst).trans below)
  · intro apart bidEntry bidFirst askEntry askFirst
    obtain ⟨bid, bidMember, rfl⟩ := mem_processOrders.mp (List.mem_of_mem_head? bidFirst)
    obtain ⟨ask, askMember, rfl⟩ := mem_processOrders.mp (List.mem_of_mem_head? askFirst)
    exact apart bid bidMember ask askMember

theorem parsedValue_isSome_iff (amount : Amount) : amount.parsedValue.isSome ↔ amount.currency ≠ .xrp := by
  cases amount <;> simp [Amount.parsedValue, Amount.currency]

theorem numeric_iff (askOffers : ∀ offer ∈ asks, offer.IsFor pair.quote pair.base)
    (bidOffers : ∀ offer ∈ bids, offer.IsFor pair.base pair.quote) :
    (∀ entry ∈ processOrders bids true ++ processOrders asks false, entry.2.isSome) ↔
      pair.quote ≠ .xrp ∨ asks = [] ∧ bids = [] := by
  have ask : ∀ offer ∈ asks, (processOrder false offer).2.isSome ↔ pair.quote ≠ .xrp := fun offer member =>
    (askOffers offer member).takerGets ▸ parsedValue_isSome_iff offer.takerGets
  have bid : ∀ offer ∈ bids, (processOrder true offer).2.isSome ↔ pair.quote ≠ .xrp := fun offer member =>
    (bidOffers offer member).takerPays ▸ parsedValue_isSome_iff offer.takerPays
  simp only [List.forall_mem_append, mem_processOrders, forall_exists_index, and_imp,
    forall_apply_eq_imp_iff₂]
  rw [forall₂_congr bid, forall₂_congr ask]
  by_cases native : pair.quote = .xrp
  · simp [native, List.eq_nil_iff_forall_not_mem, and_comm]
  · simp [native]

theorem parsedValue_of_issued {amount : Amount} (issued : amount.currency ≠ .xrp) :
    amount.parsedValue = some amount.quantity := by
  cases amount with
  | drops count => exact absurd rfl issued
  | issued code issuer value => rfl

private theorem bookEntry_ask {offer : Offer} (isFor : offer.IsFor pair.quote pair.base) :
    offer.bookEntry pair = (offer.quality⁻¹, some offer.takerGets.quantity) := by
  simp only [Offer.bookEntry, Offer.quotePerBase, Offer.quoteQuantity, isFor.takerPays, if_neg pair.distinct,
    isFor.quality, inv_div]

private theorem bookEntry_bid {offer : Offer} (isFor : offer.IsFor pair.base pair.quote) :
    offer.bookEntry pair = (offer.quality, some offer.takerPays.quantity) := by
  simp only [Offer.bookEntry, Offer.quotePerBase, Offer.quoteQuantity, isFor.takerPays, if_true,
    isFor.quality]

private theorem bidUnit_of_numeric (bidOffers : ∀ offer ∈ bids, offer.IsFor pair.base pair.quote)
    (numeric : pair.quote ≠ .xrp ∨ bids = []) :
    (processOrders bids true).Perm (bids.map (Offer.bookEntry pair)) := by
  rcases numeric with issued | rfl
  · have entries : bids.map (processOrder true) = bids.map (Offer.bookEntry pair) := by
      refine List.map_congr_left fun offer member => ?_
      have isFor := bidOffers offer member
      rw [bookEntry_bid isFor, processOrder, if_pos rfl, parsedValue_of_issued (isFor.takerPays ▸ issued)]
    exact entries ▸ perm_processOrders bids true
  · exact .nil

private theorem askUnit_iff (askOffers : ∀ offer ∈ asks, offer.IsFor pair.quote pair.base)
    (numeric : pair.quote ≠ .xrp ∨ asks = []) :
    (processOrders asks false).Perm (asks.map (Offer.bookEntry pair)) ↔
      (asks.map fun offer => (offer.quality, offer.takerGets.quantity)).Perm
        (asks.map fun offer => (offer.quality⁻¹, offer.takerGets.quantity)) := by
  rcases numeric with issued | rfl
  · have numbers : Function.Injective (Prod.map id some : ℚ × ℚ → ℚ × Option ℚ) :=
      Function.injective_id.prodMap (Option.some_injective _)
    have entries : asks.map (processOrder false) =
        (asks.map fun offer => (offer.quality, offer.takerGets.quantity)).map (Prod.map id some) := by
      rw [List.map_map]
      refine List.map_congr_left fun offer member => ?_
      have amount := parsedValue_of_issued ((askOffers offer member).takerGets ▸ issued)
      simp [processOrder, amount]
    have wanted : asks.map (Offer.bookEntry pair) =
        (asks.map fun offer => (offer.quality⁻¹, offer.takerGets.quantity)).map (Prod.map id some) := by
      rw [List.map_map]
      exact List.map_congr_left fun offer member => bookEntry_ask (askOffers offer member)
    rw [wanted, ← List.map_perm_map_iff numbers, ← entries]
    exact ⟨(perm_processOrders asks false).symm.trans, (perm_processOrders asks false).trans⟩
  · exact iff_of_true .nil .nil

/-- Offers that do not cross, in the two units, are apart in one unit only where all have
the quality one. -/
private theorem uncrossed_iff_eq_one (nonCrossing : NonCrossing asks bids)
    (positive : ∀ offer ∈ asks, 0 < offer.quality)
    (reciprocal : (asks.map Offer.quality).Perm (asks.map fun offer => offer.quality⁻¹)) :
    (∀ bid ∈ bids, ∀ ask ∈ asks, bid.quality ≤ ask.quality) ↔
      asks = [] ∨ ∀ offer ∈ bids, offer.quality = 1 := by
  constructor
  · intro apart
    refine or_iff_not_imp_left.mpr fun nonempty bid bidMember => ?_
    obtain ⟨ask, askMember⟩ := List.exists_mem_of_ne_nil asks nonempty
    -- a bid is enclosed by an ask and by the ask of the reciprocal quality
    obtain ⟨opposite, oppositeMember, inverse⟩ := List.mem_map.mp
      (reciprocal.mem_iff.mpr (List.mem_map.mpr ⟨ask, askMember, rfl⟩))
    have same : bid.quality = ask.quality := by
      apply le_antisymm (apart bid bidMember ask askMember)
      have product := nonCrossing opposite oppositeMember bid bidMember
      rwa [inverse, one_le_inv_mul₀ (positive ask askMember)] at product
    have reversed : bid.quality = ask.quality⁻¹ := by
      apply le_antisymm (inverse ▸ apart bid bidMember opposite oppositeMember)
      rw [inv_le_iff_one_le_mul₀' (positive ask askMember)]
      exact nonCrossing ask askMember bid bidMember
    have square : bid.quality * bid.quality = 1 := by
      calc bid.quality * bid.quality = ask.quality * ask.quality⁻¹ := congrArg₂ _ same reversed
        _ = 1 := mul_inv_cancel₀ (positive ask askMember).ne'
    refine (mul_self_eq_one_iff.mp square).resolve_right fun negative => ?_
    have above := same ▸ positive ask askMember
    linarith
  · rintro (rfl | one) bid bidMember ask askMember
    · cases askMember
    · have product := nonCrossing ask askMember bid bidMember
      rw [one bid bidMember] at product ⊢
      rwa [mul_one] at product

/-- The driver makes an order book of offers that do not cross in three cases only: where
there are no asks, where there are asks alone and the qualities of those for one amount are their
own reciprocals, and where all offers are at par; and where there is an offer, the quote is not XRP. -/
theorem isBookOf_iff (answers : AnswersBookOffers requestBookOffers)
    (askAnswer : requestBookOffers pair.quote pair.base = .ok asks)
    (bidAnswer : requestBookOffers pair.base pair.quote = .ok bids)
    (nonCrossing : NonCrossing asks bids) :
    ∃ book, fetchOrderBook requestBookOffers pair = .ok book ∧
      (book.IsBookOf pair asks bids ↔
        (pair.quote ≠ .xrp ∨ asks = [] ∧ bids = []) ∧
        (asks.map fun offer => (offer.quality, offer.takerGets.quantity)).Perm
          (asks.map fun offer => (offer.quality⁻¹, offer.takerGets.quantity)) ∧
        (asks = [] ∨ ∀ offer ∈ bids, offer.quality = 1)) := by
  have askOffers := answers _ _ _ askAnswer
  have bidOffers := answers _ _ _ bidAnswer
  have positive : ∀ offer ∈ asks, 0 < offer.quality := by
    intro offer member
    obtain ⟨gets, pays⟩ := (askOffers offer member).positive
    rw [(askOffers offer member).quality]
    exact div_pos pays gets
  refine ⟨_, fetchOrderBook_ok askAnswer bidAnswer, ?_⟩
  by_cases numeric : pair.quote ≠ .xrp ∨ asks = [] ∧ bids = []
  · have askUnit := askUnit_iff askOffers (numeric.imp_right And.left)
    rw [and_iff_right numeric]
    -- without their amounts the qualities of the asks are their own reciprocals all the more
    have apart (reciprocal : (asks.map fun offer => (offer.quality, offer.takerGets.quantity)).Perm
        (asks.map fun offer => (offer.quality⁻¹, offer.takerGets.quantity))) :
        (∀ bid ∈ bids, ∀ ask ∈ asks, bid.quality ≤ ask.quality) ↔
          asks = [] ∨ ∀ offer ∈ bids, offer.quality = 1 :=
      uncrossed_iff_eq_one nonCrossing positive (by simpa [Function.comp_def] using reciprocal.map Prod.fst)
    constructor
    · intro book
      have reciprocal := askUnit.mp book.askUnit
      exact ⟨reciprocal, (apart reciprocal).mp ((uncrossed_iff asks bids).mp book.uncrossed)⟩
    · rintro ⟨reciprocal, one⟩
      exact {
        numeric := (numeric_iff askOffers bidOffers).mpr numeric
        bidUnit := bidUnit_of_numeric bidOffers (numeric.imp_right And.right)
        askUnit := askUnit.mpr reciprocal
        descending := pairwise_processOrders bids true
        ascending := pairwise_processOrders asks false
        uncrossed := (uncrossed_iff asks bids).mpr ((apart reciprocal).mpr one) }
  · refine iff_of_false (fun book => numeric ?_) fun held => numeric held.1
    exact (numeric_iff askOffers bidOffers).mp book.numeric

/-- The answers of a ledger that holds these offers. -/
def offersOf (held : List Offer) (gets pays : Currency) : Except RequestError (List Offer) :=
  .ok (held.filter fun offer => offer.takerGets.currency = gets ∧ offer.takerPays.currency = pays)

theorem answersBookOffers_offersOf {held : List Offer}
    (sound : ∀ offer ∈ held, (0 < offer.takerGets.quantity ∧ 0 < offer.takerPays.quantity) ∧
      offer.quality = offer.takerPays.quantity / offer.takerGets.quantity) :
    AnswersBookOffers (offersOf held) := by
  rintro gets pays _ ⟨⟩ offer member
  obtain ⟨present, currencies⟩ := List.mem_filter.mp member
  obtain ⟨takerGets, takerPays⟩ := of_decide_eq_true currencies
  obtain ⟨positive, quality⟩ := sound offer present
  exact ⟨takerGets, takerPays, positive, quality⟩

def euroPerDollar : Pair := ⟨.issued "USD" "bank", .issued "EUR" "bank", by decide⟩

/-- At par in both directions. -/
def parOffers : List Offer :=
  [⟨.issued "EUR" "bank" 2, .issued "USD" "bank" 2, 1⟩, ⟨.issued "USD" "bank" 3, .issued "EUR" "bank" 3, 1⟩]

theorem isBookOf_iff_par : ∃ book, fetchOrderBook (offersOf parOffers) euroPerDollar = .ok book ∧
    book.IsBookOf euroPerDollar (parOffers.take 1) (parOffers.drop 1) := by
  have sound : ∀ offer ∈ parOffers, (0 < offer.takerGets.quantity ∧ 0 < offer.takerPays.quantity) ∧
      offer.quality = offer.takerPays.quantity / offer.takerGets.quantity := by
    norm_num [parOffers, Amount.quantity]
  have nonCrossing : NonCrossing (parOffers.take 1) (parOffers.drop 1) := by
    norm_num [parOffers, NonCrossing]
  obtain ⟨book, fetched, criterion⟩ := isBookOf_iff (answersBookOffers_offersOf sound)
    (show offersOf parOffers euroPerDollar.quote euroPerDollar.base = .ok (parOffers.take 1) by decide)
    (by decide) nonCrossing
  exact ⟨book, fetched, criterion.mpr ⟨.inl (by decide), by norm_num [parOffers], .inr (by simp [parOffers])⟩⟩

/-- Two dollars wanted for a euro, and a dollar given for three. -/
def spreadOffers : List Offer :=
  [⟨.issued "EUR" "bank" 1, .issued "USD" "bank" 2, 2⟩, ⟨.issued "USD" "bank" 1, .issued "EUR" "bank" 3, 3⟩]

def dropsPerDollar : Pair := ⟨.issued "USD" "bank", .xrp, by decide⟩

def dropOffers : List Offer := [⟨.drops 1, .issued "USD" "bank" 2, 2⟩]

/-- Offers with a spread between them make a crossed book, and where the quote is XRP no
amount is a number. -/
theorem fetchOrderBook_crossed :
    (AnswersBookOffers (offersOf spreadOffers) ∧ NonCrossing (spreadOffers.take 1) (spreadOffers.drop 1) ∧
      ∃ book, fetchOrderBook (offersOf spreadOffers) euroPerDollar = .ok book ∧
        ¬ book.IsBookOf euroPerDollar (spreadOffers.take 1) (spreadOffers.drop 1)) ∧
    AnswersBookOffers (offersOf dropOffers) ∧ ∃ book,
      fetchOrderBook (offersOf dropOffers) dropsPerDollar = .ok book ∧ ¬ book.IsBookOf dropsPerDollar dropOffers [] := by
  refine ⟨⟨answersBookOffers_offersOf (by norm_num [spreadOffers, Amount.quantity]),
      by norm_num [spreadOffers, NonCrossing], ⟨[(3, some 3)], [(2, some 1)]⟩, by decide, ?_⟩,
    answersBookOffers_offersOf (by norm_num [dropOffers, Amount.quantity]),
    ⟨[], [(2, none)]⟩, by decide, ?_⟩
  · intro isBook
    have crossed := isBook.uncrossed (3, some 3) rfl (2, some 1) rfl
    norm_num at crossed
  · intro isBook
    have number := isBook.numeric (2, none) (by simp)
    cases number

end XRPLDriver

end PriceFeed.Collectors
