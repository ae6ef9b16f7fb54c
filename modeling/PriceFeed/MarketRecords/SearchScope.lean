import PriceFeed.MarketRecords.DiscreteAggregation

/-! The rows of market records, and the `search` scope that all their queries use. -/

namespace PriceFeed.MarketRecords

/-- A row of candle sticks, with what its market and exchange add to it. -/
structure CandleStickRow where
  id : ℕ
  symbol : String
  exchangeName : String
  candleStick : CandleStick
  deriving DecidableEq, Repr

inductive OrderBy where
  | ASC
  | DESC
  deriving DecidableEq, Repr

/-- Dates are milliseconds. -/
structure SearchParams where
  symbol : String
  exchangeNames : List String
  rangeDateStart : ℤ
  rangeDateEnd : ℤ
  orderBy : Option OrderBy := none
  limit : ℕ := 5
  offset : ℕ := 0
  deriving DecidableEq, Repr

namespace SearchMarketRecordsScope

variable (params : SearchParams)

/-- The `where` of the query and of its joins. -/
def Matches (row : CandleStickRow) : Prop :=
  row.symbol = params.symbol ∧ row.exchangeName ∈ params.exchangeNames ∧
    params.rangeDateStart ≤ row.candleStick.intervalStart ∧
    row.candleStick.intervalStart ≤ params.rangeDateEnd

instance (row : CandleStickRow) : Decidable (Matches params row) := inferInstanceAs (Decidable (_ ∧ _))

/-- The `order` of the query, descending unless it says otherwise. It leaves rows
with the same `intervalStart` in any order. -/
def orderLe (first second : CandleStickRow) : Prop :=
  match params.orderBy.getD .DESC with
  | .ASC => first.candleStick.intervalStart ≤ second.candleStick.intervalStart
  | .DESC => second.candleStick.intervalStart ≤ first.candleStick.intervalStart

instance : DecidableRel (orderLe params) := fun first second => by
  unfold orderLe
  split <;> exact inferInstance

/-- The page of one ordering of the matching rows. -/
def page (ordering : List CandleStickRow) : List CandleStickRow :=
  (ordering.drop params.offset).take params.limit

/-- `findAll` of a database that keeps rows with the same `intervalStart` in the order of their insertion. -/
def findAll (rows : List CandleStickRow) : List CandleStickRow :=
  page params ((rows.filter fun row => Matches params row).insertionSort (orderLe params))

/-- An order in which the database may have the matching rows for a query. -/
def Orders (rows ordering : List CandleStickRow) : Prop :=
  ordering.Perm (rows.filter fun row => Matches params row) ∧ ordering.Pairwise (orderLe params)

end SearchMarketRecordsScope

end PriceFeed.MarketRecords
