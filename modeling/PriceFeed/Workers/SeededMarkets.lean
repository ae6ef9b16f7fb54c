import PriceFeed.Workers.CCXTSeeder

/-! What seeders leave in the table of markets: each sets its own flag on the markets that
it has stored, whatever the others do, and no market loses its row. -/

namespace PriceFeed.Workers.CCXTSeeder

open PriceFeed.Library

namespace Kind

variable {kind other : Kind} {market : Market} {value : Bool}

@[simp] theorem flag_setFlag : kind.flag (kind.setFlag market value) = value := by
  cases kind with
  | realtime => rfl
  | historical => rfl

theorem flag_setFlag_of_ne (different : other ≠ kind) :
    other.flag (kind.setFlag market value) = other.flag market := by
  cases kind with
  | realtime =>
    cases other with
    | realtime => exact absurd rfl different
    | historical => rfl
  | historical =>
    cases other with
    | realtime => rfl
    | historical => exact absurd rfl different

@[simp] theorem exchangeId_setFlag : (kind.setFlag market value).exchangeId = market.exchangeId := by
  cases kind with
  | realtime => rfl
  | historical => rfl

@[simp] theorem symbol_setFlag : (kind.setFlag market value).symbol = market.symbol := by
  cases kind with
  | realtime => rfl
  | historical => rfl

@[simp] theorem toMarketData_setFlag : (kind.setFlag market value).toMarketData = market.toMarketData := by
  cases kind with
  | realtime => rfl
  | historical => rfl

/-- The other columns do not matter to a flag. -/
private theorem flag_withData (data : MarketData) : kind.flag { market with toMarketData := data } = kind.flag market := by
  cases kind with
  | realtime => rfl
  | historical => rfl

end Kind

/-- Two seedings that do not write the same column of the same rows. -/
def Seeding.Apart (seeding other : Seeding) : Prop :=
  seeding.kind ≠ other.kind ∨ seeding.exchangeId ≠ other.exchangeId

namespace Seeding

variable {seeding other : Seeding} {market loaded : Market} {data : MarketData} {symbol wanted : String}
  {table : MarketTable} {existingRecord row : ℕ × Market}

theorem isMarket_iff : seeding.isMarket symbol market = true ↔
    market.exchangeId = seeding.exchangeId ∧ market.symbol = symbol := by
  simp [isMarket]

theorem isMarket_eq (exchangeId : market.exchangeId = loaded.exchangeId) (symbol_eq : market.symbol = loaded.symbol) :
    seeding.isMarket symbol market = seeding.isMarket symbol loaded := by
  rw [isMarket, isMarket, exchangeId, symbol_eq]

private theorem exchangeId_resetMarket : (seeding.resetMarket market).exchangeId = market.exchangeId := by
  rw [resetMarket]
  split
  · exact Kind.exchangeId_setFlag
  · rfl

private theorem symbol_resetMarket : (seeding.resetMarket market).symbol = market.symbol := by
  rw [resetMarket]
  split
  · exact Kind.symbol_setFlag
  · rfl

@[simp] theorem exchangeId_updateMarket : (seeding.updateMarket loaded data market).exchangeId = market.exchangeId := by
  simp [updateMarket]

@[simp] theorem symbol_updateMarket : (seeding.updateMarket loaded data market).symbol = market.symbol := by
  simp [updateMarket]

@[simp] theorem exchangeId_createMarket : (seeding.createMarket symbol data).exchangeId = seeding.exchangeId := by
  simp [createMarket]

@[simp] theorem symbol_createMarket : (seeding.createMarket symbol data).symbol = symbol := by
  simp [createMarket]

theorem findOne_some (found : seeding.findOne table symbol = some row) :
    row ∈ table.rows ∧ row.2.exchangeId = seeding.exchangeId ∧ row.2.symbol = symbol := by
  have wanted : seeding.isMarket symbol row.2 = true := by simpa using List.find?_some found
  exact ⟨List.mem_of_find?_eq_some found, isMarket_iff.mp wanted⟩

theorem findOne_reset : other.findOne (seeding.resetMarketStatuses table) symbol =
    (other.findOne table symbol).map fun row => (row.1, seeding.resetMarket row.2) := by
  apply SerialTable.find?_mapRows
  intro row _
  exact isMarket_eq exchangeId_resetMarket symbol_resetMarket

/-- What `save` makes of a row, where it updates the one with an id. -/
def savedRow (seeding : Seeding) (existingRecord : ℕ × Market) (data : MarketData) (row : ℕ × Market) : Market :=
  if row.1 = existingRecord.1 then seeding.updateMarket existingRecord.2 data row.2 else row.2

private theorem exchangeId_savedRow : (seeding.savedRow existingRecord data row).exchangeId = row.2.exchangeId := by
  rw [savedRow]
  split
  · exact exchangeId_updateMarket
  · rfl

private theorem symbol_savedRow : (seeding.savedRow existingRecord data row).symbol = row.2.symbol := by
  rw [savedRow]
  split
  · exact symbol_updateMarket
  · rfl

theorem findOne_update : other.findOne (table.mapRows (seeding.savedRow existingRecord data)) symbol =
    (other.findOne table symbol).map fun row => (row.1, seeding.savedRow existingRecord data row) := by
  apply SerialTable.find?_mapRows
  intro row _
  exact isMarket_eq exchangeId_savedRow symbol_savedRow

theorem findOne_create : other.findOne (table.bulkCreate [seeding.createMarket symbol data]) wanted =
    (other.findOne table wanted).or (if other.isMarket wanted (seeding.createMarket symbol data) then
      some (table.nextId, seeding.createMarket symbol data) else none) :=
  table.find?_bulkCreate_singleton _ _

/-- The two ways to save a market. -/
theorem save_cases {saved : MarketTable} {found : Option (ℕ × Market)}
    (saves : seeding.save table symbol data found = some saved) :
    (∃ existingRecord, found = some existingRecord ∧
      saved = table.mapRows (seeding.savedRow existingRecord data)) ∨
    (found = none ∧ seeding.findOne table symbol = none ∧
      saved = table.bulkCreate [seeding.createMarket symbol data]) := by
  cases found with
  | some existingRecord => exact .inl ⟨existingRecord, rfl, (Option.some.inj saves).symm⟩
  | none =>
    obtain ⟨absent, rfl⟩ := enabled saves
    exact .inr ⟨rfl, Option.isNone_iff_eq_none.mp absent, rfl⟩

/-! A reset and a save as they show in the flags. -/

/-- The symbol's market is there with the seeding's flag set. -/
def Marked (seeding : Seeding) (table : MarketTable) (symbol : String) : Prop :=
  ∃ row, seeding.findOne table symbol = some row ∧ seeding.kind.flag row.2 = true

/-- The markets keep their ids and their flags of a seeding, and those that come are not flagged. -/
structure KeepsFlags (seeding : Seeding) (table next : MarketTable) : Prop where
  kept : ∀ symbol row, seeding.findOne table symbol = some row → ∃ later,
    seeding.findOne next symbol = some later ∧ later.1 = row.1 ∧
      seeding.kind.flag later.2 = seeding.kind.flag row.2
  added : ∀ symbol row, seeding.findOne table symbol = none →
    seeding.findOne next symbol = some row → seeding.kind.flag row.2 = false

theorem KeepsFlags.refl : seeding.KeepsFlags table table where
  kept _ row found := ⟨row, found, rfl, rfl⟩
  added _ _ absent found := by
    rw [absent] at found
    cases found

theorem KeepsFlags.marked_iff {next : MarketTable} (keeps : seeding.KeepsFlags table next) :
    seeding.Marked next symbol ↔ seeding.Marked table symbol := by
  constructor
  · rintro ⟨later, found, flag⟩
    cases before : seeding.findOne table symbol with
    | none =>
      rw [keeps.added symbol later before found] at flag
      cases flag
    | some row =>
      obtain ⟨same, again, _, kept⟩ := keeps.kept symbol row before
      rw [again] at found
      cases found
      exact ⟨row, before, kept.symm.trans flag⟩
  · rintro ⟨row, found, flag⟩
    obtain ⟨later, again, _, kept⟩ := keeps.kept symbol row found
    exact ⟨later, again, kept.trans flag⟩

private theorem flag_resetMarket_of_apart (apart : seeding.Apart other) (own : market.exchangeId = other.exchangeId) :
    other.kind.flag (seeding.resetMarket market) = other.kind.flag market := by
  rw [resetMarket]
  split
  next same =>
    have different : other.kind ≠ seeding.kind := by
      rcases apart with kind | exchange
      · exact kind.symm
      · exact absurd (same.symm.trans own) exchange
    exact Kind.flag_setFlag_of_ne different
  next => rfl

private theorem flag_resetMarket (own : market.exchangeId = seeding.exchangeId) :
    seeding.kind.flag (seeding.resetMarket market) = false := by
  rw [resetMarket, if_pos own, Kind.flag_setFlag]

theorem keepsFlags_reset (apart : seeding.Apart other) :
    other.KeepsFlags table (seeding.resetMarketStatuses table) where
  kept symbol row found := by
    refine ⟨(row.1, seeding.resetMarket row.2), ?_, rfl, flag_resetMarket_of_apart apart (findOne_some found).2.1⟩
    rw [findOne_reset, found, Option.map_some]
  added symbol row absent found := by
    rw [findOne_reset, absent] at found
    cases found

theorem not_marked_reset : ¬ seeding.Marked (seeding.resetMarketStatuses table) symbol := by
  rintro ⟨row, found, flag⟩
  rw [findOne_reset, Option.map_eq_some_iff] at found
  obtain ⟨before, found, rfl⟩ := found
  rw [flag_resetMarket (findOne_some found).2.1] at flag
  cases flag

/-- The row that `updateOrCreate` has found is still there. -/
def Located (seeding : Seeding) (table : MarketTable) (symbol : String) (found : Option (ℕ × Market)) : Prop :=
  ∀ existingRecord, found = some existingRecord →
    ∃ row, seeding.findOne table symbol = some row ∧ row.1 = existingRecord.1

/-- A row with the id of the found one is its row. -/
theorem eq_of_located (found : seeding.findOne table symbol = some existingRecord) (present : row ∈ table.rows)
    (same : row.1 = existingRecord.1) : row = existingRecord :=
  table.eq_of_id_eq present (findOne_some found).1 same

private theorem flag_updateMarket_of_ne (different : other.kind ≠ seeding.kind) :
    other.kind.flag (seeding.updateMarket loaded data market) = other.kind.flag market :=
  (Kind.flag_setFlag_of_ne different).trans (Kind.flag_withData _)

private theorem flag_updateMarket (same : seeding.kind.flag market = seeding.kind.flag loaded) :
    seeding.kind.flag (seeding.updateMarket loaded data market) = true := by
  rw [updateMarket, Kind.flag_setFlag, changed, same]
  split
  next was => exact was.symm
  next => rfl

private theorem flag_createMarket_of_ne (different : other.kind ≠ seeding.kind) :
    other.kind.flag (seeding.createMarket symbol data) = false := by
  rw [createMarket, Kind.flag_setFlag_of_ne different]
  cases other.kind with
  | realtime => rfl
  | historical => rfl

theorem keepsFlags_save {saved : MarketTable} {found : Option (ℕ × Market)} (apart : seeding.Apart other)
    (located : seeding.Located table symbol found) (saves : seeding.save table symbol data found = some saved) :
    other.KeepsFlags table saved := by
  rcases save_cases saves with ⟨existingRecord, rfl, rfl⟩ | ⟨rfl, absent, rfl⟩
  case inl =>
    obtain ⟨target, target_found, target_id⟩ := located existingRecord rfl
    constructor
    case kept =>
      intro wanted row row_found
      refine ⟨(row.1, seeding.savedRow existingRecord data row), ?_, rfl, ?_⟩
      · rw [findOne_update, row_found, Option.map_some]
      · change other.kind.flag (seeding.savedRow existingRecord data row) = other.kind.flag row.2
        rw [savedRow]
        split
        next same =>
          have own := eq_of_located target_found (findOne_some row_found).1 (same.trans target_id.symm)
          subst own
          -- one row is of one exchange, so the kinds differ
          have exchange := (findOne_some target_found).2.1.symm.trans (findOne_some row_found).2.1
          exact flag_updateMarket_of_ne ((apart.resolve_right (absurd exchange)).symm)
        next => rfl
    case added =>
      intro wanted row row_absent row_found
      rw [findOne_update, row_absent] at row_found
      cases row_found
  case inr =>
    constructor
    case kept =>
      intro wanted row row_found
      refine ⟨row, ?_, rfl, rfl⟩
      rw [findOne_create, row_found, Option.some_or]
    case added =>
      intro wanted row row_absent row_found
      rw [findOne_create, row_absent, Option.none_or] at row_found
      obtain ⟨created, rfl⟩ := enabled row_found
      rw [isMarket_iff, exchangeId_createMarket] at created
      exact flag_createMarket_of_ne ((apart.resolve_right (absurd created.1)).symm)

/-- The found row still has the flag that it was found with. -/
def Fresh (seeding : Seeding) (table : MarketTable) (symbol : String) (found : Option (ℕ × Market)) : Prop :=
  ∀ existingRecord, found = some existingRecord → ∃ row, seeding.findOne table symbol = some row ∧
    row.1 = existingRecord.1 ∧ seeding.kind.flag row.2 = seeding.kind.flag existingRecord.2

theorem Fresh.keep {next : MarketTable} {found : Option (ℕ × Market)} (fresh : seeding.Fresh table symbol found)
    (keeps : seeding.KeepsFlags table next) : seeding.Fresh next symbol found := by
  intro existingRecord found
  obtain ⟨row, row_found, id, flag⟩ := fresh existingRecord found
  obtain ⟨later, later_found, later_id, later_flag⟩ := keeps.kept symbol row row_found
  exact ⟨later, later_found, later_id.trans id, later_flag.trans flag⟩

/-- Saving a market flags it and no other. -/
theorem marked_save {saved : MarketTable} {found : Option (ℕ × Market)} (fresh : seeding.Fresh table symbol found)
    (saves : seeding.save table symbol data found = some saved) :
    seeding.Marked saved wanted ↔ wanted = symbol ∨ seeding.Marked table wanted := by
  rcases save_cases saves with ⟨existingRecord, rfl, rfl⟩ | ⟨rfl, absent, rfl⟩
  case inl =>
    obtain ⟨target, target_found, target_id, target_flag⟩ := fresh existingRecord rfl
    simp only [Marked, findOne_update, Option.map_eq_some_iff]
    by_cases own : wanted = symbol
    · subst own
      refine iff_of_true ⟨_, ⟨target, target_found, rfl⟩, ?_⟩ (.inl rfl)
      change seeding.kind.flag (seeding.savedRow existingRecord data target) = true
      rw [savedRow, if_pos target_id, flag_updateMarket target_flag]
    · have untouched : ∀ row, seeding.findOne table wanted = some row →
          seeding.savedRow existingRecord data row = row.2 := by
        intro row row_found
        refine if_neg fun same => own ?_
        have is_target := eq_of_located target_found (findOne_some row_found).1 (same.trans target_id.symm)
        rw [← (findOne_some row_found).2.2, is_target, (findOne_some target_found).2.2]
      constructor
      · rintro ⟨_, ⟨row, row_found, rfl⟩, flag⟩
        exact .inr ⟨row, row_found, (congrArg seeding.kind.flag (untouched row row_found)).symm.trans flag⟩
      · rintro (same | ⟨row, row_found, flag⟩)
        · exact absurd same own
        · refine ⟨_, ⟨row, row_found, rfl⟩, ?_⟩
          exact (congrArg seeding.kind.flag (untouched row row_found)).trans flag
  case inr =>
    simp only [Marked, findOne_create]
    by_cases own : wanted = symbol
    · subst own
      refine iff_of_true ⟨(table.nextId, seeding.createMarket wanted data), ?_, Kind.flag_setFlag⟩ (.inl rfl)
      rw [absent, Option.none_or, if_pos (isMarket_iff.mpr ⟨exchangeId_createMarket, symbol_createMarket⟩)]
    · have other : ¬ seeding.isMarket wanted (seeding.createMarket symbol data) = true := by
        rw [isMarket_iff, symbol_createMarket]
        exact fun same => own same.2.symm
      rw [if_neg other, Option.or_none, or_iff_right own]

end Seeding

/-! What writes of changed columns make of a row that others write too. -/

section

variable {Value : Type} [DecidableEq Value] {loaded found value current : Value}

theorem changed_eq (between : current = loaded ∨ current = value) : changed loaded value current = value := by
  rw [changed]
  split
  next same => exact between.elim (fun old => old.trans same.symm) id
  next => rfl

theorem changed_between (between : current = loaded ∨ current = value) :
    changed found value current = loaded ∨ changed found value current = value := by
  rw [changed]
  split
  · exact between
  · exact .inr rfl

end

/-- Each column is as it was loaded or as it is to be. -/
structure MarketData.Between (loaded value current : MarketData) : Prop where
  externalMarketId : current.externalMarketId = loaded.externalMarketId ∨
    current.externalMarketId = value.externalMarketId
  base : current.base = loaded.base ∨ current.base = value.base
  quote : current.quote = loaded.quote ∨ current.quote = value.quote
  baseId : current.baseId = loaded.baseId ∨ current.baseId = value.baseId
  quoteId : current.quoteId = loaded.quoteId ∨ current.quoteId = value.quoteId

namespace MarketData

variable {loaded found value current : MarketData}

theorem between_loaded : Between loaded value loaded :=
  ⟨.inl rfl, .inl rfl, .inl rfl, .inl rfl, .inl rfl⟩

theorem between_self_iff : Between value value current ↔ current = value := by
  constructor
  · rintro ⟨externalMarketId, base, quote, baseId, quoteId⟩
    cases current
    cases value
    rw [mk.injEq]
    exact ⟨or_self_iff.mp externalMarketId, or_self_iff.mp base, or_self_iff.mp quote,
      or_self_iff.mp baseId, or_self_iff.mp quoteId⟩
  · rintro rfl
    exact between_loaded

theorem Between.update (between : Between loaded value current) :
    Between loaded value (updateData found value current) where
  externalMarketId := changed_between between.externalMarketId
  base := changed_between between.base
  quote := changed_between between.quote
  baseId := changed_between between.baseId
  quoteId := changed_between between.quoteId

private theorem Between.updateData_eq (between : Between loaded value current) : updateData loaded value current = value := by
  rw [updateData, changed_eq between.externalMarketId, changed_eq between.base, changed_eq between.quote,
    changed_eq between.baseId, changed_eq between.quoteId]

end MarketData

namespace Seeding

variable {seeding other : Seeding} {market loaded : Market} {data : MarketData} {symbol wanted : String}
  {table : MarketTable} {existingRecord row : ℕ × Market}

@[simp] theorem toMarketData_updateMarket : (seeding.updateMarket loaded data market).toMarketData =
    updateData loaded.toMarketData data market.toMarketData := by
  simp [updateMarket]

@[simp] theorem toMarketData_createMarket : (seeding.createMarket symbol data).toMarketData = data := by
  simp [createMarket]

private theorem toMarketData_resetMarket : (seeding.resetMarket market).toMarketData = market.toMarketData := by
  rw [resetMarket]
  split
  · exact Kind.toMarketData_setFlag
  · rfl

/-- Markets stay where they are, and between what they were and what the exchange says. -/
def KeepsData (seeding : Seeding) (table next : MarketTable) : Prop :=
  ∀ symbol row data, seeding.currentExchangeMarkets symbol = some data → seeding.findOne table symbol = some row →
    ∃ later, seeding.findOne next symbol = some later ∧ later.1 = row.1 ∧
      ∀ before, MarketData.Between before data row.2.toMarketData →
        MarketData.Between before data later.2.toMarketData

theorem KeepsData.refl : seeding.KeepsData table table :=
  fun _ row _ _ found => ⟨row, found, rfl, fun _ between => between⟩

theorem keepsData_reset : other.KeepsData table (seeding.resetMarketStatuses table) := by
  intro symbol row data _ found
  refine ⟨(row.1, seeding.resetMarket row.2), ?_, rfl, ?_⟩
  · rw [findOne_reset, found, Option.map_some]
  · intro before between
    exact toMarketData_resetMarket.symm ▸ between

theorem keepsData_save {saved : MarketTable} {found : Option (ℕ × Market)}
    (agree : seeding.exchangeId = other.exchangeId → seeding.currentExchangeMarkets = other.currentExchangeMarkets)
    (listed : seeding.currentExchangeMarkets symbol = some data)
    (located : seeding.Located table symbol found) (saves : seeding.save table symbol data found = some saved) :
    other.KeepsData table saved := by
  intro wanted row told isListed row_found
  rcases save_cases saves with ⟨existingRecord, rfl, rfl⟩ | ⟨rfl, absent, rfl⟩
  case inl =>
    obtain ⟨target, target_found, target_id⟩ := located existingRecord rfl
    refine ⟨(row.1, seeding.savedRow existingRecord data row), ?_, rfl, ?_⟩
    · rw [findOne_update, row_found, Option.map_some]
    · intro before between
      change before.Between told (seeding.savedRow existingRecord data row).toMarketData
      rw [savedRow]
      split
      next same =>
        have own := eq_of_located target_found (findOne_some row_found).1 (same.trans target_id.symm)
        subst own
        -- both seedings were told the same of the market
        have exchange := (findOne_some target_found).2.1.symm.trans (findOne_some row_found).2.1
        have name := (findOne_some target_found).2.2.symm.trans (findOne_some row_found).2.2
        rw [agree exchange, name, isListed] at listed
        cases listed
        rw [toMarketData_updateMarket]
        exact between.update
      next => exact between
  case inr =>
    refine ⟨row, ?_, rfl, fun _ between => between⟩
    rw [findOne_create, row_found, Option.some_or]

/-- The found row has kept the columns that it was found with, or has those of the exchange. -/
def Followed (seeding : Seeding) (table : MarketTable) (symbol : String) (data : MarketData)
    (found : Option (ℕ × Market)) : Prop :=
  ∀ existingRecord, found = some existingRecord → ∃ row, seeding.findOne table symbol = some row ∧
    row.1 = existingRecord.1 ∧ existingRecord.2.toMarketData.Between data row.2.toMarketData

theorem Followed.keep {next : MarketTable} {found : Option (ℕ × Market)}
    (followed : seeding.Followed table symbol data found) (keeps : seeding.KeepsData table next)
    (listed : seeding.currentExchangeMarkets symbol = some data) : seeding.Followed next symbol data found := by
  intro existingRecord found
  obtain ⟨row, row_found, id, between⟩ := followed existingRecord found
  obtain ⟨later, later_found, later_id, kept⟩ := keeps symbol row data listed row_found
  exact ⟨later, later_found, later_id.trans id, kept _ between⟩

/-- The symbol's market is there as the exchange says it. -/
def Carried (seeding : Seeding) (table : MarketTable) (symbol : String) : Prop :=
  ∃ row, seeding.findOne table symbol = some row ∧
    seeding.currentExchangeMarkets symbol = some row.2.toMarketData

theorem Carried.keep {next : MarketTable} (carried : seeding.Carried table symbol)
    (keeps : seeding.KeepsData table next) : seeding.Carried next symbol := by
  obtain ⟨row, found, listed⟩ := carried
  obtain ⟨later, later_found, _, kept⟩ := keeps symbol row _ listed found
  have same := MarketData.between_self_iff.mp (kept _ (MarketData.between_self_iff.mpr rfl))
  exact ⟨later, later_found, listed.trans (congrArg some same.symm)⟩

theorem carried_save {saved : MarketTable} {found : Option (ℕ × Market)}
    (followed : seeding.Followed table symbol data found)
    (listed : seeding.currentExchangeMarkets symbol = some data)
    (saves : seeding.save table symbol data found = some saved) : seeding.Carried saved symbol := by
  rcases save_cases saves with ⟨existingRecord, rfl, rfl⟩ | ⟨rfl, absent, rfl⟩
  case inl =>
    obtain ⟨row, row_found, id, between⟩ := followed existingRecord rfl
    refine ⟨(row.1, seeding.savedRow existingRecord data row), ?_, ?_⟩
    · rw [findOne_update, row_found, Option.map_some]
    · rw [savedRow, if_pos id, toMarketData_updateMarket, between.updateData_eq]
      exact listed
  case inr =>
    refine ⟨(table.nextId, seeding.createMarket symbol data), ?_, ?_⟩
    · rw [findOne_create, absent, Option.none_or,
        if_pos (isMarket_iff.mpr ⟨exchangeId_createMarket, symbol_createMarket⟩)]
    · rw [toMarketData_createMarket]
      exact listed

end Seeding

end PriceFeed.Workers.CCXTSeeder
