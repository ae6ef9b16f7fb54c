import PriceFeed.Workers.SeededMarkets

/-! Runs of seeders: what each seeding has in store when it has gone through its symbols. -/

namespace PriceFeed.Workers.CCXTSeeder

open PriceFeed.Library

/-- What one step changes: the table, and how far one seeding is. -/
inductive Transition (seeding : Seeding) (table : MarketTable) (progress : Progress) :
    MarketTable → Progress → Prop where
  | reset {following : Phase} (resetting : progress.phase = .resetting)
      (goes : following = .loading ∨ following = .finished) :
      Transition seeding table progress (seeding.resetMarketStatuses table)
        { progress with phase := following, reset := true }
  | resetFails (resetting : progress.phase = .resetting) :
      Transition seeding table progress table { progress with phase := .finished, reset := false }
  | load (loading : progress.phase = .loading) :
      Transition seeding table progress table { progress with phase := .finding seeding.symbols, loaded := true }
  | loadFails (loading : progress.phase = .loading) :
      Transition seeding table progress table { progress with phase := .finished }
  | finish (finding : progress.phase = .finding []) :
      Transition seeding table progress table { progress with phase := .finished }
  | skip {symbol : String} {rest : List String} (finding : progress.phase = .finding (symbol :: rest))
      (unlisted : seeding.currentExchangeMarkets symbol = none) :
      Transition seeding table progress table { progress with phase := .finding rest }
  | find {symbol : String} {data : MarketData} {rest : List String}
      (finding : progress.phase = .finding (symbol :: rest))
      (listed : seeding.currentExchangeMarkets symbol = some data) :
      Transition seeding table progress table
        { progress with phase := .saving symbol data (seeding.findOne table symbol) rest }
  | findFails {symbol : String} {rest : List String} (finding : progress.phase = .finding (symbol :: rest)) :
      Transition seeding table progress table
        { progress with phase := .finding rest, failed := symbol :: progress.failed }
  | save {symbol : String} {data : MarketData} {found : Option (ℕ × Market)} {rest failed : List String}
      {saved : MarketTable} (saving : progress.phase = .saving symbol data found rest)
      (saves : seeding.save table symbol data found = some saved)
      (logged : failed = progress.failed ∨ failed = symbol :: progress.failed) :
      Transition seeding table progress saved
        { progress with phase := .finding rest, stored := symbol :: progress.stored, failed := failed }
  | saveFails {symbol : String} {data : MarketData} {found : Option (ℕ × Market)} {rest : List String}
      (saving : progress.phase = .saving symbol data found rest) :
      Transition seeding table progress table
        { progress with phase := .finding rest, failed := symbol :: progress.failed }

variable {seedings : ℕ → Seeding} {state next : State} {event : Event} {index : ℕ}

theorem step_transition (taken : state.step seedings event = some next) :
    ∃ index table progress, Transition (seedings index) state.table (state.progress index) table progress ∧
      next = { table, progress := Function.update state.progress index progress } := by
  cases event with
  | resets index =>
    simp only [State.step] at taken
    split at taken
    next resetting =>
      cases taken
      exact ⟨index, _, _, .reset resetting (.inl rfl), rfl⟩
    next => cases taken
  | resetThrows index stored =>
    simp only [State.step] at taken
    split at taken
    next resetting =>
      cases taken
      cases stored with
      | true => exact ⟨index, _, _, .reset resetting (.inr rfl), rfl⟩
      | false => exact ⟨index, _, _, .resetFails resetting, rfl⟩
    next => cases taken
  | loads index =>
    simp only [State.step] at taken
    split at taken
    next loading =>
      cases taken
      exact ⟨index, _, _, .load loading, rfl⟩
    next => cases taken
  | loadThrows index =>
    simp only [State.step] at taken
    split at taken
    next loading =>
      cases taken
      exact ⟨index, _, _, .loadFails loading, rfl⟩
    next => cases taken
  | finds index =>
    simp only [State.step] at taken
    split at taken
    next finding =>
      cases taken
      exact ⟨index, _, _, .finish finding, rfl⟩
    next finding =>
      split at taken
      next unlisted =>
        cases taken
        exact ⟨index, _, _, .skip finding unlisted, rfl⟩
      next data listed =>
        cases taken
        exact ⟨index, _, _, .find finding listed, rfl⟩
    next => cases taken
  | findThrows index =>
    simp only [State.step] at taken
    split at taken
    next finding =>
      obtain ⟨_, rfl⟩ := enabled taken
      exact ⟨index, _, _, .findFails finding, rfl⟩
    next => cases taken
  | saves index =>
    simp only [State.step] at taken
    split at taken
    next saving =>
      split at taken
      next saved saves =>
        cases taken
        exact ⟨index, _, _, .save saving saves (.inl rfl), rfl⟩
      next =>
        cases taken
        exact ⟨index, _, _, .saveFails saving, rfl⟩
    next => cases taken
  | saveThrows index stored =>
    simp only [State.step] at taken
    split at taken
    next saving =>
      split at taken
      next saved saves =>
        cases taken
        cases stored with
        | true => exact ⟨index, _, _, .save saving saves (.inr rfl), rfl⟩
        | false => cases saves
      next =>
        cases taken
        exact ⟨index, _, _, .saveFails saving, rfl⟩
    next => cases taken

/-- The symbols before the rest are stored or logged, where the exchange lists them. -/
def Progress.Covers (seeding : Seeding) (progress : Progress) (rest : List String) : Prop :=
  ∃ earlier, seeding.symbols = earlier ++ rest ∧
    (∀ symbol ∈ progress.stored, symbol ∈ earlier ∧ (seeding.currentExchangeMarkets symbol).isSome) ∧
    ∀ symbol ∈ earlier, (seeding.currentExchangeMarkets symbol).isSome →
      symbol ∈ progress.stored ∨ symbol ∈ progress.failed

def Progress.Sound (seeding : Seeding) (progress : Progress) : Prop :=
  match progress.phase with
  | .resetting => progress.loaded = false ∧ progress.stored = []
  | .loading => progress.reset = true ∧ progress.loaded = false ∧ progress.stored = []
  | .finding rest => progress.reset = true ∧ progress.loaded = true ∧ progress.Covers seeding rest
  | .saving symbol data _ rest => progress.reset = true ∧ progress.loaded = true ∧
      seeding.currentExchangeMarkets symbol = some data ∧ progress.Covers seeding (symbol :: rest)
  | .finished => (progress.loaded = true → progress.reset = true ∧ progress.Covers seeding []) ∧
      (progress.loaded = false → progress.stored = [])

/-- The symbols that a seeding has not gone through. -/
def Progress.remaining (seeding : Seeding) (progress : Progress) : List String :=
  match progress.phase with
  | .resetting | .loading => seeding.symbols
  | .finding rest => rest
  | .saving symbol _ _ rest => symbol :: rest
  | .finished => if progress.loaded then [] else seeding.symbols

section

variable {seeding : Seeding} {progress following : Progress} {table after : MarketTable}
  {symbol : String} {rest : List String}

theorem Progress.covers_start (unstored : progress.stored = []) : progress.Covers seeding seeding.symbols := by
  refine ⟨[], rfl, ?_, ?_⟩
  · intro symbol stored
    rw [unstored] at stored
    cases stored
  · intro symbol none
    cases none

/-- A symbol is done with when it is not listed, stored, or logged. -/
theorem Progress.Covers.advance (covers : progress.Covers seeding (symbol :: rest))
    (added : ∀ other ∈ following.stored, other ∈ progress.stored ∨
      other = symbol ∧ (seeding.currentExchangeMarkets symbol).isSome)
    (stored : progress.stored ⊆ following.stored) (failed : progress.failed ⊆ following.failed)
    (handled : (seeding.currentExchangeMarkets symbol).isSome →
      symbol ∈ following.stored ∨ symbol ∈ following.failed) : following.Covers seeding rest := by
  obtain ⟨earlier, symbols, listed, covered⟩ := covers
  refine ⟨earlier ++ [symbol], ?_, ?_, ?_⟩
  · rw [symbols, List.append_assoc, List.singleton_append]
  · intro other new
    rcases added other new with old | ⟨rfl, isListed⟩
    · exact ⟨List.mem_append_left _ (listed other old).1, (listed other old).2⟩
    · exact ⟨List.mem_append_right _ List.mem_cons_self, isListed⟩
  · intro other member isListed
    rcases List.mem_append.mp member with old | new
    · exact (covered other old isListed).imp (fun here => stored here) fun here => failed here
    · cases List.mem_singleton.mp new
      exact handled isListed

theorem Progress.Sound.transition (sound : progress.Sound seeding)
    (transition : Transition seeding table progress after following) : following.Sound seeding := by
  cases transition with
  | reset resetting goes =>
    simp only [Progress.Sound, resetting] at sound
    rcases goes with rfl | rfl
    · exact ⟨rfl, sound⟩
    · exact ⟨fun loaded => absurd loaded (Bool.eq_false_iff.mp sound.1), fun _ => sound.2⟩
  | resetFails resetting =>
    simp only [Progress.Sound, resetting] at sound
    exact ⟨fun loaded => absurd loaded (Bool.eq_false_iff.mp sound.1), fun _ => sound.2⟩
  | load loading =>
    simp only [Progress.Sound, loading] at sound
    exact ⟨sound.1, rfl, Progress.covers_start sound.2.2⟩
  | loadFails loading =>
    simp only [Progress.Sound, loading] at sound
    exact ⟨fun loaded => absurd loaded (Bool.eq_false_iff.mp sound.2.1), fun _ => sound.2.2⟩
  | finish finding =>
    simp only [Progress.Sound, finding] at sound
    obtain ⟨reset, loaded, covers⟩ := sound
    exact ⟨fun _ => ⟨reset, covers⟩, fun unloaded => absurd loaded (Bool.eq_false_iff.mp unloaded)⟩
  | skip finding unlisted =>
    simp only [Progress.Sound, finding] at sound
    obtain ⟨reset, loaded, covers⟩ := sound
    refine ⟨reset, loaded, covers.advance (fun _ old => .inl old) (List.Subset.refl _) (List.Subset.refl _) ?_⟩
    intro listed
    rw [unlisted] at listed
    cases listed
  | find finding listed =>
    simp only [Progress.Sound, finding] at sound
    exact ⟨sound.1, sound.2.1, listed, sound.2.2⟩
  | findFails finding =>
    simp only [Progress.Sound, finding] at sound
    obtain ⟨reset, loaded, covers⟩ := sound
    refine ⟨reset, loaded, covers.advance (fun _ old => .inl old) (List.Subset.refl _)
      (List.subset_cons_self _ _) ?_⟩
    exact fun _ => .inr List.mem_cons_self
  | @save symbol data found rest failed saved saving saves logged =>
    simp only [Progress.Sound, saving] at sound
    obtain ⟨reset, loaded, listed, covers⟩ := sound
    refine ⟨reset, loaded, covers.advance ?_ (List.subset_cons_self _ _) ?_ ?_⟩
    · intro other new
      rcases List.mem_cons.mp new with rfl | old
      · exact .inr ⟨rfl, Option.isSome_of_eq_some listed⟩
      · exact .inl old
    · rcases logged with rfl | rfl
      · exact List.Subset.refl _
      · exact List.subset_cons_self _ _
    · exact fun _ => .inl List.mem_cons_self
  | saveFails saving =>
    simp only [Progress.Sound, saving] at sound
    obtain ⟨reset, loaded, _, covers⟩ := sound
    refine ⟨reset, loaded, covers.advance (fun _ old => .inl old) (List.Subset.refl _)
      (List.subset_cons_self _ _) ?_⟩
    exact fun _ => .inr List.mem_cons_self

theorem Progress.Covers.of_stored (covers : progress.Covers seeding rest) (stored : symbol ∈ progress.stored) :
    symbol ∈ seeding.symbols ∧ (seeding.currentExchangeMarkets symbol).isSome := by
  obtain ⟨earlier, symbols, listed, _⟩ := covers
  exact ⟨symbols ▸ List.mem_append_left _ (listed symbol stored).1, (listed symbol stored).2⟩

theorem Progress.Sound.covers (sound : progress.Sound seeding) :
    progress.Covers seeding (progress.remaining seeding) := by
  unfold Progress.Sound at sound
  unfold Progress.remaining
  split at sound
  · exact Progress.covers_start sound.2
  · exact Progress.covers_start sound.2.2
  · exact sound.2.2
  · exact sound.2.2.2
  · cases loaded : progress.loaded with
    | false => exact Progress.covers_start (sound.2 loaded)
    | true => exact (sound.1 loaded).2

theorem Progress.Sound.of_stored (sound : progress.Sound seeding) (stored : symbol ∈ progress.stored) :
    symbol ∈ seeding.symbols ∧ (seeding.currentExchangeMarkets symbol).isSome :=
  sound.covers.of_stored stored

/-- A seeding that has gone through its symbols was reset, and has stored or logged each listed one. -/
theorem Progress.Sound.finished (sound : progress.Sound seeding) (done : progress.phase = .finished)
    (loaded : progress.loaded = true) : progress.reset = true ∧ ∀ symbol ∈ seeding.symbols,
      (seeding.currentExchangeMarkets symbol).isSome → symbol ∈ progress.stored ∨ symbol ∈ progress.failed := by
  simp only [Progress.Sound, done] at sound
  obtain ⟨reset, earlier, symbols, _, covered⟩ := sound.1 loaded
  rw [symbols, List.append_nil]
  exact ⟨reset, covered⟩

theorem Progress.Sound.listed {data : MarketData} {found : Option (ℕ × Market)} (sound : progress.Sound seeding)
    (saving : progress.phase = .saving symbol data found rest) :
    seeding.currentExchangeMarkets symbol = some data := by
  simp only [Progress.Sound, saving] at sound
  exact sound.2.2.1

end

/-- Every seeding is sound, and rows that were found are still there. -/
structure State.Sound (seedings : ℕ → Seeding) (state : State) : Prop where
  progress : ∀ index, (state.progress index).Sound (seedings index)
  located : ∀ index symbol data found rest,
    (state.progress index).phase = .saving symbol data found rest →
      (seedings index).Located state.table symbol found

/-- What a step does to the table: nothing, the reset, or the save of one symbol. -/
theorem Transition.table_cases {seeding : Seeding} {progress following : Progress} {table after : MarketTable}
    (transition : Transition seeding table progress after following) :
    (after = table ∧ following.stored = progress.stored ∧ (following.reset = true → progress.reset = true)) ∨
    (progress.phase = .resetting ∧ after = seeding.resetMarketStatuses table ∧
      following.stored = progress.stored) ∨
    ∃ symbol data found rest, progress.phase = .saving symbol data found rest ∧
      seeding.save table symbol data found = some after ∧
        following.stored = symbol :: progress.stored ∧ following.reset = progress.reset := by
  cases transition with
  | reset resetting goes => exact .inr (.inl ⟨resetting, rfl, rfl⟩)
  | save saving saves logged => exact .inr (.inr ⟨_, _, _, _, saving, saves, rfl, rfl⟩)
  | resetFails => exact .inl ⟨rfl, rfl, fun reset => by cases reset⟩
  | load => exact .inl ⟨rfl, rfl, id⟩
  | loadFails => exact .inl ⟨rfl, rfl, id⟩
  | finish => exact .inl ⟨rfl, rfl, id⟩
  | skip => exact .inl ⟨rfl, rfl, id⟩
  | find => exact .inl ⟨rfl, rfl, id⟩
  | findFails => exact .inl ⟨rfl, rfl, id⟩
  | saveFails => exact .inl ⟨rfl, rfl, id⟩

/-- Rows that can be found stay where they are. -/
private theorem Transition.findOne_id {seeding other : Seeding} {progress following : Progress}
    {table after : MarketTable} {symbol : String} {row : ℕ × Market}
    (transition : Transition seeding table progress after following)
    (found : other.findOne table symbol = some row) :
    ∃ later, other.findOne after symbol = some later ∧ later.1 = row.1 := by
  rcases transition.table_cases with ⟨rfl, _⟩ | ⟨_, rfl, _⟩ | ⟨saved, data, before, rest, _, saves, _⟩
  · exact ⟨row, found, rfl⟩
  · refine ⟨(row.1, seeding.resetMarket row.2), ?_, rfl⟩
    rw [Seeding.findOne_reset, found, Option.map_some]
  · rcases Seeding.save_cases saves with ⟨existingRecord, _, rfl⟩ | ⟨_, _, rfl⟩
    · refine ⟨(row.1, seeding.savedRow existingRecord data row), ?_, rfl⟩
      rw [Seeding.findOne_update, found, Option.map_some]
    · exact ⟨row, by rw [Seeding.findOne_create, found, Option.some_or], rfl⟩

/-- Who is saving after a step was saving before it, or has just found its row. -/
theorem Transition.saving_cases {seeding : Seeding} {progress following : Progress}
    {table after : MarketTable} {symbol : String} {data : MarketData} {found : Option (ℕ × Market)}
    {rest : List String} (transition : Transition seeding table progress after following)
    (saving : following.phase = .saving symbol data found rest) :
    after = table ∧ found = seeding.findOne table symbol := by
  cases transition with
  | reset resetting goes => rcases goes with rfl | rfl <;> cases saving
  | find => cases saving; exact ⟨rfl, rfl⟩
  | resetFails => cases saving
  | load => cases saving
  | loadFails => cases saving
  | finish => cases saving
  | skip => cases saving
  | findFails => cases saving
  | save => cases saving
  | saveFails => cases saving

theorem State.Sound.step (sound : state.Sound seedings) (taken : state.step seedings event = some next) :
    next.Sound seedings := by
  obtain ⟨index, table, progress, transition, rfl⟩ := step_transition taken
  constructor
  case progress =>
    intro other
    by_cases own : other = index
    · subst own
      simp only [Function.update_self]
      exact (sound.progress other).transition transition
    · simp only [Function.update_of_ne own]
      exact sound.progress other
  case located =>
    intro other symbol data found rest saving existingRecord is_found
    by_cases own : other = index
    · subst own
      simp only [Function.update_self] at saving
      obtain ⟨rfl, from_table⟩ := transition.saving_cases saving
      exact ⟨existingRecord, from_table.symm.trans is_found, rfl⟩
    · simp only [Function.update_of_ne own] at saving
      obtain ⟨row, row_found, row_id⟩ := sound.located other symbol data found rest saving existingRecord is_found
      obtain ⟨later, later_found, later_id⟩ := transition.findOne_id row_found
      exact ⟨later, later_found, later_id.trans row_id⟩

/-- A seeding's flags are those of the markets that it has stored since its reset. -/
structure State.Flagged (seedings : ℕ → Seeding) (index : ℕ) (state : State) : Prop where
  marked : (state.progress index).reset = true → ∀ symbol,
    (seedings index).Marked state.table symbol ↔ symbol ∈ (state.progress index).stored
  fresh : ∀ symbol data found rest, (state.progress index).phase = .saving symbol data found rest →
    (seedings index).Fresh state.table symbol found

/-- What another seeding does keeps the flags. -/
private theorem Transition.keepsFlags {seeding other : Seeding} {progress following : Progress}
    {table after : MarketTable} (apart : seeding.Apart other)
    (located : ∀ symbol data found rest, progress.phase = .saving symbol data found rest →
      seeding.Located table symbol found)
    (transition : Transition seeding table progress after following) : other.KeepsFlags table after := by
  rcases transition.table_cases with ⟨rfl, _⟩ | ⟨_, rfl, _⟩ | ⟨symbol, data, found, rest, saving, saves, _⟩
  · exact .refl
  · exact Seeding.keepsFlags_reset apart
  · exact Seeding.keepsFlags_save apart (located symbol data found rest saving) saves

theorem Transition.flagged {seeding : Seeding} {progress following : Progress} {table after : MarketTable}
    {symbol : String} (sound : progress.Sound seeding)
    (marked : progress.reset = true → ∀ symbol, seeding.Marked table symbol ↔ symbol ∈ progress.stored)
    (fresh : ∀ symbol data found rest, progress.phase = .saving symbol data found rest →
      seeding.Fresh table symbol found)
    (transition : Transition seeding table progress after following) (reset : following.reset = true) :
    seeding.Marked after symbol ↔ symbol ∈ following.stored := by
  rcases transition.table_cases with ⟨rfl, stored, before⟩ | ⟨resetting, rfl, stored⟩ |
    ⟨saved, data, found, rest, saving, saves, stored, before⟩
  · rw [stored]
    exact marked (before reset) symbol
  · simp only [Progress.Sound, resetting] at sound
    rw [stored, sound.2]
    exact iff_of_false Seeding.not_marked_reset List.not_mem_nil
  · rw [stored, Seeding.marked_save (fresh _ _ _ _ saving) saves, marked (before.symm.trans reset), List.mem_cons]

theorem State.Flagged.step (flagged : state.Flagged seedings index) (sound : state.Sound seedings)
    (apart : ∀ other, other ≠ index → (seedings other).Apart (seedings index))
    (taken : state.step seedings event = some next) : next.Flagged seedings index := by
  obtain ⟨mover, table, progress, transition, rfl⟩ := step_transition taken
  by_cases own : index = mover
  · subst own
    constructor
    case marked =>
      simp only [Function.update_self]
      exact fun reset symbol => transition.flagged (sound.progress index) flagged.marked flagged.fresh reset
    case fresh =>
      intro symbol data found rest saving existingRecord is_found
      simp only [Function.update_self] at saving
      obtain ⟨rfl, from_table⟩ := transition.saving_cases saving
      exact ⟨existingRecord, from_table.symm.trans is_found, rfl, rfl⟩
  · have keeps := transition.keepsFlags (apart mover (Ne.symm own)) (sound.located mover)
    constructor
    case marked =>
      simp only [Function.update_of_ne own]
      exact fun reset symbol => keeps.marked_iff.trans (flagged.marked reset symbol)
    case fresh =>
      intro symbol data found rest saving
      simp only [Function.update_of_ne own] at saving
      exact (flagged.fresh symbol data found rest saving).keep keeps

theorem sound_initial (table : MarketTable) : State.Sound seedings { table } where
  progress _ := ⟨rfl, rfl⟩
  located _ _ _ _ _ saving := by cases saving

private theorem flagged_initial (table : MarketTable) : State.Flagged seedings index { table } where
  marked reset := by cases reset
  fresh _ _ _ _ saving := by cases saving

private theorem run_sound {table : MarketTable} {events : List Event} {final : State}
    (run : Run (State.step seedings) { table } events final) : final.Sound seedings :=
  run.invariant State.Sound.step (sound_initial table)

/-- Sound and flagged, as one step keeps both. -/
def State.SoundlyFlagged (seedings : ℕ → Seeding) (index : ℕ) (state : State) : Prop :=
  state.Sound seedings ∧ state.Flagged seedings index

private theorem run_flagged {table : MarketTable} {events : List Event} {final : State}
    (apart : ∀ other, other ≠ index → (seedings other).Apart (seedings index))
    (run : Run (State.step seedings) { table } events final) : final.Flagged seedings index := by
  have both : final.SoundlyFlagged seedings index := by
    apply run.invariant
    · intro state event next held taken
      exact ⟨held.1.step taken, held.2.step held.1 apart taken⟩
    · exact ⟨sound_initial table, flagged_initial table⟩
  exact both.2

/-- Whatever the other seeders do meanwhile, once a seeding has reset its exchange only markets
that it is to seed and that the exchange lists have its flag. When it has gone through its
symbols all of them have it whose error was not logged. -/
theorem flags_ofListedSymbols {table : MarketTable} {events : List Event} {final : State} {index : ℕ}
    (apart : ∀ other, other ≠ index → (seedings other).Apart (seedings index))
    (run : Run (State.step seedings) { table } events final) :
    ((final.progress index).reset = true → ∀ symbol, (seedings index).Marked final.table symbol →
      symbol ∈ (seedings index).symbols ∧ ((seedings index).currentExchangeMarkets symbol).isSome) ∧
    ((final.progress index).phase = .finished → (final.progress index).loaded = true →
      ∀ symbol ∉ (final.progress index).failed, ((seedings index).Marked final.table symbol ↔
        symbol ∈ (seedings index).symbols ∧ ((seedings index).currentExchangeMarkets symbol).isSome)) := by
  have sound := (run_sound run).progress index
  have flagged := run_flagged apart run
  constructor
  · intro reset symbol marked
    exact sound.of_stored ((flagged.marked reset symbol).mp marked)
  · intro done loaded symbol unlogged
    obtain ⟨reset, covered⟩ := sound.finished done loaded
    rw [flagged.marked reset symbol]
    constructor
    · exact sound.of_stored
    · rintro ⟨configured, listed⟩
      exact (covered symbol configured listed).resolve_right unlogged

/-- What has been stored is as the exchange says, and rows that were found are on the way to it. -/
structure State.Faithful (seedings : ℕ → Seeding) (state : State) : Prop where
  sound : state.Sound seedings
  carried : ∀ index, ∀ symbol ∈ (state.progress index).stored, (seedings index).Carried state.table symbol
  followed : ∀ index symbol data found rest, (state.progress index).phase = .saving symbol data found rest →
    (seedings index).Followed state.table symbol data found

private theorem Transition.keepsData {seeding other : Seeding} {progress following : Progress} {table after : MarketTable}
    (agree : seeding.exchangeId = other.exchangeId → seeding.currentExchangeMarkets = other.currentExchangeMarkets)
    (sound : progress.Sound seeding)
    (located : ∀ symbol data found rest, progress.phase = .saving symbol data found rest →
      seeding.Located table symbol found)
    (transition : Transition seeding table progress after following) : other.KeepsData table after := by
  rcases transition.table_cases with ⟨rfl, _⟩ | ⟨_, rfl, _⟩ | ⟨symbol, data, found, rest, saving, saves, _⟩
  · exact .refl
  · exact Seeding.keepsData_reset
  · exact Seeding.keepsData_save agree (sound.listed saving) (located symbol data found rest saving) saves

theorem State.Faithful.step (faithful : state.Faithful seedings)
    (agree : ∀ index other, (seedings index).exchangeId = (seedings other).exchangeId →
      (seedings index).currentExchangeMarkets = (seedings other).currentExchangeMarkets)
    (taken : state.step seedings event = some next) : next.Faithful seedings := by
  have after := faithful.sound.step taken
  obtain ⟨index, table, progress, transition, rfl⟩ := step_transition taken
  have keeps : ∀ other, (seedings other).KeepsData state.table table := fun other =>
    transition.keepsData (agree index other) (faithful.sound.progress index) (faithful.sound.located index)
  refine ⟨after, ?_, ?_⟩
  · intro other symbol stored
    by_cases own : other = index
    · subst own
      simp only [Function.update_self] at stored
      rcases transition.table_cases with ⟨rfl, same, _⟩ | ⟨_, rfl, same⟩ |
        ⟨saved, data, found, rest, saving, saves, same, _⟩
      · exact faithful.carried other symbol (same ▸ stored)
      · exact (faithful.carried other symbol (same ▸ stored)).keep (keeps other)
      · rw [same] at stored
        rcases List.mem_cons.mp stored with rfl | earlier
        · exact Seeding.carried_save (faithful.followed other _ _ _ _ saving)
            ((faithful.sound.progress other).listed saving) saves
        · exact (faithful.carried other symbol earlier).keep (keeps other)
    · simp only [Function.update_of_ne own] at stored
      exact (faithful.carried other symbol stored).keep (keeps other)
  · intro other symbol data found rest saving
    by_cases own : other = index
    · subst own
      simp only [Function.update_self] at saving
      obtain ⟨rfl, from_table⟩ := transition.saving_cases saving
      intro existingRecord is_found
      exact ⟨existingRecord, from_table.symm.trans is_found, rfl, MarketData.between_loaded⟩
    · simp only [Function.update_of_ne own] at saving
      exact (faithful.followed other symbol data found rest saving).keep (keeps other)
        ((faithful.sound.progress other).listed saving)

private theorem faithful_initial (table : MarketTable) : State.Faithful seedings { table } where
  sound := sound_initial table
  carried _ _ stored := by cases stored
  followed _ _ _ _ _ saving := by cases saving

/-- However seeders interleave that were told the same of an exchange, also two that seed one
flag of it, a market that one has gone through carries what the exchange says of it, although
each writes only the columns that differ from what it had read. -/
theorem markets_asListed {table : MarketTable} {events : List Event} {final : State}
    (agree : ∀ index other, (seedings index).exchangeId = (seedings other).exchangeId →
      (seedings index).currentExchangeMarkets = (seedings other).currentExchangeMarkets)
    (run : Run (State.step seedings) { table } events final) (index : ℕ) {earlier : List String}
    (gone : (seedings index).symbols = earlier ++ (final.progress index).remaining (seedings index)) :
    ∀ symbol ∈ earlier, ∀ data, (seedings index).currentExchangeMarkets symbol = some data →
      symbol ∉ (final.progress index).failed →
        ∃ row, (seedings index).findOne final.table symbol = some row ∧ row.2.toMarketData = data := by
  have faithful : final.Faithful seedings :=
    run.invariant (fun held taken => held.step agree taken) (faithful_initial table)
  obtain ⟨passed, symbols, -, covered⟩ := (faithful.sound.progress index).covers
  obtain rfl : earlier = passed := List.append_cancel_right (gone.symm.trans symbols)
  intro symbol member data listed unlogged
  have handled := covered symbol member (Option.isSome_of_eq_some listed)
  obtain ⟨row, found, told⟩ := faithful.carried index symbol (handled.resolve_right unlogged)
  exact ⟨row, found, Option.some.inj (told.symm.trans listed)⟩

section TwoSeeders

def bitcoin : MarketData := ⟨"btcusd", "BTC", "USD", "btc", "usd"⟩

/-- Both seeders take one exchange, which lists one of two symbols. -/
def twoSeeders (index : ℕ) : Seeding where
  kind := if index = 0 then .realtime else .historical
  exchangeId := if index < 2 then 1 else index
  symbols := ["BTC/USD", "GONE/USD"]
  currentExchangeMarkets symbol := if symbol = "BTC/USD" then some bitcoin else none

def unseeded : MarketTable :=
  SerialTable.empty.bulkCreate
    [{ bitcoin with exchangeId := 1, symbol := "BTC/USD", quoteId := "usdt", historical := true }]

/-- Each finds the market before the other one saves it. -/
def bothFind : List Event :=
  [.resets 0, .resets 1, .loads 0, .loads 1, .finds 0, .finds 1, .saves 1, .saves 0, .finds 0, .finds 0]

theorem flags_ofListedSymbols_bothFind : ∃ final, Run (State.step twoSeeders) { table := unseeded } bothFind final ∧
    (twoSeeders 0).Marked final.table "BTC/USD" ∧ ¬ (twoSeeders 0).Marked final.table "GONE/USD" := by
  obtain ⟨final, run, done, loaded, failed⟩ : ∃ final,
      Run (State.step twoSeeders) { table := unseeded } bothFind final ∧
        (final.progress 0).phase = .finished ∧ (final.progress 0).loaded = true ∧
          (final.progress 0).failed = [] :=
    ⟨_, run_iff_execute.mpr rfl, rfl, rfl, rfl⟩
  have apart : ∀ other, other ≠ 0 → (twoSeeders other).Apart (twoSeeders 0) := by
    intro other different
    refine .inl ?_
    rw [twoSeeders, twoSeeders, if_neg different, if_pos rfl]
    exact Kind.noConfusion
  have exactly := (flags_ofListedSymbols apart run).2 done loaded
  rw [failed] at exactly
  refine ⟨final, run, ?_⟩
  rw [exactly _ List.not_mem_nil, exactly _ List.not_mem_nil]
  decide

theorem markets_asListed_bothFind : ∃ final,
    Run (State.step twoSeeders) { table := unseeded } (bothFind.take 8) final ∧
      (final.progress 0).phase ≠ .finished ∧
        ∃ row, (twoSeeders 0).findOne final.table "BTC/USD" = some row ∧ row.2.toMarketData = bitcoin := by
  obtain ⟨final, run, phase, failed⟩ : ∃ final,
      Run (State.step twoSeeders) { table := unseeded } (bothFind.take 8) final ∧
        (final.progress 0).phase = .finding ["GONE/USD"] ∧ (final.progress 0).failed = [] :=
    ⟨_, run_iff_execute.mpr rfl, rfl, rfl⟩
  have gone : (twoSeeders 0).symbols = ["BTC/USD"] ++ (final.progress 0).remaining (twoSeeders 0) := by
    rw [Progress.remaining, phase]
    rfl
  have listed := markets_asListed (fun _ _ _ => rfl) run 0 gone "BTC/USD" List.mem_cons_self bitcoin rfl
  refine ⟨final, run, ?_, listed ?_⟩
  · rw [phase]
    exact Phase.noConfusion
  · rw [failed]
    exact List.not_mem_nil

end TwoSeeders

end PriceFeed.Workers.CCXTSeeder
