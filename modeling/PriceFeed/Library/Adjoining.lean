import Mathlib.Order.Basic
import Mathlib.Order.Lattice
import Mathlib.Data.Nat.Find

/-! Intervals that adjoin each other, and collections that take in what lies in one
of them and possibly what lies at its end. -/

namespace PriceFeed.Library

/-- `count` intervals, each from one boundary to the next. -/
structure Adjoining (Point : Type*) [LinearOrder Point] where
  boundary : ℕ → Point
  count : ℕ
  increasing : ∀ index < count, boundary index < boundary (index + 1)

namespace Adjoining

variable {Point : Type*} [LinearOrder Point] (chain : Adjoining Point)

/-- The half-open interval of an index. -/
def Cell (index : ℕ) (point : Point) : Prop :=
  chain.boundary index ≤ point ∧ point < chain.boundary (index + 1)

/-- The point lies in one of the intervals. -/
def Spans (point : Point) : Prop := chain.boundary 0 ≤ point ∧ point < chain.boundary chain.count

variable {chain} {point : Point}

theorem boundary_mono (order : first ≤ second) (within : second ≤ chain.count) :
    chain.boundary first ≤ chain.boundary second := by
  induction second, order using Nat.le_induction with
  | base => exact le_rfl
  | succ second _ ih =>
    exact (ih (Nat.le_of_succ_le within)).trans (chain.increasing second within).le

theorem boundary_lt (order : first < second) (within : second ≤ chain.count) :
    chain.boundary first < chain.boundary second :=
  (chain.increasing first (order.trans_le within)).trans_le (boundary_mono order within)

theorem exists_cell (spanned : chain.Spans point) : ∃ index < chain.count, chain.Cell index point := by
  obtain ⟨after, before⟩ := spanned
  have general : ∀ count ≤ chain.count, point < chain.boundary count →
      ∃ index < count, chain.Cell index point := by
    intro count within
    induction count with
    | zero => exact fun early => absurd after (not_le.mpr early)
    | succ count ih =>
      intro early
      by_cases reached : chain.boundary count ≤ point
      · exact ⟨count, Nat.lt_succ_self count, reached, early⟩
      · obtain ⟨index, inside, cell⟩ := ih (Nat.le_of_succ_le within) (not_le.mp reached)
        exact ⟨index, Nat.lt_succ_of_lt inside, cell⟩
  exact general chain.count le_rfl before

theorem cell_unique (inside : first < chain.count) (within : second < chain.count)
    (here : chain.Cell first point) (there : chain.Cell second point) : first = second := by
  rcases lt_trichotomy first second with before | same | after
  · exact absurd (boundary_mono before within.le) (not_le.mpr (there.1.trans_lt here.2))
  · exact same
  · exact absurd (boundary_mono after inside.le) (not_le.mpr (here.1.trans_lt there.2))

theorem cell_boundary (inside : index + 1 < chain.count) :
    chain.Cell (index + 1) (chain.boundary (index + 1)) :=
  ⟨le_rfl, chain.increasing _ inside⟩

theorem spans_boundary (inside : index + 1 < chain.count) :
    chain.Spans (chain.boundary (index + 1)) :=
  ⟨boundary_mono (Nat.zero_le _) inside.le, boundary_lt inside le_rfl⟩

section Collections

variable {takes late : ℕ → Prop}
variable (collected : ∀ index < chain.count,
  (takes index ↔ chain.Cell index point ∨ point = chain.boundary (index + 1) ∧ late index))
include collected

/-- A point is taken twice only if it is an inner boundary that the interval before takes in. -/
theorem takes_unique (clear : ∀ index, index + 1 < chain.count →
      point = chain.boundary (index + 1) → ¬ late index)
    (inside : first < chain.count) (within : second < chain.count) (here : takes first)
    (there : takes second) : first = second := by
  have apart : ∀ {cell other}, cell < chain.count → other < chain.count → chain.Cell cell point →
      point = chain.boundary (other + 1) → late other → cell = other := by
    intro cell other inside within held ended taken
    rcases Nat.lt_or_eq_of_le (Nat.succ_le_of_lt within) with inner | last
    · exact absurd taken (clear other inner ended)
    · have beyond : point < chain.boundary chain.count :=
        held.2.trans_le (boundary_mono inside le_rfl)
      rw [← last, ← ended] at beyond
      exact absurd beyond (lt_irrefl _)
  rcases (collected first inside).mp here with cell | ⟨ended, taken⟩
  · rcases (collected second within).mp there with cell' | ⟨ended', taken'⟩
    · exact cell_unique inside within cell cell'
    · exact apart inside within cell ended' taken'
  · rcases (collected second within).mp there with cell' | ⟨ended', -⟩
    · exact (apart within inside cell' ended taken).symm
    · have same : chain.boundary (first + 1) = chain.boundary (second + 1) := ended.symm.trans ended'
      rcases lt_trichotomy first second with before | equal | after
      · exact absurd same (boundary_lt (Nat.succ_lt_succ before) within).ne
      · exact equal
      · exact absurd same (boundary_lt (Nat.succ_lt_succ after) inside).ne'

/-- A point within the chain is taken by exactly one interval, unless it is an inner
boundary that the interval before takes in. -/
theorem takes_once_iff : (chain.Spans point → ∃! index, index < chain.count ∧ takes index) ↔
    ∀ index, index + 1 < chain.count → point = chain.boundary (index + 1) → ¬ late index := by
  constructor
  · rintro once index inner rfl taken
    obtain ⟨_, -, only⟩ := once (spans_boundary inner)
    have before := only index
      ⟨Nat.lt_of_succ_lt inner, (collected index (Nat.lt_of_succ_lt inner)).mpr (.inr ⟨rfl, taken⟩)⟩
    have after := only (index + 1)
      ⟨inner, (collected (index + 1) inner).mpr (.inl (cell_boundary inner))⟩
    omega
  · intro clear spanned
    obtain ⟨index, inside, cell⟩ := exists_cell spanned
    have taken := (collected index inside).mpr (.inl cell)
    exact ⟨index, ⟨inside, taken⟩, fun other held =>
      takes_unique collected clear held.1 inside held.2 taken⟩

end Collections

end Adjoining

end PriceFeed.Library
