import Mathlib.Algebra.Order.Field.Basic
import Mathlib.Tactic.Linarith

/-! Work that enters a row of stages once a period. An item is known by its origin,
the moment at which it entered; an item in a later stage has the earlier origin. -/

namespace PriceFeed.Library

variable {K : Type*} [Field K] [LinearOrder K] [IsStrictOrderedRing K]

/-- Items in different stages entered at least one period apart. Stage 0 holds the
entries that are still to come. -/
def Staggered (period : K) (pending : ℕ → K → Prop) : Prop :=
  ∀ stage later origin older, stage < later → pending stage origin → pending later older →
    older + period ≤ origin

namespace Staggered

variable {period origin : K} {pending next : ℕ → K → Prop}

omit [IsStrictOrderedRing K] in
theorem mono (staggered : Staggered period pending)
    (fewer : ∀ stage origin, next stage origin → pending stage origin) : Staggered period next := by
  intro stage later origin older before first second
  exact staggered stage later origin older before (fewer stage origin first) (fewer later older second)

omit [IsStrictOrderedRing K] in
/-- An item moves on and keeps its origin. -/
theorem advance {stage : ℕ} (staggered : Staggered period pending) (item : pending stage origin)
    (moved : ∀ other entry, next other entry →
      other = stage + 1 ∧ entry = origin ∨ other ≠ stage ∧ pending other entry) :
    Staggered period next := by
  intro first second newer older before newerItem olderItem
  rcases moved first newer newerItem with ⟨rfl, rfl⟩ | ⟨apart, waiting⟩
  · rcases moved second older olderItem with ⟨rfl, _⟩ | ⟨_, later⟩
    · exact absurd before (lt_irrefl _)
    · exact staggered stage second newer older (by omega) item later
  · rcases moved second older olderItem with ⟨rfl, rfl⟩ | ⟨_, later⟩
    · exact staggered first stage newer older (by omega) waiting item
    · exact staggered first second newer older before waiting later

theorem enters (staggered : Staggered period pending) (nonnegative : 0 ≤ period)
    (item : pending 0 origin)
    (moved : ∀ other entry, next other entry → other = 0 ∧ entry = origin + period ∨
      other = 1 ∧ entry = origin ∨ 0 < other ∧ pending other entry) : Staggered period next := by
  intro first second newer older before newerItem olderItem
  rcases moved second older olderItem with ⟨rfl, _⟩ | ⟨rfl, rfl⟩ | ⟨positive, later⟩
  · exact absurd before (Nat.not_lt_zero _)
  · obtain rfl : first = 0 := by omega
    rcases moved 0 newer newerItem with ⟨_, rfl⟩ | ⟨same, _⟩ | ⟨positive, _⟩
    · exact le_rfl
    · cases same
    · exact absurd positive (lt_irrefl _)
  · have apart := staggered 0 second origin older positive item later
    rcases moved first newer newerItem with ⟨_, rfl⟩ | ⟨_, rfl⟩ | ⟨_, waiting⟩
    · linarith
    · exact apart
    · exact staggered first second newer older before waiting later

end Staggered

end PriceFeed.Library
