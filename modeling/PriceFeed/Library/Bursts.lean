import Mathlib.Data.List.Chain
import Mathlib.Data.List.Flatten

/-! Items in batches that are apart from each other: what comes in one burst is in one batch. -/

namespace PriceFeed.Library

variable {Item : Type*} {apart : Item → Item → Prop} {batches : List (List Item)}
  {before burst after batch : List Item}

/-- Every item is apart from those of later batches. -/
def Separated (apart : Item → Item → Prop) (batches : List (List Item)) : Prop :=
  batches.Pairwise fun earlier later => ∀ first ∈ earlier, ∀ second ∈ later, apart first second

theorem separated_concat : Separated apart (batches ++ [batch]) ↔
    Separated apart batches ∧ ∀ first ∈ batches.flatten, ∀ second ∈ batch, apart first second := by
  rw [Separated, List.pairwise_append]
  constructor
  · rintro ⟨earlier, _, last⟩
    refine ⟨earlier, fun first member second present => ?_⟩
    obtain ⟨other, held, inside⟩ := List.mem_flatten.mp member
    exact last other held batch List.mem_cons_self first inside second present
  · rintro ⟨earlier, last⟩
    refine ⟨earlier, List.pairwise_singleton _ _, fun other held found same first inside second present => ?_⟩
    cases List.mem_singleton.mp same
    exact last first (List.mem_flatten_of_mem held inside) second present

theorem Separated.burst_infix (separated : Separated apart batches)
    (split : batches.flatten = before ++ burst ++ after) (close : burst.IsChain fun first second => ¬ apart first second)
    (some : burst ≠ []) : ∃ batch ∈ batches, burst <:+: batch := by
  induction batches generalizing before with
  | nil =>
    have none : burst = [] := by
      have empty := split.symm
      simp only [List.flatten_nil, List.append_eq_nil_iff] at empty
      exact empty.1.2
    exact absurd none some
  | cons batch batches ih =>
    obtain ⟨first, others⟩ := List.pairwise_cons.mp separated
    rw [List.flatten_cons, List.append_assoc, List.append_eq_append_iff] at split
    rcases split with ⟨rest, rfl, split⟩ | ⟨rest, rfl, split⟩
    · -- the burst comes after this batch
      obtain ⟨found, held, inside⟩ := ih others (split.trans (List.append_assoc _ _ _).symm)
      exact ⟨found, List.mem_cons_of_mem _ held, inside⟩
    · rcases List.append_eq_append_iff.mp split with ⟨more, rfl, _⟩ | ⟨more, rfl, later⟩
      · refine ⟨_, List.mem_cons_self, ?_⟩
        exact ⟨before, more, by rw [List.append_assoc]⟩
      · rcases List.eq_nil_or_concat' rest with rfl | ⟨front, last, rfl⟩
        · have whole : batches.flatten = [] ++ ([] ++ more) ++ after := later
          obtain ⟨found, held, inside⟩ := ih others whole
          exact ⟨found, List.mem_cons_of_mem _ held, inside⟩
        · cases more with
          | nil => exact ⟨_, List.mem_cons_self, before, [], by simp⟩
          | cons next more =>
            -- the burst would be cut between two neighbours
            have neighbours := (List.isChain_append.mp close).2.2 last (by simp) next rfl
            refine absurd ?_ neighbours
            have present : next ∈ batches.flatten := later ▸ List.mem_cons_self
            obtain ⟨other, held, inside⟩ := List.mem_flatten.mp present
            exact first other held last (by simp) next inside

end PriceFeed.Library
