import Mathlib.Data.List.Range

/-! Rounds in which each of a number of participants takes one turn, in any order. A round
begins when everybody has had the turn of the one before. -/

namespace PriceFeed.Library

/-- The rounds in which a participant took its turns, of all turns by participant and round. -/
def turnsOf (turns : List (ℕ × ℕ)) (participant : ℕ) : List ℕ :=
  (turns.filter fun turn => turn.1 = participant).map Prod.snd

/-- Everybody has taken its turns round by round, but for the last turn of those that wait. -/
def TakesTurns (participants : ℕ) (waiting : ℕ → Prop) (turns : List (ℕ × ℕ)) (rounds : ℕ) : Prop :=
  ∀ participant < participants,
    ¬ waiting participant ∧ turnsOf turns participant = List.range rounds ∨
      waiting participant ∧ ∃ earlier, rounds = earlier + 1 ∧ turnsOf turns participant = List.range earlier

variable {participants rounds : ℕ} {waiting after : ℕ → Prop} {turns : List (ℕ × ℕ)}

theorem takesTurns_nil (nobody : ∀ participant, ¬ waiting participant) :
    TakesTurns participants waiting [] 0 :=
  fun participant _ => .inl ⟨nobody participant, rfl⟩

theorem turnsOf_concat (turns : List (ℕ × ℕ)) (participant round other : ℕ) :
    turnsOf (turns ++ [(participant, round)]) other =
      if participant = other then turnsOf turns other ++ [round] else turnsOf turns other := by
  by_cases same : participant = other
  · simp [turnsOf, same]
  · simp [turnsOf, same]

namespace TakesTurns

theorem congr (takes : TakesTurns participants waiting turns rounds)
    (same : ∀ participant < participants, after participant ↔ waiting participant) :
    TakesTurns participants after turns rounds := by
  intro participant inside
  rw [same participant inside]
  exact takes participant inside

theorem next (takes : TakesTurns participants waiting turns rounds)
    (nobody : ∀ participant, ¬ waiting participant) (all : ∀ participant < participants, after participant) :
    TakesTurns participants after turns (rounds + 1) := by
  intro participant inside
  obtain ⟨-, taken⟩ := (takes participant inside).resolve_right fun waits => nobody participant waits.1
  exact .inr ⟨all participant inside, rounds, rfl, taken⟩

theorem turn {participant round : ℕ} (takes : TakesTurns participants waiting turns (round + 1))
    (waits : waiting participant) (gone : ∀ other, after other ↔ waiting other ∧ other ≠ participant) :
    TakesTurns participants after (turns ++ [(participant, round)]) (round + 1) := by
  intro other inside
  rw [turnsOf_concat]
  by_cases same : participant = other
  · subst other
    obtain ⟨-, earlier, rounds, taken⟩ := (takes participant inside).resolve_left fun done => done.1 waits
    obtain rfl : round = earlier := Nat.succ.inj rounds
    rw [if_pos rfl, taken, List.range_succ]
    exact .inl ⟨fun still => ((gone participant).mp still).2 rfl, rfl⟩
  · rw [if_neg same, gone]
    simpa [Ne.symm same] using takes other inside

theorem complete (takes : TakesTurns participants waiting turns rounds)
    (nobody : ∀ participant, ¬ waiting participant) {participant : ℕ} (inside : participant < participants) :
    turnsOf turns participant = List.range rounds :=
  ((takes participant inside).resolve_right fun waits => nobody participant waits.1).2

theorem exists_range (takes : TakesTurns participants waiting turns rounds) {participant : ℕ}
    (inside : participant < participants) :
    ∃ count ≤ rounds, turnsOf turns participant = List.range count := by
  rcases takes participant inside with ⟨-, taken⟩ | ⟨-, earlier, rfl, taken⟩
  · exact ⟨rounds, Nat.le_refl _, taken⟩
  · exact ⟨earlier, Nat.le_succ _, taken⟩

end TakesTurns

end PriceFeed.Library
