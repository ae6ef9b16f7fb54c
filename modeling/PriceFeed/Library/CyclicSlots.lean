import Mathlib.Algebra.Order.BigOperators.Group.List
import Mathlib.Algebra.Order.Field.Basic
import Mathlib.Order.Fin.Basic
import Mathlib.Tactic.Linarith
import Mathlib.Tactic.Ring

/-! Consecutive windows, each cut into equal slots, repeated with one period.
Slots are ordered by cycle, then window, then position. -/

namespace PriceFeed.Library

variable {K : Type*} [Field K]

/-- A stretch of the period cut into `slots` pieces of length `slotLength`. -/
structure Window (K : Type*) where
  slots : ℕ
  slotLength : K

def Window.length (window : Window K) : K := window.slots * window.slotLength

namespace Window

/-- Where a window begins: the lengths of all windows before it. -/
def origin (windows : List (Window K)) (index : ℕ) : K :=
  ((windows.take index).map length).sum

def period (windows : List (Window K)) : K := (windows.map length).sum

/-- One slot of one cycle. Its indices are within the windows by type. -/
@[ext]
structure Slot (windows : List (Window K)) where
  cycle : ℤ
  window : Fin windows.length
  position : Fin (windows.get window).slots

variable {windows : List (Window K)}

def Slot.length (slot : Slot windows) : K := (windows.get slot.window).slotLength

def Slot.start (slot : Slot windows) : K :=
  slot.cycle * period windows + origin windows slot.window + slot.position * slot.length

inductive Slot.Precedes : Slot windows → Slot windows → Prop where
  | cycle (earlier : first.cycle < second.cycle) : Precedes first second
  | window (same : first.cycle = second.cycle)
      (earlier : first.window < second.window) : Precedes first second
  | position (same : first.cycle = second.cycle) (shared : first.window = second.window)
      (earlier : first.position.val < second.position.val) : Precedes first second

omit [Field K] in
theorem Slot.precedes_or_precedes {first second : Slot windows} (distinct : first ≠ second) :
    first.Precedes second ∨ second.Precedes first := by
  obtain ⟨cycle₁, window₁, position₁⟩ := first
  obtain ⟨cycle₂, window₂, position₂⟩ := second
  rcases lt_trichotomy cycle₁ cycle₂ with before | same | after
  · exact .inl (.cycle before)
  · subst same
    rcases lt_trichotomy window₁ window₂ with before | same | after
    · exact .inl (.window rfl before)
    · subst same
      have different : position₁.val ≠ position₂.val := by
        intro same
        exact distinct (by rw [Fin.ext same])
      rcases Nat.lt_or_gt_of_ne different with before | after
      · exact .inl (.position rfl rfl before)
      · exact .inr (.position rfl rfl after)
    · exact .inr (.window rfl after)
  · exact .inr (.cycle after)

@[simp] theorem origin_zero : origin windows 0 = 0 := by simp [origin]

theorem origin_succ (index : Fin windows.length) :
    origin windows (index + 1) = origin windows index + (windows.get index).length := by
  unfold origin
  rw [List.take_add_one, List.getElem?_eq_getElem index.isLt, List.map_append, List.sum_append]
  simp

theorem origin_full : origin windows windows.length = period windows := by
  simp [origin, period]

section Nonneg

variable [LinearOrder K] [IsStrictOrderedRing K]
variable (nonneg : ∀ window ∈ windows, 0 ≤ window.slotLength)
include nonneg

theorem origin_mono (order : first ≤ second) : origin windows first ≤ origin windows second := by
  have split : windows.take second =
      windows.take first ++ (windows.drop first).take (second - first) := by
    rw [← List.take_add, Nat.add_sub_cancel' order]
  have later : 0 ≤ (((windows.drop first).take (second - first)).map length).sum := by
    apply List.sum_nonneg
    intro value member
    obtain ⟨window, present, rfl⟩ := List.mem_map.mp member
    have owned := nonneg window (List.mem_of_mem_drop (List.mem_of_mem_take present))
    exact mul_nonneg (Nat.cast_nonneg _) owned
  simp only [origin, split, List.map_append, List.sum_append]
  linarith

omit [IsStrictOrderedRing K] in
theorem Slot.length_nonneg (slot : Slot windows) : 0 ≤ slot.length :=
  nonneg _ (List.get_mem ..)

/-- A slot ends inside its own window. -/
theorem Slot.end_le_window (slot : Slot windows) :
    slot.start + slot.length ≤
      slot.cycle * period windows + origin windows (slot.window + 1) := by
  have within : ((slot.position.val + 1 : ℕ) : K) ≤ ((windows.get slot.window).slots : K) :=
    Nat.cast_le.mpr slot.position.isLt
  have scaled := mul_le_mul_of_nonneg_right within (slot.length_nonneg nonneg)
  push_cast at scaled
  rw [origin_succ, Window.length, Slot.start]
  unfold Slot.length at *
  linarith

theorem Slot.window_le_start (slot : Slot windows) :
    slot.cycle * period windows + origin windows slot.window ≤ slot.start := by
  have offset : 0 ≤ (slot.position.val : K) * slot.length :=
    mul_nonneg (Nat.cast_nonneg _) (slot.length_nonneg nonneg)
  rw [Slot.start]
  linarith

/-- The windows tile the period, so a slot is over before any later one begins. -/
theorem Slot.Precedes.spaced {first second : Slot windows} (before : Precedes first second) :
    first.start + first.length ≤ second.start := by
  cases before with
  | cycle earlier =>
    have ending := first.end_le_window nonneg
    have beginning := second.window_le_start nonneg
    have inside := origin_mono nonneg (Nat.succ_le_of_lt first.window.isLt)
    have zeroth : origin windows 0 ≤ origin windows second.window := origin_mono nonneg (Nat.zero_le _)
    have next : ((first.cycle + 1 : ℤ) : K) ≤ (second.cycle : K) := Int.cast_le.mpr earlier
    have periodNonneg : 0 ≤ period windows := by
      have whole : origin windows 0 ≤ origin windows windows.length :=
        origin_mono nonneg (Nat.zero_le _)
      rwa [origin_zero, origin_full] at whole
    have cycles := mul_le_mul_of_nonneg_right next periodNonneg
    rw [origin_full] at inside
    rw [origin_zero] at zeroth
    push_cast at cycles
    linarith
  | window same earlier =>
    have ending := first.end_le_window nonneg
    have beginning := second.window_le_start nonneg
    have order : origin windows (first.window + 1) ≤ origin windows second.window :=
      origin_mono nonneg (Nat.succ_le_of_lt earlier)
    rw [same] at ending
    linarith
  | position same shared earlier =>
    have next : ((first.position.val + 1 : ℕ) : K) ≤ (second.position.val : K) :=
      Nat.cast_le.mpr earlier
    have scaled := mul_le_mul_of_nonneg_right next (second.length_nonneg nonneg)
    have lengths : first.length = second.length := by simp only [Slot.length, shared]
    push_cast at scaled
    simp only [Slot.start, same, shared, lengths]
    linarith

end Nonneg

/-- Distinct slots never start closer together than the length of the earlier one. -/
theorem Slot.spaced [LinearOrder K] [IsStrictOrderedRing K]
    (positive : ∀ window ∈ windows, 0 < window.slotLength)
    {first second : Slot windows} (distinct : first ≠ second) (order : first.start ≤ second.start) :
    first.start + first.length ≤ second.start := by
  have nonneg : ∀ window ∈ windows, 0 ≤ window.slotLength :=
    fun window member => (positive window member).le
  rcases precedes_or_precedes distinct with before | after
  · exact before.spaced nonneg
  · have reversed := after.spaced nonneg
    have gap : 0 < second.length := positive _ (List.get_mem ..)
    linarith

end Window

end PriceFeed.Library
