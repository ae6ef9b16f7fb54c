import Mathlib.Data.List.Lex
import Mathlib.Data.Char
import Mathlib.Algebra.Order.Monoid.Unbundled.Basic
import Mathlib.Order.Compare
import Mathlib.Tactic.Linarith
import Mathlib.Tactic.Positivity

/-! Numerals of a fixed width, read and written digit by digit. Texts that begin with them are
compared as their numbers are. -/

namespace PriceFeed.Library

/-! Comparisons that look at one thing first and then at another. -/

section Comparisons

theorem cmp_eq_lt {α : Type*} [LT α] [DecidableLT α] {first second : α} :
    cmp first second = .lt ↔ first < second := by
  unfold cmp cmpUsing
  split_ifs <;> simp_all

variable {α β : Type*} [LinearOrder α] [LinearOrder β]

theorem cmp_eq_then {first second : α} {left right : β} {rest : Ordering}
    (less : first < second → left < right) (greater : second < first → right < left)
    (same : first = second → cmp left right = rest) :
    cmp left right = (cmp first second).then rest := by
  rcases lt_trichotomy first second with below | equal | above
  · rw [(less below).cmp_eq_lt, below.cmp_eq_lt]
    rfl
  · rw [same equal, equal.cmp_eq_eq]
    rfl
  · rw [(greater above).cmp_eq_gt, above.cmp_eq_gt]
    rfl

theorem cmp_cons (first second : α) (left right : List α) :
    cmp (first :: left) (second :: right) = (cmp first second).then (cmp left right) := by
  unfold cmp cmpUsing
  simp only [List.cons_lt_cons_iff]
  rcases lt_trichotomy first second with below | rfl | above
  · simp [below]
  · simp
  · simp [above, above.not_gt, above.ne']

theorem cmp_append_left (text left right : List α) :
    cmp (text ++ left) (text ++ right) = cmp left right := by
  induction text with
  | nil => rfl
  | cons first text ih =>
    rw [List.cons_append, List.cons_append, cmp_cons, cmp_self_eq_eq, ih]
    rfl

end Comparisons

def readDigit : List Char → Option (ℕ × List Char)
  | [] => none
  | symbol :: text => if symbol.isDigit then some (symbol.toNat - 48, text) else none

/-- The number that the first `width` symbols spell, and the text after them. -/
def readNumeral : ℕ → List Char → Option (ℕ × List Char)
  | 0, text => some (0, text)
  | width + 1, text => do
    let (digit, text) ← readDigit text
    let (number, text) ← readNumeral width text
    return (digit * 10 ^ width + number, text)

def writeNumeral : ℕ → ℕ → List Char
  | 0, _ => []
  | width + 1, number => Nat.digitChar (number / 10 ^ width) :: writeNumeral width (number % 10 ^ width)

variable {text rest : List Char} {digit number width : ℕ}

theorem readDigit_sound (taken : readDigit text = some (digit, rest)) :
    digit < 10 ∧ text = Nat.digitChar digit :: rest := by
  cases text with
  | nil => cases taken
  | cons symbol text =>
    simp only [readDigit] at taken
    split at taken
    · next held =>
      cases taken
      have bounds : 48 ≤ symbol.toNat ∧ symbol.toNat ≤ 57 := by
        simpa [Char.isDigit, UInt32.le_iff_toNat_le] using held
      refine ⟨by omega, ?_⟩
      have same : symbol = Nat.digitChar (symbol.toNat - 48) := by
        apply Char.toNat_inj.mp
        rw [Nat.toNat_digitChar_of_lt_ten (by omega)]
        omega
      rw [← same]
    · cases taken

theorem readNumeral_sound (taken : readNumeral width text = some (number, rest)) :
    number < 10 ^ width ∧ text = writeNumeral width number ++ rest := by
  induction width generalizing text number with
  | zero =>
    cases taken
    exact ⟨Nat.one_pos, rfl⟩
  | succ width ih =>
    obtain ⟨⟨digit, middle⟩, first, taken⟩ := Option.bind_eq_some_iff.mp taken
    obtain ⟨⟨lower, last⟩, later, taken⟩ := Option.bind_eq_some_iff.mp taken
    cases taken
    obtain ⟨small, spelled⟩ := readDigit_sound first
    obtain ⟨below, written⟩ := ih later
    have quotient : (digit * 10 ^ width + lower) / 10 ^ width = digit := by
      rw [mul_comm, Nat.mul_add_div (by positivity), Nat.div_eq_of_lt below, add_zero]
    have remainder : (digit * 10 ^ width + lower) % 10 ^ width = lower := by
      rw [mul_comm, Nat.mul_add_mod, Nat.mod_eq_of_lt below]
    constructor
    · have whole : (digit + 1) * 10 ^ width ≤ 10 * 10 ^ width := Nat.mul_le_mul_right _ small
      rw [pow_succ]
      linarith
    · rw [spelled, written, writeNumeral, quotient, remainder]
      rfl

theorem digitChar_lt_digitChar {first second : ℕ} (below : first < second) (small : second < 10) :
    Nat.digitChar first < Nat.digitChar second := by
  have codes : (Nat.digitChar first).toNat < (Nat.digitChar second).toNat := by
    rw [Nat.toNat_digitChar_of_lt_ten small, Nat.toNat_digitChar_of_lt_ten (below.trans small)]
    omega
  exact codes

theorem cmp_digitChar {first second : ℕ} (small : first < 10) (other : second < 10) :
    cmp (Nat.digitChar first) (Nat.digitChar second) = cmp first second := by
  rcases lt_trichotomy first second with below | rfl | above
  · rw [below.cmp_eq_lt, (digitChar_lt_digitChar below other).cmp_eq_lt]
  · rw [cmp_self_eq_eq, cmp_self_eq_eq]
  · rw [above.cmp_eq_gt, (digitChar_lt_digitChar above small).cmp_eq_gt]

theorem cmp_div_mod (first second divisor : ℕ) :
    cmp first second =
      (cmp (first / divisor) (second / divisor)).then (cmp (first % divisor) (second % divisor)) := by
  refine cmp_eq_then Nat.lt_of_div_lt_div Nat.lt_of_div_lt_div fun same => ?_
  conv_lhs => rw [← Nat.div_add_mod first divisor, ← Nat.div_add_mod second divisor, same]
  exact cmp_add_left _ _ _

/-- Texts that begin with numerals of one width are compared by their numbers first. -/
theorem cmp_writeNumeral_append {first second : ℕ} (small : first < 10 ^ width)
    (other : second < 10 ^ width) (left right : List Char) :
    cmp (writeNumeral width first ++ left) (writeNumeral width second ++ right) =
      (cmp first second).then (cmp left right) := by
  induction width generalizing first second with
  | zero =>
    obtain rfl : first = 0 := Nat.lt_one_iff.mp small
    obtain rfl : second = 0 := Nat.lt_one_iff.mp other
    rfl
  | succ width ih =>
    have positive : 0 < 10 ^ width := by positivity
    have digits : first / 10 ^ width < 10 ∧ second / 10 ^ width < 10 := by
      rw [Nat.div_lt_iff_lt_mul positive, Nat.div_lt_iff_lt_mul positive, ← pow_succ']
      exact ⟨small, other⟩
    rw [writeNumeral, writeNumeral, List.cons_append, List.cons_append, cmp_cons, cmp_digitChar digits.1 digits.2, ih (Nat.mod_lt _ positive) (Nat.mod_lt _ positive),
      cmp_div_mod first second (10 ^ width), Ordering.then_assoc]

end PriceFeed.Library
