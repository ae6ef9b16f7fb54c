import Mathlib.Data.Char
import Mathlib.Data.List.Lex
import Mathlib.Order.Monotone.Basic

/-! Texts as sequences of UTF-16 code units, which is what comparisons of strings look at. -/

namespace PriceFeed.Library

/-- The UTF-16 code units of one character. None of them begins another's, since
surrogates are no characters. -/
def unitsOf (char : Char) : List ℕ :=
  if char.toNat < 0x10000 then [char.toNat]
  else [0xD800 + (char.toNat - 0x10000) / 0x400, 0xDC00 + (char.toNat - 0x10000) % 0x400]

def codeUnits (text : List Char) : List ℕ := text.flatMap unitsOf

theorem unitsOf_ne_nil (char : Char) : unitsOf char ≠ [] := by
  unfold unitsOf
  split <;> simp

theorem unitsOf_append_inj {first second : Char} {rest others : List ℕ}
    (same : unitsOf first ++ rest = unitsOf second ++ others) : first = second ∧ rest = others := by
  have named : first.toNat = second.toNat → first = second :=
    fun equal => Char.ext (UInt32.toNat_inj.mp equal)
  have valid : first.toNat < 0xD800 ∨ 0xDFFF < first.toNat ∧ first.toNat < 0x110000 := first.valid
  have valid' : second.toNat < 0xD800 ∨ 0xDFFF < second.toNat ∧ second.toNat < 0x110000 :=
    second.valid
  unfold unitsOf at same
  split at same <;> split at same <;>
    simp only [List.cons_append, List.nil_append, List.cons.injEq] at same
  · exact ⟨named same.1, same.2⟩
  · omega
  · omega
  · exact ⟨named (by omega), same.2.2⟩

theorem codeUnits_injective : Function.Injective codeUnits := by
  intro first second same
  induction first generalizing second with
  | nil =>
    cases second with
    | nil => rfl
    | cons other others => exact absurd (List.append_eq_nil_iff.mp same.symm).1 (unitsOf_ne_nil other)
  | cons char rest ih =>
    cases second with
    | nil => exact absurd (List.append_eq_nil_iff.mp same).1 (unitsOf_ne_nil char)
    | cons other others =>
      obtain ⟨rfl, equal⟩ := unitsOf_append_inj same
      rw [ih equal]

/-- Each character is one code unit. -/
def Plain (text : List Char) : Prop := ∀ char ∈ text, char.toNat < 0x10000

namespace Plain

variable {first second : List Char}

theorem nil : Plain [] := fun _ absent => absurd absent List.not_mem_nil

theorem cons {char : Char} (small : char.toNat < 0x10000) (plain : Plain first) : Plain (char :: first) :=
  List.forall_mem_cons.mpr ⟨small, plain⟩

theorem append (plain : Plain first) (other : Plain second) : Plain (first ++ second) :=
  List.forall_mem_append.mpr ⟨plain, other⟩

theorem codeUnits_eq (plain : Plain first) : codeUnits first = first.map Char.toNat := by
  induction first with
  | nil => rfl
  | cons char rest ih =>
    obtain ⟨small, others⟩ := List.forall_mem_cons.mp plain
    rw [codeUnits, List.flatMap_cons, ← codeUnits, ih others, unitsOf, if_pos small]
    rfl

/-- Such texts are compared as their characters are. -/
theorem codeUnits_lt_iff (plain : Plain first) (other : Plain second) :
    codeUnits first < codeUnits second ↔ first < second := by
  have increasing : StrictMono (List.map Char.toNat) := fun _ _ => List.map_lt fun _ _ less => less
  rw [plain.codeUnits_eq, other.codeUnits_eq, increasing.lt_iff_lt]

end Plain

end PriceFeed.Library
