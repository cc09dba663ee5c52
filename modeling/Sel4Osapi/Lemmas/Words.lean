import Sel4Osapi.Basic
import Mathlib.Data.Int.ModEq

/-!
# Words that are assigned to an `int`, and back
-/

namespace Sel4Osapi

/-- A word and the `int` it is assigned to agree modulo 2^32. -/
theorem intOfWord_emod (w : Word) : intOfWord w % 2 ^ 32 = w.toNat := by
  have hlt := w.toNat_lt
  rw [intOfWord, BitVec.toInt_eq_toNat_bmod, UInt32.toNat_toBitVec]
  have hbmod := Int.bmod_emod (x := w.toNat) (m := 2 ^ 32)
  push_cast at hbmod ⊢
  rw [hbmod]
  omega

/-- A word comes back from an `int` as it was. -/
theorem ofInt_intOfWord (w : Word) : UInt32.ofInt (intOfWord w) = w := by
  rw [UInt32.ofInt, intOfWord_emod, Int.toNat_natCast, UInt32.ofNat_toNat]

/-- A word in an `int` that is passed as a `u16_t`. -/
theorem toNat_uint16_ofInt_intOfWord (w : Word) : (UInt16.ofInt (intOfWord w)).toNat = w.toNat % 65536 := by
  have hmod : intOfWord w % 2 ^ 16 = w.toNat % 2 ^ 16 := by
    rw [← intOfWord_emod w, Int.emod_emod_of_dvd _ (by decide)]
  rw [UInt16.ofInt, hmod, UInt16.toNat_ofNat']
  omega

/-- The values of an `int`. -/
theorem intOfWord_bounds (w : Word) : -2 ^ 31 ≤ intOfWord w ∧ intOfWord w < 2 ^ 31 :=
  ⟨w.toBitVec.le_toInt, w.toBitVec.toInt_lt⟩

/-- An `int` becomes a word exactly when it is the value of the word. -/
theorem ofInt_eq_iff {n : Int} (h₁ : -2 ^ 31 ≤ n) (h₂ : n < 2 ^ 31) {w : Word} : UInt32.ofInt n = w ↔ n = intOfWord w := by
  constructor
  · rintro rfl
    have hmod := intOfWord_emod (UInt32.ofInt n)
    obtain ⟨hlo, hhi⟩ := intOfWord_bounds (UInt32.ofInt n)
    have htoNat : ((UInt32.ofInt n).toNat : Int) = n % 2 ^ 32 := by
      have := Int.emod_nonneg n (b := 2 ^ 32) (by decide)
      have := Int.emod_lt_of_pos n (b := 2 ^ 32) (by decide)
      rw [UInt32.ofInt, UInt32.toNat_ofNat', Nat.mod_eq_of_lt (by omega)]
      omega
    rw [htoNat] at hmod
    omega
  · rintro rfl
    exact ofInt_intOfWord w

end Sel4Osapi
