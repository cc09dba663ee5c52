import Mathlib.Data.UInt
import Mathlib.Data.List.TakeWhile

/-!
# Decimal digits as bytes

`Decimal.digits n` are the bytes of the decimal digits of a number, as `printf` writes them, and `Decimal.value` is the number
that the digits at the front of a string stand for, as `atoi` reads them. `value_take_digits_iff` says which numbers survive
in a string that is cut after `k` bytes.
-/

namespace Decimal

/-- The byte of a character. -/
def byte (c : Char) : UInt8 := UInt8.ofNat c.toNat

/-- The decimal digits of a number. -/
def digits (n : Nat) : List UInt8 := (Nat.toDigits 10 n).map byte

/-- The byte is a digit. -/
def isDigit (b : UInt8) : Bool := 48 ≤ b && b ≤ 57

/-- What digits come to, after others that came to `v`. -/
def accumulate (v : Nat) (l : List UInt8) : Nat := l.foldl (fun v b => 10 * v + (b.toNat - 48)) v

/-- The number that the digits at the front of a string stand for. -/
def value (l : List UInt8) : Nat := accumulate 0 (l.takeWhile isDigit)

/-- The byte of a digit. -/
theorem byte_toNat {c : Char} (hc : c.isDigit = true) : (byte c).toNat = c.toNat := by
  have h : c.toNat ≤ 57 := by
    simp only [Char.isDigit, Bool.and_eq_true, decide_eq_true_eq] at hc
    exact hc.2
  rw [byte, UInt8.toNat_ofNat']
  omega

/-- The bytes of digits are digits. -/
theorem isDigit_byte {c : Char} (hc : c.isDigit = true) : isDigit (byte c) = true := by
  have hb := byte_toNat hc
  simp only [Char.isDigit, Bool.and_eq_true, decide_eq_true_eq] at hc
  simp only [isDigit, Bool.and_eq_true, decide_eq_true_eq, UInt8.le_iff_toNat_le, hb]
  exact ⟨hc.1, hc.2⟩

/-- The digits of a number are digits. -/
theorem isDigit_of_mem_digits {n : Nat} {b : UInt8} (h : b ∈ digits n) : isDigit b = true := by
  obtain ⟨c, hc, rfl⟩ := List.mem_map.mp h
  exact isDigit_byte (Nat.isDigit_of_mem_toDigits (by decide) (by decide) hc)

/-- How many digits a number has. -/
theorem length_digits_le_iff {n k : Nat} (hk : 0 < k) : (digits n).length ≤ k ↔ n < 10 ^ k := by
  rw [digits, List.length_map, Nat.length_toDigits_le_iff (by decide) hk]

/-- The bytes of digits come to what the digits do. -/
theorem accumulate_map_byte {cs : List Char} (h : ∀ c ∈ cs, c.isDigit = true) (v : Nat) :
    accumulate v (cs.map byte) = Nat.ofDigitChars 10 cs v := by
  induction cs generalizing v with
  | nil => simp [accumulate]
  | cons c cs ih =>
    rw [List.forall_mem_cons] at h
    rw [Nat.ofDigitChars_cons, ← ih h.2, accumulate, List.map_cons, List.foldl_cons, byte_toNat h.1]
    rfl

/-- A string that begins with digits, and nothing but digits there. -/
theorem value_of_forall {l : List UInt8} (h : ∀ b ∈ l, isDigit b = true) : value l = accumulate 0 l := by
  rw [value, List.takeWhile_eq_self_iff.mpr h]

/-- The digits of a number stand for it. -/
theorem value_digits (n : Nat) : value (digits n) = n := by
  rw [value_of_forall fun b => isDigit_of_mem_digits, digits,
    accumulate_map_byte fun c => Nat.isDigit_of_mem_toDigits (by decide) (by decide), Nat.ofDigitChars_ten_toDigits]

/-- A digit is less than ten. -/
theorem digit_lt {b : UInt8} (h : isDigit b = true) : b.toNat - 48 < 10 := by
  simp only [isDigit, Bool.and_eq_true, decide_eq_true_eq, UInt8.le_iff_toNat_le] at h
  have := h.2
  simp at this
  omega

/-- Digits come to less than the power of ten of their number. -/
theorem accumulate_lt {l : List UInt8} (h : ∀ b ∈ l, isDigit b = true) (v : Nat) :
    accumulate v l < 10 ^ l.length * (v + 1) := by
  induction l generalizing v with
  | nil => simp [accumulate]
  | cons b l ih =>
    rw [List.forall_mem_cons] at h
    have hb := digit_lt h.1
    calc accumulate v (b :: l) = accumulate (10 * v + (b.toNat - 48)) l := rfl
      _ < 10 ^ l.length * (10 * v + (b.toNat - 48) + 1) := ih h.2 _
      _ ≤ 10 ^ l.length * (10 * (v + 1)) := Nat.mul_le_mul_left _ (by omega)
      _ = 10 ^ (b :: l).length * (v + 1) := by rw [List.length_cons, Nat.pow_succ, Nat.mul_assoc]

/-- The first `k` digits of a number. -/
theorem value_take_digits_lt {n k : Nat} : value ((digits n).take k) < 10 ^ k := by
  have hdigit : ∀ b ∈ (digits n).take k, isDigit b = true := fun b hb => isDigit_of_mem_digits (List.mem_of_mem_take hb)
  rw [value_of_forall hdigit]
  calc accumulate 0 ((digits n).take k) < 10 ^ ((digits n).take k).length * (0 + 1) := accumulate_lt hdigit 0
    _ ≤ 10 ^ k := by
      rw [Nat.zero_add, Nat.mul_one]
      exact Nat.pow_le_pow_right (by decide) (by rw [List.length_take]; exact Nat.min_le_left _ _)

/-- A number survives in a string that is cut after `k` bytes exactly when it has no more digits. -/
theorem value_take_digits_iff {n k : Nat} (hk : 0 < k) : value ((digits n).take k) = n ↔ n < 10 ^ k := by
  constructor
  · intro h
    exact h ▸ value_take_digits_lt
  · intro h
    rw [List.take_of_length_le ((length_digits_le_iff hk).mpr h), value_digits]

end Decimal
