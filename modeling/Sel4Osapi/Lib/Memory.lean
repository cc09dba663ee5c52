import Mathlib.Data.UInt

/-!
# Memory as bytes

A memory is a function from addresses to bytes. A word takes four of them, the low byte first. A sequence of stores is
applied in order; `applyAll_bytes` says what a copy of a block leaves behind, and `loadWord_storeWord` and
`loadWord_storeWord_of_disjoint` what a word read back is.
-/

namespace Memory

/-- The word at `a`. -/
def loadWord (m : Nat → UInt8) (a : Nat) : UInt32 :=
  UInt32.ofNat ((m a).toNat + 256 * (m (a + 1)).toNat + 65536 * (m (a + 2)).toNat + 16777216 * (m (a + 3)).toNat)

/-- The memory after a word has been stored at `a`. -/
def storeWord (m : Nat → UInt8) (a : Nat) (w : UInt32) : Nat → UInt8 := fun i =>
  if i = a then UInt8.ofNat w.toNat
  else if i = a + 1 then UInt8.ofNat (w.toNat / 256)
  else if i = a + 2 then UInt8.ofNat (w.toNat / 65536)
  else if i = a + 3 then UInt8.ofNat (w.toNat / 16777216)
  else m i

/-- A word that was stored is read back. -/
@[simp] theorem loadWord_storeWord (m : Nat → UInt8) (a : Nat) (w : UInt32) : loadWord (storeWord m a w) a = w := by
  have hw : w.toNat < 4294967296 := w.toNat_lt
  have hbyte : ∀ n, (UInt8.ofNat n).toNat = n % 256 := fun n => UInt8.toNat_ofNat'
  have hbytes : w.toNat % 256 + 256 * (w.toNat / 256 % 256) + 65536 * (w.toNat / 65536 % 256) +
      16777216 * (w.toNat / 16777216 % 256) = w.toNat := by omega
  simp [loadWord, storeWord, -UInt8.ofNat_uInt32ToNat, hbyte, hbytes]

/-- A word is its four bytes. -/
theorem loadWord_congr {m m' : Nat → UInt8} {a : Nat} (h : ∀ i, a ≤ i → i < a + 4 → m i = m' i) : loadWord m a = loadWord m' a := by
  rw [loadWord, h a (by omega) (by omega), h (a + 1) (by omega) (by omega), h (a + 2) (by omega) (by omega),
    h (a + 3) (by omega) (by omega), loadWord]

/-- A byte outside a word does not change when the word is stored. -/
theorem storeWord_of_outside {m : Nat → UInt8} {a i : Nat} {w : UInt32} (h : i < a ∨ a + 4 ≤ i) : storeWord m a w i = m i := by
  simp only [storeWord]
  rw [if_neg (by omega), if_neg (by omega), if_neg (by omega), if_neg (by omega)]

/-- A word does not change when one is stored elsewhere. -/
theorem loadWord_storeWord_of_disjoint {m : Nat → UInt8} {a b : Nat} {w : UInt32} (h : a + 4 ≤ b ∨ b + 4 ≤ a) :
    loadWord (storeWord m a w) b = loadWord m b :=
  loadWord_congr fun i hi hi' => storeWord_of_outside (by omega)

/-- A word does not change when a byte is stored elsewhere. -/
theorem loadWord_update_of_disjoint {m : Nat → UInt8} {a b : Nat} {c : UInt8} (h : a < b ∨ b + 4 ≤ a) :
    loadWord (Function.update m a c) b = loadWord m b :=
  loadWord_congr fun i hi hi' => Function.update_of_ne (by omega) _ _

/-- The string at `a`, of which at most `fuel` bytes are read; `none` when there is no null among them. -/
def stringAt (m : Nat → UInt8) : (fuel a : Nat) → Option (List UInt8)
  | 0, _ => none
  | fuel + 1, a => if m a = 0 then some [] else (stringAt m fuel (a + 1)).map (m a :: ·)

/-- One store to memory. -/
inductive Store where
  | byte (a : Nat) (b : UInt8)
  | word (a : Nat) (w : UInt32)
  deriving DecidableEq, Repr

/-- The memory after a store. -/
def Store.apply (m : Nat → UInt8) : Store → Nat → UInt8
  | .byte a b => Function.update m a b
  | .word a w => storeWord m a w

/-- The memory after a sequence of stores. -/
def applyAll (m : Nat → UInt8) (ss : List Store) : Nat → UInt8 := ss.foldl Store.apply m

@[simp] theorem applyAll_nil (m : Nat → UInt8) : applyAll m [] = m := rfl

/-- The stores of a copy of a block to the start of the memory. -/
def bytes (data : List UInt8) : List Store := data.mapIdx Store.byte

theorem applyAll_take_succ {m : Nat → UInt8} {ss : List Store} {i : Nat} {s : Store} (h : ss[i]? = some s) :
    applyAll m (ss.take (i + 1)) = s.apply (applyAll m (ss.take i)) := by
  rw [List.take_add_one, h, applyAll, List.foldl_append]
  rfl

/-- After the copy of a block its bytes are in memory. -/
theorem applyAll_bytes (m : Nat → UInt8) (data : List UInt8) (j : Nat) (hj : j < data.length) :
    data[j]? = some (applyAll m (bytes data) j) := by
  induction data using List.reverseRecOn with
  | nil => simp at hj
  | append_singleton data b ih =>
    have hlast : applyAll m (bytes (data ++ [b])) = Function.update (applyAll m (bytes data)) data.length b := by
      rw [bytes, List.mapIdx_append]
      simp [applyAll, bytes, Store.apply]
    rw [hlast]
    rcases eq_or_ne j data.length with rfl | hne
    · simp
    · have hlt : j < data.length := by
        simp only [List.length_append, List.length_singleton] at hj
        omega
      rw [Function.update_of_ne hne, List.getElem?_append_left hlt]
      exact ih hlt

end Memory
