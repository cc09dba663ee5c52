import Sel4Osapi.Basic

/-!
# util.c: the untypeds that the root task reserves

`sel4osapi_util_allocate_untypeds` asks the allocator for untypeds of 8 MB, one after another, until it has as many or as much
memory as it may take, or the allocator refuses. `vka k` is what the call of `vka_alloc_untyped` for `untypeds[k]` comes to: the
object it writes there, or `none` for an error. A call that fails is assumed to leave `untypeds[k]` as it is. Sizes are words:
`size_t` and `unsigned long` have 32 bits.
-/

namespace Sel4Osapi

/-- `vka_object_t`, as far as anything reads it. -/
structure VkaObject where
  cptr : CPtr
  sizeBits : UInt8
  deriving DecidableEq, Repr

/-- `size_bits`: each untyped has 8 MB. -/
def untypedSizeBits : UInt8 := 23

/-- `BIT(size_bits)`. -/
def untypedBit : Word := 1 <<< untypedSizeBits.toUInt32

/-- A count below a bound can be counted up. -/
theorem toNat_succ_of_lt {numUntypeds maxUntypeds : Word} (h : numUntypeds < maxUntypeds) :
    (numUntypeds + 1).toNat = numUntypeds.toNat + 1 := by
  have hlt := UInt32.lt_iff_toNat_lt.mp h
  have hmax := maxUntypeds.toNat_lt
  rw [UInt32.toNat_add, UInt32.toNat_one, Nat.mod_eq_of_lt (by omega)]

/-- The loop of `sel4osapi_util_allocate_untypeds`: `num_untypeds`, and the array. -/
def utilAllocateUntypedsLoop (vka : Nat → Option VkaObject) (bytes maxUntypeds numUntypeds allocated : Word)
    (untypeds : Nat → VkaObject) : Word × (Nat → VkaObject) :=
  if numUntypeds < maxUntypeds ∧ allocated + untypedBit ≤ bytes then
    match vka numUntypeds.toNat with
    | some object =>
      utilAllocateUntypedsLoop vka bytes maxUntypeds (numUntypeds + 1) (allocated + untypedBit)
        (Function.update untypeds numUntypeds.toNat object)
    | none => (numUntypeds, untypeds)
  else (numUntypeds, untypeds)
termination_by maxUntypeds.toNat - numUntypeds.toNat
decreasing_by
  rename_i h
  have hlt := UInt32.lt_iff_toNat_lt.mp h.1
  rw [toNat_succ_of_lt h.1]
  omega

/-- `sel4osapi_util_allocate_untypeds(vka, untypeds, bytes, max_untypeds)`. -/
def utilAllocateUntypeds (vka : Nat → Option VkaObject) (untypeds : Nat → VkaObject) (bytes maxUntypeds : Word) :
    Word × (Nat → VkaObject) :=
  utilAllocateUntypedsLoop vka bytes maxUntypeds 0 0 untypeds

end Sel4Osapi
