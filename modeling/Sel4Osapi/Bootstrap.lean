import Sel4Osapi.Process

/-!
# system.c: what a process makes of its environment

`sel4osapi_system_bootstrap_user` sets up the allocator of a process from the environment that the root task wrote: the
slots that the allocator may use, and the untypeds, one call of `allocman_utspace_add_uts` for each slot of the range
`untypeds`. An error of `allocman` stops the process.
-/

namespace Sel4Osapi

/-- What the allocator of a process is given: the free slots, and each untyped by its slot and its size. -/
structure UserAllocator where
  freeSlotsStart : CPtr
  freeSlotsEnd : CPtr
  untypeds : List (CPtr × UInt8)
  deriving DecidableEq, Repr

/-- The loop of `sel4osapi_system_bootstrap_user` over the slots, with `slot` and `size_bits_index`. -/
def bootstrapLoop (env : ProcessEnv) : (fuel : Nat) → (slot : Word) → (sizeBitsIndex : Nat) → Res (List (CPtr × UInt8))
  | 0, _, _ => .error .diverged
  | fuel + 1, slot, sizeBitsIndex =>
    if slot ≤ env.untypedsEnd then do
      let rest ← bootstrapLoop env fuel (slot + 1) (sizeBitsIndex + 1)
      pure ((slot, env.untypedSizeBitsList sizeBitsIndex) :: rest)
    else pure []

/-- `sel4osapi_system_bootstrap_user(system, bootstrap_mem_pool, env)`, as far as the allocator goes. -/
def systemBootstrapUser (env : ProcessEnv) : Res UserAllocator := do
  let untypeds ← bootstrapLoop env ((env.untypedsEnd - env.untypedsStart).toNat + 2) env.untypedsStart 0
  pure { freeSlotsStart := env.freeSlotsStart, freeSlotsEnd := env.freeSlotsEnd, untypeds := untypeds }

/-- Over a range that does not wrap the loop meets each slot once. -/
theorem bootstrapLoop_eq {env : ProcessEnv} {m fuel i : Nat} {slot : Word} (hfuel : m < fuel)
    (hend : env.untypedsEnd.toNat + 1 < 2 ^ 32) (hm : slot.toNat + m = env.untypedsEnd.toNat + 1) :
    bootstrapLoop env fuel slot i =
      .ok ((List.range m).map fun k => (slot + UInt32.ofNat k, env.untypedSizeBitsList (i + k))) := by
  induction m generalizing fuel slot i with
  | zero =>
    obtain ⟨fuel, rfl⟩ := Nat.exists_eq_succ_of_ne_zero (Nat.pos_iff_ne_zero.mp hfuel)
    have hnot : ¬ slot ≤ env.untypedsEnd := by
      rw [UInt32.le_iff_toNat_le]
      omega
    rw [bootstrapLoop, if_neg hnot]
    rfl
  | succ m ih =>
    obtain ⟨fuel, rfl⟩ := Nat.exists_eq_succ_of_ne_zero (Nat.pos_iff_ne_zero.mp (Nat.zero_lt_of_lt hfuel))
    have hle : slot ≤ env.untypedsEnd := by
      rw [UInt32.le_iff_toNat_le]
      omega
    have hnext : (slot + 1).toNat + m = env.untypedsEnd.toNat + 1 := by
      rw [UInt32.toNat_add, UInt32.toNat_one, Nat.mod_eq_of_lt (by omega)]
      omega
    rw [bootstrapLoop, if_pos hle, ih (Nat.lt_of_succ_lt_succ hfuel) hnext, List.range_succ_eq_map, List.map_cons, List.map_map]
    have htail : ∀ k, (slot + 1 + UInt32.ofNat k, env.untypedSizeBitsList (i + 1 + k)) =
        (slot + UInt32.ofNat (k + 1), env.untypedSizeBitsList (i + (k + 1))) := by
      intro k
      rw [UInt32.ofNat_add, add_assoc, add_comm (UInt32.ofNat k), Nat.add_assoc, Nat.add_comm 1 k]
      rfl
    simp only [htail]
    rw [ok_bind, show slot + UInt32.ofNat 0 = slot from add_zero slot, Nat.add_zero]
    rfl

end Sel4Osapi
