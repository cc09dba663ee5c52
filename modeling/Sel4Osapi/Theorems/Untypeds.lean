import Sel4Osapi.Untypeds

/-!
# How much memory the root task reserves

The loop of `sel4osapi_util_allocate_untypeds` adds up the bytes it has taken in a word, and asks for another untyped when the
sum with that untyped is not above the limit. The sum with the 512th untyped starts over from 0 and is never above it. So the
limit is kept as long as the loop does not get that far, and not at all from there on.
-/

namespace Sel4Osapi

/-- What the loop does from the `k`th untyped on: it takes what the allocator returns as long as the word of the bytes is not
above the limit. -/
structure UntypedsTaken (vka : Nat → Option VkaObject) (bytes maxUntypeds : Word) (before : Nat → VkaObject) (k : Nat)
    (n : Word) (untypeds : Nat → VkaObject) : Prop where
  le : k ≤ n.toNat
  le_max : n.toNat ≤ maxUntypeds.toNat
  taken : ∀ i, k ≤ i → i < n.toNat → vka i = some (untypeds i) ∧ (i + 1) * 2 ^ 23 % 2 ^ 32 ≤ bytes.toNat
  others : ∀ i, i < k ∨ n.toNat ≤ i → untypeds i = before i
  stopped : n = maxUntypeds ∨ bytes.toNat < (n.toNat + 1) * 2 ^ 23 % 2 ^ 32 ∨ vka n.toNat = none

section loop

variable {vka : Nat → Option VkaObject} {bytes maxUntypeds numUntypeds allocated : Word} {untypeds : Nat → VkaObject}

/-- The word of the bytes with one untyped more. -/
theorem add_untypedBit (h : allocated = UInt32.ofNat (numUntypeds.toNat * 2 ^ 23)) :
    allocated + untypedBit = UInt32.ofNat ((numUntypeds.toNat + 1) * 2 ^ 23) := by
  rw [h, Nat.add_mul, UInt32.ofNat_add]
  rfl

/-- The loop, from `num_untypeds` on. -/
theorem utilAllocateUntypedsLoop_spec (hmax : numUntypeds ≤ maxUntypeds)
    (halloc : allocated = UInt32.ofNat (numUntypeds.toNat * 2 ^ 23)) :
    UntypedsTaken vka bytes maxUntypeds untypeds numUntypeds.toNat
      (utilAllocateUntypedsLoop vka bytes maxUntypeds numUntypeds allocated untypeds).1
      (utilAllocateUntypedsLoop vka bytes maxUntypeds numUntypeds allocated untypeds).2 := by
  induction numUntypeds, allocated, untypeds using utilAllocateUntypedsLoop.induct vka bytes maxUntypeds with
  | case1 numUntypeds allocated untypeds hguard object hobject ih =>
    have hsucc := toNat_succ_of_lt hguard.1
    have hlt := UInt32.lt_iff_toNat_lt.mp hguard.1
    have hadd := add_untypedBit halloc
    have h := ih (by rw [UInt32.le_iff_toNat_le, hsucc]; omega) (by rw [hadd, hsucc])
    rw [utilAllocateUntypedsLoop, if_pos hguard]
    simp only [hobject]
    rw [hsucc] at h
    refine ⟨Nat.le_of_succ_le h.le, h.le_max, ?_, ?_, h.stopped⟩
    · intro i hi hin
      rcases Nat.eq_or_lt_of_le hi with rfl | hi
      · have hbytes := UInt32.le_iff_toNat_le.mp hguard.2
        rw [hadd, UInt32.toNat_ofNat'] at hbytes
        rw [h.others _ (Or.inl (Nat.lt_succ_self _)), Function.update_self]
        exact ⟨hobject, hbytes⟩
      · exact h.taken i hi hin
    · intro i hi
      have hne : i ≠ numUntypeds.toNat := by
        have hle := h.le
        omega
      rw [h.others i (by omega), Function.update_of_ne hne]
  | case2 numUntypeds allocated untypeds hguard hobject =>
    rw [utilAllocateUntypedsLoop, if_pos hguard]
    simp only [hobject]
    exact ⟨Nat.le_refl _, UInt32.le_iff_toNat_le.mp hmax, fun i hi hin => absurd (Nat.lt_of_le_of_lt hi hin) (Nat.lt_irrefl _),
      fun _ _ => rfl, Or.inr (Or.inr hobject)⟩
  | case3 numUntypeds allocated untypeds hguard =>
    rw [utilAllocateUntypedsLoop, if_neg hguard]
    refine ⟨Nat.le_refl _, UInt32.le_iff_toNat_le.mp hmax, fun i hi hin => absurd (Nat.lt_of_le_of_lt hi hin) (Nat.lt_irrefl _),
      fun _ _ => rfl, ?_⟩
    rcases UInt32.lt_or_eq_of_le hmax with hlt | heq
    · have hbytes := UInt32.lt_iff_toNat_lt.mp (UInt32.not_le.mp fun hle => hguard ⟨hlt, hle⟩)
      rw [add_untypedBit halloc, UInt32.toNat_ofNat'] at hbytes
      exact Or.inr (Or.inl hbytes)
    · exact Or.inl heq

/-- The whole loop. -/
theorem utilAllocateUntypeds_spec (vka : Nat → Option VkaObject) (untypeds : Nat → VkaObject) (bytes maxUntypeds : Word) :
    UntypedsTaken vka bytes maxUntypeds untypeds 0 (utilAllocateUntypeds vka untypeds bytes maxUntypeds).1
      (utilAllocateUntypeds vka untypeds bytes maxUntypeds).2 := by
  have hmax : (0 : Word) ≤ maxUntypeds := UInt32.le_iff_toNat_le.mpr (Nat.zero_le _)
  exact utilAllocateUntypedsLoop_spec hmax rfl

end loop

/-- The memory that is promised: as many untypeds as the allocator returned, in order, no more than may be taken and with no
more bytes; and there are no fewer than that comes to. The rest of the array is as it was, an allocator that refuses being assumed
to write nothing there. -/
structure UntypedsAllocated (vka : Nat → Option VkaObject) (bytes maxUntypeds : Word) (before : Nat → VkaObject) (n : Word)
    (untypeds : Nat → VkaObject) : Prop where
  le_max : n ≤ maxUntypeds
  le_bytes : n.toNat * 2 ^ 23 ≤ bytes.toNat
  objects : ∀ i < n.toNat, vka i = some (untypeds i)
  others : ∀ i, n.toNat ≤ i → untypeds i = before i
  stopped : n = maxUntypeds ∨ bytes.toNat < (n.toNat + 1) * 2 ^ 23 ∨ vka n.toNat = none

/-- `bytes` is at least as much as 511 untypeds have, 512 may be taken, and the allocator has 512: then the loop takes as many. -/
def TakesAll (vka : Nat → Option VkaObject) (bytes maxUntypeds : Word) : Prop :=
  511 * 2 ^ 23 ≤ bytes.toNat ∧ 512 ≤ maxUntypeds.toNat ∧ ∀ k < 512, vka k ≠ none

namespace UntypedsTaken

variable {vka : Nat → Option VkaObject} {bytes maxUntypeds n : Word} {before untypeds : Nat → VkaObject}

/-- The loop gets to the 512th untyped, whose word of bytes is 0. -/
theorem le_of_takesAll (h : UntypedsTaken vka bytes maxUntypeds before 0 n untypeds) (hall : TakesAll vka bytes maxUntypeds) :
    512 ≤ n.toNat := by
  obtain ⟨hbytes, hmax, hvka⟩ := hall
  by_contra hlt
  have hlt : n.toNat < 512 := Nat.lt_of_not_le hlt
  rcases h.stopped with heq | hlimit | hnone
  · rw [heq] at hlt
    omega
  · omega
  · exact hvka _ hlt hnone

/-- Otherwise it stops before, and up to there the words of the bytes are the bytes. -/
theorem lt_of_not_takesAll (h : UntypedsTaken vka bytes maxUntypeds before 0 n untypeds)
    (hall : ¬ TakesAll vka bytes maxUntypeds) : n.toNat < 512 := by
  by_contra hle
  have hle : 512 ≤ n.toNat := Nat.le_of_not_lt hle
  have hmax := h.le_max
  refine hall ⟨?_, by omega, ?_⟩
  · exact (h.taken 510 (Nat.zero_le _) (by omega)).2
  · intro k hk
    rw [(h.taken k (Nat.zero_le _) (by omega)).1]
    exact Option.some_ne_none _

/-- Before the 512th untyped the limit is kept. -/
theorem allocated (h : UntypedsTaken vka bytes maxUntypeds before 0 n untypeds) (hlt : n.toNat < 512) :
    UntypedsAllocated vka bytes maxUntypeds before n untypeds := by
  refine ⟨UInt32.le_iff_toNat_le.mpr h.le_max, ?_, fun i hi => (h.taken i (Nat.zero_le i) hi).1,
    fun i hi => h.others i (Or.inr hi), ?_⟩
  · rcases Nat.eq_zero_or_pos n.toNat with hzero | hpos
    · rw [hzero, Nat.zero_mul]
      exact Nat.zero_le _
    · have hlast := (h.taken (n.toNat - 1) (Nat.zero_le _) (by omega)).2
      omega
  · rcases h.stopped with heq | hlimit | hnone
    · exact Or.inl heq
    · exact Or.inr (Or.inl (by omega))
    · exact Or.inr (Or.inr hnone)

end UntypedsTaken

/-- For every limit on the bytes and on the number and whatever the allocator returns, the loop ends; and it has allocated what
is promised if and only if the limit is less than the bytes of 511 untypeds, or fewer than 512 may be taken, or the allocator
refuses one of the first 512. -/
theorem untypeds_allocated_iff (vka : Nat → Option VkaObject) (untypeds : Nat → VkaObject) (bytes maxUntypeds : Word) :
    UntypedsAllocated vka bytes maxUntypeds untypeds (utilAllocateUntypeds vka untypeds bytes maxUntypeds).1
        (utilAllocateUntypeds vka untypeds bytes maxUntypeds).2 ↔
      bytes.toNat < 511 * 2 ^ 23 ∨ maxUntypeds.toNat < 512 ∨ ∃ k < 512, vka k = none := by
  have h := utilAllocateUntypeds_spec vka untypeds bytes maxUntypeds
  have hall : ¬ TakesAll vka bytes maxUntypeds ↔
      bytes.toNat < 511 * 2 ^ 23 ∨ maxUntypeds.toNat < 512 ∨ ∃ k < 512, vka k = none := by
    simp only [TakesAll, not_and_or, Nat.not_le, not_forall, exists_prop, not_not]
  rw [← hall]
  constructor
  · intro hallocated hall
    have hbytes := hallocated.le_bytes
    have hle := h.le_of_takesAll hall
    have hlimit := bytes.toNat_lt
    omega
  · intro hall
    exact h.allocated (h.lt_of_not_takesAll hall)

/-- With no limit on the bytes and 512 untypeds to take, 4 GB are taken from an allocator that has as much: a byte more than
`UINT_MAX`. -/
theorem untypeds_not_allocated : ¬ ∀ vka untypeds bytes maxUntypeds,
    UntypedsAllocated vka bytes maxUntypeds untypeds (utilAllocateUntypeds vka untypeds bytes maxUntypeds).1
      (utilAllocateUntypeds vka untypeds bytes maxUntypeds).2 := by
  intro hforall
  have h := utilAllocateUntypeds_spec (fun k => some ⟨UInt32.ofNat k, 23⟩) (fun _ => ⟨0, 0⟩) 4294967295 512
  have hle := h.le_of_takesAll ⟨by decide, by decide, fun k _ => Option.some_ne_none _⟩
  have hbytes := (hforall (fun k => some ⟨UInt32.ofNat k, 23⟩) (fun _ => ⟨0, 0⟩) 4294967295 512).le_bytes
  have hlimit : UInt32.toNat 4294967295 = 4294967295 := rfl
  omega

end Sel4Osapi
