import Sel4Osapi.Lib.ShortestPrefix
import Sel4Osapi.Theorems.Process

/-!
# How much memory a new process gets

The loop of `sel4osapi_process_init_env` over the user untypeds stops for two reasons: the untypeds that it assigned have
`SEL4OSAPI_USER_PROCESS_UNTYPED_MEM_SIZE` bytes, or there are no more. Nothing tells the one from the other afterwards, so a
process is created either way. Their bytes are added up in a word, which can start over from 0.
-/

namespace Sel4Osapi

/-- `1 << size_bits`, in bytes. -/
def untypedBytes (sizeBits : UInt8) : Nat := ((1 : Word) <<< sizeBits.toUInt32).toNat

/-- No untyped is larger than half of the address space. -/
theorem untypedBytes_le (sizeBits : UInt8) : untypedBytes sizeBits ≤ 2 ^ 31 := by
  have hlt : sizeBits.toNat % 32 < 32 := Nat.mod_lt _ (by omega)
  rw [untypedBytes, UInt32.toNat_shiftLeft, UInt8.toNat_toUInt32, UInt32.toNat_one, Nat.one_shiftLeft,
    Nat.mod_eq_of_lt (Nat.pow_lt_pow_right (by omega) hlt)]
  exact Nat.pow_le_pow_right (by omega) (by omega)

/-- The user untypeds that are free, in the order of their indices. -/
def freeUntypeds (userUntypedsNum : UInt8) (allocation : Nat → UInt8) : List Nat :=
  (List.range userUntypedsNum.toNat).filter fun i => allocation i = 0

/-! ## The loop -/

/-- The untypeds that the loop takes from a list of free ones, when it has `untypedSize` bytes. -/
def takeUntypeds (sizeBits : Nat → UInt8) (untypedMemSize : Word) : (untypedSize : Word) → List Nat → List Nat
  | _, [] => []
  | untypedSize, i :: is =>
    if untypedSize < untypedMemSize then
      i :: takeUntypeds sizeBits untypedMemSize (untypedSize + 1 <<< (sizeBits i).toUInt32) is
    else []

/-- With enough bytes nothing more is taken. -/
theorem takeUntypeds_of_enough {sizeBits : Nat → UInt8} {untypedMemSize untypedSize : Word}
    (h : ¬ untypedSize < untypedMemSize) (is : List Nat) : takeUntypeds sizeBits untypedMemSize untypedSize is = [] := by
  cases is with
  | nil => rfl
  | cons i is => exact if_neg h

/-- With too few bytes something is taken, if there is anything. -/
theorem takeUntypeds_eq_nil_iff {sizeBits : Nat → UInt8} {untypedMemSize untypedSize : Word}
    (h : untypedSize < untypedMemSize) {is : List Nat} : takeUntypeds sizeBits untypedMemSize untypedSize is = [] ↔ is = [] := by
  cases is with
  | nil => simp [takeUntypeds]
  | cons i is => simp [takeUntypeds, h]

section loop

variable {cfg : ProcessConfig} {sizeBits : Nat → UInt8} {userUntypeds : Nat → CPtr} {n i : Nat} {v v' : UntypedLoop}

/-- What the loop assigns. -/
theorem untypedLoop_assigned (h : untypedLoop cfg sizeBits userUntypeds n i v = .ok v') :
    v'.assigned = v.assigned ++
      takeUntypeds sizeBits cfg.untypedMemSize v.untypedSize ((List.range' i n).filter fun j => v.allocation j = 0) := by
  induction n generalizing i v with
  | zero =>
    cases h
    simp [takeUntypeds]
  | succ n ih =>
    unfold untypedLoop at h
    rw [List.range'_succ]
    split at h
    · rename_i hsize
      split at h
      · rename_i htaken
        rw [ih h, List.filter_cons_of_neg (by simpa using htaken)]
      · rename_i hfree
        obtain ⟨⟨slot, process⟩, -, h⟩ := bind_ok h
        -- the entry of the untyped is behind the loop
        have hrest : ((List.range' (i + 1) n).filter fun j => Function.update v.allocation i process.env.pid.toUInt8 j = 0) =
            (List.range' (i + 1) n).filter fun j => v.allocation j = 0 := by
          refine List.filter_congr ?_
          intro j hj
          have hne : j ≠ i := by
            have := (List.mem_range'_1.mp hj).1
            omega
          rw [Function.update_of_ne hne]
        rw [ih h]
        dsimp only
        rw [hrest, List.filter_cons_of_pos (by simpa using hfree), takeUntypeds, if_pos hsize, List.append_assoc]
        rfl
    · rename_i hsize
      cases h
      rw [takeUntypeds_of_enough hsize, List.append_nil]

/-- The word has the bytes of one untyped more, or starts over from 0. -/
theorem toNat_add_untypedBytes (untypedSize : Word) (sizeBits : UInt8) :
    (untypedSize + 1 <<< sizeBits.toUInt32).toNat = (untypedSize.toNat + untypedBytes sizeBits) % 2 ^ 32 :=
  UInt32.toNat_add _ _

/-- What is taken is the shortest prefix with the bytes still to get, if there are as many and adding them up the word does
not start over from 0; and if it does, when nothing is left to take afterwards. -/
theorem takeUntypeds_iff (sizeBits : Nat → UInt8) (untypedMemSize untypedSize : Word) (is : List Nat) :
    ShortestPrefix (fun i => untypedBytes (sizeBits i)) (untypedMemSize.toNat - untypedSize.toNat) is
        (takeUntypeds sizeBits untypedMemSize untypedSize is) ↔
      untypedMemSize.toNat - untypedSize.toNat ≤ (is.map fun i => untypedBytes (sizeBits i)).sum ∧
      ∀ l, ShortestPrefix (fun i => untypedBytes (sizeBits i)) (untypedMemSize.toNat - untypedSize.toNat) is l →
        untypedSize.toNat + (l.map fun i => untypedBytes (sizeBits i)).sum < 2 ^ 32 ∨ l = is := by
  induction is generalizing untypedSize with
  | nil =>
    constructor
    · intro h
      exact ⟨h.le_total, fun l hl => Or.inr (List.prefix_nil.mp hl.isPrefix)⟩
    · rintro ⟨htotal, -⟩
      rw [List.map_nil, List.sum_nil, Nat.le_zero] at htotal
      rw [htotal, ShortestPrefix.zero_iff, takeUntypeds]
  | cons i is ih =>
    have hmem := untypedMemSize.toNat_lt
    have hsize := untypedSize.toNat_lt
    have hbytes := untypedBytes_le (sizeBits i)
    have hadd := toNat_add_untypedBytes untypedSize (sizeBits i)
    rw [takeUntypeds]
    by_cases hlt : untypedSize < untypedMemSize
    · have hlt' := UInt32.lt_iff_toNat_lt.mp hlt
      have hpos : 0 < untypedMemSize.toNat - untypedSize.toNat := by omega
      rw [if_pos hlt, ShortestPrefix.cons_iff hpos, ShortestPrefix.forall_cons hpos]
      simp only [List.map_cons, List.sum_cons, List.cons.injEq, true_and]
      rcases Nat.lt_or_ge (untypedSize.toNat + untypedBytes (sizeBits i)) (2 ^ 32) with hsum | hsum
      · rw [Nat.mod_eq_of_lt hsum] at hadd
        have ih := ih (untypedSize + 1 <<< (sizeBits i).toUInt32)
        simp only [hadd, ← Nat.sub_sub, Nat.add_assoc] at ih
        rw [ih, Nat.sub_le_iff_le_add']
      · -- the word starts over from 0, and whatever is left is taken too
        have hmore : untypedSize + 1 <<< (sizeBits i).toUInt32 < untypedMemSize := by
          rw [UInt32.lt_iff_toNat_lt, hadd]
          omega
        have hover : ¬ untypedSize.toNat + (untypedBytes (sizeBits i) + 0) < 2 ^ 32 := by omega
        have hrest : untypedMemSize.toNat - untypedSize.toNat - untypedBytes (sizeBits i) = 0 := by omega
        rw [hrest]
        simp only [ShortestPrefix.zero_iff, forall_eq, List.map_nil, List.sum_nil, hover, false_or,
          takeUntypeds_eq_nil_iff hmore]
        rw [eq_comm, and_iff_right (by omega)]
    · have hzero : untypedMemSize.toNat - untypedSize.toNat = 0 := by
        have := UInt32.le_iff_toNat_le.mp (UInt32.not_lt.mp hlt)
        omega
      rw [if_neg hlt, hzero]
      simp [hsize]

end loop

/-! ## Creating a process with room for its capabilities -/

/-- A new process has `n` slots for capabilities. -/
structure NativeProcess.HasSlots (cfg : ProcessConfig) (native : NativeProcess) (n : Nat) : Prop where
  bits : cfg.cspaceSizeBits < 32
  first : native.cspaceNextFree ≠ 0
  last : native.cspaceNextFree.toNat + n ≤ 2 ^ cfg.cspaceSizeBits.toNat

namespace NativeProcess.HasSlots

variable {cfg : ProcessConfig} {native : NativeProcess} {process : Process} {n k : Nat}

/-- Fewer slots than it has. -/
theorem mono (h : native.HasSlots cfg n) (hle : k ≤ n) : native.HasSlots cfg k := by
  have hlast := h.last
  exact ⟨h.bits, h.first, by omega⟩

/-- Slots are numbered by words. -/
theorem pow_le (h : native.HasSlots cfg n) : 2 ^ cfg.cspaceSizeBits.toNat ≤ 2 ^ 31 := by
  have hbits : cfg.cspaceSizeBits.toNat < 32 := UInt32.lt_iff_toNat_lt.mp h.bits
  exact Nat.pow_le_pow_right (by omega) (by omega)

/-- The slot after the next one. -/
theorem toNat_succ (h : native.HasSlots cfg (n + 1)) : (native.cspaceNextFree + 1).toNat = native.cspaceNextFree.toNat + 1 := by
  have hlast := h.last
  have hpow := h.pow_le
  rw [UInt32.toNat_add, UInt32.toNat_one, Nat.mod_eq_of_lt (by omega)]

/-- A capability gets a slot. -/
theorem copyCap (h : process.native.HasSlots cfg (n + 1)) (cap : CPtr) :
    ∃ process', processCopyCapInto cfg process cap = .ok (process.native.cspaceNextFree, process') ∧
      process'.native.HasSlots cfg n := by
  have hlast := h.last
  have hslot : process.native.cspaceNextFree.toNat < 2 ^ cfg.cspaceSizeBits.toNat := by omega
  unfold processCopyCapInto
  simp only [if_pos hslot, check_of_true h.first, ok_bind]
  refine ⟨_, rfl, h.bits, ?_, ?_⟩
  · intro hzero
    have htoNat := h.toNat_succ
    rw [show process.native.cspaceNextFree + 1 = 0 from hzero, UInt32.toNat_zero] at htoNat
    omega
  · have htoNat := h.toNat_succ
    dsimp only
    omega

/-- The endpoint of a server gets a slot. -/
theorem copyServerEp (h : process.native.HasSlots cfg (n + 1)) (text : String) (ep : Option CPtr) :
    ∃ cap process', copyServerEp cfg process text ep = .ok (cap, process') ∧ process'.native.HasSlots cfg n := by
  cases ep with
  | none => exact ⟨0, process, rfl, h.mono (Nat.le_succ n)⟩
  | some ep =>
    obtain ⟨process', hcopy, hslots⟩ := h.copyCap ep
    refine ⟨process.native.cspaceNextFree, process', ?_, hslots⟩
    rw [Sel4Osapi.copyServerEp, hcopy, ok_bind]
    dsimp only
    rw [check_of_true h.first, ok_bind]
    rfl

/-- The untypeds get slots. -/
theorem untypedLoop {v : UntypedLoop} (h : v.process.native.HasSlots cfg (n + k)) (sizeBits : Nat → UInt8)
    (userUntypeds : Nat → CPtr) (i : Nat) :
    ∃ v', untypedLoop cfg sizeBits userUntypeds n i v = .ok v' ∧ v'.process.native.HasSlots cfg k := by
  induction n generalizing i v with
  | zero => exact ⟨v, rfl, h.mono (by omega)⟩
  | succ n ih =>
    have h : v.process.native.HasSlots cfg (n + k + 1) := h.mono (by omega)
    unfold Sel4Osapi.untypedLoop
    split
    · split
      · exact ih (h.mono (Nat.le_succ _)) _
      · obtain ⟨process', hcopy, hslots⟩ := h.copyCap (userUntypeds i)
        rw [hcopy, ok_bind]
        exact ih hslots _
    · exact ⟨v, rfl, h.mono (by omega)⟩

end NativeProcess.HasSlots

section creation

variable {cfg : ProcessConfig} {native : NativeProcess} {pid : Word} {priority num : UInt8}
  {allocation sizeBits : Nat → UInt8} {userUntypeds : Nat → CPtr} {aep : CPtr}

/-- With room for every user untyped and for eight other capabilities a process is created. -/
theorem exists_processInitEnv_ok (hnum : 0 < num) (h : native.HasSlots cfg (num.toNat + 8)) :
    ∃ process' allocation' assigned,
      processInitEnv cfg ⟨native, .zero, 0⟩ pid priority num allocation sizeBits userUntypeds aep =
        .ok (process', allocation', assigned) := by
  have hnum' : num.toNat < 256 := num.toNat_lt
  have hpos : 0 < num.toNat := UInt8.lt_iff_toNat_lt.mp hnum
  let p₀ : Process := ⟨native, { ProcessEnv.zero with pid := pid, priority := priority }, 0⟩
  have h₀ : p₀.native.HasSlots cfg (num.toNat + 7 + 1) := h
  obtain ⟨p₁, hp₁, h₁⟩ := h₀.copyCap native.pd
  obtain ⟨p₂, hp₂, h₂⟩ := h₁.copyCap p₁.native.tcb
  let v₀ : UntypedLoop :=
    { process := { p₂ with
        env := { p₂.env with pageDirectory := p₀.native.cspaceNextFree, tcb := p₁.native.cspaceNextFree } }
      allocation := allocation, untypedSize := 0, untypedCount := 0, assigned := [] }
  have h₂ : v₀.process.native.HasSlots cfg (num.toNat + 6) := h₂
  obtain ⟨v, hv, h₃⟩ := h₂.untypedLoop sizeBits userUntypeds 0
  obtain ⟨sysclock, p₄, hp₄, h₄⟩ := h₃.copyServerEp "process->env->sysclock_server_ep != 0" cfg.sysclockEp
  obtain ⟨p₅, hp₅, h₅⟩ := h₄.copyCap aep
  obtain ⟨stack, p₆, hp₆, h₆⟩ :=
    h₅.copyServerEp "process->env->udp_iface.stack_op_ep != seL4_CapNull" cfg.udpStackEp
  obtain ⟨serial, p₇, hp₇, h₇⟩ :=
    h₆.copyServerEp "process->env->serial.server_ep != seL4_CapNull" cfg.serialServerEp
  obtain ⟨p₈, hp₈, h₈⟩ := h₇.copyCap p₇.native.faultEndpoint
  have henv₁ : p₁.env = p₀.env := (processCopyCapInto_ok hp₁).2.2.2
  have henv₂ : p₂.env = p₁.env := (processCopyCapInto_ok hp₂).2.2.2
  have hinv : v.Inv allocation pid (0 + num.toNat) := by
    refine untypedLoop_spec (v := v₀) (.start ?_ ?_) (by omega) hv
    · rw [henv₂, henv₁]
    · rw [henv₂, henv₁]
      exact .congr .zero rfl rfl rfl
  have hrange := hinv.records.range_le hnum (by simpa using hinv.length_le)
  have hend : p₇.native.cspaceNextFree + 1 < (1 : CPtr) <<< cfg.cspaceSizeBits := by
    have hlast := h₇.last
    have hpow := h₇.pow_le
    have hbits : cfg.cspaceSizeBits.toNat < 32 := UInt32.lt_iff_toNat_lt.mp h.bits
    rw [UInt32.lt_iff_toNat_lt, h₇.toNat_succ, UInt32.toNat_shiftLeft, UInt32.toNat_one, Nat.mod_eq_of_lt hbits,
      Nat.one_shiftLeft, Nat.mod_eq_of_lt (by omega)]
    omega
  dsimp only [p₀, v₀] at hp₁ hp₂ hv
  unfold processInitEnv
  simp only [hp₁, hp₂, hv, hp₄, hp₅, hp₆, hp₇, hp₈, ok_bind, check_of_true hrange, check_of_true h₄.first,
    check_of_true h₇.first, check_of_true hend]
  exact ⟨_, _, _, rfl⟩

/-- The untypeds that a process is given, one by one from the free ones. -/
theorem processInitEnv_assigned {process process' : Process} {allocation' : Nat → UInt8} {assigned : List Nat}
    (h : processInitEnv cfg process pid priority num allocation sizeBits userUntypeds aep =
      .ok (process', allocation', assigned)) :
    assigned = takeUntypeds sizeBits cfg.untypedMemSize 0 (freeUntypeds num allocation) := by
  obtain ⟨p, v, hv, -, rfl, -⟩ := processInitEnv_loop h
  rw [untypedLoop_assigned hv, List.nil_append, freeUntypeds, List.range_eq_range']

end creation

/-- A process is given the memory that is promised: the shortest prefix of the free untypeds that has as many bytes, and the
table marks these with its pid and the others as before. -/
structure MemoryGranted (cfg : ProcessConfig) (pid : Word) (userUntypedsNum : UInt8)
    (allocation sizeBits allocation' : Nat → UInt8) (assigned : List Nat) : Prop where
  shortest : ShortestPrefix (fun i => untypedBytes (sizeBits i)) cfg.untypedMemSize.toNat
    (freeUntypeds userUntypedsNum allocation) assigned
  marked : ∀ i, allocation' i = if i ∈ assigned then pid.toUInt8 else allocation i

/-- For every table of allocations and of sizes: a process that `sel4osapi_process_init_env` hands back has been given the
memory that is promised if and only if the free untypeds together have as much, and the bytes of those it takes can be added
up in a word or there are no others. And it hands back a process, however little memory is left, whenever the CSpace of the
process has room for the capabilities. -/
theorem memory_granted_iff (cfg : ProcessConfig) (native : NativeProcess) (pid : Word) (priority num : UInt8)
    (allocation sizeBits : Nat → UInt8) (userUntypeds : Nat → CPtr) (aep : CPtr) :
    (∀ process' allocation' assigned,
      processInitEnv cfg ⟨native, .zero, 0⟩ pid priority num allocation sizeBits userUntypeds aep =
        .ok (process', allocation', assigned) →
      (MemoryGranted cfg pid num allocation sizeBits allocation' assigned ↔
        cfg.untypedMemSize.toNat ≤ ((freeUntypeds num allocation).map fun i => untypedBytes (sizeBits i)).sum ∧
        ∀ l, ShortestPrefix (fun i => untypedBytes (sizeBits i)) cfg.untypedMemSize.toNat (freeUntypeds num allocation) l →
          (l.map fun i => untypedBytes (sizeBits i)).sum < 2 ^ 32 ∨ l = freeUntypeds num allocation)) ∧
    (0 < num → native.HasSlots cfg (num.toNat + 8) → ∃ process' allocation' assigned,
      processInitEnv cfg ⟨native, .zero, 0⟩ pid priority num allocation sizeBits userUntypeds aep =
        .ok (process', allocation', assigned)) := by
  refine ⟨?_, exists_processInitEnv_ok⟩
  intro process' allocation' assigned h
  obtain ⟨hassigned, hothers, -⟩ := processInitEnv_ok rfl h
  have hmarked : ∀ i, allocation' i = if i ∈ assigned then pid.toUInt8 else allocation i := by
    intro i
    split
    · rename_i hi
      exact (hassigned i hi).2.2
    · rename_i hi
      exact hothers i hi
  have htake := takeUntypeds_iff sizeBits cfg.untypedMemSize 0 (freeUntypeds num allocation)
  simp only [UInt32.toNat_zero, Nat.sub_zero, Nat.zero_add] at htake
  rw [← htake, ← processInitEnv_assigned h]
  exact ⟨fun hgranted => hgranted.shortest, fun hshortest => ⟨hshortest, hmarked⟩⟩

/-- The last user untyped of `oneUntyped` is taken: the next process is handed back without any memory. -/
theorem memory_granted_iff_oneUntyped : ∃ process' allocation' assigned,
    processInitEnv oneUntyped ⟨newNative, .zero, 0⟩ 2 100 1 (fun _ => 1) (fun _ => 26) (fun _ => 30) 20 =
      .ok (process', allocation', assigned) ∧
    ¬ MemoryGranted oneUntyped 2 1 (fun _ => 1) (fun _ => 26) allocation' assigned := by
  obtain ⟨hiff, hreturns⟩ := memory_granted_iff oneUntyped newNative 2 100 1 (fun _ => 1) (fun _ => 26) (fun _ => 30) 20
  obtain ⟨process', allocation', assigned, h⟩ := hreturns (by decide) ⟨by decide, by decide, by decide⟩
  refine ⟨process', allocation', assigned, h, ?_⟩
  rw [hiff _ _ _ h]
  rintro ⟨htotal, -⟩
  exact absurd htotal (by decide)

/-- A process can be handed back with less memory than is promised: 512 bytes of 64 MB. -/
theorem memory_not_granted : ¬ ∀ cfg native pid priority num allocation sizeBits userUntypeds aep
      process' allocation' assigned,
    processInitEnv cfg ⟨native, .zero, 0⟩ pid priority num allocation sizeBits userUntypeds aep =
      .ok (process', allocation', assigned) →
    MemoryGranted cfg pid num allocation sizeBits allocation' assigned := by
  intro hall
  have hrun : (processInitEnv oneUntyped ⟨newNative, .zero, 0⟩ 1 100 1 (fun _ => 0) (fun _ => 9)
      (fun _ => 30) 20).toOption.any (fun x => x.2.2 = [0]) = true := rfl
  obtain ⟨⟨process', allocation', assigned⟩, h, hassigned⟩ := exists_ok_of_any hrun
  have hassigned : assigned = [0] := of_decide_eq_true hassigned
  have hgranted := hall _ _ _ _ _ _ _ _ _ _ _ _ h
  have hreaches := hgranted.shortest.reaches
  rw [hassigned] at hreaches
  exact absurd hreaches (by decide)

end Sel4Osapi
