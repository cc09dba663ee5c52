import Sel4Osapi.Bootstrap
import Sel4Osapi.Theorems.Process

/-!
# The environment of a process, written and read

`sel4osapi_process_init_env` writes the environment of a process while it fills its CSpace, and
`sel4osapi_system_bootstrap_user` reads it in the process. Both agree: what the process gives to its allocator are the
untypeds it was assigned, each once and with its size, and slots that are free.
-/

namespace Sel4Osapi

/-! ## The capabilities copied into a process -/

/-- The capabilities `caps` have been copied, with a badge, into the next slots of a process. -/
structure NativeProcess.Copied (badge : Word) (n n' : NativeProcess) (caps : List CPtr) : Prop where
  next : n'.cspaceNextFree.toNat = n.cspaceNextFree.toNat + caps.length
  slots : ∀ k cap, caps[k]? = some cap → n'.cspace (n.cspaceNextFree + UInt32.ofNat k) = some (cap, badge)
  frame : ∀ c, c < n.cspaceNextFree ∨ n'.cspaceNextFree ≤ c → n'.cspace c = n.cspace c

namespace NativeProcess.Copied

variable {badge : Word} {n n' n'' : NativeProcess} {caps caps' : List CPtr}

/-- Nothing was copied. -/
theorem refl (badge : Word) (n : NativeProcess) : Copied badge n n [] := ⟨rfl, by simp, fun _ _ => rfl⟩

/-- A slot of the range of new slots. -/
theorem toNat_slot (h : Copied badge n n' caps) {k : Nat} (hk : k < caps.length) :
    (n.cspaceNextFree + UInt32.ofNat k).toNat = n.cspaceNextFree.toNat + k := by
  have hnext := h.next
  have hlt := n'.cspaceNextFree.toNat_lt
  rw [UInt32.toNat_add, UInt32.toNat_ofNat', Nat.mod_eq_of_lt (b := 2 ^ 32) (by omega), Nat.mod_eq_of_lt (by omega)]

/-- The first slots after some were filled. -/
theorem next_eq (h : Copied badge n n' caps) : n'.cspaceNextFree = n.cspaceNextFree + UInt32.ofNat caps.length := by
  have hnext := h.next
  have hlt := n'.cspaceNextFree.toNat_lt
  apply UInt32.toNat_inj.mp
  rw [UInt32.toNat_add, UInt32.toNat_ofNat', Nat.mod_eq_of_lt (b := 2 ^ 32) (by omega), Nat.mod_eq_of_lt (by omega), hnext]

/-- One batch after another. -/
theorem trans (h : Copied badge n n' caps) (h' : Copied badge n' n'' caps') : Copied badge n n'' (caps ++ caps') := by
  refine ⟨?_, ?_, ?_⟩
  · rw [h'.next, h.next, List.length_append, Nat.add_assoc]
  · intro k cap hk
    rcases Nat.lt_or_ge k caps.length with hlt | hge
    · rw [List.getElem?_append_left hlt] at hk
      rw [h'.frame _ (Or.inl ?_)]
      · exact h.slots k cap hk
      · rw [UInt32.lt_iff_toNat_lt, h.toNat_slot hlt, h.next]
        omega
    · rw [List.getElem?_append_right hge] at hk
      have hslot : n.cspaceNextFree + UInt32.ofNat k = n'.cspaceNextFree + UInt32.ofNat (k - caps.length) := by
        rw [h.next_eq, add_assoc, ← UInt32.ofNat_add, Nat.add_sub_cancel' hge]
      rw [hslot]
      exact h'.slots _ cap hk
  · intro c hc
    have hnext := h.next
    have hnext' := h'.next
    simp only [UInt32.lt_iff_toNat_lt, UInt32.le_iff_toNat_le] at hc
    rw [h'.frame c ?_, h.frame c ?_]
    · rw [UInt32.lt_iff_toNat_lt, UInt32.le_iff_toNat_le]
      omega
    · rw [UInt32.lt_iff_toNat_lt, UInt32.le_iff_toNat_le]
      omega

end NativeProcess.Copied

/-- A capability is copied into the next slot. -/
theorem copied_of_processCopyCapInto {cfg : ProcessConfig} (hbits : cfg.cspaceSizeBits < 32) {process process' : Process}
    {cap slot : CPtr}
    (h : processCopyCapInto cfg process cap = .ok (slot, process')) :
    process.native.Copied process.env.pid process'.native [cap] := by
  obtain ⟨hslot, -, hnext, -⟩ := processCopyCapInto_ok h
  unfold processCopyCapInto at h
  obtain ⟨_, hne, h⟩ := bind_ok h
  have hne := of_check_ok hne
  have hlt : process.native.cspaceNextFree.toNat < 2 ^ cfg.cspaceSizeBits.toNat := by
    by_contra hge
    rw [if_neg hge] at hne
    exact hne rfl
  cases h
  rw [if_pos hlt] at hslot hnext
  have hpow : 2 ^ cfg.cspaceSizeBits.toNat ≤ 2 ^ 31 :=
    Nat.pow_le_pow_right (by omega) (by have := UInt32.lt_iff_toNat_lt.mp hbits; have : (32 : UInt32).toNat = 32 := rfl; omega)
  have hsucc : (process.native.cspaceNextFree + 1).toNat = process.native.cspaceNextFree.toNat + 1 := by
    rw [UInt32.toNat_add, UInt32.toNat_one, Nat.mod_eq_of_lt (by omega)]
  refine ⟨hsucc, ?_, ?_⟩
  · intro k c hk
    rw [List.getElem?_singleton] at hk
    split at hk
    · rename_i hk0
      cases hk
      subst hk0
      simp only [if_pos hlt]
      rw [show process.native.cspaceNextFree + UInt32.ofNat 0 = process.native.cspaceNextFree from add_zero _, Function.update_self]
    · cases hk
  · intro c hc
    simp only [if_pos hlt]
    refine Function.update_of_ne ?_ _ _
    rintro rfl
    rw [UInt32.lt_iff_toNat_lt, UInt32.le_iff_toNat_le, hsucc] at hc
    omega

/-- The endpoint of a server, if it is configured, is copied into the next slot. -/
theorem copied_of_copyServerEp {cfg : ProcessConfig} (hbits : cfg.cspaceSizeBits < 32) {process process' : Process} {text : String}
    {ep : Option CPtr} {cap : CPtr} (h : copyServerEp cfg process text ep = .ok (cap, process')) :
    process.native.Copied process.env.pid process'.native ep.toList := by
  cases ep with
  | none =>
    cases h
    exact .refl _ _
  | some ep =>
    obtain ⟨⟨slot, p⟩, hcopy, h⟩ := bind_ok h
    obtain ⟨_, -, h⟩ := bind_ok h
    cases h
    exact copied_of_processCopyCapInto hbits hcopy

/-! ## The untypeds -/

/-- The loop over the user untypeds has laid out those assigned so far from the first slot it found on. -/
structure UntypedLoop.Laid (sizeBits : Nat → UInt8) (userUntypeds : Nat → CPtr) (n : NativeProcess) (v : UntypedLoop) : Prop where
  copied : n.Copied v.process.env.pid v.process.native (v.assigned.map userUntypeds)
  start : v.assigned ≠ [] → v.process.env.untypedsStart = n.cspaceNextFree
  sizes : ∀ k j, v.assigned[k]? = some j → v.process.env.untypedSizeBitsList k = sizeBits j
  nodup : v.assigned.Nodup

section untypedLoop

variable {cfg : ProcessConfig} {sizeBits : Nat → UInt8} {userUntypeds : Nat → CPtr} {allocation : Nat → UInt8} {pid : Word}
  {m : NativeProcess} {n i : Nat} {v v' : UntypedLoop}

/-- The loop lays out the untypeds that it assigns. -/
theorem untypedLoop_laid (hbits : cfg.cspaceSizeBits < 32) (hv : v.Inv allocation pid i) (hl : v.Laid sizeBits userUntypeds m)
    (hi : i + n ≤ 255) (h : untypedLoop cfg sizeBits userUntypeds n i v = .ok v') : v'.Laid sizeBits userUntypeds m := by
  induction n generalizing i v with
  | zero =>
    cases h
    exact hl
  | succ n ih =>
    unfold untypedLoop at h
    split at h
    · split at h
      · exact ih hv.skip hl (by omega) h
      · rename_i hfree
        obtain ⟨⟨slot, process⟩, hcopy, h⟩ := bind_ok h
        obtain ⟨hslot, -, hnext, henv⟩ := processCopyCapInto_ok hcopy
        have hcount : v.untypedCount.toNat = v.assigned.length := by
          have := hv.length_le
          rw [hv.count, UInt32.toNat_ofNat', Nat.mod_eq_of_lt (by omega)]
        refine ih (hv.assign (by omega) (by simpa using hfree) hslot hnext henv _ _) ⟨?_, ?_, ?_, ?_⟩
          (by omega) h
        · simp only [henv, List.map_append, List.map_cons, List.map_nil]
          exact hl.copied.trans (copied_of_processCopyCapInto hbits hcopy)
        · intro _
          dsimp only
          rw [henv]
          split
          · rename_i hzero
            have hnil : v.assigned = [] := List.length_eq_zero_iff.mp (by rw [← hcount, hzero]; rfl)
            rw [hslot, hl.copied.next_eq, hnil]
            exact add_zero _
          · rename_i hne
            refine hl.start fun hnil => hne ?_
            rw [hv.count, hnil]
            rfl
        · intro k j hk
          dsimp only
          rw [henv, hcount]
          exact update_length_snoc hl.sizes i k j hk
        · have hfresh : i ∉ v.assigned := fun hmem => Nat.lt_irrefl _ (hv.assigned i hmem).1
          exact List.nodup_append.mpr ⟨hl.nodup, List.nodup_singleton i, fun x hx y hy e => hfresh (by
            rw [List.mem_singleton] at hy
            exact hy ▸ e ▸ hx)⟩
    · cases h
      exact hl

/-- The loop does not take back what it assigned. -/
theorem untypedLoop_prefix (h : untypedLoop cfg sizeBits userUntypeds n i v = .ok v') : v.assigned <+: v'.assigned := by
  induction n generalizing i v with
  | zero =>
    cases h
    exact List.prefix_refl _
  | succ n ih =>
    unfold untypedLoop at h
    split at h
    · split at h
      · exact ih h
      · obtain ⟨⟨slot, process⟩, -, h⟩ := bind_ok h
        exact (List.prefix_append _ _).trans (ih h)
    · cases h
      exact List.prefix_refl _

/-- The loop assigns a free untyped, if there is one. -/
theorem untypedLoop_ne_nil (hmem : 0 < cfg.untypedMemSize) (hsize : v.untypedSize = 0)
    (hfree : ∃ j, i ≤ j ∧ j < i + n ∧ v.allocation j = 0) (h : untypedLoop cfg sizeBits userUntypeds n i v = .ok v') :
    v'.assigned ≠ [] := by
  induction n generalizing i with
  | zero =>
    obtain ⟨j, hij, hj, -⟩ := hfree
    omega
  | succ n ih =>
    unfold untypedLoop at h
    rw [hsize, if_pos hmem] at h
    split at h
    · rename_i htaken
      obtain ⟨j, hij, hj, hzero⟩ := hfree
      have hne : j ≠ i := by
        rintro rfl
        exact htaken hzero
      exact ih ⟨j, by omega, by omega, hzero⟩ h
    · obtain ⟨⟨slot, process⟩, -, h⟩ := bind_ok h
      have hprefix := untypedLoop_prefix h
      intro hnil
      rw [hnil, List.prefix_nil] at hprefix
      simp at hprefix

end untypedLoop

/-! ## The environment -/

/-- How `sel4osapi_process_init_env` has filled the CSpace of a process: capabilities about the process, the untypeds, and the
endpoints; what is free begins after the last of them. -/
structure EnvLaid (process process' : Process) (pid : Word) (sizeBits : Nat → UInt8) (userUntypeds : Nat → CPtr) (assigned : List Nat)
    (first last : NativeProcess) : Prop where
  about : ∃ caps, process.native.Copied pid first caps
  untypeds : first.Copied pid last (assigned.map userUntypeds)
  endpoints : ∃ caps, last.Copied pid process'.native caps
  start : assigned ≠ [] → process'.env.untypedsStart = first.cspaceNextFree
  sizes : ∀ k j, assigned[k]? = some j → process'.env.untypedSizeBitsList k = sizeBits j
  nodup : assigned.Nodup
  freeSlots : process'.env.freeSlotsStart = process'.native.cspaceNextFree

section environment

variable {cfg : ProcessConfig} {process process' : Process} {pid : Word} {priority num : UInt8}
  {allocation allocation' : Nat → UInt8}
  {sizeBits : Nat → UInt8} {userUntypeds : Nat → CPtr} {aep : CPtr} {assigned : List Nat} {first last : NativeProcess}

/-- What comes of `sel4osapi_process_init_env` on a page of zeroes, slot by slot. -/
theorem processInitEnv_laid (hbits : cfg.cspaceSizeBits < 32) (hzero : process.env = .zero)
    (h : processInitEnv cfg process pid priority num allocation sizeBits userUntypeds aep = .ok (process', allocation', assigned)) :
    (∃ first last, EnvLaid process process' pid sizeBits userUntypeds assigned first last) ∧
    (0 < cfg.untypedMemSize → (∃ i < num.toNat, allocation i = 0) → assigned ≠ []) := by
  have hnum : num.toNat < 256 := num.toNat_lt
  obtain ⟨pd, p₁, tcb, p₂, v, sysclock, p₃, idling, p₄, stack, p₅, serial, p₆, fault, p₇, _, _, _, hp₁, hp₂, henv₂, hv, ⟨hp₃, henv₃⟩,
    ⟨hp₄, henv₄⟩, ⟨hp₅, henv₅⟩, ⟨hp₆, henv₆⟩, ⟨hp₇, -⟩, -, rfl, rfl⟩ := processInitEnv_cases h
  have henv₁ : p₁.env = { process.env with pid := pid, priority := priority } := (processCopyCapInto_ok hp₁).2.2.2
  -- before the loop
  have hinv₀ : UntypedLoop.Inv allocation pid 0
      { process := { p₂ with env := { p₂.env with pageDirectory := pd, tcb := tcb } }, allocation := allocation, untypedSize := 0
        untypedCount := 0, assigned := [] } := by
    rw [henv₂, hzero]
    exact .start rfl (.congr .zero rfl rfl rfl)
  have hlaid := untypedLoop_laid (m := p₂.native) hbits hinv₀ ⟨.refl _ _, by simp, by simp, List.nodup_nil⟩ (by omega) hv
  have hpid : v.process.env.pid = pid := (untypedLoop_spec hinv₀ (by omega) hv).pid_eq
  have hc₁ := copied_of_processCopyCapInto hbits hp₁
  have hc₂ := copied_of_processCopyCapInto hbits hp₂
  have hc₃ := copied_of_copyServerEp hbits hp₃
  have hc₄ := copied_of_processCopyCapInto hbits hp₄
  have hc₅ := copied_of_copyServerEp hbits hp₅
  have hc₆ := copied_of_copyServerEp hbits hp₆
  have hc₇ := copied_of_processCopyCapInto hbits hp₇
  simp only [henv₁] at hc₂
  rw [hpid] at hc₃
  rw [henv₃, hpid] at hc₄
  rw [henv₄, hpid] at hc₅
  rw [henv₅, hpid] at hc₆
  rw [henv₆, hpid] at hc₇
  refine ⟨⟨p₂.native, v.process.native, ⟨⟨_, hc₁.trans hc₂⟩, hpid ▸ hlaid.copied,
    ⟨_, (((hc₃.trans hc₄).trans hc₅).trans hc₆).trans hc₇⟩, ?_, ?_, hlaid.nodup, ?_⟩⟩, ?_⟩
  · intro hne
    exact hlaid.start hne
  · intro k j hk
    exact hlaid.sizes k j hk
  · exact (processCopyCapInto_ok hp₇).2.2.1.symm
  · intro hmem hfree
    obtain ⟨i, hi, hzero⟩ := hfree
    exact untypedLoop_ne_nil hmem rfl ⟨i, Nat.zero_le i, by omega, hzero⟩ hv

namespace EnvLaid

variable (h : EnvLaid process process' pid sizeBits userUntypeds assigned first last)

include h

/-- The slots of the untypeds are as many, one after another, as were assigned. -/
theorem range (hne : assigned ≠ []) (hrecords : process'.env.Records assigned) :
    process'.env.untypedsEnd.toNat + 1 = process'.env.untypedsStart.toNat + assigned.length ∧
      process'.env.untypedsEnd.toNat + 1 < 2 ^ 32 := by
  obtain ⟨caps, hcaps⟩ := h.endpoints
  have hlt := process'.native.cspaceNextFree.toNat_lt
  have hpos := List.length_pos_iff.mpr hne
  have hnext := h.untypeds.next
  have hnext' := hcaps.next
  rw [List.length_map] at hnext
  have hrange : process'.env.untypedsEnd + 1 = last.cspaceNextFree := by
    rw [hrecords.range hne, h.start hne, h.untypeds.next_eq, List.length_map]
  have hend : process'.env.untypedsEnd = last.cspaceNextFree - 1 := by
    rw [← hrange, add_sub_cancel_right]
  have hle : (1 : UInt32) ≤ last.cspaceNextFree := by
    rw [UInt32.le_iff_toNat_le, UInt32.toNat_one]
    omega
  have htoNat : process'.env.untypedsEnd.toNat = last.cspaceNextFree.toNat - 1 := by
    rw [hend, UInt32.toNat_sub_of_le _ _ hle, UInt32.toNat_one]
  rw [htoNat, h.start hne]
  omega

/-- What the process registers. -/
theorem bootstrap (hne : assigned ≠ []) (hrecords : process'.env.Records assigned) :
    systemBootstrapUser process'.env = .ok {
      freeSlotsStart := process'.env.freeSlotsStart, freeSlotsEnd := process'.env.freeSlotsEnd
      untypeds := (List.range assigned.length).map fun k =>
        (process'.env.untypedsStart + UInt32.ofNat k, process'.env.untypedSizeBitsList (0 + k)) } := by
  obtain ⟨hrange, hend⟩ := h.range hne hrecords
  have hpos := List.length_pos_iff.mpr hne
  have hle : process'.env.untypedsStart ≤ process'.env.untypedsEnd := by
    rw [UInt32.le_iff_toNat_le]
    omega
  unfold systemBootstrapUser
  rw [bootstrapLoop_eq _ hend hrange.symm]
  · rfl
  · rw [UInt32.toNat_sub_of_le _ _ hle]
    omega

/-- No two slots of the range are the same. -/
theorem slot_inj (hne : assigned ≠ []) {j k : Nat} (hj : j < assigned.length) (hk : k < assigned.length)
    (heq : process'.env.untypedsStart + UInt32.ofNat j = process'.env.untypedsStart + UInt32.ofNat k) : j = k := by
  have hlength : (assigned.map userUntypeds).length = assigned.length := List.length_map _
  have htoNat := congrArg UInt32.toNat heq
  rw [h.start hne, h.untypeds.toNat_slot (hlength ▸ hj), h.untypeds.toNat_slot (hlength ▸ hk)] at htoNat
  omega

/-- The slot of an untyped that was assigned holds it. -/
theorem untyped (hne : assigned ≠ []) {k i : Nat} (hk : assigned[k]? = some i) :
    process'.native.cspace (process'.env.untypedsStart + UInt32.ofNat k) = some (userUntypeds i, pid) := by
  obtain ⟨caps, hcaps⟩ := h.endpoints
  have hlt : k < (assigned.map userUntypeds).length := by
    rw [List.length_map]
    exact (List.getElem?_eq_some_iff.mp hk).1
  rw [h.start hne, hcaps.frame _ (Or.inl ?_)]
  · exact h.untypeds.slots k _ (by rw [List.getElem?_map, hk]; rfl)
  · rw [UInt32.lt_iff_toNat_lt, h.untypeds.toNat_slot hlt, h.untypeds.next]
    omega

/-- From the free slots on nothing is taken that was not before. -/
theorem free (hfresh : ∀ c, process.native.cspaceNextFree ≤ c → process.native.cspace c = none) {c : CPtr}
    (hc : process'.env.freeSlotsStart ≤ c) : process'.native.cspace c = none := by
  obtain ⟨about, habout⟩ := h.about
  obtain ⟨endpoints, hendpoints⟩ := h.endpoints
  have hall := (habout.trans h.untypeds).trans hendpoints
  rw [h.freeSlots] at hc
  rw [hall.frame c (Or.inr hc)]
  refine hfresh c ?_
  have hnext := hall.next
  rw [UInt32.le_iff_toNat_le] at hc ⊢
  omega

end EnvLaid

end environment

/-- For every allocation map with a free untyped, every table of sizes and every choice of servers: after
`sel4osapi_process_init_env` the range `untypeds` has as many slots as untypeds were assigned, each with the capability, the
index and the size of one of them; `sel4osapi_system_bootstrap_user` registers each of them once with its size, and nothing
else; and every slot that is taken comes before the free slots. The memory for a process is not zero, `1u <<
CONFIG_SEL4UTILS_CSPACE_SIZE_BITS` is defined, and a new process has no capability in the slots to come. -/
theorem process_env_agrees (cfg : ProcessConfig) (process process' : Process) (pid : Word) (priority num : UInt8)
    (allocation allocation' sizeBits : Nat → UInt8) (userUntypeds : Nat → CPtr) (aep : CPtr) (assigned : List Nat)
    (hmem : 0 < cfg.untypedMemSize) (hbits : cfg.cspaceSizeBits < 32) (hzero : process.env = .zero)
    (hfresh : ∀ c, process.native.cspaceNextFree ≤ c → process.native.cspace c = none) (hfree : ∃ i < num.toNat, allocation i = 0)
    (h : processInitEnv cfg process pid priority num allocation sizeBits userUntypeds aep = .ok (process', allocation', assigned)) :
    assigned ≠ [] ∧ assigned.Nodup ∧
    process'.env.untypedsEnd.toNat + 1 = process'.env.untypedsStart.toNat + assigned.length ∧
    (∀ k i, assigned[k]? = some i → (process'.env.untypedIndices k).toNat = i ∧
      process'.native.cspace (process'.env.untypedsStart + UInt32.ofNat k) = some (userUntypeds i, pid) ∧
      process'.env.untypedSizeBitsList k = sizeBits i) ∧
    (∃ allocator, systemBootstrapUser process'.env = .ok allocator ∧ (allocator.untypeds.map Prod.fst).Nodup ∧
      (allocator.untypeds.map fun x => (process'.native.cspace x.1, x.2)) = assigned.map (fun i => (some (userUntypeds i, pid), sizeBits i)) ∧
      ∀ c, allocator.freeSlotsStart ≤ c → process'.native.cspace c = none) ∧
    ∀ c, process'.native.cspace c ≠ none → c < process'.env.freeSlotsStart := by
  obtain ⟨⟨first, last, hlaid⟩, hne⟩ := processInitEnv_laid hbits hzero h
  obtain ⟨hassigned, -, -, hrecords, -⟩ := processInitEnv_ok hzero h
  have hne := hne hmem hfree
  have hindices : ∀ k i, assigned[k]? = some i → (process'.env.untypedIndices k).toNat = i := by
    intro k i hk
    have hi := (hassigned i (List.mem_of_getElem? hk)).1
    have hnum : num.toNat < 256 := num.toNat_lt
    rw [hrecords.indices k i hk, UInt8.toNat_ofNat', Nat.mod_eq_of_lt (by omega)]
  refine ⟨hne, hlaid.nodup, (hlaid.range hne hrecords).1, fun k i hk => ⟨hindices k i hk, hlaid.untyped hne hk, hlaid.sizes k i hk⟩,
    ⟨_, hlaid.bootstrap hne hrecords, ?_, ?_, fun c => hlaid.free hfresh⟩, ?_⟩
  · rw [List.map_map]
    refine List.Nodup.map_on ?_ List.nodup_range
    intro j hj k hk heq
    exact hlaid.slot_inj hne (List.mem_range.mp hj) (List.mem_range.mp hk) heq
  · rw [List.map_map]
    refine List.ext_getElem (by simp) ?_
    intro k hk hk'
    have hlt : k < assigned.length := by simpa using hk'
    have hget : assigned[k]? = some assigned[k] := List.getElem?_eq_getElem hlt
    simp only [List.getElem_map, List.getElem_range, Function.comp_apply, Nat.zero_add]
    rw [hlaid.untyped hne hget, hlaid.sizes k _ hget]
  · intro c hc
    by_contra hle
    exact hc (hlaid.free hfresh (UInt32.not_lt.mp hle))

/-- All the servers. -/
def allServers : ProcessConfig := { oneUntyped with sysclockEp := some 50, udpStackEp := some 51, serialServerEp := some 52 }

/-- Three untypeds of 32 MB with the first one taken: a process is given the other two, and registers them. -/
theorem process_env_agrees_allServers : ∃ process' allocation' assigned,
    processInitEnv allServers ⟨newNative, .zero, 0⟩ 2 100 3 (fun i => if i = 0 then 1 else 0) (fun _ => 25)
      (fun i => UInt32.ofNat (30 + i)) 20 = .ok (process', allocation', assigned) ∧ assigned = [1, 2] ∧
    ∃ allocator, systemBootstrapUser process'.env = .ok allocator ∧
      (allocator.untypeds.map fun x => (process'.native.cspace x.1, x.2)) = [(some (31, 2), 25), (some (32, 2), 25)] := by
  have hrun : (processInitEnv allServers ⟨newNative, .zero, 0⟩ 2 100 3 (fun i => if i = 0 then 1 else 0) (fun _ => 25)
      (fun i => UInt32.ofNat (30 + i)) 20).toOption.any (fun x => x.2.2 = [1, 2]) = true := rfl
  obtain ⟨⟨process', allocation', assigned⟩, hinit, hassigned⟩ := exists_ok_of_any hrun
  have hassigned : assigned = [1, 2] := of_decide_eq_true hassigned
  obtain ⟨-, -, -, -, ⟨allocator, hboot, -, hmap, -⟩, -⟩ := process_env_agrees allServers _ process' 2 100 3 _ allocation' _ _ 20 assigned
    (by decide) (by decide) rfl (fun _ _ => rfl) ⟨1, by decide, rfl⟩ hinit
  refine ⟨process', allocation', assigned, hinit, hassigned, allocator, hboot, ?_⟩
  rw [hmap, hassigned]
  rfl

end Sel4Osapi
