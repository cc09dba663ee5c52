import Sel4Osapi.Boot
import Sel4Osapi.Theorems.Environment
import Sel4Osapi.Theorems.Release
import Sel4Osapi.Theorems.Untypeds

/-!
# Whose memory is whose

From the start of the system on, no untyped that the root task has taken for user processes is in the allocators of two live
processes, none that is free is in any, and none that was given back to the allocator of the root task. Those that the tables have
no entry for are lost. `systemInitialize_ok` is about the start, `processInitEnv_memory` about a new process.
-/

namespace Sel4Osapi

open Transition

/-! ## The start of the system -/

/-- What the tables say, and where the untypeds come from. -/
structure Boot.Ok (cfg : BootConfig) (a : BootAnswers) (boot : Boot) : Prop where
  init : boot.system.Init cfg.toProcessConfig
  num : boot.system.userUntypedsNum.toNat = boot.taken.toNat % 256
  userUntypeds : ∀ i, boot.system.userUntypeds i = (boot.userUntypeds i).cptr
  sizeBits : ∀ i < boot.system.userUntypedsNum.toNat, boot.system.userUntypedsSizeBits i = (boot.userUntypeds i).sizeBits
  taken : ∀ i < boot.taken.toNat, a.user i = some (boot.userUntypeds i)
  freed : ∀ k object, boot.freed[k]? = some object → a.root k = some object

/-- What the start comes to, when it passes its assertions. -/
theorem systemInitialize_ok {cfg : BootConfig} {a : BootAnswers} {rootTaskUts : Nat → VkaObject} {b : PoolBlocks Process} {boot : Boot}
    (h : systemInitialize cfg a rootTaskUts b = .ok boot) : boot.Ok cfg a := by
  have hroot := utilAllocateUntypeds_spec a.root rootTaskUts cfg.rootTaskUntypedMemSize rootTaskNumUntypeds
  have huser := utilAllocateUntypeds_spec a.user (fun _ => ⟨0, 0⟩) uintMax cfg.maxNumUntypedCaps
  unfold systemInitialize at h
  dsimp only at h
  obtain ⟨_, hnum, h⟩ := bind_ok h
  obtain ⟨processes, hprocesses, h⟩ := bind_ok h
  cases h
  refine ⟨⟨⟨_, _, _, _, b.malloc.injective, hprocesses⟩, of_check_ok hnum, ?_, rfl, rfl⟩, ?_, fun _ => rfl, ?_, ?_, ?_⟩
  · intro i hi
    dsimp only at hi ⊢
    rw [fillLoop_apply, ite_self]
  · dsimp only
    rw [UInt32.toNat_toUInt8]
  · intro i hi
    dsimp only at hi ⊢
    rw [fillLoop_apply, if_pos ⟨Nat.zero_le i, by omega⟩]
  · intro i hi
    exact (huser.taken i (Nat.zero_le i) hi).1
  · intro k object hobject
    dsimp only at hobject
    rw [freeLoop_eq, List.nil_append, List.getElem?_map, Option.map_eq_some_iff] at hobject
    obtain ⟨i, hi, rfl⟩ := hobject
    obtain ⟨hk, rfl⟩ := List.getElem?_eq_some_iff.mp hi
    rw [List.length_range'] at hk
    rw [List.getElem_range', Nat.zero_add, Nat.one_mul]
    exact (hroot.taken k (Nat.zero_le k) hk).1

/-! ## A new process -/

/-- The slots of the untypeds and the list of sizes, read together. -/
theorem EnvLaid.slots {process process' : Process} {pid : Word} {sizeBits : Nat → UInt8} {userUntypeds : Nat → CPtr}
    {assigned : List Nat} {first last : NativeProcess} (h : EnvLaid process process' pid sizeBits userUntypeds assigned first last)
    (hne : assigned ≠ []) :
    ((List.range assigned.length).map fun k =>
        (process'.native.cspace (process'.env.untypedsStart + UInt32.ofNat k), process'.env.untypedSizeBitsList (0 + k))) =
      assigned.map fun i => (some (userUntypeds i, pid), sizeBits i) := by
  refine List.ext_getElem (by simp) ?_
  intro k hk hk'
  have hlt : k < assigned.length := by simpa using hk'
  have hget : assigned[k]? = some assigned[k] := List.getElem?_eq_getElem hlt
  simp only [List.getElem_map, List.getElem_range, Nat.zero_add]
  rw [h.untyped hne hget, h.sizes k _ hget]

/-- The memory of a new process is what it was assigned. A process that was assigned nothing gives slot 0 to its allocator, and
there is no capability in it. -/
theorem processInitEnv_memory {cfg : ProcessConfig} {process process' : Process} {pid : Word} {priority num : UInt8}
    {allocation allocation' sizeBits : Nat → UInt8} {userUntypeds : Nat → CPtr} {aep : CPtr} {assigned : List Nat}
    (hbits : cfg.cspaceSizeBits < 32) (hzero : process.env = .zero) (hnull : process.native.cspace 0 = none)
    (h : processInitEnv cfg process pid priority num allocation sizeBits userUntypeds aep = .ok (process', allocation', assigned)) :
    process'.memory = .ok (assigned.map fun i => (userUntypeds i, sizeBits i)) ∧ assigned.Nodup := by
  obtain ⟨⟨first, last, hlaid⟩, -⟩ := processInitEnv_laid hbits hzero h
  obtain ⟨-, -, -, hrecords, -⟩ := processInitEnv_ok hzero h
  refine ⟨?_, hlaid.nodup⟩
  by_cases hne : assigned = []
  · obtain ⟨pd, p₁, -, -, -, -, -, -, -, -, -, -, -, -, -, -, -, -, hp₁, -⟩ := processInitEnv_cases h
    obtain ⟨hslot, hpos, -⟩ := processCopyCapInto_ok hp₁
    obtain ⟨about, habout⟩ := hlaid.about
    obtain ⟨endpoints, hendpoints⟩ := hlaid.endpoints
    have hslot₀ : process'.native.cspace 0 = none := by
      rw [((habout.trans hlaid.untypeds).trans hendpoints).frame 0 (Or.inl ?_), hnull]
      rw [UInt32.lt_iff_toNat_lt]
      rw [hslot] at hpos
      exact Nat.pos_of_ne_zero fun e => hpos (UInt32.toNat_inj.mp e)
    obtain ⟨hstart, hend, -⟩ := hrecords.none hne
    have hboot : systemBootstrapUser process'.env = .ok {
        freeSlotsStart := process'.env.freeSlotsStart, freeSlotsEnd := process'.env.freeSlotsEnd
        untypeds := [(0, process'.env.untypedSizeBitsList 0)] } := by
      unfold systemBootstrapUser
      rw [hstart, hend]
      rw [bootstrapLoop_eq (m := 1) (by decide) (by rw [hend]; decide) (by rw [hend])]
      rfl
    rw [Process.memory, hboot, hne]
    simp [hslot₀, pure, Except.pure]
  · rw [Process.memory, hlaid.bootstrap hne hrecords, ok_bind]
    have hslots := congrArg (List.filterMap fun x => x.1.map fun cap => (cap.1, x.2)) (hlaid.slots hne)
    rw [List.filterMap_map, List.filterMap_map] at hslots
    dsimp only
    rw [List.filterMap_map]
    refine congrArg Except.ok (hslots.trans ?_)
    exact congrFun List.filterMap_eq_map assigned

/-! ## The processes -/

/-- The condition on a step under which the books stay right. The first slot of a new process is the null slot. -/
def MemoryStepOk (cfg : BootConfig) (s : ProcessSystem) : ProcessAction → Prop
  | .create priority native aep => UntypedStepOk cfg.toProcessConfig s (.create priority native aep) ∧ native.cspace 0 = none
  | .delete process => UntypedStepOk cfg.toProcessConfig s (.delete process)

/-- The tables are those of the start, and the memory of each process is what it was given. -/
structure MemoryInv (cfg : BootConfig) (boot : Boot) (s : ProcessSystem) : Prop where
  pool : s.PoolInv cfg.toProcessConfig
  userUntypeds : s.userUntypeds = boot.system.userUntypeds
  sizeBits : s.userUntypedsSizeBits = boot.system.userUntypedsSizeBits
  num : s.userUntypedsNum = boot.system.userUntypedsNum
  nodup : ∀ p ∈ s.created, (s.given p).Nodup
  memory : ∀ p ∈ s.created,
    (s.processes.mem p).memory = .ok ((s.given p).map fun i => (boot.system.userUntypeds i, boot.system.userUntypedsSizeBits i))

namespace MemoryInv

variable {cfg : BootConfig} {a : BootAnswers} {boot : Boot} {s s' : ProcessSystem}

/-- At the start there are no processes. -/
theorem of_ok (h : boot.Ok cfg a) : MemoryInv cfg boot boot.system :=
  ⟨.of_init h.init, rfl, rfl, rfl, by simp [h.init.created], by simp [h.init.created]⟩

/-- A new process has what it was assigned. -/
theorem create (h : MemoryInv cfg boot s) (hbits : cfg.cspaceSizeBits < 32) {priority : UInt8} {native : NativeProcess} {aep : CPtr}
    (hnull : native.cspace 0 = none) (hs : s.processCreate cfg.toProcessConfig priority native aep = .ok s') : MemoryInv cfg boot s' := by
  have hpool := h.pool.create hs
  rcases ProcessSystem.processCreate_cases h.pool hs with
    rfl | ⟨p, process, pid, allocation, assigned, hinit, hadds, hmem, hframe, huser, hbit, hnum⟩
  · exact h
  · obtain ⟨hmemory, hnodup⟩ := processInitEnv_memory hbits rfl hnull hinit
    rw [h.userUntypeds, h.sizeBits] at hmemory
    refine ⟨hpool, huser.trans h.userUntypeds, hbit.trans h.sizeBits, hnum.trans h.num, ?_, ?_⟩
    · exact hadds.forall_created (P := fun _ g => g.Nodup) h.nodup hnodup
    · refine hadds.forall_created (P := fun q g => (s'.processes.mem q).memory =
        .ok (g.map fun i => (boot.system.userUntypeds i, boot.system.userUntypedsSizeBits i))) ?_ ?_
      · intro q hq
        rw [hframe q hq]
        exact h.memory q hq
      · rw [hmem]
        exact hmemory

/-- A step keeps it; a deletion does not touch the memory of the processes. -/
theorem step (h : MemoryInv cfg boot s) (hbits : cfg.cspaceSizeBits < 32) {act : ProcessAction} (hok : MemoryStepOk cfg s act)
    (hs : s.step cfg.toProcessConfig act = .next s') : MemoryInv cfg boot s' := by
  have hpool := h.pool.step hs
  cases act with
  | create priority native aep => exact h.create hbits hok.2 (Outcome.ofExcept_eq_next.mp hs)
  | delete p =>
    obtain ⟨-, hs⟩ := Outcome.guard_eq_next.mp hs
    cases hs
    exact ⟨hpool, h.userUntypeds, h.sizeBits, h.num, h.nodup, h.memory⟩

/-- A process has the untypeds that it was given. -/
theorem holds_iff (h : MemoryInv cfg boot s) (hboot : boot.Ok cfg a) {p : Ptr} (hp : p ∈ s.created) {c : CPtr} :
    s.Holds p c ↔ ∃ i ∈ s.given p, (boot.userUntypeds i).cptr = c := by
  have hmemory := h.memory p hp
  constructor
  · rintro ⟨memory, hm, hc⟩
    rw [hmemory] at hm
    cases hm
    simp only [List.map_map, List.mem_map, Function.comp_apply, hboot.userUntypeds] at hc
    exact hc
  · rintro ⟨i, hi, rfl⟩
    refine ⟨_, hmemory, ?_⟩
    simp only [List.map_map, List.mem_map, Function.comp_apply, hboot.userUntypeds]
    exact ⟨i, hi, rfl⟩

end MemoryInv

section run

variable {cfg : BootConfig} {a : BootAnswers} {boot : Boot} {s : ProcessSystem}

/-- What the runs from the start keep. -/
theorem Boot.Ok.run (hboot : boot.Ok cfg a) (hbits : cfg.cspaceSizeBits < 32)
    (hr : (boot.machine cfg).ReachableVia (MemoryStepOk cfg) s) : MemoryInv cfg boot s ∧ ∃ free live, UntypedInv s free live := by
  have hrun : (processMachine cfg.toProcessConfig).ReachableVia (UntypedStepOk cfg.toProcessConfig) s := by
    refine hr.mono ?_ ?_ ?_
    · rintro s rfl
      exact hboot.init
    · rfl
    · intro s act hok
      cases act with
      | create priority native aep => exact hok.1
      | delete p => exact hok
  refine ⟨?_, UntypedInv.of_run hrun⟩
  refine hr.invariant (P := MemoryInv cfg boot) ?_ fun s a s' h hok hs => h.step hbits hok hs
  rintro s rfl
  exact .of_ok hboot

/-- The slots of the untypeds that were taken for processes are different. -/
theorem Boot.Ok.cptr_inj (hboot : boot.Ok cfg a) (ha : a.Sound) {i j : Nat} (hi : i < boot.taken.toNat) (hj : j < boot.taken.toNat)
    (heq : (boot.userUntypeds i).cptr = (boot.userUntypeds j).cptr) : i = j :=
  ha.user i j _ _ (hboot.taken i hi) (hboot.taken j hj) heq

/-- The untypeds of the root task are given back once each. -/
theorem Boot.Ok.freed_nodup (hboot : boot.Ok cfg a) (ha : a.Sound) : (boot.freed.map VkaObject.cptr).Nodup := by
  rw [List.nodup_iff_pairwise_ne, List.pairwise_map, List.pairwise_iff_getElem]
  intro j k hj hk hlt heq
  have hsame := ha.root j k _ _ (hboot.freed j _ (List.getElem?_eq_getElem hj)) (hboot.freed k _ (List.getElem?_eq_getElem hk)) heq
  omega

end run

/-- From the start of the system on, in every state of every run whose steps meet `MemoryStepOk`:
1. each untyped in the memory of a live process is in it once, is one of those that the root task took for processes, and has its
size;
2. no two live processes have an untyped in common;
3. no live process has an untyped that the table says is free;
4. what was taken for the root task is given back to its allocator, each untyped once, and no live process has any of it;
5. of the untypeds that were taken for processes, those from `taken % 256` on are lost: neither a process nor the root task has
them. -/
theorem memory_isolated (cfg : BootConfig) (a : BootAnswers) (rootTaskUts : Nat → VkaObject) (b : PoolBlocks Process) (boot : Boot)
    (hbits : cfg.cspaceSizeBits < 32) (ha : a.Sound) (hstart : systemInitialize cfg a rootTaskUts b = .ok boot) (s : ProcessSystem)
    (hr : (boot.machine cfg).ReachableVia (MemoryStepOk cfg) s) :
    (∀ p, s.Live p → ∃ memory, (s.processes.mem p).memory = .ok memory ∧ (memory.map Prod.fst).Nodup ∧
      ∀ x ∈ memory, ∃ i < boot.taken.toNat % 256, a.user i = some ⟨x.1, x.2⟩) ∧
    (∀ p q c, s.Live p → s.Live q → s.Holds p c → s.Holds q c → p = q) ∧
    (∀ i < boot.taken.toNat % 256, s.userUntypedsAllocation i = 0 → ∀ p, s.Live p → ¬ s.Holds p (boot.userUntypeds i).cptr) ∧
    ((boot.freed.map VkaObject.cptr).Nodup ∧ ∀ object ∈ boot.freed, ∀ p, s.Live p → ¬ s.Holds p object.cptr) ∧
    ∀ i, boot.taken.toNat % 256 ≤ i → i < boot.taken.toNat →
      boot.userUntypeds i ∉ boot.freed ∧ ∀ p, s.Live p → ¬ s.Holds p (boot.userUntypeds i).cptr := by
  have hboot := systemInitialize_ok hstart
  obtain ⟨h, free, live, hbooks⟩ := hboot.run hbits hr
  have hle : boot.taken.toNat % 256 ≤ boot.taken.toNat := Nat.mod_le _ _
  have hgiven : ∀ p, s.Live p → ∀ i ∈ s.given p, i < boot.taken.toNat % 256 := by
    intro p hp i hi
    have hlt := hbooks.given_lt p hp.1 i hi
    rwa [h.num, hboot.num] at hlt
  have htaken : ∀ p, s.Live p → ∀ i ∈ s.given p, i < boot.taken.toNat := fun p hp i hi => Nat.lt_of_lt_of_le (hgiven p hp i hi) hle
  refine ⟨?_, ?_, ?_, ⟨hboot.freed_nodup ha, ?_⟩, ?_⟩
  · intro p hp
    refine ⟨_, h.memory p hp.1, ?_, ?_⟩
    · rw [List.map_map]
      refine List.Nodup.map_on ?_ (h.nodup p hp.1)
      intro i hi j hj heq
      simp only [Function.comp_apply, hboot.userUntypeds] at heq
      exact hboot.cptr_inj ha (htaken p hp i hi) (htaken p hp j hj) heq
    · intro x hx
      obtain ⟨i, hi, rfl⟩ := List.mem_map.mp hx
      refine ⟨i, hgiven p hp i hi, ?_⟩
      rw [hboot.taken i (htaken p hp i hi), hboot.userUntypeds, hboot.sizeBits i (hboot.num ▸ hgiven p hp i hi)]
  · intro p q c hp hq hpc hqc
    obtain ⟨i, hi, rfl⟩ := (h.holds_iff hboot hp.1).mp hpc
    obtain ⟨j, hj, heq⟩ := (h.holds_iff hboot hq.1).mp hqc
    obtain rfl := hboot.cptr_inj ha (htaken q hq j hj) (htaken p hp i hi) heq
    exact hbooks.owner_eq p q j hp hq hi hj
  · intro i hi hzero p hp hholds
    obtain ⟨j, hj, heq⟩ := (h.holds_iff hboot hp.1).mp hholds
    obtain rfl := hboot.cptr_inj ha (htaken p hp j hj) (Nat.lt_of_lt_of_le hi hle) heq
    exact (hbooks.allocated j (hbooks.given_lt p hp.1 j hj)).mpr ⟨p, hp, hj⟩ hzero
  · intro object hobject p hp hholds
    obtain ⟨k, hk⟩ := List.mem_iff_getElem?.mp hobject
    have hk := hboot.freed k object hk
    obtain ⟨i, hi, heq⟩ := (h.holds_iff hboot hp.1).mp hholds
    exact ha.apart k i _ _ hk (hboot.taken i (htaken p hp i hi)) heq.symm
  · intro i hge hi
    refine ⟨?_, ?_⟩
    · intro hfreed
      obtain ⟨k, hk⟩ := List.mem_iff_getElem?.mp hfreed
      exact ha.apart k i _ _ (hboot.freed k _ hk) (hboot.taken i hi) rfl
    · intro p hp hholds
      obtain ⟨j, hj, heq⟩ := (h.holds_iff hboot hp.1).mp hholds
      have hji := hboot.cptr_inj ha (htaken p hp j hj) hi heq
      have hlt := hgiven p hp j hj
      omega

/-- The root task keeps one untyped, and a process needs one. -/
def twoUntypeds : BootConfig :=
  { oneUntyped with untypedMemSize := 8388608, rootTaskUntypedMemSize := 8388608, maxNumUntypedCaps := 10 }

/-- The allocator has three untypeds, in the slots 10, 20 and 21. -/
def threeUntypeds : BootAnswers where
  root k := if k = 0 then some ⟨10, 23⟩ else none
  user k := if k = 0 then some ⟨20, 23⟩ else if k = 1 then some ⟨21, 23⟩ else none

/-- The first call takes one, up to the limit, and the second one the other two. -/
theorem utilAllocateUntypeds_threeUntypeds :
    utilAllocateUntypeds threeUntypeds.root (fun _ => ⟨0, 0⟩) 8388608 rootTaskNumUntypeds =
      (1, Function.update (fun _ => ⟨0, 0⟩) 0 ⟨10, 23⟩) ∧
    utilAllocateUntypeds threeUntypeds.user (fun _ => ⟨0, 0⟩) uintMax 10 =
      (2, Function.update (Function.update (fun _ => ⟨0, 0⟩) 0 ⟨20, 23⟩) 1 ⟨21, 23⟩) := by
  constructor
  · rw [utilAllocateUntypeds, utilAllocateUntypedsLoop, if_pos (by decide)]
    change utilAllocateUntypedsLoop threeUntypeds.root 8388608 rootTaskNumUntypeds 1 untypedBit _ = _
    rw [utilAllocateUntypedsLoop, if_neg (by decide)]
    rfl
  · rw [utilAllocateUntypeds, utilAllocateUntypedsLoop, if_pos (by decide)]
    change utilAllocateUntypedsLoop threeUntypeds.user uintMax 10 1 untypedBit _ = _
    rw [utilAllocateUntypedsLoop, if_pos (by decide)]
    change utilAllocateUntypedsLoop threeUntypeds.user uintMax 10 2 (untypedBit + untypedBit) _ = _
    rw [utilAllocateUntypedsLoop, if_pos (by decide)]
    rfl

/-- The start, and what the first process is given. -/
theorem exists_twoUntypeds_boot : ∃ boot,
    systemInitialize twoUntypeds threeUntypeds (fun _ => ⟨0, 0⟩) (blocksOf ⟨newNative, .zero, 0⟩) = .ok boot ∧
    boot.userUntypeds 1 = ⟨21, 23⟩ ∧ boot.freed = [⟨10, 23⟩] ∧ boot.taken = 2 ∧
    simplePoolGetCurrentSize boot.system.processes = 0 ∧
    (((boot.machine twoUntypeds).exec boot.system [.create 100 newNative 30]).any fun s =>
      s.Live 0 ∧ (s.processes.mem 0).memory.toOption = some [(20, 23)] ∧ s.userUntypedsAllocation 1 = 0) = true := by
  obtain ⟨hroot, huser⟩ := utilAllocateUntypeds_threeUntypeds
  unfold systemInitialize
  dsimp only [twoUntypeds]
  rw [hroot, huser]
  exact ⟨_, rfl, rfl, rfl, rfl, rfl, rfl⟩

/-- A process is created: it has the first of the two untypeds, and neither the other one nor the one of the root task. -/
theorem memory_isolated_twoUntypeds : ∃ boot s,
    systemInitialize twoUntypeds threeUntypeds (fun _ => ⟨0, 0⟩) (blocksOf ⟨newNative, .zero, 0⟩) = .ok boot ∧
    (boot.machine twoUntypeds).ReachableVia (MemoryStepOk twoUntypeds) s ∧
    s.Live 0 ∧ (s.processes.mem 0).memory.toOption = some [(20, 23)] ∧ ¬ s.Holds 0 21 ∧ ¬ s.Holds 0 10 := by
  obtain ⟨boot, hstart, huser, hfreed, htaken, hsize, hrun⟩ := exists_twoUntypeds_boot
  obtain ⟨s, hstep, hrun⟩ := Machine.exists_step_of_exec hrun
  simp only [Machine.exec, Option.any_some, Bool.decide_and, Bool.and_eq_true, decide_eq_true_eq] at hrun
  obtain ⟨hlive, hmemory, hzero⟩ := hrun
  have hok : MemoryStepOk twoUntypeds boot.system (.create 100 newNative 30) := ⟨Or.inl (by rw [hsize]; decide), rfl⟩
  have hr : (boot.machine twoUntypeds).ReachableVia (MemoryStepOk twoUntypeds) s := (Machine.ReachableVia.init rfl).step _ hok hstep
  have hsound : threeUntypeds.Sound := by
    refine ⟨?_, ?_, ?_⟩
    · intro j k object object' hj hk _
      grind [threeUntypeds]
    · intro j k object object' hj hk heq
      grind [threeUntypeds]
    · intro j k object object' hj hk
      grind [threeUntypeds]
  obtain ⟨-, -, hfree, ⟨-, hroot⟩, -⟩ := memory_isolated twoUntypeds threeUntypeds _ _ boot (by decide) hsound hstart s hr
  have hother := hfree 1 (by rw [htaken]; decide) hzero 0 hlive
  rw [huser] at hother
  exact ⟨boot, s, hstart, hr, hlive, hmemory, hother, hroot ⟨10, 23⟩ (by simp [hfreed]) 0 hlive⟩

end Sel4Osapi
