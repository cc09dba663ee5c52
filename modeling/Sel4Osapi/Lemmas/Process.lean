import Sel4Osapi.Process

/-!
# What `sel4osapi_process_init_env` and `sel4osapi_process_delete` do to the user untypeds

`untypedLoop_spec` is about the loop that assigns them: those it assigns were free, are marked with the process, are listed
in its environment and stand in consecutive slots. `deleteLoop_allocation` is about the loop that takes them back.
-/

namespace Sel4Osapi

/-! ## Assigning -/

/-- A capability copied into a process gets the next slot. -/
theorem processCopyCapInto_ok {cfg : ProcessConfig} {process process' : Process} {cap slot : CPtr}
    (h : processCopyCapInto cfg process cap = .ok (slot, process')) :
    slot = process.native.cspaceNextFree ∧ slot ≠ 0 ∧ process'.native.cspaceNextFree = slot + 1 ∧ process'.env = process.env := by
  unfold processCopyCapInto at h
  obtain ⟨_, hne, h⟩ := bind_ok h
  have hne := of_check_ok hne
  cases h
  split at hne
  · rename_i hlt
    rw [if_pos hlt]
    exact ⟨rfl, hne, rfl, rfl⟩
  · exact absurd rfl hne

/-- What an environment says about the untypeds `given` to the process. A process that was given none has the first slot and
the first index of a page of zeroes. -/
structure ProcessEnv.Records (env : ProcessEnv) (given : List Nat) : Prop where
  indices : ∀ k j, given[k]? = some j → env.untypedIndices k = UInt8.ofNat j
  range : given ≠ [] → env.untypedsEnd + 1 = env.untypedsStart + UInt32.ofNat given.length
  none : given = [] → env.untypedsStart = 0 ∧ env.untypedsEnd = 0 ∧ env.untypedIndices 0 = 0

/-- A page of zeroes has no untypeds. -/
theorem ProcessEnv.Records.zero : ProcessEnv.zero.Records [] := ⟨by simp, by simp, fun _ => ⟨rfl, rfl, rfl⟩⟩

/-- The loop over the user untypeds has come to index `i`. -/
structure UntypedLoop.Inv (allocation : Nat → UInt8) (pid : Word) (i : Nat) (v : UntypedLoop) : Prop where
  pid_eq : v.process.env.pid = pid
  count : v.untypedCount = UInt32.ofNat v.assigned.length
  length_le : v.assigned.length ≤ i
  assigned : ∀ j ∈ v.assigned, j < i ∧ allocation j = 0 ∧ v.allocation j = pid.toUInt8
  others : ∀ j, j ∉ v.assigned → v.allocation j = allocation j
  records : v.process.env.Records v.assigned
  next : v.assigned ≠ [] → v.process.native.cspaceNextFree = v.process.env.untypedsEnd + 1

namespace UntypedLoop.Inv

variable {allocation : Nat → UInt8} {pid : Word} {i : Nat} {v : UntypedLoop}

/-- Before the loop, on an environment that has no untypeds yet. -/
theorem start {process : Process} (hpid : process.env.pid = pid) (hnone : process.env.Records []) :
    UntypedLoop.Inv allocation pid 0
      { process := process, allocation := allocation, untypedSize := 0, untypedCount := 0, assigned := [] } :=
  ⟨hpid, rfl, Nat.le_refl _, by simp, by simp, hnone, by simp⟩

/-- An untyped that is not free is passed over. -/
theorem skip (h : v.Inv allocation pid i) : v.Inv allocation pid (i + 1) :=
  ⟨h.pid_eq, h.count, Nat.le_succ_of_le h.length_le, fun j hj => ⟨Nat.lt_succ_of_lt (h.assigned j hj).1, (h.assigned j hj).2⟩,
    h.others, h.records, h.next⟩

/-- An untyped that is free is assigned. -/
theorem assign (h : v.Inv allocation pid i) (hi : i < 255) (hfree : v.allocation i = 0) {process : Process} {slot : CPtr}
    (hslot : slot = v.process.native.cspaceNextFree) (hnext : process.native.cspaceNextFree = slot + 1)
    (henv : process.env = v.process.env) (size : Word) (bits : Nat → UInt8) :
    UntypedLoop.Inv allocation pid (i + 1) {
      process := { process with env := { process.env with
        untypedsStart := if v.untypedCount = 0 then slot else process.env.untypedsStart
        untypedsEnd := slot
        untypedSizeBitsList := bits
        untypedIndices := Function.update process.env.untypedIndices v.untypedCount.toNat (UInt8.ofNat i) } }
      allocation := Function.update v.allocation i process.env.pid.toUInt8
      untypedSize := size
      untypedCount := v.untypedCount + 1
      assigned := v.assigned ++ [i] } := by
  have hlen := h.length_le
  have hcount : v.untypedCount.toNat = v.assigned.length := by
    rw [h.count, UInt32.toNat_ofNat', Nat.mod_eq_of_lt (by omega)]
  have hfresh : i ∉ v.assigned := fun hmem => Nat.lt_irrefl _ (h.assigned i hmem).1
  refine ⟨by simpa [henv] using h.pid_eq, ?_, by simpa using hlen, ?_, ?_,
    ⟨?_, ?_, ?_⟩,
    fun _ => hnext⟩
  · simp [h.count]
  · intro j hj
    rcases List.mem_append.mp hj with hj | hj
    · obtain ⟨hlt, ha, hv⟩ := h.assigned j hj
      have hne : j ≠ i := by omega
      exact ⟨Nat.lt_succ_of_lt hlt, ha, by simpa [hne] using hv⟩
    · obtain rfl := List.mem_singleton.mp hj
      refine ⟨Nat.lt_succ_self _, ?_, by simp [henv, h.pid_eq]⟩
      rw [← h.others j hfresh]
      exact hfree
  · intro j hj
    have hne : j ≠ i := fun e => hj (by simp [e])
    simpa [hne] using h.others j fun hmem => hj (List.mem_append_left _ hmem)
  · intro k j hk
    dsimp only
    rw [henv, hcount]
    exact update_length_snoc (g := fun j => UInt8.ofNat j) h.records.indices i k j hk
  · -- the first slot starts the range, each other one is next to the one before
    intro _
    dsimp only
    rw [henv, List.length_append, List.length_singleton]
    cases hassigned : v.assigned with
    | nil => simp [h.count, hassigned]
    | cons x xs =>
      have hne : v.assigned ≠ [] := by simp [hassigned]
      have hcount' : v.untypedCount ≠ 0 := fun e => by simp [e, hassigned] at hcount
      rw [if_neg hcount', hslot, h.next hne, h.records.range hne, hassigned, UInt32.ofNat_add, add_assoc]
      rfl
  · simp

end UntypedLoop.Inv

/-- The loop assigns untypeds that were free, and keeps the books. -/
theorem untypedLoop_spec {cfg : ProcessConfig} {sizeBits : Nat → UInt8} {userUntypeds : Nat → CPtr} {allocation : Nat → UInt8}
    {pid : Word} {n i : Nat} {v v' : UntypedLoop} (hv : v.Inv allocation pid i) (hi : i + n ≤ 255)
    (h : untypedLoop cfg sizeBits userUntypeds n i v = .ok v') : v'.Inv allocation pid (i + n) := by
  induction n generalizing i v with
  | zero =>
    cases h
    exact hv
  | succ n ih =>
    have hadd : i + (n + 1) = i + 1 + n := by omega
    unfold untypedLoop at h
    split at h
    · split at h
      · rw [hadd]
        exact ih hv.skip (by omega) h
      · rename_i hfree
        obtain ⟨⟨slot, process⟩, hcopy, h⟩ := bind_ok h
        obtain ⟨hslot, -, hnext, henv⟩ := processCopyCapInto_ok hcopy
        rw [hadd]
        exact ih (hv.assign (by omega) (by simpa using hfree) hslot hnext henv _ _) (by omega) h
    · cases h
      -- enough memory: the rest is passed over
      exact ⟨hv.pid_eq, hv.count, by have := hv.length_le; omega, fun j hj => ⟨by have := (hv.assigned j hj).1; omega,
        (hv.assigned j hj).2⟩, hv.others, hv.records, hv.next⟩

/-- With no memory to be had the loop assigns nothing. -/
theorem untypedLoop_of_zero {cfg : ProcessConfig} {sizeBits : Nat → UInt8} {userUntypeds : Nat → CPtr} {n i : Nat}
    {v v' : UntypedLoop} (hcfg : cfg.untypedMemSize = 0) (h : untypedLoop cfg sizeBits userUntypeds n i v = .ok v') : v' = v := by
  cases n with
  | zero =>
    cases h
    rfl
  | succ n =>
    unfold untypedLoop at h
    rw [hcfg, if_neg (by simp)] at h
    cases h
    rfl

/-- A change to another part of the environment keeps what it records of the untypeds. -/
theorem ProcessEnv.Records.congr {env env' : ProcessEnv} {given : List Nat} (h : env.Records given)
    (hs : env'.untypedsStart = env.untypedsStart) (he : env'.untypedsEnd = env.untypedsEnd)
    (hi : env'.untypedIndices = env.untypedIndices) : env'.Records given := by
  refine ⟨?_, ?_, ?_⟩
  · rw [hi]
    exact h.indices
  · rw [hs, he]
    exact h.range
  · rw [hs, he, hi]
    exact h.none

/-- The endpoint of a server goes to the CSpace, not to the environment. -/
theorem copyServerEp_env {cfg : ProcessConfig} {process process' : Process} {text : String} {ep : Option CPtr} {cap : CPtr}
    (h : copyServerEp cfg process text ep = .ok (cap, process')) : process'.env = process.env := by
  cases ep with
  | none =>
    cases h
    rfl
  | some ep =>
    obtain ⟨⟨slot, p⟩, hcopy, h⟩ := bind_ok h
    obtain ⟨_, -, h⟩ := bind_ok h
    cases h
    exact (processCopyCapInto_ok hcopy).2.2.2

section initEnv

variable {cfg : ProcessConfig} {process process' : Process} {pid : Word} {priority num : UInt8}
  {allocation allocation' : Nat → UInt8} {sizeBits : Nat → UInt8} {userUntypeds : Nat → CPtr} {aep : CPtr} {assigned : List Nat}

/-- The calls that `sel4osapi_process_init_env` made, when it returns, with the process after each of them. After the loop none of
them touches the environment. -/
theorem processInitEnv_cases
    (h : processInitEnv cfg process pid priority num allocation sizeBits userUntypeds aep = .ok (process', allocation', assigned)) :
    ∃ pd p₁ tcb p₂ v sysclock p₃ idling p₄ stack p₅ serial p₆ fault p₇ text₃ text₅ text₆,
      processCopyCapInto cfg { process with env := { process.env with pid := pid, priority := priority } } process.native.pd =
        .ok (pd, p₁) ∧
      processCopyCapInto cfg p₁ p₁.native.tcb = .ok (tcb, p₂) ∧
      p₂.env = { process.env with pid := pid, priority := priority } ∧
      untypedLoop cfg sizeBits userUntypeds num.toNat 0
        { process := { p₂ with env := { p₂.env with pageDirectory := pd, tcb := tcb } }, allocation := allocation, untypedSize := 0
          untypedCount := 0, assigned := [] } = .ok v ∧
      (copyServerEp cfg v.process text₃ cfg.sysclockEp = .ok (sysclock, p₃) ∧ p₃.env = v.process.env) ∧
      (processCopyCapInto cfg p₃ aep = .ok (idling, p₄) ∧ p₄.env = v.process.env) ∧
      (copyServerEp cfg p₄ text₅ cfg.udpStackEp = .ok (stack, p₅) ∧ p₅.env = v.process.env) ∧
      (copyServerEp cfg p₅ text₆ cfg.serialServerEp = .ok (serial, p₆) ∧ p₆.env = v.process.env) ∧
      (processCopyCapInto cfg p₆ p₆.native.faultEndpoint = .ok (fault, p₇) ∧ p₇.env = v.process.env) ∧
      v.allocation = allocation' ∧ v.assigned = assigned ∧
      process' = { p₇ with
        env := { v.process.env with
          sysclockServerEp := sysclock, idlingAep := idling, stackOpEp := stack, serialServerEp := serial, faultEndpoint := fault
          cspaceSizeBits := cfg.cspaceSizeBits, freeSlotsStart := fault + 1, freeSlotsEnd := 1 <<< cfg.cspaceSizeBits }
        parentIdlingAep := aep } := by
  unfold processInitEnv at h
  obtain ⟨⟨pd, p₁⟩, hp₁, h⟩ := bind_ok h
  obtain ⟨⟨tcb, p₂⟩, hp₂, h⟩ := bind_ok h
  obtain ⟨v, hv, h⟩ := bind_ok h
  obtain ⟨_, -, h⟩ := bind_ok h
  obtain ⟨⟨sysclock, p₃⟩, hp₃, h⟩ := bind_ok h
  obtain ⟨⟨idling, p₄⟩, hp₄, h⟩ := bind_ok h
  obtain ⟨_, -, h⟩ := bind_ok h
  obtain ⟨⟨stack, p₅⟩, hp₅, h⟩ := bind_ok h
  obtain ⟨⟨serial, p₆⟩, hp₆, h⟩ := bind_ok h
  obtain ⟨⟨fault, p₇⟩, hp₇, h⟩ := bind_ok h
  obtain ⟨_, -, h⟩ := bind_ok h
  obtain ⟨_, -, h⟩ := bind_ok h
  cases h
  have henv₂ : p₂.env = { process.env with pid := pid, priority := priority } :=
    (processCopyCapInto_ok hp₂).2.2.2.trans (processCopyCapInto_ok hp₁).2.2.2
  have henv₃ : p₃.env = v.process.env := copyServerEp_env hp₃
  have henv₄ : p₄.env = v.process.env := (processCopyCapInto_ok hp₄).2.2.2.trans henv₃
  have henv₅ : p₅.env = v.process.env := (copyServerEp_env hp₅).trans henv₄
  have henv₆ : p₆.env = v.process.env := (copyServerEp_env hp₆).trans henv₅
  have henv₇ : p₇.env = v.process.env := (processCopyCapInto_ok hp₇).2.2.2.trans henv₆
  refine ⟨pd, p₁, tcb, p₂, v, sysclock, p₃, idling, p₄, stack, p₅, serial, p₆, fault, p₇, _, _, _, hp₁, hp₂, henv₂, hv, ⟨hp₃, henv₃⟩,
    ⟨hp₄, henv₄⟩, ⟨hp₅, henv₅⟩, ⟨hp₆, henv₆⟩, ⟨hp₇, henv₇⟩, rfl, rfl, ?_⟩
  rw [henv₇]

/-- The loop of `sel4osapi_process_init_env`: it starts with the pid in the environment, and nothing that comes before or after
it touches the pid or what is recorded of the untypeds. -/
theorem processInitEnv_loop
    (h : processInitEnv cfg process pid priority num allocation sizeBits userUntypeds aep = .ok (process', allocation', assigned)) :
    ∃ p v, untypedLoop cfg sizeBits userUntypeds num.toNat 0
        { process := p, allocation := allocation, untypedSize := 0, untypedCount := 0, assigned := [] } = .ok v ∧
      v.allocation = allocation' ∧ v.assigned = assigned ∧ p.env.pid = pid ∧ process'.env.pid = v.process.env.pid ∧
      (∀ given, process.env.Records given → p.env.Records given) ∧
      ∀ given, v.process.env.Records given → process'.env.Records given := by
  obtain ⟨pd, p₁, tcb, p₂, v, sysclock, p₃, idling, p₄, stack, p₅, serial, p₆, fault, p₇, _, _, _, -, -, henv, hv, -, -, -, -, -,
    hallocation, hassigned, rfl⟩ := processInitEnv_cases h
  refine ⟨_, v, hv, hallocation, hassigned, ?_, rfl, ?_, ?_⟩
  · exact congrArg ProcessEnv.pid henv
  · intro given hgiven
    exact hgiven.congr (by simp [henv]) (by simp [henv]) (by simp [henv])
  · intro given hgiven
    exact hgiven.congr rfl rfl rfl

/-- What comes of `sel4osapi_process_init_env` on a page of zeroes: the untypeds assigned were free, are marked with the
pid, and are recorded in the environment; the others are marked as before. -/
theorem processInitEnv_ok (hzero : process.env = .zero)
    (h : processInitEnv cfg process pid priority num allocation sizeBits userUntypeds aep = .ok (process', allocation', assigned)) :
    (∀ j ∈ assigned, j < num.toNat ∧ allocation j = 0 ∧ allocation' j = pid.toUInt8) ∧
      (∀ j, j ∉ assigned → allocation' j = allocation j) ∧ assigned.length ≤ num.toNat ∧ process'.env.Records assigned ∧
      (cfg.untypedMemSize = 0 → assigned = []) ∧ process'.env.pid = pid := by
  have hnum : num.toNat < 256 := num.toNat_lt
  obtain ⟨p, v, hv, rfl, rfl, hpid, hpid', hbefore, hafter⟩ := processInitEnv_loop h
  have hnone : p.env.Records [] := by
    refine hbefore [] ?_
    rw [hzero]
    exact .zero
  have hinv : v.Inv allocation pid (0 + num.toNat) := untypedLoop_spec (.start hpid hnone) (by omega) hv
  rw [Nat.zero_add] at hinv
  refine ⟨hinv.assigned, hinv.others, hinv.length_le, hafter _ hinv.records, ?_, hpid'.trans hinv.pid_eq⟩
  intro hcfg
  rw [untypedLoop_of_zero hcfg hv]

end initEnv

/-! ## Taking back -/

/-- The loop of `sel4osapi_process_delete` clears the entries that the indices name. -/
theorem deleteLoop_allocation (env : ProcessEnv) (n i : Nat) (allocation : Nat → UInt8) (revoked : List CPtr) (j : Nat) :
    (ProcessSystem.deleteLoop env n i allocation revoked).1 j =
      if j ∈ (List.range' i n).map fun k => (env.untypedIndices k).toNat then 0 else allocation j := by
  induction n generalizing i allocation revoked with
  | zero => rfl
  | succ n ih =>
    rw [ProcessSystem.deleteLoop, ih, List.range'_succ, List.map_cons]
    by_cases hj : j = (env.untypedIndices i).toNat
    · simp [hj]
    · rw [Function.update_of_ne hj]
      simp only [List.mem_cons, hj, false_or]

/-- The range of slots is no longer than there are user untypeds. -/
theorem ProcessEnv.Records.range_le {env : ProcessEnv} {given : List Nat} (h : env.Records given) {num : UInt8} (hnum : 0 < num)
    (hlen : given.length ≤ num.toNat) : env.untypedsEnd - env.untypedsStart + 1 ≤ num.toUInt32 := by
  have hpos : 0 < num.toNat := UInt8.lt_iff_toNat_lt.mp hnum
  have hlt := num.toNat_lt
  rw [UInt32.le_iff_toNat_le, UInt8.toNat_toUInt32]
  cases hgiven : given with
  | nil =>
    obtain ⟨hs, he, -⟩ := h.none hgiven
    rw [hs, he]
    exact hpos
  | cons i is =>
    rw [sub_add_eq_add_sub, h.range (by simp [hgiven]), add_sub_cancel_left, UInt32.toNat_ofNat', Nat.mod_eq_of_lt (by omega)]
    exact hlen

/-- How many untypeds the range of slots shows: one when the process was given none. -/
theorem ProcessEnv.Records.assignedUntypeds {env : ProcessEnv} {given : List Nat} (h : env.Records given)
    (hlen : given.length ≤ 255) : ProcessSystem.assignedUntypeds env = max given.length 1 := by
  cases given with
  | nil =>
    obtain ⟨hs, he, -⟩ := h.none rfl
    rw [ProcessSystem.assignedUntypeds, hs, he]
    rfl
  | cons x xs =>
    have hrange := h.range (by simp)
    have hcount : env.untypedsEnd - env.untypedsStart + 1 = UInt32.ofNat (x :: xs).length := by
      rw [sub_add_eq_add_sub, hrange, add_sub_cancel_left]
    have htoNat : (UInt32.ofNat (x :: xs).length).toNat = (x :: xs).length := by
      rw [UInt32.toNat_ofNat', Nat.mod_eq_of_lt (by omega)]
    simp only [ProcessSystem.assignedUntypeds, hcount, htoNat]
    rw [if_pos (by omega)]
    simp

/-- What `sel4osapi_process_delete` clears: the entries of the untypeds of the process, and the first one when it has none. -/
theorem ProcessEnv.Records.cleared {env : ProcessEnv} {given : List Nat} (h : env.Records given) (hlen : given.length ≤ 255)
    (hlt : ∀ j ∈ given, j < 256) :
    ((List.range' 0 (ProcessSystem.assignedUntypeds env)).map fun k => (env.untypedIndices k).toNat) =
      if given = [] then [0] else given := by
  rw [h.assignedUntypeds hlen]
  cases hgiven : given with
  | nil => simp [(h.none hgiven).2.2]
  | cons x xs =>
    rw [← hgiven, if_neg (by simp [hgiven]), Nat.max_eq_left (by simp [hgiven])]
    refine List.ext_getElem (by simp) ?_
    intro k hk hk'
    have hj : given[k]? = some given[k] := List.getElem?_eq_getElem hk'
    simp only [List.getElem_map, List.getElem_range', Nat.zero_add, Nat.one_mul]
    rw [h.indices k _ hj, UInt8.toNat_ofNat', Nat.mod_eq_of_lt (hlt _ (List.getElem_mem hk'))]

end Sel4Osapi
