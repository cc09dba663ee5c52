import Sel4Osapi.Spawn
import Sel4Osapi.Theorems.Release

/-!
# What a deletion revokes and unmaps

`sel4osapi_process_delete` is to revoke the untypeds of the process, which are in slots of the root task, and counts up the
slots of the process that hold copies of them. It is to unmap the environment, and takes the address from `env_remote_vaddr`,
which `sel4osapi_process_spawn` does not write. Both come out right when the numbers happen to be the same.
-/

namespace Sel4Osapi

open Transition

/-- The slots that the loop of `sel4osapi_process_delete` revokes. -/
theorem deleteLoop_revoked (env : ProcessEnv) (n i : Nat) (allocation : Nat → UInt8) (revoked : List CPtr) :
    (ProcessSystem.deleteLoop env n i allocation revoked).2 =
      revoked ++ (List.range' i n).map fun k => env.untypedsStart + UInt32.ofNat k := by
  induction n generalizing i allocation revoked with
  | zero => simp [ProcessSystem.deleteLoop]
  | succ n ih => rw [ProcessSystem.deleteLoop, ih, List.range'_succ, List.map_cons, List.append_assoc, List.singleton_append]

/-! ## The books, in every run -/

/-- The pool and the environments agree with what was created and given. -/
structure ProcessSystem.BooksInv (cfg : ProcessConfig) (s : ProcessSystem) : Prop where
  pool : s.PoolInv cfg
  deleted : ∀ p ∈ s.deleted, p ∈ s.created
  length_le : ∀ p ∈ s.created, (s.given p).length ≤ s.userUntypedsNum.toNat
  records : ∀ p ∈ s.created, (s.processes.mem p).env.Records (s.given p)

namespace ProcessSystem.BooksInv

variable {cfg : ProcessConfig} {s s' : ProcessSystem}

/-- After the initialisation. -/
theorem of_init (h : s.Init cfg) : s.BooksInv cfg :=
  ⟨.of_init h, by simp [h.deleted], by simp [h.created], by simp [h.created]⟩

/-- A creation adds a process, or the pool has no entry for one. -/
theorem create (h : s.BooksInv cfg) {priority : UInt8} {native : NativeProcess} {aep : CPtr}
    (hs : s.processCreate cfg priority native aep = .ok s') :
    s'.BooksInv cfg ∧ s'.deleted = s.deleted ∧
      (s'.created = s.created ∨ ∃ p, p ∉ s.created ∧ s'.created = s.created ++ [p]) := by
  have hpool := h.pool.create hs
  obtain ⟨⟨p, processes⟩, halloc, hs⟩ := bind_ok hs
  cases p with
  | none =>
    obtain rfl := h.pool.wf.alloc_none halloc
    cases hs
    exact ⟨h, rfl, Or.inl rfl⟩
  | some p =>
    obtain ⟨⟨process, allocation, assigned⟩, hinit, hs⟩ := bind_ok hs
    have hs' := Except.ok.inj hs
    obtain ⟨-, -, hlen, hrecords, -⟩ := processInitEnv_ok rfl hinit
    obtain ⟨-, -, hnew, -⟩ := h.pool.wf.alloc halloc
    obtain ⟨-, -, hmem, hframe⟩ := h.pool.wf.alloc_write (q := s'.processes) (v := process) halloc (by rw [← hs'])
    rw [h.pool.contents] at hnew hframe
    have hadds : s.Adds s' p assigned := by
      rw [← hs']
      exact ⟨rfl, rfl, rfl, hnew⟩
    have hnum : s'.userUntypedsNum = s.userUntypedsNum := by rw [← hs']
    have hlength : ∀ q ∈ s'.created, (s'.given q).length ≤ s.userUntypedsNum.toNat :=
      hadds.forall_created (P := fun _ g => g.length ≤ s.userUntypedsNum.toNat) h.length_le hlen
    rw [← hnum] at hlength
    refine ⟨⟨hpool, hadds.deleted_created h.deleted, hlength, ?_⟩, hadds.deleted, Or.inr ⟨p, hnew, hadds.created⟩⟩
    refine hadds.records h.records hframe ?_
    rw [hmem]
    exact hrecords

/-- A deletion keeps what was created. -/
theorem delete (h : s.BooksInv cfg) {p : Ptr} (hp : p ∈ s.created) : (s.processDelete p).BooksInv cfg := by
  refine ⟨⟨h.pool.wf, h.pool.size, h.pool.contents⟩, ?_, h.length_le, h.records⟩
  intro q hq
  rcases List.mem_append.mp hq with hq | hq
  · exact h.deleted q hq
  · rw [List.mem_singleton.mp hq]
    exact hp

/-- The slots that a deletion revokes: those of the process that hold its untypeds, and slot 0 when it has none. -/
theorem revoked (h : s.BooksInv cfg) {p : Ptr} (hp : p ∈ s.created) :
    (s.processDelete p).revoked = s.revoked ++
      (List.range' 0 (max (s.given p).length 1)).map fun k => (s.processes.mem p).env.untypedsStart + UInt32.ofNat k := by
  have hlen := h.length_le p hp
  have hnum := s.userUntypedsNum.toNat_lt
  rw [← (h.records p hp).assignedUntypeds (by omega)]
  exact deleteLoop_revoked _ _ _ _ _

end ProcessSystem.BooksInv

/-- The books are right, and a process that was spawned and not deleted has the page mapped that was sent to it. -/
structure SpawnInv (cfg : ProcessConfig) (s : SpawnSystem) : Prop where
  books : s.system.BooksInv cfg
  created : ∀ p v, s.sent p = some v → p ∈ s.system.created
  mapped : ∀ p v, s.sent p = some v → p ∉ s.system.deleted → s.native p (pageOf v) ≠ none

namespace SpawnInv

variable {cfg : ProcessConfig} {s s' : SpawnSystem}

/-- After the initialisation. -/
theorem of_init (h : s.Init cfg) : SpawnInv cfg s :=
  ⟨.of_init h.system, by simp [h.sent], by simp [h.sent]⟩

/-- A creation keeps it. -/
theorem create (h : SpawnInv cfg s) {priority : UInt8} {page : NewPage} {native : NativeProcess} {vspace : VSpace} {aep : CPtr}
    (hs : s.processCreate cfg priority page native vspace aep = .ok s') : SpawnInv cfg s' := by
  obtain ⟨system, hsystem, hs⟩ := bind_ok hs
  obtain ⟨hbooks, hdeleted, hcreated⟩ := h.books.create hsystem
  rcases hcreated with hcreated | ⟨p, hp, hcreated⟩
  · rw [hcreated, List.getElem?_eq_none (Nat.le_refl _)] at hs
    cases hs
    refine ⟨hbooks, ?_, ?_⟩
    · rw [hcreated]
      exact h.created
    · rw [hdeleted]
      exact h.mapped
  · rw [hcreated, List.getElem?_concat_length] at hs
    cases hs
    refine ⟨hbooks, ?_, ?_⟩
    · intro q v hv
      rw [hcreated]
      exact List.mem_append_left _ (h.created q v hv)
    · intro q v hv hq
      have hne : q ≠ p := fun e => hp (e ▸ h.created q v hv)
      dsimp only at hq ⊢
      rw [Function.update_of_ne hne]
      rw [hdeleted] at hq
      exact h.mapped q v hv hq

/-- The page of the environment is mapped when a process is spawned. -/
theorem spawn (h : SpawnInv cfg s) {p : Ptr} {slot : Option CPtr} {vaddr : Option Ptr} (hp : s.Spawnable p)
    (hs : s.processSpawn p slot vaddr = .ok s') : SpawnInv cfg s' := by
  obtain ⟨⟨copy, cspace⟩, -, hs⟩ := bind_ok hs
  obtain ⟨a, -, hs⟩ := bind_ok hs
  cases hs
  refine ⟨h.books, ?_, ?_⟩
  · intro q v hv
    by_cases hq : q = p
    · rw [hq]
      exact hp.1.1
    · dsimp only at hv
      rw [Function.update_of_ne hq] at hv
      exact h.created q v hv
  · intro q v hv
    dsimp only at hv ⊢
    by_cases hq : q = p
    · subst hq
      rw [Function.update_self] at hv ⊢
      cases hv
      intro _
      rw [show pageOf a = pageOf a + 0 from rfl, vspaceMapPages_add Nat.zero_lt_one]
      simp
    · rw [Function.update_of_ne hq] at hv ⊢
      exact h.mapped q v hv

/-- A deletion touches the pages of the process only. -/
theorem delete (h : SpawnInv cfg s) {p : Ptr} (hp : s.system.Live p) : SpawnInv cfg (s.processDelete p) := by
  refine ⟨h.books.delete hp.1, h.created, ?_⟩
  intro q v hv hq
  have hdeleted : (s.processDelete p).system.deleted = s.system.deleted ++ [p] := rfl
  rw [hdeleted, List.mem_append, List.mem_singleton, not_or] at hq
  have hnative : (s.processDelete p).native q = s.native q := Function.update_of_ne hq.2 _ _
  rw [hnative]
  exact h.mapped q v hv hq.1

/-- In every state of every run. -/
theorem of_run (hr : (spawnMachine cfg).Reachable s) : SpawnInv cfg s := by
  refine hr.invariant (P := SpawnInv cfg) (fun s hi => of_init hi) ?_
  intro s a s' _ h hs
  cases a with
  | create priority page native vspace aep => exact h.create (Outcome.ofExcept_eq_next.mp hs)
  | spawn p slot vaddr =>
    obtain ⟨hp, hs⟩ := Outcome.guard_eq_next.mp hs
    exact h.spawn hp (Outcome.ofExcept_eq_next.mp hs)
  | delete p =>
    obtain ⟨hp, hs⟩ := Outcome.guard_eq_next.mp hs
    cases hs
    exact h.delete hp

end SpawnInv

/-! ## The targets of a deletion -/

/-- A deletion revokes the untypeds of the process, in the slots of the root task, and no other slot, and it unmaps the page
with the address that was sent to the process. -/
structure DeleteTargets (s s' : SpawnSystem) (p v : Ptr) : Prop where
  revoked : ∃ l, s'.system.revoked = s.system.revoked ++ l ∧
    ∀ c, c ∈ l ↔ ∃ j ∈ s.system.given p, s.system.userUntypeds j = c
  unmapped : s'.native = Function.update s.native p (vspaceUnmapPages (s.native p) v 1)

/-- For every process that was created and spawned, in every state of every run: its deletion has the targets that it is to
have if and only if the process was assigned an untyped, its untypeds are in slots of the root task with the same numbers as
the slots of the process that hold the copies, and `env_remote_vaddr` is an address in the page that was sent to it. -/
theorem delete_targets_iff (cfg : ProcessConfig) (s s' : SpawnSystem) (hr : (spawnMachine cfg).Reachable s) (p v : Ptr)
    (hsent : s.sent p = some v) (hs : s.step cfg (.delete p) = .next s') :
    DeleteTargets s s' p v ↔
      s.system.given p ≠ [] ∧
      (∀ c, (∃ j ∈ s.system.given p, s.system.userUntypeds j = c) ↔
        ∃ k < (s.system.given p).length, (s.system.processes.mem p).env.untypedsStart + UInt32.ofNat k = c) ∧
      pageOf (s.envRemoteVaddr p) = pageOf v := by
  have h := SpawnInv.of_run hr
  obtain ⟨hp, hs⟩ := Outcome.guard_eq_next.mp hs
  cases hs
  have hrevoked : (s.processDelete p).system.revoked = _ := h.books.revoked hp.1
  have hmem : ∀ c, c ∈ ((List.range' 0 (max (s.system.given p).length 1)).map fun k =>
      (s.system.processes.mem p).env.untypedsStart + UInt32.ofNat k) ↔
      ∃ k < max (s.system.given p).length 1, (s.system.processes.mem p).env.untypedsStart + UInt32.ofNat k = c := by
    intro c
    simp [List.mem_range'_1]
  constructor
  · intro ht
    obtain ⟨l, hl, htargets⟩ := ht.revoked
    rw [hrevoked, List.append_cancel_left_eq] at hl
    have hne : s.system.given p ≠ [] := by
      intro hnil
      have hzero := (hmem _).mpr ⟨0, by omega, rfl⟩
      rw [hl, htargets, hnil] at hzero
      obtain ⟨j, hj, -⟩ := hzero
      exact List.not_mem_nil hj
    have hpos := List.length_pos_iff.mpr hne
    refine ⟨hne, ?_, ?_⟩
    · intro c
      rw [← htargets, ← hl, hmem, Nat.max_eq_left hpos]
    · -- the page that was sent is mapped before the deletion
      by_contra hpage
      have hunmapped := congrFun (congrFun ht.unmapped p) (pageOf v)
      simp only [SpawnSystem.processDelete, Function.update_self, vspaceUnmapPages_one,
        Function.update_of_ne (Ne.symm hpage)] at hunmapped
      exact h.mapped p v hsent hp.2 hunmapped
  · rintro ⟨hne, hslots, hpage⟩
    have hpos := List.length_pos_iff.mpr hne
    refine ⟨⟨_, hrevoked, ?_⟩, ?_⟩
    · intro c
      rw [hmem, Nat.max_eq_left hpos, hslots]
    · simp only [SpawnSystem.processDelete, vspaceUnmapPages_one, hpage]

/-- `oneUntyped` after the initialisation, with its untyped in the slot `cap` and `env_remote_vaddr` as it comes from
`malloc`. -/
def newSpawnSystem (processes : Pool (Ptr → Process)) (cap : CPtr) (remote : Ptr) : SpawnSystem where
  system := ⟨processes, fun _ => cap, fun _ => 0, fun _ => 26, 1, [], [], fun _ => [], []⟩
  cspace := fun _ => none
  vspace := fun _ => none
  env := fun _ => 0
  native := fun _ _ => none
  envRemoteVaddr := fun _ => remote
  sent := fun _ => none

/-- The first process spawned at the address 65536, and about to be deleted. -/
def FirstSpawned (s : SpawnSystem) (cap : CPtr) (remote : Ptr) : Prop :=
  s.system.Live 0 ∧ s.sent 0 = some 65536 ∧ s.system.given 0 = [0] ∧ s.system.userUntypeds 0 = cap ∧
    (s.system.processes.mem 0).env.untypedsStart = 18 ∧ s.envRemoteVaddr 0 = remote

instance (s : SpawnSystem) (cap : CPtr) (remote : Ptr) : Decidable (FirstSpawned s cap remote) :=
  inferInstanceAs (Decidable (_ ∧ _ ∧ _ ∧ _ ∧ _ ∧ _))

/-- `oneUntyped` runs to there. -/
theorem exists_spawn_runs : ∃ processes, (∀ cap remote, (spawnMachine oneUntyped).init (newSpawnSystem processes cap remote)) ∧
    (((spawnMachine oneUntyped).exec (newSpawnSystem processes 18 65536)
      [.create 100 ⟨4096, 40, 7⟩ newNative (fun _ => none) 20, .spawn 0 (some 41) (some 65536)]).any fun s =>
        FirstSpawned s 18 65536) = true ∧
    (((spawnMachine oneUntyped).exec (newSpawnSystem processes 30 0)
      [.create 100 ⟨4096, 40, 7⟩ newNative (fun _ => none) 20, .spawn 0 (some 41) (some 65536)]).any fun s =>
        FirstSpawned s 30 0) = true :=
  ⟨_, fun _ _ => ⟨⟨⟨id, fun _ => ⟨0, none, none⟩, fun _ => ⟨newNative, .zero, 0⟩, 400, Function.injective_id, rfl⟩,
    (by decide : (1 : UInt8) > 0), fun _ _ => rfl, rfl, rfl⟩, fun _ => rfl⟩, rfl, rfl⟩

/-- The step that deletes the first process. -/
theorem FirstSpawned.delete {s : SpawnSystem} {cap : CPtr} {remote : Ptr} (h : FirstSpawned s cap remote) :
    s.step oneUntyped (.delete 0) = .next (s.processDelete 0) := Outcome.guard_eq_next.mpr ⟨h.1, rfl⟩

/-- The untyped of the first process is in slot 18 of the root task, and the process holds its copy in slot 18 too. -/
theorem delete_targets_iff_same : ∃ s s', (spawnMachine oneUntyped).Reachable s ∧ s.system.given 0 = [0] ∧
    DeleteTargets s s' 0 65536 := by
  obtain ⟨processes, hinit, hrun, -⟩ := exists_spawn_runs
  obtain ⟨s, hr, hs⟩ := (Machine.Reachable.init (hinit 18 65536)).exists_of_exec _ _ hrun
  have hfirst : FirstSpawned s 18 65536 := of_decide_eq_true hs
  have hstep := hfirst.delete
  obtain ⟨-, hsent, hgiven, hcap, hstart, hremote⟩ := hfirst
  refine ⟨s, s.processDelete 0, hr, hgiven, (delete_targets_iff oneUntyped s _ hr 0 65536 hsent hstep).mpr ⟨?_, ?_, ?_⟩⟩
  · simp [hgiven]
  · intro c
    simp [hgiven, hcap, hstart]
  · rw [hremote]

/-- A deletion can miss all its targets: it revokes slot 18 of the root task, though the untyped is in slot 30, and the page
that was sent to the process stays mapped. -/
theorem delete_misses_targets : ¬ ∀ cfg s s', (spawnMachine cfg).Reachable s → ∀ p v, s.sent p = some v →
    s.step cfg (.delete p) = .next s' → DeleteTargets s s' p v := by
  intro hall
  obtain ⟨processes, hinit, -, hrun⟩ := exists_spawn_runs
  obtain ⟨s, hr, hs⟩ := (Machine.Reachable.init (hinit 30 0)).exists_of_exec _ _ hrun
  have hfirst : FirstSpawned s 30 0 := of_decide_eq_true hs
  have hstep := hfirst.delete
  obtain ⟨hlive, hsent, hgiven, hcap, hstart, -⟩ := hfirst
  obtain ⟨l, hl, htargets⟩ := (hall oneUntyped s _ hr 0 65536 hsent hstep).revoked
  have hrevoked : (s.processDelete 0).system.revoked = _ := (SpawnInv.of_run hr).books.revoked hlive.1
  rw [hl, List.append_cancel_left_eq, hgiven, hstart] at hrevoked
  have hmem : (18 : CPtr) ∈ l := by
    rw [hrevoked]
    decide
  obtain ⟨j, hj, hjcap⟩ := (htargets 18).mp hmem
  rw [hgiven, List.mem_singleton] at hj
  rw [hj, hcap] at hjcap
  exact absurd hjcap (by decide)

end Sel4Osapi
