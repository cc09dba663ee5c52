import Sel4Osapi.Lemmas.Process

/-!
# Who owns the user untypeds

The table `user_untypeds_allocation` says which user untypeds belong to a process. It is right as long as no process with a
pid that is a multiple of 256 is given any, since the table holds pids as bytes, and no process that was given none is
deleted while the first untyped is taken, since the deletion then clears its entry. A creation for which the pool has no entry
gives nothing.
-/

namespace Sel4Osapi

open Transition

/-- The condition on a step under which the table stays right. -/
def UntypedStepOk (cfg : ProcessConfig) (s : ProcessSystem) : ProcessAction → Prop
  | .create .. =>
    (simplePoolGetCurrentSize s.processes + 1) % 256 ≠ 0 ∨ s.processes.freeEntries = none ∨ cfg.untypedMemSize = 0 ∨
      ∀ i < s.userUntypedsNum.toNat, s.userUntypedsAllocation i ≠ 0
  | .delete process => s.given process ≠ [] ∨ s.userUntypedsAllocation 0 = 0

instance (cfg : ProcessConfig) (s : ProcessSystem) : (a : ProcessAction) → Decidable (UntypedStepOk cfg s a)
  | .create .. => inferInstanceAs (Decidable (_ ∨ _ ∨ _ ∨ _))
  | .delete _ => inferInstanceAs (Decidable (_ ∨ _))

/-- The table, the environments and the pool are consistent. -/
structure UntypedInv (s : ProcessSystem) (free live : List Ptr) : Prop where
  rep : s.processes.Rep free live
  initFn : s.processes.initFn = none
  created : s.created = live.map fun n => (s.processes.nodes n).el
  deleted : ∀ p ∈ s.deleted, p ∈ s.created
  given_lt : ∀ p ∈ s.created, ∀ i ∈ s.given p, i < s.userUntypedsNum.toNat
  length_le : ∀ p ∈ s.created, (s.given p).length ≤ s.userUntypedsNum.toNat
  records : ∀ p ∈ s.created, (s.processes.mem p).env.Records (s.given p)
  owner_eq : ∀ p q i, s.Live p → s.Live q → i ∈ s.given p → i ∈ s.given q → p = q
  allocated : ∀ i < s.userUntypedsNum.toNat, s.userUntypedsAllocation i ≠ 0 ↔ ∃ p, s.Live p ∧ i ∈ s.given p

/-- `s'` has one process more than `s`, which was given the untypeds `assigned`. -/
structure ProcessSystem.Adds (s s' : ProcessSystem) (p : Ptr) (assigned : List Nat) : Prop where
  created : s'.created = s.created ++ [p]
  deleted : s'.deleted = s.deleted
  given : s'.given = Function.update s.given p assigned
  fresh : p ∉ s.created

namespace ProcessSystem.Adds

variable {s s' : ProcessSystem} {p q : Ptr} {assigned : List Nat}

/-- What the new process was given. -/
theorem given_new (a : s.Adds s' p assigned) : s'.given p = assigned := by
  rw [a.given, Function.update_self]

/-- What the other processes were given stays. -/
theorem given_old (a : s.Adds s' p assigned) (hq : q ∈ s.created) : s'.given q = s.given q := by
  have hne : q ≠ p := fun e => a.fresh (e ▸ hq)
  rw [a.given, Function.update_of_ne hne]

/-- What holds of the processes and of the new one. -/
theorem forall_created (a : s.Adds s' p assigned) {P : Ptr → List Nat → Prop} (hold : ∀ q ∈ s.created, P q (s.given q))
    (hnew : P p assigned) : ∀ q ∈ s'.created, P q (s'.given q) := by
  intro q hq
  rw [a.created, List.mem_append, List.mem_singleton] at hq
  rcases hq with hq | rfl
  · rw [a.given_old hq]
    exact hold q hq
  · rw [a.given_new]
    exact hnew

/-- No process is deleted before it is created. -/
theorem deleted_created (a : s.Adds s' p assigned) (hd : ∀ q ∈ s.deleted, q ∈ s.created) :
    ∀ q ∈ s'.deleted, q ∈ s'.created := by
  intro q hq
  rw [a.deleted] at hq
  rw [a.created]
  exact List.mem_append_left _ (hd q hq)

/-- The environments of the processes and of the new one record what was given to each. -/
theorem records (a : s.Adds s' p assigned) (hold : ∀ q ∈ s.created, (s.processes.mem q).env.Records (s.given q))
    (hframe : ∀ q ∈ s.created, s'.processes.mem q = s.processes.mem q) (hnew : (s'.processes.mem p).env.Records assigned) :
    ∀ q ∈ s'.created, (s'.processes.mem q).env.Records (s'.given q) := by
  refine a.forall_created (P := fun q g => (s'.processes.mem q).env.Records g) ?_ hnew
  intro q hq
  rw [hframe q hq]
  exact hold q hq

/-- The live processes and the new one. -/
theorem live_iff (a : s.Adds s' p assigned) (hd : ∀ q ∈ s.deleted, q ∈ s.created) : s'.Live q ↔ s.Live q ∨ q = p := by
  rw [ProcessSystem.Live, a.created, a.deleted, List.mem_append, List.mem_singleton]
  constructor
  · rintro ⟨hq | hq, hnd⟩
    · exact Or.inl ⟨hq, hnd⟩
    · exact Or.inr hq
  · rintro (⟨hq, hnd⟩ | rfl)
    · exact ⟨Or.inl hq, hnd⟩
    · exact ⟨Or.inr rfl, fun hqd => a.fresh (hd _ hqd)⟩

/-- The untypeds that belong to a live process, and those the new one was given. -/
theorem owned_iff (a : s.Adds s' p assigned) (hd : ∀ q ∈ s.deleted, q ∈ s.created) {i : Nat} :
    (∃ q, s'.Live q ∧ i ∈ s'.given q) ↔ (∃ q, s.Live q ∧ i ∈ s.given q) ∨ i ∈ assigned := by
  constructor
  · rintro ⟨q, hq, hqi⟩
    rcases (a.live_iff hd).mp hq with hq | rfl
    · rw [a.given_old hq.1] at hqi
      exact Or.inl ⟨q, hq, hqi⟩
    · rw [a.given_new] at hqi
      exact Or.inr hqi
  · rintro (⟨q, hq, hqi⟩ | hi)
    · refine ⟨q, (a.live_iff hd).mpr (Or.inl hq), ?_⟩
      rwa [a.given_old hq.1]
    · refine ⟨p, (a.live_iff hd).mpr (Or.inr rfl), ?_⟩
      rwa [a.given_new]

/-- Every untyped has one owner when those of the new process had none. -/
theorem owner_eq (a : s.Adds s' p assigned) (hd : ∀ q ∈ s.deleted, q ∈ s.created)
    (howner : ∀ q r i, s.Live q → s.Live r → i ∈ s.given q → i ∈ s.given r → q = r)
    (hfree : ∀ q i, s.Live q → i ∈ s.given q → i ∉ assigned) (q r : Ptr) (i : Nat) (hq : s'.Live q) (hr : s'.Live r)
    (hi : i ∈ s'.given q) (hi' : i ∈ s'.given r) : q = r := by
  rcases (a.live_iff hd).mp hq with hq | rfl <;> rcases (a.live_iff hd).mp hr with hr | rfl
  · rw [a.given_old hq.1] at hi
    rw [a.given_old hr.1] at hi'
    exact howner q r i hq hr hi hi'
  · rw [a.given_old hq.1] at hi
    rw [a.given_new] at hi'
    exact absurd hi' (hfree q i hq hi)
  · rw [a.given_old hr.1] at hi'
    rw [a.given_new] at hi
    exact absurd hi (hfree r i hr hi')
  · rfl

end ProcessSystem.Adds

namespace UntypedInv

variable {cfg : ProcessConfig} {s s' : ProcessSystem} {free live : List Ptr}

/-- After the initialisation. -/
theorem of_init (h : s.Init cfg) : ∃ free, UntypedInv s free [] := by
  obtain ⟨malloc, nodes, mem, elSize, hm, hnew⟩ := h.processes
  obtain ⟨hr, hi, -⟩ := simplePoolNew_ok hm hnew
  refine ⟨_, hr, hi, h.created, ?_, ?_, ?_, ?_, ?_, ?_⟩
  · simp [h.deleted]
  · simp [h.created]
  · simp [h.created]
  · simp [h.created]
  · intro p q i hp
    simp [ProcessSystem.Live, h.created] at hp
  · intro i hi
    simp [h.allocation i hi, ProcessSystem.Live, h.created]

/-- What `sel4osapi_process_delete` does to the table. -/
theorem delete_allocation (h : UntypedInv s free live) {p : Ptr} (hp : p ∈ s.created) (j : Nat) :
    (s.processDelete p).userUntypedsAllocation j =
      if j ∈ (if s.given p = [] then [0] else s.given p) then 0 else s.userUntypedsAllocation j := by
  have hnum : s.userUntypedsNum.toNat < 256 := s.userUntypedsNum.toNat_lt
  have hlen := h.length_le p hp
  have hcleared := (h.records p hp).cleared (by omega) fun i hi => by
    have := h.given_lt p hp i hi
    omega
  rw [← hcleared]
  exact deleteLoop_allocation _ _ 0 _ _ j

/-- Under the condition a deletion clears the entries of the untypeds of the process and no other. -/
theorem delete_allocation_of_ok (h : UntypedInv s free live) {p : Ptr} (hp : p ∈ s.created)
    (hok : UntypedStepOk cfg s (.delete p)) (j : Nat) :
    (s.processDelete p).userUntypedsAllocation j = if j ∈ s.given p then 0 else s.userUntypedsAllocation j := by
  rw [h.delete_allocation hp j]
  by_cases hgiven : s.given p = []
  · rcases hok with hok | hok
    · exact absurd hgiven hok
    · by_cases hj : j = 0
      · simp [hgiven, hj, hok]
      · simp [hgiven, hj]
  · simp [hgiven]

/-- A deletion keeps the books right. -/
theorem delete (h : UntypedInv s free live) {p : Ptr} (hp : s.Live p) (hok : UntypedStepOk cfg s (.delete p)) :
    UntypedInv (s.processDelete p) free live := by
  have halloc := h.delete_allocation_of_ok hp.1 hok
  have hlive : ∀ q, (s.processDelete p).Live q ↔ s.Live q ∧ q ≠ p := by
    intro q
    simp only [ProcessSystem.Live, ProcessSystem.processDelete, List.mem_append, List.mem_singleton, not_or]
    exact and_assoc.symm
  refine ⟨h.rep, h.initFn, h.created, ?_, h.given_lt, h.length_le, h.records, ?_,
    ?_⟩
  · intro q hq
    rcases List.mem_append.mp hq with hq | hq
    · exact h.deleted q hq
    · rw [List.mem_singleton.mp hq]
      exact hp.1
  · intro q r i hq hr hi hi'
    exact h.owner_eq q r i ((hlive q).mp hq).1 ((hlive r).mp hr).1 hi hi'
  · intro i hi
    rw [halloc]
    constructor
    · intro hne
      split at hne
      · exact absurd rfl hne
      · rename_i hnot
        obtain ⟨q, hq, hqi⟩ := (h.allocated i hi).mp hne
        exact ⟨q, (hlive q).mpr ⟨hq, fun e => hnot (e ▸ hqi)⟩, hqi⟩
    · rintro ⟨q, hq, hqi⟩
      obtain ⟨hq, hne⟩ := (hlive q).mp hq
      rw [if_neg fun hpi => hne (h.owner_eq q p i hq hp hqi hpi)]
      exact (h.allocated i hi).mpr ⟨q, hq, hqi⟩

/-- The byte that marks an untyped of a process. -/
theorem toUInt8_ofInt_ne_zero {n : Int} (hn : n % 256 ≠ 0) : (UInt32.ofInt n).toUInt8 ≠ 0 := by
  intro e
  have htoNat : (UInt32.ofInt n).toUInt8.toNat = 0 := by
    rw [e]
    rfl
  have hmod : ((n % 2 ^ 32).toNat % 2 ^ 32) % 2 ^ 8 = 0 := by simpa [UInt32.ofInt] using htoNat
  omega

/-- A creation keeps the books right. -/
theorem create (h : UntypedInv s free live) {priority : UInt8} {native : NativeProcess} {aep : CPtr}
    (hok : UntypedStepOk cfg s (.create priority native aep)) (hs : s.processCreate cfg priority native aep = .ok s') :
    ∃ free' live', UntypedInv s' free' live' := by
  obtain ⟨⟨p, processes⟩, halloc, hs⟩ := bind_ok hs
  cases free with
  | nil =>
    rw [simplePoolAlloc_empty h.rep] at halloc
    cases halloc
    cases hs
    exact ⟨[], live, h⟩
  | cons x free =>
    obtain ⟨pool, hpool, hr, hf, hm⟩ := simplePoolAlloc_cons h.rep
    rw [hpool] at halloc
    obtain ⟨hp, rfl⟩ := Prod.mk.inj (Except.ok.inj halloc)
    subst hp
    obtain ⟨⟨process, allocation, assigned⟩, hinit, hs⟩ := bind_ok hs
    cases hs
    obtain ⟨hassigned, hothers, hlen, hrecords, hzero, -⟩ := processInitEnv_ok rfl hinit
    have hmem : pool.mem = s.processes.mem := by simpa [Pool.init, h.initFn] using hm
    have hfresh : (s.processes.nodes x).el ∉ s.created := by
      rw [h.created]
      exact h.rep.fresh
    have hold : ∀ q, q ∈ s.created → q ≠ (s.processes.nodes x).el := fun q hq e => hfresh (e ▸ hq)
    -- what is assigned is marked
    have hmark : ∀ j ∈ assigned, allocation j ≠ 0 := by
      intro j hj
      rw [(hassigned j hj).2.2]
      rcases hok with hpid | hfull | hmz | hall
      · have hsize : simplePoolGetCurrentSize pool = simplePoolGetCurrentSize s.processes + 1 := by
          rw [simplePoolGetCurrentSize, simplePoolGetCurrentSize, hr.currentSize, h.rep.currentSize, List.length_append]
          rfl
        rw [hsize]
        exact toUInt8_ofInt_ne_zero hpid
      · rw [h.rep.freeList.head] at hfull
        cases hfull
      · rw [hzero hmz] at hj
        exact absurd hj List.not_mem_nil
      · exact absurd (hassigned j hj).2.1 (hall j (hassigned j hj).1)
    generalize hs' : ({ s with
      processes := { pool with mem := Function.update pool.mem (s.processes.nodes x).el process }
      userUntypedsAllocation := allocation, created := s.created ++ [(s.processes.nodes x).el]
      given := Function.update s.given (s.processes.nodes x).el assigned } : ProcessSystem) = s'
    have hnum : s'.userUntypedsNum = s.userUntypedsNum := by rw [← hs']
    have hadds : s.Adds s' (s.processes.nodes x).el assigned := by
      rw [← hs']
      exact ⟨rfl, rfl, rfl, hfresh⟩
    -- an untyped that is assigned had no owner
    have hfree : ∀ q i, s.Live q → i ∈ s.given q → i ∉ assigned := by
      intro q i hq hqi hi
      exact (h.allocated i (hassigned i hi).1).mpr ⟨q, hq, hqi⟩ (hassigned i hi).2.1
    refine ⟨free, live ++ [x], by rw [← hs']; exact hr.write _, by rw [← hs']; exact hf.initFn.trans h.initFn, ?_, ?_,
      ?_, ?_, ?_, hadds.owner_eq h.deleted h.owner_eq hfree, ?_⟩
    · simp only [← hs', List.map_append, List.map_cons, List.map_nil, hf.el, h.created]
    · exact hadds.deleted_created h.deleted
    · rw [hnum]
      exact hadds.forall_created (P := fun _ g => ∀ i ∈ g, i < s.userUntypedsNum.toNat) h.given_lt fun i hi => (hassigned i hi).1
    · rw [hnum]
      exact hadds.forall_created (P := fun _ g => g.length ≤ s.userUntypedsNum.toNat) h.length_le hlen
    · refine hadds.records h.records ?_ ?_
      · intro q hq
        rw [← hs']
        simp only [Function.update_of_ne (hold q hq), hmem]
      · rw [← hs']
        simpa using hrecords
    · intro i hi
      rw [hnum] at hi
      have hallocation : s'.userUntypedsAllocation = allocation := by rw [← hs']
      rw [hallocation, hadds.owned_iff h.deleted, ← h.allocated i hi]
      by_cases hia : i ∈ assigned
      · simp [hia, hmark i hia]
      · simp [hia, hothers i hia]

/-- Every step that meets the condition keeps the books right. -/
theorem step (h : UntypedInv s free live) {a : ProcessAction} (hok : UntypedStepOk cfg s a) (hs : s.step cfg a = .next s') :
    ∃ free' live', UntypedInv s' free' live' := by
  cases a with
  | create priority native aep => exact h.create hok (Outcome.ofExcept_eq_next.mp hs)
  | delete p =>
    simp only [ProcessSystem.step, Outcome.guard_eq_next, Outcome.next.injEq] at hs
    obtain ⟨hp, rfl⟩ := hs
    exact ⟨free, live, h.delete hp hok⟩

/-- The books are right in every run whose steps meet the condition. -/
theorem of_run (hr : (processMachine cfg).ReachableVia (UntypedStepOk cfg) s) : ∃ free live, UntypedInv s free live := by
  refine hr.invariant (P := fun s => ∃ free live, UntypedInv s free live) ?_ ?_
  · intro s hi
    obtain ⟨free, h⟩ := of_init hi
    exact ⟨free, [], h⟩
  · intro s a s' hinv hok hs
    obtain ⟨free, live, h⟩ := hinv
    exact h.step hok hs

end UntypedInv

/-- In every run whose steps meet `UntypedStepOk`, in every state: each user untyped belongs to at most one live process,
the table marks exactly those that belong to one, and a deletion that meets the condition changes the table only at the
untypeds of its process. -/
theorem untypeds_exclusive (cfg : ProcessConfig) (s : ProcessSystem)
    (hr : (processMachine cfg).ReachableVia (UntypedStepOk cfg) s) :
    (∀ p q i, s.Live p → s.Live q → i ∈ s.given p → i ∈ s.given q → p = q) ∧
    (∀ i < s.userUntypedsNum.toNat, s.userUntypedsAllocation i ≠ 0 ↔ ∃ p, s.Live p ∧ i ∈ s.given p) ∧
    ∀ p s', UntypedStepOk cfg s (.delete p) → s.step cfg (.delete p) = .next s' →
      ∀ i, s'.userUntypedsAllocation i ≠ s.userUntypedsAllocation i → i ∈ s.given p := by
  obtain ⟨free, live, h⟩ := UntypedInv.of_run hr
  refine ⟨h.owner_eq, h.allocated, ?_⟩
  intro p s' hok hs i hne
  simp only [ProcessSystem.step, Outcome.guard_eq_next, Outcome.next.injEq] at hs
  obtain ⟨hp, rfl⟩ := hs
  by_contra hi
  rw [h.delete_allocation_of_ok hp.1 hok i, if_neg hi] at hne
  exact hne rfl

/-- A system with one user untyped of 64 MB and room for three processes, each of which is to get that much. -/
def oneUntyped : ProcessConfig where
  processMax := 3
  untypedMemSize := 67108864
  cspaceSizeBits := 12
  sysclockEp := none
  udpStackEp := none
  serialServerEp := none

/-- What `sel4utils_configure_process_custom` makes of a process of `oneUntyped`. -/
def newNative : NativeProcess where
  pd := 10
  tcb := 11
  faultEndpoint := 12
  cspace := fun _ => none
  cspaceNextFree := 16

/-- `oneUntyped` after the initialisation. -/
theorem exists_oneUntyped_init : ∃ s, (processMachine oneUntyped).init s ∧
    (((processMachine oneUntyped).exec s [.create 100 newNative 20, .create 100 newNative 21, .delete 2]).any fun s =>
      s.Live 0 ∧ s.given 0 = [0] ∧ s.userUntypedsNum = 1 ∧ s.userUntypedsAllocation 0 = 0) = true :=
  ⟨⟨_, fun _ => 30, fun _ => 0, fun _ => 26, 1, [], [], fun _ => [], []⟩,
    ⟨⟨id, fun _ => ⟨0, none, none⟩, fun _ => ⟨newNative, .zero, 0⟩, 400, Function.injective_id, rfl⟩, by decide, fun _ _ => rfl, rfl,
      rfl⟩, rfl⟩

/-- The same system with a second user untyped: two processes are created, and the first one is deleted. -/
theorem exists_twoUntypeds_init : ∃ s, (processMachine oneUntyped).init s ∧
    (((processMachine oneUntyped).execVia (UntypedStepOk oneUntyped) s
      [.create 100 newNative 20, .create 100 newNative 21, .delete 0]).any fun s =>
        s.created = [0, 2] ∧ s.deleted = [0] ∧ s.given 0 = [0] ∧ s.given 2 = [1] ∧ s.userUntypedsNum = 2) = true :=
  ⟨⟨_, fun _ => 30, fun _ => 0, fun _ => 26, 2, [], [], fun _ => [], []⟩,
    ⟨⟨id, fun _ => ⟨0, none, none⟩, fun _ => ⟨newNative, .zero, 0⟩, 400, Function.injective_id, rfl⟩, by decide, fun _ _ => rfl, rfl,
      rfl⟩, by decide +kernel⟩

/-- The process that is left has its untyped, and the table says so, and that the other one is free. -/
theorem untypeds_exclusive_twoUntypeds : ∃ s, (processMachine oneUntyped).ReachableVia (UntypedStepOk oneUntyped) s ∧
    s.created = [0, 2] ∧ s.deleted = [0] ∧ s.given 0 = [0] ∧ s.given 2 = [1] ∧ s.userUntypedsAllocation 0 = 0 ∧
    s.userUntypedsAllocation 1 ≠ 0 := by
  obtain ⟨s₀, hi, hrun⟩ := exists_twoUntypeds_init
  obtain ⟨s, hr, hs⟩ := (Machine.ReachableVia.init hi).exists_of_exec _ _ hrun
  simp only [Bool.decide_and, Bool.and_eq_true, decide_eq_true_eq] at hs
  obtain ⟨hcreated, hdeleted, hgiven₀, hgiven₂, hnum⟩ := hs
  have hlive : ∀ p, s.Live p ↔ p = 2 := by
    intro p
    simp only [ProcessSystem.Live, hcreated, hdeleted, List.mem_cons, List.not_mem_nil, or_false]
    constructor
    · rintro ⟨rfl | rfl, hne⟩
      · exact absurd rfl hne
      · rfl
    · rintro rfl
      exact ⟨Or.inr rfl, by decide⟩
  have hmarks := (untypeds_exclusive oneUntyped s hr).2.1
  refine ⟨s, hr, hcreated, hdeleted, hgiven₀, hgiven₂, ?_, ?_⟩
  · by_contra hmark
    obtain ⟨p, hp, hi⟩ := (hmarks 0 (by rw [hnum]; decide)).mp hmark
    rw [(hlive p).mp hp, hgiven₂] at hi
    exact absurd hi (by decide)
  · exact (hmarks 1 (by rw [hnum]; decide)).mpr ⟨2, (hlive 2).mpr rfl, by simp [hgiven₂]⟩

/-- Without the condition the table can be wrong: in `oneUntyped` a second process gets no untyped, and when it is deleted
the table says that the untyped of the first process is free. -/
theorem untypeds_not_exclusive : ¬ ∀ cfg s, (processMachine cfg).Reachable s →
    (∀ p q i, s.Live p → s.Live q → i ∈ s.given p → i ∈ s.given q → p = q) ∧
    (∀ i < s.userUntypedsNum.toNat, s.userUntypedsAllocation i ≠ 0 ↔ ∃ p, s.Live p ∧ i ∈ s.given p) ∧
    ∀ p s', s.step cfg (.delete p) = .next s' →
      ∀ i, s'.userUntypedsAllocation i ≠ s.userUntypedsAllocation i → i ∈ s.given p := by
  intro hall
  obtain ⟨s₀, hi, hrun⟩ := exists_oneUntyped_init
  obtain ⟨s, hr, hs⟩ := (Machine.Reachable.init hi).exists_of_exec _ _ hrun
  simp only [Bool.decide_and, Bool.and_eq_true, decide_eq_true_eq] at hs
  obtain ⟨hlive, hgiven, hnum, hzero⟩ := hs
  refine ((hall oneUntyped s hr).2.1 0 ?_).mpr ⟨0, hlive, ?_⟩ hzero
  · rw [hnum]
    decide
  · simp [hgiven]

end Sel4Osapi
