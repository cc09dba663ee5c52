import Sel4Osapi.Thread
import Sel4Osapi.Theorems.Process

/-!
# What a deletion releases

`sel4osapi_process_delete` and `sel4osapi_thread_delete` are to release all the resources of a process and of a thread.
Neither gives back the entry of the pool. There is an entry for a new process, or a new thread, as long as fewer have ever
been created than the pool is large, whether they were deleted or not.
-/

namespace Sel4Osapi

open Transition

/-! ## Processes -/

namespace ProcessSystem

/-- How many processes exist. -/
def liveCount (s : ProcessSystem) : Nat := (s.created.filter fun p => p ∉ s.deleted).length

/-- The pool holds the processes that were ever created. -/
structure PoolInv (cfg : ProcessConfig) (s : ProcessSystem) : Prop where
  wf : s.processes.WellFormed
  size : s.processes.size = cfg.processMax
  contents : s.processes.contents = s.created

namespace PoolInv

variable {cfg : ProcessConfig} {s s' : ProcessSystem}

/-- After the initialisation. -/
theorem of_init (h : s.Init cfg) : s.PoolInv cfg := by
  obtain ⟨malloc, nodes, mem, elSize, hm, hnew⟩ := h.processes
  obtain ⟨hwf, hnil⟩ := Pool.WellFormed.of_new hm hnew
  obtain ⟨-, -, -, hsize, -⟩ := simplePoolNew_ok hm hnew
  exact ⟨hwf, hsize, hnil.trans h.created.symm⟩

/-- A creation adds to both. -/
theorem create (h : s.PoolInv cfg) {priority : UInt8} {native : NativeProcess} {aep : CPtr}
    (hs : s.processCreate cfg priority native aep = .ok s') : s'.PoolInv cfg := by
  obtain ⟨⟨p, processes⟩, halloc, hs⟩ := bind_ok hs
  cases p with
  | none =>
    obtain rfl := h.wf.alloc_none halloc
    cases hs
    exact h
  | some p =>
    obtain ⟨⟨process, allocation, assigned⟩, -, hs⟩ := bind_ok hs
    cases hs
    obtain ⟨hwf, hcontents, -⟩ := h.wf.alloc_write halloc (by rfl)
    refine ⟨hwf, (h.wf.alloc_size halloc).trans h.size, ?_⟩
    rw [hcontents, h.contents]

/-- A deletion leaves the pool as it is. -/
theorem step (h : s.PoolInv cfg) {a : ProcessAction} (hs : s.step cfg a = .next s') : s'.PoolInv cfg := by
  cases a with
  | create priority native aep => exact h.create (Outcome.ofExcept_eq_next.mp hs)
  | delete p =>
    simp only [ProcessSystem.step, Outcome.guard_eq_next, Outcome.next.injEq] at hs
    obtain ⟨-, rfl⟩ := hs
    exact ⟨h.wf, h.size, h.contents⟩

/-- In every state of every run. -/
theorem of_run (hr : (processMachine cfg).Reachable s) : s.PoolInv cfg := by
  induction hr with
  | init hi => exact of_init hi
  | step a _ hs ih => exact ih.step hs

end PoolInv

/-- What a creation does: nothing, or it adds a process with what `sel4osapi_process_init_env` has made of it. -/
theorem processCreate_cases {cfg : ProcessConfig} {s s' : ProcessSystem} (h : s.PoolInv cfg) {priority : UInt8}
    {native : NativeProcess} {aep : CPtr} (hs : s.processCreate cfg priority native aep = .ok s') :
    s' = s ∨ ∃ p process pid allocation assigned,
      processInitEnv cfg { native := native, env := .zero, parentIdlingAep := 0 } pid priority s.userUntypedsNum
        s.userUntypedsAllocation s.userUntypedsSizeBits s.userUntypeds aep = .ok (process, allocation, assigned) ∧
      s.Adds s' p assigned ∧ s'.processes.mem p = process ∧ (∀ q ∈ s.created, s'.processes.mem q = s.processes.mem q) ∧
      s'.userUntypeds = s.userUntypeds ∧ s'.userUntypedsSizeBits = s.userUntypedsSizeBits ∧
      s'.userUntypedsNum = s.userUntypedsNum := by
  obtain ⟨⟨p, processes⟩, halloc, hs⟩ := bind_ok hs
  cases p with
  | none =>
    obtain rfl := h.wf.alloc_none halloc
    cases hs
    exact Or.inl rfl
  | some p =>
    obtain ⟨⟨process, allocation, assigned⟩, hinit, hs⟩ := bind_ok hs
    have hs' := Except.ok.inj hs
    obtain ⟨-, -, hnew, -⟩ := h.wf.alloc halloc
    obtain ⟨-, -, hmem, hframe⟩ := h.wf.alloc_write (q := s'.processes) (v := process) halloc (by rw [← hs'])
    rw [h.contents] at hnew hframe
    have hadds : s.Adds s' p assigned := by
      rw [← hs']
      exact ⟨rfl, rfl, rfl, hnew⟩
    refine Or.inr ⟨p, process, _, allocation, assigned, hinit, hadds, hmem, hframe, ?_, ?_, ?_⟩ <;> rw [← hs']

end ProcessSystem

/-! ## Threads -/

namespace Task

/-- How many threads exist beside the main thread. -/
def liveCount (s : Task) : Nat := (s.created.filter fun p => p ∉ s.deleted).length

/-- The pool holds the threads that were ever created. -/
structure PoolInv (cfg : ThreadConfig) (s : Task) : Prop where
  wf : s.threads.WellFormed
  size : s.threads.size = cfg.maxThreads
  contents : s.threads.contents = s.created

namespace PoolInv

variable {cfg : ThreadConfig} {s s' : Task} {threadRoutine : Ptr} {threadArg : Option Ptr} {priority : Int} {a : ThreadAnswers}

/-- After the initialisation. -/
theorem of_init (h : s.Init cfg) : s.PoolInv cfg := by
  obtain ⟨b, hnew⟩ := h.threads
  obtain ⟨hwf, hnil⟩ := Pool.WellFormed.of_new b.malloc.injective hnew
  obtain ⟨-, -, -, hsize, -⟩ := simplePoolNew_ok b.malloc.injective hnew
  exact ⟨hwf, hsize, hnil.trans h.created.symm⟩

/-- A creation adds to both. -/
theorem create (h : s.PoolInv cfg) {thread : Ptr} (hs : s.threadCreate threadRoutine threadArg priority a = .ok (thread, s')) :
    s'.PoolInv cfg := by
  obtain ⟨threads, localEndpoint, threadAep, ipc, halloc, -, -, -, rfl⟩ := threadCreate_ok hs
  obtain ⟨hwf, hcontents, -⟩ := h.wf.alloc_write halloc (by rfl)
  refine ⟨hwf, (h.wf.alloc_size halloc).trans h.size, ?_⟩
  rw [hcontents, h.contents]

/-- A deletion leaves the pool as it is. -/
theorem step (h : s.PoolInv cfg) {act : ThreadAction} (hs : s.step act = .next s') : s'.PoolInv cfg := by
  cases act with
  | create threadRoutine threadArg priority a =>
    obtain ⟨⟨thread, s''⟩, hcreate, hs⟩ := bind_ok (Outcome.ofExcept_eq_next.mp hs)
    cases hs
    exact h.create hcreate
  | delete p =>
    simp only [Task.step, Outcome.guard_eq_next, Outcome.next.injEq] at hs
    obtain ⟨-, rfl⟩ := hs
    exact ⟨h.wf, h.size, h.contents⟩

/-- In every state of every run. -/
theorem of_run (hr : (threadMachine cfg).Reachable s) : s.PoolInv cfg := by
  induction hr with
  | init hi => exact of_init hi
  | step a _ hs ih => exact ih.step hs

/-- Once it has an entry, `sel4osapi_thread_create` fails no assertion but others. -/
theorem create_ne_error {thread : Ptr} {threads : Pool (Ptr → Thread)}
    (halloc : simplePoolAlloc s.threads = .ok (some thread, threads)) :
    s.threadCreate threadRoutine threadArg priority a ≠ .error (.assert "thread != NULL") := by
  intro hf
  unfold threadCreate at hf
  rw [halloc] at hf
  rcases bind_error hf with hf | ⟨_, hx, hf⟩
  · cases hf
  cases hx
  rcases bind_error hf with hf | ⟨_, -, hf⟩
  · cases hf
  rcases bind_error hf with hf | ⟨_, -, hf⟩
  · exact absurd (of_checkSome_error hf) (by simp)
  rcases bind_error hf with hf | ⟨_, -, hf⟩
  · exact absurd (of_checkSome_error hf) (by simp)
  rcases bind_error hf with hf | ⟨_, -, hf⟩
  · exact absurd (of_checkSome_error hf) (by simp)
  rcases bind_error hf with hf | ⟨_, -, hf⟩
  · exact absurd (of_check_error hf) (by simp)
  cases hf

/-- `sel4osapi_thread_create` fails the assertion on the pool exactly when there is no entry left. -/
theorem create_fault_iff (h : s.PoolInv cfg) :
    s.step (.create threadRoutine threadArg priority a) = .fault (.assert "thread != NULL") ↔
      ¬ (s.created.length : Int) < cfg.maxThreads := by
  rw [← h.contents, ← h.size]
  unfold Task.step
  dsimp only
  rw [Outcome.ofExcept_eq_fault]
  rcases h.wf.alloc_cases with ⟨hlt, thread, threads, halloc⟩ | ⟨heq, hnone⟩
  · refine iff_of_false ?_ (not_not_intro hlt)
    intro hf
    rcases bind_error hf with hf | ⟨_, -, hf⟩
    · exact create_ne_error halloc hf
    · cases hf
  · refine iff_of_true ?_ (by omega)
    unfold threadCreate
    rw [hnone]
    rfl

end PoolInv

end Task

/-! ## Both -/

/-- In every run, in every state: there is an entry for a new process exactly when fewer than `SEL4OSAPI_USER_PROCESS_MAX`
processes have ever been created, and `sel4osapi_thread_create` passes its assertion on the pool exactly when the task has
created fewer than `SEL4OSAPI_MAX_THREADS_PER_PROCESS` threads. -/
theorem entries_never_released (cfg : ProcessConfig) (s : ProcessSystem) (hr : (processMachine cfg).Reachable s)
    (cfg' : ThreadConfig) (t : Task) (hr' : (threadMachine cfg').Reachable t) (threadRoutine : Ptr) (threadArg : Option Ptr)
    (priority : Int) (a : ThreadAnswers) :
    ((∃ p processes, simplePoolAlloc s.processes = .ok (some p, processes)) ↔ (s.created.length : Int) < cfg.processMax) ∧
    (t.step (.create threadRoutine threadArg priority a) ≠ .fault (.assert "thread != NULL") ↔
      (t.created.length : Int) < cfg'.maxThreads) := by
  refine ⟨?_, ?_⟩
  · have h := ProcessSystem.PoolInv.of_run hr
    rw [h.wf.alloc_iff, h.contents, h.size]
  · have h := Task.PoolInv.of_run hr'
    rw [ne_eq, h.create_fault_iff, not_not]

/-- Before each creation of a process there are fewer than the maximum. -/
def ProcessRoom (cfg : ProcessConfig) (s : ProcessSystem) : ProcessAction → Prop
  | .create .. => (s.liveCount : Int) < cfg.processMax
  | .delete _ => True

/-- Before each creation of a thread there are fewer than the maximum. -/
def ThreadRoom (cfg : ThreadConfig) (s : Task) : ThreadAction → Prop
  | .create .. => (s.liveCount : Int) < cfg.maxThreads
  | .delete _ => True

instance (cfg : ProcessConfig) (s : ProcessSystem) (act : ProcessAction) : Decidable (ProcessRoom cfg s act) :=
  match act with
  | .create .. => inferInstanceAs (Decidable (_ < _))
  | .delete _ => isTrue trivial

instance (cfg : ThreadConfig) (s : Task) (act : ThreadAction) : Decidable (ThreadRoom cfg s act) :=
  match act with
  | .create .. => inferInstanceAs (Decidable (_ < _))
  | .delete _ => isTrue trivial

/-- Room for one process. -/
def oneProcess : ProcessConfig := { oneUntyped with processMax := 1 }

/-- Room for one thread. -/
def oneThread : ThreadConfig where
  maxThreads := 1

/-- The calls made for a thread succeed. -/
def threadAnswers : ThreadAnswers where
  localEndpoint := some 30
  threadAep := some 31
  native := some 32
  faultHandler := true

/-- Room for one process: after the initialisation, and once it was created and deleted. -/
theorem exists_oneProcess_init : ∃ s, (processMachine oneProcess).init s ∧
    (((processMachine oneProcess).execVia (ProcessRoom oneProcess) s [.create 100 newNative 20, .delete 0]).any fun s =>
      s.liveCount = 0 ∧ s.created = [0]) = true :=
  ⟨⟨_, fun _ => 30, fun _ => 0, fun _ => 26, 1, [], [], fun _ => [], []⟩,
    ⟨⟨id, fun _ => ⟨0, none, none⟩, fun _ => ⟨newNative, .zero, 0⟩, 400, Function.injective_id, rfl⟩, by decide, fun _ _ => rfl, rfl,
      rfl⟩, rfl⟩

/-- Room for one thread: after the initialisation, and once it was created and deleted. -/
theorem exists_oneThread_init : ∃ s, (threadMachine oneThread).init s ∧
    (((threadMachine oneThread).execVia (ThreadRoom oneThread) s [.create 40 none 100 threadAnswers, .delete 0]).any fun s =>
      s.liveCount = 0 ∧ s.created = [0]) = true :=
  ⟨⟨1, 100, 50, false, Task.initializeMainThread 100 60 61, _, [], []⟩,
    ⟨⟨blocksOf ⟨0, 0, 0, 0, ⟨0, none, none, 0, 0, 0⟩⟩, rfl⟩, ⟨60, 61, rfl⟩, rfl, rfl⟩, rfl⟩

/-- Room for two processes: one was created and deleted. -/
theorem exists_twoProcesses : ∃ s, (processMachine { oneUntyped with processMax := 2 }).Reachable s ∧ s.created = [0] ∧
    s.deleted = [0] := by
  have hinit : ∃ s, (processMachine { oneUntyped with processMax := 2 }).init s ∧
      (((processMachine { oneUntyped with processMax := 2 }).exec s [.create 100 newNative 20, .delete 0]).any fun s =>
        s.created = [0] ∧ s.deleted = [0]) = true :=
    ⟨⟨_, fun _ => 30, fun _ => 0, fun _ => 26, 1, [], [], fun _ => [], []⟩,
      ⟨⟨id, fun _ => ⟨0, none, none⟩, fun _ => ⟨newNative, .zero, 0⟩, 400, Function.injective_id, rfl⟩, by decide, fun _ _ => rfl, rfl,
        rfl⟩, rfl⟩
  obtain ⟨s₀, hi, hrun⟩ := hinit
  obtain ⟨s, hr, hs⟩ := (Machine.Reachable.init hi).exists_of_exec _ _ hrun
  exact ⟨s, hr, of_decide_eq_true hs⟩

/-- Room for two threads: one was created and deleted. -/
theorem exists_twoThreads : ∃ t, (threadMachine ⟨2⟩).Reachable t ∧ t.created = [0] ∧ t.deleted = [0] := by
  have hinit : ∃ t, (threadMachine ⟨2⟩).init t ∧
      (((threadMachine ⟨2⟩).exec t [.create 40 none 100 threadAnswers, .delete 0]).any fun t =>
        t.created = [0] ∧ t.deleted = [0]) = true :=
    ⟨⟨1, 100, 50, false, Task.initializeMainThread 100 60 61, _, [], []⟩,
      ⟨⟨blocksOf ⟨0, 0, 0, 0, ⟨0, none, none, 0, 0, 0⟩⟩, rfl⟩, ⟨60, 61, rfl⟩, rfl, rfl⟩, rfl⟩
  obtain ⟨t₀, hi, hrun⟩ := hinit
  obtain ⟨t, hr, ht⟩ := (Machine.Reachable.init hi).exists_of_exec _ _ hrun
  exact ⟨t, hr, of_decide_eq_true ht⟩

/-- There is an entry for the second process and for the second thread. -/
theorem entries_never_released_second : ∃ s t, (processMachine { oneUntyped with processMax := 2 }).Reachable s ∧ s.created = [0] ∧
    s.deleted = [0] ∧ (threadMachine ⟨2⟩).Reachable t ∧ t.created = [0] ∧ t.deleted = [0] ∧
    (∃ p processes, simplePoolAlloc s.processes = .ok (some p, processes)) ∧
    t.step (.create 40 none 100 threadAnswers) ≠ .fault (.assert "thread != NULL") := by
  obtain ⟨s, hr, hcreated, hdeleted⟩ := exists_twoProcesses
  obtain ⟨t, hr', hcreated', hdeleted'⟩ := exists_twoThreads
  obtain ⟨hs, ht⟩ := entries_never_released _ s hr _ t hr' 40 none 100 threadAnswers
  refine ⟨s, t, hr, hcreated, hdeleted, hr', hcreated', hdeleted', hs.mpr ?_, ht.mpr ?_⟩
  · rw [hcreated]
    decide
  · rw [hcreated']
    decide

/-- With room for one process, or one thread, one that was created and deleted leaves none for the next. -/
theorem entries_lost :
    (¬ ∀ cfg s, (processMachine cfg).ReachableVia (ProcessRoom cfg) s → (s.liveCount : Int) < cfg.processMax →
      ∃ p processes, simplePoolAlloc s.processes = .ok (some p, processes)) ∧
    ¬ ∀ cfg s, (threadMachine cfg).ReachableVia (ThreadRoom cfg) s → (s.liveCount : Int) < cfg.maxThreads →
      ∀ threadRoutine threadArg priority a, s.step (.create threadRoutine threadArg priority a) ≠ .fault (.assert "thread != NULL") := by
  refine ⟨?_, ?_⟩
  · intro hall
    obtain ⟨s₀, hi, hrun⟩ := exists_oneProcess_init
    obtain ⟨s, hr, hs⟩ := (Machine.ReachableVia.init hi).exists_of_exec _ _ hrun
    simp only [Bool.decide_and, Bool.and_eq_true, decide_eq_true_eq] at hs
    have hentry := hall oneProcess s hr (by rw [hs.1]; decide)
    have h := ProcessSystem.PoolInv.of_run hr.reachable
    rw [h.wf.alloc_iff, h.contents, h.size, hs.2] at hentry
    exact absurd hentry (by decide)
  · intro hall
    obtain ⟨s₀, hi, hrun⟩ := exists_oneThread_init
    obtain ⟨s, hr, hs⟩ := (Machine.ReachableVia.init hi).exists_of_exec _ _ hrun
    simp only [Bool.decide_and, Bool.and_eq_true, decide_eq_true_eq] at hs
    refine hall oneThread s hr (by rw [hs.1]; decide) 40 none 100 threadAnswers ?_
    rw [(Task.PoolInv.of_run hr.reachable).create_fault_iff, hs.2]
    decide

end Sel4Osapi
