import Sel4Osapi.Pool
import Sel4Osapi.Lib.Transition

/-!
# process.c: the processes and the untyped memory they are given

`sel4osapi_process_init_env` hands a new process the first of the user untypeds that are free, as many as it takes for
`SEL4OSAPI_USER_PROCESS_UNTYPED_MEM_SIZE` bytes. It keeps the books in three places: the table `user_untypeds_allocation` of
the system, the range `untypeds` of slots of the process that hold the capabilities, and the list `untyped_indices` of its
environment. `sel4osapi_process_delete` works out from the range how many there are.

The environment is a page from `vspace_new_pages`, filled with zeroes. `sel4utils_mint_cap_to_process` copies a capability
to the next slot of the CSpace of a process, and returns 0 when there is none. The serial and the IPC client of a process,
and the pages it shares with them, are left out: nothing here depends on them.
-/

namespace Sel4Osapi

open Transition

/-- The configuration of the library, and the endpoints of its servers in the root task. -/
structure ProcessConfig where
  /-- `SEL4OSAPI_USER_PROCESS_MAX` -/
  processMax : Int
  /-- `SEL4OSAPI_USER_PROCESS_UNTYPED_MEM_SIZE` -/
  untypedMemSize : Word
  /-- `CONFIG_SEL4UTILS_CSPACE_SIZE_BITS` -/
  cspaceSizeBits : Word
  /-- the endpoints, for the servers that are configured -/
  sysclockEp : Option CPtr
  udpStackEp : Option CPtr
  serialServerEp : Option CPtr

/-- `sel4osapi_process_env_t`. -/
structure ProcessEnv where
  pid : Word
  priority : UInt8
  pageDirectory : CPtr
  tcb : CPtr
  untypedsStart : CPtr
  untypedsEnd : CPtr
  untypedIndices : Nat → UInt8
  untypedSizeBitsList : Nat → UInt8
  sysclockServerEp : CPtr
  idlingAep : CPtr
  stackOpEp : CPtr
  serialServerEp : CPtr
  faultEndpoint : CPtr
  cspaceSizeBits : Word
  freeSlotsStart : CPtr
  freeSlotsEnd : CPtr

/-- A page of zeroes as an environment. -/
def ProcessEnv.zero : ProcessEnv where
  pid := 0
  priority := 0
  pageDirectory := 0
  tcb := 0
  untypedsStart := 0
  untypedsEnd := 0
  untypedIndices := fun _ => 0
  untypedSizeBitsList := fun _ => 0
  sysclockServerEp := 0
  idlingAep := 0
  stackOpEp := 0
  serialServerEp := 0
  faultEndpoint := 0
  cspaceSizeBits := 0
  freeSlotsStart := 0
  freeSlotsEnd := 0

/-- `sel4utils_process_t`, as far as it goes: capabilities of the root task to its objects, and its CSpace, where a slot
that is taken holds a copy of a capability of the root task, with a badge. -/
structure NativeProcess where
  pd : CPtr
  tcb : CPtr
  faultEndpoint : CPtr
  cspace : CPtr → Option (CPtr × Word)
  cspaceNextFree : CPtr

/-- `sel4osapi_process_t`. -/
structure Process where
  native : NativeProcess
  env : ProcessEnv
  parentIdlingAep : CPtr

/-- `sel4osapi_process_copy_cap_into(process, parent_vka, cap, rights)`. -/
def processCopyCapInto (cfg : ProcessConfig) (process : Process) (cap : CPtr) : Res (CPtr × Process) := do
  let next := process.native.cspaceNextFree
  let mintedCap := if next.toNat < 2 ^ cfg.cspaceSizeBits.toNat then next else 0
  check (mintedCap ≠ 0) "minted_cap != 0"
  pure (mintedCap, { process with native := { process.native with
    cspace := Function.update process.native.cspace mintedCap (some (cap, process.env.pid)), cspaceNextFree := next + 1 } })

/-- What the loop over the user untypeds works on. -/
structure UntypedLoop where
  process : Process
  /-- `user_untypeds_allocation` -/
  allocation : Nat → UInt8
  untypedSize : Word
  untypedCount : Word
  /-- the indices of the untypeds assigned so far -/
  assigned : List Nat

/-- The loop of `sel4osapi_process_init_env` over the user untypeds, from index `i` on with `n` to go. -/
def untypedLoop (cfg : ProcessConfig) (sizeBits : Nat → UInt8) (userUntypeds : Nat → CPtr) :
    (n i : Nat) → UntypedLoop → Res UntypedLoop
  | 0, _, v => .ok v
  | n + 1, i, v =>
    if v.untypedSize < cfg.untypedMemSize then
      if v.allocation i ≠ 0 then untypedLoop cfg sizeBits userUntypeds n (i + 1) v
      else do
        let (procUtCap, process) ← processCopyCapInto cfg v.process (userUntypeds i)
        let env := { process.env with
          untypedsStart := if v.untypedCount = 0 then procUtCap else process.env.untypedsStart
          untypedsEnd := procUtCap
          untypedSizeBitsList := Function.update process.env.untypedSizeBitsList v.untypedCount.toNat (sizeBits i)
          untypedIndices := Function.update process.env.untypedIndices v.untypedCount.toNat (UInt8.ofNat i) }
        untypedLoop cfg sizeBits userUntypeds n (i + 1) {
          process := { process with env := env }
          allocation := Function.update v.allocation i process.env.pid.toUInt8
          untypedSize := v.untypedSize + 1 <<< (sizeBits i).toUInt32
          untypedCount := v.untypedCount + 1
          assigned := v.assigned ++ [i] }
    else .ok v

/-- The copy of the endpoint of a server that may not be configured, and the assertion on it. -/
def copyServerEp (cfg : ProcessConfig) (process : Process) (text : String) : Option CPtr → Res (CPtr × Process)
  | none => pure (0, process)
  | some ep => do
    let (cap, process) ← processCopyCapInto cfg process ep
    check (cap ≠ 0) text
    pure (cap, process)

/-- `sel4osapi_process_init_env(process, pid, …)`; `aep` is the notification that `vka_alloc_notification` makes. Returns
the process, `user_untypeds_allocation`, and which untypeds were assigned. -/
def processInitEnv (cfg : ProcessConfig) (process : Process) (pid : Word) (priority : UInt8) (userUntypedsNum : UInt8)
    (allocation : Nat → UInt8) (sizeBits : Nat → UInt8) (userUntypeds : Nat → CPtr) (aep : CPtr) :
    Res (Process × (Nat → UInt8) × List Nat) := do
  let process := { process with env := { process.env with pid := pid, priority := priority } }
  let (pageDirectory, process) ← processCopyCapInto cfg process process.native.pd
  let (tcb, process) ← processCopyCapInto cfg process process.native.tcb
  let process := { process with env := { process.env with pageDirectory := pageDirectory, tcb := tcb } }
  let v ← untypedLoop cfg sizeBits userUntypeds userUntypedsNum.toNat 0
    { process := process, allocation := allocation, untypedSize := 0, untypedCount := 0, assigned := [] }
  let env := v.process.env
  check (env.untypedsEnd - env.untypedsStart + 1 ≤ userUntypedsNum.toUInt32)
    "(process->env->untypeds.end - process->env->untypeds.start) + 1 <= user_untypeds_num"
  let (sysclockServerEp, process) ← copyServerEp cfg v.process "process->env->sysclock_server_ep != 0" cfg.sysclockEp
  let (idlingAep, process) ← processCopyCapInto cfg process aep
  check (idlingAep ≠ 0) "process->env->idling_aep != 0"
  let (stackOpEp, process) ← copyServerEp cfg process "process->env->udp_iface.stack_op_ep != seL4_CapNull" cfg.udpStackEp
  let (serialServerEp, process) ←
    copyServerEp cfg process "process->env->serial.server_ep != seL4_CapNull" cfg.serialServerEp
  let (faultEndpoint, process) ← processCopyCapInto cfg process process.native.faultEndpoint
  check (faultEndpoint ≠ 0) "process->env->fault_endpoint != 0"
  let freeSlotsEnd : CPtr := 1 <<< cfg.cspaceSizeBits
  check (faultEndpoint + 1 < freeSlotsEnd) "process->env->free_slots.start < process->env->free_slots.end"
  let env := { process.env with
    sysclockServerEp := sysclockServerEp, idlingAep := idlingAep, stackOpEp := stackOpEp, serialServerEp := serialServerEp
    faultEndpoint := faultEndpoint, cspaceSizeBits := cfg.cspaceSizeBits, freeSlotsStart := faultEndpoint + 1
    freeSlotsEnd := freeSlotsEnd }
  pure ({ process with env := env, parentIdlingAep := aep }, v.allocation, v.assigned)

/-- `sel4osapi_system_t`, as far as processes go, and what has happened so far. -/
structure ProcessSystem where
  processes : Pool (Ptr → Process)
  userUntypeds : Nat → CPtr
  userUntypedsAllocation : Nat → UInt8
  userUntypedsSizeBits : Nat → UInt8
  userUntypedsNum : UInt8
  /-- the processes that were created, and those that were deleted -/
  created : List Ptr
  deleted : List Ptr
  /-- the untypeds that `sel4osapi_process_init_env` gave to each process -/
  given : Ptr → List Nat
  /-- the capabilities of the root task that were revoked -/
  revoked : List CPtr

/-- What can happen. -/
inductive ProcessAction where
  /-- `sel4osapi_process_create`; what `sel4utils_configure_process_custom` makes, and the notification -/
  | create (priority : UInt8) (native : NativeProcess) (aep : CPtr)
  /-- `sel4osapi_process_delete`, of a process that was created and not deleted -/
  | delete (process : Ptr)

namespace ProcessSystem

/-- `sel4osapi_process_create(process_name, priority)`: nothing comes of it when the pool has no entry. -/
def processCreate (cfg : ProcessConfig) (s : ProcessSystem) (priority : UInt8) (native : NativeProcess) (aep : CPtr) :
    Res ProcessSystem := do
  let (process, processes) ← simplePoolAlloc s.processes
  match process with
  | none => pure { s with processes := processes }
  | some p =>
    let pid := simplePoolGetCurrentSize processes
    let (process, allocation, assigned) ← processInitEnv cfg { native := native, env := .zero, parentIdlingAep := 0 }
      (UInt32.ofInt pid) priority s.userUntypedsNum s.userUntypedsAllocation s.userUntypedsSizeBits s.userUntypeds aep
    pure { s with
      processes := { processes with mem := Function.update processes.mem p process }
      userUntypedsAllocation := allocation, created := s.created ++ [p], given := Function.update s.given p assigned }

/-- How many untypeds `sel4osapi_process_delete` takes a process to have: an `int`. -/
def assignedUntypeds (env : ProcessEnv) : Nat :=
  let n := env.untypedsEnd - env.untypedsStart + 1
  if n.toNat < 2 ^ 31 then n.toNat else 0

/-- The loop of `sel4osapi_process_delete`, from `i` on with `n` to go. -/
def deleteLoop (env : ProcessEnv) : (n i : Nat) → (allocation : Nat → UInt8) → (revoked : List CPtr) →
    (Nat → UInt8) × List CPtr
  | 0, _, allocation, revoked => (allocation, revoked)
  | n + 1, i, allocation, revoked =>
    deleteLoop env n (i + 1) (Function.update allocation (env.untypedIndices i).toNat 0)
      (revoked ++ [env.untypedsStart + UInt32.ofNat i])

/-- `sel4osapi_process_delete(process)`. -/
def processDelete (s : ProcessSystem) (process : Ptr) : ProcessSystem :=
  let env := (s.processes.mem process).env
  let (allocation, revoked) := deleteLoop env (assignedUntypeds env) 0 s.userUntypedsAllocation s.revoked
  { s with userUntypedsAllocation := allocation, revoked := revoked, deleted := s.deleted ++ [process] }

/-- The process exists. -/
def Live (s : ProcessSystem) (process : Ptr) : Prop := process ∈ s.created ∧ process ∉ s.deleted

instance (s : ProcessSystem) (process : Ptr) : Decidable (s.Live process) := inferInstanceAs (Decidable (_ ∧ _))

/-- One step of the root task. -/
def step (cfg : ProcessConfig) (s : ProcessSystem) : ProcessAction → Outcome Fault ProcessSystem
  | .create priority native aep => .ofExcept (s.processCreate cfg priority native aep)
  | .delete process => .guard (s.Live process) (.next (s.processDelete process))

/-- After `sel4osapi_system_initialize`: a new pool, and every user untyped free. -/
structure Init (cfg : ProcessConfig) (s : ProcessSystem) : Prop where
  processes : ∃ (malloc : Nat → Ptr) (nodes : NodeStore) (mem : Ptr → Process) (elSize : Nat), Function.Injective malloc ∧
    simplePoolNew malloc nodes mem cfg.processMax elSize none none = .ok s.processes
  num : s.userUntypedsNum > 0
  allocation : ∀ i < s.userUntypedsNum.toNat, s.userUntypedsAllocation i = 0
  created : s.created = []
  deleted : s.deleted = []

end ProcessSystem

/-- The creation and the deletion of processes as a transition system. -/
def processMachine (cfg : ProcessConfig) : Machine Fault ProcessSystem ProcessAction where
  init := ProcessSystem.Init cfg
  step := ProcessSystem.step cfg

end Sel4Osapi
