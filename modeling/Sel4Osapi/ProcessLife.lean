import Sel4Osapi.Spawn
import Sel4Osapi.Log
import Sel4Osapi.Lib.Decimal
import Sel4Osapi.Lib.Endpoint

/-!
# process.c, system.c: the life of a process, from its spawning to its join

`sel4osapi_process_spawn` starts the main thread of a process with the slot of the fault endpoint among its arguments, maps
the environment into the process and sends the address to that endpoint. `sel4osapi_system_initialize_process` waits there for
it. The process ends with `sel4osapi_process_signal_root` or by a fault, which the kernel sends to the same endpoint, and
`sel4osapi_process_join` receives from it.

The endpoints are named by their slots in the CSpace of the root task; the process has a copy of the capability. Which threads
of a process signal or fault, in what order and how often, is free once it is initialised. A thread of the root task may join a
process at any time, also before it is spawned; it spawns a process once, and deletes it only when no thread is in its spawning.
-/

namespace Sel4Osapi

open Transition Rendezvous

/-! ## The arguments of a process -/

/-- `isspace`. -/
def isSpace (b : UInt8) : Bool := b = 32 || (9 ≤ b && b ≤ 13)

/-- `atoi(s)`, of a number that fits an `int`. -/
def atoi (s : List UInt8) : Int :=
  match s.dropWhile isSpace with
  | 45 :: s => -(Decimal.value s : Int)
  | 43 :: s => Decimal.value s
  | s => Decimal.value s

/-- The string in a new buffer of 10 characters after `snprintf(buffer, 10, "%d", w)`. -/
def argString (w : Word) : List UInt8 :=
  let b := (TextBuffer.ofMem fun _ => 0).snprintf 0 10 (formatInt 0 (intOfWord w))
  (List.range b.stored).map b.mem

/-! ## Processes at their fault endpoints -/

/-- A message at a fault endpoint: its label, its length and its first message register. -/
structure FaultMessage where
  label : Word
  length : Nat
  mr0 : Nat
  deriving DecidableEq, Repr

/-- `seL4_Fault_NullFault`. -/
def nullFault : Word := 0

/-- Who sends to a fault endpoint: `sel4osapi_process_spawn`, or the process with its threads. -/
inductive FaultSender where
  | spawn
  | process
  deriving DecidableEq, Repr

/-- Who receives from it: `sel4osapi_system_initialize_process`, or a thread of the root task in `sel4osapi_process_join`. -/
inductive FaultReceiver where
  | init
  | join (joiner : Nat)
  deriving DecidableEq, Repr

/-- Where the main thread of a process is. -/
inductive MainPc where
  /-- not started -/
  | created
  /-- before the `seL4_Recv` of `sel4osapi_system_initialize_process`, in it, and after it -/
  | started
  | receiving
  | received (m : FaultMessage)
  /-- the process runs, with its environment there -/
  | initialised (env : Ptr)
  /-- it faulted before it was initialised -/
  | faulted
  deriving DecidableEq, Repr

/-- The process runs. -/
def MainPc.isInitialised : MainPc → Bool
  | .initialised _ => true
  | _ => false

/-- A thread can fault: the main thread, when it does not wait, or any thread of a process that runs. -/
def MainPc.canFault : MainPc → Bool
  | .started | .received _ | .initialised _ => true
  | _ => false

/-- A fault stops the main thread, if the process does not run yet. -/
def MainPc.afterFault : MainPc → MainPc
  | .initialised env => .initialised env
  | _ => .faulted

/-- What happens to a process at its fault endpoint. -/
inductive ProcessEvent where
  /-- `sel4osapi_process_spawn` sends the address -/
  | spawned (vaddr : Ptr)
  /-- `sel4osapi_system_initialize_process` receives -/
  | asks
  /-- `sel4osapi_process_signal_root` sends -/
  | signalled (exitCode : Int)
  /-- the kernel sends the fault of a thread -/
  | faulted (m : FaultMessage)
  /-- `sel4osapi_process_join` receives -/
  | joins (joiner : Nat)
  /-- a message arrives -/
  | met (receiver : FaultReceiver) (m : FaultMessage)
  deriving DecidableEq, Repr

/-- The processes of the root task at their fault endpoints, and what has happened so far. -/
structure ProcessLives where
  spawn : SpawnSystem
  endpoints : CPtr → Option (Endpoint (FaultSender × FaultMessage) FaultReceiver)
  main : Ptr → MainPc
  /-- a thread of the root task is in the `seL4_Send` of `sel4osapi_process_spawn` -/
  spawning : Ptr → Bool
  /-- the process that a thread of the root task waits for in `sel4osapi_process_join` -/
  joining : Nat → Option Ptr
  history : List (Ptr × ProcessEvent)

/-- What can happen. -/
inductive ProcessLifeAction where
  /-- `sel4osapi_process_create` -/
  | create (priority : UInt8) (page : NewPage) (native : NativeProcess) (vspace : VSpace) (aep : CPtr)
  /-- `sel4utils_spawn_process_v` in `sel4osapi_process_spawn` -/
  | start (process : Ptr)
  /-- the rest of `sel4osapi_process_spawn`, up to the answer to its `seL4_Send` -/
  | spawn (process : Ptr) (slot : Option CPtr) (vaddr : Option Ptr)
  /-- the main thread calls `seL4_Recv` in `sel4osapi_system_initialize_process` -/
  | ask (process : Ptr)
  /-- the main thread goes on with the message -/
  | initialise (process : Ptr)
  /-- a thread of the process calls `sel4osapi_process_signal_root` -/
  | signalRoot (process : Ptr) (exitCode : Int)
  /-- a thread of the process faults -/
  | fault (process : Ptr) (m : FaultMessage)
  /-- a thread of the root task calls `sel4osapi_process_join` -/
  | join (joiner : Nat) (process : Ptr)
  /-- `sel4osapi_process_delete` -/
  | delete (process : Ptr)

namespace ProcessLives

/-- `process->native.fault_endpoint.cptr`. -/
def faultEndpoint (s : ProcessLives) (process : Ptr) : CPtr := (s.spawn.system.processes.mem process).native.faultEndpoint

/-- `process->env`. -/
def env (s : ProcessLives) (process : Ptr) : ProcessEnv := (s.spawn.system.processes.mem process).env

/-- The slot of the root task whose capability was copied to a slot of the process. -/
def capOf (s : ProcessLives) (process : Ptr) (slot : CPtr) : Option CPtr :=
  ((s.spawn.system.processes.mem process).native.cspace slot).map Prod.fst

/-- What has happened to a process goes on. -/
def record (s : ProcessLives) (process : Ptr) (event : ProcessEvent) : ProcessLives :=
  { s with history := s.history ++ [(process, event)] }

/-- A message arrives: the sender and the receiver go on. -/
def deliver (s : ProcessLives) (process : Ptr) (sender : FaultSender) (m : FaultMessage) (receiver : FaultReceiver) : ProcessLives :=
  let s := match sender with
    | .spawn => { s with spawning := Function.update s.spawning process false }
    | .process => s
  let s := match receiver with
    | .init => { s with main := Function.update s.main process (.received m) }
    | .join joiner => { s with joining := Function.update s.joining joiner none }
  s.record process (.met receiver m)

/-- A message is sent to the endpoint with capability `ep`. -/
def send (s : ProcessLives) (process : Ptr) (ep : CPtr) (e : Endpoint (FaultSender × FaultMessage) FaultReceiver)
    (sender : FaultSender) (m : FaultMessage) (event : ProcessEvent) : ProcessLives :=
  let (receiver, e) := e.send (sender, m)
  let s := { s with endpoints := Function.update s.endpoints ep (some e) }.record process event
  match receiver with
  | none => s
  | some receiver => s.deliver process sender m receiver

/-- A thread receives from the endpoint with capability `ep`. -/
def recv (s : ProcessLives) (process : Ptr) (ep : CPtr) (e : Endpoint (FaultSender × FaultMessage) FaultReceiver)
    (receiver : FaultReceiver) (event : ProcessEvent) : ProcessLives :=
  let (message, e) := e.recv receiver
  let s := { s with endpoints := Function.update s.endpoints ep (some e) }.record process event
  match message with
  | none => s
  | some (sender, m) => s.deliver process sender m receiver

/-- `sel4osapi_process_create(process_name, priority)`, with the fault endpoint that comes with a new process. -/
def processCreate (cfg : ProcessConfig) (s : ProcessLives) (priority : UInt8) (page : NewPage) (native : NativeProcess)
    (vspace : VSpace) (aep : CPtr) : Res ProcessLives := do
  let spawn ← s.spawn.processCreate cfg priority page native vspace aep
  match spawn.system.created[s.spawn.system.created.length]? with
  | none => pure { s with spawn := spawn }
  | some p =>
    pure { s with
      spawn := spawn
      endpoints := Function.update s.endpoints native.faultEndpoint (some .empty)
      main := Function.update s.main p .created
      spawning := Function.update s.spawning p false }

/-- The rest of `sel4osapi_process_spawn(process)`: the page is mapped, and the address is sent. -/
def processSpawn (s : ProcessLives) (process : Ptr) (slot : Option CPtr) (vaddr : Option Ptr)
    (e : Endpoint (FaultSender × FaultMessage) FaultReceiver) : Res ProcessLives := do
  let spawn ← s.spawn.processSpawn process slot vaddr
  let vaddr ← checkSome (spawn.sent process) "vaddr != 0"
  pure ({ s with spawn := spawn, spawning := Function.update s.spawning process true }.send process (s.faultEndpoint process) e .spawn
    ⟨nullFault, 1, vaddr⟩ (.spawned vaddr))

/-- `sel4osapi_system_initialize_process(bootstrap_mem_pool, argc, argv)` up to the `seL4_Recv`: its argument. -/
def initEndpoint (s : ProcessLives) (process : Ptr) : CPtr := UInt32.ofInt (atoi (argString (s.env process).faultEndpoint))

/-- The main thread goes on behind the `seL4_Recv`. -/
def initialiseProcess (s : ProcessLives) (process : Ptr) (m : FaultMessage) : Res ProcessLives := do
  check (m.label = nullFault) "seL4_MessageInfo_get_label(info) == seL4_Fault_NullFault"
  check (m.length = 1) "seL4_MessageInfo_get_length(info) == 1"
  check (m.mr0 ≠ 0) "env != 0"
  pure { s with main := Function.update s.main process (.initialised m.mr0) }

/-- `sel4osapi_process_spawn` has returned. -/
def Spawned (s : ProcessLives) (process : Ptr) : Prop := (s.spawn.sent process).isSome ∧ s.spawning process = false

/-- A process is created: the page and the fault endpoint are new. -/
def Fresh (s : ProcessLives) (page : NewPage) (native : NativeProcess) : Prop :=
  s.spawn.vspace (pageOf page.vaddr) = none ∧ s.spawn.cspace page.cap = none ∧ (s.endpoints native.faultEndpoint).isNone

instance (s : ProcessLives) (page : NewPage) (native : NativeProcess) : Decidable (s.Fresh page native) :=
  inferInstanceAs (Decidable (_ ∧ _ ∧ _))

/-- An action at the endpoint with a capability of the root task: there is one. -/
def atEndpoint (s : ProcessLives) (ep : Option CPtr)
    (f : CPtr → Endpoint (FaultSender × FaultMessage) FaultReceiver → Outcome Fault ProcessLives) : Outcome Fault ProcessLives :=
  match ep with
  | none => .blocked
  | some ep =>
    match s.endpoints ep with
    | none => .blocked
    | some e => f ep e

/-- One step of the root task, or of a process. -/
def step (cfg : ProcessConfig) (s : ProcessLives) : ProcessLifeAction → Outcome Fault ProcessLives
  | .create priority page native vspace aep =>
    .guard (s.Fresh page native) (.ofExcept (s.processCreate cfg priority page native vspace aep))
  | .start p =>
    .guard (s.spawn.Spawnable p ∧ s.main p = .created) (.next { s with main := Function.update s.main p .started })
  | .spawn p slot vaddr =>
    s.atEndpoint (some (s.faultEndpoint p)) fun _ e =>
      .guard (s.spawn.Spawnable p ∧ s.main p ≠ .created) (.ofExcept (s.processSpawn p slot vaddr e))
  | .ask p =>
    s.atEndpoint (s.capOf p (s.initEndpoint p)) fun ep e =>
      .guard (s.spawn.system.Live p ∧ s.main p = .started)
        (.next ({ s with main := Function.update s.main p .receiving }.recv p ep e .init .asks))
  | .initialise p =>
    match s.main p with
    | .received m => .guard (s.spawn.system.Live p) (.ofExcept (s.initialiseProcess p m))
    | _ => .blocked
  | .signalRoot p exitCode =>
    s.atEndpoint (s.capOf p (s.env p).faultEndpoint) fun ep e =>
      .guard (s.spawn.system.Live p ∧ (s.main p).isInitialised)
        (.next (s.send p ep e .process ⟨nullFault, 1, (UInt32.ofInt exitCode).toNat⟩ (.signalled exitCode)))
  | .fault p m =>
    s.atEndpoint (some (s.faultEndpoint p)) fun ep e =>
      .guard (s.spawn.system.Live p ∧ m.label ≠ nullFault ∧ (s.main p).canFault)
        (.next ({ s with main := Function.update s.main p (s.main p).afterFault }.send p ep e .process m (.faulted m)))
  | .join joiner p =>
    s.atEndpoint (some (s.faultEndpoint p)) fun ep e =>
      .guard (s.spawn.system.Live p ∧ s.joining joiner = none)
        (.next ({ s with joining := Function.update s.joining joiner (some p) }.recv p ep e (.join joiner) (.joins joiner)))
  | .delete p =>
    .guard (s.spawn.system.Live p ∧ s.spawning p = false)
      (.next { s with spawn := s.spawn.processDelete p, endpoints := Function.update s.endpoints (s.faultEndpoint p) none })

/-- After `sel4osapi_system_initialize`. -/
structure Init (cfg : ProcessConfig) (s : ProcessLives) : Prop where
  spawn : s.spawn.Init cfg
  joining : ∀ joiner, s.joining joiner = none
  history : s.history = []

end ProcessLives

/-- The life of processes as a transition system. -/
def processLifeMachine (cfg : ProcessConfig) : Machine Fault ProcessLives ProcessLifeAction where
  init := ProcessLives.Init cfg
  step := ProcessLives.step cfg

end Sel4Osapi
