import Sel4Osapi.Process
import Sel4Osapi.Thread
import Sel4Osapi.Serial
import Sel4Osapi.Udp.Stack

/-!
# The system: processes with their threads, their clients and their sockets

The root task keeps the processes, the serial clients, the IPC clients and the socket servers in four pools, and each task
keeps its threads, and a process its sockets, in pools of its own. What gets an id gets the number of entries that its pool
has then.

An operation is one step. That of a process on its own pools is one because the mutex of `udp_iface` is held during
`sel4osapi_udp_create_socket`, and pools have no lock of their own. The requests to the serial server and to the UDP stack
that create nothing are steps too.
-/

namespace Sel4Osapi

open Transition

/-- The configuration of the library. The serial and the UDP server are there if they have an endpoint. -/
structure SystemConfig where
  process : ProcessConfig
  udp : UdpStackConfig
  thread : ThreadConfig

/-- The system object of a process, after `sel4osapi_system_initialize_process`. -/
structure UserTask where
  task : Task
  /-- `env->ipcclient.id` -/
  ipcClientId : Int
  /-- `env->udp_iface.sockets` -/
  sockets : Pool (Ptr → UdpSocket)

/-- A socket that was created: by which process, and what it is there and in the server. -/
structure SocketRecord where
  process : Ptr
  socket : Ptr
  server : Ptr
  deriving DecidableEq, Repr

/-- The system. -/
structure System where
  process : ProcessSystem
  serial : SerialSystem
  udp : UdpStack
  /-- `process->serialclient` and `process->ipcclient` -/
  serialClient : Ptr → Option Ptr
  ipcClient : Ptr → Option Ptr
  rootTask : Task
  /-- the tasks of the processes that have started -/
  tasks : Ptr → Option UserTask
  /-- the sockets created so far -/
  sockets : List SocketRecord

/-- What can happen. -/
inductive SystemAction where
  /-- `sel4osapi_process_create`; `page` is what is in the pages of the serial client -/
  | processCreate (priority : UInt8) (native : NativeProcess) (aep : CPtr) (page : Nat → UInt8)
  /-- `sel4osapi_process_delete`, of a process that was created and not deleted -/
  | processDelete (process : Ptr)
  /-- `sel4osapi_system_initialize_process`, in a process -/
  | initializeProcess (process : Ptr) (b : PoolBlocks Thread) (b' : PoolBlocks UdpSocket) (waitAep : CPtr) (ipc : Ptr)
  /-- `sel4osapi_thread_create` or `sel4osapi_thread_delete`, in the root task or in a process -/
  | rootThread (act : ThreadAction)
  | userThread (process : Ptr) (act : ThreadAction)
  /-- `sel4osapi_udp_create_socket`, in a process: the slot for the endpoint, a message register, and what the server is
  answered -/
  | createSocket (process : Ptr) (addr : Word) (epTxReady : CPtr) (mr3 : Word) (a : UdpAnswers)
  /-- anything else that the serial server and its clients do -/
  | serial (act : SerialAction)
  /-- anything else that the UDP stack and the network stack do -/
  | udp (act : UdpStackAction)

/-- `sel4osapi_udp_sd_to_socket(sd)`: the variable is reset after every socket that does not match. -/
def udpSdToSocket (sockets : Pool (Ptr → UdpSocket)) (sd : Int) : Res Ptr := do
  check (sd > 0) "sd > 0"
  let els ← sockets.elements
  checkSome (lookupLoop (fun el => (sockets.mem el).id = sd) els none) "socket"

/-- The id in the reply to a `UDPSTACK_CREATE_SOCKET`, after the assertions on it. -/
def socketIdOfReply (reply : UdpReply) : Res Int := do
  check (reply.mrs.length = 2) "seL4_MessageInfo_get_length(minfo) == 2"
  check reply.cap.isSome "seL4_MessageInfo_get_extraCaps(minfo) == 1"
  check (intOfWord (reply.mrs.getD 0 0) = 0) "error == 0"
  pure (intOfWord (reply.mrs.getD 1 0))

namespace System

/-- The serial client of a new process, if the serial server is configured. -/
def createSerialClient (cfg : SystemConfig) (s : System) (page : Nat → UInt8) : Res SerialSystem :=
  if cfg.process.serialServerEp.isSome then s.serial.createClient page else .ok s.serial

/-- `sel4osapi_process_create(process_name, priority)`: nothing comes of it when the pool has no entry. A client that was
just created is the last one of its pool. -/
def processCreate (cfg : SystemConfig) (s : System) (priority : UInt8) (native : NativeProcess) (aep : CPtr) (page : Nat → UInt8) :
    Res System := do
  let (process, processes) ← simplePoolAlloc s.process.processes
  match process with
  | none => pure { s with process := { s.process with processes := processes } }
  | some p =>
    let pid := simplePoolGetCurrentSize processes
    let serial ← s.createSerialClient cfg page
    let clients ← ipcCreateClient s.udp.clients pid
    let (process, allocation, assigned) ← processInitEnv cfg.process { native := native, env := .zero, parentIdlingAep := 0 }
      (UInt32.ofInt pid) priority s.process.userUntypedsNum s.process.userUntypedsAllocation s.process.userUntypedsSizeBits
      s.process.userUntypeds aep
    pure { s with
      process := { s.process with
        processes := { processes with mem := Function.update processes.mem p process }
        userUntypedsAllocation := allocation, created := s.process.created ++ [p]
        given := Function.update s.process.given p assigned }
      serial := serial
      udp := { s.udp with clients := clients }
      serialClient := Function.update s.serialClient p serial.clients.contents.getLast?
      ipcClient := Function.update s.ipcClient p clients.contents.getLast? }

/-- `sel4osapi_system_initialize_process`, as far as threads and sockets go. -/
def initializeProcess (cfg : SystemConfig) (s : System) (p : Ptr) (b : PoolBlocks Thread) (b' : PoolBlocks UdpSocket) (waitAep : CPtr)
    (ipc : Ptr) : Res System := do
  let env := (s.process.processes.mem p).env
  let threads ← simplePoolNewPlain b cfg.thread.maxThreads
  let sockets ← simplePoolNewPlain b' cfg.udp.udpMaxSockets
  let ipcClient ← checkSome (s.ipcClient p) "process->ipcclient != NULL"
  let task := {
    pid := env.pid, priority := env.priority, faultEndpoint := env.faultEndpoint, isRootTask := false
    mainThread := Task.initializeMainThread env.priority waitAep ipc, threads := threads, created := [], deleted := [] }
  pure { s with tasks := Function.update s.tasks p (some {
    task := task, ipcClientId := (s.udp.clients.mem ipcClient).id, sockets := sockets }) }

/-- `sel4osapi_udp_create_socket(addr)` in process `p`, with the request to the server and its reply. -/
def createSocket (s : System) (p : Ptr) (t : UserTask) (addr : Word) (epTxReady : CPtr) (mr3 : Word) (a : UdpAnswers) : Res System := do
  let (socket, sockets) ← simplePoolAlloc t.sockets
  let socket ← checkSome socket "socket"
  check (epTxReady ≠ capNull) "socket->ep_tx_ready != seL4_CapNull"
  let udp ← s.udp.serve { mr0 := 300, mr1 := UInt32.ofInt t.ipcClientId, mr2 := addr, mr3 := mr3, argsNum := 3, cap := none } a
  let reply ← checkSome udp.replies.getLast? "seL4_Call"
  let server ← checkSome reply.socketServer "seL4_Call"
  let id ← socketIdOfReply reply
  let value := { id := id, addr := addr, port := 0, epTxReady := epTxReady, epRxReady := capNull, aepRxData := capNull }
  let t := { t with sockets := { sockets with mem := Function.update sockets.mem socket value } }
  pure { s with
    udp := udp, tasks := Function.update s.tasks p (some t)
    sockets := s.sockets ++ [{ process := p, socket := socket, server := server }] }

/-- One step of the system. -/
def step (cfg : SystemConfig) (s : System) : SystemAction → Outcome Fault System
  | .processCreate priority native aep page => .ofExcept (s.processCreate cfg priority native aep page)
  | .processDelete p => .guard (s.process.Live p) (.next { s with process := s.process.processDelete p })
  | .initializeProcess p b b' waitAep ipc =>
    .guard (s.process.Live p ∧ (s.tasks p).isNone) (.ofExcept (s.initializeProcess cfg p b b' waitAep ipc))
  | .rootThread act => (s.rootTask.step act).map fun task => { s with rootTask := task }
  | .userThread p act =>
    match s.tasks p with
    | none => .blocked
    | some t => .guard (s.process.Live p)
      ((t.task.step act).map fun task => { s with tasks := Function.update s.tasks p (some { t with task := task }) })
  | .createSocket p addr epTxReady mr3 a =>
    match s.tasks p with
    | none => .blocked
    | some t => .guard (s.process.Live p ∧ s.udp.thread.pc = .recv) (.ofExcept (s.createSocket p t addr epTxReady mr3 a))
  -- clients are created with their process
  | .serial (.createClient _) => .blocked
  | .serial act => (s.serial.step act).map fun serial => { s with serial := serial }
  | .udp (.createClient _) => .blocked
  | .udp act => (s.udp.step cfg.udp act).map fun udp => { s with udp := udp }

/-- After `sel4osapi_system_initialize` and `sel4osapi_system_initialize_network`. -/
structure Init (cfg : SystemConfig) (s : System) : Prop where
  process : s.process.Init cfg.process
  serial : s.serial.Init cfg.process.processMax
  udp : s.udp.Init cfg.udp
  rootTask : s.rootTask.Init cfg.thread
  tasks : ∀ p, s.tasks p = none
  sockets : s.sockets = []

end System

/-- The system as a transition system. -/
def systemMachine (cfg : SystemConfig) : Machine Fault System SystemAction where
  init := System.Init cfg
  step := System.step cfg

end Sel4Osapi
