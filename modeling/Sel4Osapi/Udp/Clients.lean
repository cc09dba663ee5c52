import Sel4Osapi.Udp.Stack

/-!
# udp.c: the sockets of the processes

A process keeps a pool of its sockets, each with its id and its capabilities. `sel4osapi_udp_create_socket` and
`sel4osapi_udp_bind` call the server of the UDP stack and take from its reply what the server keeps the other side of: the
endpoints at which the tx and the rx thread of the socket are called. The notification at which a datagram is announced is
made by the process, and a copy of it goes with the call.

A CSpace is a map from slots to what is in them, and the slots that `vka` returns are part of the action. A call and its reply
are one step: the server carries out one request at a time. The sockets of a process are created under its mutex, and one
thread at a time binds a socket.
-/

namespace Sel4Osapi

open Transition

/-- What a process has of the UDP stack: the id of its IPC client, its sockets, and its CSpace. -/
structure UdpUser where
  clientId : Int
  sockets : Pool (Ptr → UdpSocket)
  cspace : CPtr → Option UdpCap

namespace UdpUser

/-- `sel4osapi_udp_create_socket(addr)`, up to its call: the socket, and the message. -/
def createSocket (v : UdpUser) (addr : Word) (epTxReady : CPtr) : Res (Ptr × UdpUser × UdpRequest) := do
  let (socket, sockets) ← simplePoolAlloc v.sockets
  let socket ← checkSome socket "socket"
  let record := { sockets.mem socket with
    addr := addr, port := 0, epRxReady := capNull, aepRxData := capNull, epTxReady := epTxReady }
  check (epTxReady ≠ capNull) "socket->ep_tx_ready != seL4_CapNull"
  pure (socket, { v with sockets := { sockets with mem := Function.update sockets.mem socket record } },
    { mr0 := 300, mr1 := UInt32.ofInt v.clientId, mr2 := addr, mr3 := 0, argsNum := 3, cap := none })

/-- The reply arrives: its capability goes to the receive slot, if that is empty. -/
def receive (v : UdpUser) (slot : CPtr) (cap : Option UdpCap) : Res UdpUser := do
  check (cap.isSome ∧ v.cspace slot = none) "seL4_MessageInfo_get_extraCaps(minfo) == 1"
  pure { v with cspace := Function.update v.cspace slot cap }

/-- `sel4osapi_udp_create_socket(addr)`, after its call. -/
def socketCreated (v : UdpUser) (socket : Ptr) (mrs : List Word) (cap : Option UdpCap) : Res UdpUser :=
  match mrs with
  | [mr0, mr1] => do
    let v ← v.receive (v.sockets.mem socket).epTxReady cap
    let record := { v.sockets.mem socket with id := intOfWord mr1 }
    check (intOfWord mr0 = 0) "error == 0"
    pure { v with sockets := { v.sockets with mem := Function.update v.sockets.mem socket record } }
  | _ => .error (.assert "seL4_MessageInfo_get_length(minfo) == 2")

/-- `sel4osapi_udp_bind(socket, port)`, up to its call: `n` is the notification that it makes. -/
def bind (v : UdpUser) (socket : Ptr) (port : UInt16) (n : Nat) (aepRxData rxReadEpCopy epRxReady : CPtr) :
    Res (UdpUser × UdpRequest) := do
  let record := v.sockets.mem socket
  check (port > 0) "port > 0"
  check (record.port = 0) "socket->port == 0"
  check (aepRxData ≠ capNull) "socket->aep_rx_data != seL4_CapNull"
  let cspace := Function.update v.cspace aepRxData (some (.received n))
  check (rxReadEpCopy ≠ capNull) "rx_read_ep_copy != seL4_CapNull"
  let cspace ← cnodeCopy cspace rxReadEpCopy aepRxData
  check (epRxReady ≠ capNull) "socket->ep_rx_ready != seL4_CapNull"
  let record := { record with aepRxData := aepRxData, epRxReady := epRxReady }
  let cap := (cspace rxReadEpCopy).bind fun cap => match cap with
    | .received n => some n
    | .endpoint _ => none
  pure ({ v with cspace := cspace, sockets := { v.sockets with mem := Function.update v.sockets.mem socket record } },
    { mr0 := 301, mr1 := UInt32.ofInt record.id, mr2 := port.toUInt32, mr3 := 0, argsNum := 3, cap := cap })

/-- `sel4osapi_udp_bind(socket, port)`, after its call. -/
def bound (v : UdpUser) (socket : Ptr) (port : UInt16) (mrs : List Word) (cap : Option UdpCap) : Res UdpUser :=
  match mrs with
  | [mr0] => do
    let v ← v.receive (v.sockets.mem socket).epRxReady cap
    check (intOfWord mr0 = 0) "error == 0"
    let record := { v.sockets.mem socket with port := port }
    pure { v with sockets := { v.sockets with mem := Function.update v.sockets.mem socket record } }
  | _ => .error (.assert "seL4_MessageInfo_get_length(minfo) == 1")

/-- `sel4osapi_udp_sd_to_socket(sd)`. -/
def sdToSocket (v : UdpUser) (sd : Int) : Res Ptr := do
  check (sd > 0) "sd > 0"
  let els ← v.sockets.elements
  checkSome (els.find? fun el => (v.sockets.mem el).id = sd) "socket"

end UdpUser

/-- The UDP stack and the processes that use it. -/
structure UdpSystem where
  stack : UdpStack
  users : Nat → UdpUser
  /-- how many processes there are, and how many notifications they have made -/
  created : Nat
  notifications : Nat

/-- What can happen. -/
inductive UdpSystemAction where
  /-- `sel4osapi_ipc_create_client` for a new process, and `simple_pool_new` for its sockets -/
  | createProcess (id : Word) (b : PoolBlocks UdpSocket)
  /-- a process calls `sel4osapi_udp_create_socket`; the slot it gets, and what the server's calls return -/
  | createSocket (u : Nat) (addr : Word) (epTxReady : CPtr) (a : UdpAnswers)
  /-- a process calls `sel4osapi_udp_bind` for one of its sockets -/
  | bind (u : Nat) (socket : Ptr) (port : UInt16) (aepRxData rxReadEpCopy epRxReady : CPtr) (a : UdpAnswers)
  /-- what the server does after its reply -/
  | start (error : Int) (rxReadyEpMint : CPtr)
  | createInterface (irqNum : Int) (b : PoolBlocks NetVface)
  | addVface (iface : Ptr) (addr mask gw : Word)

namespace UdpSystem

/-- The message registers and the capability of the last reply of the server. -/
def reply (stack : UdpStack) : List Word × Option UdpCap :=
  match stack.replies.getLast? with
  | none => ([], none)
  | some reply => (reply.mrs, reply.cap.bind stack.cspace)

/-- A call of the server: it is carried out up to the reply. -/
def call (stack : UdpStack) (r : UdpRequest) (a : UdpAnswers) : Res (UdpStack × List Word × Option UdpCap) := do
  let stack ← stack.serve r a
  pure (stack, reply stack)

/-- A step of the server that is not a request. -/
def stackStep (cfg : UdpStackConfig) (s : UdpSystem) (act : UdpStackAction) : Outcome Fault UdpSystem :=
  (s.stack.step cfg act).map fun stack => { s with stack := stack }

/-- One step of the UDP stack and of the processes that use it. -/
def step (cfg : UdpStackConfig) (s : UdpSystem) : UdpSystemAction → Outcome Fault UdpSystem
  | .createProcess id b => .ofExcept do
    let clients ← ipcCreateClient s.stack.clients (intOfWord id)
    let sockets ← simplePoolNewPlain b cfg.udpMaxSockets
    let v : UdpUser := { clientId := intOfWord id, sockets := sockets, cspace := fun _ => none }
    pure { s with
      stack := { s.stack with clients := clients }, users := Function.update s.users s.created v, created := s.created + 1 }
  | .createSocket u addr epTxReady a => .guard (u < s.created ∧ s.stack.thread.pc = .recv) (.ofExcept do
    let (socket, v, r) ← (s.users u).createSocket addr epTxReady
    let (stack, mrs, cap) ← call s.stack r a
    let v ← v.socketCreated socket mrs cap
    pure { s with stack := stack, users := Function.update s.users u v })
  | .bind u socket port aepRxData rxReadEpCopy epRxReady a =>
    .guard (u < s.created ∧ socket ∈ (s.users u).sockets.contents ∧ s.stack.thread.pc = .recv) (.ofExcept do
      let (v, r) ← (s.users u).bind socket port s.notifications aepRxData rxReadEpCopy epRxReady
      let (stack, mrs, cap) ← call s.stack r a
      let v ← v.bound socket port mrs cap
      pure { s with stack := stack, users := Function.update s.users u v, notifications := s.notifications + 1 })
  | .start error rxReadyEpMint => s.stackStep cfg (.start error rxReadyEpMint)
  | .createInterface irqNum b => s.stackStep cfg (.createInterface irqNum b)
  | .addVface iface addr mask gw => s.stackStep cfg (.addVface iface addr mask gw)

/-- No process has been created yet. -/
structure Init (cfg : UdpStackConfig) (s : UdpSystem) : Prop where
  stack : s.stack.Init cfg
  path : s.stack.cspace s.stack.thread.capReceivePath = none
  created : s.created = 0

end UdpSystem

/-- The UDP stack and the processes that use it, as a transition system. -/
def udpSystemMachine (cfg : UdpStackConfig) : Machine Fault UdpSystem UdpSystemAction where
  init := UdpSystem.Init cfg
  step := UdpSystem.step cfg

end Sel4Osapi
