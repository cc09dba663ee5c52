import Sel4Osapi.Pool
import Sel4Osapi.Lib.Transition

/-!
# udp.c: the server of the UDP stack

One thread, `sel4osapi_udp_stack_thread`, creates and binds the sockets of all the processes. A request names the client,
the address or the socket it is about, and the server looks for it in a pool. The variables `client`, `iface` and
`socket_server` that hold what it finds live as long as the thread, and so do `error` and `rx_ready_ep_mint`, the slot that
the next capability is received in.

The words of a request are whatever the caller put there. A request is one step up to its reply, and starting the thread of
the socket after the reply is another: the root task may create processes, with their clients, and interfaces in between.
What `vka`, lwIP and the creation of threads and mutexes answer is part of the action, and so are the blocks that a new pool
gets. An endpoint is named by the slot it was created in. The mutex of the interface, held during `udp_bind`, is left out.
-/

namespace Sel4Osapi

open Transition

/-! ## The clients and the interfaces -/

/-- The configuration of the library. -/
structure UdpStackConfig where
  /-- `SEL4OSAPI_USER_PROCESS_MAX` -/
  processMax : Int
  /-- `SEL4OSAPI_NET_PHYS_IFACES` -/
  netPhysIfaces : Int
  /-- `SEL4OSAPI_NET_VFACES_MAX` -/
  netVfacesMax : Int
  /-- `SEL4OSAPI_UDP_MAX_SOCKETS` -/
  udpMaxSockets : Int
  /-- `SEL4OSAPI_IP_ADDR_DEFAULT`, `SEL4OSAPI_IP_MASK_DEFAULT` and `SEL4OSAPI_IP_GW_DEFAULT`, as `ipaddr_aton` reads them -/
  ipAddrDefault : Word
  ipMaskDefault : Word
  ipGwDefault : Word

/-- `sel4osapi_ipcclient_t`, as far as the server looks at it. -/
structure IpcClient where
  id : Int
  deriving DecidableEq, Repr

/-- `sel4osapi_netvface_t`, as far as it is not lwIP's. -/
structure NetVface where
  ipMask : Word
  ipAddr : Word
  ipGw : Word
  deriving DecidableEq, Repr

/-- `sel4osapi_netiface_t`, as far as the server looks at it. -/
structure NetIface where
  vfaces : Pool (Ptr → NetVface)

/-- `sel4osapi_ipc_create_client(ipc, id)`. -/
def ipcCreateClient (clients : Pool (Ptr → IpcClient)) (id : Int) : Res (Pool (Ptr → IpcClient)) := do
  check (id ≥ 0) "id >= 0"
  let (client, clients) ← simplePoolAlloc clients
  let client ← checkSome client "client != NULL"
  pure { clients with mem := Function.update clients.mem client { id := id } }

/-- `sel4osapi_network_create_interface(net, name, driver)`. -/
def networkCreateInterface (cfg : UdpStackConfig) (ifaces : Pool (Ptr → NetIface)) (irqNum : Int) (b : PoolBlocks NetVface) :
    Res (Ptr × Pool (Ptr → NetIface)) := do
  check (irqNum > 0) "driver->irq_num > 0"
  let (iface, ifaces) ← simplePoolAlloc ifaces
  let iface ← checkSome iface "iface"
  let vfaces ← simplePoolNewPlain b cfg.netVfacesMax
  pure (iface, { ifaces with mem := Function.update ifaces.mem iface { vfaces := vfaces } })

/-- `sel4osapi_netiface_add_vface(iface, addr, mask, gw, is_default)`. -/
def netifaceAddVface (ifaces : Pool (Ptr → NetIface)) (iface : Ptr) (addr mask gw : Word) : Res (Pool (Ptr → NetIface)) := do
  let (vface, vfaces) ← simplePoolAlloc (ifaces.mem iface).vfaces
  let vface ← checkSome vface "vface"
  let vfaces := { vfaces with mem := Function.update vfaces.mem vface { ipMask := mask, ipAddr := addr, ipGw := gw } }
  pure { ifaces with mem := Function.update ifaces.mem iface { vfaces := vfaces } }

/-- `sel4osapi_network_initialize(net, ipc, iface_name, iface_driver)`: one interface, with one virtual interface. -/
def networkInitialize (cfg : UdpStackConfig) (irqNum : Int) (b : PoolBlocks NetIface) (b' : PoolBlocks NetVface) :
    Res (Pool (Ptr → NetIface)) := do
  let ifaces ← simplePoolNewPlain b cfg.netPhysIfaces
  let (iface, ifaces) ← networkCreateInterface cfg ifaces irqNum b'
  netifaceAddVface ifaces iface cfg.ipAddrDefault cfg.ipMaskDefault cfg.ipGwDefault

/-! ## The server -/

/-- `sel4osapi_udpstack_opcode_t`. -/
inductive UdpstackOpcode where
  | createSocket
  | bindSocket
  | connectSocket
  deriving DecidableEq, Repr

/-- The `switch` of the server on `opcode`. -/
def UdpstackOpcode.ofWord (opcode : Word) : Option UdpstackOpcode :=
  if opcode = 300 then some .createSocket else if opcode = 301 then some .bindSocket
  else if opcode = 302 then some .connectSocket else none

/-- `sel4osapi_udp_socket_t`. -/
structure UdpSocket where
  id : Int
  addr : Word
  port : UInt16
  epTxReady : CPtr
  epRxReady : CPtr
  aepRxData : CPtr
  deriving DecidableEq, Repr

/-- `sel4osapi_udp_socket_server_t`. -/
structure UdpSocketServer where
  iface : Ptr
  socket : UdpSocket
  udpPcb : Ptr
  client : Ptr
  txThread : Ptr
  rxThread : Option Ptr
  msgsMutex : Option Ptr
  msgs : Option Ptr
  deriving DecidableEq, Repr

/-- What is in a slot of the CSpace: a capability to an endpoint made for a socket, or one that came with a request. -/
inductive UdpCap where
  | endpoint (slot : CPtr)
  | received (cap : Nat)
  deriving DecidableEq, Repr

/-- A message received on `stack_op_ep`: the first four message registers, the length, and the capability attached to it. -/
structure UdpRequest where
  mr0 : Word
  mr1 : Word
  mr2 : Word
  mr3 : Word
  argsNum : Nat
  cap : Option Nat
  deriving DecidableEq, Repr

/-- What the calls that the server makes in the course of a request return. -/
structure UdpAnswers where
  udpNew : Option Ptr
  epTxReady : CPtr
  txThread : Option Ptr
  txReadyEpMint : CPtr
  msgs : Option Ptr
  msgsMutex : Option Ptr
  rxThread : Option Ptr
  epRxReady : CPtr
  rxReadyEpMint : CPtr
  udpBind : Int
  deriving DecidableEq, Repr

/-- A reply: to which request, the socket server that the request was carried out on, the message registers and the
capability. -/
structure UdpReply where
  request : UdpRequest
  socketServer : Option Ptr
  mrs : List Word
  cap : Option CPtr
  deriving DecidableEq, Repr

/-- Where the server stands. -/
inductive UdpStackPc where
  /-- in `seL4_Recv(stack_op_ep)` -/
  | recv
  /-- after the reply: about to start the tx thread, or the rx thread, of `socket_server` -/
  | startTx
  | startRx
  deriving DecidableEq, Repr

/-- `sel4osapi_udp_stack_thread` with those of its variables that live across requests, and its receive path. -/
structure UdpStackThread where
  pc : UdpStackPc
  socketServer : Option Ptr
  client : Option Ptr
  iface : Option Ptr
  error : Int
  rxReadyEpMint : CPtr
  capReceivePath : CPtr
  deriving DecidableEq, Repr

/-- The UDP stack, the network stack and the IPC server, as far as the server thread goes, its CSpace, and its replies so
far. -/
structure UdpStack where
  clients : Pool (Ptr → IpcClient)
  ifaces : Pool (Ptr → NetIface)
  socketServers : Pool (Ptr → UdpSocketServer)
  thread : UdpStackThread
  cspace : CPtr → Option UdpCap
  replies : List UdpReply

/-- What can happen. -/
inductive UdpStackAction where
  /-- `sel4osapi_ipc_create_client`, for a new process -/
  | createClient (id : Int)
  /-- `sel4osapi_network_create_interface` -/
  | createInterface (irqNum : Int) (b : PoolBlocks NetVface)
  /-- `sel4osapi_netiface_add_vface`, to an interface that was created -/
  | addVface (iface : Ptr) (addr mask gw : Word)
  /-- the server receives a request, and carries it out up to the reply -/
  | request (r : UdpRequest) (a : UdpAnswers)
  /-- what is left to do after the reply: what `sel4osapi_thread_start` returns, and the slot for the next capability -/
  | start (error : Int) (rxReadyEpMint : CPtr)

/-- A loop over a pool that stops at the first match: `var` is what the variable holds before. -/
def lookupLoop (isMatch : Ptr → Bool) : List Ptr → (var : Option Ptr) → Option Ptr
  | [], var => var
  | el :: els, var => if isMatch el then some el else lookupLoop isMatch els var

/-- The test on a virtual interface: `addr.addr == 0 || vcursor->ip_addr.addr == addr.addr`. -/
def vfaceMatches (addr : Word) (vface : NetVface) : Bool := addr = 0 ∨ vface.ipAddr = addr

/-- The loop over the interfaces, and in it the one over their virtual interfaces: only the inner one stops at a match. -/
def ifaceLoop (mem : Ptr → NetIface) (addr : Word) : List Ptr → (iface : Option Ptr) → Res (Option Ptr)
  | [], iface => pure iface
  | el :: els, iface => do
    let vfaces := (mem el).vfaces
    let vfaceEls ← vfaces.elements
    ifaceLoop mem addr els (if vfaceEls.any fun v => vfaceMatches addr (vfaces.mem v) then some el else iface)

/-- `vka_cnode_copy(dest, src, seL4_AllRights)` and the assertion on its result: it fails on a slot that is taken, and on a
source that is empty. -/
def cnodeCopy (cspace : CPtr → Option UdpCap) (dest src : CPtr) : Res (CPtr → Option UdpCap) := do
  check (cspace dest = none ∧ cspace src ≠ none) "error == 0"
  pure (Function.update cspace dest (cspace src))

namespace UdpStack

/-- `UDPSTACK_CREATE_SOCKET`, up to the reply. -/
def createSocket (s : UdpStack) (r : UdpRequest) (a : UdpAnswers) : Res UdpStack := do
  check (r.argsNum = 3) "args_num == 3"
  let clientId := intOfWord r.mr1
  let addr := r.mr2
  let clientEls ← s.clients.elements
  let client ← checkSome (lookupLoop (fun el => (s.clients.mem el).id = clientId) clientEls s.thread.client) "client != NULL"
  let ifaceEls ← s.ifaces.elements
  let iface ← ifaceLoop s.ifaces.mem addr ifaceEls s.thread.iface
  let iface ← checkSome iface "iface != NULL"
  let (socketServer, socketServers) ← simplePoolAlloc s.socketServers
  let socketServer ← checkSome socketServer "socket_server != NULL"
  let udpPcb ← checkSome a.udpNew "socket_server->udp_pcb"
  check (a.epTxReady ≠ capNull) "socket_server->socket.ep_tx_ready != seL4_CapNull"
  let cspace := Function.update s.cspace a.epTxReady (some (.endpoint a.epTxReady))
  let txThread ← checkSome a.txThread "socket_server->tx_thread"
  let socket := {
    id := simplePoolGetCurrentSize socketServers, addr := addr, port := 0, epTxReady := a.epTxReady, epRxReady := 0, aepRxData := 0 }
  let server := {
    iface := iface, socket := socket, udpPcb := udpPcb, client := client, txThread := txThread, rxThread := none
    msgsMutex := none, msgs := none }
  check (a.txReadyEpMint ≠ capNull) "tx_ready_ep_mint != seL4_CapNull"
  let cspace ← cnodeCopy cspace a.txReadyEpMint a.epTxReady
  pure { s with
    socketServers := { socketServers with mem := Function.update socketServers.mem socketServer server }
    thread := { s.thread with
      pc := .startTx, socketServer := some socketServer, client := some client, iface := some iface, error := 0 }
    cspace := cspace
    replies := s.replies ++ [⟨r, some socketServer, [0, UInt32.ofInt socket.id], some a.txReadyEpMint⟩] }

/-- `UDPSTACK_BIND_SOCKET`, up to the reply. -/
def bindSocket (s : UdpStack) (r : UdpRequest) (extraCaps : Nat) (a : UdpAnswers) : Res UdpStack := do
  check (r.argsNum = 3) "args_num == 3"
  check (extraCaps = 1) "seL4_MessageInfo_get_extraCaps(minfo) == 1"
  let socketId := intOfWord r.mr1
  let bindPort := r.mr2.toUInt16
  let els ← s.socketServers.elements
  let socketServer ← checkSome
    (lookupLoop (fun el => (s.socketServers.mem el).socket.id = socketId) els s.thread.socketServer) "socket_server != NULL"
  let server := s.socketServers.mem socketServer
  check (server.socket.port = 0) "socket_server->socket.port == 0"
  let msgs ← checkSome a.msgs "socket_server->msgs"
  let msgsMutex ← checkSome a.msgsMutex "socket_server->msgs_mutex"
  let rxThread ← checkSome a.rxThread "socket_server->rx_thread"
  check (s.thread.rxReadyEpMint ≠ capNull) "socket_server->socket.aep_rx_data != seL4_CapNull"
  check (a.epRxReady ≠ capNull) "socket_server->socket.ep_rx_ready != seL4_CapNull"
  let cspace := Function.update s.cspace a.epRxReady (some (.endpoint a.epRxReady))
  let socket := { server.socket with port := bindPort, aepRxData := s.thread.rxReadyEpMint, epRxReady := a.epRxReady }
  let server := { server with
    socket := socket, msgs := some msgs, msgsMutex := some msgsMutex, rxThread := some rxThread }
  check (a.rxReadyEpMint ≠ capNull) "rx_ready_ep_mint != seL4_CapNull"
  let cspace ← cnodeCopy cspace a.rxReadyEpMint a.epRxReady
  check (a.udpBind = 0) "error == ERR_OK"
  pure { s with
    socketServers := { s.socketServers with mem := Function.update s.socketServers.mem socketServer server }
    thread := { s.thread with
      pc := .startRx, socketServer := some socketServer, error := 0, rxReadyEpMint := a.rxReadyEpMint }
    cspace := cspace
    replies := s.replies ++ [⟨r, some socketServer, [0], some a.rxReadyEpMint⟩] }

/-- `UDPSTACK_CONNECT_SOCKET`: the reply has what `error` holds from an earlier request. -/
def connectSocket (s : UdpStack) (r : UdpRequest) : UdpStack :=
  { s with replies := s.replies ++ [⟨r, none, [UInt32.ofInt s.thread.error], none⟩] }

/-- How many capabilities come with a request: the kernel puts one in the receive slot, if that is empty. -/
def extraCaps (s : UdpStack) (r : UdpRequest) : Nat :=
  if r.cap.isSome ∧ s.cspace s.thread.capReceivePath = none then 1 else 0

/-- The request was received, with its capability. -/
def receive (s : UdpStack) (r : UdpRequest) : UdpStack :=
  { s with cspace := match r.cap with
    | some cap =>
      if s.cspace s.thread.capReceivePath = none then
        Function.update s.cspace s.thread.capReceivePath (some (.received cap))
      else s.cspace
    | none => s.cspace }

/-- A request, from `seL4_Recv` up to the reply; there is none without a case of the `switch`. -/
def serve (s : UdpStack) (r : UdpRequest) (a : UdpAnswers) : Res UdpStack := do
  check (r.argsNum ≥ 1) "args_num >= 1"
  match UdpstackOpcode.ofWord r.mr0 with
  | some .createSocket => (s.receive r).createSocket r a
  | some .bindSocket => (s.receive r).bindSocket r (s.extraCaps r) a
  | some .connectSocket => pure ((s.receive r).connectSocket r)
  | none => pure (s.receive r)

/-- After the reply. -/
def afterReply (s : UdpStack) (error : Int) (rxReadyEpMint : CPtr) : Outcome Fault UdpStack :=
  match s.thread.pc with
  | .recv => .blocked
  | .startTx => .ofExcept do
    check (error = 0) "error == 0"
    pure { s with thread := { s.thread with pc := .recv, error := error } }
  | .startRx => .ofExcept do
    check (error = 0) "error == 0"
    check (rxReadyEpMint ≠ capNull) "rx_ready_ep_mint != seL4_CapNull"
    pure { s with thread := { s.thread with
      pc := .recv, error := error, rxReadyEpMint := rxReadyEpMint, capReceivePath := rxReadyEpMint } }

/-- One step of the server and of the root task. -/
def step (cfg : UdpStackConfig) (s : UdpStack) : UdpStackAction → Outcome Fault UdpStack
  | .createClient id => .ofExcept do
    let clients ← ipcCreateClient s.clients id
    pure { s with clients := clients }
  | .createInterface irqNum b => .ofExcept do
    let (_, ifaces) ← networkCreateInterface cfg s.ifaces irqNum b
    pure { s with ifaces := ifaces }
  | .addVface iface addr mask gw => .guard (iface ∈ s.ifaces.contents) (.ofExcept do
    let ifaces ← netifaceAddVface s.ifaces iface addr mask gw
    pure { s with ifaces := ifaces })
  | .request r a => .guard (s.thread.pc = .recv) (.ofExcept (s.serve r a))
  | .start error rxReadyEpMint => s.afterReply error rxReadyEpMint

/-- After `sel4osapi_ipcserver_initialize`, `sel4osapi_network_initialize` and `sel4osapi_udp_initialize`, with the server
thread in its first `seL4_Recv`. -/
structure Init (cfg : UdpStackConfig) (s : UdpStack) : Prop where
  clients : ∃ b, simplePoolNewPlain b cfg.processMax = .ok s.clients
  ifaces : ∃ irqNum b b', networkInitialize cfg irqNum b b' = .ok s.ifaces
  socketServers : ∃ b, simplePoolNewPlain b cfg.udpMaxSockets = .ok s.socketServers
  pc : s.thread.pc = .recv
  socketServer : s.thread.socketServer = none
  client : s.thread.client = none
  iface : s.thread.iface = none
  error : s.thread.error = 0
  rxReadyEpMint : s.thread.rxReadyEpMint ≠ capNull
  capReceivePath : s.thread.capReceivePath = s.thread.rxReadyEpMint
  replies : s.replies = []

end UdpStack

/-- The server of the UDP stack, with the processes and the interfaces that are created beside it, as a transition system. -/
def udpStackMachine (cfg : UdpStackConfig) : Machine Fault UdpStack UdpStackAction where
  init := UdpStack.Init cfg
  step := UdpStack.step cfg

end Sel4Osapi
