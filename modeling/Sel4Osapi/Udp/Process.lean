import Sel4Osapi.Udp.Rx
import Sel4Osapi.Udp.Tx

/-!
# udp.c: the threads of a process that send and receive, and the servers of its sockets

The sockets of a process share the two buffers `tx_buf` and `rx_buf` of its IPC client, each behind a semaphore created with
value one. A client thread in `sel4osapi_udp_send` or `sel4osapi_udp_recv` holds the semaphore while it calls the tx or the
rx thread of its socket. Every access to a buffer is a step of its own, `memcpy` going byte by byte, and so are the calls,
which a server receives when it waits for one, and the replies. A run is any interleaving of any number of client threads,
of the tx and rx threads of all the sockets, of the calls of `udprecv` and of the ethernet drivers.

The buffers are pages of the root task, which the process has mapped as well: a byte of a buffer is one of `mem` at its address
in the root task. A copy of the rx thread beyond the end of `rx_buf` goes on in `mem`, wherever `tx_buf` is. lwIP decides whether
`pbuf_alloc` succeeds and what `udp_sendto` returns, so these are part of the actions.
-/

namespace Sel4Osapi

open Transition

/-- The configuration: where the two buffers are in the root task, and their sizes, and the interface of each socket.
`vspace_new_pages` gives each buffer pages of its own. -/
structure UdpConfig where
  rxBuf : Nat
  rxBufSize : Word
  txBuf : Nat
  txBufSize : Word
  iface : Nat → Nat
  apart : rxBuf + rxBufSize.toNat ≤ txBuf ∨ txBuf + txBufSize.toNat ≤ rxBuf

/-- `seL4_NotEnoughMemory`. -/
def notEnoughMemory : Int := 10

/-- Where a tx thread stands. -/
inductive TxPc where
  /-- in `seL4_Recv(ep_tx_ready)` -/
  | recv
  | lockIface
  | alloc
  /-- copies `tx_buf` into the packet buffer -/
  | copy
  | sendto
  | unlockIface
  | reply
  deriving DecidableEq, Repr

/-- `sel4osapi_udp_socket_tx_thread` with its variables. -/
structure TxServer where
  pc : TxPc
  /-- the client whose call is being served -/
  caller : Nat
  len : Int
  addr : Word
  port : UInt16
  /-- what has been copied into the packet buffer -/
  payload : List UInt8
  lwerr : Int8
  deriving DecidableEq, Repr

namespace TxServer

/-- The thread goes on behind `seL4_Recv`, with the message of a client. -/
def receive (t : TxServer) (txBufSize : Word) (caller : Nat) (minfo : TxRequest) : Res TxServer := do
  check (minfo.length = 3) "seL4_MessageInfo_get_length(minfo) == 3"
  pure { t with
    pc := .lockIface, caller := caller, len := txLen txBufSize minfo.mr0, addr := minfo.mr1, port := minfo.mr2.toUInt16
    lwerr := errMem }

/-- How many bytes `memcpy` copies: the length as a `size_t`. -/
def copyLen (t : TxServer) : Nat := (UInt32.ofInt t.len).toNat

/-- The bytes of the packet buffer that the thread passes to `udp_sendto`: `pbuf_alloc` takes the length as a `u16_t`. -/
def packet (t : TxServer) : List UInt8 := t.payload.take (UInt16.ofInt t.len).toNat

/-- Message register 0 of the reply. -/
def reply (t : TxServer) : Word := UInt32.ofInt t.lwerr.toInt

end TxServer

/-- The reply of an rx thread: its message registers. -/
structure RxReply where
  mr0 : Word
  mr1 : Word
  mr2 : Word
  deriving DecidableEq, Repr

/-- The reply of `sel4osapi_udp_socket_rx_thread`. -/
def RxServer.reply (t : RxServer) : RxReply := { mr0 := UInt32.ofNat t.packetLen, mr1 := t.port.toUInt32, mr2 := t.ipaddr }

/-- Where a thread of the process stands. -/
inductive UdpPc where
  | idle
  /-- `sel4osapi_udp_send`: the semaphore, the copy into `tx_buf` at byte `i`, the call, its reply, the semaphore -/
  | sendTake
  | sendCopy (i : Nat)
  | sendCall
  | sendAwait
  | sendGive
  /-- `sel4osapi_udp_recv`: the notification, the semaphore, the call, its reply, the test of the length, the copy out of
  `rx_buf` at byte `i`, the semaphore -/
  | recvWait
  | recvTake
  | recvCall
  | recvAwait
  | recvCheck
  | recvCopy (i : Nat)
  | recvGive
  deriving DecidableEq, Repr

/-- A thread of the process: the arguments and variables of its call of `sel4osapi_udp_send` or `sel4osapi_udp_recv`. -/
structure UdpThread where
  pc : UdpPc
  socket : Nat
  /-- of a send: the bytes to send, and where to; of a receive: the bytes received -/
  msg : List UInt8
  maxLen : Nat
  len : Nat
  addr : Word
  port : UInt16
  error : Int
  /-- of a receive: the datagram the rx thread replied with, if it did with one -/
  datagram : Option Served
  deriving DecidableEq, Repr

/-- A process that uses the UDP stack. -/
structure UdpProcess where
  rx : Nat → RxServer
  tx : Nat → TxServer
  threads : Nat → UdpThread
  /-- the memory of the root task -/
  mem : Nat → UInt8
  txBufAvail : Nat
  rxBufAvail : Nat
  ifaceMutex : Nat → Option IfaceHolder

/-- What can happen. -/
inductive UdpAction where
  /-- a thread calls `sel4osapi_udp_send` -/
  | send (c socket : Nat) (msg : List UInt8) (addr : Word) (port : UInt16)
  /-- a thread calls `sel4osapi_udp_recv` -/
  | recv (c socket maxLen : Nat)
  /-- a thread takes a step of its call -/
  | thread (c : Nat)
  /-- the tx thread of a socket takes a step; the answers of `pbuf_alloc` and `udp_sendto`, should it call them -/
  | tx (socket : Nat) (allocOk : Bool) (lwerr : Int8)
  /-- the rx thread of a socket takes a step -/
  | rx (socket : Nat)
  /-- lwIP calls `udprecv` for a socket, and a call of it takes a step -/
  | arrive (socket : Nat) (p : List (List UInt8)) (addr : Word) (port : UInt16)
  | udprecv (socket k : Nat)
  /-- the driver of an interface takes or gives back its mutex -/
  | driverLock (iface : Nat)
  | driverUnlock (iface : Nat)
  deriving DecidableEq, Repr

namespace UdpProcess

/-- A thread of the process goes on. -/
def setThread (s : UdpProcess) (c : Nat) (t : UdpThread) : UdpProcess := { s with threads := Function.update s.threads c t }

/-- The bytes from `rx_buf` on. -/
def rxBuf (s : UdpProcess) (cfg : UdpConfig) (i : Nat) : UInt8 := s.mem (cfg.rxBuf + i)

/-- The bytes from `tx_buf` on. -/
def txBuf (s : UdpProcess) (cfg : UdpConfig) (i : Nat) : UInt8 := s.mem (cfg.txBuf + i)

/-- The memory, with other bytes from `rx_buf` on. -/
def setRxBuf (s : UdpProcess) (cfg : UdpConfig) (rxBuf : Nat → UInt8) (a : Nat) : UInt8 :=
  if cfg.rxBuf ≤ a then rxBuf (a - cfg.rxBuf) else s.mem a

/-- What the rx thread of a socket shares with the rest. -/
def rxShared (cfg : UdpConfig) (s : UdpProcess) (i : Nat) : RxShared :=
  { rxBuf := s.rxBuf cfg, ifaceMutex := s.ifaceMutex (cfg.iface i) }

/-- A step on the receive side of socket `i`. -/
def rxStep (cfg : UdpConfig) (s : UdpProcess) (i : Nat) (a : RxAction) : Outcome Fault UdpProcess :=
  ((s.rx i).step cfg.rxBufSize.toNat (.rx i) (s.rxShared cfg i) a).map fun (sh, server) => { s with
    rx := Function.update s.rx i server
    mem := s.setRxBuf cfg sh.rxBuf
    ifaceMutex := Function.update s.ifaceMutex (cfg.iface i) sh.ifaceMutex }

/-- The datagram a reply of the rx thread carries, if there is one. -/
def replyDatagram (server : RxServer) : Option Served :=
  server.msg.bind fun _ => server.chain.map fun k =>
    { pbuf := k, data := server.copied, packetLen := server.packetLen, port := server.port, addr := server.ipaddr }

/-- The reply of the rx thread of socket `i` reaches its caller. -/
def deliver (s : UdpProcess) (server : RxServer) : UdpProcess :=
  let minfo := server.reply
  s.setThread server.caller { s.threads server.caller with
    pc := .recvCheck, len := minfo.mr0.toNat, addr := minfo.mr2, port := minfo.mr1.toUInt16, datagram := replyDatagram server }

/-- `sel4osapi_udp_socket_tx_thread` of socket `i`, a step of it other than in `seL4_Recv`. -/
def txStep (cfg : UdpConfig) (s : UdpProcess) (i : Nat) (allocOk : Bool) (lwerr : Int8) : Outcome Fault UdpProcess :=
  let t := s.tx i
  let next := fun (t : TxServer) => { s with tx := Function.update s.tx i t }
  match t.pc with
  | .recv => .blocked
  | .lockIface =>
    .guard (s.ifaceMutex (cfg.iface i) = none) (.next { next { t with pc := .alloc } with
      ifaceMutex := Function.update s.ifaceMutex (cfg.iface i) (some (.tx i)) })
  | .alloc =>
    .next (next (if allocOk then { t with payload := [], pc := .copy } else { t with lwerr := errMem, pc := .unlockIface }))
  | .copy =>
    if t.payload.length < t.copyLen then .next (next { t with payload := t.payload ++ [s.txBuf cfg t.payload.length] })
    else .next (next { t with pc := .sendto })
  | .sendto => .next (next { t with lwerr := lwerr, pc := .unlockIface })
  | .unlockIface =>
    .next { next { t with pc := .reply } with ifaceMutex := Function.update s.ifaceMutex (cfg.iface i) none }
  | .reply =>
    .next ({ next { t with pc := .recv } with
      threads := Function.update s.threads t.caller { s.threads t.caller with pc := .sendGive, error := intOfWord t.reply } })

/-- A step of a thread in `sel4osapi_udp_send` or `sel4osapi_udp_recv`, other than awaiting a reply. -/
def threadStep (cfg : UdpConfig) (s : UdpProcess) (c : Nat) : Outcome Fault UdpProcess :=
  let t := s.threads c
  match t.pc with
  | .idle => .blocked
  | .sendTake =>
    .guard (0 < s.txBufAvail) (.next { s.setThread c { t with pc := .sendCopy 0 } with txBufAvail := s.txBufAvail - 1 })
  | .sendCopy i =>
    match t.msg[i]? with
    | some b => .next { s.setThread c { t with pc := .sendCopy (i + 1) } with mem := Function.update s.mem (cfg.txBuf + i) b }
    | none => .next (s.setThread c { t with pc := .sendCall })
  | .sendCall =>
    .guard ((s.tx t.socket).pc = .recv) (.ofExcept do
      let minfo := udpSendRequest (UInt32.ofNat t.msg.length) t.addr t.port
      let server ← (s.tx t.socket).receive cfg.txBufSize c minfo
      pure { s.setThread c { t with pc := .sendAwait } with tx := Function.update s.tx t.socket server })
  | .sendAwait => .blocked
  | .sendGive => .next { s.setThread c { t with pc := .idle } with txBufAvail := s.txBufAvail + 1 }
  | .recvWait => (s.rxStep cfg t.socket .consume).map fun s => s.setThread c { t with pc := .recvTake }
  | .recvTake =>
    .guard (0 < s.rxBufAvail) (.next { s.setThread c { t with pc := .recvCall } with rxBufAvail := s.rxBufAvail - 1 })
  | .recvCall => (s.rxStep cfg t.socket (.call c)).map fun s => s.setThread c { t with pc := .recvAwait }
  | .recvAwait => .blocked
  | .recvCheck =>
    if t.len > t.maxLen then .next (s.setThread c { t with error := notEnoughMemory, pc := .recvGive })
    else if t.len = 0 then .next (s.setThread c { t with error := -1, pc := .recvGive })
    else .next (s.setThread c { t with pc := .recvCopy 0 })
  | .recvCopy i =>
    if i < t.len then .next (s.setThread c { t with msg := t.msg ++ [s.rxBuf cfg i], pc := .recvCopy (i + 1) })
    else .next (s.setThread c { t with error := 0, pc := .recvGive })
  | .recvGive => .next { s.setThread c { t with pc := .idle } with rxBufAvail := s.rxBufAvail + 1 }

/-- One step of the process and of the servers of its sockets. -/
def step (cfg : UdpConfig) (s : UdpProcess) : UdpAction → Outcome Fault UdpProcess
  | .send c socket msg addr port => .guard ((s.threads c).pc = .idle) (.ofExcept do
    check (msg.length < cfg.txBufSize.toNat) "len < client->tx_buf_size"
    pure (s.setThread c { s.threads c with
      pc := .sendTake, socket := socket, msg := msg, len := msg.length, addr := addr, port := port, error := 0 }))
  | .recv c socket maxLen => .guard ((s.threads c).pc = .idle) (.ofExcept do
    check (0 < maxLen) "max_len > 0"
    pure (s.setThread c { s.threads c with
      pc := .recvWait, socket := socket, msg := [], maxLen := maxLen, len := 0, addr := 0, port := 0, error := 0
      datagram := none }))
  | .thread c => s.threadStep cfg c
  | .tx i allocOk lwerr => s.txStep cfg i allocOk lwerr
  | .rx i =>
    let server := s.rx i
    (s.rxStep cfg i .rx).map fun s => if server.pc = .reply then s.deliver server else s
  | .arrive i p addr port => s.rxStep cfg i (.arrive p addr port)
  | .udprecv i k => s.rxStep cfg i (.udprecv k)
  | .driverLock j =>
    .guard (s.ifaceMutex j = none) (.next { s with ifaceMutex := Function.update s.ifaceMutex j (some .driver) })
  | .driverUnlock j =>
    .guard (s.ifaceMutex j = some .driver) (.next { s with ifaceMutex := Function.update s.ifaceMutex j none })

/-- A process at its start: no thread in a call, the sockets just bound, the semaphores created. -/
structure Init (s : UdpProcess) : Prop where
  rx : ∀ i, (s.rx i).Init
  tx : ∀ i, (s.tx i).pc = .recv
  threads : ∀ c, (s.threads c).pc = .idle
  txBufAvail : s.txBufAvail = 1
  rxBufAvail : s.rxBufAvail = 1
  ifaceMutex : ∀ j, s.ifaceMutex j = none

end UdpProcess

/-- The process as a transition system. -/
def udpMachine (cfg : UdpConfig) : Machine Fault UdpProcess UdpAction where
  init := UdpProcess.Init
  step := UdpProcess.step cfg

end Sel4Osapi
