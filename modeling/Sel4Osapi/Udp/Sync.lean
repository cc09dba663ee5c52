import Sel4Osapi.Udp.Process
import Sel4Osapi.Lib.Waiting

/-!
# udp.c and network.c: what the threads of the UDP subsystem hold and wait for

The interface has a thread for its interrupts, which calls `udprecv` with the mutex of the interface locked; the stack
thread creates and binds the sockets; every socket has a tx thread and, once bound, an rx thread; and the threads of any
number of processes are in `sel4osapi_udp_create_socket`, `_bind`, `_send` and `_recv`, or in the variants that look up a
socket descriptor first. The model has their control flow: each `lock`, `unlock`, `take`, `give`, call, reply, notification
and thread start is a step of its own, with the data that decides where a thread goes next, and a run is any interleaving of
the steps. Logging takes no lock here, and no function of the library makes the request to connect a socket.

Mutexes are recursive. A signal on a notification does not block. A call goes on when the server is in `seL4_Recv`, and then
waits for the reply. A failed assertion, and an allocation without room, stops the thread where it stands; the other threads
go on.
-/

namespace Sel4Osapi

open Transition Waiting

/-- The threads of the UDP subsystem: the one for the interrupts of the interface, the stack thread, the tx and the rx
thread of a socket, and the threads of the processes. -/
inductive UdpTask where
  | irq
  | stack
  | tx (socket : Nat)
  | rx (socket : Nat)
  | client (c : Nat)
  deriving DecidableEq, Repr

/-- The mutexes: `iface->mutex`, `msgs_mutex` of a socket, and `udp_iface->mutex` of a process. -/
inductive UdpMutex where
  | iface
  | msgs (socket : Nat)
  | udpIface (process : Nat)
  deriving DecidableEq, Repr

/-- The semaphores of the IPC client of a process. -/
inductive UdpSemaphore where
  | txBufAvail (process : Nat)
  | rxBufAvail (process : Nat)
  deriving DecidableEq, Repr

/-- Where `sel4osapi_eth_irq1_thread` stands: about to do what the name says. The places `recv…` are those of `udprecv` for a
socket, which the driver calls by way of lwIP. -/
inductive IrqPc where
  /-- `seL4_Send(iface->irq_aep)`, once -/
  | start
  /-- in `seL4_Wait(iface->irq_aep)` -/
  | wait
  | lock
  /-- in `handle_irq_fn` -/
  | handle
  | recvLock (socket : Nat)
  | recvAlloc (socket : Nat)
  | recvUnlock (socket : Nat)
  | recvSignal (socket : Nat)
  | ack
  | unlock
  deriving DecidableEq, Repr

/-- Where `sel4osapi_udp_stack_thread` stands, with the client thread whose request it serves and the socket. -/
inductive StackPc where
  /-- in `seL4_Recv(udp->stack_op_ep)` -/
  | recv
  | create (c : Nat)
  | createReply (c socket : Nat)
  | createStart (socket : Nat)
  | bind (c socket : Nat)
  | bindLock (c socket : Nat)
  /-- `udp_recv` and `udp_bind` -/
  | bindPcb (c socket : Nat)
  | bindUnlock (c socket : Nat)
  | bindReply (c socket : Nat)
  | bindStart (socket : Nat)
  deriving DecidableEq, Repr

/-- The functions a thread of a process calls. -/
inductive UdpCall where
  | createSocket
  | bind (socket : Nat)
  | send (socket : Nat)
  | recv (socket : Nat)
  | sendSd (sd : Nat)
  | recvSd (sd : Nat)
  deriving DecidableEq, Repr

/-- Where a thread of a process stands. -/
inductive ClientPc where
  | idle
  /-- `sel4osapi_udp_create_socket` -/
  | createLock
  | createAlloc
  | createCall
  | createAwait
  | createUnlock (socket : Nat)
  /-- `sel4osapi_udp_bind` -/
  | bindCheck (socket : Nat)
  | bindCall (socket : Nat)
  | bindAwait (socket : Nat)
  | bindStore (socket : Nat)
  /-- `sel4osapi_udp_sd_to_socket`, for a receive or for a send -/
  | sdLock (sd : Nat) (recv : Bool)
  | sdLookup (sd : Nat) (recv : Bool)
  | sdUnlock (sd : Nat) (recv : Bool)
  /-- `sel4osapi_udp_send` -/
  | sendTake (socket : Nat)
  | sendCopy (socket : Nat)
  | sendCall (socket : Nat)
  | sendAwait (socket : Nat)
  | sendGive (socket : Nat)
  /-- `sel4osapi_udp_recv` -/
  | recvCheck (socket : Nat)
  | recvWait (socket : Nat)
  | recvTake (socket : Nat)
  | recvCall (socket : Nat)
  | recvAwait (socket : Nat)
  | recvCopy (socket : Nat)
  | recvGive (socket : Nat)
  deriving DecidableEq, Repr

/-- Where a server of a socket stands, with the client thread whose call it serves. -/
structure ServerPc (π : Type) where
  pc : π
  caller : Nat
  deriving DecidableEq, Repr

/-- Where a thread stands. The threads of a socket may not have been started. -/
abbrev UdpTask.Pc : UdpTask → Type
  | .irq => IrqPc
  | .stack => StackPc
  | .tx _ => Option (ServerPc TxPc)
  | .rx _ => Option (ServerPc RxPc)
  | .client _ => ClientPc

/-- A socket, as the server and as its process have it. -/
structure SocketSync where
  /-- the process of `server->client` -/
  process : Nat
  /-- `sel4osapi_udp_create_socket` has returned -/
  opened : Bool
  /-- `socket->port` is set, in the process and in the server -/
  port : Bool
  serverPort : Bool
  /-- `udp_recv` has set the callback -/
  registered : Bool
  /-- the notification is set -/
  aepRxData : Bool
  /-- how many entries of `server->msgs` are in use -/
  msgs : Nat
  /-- the variables `msg` and `remaining_msgs` of the rx thread -/
  msg : Bool
  remainingMsgs : Int
  deriving DecidableEq, Repr

/-- The UDP subsystem. -/
structure UdpSync where
  pc : (t : UdpTask) → t.Pc
  mutex : UdpMutex → RecursiveMutex UdpTask
  semaphore : UdpSemaphore → Nat
  socket : Nat → SocketSync
  /-- how many entries of `udp->socket_servers` are in use, and of `udp_iface->sockets` of each process -/
  servers : Nat
  sockets : Nat → Nat
  /-- the notification `iface->irq_aep` is set -/
  irqAep : Bool

/-- The configuration: the process of a client thread, and `SEL4OSAPI_UDP_MAX_SOCKETS`. -/
structure UdpSyncConfig where
  process : Nat → Nat
  maxSockets : Nat

/-- What can happen. -/
inductive UdpSyncAction where
  /-- the device raises its interrupt -/
  | interrupt
  /-- the thread for the interrupts takes a step; the socket of a datagram, should the driver have one to deliver -/
  | irq (dest : Option Nat)
  /-- the stack thread takes a step; the answer of `udp_bind` -/
  | stack (lwerr : Int)
  /-- the tx thread of a socket takes a step; the answer of `pbuf_alloc` -/
  | tx (socket : Nat) (allocOk : Bool)
  | rx (socket : Nat)
  /-- a thread of a process calls a function, and takes a step of it -/
  | call (c : Nat) (f : UdpCall)
  | client (c : Nat)
  deriving DecidableEq, Repr

namespace UdpSync

/-- A thread goes on to another place. -/
def goto (s : UdpSync) (t : UdpTask) (p : t.Pc) : UdpSync := { s with pc := Function.update s.pc t p }

/-- A thread locks a mutex, or waits for it. -/
def lock (s : UdpSync) (t : UdpTask) (m : UdpMutex) (p : t.Pc) : Outcome Fault UdpSync :=
  match (s.mutex m).lock t with
  | none => .blocked
  | some x => .next { s.goto t p with mutex := Function.update s.mutex m x }

/-- A thread unlocks a mutex. -/
def unlock (s : UdpSync) (t : UdpTask) (m : UdpMutex) (p : t.Pc) : UdpSync :=
  { s.goto t p with mutex := Function.update s.mutex m ((s.mutex m).unlock t) }

/-- A thread takes a semaphore, or waits for it. -/
def take (s : UdpSync) (t : UdpTask) (q : UdpSemaphore) (p : t.Pc) : Outcome Fault UdpSync :=
  .guard (0 < s.semaphore q) (.next { s.goto t p with semaphore := Function.update s.semaphore q (s.semaphore q - 1) })

/-- A thread gives a semaphore. -/
def give (s : UdpSync) (t : UdpTask) (q : UdpSemaphore) (p : t.Pc) : UdpSync :=
  { s.goto t p with semaphore := Function.update s.semaphore q (s.semaphore q + 1) }

/-- The fields of a socket change. -/
def setSocket (s : UdpSync) (k : Nat) (f : SocketSync → SocketSync) : UdpSync :=
  { s with socket := Function.update s.socket k (f (s.socket k)) }

/-- `sel4osapi_eth_irq1_thread`, with the calls of `udprecv` the driver makes. -/
def irqStep (s : UdpSync) (dest : Option Nat) : Outcome Fault UdpSync :=
  match (s.pc .irq : IrqPc) with
  | .start => .next { s.goto .irq .wait with irqAep := true }
  | .wait => .guard s.irqAep (.next { s.goto .irq .lock with irqAep := false })
  | .lock => s.lock .irq .iface .handle
  | .handle =>
    match dest with
    | none => .next (s.goto .irq .ack)
    | some k => .guard (s.socket k).registered (.next (s.goto .irq (.recvLock k)))
  | .recvLock k => s.lock .irq (.msgs k) (.recvAlloc k)
  | .recvAlloc k =>
    .next ((s.goto .irq (.recvUnlock k)).setSocket k fun x =>
      { x with msgs := if (x.msgs : Int) < udpMaxMsgsPerClient then x.msgs + 1 else x.msgs })
  | .recvUnlock k => .next (s.unlock .irq (.msgs k) (.recvSignal k))
  | .recvSignal k => .next ((s.goto .irq .handle).setSocket k fun x => { x with aepRxData := true })
  | .ack => .next (s.goto .irq .unlock)
  | .unlock => .next (s.unlock .irq .iface .wait)

/-- `sel4osapi_udp_stack_thread`. -/
def stackStep (cfg : UdpSyncConfig) (s : UdpSync) (lwerr : Int) : Outcome Fault UdpSync :=
  match (s.pc .stack : StackPc) with
  | .recv => .blocked
  -- the id of the new socket is the size of the pool; its entry is blank, and `tx_thread` and `rx_thread` have not been started
  | .create c => .ofExcept do
    check (s.servers < cfg.maxSockets) "socket_server != NULL"
    let s₁ := (s.goto .stack (.createReply c (s.servers + 1))).setSocket (s.servers + 1) fun x => { x with process := cfg.process c }
    pure { s₁ with servers := s.servers + 1 }
  | .createReply c k => .next ((s.goto (.client c) (.createUnlock k)).goto .stack (.createStart k))
  | .createStart k => .next ((s.goto (.tx k) (some { pc := .recv, caller := 0 })).goto .stack .recv)
  | .bind c k => .ofExcept do
    check ((s.socket k).serverPort = false) "socket_server->socket.port == 0"
    pure ((s.goto .stack (.bindLock c k)).setSocket k fun x => { x with serverPort := true })
  | .bindLock c k => s.lock .stack .iface (.bindPcb c k)
  | .bindPcb c k => .ofExcept do
    check (lwerr = 0) "error == ERR_OK"
    pure ((s.goto .stack (.bindUnlock c k)).setSocket k fun x => { x with registered := true })
  | .bindUnlock c k => .next (s.unlock .stack .iface (.bindReply c k))
  | .bindReply c k => .next ((s.goto (.client c) (.bindStore k)).goto .stack (.bindStart k))
  | .bindStart k => .next ((s.goto (.rx k) (some { pc := .top, caller := 0 })).goto .stack .recv)

/-- `sel4osapi_udp_socket_tx_thread` of socket `k`. -/
def txStep (s : UdpSync) (k : Nat) (allocOk : Bool) : Outcome Fault UdpSync :=
  match (s.pc (.tx k) : Option (ServerPc TxPc)) with
  | none => .blocked
  | some { pc, caller } =>
    match pc with
    | .recv => .blocked
    | .lockIface => s.lock (.tx k) .iface (some { pc := .alloc, caller })
    | .alloc => .next (s.goto (.tx k) (some { pc := if allocOk then .copy else .unlockIface, caller }))
    | .copy => .next (s.goto (.tx k) (some { pc := .sendto, caller }))
    | .sendto => .next (s.goto (.tx k) (some { pc := .unlockIface, caller }))
    | .unlockIface => .next (s.unlock (.tx k) .iface (some { pc := .reply, caller }))
    | .reply => .next ((s.goto (.client caller) (.sendGive k)).goto (.tx k) (some { pc := .recv, caller }))

/-- `sel4osapi_udp_socket_rx_thread` of socket `k`. -/
def rxStep (s : UdpSync) (k : Nat) : Outcome Fault UdpSync :=
  match (s.pc (.rx k) : Option (ServerPc RxPc)) with
  | none => .blocked
  | some { pc, caller } =>
    match pc with
    | .top => .next (s.goto (.rx k) (some { pc := if (s.socket k).remainingMsgs > 0 then .signalMore else .recv, caller }))
    | .signalMore => .next ((s.goto (.rx k) (some { pc := .recv, caller })).setSocket k fun x => { x with aepRxData := true })
    | .recv => .blocked
    | .lockPeek => s.lock (.rx k) (.msgs k) (some { pc := .peek, caller })
    | .peek =>
      if (s.socket k).msgs = 0 then .next (s.goto (.rx k) (some { pc := .unlockEmpty, caller }))
      else .next ((s.goto (.rx k) (some { pc := .unlockPeek, caller })).setSocket k fun x =>
        { x with msg := true, remainingMsgs := x.msgs })
    | .unlockPeek => .next (s.unlock (.rx k) (.msgs k) (some { pc := .load, caller }))
    | .load => .next (s.goto (.rx k) (some { pc := .copy, caller }))
    | .copy =>
      .next ((s.goto (.rx k) (some { pc := .reply, caller })).setSocket k fun x => { x with remainingMsgs := x.remainingMsgs - 1 })
    | .unlockEmpty => .next (s.unlock (.rx k) (.msgs k) (some { pc := .reply, caller }))
    | .reply =>
      .next ((s.goto (.client caller) (.recvCopy k)).goto (.rx k)
        (some { pc := if (s.socket k).msg then .lockIface else .top, caller }))
    | .lockIface => s.lock (.rx k) .iface (some { pc := .freePbuf, caller })
    | .freePbuf => .next (s.goto (.rx k) (some { pc := .unlockIface, caller }))
    | .unlockIface => .next (s.unlock (.rx k) .iface (some { pc := .lockFree, caller }))
    | .lockFree => s.lock (.rx k) (.msgs k) (some { pc := .poolFree, caller })
    | .poolFree => .next ((s.goto (.rx k) (some { pc := .unlockFree, caller })).setSocket k fun x => { x with msgs := x.msgs - 1 })
    | .unlockFree =>
      .next ((s.unlock (.rx k) (.msgs k) (some { pc := .top, caller })).setSocket k fun x => { x with msg := false })

/-- A thread of a process calls a function, with a socket of its process. -/
def callStep (cfg : UdpSyncConfig) (s : UdpSync) (c : Nat) (f : UdpCall) : Outcome Fault UdpSync :=
  let own := fun (k : Nat) => (s.socket k).opened = true ∧ (s.socket k).process = cfg.process c
  .guard ((s.pc (.client c) : ClientPc) = .idle) <|
    match f with
    | .createSocket => .next (s.goto (.client c) .createLock)
    | .bind k => .guard (own k) (.next (s.goto (.client c) (.bindCheck k)))
    | .send k => .guard (own k) (.next (s.goto (.client c) (.sendTake k)))
    | .recv k => .guard (own k) (.next (s.goto (.client c) (.recvCheck k)))
    | .sendSd k => .guard (own k) (.next (s.goto (.client c) (.sdLock k false)))
    | .recvSd k => .guard (own k) (.next (s.goto (.client c) (.sdLock k true)))

/-- A step of a thread of a process in `sel4osapi_udp_create_socket`, `_bind`, `_send` or `_recv`, other than awaiting a
reply. -/
def clientStep (cfg : UdpSyncConfig) (s : UdpSync) (c : Nat) : Outcome Fault UdpSync :=
  let p := cfg.process c
  match (s.pc (.client c) : ClientPc) with
  | .idle => .blocked
  | .createLock => s.lock (.client c) (.udpIface p) .createAlloc
  | .createAlloc => .ofExcept do
    check (s.sockets p < cfg.maxSockets) "socket"
    pure { s.goto (.client c) .createCall with sockets := Function.update s.sockets p (s.sockets p + 1) }
  | .createCall =>
    .guard ((s.pc .stack : StackPc) = .recv) (.next ((s.goto (.client c) .createAwait).goto .stack (.create c)))
  | .createAwait => .blocked
  | .createUnlock k =>
    .next ((s.unlock (.client c) (.udpIface p) .idle).setSocket k fun x => { x with opened := true })
  | .bindCheck k => .ofExcept do
    check ((s.socket k).port = false) "socket->port == 0"
    pure (s.goto (.client c) (.bindCall k))
  | .bindCall k =>
    .guard ((s.pc .stack : StackPc) = .recv) (.next ((s.goto (.client c) (.bindAwait k)).goto .stack (.bind c k)))
  | .bindAwait _ => .blocked
  | .bindStore k => .next ((s.goto (.client c) .idle).setSocket k fun x => { x with port := true })
  | .sdLock k r => s.lock (.client c) (.udpIface p) (.sdLookup k r)
  | .sdLookup k r => .next (s.goto (.client c) (.sdUnlock k r))
  | .sdUnlock k r => .next (s.unlock (.client c) (.udpIface p) (if r then .recvCheck k else .sendTake k))
  | .sendTake k => s.take (.client c) (.txBufAvail p) (.sendCopy k)
  | .sendCopy k => .next (s.goto (.client c) (.sendCall k))
  | .sendCall k =>
    .guard ((s.pc (.tx k) : Option (ServerPc TxPc)).map ServerPc.pc = some .recv)
      (.next ((s.goto (.client c) (.sendAwait k)).goto (.tx k) (some { pc := .lockIface, caller := c })))
  | .sendAwait _ => .blocked
  | .sendGive _ => .next (s.give (.client c) (.txBufAvail p) .idle)
  | .recvCheck k => .ofExcept do
    check ((s.socket k).port = true) "socket->port > 0"
    pure (s.goto (.client c) (.recvWait k))
  | .recvWait k =>
    .guard (s.socket k).aepRxData
      (.next ((s.goto (.client c) (.recvTake k)).setSocket k fun x => { x with aepRxData := false }))
  | .recvTake k => s.take (.client c) (.rxBufAvail p) (.recvCall k)
  | .recvCall k =>
    .guard ((s.pc (.rx k) : Option (ServerPc RxPc)).map ServerPc.pc = some .recv)
      (.next ((s.goto (.client c) (.recvAwait k)).goto (.rx k) (some { pc := .lockPeek, caller := c })))
  | .recvAwait _ => .blocked
  | .recvCopy k => .next (s.goto (.client c) (.recvGive k))
  | .recvGive _ => .next (s.give (.client c) (.rxBufAvail p) .idle)

/-- One step of the UDP subsystem. -/
def step (cfg : UdpSyncConfig) (s : UdpSync) : UdpSyncAction → Outcome Fault UdpSync
  | .interrupt => .next { s with irqAep := true }
  | .irq dest => s.irqStep dest
  | .stack lwerr => s.stackStep cfg lwerr
  | .tx k allocOk => s.txStep k allocOk
  | .rx k => s.rxStep k
  | .call c f => s.callStep cfg c f
  | .client c => s.clientStep cfg c

/-- The subsystem at its start: no socket, no thread in a call, the mutexes and the semaphores just created. -/
def initial : UdpSync where
  pc
    | .irq => .start
    | .stack => .recv
    | .tx _ => none
    | .rx _ => none
    | .client _ => .idle
  mutex _ := .free
  semaphore _ := 1
  socket _ :=
    { process := 0, opened := false, port := false, serverPort := false, registered := false, aepRxData := false, msgs := 0
      msg := false, remainingMsgs := 0 }
  servers := 0
  sockets _ := 0
  irqAep := false

end UdpSync

/-- The UDP subsystem as a transition system. -/
def udpSyncMachine (cfg : UdpSyncConfig) : Machine Fault UdpSync UdpSyncAction where
  init s := s = UdpSync.initial
  step := UdpSync.step cfg

end Sel4Osapi
