import Sel4Osapi.Pool
import Sel4Osapi.Lib.Transition

/-!
# udp.c: the receive side of a bound socket

The callback `udprecv`, which lwIP calls with every datagram for the socket, puts it in the message queue of the socket, and
`sel4osapi_udp_socket_rx_thread` serves the calls of the clients from the head of that queue. The two share the queue, a pool of
`sel4osapi_udp_message_t` behind `msgs_mutex`, and the notification `aep_rx_data`. Every access to shared data is a step of its
own, so a run is any interleaving of the rx thread, of any number of calls of `udprecv` and of the clients.

lwIP hands the ownership of a packet buffer to the callback. A packet buffer is named by the number of the call of `udprecv` it
was handed to: a pointer to it that is used after it was freed still names that buffer. A chain of packet buffers has at most
65535 bytes, its total length being a `u16_t`. Mutexes are those of libsel4sync: `lock` waits until the mutex is free.
-/

namespace Sel4Osapi

open Transition

/-- `SEL4OSAPI_UDP_MAX_MSGS_PER_CLIENT`. -/
def udpMaxMsgsPerClient : Int := 1000

/-- `sel4osapi_udp_message_t`. -/
structure UdpMessage where
  pbuf : Option Nat
  addr : Word
  port : UInt16
  deriving DecidableEq, Repr

/-- Where a call of `udprecv` stands. -/
inductive UdprecvPc where
  /-- not called yet -/
  | idle
  | lock
  | alloc
  /-- `m` is allocated, its fields are to be written -/
  | store (m : Ptr)
  /-- there was no entry: the packet buffer is to be freed -/
  | drop
  | unlock
  | signal
  | done
  deriving DecidableEq, Repr

/-- A call of `udprecv`: its arguments, with the bytes of each buffer of the chain `p`, and how often `pbuf_free` was called on
`p`. -/
structure Udprecv where
  p : List (List UInt8)
  addr : Word
  port : UInt16
  freed : Nat
  pc : UdprecvPc
  deriving DecidableEq, Repr

/-- Where the rx thread stands: about to do what the name says. -/
inductive RxPc where
  /-- at the head of the loop -/
  | top
  /-- `seL4_Send(aep_rx_data)`, with messages remaining -/
  | signalMore
  /-- in `seL4_Recv(ep_rx_ready)` -/
  | recv
  | lockPeek
  | peek
  | unlockPeek
  /-- reads `port`, `addr` and `pbuf` of the message -/
  | load
  /-- in the loop that copies the packet into `rx_buf` -/
  | copy
  /-- "awaken without messages" -/
  | unlockEmpty
  | reply
  | lockIface
  | freePbuf
  | unlockIface
  | lockFree
  | poolFree
  | unlockFree
  deriving DecidableEq, Repr

/-- Who holds `msgs_mutex`. -/
inductive MsgsHolder where
  | rx
  | udprecv (k : Nat)
  deriving DecidableEq, Repr

/-- Who holds the mutex of an interface: the rx or the tx thread of a socket, or the thread of the ethernet driver. -/
inductive IfaceHolder where
  | rx (socket : Nat)
  | tx (socket : Nat)
  | driver
  deriving DecidableEq, Repr

/-- A datagram as the rx thread replied with it: the packet buffer, the bytes the loop copied into `rx_buf`, and the three
message registers of the reply. -/
structure Served where
  pbuf : Nat
  data : List UInt8
  packetLen : Nat
  port : UInt16
  addr : Word
  deriving DecidableEq, Repr

/-- The receive side of a socket: `sel4osapi_udp_socket_server_t` as far as it goes, the calls of `udprecv`, the rx thread
with its variables, and what has happened so far. -/
structure RxServer where
  msgs : Pool (Ptr → UdpMessage)
  msgsMutex : Option MsgsHolder
  /-- the notification is set -/
  aepRxData : Bool
  /-- the calls of `udprecv`, by number -/
  calls : Nat → Udprecv
  arrivals : Nat
  pc : RxPc
  /-- the client whose call is being served -/
  caller : Nat
  msg : Option Ptr
  packetLen : Nat
  port : UInt16
  ipaddr : Word
  remainingMsgs : Int
  /-- the chain the copy loop walks, its buffers still to be copied, and how many bytes of the first of them are -/
  chain : Option Nat
  q : List (List UInt8)
  off : Nat
  /-- the bytes the copy loop has written -/
  copied : List UInt8
  /-- the datagrams put in the queue, and those refused, in order -/
  accepted : List Nat
  dropped : List Nat
  /-- how many entries have been returned to the pool -/
  released : Nat
  /-- the datagrams replied with, in order -/
  served : List Served

/-- What the rx thread shares with the rest of its process and of the stack: the buffer `rx_buf` of the client, and the
mutex of the interface. -/
structure RxShared where
  rxBuf : Nat → UInt8
  ifaceMutex : Option IfaceHolder

/-- What can happen on the receive side of a socket. -/
inductive RxAction where
  /-- lwIP calls `udprecv` -/
  | arrive (p : List (List UInt8)) (addr : Word) (port : UInt16)
  /-- a call of `udprecv` takes a step -/
  | udprecv (k : Nat)
  /-- a client in `seL4_Recv(aep_rx_data)` consumes the notification -/
  | consume
  /-- the call of a client on `ep_rx_ready` is received -/
  | call (caller : Nat)
  /-- the rx thread takes a step -/
  | rx
  deriving DecidableEq, Repr

namespace RxServer

/-- A call of `udprecv` goes on to another place. -/
def setCallPc (s : RxServer) (k : Nat) (pc : UdprecvPc) : Nat → Udprecv :=
  Function.update s.calls k { s.calls k with pc := pc }

/-- `pbuf_free` on the packet buffer of a call of `udprecv`. -/
def pbufFree (calls : Nat → Udprecv) (k : Nat) : Nat → Udprecv :=
  Function.update calls k { calls k with freed := (calls k).freed + 1 }

/-- `udprecv(arg, pcb, p, addr, port)`, a step of the `k`-th call. -/
def udprecvStep (s : RxServer) (k : Nat) : Outcome Fault RxServer :=
  match (s.calls k).pc with
  | .idle => .blocked
  | .lock =>
    .guard (s.msgsMutex = none) (.next { s with msgsMutex := some (.udprecv k), calls := s.setCallPc k .alloc })
  | .alloc => .ofExcept do
    let (m, msgs) ← simplePoolAlloc s.msgs
    match m with
    | none => pure { s with msgs := msgs, calls := s.setCallPc k .drop, dropped := s.dropped ++ [k] }
    | some m => pure { s with msgs := msgs, calls := s.setCallPc k (.store m), accepted := s.accepted ++ [k] }
  | .store m =>
    let mem := Function.update s.msgs.mem m { pbuf := some k, addr := (s.calls k).addr, port := (s.calls k).port }
    .next { s with msgs := { s.msgs with mem := mem }, calls := s.setCallPc k .unlock }
  | .drop => .next { s with calls := pbufFree (s.setCallPc k .unlock) k }
  | .unlock => .next { s with msgsMutex := none, calls := s.setCallPc k .signal }
  | .signal => .next { s with aepRxData := true, calls := s.setCallPc k .done }
  | .done => .blocked

/-- `sel4osapi_udp_socket_rx_thread`, a step of it other than in `seL4_Recv`. -/
def rxStep (rxBufSize : Nat) (self : IfaceHolder) (sh : RxShared) (s : RxServer) : Outcome Fault (RxShared × RxServer) :=
  match s.pc with
  | .top =>
    .next (sh, { s with
      packetLen := 0, port := 0, ipaddr := 0, pc := if s.remainingMsgs > 0 then .signalMore else .recv })
  | .signalMore => .next (sh, { s with aepRxData := true, pc := .recv })
  | .recv => .blocked
  | .lockPeek => .guard (s.msgsMutex = none) (.next (sh, { s with msgsMutex := some .rx, pc := .peek }))
  | .peek =>
    match s.msgs.entries with
    | none => .next (sh, { s with pc := .unlockEmpty })
    | some entry => .ofExcept do
      let msg := (s.msgs.nodes entry).el
      check ((s.msgs.mem msg).pbuf ≠ none) "msg->pbuf"
      pure (sh, { s with msg := some msg, remainingMsgs := simplePoolGetCurrentSize s.msgs, pc := .unlockPeek })
  | .unlockPeek => .next (sh, { s with msgsMutex := none, pc := .load })
  | .load =>
    match s.msg with
    | none => .fault .nullPointer
    | some msg =>
      let m := s.msgs.mem msg
      .next (sh, { s with
        port := m.port, ipaddr := m.addr, chain := m.pbuf, q := m.pbuf.elim [] fun k => (s.calls k).p, off := 0, copied := []
        pc := .copy })
  | .copy =>
    match s.q with
    | seg :: q =>
      match seg[s.off]? with
      | some b =>
        .next ({ sh with rxBuf := Function.update sh.rxBuf (s.packetLen + s.off) b },
          { s with off := s.off + 1, copied := s.copied ++ [b] })
      | none => .next (sh, { s with packetLen := s.packetLen + seg.length, q := q, off := 0 })
    | [] => .ofExcept do
      check (s.packetLen ≤ rxBufSize) "packet_len <= server->client->rx_buf_size"
      pure (sh, { s with remainingMsgs := s.remainingMsgs - 1, pc := .reply })
  | .unlockEmpty => .next (sh, { s with msgsMutex := none, pc := .reply })
  | .reply =>
    match s.msg with
    | none => .next (sh, { s with pc := .top })
    | some _ =>
      let reply : List Served := s.chain.toList.map fun k =>
        { pbuf := k, data := s.copied, packetLen := s.packetLen, port := s.port, addr := s.ipaddr }
      .next (sh, { s with served := s.served ++ reply, pc := .lockIface })
  | .lockIface =>
    .guard (sh.ifaceMutex = none) (.next ({ sh with ifaceMutex := some self }, { s with pc := .freePbuf }))
  | .freePbuf =>
    match s.msg.bind fun msg => (s.msgs.mem msg).pbuf with
    | none => .next (sh, { s with pc := .unlockIface })
    | some k => .next (sh, { s with calls := pbufFree s.calls k, pc := .unlockIface })
  | .unlockIface => .next ({ sh with ifaceMutex := none }, { s with pc := .lockFree })
  | .lockFree => .guard (s.msgsMutex = none) (.next (sh, { s with msgsMutex := some .rx, pc := .poolFree }))
  | .poolFree =>
    match s.msg with
    | none => .fault .nullPointer
    | some msg => .ofExcept do
      let (error, msgs) ← simplePoolFree s.msgs msg
      check (error = 0) "error == 0"
      pure (sh, { s with msgs := msgs, released := s.released + 1, pc := .unlockFree })
  | .unlockFree => .next (sh, { s with msgsMutex := none, msg := none, pc := .top })

/-- One step on the receive side of a socket. -/
def step (rxBufSize : Nat) (self : IfaceHolder) (sh : RxShared) (s : RxServer) : RxAction → Outcome Fault (RxShared × RxServer)
  | .arrive p addr port =>
    .guard (p.flatten.length < 65536) (.next (sh, { s with
      calls := Function.update s.calls s.arrivals { p := p, addr := addr, port := port, freed := 0, pc := .lock }
      arrivals := s.arrivals + 1 }))
  | .udprecv k => (s.udprecvStep k).map fun s => (sh, s)
  | .consume => .guard s.aepRxData (.next (sh, { s with aepRxData := false }))
  | .call caller => .guard (s.pc = .recv) (.next (sh, { s with caller := caller, pc := .lockPeek }))
  | .rx => s.rxStep rxBufSize self sh

/-- A socket just bound: a new pool of messages, and the rx thread at its start. -/
structure Init (s : RxServer) : Prop where
  msgs : ∃ (malloc : Nat → Ptr) (nodes : NodeStore) (mem : Ptr → UdpMessage) (elSize : Nat), Function.Injective malloc ∧
    simplePoolNew malloc nodes mem udpMaxMsgsPerClient elSize none none = .ok s.msgs
  msgsMutex : s.msgsMutex = none
  aepRxData : s.aepRxData = false
  calls : ∀ k, (s.calls k).pc = .idle ∧ (s.calls k).freed = 0
  arrivals : s.arrivals = 0
  pc : s.pc = .top
  msg : s.msg = none
  remainingMsgs : s.remainingMsgs = 0
  accepted : s.accepted = []
  dropped : s.dropped = []
  released : s.released = 0
  served : s.served = []

end RxServer

/-- The receive side of a socket as a transition system. The shared data is whatever the other threads have made of it by
the time of a step, so it is part of the action. -/
def rxMachine (rxBufSize : Nat) (self : IfaceHolder) : Machine Fault RxServer (RxShared × RxAction) where
  init := RxServer.Init
  step s a := (s.step rxBufSize self a.1 a.2).map Prod.snd

end Sel4Osapi
