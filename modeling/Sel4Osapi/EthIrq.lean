import Sel4Osapi.Basic
import Sel4Osapi.Lib.Transition
import Sel4Osapi.Lib.Waiting

/-!
# network.c: the interrupts of an interface

`sel4osapi_eth_irq1_thread` waits on `iface->irq_aep`, has the driver handle the interrupts with the mutex of the interface
locked, and acknowledges them. Before its loop it signals the notification itself, in case the kernel has had an interrupt
that it could not deliver.

The kernel delivers an interrupt by signalling the notification, and masks the line until `seL4_IRQHandler_Ack`. What comes
while the line is masked is pending until then; whether the driver has settled what is pending is part of the action.
`CLEAR_BUFFERS` and the intervals of lwIP are part of the configuration. The clock counts milliseconds without end here, and
`sel4osapi_sysclock_get_time` returns them modulo 2^32; it goes on while the driver runs.
-/

namespace Sel4Osapi

open Transition Waiting

/-- What is configured, for `sel4osapi_eth_irq1_thread`. -/
structure EthIrqConfig where
  clearBuffers : Bool
  arpTmrInterval : Word
  ipTmrInterval : Word
  deriving DecidableEq, Repr

/-- Where `sel4osapi_eth_irq1_thread` stands: about to do what the name says. -/
inductive EthIrqPc where
  /-- `seL4_Send(iface->irq_aep)`, once -/
  | send
  /-- `while (thread->active)` -/
  | test
  /-- in `seL4_Wait(iface->irq_aep)` -/
  | wait
  | lock
  /-- with `CLEAR_BUFFERS`: `sel4osapi_sysclock_get_time` -/
  | getTime
  | handleIrq
  /-- with `CLEAR_BUFFERS`: the calls of `etharp_tmr` and of `ip_reass_tmr` -/
  | arpTmr | ipTmr
  | ack
  | unlock
  | returned
  deriving DecidableEq, Repr

/-- A call of a timer of lwIP: what the clock was at when the thread read it before, and at the call. -/
structure TimerCall where
  read : Nat
  called : Nat
  deriving DecidableEq, Repr

/-- An interface and its interrupts. -/
structure EthIrq where
  pc : EthIrqPc
  active : Bool
  /-- the notification `iface->irq_aep` is set -/
  irqAep : Bool
  /-- the line is masked, and an interrupt is pending on it -/
  masked : Bool
  pending : Bool
  /-- `iface->mutex`; the thread for the interrupts is `none` -/
  mutex : RecursiveMutex (Option Nat)
  /-- the milliseconds of the clock, and how many they were when it was last read -/
  clock : Nat
  read : Nat
  /-- the variables `current_time`, `elapsed_ip_t` and `elapsed_arp_t` -/
  currentTime : Word
  elapsedIpT : Word
  elapsedArpT : Word
  lastCheckedIpT : Word
  lastCheckedArpT : Word
  /-- how many interrupts there have been, and how many of them before the last call of `handle_irq_fn` -/
  raised : Nat
  handled : Nat
  /-- the calls of `etharp_tmr` and of `ip_reass_tmr` -/
  arpTmrs : List TimerCall
  ipTmrs : List TimerCall
  deriving DecidableEq, Repr

/-- What can happen. -/
inductive EthIrqAction where
  /-- the device raises an interrupt -/
  | interrupt
  /-- the thread takes a step; whether the driver settles what is pending, if it is called -/
  | thread (settled : Bool)
  /-- another thread locks or unlocks the mutex of the interface -/
  | lock (t : Nat)
  | unlock (t : Nat)
  /-- the clock goes on -/
  | tick (ms : Word)
  /-- `thread->active = 0` -/
  | stop
  deriving DecidableEq, Repr

namespace EthIrq

/-- The kernel delivers an interrupt. -/
def deliver (s : EthIrq) : EthIrq := { s with irqAep := true, masked := true, pending := false }

/-- An interrupt comes. -/
def interrupt (s : EthIrq) : EthIrq :=
  if s.masked then { s with raised := s.raised + 1, pending := true }
  else { s with raised := s.raised + 1 }.deliver

/-- `seL4_IRQHandler_Ack(iface->irq)`. -/
def irqHandlerAck (s : EthIrq) : EthIrq := if s.pending then s.deliver else { s with masked := false }

/-- `sel4osapi_sysclock_get_time()`. -/
def getTime (s : EthIrq) : Word := UInt32.ofNat s.clock

/-- `sel4osapi_eth_irq1_thread`. -/
def threadStep (cfg : EthIrqConfig) (s : EthIrq) (settled : Bool) : Outcome Fault EthIrq :=
  match s.pc with
  | .send => .next { s with irqAep := true, pc := .test }
  | .test => .next { s with pc := if s.active then .wait else .returned }
  | .wait => .guard s.irqAep (.next { s with irqAep := false, pc := .lock })
  | .lock =>
    match s.mutex.lock none with
    | none => .blocked
    | some mutex => .next { s with mutex := mutex, pc := if cfg.clearBuffers then .getTime else .handleIrq }
  | .getTime => .next { s with
    read := s.clock, currentTime := s.getTime, elapsedIpT := s.getTime - s.lastCheckedIpT
    elapsedArpT := s.getTime - s.lastCheckedArpT, pc := .handleIrq }
  | .handleIrq => .next { s with
    handled := s.raised, pending := s.pending && !settled, pc := if cfg.clearBuffers then .arpTmr else .ack }
  | .arpTmr =>
    if s.elapsedArpT > cfg.arpTmrInterval then
      .next { s with arpTmrs := s.arpTmrs ++ [⟨s.read, s.clock⟩], lastCheckedArpT := s.currentTime, pc := .ipTmr }
    else .next { s with pc := .ipTmr }
  | .ipTmr =>
    if s.elapsedIpT > cfg.ipTmrInterval then
      .next { s with ipTmrs := s.ipTmrs ++ [⟨s.read, s.clock⟩], lastCheckedIpT := s.currentTime, pc := .ack }
    else .next { s with pc := .ack }
  | .ack => .next { s.irqHandlerAck with pc := .unlock }
  | .unlock => .next { s with mutex := s.mutex.unlock none, pc := .test }
  | .returned => .blocked

/-- One step of the interface. -/
def step (cfg : EthIrqConfig) (s : EthIrq) : EthIrqAction → Outcome Fault EthIrq
  | .interrupt => .next s.interrupt
  | .thread settled => s.threadStep cfg settled
  | .lock t =>
    match s.mutex.lock (some t) with
    | none => .blocked
    | some mutex => .next { s with mutex := mutex }
  | .unlock t => .next { s with mutex := s.mutex.unlock (some t) }
  | .tick ms => .next { s with clock := s.clock + ms.toNat }
  | .stop => .next { s with active := false }

/-- The interface was created, and its thread started. There may have been interrupts before the kernel had a notification to
signal, and these have left the line masked. -/
structure Init (s : EthIrq) : Prop where
  pc : s.pc = .send
  active : s.active = true
  irqAep : s.irqAep = false
  pending : s.pending = true → s.masked = true
  mutex : s.mutex = RecursiveMutex.free
  lastCheckedIpT : s.lastCheckedIpT = 0
  lastCheckedArpT : s.lastCheckedArpT = 0
  handled : s.handled = 0
  arpTmrs : s.arpTmrs = []
  ipTmrs : s.ipTmrs = []

end EthIrq

/-- The interrupts of an interface as a transition system. -/
def ethIrqMachine (cfg : EthIrqConfig) : Machine Fault EthIrq EthIrqAction where
  init := EthIrq.Init
  step := EthIrq.step cfg

end Sel4Osapi
