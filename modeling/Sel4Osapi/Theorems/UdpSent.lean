import Sel4Osapi.Lib.History
import Sel4Osapi.Theorems.UdpProcess

/-!
# What is sent

A call of `sel4osapi_udp_send` passes its datagram to `udp_sendto` once, or not at all when there is no packet buffer for it,
and returns what became of it. The calls are followed by a history: what a thread asks for, what the tx thread of its socket
does for it, and what the call returns. `UdpProcess.SendPhase` says how much of a call is in the history at each place of the
thread and of the tx thread that serves it.
-/

namespace Sel4Osapi

open Transition Semaphore

/-- What happens to a call of `sel4osapi_udp_send`. -/
inductive SendEvent where
  /-- a thread calls it -/
  | asked (socket : Nat) (msg : List UInt8) (addr : Word) (port : UInt16)
  /-- `pbuf_alloc` returns null -/
  | noPbuf
  /-- `udp_sendto` is called, and returns -/
  | sent (socket : Nat) (packet : List UInt8) (addr : Word) (port : UInt16) (lwerr : Int8)
  | returned (error : Int)
  deriving DecidableEq, Repr

/-- A call of `sel4osapi_udp_send`: its arguments, and what `udp_sendto` returned if there was a packet buffer. -/
structure SendCall where
  socket : Nat
  msg : List UInt8
  addr : Word
  port : UInt16
  lwerr : Option Int8
  deriving DecidableEq, Repr

namespace SendCall

/-- What is done for a call. -/
def outcome (x : SendCall) : SendEvent :=
  match x.lwerr with
  | none => .noPbuf
  | some lwerr => .sent x.socket x.msg x.addr x.port lwerr

/-- What happens to a call. -/
def events (x : SendCall) : List SendEvent :=
  [.asked x.socket x.msg x.addr x.port, x.outcome, .returned (x.lwerr.getD errMem).toInt]

end SendCall

/-- The call that a thread is in. -/
def UdpThread.sendCall (t : UdpThread) (lwerr : Option Int8) : SendCall :=
  { socket := t.socket, msg := t.msg, addr := t.addr, port := t.port, lwerr := lwerr }

/-- The tx thread has done what there is to do for the call it serves. -/
def TxPc.passed : TxPc → Bool
  | .unlockIface | .reply => true
  | _ => false

namespace UdpProcess

end UdpProcess

namespace UdpProcess

variable {cfg : UdpConfig} {s s' : UdpProcess} {c d i : Nat} {current : List SendEvent}

/-- What is in the history of the call that a thread is in. -/
def SendPhase (s : UdpProcess) (c : Nat) (current : List SendEvent) : Prop :=
  let t := s.threads c
  match t.pc with
  | .sendTake | .sendCopy _ | .sendCall => current = (t.sendCall none).events.take 1
  | .sendAwait =>
    let x := s.tx t.socket
    x.caller = c ∧ x.pc ≠ .recv ∧
      if x.pc.passed then ∃ lwerr : Option Int8, x.lwerr = lwerr.getD errMem ∧ current = (t.sendCall lwerr).events.take 2
      else current = (t.sendCall none).events.take 1
  | .sendGive => ∃ lwerr : Option Int8, t.error = (lwerr.getD errMem).toInt ∧ current = (t.sendCall lwerr).events.take 2
  | _ => current = []

/-- Outside `sel4osapi_udp_send` there is no call. -/
theorem sendPhase_of_not_inSend (h : (s.threads c).pc.inSend = false) : s.SendPhase c current ↔ current = [] := by
  unfold SendPhase
  cases hpc : (s.threads c).pc <;> simp_all [UdpPc.inSend]

/-- The step is one of another thread, and not of the tx thread that serves this one. -/
theorem SendPhase.frame (h : s.SendPhase c current) (hthread : s'.threads c = s.threads c)
    (htx : (s.threads c).pc = .sendAwait → s'.tx (s.threads c).socket = s.tx (s.threads c).socket) :
    s'.SendPhase c current := by
  unfold SendPhase at h ⊢
  rw [hthread]
  cases hpc : (s.threads c).pc with
  | sendAwait =>
    simp only [hpc] at h ⊢
    rw [htx hpc]
    exact h
  | _ =>
    simp only [hpc] at h ⊢
    exact h

/-- The history of every thread is that of its finished calls and of the one it is in. -/
def SendOk (s : UdpProcess) (h : List (Nat × SendEvent)) (c : Nat) : Prop :=
  ∃ (finished : List SendCall) (current : List SendEvent),
    History.events c h = finished.flatMap SendCall.events ++ current ∧ s.SendPhase c current

variable {h : List (Nat × SendEvent)}

/-- Nothing happens to a call that the history shows. -/
theorem SendOk.quiet (hok : s.SendOk h c) (hphase : ∀ current, s.SendPhase c current → s'.SendPhase c current) :
    s'.SendOk h c := by
  obtain ⟨finished, current, hevents, hp⟩ := hok
  exact ⟨finished, current, hevents, hphase current hp⟩

/-- Something happens to the call of a thread. -/
theorem SendOk.event (hok : s.SendOk h c) {ev : SendEvent}
    (hphase : ∀ current, s.SendPhase c current → s'.SendPhase c (current ++ [ev])) : s'.SendOk (h ++ [(c, ev)]) c := by
  obtain ⟨finished, current, hevents, hp⟩ := hok
  exact ⟨finished, current ++ [ev], by rw [History.events_snoc_self, hevents, List.append_assoc], hphase current hp⟩

/-- Something happens to the call of another thread. -/
theorem SendOk.other (hok : s.SendOk h c) (hne : c ≠ d) (ev : SendEvent) : s.SendOk (h ++ [(d, ev)]) c := by
  obtain ⟨finished, current, hevents, hp⟩ := hok
  exact ⟨finished, current, by rw [History.events_snoc_of_ne hne, hevents], hp⟩

/-- The call of a thread returns. -/
theorem SendOk.returns (hok : s.SendOk h c) (hpc : (s.threads c).pc = .sendGive) (hpc' : (s'.threads c).pc.inSend = false) :
    s'.SendOk (h ++ [(c, .returned (s.threads c).error)]) c := by
  obtain ⟨finished, current, hevents, hp⟩ := hok
  simp only [SendPhase, hpc] at hp
  obtain ⟨lwerr, herror, rfl⟩ := hp
  refine ⟨finished ++ [(s.threads c).sendCall lwerr], [], ?_, (sendPhase_of_not_inSend hpc').mpr rfl⟩
  rw [History.events_snoc_self, hevents, List.flatMap_append, List.append_nil, List.append_assoc, herror]
  rfl

end UdpProcess

end Sel4Osapi
