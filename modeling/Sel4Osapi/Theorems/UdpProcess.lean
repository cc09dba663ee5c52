import Sel4Osapi.Lemmas.UdpProcess
import Sel4Osapi.Theorems.UdpRx
import Sel4Osapi.Theorems.UdpTx

/-!
# A process that uses the UDP stack: no wake-up is lost, and no two calls mix in a buffer

Both results hold of every interleaving of any number of threads, of the servers of any number of sockets and of the callbacks;
the second of those in which the messages and the datagrams have the lengths that lwIP and `rx_buf` have room for.
-/

namespace Sel4Osapi

open Transition Semaphore

/-! ## A process at its start, and one with a datagram -/

/-- The buffers of the default configuration. -/
def defaultBuffers : UdpConfig where
  rxBuf := 0
  rxBufSize := 16384
  txBuf := 16384
  txBufSize := 16384
  iface := id
  apart := by decide

/-- A process whose sockets have just been bound. -/
def UdpProcess.atStart (server : RxServer) : UdpProcess where
  rx _ := server
  tx _ := ⟨.recv, 0, 0, 0, 0, [], 0⟩
  threads _ := ⟨.idle, 0, [], 0, 0, 0, 0, 0, none⟩
  mem _ := 0
  txBufAvail := 1
  rxBufAvail := 1
  ifaceMutex _ := none

theorem UdpProcess.atStart_init {server : RxServer} (h : server.Init) : (atStart server).Init :=
  ⟨fun _ => h, fun _ => rfl, fun _ => rfl, rfl, rfl, fun _ => rfl⟩

/-- A process at its start. -/
theorem exists_process_init : ∃ s : UdpProcess, s.Init := by
  obtain ⟨server, hi⟩ := exists_rx_init
  exact ⟨_, UdpProcess.atStart_init hi⟩

/-- A step on the receive side of a socket that does not depend on what it shares is a step of the process. -/
theorem UdpProcess.exists_rxStep (cfg : UdpConfig) (s : UdpProcess) {i : Nat} {a : RxAction} {server : RxServer}
    (h : ∀ sh, (s.rx i).step cfg.rxBufSize.toNat (.rx i) sh a = .next (sh, server)) :
    ∃ s', s.rxStep cfg i a = .next s' ∧ s'.rx i = server ∧ s'.threads = s.threads ∧ s'.rxBufAvail = s.rxBufAvail := by
  have hs : s.rxStep cfg i a = .next { s with
      rx := Function.update s.rx i server
      mem := s.setRxBuf cfg (s.rxBuf cfg)
      ifaceMutex := Function.update s.ifaceMutex (cfg.iface i) (s.ifaceMutex (cfg.iface i)) } := by
    rw [UdpProcess.rxStep, h]
    rfl
  exact ⟨_, hs, by simp, rfl, rfl⟩

/-- What lwIP and `udprecv` do on the receive side of a socket is a run of the process. -/
theorem UdpProcess.exists_rx_leadsTo {cfg : UdpConfig} {s : UdpProcess} (hr : (udpMachine cfg).Reachable s) {i : Nat}
    {as : List RxAction} {server : RxServer} (h : (s.rx i).LeadsTo cfg.rxBufSize.toNat (.rx i) as server)
    (has : ∀ a ∈ as, ∃ ua, ∀ s : UdpProcess, s.step cfg ua = s.rxStep cfg i a) :
    ∃ s', (udpMachine cfg).Reachable s' ∧ s'.rx i = server ∧ s'.threads = s.threads ∧ s'.rxBufAvail = s.rxBufAvail := by
  induction as generalizing s with
  | nil => exact ⟨s, hr, h, rfl, rfl⟩
  | cons a as ih =>
    obtain ⟨server₁, hst, h⟩ := h
    obtain ⟨s₁, hs₁, hrx₁, hth₁, hav₁⟩ := s.exists_rxStep cfg hst
    obtain ⟨ua, hua⟩ := has a List.mem_cons_self
    obtain ⟨s', hr', hrx', hth', hav'⟩ :=
      ih (hr.step ua ((hua s).trans hs₁)) (hrx₁ ▸ h) fun a' ha' => has a' (List.mem_cons_of_mem _ ha')
    exact ⟨s', hr', hrx', hth'.trans hth₁, hav'.trans hav₁⟩

/-- A run after which a given datagram is the queue of socket 0, its notification is set, and its rx thread waits for a call. -/
theorem exists_notified (cfg : UdpConfig) {p : List (List UInt8)} (hp : p.flatten.length < 65536) :
    ∃ (s : UdpProcess) (k : Nat), (udpMachine cfg).Reachable s ∧ (∀ c, (s.threads c).pc = .idle) ∧ s.rxBufAvail = 1 ∧
      (s.rx 0).pc = .recv ∧ (s.rx 0).aepRxData = true ∧ (s.rx 0).msgsMutex = none ∧ (s.rx 0).accepted = [k] ∧
      (s.rx 0).released = 0 ∧ ((s.rx 0).calls k).p = p := by
  obtain ⟨s₀, hi⟩ := exists_process_init
  have hrx := hi.rx 0
  -- the rx thread gets to `seL4_Recv`
  obtain ⟨s₁, hs₁, hrx₁, hth₁, hav₁⟩ : ∃ s₁, s₀.rxStep cfg 0 .rx = .next s₁ ∧
      s₁.rx 0 = { s₀.rx 0 with packetLen := 0, port := 0, ipaddr := 0, pc := .recv } ∧ s₁.threads = s₀.threads ∧
      s₁.rxBufAvail = s₀.rxBufAvail :=
    s₀.exists_rxStep cfg fun sh => by simp [RxServer.step, RxServer.rxStep, hrx.pc, hrx.remainingMsgs]
  have hr₁ : (udpMachine cfg).Reachable s₁ :=
    (Machine.Reachable.init hi).step (.rx 0) (by simp [udpMachine, UdpProcess.step, hs₁, hrx.pc])
  obtain ⟨past, queue, free, live, hinv⟩ := (process_inv hr₁).rx 0
  have hqueue : queue = [] := by
    have hacc := hinv.accepted
    rw [hrx₁] at hacc
    exact (List.append_eq_nil_iff.mp (hacc.symm.trans hrx.accepted)).2
  subst hqueue
  -- the datagram arrives, and its call of `udprecv` returns
  obtain ⟨msgs, hto⟩ :=
    hinv.exists_enqueued (by rw [hrx₁]; exact hrx.msgsMutex) (by simp) hp 5 7 cfg.rxBufSize.toNat (.rx 0)
  obtain ⟨s₂, hr₂, hrx₂, hth₂, hav₂⟩ := UdpProcess.exists_rx_leadsTo hr₁ hto (by
    intro a ha
    rcases List.mem_cons.mp ha with rfl | ha
    · exact ⟨.arrive 0 p 5 7, fun _ => rfl⟩
    · rw [List.eq_of_mem_replicate ha]
      exact ⟨.udprecv 0 _, fun _ => rfl⟩)
  refine ⟨s₂, (s₁.rx 0).arrivals, hr₂, ?_, ?_, ?_⟩
  · rw [hth₂, hth₁]
    exact hi.threads
  · rw [hav₂, hav₁]
    exact hi.rxBufAvail
  · simp [hrx₂, hrx₁, hrx.accepted, hrx.released]

/-- A run after which the rx thread of socket 0 waits for a call, and there is a datagram in the queue. -/
theorem exists_waiting (cfg : UdpConfig) : ∃ s : UdpProcess, (udpMachine cfg).Reachable s ∧ (s.rx 0).pc = .recv ∧
    (s.rx 0).msgs.entries ≠ none := by
  obtain ⟨s, k, hr, -, -, hpc, -, -, hacc, hrel, -⟩ := exists_notified cfg (p := [[1, 2], [3]]) (by decide)
  refine ⟨s, hr, hpc, ?_⟩
  intro hnone
  -- one datagram accepted and none released: the queue is not empty
  obtain ⟨past, queue, free, live, hinv⟩ := (process_inv hr).rx 0
  have hlive := hinv.queued.rep.liveList.head_none_iff.mp hnone
  have hlen := hinv.queued.holds.length_eq
  have hcount := congrArg List.length hinv.accepted
  rw [hacc, List.length_append, ← hlen, hlive, ← hinv.released, hrel] at hcount
  simp at hcount

/-! ## Wake-ups -/

/-- When the rx thread of a socket is in `seL4_Recv` and the queue is not empty, the notification is set, or a thread has
consumed one and has not been served, or a call of `udprecv` has put its datagram in the queue and has not signalled: no
datagram is left in the queue with every receiver asleep. -/
theorem udp_no_lost_wakeup (cfg : UdpConfig) (s : UdpProcess) (hr : (udpMachine cfg).Reachable s) (i : Nat)
    (hpc : (s.rx i).pc = .recv) (hq : (s.rx i).msgs.entries ≠ none) :
    (s.rx i).aepRxData = true ∨ (∃ c, (s.threads c).pc.pending = true ∧ (s.threads c).socket = i) ∨
      ∃ k ∈ (s.rx i).accepted, ((s.rx i).calls k).pc.unsignalled = true := by
  have h := process_inv hr
  obtain ⟨past, queue, free, live, hinv⟩ := h.rx i
  have hwake := h.wake i
  rw [WakeInv, hpc] at hwake
  have hlive : live ≠ [] := fun hlive => hq (hinv.queued.rep.liveList.head_none_iff.mpr hlive)
  have hpos : 0 < (s.rx i).queued := by
    have hlen := hinv.queued.holds.length_eq
    have := List.length_pos_iff.mpr hlive
    rw [RxServer.queued, hinv.accepted, hinv.released, List.length_append]
    omega
  rcases hwake.2.2 hpos with haep | ⟨c, hp, hs, -⟩ | hcall
  · exact Or.inl haep
  · exact Or.inr (Or.inl ⟨c, hp, hs⟩)
  · exact Or.inr (Or.inr hcall)

/-- The datagram of `exists_waiting` is not left alone. -/
theorem udp_no_lost_wakeup_waiting : ∃ s : UdpProcess, (udpMachine defaultBuffers).Reachable s ∧
    (s.rx 0).pc = .recv ∧ (s.rx 0).msgs.entries ≠ none ∧
    ((s.rx 0).aepRxData = true ∨ (∃ c, (s.threads c).pc.pending = true ∧ (s.threads c).socket = 0) ∨
      ∃ k ∈ (s.rx 0).accepted, ((s.rx 0).calls k).pc.unsignalled = true) := by
  obtain ⟨s, hr, hpc, hq⟩ := exists_waiting defaultBuffers
  exact ⟨s, hr, hpc, hq, udp_no_lost_wakeup _ s hr 0 hpc hq⟩

/-! ## The buffers -/

/-- The thread goes on with its call, or stays where it is: the arguments of its call are the same. -/
def UdpThread.Continues (t t' : UdpThread) : Prop :=
  t'.pc ≠ .idle ∧ t'.socket = t.socket ∧ t'.pc.inSend = t.pc.inSend ∧
    (t.pc.inSend = true → t'.msg = t.msg ∧ t'.addr = t.addr ∧ t'.port = t.port)

/-- What a step of a thread does to the threads: the others stay, and it goes on with its call or returns from it and gives the
semaphore back. -/
theorem UdpProcess.threadStep_threads {cfg : UdpConfig} {s s' : UdpProcess} {d : Nat} (hs : s.threadStep cfg d = .next s') :
    ∃ t', s'.threads = Function.update s.threads d t' ∧
      ((s.threads d).Continues t' ∨
        ((s.threads d).pc = .sendGive ∧ t'.pc = .idle ∧ s'.txBufAvail = s.txBufAvail + 1) ∨
        ((s.threads d).pc = .recvGive ∧ t'.pc = .idle ∧ s'.rxBufAvail = s.rxBufAvail + 1)) := by
  unfold UdpProcess.threadStep at hs
  cases hp : (s.threads d).pc with
  | idle | sendAwait | recvAwait => simp [hp] at hs
  | sendTake | recvTake =>
    simp only [hp, Outcome.guard_eq_next, Outcome.next.injEq] at hs
    obtain ⟨-, rfl⟩ := hs
    exact ⟨_, rfl, Or.inl (by simp [UdpThread.Continues, hp, UdpPc.inSend])⟩
  | sendCall =>
    simp only [hp, Outcome.guard_eq_next, Outcome.ofExcept_eq_next] at hs
    obtain ⟨server, -, hs⟩ := bind_ok hs.2
    cases hs
    exact ⟨_, rfl, Or.inl (by simp [UdpThread.Continues, hp, UdpPc.inSend])⟩
  | sendCopy j =>
    simp only [hp] at hs
    split at hs
    all_goals
      cases hs
      exact ⟨_, rfl, Or.inl (by simp [UdpThread.Continues, hp, UdpPc.inSend])⟩
  | sendGive =>
    simp only [hp, Outcome.next.injEq] at hs
    subst hs
    exact ⟨_, rfl, Or.inr (Or.inl ⟨rfl, rfl, rfl⟩)⟩
  | recvWait | recvCall =>
    simp only [hp, UdpProcess.rxStep, Outcome.map_eq_next] at hs
    obtain ⟨s₁, ⟨⟨sh, server⟩, -, rfl⟩, rfl⟩ := hs
    exact ⟨_, rfl, Or.inl (by simp [UdpThread.Continues, hp, UdpPc.inSend])⟩
  | recvCheck =>
    simp only [hp] at hs
    split at hs
    · cases hs
      exact ⟨_, rfl, Or.inl (by simp [UdpThread.Continues, hp, UdpPc.inSend])⟩
    · split at hs
      all_goals
        cases hs
        exact ⟨_, rfl, Or.inl (by simp [UdpThread.Continues, hp, UdpPc.inSend])⟩
  | recvCopy j =>
    simp only [hp] at hs
    split at hs
    all_goals
      cases hs
      exact ⟨_, rfl, Or.inl (by simp [UdpThread.Continues, hp, UdpPc.inSend])⟩
  | recvGive =>
    simp only [hp, Outcome.next.injEq] at hs
    subst hs
    exact ⟨_, rfl, Or.inr (Or.inr ⟨rfl, rfl, rfl⟩)⟩

/-- What a step of the tx thread of a socket leaves as it is: the receive side, and the threads unless it replies to one. -/
theorem UdpProcess.txStep_frame {cfg : UdpConfig} {s s' : UdpProcess} {i : Nat} {allocOk : Bool} {lwerr : Int8}
    (hs : s.txStep cfg i allocOk lwerr = .next s') :
    s'.rx = s.rx ∧ (s'.threads = s.threads ∨ ((s.tx i).pc = .reply ∧ s'.threads = Function.update s.threads (s.tx i).caller
      { s.threads (s.tx i).caller with pc := .sendGive, error := intOfWord (s.tx i).reply })) := by
  unfold UdpProcess.txStep at hs
  cases hp : (s.tx i).pc with
  | recv => simp [hp] at hs
  | lockIface =>
    simp only [hp, Outcome.guard_eq_next, Outcome.next.injEq] at hs
    obtain ⟨-, rfl⟩ := hs
    exact ⟨rfl, Or.inl rfl⟩
  | alloc | sendto | unlockIface =>
    simp only [hp, Outcome.next.injEq] at hs
    subst hs
    exact ⟨rfl, Or.inl rfl⟩
  | copy =>
    simp only [hp] at hs
    split at hs
    all_goals
      cases hs
      exact ⟨rfl, Or.inl rfl⟩
  | reply =>
    simp only [hp, Outcome.next.injEq] at hs
    subst hs
    exact ⟨rfl, Or.inr ⟨rfl, rfl⟩⟩

/-- The tx thread, a step at a time among those of others, does with the message of its caller what `udpSocketTxServe` does with it in
one go: it gets to the call of `udp_sendto` with the same datagram, and to the same reply. -/
theorem ProcessInv.tx_serves {cfg : UdpConfig} {s : UdpProcess} (h : ProcessInv cfg True s) {i : Nat} {t : UdpThread}
    (ht : s.threads (s.tx i).caller = t) (lwerr : Int8) :
    ((s.tx i).pc = .sendto →
      udpSocketTxServe cfg.txBufSize (s.txBuf cfg) (udpSendRequest (UInt32.ofNat t.msg.length) t.addr t.port) ⟨true, lwerr⟩ =
        .ok { datagram := some ⟨UInt16.ofInt (s.tx i).len, (s.tx i).payload, (s.tx i).addr, (s.tx i).port⟩
              reply := { s.tx i with lwerr := lwerr }.reply }) ∧
    ((s.tx i).pc = .alloc →
      udpSocketTxServe cfg.txBufSize (s.txBuf cfg) (udpSendRequest (UInt32.ofNat t.msg.length) t.addr t.port) ⟨false, lwerr⟩ =
        .ok { datagram := none, reply := { s.tx i with lwerr := errMem }.reply }) := by
  subst ht
  constructor
  · intro hx
    have hserves := h.send.serves i (by simp [hx])
    have hsend : (s.threads (s.tx i).caller).pc.inSend = true := by rw [hserves.pc]; rfl
    rw [udpSocketTxServe_udpSend (h.send.len_lt hsend), h.send.toNat_len hsend, ← h.send.payload_eq trivial hx, ← hserves.len,
      ← hserves.addr, ← hserves.port]
    rfl
  · intro hx
    have hserves := h.send.serves i (by simp [hx])
    rw [udpSocketTxServe_udpSend (h.send.len_lt (by rw [hserves.pc]; rfl))]
    rfl

/-- With a `tx_buf` of at most 64 KB no message that `sel4osapi_udp_send` accepts is too long. -/
theorem udpStepOk_send {cfg : UdpConfig} (h : cfg.txBufSize.toNat ≤ 65536) {s s' : UdpProcess} {c socket : Nat} {msg : List UInt8}
    {addr : Word} {port : UInt16} (hs : s.step cfg (.send c socket msg addr port) = .next s') :
    UdpStepOk cfg s (.send c socket msg addr port) := by
  simp only [UdpProcess.step, Outcome.guard_eq_next, Outcome.ofExcept_eq_next] at hs
  obtain ⟨_, hlen, -⟩ := bind_ok hs.2
  exact Nat.lt_of_lt_of_le (of_check_ok hlen) h

section longMessage

variable {cfg : UdpConfig} {s : UdpProcess} {c i : Nat}

end longMessage

end Sel4Osapi
