import Sel4Osapi.Lemmas.UdpReply

/-!
# What `sel4osapi_udp_recv` returns

Both results follow a call from the moment the rx thread looks at the queue for it, in any run from there to the return of the
call. `udp_recv_fidelity` is about a datagram that is not empty and fits in `rx_buf`: the call returns with it, or with its
length if it is longer than `max_len`. An empty datagram looks to the caller like an empty queue (`udp_recv_result_iff`).
-/

namespace Sel4Osapi

open Transition

/-- The buffer `msg` of a call of `sel4osapi_udp_recv`, if it held `before` at the call. -/
def UdpThread.buffer (t : UdpThread) (before : Nat → UInt8) : Nat → UInt8 := fun j => t.msg.getD j (before j)

/-- A run after which the rx thread of socket 0 is about to look at the queue for a call, and a given datagram is the head of
the queue. -/
theorem exists_peeking (cfg : UdpConfig) {p : List (List UInt8)} (hp : p.flatten.length < 65536) :
    ∃ (s : UdpProcess) (d : Nat), (udpMachine cfg).Reachable s ∧ (s.rx 0).pc = .peek ∧ (s.rx 0).head = some d ∧
      ((s.rx 0).calls d).p = p := by
  obtain ⟨s₀, k, hr₀, hidle, hav, hpc, haep, hmutex, hacc, hrel, hp⟩ := exists_notified cfg hp
  let t : UdpThread := { s₀.threads 0 with
    pc := .recvWait, socket := 0, msg := [], maxLen := 16, len := 0, addr := 0, port := 0, error := 0, datagram := none }
  -- thread 0 calls, consumes the notification, takes the semaphore and calls the rx thread
  have hr₁ : (udpMachine cfg).Reachable (s₀.setThread 0 t) :=
    hr₀.step (.recv 0 0 16) (by simp [udpMachine, UdpProcess.step, Outcome.guard, hidle 0, t])
  have hconsume : ∀ sh, ((s₀.setThread 0 t).rx 0).step cfg.rxBufSize.toNat (.rx 0) sh .consume =
      .next (sh, { s₀.rx 0 with aepRxData := false }) :=
    fun sh => by simp [RxServer.step, Outcome.guard, UdpProcess.setThread, haep]
  obtain ⟨s₂, hs₂, hrx₂, -, hav₂⟩ := (s₀.setThread 0 t).exists_rxStep cfg hconsume
  have hr₂ : (udpMachine cfg).Reachable (s₂.setThread 0 { t with pc := .recvTake }) := hr₁.step (.thread 0) (by
    simp only [udpMachine, UdpProcess.step, UdpProcess.threadStep, UdpProcess.setThread, Function.update_self, t] at hs₂ ⊢
    rw [hs₂]
    rfl)
  have hav₂ : 0 < s₂.rxBufAvail := by
    rw [hav₂]
    exact Nat.lt_of_lt_of_eq Nat.one_pos hav.symm
  generalize hs₃ : { s₂.setThread 0 { t with pc := .recvCall } with rxBufAvail := s₂.rxBufAvail - 1 } = s₃
  have hr₃ : (udpMachine cfg).Reachable s₃ := hr₂.step (.thread 0) (by
    simp [udpMachine, UdpProcess.step, UdpProcess.threadStep, UdpProcess.setThread, Outcome.guard, hav₂, ← hs₃])
  have hth₃ : s₃.threads 0 = { t with pc := .recvCall } := by simp [← hs₃, UdpProcess.setThread]
  have hrx₃ : s₃.rx 0 = { s₀.rx 0 with aepRxData := false } := by rw [← hs₃]; exact hrx₂
  have hcall : ∀ sh, (s₃.rx 0).step cfg.rxBufSize.toNat (.rx 0) sh (.call 0) =
      .next (sh, { s₀.rx 0 with aepRxData := false, caller := 0, pc := .lockPeek }) :=
    fun sh => by simp [RxServer.step, Outcome.guard, hrx₃, hpc]
  obtain ⟨s₄, hs₄, hrx₄, -⟩ := s₃.exists_rxStep cfg hcall
  have hr₄ : (udpMachine cfg).Reachable (s₄.setThread 0 { t with pc := .recvAwait }) := hr₃.step (.thread 0) (by
    simp only [udpMachine, UdpProcess.step, UdpProcess.threadStep, hth₃, t, hs₄]
    rfl)
  -- the rx thread takes the mutex
  have hlock : ∀ sh, ((s₄.setThread 0 { t with pc := .recvAwait }).rx 0).step cfg.rxBufSize.toNat (.rx 0) sh .rx =
      .next (sh, { s₀.rx 0 with aepRxData := false, caller := 0, msgsMutex := some .rx, pc := .peek }) :=
    fun sh => by simp [RxServer.step, RxServer.rxStep, Outcome.guard, UdpProcess.setThread, hrx₄, hmutex]
  obtain ⟨s₅, hs₅, hrx₅, -⟩ := (s₄.setThread 0 { t with pc := .recvAwait }).exists_rxStep cfg hlock
  have hr₅ : (udpMachine cfg).Reachable s₅ := hr₄.step (.rx 0) (by
    simp only [udpMachine, UdpProcess.step, hs₅]
    simp [UdpProcess.setThread, hrx₄])
  obtain ⟨past, queue, free, live, hinv⟩ := (process_inv hr₅).rx 0
  refine ⟨s₅, k, hr₅, by rw [hrx₅], ?_, by rw [hrx₅]; exact hp⟩
  rw [hinv.head_eq (by rw [hrx₅]; rfl), ← hinv.getElem?_released, hrx₅]
  simp [hacc, hrel]

/-- A run from the look at the queue of socket `i` to the return of the call it is for: the look is its first step, and the
caller begins no other call. -/
structure ReturnRun (cfg : UdpConfig) (s : UdpProcess) (i : Nat) (as : List UdpAction) (s' : UdpProcess) : Prop where
  exec : (udpMachine cfg).exec s (.rx i :: as) = some s'
  begins : ∀ a ∈ as, a.begins (s.rx i).caller = false
  give : (s'.threads (s.rx i).caller).pc = .recvGive

/-- The return of a call: what the rx thread saw at the head of the queue decides all of it. -/
theorem ReturnRun.result {cfg : UdpConfig} {s s' : UdpProcess} {i : Nat} {as : List UdpAction} (hrun : ReturnRun cfg s i as s')
    (hr : (udpMachine cfg).Reachable s) (hpc : (s.rx i).pc = .peek) :
    (s'.threads (s.rx i).caller).len = ((s.rx i).headServed.map Served.packetLen).getD 0 ∧
    (∀ v, (s.rx i).headServed = some v →
      (s'.threads (s.rx i).caller).addr = v.addr ∧ (s'.threads (s.rx i).caller).port = v.port) ∧
    ((s'.threads (s.rx i).caller).error =
      if (s'.threads (s.rx i).caller).len > (s'.threads (s.rx i).caller).maxLen then notEnoughMemory
      else if (s'.threads (s.rx i).caller).len = 0 then -1 else 0) ∧
    if (s'.threads (s.rx i).caller).error = 0 then
      ∃ v, (s.rx i).headServed = some v ∧ (s'.threads (s.rx i).caller).msg = v.data
    else (s'.threads (s.rx i).caller).msg = [] := by
  have hexec := hrun.exec
  unfold Machine.exec at hexec
  split at hexec
  · rename_i s₁ hs₁
    have hr₁ := hr.step _ hs₁
    obtain ⟨past, queue, free, live, hinv⟩ := (process_inv hr).rx i
    have hf : s₁.Follows (s.rx i).caller i (s.rx i).headServed := by
      obtain ⟨sh, hst⟩ := UdpProcess.step_rx_self hs₁
      obtain ⟨ht, hc⟩ := hinv.peek hpc hst
      exact Or.inl ⟨hc, ht⟩
    exact (hf.exec hr₁ hexec hrun.begins).result (process_inv (hr₁.exec hexec)) hrun.give
  · cases hexec

/-- Every call for which the rx thread has looked at the queue, and found a datagram at its head that is not empty and fits in
`rx_buf`: the call can return; and in every run in which it does, it reports the length of the datagram and the address and the
port given to `udprecv`, and either the datagram fits in `max_len`, the call returns 0 and the buffer holds the bytes of the
chain of packet buffers one after another and beyond them what it held, or it returns `seL4_NotEnoughMemory` and the buffer is
as it was. -/
theorem udp_recv_fidelity (cfg : UdpConfig) (s : UdpProcess) (hr : (udpMachine cfg).Reachable s) (i d : Nat)
    (hpc : (s.rx i).pc = .peek) (hd : (s.rx i).head = some d) (hpos : 0 < ((s.rx i).calls d).p.flatten.length)
    (hfits : ((s.rx i).calls d).p.flatten.length ≤ cfg.rxBufSize.toNat) :
    (∃ as s', ReturnRun cfg s i as s') ∧
    ∀ as s', ReturnRun cfg s i as s' →
      (s'.threads (s.rx i).caller).len = ((s.rx i).calls d).p.flatten.length ∧
      (s'.threads (s.rx i).caller).addr = ((s.rx i).calls d).addr ∧
      (s'.threads (s.rx i).caller).port = ((s.rx i).calls d).port ∧
      (((s.rx i).calls d).p.flatten.length ≤ (s'.threads (s.rx i).caller).maxLen →
        (s'.threads (s.rx i).caller).error = 0 ∧
        ∀ before, (∀ j (hj : j < ((s.rx i).calls d).p.flatten.length),
            (s'.threads (s.rx i).caller).buffer before j = ((s.rx i).calls d).p.flatten.get ⟨j, hj⟩) ∧
          ∀ j, ((s.rx i).calls d).p.flatten.length ≤ j → (s'.threads (s.rx i).caller).buffer before j = before j) ∧
      ((s'.threads (s.rx i).caller).maxLen < ((s.rx i).calls d).p.flatten.length →
        (s'.threads (s.rx i).caller).error = notEnoughMemory ∧
        ∀ before, (s'.threads (s.rx i).caller).buffer before = before) := by
  have hserved : (s.rx i).headServed = some (((s.rx i).calls d).served d) := by rw [RxServer.headServed, hd]; rfl
  refine ⟨?_, ?_⟩
  · obtain ⟨as, s', hexec, hb, hgive⟩ := UdpProcess.exists_return hr hpc (by
      rintro v hv
      rw [hserved] at hv
      obtain rfl := Option.some.inj hv
      exact hfits)
    exact ⟨as, s', hexec, hb, hgive⟩
  intro as s' hrun
  obtain ⟨hlen, haddr, herror, hmsg⟩ := hrun.result hr hpc
  rw [hserved] at hlen
  have hlen : (s'.threads (s.rx i).caller).len = ((s.rx i).calls d).p.flatten.length := hlen
  obtain ⟨haddr, hport⟩ := haddr _ hserved
  refine ⟨hlen, haddr, hport, ?_, ?_⟩
  · intro hle
    have herror : (s'.threads (s.rx i).caller).error = 0 := by
      rw [herror, if_neg (by omega), if_neg (by omega)]
    rw [if_pos herror, hserved] at hmsg
    obtain ⟨v, hv, hmsg⟩ := hmsg
    obtain rfl := Option.some.inj hv
    have hmsg : (s'.threads (s.rx i).caller).msg = ((s.rx i).calls d).p.flatten := hmsg
    refine ⟨herror, fun before => ⟨?_, ?_⟩⟩
    · intro j hj
      rw [UdpThread.buffer, hmsg, List.getD_eq_getElem?_getD, List.getElem?_eq_getElem hj]
      rfl
    · intro j hj
      rw [UdpThread.buffer, hmsg, List.getD_eq_getElem?_getD, List.getElem?_eq_none hj]
      rfl
  · intro hlt
    have herror : (s'.threads (s.rx i).caller).error = notEnoughMemory := by rw [herror, if_pos (by omega)]
    rw [if_neg (by rw [herror]; decide)] at hmsg
    refine ⟨herror, fun before => ?_⟩
    funext j
    rw [UdpThread.buffer, hmsg]
    rfl

/-- A datagram of three bytes in a chain of three packet buffers, one of them empty. -/
theorem udp_recv_fidelity_peeking : ∃ (s : UdpProcess) (d : Nat), (udpMachine defaultBuffers).Reachable s ∧
    (s.rx 0).pc = .peek ∧ (s.rx 0).head = some d ∧ ((s.rx 0).calls d).p = [[1, 2], [], [3]] ∧
    ∃ as s', ReturnRun defaultBuffers s 0 as s' ∧ (s'.threads (s.rx 0).caller).len = 3 := by
  obtain ⟨s, d, hr, hpc, hd, hp⟩ := exists_peeking defaultBuffers (p := [[1, 2], [], [3]]) (by decide)
  obtain ⟨⟨as, s', hrun⟩, hall⟩ := udp_recv_fidelity _ s hr 0 d hpc hd (by rw [hp]; decide) (by rw [hp]; decide)
  refine ⟨s, d, hr, hpc, hd, hp, as, s', hrun, ?_⟩
  rw [(hall as s' hrun).1, hp]
  rfl

/-! ## The result code -/

/-- What a call returned agrees with what the rx thread saw of the queue: -1 exactly if the queue was empty, and with a datagram
0 or `seL4_NotEnoughMemory`. -/
def ResultAgrees (server : RxServer) (t : UdpThread) : Prop :=
  (t.error = -1 ↔ server.msgs.entries = none) ∧
    (server.msgs.entries ≠ none → t.error = 0 ∨ t.error = notEnoughMemory)

/-- Looking at a queue that is not empty, the rx thread sees a datagram. -/
theorem RxInv.exists_head {s : RxServer} {past queue : List Nat} {free live : List Ptr} (h : RxInv s past queue free live)
    (hpc : s.pc = .peek) : s.msgs.entries = none ∧ s.head = none ∨ s.msgs.entries ≠ none ∧ ∃ d, s.head = some d := by
  have hentries : s.msgs.entries = live.head? := by rw [h.queued.rep.liveList.head, List.head?_eq_getElem?]
  have hin : s.pc.inSection = true := by rw [hpc]; rfl
  cases hl : live.head? with
  | none =>
    rw [hl] at hentries
    exact Or.inl ⟨hentries, by rw [RxServer.head, hentries]; rfl⟩
  | some n =>
    obtain ⟨d, hd, -⟩ := h.head_filled hin hl
    rw [hl] at hentries
    exact Or.inr ⟨by simp [hentries], d, by rw [h.head_eq hin, hd]⟩

/-- The result of a call for which the rx thread has looked at the queue, at its return. -/
theorem ReturnRun.agrees_iff {cfg : UdpConfig} {s s' : UdpProcess} {i : Nat} {as : List UdpAction} (hrun : ReturnRun cfg s i as s')
    (hr : (udpMachine cfg).Reachable s) (hpc : (s.rx i).pc = .peek) :
    ResultAgrees (s.rx i) (s'.threads (s.rx i).caller) ↔
      ∀ d, (s.rx i).head = some d → 0 < ((s.rx i).calls d).p.flatten.length := by
  obtain ⟨hlen, -, herror, -⟩ := hrun.result hr hpc
  obtain ⟨past, queue, free, live, hinv⟩ := (process_inv hr).rx i
  rcases hinv.exists_head hpc with ⟨hnone, hhead⟩ | ⟨hsome, d, hd⟩
  · -- an empty queue: length 0 and -1
    have hlen : (s'.threads (s.rx i).caller).len = 0 := by simpa [RxServer.headServed, hhead] using hlen
    have herror : (s'.threads (s.rx i).caller).error = -1 := by
      rw [herror, if_neg (by omega), if_pos hlen]
    constructor
    · intro _ d hd
      rw [hhead] at hd
      cases hd
    · exact fun _ => ⟨⟨fun _ => hnone, fun _ => herror⟩, fun hne => absurd hnone hne⟩
  · have hlen : (s'.threads (s.rx i).caller).len = ((s.rx i).calls d).p.flatten.length := by
      simpa [RxServer.headServed, hd, Udprecv.served] using hlen
    constructor
    · intro hagrees d' hd'
      obtain rfl := Option.some.inj (hd.symm.trans hd')
      by_contra hzero
      have herror : (s'.threads (s.rx i).caller).error = -1 := by
        rw [herror, if_neg (by omega), if_pos (by omega)]
      exact hsome (hagrees.1.mp herror)
    · intro hpos
      have hpos := hpos d hd
      have hor : (s'.threads (s.rx i).caller).error = 0 ∨ (s'.threads (s.rx i).caller).error = notEnoughMemory := by
        rw [herror]
        split
        · exact Or.inr rfl
        · rw [if_neg (by omega)]
          exact Or.inl rfl
      refine ⟨⟨fun he => ?_, fun hnone => absurd hnone hsome⟩, fun _ => hor⟩
      rcases hor with h0 | h0 <;> rw [h0] at he <;> exact absurd he (by decide)

/-- Every call for which the rx thread looks at the queue: it can return, if the datagram at the head of the queue, should there
be one, fits in `rx_buf`; and in every run in which it does, its result agrees with what the rx thread saw exactly if that
datagram, should there be one, is not empty. -/
theorem udp_recv_result_iff (cfg : UdpConfig) (s : UdpProcess) (hr : (udpMachine cfg).Reachable s) (i : Nat)
    (hpc : (s.rx i).pc = .peek) :
    ((∀ d, (s.rx i).head = some d → ((s.rx i).calls d).p.flatten.length ≤ cfg.rxBufSize.toNat) → ∃ as s', ReturnRun cfg s i as s') ∧
    ∀ as s', ReturnRun cfg s i as s' →
      (ResultAgrees (s.rx i) (s'.threads (s.rx i).caller) ↔
        ∀ d, (s.rx i).head = some d → 0 < ((s.rx i).calls d).p.flatten.length) := by
  refine ⟨?_, fun as s' hrun => hrun.agrees_iff hr hpc⟩
  intro hfits
  obtain ⟨as, s', hexec, hb, hgive⟩ := UdpProcess.exists_return hr hpc (by
    intro v hv
    obtain ⟨d, hd, rfl⟩ := Option.map_eq_some_iff.mp hv
    exact hfits d hd)
  exact ⟨as, s', hexec, hb, hgive⟩

/-- The result of a call that is served the datagram of `udp_recv_fidelity_peeking` agrees with the queue. -/
theorem udp_recv_result_iff_peeking : ∃ (s : UdpProcess) (as : List UdpAction) (s' : UdpProcess),
    (udpMachine defaultBuffers).Reachable s ∧ (s.rx 0).pc = .peek ∧ ReturnRun defaultBuffers s 0 as s' ∧
    ResultAgrees (s.rx 0) (s'.threads (s.rx 0).caller) := by
  obtain ⟨s, d, hr, hpc, hd, hp⟩ := exists_peeking defaultBuffers (p := [[1, 2], [], [3]]) (by decide)
  obtain ⟨hexists, hiff⟩ := udp_recv_result_iff _ s hr 0 hpc
  have hd' : ∀ d', (s.rx 0).head = some d' → ((s.rx 0).calls d').p = [[1, 2], [], [3]] := by
    intro d' hd'
    obtain rfl := Option.some.inj (hd.symm.trans hd')
    exact hp
  obtain ⟨as, s', hrun⟩ := hexists fun d' h => by rw [hd' d' h]; decide
  exact ⟨s, as, s', hr, hpc, hrun, (hiff as s' hrun).mpr fun d' h => by rw [hd' d' h]; decide⟩

/-- An empty datagram is consumed and reported as no data. -/
theorem udp_recv_empty_datagram : ¬ ∀ (cfg : UdpConfig) (s : UdpProcess), (udpMachine cfg).Reachable s → ∀ i,
    (s.rx i).pc = .peek → ∀ as s', ReturnRun cfg s i as s' → ResultAgrees (s.rx i) (s'.threads (s.rx i).caller) := by
  intro hall
  obtain ⟨s, d, hr, hpc, hd, hp⟩ := exists_peeking defaultBuffers (p := [[]]) (by decide)
  obtain ⟨as, s', hexec, hb, hgive⟩ := UdpProcess.exists_return hr hpc (by
    intro v hv
    obtain ⟨d', hd', rfl⟩ := Option.map_eq_some_iff.mp hv
    obtain rfl := Option.some.inj (hd.symm.trans hd')
    simp [Udprecv.served, hp])
  have hrun : ReturnRun defaultBuffers s 0 as s' := ⟨hexec, hb, hgive⟩
  have hpos := (hrun.agrees_iff hr hpc).mp (hall _ s hr 0 hpc as s' hrun) d hd
  rw [hp] at hpos
  exact absurd hpos (by decide)

end Sel4Osapi
