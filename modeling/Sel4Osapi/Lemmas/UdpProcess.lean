import Sel4Osapi.Lemmas.UdpSend
import Sel4Osapi.Lemmas.UdpWake

/-!
# The invariant of a process that uses the UDP stack

`ProcessInv` puts together what the two buffers, the two semaphores and the notifications of the sockets owe each other.
Each part has its own lemma for each kind of step; here they are applied, one action after another.
-/

namespace Sel4Osapi

open Transition Semaphore

/-- The thread is in `sel4osapi_udp_recv`. -/
def UdpPc.inRecv : UdpPc → Bool
  | .recvWait | .recvTake | .recvCall | .recvAwait | .recvCheck | .recvCopy _ | .recvGive => true
  | _ => false

/-- A thread outside `sel4osapi_udp_recv` is in no section of it, has nothing to copy and is not pending. -/
theorem UdpPc.not_inRecv {pc : UdpPc} (h : pc.inRecv = false) : pc.inRx = false ∧ pc.pending = false ∧ pc ≠ .recvAwait := by
  cases pc <;> first | exact ⟨rfl, rfl, UdpPc.noConfusion⟩ | cases h

theorem UdpThread.copiedOut_of_not_inRecv {t : UdpThread} {rxBufSize : Nat} {rx : Nat → RxServer} {buf : Nat → UInt8}
    (h : t.pc.inRecv = false) : t.CopiedOut rxBufSize rx buf := by
  unfold UdpThread.CopiedOut
  cases hpc : t.pc <;> first | trivial | simp [hpc, UdpPc.inRecv] at h

/-- A step of `udprecv` is no step of the rx thread. -/
theorem RxServer.udprecvStep_frame {s s' : RxServer} {k : Nat} (h : s.udprecvStep k = .next s') :
    s'.pc = s.pc ∧ s'.caller = s.caller ∧ s'.served = s.served ∧ s'.msg = s.msg ∧ s'.copied = s.copied := by
  unfold RxServer.udprecvStep at h
  cases hp : (s.calls k).pc with
  | idle | done => simp [hp] at h
  | lock =>
    simp only [hp, Outcome.guard_eq_next] at h
    obtain ⟨-, h⟩ := h
    cases h
    exact ⟨rfl, rfl, rfl, rfl, rfl⟩
  | alloc =>
    simp only [hp, Outcome.ofExcept_eq_next] at h
    obtain ⟨⟨m, msgs⟩, -, h⟩ := bind_ok h
    cases m with
    | none | some =>
      cases h
      exact ⟨rfl, rfl, rfl, rfl, rfl⟩
  | store | drop | unlock | signal =>
    simp only [hp, Outcome.next.injEq] at h
    subst h
    exact ⟨rfl, rfl, rfl, rfl, rfl⟩

/-! ## The two buffers -/

namespace UdpProcess

variable {cfg : UdpConfig} {s s' : UdpProcess} {buf : Nat → UInt8}

theorem rxBuf_setRxBuf (s : UdpProcess) (buf : Nat → UInt8) (h : s'.mem = s.setRxBuf cfg buf) : s'.rxBuf cfg = buf := by
  funext i
  rw [rxBuf, h, setRxBuf, if_pos (Nat.le_add_right _ _), Nat.add_sub_cancel_left]

/-- `rx_buf` with the bytes it has. -/
theorem setRxBuf_rxBuf (s : UdpProcess) (cfg : UdpConfig) : s.setRxBuf cfg (s.rxBuf cfg) = s.mem := by
  funext a
  unfold setRxBuf
  split
  · rename_i hle
    rw [rxBuf, Nat.add_sub_cancel' hle]
  · rfl

/-- A write inside `rx_buf` is none to `tx_buf`. -/
theorem txBuf_setRxBuf (h : s'.mem = s.setRxBuf cfg buf) (hbuf : ∀ i, cfg.rxBufSize.toNat ≤ i → buf i = s.rxBuf cfg i) {j : Nat}
    (hj : j < cfg.txBufSize.toNat) : s'.txBuf cfg j = s.txBuf cfg j := by
  rw [txBuf, h, setRxBuf]
  split
  · rename_i hle
    have hend : cfg.rxBufSize.toNat ≤ cfg.txBuf + j - cfg.rxBuf := by
      rcases cfg.apart with hapart | hapart <;> omega
    rw [hbuf _ hend, rxBuf, Nat.add_sub_cancel' hle]
    rfl
  · rfl

theorem txBuf_update {i : Nat} {b : UInt8} :
    (fun j => Function.update s.mem (cfg.txBuf + i) b (cfg.txBuf + j)) = Function.update (s.txBuf cfg) i b := by
  funext j
  rcases eq_or_ne j i with rfl | hne
  · simp
  · rw [Function.update_of_ne hne, Function.update_of_ne (by omega)]
    rfl

/-- A write to `tx_buf` is none to `rx_buf`. -/
theorem rxBuf_update {i j : Nat} {b : UInt8} (hi : i < cfg.txBufSize.toNat) (hj : j < cfg.rxBufSize.toNat) :
    Function.update s.mem (cfg.txBuf + i) b (cfg.rxBuf + j) = s.rxBuf cfg j := by
  rw [Function.update_of_ne]
  · rfl
  · rcases cfg.apart with hapart | hapart <;> omega

end UdpProcess

/-- The condition under which a step keeps to the buffers it is given: a message is as long as `pbuf_alloc` can be asked for, and the
datagram that the rx thread copies fits in `rx_buf`. -/
def UdpStepOk (cfg : UdpConfig) (s : UdpProcess) : UdpAction → Prop
  | .send _ _ msg _ _ => msg.length < 65536
  | .rx i => (s.rx i).pc = .copy → ∀ d ∈ (s.rx i).chain, ((s.rx i).calls d).p.flatten.length ≤ cfg.rxBufSize.toNat
  | _ => True

instance (cfg : UdpConfig) (s : UdpProcess) : (a : UdpAction) → Decidable (UdpStepOk cfg s a)
  | .send _ _ msg _ _ => inferInstanceAs (Decidable (msg.length < 65536))
  | .rx i => inferInstanceAs (Decidable ((s.rx i).pc = .copy → ∀ d ∈ (s.rx i).chain, _ ≤ cfg.rxBufSize.toNat))
  | .recv .. | .thread _ | .tx .. | .arrive .. | .udprecv .. | .driverLock _ | .driverUnlock _ => .isTrue trivial

/-- Everything the threads, the servers, the buffers and the semaphores owe each other. -/
structure ProcessInv (cfg : UdpConfig) (intact : Prop) (s : UdpProcess) : Prop where
  rx : ∀ i, ∃ past queue free live, RxInv (s.rx i) past queue free live
  send : SendInv cfg intact s.threads s.tx (s.txBuf cfg) s.txBufAvail
  recv : RecvInv cfg.rxBufSize.toNat s.threads s.rx (s.rxBuf cfg) s.rxBufAvail
  wake : ∀ i, WakeInv s.threads (s.rx i) i

namespace ProcessInv

variable {cfg : UdpConfig} {intact : Prop} {s s' : UdpProcess} {c i : Nat} {t' : UdpThread}

/-- A process at its start. -/
theorem of_init (h : s.Init) : ProcessInv cfg intact s := by
  refine ⟨?_, ⟨Or.inl ⟨h.txBufAvail, ?_⟩, ?_, ?_, ?_, ?_⟩,
    ⟨Or.inl ⟨h.rxBufAvail, ?_⟩, ?_, ?_, ?_, ?_⟩, ?_⟩
  · intro i
    obtain ⟨free, hinv⟩ := RxInv.of_init (h.rx i)
    exact ⟨[], [], free, [], hinv⟩
  · intro c
    simp [h.threads c, UdpPc.inTx]
  · intro c hc
    simp [h.threads c, UdpPc.inSend] at hc
  · intro i hi
    exact absurd (h.tx i) hi
  · intro _ c
    simp [UdpThread.CopiedIn, h.threads c]
  · intro _ i hi
    exact absurd (h.tx i) hi
  · intro c
    simp [h.threads c, UdpPc.inRx]
  · intro i hi
    simp [(h.rx i).pc, RxPc.serving] at hi
  · intro i hi
    simp [(h.rx i).pc] at hi
  · intro i hi
    simp [(h.rx i).pc] at hi
  · intro c
    simp [UdpThread.CopiedOut, h.threads c]
  · intro i
    simp [WakeInv, (h.rx i).pc, (h.rx i).remainingMsgs, RxServer.queued, (h.rx i).accepted, (h.rx i).released]

/-- A thread goes on outside `sel4osapi_udp_recv`. -/
theorem sendStep (h : ProcessInv cfg intact s) (hc : (s.threads c).pc.inRecv = false) (ht : t'.pc.inRecv = false)
    {tx : Nat → TxServer} {mem : Nat → UInt8} {avail : Nat}
    (hsend : SendInv cfg intact (Function.update s.threads c t') tx (fun j => mem (cfg.txBuf + j)) avail)
    (hmem : ∀ j < cfg.rxBufSize.toNat, mem (cfg.rxBuf + j) = s.rxBuf cfg j) :
    ProcessInv cfg intact { s with threads := Function.update s.threads c t', tx := tx, mem := mem, txBufAvail := avail } := by
  obtain ⟨hrx, hpending, hawait⟩ := UdpPc.not_inRecv hc
  refine ⟨h.rx, hsend, (h.recv.moves ?_ (UdpThread.copiedOut_of_not_inRecv ht) hawait).overwrite hmem,
    fun i => (h.wake i).thread ?_⟩
  · rw [hrx, (UdpPc.not_inRecv ht).1]
  · intro hp
    rw [hpending] at hp
    cases hp

/-- A thread goes on outside `sel4osapi_udp_send`. -/
theorem recvStep (h : ProcessInv cfg intact s) (hc : (s.threads c).pc.inSend = false) (ht : t'.pc.inSend = false) {avail : Nat}
    (hrecv : RecvInv cfg.rxBufSize.toNat (Function.update s.threads c t') s.rx (s.rxBuf cfg) avail)
    (hp : (s.threads c).pc.pending = true → t'.pc.pending = true ∧ t'.socket = (s.threads c).socket) :
    ProcessInv cfg intact { s with threads := Function.update s.threads c t', rxBufAvail := avail } := by
  refine ⟨h.rx, h.send.elsewhere hc ?_ (by simp [ht]), hrecv, fun i => (h.wake i).thread ?_⟩
  · by_contra hx
    simp [UdpPc.inSend_of_inTx (by simpa using hx)] at ht
  · intro hpc hi
    exact ⟨(hp hpc).1, (hp hpc).2.trans hi⟩

/-- The receive side of a socket after a step. -/
theorem rxUpdate (h : ProcessInv cfg intact s) {sh : RxShared} {a : RxAction} {server : RxServer}
    (hs : (s.rx i).step cfg.rxBufSize.toNat (.rx i) (s.rxShared cfg i) a = .next (sh, server)) (j : Nat) :
    ∃ past queue free live, RxInv (Function.update s.rx i server j) past queue free live := by
  rcases eq_or_ne j i with rfl | hne
  · obtain ⟨past, queue, free, live, hinv⟩ := h.rx j
    rw [Function.update_self]
    exact hinv.of_step hs
  · rw [Function.update_of_ne hne]
    exact h.rx j

/-- The wake-ups of the sockets after a step of the receive side of one of them. -/
theorem wakeUpdate (h : ProcessInv cfg intact s) {server : RxServer} {threads : Nat → UdpThread}
    (hself : WakeInv threads server i) (hothers : ∀ j, j ≠ i → WakeInv s.threads (s.rx j) j → WakeInv threads (s.rx j) j)
    (j : Nat) : WakeInv threads (Function.update s.rx i server j) j := by
  rcases eq_or_ne j i with rfl | hne
  · rw [Function.update_self]
    exact hself
  · rw [Function.update_of_ne hne]
    exact hothers j hne (h.wake j)

/-- lwIP calls `udprecv`, or a call of it takes a step: the rx thread stays where it is. -/
theorem udprecvStep (h : ProcessInv cfg intact s) {sh : RxShared} {a : RxAction} {server : RxServer}
    (hs : (s.rx i).step cfg.rxBufSize.toNat (.rx i) (s.rxShared cfg i) a = .next (sh, server)) (hsh : sh.rxBuf = s.rxBuf cfg)
    (hframe : server.pc = (s.rx i).pc ∧ server.caller = (s.rx i).caller ∧ server.served = (s.rx i).served ∧
      server.msg = (s.rx i).msg ∧ server.copied = (s.rx i).copied) (hwake : WakeInv s.threads server i)
    (mutex : Nat → Option IfaceHolder) :
    ProcessInv cfg intact
      { s with rx := Function.update s.rx i server, mem := s.setRxBuf cfg sh.rxBuf, ifaceMutex := mutex } := by
  obtain ⟨hpc, hcaller, hserved, hmsg, hcopied⟩ := hframe
  rw [hsh, UdpProcess.setRxBuf_rxBuf]
  refine ⟨h.rxUpdate hs, h.send, h.recv.serverMoves ?_ ?_ ?_ ?_ (Or.inl rfl), h.wakeUpdate hwake fun j _ hj => hj⟩
  · rw [hpc]
    exact fun hserving => ⟨hserving, hcaller⟩
  · rw [hserved]
    exact fun sv hsv => hsv
  · rw [hpc, hmsg, hcopied]
    exact h.recv.written i
  · rw [hpc, hmsg, hcopied]
    exact h.recv.fits i

/-- A step of the rx thread of a socket. -/
theorem rxStep (h : ProcessInv cfg intact s) (hok : intact → UdpStepOk cfg s (.rx i)) (hs : s.step cfg (.rx i) = .next s') :
    ProcessInv cfg intact s' := by
  simp only [UdpProcess.step, UdpProcess.rxStep, Outcome.map_eq_next] at hs
  obtain ⟨s₁, ⟨⟨sh, server⟩, hst, rfl⟩, rfl⟩ := hs
  obtain ⟨past, queue, free, live, hinv⟩ := h.rx i
  by_cases hpc : (s.rx i).pc = .reply
  · -- the reply reaches the thread that the rx thread serves
    rw [if_pos hpc]
    have hserves := h.recv.serves i (by rw [hpc]; rfl)
    have hsock : (s.threads (s.rx i).caller).socket = i := hserves.2
    have hserver : sh = s.rxShared cfg i ∧ server = { s.rx i with
        served := (s.rx i).served ++ (UdpProcess.replyDatagram (s.rx i)).toList
        pc := if (s.rx i).msg = none then .top else .lockIface } := by
      simp only [RxServer.step, RxServer.rxStep, hpc] at hst
      split at hst
      · rename_i hm
        simp only [Outcome.next.injEq, Prod.mk.injEq] at hst
        exact ⟨hst.1.symm, by simp [← hst.2, UdpProcess.replyDatagram, hm]⟩
      · rename_i hm
        simp only [Outcome.next.injEq, Prod.mk.injEq] at hst
        exact ⟨hst.1.symm, by simp [← hst.2, UdpProcess.replyDatagram, hm, Option.toList_map]⟩
    obtain ⟨rfl, hserver⟩ := hserver
    rw [UdpProcess.rxShared, UdpProcess.setRxBuf_rxBuf]
    refine ⟨h.rxUpdate hst, ?_, ?_, h.wakeUpdate (i := i) ?_ ?_⟩
    · refine h.send.elsewhere ?_ rfl ?_
      · rw [hserves.1]
        rfl
      · simp [UdpPc.inSend]
    · refine h.recv.reply hinv hpc cfg.rxBufSize.toNat_lt ?_ ?_
      · rw [hserver]
        dsimp only
        split <;> rfl
      · rw [hserver]
    · rw [hserver]
      exact (h.wake i).reply hpc rfl
    · intro j hne hj
      refine hj.thread fun _ hsj => absurd (hsj.symm.trans hsock) hne
  · rw [if_neg hpc]
    have hst : (s.rx i).rxStep cfg.rxBufSize.toNat (.rx i) (s.rxShared cfg i) = .next (sh, server) := hst
    refine ⟨h.rxUpdate (a := .rx) hst, h.send.overwrite ?_, ?_, h.wakeUpdate ((h.wake i).rxStep hinv hst hpc) fun j _ hj => hj⟩
    · -- a datagram that fits is written inside `rx_buf`
      intro hi j hj
      refine UdpProcess.txBuf_setRxBuf rfl ?_ hj
      intro k hk
      by_contra hne
      have hwrites := (RxServer.rxStep_frame hst).1 k hne
      exact absurd (hinv.writesAt_lt_of_fits (hok hi) hwrites) (Nat.not_lt.mpr hk)
    · rw [UdpProcess.rxBuf_setRxBuf s sh.rxBuf rfl]
      exact h.recv.rxStep hinv hst rfl hpc

/-- A step of the tx thread of a socket. -/
theorem txStep (h : ProcessInv cfg intact s) {allocOk : Bool} {lwerr : Int8} (hs : s.txStep cfg i allocOk lwerr = .next s') :
    ProcessInv cfg intact s' := by
  unfold UdpProcess.txStep at hs
  cases hp : (s.tx i).pc with
  | recv => simp [hp] at hs
  | lockIface =>
    simp only [hp, Outcome.guard_eq_next, Outcome.next.injEq] at hs
    obtain ⟨-, rfl⟩ := hs
    exact ⟨h.rx, h.send.serve (by simp [hp]) rfl rfl rfl rfl fun _ => TxServer.copies_of_ne (by simp) (by simp), h.recv, h.wake⟩
  | alloc =>
    simp only [hp, Outcome.next.injEq] at hs
    subst hs
    refine ⟨h.rx, ?_, h.recv, h.wake⟩
    cases allocOk with
    | true => exact h.send.serve (by simp [hp]) rfl rfl rfl rfl fun _ => ⟨fun _ => rfl, by simp⟩
    | false => exact h.send.serve (by simp [hp]) rfl rfl rfl rfl fun _ => TxServer.copies_of_ne (by simp) (by simp)
  | copy =>
    simp only [hp] at hs
    split at hs
    · rename_i hlt
      cases hs
      have hsend := h.send.copyOut hp hlt
      simp only [hp] at hsend
      exact ⟨h.rx, hsend, h.recv, h.wake⟩
    · rename_i hge
      cases hs
      exact ⟨h.rx, h.send.copyOutDone hp hge, h.recv, h.wake⟩
  | sendto | unlockIface =>
    simp only [hp, Outcome.next.injEq] at hs
    subst hs
    exact ⟨h.rx, h.send.serve (by simp [hp]) rfl rfl rfl rfl fun _ => TxServer.copies_of_ne (by simp) (by simp), h.recv, h.wake⟩
  | reply =>
    simp only [hp, Outcome.next.injEq] at hs
    subst hs
    have hserves := h.send.serves i (by simp [hp])
    exact h.sendStep (by rw [hserves.pc]; rfl) rfl (h.send.reply hp _) fun _ _ => rfl

/-- A step of a thread. -/
theorem threadStep (h : ProcessInv cfg intact s) (hs : s.threadStep cfg c = .next s') : ProcessInv cfg intact s' := by
  have hcopied := h.recv.copied c
  unfold UdpThread.CopiedOut at hcopied
  unfold UdpProcess.threadStep at hs
  cases hp : (s.threads c).pc with
  | idle | sendAwait | recvAwait => simp [hp] at hs
  | sendTake =>
    simp only [hp, Outcome.guard_eq_next, Outcome.next.injEq] at hs
    obtain ⟨hv, rfl⟩ := hs
    exact h.sendStep (by rw [hp]; rfl) rfl (h.send.take hv hp) fun _ _ => rfl
  | sendCopy j =>
    simp only [hp] at hs
    split at hs
    · rename_i b hb
      cases hs
      have hargs := (h.send.args c (by rw [hp]; rfl)).inside
      have hlt := Nat.lt_trans (List.getElem?_eq_some_iff.mp hb).1 hargs
      refine h.sendStep (by rw [hp]; rfl) rfl ?_ fun _ => UdpProcess.rxBuf_update hlt
      rw [UdpProcess.txBuf_update]
      exact h.send.copyByte hp hb
    · rename_i hb
      cases hs
      exact h.sendStep (by rw [hp]; rfl) rfl (h.send.copyDone hp hb) fun _ _ => rfl
  | sendCall =>
    simp only [hp, Outcome.guard_eq_next, Outcome.ofExcept_eq_next] at hs
    obtain ⟨server, hreceive, hs⟩ := bind_ok hs.2
    cases hs
    exact h.sendStep (by rw [hp]; rfl) rfl (h.send.call hp hreceive) fun _ _ => rfl
  | sendGive =>
    simp only [hp, Outcome.next.injEq] at hs
    subst hs
    exact h.sendStep (by rw [hp]; rfl) rfl (h.send.give hp) fun _ _ => rfl
  | recvWait =>
    -- the thread waits, so it is not one an rx thread serves
    simp only [hp, UdpProcess.rxStep, Outcome.map_eq_next] at hs hcopied
    obtain ⟨s₁, ⟨⟨sh, server⟩, hst, rfl⟩, rfl⟩ := hs
    have hrx := h.rxUpdate hst
    simp only [RxServer.step, Outcome.guard_eq_next, Outcome.next.injEq, Prod.mk.injEq] at hst
    obtain ⟨-, rfl, rfl⟩ := hst
    have hsend : ({ s.threads c with pc := .recvTake } : UdpThread).pc.inSend = false := rfl
    rw [UdpProcess.rxShared, UdpProcess.setRxBuf_rxBuf]
    have hmoved := h.recvStep (by rw [hp]; rfl) hsend
      (h.recv.moves (by rw [hp]; rfl) hcopied (by simp [hp])) (by simp [hp, UdpPc.pending])
    refine ⟨hrx, hmoved.send, hmoved.recv.serverMoves (fun hserving => ⟨hserving, rfl⟩) (fun sv hsv => hsv)
      (h.recv.written _) (h.recv.fits _) (Or.inl rfl), h.wakeUpdate ?_ fun j _ _ => hmoved.wake j⟩
    exact (h.wake _).consume rfl fun hserving => (h.recv.not_caller (by simp [hp]) _ hserving).symm
  | recvTake =>
    simp only [hp, Outcome.guard_eq_next, Outcome.next.injEq] at hs
    obtain ⟨hv, rfl⟩ := hs
    exact h.recvStep (by rw [hp]; rfl) rfl (h.recv.take hv hp) fun _ => ⟨rfl, rfl⟩
  | recvCall =>
    simp only [hp, UdpProcess.rxStep, Outcome.map_eq_next] at hs hcopied
    obtain ⟨s₁, ⟨⟨sh, server⟩, hst, rfl⟩, rfl⟩ := hs
    have hrx := h.rxUpdate hst
    simp only [RxServer.step, Outcome.guard_eq_next, Outcome.next.injEq, Prod.mk.injEq] at hst
    obtain ⟨hrecv, rfl, rfl⟩ := hst
    have hsend : ({ s.threads c with pc := .recvAwait } : UdpThread).pc.inSend = false := rfl
    rw [UdpProcess.rxShared, UdpProcess.setRxBuf_rxBuf]
    have hmoved := h.recvStep (by rw [hp]; rfl) hsend
      (h.recv.moves (by rw [hp]; rfl) hcopied (by simp [hp])) fun _ => ⟨rfl, rfl⟩
    exact ⟨hrx, hmoved.send, h.recv.call hp rfl, h.wakeUpdate ((h.wake _).call hrecv c) fun j _ _ => hmoved.wake j⟩
  | recvCheck =>
    simp only [hp] at hs hcopied
    obtain ⟨hmsg, hgot⟩ := hcopied
    split at hs
    · cases hs
      refine h.recvStep (by rw [hp]; rfl) rfl (h.recv.moves (by rw [hp]; rfl) ?_ (by simp [hp])) (by simp [hp, UdpPc.pending])
      simpa [UdpThread.CopiedOut, notEnoughMemory] using hmsg
    · split at hs
      · cases hs
        refine h.recvStep (by rw [hp]; rfl) rfl (h.recv.moves (by rw [hp]; rfl) ?_ (by simp [hp]))
          (by simp [hp, UdpPc.pending])
        simpa [UdpThread.CopiedOut] using hmsg
      · rename_i hlen
        cases hs
        refine h.recvStep (by rw [hp]; rfl) rfl (h.recv.moves (by rw [hp]; rfl) ?_ (by simp [hp]))
          (by simp [hp, UdpPc.pending])
        rcases hgot with hz | ⟨sv, hgot⟩
        · exact absurd hz hlen
        · exact ⟨sv, hgot, Nat.zero_le _, by simpa using hmsg⟩
  | recvCopy j =>
    simp only [hp] at hs
    split at hs
    · rename_i hlt
      cases hs
      exact h.recvStep (by rw [hp]; rfl) rfl (h.recv.copyByte hp hlt) (by simp [hp, UdpPc.pending])
    · rename_i hge
      cases hs
      exact h.recvStep (by rw [hp]; rfl) rfl (h.recv.copyDone hp hge) (by simp [hp, UdpPc.pending])
  | recvGive =>
    simp only [hp, Outcome.next.injEq] at hs
    subst hs
    exact h.recvStep (by rw [hp]; rfl) rfl (h.recv.give hp) (by simp [hp, UdpPc.pending])

/-- Every action keeps the invariant. -/
theorem step (h : ProcessInv cfg intact s) {a : UdpAction} (hok : intact → UdpStepOk cfg s a) (hs : s.step cfg a = .next s') :
    ProcessInv cfg intact s' := by
  cases a with
  | send c socket msg addr port =>
    simp only [UdpProcess.step, Outcome.guard_eq_next, Outcome.ofExcept_eq_next] at hs
    obtain ⟨hidle, hs⟩ := hs
    obtain ⟨_, hlen, hs⟩ := bind_ok hs
    cases hs
    refine h.sendStep (by rw [hidle]; rfl) rfl (h.send.elsewhere (by rw [hidle]; rfl) rfl ?_) fun _ _ => rfl
    exact fun _ => ⟨of_check_ok hlen, hok⟩
  | recv c socket maxLen =>
    simp only [UdpProcess.step, Outcome.guard_eq_next, Outcome.ofExcept_eq_next] at hs
    obtain ⟨hidle, hs⟩ := hs
    obtain ⟨-, -, hs⟩ := bind_ok hs
    cases hs
    exact h.recvStep (by rw [hidle]; rfl) rfl (h.recv.moves (by rw [hidle]; rfl) ⟨rfl, rfl⟩ (by simp [hidle]))
      (by simp [hidle, UdpPc.pending])
  | thread c => exact h.threadStep hs
  | tx i allocOk lwerr => exact h.txStep hs
  | rx i => exact h.rxStep hok hs
  | arrive i p addr port =>
    simp only [UdpProcess.step, UdpProcess.rxStep, Outcome.map_eq_next] at hs
    obtain ⟨⟨sh, server⟩, hst, rfl⟩ := hs
    obtain ⟨past, queue, free, live, hinv⟩ := h.rx i
    have hfresh : (s.rx i).arrivals ∉ (s.rx i).accepted := fun hmem =>
      hinv.not_idle (hinv.accepted ▸ hmem) hinv.arrivals_idle
    have hst' := hst
    simp only [RxServer.step, Outcome.guard_eq_next, Outcome.next.injEq, Prod.mk.injEq] at hst'
    obtain ⟨-, rfl, rfl⟩ := hst'
    exact h.udprecvStep hst rfl ⟨rfl, rfl, rfl, rfl, rfl⟩ ((h.wake i).arrive hfresh) _
  | udprecv i k =>
    simp only [UdpProcess.step, UdpProcess.rxStep, Outcome.map_eq_next] at hs
    obtain ⟨⟨sh, server⟩, hst, rfl⟩ := hs
    obtain ⟨s₁, hs₁, he⟩ := Outcome.map_eq_next.mp hst
    cases he
    exact h.udprecvStep hst rfl (RxServer.udprecvStep_frame hs₁) ((h.wake i).udprecvStep hs₁) _
  | driverLock j | driverUnlock j =>
    simp only [UdpProcess.step, Outcome.guard_eq_next, Outcome.next.injEq] at hs
    obtain ⟨-, rfl⟩ := hs
    exact ⟨h.rx, h.send, h.recv, h.wake⟩

end ProcessInv

/-- In every reachable state the invariant holds, but for what is in `tx_buf`. -/
theorem process_inv {cfg : UdpConfig} {s : UdpProcess} (hr : (udpMachine cfg).Reachable s) : ProcessInv cfg False s :=
  hr.invariant (P := ProcessInv cfg False) (fun _ hi => ProcessInv.of_init hi) fun _ _ _ _ hinv hs => hinv.step False.elim hs

end Sel4Osapi
