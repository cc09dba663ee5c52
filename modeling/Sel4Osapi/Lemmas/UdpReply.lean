import Sel4Osapi.Theorems.UdpProcess

/-!
# A call of `sel4osapi_udp_recv` from the look at the queue to its return

Once the rx thread has looked at the queue for a call, that call has a datagram or none (`RxServer.Taken`), and keeps it while
the rx thread copies it and replies, and while the caller tests the length and copies it out (`UdpThread.Answered`). `Follows`
is the two together; every step of every thread keeps it, up to the caller's next call. From the look at the queue on, the rx
thread and the caller alone get to the return.
-/

namespace Sel4Osapi

open Transition

namespace RxServer

variable {rxBufSize : Nat} {self : IfaceHolder} {sh sh' : RxShared} {s s' : RxServer} {o : Option Served}

/-- The packet buffer of the message at the head of the queue. -/
def head (s : RxServer) : Option Nat := s.msgs.entries.bind fun entry => (s.msgs.mem (s.msgs.nodes entry).el).pbuf

/-- The datagram at the head of the queue, as a reply has to carry it: its bytes, its length, its port and its address are those
given to `udprecv`. -/
def headServed (s : RxServer) : Option Served := s.head.map fun d => (s.calls d).served d

/-- The rx thread has looked at the queue for the call it serves, and has this datagram for it, or none. -/
def Taken (s : RxServer) : Option Served → Prop
  | some v => (s.pc = .unlockPeek ∨ s.pc = .load ∨ s.pc = .copy ∨ s.pc = .reply) ∧ s.msg ≠ none ∧
    s.accepted[s.released]? = some v.pbuf ∧ (s.calls v.pbuf).pc ≠ .idle ∧ (s.calls v.pbuf).served v.pbuf = v
  | none => (s.pc = .unlockEmpty ∨ s.pc = .reply) ∧ s.msg = none

/-- A step of `udprecv` releases no entry, forgets no datagram accepted, and changes the arguments of no call. -/
theorem udprecvStep_keeps {k : Nat} (h : s.udprecvStep k = .next s') :
    s'.released = s.released ∧ s.accepted <+: s'.accepted ∧
      ∀ d, (s.calls d).pc ≠ .idle → (s'.calls d).pc ≠ .idle ∧ (s'.calls d).served d = (s.calls d).served d := by
  have hset : ∀ (pc : UdprecvPc) (d : Nat), pc ≠ .idle → (s.calls d).pc ≠ .idle →
      (s.setCallPc k pc d).pc ≠ .idle ∧ (s.setCallPc k pc d).served d = (s.calls d).served d := by
    intro pc d hpc hd
    rcases eq_or_ne d k with rfl | hne
    · simp [setCallPc, hpc, Udprecv.served]
    · simp [setCallPc, hne, hd]
  unfold udprecvStep at h
  cases hp : (s.calls k).pc with
  | idle | done => simp [hp] at h
  | lock =>
    simp only [hp, Outcome.guard_eq_next] at h
    obtain ⟨-, h⟩ := h
    cases h
    exact ⟨rfl, List.prefix_rfl, fun d => hset _ d UdprecvPc.noConfusion⟩
  | alloc =>
    simp only [hp, Outcome.ofExcept_eq_next] at h
    obtain ⟨⟨m, msgs⟩, -, h⟩ := bind_ok h
    cases m with
    | none =>
      cases h
      exact ⟨rfl, List.prefix_rfl, fun d => hset _ d UdprecvPc.noConfusion⟩
    | some m =>
      cases h
      exact ⟨rfl, List.prefix_append _ _, fun d => hset _ d UdprecvPc.noConfusion⟩
  | drop =>
    simp only [hp, Outcome.next.injEq] at h
    subst h
    refine ⟨rfl, List.prefix_rfl, ?_⟩
    intro d hd
    have hkept := hset .unlock d UdprecvPc.noConfusion hd
    rcases eq_or_ne d k with rfl | hne
    · simpa [pbufFree, Udprecv.served] using hkept
    · simpa [pbufFree, hne] using hkept
  | store | unlock | signal =>
    simp only [hp, Outcome.next.injEq] at h
    subst h
    exact ⟨rfl, List.prefix_rfl, fun d => hset _ d UdprecvPc.noConfusion⟩

namespace Taken

/-- What the rx thread has taken it keeps while the others go on. -/
theorem mono (ht : s.Taken o) (hpc : s'.pc = s.pc) (hmsg : s'.msg = s.msg) (hrel : s'.released = s.released)
    (hacc : s.accepted <+: s'.accepted)
    (hcalls : ∀ d, (s.calls d).pc ≠ .idle → (s'.calls d).pc ≠ .idle ∧ (s'.calls d).served d = (s.calls d).served d) :
    s'.Taken o := by
  cases o with
  | none =>
    obtain ⟨hp, hm⟩ := ht
    exact ⟨by rwa [hpc], by rwa [hmsg]⟩
  | some v =>
    obtain ⟨hp, hm, ha, hidle, hv⟩ := ht
    obtain ⟨es, hes⟩ := hacc
    refine ⟨by rwa [hpc], by rwa [hmsg], ?_, (hcalls _ hidle).1, (hcalls _ hidle).2.trans hv⟩
    rw [hrel, ← hes, List.getElem?_append_left (List.getElem?_eq_some_iff.mp ha).1]
    exact ha

/-- A step that is not one of the rx thread keeps it. -/
theorem step {past queue : List Nat} {free live : List Ptr} (h : RxInv s past queue free live) (ht : s.Taken o) {a : RxAction}
    (hs : s.step rxBufSize self sh a = .next (sh', s')) (ha : a ≠ .rx) : s'.Taken o ∧ s'.caller = s.caller := by
  cases a with
  | rx => exact absurd rfl ha
  | arrive p addr port =>
    obtain ⟨-, hs⟩ := Outcome.guard_eq_next.mp hs
    cases hs
    refine ⟨ht.mono rfl rfl rfl List.prefix_rfl ?_, rfl⟩
    intro d hd
    have hne : d ≠ s.arrivals := fun e => hd (e ▸ h.arrivals_idle)
    simp [hne, hd]
  | udprecv k =>
    obtain ⟨s₁, hs₁, he⟩ := Outcome.map_eq_next.mp hs
    cases he
    obtain ⟨hpc, hcaller, -, hmsg, -⟩ := udprecvStep_frame hs₁
    obtain ⟨hrel, hacc, hcalls⟩ := udprecvStep_keeps hs₁
    exact ⟨ht.mono hpc hmsg hrel hacc hcalls, hcaller⟩
  | consume =>
    obtain ⟨-, hs⟩ := Outcome.guard_eq_next.mp hs
    cases hs
    exact ⟨ht.mono rfl rfl rfl List.prefix_rfl fun d hd => ⟨hd, rfl⟩, rfl⟩
  | call caller =>
    -- the rx thread receives no call while it serves one
    obtain ⟨hpc, -⟩ := Outcome.guard_eq_next.mp hs
    cases o with
    | none => simp [Taken, hpc] at ht
    | some v => simp [Taken, hpc] at ht

/-- A step of the rx thread up to the reply keeps it. -/
theorem rxStep (ht : s.Taken o) (hs : s.rxStep rxBufSize self sh = .next (sh', s')) (hpc : s.pc ≠ .reply) :
    s'.Taken o ∧ s'.caller = s.caller := by
  unfold RxServer.rxStep at hs
  cases o with
  | none =>
    obtain ⟨hp | hp, hm⟩ := ht
    · simp only [hp, Outcome.next.injEq, Prod.mk.injEq] at hs
      obtain ⟨-, rfl⟩ := hs
      exact ⟨⟨Or.inr rfl, hm⟩, rfl⟩
    · exact absurd hp hpc
  | some v =>
    obtain ⟨hp | hp | hp | hp, hm, hrest⟩ := ht
    · simp only [hp, Outcome.next.injEq, Prod.mk.injEq] at hs
      obtain ⟨-, rfl⟩ := hs
      exact ⟨⟨Or.inr (Or.inl rfl), hm, hrest⟩, rfl⟩
    · simp only [hp] at hs
      split at hs
      · cases hs
      · simp only [Outcome.next.injEq, Prod.mk.injEq] at hs
        obtain ⟨-, rfl⟩ := hs
        exact ⟨⟨Or.inr (Or.inr (Or.inl rfl)), hm, hrest⟩, rfl⟩
    · simp only [hp] at hs
      split at hs
      · split at hs
        all_goals
          simp only [Outcome.next.injEq, Prod.mk.injEq] at hs
          obtain ⟨-, rfl⟩ := hs
          exact ⟨⟨Or.inr (Or.inr (Or.inl rfl)), hm, hrest⟩, rfl⟩
      · obtain ⟨-, -, hs⟩ := bind_ok (Outcome.ofExcept_eq_next.mp hs)
        cases hs
        exact ⟨⟨Or.inr (Or.inr (Or.inr rfl)), hm, hrest⟩, rfl⟩
    · exact absurd hp hpc

end Taken

end RxServer

namespace RxInv

variable {rxBufSize : Nat} {self : IfaceHolder} {sh sh' : RxShared} {s s' : RxServer} {past queue : List Nat}
  {free live : List Ptr} {o : Option Served}

/-- The first datagram accepted and not released is the head of the queue. -/
theorem getElem?_released (h : RxInv s past queue free live) : s.accepted[s.released]? = queue.head? := by
  rw [h.accepted, h.released, List.getElem?_append_right (Nat.le_refl _), Nat.sub_self, List.head?_eq_getElem?]

/-- Looking at the queue, the rx thread sees its head. -/
theorem head_eq (h : RxInv s past queue free live) (hpc : s.pc.inSection = true) : s.head = queue.head? := by
  have hentries : s.msgs.entries = live.head? := by rw [h.queued.rep.liveList.head, List.head?_eq_getElem?]
  rw [RxServer.head, hentries]
  cases hl : live.head? with
  | some n =>
    obtain ⟨d, hd, -, hmem⟩ := h.head_filled hpc hl
    rw [Option.bind_some, hmem, hd]
    rfl
  | none =>
    have hholds := h.queued.holds
    rw [List.head?_eq_none_iff.mp hl] at hholds
    cases hholds
    rfl

/-- The look at the queue: the rx thread takes its head for the call, or nothing if it is empty. -/
theorem peek (h : RxInv s past queue free live) (hpc : s.pc = .peek) (hs : s.rxStep rxBufSize self sh = .next (sh', s')) :
    s'.Taken s.headServed ∧ s'.caller = s.caller := by
  have hl := h.locals
  rw [RxServer.Local, hpc] at hl
  have hin : s.pc.inSection = true := by rw [hpc]; rfl
  have hhead := h.head_eq hin
  have hentries : s.msgs.entries = live.head? := by rw [h.queued.rep.liveList.head, List.head?_eq_getElem?]
  simp only [RxServer.rxStep, hpc] at hs
  cases hlive : live.head? with
  | none =>
    have hnone : s.headServed = none := by
      rw [RxServer.headServed, RxServer.head, hentries, hlive]
      rfl
    rw [hentries, hlive] at hs
    cases hs
    rw [hnone]
    exact ⟨⟨Or.inl rfl, hl.1⟩, rfl⟩
  | some n =>
    obtain ⟨d, hd, -⟩ := h.head_filled hin hlive
    rw [hentries, hlive] at hs
    obtain ⟨-, -, hs⟩ := bind_ok (Outcome.ofExcept_eq_next.mp hs)
    cases hs
    rw [RxServer.headServed, hhead, hd]
    refine ⟨⟨Or.inl rfl, by simp, ?_, ?_, rfl⟩, rfl⟩
    · exact h.getElem?_released.trans hd
    · exact h.not_idle (List.mem_append_right _ (List.mem_of_mem_head? hd))

/-- The reply carries what was taken. -/
theorem replyDatagram (h : RxInv s past queue free live) (ht : s.Taken o) (hpc : s.pc = .reply) :
    UdpProcess.replyDatagram s = o ∧ s.packetLen = (o.map Served.packetLen).getD 0 ∧
      ∀ v, o = some v → s.ipaddr = v.addr ∧ s.port = v.port := by
  cases o with
  | none =>
    obtain ⟨-, hm⟩ := ht
    have hl := h.locals
    rw [RxServer.Local, hpc] at hl
    refine ⟨by simp [UdpProcess.replyDatagram, hm], ?_, by simp⟩
    rcases hl with ⟨-, hlen⟩ | ⟨⟨n, d, -, -, hmsg, -⟩, -⟩
    · exact hlen
    · rw [hm] at hmsg
      cases hmsg
  | some v =>
    obtain ⟨-, hm, ha, -, hv⟩ := ht
    obtain ⟨msg, hmsg⟩ := Option.ne_none_iff_exists'.mp hm
    obtain ⟨d, hd, hchain, hsv, -⟩ := h.replyMsg hpc hmsg
    rw [h.getElem?_released, hd] at ha
    obtain rfl := Option.some.inj ha
    rw [hv] at hsv
    refine ⟨?_, ?_, ?_⟩
    · simp only [UdpProcess.replyDatagram, hmsg, Option.bind_some, hchain, Option.map_some]
      exact congrArg some hsv
    · exact congrArg Served.packetLen hsv
    · rintro _ ⟨⟩
      exact ⟨congrArg Served.addr hsv, congrArg Served.port hsv⟩

end RxInv

/-! ## The caller -/

/-- The thread has been replied to with this datagram, or with none, and stands between the reply and its return. -/
def UdpThread.Answered (t : UdpThread) (o : Option Served) : Prop :=
  t.datagram = o ∧ t.len = (o.map Served.packetLen).getD 0 ∧ (∀ v, o = some v → t.addr = v.addr ∧ t.port = v.port) ∧
    match t.pc with
    | .recvCheck => True
    | .recvCopy _ => 0 < t.len ∧ t.len ≤ t.maxLen
    | .recvGive => t.error = if t.len > t.maxLen then notEnoughMemory else if t.len = 0 then -1 else 0
    | _ => False

/-- The action is a thread's call of `sel4osapi_udp_send` or `sel4osapi_udp_recv`. -/
def UdpAction.begins (c : Nat) : UdpAction → Bool
  | .send d _ _ _ _ => decide (d = c)
  | .recv d _ _ => decide (d = c)
  | _ => false

namespace UdpProcess

variable {cfg : UdpConfig} {intact : Prop} {s s' : UdpProcess} {a : UdpAction} {c i : Nat} {o : Option Served}

/-- The reply of an rx thread reaches its caller. -/
theorem step_rx_reply (hs : s.step cfg (.rx i) = .next s') (hp : (s.rx i).pc = .reply) :
    s'.threads (s.rx i).caller = { s.threads (s.rx i).caller with
      pc := .recvCheck, len := (s.rx i).reply.mr0.toNat, addr := (s.rx i).reply.mr2, port := (s.rx i).reply.mr1.toUInt16
      datagram := replyDatagram (s.rx i) } := by
  simp only [step, rxStep, Outcome.map_eq_next] at hs
  obtain ⟨s₁, ⟨⟨sh, server⟩, -, rfl⟩, rfl⟩ := hs
  rw [if_pos hp]
  exact Function.update_self ..

/-- What a step does to a thread: nothing, or it begins a call of the thread or is a step of it, or a tx or an rx thread replies
to it. -/
theorem step_threads (hs : s.step cfg a = .next s') (c : Nat) :
    s'.threads c = s.threads c ∨ a.begins c = true ∨ a = .thread c ∨ (∃ i, (s.tx i).pc = .reply ∧ (s.tx i).caller = c) ∨
      ∃ i, a = .rx i ∧ (s.rx i).pc = .reply ∧ (s.rx i).caller = c := by
  cases a with
  | send d socket msg addr port | recv d socket maxLen =>
    simp only [step, Outcome.guard_eq_next, Outcome.ofExcept_eq_next] at hs
    obtain ⟨-, hs⟩ := hs
    obtain ⟨-, -, hs⟩ := bind_ok hs
    cases hs
    rcases eq_or_ne d c with rfl | hne
    · exact Or.inr (Or.inl (by simp [UdpAction.begins]))
    · exact Or.inl (Function.update_of_ne hne.symm _ _)
  | thread d =>
    rcases eq_or_ne d c with rfl | hne
    · exact Or.inr (Or.inr (Or.inl rfl))
    · obtain ⟨t', hthreads, -⟩ := threadStep_threads hs
      exact Or.inl (by rw [hthreads, Function.update_of_ne hne.symm])
  | tx i allocOk lwerr =>
    obtain ⟨-, hthreads | ⟨hp, hthreads⟩⟩ := txStep_frame hs
    · exact Or.inl (congrFun hthreads c)
    · rcases eq_or_ne (s.tx i).caller c with hc | hne
      · exact Or.inr (Or.inr (Or.inr (Or.inl ⟨i, hp, hc⟩)))
      · exact Or.inl (by rw [hthreads, Function.update_of_ne hne.symm])
  | rx i =>
    simp only [step, rxStep, Outcome.map_eq_next] at hs
    obtain ⟨s₁, ⟨⟨sh, server⟩, -, rfl⟩, rfl⟩ := hs
    split
    · rename_i hp
      rcases eq_or_ne (s.rx i).caller c with rfl | hne
      · exact Or.inr (Or.inr (Or.inr (Or.inr ⟨i, rfl, hp, rfl⟩)))
      · exact Or.inl (Function.update_of_ne hne.symm _ _)
    · exact Or.inl rfl
  | arrive i p addr port | udprecv i k =>
    obtain ⟨⟨sh, server⟩, -, rfl⟩ := Outcome.map_eq_next.mp hs
    exact Or.inl rfl
  | driverLock j | driverUnlock j =>
    simp only [step, Outcome.guard_eq_next, Outcome.next.injEq] at hs
    obtain ⟨-, rfl⟩ := hs
    exact Or.inl rfl

/-- A step of the rx thread of a socket. -/
theorem step_rx_self (hs : (udpMachine cfg).step s (.rx i) = .next s') :
    ∃ sh, (s.rx i).rxStep cfg.rxBufSize.toNat (.rx i) (s.rxShared cfg i) = .next (sh, s'.rx i) := by
  simp only [udpMachine, step, rxStep, Outcome.map_eq_next] at hs
  obtain ⟨s₁, ⟨⟨sh, server⟩, hst, rfl⟩, rfl⟩ := hs
  have hst : (s.rx i).rxStep cfg.rxBufSize.toNat (.rx i) (s.rxShared cfg i) = .next (sh, server) := hst
  refine ⟨sh, ?_⟩
  split <;> simpa [deliver, setThread] using hst

/-- What a step does to the receive side of a socket: nothing, or it is one of its rx thread, or another of its steps. -/
theorem step_rx (hs : s.step cfg a = .next s') (i : Nat) :
    s'.rx i = s.rx i ∨ (a = .rx i ∧ ∃ sh, (s.rx i).rxStep cfg.rxBufSize.toNat (.rx i) (s.rxShared cfg i) = .next (sh, s'.rx i)) ∨
      ∃ sh ra, ra ≠ .rx ∧ (s.rx i).step cfg.rxBufSize.toNat (.rx i) (s.rxShared cfg i) ra = .next (sh, s'.rx i) := by
  -- a step of the receive side of socket `j`, other than one of its rx thread
  have other : ∀ (j : Nat) (ra : RxAction) (s₁ : UdpProcess), ra ≠ .rx → s.rxStep cfg j ra = .next s₁ →
      s₁.rx i = s.rx i ∨
        ∃ sh ra, ra ≠ .rx ∧ (s.rx i).step cfg.rxBufSize.toNat (.rx i) (s.rxShared cfg i) ra = .next (sh, s₁.rx i) := by
    intro j ra s₁ hra h
    obtain ⟨⟨sh, server⟩, hst, rfl⟩ := Outcome.map_eq_next.mp h
    rcases eq_or_ne i j with rfl | hne
    · exact Or.inr ⟨sh, ra, hra, by simpa using hst⟩
    · exact Or.inl (Function.update_of_ne hne _ _)
  cases a with
  | send d socket msg addr port | recv d socket maxLen =>
    simp only [step, Outcome.guard_eq_next, Outcome.ofExcept_eq_next] at hs
    obtain ⟨-, hs⟩ := hs
    obtain ⟨-, -, hs⟩ := bind_ok hs
    cases hs
    exact Or.inl rfl
  | thread d =>
    unfold step threadStep at hs
    cases hp : (s.threads d).pc with
    | idle | sendAwait | recvAwait => simp [hp] at hs
    | sendTake | recvTake =>
      simp only [hp, Outcome.guard_eq_next, Outcome.next.injEq] at hs
      obtain ⟨-, rfl⟩ := hs
      exact Or.inl rfl
    | sendCall =>
      simp only [hp, Outcome.guard_eq_next, Outcome.ofExcept_eq_next] at hs
      obtain ⟨server, -, hs⟩ := bind_ok hs.2
      cases hs
      exact Or.inl rfl
    | sendCopy j | recvCopy j =>
      simp only [hp] at hs
      split at hs
      all_goals
        cases hs
        exact Or.inl rfl
    | sendGive | recvGive =>
      simp only [hp, Outcome.next.injEq] at hs
      subst hs
      exact Or.inl rfl
    | recvWait =>
      simp only [hp] at hs
      obtain ⟨s₁, h, rfl⟩ := Outcome.map_eq_next.mp hs
      exact (other _ _ s₁ RxAction.noConfusion h).imp id Or.inr
    | recvCall =>
      simp only [hp] at hs
      obtain ⟨s₁, h, rfl⟩ := Outcome.map_eq_next.mp hs
      exact (other _ _ s₁ RxAction.noConfusion h).imp id Or.inr
    | recvCheck =>
      simp only [hp] at hs
      split at hs
      · cases hs
        exact Or.inl rfl
      · split at hs
        all_goals
          cases hs
          exact Or.inl rfl
  | tx j allocOk lwerr => exact Or.inl (congrFun (txStep_frame hs).1 i)
  | rx j =>
    rcases eq_or_ne i j with rfl | hne
    · exact Or.inr (Or.inl ⟨rfl, step_rx_self hs⟩)
    · simp only [step, rxStep, Outcome.map_eq_next] at hs
      obtain ⟨s₁, ⟨⟨sh, server⟩, -, rfl⟩, rfl⟩ := hs
      left
      split <;> simp [deliver, setThread, hne]
  | arrive j p addr port => exact (other j _ s' RxAction.noConfusion hs).imp id Or.inr
  | udprecv j k => exact (other j _ s' RxAction.noConfusion hs).imp id Or.inr
  | driverLock j | driverUnlock j =>
    simp only [step, Outcome.guard_eq_next, Outcome.next.injEq] at hs
    obtain ⟨-, rfl⟩ := hs
    exact Or.inl rfl

/-- The call of thread `c` for which the rx thread of socket `i` has looked at the queue: the rx thread has what it took, or the
thread has been answered with it, or has returned. -/
def Follows (s : UdpProcess) (c i : Nat) (o : Option Served) : Prop :=
  ((s.rx i).caller = c ∧ (s.rx i).Taken o) ∨ (s.threads c).Answered o ∨ (s.threads c).pc = .idle

/-- A step of a thread that has been answered. -/
theorem answered_threadStep (ha : (s.threads c).Answered o) (hs : s.threadStep cfg c = .next s') :
    (s'.threads c).Answered o ∨ (s'.threads c).pc = .idle := by
  obtain ⟨hd, hlen, haddr, hpc⟩ := ha
  unfold threadStep at hs
  cases hp : (s.threads c).pc with
  | recvCheck =>
    simp only [hp] at hs
    split at hs
    · rename_i hgt
      cases hs
      left
      simp only [setThread, Function.update_self]
      exact ⟨hd, hlen, haddr, by simp [hgt]⟩
    · rename_i hle
      split at hs
      · rename_i hz
        cases hs
        left
        simp only [setThread, Function.update_self]
        exact ⟨hd, hlen, haddr, by simp [hz]⟩
      · rename_i hnz
        cases hs
        left
        simp only [setThread, Function.update_self]
        exact ⟨hd, hlen, haddr, by simp only; omega⟩
  | recvCopy j =>
    simp only [hp] at hs hpc
    split at hs
    · cases hs
      left
      simp only [setThread, Function.update_self]
      exact ⟨hd, hlen, haddr, hpc⟩
    · cases hs
      left
      simp only [setThread, Function.update_self]
      refine ⟨hd, hlen, haddr, ?_⟩
      simp only
      rw [if_neg (by omega), if_neg (by omega)]
  | recvGive =>
    simp only [hp, Outcome.next.injEq] at hs
    subst hs
    exact Or.inr (by simp [setThread])
  | _ => simp [hp] at hpc

/-- Every step but the caller's next call keeps it. -/
theorem Follows.step (h : ProcessInv cfg intact s) (hf : s.Follows c i o) (hs : s.step cfg a = .next s') (hb : a.begins c = false) :
    s'.Follows c i o := by
  -- the caller, once it is answered, moves by its own steps only
  have hown : (s.threads c).pc ≠ .sendAwait → (s.threads c).pc ≠ .recvAwait → s'.threads c = s.threads c ∨ a = .thread c := by
    intro hsend hrecv
    rcases step_threads hs c with he | hb' | ha | ⟨j, hp, rfl⟩ | ⟨j, -, hp, rfl⟩
    · exact Or.inl he
    · rw [hb] at hb'
      cases hb'
    · exact Or.inr ha
    · exact absurd (h.send.serves j (by simp [hp])).pc hsend
    · exact absurd (h.recv.serves j (by rw [hp]; rfl)).1 hrecv
  rcases hf with ⟨hc, ht⟩ | ha | hidle
  · obtain ⟨past, queue, free, live, hinv⟩ := h.rx i
    rcases step_rx hs i with he | ⟨rfl, sh, hst⟩ | ⟨sh, ra, hra, hst⟩
    · exact Or.inl (by rw [he]; exact ⟨hc, ht⟩)
    · by_cases hp : (s.rx i).pc = .reply
      · -- the reply reaches the caller
        obtain ⟨hdatagram, hlen, haddr⟩ := hinv.replyDatagram ht hp
        refine Or.inr (Or.inl ?_)
        rw [← hc, step_rx_reply hs hp, h.recv.reply_len hinv hp cfg.rxBufSize.toNat_lt, RxServer.reply_mr1, RxServer.reply_mr2]
        exact ⟨hdatagram, hlen, haddr, trivial⟩
      · obtain ⟨ht', hc'⟩ := ht.rxStep hst hp
        exact Or.inl ⟨hc'.trans hc, ht'⟩
    · obtain ⟨ht', hc'⟩ := ht.step hinv hst hra
      exact Or.inl ⟨hc'.trans hc, ht'⟩
  · have hpcs : (s.threads c).pc ≠ .sendAwait ∧ (s.threads c).pc ≠ .recvAwait := by
      obtain ⟨-, -, -, hpc⟩ := ha
      constructor <;> (intro e; simp [e] at hpc)
    rcases hown hpcs.1 hpcs.2 with he | rfl
    · exact Or.inr (Or.inl (he ▸ ha))
    · exact Or.inr (answered_threadStep ha hs)
  · rcases hown (by simp [hidle]) (by simp [hidle]) with he | rfl
    · exact Or.inr (Or.inr (he ▸ hidle))
    · simp [UdpProcess.step, threadStep, hidle] at hs

/-- Every run without a further call of the caller keeps it. -/
theorem Follows.exec (hr : (udpMachine cfg).Reachable s) (hf : s.Follows c i o) {as : List UdpAction}
    (hexec : (udpMachine cfg).exec s as = some s') (hb : ∀ a ∈ as, a.begins c = false) : s'.Follows c i o := by
  induction as generalizing s with
  | nil =>
    cases hexec
    exact hf
  | cons a as ih =>
    unfold Machine.exec at hexec
    split at hexec
    · rename_i s₁ hs₁
      exact ih (hr.step a hs₁) (hf.step (process_inv hr) hs₁ (hb a List.mem_cons_self)) hexec
        fun a' ha' => hb a' (List.mem_cons_of_mem _ ha')
    · cases hexec

/-- What the caller has at its return. -/
theorem Follows.result (h : ProcessInv cfg intact s) (hf : s.Follows c i o) (hp : (s.threads c).pc = .recvGive) :
    (s.threads c).len = (o.map Served.packetLen).getD 0 ∧
    (∀ v, o = some v → (s.threads c).addr = v.addr ∧ (s.threads c).port = v.port) ∧
    ((s.threads c).error =
      if (s.threads c).len > (s.threads c).maxLen then notEnoughMemory else if (s.threads c).len = 0 then -1 else 0) ∧
    if (s.threads c).error = 0 then ∃ v, o = some v ∧ (s.threads c).msg = v.data else (s.threads c).msg = [] := by
  rcases hf with ⟨rfl, ht⟩ | ⟨hd, hlen, haddr, hpc⟩ | hidle
  · -- while the rx thread has not replied, the caller awaits the reply
    have hserving : (s.rx i).pc.serving = true := by
      cases o with
      | none => obtain ⟨hp' | hp', -⟩ := ht <;> (rw [hp']; rfl)
      | some v => obtain ⟨hp' | hp' | hp' | hp', -⟩ := ht <;> (rw [hp']; rfl)
    rw [(h.recv.serves i hserving).1] at hp
    cases hp
  · rw [hp] at hpc
    refine ⟨hlen, haddr, hpc, ?_⟩
    have hcopied := h.recv.copied c
    rw [UdpThread.CopiedOut, hp] at hcopied
    simp only at hcopied
    split
    · rename_i he
      rw [if_pos he] at hcopied
      obtain ⟨v, hv, -, hmsg⟩ := hcopied
      exact ⟨v, hd.symm.trans hv, hmsg⟩
    · rename_i he
      rwa [if_neg he] at hcopied
  · rw [hidle] at hp
    cases hp

end UdpProcess

/-! ## From the look at the queue to the return -/

namespace RxServer

/-- The steps the copy loop has to take over the buffers of a chain. -/
def copySteps (q : List (List UInt8)) : Nat := (q.map fun seg => seg.length + 1).sum

/-- The steps the rx thread has to take before it replies. -/
def left (s : RxServer) : Nat :=
  match s.pc with
  | .unlockPeek => copySteps ((s.accepted[s.released]?).elim [] fun d => (s.calls d).p) + 3
  | .load => copySteps ((s.accepted[s.released]?).elim [] fun d => (s.calls d).p) + 2
  | .copy => copySteps s.q + 1 - s.off
  | .unlockEmpty => 1
  | _ => 0

end RxServer

/-- The rx thread goes on to the reply with what it has taken, if that fits in `rx_buf`. -/
theorem RxInv.exists_rxStep {s : RxServer} {past queue : List Nat} {free live : List Ptr} {o : Option Served}
    (h : RxInv s past queue free live) (ht : s.Taken o) {rxBufSize : Nat}
    (hfits : ∀ v, o = some v → v.data.length ≤ rxBufSize) (hpc : s.pc ≠ .reply) (self : IfaceHolder) (sh : RxShared) :
    ∃ sh' s', s.rxStep rxBufSize self sh = .next (sh', s') ∧ s'.left < s.left := by
  have hl := h.locals
  unfold RxServer.rxStep
  cases o with
  | none =>
    obtain ⟨hp | hp, -⟩ := ht
    · exact ⟨_, _, by simp only [hp]; rfl, by simp [RxServer.left, hp]⟩
    · exact absurd hp hpc
  | some v =>
    obtain ⟨hp | hp | hp | hp, hm, ha, -, hv⟩ := ht
    · exact ⟨_, _, by simp only [hp]; rfl, by simp [RxServer.left, hp]⟩
    · rw [RxServer.Local, hp] at hl
      obtain ⟨n, t, d, rest, -, hq, hmsg, -, hmem⟩ := h.serving_head hl.1
      have hd : s.accepted[s.released]? = some d := by rw [h.getElem?_released, hq]; rfl
      exact ⟨_, _, by simp only [hp, hmsg, hmem]; rfl, by simp [RxServer.left, hp, hd, Udprecv.message]⟩
    · rw [RxServer.Local, hp] at hl
      obtain ⟨-, d, done, hd, -, -, -, hchain, hlen, hoff, -⟩ := hl
      cases hq : s.q with
      | nil =>
        have hvd : v.pbuf = d := Option.some.inj (ha.symm.trans (h.getElem?_released.trans hd))
        have hdata : v.data = (s.calls d).p.flatten := by
          rw [← hv, hvd]
          rfl
        have hle : s.packetLen ≤ rxBufSize := by
          have := hfits v rfl
          rwa [hdata, hchain, hq, List.append_nil, ← hlen] at this
        have hoff : s.off = 0 := by simpa [hq] using hoff
        exact ⟨_, _, by simp only [hp, check_of_true hle, ok_bind]; rfl, by simp [RxServer.left, hp, hq, hoff]⟩
      | cons seg q =>
        rw [hq, List.headD_cons] at hoff
        cases hb : seg[s.off]? with
        | some b =>
          have hlt := (List.getElem?_eq_some_iff.mp hb).1
          refine ⟨_, _, by simp only [hp, hb]; rfl, ?_⟩
          simp only [RxServer.left, hp, hq, RxServer.copySteps, List.map_cons, List.sum_cons]
          omega
        | none =>
          have hge := List.getElem?_eq_none_iff.mp hb
          refine ⟨_, _, by simp only [hp, hb]; rfl, ?_⟩
          simp only [RxServer.left, hp, hq, RxServer.copySteps, List.map_cons, List.sum_cons]
          omega
    · exact absurd hp hpc

/-- The rx thread can look at the queue. -/
theorem RxInv.exists_peek {s : RxServer} {past queue : List Nat} {free live : List Ptr} (h : RxInv s past queue free live)
    (hpc : s.pc = .peek) (rxBufSize : Nat) (self : IfaceHolder) (sh : RxShared) :
    ∃ sh' s', s.rxStep rxBufSize self sh = .next (sh', s') := by
  rcases h.rxStep rxBufSize self sh with hb | ⟨-, hcopy, -⟩ | ⟨sh', s', hst, -⟩
  · simp only [RxServer.rxStep, hpc] at hb
    split at hb
    · cases hb
    · exact absurd hb Outcome.ofExcept_ne_blocked
  · rw [hpc] at hcopy
    cases hcopy
  · exact ⟨sh', s', hst⟩

/-- The rx thread can reply. -/
theorem RxServer.exists_reply (s : RxServer) (hpc : s.pc = .reply) (rxBufSize : Nat) (self : IfaceHolder) (sh : RxShared) :
    ∃ sh' s', s.rxStep rxBufSize self sh = .next (sh', s') := by
  simp only [RxServer.rxStep, hpc]
  cases s.msg with
  | none => exact ⟨_, _, rfl⟩
  | some msg => exact ⟨_, _, rfl⟩

namespace UdpProcess

variable {cfg : UdpConfig} {s : UdpProcess} {c i : Nat} {o : Option Served}

/-- A step of an rx thread is a step of the process. -/
theorem exists_step_rx {sh : RxShared} {server : RxServer}
    (hst : (s.rx i).rxStep cfg.rxBufSize.toNat (.rx i) (s.rxShared cfg i) = .next (sh, server)) :
    ∃ s', (udpMachine cfg).step s (.rx i) = .next s' ∧ s'.rx i = server := by
  have hst : (s.rx i).step cfg.rxBufSize.toNat (.rx i) (s.rxShared cfg i) .rx = .next (sh, server) := hst
  refine ⟨_, by simp only [udpMachine, step, rxStep, hst]; rfl, ?_⟩
  split <;> simp [deliver, setThread]

/-- The rx thread alone gets from the look at the queue to the reply. -/
theorem exists_reply (hr : (udpMachine cfg).Reachable s) (hc : (s.rx i).caller = c) (ht : (s.rx i).Taken o)
    (hfits : ∀ v, o = some v → v.data.length ≤ cfg.rxBufSize.toNat) :
    ∃ as s', (udpMachine cfg).exec s as = some s' ∧ (∀ a ∈ as, a = .rx i) ∧ (s'.rx i).caller = c ∧ (s'.rx i).Taken o ∧
      (s'.rx i).pc = .reply := by
  obtain ⟨n, hn⟩ : ∃ n, (s.rx i).left = n := ⟨_, rfl⟩
  induction n using Nat.strongRecOn generalizing s with
  | ind n ih =>
    by_cases hp : (s.rx i).pc = .reply
    · exact ⟨[], s, rfl, by simp, hc, ht, hp⟩
    · obtain ⟨past, queue, free, live, hinv⟩ := (process_inv hr).rx i
      obtain ⟨sh, server, hst, hlt⟩ := hinv.exists_rxStep ht hfits hp (.rx i) (s.rxShared cfg i)
      obtain ⟨s₁, hs₁, rfl⟩ := exists_step_rx hst
      obtain ⟨ht₁, hc₁⟩ := ht.rxStep hst hp
      obtain ⟨as, s', hexec, hall, hrest⟩ := ih _ (hn ▸ hlt) (hr.step _ hs₁) (hc₁.trans hc) ht₁ rfl
      refine ⟨.rx i :: as, s', (Machine.exec_cons hs₁ as).trans hexec, ?_, hrest⟩
      intro a ha
      rcases List.mem_cons.mp ha with rfl | ha
      · rfl
      · exact hall a ha

/-- A thread copying its datagram gets to its return by itself. -/
theorem exists_give_of_copy (cfg : UdpConfig) (n : Nat) {j : Nat} (hp : (s.threads c).pc = .recvCopy j) (hn : (s.threads c).len - j = n) :
    ∃ as s', (udpMachine cfg).exec s as = some s' ∧ (∀ a ∈ as, a = .thread c) ∧ (s'.threads c).pc = .recvGive := by
  induction n generalizing s j with
  | zero =>
    have hstep : (udpMachine cfg).step s (.thread c) = .next (s.setThread c { s.threads c with error := 0, pc := .recvGive }) := by
      simp only [udpMachine, step, threadStep, hp]
      rw [if_neg (by omega)]
    exact ⟨[.thread c], _, Machine.exec_singleton hstep, by simp, by simp [setThread]⟩
  | succ n ih =>
    have hstep : (udpMachine cfg).step s (.thread c) = .next (s.setThread c
        { s.threads c with msg := (s.threads c).msg ++ [s.rxBuf cfg j], pc := .recvCopy (j + 1) }) := by
      simp only [udpMachine, step, threadStep, hp]
      rw [if_pos (by omega)]
    obtain ⟨as, s', hexec, hall, hp'⟩ := @ih (s.setThread c
      { s.threads c with msg := (s.threads c).msg ++ [s.rxBuf cfg j], pc := .recvCopy (j + 1) }) (j + 1)
      (by simp [setThread]) (by simp only [setThread, Function.update_self]; omega)
    refine ⟨.thread c :: as, s', (Machine.exec_cons hstep as).trans hexec, ?_, hp'⟩
    intro a ha
    rcases List.mem_cons.mp ha with rfl | ha
    · rfl
    · exact hall a ha

/-- A thread that has been replied to gets to its return by itself. -/
theorem exists_give_of_check (cfg : UdpConfig) (hp : (s.threads c).pc = .recvCheck) :
    ∃ as s', (udpMachine cfg).exec s as = some s' ∧ (∀ a ∈ as, a = .thread c) ∧ (s'.threads c).pc = .recvGive := by
  have hstep : ∀ s₁, s.threadStep cfg c = .next s₁ → (udpMachine cfg).step s (.thread c) = .next s₁ := fun _ h => h
  unfold threadStep at hstep
  simp only [hp] at hstep
  by_cases hgt : (s.threads c).len > (s.threads c).maxLen
  · have h := hstep _ (if_pos hgt)
    exact ⟨[.thread c], _, Machine.exec_singleton h, by simp, by simp [setThread]⟩
  · by_cases hz : (s.threads c).len = 0
    · have h := hstep _ ((if_neg hgt).trans (if_pos hz))
      exact ⟨[.thread c], _, Machine.exec_singleton h, by simp, by simp [setThread]⟩
    · have h := hstep _ ((if_neg hgt).trans (if_neg hz))
      generalize hs₁ : s.setThread c { s.threads c with pc := .recvCopy 0 } = s₁ at h
      have hp₁ : (s₁.threads c).pc = .recvCopy 0 := by
        rw [← hs₁]
        simp [setThread]
      obtain ⟨as, s', hexec, hall, hp'⟩ := exists_give_of_copy cfg _ hp₁ rfl
      refine ⟨.thread c :: as, s', (Machine.exec_cons h as).trans hexec, ?_, hp'⟩
      intro a ha
      rcases List.mem_cons.mp ha with rfl | ha
      · rfl
      · exact hall a ha

/-- From the look at the queue on, the rx thread and the caller alone get to the return of the call. -/
theorem exists_return (hr : (udpMachine cfg).Reachable s) (hp : (s.rx i).pc = .peek)
    (hfits : ∀ v, (s.rx i).headServed = some v → v.data.length ≤ cfg.rxBufSize.toNat) :
    ∃ as s', (udpMachine cfg).exec s (.rx i :: as) = some s' ∧ (∀ a ∈ as, a.begins (s.rx i).caller = false) ∧
      (s'.threads (s.rx i).caller).pc = .recvGive := by
  obtain ⟨past, queue, free, live, hinv⟩ := (process_inv hr).rx i
  obtain ⟨sh, server, hst⟩ := hinv.exists_peek hp cfg.rxBufSize.toNat (.rx i) (s.rxShared cfg i)
  obtain ⟨ht₁, hc₁⟩ := hinv.peek hp hst
  obtain ⟨s₁, hs₁, rfl⟩ := exists_step_rx hst
  obtain ⟨as₁, s₂, hexec₁, hall₁, hc₂, -, hp₂⟩ := exists_reply (hr.step _ hs₁) hc₁ ht₁ hfits
  have hr₂ := (hr.step _ hs₁).exec hexec₁
  obtain ⟨sh₂, server₂, hst₂⟩ := (s₂.rx i).exists_reply hp₂ cfg.rxBufSize.toNat (.rx i) (s₂.rxShared cfg i)
  obtain ⟨s₃, hs₃, -⟩ := exists_step_rx hst₂
  have hp₃ : (s₃.threads (s.rx i).caller).pc = .recvCheck := by rw [← hc₂, step_rx_reply hs₃ hp₂]
  obtain ⟨as₂, s₄, hexec₂, hall₂, hp₄⟩ := exists_give_of_check cfg hp₃
  refine ⟨as₁ ++ .rx i :: as₂, s₄, ?_, ?_, hp₄⟩
  · rw [Machine.exec_cons hs₁, Machine.exec_append hexec₁, Machine.exec_cons hs₃, hexec₂]
  · intro a ha
    rcases List.mem_append.mp ha with ha | ha
    · rw [hall₁ a ha]
      rfl
    · rcases List.mem_cons.mp ha with rfl | ha
      · rfl
      · rw [hall₂ a ha]
        rfl

end UdpProcess

end Sel4Osapi
