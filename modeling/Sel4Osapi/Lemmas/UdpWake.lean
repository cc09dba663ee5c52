import Sel4Osapi.Lemmas.UdpRecv

/-!
# The invariant behind the wake-ups of a socket's receivers

The notification `aep_rx_data` is one bit, so the rx thread has to signal again for the datagrams it leaves in the queue.
`remaining_msgs` is its knowledge of them. A datagram that it does not know of came after its last look at the queue, and
somebody is about to take care of it: `Covered`. Only a reply of the rx thread takes a client out of that, and it does not
count the client it serves.
-/

namespace Sel4Osapi

open Transition

/-- The thread has consumed a notification and has not been served yet. -/
def UdpPc.pending : UdpPc → Bool
  | .recvTake | .recvCall | .recvAwait => true
  | _ => false

/-- The call of `udprecv` has an entry and has not signalled yet. -/
def UdprecvPc.unsignalled : UdprecvPc → Bool
  | .store _ | .unlock | .signal => true
  | _ => false

/-- How many datagrams are in the queue. -/
def RxServer.queued (s : RxServer) : Int := s.accepted.length - s.released

/-- A datagram in the queue will not be left alone: the notification is set, a thread other than the one being served has
consumed it, or a call of `udprecv` has put a datagram in the queue and is about to set it. -/
def Covered (threads : Nat → UdpThread) (s : RxServer) (i : Nat) : Prop :=
  s.aepRxData = true ∨
    (∃ c, (threads c).pc.pending = true ∧ (threads c).socket = i ∧ (s.pc.serving = true → c ≠ s.caller)) ∨
    ∃ k ∈ s.accepted, (s.calls k).pc.unsignalled = true

/-- What covers a socket goes on covering it: no thread stops being pending, no call of `udprecv` forgets to signal. -/
theorem Covered.mono {threads threads' : Nat → UdpThread} {s s' : RxServer} {i : Nat} (h : Covered threads s i)
    (haep : s.aepRxData = true → s'.aepRxData = true)
    (hthreads : ∀ c, (s.pc.serving = true → c ≠ s.caller) → (threads c).pc.pending = true → (threads c).socket = i →
      ((threads' c).pc.pending = true ∧ (threads' c).socket = i ∧ (s'.pc.serving = true → c ≠ s'.caller)) ∨
        Covered threads' s' i)
    (hcalls : ∀ k ∈ s.accepted, (s.calls k).pc.unsignalled = true →
      (k ∈ s'.accepted ∧ (s'.calls k).pc.unsignalled = true) ∨ Covered threads' s' i) : Covered threads' s' i := by
  rcases h with h | ⟨c, hp, hs, hne⟩ | ⟨k, hk, hu⟩
  · exact Or.inl (haep h)
  · rcases hthreads c hne hp hs with hc | hc
    · exact Or.inr (Or.inl ⟨c, hc⟩)
    · exact hc
  · rcases hcalls k hk hu with hk' | hk'
    · exact Or.inr (Or.inr ⟨k, hk'⟩)
    · exact hk'

/-- The rx thread moves on: a call in service stays in service. -/
theorem Covered.server {threads : Nat → UdpThread} {s s' : RxServer} {i : Nat} (h : Covered threads s i)
    (haep : s.aepRxData = true → s'.aepRxData = true) (hacc : s'.accepted = s.accepted)
    (hcalls : ∀ k, (s'.calls k).pc = (s.calls k).pc)
    (hserving : s'.pc.serving = true → s.pc.serving = true ∧ s'.caller = s.caller) : Covered threads s' i := by
  refine h.mono haep (fun c hne hp hs => Or.inl ⟨hp, hs, ?_⟩) fun k hk hu => Or.inl ⟨hacc ▸ hk, by rw [hcalls]; exact hu⟩
  intro hs'
  rw [(hserving hs').2]
  exact hne (hserving hs').1

/-- What `remaining_msgs` says about the queue at each step of the rx thread, and that the datagrams it does not count are
covered. -/
def WakeInv (threads : Nat → UdpThread) (s : RxServer) (i : Nat) : Prop :=
  0 ≤ s.remainingMsgs ∧ match s.pc with
  | .top | .unlockFree => s.remainingMsgs ≤ s.queued ∧ (s.remainingMsgs < s.queued → Covered threads s i)
  | .signalMore | .lockPeek | .peek => s.remainingMsgs ≤ s.queued
  | .recv => s.remainingMsgs ≤ s.queued ∧ (0 < s.queued → Covered threads s i)
  | .unlockEmpty => s.remainingMsgs = 0 ∧ 0 ≤ s.queued ∧ (0 < s.queued → Covered threads s i)
  | .unlockPeek | .load | .copy =>
    1 ≤ s.remainingMsgs ∧ s.remainingMsgs ≤ s.queued ∧ (s.remainingMsgs < s.queued → Covered threads s i)
  | .reply =>
    (s.msg = none → s.remainingMsgs = 0 ∧ 0 ≤ s.queued ∧ (0 < s.queued → Covered threads s i)) ∧
      (s.msg ≠ none → s.remainingMsgs + 1 ≤ s.queued ∧ (s.remainingMsgs + 1 < s.queued → Covered threads s i))
  | .lockIface | .freePbuf | .unlockIface | .lockFree | .poolFree =>
    s.remainingMsgs + 1 ≤ s.queued ∧ (s.remainingMsgs + 1 < s.queued → Covered threads s i)

namespace WakeInv

variable {threads threads' : Nat → UdpThread} {s s' : RxServer} {i : Nat}

/-- While the rx thread does not move, the queue can only get longer, and then somebody has it covered. -/
theorem mono (h : WakeInv threads s i) (hpc : s'.pc = s.pc) (hrem : s'.remainingMsgs = s.remainingMsgs) (hmsg : s'.msg = s.msg)
    (hq : s.queued ≤ s'.queued) (hnew : s.queued < s'.queued → Covered threads' s' i)
    (hcov : Covered threads s i → Covered threads' s' i) : WakeInv threads' s' i := by
  -- a bound on the queue that leaves the rest covered is still one
  have hbound : ∀ b : Int, (b < s.queued → Covered threads s i) → b < s'.queued → Covered threads' s' i := by
    intro b hb hlt
    by_cases hgrown : s.queued < s'.queued
    · exact hnew hgrown
    · exact hcov (hb (by omega))
  unfold WakeInv at h ⊢
  rw [hpc, hrem, hmsg]
  refine ⟨h.1, ?_⟩
  have h := h.2
  cases hp : s.pc <;> simp only [hp] at h ⊢
  case top | unlockFree => exact ⟨by omega, hbound _ h.2⟩
  case signalMore | lockPeek | peek => omega
  case recv => exact ⟨by omega, hbound _ h.2⟩
  case unlockEmpty => exact ⟨h.1, by omega, hbound _ h.2.2⟩
  case unlockPeek | load | copy => exact ⟨h.1, by omega, hbound _ h.2.2⟩
  case reply =>
    refine ⟨?_, ?_⟩
    · intro hm
      obtain ⟨h₁, h₂, h₃⟩ := h.1 hm
      exact ⟨h₁, by omega, hbound _ h₃⟩
    · intro hm
      obtain ⟨h₁, h₂⟩ := h.2 hm
      exact ⟨by omega, hbound _ h₂⟩
  case lockIface | freePbuf | unlockIface | lockFree | poolFree => exact ⟨by omega, hbound _ h.2⟩

/-- A thread moves without ceasing to be pending for this socket. -/
theorem thread (h : WakeInv threads s i) {c : Nat} {t' : UdpThread}
    (ht : (threads c).pc.pending = true → (threads c).socket = i → t'.pc.pending = true ∧ t'.socket = i) :
    WakeInv (Function.update threads c t') s i := by
  refine h.mono rfl rfl rfl le_rfl (fun hlt => absurd hlt (lt_irrefl _)) ?_
  intro hcov
  refine hcov.mono id (fun d hne hp hs => Or.inl ?_) fun k hk hu => Or.inl ⟨hk, hu⟩
  rcases eq_or_ne d c with rfl | hdc
  · simpa using ⟨(ht hp hs).1, (ht hp hs).2, hne⟩
  · simpa [hdc] using ⟨hp, hs, hne⟩

/-- A call of `udprecv` moves, and if it covered something it still does. -/
theorem callMoves (h : WakeInv threads s i) {k : Nat} (hs : s' = { s with
      msgs := s'.msgs, msgsMutex := s'.msgsMutex, calls := s'.calls, arrivals := s'.arrivals, dropped := s'.dropped })
    (hother : ∀ j, j ≠ k → s'.calls j = s.calls j)
    (hkeep : k ∈ s.accepted → (s.calls k).pc.unsignalled = true → (s'.calls k).pc.unsignalled = true) :
    WakeInv threads s' i := by
  have hacc : s'.accepted = s.accepted := by rw [hs]
  have hcalls : ∀ j ∈ s.accepted, (s.calls j).pc.unsignalled = true → (s'.calls j).pc.unsignalled = true := by
    intro j hj hu
    rcases eq_or_ne j k with rfl | hne
    · exact hkeep hj hu
    · rw [hother j hne]
      exact hu
  refine h.mono (by rw [hs]) (by rw [hs]) (by rw [hs]) (by rw [hs]; rfl) (fun hlt => ?_) ?_
  · rw [hs] at hlt
    exact absurd hlt (lt_irrefl _)
  · intro hcov
    refine hcov.mono (by rw [hs]; exact id) (fun d hne hp hsock => Or.inl ⟨hp, hsock, ?_⟩) fun j hj hu =>
      Or.inl ⟨hacc ▸ hj, hcalls j hj hu⟩
    rw [hs]
    exact hne

/-- lwIP calls `udprecv`: a call that has no entry yet covers nothing. -/
theorem arrive (h : WakeInv threads s i) {c : Udprecv} (hidle : s.arrivals ∉ s.accepted) :
    WakeInv threads { s with calls := Function.update s.calls s.arrivals c, arrivals := s.arrivals + 1 } i :=
  h.callMoves (k := s.arrivals) rfl (fun _ hne => Function.update_of_ne hne _ _) fun hacc => absurd hacc hidle

/-- A step of `udprecv`: it puts its datagram in the queue before it signals, and signals before it is done. -/
theorem udprecvStep (h : WakeInv threads s i) {k : Nat} (hs : s.udprecvStep k = .next s') : WakeInv threads s' i := by
  -- the other calls stay where they are
  have hset : ∀ pc j, j ≠ k → s.setCallPc k pc j = s.calls j := fun pc j hne => by simp [RxServer.setCallPc, hne]
  have hself : ∀ pc, (s.setCallPc k pc k).pc = pc := fun pc => by simp [RxServer.setCallPc]
  unfold RxServer.udprecvStep at hs
  cases hp : (s.calls k).pc with
  | idle => simp [hp] at hs
  | done => simp [hp] at hs
  | lock =>
    simp only [hp, Outcome.guard_eq_next] at hs
    obtain ⟨-, hs⟩ := hs
    cases hs
    exact h.callMoves rfl (hset .alloc) (by simp [hp, UdprecvPc.unsignalled])
  | alloc =>
    simp only [hp, Outcome.ofExcept_eq_next] at hs
    obtain ⟨⟨m, msgs⟩, -, hs⟩ := bind_ok hs
    cases m with
    | none =>
      cases hs
      exact h.callMoves rfl (hset .drop) (by simp [hp, UdprecvPc.unsignalled])
    | some m =>
      cases hs
      have hnew : Covered threads { s with
          msgs := msgs, calls := s.setCallPc k (.store m), accepted := s.accepted ++ [k] } i :=
        Or.inr (Or.inr ⟨k, by simp, by simp [hself, UdprecvPc.unsignalled]⟩)
      exact h.mono rfl rfl rfl (by simp [RxServer.queued]) (fun _ => hnew) fun _ => hnew
  | store m =>
    simp only [hp, Outcome.next.injEq] at hs
    subst hs
    exact h.callMoves rfl (hset .unlock) (by simp [hself, UdprecvPc.unsignalled])
  | drop =>
    simp only [hp, Outcome.next.injEq] at hs
    subst hs
    refine h.callMoves (k := k) rfl ?_ (by simp [RxServer.pbufFree, RxServer.setCallPc, UdprecvPc.unsignalled])
    intro j hne
    simp [RxServer.pbufFree, RxServer.setCallPc, hne]
  | unlock =>
    simp only [hp, Outcome.next.injEq] at hs
    subst hs
    exact h.callMoves rfl (hset .signal) (by simp [hself, UdprecvPc.unsignalled])
  | signal =>
    simp only [hp, Outcome.next.injEq] at hs
    subst hs
    exact h.mono rfl rfl rfl le_rfl (fun hlt => absurd hlt (lt_irrefl _)) fun _ => Or.inl rfl

/-- A thread consumes the notification: from then on it is pending. -/
theorem consume (h : WakeInv threads s i) {c : Nat} (hsocket : (threads c).socket = i)
    (hne : s.pc.serving = true → c ≠ s.caller) :
    WakeInv (Function.update threads c { threads c with pc := .recvTake }) { s with aepRxData := false } i := by
  refine h.mono rfl rfl rfl le_rfl (fun hlt => absurd hlt (lt_irrefl _)) fun _ => Or.inr (Or.inl ⟨c, ?_, ?_, hne⟩)
  · simp [UdpPc.pending]
  · simpa using hsocket

/-- The rx thread receives a call: from here until it looks at the queue, nothing has to cover it. -/
theorem call (h : WakeInv threads s i) (hpc : s.pc = .recv) (caller : Nat) :
    WakeInv threads' { s with caller := caller, pc := .lockPeek } i := by
  unfold WakeInv at h ⊢
  rw [hpc] at h
  exact ⟨h.1, h.2.1⟩

/-- The rx thread replies: the thread it served was not counted on. -/
theorem reply (h : WakeInv threads s i) (hpc : s.pc = .reply) {t' : UdpThread} {served : List Served} {pc' : RxPc}
    (hpc' : pc' = if s.msg = none then .top else .lockIface) :
    WakeInv (Function.update threads s.caller t') { s with served := served, pc := pc' } i := by
  have hcov : Covered threads s i →
      Covered (Function.update threads s.caller t') { s with served := served, pc := pc' } i := by
    intro hcov
    refine hcov.mono id (fun c hne hp hs => Or.inl ?_) fun k hk hu => Or.inl ⟨hk, hu⟩
    have hne : c ≠ s.caller := hne (by rw [hpc]; rfl)
    rw [Function.update_of_ne hne]
    exact ⟨hp, hs, fun _ => hne⟩
  unfold WakeInv at h ⊢
  simp only [hpc] at h
  obtain ⟨h₀, hnone, hsome⟩ := h
  refine ⟨h₀, ?_⟩
  by_cases hm : s.msg = none
  · obtain ⟨hr, hq, hc⟩ := hnone hm
    rw [if_pos hm] at hpc'
    subst hpc'
    exact ⟨by rw [hr]; exact hq, fun hlt => hcov (hc (by rw [hr] at hlt; exact hlt))⟩
  · obtain ⟨hq, hc⟩ := hsome hm
    rw [if_neg hm] at hpc'
    subst hpc'
    exact ⟨hq, fun hlt => hcov (hc hlt)⟩

/-- A step of the rx thread other than a reply. -/
theorem rxStep (h : WakeInv threads s i) {past queue : List Nat} {free live : List Ptr} (hinv : RxInv s past queue free live)
    {rxBufSize : Nat} {self : IfaceHolder} {sh sh' : RxShared} (hs : s.rxStep rxBufSize self sh = .next (sh', s'))
    (hpc : s.pc ≠ .reply) : WakeInv threads s' i := by
  have hsize : s.queued = queue.length := by
    rw [RxServer.queued, hinv.accepted, hinv.released, List.length_append]
    omega
  have hl := hinv.locals
  unfold RxServer.Local at hl
  unfold RxServer.rxStep at hs
  obtain ⟨h₀, h⟩ := h
  cases hp : s.pc with
  | reply => exact absurd hp hpc
  | recv => simp [hp] at hs
  | top =>
    simp only [hp, Outcome.next.injEq, Prod.mk.injEq] at hs h
    obtain ⟨-, rfl⟩ := hs
    obtain ⟨hle, hc⟩ := h
    by_cases hr : s.remainingMsgs > 0
    · simp only [WakeInv, if_pos hr]
      exact ⟨h₀, hle⟩
    · simp only [WakeInv, if_neg hr]
      refine ⟨h₀, hle, fun hq => (hc ?_).server id rfl (fun _ => rfl) (by simp [RxPc.serving])⟩
      exact lt_of_le_of_lt (not_lt.mp hr) hq
  | signalMore =>
    simp only [hp, Outcome.next.injEq, Prod.mk.injEq] at hs h
    obtain ⟨-, rfl⟩ := hs
    exact ⟨h₀, h, fun _ => Or.inl rfl⟩
  | lockPeek =>
    simp only [hp, Outcome.guard_eq_next, Outcome.next.injEq, Prod.mk.injEq] at hs h
    obtain ⟨-, -, rfl⟩ := hs
    exact ⟨h₀, h⟩
  | peek =>
    -- the rx thread has the mutex, so what it sees is the whole queue
    have hlive : s.queued = live.length := by rw [hsize, hinv.queued.holds.length_eq]
    simp only [hp] at hs h
    split at hs
    case h_1 hnone =>
      simp only [Outcome.next.injEq, Prod.mk.injEq] at hs
      obtain ⟨-, rfl⟩ := hs
      rw [hinv.queued.rep.liveList.head_none_iff.mp hnone] at hlive
      have hq : s.queued = 0 := hlive
      exact ⟨h₀, le_antisymm (hq ▸ h) h₀, hq.ge, fun hlt => absurd hlt hq.not_gt⟩
    case h_2 entry hentry =>
      obtain ⟨-, -, hs⟩ := bind_ok (Outcome.ofExcept_eq_next.mp hs)
      cases hs
      have hrep := hinv.queued.rep
      have hcur : simplePoolGetCurrentSize s.msgs = s.queued := hrep.currentSize.trans hlive.symm
      obtain ⟨rest, hrest⟩ := (hentry ▸ hrep.liveList).head_some
      rw [hrest, List.length_cons] at hlive
      have hpos : 1 ≤ simplePoolGetCurrentSize s.msgs := by
        rw [hcur, hlive]
        omega
      exact ⟨zero_le_one.trans hpos, hpos, hcur.le, fun hlt => absurd hlt hcur.not_lt⟩
  | unlockPeek =>
    simp only [hp, Outcome.next.injEq, Prod.mk.injEq] at hs h
    obtain ⟨-, rfl⟩ := hs
    obtain ⟨h₁, hle, hc⟩ := h
    exact ⟨h₀, h₁, hle, fun hlt => (hc hlt).server id rfl (fun _ => rfl) (by simp [hp, RxPc.serving])⟩
  | load =>
    simp only [hp] at hs h
    obtain ⟨h₁, hle, hc⟩ := h
    split at hs
    · cases hs
    · simp only [Outcome.next.injEq, Prod.mk.injEq] at hs
      obtain ⟨-, rfl⟩ := hs
      exact ⟨h₀, h₁, hle, fun hlt => (hc hlt).server id rfl (fun _ => rfl) (by simp [hp, RxPc.serving])⟩
  | copy =>
    simp only [hp] at hs h hl
    obtain ⟨h₁, hle, hc⟩ := h
    obtain ⟨⟨n, d, -, -, hmsg, -⟩, -⟩ := hl
    split at hs
    · split at hs
      all_goals
        simp only [Outcome.next.injEq, Prod.mk.injEq] at hs
        obtain ⟨-, rfl⟩ := hs
        refine ⟨h₀, ?_⟩
        simp only
        exact ⟨h₁, hle, fun hlt => (hc hlt).server id rfl (fun _ => rfl) (by simp [hp, RxPc.serving])⟩
    · -- the datagram in service is no longer counted
      obtain ⟨-, -, hs⟩ := bind_ok (Outcome.ofExcept_eq_next.mp hs)
      cases hs
      refine ⟨sub_nonneg.mpr h₁, by simp [hmsg], ?_⟩
      intro _
      simp only [sub_add_cancel]
      exact ⟨hle, fun hlt => (hc hlt).server id rfl (fun _ => rfl) (by simp [hp, RxPc.serving])⟩
  | unlockEmpty =>
    simp only [hp, Outcome.next.injEq, Prod.mk.injEq] at hs h hl
    obtain ⟨-, rfl⟩ := hs
    obtain ⟨hr, hq, hc⟩ := h
    refine ⟨h₀, fun _ => ⟨hr, hq, ?_⟩, fun hm => absurd hl.1 hm⟩
    intro hlt
    exact (hc hlt).server id rfl (fun _ => rfl) (by simp [hp, RxPc.serving])
  | lockIface | lockFree =>
    simp only [hp, Outcome.guard_eq_next, Outcome.next.injEq, Prod.mk.injEq] at hs h
    obtain ⟨-, -, rfl⟩ := hs
    exact ⟨h₀, h.1, fun hlt => (h.2 hlt).server id rfl (fun _ => rfl) (by simp [RxPc.serving])⟩
  | unlockIface | unlockFree =>
    simp only [hp, Outcome.next.injEq, Prod.mk.injEq] at hs h
    obtain ⟨-, rfl⟩ := hs
    exact ⟨h₀, h.1, fun hlt => (h.2 hlt).server id rfl (fun _ => rfl) (by simp [RxPc.serving])⟩
  | freePbuf =>
    simp only [hp] at hs h
    split at hs
    case h_1 =>
      simp only [Outcome.next.injEq, Prod.mk.injEq] at hs
      obtain ⟨-, rfl⟩ := hs
      exact ⟨h₀, h.1, fun hlt => (h.2 hlt).server id rfl (fun _ => rfl) (by simp [RxPc.serving])⟩
    case h_2 k _ =>
      simp only [Outcome.next.injEq, Prod.mk.injEq] at hs
      obtain ⟨-, rfl⟩ := hs
      refine ⟨h₀, h.1, fun hlt => (h.2 hlt).server id rfl ?_ (by simp [RxPc.serving])⟩
      intro j
      rcases eq_or_ne j k with rfl | hne
      · simp [RxServer.pbufFree]
      · simp [RxServer.pbufFree, hne]
  | poolFree =>
    simp only [hp] at hs h
    split at hs
    · cases hs
    · obtain ⟨⟨error, msgs⟩, -, hs⟩ := bind_ok (Outcome.ofExcept_eq_next.mp hs)
      obtain ⟨-, -, hs⟩ := bind_ok hs
      cases hs
      -- the datagram that was not counted is no longer in the queue
      have hq' : RxServer.queued { s with msgs := msgs, released := s.released + 1, pc := .unlockFree } = s.queued - 1 := by
        simp only [RxServer.queued]
        omega
      refine ⟨h₀, ?_⟩
      dsimp only
      rw [hq']
      exact ⟨by omega, fun hlt => (h.2 (by omega)).server id rfl (fun _ => rfl) (by simp [RxPc.serving])⟩

end WakeInv

end Sel4Osapi
