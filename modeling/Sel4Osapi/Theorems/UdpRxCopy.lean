import Sel4Osapi.Theorems.UdpRx

/-!
# Where the rx thread writes in the buffer of the client

The copy loop of the rx thread writes a datagram to `rx_buf` from the start of the buffer, and only then compares the length
with `rx_buf_size`. So it stays inside the buffer for the datagrams that fit, and for no others.
-/

namespace Sel4Osapi

open Transition

namespace RxServer

variable {rxBufSize : Nat} {self : IfaceHolder} {sh sh' : RxShared} {s s' : RxServer}

/-- A step of `udprecv` changes no datagram. -/
theorem udprecvStep_p {k : Nat} (h : s.udprecvStep k = .next s') :
    s'.arrivals = s.arrivals ∧ ∀ j, (s'.calls j).p = (s.calls j).p := by
  unfold udprecvStep at h
  cases hpc : (s.calls k).pc with
  | idle | done => simp [hpc] at h
  | lock =>
    simp only [hpc, Outcome.guard_eq_next] at h
    obtain ⟨-, h⟩ := h
    cases h
    exact ⟨rfl, setCallPc_p s k _⟩
  | alloc =>
    simp only [hpc, Outcome.ofExcept_eq_next] at h
    obtain ⟨⟨m, msgs⟩, -, h⟩ := bind_ok h
    cases m with
    | none | some =>
      cases h
      exact ⟨rfl, setCallPc_p s k _⟩
  | drop =>
    simp only [hpc] at h
    cases h
    exact ⟨rfl, fun j => (pbufFree_p _ k j).trans (setCallPc_p s k _ j)⟩
  | store | unlock | signal =>
    simp only [hpc] at h
    cases h
    exact ⟨rfl, setCallPc_p s k _⟩

/-- The datagrams that have arrived by `s` are the same in `s'`. -/
def KeepsDatagrams (s s' : RxServer) : Prop := s.arrivals ≤ s'.arrivals ∧ ∀ k < s.arrivals, (s'.calls k).p = (s.calls k).p

/-- Every step keeps them. -/
theorem keepsDatagrams_step {a : RxAction} (h : s.step rxBufSize self sh a = .next (sh', s')) : s.KeepsDatagrams s' := by
  cases a with
  | arrive p addr port =>
    obtain ⟨-, h⟩ := Outcome.guard_eq_next.mp h
    cases h
    refine ⟨Nat.le_succ _, ?_⟩
    intro k hk
    simp [Nat.ne_of_lt hk]
  | udprecv k =>
    obtain ⟨s₁, hs₁, he⟩ := Outcome.map_eq_next.mp h
    cases he
    obtain ⟨harr, hp⟩ := udprecvStep_p hs₁
    exact ⟨harr.ge, fun j _ => hp j⟩
  | consume | call =>
    obtain ⟨-, h⟩ := Outcome.guard_eq_next.mp h
    cases h
    exact ⟨le_rfl, fun _ _ => rfl⟩
  | rx =>
    obtain ⟨-, harr, hp⟩ := rxStep_frame h
    exact ⟨harr.ge, fun j _ => hp j⟩

/-- Every run keeps them. -/
theorem keepsDatagrams_exec {as : List (RxShared × RxAction)} (h : (rxMachine rxBufSize self).exec s as = some s') :
    s.KeepsDatagrams s' := by
  induction as generalizing s with
  | nil =>
    cases h
    exact ⟨le_rfl, fun _ _ => rfl⟩
  | cons a as ih =>
    unfold Machine.exec at h
    split at h
    · rename_i s₁ hs₁
      obtain ⟨⟨sh', s₁'⟩, hstep, he⟩ := Outcome.map_eq_next.mp hs₁
      cases he
      have hfirst := keepsDatagrams_step hstep
      have hrest := ih h
      refine ⟨hfirst.1.trans hrest.1, ?_⟩
      intro k hk
      exact (hrest.2 k (Nat.lt_of_lt_of_le hk hfirst.1)).trans (hfirst.2 k hk)
    · cases h

/-- From anywhere in the copy loop, the rx thread alone gets to write each of the bytes that are left. -/
theorem exists_exec_writesAt (rxBufSize : Nat) (self : IfaceHolder) {o : Nat} (hpc : s.pc = .copy) (hlo : s.packetLen + s.off ≤ o)
    (hhi : o < s.packetLen + s.q.flatten.length) (hoff : s.off ≤ (s.q.headD []).length) :
    ∃ as s', (rxMachine rxBufSize self).exec s as = some s' ∧ s'.chain = s.chain ∧ s'.writesAt = some o := by
  -- the bytes and the buffers that are left before that one
  obtain ⟨n, hn⟩ : ∃ n, o - (s.packetLen + s.off) + s.q.length = n := ⟨_, rfl⟩
  induction n using Nat.strongRecOn generalizing s with
  | ind n ih =>
    let sh : RxShared := ⟨fun _ => 0, none⟩
    cases hq : s.q with
    | nil =>
      simp only [hq, List.flatten_nil, List.length_nil] at hhi
      omega
    | cons seg q =>
      simp only [hq, List.headD_cons, List.flatten_cons, List.length_append, List.length_cons] at hhi hoff hn
      rcases Nat.lt_or_ge s.off seg.length with hlt | hge
      · rcases Nat.eq_or_lt_of_le hlo with heq | hlt'
        · exact ⟨[], s, rfl, rfl, by simp [writesAt, hpc, hq, hlt, heq]⟩
        · obtain ⟨as, s', hexec, hchain, hwrites⟩ := @ih (n - 1) (by omega)
            { s with off := s.off + 1, copied := s.copied ++ [seg[s.off]] } hpc (by simp only; omega)
            (by simp only [hq, List.flatten_cons, List.length_append]; omega)
            (by simp only [hq, List.headD_cons]; omega) (by simp only [hq, List.length_cons]; omega)
          refine ⟨(sh, .rx) :: as, s', ?_, hchain, hwrites⟩
          have hstep : (rxMachine rxBufSize self).step s (sh, .rx) =
              .next { s with off := s.off + 1, copied := s.copied ++ [seg[s.off]] } := by
            simp [rxMachine, RxServer.step, rxStep, hpc, hq, List.getElem?_eq_getElem hlt]
          simp only [Machine.exec, hstep, hexec]
      · obtain ⟨as, s', hexec, hchain, hwrites⟩ := @ih (n - 1) (by omega)
          { s with packetLen := s.packetLen + seg.length, q := q, off := 0 } hpc (by simp only; omega) (by simp only; omega)
          (Nat.zero_le _) (by simp only; omega)
        refine ⟨(sh, .rx) :: as, s', ?_, hchain, hwrites⟩
        have hstep : (rxMachine rxBufSize self).step s (sh, .rx) =
            .next { s with packetLen := s.packetLen + seg.length, q := q, off := 0 } := by
          simp [rxMachine, RxServer.step, rxStep, hpc, hq, List.getElem?_eq_none hge]
        simp only [Machine.exec, hstep, hexec]

end RxServer

namespace RxInv

variable {s : RxServer} {past queue : List Nat} {free live : List Ptr}

/-- The rx thread about to load a datagram has one to load, the head of the queue, and has written nothing. -/
theorem serves_of_load (h : RxInv s past queue free live) (hpc : s.pc = .load) :
    s.packetLen = 0 ∧ ∃ d msg, s.msg = some msg ∧ (s.msgs.mem msg).pbuf = some d ∧ d ∈ queue ∧ d < s.arrivals := by
  have hl := h.locals
  rw [RxServer.Local, hpc] at hl
  obtain ⟨n, t, d, rest, rfl, rfl, hmsg, hfilled, hmem⟩ := h.serving_head hl.1
  refine ⟨hl.2, d, _, hmsg, ?_, List.mem_cons_self, ((callInv_filled hfilled).mp (h.calls d)).1⟩
  rw [hmem]
  rfl

/-- From the load of a datagram, the rx thread alone gets to write each of its bytes. -/
theorem exists_exec_of_load (h : RxInv s past queue free live) (rxBufSize : Nat) (self : IfaceHolder) (hpc : s.pc = .load)
    {d o : Nat} {msg : Ptr} (hmsg : s.msg = some msg) (hpbuf : (s.msgs.mem msg).pbuf = some d)
    (ho : o < (s.calls d).p.flatten.length) :
    ∃ as s', (rxMachine rxBufSize self).exec s as = some s' ∧ s'.chain = some d ∧ s'.writesAt = some o := by
  have hlen := (h.serves_of_load hpc).1
  generalize hs₁ : { s with
    port := (s.msgs.mem msg).port, ipaddr := (s.msgs.mem msg).addr, chain := some d, q := (s.calls d).p, off := 0
    copied := [], pc := .copy } = s₁
  let sh : RxShared := ⟨fun _ => 0, none⟩
  have hstep : (rxMachine rxBufSize self).step s (sh, .rx) = .next s₁ := by
    simp [rxMachine, RxServer.step, RxServer.rxStep, hpc, hmsg, hpbuf, ← hs₁]
  have hfacts : s₁.q = (s.calls d).p ∧ s₁.off = 0 ∧ s₁.packetLen = 0 ∧ s₁.chain = some d ∧ s₁.pc = .copy := by
    simp [← hs₁, hlen]
  obtain ⟨hq, hoff, hlen₁, hchain₁, hpc₁⟩ := hfacts
  obtain ⟨as, s', hexec, hchain, hwrites⟩ := RxServer.exists_exec_writesAt rxBufSize self hpc₁
    (by omega : s₁.packetLen + s₁.off ≤ o) (by rw [hq, hlen₁]; omega) (by omega)
  exact ⟨(sh, .rx) :: as, s', by simp only [Machine.exec, hstep, hexec], hchain.trans hchain₁, hwrites⟩

end RxInv

/-- Each time the rx thread takes a datagram from the queue, to copy it to `rx_buf`: in every run from there, every write of
that datagram is inside the buffer, if and only if the datagram is not longer than the buffer. -/
theorem udp_rx_copy_in_bounds (rxBufSize : Nat) (self : IfaceHolder) (s : RxServer) (hr : (rxMachine rxBufSize self).Reachable s)
    (hpc : s.pc = .load) :
    ∃ d msg, s.msg = some msg ∧ (s.msgs.mem msg).pbuf = some d ∧
      ((∀ as s', (rxMachine rxBufSize self).exec s as = some s' → s'.chain = some d →
          ∀ o, s'.writesAt = some o → o < rxBufSize) ↔
        (s.calls d).p.flatten.length ≤ rxBufSize) := by
  obtain ⟨past, queue, free, live, h⟩ := rx_inv hr
  obtain ⟨hlen, d, msg, hmsg, hpbuf, -, hd⟩ := h.serves_of_load hpc
  refine ⟨d, msg, hmsg, hpbuf, ?_, ?_⟩
  · intro hall
    by_contra hlong
    obtain ⟨as, s', hexec, hchain, hwrites⟩ := h.exists_exec_of_load rxBufSize self hpc hmsg hpbuf (Nat.lt_of_not_le hlong)
    have hbound := hall as s' hexec hchain rxBufSize hwrites
    omega
  · intro hle as s' hexec hchain o ho
    obtain ⟨past', queue', free', live', h'⟩ := rx_inv (hr.exec hexec)
    have hlt := h'.writesAt_lt hchain ho
    rw [(RxServer.keepsDatagrams_exec hexec).2 d hd] at hlt
    omega

/-- A datagram of three bytes fits in a buffer of 16384 bytes. -/
theorem udp_rx_copy_in_bounds_loading : ∃ s : RxServer, (rxMachine 16384 (.rx 0)).Reachable s ∧ s.pc = .load ∧
    ∃ d, (s.calls d).p = [[1, 2], [3]] ∧ ∀ as s', (rxMachine 16384 (.rx 0)).exec s as = some s' → s'.chain = some d →
      ∀ o, s'.writesAt = some o → o < 16384 := by
  obtain ⟨s, msg, hr, hpc, hmsg, hmem, -, -, -, -, hc, -⟩ :=
    exists_loading 16384 (.rx 0) [[1, 2], [3]] [] (by decide) (by decide)
  obtain ⟨d, msg', hmsg', hpbuf, hiff⟩ := udp_rx_copy_in_bounds 16384 (.rx 0) s hr hpc
  cases hmsg.symm.trans hmsg'
  obtain rfl : 0 = d := by simpa [hmem] using hpbuf
  have hd : (s.calls 0).p = [[1, 2], [3]] := by rw [hc]
  exact ⟨s, hr, hpc, 0, hd, hiff.mpr (by rw [hd]; decide)⟩

/-- A datagram of 16385 bytes is written past the end of a buffer of 16384 bytes. -/
theorem udp_rx_copy_out_of_bounds : ¬ ∀ (rxBufSize : Nat) (self : IfaceHolder) (s : RxServer),
    (rxMachine rxBufSize self).Reachable s → ∀ o, s.writesAt = some o → o < rxBufSize := by
  intro hall
  have hlen : [List.replicate 16385 (0 : UInt8)].flatten.length = 16385 := by
    rw [List.flatten_singleton, List.length_replicate]
  obtain ⟨s, msg, hr, hpc, hmsg, hmem, -, -, -, -, hc, -⟩ := exists_loading 16384 (.rx 0)
    [List.replicate 16385 (0 : UInt8)] [] (by omega) (by decide)
  obtain ⟨past, queue, free, live, h⟩ := rx_inv hr
  have hlong : 16384 < (s.calls 0).p.flatten.length := by
    rw [hc, hlen]
    omega
  obtain ⟨as, s', hexec, -, hwrites⟩ := h.exists_exec_of_load 16384 (.rx 0) hpc hmsg (by rw [hmem]) hlong
  have hbound := hall 16384 (.rx 0) s' (hr.exec hexec) 16384 hwrites
  omega

end Sel4Osapi
