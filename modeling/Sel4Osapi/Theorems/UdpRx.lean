import Sel4Osapi.Lemmas.UdpRx

/-!
# The receive side of a socket: datagrams are served in order, and packet buffers have one owner

Both results hold of every interleaving of the calls of `udprecv`, the rx thread and the calls of the clients, whatever the
rest of the system does to the data it shares with the rx thread.
-/

namespace Sel4Osapi

open Transition

/-! ## First in, first out -/

namespace RxInv

variable {s : RxServer} {past queue : List Nat} {free live : List Ptr}

/-- The datagrams replied with are the first of those accepted. -/
theorem served_prefix (h : RxInv s past queue free live) : s.served <+: s.accepted.map fun k => (s.calls k).served k := by
  rw [h.served, h.accepted]
  refine List.IsPrefix.map _ ?_
  rw [List.prefix_append_right_inj]
  split
  · exact List.take_prefix 1 queue
  · exact List.nil_prefix

/-- How far the replies are ahead of the releases. -/
theorem served_length (h : RxInv s past queue free live) :
    s.released ≤ s.served.length ∧ s.served.length ≤ s.released + 1 := by
  rw [h.served, h.released]
  split <;> simp

/-- A refusal: the pool has no free entry, and each entry is filled with a datagram that waits in the queue. -/
theorem refused (h : RxInv s past queue free live) {k : Nat} (hpc : (s.calls k).pc = .alloc) (hfree : free = []) :
    live.length = 1000 ∧ List.Forall₂ (fun n j => s.msgs.mem (s.msgs.nodes n).el = (s.calls j).message j) live queue := by
  constructor
  · have hsize := h.queued.rep.size
    rw [h.queued.size, hfree, udpMaxMsgsPerClient] at hsize
    simp only [List.length_nil] at hsize
    omega
  · refine h.queued.holds.imp ?_
    intro n j hj
    rcases hj with hj | hj
    · -- the call that is refused holds the mutex, so no other is about to fill an entry
      have hk : s.msgsMutex = some (.udprecv k) := (h.mutex.udprecv k).mpr (by simp [hpc, UdprecvPc.inSection])
      have hj' : s.msgsMutex = some (.udprecv j) := (h.mutex.udprecv j).mpr (by simp [hj, UdprecvPc.inSection])
      have hkj : k = j := by simpa [hk] using hj'
      rw [← hkj, hpc] at hj
      cases hj
    · exact hj.2

end RxInv

/-- A call of `udprecv` is refused an entry by the pool, and by nothing else. -/
theorem RxServer.alloc_of_dropped {s s' : RxServer} {k : Nat} (h : s.udprecvStep k = .next s') (hk' : k ∈ s'.dropped)
    (hk : k ∉ s.dropped) : (s.calls k).pc = .alloc ∧ ∃ p, simplePoolAlloc s.msgs = .ok (none, p) := by
  unfold RxServer.udprecvStep at h
  cases hpc : (s.calls k).pc with
  | idle => simp [hpc] at h
  | done => simp [hpc] at h
  | alloc =>
    simp only [hpc, Outcome.ofExcept_eq_next] at h
    obtain ⟨⟨m, msgs⟩, halloc, h⟩ := bind_ok h
    cases m with
    | none => exact ⟨rfl, msgs, halloc⟩
    | some m =>
      cases h
      exact absurd hk' hk
  | lock =>
    simp only [hpc, Outcome.guard_eq_next] at h
    obtain ⟨-, h⟩ := h
    cases h
    exact absurd hk' hk
  | store m => simp only [hpc] at h; cases h; exact absurd hk' hk
  | drop => simp only [hpc] at h; cases h; exact absurd hk' hk
  | unlock => simp only [hpc] at h; cases h; exact absurd hk' hk
  | signal => simp only [hpc] at h; cases h; exact absurd hk' hk

/-- A socket just bound. -/
theorem exists_rx_init : ∃ s : RxServer, s.Init := by
  obtain ⟨p, hp, -⟩ := simplePoolNew_spec id Function.injective_id (fun _ => ⟨0, none, none⟩)
    (fun _ => ⟨none, 0, 0⟩ : Ptr → UdpMessage) udpMaxMsgsPerClient 12 none none (by decide) (by decide)
  exact ⟨⟨p, none, false, fun _ => ⟨[], 0, 0, 0, .idle⟩, 0, .top, 0, none, 0, 0, 0, 0, none, [], 0, [], [], [], 0, []⟩,
    ⟨id, _, _, 12, Function.injective_id, hp⟩, rfl, rfl, fun _ => ⟨rfl, rfl⟩, rfl, rfl, rfl, rfl, rfl, rfl, rfl, rfl⟩

/-- The pool has an entry for each datagram it can hold: with fewer in the queue there is a free one. -/
theorem RxInv.exists_free {s : RxServer} {past queue : List Nat} {free live : List Ptr} (h : RxInv s past queue free live)
    (hroom : queue.length < 1000) : ∃ x free', free = x :: free' := by
  cases free with
  | nil =>
    have hsize := h.queued.rep.size
    rw [h.queued.size, udpMaxMsgsPerClient] at hsize
    have hlen := h.queued.holds.length_eq
    simp only [List.length_nil] at hsize
    omega
  | cons x free' => exact ⟨x, free', rfl⟩

/-- The actions take `s` to `s'`, whatever the rx thread shares has become by then, and leave it as it is. -/
def RxServer.LeadsTo (rxBufSize : Nat) (self : IfaceHolder) (s : RxServer) : List RxAction → RxServer → Prop
  | [], s' => s = s'
  | a :: as, s' => ∃ s₁, (∀ sh, s.step rxBufSize self sh a = .next (sh, s₁)) ∧ s₁.LeadsTo rxBufSize self as s'

/-- They are a run of the receive side. -/
theorem RxServer.LeadsTo.reachable {rxBufSize : Nat} {self : IfaceHolder} {s s' : RxServer} {as : List RxAction}
    (hr : (rxMachine rxBufSize self).Reachable s) (h : s.LeadsTo rxBufSize self as s') :
    (rxMachine rxBufSize self).Reachable s' := by
  induction as generalizing s with
  | nil =>
    obtain rfl := h
    exact hr
  | cons a as ih =>
    obtain ⟨s₁, hs₁, h⟩ := h
    exact ih (hr.step (⟨fun _ => 0, none⟩, a) (by simp [rxMachine, hs₁])) h

/-- While the mutex is free and there is a free entry, a datagram that arrives is put in the queue and signalled, whatever the
rx thread is at. -/
theorem RxInv.exists_enqueued {s : RxServer} {past queue : List Nat} {free live : List Ptr} (h : RxInv s past queue free live)
    (hmutex : s.msgsMutex = none) (hroom : queue.length < 1000) {p : List (List UInt8)} (hp : p.flatten.length < 65536)
    (addr : Word) (port : UInt16) (rxBufSize : Nat) (self : IfaceHolder) :
    ∃ msgs, s.LeadsTo rxBufSize self (.arrive p addr port :: List.replicate 5 (.udprecv s.arrivals)) { s with
      msgs := msgs
      msgsMutex := none
      aepRxData := true
      calls := Function.update s.calls s.arrivals { p := p, addr := addr, port := port, freed := 0, pc := .done }
      arrivals := s.arrivals + 1
      accepted := s.accepted ++ [s.arrivals] } := by
  obtain ⟨x, free', hfree⟩ := h.exists_free hroom
  obtain ⟨msgs, hmsgs, -⟩ := simplePoolAlloc_cons (hfree ▸ h.queued.rep)
  generalize (s.msgs.nodes x).el = m at hmsgs
  -- the call of `udprecv` at each of its places
  let calls (pc : UdprecvPc) := Function.update s.calls s.arrivals { p := p, addr := addr, port := port, freed := 0, pc := pc }
  let s₁ : RxServer := { s with calls := calls .lock, arrivals := s.arrivals + 1 }
  let s₂ : RxServer := { s₁ with msgsMutex := some (.udprecv s.arrivals), calls := calls .alloc }
  let s₃ : RxServer := { s₂ with msgs := msgs, calls := calls (.store m), accepted := s.accepted ++ [s.arrivals] }
  let s₄ : RxServer := { s₃ with
    msgs := { msgs with mem := Function.update msgs.mem m { pbuf := some s.arrivals, addr := addr, port := port } }
    calls := calls .unlock }
  let s₅ : RxServer := { s₄ with msgsMutex := none, calls := calls .signal }
  refine ⟨s₄.msgs, s₁, ?_, s₂, ?_, s₃, ?_, s₄, ?_, s₅, ?_, _, ?_, rfl⟩
  · intro sh
    simp only [RxServer.step, Outcome.guard, if_pos hp, s₁, calls]
  · simp [RxServer.step, RxServer.udprecvStep, RxServer.setCallPc, Outcome.guard, hmutex, s₁, s₂, calls]
  · simp [RxServer.step, RxServer.udprecvStep, RxServer.setCallPc, hmsgs, ok_bind, s₁, s₂, s₃, calls, Outcome.ofExcept, pure,
      Except.pure]
  · simp [RxServer.step, RxServer.udprecvStep, RxServer.setCallPc, s₁, s₂, s₃, s₄, calls]
  · simp [RxServer.step, RxServer.udprecvStep, RxServer.setCallPc, s₁, s₂, s₃, s₄, s₅, calls]
  · simp [RxServer.step, RxServer.udprecvStep, RxServer.setCallPc, s₁, s₂, s₃, s₄, s₅, calls]

/-- A run that puts two datagrams in the queue of a socket just bound, after which the rx thread is about to load the first of
them. -/
theorem exists_loading (rxBufSize : Nat) (self : IfaceHolder) (p p' : List (List UInt8)) (hp : p.flatten.length < 65536)
    (hp' : p'.flatten.length < 65536) :
    ∃ (s : RxServer) (msg : Ptr), (rxMachine rxBufSize self).Reachable s ∧ s.pc = .load ∧ s.msg = some msg ∧
      s.msgs.mem msg = { pbuf := some 0, addr := 5, port := 7 } ∧ s.accepted = [0, 1] ∧ s.arrivals = 2 ∧ s.served = [] ∧
      s.packetLen = 0 ∧ s.calls 0 = { p := p, addr := 5, port := 7, freed := 0, pc := .done } ∧
      s.calls 1 = { p := p', addr := 5, port := 8, freed := 0, pc := .done } := by
  obtain ⟨s₀, hi⟩ := exists_rx_init
  obtain ⟨free, h₀⟩ := RxInv.of_init hi
  obtain ⟨msgs₁, hto₁⟩ := h₀.exists_enqueued hi.msgsMutex (by simp) hp 5 7 rxBufSize self
  have hr₁ := hto₁.reachable (.init hi)
  obtain ⟨past₁, queue₁, free₁, live₁, h₁⟩ := rx_inv hr₁
  have hroom : queue₁.length < 1000 := by
    have hlen := congrArg List.length h₁.accepted
    simp only [hi.accepted, List.length_append, List.length_nil, List.length_singleton] at hlen
    omega
  obtain ⟨msgs₂, hto₂⟩ := h₁.exists_enqueued rfl hroom hp' 5 8 rxBufSize self
  obtain ⟨s₂, hr₂, hpc, hmutex, hmore, hacc, harr, hsv, hrel, hc₀, hc₁⟩ :
      ∃ s₂, (rxMachine rxBufSize self).Reachable s₂ ∧ s₂.pc = .top ∧ s₂.msgsMutex = none ∧ s₂.remainingMsgs = 0 ∧
        s₂.accepted = [0, 1] ∧ s₂.arrivals = 2 ∧ s₂.served = [] ∧ s₂.released = 0 ∧
        s₂.calls 0 = { p := p, addr := 5, port := 7, freed := 0, pc := .done } ∧
        s₂.calls 1 = { p := p', addr := 5, port := 8, freed := 0, pc := .done } :=
    ⟨_, hto₂.reachable hr₁, by simp [hi.pc, hi.remainingMsgs, hi.accepted, hi.arrivals, hi.served, hi.released]⟩
  -- a client calls, and the rx thread takes the mutex
  let s₃ : RxServer := { s₂ with packetLen := 0, port := 0, ipaddr := 0, caller := 0, msgsMutex := some .rx, pc := .peek }
  have hto₃ : s₂.LeadsTo rxBufSize self [.rx, .call 0, .rx] s₃ := by
    refine ⟨{ s₂ with packetLen := 0, port := 0, ipaddr := 0, pc := .recv }, ?_,
      { s₂ with packetLen := 0, port := 0, ipaddr := 0, caller := 0, pc := .lockPeek }, ?_, s₃, ?_, rfl⟩
    · simp [RxServer.step, RxServer.rxStep, hpc, hmore]
    · simp [RxServer.step, Outcome.guard]
    · simp [RxServer.step, RxServer.rxStep, Outcome.guard, hmutex, s₃]
  have hr₃ := hto₃.reachable hr₂
  -- of the two datagrams accepted none is released: they are the queue
  obtain ⟨past, queue, free₃, live, h₃⟩ := rx_inv hr₃
  have hpast : past = [] := List.length_eq_zero_iff.mp (h₃.released.symm.trans hrel)
  have hqueue : queue = [0, 1] := by simpa [hpast] using h₃.accepted.symm.trans hacc
  subst hqueue
  obtain ⟨n, t, rfl⟩ := List.exists_cons_of_length_eq_add_one h₃.queued.holds.length_eq
  obtain ⟨d, hd, -, hmem⟩ := h₃.head_filled rfl (List.head?_cons ..)
  obtain rfl : 0 = d := Option.some.inj hd
  have hhead : s₃.msgs.entries = some n := by rw [h₃.queued.rep.liveList.head, List.getElem?_cons_zero]
  have hmsg : s₃.msgs.mem (s₃.msgs.nodes n).el = { pbuf := some 0, addr := 5, port := 7 } := by
    rw [hmem, Udprecv.message, show s₃.calls 0 = _ from hc₀]
  -- the rx thread looks at the queue and releases the mutex
  let s₄ : RxServer := { s₃ with
    msg := some (s₃.msgs.nodes n).el, remainingMsgs := simplePoolGetCurrentSize s₃.msgs, pc := .unlockPeek }
  have hto₄ : s₃.LeadsTo rxBufSize self [.rx, .rx] { s₄ with msgsMutex := none, pc := .load } := by
    refine ⟨s₄, ?_, _, ?_, rfl⟩
    · intro sh
      have hne : (s₃.msgs.mem (s₃.msgs.nodes n).el).pbuf ≠ none := by simp [hmsg]
      simp only [RxServer.step, RxServer.rxStep, show s₃.pc = .peek from rfl, hhead, check_of_true hne, ok_bind]
      rfl
    · intro sh
      rfl
  exact ⟨_, (s₃.msgs.nodes n).el, hto₄.reachable hr₃, rfl, rfl, hmsg, hacc, harr, hsv, rfl, hc₀, hc₁⟩

/-- A run in which two datagrams are accepted, and the first of them, of two buffers, is replied with and its packet buffer
freed. -/
theorem exists_oneServed (self : IfaceHolder) :
    ∃ s : RxServer, (rxMachine 16384 self).Reachable s ∧ s.accepted = [0, 1] ∧ s.arrivals = 2 ∧
      s.served = [{ pbuf := 0, data := [1, 2, 3], packetLen := 3, port := 7, addr := 5 }] ∧
      s.calls 0 = { p := [[1, 2], [3]], addr := 5, port := 7, freed := 1, pc := .done } ∧
      s.calls 1 = { p := [[4]], addr := 5, port := 8, freed := 0, pc := .done } := by
  obtain ⟨s, msg, hr, hpc, hmsg, hmem, hacc, harr, hsv, hlen, hc₀, hc₁⟩ :=
    exists_loading 16384 self [[1, 2], [3]] [[4]] (by decide) (by decide)
  let sh : RxShared := ⟨fun _ => 0, none⟩
  let s₁ : RxServer := { s with port := 7, ipaddr := 5, chain := some 0, q := [[1, 2], [3]], off := 0, copied := [], pc := .copy }
  have hload : (rxMachine 16384 self).step s (sh, .rx) = .next s₁ := by
    simp [rxMachine, RxServer.step, RxServer.rxStep, hpc, hmsg, hmem, hc₀, s₁, Outcome.map]
  -- the two buffers are copied, and the reply goes out
  let s₂ : RxServer := { s₁ with
    packetLen := 3, q := [], copied := [1, 2, 3], remainingMsgs := s.remainingMsgs - 1
    served := [{ pbuf := 0, data := [1, 2, 3], packetLen := 3, port := 7, addr := 5 }], pc := .lockIface }
  have hcopy : (rxMachine 16384 self).exec s₁ (List.replicate 7 (sh, .rx)) = some s₂ := by
    simp [Machine.exec, List.replicate, rxMachine, RxServer.step, RxServer.rxStep, Outcome.map, hmsg, hsv, hlen, check, s₁, s₂,
      ok_bind, Outcome.ofExcept, pure, Except.pure]
  -- the packet buffer is freed under the mutex of the interface
  let s₃ : RxServer := { s₂ with calls := RxServer.pbufFree s.calls 0, pc := .unlockIface }
  have hfree : (rxMachine 16384 self).exec s₂ (List.replicate 2 (sh, .rx)) = some s₃ := by
    simp [Machine.exec, List.replicate, rxMachine, RxServer.step, RxServer.rxStep, Outcome.map, hmsg, hmem, Outcome.guard, sh,
      s₁, s₂, s₃]
  refine ⟨s₃, ((hr.step _ hload).exec hcopy).exec hfree, hacc, harr, rfl, ?_, ?_⟩
  · simp [s₃, RxServer.pbufFree, hc₀]
  · simp [s₃, RxServer.pbufFree, hc₁]

/-- In every reachable state the datagrams the rx thread has replied with, with their bytes, lengths, ports and addresses,
are a prefix of the accepted ones in the order they were put in the queue, and each of the other accepted datagrams is in an
entry of the queue, in order. A call of `udprecv` is refused an entry only when all the entries hold accepted datagrams that
have not been released. -/
theorem udp_rx_fifo (rxBufSize : Nat) (self : IfaceHolder) (s : RxServer) (hr : (rxMachine rxBufSize self).Reachable s) :
    s.accepted.Nodup ∧
    (s.served <+: s.accepted.map fun k => (s.calls k).served k) ∧
    (s.released ≤ s.served.length ∧ ∃ free live, s.msgs.Rep free live ∧
      List.Forall₂ (Holds s.msgs s.calls) live (s.accepted.drop s.released)) ∧
    ∀ sh sh' k s', s.step rxBufSize self sh (.udprecv k) = .next (sh', s') → k ∈ s'.dropped → k ∉ s.dropped →
      ∃ live, s.msgs.Rep [] live ∧ live.length = 1000 ∧
        List.Forall₂ (fun n j => s.msgs.mem (s.msgs.nodes n).el = (s.calls j).message j) live (s.accepted.drop s.released) := by
  obtain ⟨past, queue, free, live, h⟩ := rx_inv hr
  have hdrop : s.accepted.drop s.released = queue := by
    rw [h.accepted, h.released, List.drop_left]
  refine ⟨by rw [h.accepted]; exact h.nodup, h.served_prefix, ⟨h.served_length.1, free, live, h.queued.rep, ?_⟩, ?_⟩
  · rw [hdrop]
    exact h.queued.holds
  · intro sh sh' k s' hstep hk' hk
    obtain ⟨s₁, hs₁, he⟩ := Outcome.map_eq_next.mp hstep
    cases he
    obtain ⟨hpc, p, halloc⟩ := RxServer.alloc_of_dropped hs₁ hk' hk
    have hfree : free = [] := by
      cases hf : free with
      | nil => rfl
      | cons x free' =>
        obtain ⟨msgs, hmsgs, -⟩ := h.allocCall hpc hf
        rw [halloc] at hmsgs
        cases hmsgs
    obtain ⟨hlen, hholds⟩ := h.refused hpc hfree
    exact ⟨live, hfree ▸ h.queued.rep, hlen, hdrop ▸ hholds⟩

/-- In the run of `exists_oneServed` the reply is the first of the two datagrams accepted, and the entries of the queue hold
those that are not released. -/
theorem udp_rx_fifo_oneServed : ∃ s : RxServer, (rxMachine 16384 (.rx 0)).Reachable s ∧ s.accepted = [0, 1] ∧
    s.served = [{ pbuf := 0, data := [1, 2, 3], packetLen := 3, port := 7, addr := 5 }] ∧
    (s.served <+: [{ pbuf := 0, data := [1, 2, 3], packetLen := 3, port := 7, addr := 5 },
      { pbuf := 1, data := [4], packetLen := 1, port := 8, addr := 5 }]) ∧
    ∃ free live, s.msgs.Rep free live ∧ List.Forall₂ (Holds s.msgs s.calls) live ([0, 1].drop s.released) := by
  obtain ⟨s, hr, hacc, -, hserved, hc₀, hc₁⟩ := exists_oneServed (.rx 0)
  obtain ⟨-, hprefix, ⟨-, free, live, hrep, hholds⟩, -⟩ := udp_rx_fifo 16384 (.rx 0) s hr
  rw [hacc] at hprefix hholds
  simp only [List.map_cons, List.map_nil, Udprecv.served, hc₀, hc₁] at hprefix
  exact ⟨s, hr, hacc, hserved, hprefix, free, live, hrep, hholds⟩

/-! ## The ownership of packet buffers -/

/-- The call of `udprecv` is running and the packet buffer is its own: it has neither handed it to its entry nor freed it. -/
def UdprecvPc.holdsPbuf : UdprecvPc → Bool
  | .lock | .alloc | .store _ | .drop => true
  | _ => false

/-- The entry `n` holds the packet buffer `k`: it points to it, and is not one that a call of `udprecv` has yet to fill. -/
def RxServer.EntryHolds (s : RxServer) (n : Ptr) (k : Nat) : Prop :=
  (s.msgs.mem (s.msgs.nodes n).el).pbuf = some k ∧ ∀ j, (s.calls j).pc ≠ .store (s.msgs.nodes n).el

/-- The rx thread is serving the datagram `d`: it has taken its entry for the head of the queue and not yet replied. -/
def RxServer.Serves (s : RxServer) (d : Nat) : Prop :=
  (s.pc = .unlockPeek ∨ s.pc = .load ∨ s.pc = .copy ∨ s.pc = .reply) ∧ (s.msg.bind fun m => (s.msgs.mem m).pbuf) = some d

namespace RxInv

variable {s : RxServer} {past queue : List Nat} {free live : List Ptr}

/-- An entry that holds a packet buffer is that of its datagram. -/
theorem index_of_entryHolds (h : RxInv s past queue free live) {n : Ptr} {k : Nat} (hn : n ∈ live) (he : s.EntryHolds n k) :
    (s.calls k).pc.filled = true ∧ ∃ i hi hi', live.get ⟨i, hi⟩ = n ∧ queue.get ⟨i, hi'⟩ = k := by
  obtain ⟨hlen, hget⟩ := List.forall₂_iff_get.mp h.queued.holds
  obtain ⟨⟨i, hi⟩, rfl⟩ := List.mem_iff_get.mp hn
  have hi' : i < queue.length := hlen ▸ hi
  rcases hget i hi hi' with hst | ⟨hf, hmem⟩
  · exact absurd hst (he.2 _)
  · have hk : queue.get ⟨i, hi'⟩ = k := by
      have := he.1
      rw [hmem] at this
      exact Option.some.inj this
    exact ⟨hk ▸ hf, i, hi, hi', rfl, hk⟩

/-- A datagram of the queue whose call has filled its entry is held by that entry and no other. -/
theorem existsUnique_entry (h : RxInv s past queue free live) {k : Nat} (hk : k ∈ queue)
    (hf : (s.calls k).pc.filled = true) : ∃! n, n ∈ live ∧ s.EntryHolds n k := by
  obtain ⟨hlen, hget⟩ := List.forall₂_iff_get.mp h.queued.holds
  obtain ⟨⟨i, hi'⟩, hik⟩ := List.mem_iff_get.mp hk
  have hi : i < live.length := hlen ▸ hi'
  refine ⟨live.get ⟨i, hi⟩, ⟨List.get_mem _ _, ?_, ?_⟩, ?_⟩
  · rcases hget i hi hi' with hst | ⟨-, hmem⟩
    · rw [hik] at hst
      simp [hst, UdprecvPc.filled] at hf
    · rw [hmem, hik]
      rfl
  · -- the entry a call is about to fill is its own
    intro j hj
    have hjk : queue.get ⟨i, hi'⟩ = j := by
      by_contra hne
      exact (h.el_of_store hj hi hi').2 hne rfl
    rw [← hjk, hik] at hj
    simp [hj, UdprecvPc.filled] at hf
  · rintro n ⟨hn, he⟩
    obtain ⟨-, i₁, hi₁, hi₁', rfl, hk₁⟩ := h.index_of_entryHolds hn he
    have hii : i₁ = i := by
      have hnd : queue.Nodup := (List.nodup_append.mp h.nodup).2.1
      simpa using hnd.get_inj_iff.mp (hk₁.trans hik.symm)
    subst hii
    rfl

/-- A datagram that is being served is at the head of the queue, its packet buffer is not freed, and it has not been replied
with. -/
theorem of_serves (h : RxInv s past queue free live) {d : Nat} (hs : s.Serves d) :
    queue.head? = some d ∧ (s.calls d).pc.filled = true ∧ (s.calls d).freed = 0 ∧ d ∉ s.served.map Served.pbuf := by
  obtain ⟨hpc, hmsg⟩ := hs
  have hserving : s.Serving queue live := by
    have hl := h.locals
    rcases hpc with hpc | hpc | hpc | hpc
    all_goals rw [RxServer.Local, hpc] at hl
    · exact hl.1
    · exact hl.1
    · exact hl.1
    · rcases hl with ⟨hnone, -⟩ | hl
      · rw [hnone] at hmsg
        cases hmsg
      · exact hl.1
  have hquiet : s.pc.freed = false ∧ s.pc.replied = false := by
    rcases hpc with hpc | hpc | hpc | hpc <;> rw [hpc] <;> exact ⟨rfl, rfl⟩
  obtain ⟨n, t, d', rest, rfl, rfl, hm, hf, hmem⟩ := h.serving_head hserving
  have hdd : d' = d := by
    rw [hm, Option.bind_some, hmem] at hmsg
    exact Option.some.inj hmsg
  subst hdd
  have hd := h.calls d'
  rw [callInv_filled hf, hquiet.1] at hd
  have hmemq : d' ∈ d' :: rest := List.mem_cons_self
  have hpast : d' ∉ past := fun hp => (List.nodup_append.mp h.nodup).2.2 d' hp d' hmemq rfl
  refine ⟨rfl, hf, ?_, ?_⟩
  · rcases hd.2 with ⟨-, hc, -⟩ | ⟨-, -, -, hfr⟩ | ⟨-, hc, -⟩
    · exact absurd hmemq hc
    · simpa using hfr
    · exact absurd hmemq hc
  · rw [h.served, hquiet.2]
    simpa [Udprecv.served] using hpast

/-- Where a packet buffer handed to `udprecv` is. -/
theorem ownership (h : RxInv s past queue free live) {k : Nat} (hk : k < s.arrivals) :
    ((s.calls k).pc.holdsPbuf = true ∧ (¬ ∃ n ∈ live, s.EntryHolds n k) ∧ (s.calls k).freed = 0) ∨
      ((s.calls k).pc.holdsPbuf = false ∧ (∃! n, n ∈ live ∧ s.EntryHolds n k) ∧ (s.calls k).freed = 0) ∨
      ((s.calls k).pc.holdsPbuf = false ∧ (s.calls k).freed = 1) := by
  have hc := h.calls k
  have hnot : (s.calls k).pc.filled = false → ¬ ∃ n ∈ live, s.EntryHolds n k := by
    rintro hf ⟨n, hn, he⟩
    rw [(h.index_of_entryHolds hn he).1] at hf
    cases hf
  by_cases hf : (s.calls k).pc.filled = true
  · rw [callInv_filled hf] at hc
    have hh : (s.calls k).pc.holdsPbuf = false := by
      revert hf
      cases (s.calls k).pc <;> simp [UdprecvPc.filled, UdprecvPc.holdsPbuf]
    rcases hc.2 with ⟨-, -, -, hfr⟩ | ⟨-, hq, -, hfr⟩ | ⟨-, -, -, hfr⟩
    · exact Or.inr (Or.inr ⟨hh, hfr⟩)
    · by_cases hspent : (if s.pc.freed = true then queue.head? else none) = some k
      · exact Or.inr (Or.inr ⟨hh, by rw [hfr, if_pos hspent]⟩)
      · exact Or.inr (Or.inl ⟨hh, h.existsUnique_entry hq hf, by rw [hfr, if_neg hspent]⟩)
    · exact Or.inr (Or.inr ⟨hh, hfr⟩)
  · refine Or.inl ⟨?_, hnot (by simpa using hf), ?_⟩
    all_goals
      unfold CallInv at hc
      revert hc hf
      cases (s.calls k).pc <;> simp [UdprecvPc.filled, UdprecvPc.holdsPbuf] <;> omega

/-- A datagram that was refused an entry. -/
theorem of_dropped (h : RxInv s past queue free live) {k : Nat} (hk : k ∈ s.dropped) :
    k ∉ s.accepted ∧ ((s.calls k).pc = .drop ∨ (s.calls k).freed = 1) := by
  have hc := h.calls k
  rw [h.accepted, List.mem_append]
  unfold CallInv at hc
  revert hc
  cases (s.calls k).pc <;> simp [hk] <;> tauto

end RxInv

/-- In every reachable state every packet buffer handed to `udprecv` is in exactly one of three places: held by its running
call, by exactly one live entry and not freed, or freed; and it has been freed at most once. A datagram that was refused an
entry is never in the queue, and is freed as soon as its call goes on. The copy loop reads a packet buffer that is not
freed, and a datagram is taken from the head of the queue to be served only while its packet buffer is not freed and it has
not been replied with. -/
theorem udp_rx_pbuf_ownership (rxBufSize : Nat) (self : IfaceHolder) (s : RxServer)
    (hr : (rxMachine rxBufSize self).Reachable s) :
    (∃ free live, s.msgs.Rep free live ∧ ∀ k < s.arrivals, (s.calls k).freed ≤ 1 ∧
      (((s.calls k).pc.holdsPbuf = true ∧ (¬ ∃ n ∈ live, s.EntryHolds n k) ∧ (s.calls k).freed = 0) ∨
        ((s.calls k).pc.holdsPbuf = false ∧ (∃! n, n ∈ live ∧ s.EntryHolds n k) ∧ (s.calls k).freed = 0) ∨
        ((s.calls k).pc.holdsPbuf = false ∧ (s.calls k).freed = 1))) ∧
    (∀ k ∈ s.dropped, k ∉ s.accepted ∧ ((s.calls k).pc = .drop ∨ (s.calls k).freed = 1)) ∧
    (∀ d, s.pc = .copy → s.chain = some d → (s.calls d).freed = 0) ∧
    (∀ d, s.Serves d → (s.calls d).freed = 0 ∧ d ∉ s.served.map Served.pbuf) ∧
    (s.served.map Served.pbuf).Nodup := by
  obtain ⟨past, queue, free, live, h⟩ := rx_inv hr
  refine ⟨⟨free, live, h.queued.rep, fun k hk => ⟨?_, h.ownership hk⟩⟩, fun k hk => h.of_dropped hk, ?_, ?_, ?_⟩
  · rcases h.ownership hk with ⟨-, -, hf⟩ | ⟨-, -, hf⟩ | ⟨-, hf⟩ <;> omega
  · intro d hpc hchain
    have hl := h.locals
    rw [RxServer.Local, hpc] at hl
    obtain ⟨hserving, d', done, hd', hchain', -⟩ := hl
    obtain ⟨n, t, d₁, rest, rfl, rfl, hm, -, hmem⟩ := h.serving_head hserving
    have hdd : d₁ = d := by
      have h₁ : d₁ = d' := Option.some.inj hd'
      exact h₁.trans (Option.some.inj (hchain'.symm.trans hchain))
    refine (h.of_serves ⟨Or.inr (Or.inr (Or.inl hpc)), ?_⟩).2.2.1
    rw [hm, Option.bind_some, hmem, hdd]
    rfl
  · intro d hs
    exact (h.of_serves hs).2.2
  · have hprefix := h.served_prefix.map Served.pbuf
    rw [List.map_map] at hprefix
    refine List.Nodup.sublist hprefix.sublist ?_
    have hid : (Served.pbuf ∘ fun k => (s.calls k).served k) = id := rfl
    rw [hid, List.map_id, h.accepted]
    exact h.nodup

/-- In the run of `exists_oneServed` the packet buffer of the datagram replied with is freed, once, and that of the other one is
held by exactly one entry, and is not freed. -/
theorem udp_rx_pbuf_ownership_oneServed : ∃ s : RxServer, (rxMachine 16384 (.rx 0)).Reachable s ∧ s.arrivals = 2 ∧
    (s.calls 0).freed = 1 ∧ ∃ free live, s.msgs.Rep free live ∧ (∃! n, n ∈ live ∧ s.EntryHolds n 1) ∧ (s.calls 1).freed = 0 := by
  obtain ⟨s, hr, -, harr, -, hc₀, hc₁⟩ := exists_oneServed (.rx 0)
  obtain ⟨⟨free, live, hrep, hown⟩, -⟩ := udp_rx_pbuf_ownership 16384 (.rx 0) s hr
  refine ⟨s, hr, harr, by rw [hc₀], free, live, hrep, ?_⟩
  obtain ⟨-, hcases⟩ := hown 1 (by omega)
  rcases hcases with ⟨hh, -⟩ | ⟨-, hu, hf⟩ | ⟨-, hf⟩
  · rw [hc₁] at hh
    cases hh
  · exact ⟨hu, hf⟩
  · rw [hc₁] at hf
    cases hf

end Sel4Osapi
