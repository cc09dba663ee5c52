import Sel4Osapi.Udp.Rx

/-!
# The invariant of the receive side of a socket

The datagrams accepted so far are those whose entry has been released, `past`, and those still in the queue, `queue`; the live
entries of the pool hold the latter one for one and in order (`QueueInv`). `CallInv` follows a packet buffer through its call of
`udprecv` and beyond, `MutexInv` says who is in a section of `msgs_mutex`, and `RxInv.local` what the variables of the rx thread
hold at each of its steps. Every action keeps all of them.
-/

namespace Sel4Osapi

open Transition

/-- The call has written its entry. -/
def UdprecvPc.filled : UdprecvPc → Bool
  | .unlock | .signal | .done => true
  | _ => false

/-- The call holds `msgs_mutex`. -/
def UdprecvPc.inSection : UdprecvPc → Bool
  | .alloc | .store _ | .drop | .unlock => true
  | _ => false

/-- The rx thread holds `msgs_mutex`. -/
def RxPc.inSection : RxPc → Bool
  | .peek | .unlockPeek | .unlockEmpty | .poolFree | .unlockFree => true
  | _ => false

/-- The rx thread has replied with a datagram whose entry it has not released yet. -/
def RxPc.replied : RxPc → Bool
  | .lockIface | .freePbuf | .unlockIface | .lockFree | .poolFree => true
  | _ => false

/-- The rx thread has freed a packet buffer whose entry it has not released yet. -/
def RxPc.freed : RxPc → Bool
  | .unlockIface | .lockFree | .poolFree => true
  | _ => false

theorem RxPc.replied_of_freed {pc : RxPc} (h : pc.freed = true) : pc.replied = true := by
  cases pc <;> first | rfl | cases h

/-- What a call of `udprecv` writes in its entry. -/
def Udprecv.message (c : Udprecv) (k : Nat) : UdpMessage := { pbuf := some k, addr := c.addr, port := c.port }

/-- What a reply with the datagram of a call of `udprecv` has to be. -/
def Udprecv.served (c : Udprecv) (k : Nat) : Served :=
  { pbuf := k, data := c.p.flatten, packetLen := c.p.flatten.length, port := c.port, addr := c.addr }

/-- The entry `n` is that of datagram `k`: its call is about to fill it, or has. -/
def Holds (msgs : Pool (Ptr → UdpMessage)) (calls : Nat → Udprecv) (n : Ptr) (k : Nat) : Prop :=
  (calls k).pc = .store (msgs.nodes n).el ∨
    ((calls k).pc.filled = true ∧ msgs.mem (msgs.nodes n).el = (calls k).message k)

/-- The message queue: the live entries of the pool hold the datagrams of `queue`, in order. -/
structure QueueInv (msgs : Pool (Ptr → UdpMessage)) (calls : Nat → Udprecv) (queue : List Nat) (free live : List Ptr) : Prop where
  rep : msgs.Rep free live
  initFn : msgs.initFn = none
  compareFn : msgs.compareFn = none
  size : msgs.size = udpMaxMsgsPerClient
  holds : List.Forall₂ (Holds msgs calls) live queue

/-- Where the packet buffer of call `k` is: `spent` is the one that is freed while its entry is still in the queue. -/
def CallInv (calls : Nat → Udprecv) (arrivals : Nat) (past queue dropped : List Nat) (spent : Option Nat) (k : Nat) : Prop :=
  match (calls k).pc with
  | .idle => arrivals ≤ k ∧ k ∉ past ∧ k ∉ queue ∧ k ∉ dropped ∧ (calls k).freed = 0
  | .lock | .alloc => k < arrivals ∧ k ∉ past ∧ k ∉ queue ∧ k ∉ dropped ∧ (calls k).freed = 0
  | .store _ => k < arrivals ∧ k ∉ past ∧ k ∈ queue ∧ k ∉ dropped ∧ (calls k).freed = 0
  | .drop => k < arrivals ∧ k ∉ past ∧ k ∉ queue ∧ k ∈ dropped ∧ (calls k).freed = 0
  | .unlock | .signal | .done => k < arrivals ∧
    ((k ∈ past ∧ k ∉ queue ∧ k ∉ dropped ∧ (calls k).freed = 1) ∨
      (k ∉ past ∧ k ∈ queue ∧ k ∉ dropped ∧ (calls k).freed = if spent = some k then 1 else 0) ∨
      (k ∉ past ∧ k ∉ queue ∧ k ∈ dropped ∧ (calls k).freed = 1))

theorem callInv_filled {calls : Nat → Udprecv} {arrivals : Nat} {past queue dropped : List Nat} {spent : Option Nat} {k : Nat}
    (hf : (calls k).pc.filled = true) :
    CallInv calls arrivals past queue dropped spent k ↔ k < arrivals ∧
      ((k ∈ past ∧ k ∉ queue ∧ k ∉ dropped ∧ (calls k).freed = 1) ∨
        (k ∉ past ∧ k ∈ queue ∧ k ∉ dropped ∧ (calls k).freed = if spent = some k then 1 else 0) ∨
        (k ∉ past ∧ k ∉ queue ∧ k ∈ dropped ∧ (calls k).freed = 1)) := by
  unfold CallInv
  revert hf
  cases (calls k).pc <;> simp [UdprecvPc.filled]

/-- `msgs_mutex` is held by who is in a section of it. -/
structure MutexInv (mutex : Option MsgsHolder) (calls : Nat → Udprecv) (pc : RxPc) : Prop where
  udprecv : ∀ k, mutex = some (.udprecv k) ↔ (calls k).pc.inSection = true
  rx : mutex = some .rx ↔ pc.inSection = true

namespace MutexInv

variable {mutex : Option MsgsHolder} {calls : Nat → Udprecv} {pc pc' : RxPc} {k : Nat} {c' : Udprecv}

/-- A call of `udprecv` takes the mutex. -/
theorem lockCall (h : MutexInv none calls pc) (hc : c'.pc.inSection = true) :
    MutexInv (some (.udprecv k)) (Function.update calls k c') pc := by
  refine ⟨?_, by simpa using h.rx⟩
  intro j
  rcases eq_or_ne j k with rfl | hne
  · simpa using hc
  · simpa [hne, hne.symm] using h.udprecv j

/-- A call of `udprecv` gives the mutex back. -/
theorem unlockCall (h : MutexInv mutex calls pc) (hk : (calls k).pc.inSection = true) (hc : c'.pc.inSection = false) :
    MutexInv none (Function.update calls k c') pc := by
  obtain rfl := (h.udprecv k).mpr hk
  refine ⟨?_, by simpa using h.rx⟩
  intro j
  rcases eq_or_ne j k with rfl | hne
  · simpa using hc
  · simpa [hne, hne.symm] using h.udprecv j

/-- A call of `udprecv` goes on, in or out of its section. -/
theorem keepCall (h : MutexInv mutex calls pc) (hc : c'.pc.inSection = (calls k).pc.inSection) :
    MutexInv mutex (Function.update calls k c') pc := by
  refine ⟨?_, h.rx⟩
  intro j
  rcases eq_or_ne j k with rfl | hne
  · simpa [hc] using h.udprecv j
  · simpa [hne] using h.udprecv j

/-- The rx thread takes the mutex. -/
theorem lockRx (h : MutexInv none calls pc) (hpc : pc'.inSection = true) : MutexInv (some .rx) calls pc' :=
  ⟨fun j => by simpa using h.udprecv j, by simpa using hpc⟩

/-- The rx thread gives the mutex back. -/
theorem unlockRx (h : MutexInv mutex calls pc) (hpc : pc.inSection = true) (hpc' : pc'.inSection = false) :
    MutexInv none calls pc' := by
  obtain rfl := h.rx.mpr hpc
  exact ⟨fun j => by simpa using h.udprecv j, by simpa using hpc'⟩

/-- The rx thread goes on, in or out of a section. -/
theorem keepRx (h : MutexInv mutex calls pc) (hpc : pc'.inSection = pc.inSection) : MutexInv mutex calls pc' :=
  ⟨h.udprecv, by rw [hpc]; exact h.rx⟩

end MutexInv

/-- The rx thread serves the head of the queue. -/
def RxServer.Serving (s : RxServer) (queue : List Nat) (live : List Ptr) : Prop :=
  ∃ n d, live.head? = some n ∧ queue.head? = some d ∧ s.msg = some (s.msgs.nodes n).el ∧ (s.calls d).pc.filled = true

/-- The copy loop has written the buffers `done` of the chain, and `off` bytes of the next one. -/
def RxServer.Copying (s : RxServer) (queue : List Nat) : Prop :=
  ∃ d done, queue.head? = some d ∧ s.chain = some d ∧ s.port = (s.calls d).port ∧ s.ipaddr = (s.calls d).addr ∧
    (s.calls d).p = done ++ s.q ∧ s.packetLen = done.flatten.length ∧ s.off ≤ (s.q.headD []).length ∧
    s.copied = done.flatten ++ (s.q.headD []).take s.off

/-- What the variables of the rx thread hold. -/
def RxServer.Local (s : RxServer) (queue : List Nat) (live : List Ptr) : Prop :=
  match s.pc with
  | .top => s.msg = none
  | .signalMore | .recv | .lockPeek | .peek | .unlockEmpty => s.msg = none ∧ s.packetLen = 0
  | .unlockPeek | .load => s.Serving queue live ∧ s.packetLen = 0
  | .copy => s.Serving queue live ∧ s.Copying queue
  | .reply => (s.msg = none ∧ s.packetLen = 0) ∨ (s.Serving queue live ∧ s.Copying queue ∧ s.q = [])
  | .lockIface | .freePbuf | .unlockIface | .lockFree | .poolFree => s.Serving queue live
  | .unlockFree => True

/-- What another thread does is no matter to the rx thread, if it keeps what is served and what is being copied. -/
theorem RxServer.Local.mono {s s' : RxServer} {queue queue' : List Nat} {live live' : List Ptr} (h : s.Local queue live)
    (hpc : s'.pc = s.pc) (hmsg : s'.msg = s.msg) (hlen : s'.packetLen = s.packetLen) (hq : s'.q = s.q)
    (hserving : s.Serving queue live → s'.Serving queue' live') (hcopying : s.Copying queue → s'.Copying queue') :
    s'.Local queue' live' := by
  unfold RxServer.Local at h ⊢
  rw [hpc, hmsg, hlen, hq]
  revert h
  cases s.pc <;> simp only <;> tauto

/-- The receive side of a socket is consistent. -/
structure RxInv (s : RxServer) (past queue : List Nat) (free live : List Ptr) : Prop where
  accepted : s.accepted = past ++ queue
  released : s.released = past.length
  nodup : (past ++ queue).Nodup
  queued : QueueInv s.msgs s.calls queue free live
  calls : ∀ k, CallInv s.calls s.arrivals past queue s.dropped (if s.pc.freed then queue.head? else none) k
  mutex : MutexInv s.msgsMutex s.calls s.pc
  served : s.served = (past ++ if s.pc.replied then queue.take 1 else []).map fun k => (s.calls k).served k
  locals : s.Local queue live

namespace RxInv

variable {s : RxServer} {past queue : List Nat} {free live : List Ptr}

/-- A socket just bound. -/
theorem of_init (h : s.Init) : ∃ free, RxInv s [] [] free [] := by
  obtain ⟨malloc, nodes, mem, elSize, hm, hnew⟩ := h.msgs
  obtain ⟨hr, hi, hc, hs, -⟩ := simplePoolNew_ok hm hnew
  refine ⟨_, h.accepted, h.released, List.nodup_nil, ⟨hr, hi, hc, hs, .nil⟩, ?_, ⟨?_, ?_⟩, ?_, ?_⟩
  · intro k
    simp [CallInv, (h.calls k).1, (h.calls k).2, h.arrivals, h.dropped]
  · intro k
    simp [h.msgsMutex, (h.calls k).1, UdprecvPc.inSection]
  · simp [h.msgsMutex, h.pc, RxPc.inSection]
  · simp [h.served, h.pc, RxPc.replied]
  · simp [RxServer.Local, h.pc, h.msg]

/-- A call that is not in the queue, or has not changed, keeps holding its entry. -/
theorem holds_update {msgs : Pool (Ptr → UdpMessage)} {calls : Nat → Udprecv} {k : Nat} {c' : Udprecv}
    (hstore : ∀ m, (calls k).pc ≠ .store m)
    (hfilled : (calls k).pc.filled = true → c'.pc.filled = true ∧ c'.message k = (calls k).message k) {n : Ptr} {j : Nat}
    (h : Holds msgs calls n j) : Holds msgs (Function.update calls k c') n j := by
  rcases eq_or_ne j k with rfl | hne
  · rcases h with h | ⟨hf, hm⟩
    · exact absurd h (hstore _)
    · exact Or.inr ⟨by simpa using (hfilled hf).1, by simpa [(hfilled hf).2] using hm⟩
  · simpa [Holds, hne] using h

/-- A datagram that has been accepted was handed to `udprecv`. -/
theorem not_idle (h : RxInv s past queue free live) {k : Nat} (hk : k ∈ past ++ queue) : (s.calls k).pc ≠ .idle := by
  intro hpc
  have hc := h.calls k
  rw [CallInv, hpc] at hc
  rcases List.mem_append.mp hk with hk | hk
  · exact hc.2.1 hk
  · exact hc.2.2.1 hk

/-- A call of `udprecv` goes on without touching the pool. -/
theorem updateCall (h : RxInv s past queue free live) {k : Nat} (arrivals : Nat) (c' : Udprecv) (mutex : Option MsgsHolder)
    (dropped : List Nat) (aep : Bool) (hstore : ∀ m, (s.calls k).pc ≠ .store m)
    (hfilled : (s.calls k).pc.filled = true → c'.pc.filled = true)
    (hargs : (s.calls k).pc ≠ .idle → c'.p = (s.calls k).p ∧ c'.addr = (s.calls k).addr ∧ c'.port = (s.calls k).port)
    (hcall : CallInv (Function.update s.calls k c') arrivals past queue dropped
      (if s.pc.freed then queue.head? else none) k)
    (harr : ∀ j, j ≠ k → (arrivals ≤ j ↔ s.arrivals ≤ j)) (hdrop : ∀ j, j ≠ k → (j ∈ dropped ↔ j ∈ s.dropped))
    (hmutex : MutexInv mutex (Function.update s.calls k c') s.pc) :
    RxInv { s with
      calls := Function.update s.calls k c', arrivals := arrivals, msgsMutex := mutex, dropped := dropped, aepRxData := aep }
      past queue free live := by
  -- what the other parts of the invariant read of a call
  have hsame : ∀ j ∈ past ++ queue, (Function.update s.calls k c' j).p = (s.calls j).p ∧
      (Function.update s.calls k c' j).addr = (s.calls j).addr ∧ (Function.update s.calls k c' j).port = (s.calls j).port := by
    intro j hj
    rcases eq_or_ne j k with rfl | hne
    · simpa using hargs (h.not_idle hj)
    · simp [hne]
  have hkeep : ∀ j, (s.calls j).pc.filled = true → (Function.update s.calls k c' j).pc.filled = true := by
    intro j hj
    rcases eq_or_ne j k with rfl | hne
    · simpa using hfilled hj
    · simpa [hne] using hj
  have hserving : s.Serving queue live → RxServer.Serving { s with
      calls := Function.update s.calls k c', arrivals := arrivals, msgsMutex := mutex, dropped := dropped, aepRxData := aep }
      queue live := by
    rintro ⟨n, d, hn, hd, hmsg, hf⟩
    exact ⟨n, d, hn, hd, hmsg, hkeep d hf⟩
  have hcopying : s.Copying queue → RxServer.Copying { s with
      calls := Function.update s.calls k c', arrivals := arrivals, msgsMutex := mutex, dropped := dropped, aepRxData := aep }
      queue := by
    rintro ⟨d, done, hd, hchain, hport, haddr, hp, hrest⟩
    obtain ⟨e₁, e₂, e₃⟩ := hsame d (List.mem_append_right _ (List.mem_of_mem_head? hd))
    exact ⟨d, done, hd, hchain, hport.trans e₃.symm, haddr.trans e₂.symm, e₁.trans hp, hrest⟩
  refine ⟨h.accepted, h.released, h.nodup, ⟨h.queued.rep, h.queued.initFn, h.queued.compareFn, h.queued.size, ?_⟩, ?_, hmutex,
    ?_, ?_⟩
  · refine h.queued.holds.imp fun n j => holds_update hstore fun hf => ⟨hfilled hf, ?_⟩
    have hne : (s.calls k).pc ≠ .idle := fun e => by simp [e, UdprecvPc.filled] at hf
    simp [Udprecv.message, (hargs hne).2.1, (hargs hne).2.2]
  · intro j
    rcases eq_or_ne j k with rfl | hne
    · exact hcall
    · have hj := h.calls j
      simp only [CallInv, Function.update_of_ne hne, hdrop j hne, harr j hne, ← not_le] at hj ⊢
      exact hj
  · refine h.served.trans (List.map_congr_left ?_)
    intro j hj
    have hj : j ∈ past ++ queue := by
      rcases List.mem_append.mp hj with hj | hj
      · exact List.mem_append_left _ hj
      · split at hj
        · exact List.mem_append_right _ (List.mem_of_mem_take hj)
        · exact absurd hj List.not_mem_nil
    obtain ⟨e₁, e₂, e₃⟩ := hsame j hj
    simp only [Udprecv.served, e₁, e₂, e₃]
  · exact h.locals.mono rfl rfl rfl rfl hserving hcopying

/-- After a reply with a datagram its entry is still the head of the queue. -/
theorem serving_of_replied (h : RxInv s past queue free live) (hr : s.pc.replied = true) : s.Serving queue live := by
  have hl := h.locals
  revert hl hr
  unfold RxServer.Local
  cases s.pc <;> simp [RxPc.replied]

/-- `udprecv` gets an entry: it is the last of the queue, and nothing is in it yet. -/
theorem allocCall (h : RxInv s past queue free live) {k : Nat} (hpc : (s.calls k).pc = .alloc) {x : Ptr} {free' : List Ptr}
    (hfree : free = x :: free') :
    ∃ msgs, simplePoolAlloc s.msgs = .ok (some (s.msgs.nodes x).el, msgs) ∧
      RxInv { s with msgs := msgs, calls := s.setCallPc k (.store (s.msgs.nodes x).el), accepted := s.accepted ++ [k] }
        past (queue ++ [k]) free' (live ++ [x]) := by
  subst hfree
  obtain ⟨msgs, hmsgs, hr, hf, hm⟩ := simplePoolAlloc_cons h.queued.rep
  have hm : msgs.mem = s.msgs.mem := by simpa [Pool.init, h.queued.initFn] using hm
  have hk := h.calls k
  rw [CallInv, hpc] at hk
  obtain ⟨hlt, hkp, hkq, hkd, hk0⟩ := hk
  have hcalls : ∀ j, j ≠ k → s.setCallPc k (.store (s.msgs.nodes x).el) j = s.calls j := fun j hne => by
    simp [RxServer.setCallPc, hne]
  have hself : s.setCallPc k (.store (s.msgs.nodes x).el) k = { s.calls k with pc := .store (s.msgs.nodes x).el } := by
    simp [RxServer.setCallPc]
  have hargs : ∀ j, (s.setCallPc k (.store (s.msgs.nodes x).el) j).served j = (s.calls j).served j := fun j => by
    rcases eq_or_ne j k with rfl | hne
    · rw [hself]
      rfl
    · rw [hcalls j hne]
  -- the head of the queue, if there is one, does not change
  have hhead : ∀ d, queue.head? = some d → (queue ++ [k]).head? = some d := fun d hd => by simp [hd]
  have hserving : s.Serving queue live → RxServer.Serving { s with
      msgs := msgs, calls := s.setCallPc k (.store (s.msgs.nodes x).el), accepted := s.accepted ++ [k] }
      (queue ++ [k]) (live ++ [x]) := by
    rintro ⟨n, d, hn, hd, hmsg, hfill⟩
    have hdk : d ≠ k := by
      rintro rfl
      exact hkq (List.mem_of_mem_head? hd)
    exact ⟨n, d, by simp [hn], hhead d hd, by simpa [hf.el] using hmsg, by simpa [hcalls d hdk] using hfill⟩
  have hcopying : s.Copying queue → RxServer.Copying { s with
      msgs := msgs, calls := s.setCallPc k (.store (s.msgs.nodes x).el), accepted := s.accepted ++ [k] } (queue ++ [k]) := by
    rintro ⟨d, done, hd, hrest⟩
    have hdk : d ≠ k := by
      rintro rfl
      exact hkq (List.mem_of_mem_head? hd)
    refine ⟨d, done, hhead d hd, ?_⟩
    simpa only [hcalls d hdk] using hrest
  have hspent : (if s.pc.freed then queue.head? else none) = if s.pc.freed then (queue ++ [k]).head? else none := by
    cases hs : s.pc.freed with
    | false => rfl
    | true =>
      obtain ⟨n, d, -, hd, -⟩ := h.serving_of_replied (RxPc.replied_of_freed hs)
      simp [hd]
  have htake : (if s.pc.replied then queue.take 1 else []) = if s.pc.replied then (queue ++ [k]).take 1 else [] := by
    cases hs : s.pc.replied with
    | false => rfl
    | true =>
      obtain ⟨n, d, -, hd, -⟩ := h.serving_of_replied hs
      obtain ⟨rest, rfl⟩ := List.head?_eq_some_iff.mp hd
      rfl
  refine ⟨msgs, hmsgs, by simp [h.accepted], h.released, ?_, ⟨hr, ?_, ?_, ?_, ?_⟩, ?_, ?_, ?_, ?_⟩
  · rw [← List.append_assoc, List.nodup_append]
    refine ⟨h.nodup, by simp, ?_⟩
    rintro a ha b hb rfl
    rw [List.mem_singleton.mp hb] at ha
    rcases List.mem_append.mp ha with ha | ha
    · exact hkp ha
    · exact hkq ha
  · exact hf.initFn.trans h.queued.initFn
  · exact hf.compareFn.trans h.queued.compareFn
  · exact hf.size.trans h.queued.size
  · refine List.rel_append (h.queued.holds.imp ?_) (.cons (Or.inl (by simp [hself, hf.el])) .nil)
    intro n j hj
    have hjk : j ≠ k := by
      rintro rfl
      simp [Holds, hpc, UdprecvPc.filled] at hj
    simpa only [Holds, hcalls j hjk, hf.el, hm] using hj
  · intro j
    rw [← hspent]
    rcases eq_or_ne j k with rfl | hne
    · simp only [CallInv, hself]
      exact ⟨hlt, hkp, by simp, hkd, hk0⟩
    · have hj := h.calls j
      have hmem : j ∈ queue ++ [k] ↔ j ∈ queue := by simp [hne]
      simpa only [CallInv, hcalls j hne, hmem] using hj
  · exact h.mutex.keepCall (by simp [hpc, UdprecvPc.inSection])
  · rw [h.served, htake]
    exact List.map_congr_left fun j _ => (hargs j).symm
  · exact h.locals.mono rfl rfl rfl rfl hserving hcopying

/-- The entry a call is about to fill is that of no other datagram of the queue. -/
theorem el_of_store (h : RxInv s past queue free live) {k : Nat} {m : Ptr} (hpc : (s.calls k).pc = .store m) {i : Nat}
    (hi : i < live.length) (hi' : i < queue.length) :
    (queue.get ⟨i, hi'⟩ = k → (s.msgs.nodes (live.get ⟨i, hi⟩)).el = m) ∧
      (queue.get ⟨i, hi'⟩ ≠ k → (s.msgs.nodes (live.get ⟨i, hi⟩)).el ≠ m) := by
  obtain ⟨hlen, hget⟩ := List.forall₂_iff_get.mp h.queued.holds
  have hself : ∀ j (hj : j < live.length) (hj' : j < queue.length), queue.get ⟨j, hj'⟩ = k →
      (s.msgs.nodes (live.get ⟨j, hj⟩)).el = m := by
    intro j hj hj' e
    have hh := hget j hj hj'
    rw [e] at hh
    rcases hh with hh | ⟨hf, -⟩
    · rw [hpc] at hh
      exact (UdprecvPc.store.inj hh).symm
    · simp [hpc, UdprecvPc.filled] at hf
  refine ⟨hself i hi hi', fun hne he => hne ?_⟩
  have hk := h.calls k
  rw [CallInv, hpc] at hk
  obtain ⟨⟨j, hj'⟩, hjk⟩ := List.mem_iff_get.mp hk.2.2.1
  have hj : j < live.length := hlen ▸ hj'
  have hnode : live.get ⟨i, hi⟩ = live.get ⟨j, hj⟩ :=
    h.queued.rep.el_inj (List.mem_append_right _ (List.get_mem _ _)) (List.mem_append_right _ (List.get_mem _ _))
      (he.trans (hself j hj hj' hjk).symm)
  have hij : i = j := by simpa using (h.queued.rep.liveList.nodup.get_inj_iff).mp hnode
  subst hij
  exact hjk

/-- `udprecv` fills its entry. -/
theorem storeCall (h : RxInv s past queue free live) {k : Nat} {m : Ptr} (hpc : (s.calls k).pc = .store m) :
    RxInv { s with
      msgs := { s.msgs with
        mem := Function.update s.msgs.mem m { pbuf := some k, addr := (s.calls k).addr, port := (s.calls k).port } }
      calls := s.setCallPc k .unlock } past queue free live := by
  have hk := h.calls k
  rw [CallInv, hpc] at hk
  obtain ⟨hlt, hkp, hkq, hkd, hk0⟩ := hk
  have hcalls : ∀ j, j ≠ k → s.setCallPc k .unlock j = s.calls j := fun j hne => by simp [RxServer.setCallPc, hne]
  have hself : s.setCallPc k .unlock k = { s.calls k with pc := .unlock } := by simp [RxServer.setCallPc]
  have hargs : ∀ j, (s.setCallPc k .unlock j).served j = (s.calls j).served j := fun j => by
    rcases eq_or_ne j k with rfl | hne
    · rw [hself]
      rfl
    · rw [hcalls j hne]
  -- the datagram that is being served has been in the queue for long
  have hdk : ∀ d, (s.calls d).pc.filled = true → d ≠ k := by
    rintro d hf rfl
    simp [hpc, UdprecvPc.filled] at hf
  have hspent : (if s.pc.freed then queue.head? else none) ≠ some k := by
    cases hs : s.pc.freed with
    | false => simp
    | true =>
      obtain ⟨n, d, -, hd, -, hf⟩ := h.serving_of_replied (RxPc.replied_of_freed hs)
      simp [hd, hdk d hf]
  refine ⟨h.accepted, h.released, h.nodup, ⟨h.queued.rep.write _, h.queued.initFn, h.queued.compareFn, h.queued.size, ?_⟩, ?_,
    h.mutex.keepCall (by simp [hpc, UdprecvPc.inSection]), ?_, ?_⟩
  · obtain ⟨hlen, hget⟩ := List.forall₂_iff_get.mp h.queued.holds
    refine List.forall₂_iff_get.mpr ⟨hlen, ?_⟩
    intro i hi hi'
    obtain ⟨heq, hne⟩ := h.el_of_store hpc hi hi'
    by_cases hik : queue.get ⟨i, hi'⟩ = k
    · rw [hik]
      refine Or.inr ⟨by simp [hself, UdprecvPc.filled], ?_⟩
      dsimp only
      rw [heq hik, hself]
      exact Function.update_self ..
    · have hh := hget i hi hi'
      simpa only [Holds, hcalls _ hik, Function.update_of_ne (hne hik)] using hh
  · intro j
    rcases eq_or_ne j k with rfl | hne
    · simp only [CallInv, hself]
      exact ⟨hlt, Or.inr (Or.inl ⟨hkp, hkq, hkd, by rw [if_neg hspent]; exact hk0⟩)⟩
    · have hj := h.calls j
      simpa only [CallInv, hcalls j hne] using hj
  · exact h.served.trans (List.map_congr_left fun j _ => (hargs j).symm)
  · refine h.locals.mono rfl rfl rfl rfl ?_ ?_
    · rintro ⟨n, d, hn, hd, hmsg, hf⟩
      exact ⟨n, d, hn, hd, hmsg, by simpa only [hcalls d (hdk d hf)] using hf⟩
    · rintro ⟨d, done, hd, hrest⟩
      refine ⟨d, done, hd, ?_⟩
      rcases eq_or_ne d k with rfl | hne
      · simpa only [hself] using hrest
      · simpa only [hcalls d hne] using hrest

/-- A step of a call of `udprecv`. -/
theorem udprecvStep (h : RxInv s past queue free live) (k : Nat) :
    s.udprecvStep k = .blocked ∨ ∃ s', s.udprecvStep k = .next s' ∧ ∃ queue' free' live', RxInv s' past queue' free' live' := by
  unfold RxServer.udprecvStep
  have hk := h.calls k
  cases hpc : (s.calls k).pc with
  | idle => exact Or.inl rfl
  | done => exact Or.inl rfl
  | lock =>
    by_cases hm : s.msgsMutex = none
    · refine Or.inr ⟨_, if_pos hm, queue, free, live, ?_⟩
      rw [CallInv, hpc] at hk
      refine h.updateCall s.arrivals _ _ s.dropped s.aepRxData (by simp [hpc]) (by simp [hpc, UdprecvPc.filled])
        (fun _ => ⟨rfl, rfl, rfl⟩) (by simpa [CallInv] using hk) (fun _ _ => Iff.rfl) (fun _ _ => Iff.rfl) ?_
      exact (hm ▸ h.mutex : MutexInv none s.calls s.pc).lockCall rfl
    · exact Or.inl (if_neg hm)
  | alloc =>
    refine Or.inr ?_
    cases hfree : free with
    | nil =>
      subst hfree
      refine ⟨{ s with calls := s.setCallPc k .drop, dropped := s.dropped ++ [k] }, ?_, queue, [], live, ?_⟩
      · simp only [simplePoolAlloc_empty h.queued.rep, ok_bind]
        rfl
      · rw [CallInv, hpc] at hk
        refine h.updateCall s.arrivals _ s.msgsMutex (s.dropped ++ [k]) s.aepRxData (by simp [hpc])
          (by simp [hpc, UdprecvPc.filled]) (fun _ => ⟨rfl, rfl, rfl⟩) ?_ (fun _ _ => Iff.rfl) (fun j hj => by simp [hj]) ?_
        · simp only [CallInv, Function.update_self]
          exact ⟨hk.1, hk.2.1, hk.2.2.1, by simp, hk.2.2.2.2⟩
        · exact h.mutex.keepCall (by simp [hpc, UdprecvPc.inSection])
    | cons x free' =>
      obtain ⟨msgs, hmsgs, h'⟩ := h.allocCall hpc hfree
      refine ⟨_, ?_, _, _, _, h'⟩
      simp only [hmsgs, ok_bind]
      rfl
  | store m => exact Or.inr ⟨_, rfl, queue, free, live, h.storeCall hpc⟩
  | drop =>
    refine Or.inr ⟨_, rfl, queue, free, live, ?_⟩
    rw [CallInv, hpc] at hk
    have hcalls : RxServer.pbufFree (s.setCallPc k .unlock) k =
        Function.update s.calls k { s.calls k with pc := .unlock, freed := (s.calls k).freed + 1 } := by
      simp [RxServer.pbufFree, RxServer.setCallPc]
    rw [hcalls]
    refine h.updateCall s.arrivals _ s.msgsMutex s.dropped s.aepRxData (by simp [hpc])
      (by simp [hpc, UdprecvPc.filled]) (fun _ => ⟨rfl, rfl, rfl⟩) ?_ (fun _ _ => Iff.rfl) (fun j hj => Iff.rfl) ?_
    · simp only [CallInv, Function.update_self]
      exact ⟨hk.1, Or.inr (Or.inr ⟨hk.2.1, hk.2.2.1, hk.2.2.2.1, by simp [hk.2.2.2.2]⟩)⟩
    · exact h.mutex.keepCall (by simp [hpc, UdprecvPc.inSection])
  | unlock =>
    refine Or.inr ⟨_, rfl, queue, free, live, ?_⟩
    rw [CallInv, hpc] at hk
    refine h.updateCall s.arrivals _ none s.dropped s.aepRxData (by simp [hpc]) (fun _ => rfl) (fun _ => ⟨rfl, rfl, rfl⟩)
      (by simpa only [CallInv, Function.update_self] using hk) (fun _ _ => Iff.rfl) (fun j hj => Iff.rfl) ?_
    exact h.mutex.unlockCall (k := k) (by simp [hpc, UdprecvPc.inSection]) rfl
  | signal =>
    refine Or.inr ⟨_, rfl, queue, free, live, ?_⟩
    rw [CallInv, hpc] at hk
    refine h.updateCall s.arrivals _ s.msgsMutex s.dropped true (by simp [hpc]) (fun _ => rfl) (fun _ => ⟨rfl, rfl, rfl⟩)
      (by simpa only [CallInv, Function.update_self] using hk) (fun _ _ => Iff.rfl) (fun j hj => Iff.rfl) ?_
    exact h.mutex.keepCall (by simp [hpc, UdprecvPc.inSection])

/-- The next call of `udprecv` has not been made. -/
theorem arrivals_idle (h : RxInv s past queue free live) : (s.calls s.arrivals).pc = .idle := by
  have hk := h.calls s.arrivals
  cases hpc : (s.calls s.arrivals).pc <;> simp [CallInv, hpc] at hk ⊢

/-- lwIP calls `udprecv` with one more datagram. -/
theorem arrive (h : RxInv s past queue free live) (p : List (List UInt8)) (addr : Word) (port : UInt16) :
    RxInv { s with
      calls := Function.update s.calls s.arrivals { p := p, addr := addr, port := port, freed := 0, pc := .lock }
      arrivals := s.arrivals + 1 } past queue free live := by
  have hk := h.calls s.arrivals
  have hpc := h.arrivals_idle
  rw [CallInv, hpc] at hk
  refine h.updateCall (s.arrivals + 1) _ s.msgsMutex s.dropped s.aepRxData (by simp [hpc]) (by simp [hpc, UdprecvPc.filled])
    (fun hne => absurd hpc hne) ?_ (fun j hj => by omega) (fun _ _ => Iff.rfl) ?_
  · simp only [CallInv, Function.update_self]
    exact ⟨by omega, hk.2.1, hk.2.2.1, hk.2.2.2.1, trivial⟩
  · exact h.mutex.keepCall (by simp [hpc, UdprecvPc.inSection])

/-! ## The rx thread -/

/-- The rx thread goes on without touching the pool or a packet buffer. -/
theorem rxMove (h : RxInv s past queue free live) {mutex : Option MsgsHolder} {aep : Bool} {pc : RxPc} {caller : Nat}
    {msg : Option Ptr} {packetLen : Nat} {port : UInt16} {ipaddr : Word} {rem : Int} {chain : Option Nat}
    {q : List (List UInt8)} {off : Nat} {copied : List UInt8} (hfreed : pc.freed = s.pc.freed)
    (hreplied : pc.replied = s.pc.replied) (hmutex : MutexInv mutex s.calls pc)
    (hlocal : RxServer.Local { s with
      msgsMutex := mutex, aepRxData := aep, pc := pc, caller := caller, msg := msg, packetLen := packetLen, port := port,
      ipaddr := ipaddr, remainingMsgs := rem, chain := chain, q := q, off := off, copied := copied } queue live) :
    RxInv { s with
      msgsMutex := mutex, aepRxData := aep, pc := pc, caller := caller, msg := msg, packetLen := packetLen, port := port,
      ipaddr := ipaddr, remainingMsgs := rem, chain := chain, q := q, off := off, copied := copied }
      past queue free live := by
  refine ⟨h.accepted, h.released, h.nodup, h.queued, ?_, hmutex, ?_, hlocal⟩
  · rw [hfreed]
    exact h.calls
  · rw [hreplied]
    exact h.served

/-- The entry of the datagram that is served. -/
theorem serving_head (h : RxInv s past queue free live) (hs : s.Serving queue live) :
    ∃ n t d rest, live = n :: t ∧ queue = d :: rest ∧ s.msg = some (s.msgs.nodes n).el ∧ (s.calls d).pc.filled = true ∧
      s.msgs.mem (s.msgs.nodes n).el = (s.calls d).message d := by
  obtain ⟨n, d, hn, hd, hmsg, hf⟩ := hs
  obtain ⟨t, rfl⟩ := List.head?_eq_some_iff.mp hn
  obtain ⟨rest, rfl⟩ := List.head?_eq_some_iff.mp hd
  obtain ⟨hh, -⟩ := List.forall₂_cons.mp h.queued.holds
  refine ⟨n, t, d, rest, rfl, rfl, hmsg, hf, ?_⟩
  rcases hh with hh | hh
  · simp [hh, UdprecvPc.filled] at hf
  · exact hh.2

/-- With the mutex in the hands of the rx thread, the head of the queue is filled. -/
theorem head_filled (h : RxInv s past queue free live) (hpc : s.pc.inSection = true) {n : Ptr} (hn : live.head? = some n) :
    ∃ d, queue.head? = some d ∧ (s.calls d).pc.filled = true ∧ s.msgs.mem (s.msgs.nodes n).el = (s.calls d).message d := by
  obtain ⟨t, rfl⟩ := List.head?_eq_some_iff.mp hn
  cases hq : queue with
  | nil => exact absurd h.queued.holds (by simp [hq])
  | cons d rest =>
    have hholds := h.queued.holds
    rw [hq] at hholds
    obtain ⟨hh, -⟩ := List.forall₂_cons.mp hholds
    rcases hh with hh | hh
    · have hd : s.msgsMutex = some (.udprecv d) := (h.mutex.udprecv d).mpr (by simp [hh, UdprecvPc.inSection])
      rw [h.mutex.rx.mpr hpc] at hd
      cases hd
    · exact ⟨d, rfl, hh⟩

/-- The rx thread frees the packet buffer of the datagram it has replied with. -/
theorem freePbuf (h : RxInv s past queue free live) (hpc : s.pc = .freePbuf) {d : Nat} {rest : List Nat}
    (hq : queue = d :: rest) (hfilled : (s.calls d).pc.filled = true) :
    RxInv { s with calls := RxServer.pbufFree s.calls d, pc := .unlockIface } past queue free live := by
  have hcalls : ∀ j, j ≠ d → RxServer.pbufFree s.calls d j = s.calls j := fun j hne => by simp [RxServer.pbufFree, hne]
  have hself : RxServer.pbufFree s.calls d d = { s.calls d with freed := (s.calls d).freed + 1 } := by
    simp [RxServer.pbufFree]
  have hpcs : ∀ j, (RxServer.pbufFree s.calls d j).pc = (s.calls j).pc := fun j => by
    rcases eq_or_ne j d with rfl | hne
    · rw [hself]
    · rw [hcalls j hne]
  have hmsg : ∀ j, (RxServer.pbufFree s.calls d j).message j = (s.calls j).message j ∧
      (RxServer.pbufFree s.calls d j).served j = (s.calls j).served j := fun j => by
    rcases eq_or_ne j d with rfl | hne
    · rw [hself]
      exact ⟨rfl, rfl⟩
    · rw [hcalls j hne]
      exact ⟨rfl, rfl⟩
  have hserving : s.Serving queue live := h.serving_of_replied (by simp [hpc, RxPc.replied])
  refine ⟨h.accepted, h.released, h.nodup,
    ⟨h.queued.rep, h.queued.initFn, h.queued.compareFn, h.queued.size, h.queued.holds.imp ?_⟩, ?_,
    ⟨?_, ?_⟩, ?_, ?_⟩
  · intro n j hj
    simpa only [Holds, hpcs, (hmsg j).1] using hj
  · intro j
    have hj := h.calls j
    simp only [hpc, RxPc.freed, Bool.false_eq_true, if_false] at hj
    simp only [RxPc.freed, if_true]
    rcases eq_or_ne j d with rfl | hne
    · -- its own buffer: it was in the queue and not freed
      rw [callInv_filled hfilled] at hj
      rw [callInv_filled (by rw [hpcs]; exact hfilled), hself]
      have hjq : j ∈ queue := by simp [hq]
      refine ⟨hj.1, Or.inr (Or.inl ?_)⟩
      rcases hj.2 with ⟨-, hc, -⟩ | ⟨hp, -, hd, hfr⟩ | ⟨-, hc, -⟩
      · exact absurd hjq hc
      · exact ⟨hp, hjq, hd, by simp [hfr, hq]⟩
      · exact absurd hjq hc
    · simpa only [CallInv, hcalls j hne, hq, List.head?_cons, Option.some.injEq, hne.symm, reduceCtorEq, if_false] using hj
  · intro j
    rw [hpcs]
    exact h.mutex.udprecv j
  · have hsection : RxPc.unlockIface.inSection = s.pc.inSection := by rw [hpc]; rfl
    exact (h.mutex.keepRx hsection).rx
  · refine h.served.trans ?_
    rw [hpc]
    exact List.map_congr_left fun j _ => (hmsg j).2.symm
  · obtain ⟨n, d', hn, hd', hm, hf⟩ := hserving
    exact ⟨n, d', hn, hd', hm, by rw [hpcs]; exact hf⟩

/-- The rx thread returns the entry of the datagram it has replied with to the pool. -/
theorem poolFree (h : RxInv s past queue free live) (hpc : s.pc = .poolFree) :
    ∃ msg msgs d rest n t, s.msg = some msg ∧ queue = d :: rest ∧ live = n :: t ∧ simplePoolFree s.msgs msg = .ok (0, msgs) ∧
      RxInv { s with msgs := msgs, released := s.released + 1, pc := .unlockFree } (past ++ [d]) rest (free ++ [n]) t := by
  obtain ⟨n, t, d, rest, rfl, rfl, hmsg, hfilled, -⟩ := h.serving_head (h.serving_of_replied (by simp [hpc, RxPc.replied]))
  obtain ⟨msgs, hmsgs, hr, hf, hm⟩ := simplePoolFree_some (l := []) h.queued.rep (s.msgs.nodes n).el
    (by simp [Pool.isMatch, h.queued.compareFn]) (by simp)
  have hm : msgs.mem = s.msgs.mem := by simpa [Pool.init, h.queued.initFn] using hm
  have hdrest : d ∉ rest := by
    have := h.nodup
    rw [List.nodup_append, List.nodup_cons] at this
    exact this.2.1.1
  refine ⟨_, msgs, d, rest, n, t, hmsg, rfl, rfl, hmsgs, ?_, ?_, ?_, ⟨hr, ?_, ?_, ?_, ?_⟩, ?_, ?_, ?_, trivial⟩
  · simp [h.accepted]
  · simp [h.released]
  · simpa using h.nodup
  · exact hf.initFn.trans h.queued.initFn
  · exact hf.compareFn.trans h.queued.compareFn
  · exact hf.size.trans h.queued.size
  · refine (List.forall₂_cons.mp h.queued.holds).2.imp ?_
    intro n j hj
    simpa only [Holds, hf.el, hm] using hj
  · intro j
    have hj := h.calls j
    simp only [hpc, RxPc.freed, if_true, List.head?_cons] at hj
    simp only [RxPc.freed, Bool.false_eq_true, if_false]
    rcases eq_or_ne j d with rfl | hne
    · rw [callInv_filled hfilled] at hj ⊢
      refine ⟨hj.1, Or.inl ⟨by simp, hdrest, ?_⟩⟩
      rcases hj.2 with ⟨-, hc, -⟩ | ⟨-, -, hd, hfr⟩ | ⟨-, hc, -⟩
      · exact absurd List.mem_cons_self hc
      · exact ⟨hd, by simpa using hfr⟩
      · exact absurd List.mem_cons_self hc
    · have hp : j ∈ past ++ [d] ↔ j ∈ past := by simp [hne]
      have hq : j ∈ d :: rest ↔ j ∈ rest := by simp [hne]
      simpa only [CallInv, hp, hq, Option.some.injEq, hne.symm, reduceCtorEq, if_false] using hj
  · exact h.mutex.keepRx (by rw [hpc]; rfl)
  · rw [h.served, hpc]
    simp [RxPc.replied]

/-- The copy loop writes one byte. -/
theorem copyByte (h : RxInv s past queue free live) (hpc : s.pc = .copy) {seg : List UInt8} {q : List (List UInt8)} {b : UInt8}
    (hq : s.q = seg :: q) (hb : seg[s.off]? = some b) :
    RxInv { s with off := s.off + 1, copied := s.copied ++ [b] } past queue free live := by
  have hl := h.locals
  rw [RxServer.Local, hpc] at hl
  obtain ⟨hserving, d, done, hd, hchain, hport, haddr, hp, hlen, hoff, hcopied⟩ := hl
  obtain ⟨hlt, hget⟩ := List.getElem?_eq_some_iff.mp hb
  refine h.rxMove rfl rfl h.mutex ?_
  rw [RxServer.Local]
  simp only [hpc]
  refine ⟨hserving, d, done, hd, hchain, hport, haddr, hp, hlen, ?_, ?_⟩
  · simp only [hq, List.headD_cons]
    exact hlt
  · simp only [hcopied, hq, List.headD_cons, List.append_assoc]
    rw [List.take_add_one, hb]
    rfl

/-- The copy loop goes on to the next buffer of the chain. -/
theorem copyNext (h : RxInv s past queue free live) (hpc : s.pc = .copy) {seg : List UInt8} {q : List (List UInt8)}
    (hq : s.q = seg :: q) (hb : seg[s.off]? = none) :
    RxInv { s with packetLen := s.packetLen + seg.length, q := q, off := 0 } past queue free live := by
  have hl := h.locals
  rw [RxServer.Local, hpc] at hl
  obtain ⟨hserving, d, done, hd, hchain, hport, haddr, hp, hlen, hoff, hcopied⟩ := hl
  refine h.rxMove rfl rfl h.mutex ?_
  rw [RxServer.Local]
  simp only [hpc]
  refine ⟨hserving, d, done ++ [seg], hd, hchain, hport, haddr, by simp [hp, hq], by simp [hlen], Nat.zero_le _, ?_⟩
  simp only [hcopied, hq, List.headD_cons, List.take_zero, List.append_nil, List.flatten_append, List.flatten_singleton]
  rw [List.take_of_length_le (List.getElem?_eq_none_iff.mp hb)]

/-- The rx thread replies with the datagram at the head of the queue, whole and with its own port and address. -/
theorem replyMsg (h : RxInv s past queue free live) (hpc : s.pc = .reply) {msg : Ptr} (hmsg : s.msg = some msg) :
    ∃ d, queue.head? = some d ∧ s.chain = some d ∧
      Served.mk d s.copied s.packetLen s.port s.ipaddr = (s.calls d).served d ∧
      RxInv { s with
        served := s.served ++ s.chain.toList.map fun k =>
          { pbuf := k, data := s.copied, packetLen := s.packetLen, port := s.port, addr := s.ipaddr }
        pc := .lockIface } past queue free live := by
  have hl := h.locals
  rw [RxServer.Local, hpc] at hl
  rcases hl with ⟨hnone, -⟩ | ⟨hserving, ⟨d, done, hd, hchain, hport, haddr, hp, hlen, hoff, hcopied⟩, hq⟩
  · rw [hmsg] at hnone
    cases hnone
  · rw [hq, List.append_nil] at hp
    have hsv : Served.mk d s.copied s.packetLen s.port s.ipaddr = (s.calls d).served d := by
      simp [Udprecv.served, hcopied, hq, hp, hlen, hport, haddr]
    obtain ⟨rest, rfl⟩ := List.head?_eq_some_iff.mp hd
    refine ⟨d, hd, hchain, hsv, h.accepted, h.released, h.nodup, h.queued, ?_, ?_, ?_, hserving⟩
    · intro k
      have hk := h.calls k
      rw [hpc] at hk
      exact hk
    · exact h.mutex.keepRx (by rw [hpc]; rfl)
    · simp [h.served, hpc, RxPc.replied, hchain, hsv]

/-- A step of the rx thread: it is blocked, it goes on, or the packet is longer than `rx_buf`. -/
theorem rxStep (h : RxInv s past queue free live) (rxBufSize : Nat) (self : IfaceHolder) (sh : RxShared) :
    s.rxStep rxBufSize self sh = .blocked ∨
      (s.rxStep rxBufSize self sh = .fault (.assert "packet_len <= server->client->rx_buf_size") ∧ s.pc = .copy ∧ s.q = [] ∧
        rxBufSize < s.packetLen) ∨
      ∃ sh' s', s.rxStep rxBufSize self sh = .next (sh', s') ∧ ∃ past' queue' free' live', RxInv s' past' queue' free' live' := by
  have hl := h.locals
  unfold RxServer.rxStep
  cases hpc : s.pc with
  | top =>
    rw [RxServer.Local, hpc] at hl
    refine Or.inr (Or.inr ⟨_, _, rfl, past, queue, free, live, ?_⟩)
    by_cases hrem : s.remainingMsgs > 0
    · simp only [hrem, if_true]
      exact h.rxMove (by rw [hpc]; rfl) (by rw [hpc]; rfl)
        (h.mutex.keepRx (by rw [hpc]; rfl)) ⟨hl, rfl⟩
    · simp only [hrem, if_false]
      exact h.rxMove (by rw [hpc]; rfl) (by rw [hpc]; rfl)
        (h.mutex.keepRx (by rw [hpc]; rfl)) ⟨hl, rfl⟩
  | signalMore =>
    rw [RxServer.Local, hpc] at hl
    exact Or.inr (Or.inr ⟨_, _, rfl, past, queue, free, live, h.rxMove (by rw [hpc]; rfl)
      (by rw [hpc]; rfl) (h.mutex.keepRx (by rw [hpc]; rfl)) hl⟩)
  | recv => exact Or.inl rfl
  | lockPeek =>
    rw [RxServer.Local, hpc] at hl
    by_cases hm : s.msgsMutex = none
    · refine Or.inr (Or.inr ⟨_, _, if_pos hm, past, queue, free, live, ?_⟩)
      exact h.rxMove (by rw [hpc]; rfl) (by rw [hpc]; rfl)
        ((hm ▸ h.mutex : MutexInv none s.calls s.pc).lockRx rfl) hl
    · exact Or.inl (if_neg hm)
  | peek =>
    rw [RxServer.Local, hpc] at hl
    refine Or.inr (Or.inr ?_)
    have hhead : s.msgs.entries = live.head? := by rw [h.queued.rep.liveList.head, List.head?_eq_getElem?]
    cases he : live.head? with
    | none =>
      refine ⟨_, _, by simp only [hhead, he]; rfl, past, queue, free, live, ?_⟩
      exact h.rxMove (by rw [hpc]; rfl) (by rw [hpc]; rfl)
        (h.mutex.keepRx (by rw [hpc]; rfl)) hl
    | some n =>
      obtain ⟨d, hd, hf, hmem⟩ := h.head_filled (by rw [hpc]; rfl) he
      have hne : (s.msgs.mem (s.msgs.nodes n).el).pbuf ≠ none := by simp [hmem, Udprecv.message]
      refine ⟨_, _, by simp only [hhead, he, check_of_true hne, ok_bind]; rfl, past, queue, free, live, ?_⟩
      exact h.rxMove (by rw [hpc]; rfl) (by rw [hpc]; rfl)
        (h.mutex.keepRx (by rw [hpc]; rfl)) ⟨⟨n, d, he, hd, rfl, hf⟩, hl.2⟩
  | unlockPeek =>
    rw [RxServer.Local, hpc] at hl
    exact Or.inr (Or.inr ⟨_, _, rfl, past, queue, free, live, h.rxMove (by rw [hpc]; rfl)
      (by rw [hpc]; rfl) (h.mutex.unlockRx (by rw [hpc]; rfl) rfl) hl⟩)
  | load =>
    rw [RxServer.Local, hpc] at hl
    obtain ⟨n, t, d, rest, rfl, rfl, hmsg, hf, hmem⟩ := h.serving_head hl.1
    refine Or.inr (Or.inr ⟨_, _, by simp only [hmsg, hmem]; rfl, past, d :: rest, free, n :: t, ?_⟩)
    refine h.rxMove (by rw [hpc]; rfl) (by rw [hpc]; rfl) (h.mutex.keepRx (by rw [hpc]; rfl)) ?_
    exact ⟨⟨n, d, rfl, rfl, rfl, hf⟩, d, [], rfl, rfl, rfl, rfl, rfl, by simp [hl.2], Nat.zero_le _, by simp⟩
  | copy =>
    rw [RxServer.Local, hpc] at hl
    cases hq : s.q with
    | cons seg q =>
      cases hb : seg[s.off]? with
      | some b =>
        have h' := h.copyByte hpc hq hb
        rw [hpc, hq] at h'
        exact Or.inr (Or.inr ⟨_, _, by simp only [hb]; rfl, past, queue, free, live, h'⟩)
      | none =>
        have h' := h.copyNext hpc hq hb
        rw [hpc] at h'
        exact Or.inr (Or.inr ⟨_, _, by simp only [hb]; rfl, past, queue, free, live, h'⟩)
    | nil =>
      by_cases hlen : s.packetLen ≤ rxBufSize
      · refine Or.inr (Or.inr ⟨_, _, by simp only [check_of_true hlen, ok_bind]; rfl, past, queue, free, live, ?_⟩)
        have hcopying := hl.2
        unfold RxServer.Copying at hcopying
        rw [hq] at hcopying
        exact h.rxMove (by rw [hpc]; rfl) (by rw [hpc]; rfl)
          (h.mutex.keepRx (by rw [hpc]; rfl)) (Or.inr ⟨hl.1, hcopying, rfl⟩)
      · exact Or.inr (Or.inl ⟨by simp only [check, if_neg hlen]; rfl, rfl, rfl, by omega⟩)
  | unlockEmpty =>
    rw [RxServer.Local, hpc] at hl
    exact Or.inr (Or.inr ⟨_, _, rfl, past, queue, free, live, h.rxMove (by rw [hpc]; rfl)
      (by rw [hpc]; rfl) (h.mutex.unlockRx (by rw [hpc]; rfl) rfl) (Or.inl hl)⟩)
  | reply =>
    refine Or.inr (Or.inr ?_)
    cases hmsg : s.msg with
    | none =>
      exact ⟨_, _, rfl, past, queue, free, live, h.rxMove (by rw [hpc]; rfl)
        (by rw [hpc]; rfl) (h.mutex.keepRx (by rw [hpc]; rfl)) rfl⟩
    | some msg =>
      obtain ⟨d, -, -, -, h'⟩ := h.replyMsg hpc hmsg
      exact ⟨_, _, rfl, past, queue, free, live, hmsg ▸ h'⟩
  | lockIface =>
    rw [RxServer.Local, hpc] at hl
    by_cases hm : sh.ifaceMutex = none
    · refine Or.inr (Or.inr ⟨_, _, if_pos hm, past, queue, free, live, ?_⟩)
      exact h.rxMove (by rw [hpc]; rfl) (by rw [hpc]; rfl) (h.mutex.keepRx (by rw [hpc]; rfl)) hl
    · exact Or.inl (if_neg hm)
  | freePbuf =>
    rw [RxServer.Local, hpc] at hl
    obtain ⟨n, t, d, rest, rfl, rfl, hmsg, hf, hmem⟩ := h.serving_head hl
    refine Or.inr (Or.inr ⟨sh, { s with calls := RxServer.pbufFree s.calls d, pc := .unlockIface }, ?_, past, d :: rest,
      free, n :: t, h.freePbuf hpc rfl hf⟩)
    simp only [hmsg, Option.bind_some, hmem, Udprecv.message]
  | unlockIface =>
    rw [RxServer.Local, hpc] at hl
    exact Or.inr (Or.inr ⟨_, _, rfl, past, queue, free, live, h.rxMove (by rw [hpc]; rfl)
      (by rw [hpc]; rfl) (h.mutex.keepRx (by rw [hpc]; rfl)) hl⟩)
  | lockFree =>
    rw [RxServer.Local, hpc] at hl
    by_cases hm : s.msgsMutex = none
    · refine Or.inr (Or.inr ⟨_, _, if_pos hm, past, queue, free, live, ?_⟩)
      exact h.rxMove (by rw [hpc]; rfl) (by rw [hpc]; rfl)
        ((hm ▸ h.mutex : MutexInv none s.calls s.pc).lockRx rfl) hl
    · exact Or.inl (if_neg hm)
  | poolFree =>
    obtain ⟨msg, msgs, d, rest, n, t, hmsg, -, -, hmsgs, h'⟩ := h.poolFree hpc
    refine Or.inr (Or.inr ⟨sh, { s with msgs := msgs, released := s.released + 1, pc := .unlockFree }, ?_, _, _, _, _, h'⟩)
    simp only [hmsg, hmsgs, ok_bind]
    rfl
  | unlockFree =>
    exact Or.inr (Or.inr ⟨_, _, rfl, past, queue, free, live, h.rxMove (by rw [hpc]; rfl)
      (by rw [hpc]; rfl) (h.mutex.unlockRx (by rw [hpc]; rfl) rfl) rfl⟩)

/-- A step on the receive side: blocked, a next state, or a packet longer than `rx_buf`. -/
theorem step (h : RxInv s past queue free live) (rxBufSize : Nat) (self : IfaceHolder) (sh : RxShared) (a : RxAction) :
    s.step rxBufSize self sh a = .blocked ∨
      s.step rxBufSize self sh a = .fault (.assert "packet_len <= server->client->rx_buf_size") ∨
      ∃ sh' s', s.step rxBufSize self sh a = .next (sh', s') ∧
        ∃ past' queue' free' live', RxInv s' past' queue' free' live' := by
  cases a with
  | arrive p addr port =>
    by_cases hp : p.flatten.length < 65536
    · exact Or.inr (Or.inr ⟨_, _, if_pos hp, past, queue, free, live, h.arrive p addr port⟩)
    · exact Or.inl (if_neg hp)
  | udprecv k =>
    rcases h.udprecvStep k with hb | ⟨s', hs', queue', free', live', h'⟩
    · exact Or.inl (by simp [RxServer.step, hb, Outcome.map])
    · exact Or.inr (Or.inr ⟨sh, s', by simp [RxServer.step, hs'], past, queue', free', live', h'⟩)
  | consume =>
    by_cases ha : s.aepRxData = true
    · refine Or.inr (Or.inr ⟨_, _, if_pos ha, past, queue, free, live, ?_⟩)
      exact h.rxMove rfl rfl h.mutex (h.locals.mono rfl rfl rfl rfl id id)
    · exact Or.inl (if_neg ha)
  | call caller =>
    by_cases hpc : s.pc = .recv
    · refine Or.inr (Or.inr ⟨_, _, if_pos hpc, past, queue, free, live, ?_⟩)
      have hl := h.locals
      rw [RxServer.Local, hpc] at hl
      exact h.rxMove (by rw [hpc]; rfl) (by rw [hpc]; rfl) (h.mutex.keepRx (by rw [hpc]; rfl)) hl
    · exact Or.inl (if_neg hpc)
  | rx =>
    rcases h.rxStep rxBufSize self sh with hb | ⟨hf, -⟩ | hn
    · exact Or.inl hb
    · exact Or.inr (Or.inl hf)
    · exact Or.inr (Or.inr hn)

/-- Every step keeps the invariant. -/
theorem of_step (h : RxInv s past queue free live) {rxBufSize : Nat} {self : IfaceHolder} {sh sh' : RxShared} {a : RxAction}
    {s' : RxServer} (hs : s.step rxBufSize self sh a = .next (sh', s')) :
    ∃ past' queue' free' live', RxInv s' past' queue' free' live' := by
  rcases h.step rxBufSize self sh a with hb | hf | ⟨sh₁, s₁, hn, h'⟩
  · rw [hb] at hs
    cases hs
  · rw [hf] at hs
    cases hs
  · rw [hn] at hs
    cases hs
    exact h'

end RxInv

/-- The invariant holds in every reachable state. -/
theorem rx_inv {rxBufSize : Nat} {self : IfaceHolder} {s : RxServer} (hr : (rxMachine rxBufSize self).Reachable s) :
    ∃ past queue free live, RxInv s past queue free live := by
  refine hr.invariant (P := fun s => ∃ past queue free live, RxInv s past queue free live) ?_
    ?_
  · intro s hi
    obtain ⟨free, h⟩ := RxInv.of_init hi
    exact ⟨[], [], free, [], h⟩
  · intro s a s' _ hinv hstep
    obtain ⟨past, queue, free, live, h⟩ := hinv
    obtain ⟨⟨sh', s''⟩, hs, rfl⟩ := Outcome.map_eq_next.mp hstep
    exact h.of_step hs

/-! ## What the rx thread writes -/

namespace RxServer

variable {rxBufSize : Nat} {self : IfaceHolder} {sh sh' : RxShared} {s s' : RxServer}

/-- The offset in `rx_buf` that the next step of the rx thread writes to, if it writes. -/
def writesAt (s : RxServer) : Option Nat :=
  match s.pc, s.q with
  | .copy, seg :: _ => if s.off < seg.length then some (s.packetLen + s.off) else none
  | _, _ => none

/-- A call that goes on keeps its datagram. -/
theorem setCallPc_p (s : RxServer) (j : Nat) (pc : UdprecvPc) (k : Nat) : (s.setCallPc j pc k).p = (s.calls k).p := by
  rcases eq_or_ne k j with rfl | hne
  · simp [setCallPc]
  · simp [setCallPc, hne]

/-- A packet buffer that is freed keeps its name. -/
theorem pbufFree_p (calls : Nat → Udprecv) (j k : Nat) : (pbufFree calls j k).p = (calls k).p := by
  rcases eq_or_ne k j with rfl | hne
  · simp [pbufFree]
  · simp [pbufFree, hne]

/-- A step of the rx thread changes `rx_buf` at most at the offset it writes to, and no datagram. -/
theorem rxStep_frame (h : s.rxStep rxBufSize self sh = .next (sh', s')) :
    (∀ i, sh'.rxBuf i ≠ sh.rxBuf i → s.writesAt = some i) ∧ s'.arrivals = s.arrivals ∧ ∀ k, (s'.calls k).p = (s.calls k).p := by
  unfold rxStep at h
  cases hpc : s.pc with
  | copy =>
    cases hq : s.q with
    | nil =>
      simp only [hpc, hq, Outcome.ofExcept_eq_next] at h
      obtain ⟨_, -, h⟩ := bind_ok h
      cases h
      exact ⟨fun i hi => absurd rfl hi, rfl, fun _ => rfl⟩
    | cons seg q =>
      simp only [hpc, hq] at h
      split at h
      · rename_i b hb
        cases h
        refine ⟨?_, rfl, fun _ => rfl⟩
        intro i hi
        have hlt : s.off < seg.length := (List.getElem?_eq_some_iff.mp hb).1
        rcases eq_or_ne i (s.packetLen + s.off) with rfl | hne
        · simp [writesAt, hpc, hq, hlt]
        · exact absurd (Function.update_of_ne hne _ _) hi
      · cases h
        exact ⟨fun i hi => absurd rfl hi, rfl, fun _ => rfl⟩
  | peek =>
    simp only [hpc] at h
    split at h
    · cases h
      exact ⟨fun i hi => absurd rfl hi, rfl, fun _ => rfl⟩
    · obtain ⟨_, -, h⟩ := bind_ok (Outcome.ofExcept_eq_next.mp h)
      cases h
      exact ⟨fun i hi => absurd rfl hi, rfl, fun _ => rfl⟩
  | poolFree =>
    simp only [hpc] at h
    split at h
    · cases h
    · obtain ⟨_, -, h⟩ := bind_ok (Outcome.ofExcept_eq_next.mp h)
      obtain ⟨_, -, h⟩ := bind_ok h
      cases h
      exact ⟨fun i hi => absurd rfl hi, rfl, fun _ => rfl⟩
  | freePbuf =>
    simp only [hpc] at h
    split at h
    · cases h
      exact ⟨fun i hi => absurd rfl hi, rfl, fun _ => rfl⟩
    · cases h
      exact ⟨fun i hi => absurd rfl hi, rfl, fun k => pbufFree_p _ _ k⟩
  | recv => simp [hpc] at h
  | load =>
    simp only [hpc] at h
    split at h
    · cases h
    · cases h
      exact ⟨fun i hi => absurd rfl hi, rfl, fun _ => rfl⟩
  | reply =>
    simp only [hpc] at h
    split at h <;> cases h <;> exact ⟨fun i hi => absurd rfl hi, rfl, fun _ => rfl⟩
  | lockPeek | lockIface | lockFree =>
    simp only [hpc, Outcome.guard_eq_next] at h
    obtain ⟨-, h⟩ := h
    cases h
    exact ⟨fun i hi => absurd rfl hi, rfl, fun _ => rfl⟩
  | top | signalMore | unlockPeek | unlockEmpty | unlockIface | unlockFree =>
    simp only [hpc] at h
    cases h
    exact ⟨fun i hi => absurd rfl hi, rfl, fun _ => rfl⟩

end RxServer

namespace RxInv

variable {s : RxServer} {past queue : List Nat} {free live : List Ptr}

/-- The rx thread writes a datagram inside the length of the datagram. -/
theorem writesAt_lt (h : RxInv s past queue free live) {d o : Nat} (hchain : s.chain = some d) (ho : s.writesAt = some o) :
    o < (s.calls d).p.flatten.length := by
  have hl := h.locals
  cases hpc : s.pc with
  | copy =>
    rw [RxServer.Local, hpc] at hl
    obtain ⟨-, d', done, -, hchain', -, -, hp, hlen, -, -⟩ := hl
    rw [hchain] at hchain'
    cases hchain'
    rw [RxServer.writesAt, hpc] at ho
    cases hq : s.q with
    | nil => simp [hq] at ho
    | cons seg q =>
      simp only [hq, Option.ite_none_right_eq_some, Option.some.injEq] at ho
      rw [hp, hq, List.flatten_append, List.flatten_cons, List.length_append, List.length_append]
      omega
  | _ => simp [RxServer.writesAt, hpc] at ho

/-- It writes inside a buffer that the datagram fits in. -/
theorem writesAt_lt_of_fits (h : RxInv s past queue free live) {rxBufSize o : Nat}
    (hfits : s.pc = .copy → ∀ d ∈ s.chain, (s.calls d).p.flatten.length ≤ rxBufSize) (ho : s.writesAt = some o) : o < rxBufSize := by
  have hl := h.locals
  cases hpc : s.pc with
  | copy =>
    rw [RxServer.Local, hpc] at hl
    obtain ⟨-, d, done, -, hchain, -⟩ := hl
    exact Nat.lt_of_lt_of_le (h.writesAt_lt hchain ho) (hfits hpc d hchain)
  | _ => simp [RxServer.writesAt, hpc] at ho

end RxInv

end Sel4Osapi
