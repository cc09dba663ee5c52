import Sel4Osapi.Lemmas.UdpSync

/-!
# No thread of the UDP subsystem waits for itself

A thread waits for the owner of a mutex it is about to lock, for the holder of a semaphore it is about to take, and for the
server it calls until the reply; a thread of a socket that has not been started waits for the stack thread. The order behind
it: a client thread comes before a thread it calls, a thread that wants the mutex of the interface before one that wants the
mutex of a message queue, and who holds the latter wants nothing. `rank` is that order as a number.
-/

namespace Sel4Osapi

open Transition Waiting Semaphore

/-- The rank of a thread that is about to lock a mutex. -/
def UdpMutex.rank : UdpMutex → Nat
  | .msgs _ => 1
  | .iface => 2
  | .udpIface _ => 5

@[simp] theorem UdpMutex.rank_msgs (k : Nat) : (UdpMutex.msgs k).rank = 1 := rfl

@[simp] theorem UdpMutex.rank_iface : UdpMutex.iface.rank = 2 := rfl

@[simp] theorem UdpMutex.rank_udpIface (p : Nat) : (UdpMutex.udpIface p).rank = 5 := rfl

@[simp] theorem UdpMutex.rank_pos (m : UdpMutex) : 0 < m.rank := by cases m <;> simp

namespace UdpTask

/-- The mutex a thread is about to lock. -/
def locking (cfg : UdpSyncConfig) : (t : UdpTask) → t.Pc → Option UdpMutex
  | .irq, p =>
    match (p : IrqPc) with
    | .lock => some .iface
    | .recvLock k => some (.msgs k)
    | _ => none
  | .stack, p =>
    match (p : StackPc) with
    | .bindLock _ _ => some .iface
    | _ => none
  | .tx _, p =>
    match (p : Option (ServerPc TxPc)) with
    | some ⟨.lockIface, _⟩ => some .iface
    | _ => none
  | .rx k, p =>
    match (p : Option (ServerPc RxPc)) with
    | some ⟨.lockPeek, _⟩ | some ⟨.lockFree, _⟩ => some (.msgs k)
    | some ⟨.lockIface, _⟩ => some .iface
    | _ => none
  | .client c, p =>
    match (p : ClientPc) with
    | .createLock | .sdLock _ _ => some (.udpIface (cfg.process c))
    | _ => none

/-- The semaphore a thread is about to take. -/
def taking (cfg : UdpSyncConfig) : (t : UdpTask) → t.Pc → Option UdpSemaphore
  | .client c, p =>
    match (p : ClientPc) with
    | .sendTake _ => some (.txBufAvail (cfg.process c))
    | .recvTake _ => some (.rxBufAvail (cfg.process c))
    | _ => none
  | .irq, _ | .stack, _ | .tx _, _ | .rx _, _ => none

/-- The server a thread calls, or awaits the reply of. -/
def calls : (t : UdpTask) → t.Pc → Option UdpTask
  | .client _, p => ClientPc.calls p
  | .irq, _ | .stack, _ | .tx _, _ | .rx _, _ => none

/-- A thread waits for threads of a lower rank. -/
def rank (cfg : UdpSyncConfig) (t : UdpTask) (p : t.Pc) : Nat :=
  match t.locking cfg p, t.taking cfg p, t.calls p with
  | some m, _, _ => m.rank
  | none, some _, _ => 5
  | none, none, some _ => 4
  | none, none, none => if (t.view cfg p).started then 0 else 3

section rank

variable {cfg : UdpSyncConfig} {t : UdpTask} {p : t.Pc}

/-- Who is about to lock a mutex has its rank. -/
theorem rank_of_locking {m : UdpMutex} (h : t.locking cfg p = some m) : t.rank cfg p = m.rank := by
  simp [rank, h]

/-- Who holds a mutex ranks below those about to lock it. -/
theorem rank_lt_of_held {m : UdpMutex} (h : m ∈ (t.view cfg p).held) : t.rank cfg p < m.rank := by
  cases t with
  | irq => cases p <;> simp_all [UdpTask.view, irqView, rank, locking, taking, calls]
  | stack => cases p <;> simp_all [UdpTask.view, stackView, rank, locking, taking, calls]
  | tx k => rcases p with _ | ⟨_ | _, caller⟩ <;> simp_all [UdpTask.view, txView, rank, locking, taking, calls]
  | rx k => rcases p with _ | ⟨_ | _, caller⟩ <;> simp_all [UdpTask.view, rxView, rank, locking, taking, calls]
  | client c => cases p <;> simp_all [UdpTask.view, clientView, rank, locking, taking, calls, ClientPc.calls]

/-- Who is about to take a semaphore has the highest rank. -/
theorem rank_of_taking {q : UdpSemaphore} (h : t.taking cfg p = some q) : t.rank cfg p = 5 := by
  cases t with
  | client c => cases p <;> simp_all [rank, locking, taking]
  | irq | stack | tx k | rx k => cases h

/-- Who has taken a semaphore ranks below that. -/
theorem rank_lt_of_taken {q : UdpSemaphore} (h : q ∈ (t.view cfg p).taken) : t.rank cfg p < 5 := by
  cases t with
  | client c => cases p <;> simp_all [UdpTask.view, clientView, rank, locking, taking, calls, ClientPc.calls]
  | irq => cases p <;> simp [UdpTask.view, irqView] at h
  | stack => cases p <;> simp [UdpTask.view, stackView] at h
  | tx k => rcases p with _ | ⟨_ | _, caller⟩ <;> simp [UdpTask.view, txView] at h
  | rx k => rcases p with _ | ⟨_ | _, caller⟩ <;> simp [UdpTask.view, rxView] at h

/-- Who calls a server, or awaits its reply, ranks above every server. -/
theorem rank_of_calls {u : UdpTask} (h : t.calls p = some u) : t.rank cfg p = 4 := by
  cases t with
  | client c => cases p <;> cases h <;> rfl
  | irq | stack | tx k | rx k => cases h

/-- Only servers are called. -/
theorem isServer_of_calls {u : UdpTask} (h : t.calls p = some u) : u.IsServer := by
  cases t with
  | client c => cases p <;> cases h <;> trivial
  | irq | stack | tx k | rx k => cases h

/-- The servers rank below those who call them. -/
theorem rank_server (p : t.Pc) (ht : t.IsServer) : t.rank cfg p < 4 := by
  cases t with
  | stack => cases p <;> simp [UdpTask.view, stackView, rank, locking, taking, calls]
  | tx k => rcases p with _ | ⟨_ | _, caller⟩ <;> simp [UdpTask.view, txView, rank, locking, taking, calls]
  | rx k => rcases p with _ | ⟨_ | _, caller⟩ <;> simp [UdpTask.view, rxView, rank, locking, taking, calls]
  | irq | client c => exact ht.elim

/-- A server that has not been started ranks above the stack thread. -/
theorem rank_of_not_started (h : (t.view cfg p).started = false) : t.rank cfg p = 3 := by
  cases t with
  | irq => cases p <;> cases h
  | stack => cases p <;> cases h
  | tx k =>
    rcases p with _ | ⟨_ | _, caller⟩ <;> cases h
    rfl
  | rx k =>
    rcases p with _ | ⟨_ | _, caller⟩ <;> cases h
    rfl
  | client c => cases p <;> cases h

/-- The stack thread wants at most the mutex of the interface. -/
theorem rank_stack (p : StackPc) : UdpTask.rank cfg .stack p < 3 := by
  cases p <;> simp [UdpTask.view, stackView, rank, locking, taking, calls]

end rank

end UdpTask

/-- The thread that takes an action. -/
def UdpSyncAction.task : UdpSyncAction → Option UdpTask
  | .interrupt => none
  | .irq _ => some .irq
  | .stack _ => some .stack
  | .tx k _ => some (.tx k)
  | .rx k => some (.rx k)
  | .call c _ | .client c => some (.client c)

namespace UdpSync

/-- A thread waits for another: for a mutex it holds, for a semaphore it has taken, for its reply to a call, or to be started by
it. -/
inductive Waits (cfg : UdpSyncConfig) (s : UdpSync) : UdpTask → UdpTask → Prop where
  | mutex {a b : UdpTask} {m : UdpMutex} (hm : a.locking cfg (s.pc a) = some m) (hb : (s.mutex m).owner = some b) (hne : b ≠ a) :
      Waits cfg s a b
  | semaphore {a b : UdpTask} {q : UdpSemaphore} (hq : a.taking cfg (s.pc a) = some q) (hv : s.semaphore q = 0)
      (hb : q ∈ (s.view cfg b).taken) : Waits cfg s a b
  | reply {a b : UdpTask} (hb : a.calls (s.pc a) = some b) : Waits cfg s a b
  | start {a : UdpTask} (ha : (s.view cfg a).started = false) : Waits cfg s a .stack

/-- A thread waits for a datagram to arrive: the one for the interrupts, or a client thread for the notification of its
socket. -/
def AwaitsDatagram (s : UdpSync) : UdpTask → Prop
  | .irq => s.pc .irq = IrqPc.wait
  | .client c => ∃ k, s.pc (.client c) = ClientPc.recvWait k
  | .stack | .tx _ | .rx _ => False

/-- A thread is where no other thread owes it anything: in `seL4_Recv` for the next call, in no call, or waiting for a
datagram. -/
def AtRest (s : UdpSync) : UdpTask → Prop
  | .irq => s.AwaitsDatagram .irq
  | .stack => s.pc .stack = StackPc.recv
  | .tx k => ∃ c, s.pc (.tx k) = some (ServerPc.mk TxPc.recv c)
  | .rx k => ∃ c, s.pc (.rx k) = some (ServerPc.mk RxPc.recv c)
  | .client c => s.pc (.client c) = ClientPc.idle ∨ s.AwaitsDatagram (.client c)

section

variable {cfg : UdpSyncConfig} {s : UdpSync}

/-- A thread ranks above those it waits for. -/
theorem rank_lt_of_waits (hi : Inv cfg s) (a b : UdpTask) (h : s.Waits cfg a b) :
    b.rank cfg (s.pc b) < a.rank cfg (s.pc a) := by
  cases h with
  | mutex hm hb _ =>
    rw [UdpTask.rank_of_locking hm]
    exact UdpTask.rank_lt_of_held (((hi.mutex _).owner b).mpr hb)
  | semaphore hq _ hb =>
    rw [UdpTask.rank_of_taking hq]
    exact UdpTask.rank_lt_of_taken hb
  | reply hb =>
    rw [UdpTask.rank_of_calls hb]
    exact UdpTask.rank_server _ (UdpTask.isServer_of_calls hb)
  | start ha =>
    rw [UdpTask.rank_of_not_started ha]
    exact UdpTask.rank_stack _

/-- No thread waits for one that waits for a datagram to arrive: such a thread holds nothing, and owes no reply. -/
theorem not_awaitsDatagram_of_waits (hi : Inv cfg s) {a b : UdpTask} (h : s.Waits cfg a b) : ¬ s.AwaitsDatagram b := by
  have hnothing : s.AwaitsDatagram b → (s.view cfg b).held = [] ∧ (s.view cfg b).taken = [] := by
    intro hb
    cases b with
    | irq =>
      have hp : s.pc .irq = IrqPc.wait := hb
      rw [UdpSync.view, hp]
      exact ⟨rfl, rfl⟩
    | client c =>
      obtain ⟨k, hp⟩ := hb
      rw [UdpSync.view, hp]
      exact ⟨rfl, rfl⟩
    | stack | tx k | rx k => exact hb.elim
  intro hb
  cases h with
  | mutex hm hown _ =>
    have hheld := ((hi.mutex _).owner b).mpr hown
    rw [(hnothing hb).1] at hheld
    exact List.not_mem_nil hheld
  | semaphore hq _ htaken =>
    rw [(hnothing hb).2] at htaken
    exact List.not_mem_nil htaken
  | reply hcalls =>
    have hserver := UdpTask.isServer_of_calls hcalls
    cases b with
    | stack | tx k | rx k => exact hb
    | irq | client c => exact hserver
  | start => exact hb

/-- A thread that cannot lock a mutex waits for its owner. -/
theorem waits_of_lock {t : UdpTask} {m : UdpMutex} {p : t.Pc} (hm : t.locking cfg (s.pc t) = some m)
    (h : s.lock t m p = .blocked) : ∃ b, s.Waits cfg t b := by
  unfold UdpSync.lock at h
  split at h
  · rename_i hlock
    obtain ⟨b, hb, hne⟩ := RecursiveMutex.lock_eq_none.mp hlock
    exact ⟨b, .mutex hm hb hne⟩
  · cases h

/-- A thread that cannot take a semaphore waits for the thread that has taken it. -/
theorem waits_of_take (hi : Inv cfg s) {t : UdpTask} {q : UdpSemaphore} {p : t.Pc} (hq : t.taking cfg (s.pc t) = some q)
    (h : s.take t q p = .blocked) : ∃ b, s.Waits cfg t b := by
  have hv : s.semaphore q = 0 := by
    by_contra hv
    simp [UdpSync.take, Outcome.guard, Nat.pos_of_ne_zero hv] at h
  rcases hi.semaphore q with ⟨hone, -⟩ | ⟨-, b, hb, -⟩
  · omega
  · exact ⟨b, .semaphore hq hv hb⟩

/-- A thread that cannot take a step is at rest or waits for another thread. -/
theorem waits_of_blocked (hi : Inv cfg s) {t : UdpTask} (hb : ∀ a : UdpSyncAction, a.task = some t → s.step cfg a = .blocked) :
    s.AtRest t ∨ ∃ b, s.Waits cfg t b := by
  cases t with
  | irq =>
    have h : s.irqStep none = .blocked := hb (.irq none) rfl
    unfold irqStep at h
    cases hp : (s.pc .irq : IrqPc) with
    | wait => exact .inl hp
    | lock | recvLock k =>
      rw [hp] at h
      exact .inr (waits_of_lock (by rw [hp]; rfl) h)
    | start | handle | recvAlloc k | recvUnlock k | recvSignal k | ack | unlock =>
      rw [hp] at h
      cases h
  | stack =>
    have h : s.stackStep cfg 0 = .blocked := hb (.stack 0) rfl
    unfold stackStep at h
    cases hp : (s.pc .stack : StackPc) with
    | recv => exact .inl hp
    | bindLock c k =>
      rw [hp] at h
      exact .inr (waits_of_lock (by rw [hp]; rfl) h)
    | create c | bind c k | bindPcb c k =>
      rw [hp] at h
      exact absurd h Outcome.ofExcept_ne_blocked
    | createReply c k | createStart k | bindUnlock c k | bindReply c k | bindStart k =>
      rw [hp] at h
      cases h
  | tx k =>
    have h : s.txStep k true = .blocked := hb (.tx k true) rfl
    unfold txStep at h
    cases hp : (s.pc (.tx k) : Option (ServerPc TxPc)) with
    | none => exact .inr ⟨.stack, .start (by rw [UdpSync.view, hp]; rfl)⟩
    | some server =>
      rw [hp] at h
      obtain ⟨pc, caller⟩ := server
      cases pc with
      | recv => exact .inl ⟨caller, hp⟩
      | lockIface => exact .inr (waits_of_lock (by rw [hp]; rfl) h)
      | alloc | copy | sendto | unlockIface | reply => cases h
  | rx k =>
    have h : s.rxStep k = .blocked := hb (.rx k) rfl
    unfold rxStep at h
    cases hp : (s.pc (.rx k) : Option (ServerPc RxPc)) with
    | none => exact .inr ⟨.stack, .start (by rw [UdpSync.view, hp]; rfl)⟩
    | some server =>
      rw [hp] at h
      obtain ⟨pc, caller⟩ := server
      cases pc with
      | recv => exact .inl ⟨caller, hp⟩
      | lockPeek | lockIface | lockFree => exact .inr (waits_of_lock (by rw [hp]; rfl) h)
      | peek =>
        dsimp only at h
        split at h <;> cases h
      | top | signalMore | unlockPeek | load | copy | unlockEmpty | reply => cases h
      | freePbuf | unlockIface | poolFree | unlockFree => cases h
  | client c =>
    have h : s.clientStep cfg c = .blocked := hb (.client c) rfl
    unfold clientStep at h
    cases hp : (s.pc (.client c) : ClientPc) with
    | idle => exact .inl (.inl hp)
    | recvWait k => exact .inl (.inr ⟨k, hp⟩)
    | createLock | sdLock k r =>
      rw [hp] at h
      exact .inr (waits_of_lock (by rw [hp]; rfl) h)
    | sendTake k | recvTake k =>
      rw [hp] at h
      exact .inr (waits_of_take hi (by rw [hp]; rfl) h)
    | createCall | createAwait | bindCall k | bindAwait k | sendCall k | sendAwait k | recvCall k | recvAwait k =>
      exact .inr ⟨_, .reply (by rw [hp]; rfl)⟩
    | createAlloc | bindCheck k | recvCheck k =>
      rw [hp] at h
      exact absurd h Outcome.ofExcept_ne_blocked
    | createUnlock k | bindStore k | sdLookup k r | sdUnlock k r | sendCopy k | sendGive k | recvCopy k | recvGive k =>
      rw [hp] at h
      cases h

end

end UdpSync

/-- No reachable state of the UDP subsystem has threads that wait in a circle, each for a mutex or a semaphore the next one
holds, for its reply or to be started by it. This is all the waiting there is: a thread that cannot take a step waits for
another, is in no call, or waits for the next call or datagram. And a client thread that holds `rx_buf_avail` does not wait
for a datagram to arrive, neither itself nor through the threads it waits for. -/
theorem udp_waits_acyclic (cfg : UdpSyncConfig) {s : UdpSync} (h : (udpSyncMachine cfg).Reachable s) :
    (∀ t, ¬ Relation.TransGen (s.Waits cfg) t t) ∧
    (∀ t, (∀ a : UdpSyncAction, a.task = some t → s.step cfg a = .blocked) → s.AtRest t ∨ ∃ u, s.Waits cfg t u) ∧
    ∀ c p, .rxBufAvail p ∈ (s.view cfg (.client c)).taken →
      ¬ s.AwaitsDatagram (.client c) ∧ ∀ t, Relation.TransGen (s.Waits cfg) (.client c) t → ¬ s.AwaitsDatagram t := by
  have hi := UdpSync.Inv.of_reachable h
  refine ⟨acyclic_of_rank (UdpSync.rank_lt_of_waits hi), fun t => UdpSync.waits_of_blocked hi, fun c p hc => ⟨?_, ?_⟩⟩
  · rintro ⟨k, hp⟩
    rw [UdpSync.view, hp] at hc
    cases hc
  · intro t ht
    obtain ⟨u, -, hut⟩ := Relation.TransGen.tail'_iff.mp ht
    exact UdpSync.not_awaitsDatagram_of_waits hi hut

/-- The threads of one process. -/
def twoThreads : UdpSyncConfig := { process := fun _ => 0, maxSockets := 8 }

/-- Thread 0 creates and binds a socket; it and thread 1 are each woken by a datagram; thread 0 takes `rx_buf_avail` and
calls the rx thread while the third datagram is put in the queue. -/
def waitingRun : List UdpSyncAction :=
  [.call 0 .createSocket, .client 0, .client 0, .client 0, .stack 0, .stack 0, .stack 0, .client 0,
    .call 0 (.bind 1), .client 0, .client 0, .stack 0, .stack 0, .stack 0, .stack 0, .stack 0, .stack 0, .client 0, .rx 1,
    .call 0 (.recv 1), .client 0, .call 1 (.recv 1), .client 1,
    .irq none, .irq none, .irq none, .irq (some 1), .irq none, .irq none, .irq none, .irq none, .client 0,
    .irq (some 1), .irq none, .irq none, .irq none, .irq none, .client 1,
    .client 0, .client 0, .irq (some 1), .irq none]

/-- A state where thread 1 waits for thread 0, which waits for the rx thread, which waits for the thread of the interrupts. -/
theorem udp_waits_acyclic_chain : ∃ s, (udpSyncMachine twoThreads).Reachable s ∧
    Relation.TransGen (s.Waits twoThreads) (.client 1) .irq ∧ ¬ s.AwaitsDatagram .irq ∧
    ∀ t, ¬ Relation.TransGen (s.Waits twoThreads) t t := by
  obtain ⟨s, hr, hs⟩ := Machine.Reachable.exists_of_exec (M := udpSyncMachine twoThreads) (.init rfl) waitingRun
    (fun s => (s.pc (.client 1) : ClientPc) = .recvTake 1 ∧ s.semaphore (.rxBufAvail 0) = 0 ∧
      (s.pc (.client 0) : ClientPc) = .recvAwait 1 ∧
      (s.pc (.rx 1) : Option (ServerPc RxPc)) = some { pc := .lockPeek, caller := 0 } ∧ (s.mutex (.msgs 1)).owner = some .irq) (by decide +kernel)
  simp only [Bool.decide_and, Bool.and_eq_true, decide_eq_true_eq] at hs
  obtain ⟨hwaiting, hsem, hcalling, hrx, hirq⟩ := hs
  have h₁ : s.Waits twoThreads (.client 1) (.client 0) :=
    .semaphore (by rw [hwaiting]; rfl) hsem (by rw [UdpSync.view, hcalling]; exact List.mem_cons_self)
  have h₂ : s.Waits twoThreads (.client 0) (.rx 1) := .reply (by rw [hcalling]; rfl)
  have h₃ : s.Waits twoThreads (.rx 1) .irq := .mutex (by rw [hrx]; rfl) hirq (by simp)
  obtain ⟨hacyclic, -, hdatagram⟩ := udp_waits_acyclic twoThreads hr
  refine ⟨s, hr, .head h₁ (.head h₂ (.single h₃)), ?_, hacyclic⟩
  exact (hdatagram 0 0 (by rw [UdpSync.view, hcalling]; exact List.mem_cons_self)).2 _ (.head h₂ (.single h₃))

end Sel4Osapi
