import Sel4Osapi.Udp.Sync
import Sel4Osapi.Lib.Semaphore
import Mathlib.Logic.Function.Basic

/-!
# What a step of the UDP subsystem can do

What matters of the place where a thread stands is its view: the mutexes it holds, the semaphores it has taken, the call it
serves, whether it has been started, and the thread it is about to start. `step_move` says once what a step does to the
views: nothing, one lock, unlock, take or give, a call or its reply, or one of the three steps that make and start the
threads of a socket. The invariant of the subsystem follows from it.
-/

namespace Sel4Osapi

open Transition Waiting Semaphore

/-- What matters of the place where a thread stands. -/
structure UdpView where
  /-- the mutexes it holds, and the semaphores between its `take` and its `give` -/
  held : List UdpMutex := []
  taken : List UdpSemaphore := []
  /-- of a server: the client thread whose call it serves, and where that thread awaits the reply -/
  serving : Option (Nat × ClientPc) := none
  started : Bool := true
  /-- of the stack thread: the thread of a socket it has created and is about to start -/
  starts : Option UdpTask := none

namespace UdpTask

/-- The view of the thread for the interrupts. -/
def irqView : IrqPc → UdpView
  | .start | .wait | .lock => {}
  | .handle | .recvLock _ | .recvSignal _ | .ack | .unlock => { held := [.iface] }
  | .recvAlloc k | .recvUnlock k => { held := [.msgs k, .iface] }

/-- The view of the stack thread. -/
def stackView : StackPc → UdpView
  | .recv => {}
  | .create c => { serving := some (c, .createAwait) }
  | .createReply c k => { serving := some (c, .createAwait), starts := some (.tx k) }
  | .createStart k => { starts := some (.tx k) }
  | .bind c k => { serving := some (c, .bindAwait k) }
  | .bindLock c k => { serving := some (c, .bindAwait k), starts := some (.rx k) }
  | .bindPcb c k | .bindUnlock c k => { held := [.iface], serving := some (c, .bindAwait k), starts := some (.rx k) }
  | .bindReply c k => { serving := some (c, .bindAwait k), starts := some (.rx k) }
  | .bindStart k => { starts := some (.rx k) }

/-- The view of a tx thread. -/
def txView (k : Nat) : Option (ServerPc TxPc) → UdpView
  | none => { started := false }
  | some { pc, caller } =>
    match pc with
    | .recv => {}
    | .lockIface | .reply => { serving := some (caller, .sendAwait k) }
    | .alloc | .copy | .sendto | .unlockIface => { held := [.iface], serving := some (caller, .sendAwait k) }

/-- The view of an rx thread. -/
def rxView (k : Nat) : Option (ServerPc RxPc) → UdpView
  | none => { started := false }
  | some { pc, caller } =>
    match pc with
    | .top | .signalMore | .recv | .lockIface | .lockFree => {}
    | .lockPeek | .load | .copy | .reply => { serving := some (caller, .recvAwait k) }
    | .peek | .unlockPeek | .unlockEmpty => { held := [.msgs k], serving := some (caller, .recvAwait k) }
    | .freePbuf | .unlockIface => { held := [.iface] }
    | .poolFree | .unlockFree => { held := [.msgs k] }

/-- The view of a thread of process `p`. -/
def clientView (p : Nat) : ClientPc → UdpView
  | .idle | .createLock | .bindCheck _ | .bindCall _ | .bindAwait _ | .bindStore _ | .sdLock _ _ | .sendTake _ => {}
  | .recvCheck _ | .recvWait _ | .recvTake _ => {}
  | .createAlloc | .createCall | .createAwait | .createUnlock _ | .sdLookup _ _ | .sdUnlock _ _ => { held := [.udpIface p] }
  | .sendCopy _ | .sendCall _ | .sendAwait _ | .sendGive _ => { taken := [.txBufAvail p] }
  | .recvCall _ | .recvAwait _ | .recvCopy _ | .recvGive _ => { taken := [.rxBufAvail p] }

/-- The view of a thread from where it stands. -/
def view (cfg : UdpSyncConfig) : (t : UdpTask) → t.Pc → UdpView
  | .irq, p => irqView p
  | .stack, p => stackView p
  | .tx k, p => txView k p
  | .rx k, p => rxView k p
  | .client c, p => clientView (cfg.process c) p

/-- A thread that has not been started holds nothing and serves nothing. -/
theorem view_of_not_started {cfg : UdpSyncConfig} {t : UdpTask} {p : t.Pc} (h : (t.view cfg p).started = false) :
    t.view cfg p = { started := false } := by
  unfold UdpTask.view at h ⊢
  split at h
  · revert h
    fun_cases irqView <;> simp
  · revert h
    fun_cases stackView <;> simp
  · revert h
    fun_cases txView <;> simp
  · revert h
    fun_cases rxView <;> simp
  · revert h
    fun_cases clientView <;> simp

end UdpTask

/-- A thread awaits the reply to its call there. -/
def ClientPc.Awaits : ClientPc → Prop
  | .createAwait | .bindAwait _ | .sendAwait _ | .recvAwait _ => True
  | _ => False

/-- The server a thread of a process calls there, or awaits the reply of. -/
def ClientPc.calls : ClientPc → Option UdpTask
  | .createCall | .createAwait | .bindCall _ | .bindAwait _ => some .stack
  | .sendCall k | .sendAwait k => some (.tx k)
  | .recvCall k | .recvAwait k => some (.rx k)
  | _ => none

/-- A thread of a process awaits the reply to its call there. -/
def UdpTask.Awaits : (t : UdpTask) → t.Pc → Prop
  | .client _, p => ClientPc.Awaits p
  | .irq, _ | .stack, _ | .tx _, _ | .rx _, _ => False

/-- The threads that receive calls. -/
def UdpTask.IsServer : UdpTask → Prop
  | .stack | .tx _ | .rx _ => True
  | .irq | .client _ => False

theorem UdpTask.IsServer.ne_client {t : UdpTask} (h : t.IsServer) (c : Nat) : UdpTask.client c ≠ t := by
  rintro rfl
  exact h

/-- A server serves a client thread that awaits its reply. -/
theorem UdpTask.awaits_of_serving {cfg : UdpSyncConfig} {t : UdpTask} {p : t.Pc} {c : Nat} {w : ClientPc}
    (h : (t.view cfg p).serving = some (c, w)) : w.Awaits ∧ w.calls = some t := by
  unfold UdpTask.view at h
  split at h
  · revert h
    fun_cases irqView <;> simp
  · revert h
    fun_cases stackView <;> simp <;> rintro - rfl <;> exact ⟨trivial, rfl⟩
  · revert h
    fun_cases txView <;> simp <;> rintro - rfl <;> exact ⟨trivial, rfl⟩
  · revert h
    fun_cases rxView <;> simp <;> rintro - rfl <;> exact ⟨trivial, rfl⟩
  · revert h
    fun_cases clientView <;> simp

namespace UdpSync

variable {cfg : UdpSyncConfig} {s s' : UdpSync} {t : UdpTask}

/-- The view of a thread in a state. -/
def view (cfg : UdpSyncConfig) (s : UdpSync) (t : UdpTask) : UdpView := t.view cfg (s.pc t)

/-- When one thread goes on, its view is the only one that changes. -/
theorem view_update {p : t.Pc} (h : s'.pc = Function.update s.pc t p) :
    s'.view cfg = Function.update (s.view cfg) t (t.view cfg p) := by
  funext u
  unfold UdpSync.view
  rw [h, Function.apply_update (fun u => UdpTask.view cfg u)]

/-- No socket is created or bound. -/
def SameSockets (s s' : UdpSync) : Prop :=
  s'.servers = s.servers ∧ ∀ k, (s'.socket k).serverPort = (s.socket k).serverPort

theorem SameSockets.refl (s : UdpSync) : SameSockets s s := ⟨rfl, fun _ => rfl⟩

/-- The other fields of a socket change. -/
theorem sameSockets_setSocket {k : Nat} {f : SocketSync → SocketSync} (hf : ∀ x, (f x).serverPort = x.serverPort) :
    SameSockets s (s.setSocket k f) := by
  refine ⟨rfl, ?_⟩
  intro j
  by_cases hj : j = k
  · simp [setSocket, hj, hf]
  · simp [setSocket, hj]

/-- The thread of a socket that has not been created, or not been bound. -/
def Fresh (s : UdpSync) : UdpTask → Prop
  | .tx k => s.servers < k
  | .rx k => (s.socket k).serverPort = false
  | .irq | .stack | .client _ => False

theorem SameSockets.fresh (h : SameSockets s s') : s'.Fresh t ↔ s.Fresh t := by
  cases t <;> simp [Fresh, h.1, h.2]

/-- What a step can do. -/
inductive Move (cfg : UdpSyncConfig) (s s' : UdpSync) : Prop where
  /-- no thread goes on -/
  | still (hpc : s'.pc = s.pc) (hmutex : s'.mutex = s.mutex) (hsem : s'.semaphore = s.semaphore) (hsame : SameSockets s s')
  /-- a thread goes on, and nothing changes hands -/
  | run (t : UdpTask) (p : t.Pc) (hpc : s'.pc = Function.update s.pc t p) (ha : ¬ t.Awaits (s.pc t))
      (hview : t.view cfg p = s.view cfg t) (hmutex : s'.mutex = s.mutex) (hsem : s'.semaphore = s.semaphore)
      (hsame : SameSockets s s')
  | lock (t : UdpTask) (p : t.Pc) (m : UdpMutex) (x : RecursiveMutex UdpTask) (hpc : s'.pc = Function.update s.pc t p)
      (ha : ¬ t.Awaits (s.pc t)) (hx : (s.mutex m).lock t = some x) (hm : m ∉ (s.view cfg t).held)
      (hview : t.view cfg p = { s.view cfg t with held := m :: (s.view cfg t).held })
      (hmutex : s'.mutex = Function.update s.mutex m x) (hsem : s'.semaphore = s.semaphore) (hsame : SameSockets s s')
  | unlock (t : UdpTask) (p : t.Pc) (m : UdpMutex) (hpc : s'.pc = Function.update s.pc t p) (ha : ¬ t.Awaits (s.pc t))
      (hm : m ∉ (t.view cfg p).held) (hview : s.view cfg t = { t.view cfg p with held := m :: (t.view cfg p).held })
      (hmutex : s'.mutex = Function.update s.mutex m ((s.mutex m).unlock t)) (hsem : s'.semaphore = s.semaphore)
      (hsame : SameSockets s s')
  | take (t : UdpTask) (p : t.Pc) (q : UdpSemaphore) (hpc : s'.pc = Function.update s.pc t p) (ha : ¬ t.Awaits (s.pc t))
      (hq : 0 < s.semaphore q) (hview : t.view cfg p = { s.view cfg t with taken := q :: (s.view cfg t).taken })
      (hmutex : s'.mutex = s.mutex) (hsem : s'.semaphore = Function.update s.semaphore q (s.semaphore q - 1))
      (hsame : SameSockets s s')
  | give (t : UdpTask) (p : t.Pc) (q : UdpSemaphore) (hpc : s'.pc = Function.update s.pc t p) (ha : ¬ t.Awaits (s.pc t))
      (hq : q ∉ (t.view cfg p).taken) (hview : s.view cfg t = { t.view cfg p with taken := q :: (t.view cfg p).taken })
      (hmutex : s'.mutex = s.mutex) (hsem : s'.semaphore = Function.update s.semaphore q (s.semaphore q + 1))
      (hsame : SameSockets s s')
  /-- a server receives the call of a client thread -/
  | call (t : UdpTask) (p : t.Pc) (c : Nat) (w : ClientPc)
      (hpc : s'.pc = Function.update (Function.update s.pc (.client c) w) t p) (ht : t.IsServer)
      (ha : ¬ (s.pc (.client c) : ClientPc).Awaits) (hclient : UdpTask.view cfg (.client c) w = s.view cfg (.client c))
      (hview : t.view cfg p = { s.view cfg t with serving := some (c, w) })
      (hmutex : s'.mutex = s.mutex) (hsem : s'.semaphore = s.semaphore) (hsame : SameSockets s s')
  /-- a server replies to the client thread it serves -/
  | reply (t : UdpTask) (p : t.Pc) (c : Nat) (w w' : ClientPc)
      (hpc : s'.pc = Function.update (Function.update s.pc (.client c) w') t p) (ht : t.IsServer)
      (hserv : (s.view cfg t).serving = some (c, w))
      (hclient : UdpTask.view cfg (.client c) w' = UdpTask.view cfg (.client c) w)
      (hview : t.view cfg p = { s.view cfg t with serving := none })
      (hmutex : s'.mutex = s.mutex) (hsem : s'.semaphore = s.semaphore) (hsame : SameSockets s s')
  /-- the stack thread creates a socket, with its tx thread -/
  | create (p : StackPc) (hpc : s'.pc = Function.update s.pc .stack p)
      (hview : UdpTask.view cfg .stack p = { s.view cfg .stack with starts := some (.tx (s.servers + 1)) })
      (hmutex : s'.mutex = s.mutex) (hsem : s'.semaphore = s.semaphore) (hservers : s'.servers = s.servers + 1)
      (hports : ∀ k, (s'.socket k).serverPort = (s.socket k).serverPort)
  /-- the stack thread sets the port of a socket, and creates its rx thread -/
  | bind (p : StackPc) (k : Nat) (hpc : s'.pc = Function.update s.pc .stack p)
      (hview : UdpTask.view cfg .stack p = { s.view cfg .stack with starts := some (.rx k) })
      (hmutex : s'.mutex = s.mutex) (hsem : s'.semaphore = s.semaphore) (hservers : s'.servers = s.servers)
      (hport : (s.socket k).serverPort = false) (hport' : (s'.socket k).serverPort = true)
      (hports : ∀ j, j ≠ k → (s'.socket j).serverPort = (s.socket j).serverPort)
  /-- the stack thread starts the thread it has created -/
  | start (t : UdpTask) (p : t.Pc) (hpc : s'.pc = Function.update (Function.update s.pc t p) .stack .recv)
      (ht : t.IsServer) (hstack : s.view cfg .stack = { starts := some t }) (hview : t.view cfg p = {})
      (hmutex : s'.mutex = s.mutex) (hsem : s'.semaphore = s.semaphore) (hsame : SameSockets s s')

namespace Move

variable {p₀ p : t.Pc} {m : UdpMutex} {q : UdpSemaphore}

/-- A thread goes on from `p₀` to `p`. -/
theorem of_goto (hpc : s'.pc = Function.update s.pc t p) (hp : s.pc t = p₀) (ha : ¬ t.Awaits p₀)
    (hview : t.view cfg p = t.view cfg p₀) (hmutex : s'.mutex = s.mutex) (hsem : s'.semaphore = s.semaphore)
    (hsame : SameSockets s s') : Move cfg s s' := by
  subst hp
  exact .run t p hpc ha hview hmutex hsem hsame

/-- A thread at `p₀` locks a mutex. -/
theorem of_lock (h : s.lock t m p = .next s') (hp : s.pc t = p₀) (ha : ¬ t.Awaits p₀) (hm : m ∉ (t.view cfg p₀).held)
    (hview : t.view cfg p = { t.view cfg p₀ with held := m :: (t.view cfg p₀).held }) : Move cfg s s' := by
  subst hp
  unfold UdpSync.lock at h
  split at h
  · cases h
  · rename_i x hx
    cases h
    exact .lock t p m x rfl ha hx hm hview rfl rfl (.refl s)

/-- A thread at `p₀` unlocks a mutex. -/
theorem of_unlock (hpc : s'.pc = Function.update s.pc t p) (hp : s.pc t = p₀) (ha : ¬ t.Awaits p₀)
    (hm : m ∉ (t.view cfg p).held) (hview : t.view cfg p₀ = { t.view cfg p with held := m :: (t.view cfg p).held })
    (hmutex : s'.mutex = Function.update s.mutex m ((s.mutex m).unlock t)) (hsem : s'.semaphore = s.semaphore)
    (hsame : SameSockets s s') : Move cfg s s' := by
  subst hp
  exact .unlock t p m hpc ha hm hview hmutex hsem hsame

/-- A thread at `p₀` takes a semaphore. -/
theorem of_take (h : s.take t q p = .next s') (hp : s.pc t = p₀) (ha : ¬ t.Awaits p₀)
    (hview : t.view cfg p = { t.view cfg p₀ with taken := q :: (t.view cfg p₀).taken }) : Move cfg s s' := by
  subst hp
  simp only [UdpSync.take, Outcome.guard_eq_next, Outcome.next.injEq] at h
  obtain ⟨hq, rfl⟩ := h
  exact .take t p q rfl ha hq hview rfl rfl (.refl s)

end Move

/-- A step behind an assertion. -/
theorem of_asserted {c : Prop} [Decidable c] {text : String}
    (h : Outcome.ofExcept (check c text >>= fun _ => pure s) = .next s') : c ∧ s = s' := by
  rw [Outcome.ofExcept_eq_next] at h
  obtain ⟨_, hc, h⟩ := bind_ok h
  exact ⟨of_check_ok hc, Except.ok.inj h⟩

/-- A step of the thread for the interrupts. -/
theorem irqStep_move {dest : Option Nat} (h : s.irqStep dest = .next s') : Move cfg s s' := by
  unfold irqStep at h
  split at h
  all_goals rename_i hp
  · cases h
    exact .of_goto rfl hp id rfl rfl rfl (.refl s)
  · simp only [Outcome.guard_eq_next, Outcome.next.injEq] at h
    obtain ⟨-, rfl⟩ := h
    exact .of_goto rfl hp id rfl rfl rfl (.refl s)
  · exact .of_lock h hp id List.not_mem_nil rfl
  · split at h
    · cases h
      exact .of_goto rfl hp id rfl rfl rfl (.refl s)
    · simp only [Outcome.guard_eq_next, Outcome.next.injEq] at h
      obtain ⟨-, rfl⟩ := h
      exact .of_goto rfl hp id rfl rfl rfl (.refl s)
  · exact .of_lock h hp id (by simp [UdpTask.view, UdpTask.irqView]) rfl
  · cases h
    exact .of_goto rfl hp id rfl rfl rfl (sameSockets_setSocket fun _ => rfl)
  · cases h
    exact .of_unlock rfl hp id (by simp [UdpTask.view, UdpTask.irqView]) rfl rfl rfl (.refl s)
  · cases h
    exact .of_goto rfl hp id rfl rfl rfl (sameSockets_setSocket fun _ => rfl)
  · cases h
    exact .of_goto rfl hp id rfl rfl rfl (.refl s)
  · cases h
    exact .of_unlock rfl hp id List.not_mem_nil rfl rfl rfl (.refl s)

/-- A step of the stack thread. -/
theorem stackStep_move {lwerr : Int} (h : s.stackStep cfg lwerr = .next s') : Move cfg s s' := by
  unfold stackStep at h
  split at h
  all_goals rename_i hp
  · cases h
  · rename_i c
    obtain ⟨-, rfl⟩ := of_asserted h
    have hsame : SameSockets s (s.setSocket (s.servers + 1) fun x => { x with process := cfg.process c }) :=
      sameSockets_setSocket fun _ => rfl
    exact .create (.createReply c (s.servers + 1)) rfl (by rw [UdpSync.view, hp]; rfl) rfl rfl rfl hsame.2
  · cases h
    exact .reply .stack (.createStart _) _ .createAwait _ rfl trivial (by rw [UdpSync.view, hp]; rfl) rfl
      (by rw [UdpSync.view, hp]; rfl) rfl rfl (.refl s)
  · cases h
    exact .start (.tx _) _ rfl trivial (by rw [UdpSync.view, hp]; rfl) rfl rfl rfl (.refl s)
  · obtain ⟨hport, rfl⟩ := of_asserted h
    exact .bind (.bindLock _ _) _ rfl (by rw [UdpSync.view, hp]; rfl) rfl rfl rfl hport (by simp [setSocket])
      fun j hj => by simp [setSocket, goto, hj]
  · exact .of_lock h hp id List.not_mem_nil rfl
  · obtain ⟨-, rfl⟩ := of_asserted h
    exact .of_goto rfl hp id rfl rfl rfl (sameSockets_setSocket fun _ => rfl)
  · cases h
    exact .of_unlock rfl hp id List.not_mem_nil rfl rfl rfl (.refl s)
  · cases h
    exact .reply .stack (.bindStart _) _ (.bindAwait _) _ rfl trivial (by rw [UdpSync.view, hp]; rfl) rfl
      (by rw [UdpSync.view, hp]; rfl) rfl rfl (.refl s)
  · cases h
    exact .start (.rx _) _ rfl trivial (by rw [UdpSync.view, hp]; rfl) rfl rfl rfl (.refl s)

/-- A step of a tx thread. -/
theorem txStep_move {k : Nat} {allocOk : Bool} (h : s.txStep k allocOk = .next s') : Move cfg s s' := by
  unfold txStep at h
  split at h
  · cases h
  · rename_i pc caller hp
    cases pc with
    | recv => cases h
    | lockIface => exact .of_lock h hp id List.not_mem_nil rfl
    | alloc =>
      cases h
      exact .of_goto rfl hp id (by cases allocOk <;> rfl) rfl rfl (.refl s)
    | copy | sendto =>
      cases h
      exact .of_goto rfl hp id rfl rfl rfl (.refl s)
    | unlockIface =>
      cases h
      exact .of_unlock rfl hp id List.not_mem_nil rfl rfl rfl (.refl s)
    | reply =>
      cases h
      exact .reply (.tx k) _ caller (.sendAwait k) _ rfl trivial (by rw [UdpSync.view, hp]; rfl) rfl
        (by rw [UdpSync.view, hp]; rfl) rfl rfl (.refl s)

/-- A step of an rx thread. -/
theorem rxStep_move {k : Nat} (h : s.rxStep k = .next s') : Move cfg s s' := by
  unfold rxStep at h
  split at h
  · cases h
  · rename_i pc caller hp
    cases pc with
    | recv => cases h
    | top =>
      cases h
      exact .of_goto rfl hp id (by split <;> rfl) rfl rfl (.refl s)
    | lockPeek | lockIface | lockFree => exact .of_lock h hp id List.not_mem_nil rfl
    | load | freePbuf =>
      cases h
      exact .of_goto rfl hp id rfl rfl rfl (.refl s)
    | signalMore | copy | poolFree =>
      cases h
      exact .of_goto rfl hp id rfl rfl rfl (sameSockets_setSocket fun _ => rfl)
    | peek =>
      dsimp only at h
      split at h
      · cases h
        exact .of_goto rfl hp id rfl rfl rfl (.refl s)
      · cases h
        exact .of_goto rfl hp id rfl rfl rfl (sameSockets_setSocket fun _ => rfl)
    | unlockPeek | unlockEmpty | unlockIface =>
      cases h
      exact .of_unlock rfl hp id List.not_mem_nil rfl rfl rfl (.refl s)
    | reply =>
      cases h
      exact .reply (.rx k) _ caller (.recvAwait k) _ rfl trivial (by rw [UdpSync.view, hp]; rfl) rfl
        (by rw [UdpSync.view, hp]; split <;> rfl) rfl rfl (.refl s)
    | unlockFree =>
      cases h
      exact .of_unlock rfl hp id List.not_mem_nil rfl rfl rfl (sameSockets_setSocket fun _ => rfl)

/-- A tx thread in `seL4_Recv` serves no call. -/
theorem txView_recv {k : Nat} (h : (s.pc (.tx k) : Option (ServerPc TxPc)).map ServerPc.pc = some .recv) :
    s.view cfg (.tx k) = {} := by
  obtain ⟨⟨_, caller⟩, hp, rfl⟩ := Option.map_eq_some_iff.mp h
  rw [UdpSync.view, hp]
  rfl

/-- An rx thread in `seL4_Recv` serves no call. -/
theorem rxView_recv {k : Nat} (h : (s.pc (.rx k) : Option (ServerPc RxPc)).map ServerPc.pc = some .recv) :
    s.view cfg (.rx k) = {} := by
  obtain ⟨⟨_, caller⟩, hp, rfl⟩ := Option.map_eq_some_iff.mp h
  rw [UdpSync.view, hp]
  rfl

/-- A thread of a process calls a function. -/
theorem callStep_move {c : Nat} {f : UdpCall} (h : s.callStep cfg c f = .next s') : Move cfg s s' := by
  unfold callStep at h
  simp only [Outcome.guard_eq_next] at h
  obtain ⟨hp, h⟩ := h
  cases f with
  | createSocket =>
    cases h
    exact .of_goto rfl hp id rfl rfl rfl (.refl s)
  | bind | send | recv | sendSd | recvSd =>
    simp only [Outcome.guard_eq_next, Outcome.next.injEq] at h
    obtain ⟨-, rfl⟩ := h
    exact .of_goto rfl hp id rfl rfl rfl (.refl s)

/-- A step of a thread of a process. -/
theorem clientStep_move {c : Nat} (h : s.clientStep cfg c = .next s') : Move cfg s s' := by
  unfold clientStep at h
  dsimp only at h
  split at h
  all_goals rename_i hp
  · cases h
  · exact .of_lock h hp id List.not_mem_nil rfl
  · obtain ⟨-, rfl⟩ := of_asserted h
    exact .of_goto rfl hp id rfl rfl rfl (.refl s)
  · simp only [Outcome.guard_eq_next, Outcome.next.injEq] at h
    obtain ⟨hstack, rfl⟩ := h
    exact .call .stack _ c _ rfl trivial (by rw [hp]; exact id) (by rw [UdpSync.view, hp]; rfl)
      (by rw [UdpSync.view, hstack]; rfl) rfl rfl (.refl s)
  · cases h
  · cases h
    exact .of_unlock rfl hp id List.not_mem_nil rfl rfl rfl (sameSockets_setSocket fun _ => rfl)
  · obtain ⟨-, rfl⟩ := of_asserted h
    exact .of_goto rfl hp id rfl rfl rfl (.refl s)
  · simp only [Outcome.guard_eq_next, Outcome.next.injEq] at h
    obtain ⟨hstack, rfl⟩ := h
    exact .call .stack _ c _ rfl trivial (by rw [hp]; exact id) (by rw [UdpSync.view, hp]; rfl)
      (by rw [UdpSync.view, hstack]; rfl) rfl rfl (.refl s)
  · cases h
  · cases h
    exact .of_goto rfl hp id rfl rfl rfl (sameSockets_setSocket fun _ => rfl)
  · exact .of_lock h hp id List.not_mem_nil rfl
  · cases h
    exact .of_goto rfl hp id rfl rfl rfl (.refl s)
  · cases h
    exact .of_unlock rfl hp id (by split <;> exact List.not_mem_nil) (by split <;> rfl) rfl rfl (.refl s)
  · exact .of_take h hp id rfl
  · cases h
    exact .of_goto rfl hp id rfl rfl rfl (.refl s)
  · simp only [Outcome.guard_eq_next, Outcome.next.injEq] at h
    obtain ⟨htx, rfl⟩ := h
    exact .call (.tx _) _ c _ rfl trivial (by rw [hp]; exact id) (by rw [UdpSync.view, hp]; rfl)
      (by rw [txView_recv htx]; rfl) rfl rfl (.refl s)
  · cases h
  · cases h
    exact .give (.client c) .idle (.txBufAvail (cfg.process c)) rfl (by rw [hp]; exact id) List.not_mem_nil
      (by rw [UdpSync.view, hp]; rfl) rfl rfl (.refl s)
  · obtain ⟨-, rfl⟩ := of_asserted h
    exact .of_goto rfl hp id rfl rfl rfl (.refl s)
  · simp only [Outcome.guard_eq_next, Outcome.next.injEq] at h
    obtain ⟨-, rfl⟩ := h
    exact .of_goto rfl hp id rfl rfl rfl (sameSockets_setSocket fun _ => rfl)
  · exact .of_take h hp id rfl
  · simp only [Outcome.guard_eq_next, Outcome.next.injEq] at h
    obtain ⟨hrx, rfl⟩ := h
    exact .call (.rx _) _ c _ rfl trivial (by rw [hp]; exact id) (by rw [UdpSync.view, hp]; rfl)
      (by rw [rxView_recv hrx]; rfl) rfl rfl (.refl s)
  · cases h
  · cases h
    exact .of_goto rfl hp id rfl rfl rfl (.refl s)
  · cases h
    exact .give (.client c) .idle (.rxBufAvail (cfg.process c)) rfl (by rw [hp]; exact id) List.not_mem_nil
      (by rw [UdpSync.view, hp]; rfl) rfl rfl (.refl s)

/-- What a step can do is a move. -/
theorem step_move {a : UdpSyncAction} (h : s.step cfg a = .next s') : Move cfg s s' := by
  cases a with
  | interrupt =>
    cases h
    exact .still rfl rfl rfl (.refl s)
  | irq dest => exact irqStep_move h
  | stack lwerr => exact stackStep_move h
  | tx k allocOk => exact txStep_move h
  | rx k => exact rxStep_move h
  | call c f => exact callStep_move h
  | client c => exact clientStep_move h

/-- The threads of the sockets are started once: none before its socket is created or bound, and none that the stack thread
is about to start. -/
structure StartedOnce (cfg : UdpSyncConfig) (s : UdpSync) : Prop where
  fresh : ∀ t, s.Fresh t → (s.view cfg t).started = false
  starts : ∀ t, (s.view cfg .stack).starts = some t → ¬ s.Fresh t ∧ (s.view cfg t).started = false

/-- The invariant of the subsystem. -/
structure Inv (cfg : UdpSyncConfig) (s : UdpSync) : Prop where
  /-- the owner of a mutex is the thread that holds it -/
  mutex : ∀ m, (s.mutex m).HeldBy fun t => m ∈ (s.view cfg t).held
  /-- one thread at a time is between its `take` and its `give` -/
  semaphore : ∀ q, Exclusive (s.semaphore q) fun t => q ∈ (s.view cfg t).taken
  /-- a thread whose call is served awaits the reply -/
  serving : ∀ t c w, (s.view cfg t).serving = some (c, w) → s.pc (.client c) = w
  startedOnce : StartedOnce cfg s

section fields

variable {β : Type*} {f : UdpView → β} {u : UdpTask} {p : t.Pc} {r : u.Pc}

/-- What does not change of the view of the thread that goes on does not change of any view. -/
theorem field_update (hpc : s'.pc = Function.update s.pc t p) (h : f (t.view cfg p) = f (s.view cfg t)) (x : UdpTask) :
    f (s'.view cfg x) = f (s.view cfg x) := by
  rw [view_update hpc]
  by_cases hx : x = t
  · subst hx
    rw [Function.update_self, h]
  · rw [Function.update_of_ne hx]

/-- The same when two threads go on. -/
theorem field_update₂ (hpc : s'.pc = Function.update (Function.update s.pc u r) t p) (hu : f (u.view cfg r) = f (s.view cfg u))
    (ht : f (t.view cfg p) = f (s.view cfg t)) (x : UdpTask) : f (s'.view cfg x) = f (s.view cfg x) := by
  have h₁ : ∀ x, f ((s.goto u r).view cfg x) = f (s.view cfg x) := field_update rfl hu
  rw [← h₁ x]
  exact field_update hpc (ht.trans (h₁ t).symm) x

end fields

namespace Inv

/-- The view of a thread whose call is served is the view of where it awaits the reply. -/
theorem view_client (hi : Inv cfg s) {c : Nat} {w : ClientPc} (h : (s.view cfg t).serving = some (c, w)) :
    s.view cfg (.client c) = UdpTask.view cfg (.client c) w := by
  rw [UdpSync.view, hi.serving t c w h]

/-- The thread the stack thread is about to start has not been started. -/
theorem view_starts (hi : Inv cfg s) (h : s.view cfg .stack = { starts := some t }) : s.view cfg t = { started := false } :=
  UdpTask.view_of_not_started (hi.startedOnce.starts t (by rw [h])).2

/-- The mutexes have their owners after a step. -/
theorem mutex_move (hi : Inv cfg s) (hm : Move cfg s s') (m : UdpMutex) :
    (s'.mutex m).HeldBy fun t => m ∈ (s'.view cfg t).held := by
  have same (hmutex : s'.mutex = s.mutex) (hheld : ∀ u, (s'.view cfg u).held = (s.view cfg u).held) :
      (s'.mutex m).HeldBy fun t => m ∈ (s'.view cfg t).held := by
    rw [hmutex]
    exact (hi.mutex m).congr fun u => by rw [hheld u]
  -- another mutex than the one that is locked or unlocked
  have other {t : UdpTask} {p : t.Pc} {n : UdpMutex} {x : RecursiveMutex UdpTask} (hmn : m ≠ n)
      (hmutex : s'.mutex = Function.update s.mutex n x) (hpc : s'.pc = Function.update s.pc t p)
      (hheld : (m ∈ (t.view cfg p).held) = (m ∈ (s.view cfg t).held)) :
      (s'.mutex m).HeldBy fun t => m ∈ (s'.view cfg t).held := by
    have hother : ∀ u, (m ∈ (s'.view cfg u).held) = (m ∈ (s.view cfg u).held) :=
      field_update (f := fun v => m ∈ v.held) hpc hheld
    rw [hmutex, Function.update_of_ne hmn]
    exact (hi.mutex m).congr fun u => iff_of_eq (hother u)
  cases hm with
  | still hpc hmutex => exact same hmutex fun u => by rw [UdpSync.view, UdpSync.view, hpc]
  | run t p hpc _ hview hmutex => exact same hmutex (field_update hpc (by rw [hview]))
  | lock t p n x hpc _ hx hn hview hmutex =>
    by_cases hmn : m = n
    · subst hmn
      rw [hmutex, Function.update_self, view_update hpc]
      refine (hi.mutex m).lock hx hn ?_ fun u hu => by rw [Function.update_of_ne hu]
      rw [Function.update_self, hview]
      exact List.mem_cons_self
    · exact other hmn hmutex hpc (by simp [hview, hmn])
  | unlock t p n hpc _ hn hview hmutex =>
    by_cases hmn : m = n
    · subst hmn
      rw [hmutex, Function.update_self, view_update hpc]
      refine (hi.mutex m).unlock ?_ (by rwa [Function.update_self]) fun u hu => by rw [Function.update_of_ne hu]
      rw [hview]
      exact List.mem_cons_self
    · exact other hmn hmutex hpc (by simp [hview, hmn])
  | take t p q hpc _ _ hview hmutex | give t p q hpc _ _ hview hmutex => exact same hmutex (field_update hpc (by rw [hview]))
  | call t p c w hpc _ _ hclient hview hmutex =>
    exact same hmutex (field_update₂ hpc (by rw [hclient]) (by rw [hview]))
  | reply t p c w w' hpc _ hserv hclient hview hmutex =>
    exact same hmutex (field_update₂ hpc (by rw [hclient, hi.view_client hserv]) (by rw [hview]))
  | create p hpc hview hmutex | bind p k hpc hview hmutex => exact same hmutex (field_update hpc (by rw [hview]))
  | start t p hpc _ hstack hview hmutex =>
    exact same hmutex (field_update₂ hpc (by rw [hview, hi.view_starts hstack]) (by rw [hstack]; rfl))

/-- The semaphores are exclusive after a step. -/
theorem semaphore_move (hi : Inv cfg s) (hm : Move cfg s s') (q : UdpSemaphore) :
    Exclusive (s'.semaphore q) fun t => q ∈ (s'.view cfg t).taken := by
  have same (hsem : s'.semaphore = s.semaphore) (htaken : ∀ u, (s'.view cfg u).taken = (s.view cfg u).taken) :
      Exclusive (s'.semaphore q) fun t => q ∈ (s'.view cfg t).taken := by
    rw [hsem]
    exact (hi.semaphore q).congr fun u => by rw [htaken u]
  -- another semaphore than the one that is taken or given back
  have other {t : UdpTask} {p : t.Pc} {r : UdpSemaphore} {n : Nat} (hqr : q ≠ r)
      (hsem : s'.semaphore = Function.update s.semaphore r n) (hpc : s'.pc = Function.update s.pc t p)
      (htaken : (q ∈ (t.view cfg p).taken) = (q ∈ (s.view cfg t).taken)) :
      Exclusive (s'.semaphore q) fun t => q ∈ (s'.view cfg t).taken := by
    have hother : ∀ u, (q ∈ (s'.view cfg u).taken) = (q ∈ (s.view cfg u).taken) :=
      field_update (f := fun v => q ∈ v.taken) hpc htaken
    rw [hsem, Function.update_of_ne hqr]
    exact (hi.semaphore q).congr fun u => iff_of_eq (hother u)
  cases hm with
  | still hpc _ hsem => exact same hsem fun u => by rw [UdpSync.view, UdpSync.view, hpc]
  | run t p hpc _ hview _ hsem => exact same hsem (field_update hpc (by rw [hview]))
  | lock t p m x hpc _ _ _ hview _ hsem | unlock t p m hpc _ _ hview _ hsem =>
    exact same hsem (field_update hpc (by rw [hview]))
  | take t p r hpc _ hr hview _ hsem =>
    by_cases hqr : q = r
    · subst hqr
      rw [hsem, Function.update_self, view_update hpc]
      refine (hi.semaphore q).take (c := t) hr ?_ fun u hu => by rw [Function.update_of_ne hu]
      rw [Function.update_self, hview]
      exact List.mem_cons_self
    · exact other hqr hsem hpc (by simp [hview, hqr])
  | give t p r hpc _ hr hview _ hsem =>
    by_cases hqr : q = r
    · subst hqr
      rw [hsem, Function.update_self, view_update hpc]
      refine (hi.semaphore q).give (c := t) ?_ (by rwa [Function.update_self]) fun u hu => by rw [Function.update_of_ne hu]
      rw [hview]
      exact List.mem_cons_self
    · exact other hqr hsem hpc (by simp [hview, hqr])
  | call t p c w hpc _ _ hclient hview _ hsem => exact same hsem (field_update₂ hpc (by rw [hclient]) (by rw [hview]))
  | reply t p c w w' hpc _ hserv hclient hview _ hsem =>
    exact same hsem (field_update₂ hpc (by rw [hclient, hi.view_client hserv]) (by rw [hview]))
  | create p hpc hview _ hsem | bind p k hpc hview _ hsem => exact same hsem (field_update hpc (by rw [hview]))
  | start t p hpc _ hstack hview _ hsem =>
    exact same hsem (field_update₂ hpc (by rw [hview, hi.view_starts hstack]) (by rw [hstack]; rfl))

/-- A thread whose call is served stays where it awaits the reply while another thread goes on, or a thread that awaits no
reply. -/
theorem serving_of_update (hi : Inv cfg s) {p : t.Pc} (hpc : s'.pc = Function.update s.pc t p) (ha : ¬ t.Awaits (s.pc t))
    (hserv : (t.view cfg p).serving = (s.view cfg t).serving) {u : UdpTask} {c : Nat} {w : ClientPc}
    (h : (s'.view cfg u).serving = some (c, w)) : s'.pc (.client c) = w := by
  rw [field_update hpc hserv u] at h
  have hw : s.pc (.client c) = w := hi.serving u c w h
  have hne : UdpTask.client c ≠ t := by
    rintro rfl
    refine ha ?_
    rw [hw]
    exact (UdpTask.awaits_of_serving h).1
  rw [hpc, Function.update_of_ne hne, hw]

/-- A thread whose call is served stays where it awaits the reply while a call of another thread is received or replied to. -/
theorem serving_of_update₂ (hi : Inv cfg s) {p : t.Pc} {d : Nat} {w' : ClientPc}
    (hpc : s'.pc = Function.update (Function.update s.pc (.client d) w') t p) (ht : t.IsServer)
    (hclient : UdpTask.view cfg (.client d) w' = s.view cfg (.client d)) {u : UdpTask} (hu : u ≠ t) {c : Nat} {w : ClientPc}
    (h : (s'.view cfg u).serving = some (c, w)) (hd : (s.view cfg u).serving = some (c, w) → c ≠ d) : s'.pc (.client c) = w := by
  have hview : s'.view cfg u = s.view cfg u := by
    have hone : (s.goto (.client d) w').view cfg u = s.view cfg u := field_update (f := id) rfl hclient u
    rw [view_update (s := s.goto (.client d) w') hpc, Function.update_of_ne hu, hone]
  rw [hview] at h
  have hne : UdpTask.client c ≠ .client d := fun he => hd h (UdpTask.client.inj he)
  rw [hpc, Function.update_of_ne (ht.ne_client c), Function.update_of_ne hne]
  exact hi.serving u c w h

/-- A thread whose call is served awaits the reply after a step. -/
theorem serving_move (hi : Inv cfg s) (hm : Move cfg s s') (u : UdpTask) (c : Nat) (w : ClientPc)
    (h : (s'.view cfg u).serving = some (c, w)) : s'.pc (.client c) = w := by
  cases hm with
  | still hpc =>
    rw [UdpSync.view, hpc] at h
    rw [hpc]
    exact hi.serving u c w h
  | run t p hpc ha hview => exact hi.serving_of_update hpc ha (by rw [hview]) h
  | lock t p m x hpc ha _ _ hview | unlock t p m hpc ha _ hview | take t p q hpc ha _ hview | give t p q hpc ha _ hview =>
    exact hi.serving_of_update hpc ha (by rw [hview]) h
  | create p hpc hview | bind p k hpc hview => exact hi.serving_of_update hpc id (by rw [hview]) h
  | start t p hpc ht hstack hview =>
    have hserv := field_update₂ (f := UdpView.serving) hpc (by rw [hview, hi.view_starts hstack]) (by rw [hstack]; rfl) u
    rw [hserv] at h
    have hne : UdpTask.client c ≠ .stack := by simp
    rw [hpc, Function.update_of_ne hne, Function.update_of_ne (ht.ne_client c)]
    exact hi.serving u c w h
  | call t p d w' hpc ht ha hclient hview =>
    by_cases hu : u = t
    · -- the call just received
      subst hu
      rw [view_update (s := s.goto (.client d) w') hpc, Function.update_self, hview] at h
      obtain ⟨rfl, rfl⟩ := Prod.mk.inj (Option.some.inj h)
      rw [hpc, Function.update_of_ne (ht.ne_client d), Function.update_self]
    · refine hi.serving_of_update₂ hpc ht hclient hu h fun hserv hcd => ha ?_
      rw [← hcd, hi.serving u c w hserv]
      exact (UdpTask.awaits_of_serving hserv).1
  | reply t p d w₀ w' hpc ht hserv hclient hview =>
    by_cases hu : u = t
    · subst hu
      rw [view_update (s := s.goto (.client d) w') hpc, Function.update_self, hview] at h
      cases h
    · refine hi.serving_of_update₂ hpc ht (hclient.trans (hi.view_client hserv).symm) hu h fun hserv' hcd => hu ?_
      -- two servers would serve one call
      have hw : w = w₀ := by rw [← hi.serving u c w hserv', ← hi.serving t d w₀ hserv, hcd]
      subst hw
      exact Option.some.inj ((UdpTask.awaits_of_serving hserv').2.symm.trans (UdpTask.awaits_of_serving hserv).2)

/-- A step that creates, binds and starts nothing. -/
theorem startedOnce_of_same (hi : Inv cfg s) (hsame : SameSockets s s')
    (hstarted : ∀ u, (s'.view cfg u).started = (s.view cfg u).started)
    (hstarts : ∀ u, (s'.view cfg u).starts = (s.view cfg u).starts) : StartedOnce cfg s' where
  fresh t ht := (hstarted t).trans (hi.startedOnce.fresh t (hsame.fresh.mp ht))
  starts t ht := by
    rw [hstarts] at ht
    rw [hsame.fresh, hstarted]
    exact hi.startedOnce.starts t ht

/-- The stack thread creates a socket or binds it, and `x` is the thread it is to start. -/
theorem startedOnce_of_created (hi : Inv cfg s) (x : UdpTask) {p : StackPc} (hpc : s'.pc = Function.update s.pc .stack p)
    (hstarted : (UdpTask.view cfg .stack p).started = (s.view cfg .stack).started)
    (hstarts : (UdpTask.view cfg .stack p).starts = some x) (hfresh : ∀ t, s'.Fresh t → s.Fresh t) (hx : s.Fresh x)
    (hx' : ¬ s'.Fresh x) : StartedOnce cfg s' := by
  have hsame : ∀ u, (s'.view cfg u).started = (s.view cfg u).started := field_update hpc hstarted
  refine ⟨fun t ht => (hsame t).trans (hi.startedOnce.fresh t (hfresh t ht)), ?_⟩
  intro t ht
  rw [view_update hpc, Function.update_self, hstarts] at ht
  cases ht
  exact ⟨hx', (hsame x).trans (hi.startedOnce.fresh x hx)⟩

/-- The threads of the sockets are started once, after a step. -/
theorem startedOnce_move (hi : Inv cfg s) (hm : Move cfg s s') : StartedOnce cfg s' := by
  cases hm with
  | still hpc _ _ hsame =>
    exact hi.startedOnce_of_same hsame (fun u => by rw [UdpSync.view, UdpSync.view, hpc])
      fun u => by rw [UdpSync.view, UdpSync.view, hpc]
  | run t p hpc _ hview _ _ hsame =>
    exact hi.startedOnce_of_same hsame (field_update hpc (by rw [hview])) (field_update hpc (by rw [hview]))
  | lock t p m x hpc _ _ _ hview _ _ hsame | unlock t p m hpc _ _ hview _ _ hsame =>
    exact hi.startedOnce_of_same hsame (field_update hpc (by rw [hview])) (field_update hpc (by rw [hview]))
  | take t p q hpc _ _ hview _ _ hsame | give t p q hpc _ _ hview _ _ hsame =>
    exact hi.startedOnce_of_same hsame (field_update hpc (by rw [hview])) (field_update hpc (by rw [hview]))
  | call t p c w hpc _ _ hclient hview _ _ hsame =>
    exact hi.startedOnce_of_same hsame (field_update₂ hpc (by rw [hclient]) (by rw [hview]))
      (field_update₂ hpc (by rw [hclient]) (by rw [hview]))
  | reply t p c w w' hpc _ hserv hclient hview _ _ hsame =>
    rw [← hi.view_client hserv] at hclient
    exact hi.startedOnce_of_same hsame (field_update₂ hpc (by rw [hclient]) (by rw [hview]))
      (field_update₂ hpc (by rw [hclient]) (by rw [hview]))
  | create p hpc hview _ _ hservers hports =>
    refine hi.startedOnce_of_created (.tx (s.servers + 1)) hpc (by rw [hview]) (by rw [hview]) ?_
      (Nat.lt_succ_self s.servers) (by simp [Fresh, hservers])
    intro t ht
    cases t with
    | tx k => exact Nat.lt_of_succ_lt (hservers ▸ ht : s.servers + 1 < k)
    | rx k => exact (hports k).symm.trans ht
    | irq | stack | client c => exact ht
  | bind p k hpc hview _ _ hservers hport hport' hports =>
    refine hi.startedOnce_of_created (.rx k) hpc (by rw [hview]) (by rw [hview]) ?_ hport (by simp [Fresh, hport'])
    intro t ht
    cases t with
    | tx j => exact (hservers ▸ ht : s.servers < j)
    | rx j =>
      by_cases hj : j = k
      · subst hj
        exact hport
      · exact (hports j hj).symm.trans ht
    | irq | stack | client c => exact ht
  | start t p hpc ht hstack hview _ _ hsame =>
    have hnew := hi.startedOnce.starts t (by rw [hstack])
    refine ⟨?_, ?_⟩
    · intro u hu
      have hfresh : s.Fresh u := hsame.fresh.mp hu
      have hut : u ≠ t := fun he => hnew.1 (he ▸ hfresh)
      have hus : u ≠ .stack := by
        rintro rfl
        exact hfresh
      rw [UdpSync.view, hpc, Function.update_of_ne hus, Function.update_of_ne hut]
      exact hi.startedOnce.fresh u hfresh
    · intro u hu
      rw [view_update (s := s.goto t p) hpc, Function.update_self] at hu
      cases hu

/-- The invariant holds after a step. -/
theorem of_step (hi : Inv cfg s) {a : UdpSyncAction} (h : s.step cfg a = .next s') : Inv cfg s' where
  mutex := hi.mutex_move (step_move h)
  semaphore := hi.semaphore_move (step_move h)
  serving := hi.serving_move (step_move h)
  startedOnce := hi.startedOnce_move (step_move h)

/-- The invariant holds initially. -/
theorem initial : Inv cfg UdpSync.initial where
  mutex m := .free fun t => by cases t <;> exact List.not_mem_nil
  semaphore q := .inl ⟨rfl, fun t => by cases t <;> exact List.not_mem_nil⟩
  serving t c w h := by cases t <;> cases h
  startedOnce := by
    refine ⟨?_, fun t ht => by cases ht⟩
    intro t ht
    cases t with
    | tx k | rx k => rfl
    | irq | stack | client c => exact ht.elim

/-- The invariant holds in every reachable state. -/
theorem of_reachable (h : (udpSyncMachine cfg).Reachable s) : Inv cfg s := by
  refine h.invariant ?_ fun s₁ a s₂ _ hi hs => hi.of_step hs
  intro s₀ h₀
  rw [show s₀ = UdpSync.initial from h₀]
  exact initial

end Inv

end UdpSync

end Sel4Osapi
