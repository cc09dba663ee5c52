import Mathlib.Algebra.BigOperators.Group.Finset.Basic
import Sel4Osapi.Lemmas.Serial

/-!
# The calls to the serial server come to an end

Every step of a call and of the server takes something off the work that is left (`SerialSystem.work`), but for a poll of the
device that gives `EOF`, and as long as a call has not returned some call or the server can take a step. So the processes never wait for
each other in a circle, whatever the order of the steps, and each call returns when the device gives a character or the timeout is
over.
-/

namespace Sel4Osapi

open Transition Semaphore

/-! ## The work that is left -/

/-- A bound on the steps that are left of a call, up to its return. Once the server has received the call, its steps count with the
server. -/
def SerialCall.work (c : SerialCall) : Nat :=
  match c.pc with
  | .idle | .done => 0
  | .give => 1
  | .copyOut i => c.ret.toNat - i + 2
  | .await => c.request.size.toNat + 2
  | .call => 7 * c.request.size.toNat + 8
  | .store i => c.request.stores.length - i + 7 * c.request.size.toNat + 9
  | .take => c.request.stores.length + 7 * c.request.size.toNat + 10

/-- A bound on the steps that are left of the server, up to its reply, when no poll gives `EOF`. -/
def SerialServer.work (v : SerialServer) : Nat :=
  match v.pc with
  | .recv => 0
  | .reply => 1
  | .lookup => 6 * v.mr3.toNat + 5
  | .write => v.opSize.toNat - v.i + 2
  | .config => 2
  | .readTimeout => 6 * v.opSize.toNat + 4
  | .readStart => 6 * (v.opSize.toNat - v.i) + 3
  | .readFor => 6 * (v.opSize.toNat - v.i) + 2
  | .readWhile => if v.ret = none then 6 * (v.opSize.toNat - v.i) + 1 else 6 * (v.opSize.toNat - v.i) - 1
  | .readGetchar => 6 * (v.opSize.toNat - v.i)
  | .readCheck => 6 * (v.opSize.toNat - v.i) - 2

/-- A bound on the steps that are left. -/
def SerialSystem.work (s : SerialSystem) : Nat := ∑ k ∈ Finset.range s.started, (s.calls k).work + s.server.work

/-- A step of a call or of the server. -/
def SerialAction.isStep : SerialAction → Bool
  | .call _ | .server .. => true
  | _ => false

/-- A step of the server with no character from the device: if it polls one, the poll gives `EOF`. -/
def SerialAction.isEof : SerialAction → Bool
  | .server _ none _ => true
  | _ => false

namespace SerialSystem

variable {s s' : SerialSystem} {free live : List Ptr} {k : Nat}

/-- The work after a call has gone on. -/
theorem sum_work_update (calls : Nat → SerialCall) {n : Nat} (hk : k < n) (c' : SerialCall) :
    ∑ j ∈ Finset.range n, (Function.update calls k c' j).work + (calls k).work =
      ∑ j ∈ Finset.range n, (calls j).work + c'.work := by
  have hmem := Finset.mem_range.mpr hk
  have hrest : ∑ j ∈ (Finset.range n).erase k, (Function.update calls k c' j).work = ∑ j ∈ (Finset.range n).erase k, (calls j).work :=
    Finset.sum_congr rfl fun j hj => by rw [Function.update_of_ne (Finset.ne_of_mem_erase hj)]
  rw [← Finset.add_sum_erase _ _ hmem, ← Finset.add_sum_erase _ (fun j => (calls j).work) hmem, hrest, Function.update_self]
  omega

/-- What a step of a call does: the server receives it, or it goes on and has less work. -/
theorem callStep_cases (hs : s.callStep k = .next s') :
    (s.calls k).pc ≠ .idle ∧ s'.started = s.started ∧ ∃ c', s'.calls = Function.update s.calls k c' ∧ c'.pc ≠ .idle ∧
      (c'.pc = .await ∧ s.server.pc = .recv ∧ s'.server.pc = .lookup ∧ s'.server.caller = k ∧
          c'.work + s'.server.work < (s.calls k).work ∨
        c'.pc ≠ .await ∧ s'.server = s.server ∧ c'.work < (s.calls k).work) := by
  unfold callStep at hs
  cases hp : (s.calls k).pc with
  | idle | await | done => simp [hp] at hs
  | take =>
    simp only [hp, Outcome.guard_eq_next, Outcome.next.injEq] at hs
    obtain ⟨-, rfl⟩ := hs
    exact ⟨by simp, rfl, _, rfl, by simp, Or.inr ⟨by simp, rfl, by simp [SerialCall.work, hp]⟩⟩
  | store i =>
    simp only [hp] at hs
    split at hs
    · rename_i store hstore
      have hlt := (List.getElem?_eq_some_iff.mp hstore).1
      cases hs
      refine ⟨by simp, rfl, _, rfl, by simp, Or.inr ⟨by simp, rfl, ?_⟩⟩
      simp only [SerialCall.work, hp]
      omega
    · cases hs
      refine ⟨by simp, rfl, _, rfl, by simp, Or.inr ⟨by simp, rfl, ?_⟩⟩
      simp only [SerialCall.work, hp]
      omega
  | call =>
    simp only [hp, Outcome.guard_eq_next, Outcome.next.injEq] at hs
    obtain ⟨hrecv, rfl⟩ := hs
    refine ⟨by simp, rfl, _, rfl, by simp, Or.inl ⟨rfl, hrecv, rfl, rfl, ?_⟩⟩
    simp only [SerialCall.work, SerialServer.work, hp]
    omega
  | copyOut i =>
    simp only [hp] at hs
    split at hs
    · cases hs
      refine ⟨by simp, rfl, _, rfl, by simp, Or.inr ⟨by simp, rfl, ?_⟩⟩
      simp only [SerialCall.work, hp]
      omega
    · cases hs
      refine ⟨by simp, rfl, _, rfl, by simp, Or.inr ⟨by simp, rfl, ?_⟩⟩
      simp only [SerialCall.work, hp]
      omega
  | give =>
    simp only [hp, Outcome.next.injEq] at hs
    subst hs
    exact ⟨by simp, rfl, _, rfl, by simp, Or.inr ⟨by simp, rfl, by simp [SerialCall.work, hp]⟩⟩

end SerialSystem

namespace SerialInv

variable {s s' : SerialSystem} {free live : List Ptr}

/-- The request that the server looks at is one of the three. -/
theorem lookup_cases (h : SerialInv s free live) (hp : s.server.pc = .lookup) (hs : s.lookupStep = .ok s') :
    s'.started = s.started ∧ s'.calls = s.calls ∧ s'.server.caller = s.server.caller ∧ s'.server.pc ≠ .recv ∧
      s'.server.work < s.server.work := by
  have hl := h.locals
  simp only [SerialServer.Local, hp] at hl
  obtain ⟨-, hop, -⟩ := hl
  obtain ⟨-, client, device, -, -, -, -, v, rfl, hcases⟩ := SerialSystem.lookupStep_cases hs
  dsimp only at hcases
  rw [hop, SerialOp.ofWord_toWord] at hcases
  rcases hcases with ⟨-, rfl⟩ | ⟨-, rfl⟩ | ⟨-, rfl⟩ | ⟨hnone, -⟩
  · refine ⟨rfl, rfl, rfl, by simp, ?_⟩
    simp only [SerialServer.work, hp]
    omega
  · refine ⟨rfl, rfl, rfl, by simp, ?_⟩
    simp only [SerialServer.work, hp]
    omega
  · refine ⟨rfl, rfl, rfl, by simp, ?_⟩
    simp only [SerialServer.work, hp]
    omega
  · cases hnone

/-- The reply leaves the call no more work than it had. -/
theorem reply_cases (h : SerialInv s free live) (hp : s.server.pc = .reply) :
    s.replyStep.server.pc = .recv ∧ s.replyStep.started = s.started ∧
      ∃ c', s.replyStep.calls = Function.update s.calls s.server.caller c' ∧ c'.pc ≠ .idle ∧ c'.pc ≠ .await ∧
        c'.work ≤ (s.calls s.server.caller).work := by
  have hawait := h.serves (by simp [hp])
  have hl := h.locals
  simp only [SerialServer.Local, hp] at hl
  obtain ⟨-, hl⟩ := hl
  have hret : (s.calls s.server.caller).request.op = .read → s.server.mr0.toNat ≤ (s.calls s.server.caller).request.size.toNat := by
    intro hop
    cases hreq : (s.calls s.server.caller).request with
    | write | configure =>
      rw [hreq] at hop
      cases hop
    | read size timeout =>
      rw [hreq] at hl
      simp only [SerialRequest.size]
      omega
  refine ⟨rfl, rfl, _, rfl, ?_⟩
  by_cases hcopy : (s.calls s.server.caller).request.op = .read ∧ s.server.mr0 > 0
  · rw [if_pos hcopy]
    refine ⟨by simp, by simp, ?_⟩
    have hle := hret hcopy.1
    simp only [SerialCall.work, hawait]
    omega
  · rw [if_neg hcopy]
    refine ⟨by simp, by simp, ?_⟩
    simp only [SerialCall.work, hawait]
    omega

/-- What a step of the server does: it goes on and has less work, but for a poll that gives `EOF`, or it replies. -/
theorem serverStep_cases (h : SerialInv s free live) {time : Word} {char : Option UInt8} {error : Word}
    (hs : s.serverStep time char error = .next s') :
    s.server.pc ≠ .recv ∧ s'.started = s.started ∧
      (s'.calls = s.calls ∧ s'.server.caller = s.server.caller ∧ s'.server.pc ≠ .recv ∧
          s'.server.work + 1 ≤ s.server.work + (if char = none then 2 else 0) ∨
        s'.server.pc = .recv ∧ s.server.work = 1 ∧ ∃ c', s'.calls = Function.update s.calls s.server.caller c' ∧ c'.pc ≠ .idle ∧
          c'.pc ≠ .await ∧ c'.work ≤ (s.calls s.server.caller).work) := by
  have hl := h.locals
  cases hp : s.server.pc with
  | recv => simp [SerialSystem.serverStep, hp] at hs
  | lookup =>
    simp only [SerialSystem.serverStep, hp, Outcome.ofExcept_eq_next] at hs
    obtain ⟨hstarted, hcalls, hcaller, hpc, hwork⟩ := h.lookup_cases hp hs
    exact ⟨by simp, hstarted, Or.inl ⟨hcalls, hcaller, hpc, by omega⟩⟩
  | write =>
    simp only [SerialServer.Local, hp] at hl
    rw [eq_executeStep hs hl.1 (by simp [hp]) (by simp [hp])]
    simp only [SerialSystem.executeStep, hp]
    split
    · refine ⟨by simp, rfl, Or.inl ⟨rfl, rfl, by simp, ?_⟩⟩
      simp only [SerialServer.work, hp]
      omega
    · refine ⟨by simp, rfl, Or.inl ⟨rfl, rfl, by simp, ?_⟩⟩
      simp only [SerialServer.work, hp]
      omega
  | config =>
    simp only [SerialServer.Local, hp] at hl
    rw [eq_executeStep hs hl.1 (by simp [hp]) (by simp [hp])]
    simp only [SerialSystem.executeStep, hp]
    refine ⟨by simp, trivial, Or.inl ⟨trivial, trivial, by simp, ?_⟩⟩
    simp only [SerialServer.work, hp]
    omega
  | reply =>
    simp only [SerialServer.Local, hp] at hl
    rw [eq_executeStep hs hl.1 (by simp [hp]) (by simp [hp])]
    simp only [SerialSystem.executeStep, hp]
    obtain ⟨hpc, hstarted, hcalls⟩ := h.reply_cases hp
    exact ⟨by simp, hstarted, Or.inr ⟨hpc, by simp [SerialServer.work, hp], hcalls⟩⟩
  | readTimeout | readStart =>
    simp only [SerialServer.Local, hp] at hl
    rw [eq_executeStep hs hl.1 (by simp [hp]) (by simp [hp])]
    simp only [SerialSystem.executeStep, hp]
    refine ⟨by simp, trivial, Or.inl ⟨trivial, trivial, by simp, ?_⟩⟩
    simp only [SerialServer.work, hp]
    omega
  | readFor =>
    simp only [SerialServer.Local, hp] at hl
    rw [eq_executeStep hs hl.1 (by simp [hp]) (by simp [hp])]
    simp only [SerialSystem.executeStep, hp]
    split
    · refine ⟨by simp, rfl, Or.inl ⟨rfl, rfl, by simp, ?_⟩⟩
      simp only [SerialServer.work, hp]
      split <;> omega
    · refine ⟨by simp, rfl, Or.inl ⟨rfl, rfl, by simp, ?_⟩⟩
      simp only [SerialServer.work, hp]
      omega
  | readWhile =>
    simp only [SerialServer.Local, hp] at hl
    obtain ⟨hl, hlt⟩ := hl
    rw [eq_executeStep hs hl.1 (by simp [hp]) (by simp [hp])]
    simp only [SerialSystem.executeStep, hp]
    split
    · rename_i hpoll
      refine ⟨by simp, rfl, Or.inl ⟨rfl, rfl, by simp, ?_⟩⟩
      simp only [SerialServer.work, hp, if_pos hpoll.1]
      omega
    · refine ⟨by simp, rfl, Or.inl ⟨rfl, rfl, by simp, ?_⟩⟩
      simp only [SerialServer.work, hp]
      split <;> omega
  | readGetchar =>
    simp only [SerialServer.Local, hp] at hl
    obtain ⟨hl, hlt⟩ := hl
    rw [eq_executeStep hs hl.1 (by simp [hp]) (by simp [hp])]
    simp only [SerialSystem.executeStep, hp]
    refine ⟨by simp, trivial, Or.inl ⟨trivial, trivial, by simp, ?_⟩⟩
    simp only [SerialServer.work, hp]
    split <;> omega
  | readCheck =>
    simp only [SerialServer.Local, hp] at hl
    obtain ⟨hl, hlt⟩ := hl
    rw [eq_executeStep hs hl.1 (by simp [hp]) (by simp [hp])]
    simp only [SerialSystem.executeStep, hp]
    split
    · refine ⟨by simp, rfl, Or.inl ⟨rfl, rfl, by simp, ?_⟩⟩
      simp only [SerialServer.work, hp]
      omega
    · refine ⟨by simp, rfl, Or.inl ⟨rfl, rfl, by simp, ?_⟩⟩
      simp only [SerialServer.work, hp]
      omega

/-- The server can go on with a request whatever it is told, and does not fail. -/
theorem exists_serverStep (h : SerialInv s free live) (hrecv : s.server.pc ≠ .recv) (time : Word) (char : Option UInt8) (error : Word) :
    ∃ s', s.serverStep time char error = .next s' := by
  have hawait := h.serves hrecv
  have hl := h.locals
  cases hp : s.server.pc with
  | recv => exact absurd hp hrecv
  | lookup =>
    simp only [SerialServer.Local, hp] at hl
    obtain ⟨hid, hop, hdev, -⟩ := hl
    obtain ⟨-, hmem, -⟩ := h.made s.server.caller (by simp [hawait])
    obtain ⟨hels, hfind⟩ := h.clients.lookup hmem s.server.client
    have htest : s.server.opSize ≤ (s.clients.mem (s.calls s.server.caller).client).bufSize := by
      rw [h.clients.bufSize _ hmem]
      exact h.opSize
    simp only [SerialSystem.serverStep, hp, Outcome.ofExcept_eq_next, SerialSystem.lookupStep, hels, ok_bind, hid, hfind,
      check_of_true htest, hdev, SerialDevice.ofWord_toWord, hop, SerialOp.ofWord_toWord]
    cases (s.calls s.server.caller).request.op <;> exact ⟨_, rfl⟩
  | write | readTimeout | readStart | readFor | config | reply =>
    simp only [SerialServer.Local, hp] at hl
    exact ⟨_, serverStep_of_executes hl.1 (by simp [hp]) (by simp [hp]) time char error⟩
  | readWhile | readGetchar | readCheck =>
    simp only [SerialServer.Local, hp] at hl
    exact ⟨_, serverStep_of_executes hl.1.1 (by simp [hp]) (by simp [hp]) time char error⟩

/-- A call that has the semaphore can go on when the server waits for a call, unless it is itself waiting for the reply. -/
theorem exists_callStep (hrecv : s.server.pc = .recv) {k : Nat} (hk : (s.calls k).pc.inSection = true) (hawait : (s.calls k).pc ≠ .await) :
    ∃ s', s.callStep k = .next s' := by
  unfold SerialSystem.callStep
  cases hp : (s.calls k).pc with
  | idle | take | done => simp [hp, SerialCallPc.inSection] at hk
  | await => exact absurd hp hawait
  | store i =>
    simp only [hp]
    split <;> exact ⟨_, rfl⟩
  | call =>
    simp only [hp]
    exact ⟨_, Outcome.guard_eq_next.mpr ⟨hrecv, rfl⟩⟩
  | copyOut i =>
    simp only [hp]
    split <;> exact ⟨_, rfl⟩
  | give =>
    simp only [hp]
    exact ⟨_, rfl⟩

end SerialInv

/-! ## No call is forgotten -/

/-- A call that waits for a reply is the one that the server is busy with. -/
structure SerialSystem.Awaits (s : SerialSystem) : Prop where
  started : ∀ k < s.started, (s.calls k).pc ≠ .idle
  await : ∀ k, (s.calls k).pc = .await → s.server.pc ≠ .recv ∧ s.server.caller = k

namespace SerialSystem.Awaits

variable {s s' : SerialSystem} {free live : List Ptr}

/-- At the start there are no calls. -/
theorem of_init {processMax : Int} (h : s.Init processMax) : s.Awaits :=
  ⟨by simp [h.started], by simp [h.calls]⟩

/-- Some call has gone on. -/
theorem update (h : s.Awaits) {k : Nat} {c' : SerialCall} (hstarted : s'.started = s.started)
    (hcalls : s'.calls = Function.update s.calls k c') (hidle : c'.pc ≠ .idle)
    (hawait : c'.pc = .await → s'.server.pc ≠ .recv ∧ s'.server.caller = k)
    (hother : ∀ j, j ≠ k → (s.calls j).pc = .await → s'.server.pc ≠ .recv ∧ s'.server.caller = j) : s'.Awaits := by
  refine ⟨?_, ?_⟩
  · intro j hj
    rw [hstarted] at hj
    rw [hcalls]
    rcases eq_or_ne j k with rfl | hne
    · rw [Function.update_self]
      exact hidle
    · rw [Function.update_of_ne hne]
      exact h.started j hj
  · intro j hj
    rw [hcalls] at hj
    rcases eq_or_ne j k with rfl | hne
    · rw [Function.update_self] at hj
      exact hawait hj
    · rw [Function.update_of_ne hne] at hj
      exact hother j hne hj

/-- Every action keeps it. -/
theorem step (h : s.Awaits) (hinv : SerialInv s free live) {a : SerialAction} (hs : s.step a = .next s') : s'.Awaits := by
  cases a with
  | createClient page =>
    obtain ⟨⟨client, clients⟩, -, hs⟩ := bind_ok (Outcome.ofExcept_eq_next.mp hs)
    cases client with
    | none => cases hs
    | some client =>
      cases hs
      exact ⟨h.started, h.await⟩
  | start client dev request =>
    simp only [SerialSystem.step, Outcome.guard_eq_next, Outcome.ofExcept_eq_next] at hs
    obtain ⟨-, hs⟩ := hs
    obtain ⟨_, -, hs⟩ := bind_ok hs
    cases hs
    refine ⟨?_, ?_⟩
    · intro j hj
      rcases eq_or_ne j s.started with rfl | hne
      · simp [SerialSystem.setCall]
      · simpa [SerialSystem.setCall, hne] using h.started j (by dsimp only at hj; omega)
    · intro j hj
      rcases eq_or_ne j s.started with rfl | hne
      · simp [SerialSystem.setCall] at hj
      · exact h.await j (by simpa [SerialSystem.setCall, hne] using hj)
  | call k =>
    obtain ⟨-, hstarted, c', hcalls, hidle, ⟨-, hrecv, hlookup, hcaller, -⟩ | ⟨hawait, hserver, -⟩⟩ := SerialSystem.callStep_cases hs
    · refine h.update hstarted hcalls hidle (fun _ => ⟨by simp [hlookup], hcaller⟩) ?_
      intro j _ hj
      exact absurd hrecv (h.await j hj).1
    · refine h.update hstarted hcalls hidle (fun e => absurd e hawait) ?_
      intro j _ hj
      rw [hserver]
      exact h.await j hj
  | server time char error =>
    obtain ⟨-, hstarted, ⟨hcalls, hcaller, hpc, -⟩ | ⟨-, -, c', hcalls, hidle, hawait, -⟩⟩ := hinv.serverStep_cases hs
    · refine ⟨?_, ?_⟩
      · rw [hstarted, hcalls]
        exact h.started
      · intro j hj
        rw [hcalls] at hj
        exact ⟨hpc, hcaller.trans (h.await j hj).2⟩
    · refine h.update hstarted hcalls hidle (fun e => absurd e hawait) ?_
      intro j hne hj
      exact absurd (h.await j hj).2.symm hne

end SerialSystem.Awaits

/-! ## The calls return -/

/-- What the progress of the calls rests on. -/
def SerialSystem.Sound (s : SerialSystem) : Prop := (∃ free live, SerialInv s free live) ∧ s.Awaits

namespace SerialSystem.Sound

variable {s s' : SerialSystem}

/-- In every state of every run. -/
theorem of_run {processMax : Int} (hr : (serialMachine processMax).Reachable s) : s.Sound := by
  refine ⟨serial_inv hr, hr.invariant (P := SerialSystem.Awaits) (fun s hi => .of_init hi) ?_⟩
  intro s a s' hr h hs
  obtain ⟨free, live, hinv⟩ := serial_inv hr
  exact h.step hinv hs

/-- Every action keeps it. -/
theorem step (h : s.Sound) {a : SerialAction} (hs : s.step a = .next s') : s'.Sound := by
  obtain ⟨⟨free, live, hinv⟩, hawaits⟩ := h
  exact ⟨hinv.step hs, hawaits.step hinv hs⟩

/-- A step takes something off the work that is left, but for a poll that gives `EOF`. -/
theorem work_step (h : s.Sound) {a : SerialAction} (ha : a.isStep = true) (hs : s.step a = .next s') :
    s'.work + 1 ≤ s.work + if a.isEof then 2 else 0 := by
  obtain ⟨⟨free, live, hinv⟩, hawaits⟩ := h
  cases a with
  | createClient page => cases ha
  | start client dev request => cases ha
  | call k =>
    obtain ⟨hidle, hstarted, c', hcalls, -, hcase⟩ := SerialSystem.callStep_cases hs
    have hsum := SerialSystem.sum_work_update s.calls (hinv.made k hidle).1 c'
    unfold SerialSystem.work
    rw [hstarted, hcalls]
    rcases hcase with ⟨-, -, -, -, hwork⟩ | ⟨-, hserver, hwork⟩
    · omega
    · rw [hserver]
      omega
  | server time char error =>
    obtain ⟨hrecv, hstarted, hcase⟩ := hinv.serverStep_cases hs
    unfold SerialSystem.work
    rw [hstarted]
    rcases hcase with ⟨hcalls, -, -, hwork⟩ | ⟨hpc, hone, c', hcalls, -, -, hle⟩
    · rw [hcalls]
      cases char with
      | none =>
        simp only [if_true, SerialAction.isEof] at hwork ⊢
        omega
      | some b =>
        simp only [reduceCtorEq, if_false] at hwork
        omega
    · have hcaller := hinv.made s.server.caller (by simp [hinv.serves hrecv])
      have hsum := SerialSystem.sum_work_update s.calls hcaller.1 c'
      have hzero : s'.server.work = 0 := by simp [SerialServer.work, hpc]
      rw [hcalls, hone, hzero]
      omega

/-- As long as a call has not returned, a call or the server can take a step. -/
theorem exists_step (h : s.Sound) :
    (∀ k < s.started, (s.calls k).pc = .done) ∨ ∃ a s', a.isStep = true ∧ a.isEof = false ∧ s.step a = .next s' := by
  obtain ⟨⟨free, live, hinv⟩, hawaits⟩ := h
  by_cases hrecv : s.server.pc = .recv
  · have hnone : ∀ k, (s.calls k).pc ≠ .await := fun k hk => (hawaits.await k hk).1 hrecv
    have hcall : ∀ k, (s.calls k).pc.inSection = true → ∃ a s', a.isStep = true ∧ a.isEof = false ∧ s.step a = .next s' := by
      intro k hk
      obtain ⟨s', hs⟩ := SerialInv.exists_callStep hrecv hk (hnone k)
      exact ⟨.call k, s', rfl, rfl, hs⟩
    by_cases hdone : ∀ k < s.started, (s.calls k).pc = .done
    · exact Or.inl hdone
    · refine Or.inr ?_
      obtain ⟨k, hk⟩ := not_forall.mp hdone
      obtain ⟨hlt, hk⟩ := Classical.not_imp.mp hk
      cases hp : (s.calls k).pc with
      | idle => exact absurd hp (hawaits.started k hlt)
      | done => exact absurd hp hk
      | await => exact absurd hp (hnone k)
      | store | call | copyOut | give => exact hcall k (by rw [hp]; rfl)
      | take =>
        -- the semaphore is free, or the call that has it can go on
        rcases hinv.excl _ (hinv.made k (by simp [hp])).2.1 with ⟨hfree, -⟩ | ⟨-, c, ⟨-, hc⟩, -⟩
        · refine ⟨.call k, { s.setCall k { s.calls k with pc := .store 0 } with
            bufAvail := Function.update s.bufAvail (s.calls k).client (s.bufAvail (s.calls k).client - 1) }, rfl, rfl, ?_⟩
          simp only [SerialSystem.step, SerialSystem.callStep, hp, Outcome.guard_eq_next, and_true]
          omega
        · exact hcall c hc
  · obtain ⟨s', hs⟩ := hinv.exists_serverStep hrecv 0 (some 0) 0
    exact Or.inr ⟨.server 0 (some 0) 0, s', rfl, rfl, hs⟩

end SerialSystem.Sound

/-- In every state of every run, however many processes and threads have made calls:
1. as long as a call has not returned, a call or the server can take a step, and the server does not fail;
2. whatever the order of the steps from there on, there are no more of them, until new calls are made, than `s.work` and two for each
step of the server with no character from the device: these are the polls that give `EOF`, and any other step of the server that
is taken without a character, which it does not look at;
3. the calls can all return, whichever steps were taken so far. -/
theorem serial_calls_return (processMax : Int) (s : SerialSystem) (hr : (serialMachine processMax).Reachable s) :
    ((∀ k < s.started, (s.calls k).pc = .done) ∨ ∃ a s', a.isStep = true ∧ s.step a = .next s') ∧
    (∀ time char error f, s.step (.server time char error) ≠ .fault f) ∧
    (∀ as s', (∀ a ∈ as, a.isStep = true) → (serialMachine processMax).exec s as = some s' →
      as.length ≤ s.work + 2 * as.countP SerialAction.isEof) ∧
    ∃ as s', as.length ≤ s.work ∧ (∀ a ∈ as, a.isStep = true) ∧ (serialMachine processMax).exec s as = some s' ∧
      ∀ k < s'.started, (s'.calls k).pc = .done := by
  have h := SerialSystem.Sound.of_run hr
  refine ⟨?_, ?_, ?_, ?_⟩
  · rcases h.exists_step with hdone | ⟨a, s', ha, -, hs⟩
    · exact Or.inl hdone
    · exact Or.inr ⟨a, s', ha, hs⟩
  · intro time char error f hf
    obtain ⟨⟨free, live, hinv⟩, -⟩ := h
    by_cases hrecv : s.server.pc = .recv
    · simp [SerialSystem.step, SerialSystem.serverStep, hrecv] at hf
    · obtain ⟨s', hs⟩ := hinv.exists_serverStep hrecv time char error
      rw [SerialSystem.step, hs] at hf
      cases hf
  · intro as s' hok he
    have hbound := (Machine.length_le_of_exec SerialSystem.Sound (fun a => a.isStep = true) SerialSystem.work SerialAction.isEof 2
      (fun s a s' h ha hs => ⟨h.step hs, h.work_step ha hs⟩) h hok he).2
    omega
  · have hprogress : ∀ s : SerialSystem, s.Sound → (∀ k < s.started, (s.calls k).pc = .done) ∨
        ∃ a s', a.isStep = true ∧ (serialMachine processMax).step s a = .next s' ∧ s'.Sound ∧ s'.work < s.work := by
      intro s h
      rcases h.exists_step with hdone | ⟨a, s', ha, heof, hs⟩
      · exact Or.inl hdone
      · have hwork := h.work_step ha hs
        rw [heof] at hwork
        exact Or.inr ⟨a, s', ha, hs, h.step hs, Nat.lt_of_succ_le (by simpa using hwork)⟩
    obtain ⟨as, s', hlen, hok, he, -, hdone⟩ := Machine.exists_exec_of_progress _ _ _ _ hprogress h
    exact ⟨as, s', hlen, hok, he, hdone⟩

/-- A write has the semaphore of its process when another thread of the process makes a read: both can return. -/
theorem serial_calls_return_two : ∃ s, (serialMachine 2).Reachable s ∧ (s.calls 0).pc = .store 0 ∧ (s.calls 1).pc = .take ∧
    ∃ as s', (serialMachine 2).exec s as = some s' ∧ ∀ k < s'.started, (s'.calls k).pc = .done := by
  obtain ⟨s, hr, hs⟩ := (Machine.Reachable.init (M := serialMachine 2) SerialSystem.init_fresh).exists_of_exec
    [.createClient fun _ => 0, .start 0 .uart1 (.write [104, 105]), .call 0, .start 0 .uart2 (.read 3 0)]
    (fun s => (s.calls 0).pc = .store 0 ∧ (s.calls 1).pc = .take) rfl
  simp only [Bool.decide_and, Bool.and_eq_true, decide_eq_true_eq] at hs
  obtain ⟨-, -, -, as, s', -, -, he, hdone⟩ := serial_calls_return 2 s hr
  exact ⟨s, hr, hs.1, hs.2, as, s', he, hdone⟩

end Sel4Osapi
