import Sel4Osapi.Lemmas.ClockRefines

/-!
# The clock service that the two threads refine: the timer

The steps of the timer keep `Refines`, so every step of the threads does: `step`. And none of them fails, because the service would
fail where it has the same loop before it, or the same allocation: `no_fault`.
-/

namespace Sel4Osapi

open Transition Waiting

namespace ClockThreads

variable {s s' : ClockThreads} {c : Sysclock}

namespace Refines

variable {periodMs : Word}

/-! ## The timer -/

/-- While the timer is in its critical section the server is not. -/
theorem server_outside (h : s.Refines c) (ht : s.timer.Critical) : ¬ s.server.Critical := fun hs => h.not_both hs ht

/-- The timer takes a step inside its critical section, and the service takes none. -/
theorem timerInSection (h : s.Refines c) (hcrit : s.timer.Critical) {p : Pool ScheduleMem} {rv : List CPtr}
    {sent : List (CPtr × Word)} {sig : List CPtr} {a : ClockTimerAt} (hcrit' : a.Critical)
    (hsent : sent = c.log.flatMap ClockEvent.sent ++ sig.map (fun x => (x, s.time)))
    (hat : TimerAt { s with schedule := p, revoked := rv, signals := sent, timer := a } c sig a) :
    Refines { s with schedule := p, revoked := rv, signals := sent, timer := a } c where
  time := h.time
  callerEp := h.callerEp
  allocated := h.allocated
  serverPc := h.serverPc
  timerPc := by rw [h.timerPc, pc_of_critical hcrit, pc_of_critical hcrit']
  received := h.received
  replies := h.replies
  held := h.held_congr Iff.rfl (iff_of_true hcrit' hcrit)
  outside _ hn := absurd hcrit' hn
  serverAt := serverAt_of_not_critical (h.server_outside hcrit)
  timerAt := ⟨sig, hsent, hat⟩

/-- The interrupt comes. -/
theorem interrupt (h : s.Refines c) (hst : s.step periodMs .interrupt = .next s') : s'.Refines c := by
  simp only [ClockThreads.step, Outcome.guard_eq_next, Outcome.next.injEq] at hst
  obtain ⟨hs, rfl⟩ := hst
  have hpc := h.timerPc
  have hat := h.timerAt
  rw [hs] at hpc hat
  have hout : ¬ s.timer.Critical := by
    rw [hs]
    exact not_false
  exact ⟨h.time, h.callerEp, h.allocated, h.serverPc, hpc, h.received, h.replies,
    h.held_congr Iff.rfl (iff_of_false not_false hout), fun hn _ => h.outside hn hout, h.serverAt, hat⟩

/-- The timer advances the clock, whatever the server is doing. -/
theorem advance (h : s.Refines c) (hs : s.timer = .advance) :
    ∃ c', (sysclockMachine periodMs).Leads c c' ∧ Refines { s with time := s.time + periodMs, timer := .lock } c' := by
  have hpc := h.timerPc
  rw [hs] at hpc
  have hout : ¬ s.timer.Critical := by
    rw [hs]
    exact not_false
  refine ⟨{ c with time := c.time + periodMs, timerPc := .scanning }, .of_step .tick (if_pos hpc), ?_⟩
  refine ⟨congrArg (· + periodMs) h.time, h.callerEp, h.allocated, h.serverPc, rfl, h.received, h.replies,
    h.held_congr Iff.rfl (iff_of_false not_false hout), fun hn _ => h.outside hn hout, ?_, [], ?_, rfl⟩
  · have hat := h.serverAt
    cases hserver : s.server with
    | allocSlot | recv | getTime badge | reply badge request mrs => trivial
    | set badge periodic timeoutMs cap pc =>
      rw [hserver] at hat
      cases pc <;> exact hat
    | cancel badge id pc =>
      rw [hserver] at hat
      cases pc <;> exact hat
  · rw [h.signals hout, List.map_nil, List.append_nil]

/-- The timer locks the mutex. -/
theorem timerLocks (h : s.Refines c) (hs : s.timer = .lock) (hst : s.lock .timer { s with timer := .first } = .next s') :
    s'.Refines c := by
  obtain ⟨m, hm, rfl⟩ := of_lock hst
  have hpc := h.timerPc
  rw [hs] at hpc
  have hout : ¬ s.timer.Critical := by
    rw [hs]
    exact not_false
  have hheld : m.HeldBy (Critical { s with timeoutsMutex := m, timer := .first }) := by
    refine h.held.lock hm hout trivial ?_
    intro t ht
    cases t with
    | server => exact Iff.rfl
    | timer => exact absurd rfl ht
  -- whoever has the mutex, it is not the server
  have hserver : ¬ s.server.Critical := by
    intro hserver
    cases hheld.unique (t := .timer) (u := .server) trivial hserver
  refine ⟨h.time, h.callerEp, h.allocated, h.serverPc, hpc, h.received, h.replies, hheld, fun _ hn => absurd trivial hn,
    serverAt_of_not_critical hserver, [], ?_, h.outside hserver hout, rfl⟩
  rw [List.map_nil, List.append_nil]
  exact h.signals hout

/-- The scan of the service does not fail. -/
theorem scan_ok (hr : (sysclockMachine periodMs).Reachable c) :
    ∃ res, scanLoop c.time c.fuel c.schedule.entries c.schedule [] c.revoked = .ok res := by
  obtain ⟨⟨free, live, hinv⟩, -⟩ := sysclock_safe hr
  obtain ⟨c', hc', -⟩ := hinv.scan
  obtain ⟨res, hloop, -⟩ := bind_ok hc'
  exact ⟨res, hloop⟩

/-- The timer reads the head of the schedule: its loop is to have the result of the one that the service has before it. -/
theorem scanFirst (h : s.Refines c) (hr : (sysclockMachine periodMs).Reachable c) (hs : s.timer = .first) :
    Refines { s with timer := .visit s.schedule.entries } c := by
  obtain ⟨sig, hsig, hat⟩ := h.timerAt
  rw [hs] at hat
  obtain ⟨hsame, rfl⟩ := hat
  obtain ⟨res, hloop⟩ := scan_ok hr
  have hcrit : s.timer.Critical := by
    rw [hs]
    trivial
  refine h.timerInSection hcrit trivial hsig ⟨res, c.fuel, hloop, ?_⟩
  rw [← hsame.1, ← hsame.2, ← h.time]
  exact hloop

/-- At an entry of the schedule: what is left to do is to go on from there, or to signal first. -/
theorem scanVisit (h : s.Refines c) {entry : Ptr} (hs : s.timer = .visit (some entry)) (hst : s.timerStep periodMs = .next s') :
    s'.Refines c := by
  obtain ⟨sig, hsig, hat⟩ := h.timerAt
  rw [hs] at hat
  obtain ⟨res, k, hloop, hrest⟩ := hat
  have hcrit : s.timer.Critical := by
    rw [hs]
    trivial
  cases k with
  | zero => cases hrest
  | succ k =>
    rw [scanLoop] at hrest
    simp only [ClockThreads.timerStep, hs] at hst
    split at hst
    · rename_i hdue
      cases hst
      rw [if_pos hdue] at hrest
      exact h.timerInSection hcrit trivial hsig ⟨res, k, hloop, hrest⟩
    · rename_i hdue
      cases hst
      rw [if_neg hdue] at hrest
      exact h.timerInSection hcrit trivial hsig ⟨res, k, hloop, hrest⟩

/-- The timer signals a timeout that is due. -/
theorem scanSend (h : s.Refines c) {entry : Ptr} {next : Option Ptr} (hs : s.timer = .send entry next)
    (hst : s.timerStep periodMs = .next s') : s'.Refines c := by
  obtain ⟨sig, hsig, hat⟩ := h.timerAt
  rw [hs] at hat
  obtain ⟨res, k, hloop, hrest⟩ := hat
  have hcrit : s.timer.Critical := by
    rw [hs]
    trivial
  simp only [ClockThreads.timerStep, hs, Outcome.next.injEq] at hst
  subst hst
  have hsig' : s.signals ++ [((s.schedule.mem (s.schedule.nodes entry).el).aep, s.time)] = c.log.flatMap ClockEvent.sent ++
      (sig ++ [(s.schedule.mem (s.schedule.nodes entry).el).aep]).map (fun x => (x, s.time)) := by
    rw [hsig, List.map_append, List.append_assoc]
    rfl
  split
  · rename_i hperiodic
    rw [if_pos hperiodic] at hrest
    exact h.timerInSection hcrit trivial hsig' ⟨res, k, hloop, hrest⟩
  · rename_i hperiodic
    rw [if_neg hperiodic] at hrest
    exact h.timerInSection hcrit trivial hsig' ⟨res, k, hloop, hrest⟩

/-- The loop has ended: the service scans the schedule here, and its loop has the same result. -/
theorem scanEnd (h : s.Refines c) (hs : s.timer = .visit none) (hst : s.timerStep periodMs = .next s') :
    ∃ c', (sysclockMachine periodMs).Leads c c' ∧ s'.Refines c' := by
  obtain ⟨sig, hsig, hat⟩ := h.timerAt
  have hpc := h.timerPc
  rw [hs] at hat hpc
  obtain ⟨res, k, hloop, hrest⟩ := hat
  have hres : res = (s.schedule, sig, s.revoked) := by
    cases k <;>
    · cases hrest
      rfl
  have hcrit : s.timer.Critical := by
    rw [hs]
    trivial
  simp only [ClockThreads.timerStep, hs, Outcome.next.injEq] at hst
  subst hst hres
  have hscan : (sysclockMachine periodMs).step c .scan = .next { c with
      schedule := s.schedule, revoked := s.revoked, timerPc := .waiting, log := c.log ++ [.scan c.time sig] } := by
    simp [sysclockMachine, Sysclock.step, hpc, ClockTimerAt.pc, Sysclock.scan, hloop]
  have hheld : (s.timeoutsMutex.unlock .timer).HeldBy
      (Critical { s with timeoutsMutex := s.timeoutsMutex.unlock .timer, timer := .wait }) := by
    refine h.held.unlock hcrit not_false ?_
    intro t ht
    cases t with
    | server => exact Iff.rfl
    | timer => exact absurd rfl ht
  refine ⟨_, .of_step _ hscan, h.time, h.callerEp, h.allocated, h.serverPc, rfl, h.received, ?_, hheld,
    fun _ _ => ⟨rfl, rfl⟩, serverAt_of_not_critical (h.server_outside hcrit), [], ?_, rfl⟩
  · rw [List.filter_append, h.replies]
    simp [ClockEvent.isReply]
  · simp [hsig, ClockEvent.sent, h.time]

/-- A step of the timer. -/
theorem timerStep (h : s.Refines c) (hr : (sysclockMachine periodMs).Reachable c) (hst : s.timerStep periodMs = .next s') :
    ∃ c', (sysclockMachine periodMs).Leads c c' ∧ s'.Refines c' := by
  obtain ⟨sig, hsig, hat⟩ := h.timerAt
  cases hs : s.timer with
  | wait =>
    simp only [ClockThreads.timerStep, hs] at hst
    cases hst
  | advance =>
    simp only [ClockThreads.timerStep, hs, Outcome.next.injEq] at hst
    exact hst ▸ h.advance hs
  | lock =>
    simp only [ClockThreads.timerStep, hs] at hst
    exact ⟨c, .refl c, h.timerLocks hs hst⟩
  | first =>
    simp only [ClockThreads.timerStep, hs, Outcome.next.injEq] at hst
    exact ⟨c, .refl c, hst ▸ h.scanFirst hr hs⟩
  | visit entry =>
    cases entry with
    | none => exact h.scanEnd hs hst
    | some entry => exact ⟨c, .refl c, h.scanVisit hs hst⟩
  | send entry next => exact ⟨c, .refl c, h.scanSend hs hst⟩
  | rearm entry next =>
    have hcrit : s.timer.Critical := by
      rw [hs]
      trivial
    rw [hs] at hat
    simp only [ClockThreads.timerStep, hs, Outcome.next.injEq] at hst
    subst hst
    exact ⟨c, .refl c, h.timerInSection hcrit trivial hsig hat⟩
  | free entry next =>
    have hcrit : s.timer.Critical := by
      rw [hs]
      trivial
    rw [hs] at hat
    obtain ⟨res, k, hloop, hrest⟩ := hat
    simp only [ClockThreads.timerStep, hs, Outcome.ofExcept_eq_next] at hst
    obtain ⟨⟨error, p⟩, hfree, hst⟩ := bind_ok hst
    obtain ⟨_, hcheck, hst⟩ := bind_ok hst
    cases hst
    dsimp only at hrest
    rw [hfree, ok_bind] at hrest
    obtain ⟨_, -, hrest⟩ := bind_ok hrest
    exact ⟨c, .refl c, h.timerInSection hcrit trivial hsig ⟨res, k, hloop, hrest⟩⟩
  | revoke toutAep next =>
    have hcrit : s.timer.Critical := by
      rw [hs]
      trivial
    rw [hs] at hat
    simp only [ClockThreads.timerStep, hs, Outcome.next.injEq] at hst
    subst hst
    exact ⟨c, .refl c, h.timerInSection hcrit trivial hsig hat⟩

/-- A step of the threads is a run of the service, of one step or of none. -/
theorem step (h : s.Refines c) (hr : (sysclockMachine periodMs).Reachable c) {a : ClockThreadsAction}
    (hst : s.step periodMs a = .next s') :
    ∃ c', (sysclockMachine periodMs).Leads c c' ∧ s'.Refines c' := by
  cases a with
  | allocSlot slot => exact h.allocSlot hst
  | request badge r => exact ⟨c, .refl c, h.receive hst⟩
  | server => exact h.serverStep hr hst
  | interrupt => exact ⟨c, .refl c, h.interrupt hst⟩
  | timer => exact h.timerStep hr hst

/-! ## No step fails -/

/-- The service carries out a SET_TIMEOUT that it waits for: the receive slot is empty, and an entry that the pool has is blank. -/
theorem setTimeout_ok (hr : (sysclockMachine periodMs).Reachable c) (hpc : c.serverPc = .waiting) :
    c.cspace c.callerEp = none ∧ ∃ newEntry p, simplePoolAlloc c.schedule = .ok (newEntry, p) ∧
      ∀ el, newEntry = some el → (p.mem el).aep = capNull := by
  obtain ⟨c', hserve⟩ := serve_ok hr hpc 0 (.setTimeout 0 0 0)
  have hnone : c.cspace c.callerEp = none := by
    cases hslot : c.cspace c.callerEp with
    | none => rfl
    | some x =>
      simp only [Sysclock.serve, Sysclock.receiveCap, hslot] at hserve
      cases hserve
  simp only [Sysclock.serve, Sysclock.receiveCap, hnone, check_of_true, ok_bind, Sysclock.setTimeout] at hserve
  obtain ⟨⟨newEntry, p⟩, halloc, hserve⟩ := bind_ok hserve
  refine ⟨hnone, newEntry, p, halloc, ?_⟩
  rintro el rfl
  obtain ⟨_, hcheck, -⟩ := bind_ok hserve
  exact of_check_ok hcheck

/-- A request that is received has its capability with it. -/
theorem receive_no_fault (h : s.Refines c) (hr : (sysclockMachine periodMs).Reachable c) (hs : s.server = .recv) (badge : Word)
    (r : ClockRequest) (f : Fault) : s.receive badge r ≠ .error f := by
  intro hf
  have hrecv := h.received
  have hpc := h.serverPc
  rw [hs] at hrecv hpc
  obtain ⟨hnone, -⟩ := setTimeout_ok hr hpc
  have hcspace : s.cspace = c.cspace := hrecv
  rw [← hcspace, h.callerEp] at hnone
  cases r with
  | setTimeout periodic timeoutMs cap =>
    simp only [ClockThreads.receive, if_pos hnone, check_of_true, ok_bind] at hf
    cases hf
  | cancelTimeout id => cases hf
  | getTime => cases hf

/-- A step of the server in a SET_TIMEOUT meets its assertion. -/
theorem setStep_no_fault (h : s.Refines c) (hr : (sysclockMachine periodMs).Reachable c) {badge periodic timeoutMs : Word} {cap : Cap}
    {pc : SetPc} (hs : s.server = .set badge periodic timeoutMs cap pc) (f : Fault) :
    s.setStep badge periodic timeoutMs cap pc ≠ .fault f := by
  intro hf
  have hat := h.serverAt
  have hpc := h.serverPc
  rw [hs] at hat hpc
  cases pc with
  | lock =>
    simp only [ClockThreads.setStep, ClockThreads.lock] at hf
    split at hf <;> cases hf
  | alloc =>
    obtain ⟨-, newEntry, p, halloc, -⟩ := setTimeout_ok hr hpc
    rw [hat.1] at halloc
    simp only [ClockThreads.setStep, halloc, ok_bind] at hf
    cases newEntry <;> cases hf
  | time el =>
    obtain ⟨-, newEntry, p, halloc, hblank⟩ := setTimeout_ok hr hpc
    rw [hat.1] at halloc
    cases halloc
    simp only [ClockThreads.setStep, check_of_true (hblank el rfl), ok_bind] at hf
    cases hf
  | store el insertTime => cases hf
  | unlock mrs => cases hf

/-- A step of the server in a CANCEL_TIMEOUT meets its assertion. -/
theorem cancelStep_no_fault (h : s.Refines c) {badge id : Word} {pc : CancelPc} (hs : s.server = .cancel badge id pc) (f : Fault) :
    s.cancelStep badge id pc ≠ .fault f := by
  intro hf
  have hat := h.serverAt
  rw [hs] at hat
  cases pc with
  | lock =>
    simp only [ClockThreads.cancelStep, ClockThreads.lock] at hf
    split at hf <;> cases hf
  | first => cases hf
  | visit entry =>
    cases entry with
    | none => cases hf
    | some entry =>
      simp only [ClockThreads.cancelStep] at hf
      split at hf <;> cases hf
  | free entry =>
    obtain ⟨res, k, -, hrest⟩ := hat
    obtain ⟨⟨error, p⟩, hfree, hrest⟩ := bind_ok hrest
    obtain ⟨_, hcheck, -⟩ := bind_ok hrest
    simp only [ClockThreads.cancelStep, hfree, ok_bind, hcheck] at hf
    cases hf
  | revoke entry toutAep => cases hf

/-- A step of the timer meets its assertion. -/
theorem timerStep_no_fault (h : s.Refines c) (f : Fault) : s.timerStep periodMs ≠ .fault f := by
  intro hf
  obtain ⟨sig, -, hat⟩ := h.timerAt
  cases hs : s.timer with
  | lock =>
    simp only [ClockThreads.timerStep, hs, ClockThreads.lock] at hf
    split at hf <;> cases hf
  | visit entry =>
    cases entry with
    | none =>
      simp only [ClockThreads.timerStep, hs] at hf
      cases hf
    | some entry =>
      simp only [ClockThreads.timerStep, hs] at hf
      split at hf <;> cases hf
  | free entry next =>
    rw [hs] at hat
    obtain ⟨res, k, -, hrest⟩ := hat
    obtain ⟨⟨error, p⟩, hfree, hrest⟩ := bind_ok hrest
    obtain ⟨_, hcheck, -⟩ := bind_ok hrest
    simp only [ClockThreads.timerStep, hs, hfree, ok_bind, hcheck] at hf
    cases hf
  | wait | advance | first | send entry next | rearm entry next | revoke toutAep next =>
    simp only [ClockThreads.timerStep, hs] at hf
    cases hf

/-- No step fails. -/
theorem no_fault (h : s.Refines c) (hr : (sysclockMachine periodMs).Reachable c) (a : ClockThreadsAction) (f : Fault) :
    s.step periodMs a ≠ .fault f := by
  intro hf
  cases a with
  | allocSlot slot =>
    simp only [ClockThreads.step, Outcome.guard_eq_fault] at hf
    cases hf.2
  | request badge r =>
    simp only [ClockThreads.step, Outcome.guard_eq_fault, Outcome.ofExcept_eq_fault] at hf
    exact h.receive_no_fault hr hf.1 badge r f hf.2
  | server =>
    simp only [ClockThreads.step, ClockThreads.serverStep] at hf
    cases hs : s.server with
    | set badge periodic timeoutMs cap pc =>
      simp only [hs] at hf
      exact h.setStep_no_fault hr hs f hf
    | cancel badge id pc =>
      simp only [hs] at hf
      exact h.cancelStep_no_fault hs f hf
    | allocSlot | recv | getTime badge | reply badge request mrs =>
      simp only [hs] at hf
      cases hf
  | interrupt =>
    simp only [ClockThreads.step, Outcome.guard_eq_fault] at hf
    cases hf.2
  | timer => exact h.timerStep_no_fault f hf

end Refines

end ClockThreads

end Sel4Osapi
