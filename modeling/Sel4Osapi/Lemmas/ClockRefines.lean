import Sel4Osapi.ClockThreads
import Sel4Osapi.Lemmas.ClockInv

/-!
# The clock service that the two threads refine

`Refines` ties a state of the threads to the state that the service has got to. The service takes its step where the critical
section ends, except that a SET_TIMEOUT counts as served at the read of the clock, which the mutex does not protect, and one
without an entry at the allocation that fails. In between, the service is where the section began, and what is left of the loop
leads to the same result as the loop that the service has before it: `ServerAt`, `TimerAt`.

The steps of the server keep it. Those of the timer are in `Sel4Osapi.Lemmas.ClockRefinesTimer`.
-/

namespace Sel4Osapi

open Transition Waiting

/-! ## Where the two are -/

/-- Between `lock` and `unlock` of the mutex. -/
def ClockServerAt.Critical : ClockServerAt → Prop
  | .set _ _ _ _ pc => pc ≠ .lock
  | .cancel _ _ pc => pc ≠ .lock
  | _ => False

/-- Between `lock` and `unlock` of the mutex. -/
def ClockTimerAt.Critical : ClockTimerAt → Prop
  | .wait => False
  | .advance => False
  | .lock => False
  | _ => True

/-- Where the server stands for the service: a SET_TIMEOUT has been served once the clock was read, or no entry was found. -/
def ClockServerAt.pc : ClockServerAt → ClockServerPc
  | .allocSlot => .allocSlot
  | .set _ _ _ _ (.store _ _) => .allocSlot
  | .set _ _ _ _ (.unlock _) => .allocSlot
  | .reply _ (.setTimeout _ _ _) _ => .allocSlot
  | _ => .waiting

/-- Where the timer stands for the service. -/
def ClockTimerAt.pc : ClockTimerAt → ClockTimerPc
  | .wait => .waiting
  | .advance => .waiting
  | _ => .scanning

/-- What a reply says. -/
def ClockReply.event (x : ClockReply) : ClockEvent :=
  match x.request with
  | .setTimeout periodic timeoutMs c =>
    if x.mrs.getD 0 0 = 0 then .set x.badge c periodic timeoutMs (x.mrs.getD 1 0) (x.mrs.getD 2 0) else .refused x.badge
  | .cancelTimeout timeoutId => .cancel timeoutId (x.mrs.getD 0 0)
  | .getTime => .getTime (x.mrs.getD 0 0)

/-- The event is a reply. -/
def ClockEvent.isReply : ClockEvent → Bool
  | .scan _ _ => false
  | _ => true

/-- The signals of an event, each with the clock value in it. -/
def ClockEvent.sent : ClockEvent → List (CPtr × Word)
  | .scan time signalled => signalled.map fun a => (a, time)
  | _ => []

/-- The reply to a request that counts as served already. -/
def ClockServerAt.pending (callerEp : CPtr) : ClockServerAt → List ClockEvent
  | .set badge periodic timeoutMs c (.store _ insertTime) => [.set badge c periodic timeoutMs callerEp insertTime]
  | .set badge periodic timeoutMs c (.unlock mrs) => [ClockReply.event ⟨badge, .setTimeout periodic timeoutMs c, mrs⟩]
  | .reply badge request mrs => [ClockReply.event ⟨badge, request, mrs⟩]
  | _ => []

/-- The CSpace of the threads and that of the service: the capability of a SET_TIMEOUT that is not served yet is in its slot. -/
def ClockServerAt.Received (callerEp : CPtr) (cspace cspace' : CPtr → Option Cap) : ClockServerAt → Prop
  | .set _ _ _ c .lock => cspace' callerEp = none ∧ cspace = Function.update cspace' callerEp (some c)
  | .set _ _ _ c .alloc => cspace' callerEp = none ∧ cspace = Function.update cspace' callerEp (some c)
  | .set _ _ _ c (.time _) => cspace' callerEp = none ∧ cspace = Function.update cspace' callerEp (some c)
  | _ => cspace = cspace'

namespace ClockThreads

variable {s s' : ClockThreads} {c : Sysclock}

/-- A thread is between `lock` and `unlock`. -/
def Critical (s : ClockThreads) : ClockTask → Prop
  | .server => s.server.Critical
  | .timer => s.timer.Critical

/-- The schedule and the revocations are those of the service. -/
def Same (s : ClockThreads) (c : Sysclock) : Prop := c.schedule = s.schedule ∧ c.revoked = s.revoked

/-- What the server has left to do in a critical section. -/
def ServerAt (s : ClockThreads) (c : Sysclock) : ClockServerAt → Prop
  | .set _ _ _ _ .alloc => s.Same c
  | .set _ _ _ _ (.time el) => simplePoolAlloc c.schedule = .ok (some el, s.schedule) ∧ c.revoked = s.revoked
  | .set badge periodic timeoutMs _ (.store el insertTime) =>
    let entry : TimeoutEntry :=
      { caller := badge, aep := s.callerEp, periodic := periodic, period := timeoutMs, nextEvent := insertTime + timeoutMs }
    c.schedule = { s.schedule with mem := Function.update s.schedule.mem el entry } ∧ c.revoked = s.revoked
  | .set _ _ _ _ (.unlock _) => s.Same c
  | .cancel _ _ .first => s.Same c
  | .cancel _ id (.visit entry) => ∃ res k, cancelLoop id c.fuel c.schedule.entries c.schedule c.revoked = .ok res ∧
      cancelLoop id k entry s.schedule s.revoked = .ok res
  | .cancel _ id (.free entry) => ∃ res k, cancelLoop id c.fuel c.schedule.entries c.schedule c.revoked = .ok res ∧
      (do
        let (error, p) ← simplePoolFree s.schedule (s.schedule.nodes entry).el
        check (error = 0) "error == 0"
        cancelLoop id k (some entry) p (s.revoked ++ [(s.schedule.mem (s.schedule.nodes entry).el).aep])) = .ok res
  | .cancel _ id (.revoke entry toutAep) => ∃ res k, cancelLoop id c.fuel c.schedule.entries c.schedule c.revoked = .ok res ∧
      cancelLoop id k (some entry) s.schedule (s.revoked ++ [toutAep]) = .ok res
  | _ => True

/-- What the timer has left to do in its critical section, in which it has sent these signals. -/
def TimerAt (s : ClockThreads) (c : Sysclock) (sig : List CPtr) : ClockTimerAt → Prop
  | .first => s.Same c ∧ sig = []
  | .visit entry => ∃ res k, scanLoop c.time c.fuel c.schedule.entries c.schedule [] c.revoked = .ok res ∧
      scanLoop s.time k entry s.schedule sig s.revoked = .ok res
  | .send entry next => ∃ res k, scanLoop c.time c.fuel c.schedule.entries c.schedule [] c.revoked = .ok res ∧
      (let timeout := (s.schedule.nodes entry).el
      let sig := sig ++ [(s.schedule.mem timeout).aep]
      if (s.schedule.mem timeout).periodic ≠ 0 then
        let mem := Function.update s.schedule.mem timeout
          { s.schedule.mem timeout with nextEvent := s.time + (s.schedule.mem timeout).period }
        scanLoop s.time k next { s.schedule with mem := mem } sig s.revoked
      else do
        let toutAep := (s.schedule.mem timeout).aep
        let (error, p) ← simplePoolFree s.schedule timeout
        check (error = 0) "error == 0"
        scanLoop s.time k next p sig (s.revoked ++ [toutAep])) = .ok res
  | .rearm entry next => ∃ res k, scanLoop c.time c.fuel c.schedule.entries c.schedule [] c.revoked = .ok res ∧
      (let timeout := (s.schedule.nodes entry).el
      let mem := Function.update s.schedule.mem timeout
        { s.schedule.mem timeout with nextEvent := s.time + (s.schedule.mem timeout).period }
      scanLoop s.time k next { s.schedule with mem := mem } sig s.revoked) = .ok res
  | .free entry next => ∃ res k, scanLoop c.time c.fuel c.schedule.entries c.schedule [] c.revoked = .ok res ∧
      (do
        let timeout := (s.schedule.nodes entry).el
        let toutAep := (s.schedule.mem timeout).aep
        let (error, p) ← simplePoolFree s.schedule timeout
        check (error = 0) "error == 0"
        scanLoop s.time k next p sig (s.revoked ++ [toutAep])) = .ok res
  | .revoke toutAep next => ∃ res k, scanLoop c.time c.fuel c.schedule.entries c.schedule [] c.revoked = .ok res ∧
      scanLoop s.time k next s.schedule sig (s.revoked ++ [toutAep]) = .ok res
  | _ => sig = []

/-- The state of the service that a state of the threads stands for. -/
structure Refines (s : ClockThreads) (c : Sysclock) : Prop where
  time : c.time = s.time
  callerEp : c.callerEp = s.callerEp
  allocated : c.allocated = s.allocated
  serverPc : c.serverPc = s.server.pc
  timerPc : c.timerPc = s.timer.pc
  received : s.server.Received s.callerEp s.cspace c.cspace
  replies : c.log.filter ClockEvent.isReply = s.replies.map ClockReply.event ++ s.server.pending s.callerEp
  held : s.timeoutsMutex.HeldBy s.Critical
  /-- with no thread in its critical section -/
  outside : ¬ s.server.Critical → ¬ s.timer.Critical → s.Same c
  serverAt : s.ServerAt c s.server
  timerAt : ∃ sig, s.signals = c.log.flatMap ClockEvent.sent ++ sig.map (fun a => (a, s.time)) ∧ s.TimerAt c sig s.timer

/-! ## The step lemmas -/

/-- A server outside its critical section has nothing left to do in it. -/
theorem serverAt_of_not_critical {a : ClockServerAt} (h : ¬ a.Critical) : s.ServerAt c a := by
  cases a with
  | set badge periodic timeoutMs cap pc =>
    obtain rfl : pc = .lock := by
      by_contra hne
      exact h hne
    trivial
  | cancel badge id pc =>
    obtain rfl : pc = .lock := by
      by_contra hne
      exact h hne
    trivial
  | allocSlot | recv | getTime badge | reply badge request mrs => trivial

/-- A timer outside its critical section has sent no signal in it. -/
theorem timerAt_iff_of_not_critical {sig : List CPtr} {a : ClockTimerAt} (h : ¬ a.Critical) : s.TimerAt c sig a ↔ sig = [] := by
  cases a with
  | wait | advance | lock => exact Iff.rfl
  | first | visit entry | send entry next | rearm entry next | free entry next | revoke toutAep next => exact absurd trivial h

/-- In its critical section the timer has a scan to finish. -/
theorem pc_of_critical {a : ClockTimerAt} (h : a.Critical) : a.pc = .scanning := by
  cases a with
  | wait | advance | lock => exact absurd h not_false
  | first | visit entry | send entry next | rearm entry next | free entry next | revoke toutAep next => rfl

namespace Refines

/-- One thread at a time is in its critical section. -/
theorem not_both (h : s.Refines c) (hs : s.server.Critical) : ¬ s.timer.Critical := by
  intro ht
  cases h.held.unique (t := .server) (u := .timer) hs ht

/-- The threads in their critical sections, and the mutex, stay as they are. -/
theorem held_congr (h : s.Refines c) (hserver : s'.server.Critical ↔ s.server.Critical)
    (htimer : s'.timer.Critical ↔ s.timer.Critical) : s.timeoutsMutex.HeldBy s'.Critical :=
  h.held.congr fun t => by
    cases t with
    | server => exact hserver
    | timer => exact htimer

/-- Outside the critical section of the timer all signals are those of scans. -/
theorem signals (h : s.Refines c) (ht : ¬ s.timer.Critical) : s.signals = c.log.flatMap ClockEvent.sent := by
  obtain ⟨sig, hsig, hat⟩ := h.timerAt
  rw [hsig, (timerAt_iff_of_not_critical ht).mp hat, List.map_nil, List.append_nil]

/-- The server takes a step inside its critical section, and the service takes none. -/
theorem inSection (h : s.Refines c) (hcrit : s.server.Critical) {p : Pool ScheduleMem} {rv : List CPtr} {a : ClockServerAt}
    (hcrit' : a.Critical) (hpc : a.pc = s.server.pc) (hrecv : a.Received s.callerEp s.cspace c.cspace)
    (hpend : a.pending s.callerEp = s.server.pending s.callerEp)
    (hat : ServerAt { s with schedule := p, revoked := rv, server := a } c a) :
    Refines { s with schedule := p, revoked := rv, server := a } c where
  time := h.time
  callerEp := h.callerEp
  allocated := h.allocated
  serverPc := h.serverPc.trans hpc.symm
  timerPc := h.timerPc
  received := hrecv
  replies := by rw [h.replies, ← hpend]
  held := h.held_congr (iff_of_true hcrit' hcrit) Iff.rfl
  outside hn := absurd hcrit' hn
  serverAt := hat
  timerAt := by
    have ht := h.not_both hcrit
    exact ⟨[], by rw [h.signals ht]; simp, (timerAt_iff_of_not_critical ht).mpr rfl⟩

/-- The server takes a step outside its critical section, and the service takes none. -/
theorem outOfSection (h : s.Refines c) (hout : ¬ s.server.Critical) {cspace : CPtr → Option Cap} {replies : List ClockReply}
    {a : ClockServerAt} (hout' : ¬ a.Critical) (hpc : c.serverPc = a.pc) (hrecv : a.Received s.callerEp cspace c.cspace)
    (hrep : c.log.filter ClockEvent.isReply = replies.map ClockReply.event ++ a.pending s.callerEp) :
    Refines { s with cspace := cspace, replies := replies, server := a } c where
  time := h.time
  callerEp := h.callerEp
  allocated := h.allocated
  serverPc := hpc
  timerPc := h.timerPc
  received := hrecv
  replies := hrep
  held := h.held_congr (iff_of_false hout' hout) Iff.rfl
  outside _ := h.outside hout
  serverAt := serverAt_of_not_critical hout'
  timerAt := h.timerAt

/-- The server locks the mutex. -/
theorem serverLocks (h : s.Refines c) {m : RecursiveMutex ClockTask} (hm : s.timeoutsMutex.lock .server = some m)
    (hcrit : ¬ s.server.Critical) {a : ClockServerAt} (hcrit' : a.Critical) (hpc : a.pc = s.server.pc)
    (hrecv : a.Received s.callerEp s.cspace c.cspace) (hpend : a.pending s.callerEp = s.server.pending s.callerEp)
    (hat : s.Same c → ServerAt { s with timeoutsMutex := m, server := a } c a) :
    Refines { s with timeoutsMutex := m, server := a } c := by
  have hheld : m.HeldBy (Critical { s with timeoutsMutex := m, server := a }) := by
    refine h.held.lock hm hcrit hcrit' ?_
    intro t ht
    cases t with
    | server => exact absurd rfl ht
    | timer => exact Iff.rfl
  -- whoever has the mutex, it is not the timer
  have ht : ¬ s.timer.Critical := by
    intro ht
    cases hheld.unique (t := .server) (u := .timer) hcrit' ht
  exact ⟨h.time, h.callerEp, h.allocated, h.serverPc.trans hpc.symm, h.timerPc, hrecv, by rw [h.replies, ← hpend], hheld,
    fun hn => absurd hcrit' hn, hat (h.outside hcrit ht), h.timerAt⟩

/-- A request counts as served: the service takes its step, and adds the reply to its log. -/
theorem serves (h : s.Refines c) (hcrit : s.server.Critical) {p : Pool ScheduleMem} {m : RecursiveMutex ClockTask} {c' : Sysclock}
    {a : ClockServerAt} {ev : ClockEvent} (hev : ev.isReply = true) (htime : c'.time = c.time) (hep : c'.callerEp = c.callerEp)
    (halloc : c'.allocated = c.allocated) (htimer : c'.timerPc = c.timerPc) (hlog : c'.log = c.log ++ [ev])
    (hpc : c'.serverPc = a.pc) (hrecv : a.Received s.callerEp s.cspace c'.cspace) (hpend : s.server.pending s.callerEp = [])
    (hpend' : a.pending s.callerEp = [ev])
    (hheld : m.HeldBy (Critical { s with schedule := p, timeoutsMutex := m, server := a }))
    (hout : ¬ a.Critical → Same { s with schedule := p, timeoutsMutex := m, server := a } c')
    (hat : ServerAt { s with schedule := p, timeoutsMutex := m, server := a } c' a) :
    Refines { s with schedule := p, timeoutsMutex := m, server := a } c' where
  time := htime.trans h.time
  callerEp := hep.trans h.callerEp
  allocated := halloc.trans h.allocated
  serverPc := hpc
  timerPc := htimer.trans h.timerPc
  received := hrecv
  replies := by rw [hlog, List.filter_append, h.replies, hpend, hpend', List.append_nil, List.filter_singleton, hev]; rfl
  held := hheld
  outside hn _ := hout hn
  serverAt := hat
  timerAt := by
    have ht := h.not_both hcrit
    refine ⟨[], ?_, (timerAt_iff_of_not_critical ht).mpr rfl⟩
    have hsent : ev.sent = [] := by cases ev <;> first | rfl | cases hev
    simp [hlog, h.signals ht, hsent]

/-- The server unlocks the mutex. -/
theorem held_unlock (h : s.Refines c) (hcrit : s.server.Critical) {a : ClockServerAt} (hcrit' : ¬ a.Critical) :
    (s.timeoutsMutex.unlock .server).HeldBy
      (Critical { s with timeoutsMutex := s.timeoutsMutex.unlock .server, server := a }) := by
  refine h.held.unlock hcrit hcrit' ?_
  intro t ht
  cases t with
  | server => exact absurd rfl ht
  | timer => exact Iff.rfl

/-! ### The server -/

variable {periodMs : Word}

/-- The service carries out a request that it waits for. -/
theorem serve_ok (hr : (sysclockMachine periodMs).Reachable c) (hpc : c.serverPc = .waiting) (badge : Word) (r : ClockRequest) :
    ∃ c', c.serve badge r = .ok c' := by
  obtain ⟨⟨free, live, hinv⟩, -⟩ := sysclock_safe hr
  obtain ⟨c', hc', -⟩ := hinv.serve hpc badge r
  exact ⟨c', hc'⟩

/-- A thread that goes on from `lock` has the mutex. -/
theorem of_lock {t : ClockTask} {next : ClockThreads} (hst : s.lock t next = .next s') :
    ∃ m, s.timeoutsMutex.lock t = some m ∧ s' = { next with timeoutsMutex := m } := by
  unfold ClockThreads.lock at hst
  split at hst
  · cases hst
  · rename_i m hm
    cases hst
    exact ⟨m, hm, rfl⟩

/-- A SET_TIMEOUT, at the allocation of an entry. -/
theorem setAlloc (h : s.Refines c) {badge periodic timeoutMs : Word} {cap : Cap}
    (hs : s.server = .set badge periodic timeoutMs cap .alloc) (hst : s.setStep badge periodic timeoutMs cap .alloc = .next s') :
    ∃ c', (sysclockMachine periodMs).Leads c c' ∧ s'.Refines c' := by
  have hsame := h.serverAt
  have hrecv := h.received
  have hpc := h.serverPc
  rw [hs] at hsame hrecv hpc
  have hcrit : s.server.Critical := by
    rw [hs]
    exact SetPc.noConfusion
  obtain ⟨hnone, hcspace⟩ := hrecv
  simp only [setStep, Outcome.ofExcept_eq_next] at hst
  obtain ⟨⟨newEntry, schedule⟩, halloc, hst⟩ := bind_ok hst
  cases newEntry with
  | some el =>
    cases hst
    refine ⟨c, .refl c, h.inSection hcrit (p := schedule) SetPc.noConfusion ?_ ⟨hnone, hcspace⟩ ?_ ⟨?_, hsame.2⟩⟩
    · rw [hs]
      rfl
    · rw [hs]
      rfl
    · rw [hsame.1]
      exact halloc
  | none =>
    cases hst
    -- no entry: the service refuses the request here
    have hserve : (sysclockMachine periodMs).step c (.request badge (.setTimeout periodic timeoutMs cap)) = .next { c with
        cspace := s.cspace, schedule := schedule, serverPc := .allocSlot, log := c.log ++ [.refused badge] } := by
      rw [← h.callerEp] at hnone hcspace
      rw [← hsame.1] at halloc
      simp [sysclockMachine, Sysclock.step, hpc, ClockServerAt.pc, Sysclock.serve, Sysclock.receiveCap, hnone, Sysclock.setTimeout,
        halloc, hcspace]
    refine ⟨_, .of_step _ hserve, ?_⟩
    refine h.serves hcrit rfl rfl rfl rfl rfl rfl rfl rfl ?_ rfl (h.held_congr (iff_of_true SetPc.noConfusion hcrit) Iff.rfl)
      (fun hn => absurd SetPc.noConfusion hn) ⟨rfl, hsame.2⟩
    rw [hs]
    rfl

/-- A SET_TIMEOUT, at the read of the clock: the service carries out the request here. -/
theorem setTime (h : s.Refines c) {badge periodic timeoutMs : Word} {cap : Cap} {el : Ptr}
    (hs : s.server = .set badge periodic timeoutMs cap (.time el))
    (hst : s.setStep badge periodic timeoutMs cap (.time el) = .next s') :
    ∃ c', (sysclockMachine periodMs).Leads c c' ∧ s'.Refines c' := by
  have hat := h.serverAt
  have hrecv := h.received
  have hpc := h.serverPc
  rw [hs] at hat hrecv hpc
  have hcrit : s.server.Critical := by
    rw [hs]
    exact SetPc.noConfusion
  obtain ⟨hnone, hcspace⟩ := hrecv
  obtain ⟨halloc, hrevoked⟩ := hat
  simp only [setStep, Outcome.ofExcept_eq_next] at hst
  obtain ⟨_, hcheck, hst⟩ := bind_ok hst
  cases hst
  let entry : TimeoutEntry :=
    { caller := badge, aep := s.callerEp, periodic := periodic, period := timeoutMs, nextEvent := s.time + timeoutMs }
  have hserve : (sysclockMachine periodMs).step c (.request badge (.setTimeout periodic timeoutMs cap)) = .next { c with
      cspace := s.cspace
      schedule := { s.schedule with mem := Function.update s.schedule.mem el entry }
      serverPc := .allocSlot
      log := c.log ++ [.set badge cap periodic timeoutMs s.callerEp s.time] } := by
    simp [sysclockMachine, Sysclock.step, hpc, ClockServerAt.pc, Sysclock.serve, Sysclock.receiveCap, hnone, Sysclock.setTimeout,
      halloc, hcspace, of_check_ok hcheck, h.callerEp, h.time, entry]
  refine ⟨_, .of_step _ hserve, ?_⟩
  refine h.serves hcrit rfl rfl rfl rfl rfl rfl rfl rfl ?_ rfl (h.held_congr (iff_of_true SetPc.noConfusion hcrit) Iff.rfl)
    (fun hn => absurd SetPc.noConfusion hn) ⟨rfl, hrevoked⟩
  rw [hs]
  rfl

/-- A SET_TIMEOUT, at the stores to the new entry. -/
theorem setStore (h : s.Refines c) {badge periodic timeoutMs : Word} {cap : Cap} {el : Ptr} {insertTime : Word}
    (hs : s.server = .set badge periodic timeoutMs cap (.store el insertTime))
    (hst : s.setStep badge periodic timeoutMs cap (.store el insertTime) = .next s') : s'.Refines c := by
  have hat := h.serverAt
  have hrecv := h.received
  rw [hs] at hat hrecv
  simp only [setStep, Outcome.next.injEq] at hst
  subst hst
  refine h.inSection ?_ SetPc.noConfusion ?_ hrecv ?_ hat
  · rw [hs]
    exact SetPc.noConfusion
  · rw [hs]
    rfl
  · rw [hs]
    rfl

/-- A step of the server in a SET_TIMEOUT. -/
theorem setStep (h : s.Refines c) {badge periodic timeoutMs : Word} {cap : Cap} {pc : SetPc}
    (hs : s.server = .set badge periodic timeoutMs cap pc) (hst : s.setStep badge periodic timeoutMs cap pc = .next s') :
    ∃ c', (sysclockMachine periodMs).Leads c c' ∧ s'.Refines c' := by
  cases pc with
  | lock =>
    have hrecv := h.received
    rw [hs] at hrecv
    obtain ⟨m, hm, rfl⟩ := of_lock hst
    refine ⟨c, .refl c, h.serverLocks hm ?_ SetPc.noConfusion ?_ hrecv ?_ fun hsame => hsame⟩
    · rw [hs]
      exact fun hne => hne rfl
    · rw [hs]
      rfl
    · rw [hs]
      rfl
  | alloc => exact h.setAlloc hs hst
  | time el => exact h.setTime hs hst
  | store el insertTime => exact ⟨c, .refl c, h.setStore hs hst⟩
  | unlock mrs =>
    have hat := h.serverAt
    have hrecv := h.received
    have hpc := h.serverPc
    have hrep := h.replies
    rw [hs] at hat hrecv hpc hrep
    have hcrit : s.server.Critical := by
      rw [hs]
      exact SetPc.noConfusion
    simp only [ClockThreads.setStep, Outcome.next.injEq] at hst
    subst hst
    exact ⟨c, .refl c, h.time, h.callerEp, h.allocated, hpc, h.timerPc, hrecv, hrep, h.held_unlock hcrit not_false, fun _ _ => hat,
      trivial, h.timerAt⟩

/-! The loop of a CANCEL_TIMEOUT. -/

/-- At an entry of the loop: what is left to do is to go on from there, or to release the entry first. -/
theorem cancelVisit (h : s.Refines c) {badge id : Word} {entry : Ptr} (hs : s.server = .cancel badge id (.visit (some entry)))
    (hst : s.cancelStep badge id (.visit (some entry)) = .next s') : s'.Refines c := by
  have hat := h.serverAt
  have hrecv := h.received
  rw [hs] at hat hrecv
  obtain ⟨res, k, hloop, hrest⟩ := hat
  have hcrit : s.server.Critical := by
    rw [hs]
    exact CancelPc.noConfusion
  cases k with
  | zero => cases hrest
  | succ k =>
    rw [cancelLoop] at hrest
    simp only [cancelStep] at hst
    split at hst
    · rename_i haep
      cases hst
      rw [if_pos haep] at hrest
      refine h.inSection hcrit CancelPc.noConfusion ?_ hrecv ?_ ⟨res, k, hloop, hrest⟩
      · rw [hs]
        rfl
      · rw [hs]
        rfl
    · rename_i haep
      cases hst
      rw [if_neg haep] at hrest
      refine h.inSection hcrit CancelPc.noConfusion ?_ hrecv ?_ ⟨res, k, hloop, hrest⟩
      · rw [hs]
        rfl
      · rw [hs]
        rfl

/-- The loop has ended: the service carries out the request here, and its loop has the same result. -/
theorem cancelEnd (h : s.Refines c) {badge id : Word} (hs : s.server = .cancel badge id (.visit none))
    (hst : s.cancelStep badge id (.visit none) = .next s') :
    ∃ c', (sysclockMachine periodMs).Leads c c' ∧ s'.Refines c' := by
  have hat := h.serverAt
  have hrecv := h.received
  have hpc := h.serverPc
  rw [hs] at hat hrecv hpc
  obtain ⟨res, k, hloop, hrest⟩ := hat
  have hres : res = (s.schedule, s.revoked) := by
    cases k <;>
    · cases hrest
      rfl
  have hcrit : s.server.Critical := by
    rw [hs]
    exact CancelPc.noConfusion
  simp only [cancelStep, Outcome.next.injEq] at hst
  subst hst hres
  have hserve : (sysclockMachine periodMs).step c (.request badge (.cancelTimeout id)) = .next { c with
      schedule := s.schedule, revoked := s.revoked, log := c.log ++ [.cancel id 1] } := by
    simp [sysclockMachine, Sysclock.step, hpc, ClockServerAt.pc, Sysclock.serve, Sysclock.cancelTimeout, hloop]
  refine ⟨_, .of_step _ hserve, ?_⟩
  refine h.serves hcrit rfl rfl rfl rfl rfl rfl ?_ hrecv ?_ rfl (h.held_unlock hcrit not_false) (fun _ => ⟨rfl, rfl⟩) trivial
  · exact hpc
  · rw [hs]
    rfl

/-- A step of the server in a CANCEL_TIMEOUT. -/
theorem cancelStep (h : s.Refines c) (hr : (sysclockMachine periodMs).Reachable c) {badge id : Word} {pc : CancelPc}
    (hs : s.server = .cancel badge id pc) (hst : s.cancelStep badge id pc = .next s') :
    ∃ c', (sysclockMachine periodMs).Leads c c' ∧ s'.Refines c' := by
  have hat := h.serverAt
  have hrecv := h.received
  have hpc := h.serverPc
  rw [hs] at hat hrecv hpc
  have hpc' : CancelPc.lock ≠ pc → s.server.Critical := by
    intro hne
    rw [hs]
    exact hne.symm
  have hpend : ∀ pc', (ClockServerAt.cancel badge id pc').pending s.callerEp = s.server.pending s.callerEp := by
    intro pc'
    rw [hs]
    rfl
  have hat' : ∀ pc', (ClockServerAt.cancel badge id pc').pc = s.server.pc := by
    intro pc'
    rw [hs]
    rfl
  cases pc with
  | lock =>
    obtain ⟨m, hm, rfl⟩ := of_lock hst
    refine ⟨c, .refl c, h.serverLocks hm ?_ CancelPc.noConfusion (hat' _) hrecv (hpend _) fun hsame => hsame⟩
    rw [hs]
    exact fun hne => hne rfl
  | first =>
    simp only [ClockThreads.cancelStep, Outcome.next.injEq] at hst
    subst hst
    obtain ⟨c', hserve⟩ := serve_ok hr hpc badge (.cancelTimeout id)
    obtain ⟨res, hloop, -⟩ := bind_ok hserve
    refine ⟨c, .refl c, h.inSection (hpc' CancelPc.noConfusion) CancelPc.noConfusion (hat' _) hrecv (hpend _)
      ⟨res, c.fuel, hloop, ?_⟩⟩
    rw [← hat.1, ← hat.2]
    exact hloop
  | visit entry =>
    cases entry with
    | none => exact h.cancelEnd hs hst
    | some entry => exact ⟨c, .refl c, h.cancelVisit hs hst⟩
  | free entry =>
    obtain ⟨res, k, hloop, hrest⟩ := hat
    simp only [ClockThreads.cancelStep, Outcome.ofExcept_eq_next] at hst
    obtain ⟨⟨error, p⟩, hfree, hst⟩ := bind_ok hst
    obtain ⟨_, hcheck, hst⟩ := bind_ok hst
    cases hst
    rw [hfree, ok_bind] at hrest
    obtain ⟨_, -, hrest⟩ := bind_ok hrest
    exact ⟨c, .refl c, h.inSection (hpc' CancelPc.noConfusion) CancelPc.noConfusion (hat' _) hrecv (hpend _) ⟨res, k, hloop, hrest⟩⟩
  | revoke entry toutAep =>
    obtain ⟨res, k, hloop, hrest⟩ := hat
    simp only [ClockThreads.cancelStep, Outcome.next.injEq] at hst
    subst hst
    exact ⟨c, .refl c, h.inSection (hpc' CancelPc.noConfusion) CancelPc.noConfusion (hat' _) hrecv (hpend _) ⟨res, k, hloop, hrest⟩⟩

/-- A step of the server in a GET_TIME: the service carries out the request here, whatever the timer is doing. -/
theorem getTime (h : s.Refines c) {badge : Word} (hs : s.server = .getTime badge) :
    ∃ c', (sysclockMachine periodMs).Leads c c' ∧ Refines { s with server := .reply badge .getTime [s.time] } c' := by
  have hrecv := h.received
  have hpc := h.serverPc
  have hrep := h.replies
  rw [hs] at hrecv hpc hrep
  have hout : ¬ s.server.Critical := by
    rw [hs]
    exact not_false
  refine ⟨{ c with log := c.log ++ [.getTime c.time] }, .of_step (.request badge .getTime) ?_, ?_⟩
  · simp [sysclockMachine, Sysclock.step, hpc, ClockServerAt.pc, Sysclock.serve, pure, Except.pure]
  obtain ⟨sig, hsig, hat⟩ := h.timerAt
  refine ⟨h.time, h.callerEp, h.allocated, hpc, h.timerPc, hrecv, ?_, ?_, ?_, trivial, sig, ?_, hat⟩
  · rw [List.filter_append, hrep, List.append_assoc, h.time]
    rfl
  · exact h.held_congr (iff_of_false not_false hout) Iff.rfl
  · exact fun _ => h.outside hout
  · simp [hsig, ClockEvent.sent]

/-- The server replies. -/
theorem reply (h : s.Refines c) {badge : Word} {request : ClockRequest} {mrs : List Word}
    (hs : s.server = .reply badge request mrs) (hst : s.serverStep = .next s') : s'.Refines c := by
  have hrecv := h.received
  have hpc := h.serverPc
  have hrep := h.replies
  rw [hs] at hrecv hpc hrep
  simp only [serverStep, hs, Outcome.next.injEq] at hst
  have hout : ¬ s.server.Critical := by
    rw [hs]
    exact not_false
  have hrep' : c.log.filter ClockEvent.isReply =
      (s.replies ++ [(⟨badge, request, mrs⟩ : ClockReply)]).map ClockReply.event ++ [] := by
    rw [hrep, List.map_append, List.append_nil]
    rfl
  subst hst
  cases request with
  | setTimeout periodic timeoutMs cap => exact h.outOfSection hout not_false hpc hrecv hrep'
  | cancelTimeout id => exact h.outOfSection hout not_false hpc hrecv hrep'
  | getTime => exact h.outOfSection hout not_false hpc hrecv hrep'

/-- A step of the server. -/
theorem serverStep (h : s.Refines c) (hr : (sysclockMachine periodMs).Reachable c) (hst : s.serverStep = .next s') :
    ∃ c', (sysclockMachine periodMs).Leads c c' ∧ s'.Refines c' := by
  cases hs : s.server with
  | allocSlot | recv =>
    simp only [ClockThreads.serverStep, hs] at hst
    cases hst
  | set badge periodic timeoutMs cap pc =>
    simp only [ClockThreads.serverStep, hs] at hst
    exact h.setStep hs hst
  | cancel badge id pc =>
    simp only [ClockThreads.serverStep, hs] at hst
    exact h.cancelStep hr hs hst
  | getTime badge =>
    simp only [ClockThreads.serverStep, hs, Outcome.next.injEq] at hst
    exact hst ▸ h.getTime hs
  | reply badge request mrs => exact ⟨c, .refl c, h.reply hs hst⟩

/-- The server takes a slot. -/
theorem allocSlot (h : s.Refines c) {slot : CPtr} (hst : s.step periodMs (.allocSlot slot) = .next s') :
    ∃ c', (sysclockMachine periodMs).Leads c c' ∧ s'.Refines c' := by
  simp only [ClockThreads.step, Outcome.guard_eq_next, Outcome.next.injEq] at hst
  obtain ⟨⟨hs, hne, hnew, hempty⟩, rfl⟩ := hst
  have hrecv := h.received
  have hpc := h.serverPc
  have hrep := h.replies
  rw [hs] at hrecv hpc hrep
  have hout : ¬ s.server.Critical := by
    rw [hs]
    exact not_false
  have hslot : (sysclockMachine periodMs).step c (.allocSlot slot) = .next { c with
      callerEp := slot, allocated := slot :: c.allocated, serverPc := .waiting } := by
    refine if_pos ⟨hpc, hne, ?_, ?_⟩
    · rw [h.allocated]
      exact hnew
    · rw [← show s.cspace = c.cspace from hrecv]
      exact hempty
  refine ⟨_, .of_step _ hslot, ?_⟩
  refine ⟨h.time, rfl, congrArg _ h.allocated, rfl, h.timerPc, hrecv, hrep, ?_, ?_, trivial, h.timerAt⟩
  · exact h.held_congr (iff_of_false not_false hout) Iff.rfl
  · exact fun _ => h.outside hout

/-- The server receives a request. -/
theorem receive (h : s.Refines c) {badge : Word} {r : ClockRequest} (hst : s.step periodMs (.request badge r) = .next s') :
    s'.Refines c := by
  simp only [ClockThreads.step, Outcome.guard_eq_next, Outcome.ofExcept_eq_next] at hst
  obtain ⟨hs, hst⟩ := hst
  have hrecv := h.received
  have hpc := h.serverPc
  have hrep := h.replies
  rw [hs] at hrecv hpc hrep
  have hout : ¬ s.server.Critical := by
    rw [hs]
    exact not_false
  cases r with
  | setTimeout periodic timeoutMs cap =>
    obtain ⟨_, hcheck, hst⟩ := bind_ok hst
    cases hst
    have hnone : s.cspace s.callerEp = none := by
      by_contra hsome
      have := of_check_ok hcheck
      rw [if_neg hsome] at this
      cases this
    have hcspace : s.cspace = c.cspace := hrecv
    refine h.outOfSection hout (fun hne => hne rfl) hpc ⟨hcspace ▸ hnone, ?_⟩ hrep
    rw [← hcspace]
  | cancelTimeout id =>
    cases hst
    exact h.outOfSection hout (fun hne => hne rfl) hpc hrecv hrep
  | getTime =>
    cases hst
    exact h.outOfSection hout not_false hpc hrecv hrep

end Refines

end ClockThreads

end Sel4Osapi
