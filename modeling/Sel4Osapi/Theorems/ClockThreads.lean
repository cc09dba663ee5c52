import Sel4Osapi.Lemmas.ClockRefinesTimer
import Sel4Osapi.Theorems.Clock

/-!
# The critical sections of the clock service are atomic

Every run of the two threads of the clock, access by access, is a run of the service whose critical sections are one step each, and
whatever the service can do, the two threads can: `sysclock_sections_atomic`. The first direction is the simulation of
`Sel4Osapi.Lemmas.ClockRefines`. For the other one, the threads take turns: a thread enters its critical section while the other one
waits outside, and goes through the loop entry by entry.
-/

namespace Sel4Osapi

open Transition Waiting

namespace ClockThreads

variable {s : ClockThreads}

/-! ## Every run of the threads is a run of the service -/

/-- The threads start where the service does. -/
theorem Init.refines (h : s.Init) : ∃ c : Sysclock, c.Init ∧ s.Refines c := by
  refine ⟨⟨s.time, s.schedule, .allocSlot, s.callerEp, .waiting, [], s.cspace, [], []⟩,
    ⟨h.time, h.schedule, rfl, rfl, rfl, rfl, rfl⟩, ?_⟩
  have hserver : ¬ s.server.Critical := by
    rw [h.server]
    exact not_false
  have htimer : ¬ s.timer.Critical := by
    rw [h.timer]
    exact not_false
  refine ⟨rfl, rfl, h.allocated.symm, ?_, ?_, ?_, ?_, ?_, fun _ _ => ⟨rfl, h.revoked.symm⟩, serverAt_of_not_critical hserver, [], ?_,
    (timerAt_iff_of_not_critical htimer).mpr rfl⟩
  · rw [h.server]
    rfl
  · rw [h.timer]
    rfl
  · rw [h.server]
    rfl
  · rw [h.server, h.replies]
    rfl
  · rw [h.timeoutsMutex]
    refine .free fun t => ?_
    cases t with
    | server => exact hserver
    | timer => exact htimer
  · rw [h.signals]
    rfl

/-- Every run of the threads is a run of the service. -/
theorem exists_refines {periodMs : Word} (hr : (clockThreadsMachine periodMs).Reachable s) :
    ∃ c, (sysclockMachine periodMs).Reachable c ∧ s.Refines c :=
  hr.simulated Refines (fun _ hi => Init.refines hi) fun _ _ _ _ hc h hst => h.step hc hst

end ClockThreads

/-! ## Every run of the service is a run of the threads -/

/-- Where the server waits for what comes next. -/
def ClockServerPc.rest : ClockServerPc → ClockServerAt
  | .allocSlot => .allocSlot
  | .waiting => .recv

/-- Where the timer waits for what comes next. -/
def ClockTimerPc.rest : ClockTimerPc → ClockTimerAt
  | .waiting => .wait
  | .scanning => .lock

/-- The threads in the state of the service, outside their critical sections and with these replies sent. -/
def Sysclock.threads (c : Sysclock) (replies : List ClockReply) : ClockThreads where
  time := c.time
  schedule := c.schedule
  timeoutsMutex := .free
  server := c.serverPc.rest
  callerEp := c.callerEp
  timer := c.timerPc.rest
  allocated := c.allocated
  cspace := c.cspace
  revoked := c.revoked
  replies := replies
  signals := c.log.flatMap ClockEvent.sent

/-- The server in its critical section, with the capability of a SET_TIMEOUT in its slot. -/
def Sysclock.locked (c : Sysclock) (replies : List ClockReply) (cap : Cap) : ClockThreads :=
  { c.threads replies with
    cspace := Function.update c.cspace c.callerEp (some cap), timeoutsMutex := { owner := some .server, count := 1 } }

namespace ClockThreads

variable {s : ClockThreads}

/-- Both threads wait for what comes next. -/
def AtRest (s : ClockThreads) : Prop := (s.server = .allocSlot ∨ s.server = .recv) ∧ (s.timer = .wait ∨ s.timer = .lock)

/-- With both threads at rest, the state is that of the service. -/
theorem Refines.eq_threads {c : Sysclock} (h : s.Refines c) (hrest : s.AtRest) : s = c.threads s.replies := by
  have hserver : ¬ s.server.Critical := by
    rcases hrest.1 with hs | hs <;>
    · rw [hs]
      exact not_false
  have htimer : ¬ s.timer.Critical := by
    rcases hrest.2 with hs | hs <;>
    · rw [hs]
      exact not_false
  have hmutex : s.timeoutsMutex = .free := by
    refine h.held.eq_free fun t => ?_
    cases t with
    | server => exact hserver
    | timer => exact htimer
  have hsame := h.outside hserver htimer
  have hserverPc : s.server = c.serverPc.rest := by
    rw [h.serverPc]
    rcases hrest.1 with hs | hs <;>
    · rw [hs]
      rfl
  have htimerPc : s.timer = c.timerPc.rest := by
    rw [h.timerPc]
    rcases hrest.2 with hs | hs <;>
    · rw [hs]
      rfl
  have hcspace : s.cspace = c.cspace := by
    have hrecv := h.received
    rcases hrest.1 with hs | hs <;>
    · rw [hs] at hrecv
      exact hrecv
  rw [Sysclock.threads, h.time, hsame.1, hsame.2, h.callerEp, h.allocated, ← hserverPc, ← htimerPc, ← hcspace, ← h.signals htimer,
    ← hmutex]

section runs

variable {periodMs : Word}

/-- The loop of a CANCEL_TIMEOUT, entry by entry. -/
theorem leads_cancelLoop {badge id : Word} {k : Nat} {entry : Option Ptr} {schedule : Pool ScheduleMem}
    {revoked : List CPtr} (hs : s.server = .cancel badge id (.visit entry))
    (hloop : cancelLoop id k entry s.schedule s.revoked = .ok (schedule, revoked)) :
    (clockThreadsMachine periodMs).Leads s
      { s with schedule := schedule, revoked := revoked, server := .cancel badge id (.visit none) } := by
  induction k generalizing s entry with
  | zero =>
    cases entry with
    | none =>
      cases hloop
      rw [← hs]
      exact .refl s
    | some entry => cases hloop
  | succ k ih =>
    cases entry with
    | none =>
      cases hloop
      rw [← hs]
      exact .refl s
    | some entry =>
      rw [cancelLoop] at hloop
      by_cases haep : (s.schedule.mem (s.schedule.nodes entry).el).aep = id
      · rw [if_pos haep] at hloop
        obtain ⟨⟨error, p⟩, hfree, hloop⟩ := bind_ok hloop
        obtain ⟨_, hcheck, hloop⟩ := bind_ok hloop
        have hvisit : (clockThreadsMachine periodMs).step s .server = .next { s with server := .cancel badge id (.free entry) } := by
          simp [clockThreadsMachine, step, serverStep, cancelStep, hs, haep]
        generalize haepEq : (s.schedule.mem (s.schedule.nodes entry).el).aep = toutAep at hloop
        have hrelease : (clockThreadsMachine periodMs).step { s with server := .cancel badge id (.free entry) } .server =
            .next { s with schedule := p, server := .cancel badge id (.revoke entry toutAep) } := by
          simp [clockThreadsMachine, step, serverStep, cancelStep, hfree, hcheck, haepEq, pure, Except.pure]
        have hrevoke : (clockThreadsMachine periodMs).step
            { s with schedule := p, server := .cancel badge id (.revoke entry toutAep) } .server =
            .next { s with
              schedule := p, revoked := s.revoked ++ [toutAep], server := .cancel badge id (.visit (some entry)) } := rfl
        exact .head _ hvisit (.head _ hrelease (.head _ hrevoke (ih rfl hloop)))
      · rw [if_neg haep] at hloop
        have hvisit : (clockThreadsMachine periodMs).step s .server =
            .next { s with server := .cancel badge id (.visit (s.schedule.nodes entry).next) } := by
          simp [clockThreadsMachine, step, serverStep, cancelStep, hs, haep]
        exact .head _ hvisit (ih rfl hloop)

/-- The loop of the timer, entry by entry. -/
theorem leads_scanLoop {sent : List (CPtr × Word)} {sig signalled revoked : List CPtr} {k : Nat} {entry : Option Ptr}
    {schedule : Pool ScheduleMem} (hs : s.timer = .visit entry) (hsig : s.signals = sent ++ sig.map fun a => (a, s.time))
    (hloop : scanLoop s.time k entry s.schedule sig s.revoked = .ok (schedule, signalled, revoked)) :
    (clockThreadsMachine periodMs).Leads s { s with
      schedule := schedule, revoked := revoked, signals := sent ++ signalled.map (fun a => (a, s.time)), timer := .visit none } := by
  induction k generalizing s entry sig with
  | zero =>
    cases entry with
    | none =>
      cases hloop
      rw [← hs, ← hsig]
      exact .refl s
    | some entry => cases hloop
  | succ k ih =>
    cases entry with
    | none =>
      cases hloop
      rw [← hs, ← hsig]
      exact .refl s
    | some entry =>
      rw [scanLoop] at hloop
      by_cases hdue : (s.schedule.mem (s.schedule.nodes entry).el).aep ≠ capNull ∧
          (s.schedule.mem (s.schedule.nodes entry).el).nextEvent ≤ s.time
      · rw [if_pos hdue] at hloop
        have hvisit : (clockThreadsMachine periodMs).step s .timer =
            .next { s with timer := .send entry (s.schedule.nodes entry).next } := by
          simp [clockThreadsMachine, step, timerStep, hs, hdue]
        generalize haep : (s.schedule.mem (s.schedule.nodes entry).el).aep = toutAep at hloop
        have hsig' : s.signals ++ [(toutAep, s.time)] = sent ++ (sig ++ [toutAep]).map fun a => (a, s.time) := by
          rw [hsig, List.map_append, List.append_assoc]
          rfl
        by_cases hperiodic : (s.schedule.mem (s.schedule.nodes entry).el).periodic ≠ 0
        · rw [if_pos hperiodic] at hloop
          have hsend : (clockThreadsMachine periodMs).step { s with timer := .send entry (s.schedule.nodes entry).next } .timer =
              .next { s with
                signals := s.signals ++ [(toutAep, s.time)], timer := .rearm entry (s.schedule.nodes entry).next } := by
            simp [clockThreadsMachine, step, timerStep, hperiodic, haep]
          let mem := Function.update s.schedule.mem (s.schedule.nodes entry).el
            { s.schedule.mem (s.schedule.nodes entry).el with
              nextEvent := s.time + (s.schedule.mem (s.schedule.nodes entry).el).period }
          have hrearm : (clockThreadsMachine periodMs).step { s with
              signals := s.signals ++ [(toutAep, s.time)], timer := .rearm entry (s.schedule.nodes entry).next } .timer =
              .next { s with
                schedule := { s.schedule with mem := mem }, signals := s.signals ++ [(toutAep, s.time)],
                timer := .visit (s.schedule.nodes entry).next } := rfl
          exact .head _ hvisit (.head _ hsend (.head _ hrearm (ih rfl hsig' hloop)))
        · rw [if_neg hperiodic] at hloop
          obtain ⟨⟨error, p⟩, hfree, hloop⟩ := bind_ok hloop
          obtain ⟨_, hcheck, hloop⟩ := bind_ok hloop
          have hsend : (clockThreadsMachine periodMs).step { s with timer := .send entry (s.schedule.nodes entry).next } .timer =
              .next { s with
                signals := s.signals ++ [(toutAep, s.time)], timer := .free entry (s.schedule.nodes entry).next } := by
            simp [clockThreadsMachine, step, timerStep, hperiodic, haep]
          have hrelease : (clockThreadsMachine periodMs).step { s with
              signals := s.signals ++ [(toutAep, s.time)], timer := .free entry (s.schedule.nodes entry).next } .timer =
              .next { s with
                schedule := p, signals := s.signals ++ [(toutAep, s.time)],
                timer := .revoke toutAep (s.schedule.nodes entry).next } := by
            simp [clockThreadsMachine, step, timerStep, hfree, hcheck, haep, pure, Except.pure]
          have hrevoke : (clockThreadsMachine periodMs).step { s with
              schedule := p, signals := s.signals ++ [(toutAep, s.time)],
              timer := .revoke toutAep (s.schedule.nodes entry).next } .timer =
              .next { s with
                schedule := p, revoked := s.revoked ++ [toutAep], signals := s.signals ++ [(toutAep, s.time)],
                timer := .visit (s.schedule.nodes entry).next } := rfl
          exact .head _ hvisit (.head _ hsend (.head _ hrelease (.head _ hrevoke (ih rfl hsig' hloop))))
      · rw [if_neg hdue] at hloop
        have hvisit : (clockThreadsMachine periodMs).step s .timer = .next { s with timer := .visit (s.schedule.nodes entry).next } := by
          simp [clockThreadsMachine, step, timerStep, hs, hdue]
        exact .head _ hvisit (ih rfl hsig hloop)

/-- The service starts where the threads do. -/
theorem threads_init {c : Sysclock} (hi : c.Init) : (c.threads []).Init := by
  refine ⟨hi.time, hi.schedule, rfl, ?_, ?_, hi.allocated, hi.revoked, rfl, ?_⟩
  · rw [Sysclock.threads, hi.serverPc]
    rfl
  · rw [Sysclock.threads, hi.timerPc]
    rfl
  · rw [Sysclock.threads, hi.log]
    rfl

/-- The server gets a SET_TIMEOUT with its capability, and locks the mutex. -/
theorem leads_setLock {c : Sysclock} {replies : List ClockReply} {cap : Cap} (hpc : c.serverPc = .waiting)
    (hslot : c.cspace c.callerEp = none) (badge periodic timeoutMs : Word) :
    (clockThreadsMachine periodMs).Leads (c.threads replies)
      { c.locked replies cap with server := .set badge periodic timeoutMs cap .alloc } := by
  have hrecv : (c.threads replies).server = .recv := by
    rw [Sysclock.threads, hpc]
    rfl
  have hreceive : (clockThreadsMachine periodMs).step (c.threads replies) (.request badge (.setTimeout periodic timeoutMs cap)) =
      .next { c.threads replies with
        cspace := Function.update c.cspace c.callerEp (some cap), server := .set badge periodic timeoutMs cap .lock } := by
    refine (if_pos hrecv).trans ?_
    simp [ClockThreads.receive, Sysclock.threads, hslot, pure, Except.pure, Outcome.ofExcept]
  exact .head _ hreceive (.of_step .server rfl)

/-- The server unlocks the mutex, and replies to the SET_TIMEOUT. -/
theorem leads_setReply {c : Sysclock} {replies : List ClockReply} {cap : Cap} (badge periodic timeoutMs : Word)
    (p : Pool ScheduleMem) (mrs : List Word) :
    (clockThreadsMachine periodMs).Leads
      { c.locked replies cap with schedule := p, server := .set badge periodic timeoutMs cap (.unlock mrs) }
      { c.locked replies cap with
        schedule := p, timeoutsMutex := .free, server := .allocSlot,
        replies := replies ++ [⟨badge, .setTimeout periodic timeoutMs cap, mrs⟩] } :=
  .head .server rfl (.of_step .server rfl)

section replies

variable {c c' : Sysclock} {replies : List ClockReply} (hrep : replies.map ClockReply.event = c.log.filter ClockEvent.isReply)

include hrep

/-- Both threads wait, and the server takes a slot. -/
theorem threads_allocSlot {slot : CPtr} (hst : (sysclockMachine periodMs).step c (.allocSlot slot) = .next c') :
    replies.map ClockReply.event = c'.log.filter ClockEvent.isReply ∧
      (clockThreadsMachine periodMs).Leads (c.threads replies) (c'.threads replies) := by
  simp only [sysclockMachine, Sysclock.step, Outcome.guard_eq_next, Outcome.next.injEq] at hst
  obtain ⟨⟨hpc, hslot⟩, rfl⟩ := hst
  refine ⟨hrep, .of_step (.allocSlot slot) (if_pos ⟨?_, hslot⟩)⟩
  rw [Sysclock.threads, hpc]
  rfl

/-- Both threads wait, and the timer advances the clock. -/
theorem threads_tick (hst : (sysclockMachine periodMs).step c .tick = .next c') :
    replies.map ClockReply.event = c'.log.filter ClockEvent.isReply ∧
      (clockThreadsMachine periodMs).Leads (c.threads replies) (c'.threads replies) := by
  simp only [sysclockMachine, Sysclock.step, Outcome.guard_eq_next, Outcome.next.injEq] at hst
  obtain ⟨hpc, rfl⟩ := hst
  have hwait : (c.threads replies).timer = .wait := by
    rw [Sysclock.threads, hpc]
    rfl
  exact ⟨hrep, .head .interrupt (if_pos hwait) (.of_step .timer rfl)⟩

/-- Both threads wait, and the timer scans the schedule. -/
theorem threads_scan (hst : (sysclockMachine periodMs).step c .scan = .next c') :
    replies.map ClockReply.event = c'.log.filter ClockEvent.isReply ∧
      (clockThreadsMachine periodMs).Leads (c.threads replies) (c'.threads replies) := by
  simp only [sysclockMachine, Sysclock.step, Outcome.guard_eq_next, Outcome.ofExcept_eq_next] at hst
  obtain ⟨hpc, hscan⟩ := hst
  obtain ⟨⟨p, sig, revoked⟩, hloop, hscan⟩ := bind_ok hscan
  cases hscan
  have hlock : (clockThreadsMachine periodMs).step (c.threads replies) .timer =
      .next { c.threads replies with timeoutsMutex := { owner := some .timer, count := 1 }, timer := .first } := by
    simp [clockThreadsMachine, step, timerStep, Sysclock.threads, hpc, ClockTimerPc.rest, ClockThreads.lock, RecursiveMutex.lock,
      RecursiveMutex.free]
  have hscanned : (clockThreadsMachine periodMs).Leads
      { c.threads replies with
        timeoutsMutex := { owner := some .timer, count := 1 }, timer := .visit c.schedule.entries }
      { c.threads replies with
        timeoutsMutex := { owner := some .timer, count := 1 }, timer := .visit none, schedule := p, revoked := revoked,
        signals := c.log.flatMap ClockEvent.sent ++ sig.map fun a => (a, c.time) } :=
    leads_scanLoop rfl (List.append_nil _).symm hloop
  refine ⟨?_, .head _ hlock (.head .timer rfl (hscanned.trans (.of_step .timer ?_)))⟩
  · rw [hrep, List.filter_append]
    simp [ClockEvent.isReply]
  · simp [clockThreadsMachine, step, timerStep, Sysclock.threads, ClockTimerPc.rest, RecursiveMutex.unlock, ClockEvent.sent]

/-- Both threads wait, and the server serves a GET_TIME. -/
theorem threads_getTime {badge : Word} (hpc : c.serverPc = .waiting) (hserve : c.serve badge .getTime = .ok c') :
    ∃ replies', replies'.map ClockReply.event = c'.log.filter ClockEvent.isReply ∧
      (clockThreadsMachine periodMs).Leads (c.threads replies) (c'.threads replies') := by
  cases hserve
  have hrecv : (c.threads replies).server = .recv := by
    rw [Sysclock.threads, hpc]
    rfl
  refine ⟨replies ++ [⟨badge, .getTime, [c.time]⟩], ?_, .head (.request badge .getTime) (if_pos hrecv)
    (.head .server rfl (.of_step .server ?_))⟩
  · rw [List.map_append, hrep, List.filter_append]
    rfl
  · simp [clockThreadsMachine, step, serverStep, Sysclock.threads, hpc, ClockServerPc.rest, ClockEvent.sent]

/-- Both threads wait, and the server serves a CANCEL_TIMEOUT. -/
theorem threads_cancelTimeout {badge id : Word} (hpc : c.serverPc = .waiting)
    (hserve : c.serve badge (.cancelTimeout id) = .ok c') :
    ∃ replies', replies'.map ClockReply.event = c'.log.filter ClockEvent.isReply ∧
      (clockThreadsMachine periodMs).Leads (c.threads replies) (c'.threads replies') := by
  obtain ⟨⟨p, revoked⟩, hloop, hserve⟩ := bind_ok hserve
  cases hserve
  have hrecv : (c.threads replies).server = .recv := by
    rw [Sysclock.threads, hpc]
    rfl
  have hcancelled : (clockThreadsMachine periodMs).Leads
      { c.threads replies with
        timeoutsMutex := { owner := some .server, count := 1 }, server := .cancel badge id (.visit c.schedule.entries) }
      { c.threads replies with
        timeoutsMutex := { owner := some .server, count := 1 }, server := .cancel badge id (.visit none), schedule := p,
        revoked := revoked } :=
    leads_cancelLoop rfl hloop
  refine ⟨replies ++ [⟨badge, .cancelTimeout id, [1]⟩], ?_, .head (.request badge (.cancelTimeout id)) (if_pos hrecv)
    (.head .server rfl (.head .server rfl (hcancelled.trans (.head .server rfl (.of_step .server ?_)))))⟩
  · rw [List.map_append, hrep, List.filter_append]
    rfl
  · simp [clockThreadsMachine, step, serverStep, Sysclock.threads, hpc, ClockServerPc.rest, ClockEvent.sent, RecursiveMutex.unlock]

/-- Both threads wait, and the server serves a SET_TIMEOUT. -/
theorem threads_setTimeout {badge periodic timeoutMs : Word} {cap : Cap} (hpc : c.serverPc = .waiting)
    (hserve : c.serve badge (.setTimeout periodic timeoutMs cap) = .ok c') :
    ∃ replies', replies'.map ClockReply.event = c'.log.filter ClockEvent.isReply ∧
      (clockThreadsMachine periodMs).Leads (c.threads replies) (c'.threads replies') := by
  cases hslot : c.cspace c.callerEp with
  | some x =>
    simp only [Sysclock.serve, Sysclock.receiveCap, hslot] at hserve
    cases hserve
  | none =>
    simp only [Sysclock.serve, Sysclock.receiveCap, hslot, check_of_true, ok_bind, Sysclock.setTimeout] at hserve
    obtain ⟨⟨newEntry, p⟩, halloc, hserve⟩ := bind_ok hserve
    cases newEntry with
    | none =>
      cases hserve
      have hfull : (clockThreadsMachine periodMs).step
          { c.locked replies cap with server := .set badge periodic timeoutMs cap .alloc } .server =
          .next { c.locked replies cap with
            schedule := p, server := .set badge periodic timeoutMs cap (.unlock [1, capNull, 0]) } := by
        simp [clockThreadsMachine, step, serverStep, setStep, Sysclock.locked, Sysclock.threads, halloc, pure, Except.pure]
      have hrun := (leads_setLock hpc hslot badge periodic timeoutMs).trans
        (.head _ hfull (leads_setReply badge periodic timeoutMs p [1, capNull, 0]))
      refine ⟨replies ++ [⟨badge, .setTimeout periodic timeoutMs cap, [1, capNull, 0]⟩], ?_, ?_⟩
      · rw [List.map_append, hrep, List.filter_append]
        rfl
      · simpa [Sysclock.threads, Sysclock.locked, ClockServerPc.rest, ClockEvent.sent] using hrun
    | some el =>
      obtain ⟨_, hcheck, hserve⟩ := bind_ok hserve
      have hblank : (p.mem el).aep = capNull := of_check_ok hcheck
      cases hserve
      have hfound : (clockThreadsMachine periodMs).step
          { c.locked replies cap with server := .set badge periodic timeoutMs cap .alloc } .server =
          .next { c.locked replies cap with schedule := p, server := .set badge periodic timeoutMs cap (.time el) } := by
        simp [clockThreadsMachine, step, serverStep, setStep, Sysclock.locked, Sysclock.threads, halloc, pure, Except.pure]
      have htime : (clockThreadsMachine periodMs).step
          { c.locked replies cap with schedule := p, server := .set badge periodic timeoutMs cap (.time el) } .server =
          .next { c.locked replies cap with schedule := p, server := .set badge periodic timeoutMs cap (.store el c.time) } := by
        simp [clockThreadsMachine, step, serverStep, setStep, Sysclock.locked, Sysclock.threads, hblank, pure, Except.pure]
      have hrun := (leads_setLock hpc hslot badge periodic timeoutMs).trans
        (.head _ hfound (.head _ htime (.head .server rfl (leads_setReply badge periodic timeoutMs _ [0, c.callerEp, c.time]))))
      refine ⟨replies ++ [⟨badge, .setTimeout periodic timeoutMs cap, [0, c.callerEp, c.time]⟩], ?_, ?_⟩
      · rw [List.map_append, hrep, List.filter_append]
        rfl
      · simpa [Sysclock.threads, Sysclock.locked, ClockServerPc.rest, ClockEvent.sent] using hrun

/-- What the service does, the threads do. -/
theorem threads_step {a : ClockAction} (hst : (sysclockMachine periodMs).step c a = .next c') :
    ∃ replies', replies'.map ClockReply.event = c'.log.filter ClockEvent.isReply ∧
      (clockThreadsMachine periodMs).Leads (c.threads replies) (c'.threads replies') := by
  cases a with
  | allocSlot slot => exact ⟨replies, threads_allocSlot hrep hst⟩
  | request badge r =>
    simp only [sysclockMachine, Sysclock.step, Outcome.guard_eq_next, Outcome.ofExcept_eq_next] at hst
    cases r with
    | setTimeout periodic timeoutMs cap => exact threads_setTimeout hrep hst.1 hst.2
    | cancelTimeout id => exact threads_cancelTimeout hrep hst.1 hst.2
    | getTime => exact threads_getTime hrep hst.1 hst.2
  | tick => exact ⟨replies, threads_tick hrep hst⟩
  | scan => exact ⟨replies, threads_scan hrep hst⟩

end replies

/-- Every state of the service is one that the threads reach. -/
theorem exists_threads {c : Sysclock} (hr : (sysclockMachine periodMs).Reachable c) :
    ∃ replies, replies.map ClockReply.event = c.log.filter ClockEvent.isReply ∧
      (clockThreadsMachine periodMs).Reachable (c.threads replies) := by
  obtain ⟨s, hs, replies, hrep, rfl⟩ : ∃ s, (clockThreadsMachine periodMs).Reachable s ∧
      ∃ replies, replies.map ClockReply.event = c.log.filter ClockEvent.isReply ∧ s = c.threads replies := by
    refine hr.simulated (fun c s => ∃ replies, replies.map ClockReply.event = c.log.filter ClockEvent.isReply ∧ s = c.threads replies)
      ?_ ?_
    · intro c hi
      refine ⟨c.threads [], threads_init hi, [], ?_, rfl⟩
      rw [hi.log]
      rfl
    · rintro c a c' s - ⟨replies, hrep, rfl⟩ hst
      obtain ⟨replies', hrep', hleads⟩ := threads_step hrep hst
      exact ⟨_, hleads, replies', hrep', rfl⟩
  exact ⟨replies, hrep, hs⟩

end runs

end ClockThreads

/-- The critical sections of the clock are atomic: every state that the threads reach, access by access and in any order, refines a
state of the service, in which a request and a scan are one step each, and it is that state when both threads wait. No step of
theirs fails, and every state of the service is one that they reach. -/
theorem sysclock_sections_atomic (periodMs : Word) :
    (∀ s, (clockThreadsMachine periodMs).Reachable s →
      (∃ c, (sysclockMachine periodMs).Reachable c ∧ s.Refines c ∧ (s.AtRest → s = c.threads s.replies)) ∧
      ∀ a f, (clockThreadsMachine periodMs).step s a ≠ .fault f) ∧
    ∀ c, (sysclockMachine periodMs).Reachable c →
      ∃ replies, replies.map ClockReply.event = c.log.filter ClockEvent.isReply ∧
        (clockThreadsMachine periodMs).Reachable (c.threads replies) := by
  refine ⟨?_, fun c hc => ClockThreads.exists_threads hc⟩
  intro s hs
  obtain ⟨c, hc, href⟩ := ClockThreads.exists_refines hs
  exact ⟨⟨c, hc, href, href.eq_threads⟩, href.no_fault hc⟩

/-- A run in which the clock advances inside the critical section of a SET_TIMEOUT. -/
theorem exists_advancedInSet : ∃ s, (clockThreadsMachine 1).Reachable s ∧
    s.server = .set 7 0 50 3 .alloc ∧ s.timer = .lock ∧ s.time = 1 := by
  obtain ⟨c, hi, hcspace, -⟩ := exists_sysclock_init
  have hrun := (Machine.Reachable.init (ClockThreads.threads_init hi)).exists_of_exec (M := clockThreadsMachine 1)
    [.allocSlot 1, .request 7 (.setTimeout 0 50 3), .server, .interrupt, .timer]
    (fun s => decide (s.server = .set 7 0 50 3 .alloc ∧ s.timer = .lock ∧ s.time = 1))
  obtain ⟨s, hs, hat⟩ := hrun (by
    simp [Machine.exec, clockThreadsMachine, ClockThreads.step, ClockThreads.receive, ClockThreads.serverStep, ClockThreads.setStep,
      ClockThreads.timerStep, ClockThreads.lock, RecursiveMutex.lock, RecursiveMutex.free, Sysclock.threads, hi.serverPc, hi.timerPc,
      hi.allocated, hi.time, hcspace, ClockServerPc.rest, ClockTimerPc.rest, capNull, Outcome.guard, Outcome.ofExcept, check,
      Functor.map, Except.map])
  exact ⟨s, hs, of_decide_eq_true hat⟩

/-- The service that it refines has advanced its clock, and has the request before it. -/
theorem sysclock_sections_atomic_advancedInSet : ∃ s c, (clockThreadsMachine 1).Reachable s ∧ (sysclockMachine 1).Reachable c ∧
    s.Refines c ∧ s.server = .set 7 0 50 3 .alloc ∧ c.time = 1 ∧ c.timerPc = .scanning ∧ c.serverPc = .waiting ∧
    ∃ replies, (clockThreadsMachine 1).Reachable (c.threads replies) := by
  obtain ⟨s, hs, hserver, htimer, htime⟩ := exists_advancedInSet
  obtain ⟨⟨c, hc, href, -⟩, -⟩ := (sysclock_sections_atomic 1).1 s hs
  obtain ⟨replies, -, hthreads⟩ := (sysclock_sections_atomic 1).2 c hc
  refine ⟨s, c, hs, hc, href, hserver, href.time.trans htime, ?_, ?_, replies, hthreads⟩
  · rw [href.timerPc, htimer]
    rfl
  · rw [href.serverPc, hserver]
    rfl

end Sel4Osapi
