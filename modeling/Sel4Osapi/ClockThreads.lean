import Sel4Osapi.Clock
import Sel4Osapi.Lib.Waiting

/-!
# clock.c: the two threads, access by access

`Sel4Osapi.Clock` takes the service of a request, and the scan of the schedule, as one step each. Here the server and the timer
take a step at every access to what they share: `timeouts_mutex`, the clock, an entry of the schedule, an operation of the pool,
a signal, a revocation, and the messages. A run is any interleaving of these steps. The mutex orders the accesses to the
schedule, but not those to the clock: the timer advances it without the mutex, also while the server adds a timeout.

The other thread does not run between `simple_pool_free` and its assertion, or between the stores to a new entry: those are
accesses to what the mutex protects with nothing else in between. The first read of the clock in SYSCLOCK_OP_SET_TIMEOUT, before
the lock, is left out: what it reads is overwritten on both ways to the reply.
-/

namespace Sel4Osapi

open Transition Waiting

/-- The threads that lock `timeouts_mutex`. -/
inductive ClockTask where
  | server
  | timer
  deriving DecidableEq, Repr

/-- Where the server stands in SYSCLOCK_OP_SET_TIMEOUT: about to do what the name says. -/
inductive SetPc where
  | lock
  /-- `simple_pool_alloc(schedule)` -/
  | alloc
  /-- the assertion on the new entry, and the read of the clock -/
  | time (newEntry : Ptr)
  /-- the stores to the new entry -/
  | store (newEntry : Ptr) (insertTime : Word)
  /-- with the message registers of the reply -/
  | unlock (mrs : List Word)
  deriving DecidableEq, Repr

/-- Where the server stands in SYSCLOCK_OP_CANCEL_TIMEOUT. -/
inductive CancelPc where
  | lock
  /-- reads the head of the schedule -/
  | first
  /-- at the head of the loop -/
  | visit (entry : Option Ptr)
  /-- `simple_pool_free`, on the element of the entry -/
  | free (entry : Ptr)
  | revoke (entry : Ptr) (toutAep : CPtr)
  deriving DecidableEq, Repr

/-- Where the server thread stands, with what it has got of the request. -/
inductive ClockServerAt where
  | allocSlot
  /-- in `seL4_Recv` -/
  | recv
  | set (badge periodic timeoutMs : Word) (callbackAep : Cap) (pc : SetPc)
  | cancel (badge timeoutId : Word) (pc : CancelPc)
  | getTime (badge : Word)
  | reply (badge : Word) (request : ClockRequest) (mrs : List Word)
  deriving DecidableEq, Repr

/-- Where the timer thread stands. -/
inductive ClockTimerAt where
  /-- in `seL4_Wait(timer_aep)` -/
  | wait
  /-- `sysclock->time += SEL4OSAPI_SYSCLOCK_PERIOD_MS` -/
  | advance
  | lock
  /-- reads the head of the schedule -/
  | first
  /-- at the head of the loop -/
  | visit (entry : Option Ptr)
  /-- `seL4_Send(timeout->aep)` -/
  | send (entry : Ptr) (next : Option Ptr)
  /-- sets a periodic timeout again -/
  | rearm (entry : Ptr) (next : Option Ptr)
  | free (entry : Ptr) (next : Option Ptr)
  | revoke (toutAep : CPtr) (next : Option Ptr)
  deriving DecidableEq, Repr

/-- A reply: whom and what it answers, and its message registers. -/
structure ClockReply where
  badge : Word
  request : ClockRequest
  mrs : List Word
  deriving DecidableEq, Repr

/-- The clock service: `sel4osapi_sysclock_t`, the two threads, the root task's CSpace as far as the service uses it, and the
messages sent so far. -/
structure ClockThreads where
  time : Word
  schedule : Pool ScheduleMem
  timeoutsMutex : RecursiveMutex ClockTask
  server : ClockServerAt
  /-- `caller_ep`, the slot set as cap receive path -/
  callerEp : CPtr
  timer : ClockTimerAt
  /-- the slots `vka_cspace_alloc` has returned -/
  allocated : List CPtr
  cspace : CPtr → Option Cap
  /-- the slots on which `vka_cnode_revoke` was called, in order -/
  revoked : List CPtr
  replies : List ClockReply
  /-- the signals, each with the slot it was sent on and the clock value in it -/
  signals : List (CPtr × Word)

/-- What can happen. -/
inductive ClockThreadsAction where
  /-- the server takes a slot, which `vka_cspace_alloc` returns, and sets it as cap receive path -/
  | allocSlot (slot : CPtr)
  /-- the server receives a request of the client with this badge -/
  | request (badge : Word) (r : ClockRequest)
  /-- the server takes a step of its own -/
  | server
  /-- the interrupt that the timer waits for -/
  | interrupt
  /-- the timer takes a step of its own -/
  | timer
  deriving DecidableEq, Repr

namespace ClockThreads

/-- A thread locks the mutex, or waits for it. -/
def lock (s : ClockThreads) (t : ClockTask) (next : ClockThreads) : Outcome Fault ClockThreads :=
  match s.timeoutsMutex.lock t with
  | none => .blocked
  | some m => .next { next with timeoutsMutex := m }

/-- `seL4_Recv`: a capability goes to the receive slot, if that is empty, and then the message has one extra capability. -/
def receive (s : ClockThreads) (badge : Word) : ClockRequest → Res ClockThreads
  | .setTimeout periodic timeoutMs c => do
    let extraCaps := if s.cspace s.callerEp = none then 1 else 0
    check (extraCaps = 1) "seL4_MessageInfo_get_extraCaps(minfo) == 1"
    pure { s with
      cspace := Function.update s.cspace s.callerEp (some c), server := .set badge periodic timeoutMs c .lock }
  | .cancelTimeout timeoutId => pure { s with server := .cancel badge timeoutId .lock }
  | .getTime => pure { s with server := .getTime badge }

/-- A step of the server in SYSCLOCK_OP_SET_TIMEOUT. -/
def setStep (s : ClockThreads) (badge periodic timeoutMs : Word) (c : Cap) : SetPc → Outcome Fault ClockThreads
  | .lock => s.lock .server { s with server := .set badge periodic timeoutMs c .alloc }
  | .alloc => .ofExcept do
    let (newEntry, schedule) ← simplePoolAlloc s.schedule
    match newEntry with
    | none => pure { s with schedule := schedule, server := .set badge periodic timeoutMs c (.unlock [1, capNull, 0]) }
    | some el => pure { s with schedule := schedule, server := .set badge periodic timeoutMs c (.time el) }
  | .time el => .ofExcept do
    check ((s.schedule.mem el).aep = capNull) "new_entry->aep == seL4_CapNull"
    pure { s with server := .set badge periodic timeoutMs c (.store el s.time) }
  | .store el insertTime =>
    let entry : TimeoutEntry :=
      { caller := badge, aep := s.callerEp, periodic := periodic, period := timeoutMs, nextEvent := insertTime + timeoutMs }
    .next { s with
      schedule := { s.schedule with mem := Function.update s.schedule.mem el entry }
      server := .set badge periodic timeoutMs c (.unlock [0, s.callerEp, insertTime]) }
  | .unlock mrs =>
    .next { s with
      timeoutsMutex := s.timeoutsMutex.unlock .server, server := .reply badge (.setTimeout periodic timeoutMs c) mrs }

/-- A step of the server in SYSCLOCK_OP_CANCEL_TIMEOUT. -/
def cancelStep (s : ClockThreads) (badge timeoutId : Word) : CancelPc → Outcome Fault ClockThreads
  | .lock => s.lock .server { s with server := .cancel badge timeoutId .first }
  | .first => .next { s with server := .cancel badge timeoutId (.visit s.schedule.entries) }
  | .visit (some entry) =>
    if (s.schedule.mem (s.schedule.nodes entry).el).aep = timeoutId then
      .next { s with server := .cancel badge timeoutId (.free entry) }
    else .next { s with server := .cancel badge timeoutId (.visit (s.schedule.nodes entry).next) }
  | .free entry => .ofExcept do
    let timeout := (s.schedule.nodes entry).el
    let toutAep := (s.schedule.mem timeout).aep
    let (error, schedule) ← simplePoolFree s.schedule timeout
    check (error = 0) "error == 0"
    pure { s with schedule := schedule, server := .cancel badge timeoutId (.revoke entry toutAep) }
  | .revoke entry toutAep =>
    -- the cursor stays on the entry that was released
    .next { s with revoked := s.revoked ++ [toutAep], server := .cancel badge timeoutId (.visit (some entry)) }
  -- the loop ends, and the mutex is unlocked; `done` is still 0
  | .visit none =>
    .next { s with
      timeoutsMutex := s.timeoutsMutex.unlock .server, server := .reply badge (.cancelTimeout timeoutId) [1] }

/-- `sel4osapi_sysclock_server_thread`, a step of it other than in `seL4_Recv` or in the allocation of a slot. -/
def serverStep (s : ClockThreads) : Outcome Fault ClockThreads :=
  match s.server with
  | .allocSlot => .blocked
  | .recv => .blocked
  | .set badge periodic timeoutMs c pc => s.setStep badge periodic timeoutMs c pc
  | .cancel badge timeoutId pc => s.cancelStep badge timeoutId pc
  | .getTime badge => .next { s with server := .reply badge .getTime [s.time] }
  | .reply badge request mrs =>
    let next : ClockServerAt := match request with
      | .setTimeout _ _ _ => .allocSlot
      | .cancelTimeout _ => .recv
      | .getTime => .recv
    .next { s with replies := s.replies ++ [⟨badge, request, mrs⟩], server := next }

/-- `sel4osapi_sysclock_timer_thread`, a step of it other than in `seL4_Wait`. -/
def timerStep (periodMs : Word) (s : ClockThreads) : Outcome Fault ClockThreads :=
  match s.timer with
  | .wait => .blocked
  | .advance => .next { s with time := s.time + periodMs, timer := .lock }
  | .lock => s.lock .timer { s with timer := .first }
  | .first => .next { s with timer := .visit s.schedule.entries }
  | .visit (some entry) =>
    let timeout := s.schedule.mem (s.schedule.nodes entry).el
    let next := (s.schedule.nodes entry).next
    if timeout.aep ≠ capNull ∧ timeout.nextEvent ≤ s.time then .next { s with timer := .send entry next }
    else .next { s with timer := .visit next }
  | .send entry next =>
    let timeout := s.schedule.mem (s.schedule.nodes entry).el
    .next { s with
      signals := s.signals ++ [(timeout.aep, s.time)]
      timer := if timeout.periodic ≠ 0 then .rearm entry next else .free entry next }
  | .rearm entry next =>
    let timeout := (s.schedule.nodes entry).el
    let mem := Function.update s.schedule.mem timeout
      { s.schedule.mem timeout with nextEvent := s.time + (s.schedule.mem timeout).period }
    .next { s with schedule := { s.schedule with mem := mem }, timer := .visit next }
  | .free entry next => .ofExcept do
    let timeout := (s.schedule.nodes entry).el
    let toutAep := (s.schedule.mem timeout).aep
    let (error, schedule) ← simplePoolFree s.schedule timeout
    check (error = 0) "error == 0"
    pure { s with schedule := schedule, timer := .revoke toutAep next }
  | .revoke toutAep next => .next { s with revoked := s.revoked ++ [toutAep], timer := .visit next }
  -- the loop ends, and the mutex is unlocked
  | .visit none => .next { s with timeoutsMutex := s.timeoutsMutex.unlock .timer, timer := .wait }

/-- One step of the two threads. -/
def step (periodMs : Word) (s : ClockThreads) : ClockThreadsAction → Outcome Fault ClockThreads
  | .allocSlot slot =>
    .guard (s.server = .allocSlot ∧ slot ≠ capNull ∧ slot ∉ s.allocated ∧ s.cspace slot = none)
      (.next { s with callerEp := slot, allocated := slot :: s.allocated, server := .recv })
  | .request badge r => .guard (s.server = .recv) (.ofExcept (s.receive badge r))
  | .server => s.serverStep
  | .interrupt => .guard (s.timer = .wait) (.next { s with timer := .advance })
  | .timer => s.timerStep periodMs

/-- After `sel4osapi_sysclock_initialize` and `sel4osapi_sysclock_start`. -/
structure Init (s : ClockThreads) : Prop where
  time : s.time = 0
  schedule : ∃ (malloc : Nat → Ptr) (nodes : NodeStore) (mem : ScheduleMem) (elSize : Nat), Function.Injective malloc ∧
    simplePoolNew malloc nodes mem sysclockMaxEntries elSize (some timerEntryInit) (some timerEntryCompare) = .ok s.schedule
  timeoutsMutex : s.timeoutsMutex = .free
  server : s.server = .allocSlot
  timer : s.timer = .wait
  allocated : s.allocated = []
  revoked : s.revoked = []
  replies : s.replies = []
  signals : s.signals = []

end ClockThreads

/-- The two threads of the clock service as a transition system. -/
def clockThreadsMachine (periodMs : Word) : Machine Fault ClockThreads ClockThreadsAction where
  init := ClockThreads.Init
  step := ClockThreads.step periodMs

end Sel4Osapi
