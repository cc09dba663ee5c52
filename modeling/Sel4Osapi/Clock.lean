import Sel4Osapi.Pool
import Sel4Osapi.Lib.Transition

/-!
# clock.c: the system clock and its schedule of timeouts

Two threads of the root task share the schedule, a pool of `timeout_entry`: the server serves the requests of the clients, the
timer advances the clock at every interrupt and scans the schedule. Both touch the schedule only with `timeouts_mutex` held, so
the critical section of each is one step here: the service of a request up to its reply, and the scan. What happens outside the
mutex is a step of its own: the advance of the clock before the scan, and the allocation of a new receive slot after the reply
to a SET_TIMEOUT. The other thread can run in between. `Sel4Osapi.Theorems.ClockThreads` relates these steps to the single accesses
of the two threads.

A client's capability arrives in the slot set as cap receive path. `vka_cspace_alloc` belongs to libsel4vka: its answers are
part of the actions, and it returns an empty slot, never the null one or one that is allocated.
-/

namespace Sel4Osapi

open Transition

/-- `struct timeout_entry`. -/
structure TimeoutEntry where
  caller : Word
  aep : CPtr
  periodic : Word
  period : Word
  nextEvent : Word
  deriving DecidableEq, Repr

/-- The memory of the schedule's elements. -/
abbrev ScheduleMem : Type := Ptr → TimeoutEntry

/-- `timer_entry_init(el, arg)`. It does not reset `next_event`. -/
def timerEntryInit (el : Ptr) (mem : ScheduleMem) : ScheduleMem :=
  Function.update mem el { mem el with aep := capNull, caller := 0, period := 0, periodic := 0 }

/-- `timer_entry_compare(el1, el2)`. -/
def timerEntryCompare (mem : ScheduleMem) (el1 el2 : Ptr) : Int :=
  if (mem el1).aep = (mem el2).aep then 0
  else if (mem el1).aep > (mem el2).aep then -1
  else 1

/-- `SEL4OSAPI_SYSCLOCK_MAX_ENTRIES`. -/
def sysclockMaxEntries : Int := 100

/-- A capability a client can attach to a request; only its identity matters. -/
abbrev Cap : Type := Nat

/-- A request as the client functions of clock.c build it: `sel4osapi_sysclock_schedule_timeout`,
`sel4osapi_sysclock_cancel_timeout`, `sel4osapi_sysclock_get_time`. -/
inductive ClockRequest where
  | setTimeout (periodic timeoutMs : Word) (callbackAep : Cap)
  | cancelTimeout (timeoutId : Word)
  | getTime
  deriving DecidableEq, Repr

/-- Where the server thread stands. -/
inductive ClockServerPc where
  /-- about to take a slot and set it as cap receive path: at its start, and after the reply to a SET_TIMEOUT -/
  | allocSlot
  /-- in `seL4_Recv` -/
  | waiting
  deriving DecidableEq, Repr

/-- Where the timer thread stands. -/
inductive ClockTimerPc where
  /-- in `seL4_Wait` -/
  | waiting
  /-- the clock is advanced, the scan is to come -/
  | scanning
  deriving DecidableEq, Repr

/-- What an observer sees of the clock service, in order: the replies of the server and the scans of the timer. -/
inductive ClockEvent where
  /-- a SET_TIMEOUT accepted: the caller, its capability and arguments, the id it is given, the clock at acceptance -/
  | set (caller : Word) (callbackAep : Cap) (periodic timeoutMs : Word) (id : CPtr) (time : Word)
  /-- a SET_TIMEOUT refused because no entry was free -/
  | refused (caller : Word)
  /-- a CANCEL_TIMEOUT served, and the error flag replied -/
  | cancel (id : Word) (error : Word)
  /-- a GET_TIME served, and the time replied -/
  | getTime (time : Word)
  /-- a scan of the schedule: the clock it carries, and the slots signalled, in order -/
  | scan (time : Word) (signalled : List CPtr)
  deriving DecidableEq, Repr

/-- The clock service: `sel4osapi_sysclock_t`, the two threads, the slots of the root task's CSpace as far as the service uses
them, and what has been observed so far. -/
structure Sysclock where
  time : Word
  schedule : Pool ScheduleMem
  serverPc : ClockServerPc
  /-- `caller_ep`, the slot set as cap receive path -/
  callerEp : CPtr
  timerPc : ClockTimerPc
  /-- the slots `vka_cspace_alloc` has returned -/
  allocated : List CPtr
  /-- the capability in each slot -/
  cspace : CPtr → Option Cap
  /-- the slots on which `vka_cnode_revoke` was called, in order -/
  revoked : List CPtr
  log : List ClockEvent

/-- The loop of SYSCLOCK_OP_CANCEL_TIMEOUT. `done` is never set, and after a release the cursor stays on the released node. -/
def cancelLoop (timeoutId : Word) : Nat → Option Ptr → Pool ScheduleMem → List CPtr → Res (Pool ScheduleMem × List CPtr)
  | _, none, p, revoked => .ok (p, revoked)
  | 0, some _, _, _ => .error .diverged
  | fuel + 1, some entry, p, revoked =>
    let timeout := (p.nodes entry).el
    if (p.mem timeout).aep = timeoutId then do
      let toutAep := (p.mem timeout).aep
      let (error, p) ← simplePoolFree p timeout
      check (error = 0) "error == 0"
      cancelLoop timeoutId fuel (some entry) p (revoked ++ [toutAep])
    else cancelLoop timeoutId fuel (p.nodes entry).next p revoked

/-- The loop of `sel4osapi_sysclock_timer_thread` over the schedule, at clock value `time`. -/
def scanLoop (time : Word) : Nat → Option Ptr → Pool ScheduleMem → (signalled revoked : List CPtr) →
    Res (Pool ScheduleMem × List CPtr × List CPtr)
  | _, none, p, signalled, revoked => .ok (p, signalled, revoked)
  | 0, some _, _, _, _ => .error .diverged
  | fuel + 1, some entry, p, signalled, revoked =>
    let timeout := (p.nodes entry).el
    let next := (p.nodes entry).next
    if (p.mem timeout).aep ≠ capNull ∧ (p.mem timeout).nextEvent ≤ time then
      let signalled := signalled ++ [(p.mem timeout).aep]
      if (p.mem timeout).periodic ≠ 0 then
        let mem := Function.update p.mem timeout { p.mem timeout with nextEvent := time + (p.mem timeout).period }
        scanLoop time fuel next { p with mem := mem } signalled revoked
      else do
        let toutAep := (p.mem timeout).aep
        let (error, p) ← simplePoolFree p timeout
        check (error = 0) "error == 0"
        scanLoop time fuel next p signalled (revoked ++ [toutAep])
    else scanLoop time fuel next p signalled revoked

namespace Sysclock

/-- The steps the model allows a loop over the schedule: its entries, the released one again, and its end. -/
def fuel (s : Sysclock) : Nat := s.schedule.fuel + 2

/-- `seL4_Recv` with a capability attached: the kernel puts it in the receive slot if that is empty, and then the message
has one extra capability. -/
def receiveCap (s : Sysclock) (c : Cap) : Nat × Sysclock :=
  match s.cspace s.callerEp with
  | some _ => (0, s)
  | none => (1, { s with cspace := Function.update s.cspace s.callerEp (some c) })

/-- SYSCLOCK_OP_SET_TIMEOUT, after its capability has been received. -/
def setTimeout (s : Sysclock) (badge periodic timeoutMs : Word) (c : Cap) : Res Sysclock := do
  let (newEntry, schedule) ← simplePoolAlloc s.schedule
  match newEntry with
  | none => pure { s with schedule := schedule, serverPc := .allocSlot, log := s.log ++ [.refused badge] }
  | some el =>
    check ((schedule.mem el).aep = capNull) "new_entry->aep == seL4_CapNull"
    let entry : TimeoutEntry :=
      { caller := badge, aep := s.callerEp, periodic := periodic, period := timeoutMs, nextEvent := s.time + timeoutMs }
    pure { s with
      schedule := { schedule with mem := Function.update schedule.mem el entry }
      serverPc := .allocSlot
      log := s.log ++ [.set badge c periodic timeoutMs s.callerEp s.time] }

/-- SYSCLOCK_OP_CANCEL_TIMEOUT. The reply is always 1, since `done` is always 0. -/
def cancelTimeout (s : Sysclock) (timeoutId : Word) : Res Sysclock := do
  let (schedule, revoked) ← cancelLoop timeoutId s.fuel s.schedule.entries s.schedule s.revoked
  pure { s with schedule := schedule, revoked := revoked, log := s.log ++ [.cancel timeoutId 1] }

/-- The server thread serves a request, from `seL4_Recv` to `seL4_Reply`. -/
def serve (s : Sysclock) (badge : Word) : ClockRequest → Res Sysclock
  | .setTimeout periodic timeoutMs c => do
    let (extraCaps, s) := s.receiveCap c
    check (extraCaps = 1) "seL4_MessageInfo_get_extraCaps(minfo) == 1"
    s.setTimeout badge periodic timeoutMs c
  | .cancelTimeout timeoutId => s.cancelTimeout timeoutId
  | .getTime => pure { s with log := s.log ++ [.getTime s.time] }

/-- `sel4osapi_sysclock_cancel_timeout(timeout_id)` of a client: what it returns, MR0 of the reply as an `int`, and the service
after it. -/
def sysclockCancelTimeout (s : Sysclock) (badge timeoutId : Word) : Res (Option Int × Sysclock) := do
  let s ← s.serve badge (.cancelTimeout timeoutId)
  match s.log.getLast? with
  | some (.cancel _ error) => pure (some (intOfWord error), s)
  | _ => pure (none, s)

/-- The timer thread scans the schedule. -/
def scan (s : Sysclock) : Res Sysclock := do
  let (schedule, signalled, revoked) ← scanLoop s.time s.fuel s.schedule.entries s.schedule [] s.revoked
  pure { s with
    schedule := schedule, revoked := revoked, timerPc := .waiting, log := s.log ++ [.scan s.time signalled] }

end Sysclock

/-- What the two threads can do. -/
inductive ClockAction where
  /-- the server takes a slot, which `vka_cspace_alloc` returns, and sets it as cap receive path -/
  | allocSlot (slot : CPtr)
  /-- the server serves a request of the client with this badge -/
  | request (badge : Word) (r : ClockRequest)
  /-- the timer advances the clock at an interrupt -/
  | tick
  /-- the timer scans the schedule -/
  | scan
  deriving DecidableEq, Repr

/-- One step of the clock service, the clock advancing by `periodMs` (`SEL4OSAPI_SYSCLOCK_PERIOD_MS`) at each interrupt. -/
def Sysclock.step (periodMs : Word) (s : Sysclock) : ClockAction → Outcome Fault Sysclock
  | .allocSlot slot =>
    .guard (s.serverPc = .allocSlot ∧ slot ≠ capNull ∧ slot ∉ s.allocated ∧ s.cspace slot = none)
      (.next { s with callerEp := slot, allocated := slot :: s.allocated, serverPc := .waiting })
  | .request badge r => .guard (s.serverPc = .waiting) (.ofExcept (s.serve badge r))
  | .tick => .guard (s.timerPc = .waiting) (.next { s with time := s.time + periodMs, timerPc := .scanning })
  | .scan => .guard (s.timerPc = .scanning) (.ofExcept s.scan)

/-- `sel4osapi_sysclock_initialize` and `sel4osapi_sysclock_start`: the clock at zero, a new pool for the schedule, and the two
threads at their start. What was in memory, in the slots and in the receive slot variable before does not matter. -/
structure Sysclock.Init (s : Sysclock) : Prop where
  time : s.time = 0
  schedule : ∃ (malloc : Nat → Ptr) (nodes : NodeStore) (mem : ScheduleMem) (elSize : Nat), Function.Injective malloc ∧
    simplePoolNew malloc nodes mem sysclockMaxEntries elSize (some timerEntryInit) (some timerEntryCompare) = .ok s.schedule
  serverPc : s.serverPc = .allocSlot
  timerPc : s.timerPc = .waiting
  allocated : s.allocated = []
  revoked : s.revoked = []
  log : s.log = []

/-- The clock service as a transition system. -/
def sysclockMachine (periodMs : Word) : Machine Fault Sysclock ClockAction where
  init := Sysclock.Init
  step := Sysclock.step periodMs

end Sel4Osapi
