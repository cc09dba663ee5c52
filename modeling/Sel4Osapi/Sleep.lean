import Sel4Osapi.Clock

/-!
# thread.c: `sel4osapi_thread_sleep`

A thread sleeps by setting a one-shot timeout on its own `wait_aep` and waiting on it. Each thread has a notification of its
own for that, allocated in `sel4osapi_thread_create`, and nothing else in the library hands it to the clock service. A
signal that comes before the thread waits stays in the notification.
-/

namespace Sel4Osapi

open Transition

/-- Where a thread stands. -/
inductive SleepPc where
  | awake
  /-- in `sel4osapi_sysclock_wait_for_timeout`, after its timeout was accepted -/
  | waiting (ms : Word) (timeoutId : CPtr)
  deriving DecidableEq, Repr

/-- The clock service and the threads that sleep on it. -/
structure SleepSystem where
  clock : Sysclock
  /-- the `wait_aep` of each thread -/
  waitAep : Nat → Cap
  /-- the thread whose `wait_aep` a capability is, if it is one -/
  owner : Cap → Option Nat
  pc : Nat → SleepPc
  /-- the `wait_aep` of the thread has been signalled and not been waited for since -/
  notified : Nat → Bool

/-- What can happen. -/
inductive SleepAction where
  /-- the clock service does something that is not the service of a sleep -/
  | clock (a : ClockAction)
  /-- a thread calls `sel4osapi_thread_sleep`, and its request is served -/
  | sleep (thread : Nat) (badge ms : Word)
  /-- `seL4_Wait` returns, and the sleep with it -/
  | wake (thread : Nat)
  deriving DecidableEq, Repr

namespace SleepSystem

/-- The request is not made with the `wait_aep` of a thread. -/
def Foreign (s : SleepSystem) : ClockAction → Prop
  | .request _ (.setTimeout _ _ c) => s.owner c = none
  | _ => True

instance (s : SleepSystem) (a : ClockAction) : Decidable (s.Foreign a) :=
  match a with
  | .request _ (.setTimeout _ _ _) => inferInstanceAs (Decidable (_ = _))
  | .request _ (.cancelTimeout _) => isTrue trivial
  | .request _ .getTime => isTrue trivial
  | .allocSlot _ => isTrue trivial
  | .tick => isTrue trivial
  | .scan => isTrue trivial

/-- The last event of the log is a scan that signals the `wait_aep` of the thread. -/
def signalled (s : SleepSystem) (clock : Sysclock) (thread : Nat) : Bool :=
  match clock.log.getLast? with
  | some (.scan _ sig) => sig.any fun a => decide ((s.clock.cspace a).bind s.owner = some thread)
  | _ => false

/-- The timeout the last event of the log accepts. -/
def accepted (clock : Sysclock) : Option CPtr :=
  match clock.log.getLast? with
  | some (.set _ _ _ _ id _) => some id
  | _ => none

/-- `sel4osapi_thread_sleep(ms)` up to the wait: the reply to a request that was refused fails the assertion. -/
def sleep (s : SleepSystem) (periodMs : Word) (thread : Nat) (badge ms : Word) : Outcome Fault SleepSystem :=
  match s.clock.step periodMs (.request badge (.setTimeout 0 ms (s.waitAep thread))) with
  | .blocked => .blocked
  | .fault f => .fault f
  | .next clock =>
    match accepted clock with
    | none => .fault (.assert "timeout_id != seL4_CapNull")
    | some id => .next { s with clock := clock, pc := Function.update s.pc thread (.waiting ms id) }

/-- One step of the clock service and the threads. -/
def step (periodMs : Word) (s : SleepSystem) : SleepAction → Outcome Fault SleepSystem
  | .clock a => .guard (s.Foreign a) ((s.clock.step periodMs a).map fun clock =>
    { s with clock := clock, notified := fun thread => s.notified thread || (decide (a = .scan) && s.signalled clock thread) })
  | .sleep thread badge ms => .guard (s.pc thread = .awake) (s.sleep periodMs thread badge ms)
  | .wake thread => .guard (s.pc thread ≠ .awake ∧ s.notified thread = true)
    (.next { s with pc := Function.update s.pc thread .awake, notified := Function.update s.notified thread false })

/-- The service at its start, and all the threads awake. -/
structure Init (s : SleepSystem) : Prop where
  clock : s.clock.Init
  owner : ∀ thread, s.owner (s.waitAep thread) = some thread
  pc : ∀ thread, s.pc thread = .awake
  notified : ∀ thread, s.notified thread = false

end SleepSystem

end Sel4Osapi
