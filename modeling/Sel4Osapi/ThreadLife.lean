import Sel4Osapi.Thread
import Sel4Osapi.Lib.Endpoint

/-!
# thread.c: the life of a thread, from its start to its join

A thread is created, started, and runs `sel4osapi_thread_routine_wrapper`: it makes its record the user data of its IPC
buffer, sets `info.active`, calls its routine, clears `info.active` and calls its `local_endpoint`, where
`sel4osapi_thread_join` waits. Anyone who has the record may clear `info.active` at any time to ask the routine to return.

The kernel's endpoints are those of the task's CSpace: `vka_alloc_endpoint` makes one in an empty slot, and
`vka_free_object` empties the slot again. No code replies to the call of the wrapper, so the `assert(0)` after it is not
reached. A thread that waits for a thread which is deleted does not run again. The word that `sel4utils_start_thread` leaves
as the user data of the IPC buffer, and whether it succeeds, is part of the action.
-/

namespace Sel4Osapi

open Transition Rendezvous

/-- Where a thread is. -/
inductive ThreadPc where
  /-- created, and not started -/
  | ready
  /-- in `sel4osapi_thread_init_tls`: before `ipc_word` is written, and before `seL4_SetUserData` -/
  | saveWord | setWord
  /-- in `sel4osapi_thread_routine_wrapper`: before `active = 1`, in the routine, before `active = 0`, and before `seL4_Call` -/
  | activate | routine | deactivate | signal
  /-- in the `seL4_Call`, or after it -/
  | signalled
  deriving DecidableEq, Repr

/-- What a thread has beside the part of its record that `sel4osapi_thread_create` fills in. -/
structure ThreadRun where
  pc : ThreadPc
  /-- the user data of its IPC buffer -/
  userData : Option Ptr
  /-- `info.ipc_word` and `info.active` -/
  ipcWord : Option Ptr
  active : Bool
  deriving DecidableEq, Repr

/-- Who joins a thread: the main thread of the task, or one of its pool. -/
abbrev Joiner : Type := Option Ptr

/-- What happens to a thread. -/
inductive ThreadEvent where
  /-- `sel4osapi_thread_start`, which leaves this as the user data of its IPC buffer -/
  | started (userData : Option Ptr)
  /-- its routine is called, and returns -/
  | entered | returned
  /-- its `info.active` is cleared by someone else -/
  | stopped
  /-- it calls its endpoint, with this in the first message register -/
  | signalled (mr0 : Word)
  /-- `sel4osapi_thread_join` is called, and returns -/
  | joins (joiner : Joiner)
  | joined (joiner : Joiner) (value : Int)
  deriving DecidableEq, Repr

/-- The threads of a task, and what has happened to them so far. -/
structure Threads where
  task : Task
  run : Ptr → ThreadRun
  /-- the endpoints in the CSpace of the task -/
  endpoints : CPtr → Option (Endpoint Word Joiner)
  /-- the thread that the main thread or a thread of the pool waits for in `sel4osapi_thread_join` -/
  joining : Joiner → Option Ptr
  history : List (Ptr × ThreadEvent)

/-- What can happen. -/
inductive ThreadLifeAction where
  /-- `sel4osapi_thread_create` -/
  | create (threadRoutine : Ptr) (threadArg : Option Ptr) (priority : Int) (a : ThreadAnswers)
  /-- `sel4osapi_thread_start`, of a thread that was created and not started; the user data it begins with, and whether
  `sel4utils_start_thread` succeeds -/
  | start (thread : Ptr) (userData : Option Ptr) (ok : Bool)
  /-- the next step of a thread in `sel4osapi_thread_routine_wrapper` -/
  | step (thread : Ptr)
  /-- `thread->info.active = 0`, by someone else -/
  | stop (thread : Ptr)
  /-- `sel4osapi_thread_join`, of a thread that exists -/
  | join (joiner : Joiner) (thread : Ptr)
  /-- `sel4osapi_thread_delete`, of a thread that was not started or that has ended -/
  | delete (thread : Ptr)

namespace Threads

/-- `thread->local_endpoint.cptr`. -/
def localEndpoint (s : Threads) (thread : Ptr) : CPtr := (s.task.threads.mem thread).localEndpoint

/-- A change to what a thread has of its own. -/
def setRun (s : Threads) (thread : Ptr) (r : ThreadRun) : Threads := { s with run := Function.update s.run thread r }

/-- What has happened to a thread goes on. -/
def record (s : Threads) (thread : Ptr) (event : ThreadEvent) : Threads := { s with history := s.history ++ [(thread, event)] }

/-- `seL4_GetMR(0)` as an `int`, with which a join returns. -/
def joinReturns (s : Threads) (joiner : Joiner) (thread : Ptr) (mr0 : Word) : Threads :=
  { s with joining := Function.update s.joining joiner none }.record thread (.joined joiner (intOfWord mr0))

/-- `sel4osapi_thread_create(name, thread_routine, thread_arg, priority)`: it does not write `active` and `ipc_word`. -/
def threadCreate (s : Threads) (threadRoutine : Ptr) (threadArg : Option Ptr) (priority : Int) (a : ThreadAnswers) :
    Res Threads := do
  let (thread, task) ← s.task.threadCreate threadRoutine threadArg priority a
  pure { s.setRun thread { s.run thread with pc := .ready } with
    task := task, endpoints := Function.update s.endpoints (task.threads.mem thread).localEndpoint (some .empty) }

/-- `sel4osapi_thread_start(thread)`. -/
def threadStart (s : Threads) (thread : Ptr) (userData : Option Ptr) (ok : Bool) : Res Threads := do
  check ok "error  == 0"
  pure ((s.setRun thread { s.run thread with pc := .saveWord, userData := userData }).record thread (.started userData))

/-- `seL4_Call(thread->local_endpoint.cptr, info)` with 0 in the first message register, up to the reply: the first who waits
in a join, if there is one, goes on. -/
def callEndpoint (s : Threads) (thread : Ptr) (e : Endpoint Word Joiner) : Threads :=
  let (joiner, e) := e.send 0
  let s := { s with endpoints := Function.update s.endpoints (s.localEndpoint thread) (some e) }.record thread (.signalled 0)
  match joiner with
  | none => s
  | some joiner => s.joinReturns joiner thread 0

/-- The next step of `sel4osapi_thread_routine_wrapper(thread, NULL, ipc_buf)`. -/
def wrapperStep (s : Threads) (thread : Ptr) : Outcome Fault Threads :=
  let r := s.run thread
  match r.pc with
  | .ready => .blocked
  | .saveWord => .ofExcept do
    let word ← checkSome r.userData "thread->info.ipc_word != 0"
    pure (s.setRun thread { r with pc := .setWord, ipcWord := some word })
  | .setWord => .next (s.setRun thread { r with pc := .activate, userData := some thread })
  | .activate => .next ((s.setRun thread { r with pc := .routine, active := true }).record thread .entered)
  -- the routine returns, when it is not waiting in a join of its own
  | .routine => .guard (s.joining (some thread) = none) (.next ((s.setRun thread { r with pc := .deactivate }).record thread .returned))
  | .deactivate => .next (s.setRun thread { r with pc := .signal, active := false })
  | .signal =>
    match s.endpoints (s.localEndpoint thread) with
    | none => .blocked
    | some e => .next ((s.setRun thread { r with pc := .signalled }).callEndpoint thread e)
  | .signalled => .blocked

/-- `sel4osapi_thread_get_current()`, called by a thread: the thread with that record. -/
def threadGetCurrent (s : Threads) (self : Ptr) : Option Ptr := (s.run self).userData

/-- `thread->info.active = 0`. -/
def stopThread (s : Threads) (thread : Ptr) : Threads :=
  (s.setRun thread { s.run thread with active := false }).record thread .stopped

/-- `sel4osapi_thread_join(thread)`, up to the message. -/
def threadJoin (s : Threads) (joiner : Joiner) (thread : Ptr) (e : Endpoint Word Joiner) : Threads :=
  let (mr0, e) := e.recv joiner
  let s := { s with
    endpoints := Function.update s.endpoints (s.localEndpoint thread) (some e)
    joining := Function.update s.joining joiner (some thread) }.record thread (.joins joiner)
  match mr0 with
  | none => s
  | some mr0 => s.joinReturns joiner thread mr0

/-- `sel4osapi_thread_delete(thread)`. -/
def threadDelete (s : Threads) (thread : Ptr) : Threads :=
  { s with task := s.task.threadDelete thread, endpoints := Function.update s.endpoints (s.localEndpoint thread) none }

/-- The thread runs code of the application: the main thread, or a thread in its routine. -/
def Running (s : Threads) : Joiner → Prop
  | none => True
  | some thread => s.task.Live thread ∧ (s.run thread).pc = .routine

instance (s : Threads) (joiner : Joiner) : Decidable (s.Running joiner) :=
  match joiner with
  | none => isTrue trivial
  | some _ => inferInstanceAs (Decidable (_ ∧ _))

/-- One step of the threads of a task. -/
def step (s : Threads) : ThreadLifeAction → Outcome Fault Threads
  | .create threadRoutine threadArg priority a =>
    .guard ((a.localEndpoint.bind s.endpoints).isNone) (.ofExcept (s.threadCreate threadRoutine threadArg priority a))
  | .start thread userData ok =>
    .guard (s.task.Live thread ∧ (s.run thread).pc = .ready) (.ofExcept (s.threadStart thread userData ok))
  | .step thread => .guard (s.task.Live thread) (s.wrapperStep thread)
  | .stop thread => .guard (s.task.Live thread) (.next (s.stopThread thread))
  | .join joiner thread =>
    match s.endpoints (s.localEndpoint thread) with
    | none => .blocked
    | some e => .guard (s.task.Live thread ∧ s.Running joiner ∧ s.joining joiner = none) (.next (s.threadJoin joiner thread e))
  | .delete thread =>
    .guard (s.task.Live thread ∧ ((s.run thread).pc = .ready ∨ (s.run thread).pc = .signalled)) (.next (s.threadDelete thread))

/-- After the initialisation of the task. -/
structure Init (cfg : ThreadConfig) (s : Threads) : Prop where
  task : s.task.Init cfg
  joining : ∀ joiner, s.joining joiner = none
  history : s.history = []

end Threads

/-- The life of the threads of a task as a transition system. -/
def threadLifeMachine (cfg : ThreadConfig) : Machine Fault Threads ThreadLifeAction where
  init := Threads.Init cfg
  step := Threads.step

end Sel4Osapi
