import Sel4Osapi.Pool
import Sel4Osapi.Lib.Transition

/-!
# thread.c: the threads of a task

A task, the root task or a process, has a pool for the threads it creates, `env->threads`, and one more thread that it
starts with, the main thread. What `vka`, `sel4utils` and the fault handler of the root task answer is part of the action.
The names of threads, which nothing reads but the log, are left out; the record in memory, with the name in it, is that of
`ThreadLayout`.
-/

namespace Sel4Osapi

open Transition

/-- The configuration of the library. -/
structure ThreadConfig where
  /-- `SEL4OSAPI_MAX_THREADS_PER_PROCESS` -/
  maxThreads : Int

/-- `sel4osapi_thread_info_t`. -/
structure ThreadInfo where
  tid : Int
  arg : Option Ptr
  tls : Option Ptr
  waitAep : CPtr
  priority : Int
  ipc : Ptr
  deriving DecidableEq, Repr

/-- `sel4osapi_thread_t`. -/
structure Thread where
  localEndpoint : CPtr
  threadAep : CPtr
  faultEndpoint : CPtr
  threadRoutine : Ptr
  info : ThreadInfo
  deriving DecidableEq, Repr

/-- The environment of a task and its system object, as far as threads go, and what has happened so far. -/
structure Task where
  pid : Word
  priority : UInt8
  faultEndpoint : CPtr
  /-- `simple->init_cap`: this is the root task -/
  isRootTask : Bool
  mainThread : ThreadInfo
  threads : Pool (Ptr → Thread)
  /-- the threads that were created, and those that were deleted -/
  created : List Ptr
  deleted : List Ptr

/-- What the calls made by `sel4osapi_thread_create` return; `none` is an error. -/
structure ThreadAnswers where
  localEndpoint : Option CPtr
  threadAep : Option CPtr
  /-- `sel4utils_configure_thread_config`, with the address of the IPC buffer -/
  native : Option Ptr
  /-- `setup_fault_handler`, in the root task -/
  faultHandler : Bool
  deriving DecidableEq, Repr

namespace Task

/-- `sel4osapi_system_initialize_main_thread(system)`; `waitAep` is the notification, `ipc` the IPC buffer that the task
starts with. -/
def initializeMainThread (priority : UInt8) (waitAep : CPtr) (ipc : Ptr) : ThreadInfo where
  tid := 0
  arg := none
  tls := none
  waitAep := waitAep
  priority := priority.toNat
  ipc := ipc

/-- `sel4osapi_thread_create(name, thread_routine, thread_arg, priority)`. -/
def threadCreate (s : Task) (threadRoutine : Ptr) (threadArg : Option Ptr) (priority : Int) (a : ThreadAnswers) : Res (Ptr × Task) := do
  let (thread, threads) ← simplePoolAlloc s.threads
  let thread ← checkSome thread "thread != NULL"
  let tid := simplePoolGetCurrentSize threads
  let localEndpoint ← checkSome a.localEndpoint "error == 0"
  let threadAep ← checkSome a.threadAep "error == 0"
  let ipc ← checkSome a.native "error == 0"
  let info := { tid := tid, arg := threadArg, tls := none, waitAep := threadAep, priority := priority, ipc := ipc }
  let t := {
    localEndpoint := localEndpoint, threadAep := threadAep, faultEndpoint := s.faultEndpoint, threadRoutine := threadRoutine, info := info }
  check (s.isRootTask → a.faultHandler) "setup_fault_handler"
  pure (thread, { s with
    threads := { threads with mem := Function.update threads.mem thread t }, created := s.created ++ [thread] })

/-- A thread that was created: the pool had an entry, the calls succeeded, and the entry has what they returned. -/
theorem threadCreate_ok {s s' : Task} {threadRoutine : Ptr} {threadArg : Option Ptr} {priority : Int} {a : ThreadAnswers} {thread : Ptr}
    (hs : s.threadCreate threadRoutine threadArg priority a = .ok (thread, s')) :
    ∃ threads localEndpoint threadAep ipc, simplePoolAlloc s.threads = .ok (some thread, threads) ∧
      a.localEndpoint = some localEndpoint ∧ a.threadAep = some threadAep ∧ a.native = some ipc ∧
      s' = { s with
        threads := { threads with
          mem := Function.update threads.mem thread
            { localEndpoint := localEndpoint, threadAep := threadAep, faultEndpoint := s.faultEndpoint, threadRoutine := threadRoutine
              info :=
                { tid := simplePoolGetCurrentSize threads, arg := threadArg, tls := none, waitAep := threadAep, priority := priority
                  ipc := ipc } } }
        created := s.created ++ [thread] } := by
  obtain ⟨⟨p, threads⟩, halloc, hs⟩ := bind_ok hs
  obtain ⟨p', hp, hs⟩ := bind_ok hs
  obtain ⟨localEndpoint, hlocal, hs⟩ := bind_ok hs
  obtain ⟨threadAep, haep, hs⟩ := bind_ok hs
  obtain ⟨ipc, hipc, hs⟩ := bind_ok hs
  obtain ⟨_, -, hs⟩ := bind_ok hs
  cases hs
  cases of_checkSome_ok hp
  exact ⟨threads, localEndpoint, threadAep, ipc, halloc, of_checkSome_ok hlocal, of_checkSome_ok haep, of_checkSome_ok hipc, rfl⟩

/-- `sel4osapi_thread_delete(thread)`: the endpoint and the native thread go, which are not in the pool. -/
def threadDelete (s : Task) (thread : Ptr) : Task := { s with deleted := s.deleted ++ [thread] }

/-- The thread exists. -/
def Live (s : Task) (thread : Ptr) : Prop := thread ∈ s.created ∧ thread ∉ s.deleted

instance (s : Task) (thread : Ptr) : Decidable (s.Live thread) := inferInstanceAs (Decidable (_ ∧ _))

end Task

/-- What can happen. -/
inductive ThreadAction where
  /-- `sel4osapi_thread_create` -/
  | create (threadRoutine : Ptr) (threadArg : Option Ptr) (priority : Int) (a : ThreadAnswers)
  /-- `sel4osapi_thread_delete`, of a thread that was created and not deleted -/
  | delete (thread : Ptr)

namespace Task

/-- One step of the threads of a task. -/
def step (s : Task) : ThreadAction → Outcome Fault Task
  | .create threadRoutine threadArg priority a => .ofExcept do
    let (_, s) ← s.threadCreate threadRoutine threadArg priority a
    pure s
  | .delete thread => .guard (s.Live thread) (.next (s.threadDelete thread))

/-- After the initialisation of the task: a new pool, and the main thread. -/
structure Init (cfg : ThreadConfig) (s : Task) : Prop where
  threads : ∃ b, simplePoolNewPlain b cfg.maxThreads = .ok s.threads
  mainThread : ∃ waitAep ipc, s.mainThread = initializeMainThread s.priority waitAep ipc
  created : s.created = []
  deleted : s.deleted = []

end Task

/-- The creation and the deletion of the threads of a task as a transition system. -/
def threadMachine (cfg : ThreadConfig) : Machine Fault Task ThreadAction where
  init := Task.Init cfg
  step := Task.step

end Sel4Osapi
