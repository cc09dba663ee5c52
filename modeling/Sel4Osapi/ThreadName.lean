import Sel4Osapi.Lib.Memory
import Sel4Osapi.Log
import Sel4Osapi.Thread

/-!
# thread.c, system.c, log.c: the record of a thread in memory

`sel4osapi_thread_info_t` has an array for the name between its other fields, so it matters here where the bytes of the name go.
The memory is a function from addresses to bytes, and the fields of the record are at the offsets of a layout. The steps of
`sel4osapi_thread_create` that do not write to the record are those of `Task.threadCreate`.
-/

namespace Sel4Osapi

open Memory

/-- `SEL4OSAPI_THREAD_NAME_PREFIX_MAX_LEN`. -/
def threadNamePrefixMaxLen : Nat := 10

/-- `SEL4OSAPI_THREAD_NAME_MAX_LEN`, and where the fields of `info` are, from the start of a `sel4osapi_thread_t` on: in the order
of their declaration. -/
structure ThreadLayout where
  nameMaxLen : Nat
  tid : Nat
  name : Nat
  arg : Nat
  tls : Nat
  active : Nat
  waitAep : Nat
  priority : Nat
  ipc : Nat
  ipcWord : Nat
  /-- the `#error` of thread.h -/
  nameMaxLen_gt : threadNamePrefixMaxLen < nameMaxLen
  tid_name : tid + 4 ≤ name
  name_arg : name + (nameMaxLen - threadNamePrefixMaxLen) ≤ arg
  arg_tls : arg + 4 ≤ tls
  tls_active : tls + 4 ≤ active
  active_waitAep : active + 1 ≤ waitAep
  waitAep_priority : waitAep + 4 ≤ priority
  priority_ipc : priority + 4 ≤ ipc
  ipc_ipcWord : ipc + 4 ≤ ipcWord

/-- A pointer as a word, null being zero. -/
def ptrWord : Option Ptr → Word
  | some p => UInt32.ofNat p
  | none => 0

/-- The name that `sel4osapi_thread_create` formats: by `%s`, or by `p-%02d-t-%02d` when there is none. -/
def threadNameText (name : Option (List UInt8)) (pid : Word) (tid : Int) : List UInt8 :=
  match name with
  | some name => name
  | none => ascii "p-" ++ formatInt 2 (intOfWord pid) ++ ascii "-t-" ++ formatInt 2 tid

/-- The name of a main thread: `p-%02d-main`. -/
def mainThreadNameText (pid : Word) : List UInt8 := ascii "p-" ++ formatInt 2 (intOfWord pid) ++ ascii "-main"

/-- `SEL4OSAPI_MONITOR_THREAD_NAME_PREFIX`. -/
def monitorThreadNamePrefix : List UInt8 := ascii "syslog::"

/-- The memory after a thread was named, and the address behind the last byte written for the name. -/
structure NamedThread where
  mem : Nat → UInt8
  nameEnd : Nat

namespace ThreadLayout

/-- The layout for a word of four bytes that is aligned, with `info` at an aligned offset. -/
def aligned (info nameMaxLen : Nat) (h : threadNamePrefixMaxLen < nameMaxLen) : ThreadLayout :=
  let arg := info + (4 + (nameMaxLen - threadNamePrefixMaxLen) + 3) / 4 * 4
  { nameMaxLen := nameMaxLen, tid := info, name := info + 4, arg := arg, tls := arg + 4, active := arg + 8, waitAep := arg + 12
    priority := arg + 16, ipc := arg + 20, ipcWord := arg + 24
    nameMaxLen_gt := h
    tid_name := Nat.le_refl _
    name_arg := by omega
    arg_tls := Nat.le_refl _
    tls_active := Nat.le_refl _
    active_waitAep := by omega
    waitAep_priority := Nat.le_refl _
    priority_ipc := Nat.le_refl _
    ipc_ipcWord := Nat.le_refl _ }

/-- The size of the array `info.name`. -/
def nameSize (l : ThreadLayout) : Nat := l.nameMaxLen - threadNamePrefixMaxLen

/-- `snprintf(thread->info.name, SEL4OSAPI_THREAD_NAME_MAX_LEN, …)`. -/
def snprintfName (l : ThreadLayout) (mem : Nat → UInt8) (thread : Ptr) (text : List UInt8) : NamedThread :=
  let b := (TextBuffer.ofMem mem).snprintf (thread + l.name) l.nameMaxLen text
  { mem := b.mem, nameEnd := b.extent }

/-- `sel4osapi_thread_create(name, thread_routine, thread_arg, priority)`; `mem` is the memory when the first field of `info` is
set. -/
def threadCreate (l : ThreadLayout) (s : Task) (mem : Nat → UInt8) (name : Option (List UInt8)) (threadRoutine : Ptr)
    (threadArg : Option Ptr) (priority : Int) (a : ThreadAnswers) : Res (Ptr × Task × NamedThread) := do
  let (thread, s) ← s.threadCreate threadRoutine threadArg priority a
  let tid := simplePoolGetCurrentSize s.threads
  let mem := storeWord mem (thread + l.priority) (UInt32.ofInt priority)
  let mem := storeWord mem (thread + l.arg) (ptrWord threadArg)
  let named := l.snprintfName mem thread (threadNameText name s.pid tid)
  let mem := storeWord named.mem (thread + l.tls) (ptrWord none)
  let mem := storeWord mem (thread + l.tid) (UInt32.ofInt tid)
  let mem := storeWord mem (thread + l.waitAep) (s.threads.mem thread).info.waitAep
  let mem := storeWord mem (thread + l.ipc) (UInt32.ofNat (s.threads.mem thread).info.ipc)
  pure (thread, s, { named with mem := mem })

/-- `sel4osapi_system_initialize_main_thread(system)`, with the main thread at `mainThread`: `priority` is that of `env`,
`waitAep` what the allocation of a notification returns, and `ipc` the user data of the thread. -/
def systemInitializeMainThread (l : ThreadLayout) (mem : Nat → UInt8) (mainThread : Ptr) (pid : Word) (priority : UInt8)
    (waitAep : Option CPtr) (ipc : Ptr) : Res NamedThread := do
  let named := l.snprintfName mem mainThread (mainThreadNameText pid)
  let mem := storeWord named.mem (mainThread + l.arg) (ptrWord none)
  let mem := storeWord mem (mainThread + l.tls) (ptrWord none)
  let mem := storeWord mem (mainThread + l.tid) 0
  let mem := storeWord mem (mainThread + l.priority) priority.toUInt32
  let mem := Function.update mem (mainThread + l.active) 1
  let waitAep ← checkSome waitAep "error == 0"
  let mem := storeWord mem (mainThread + l.waitAep) waitAep
  let mem := storeWord mem (mainThread + l.ipc) (UInt32.ofNat ipc)
  pure { named with mem := mem }

/-- `sel4osapi_thread_routine_wrapper`, up to the call of the routine of the thread; `userData` is the user data of the new
thread. -/
def threadRoutineWrapper (l : ThreadLayout) (mem : Nat → UInt8) (thread : Ptr) (userData : Word) : Res (Nat → UInt8) := do
  let mem := storeWord mem (thread + l.ipcWord) userData
  check (loadWord mem (thread + l.ipcWord) ≠ 0) "thread->info.ipc_word != 0"
  pure (Function.update mem (thread + l.active) 1)

/-- `sel4osapi_syslog_monitor_thread(thread)`: `monitoringThread` is the address of `sel4osapi_syslog_monitoring_thread`,
`started` whether `sel4utils_start_thread` succeeds, and `fuel` how many bytes of the name the model allows to be read. -/
def syslogMonitorThread (l : ThreadLayout) (s : Task) (mem : Nat → UInt8) (fuel : Nat) (thread monitoringThread : Ptr)
    (a : ThreadAnswers) (started : Bool) : Res (Ptr × Task × NamedThread) := do
  let name ← match stringAt mem fuel (thread + l.name) with
    | some name => .ok name
    | none => .error .diverged
  -- the array is as large as the bound that is passed
  let monitoringName := (monitorThreadNamePrefix ++ name).take (l.nameMaxLen - 1)
  let priority := intOfWord (loadWord mem (thread + l.priority))
  let (monitoring, s, named) ← l.threadCreate s mem (some monitoringName) monitoringThread (some thread) priority a
  check started "error == 0"
  pure (monitoring, s, named)

end ThreadLayout

end Sel4Osapi
