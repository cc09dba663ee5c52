import Sel4Osapi.Lib.History
import Sel4Osapi.Lib.Transition
import Sel4Osapi.Lib.Waiting
import Sel4Osapi.Log

/-!
# log.c: the calls of several threads

After `sel4osapi_log_initialize` any number of threads call `__syslog_logMessage`, and the mutex is all that keeps them apart:
they have one static buffer. Every access to what they share is a step of its own: the comparison with the level, the mutex,
each byte that `snprintf` and `vsnprintf` store, each look at `sel4osapi_logconsole`, and each byte of the buffer that
`sel4osapi_io_serial_write` and `puts` read. A run is any interleaving, and the level and the console may be set at any time.

The name and the priority of a thread are set when it is created. How long a call waits for the serial server is left out.
-/

namespace Sel4Osapi

open Transition Waiting

/-- Where a thread is in `__syslog_logMessage`. -/
inductive LogPc where
  /-- in no call -/
  | idle
  /-- compares the level -/
  | compare
  /-- in `sel4osapi_log_lock` -/
  | lock
  /-- in the `snprintf` of the header, and in the `vsnprintf` of the message: about to make store number `i` -/
  | header (i : Nat)
  | message (i : Nat)
  /-- in `__syslog_outMessage`: tests `sel4osapi_logconsole`, and passes it on -/
  | console
  | device
  /-- in the first `sel4osapi_io_serial_write`, about to read byte `i`, and in the second -/
  | write (i : Nat)
  | newline
  /-- in `puts`, about to read byte `i` -/
  | puts (i : Nat)
  /-- in `sel4osapi_log_unlock` -/
  | unlock
  deriving DecidableEq, Repr

/-- Between `sel4osapi_log_lock` and `sel4osapi_log_unlock`. -/
def LogPc.Critical : LogPc → Prop
  | .idle | .compare | .lock => False
  | _ => True

/-- A thread that logs. -/
structure LogThread where
  name : List UInt8
  priority : Int
  pc : LogPc
  call : LogCall
  /-- the level that the level of the call was compared with -/
  loglevel : LogLevel
  len : Word
  /-- the `dev` of the first `sel4osapi_io_serial_write` -/
  dev : Int
  /-- the bytes read from the buffer -/
  data : List UInt8

/-- What the log puts out. -/
inductive LogWrite where
  /-- a call of `sel4osapi_io_serial_write` -/
  | serial (dev : Int) (data : List UInt8)
  | puts (s : List UInt8)
  deriving DecidableEq, Repr

/-- A call that is logged: the level it was compared with, the thread that makes it, and the console it finds. -/
structure LogEntry where
  loglevel : LogLevel
  name : List UInt8
  priority : Int
  logconsole : Int
  call : LogCall

/-- What the threads share, the threads, and what has happened so far. -/
structure LogSystem where
  loglevel : LogLevel
  logmutex : RecursiveMutex Nat
  logconsole : Int
  /-- of the process -/
  serialId : Int
  buffer : Nat → UInt8
  threads : Nat → LogThread
  /-- what was put out, in order -/
  output : List LogWrite
  /-- the calls that are to be logged, in the order in which their levels were compared, each with its thread -/
  passed : List (Nat × LogLevel × LogCall)
  /-- the calls that have got the mutex, in that order -/
  locked : List (Nat × LogEntry)

/-- What can happen. -/
inductive LogAction where
  /-- a thread calls `__syslog_logMessage` -/
  | call (t : Nat) (c : LogCall)
  /-- a thread takes a step in its call -/
  | step (t : Nat)
  /-- `sel4osapi_log_set_level` -/
  | setLevel (level : LogLevel)
  /-- the assignment of `sel4osapi_log_set_console` -/
  | setConsole (logConsole : Int)

namespace LogSystem

/-- A thread goes on. -/
def setThread (s : LogSystem) (t : Nat) (th : LogThread) : LogSystem :=
  { s with threads := Function.update s.threads t th }

/-- What the log depends on, in the call of a thread. -/
def logger (s : LogSystem) (t : Nat) : Logger where
  loglevel := s.loglevel
  logmutex := true
  name := (s.threads t).name
  priority := (s.threads t).priority
  logconsole := s.logconsole
  serialId := s.serialId
  buffer := s.buffer

/-- A step of a thread in its call. -/
def threadStep (s : LogSystem) (t : Nat) : Outcome Fault LogSystem :=
  let th := s.threads t
  match th.pc with
  | .idle => .blocked
  | .compare =>
    if th.call.level.toNat ≤ s.loglevel.toNat then
      .next { s.setThread t { th with pc := .lock, loglevel := s.loglevel } with
        passed := s.passed ++ [(t, s.loglevel, th.call)] }
    else .next (s.setThread t { th with pc := .idle })
  | .lock =>
    match s.logmutex.lock t with
    | none => .blocked
    | some m =>
      let entry : LogEntry :=
        { loglevel := th.loglevel, name := th.name, priority := th.priority, logconsole := s.logconsole, call := th.call }
      .next { s.setThread t { th with pc := .header 0 } with logmutex := m, locked := s.locked ++ [(t, entry)] }
  | .header i =>
    let text := (s.logger t).header th.call
    match (TextBuffer.stores 0 syslogBufferMaxSize.toNat text)[i]? with
    | some store => .next { s.setThread t { th with pc := .header (i + 1) } with buffer := store.apply s.buffer }
    | none => .next (s.setThread t { th with pc := .message 0, len := UInt32.ofNat text.length })
  | .message i =>
    match (TextBuffer.stores th.len.toNat (syslogBufferMaxSize - th.len).toNat th.call.msg)[i]? with
    | some store => .next { s.setThread t { th with pc := .message (i + 1) } with buffer := store.apply s.buffer }
    | none => .next (s.setThread t { th with pc := .console, len := th.len + UInt32.ofNat th.call.msg.length })
  | .console => .next (s.setThread t { th with pc := if s.logconsole ≠ 0 then .device else .puts 0, data := [] })
  | .device => .ofExcept do
    check (th.len.toNat ≤ serialBufSize.toNat) "size <= client->buf_size"
    pure (s.setThread t { th with pc := .write 0, dev := s.logconsole })
  | .write i =>
    if i < th.len.toNat then .next (s.setThread t { th with pc := .write (i + 1), data := th.data ++ [s.buffer i] })
    else .next { s.setThread t { th with pc := .newline } with output := s.output ++ [.serial th.dev th.data] }
  | .newline => .ofExcept do
    check ((ascii "\n").length ≤ serialBufSize.toNat) "size <= client->buf_size"
    pure { s.setThread t { th with pc := .unlock } with output := s.output ++ [.serial s.logconsole (ascii "\n")] }
  | .puts i =>
    if s.buffer i ≠ 0 then .next (s.setThread t { th with pc := .puts (i + 1), data := th.data ++ [s.buffer i] })
    else .next { s.setThread t { th with pc := .unlock } with output := s.output ++ [.puts th.data] }
  | .unlock => .next { s.setThread t { th with pc := .idle } with logmutex := s.logmutex.unlock t }

/-- One step of the threads that log. -/
def step (s : LogSystem) : LogAction → Outcome Fault LogSystem
  | .call t c => .guard ((s.threads t).pc = .idle) (.next (s.setThread t { s.threads t with pc := .compare, call := c }))
  | .step t => s.threadStep t
  | .setLevel level => .next { s with loglevel := level }
  | .setConsole logConsole => .next { s with logconsole := logConsole }

/-- After `sel4osapi_log_initialize`: the mutex has been created, and no thread is in a call. -/
structure Init (serialId : Int) (buffer : Nat → UInt8) (s : LogSystem) : Prop where
  logmutex : s.logmutex = .free
  serialId : s.serialId = serialId
  buffer : s.buffer = buffer
  threads : ∀ t, (s.threads t).pc = .idle
  output : s.output = []
  passed : s.passed = []
  locked : s.locked = []

/-- The console is not set while a thread has the mutex. -/
def ConsoleKept (s : LogSystem) : LogAction → Prop
  | .setConsole _ => s.logmutex.owner = none
  | _ => True

instance (s : LogSystem) (a : LogAction) : Decidable (s.ConsoleKept a) := by
  cases a <;> unfold ConsoleKept <;> infer_instance

end LogSystem

/-- The threads of a process that log, as a transition system; the static buffer holds `buffer` at first. -/
def logMachine (serialId : Int) (buffer : Nat → UInt8) : Machine Fault LogSystem LogAction where
  init := LogSystem.Init serialId buffer
  step := LogSystem.step

/-! ## One call after another -/

/-- The calls of `sel4osapi_io_serial_write` and of `puts` in an output. -/
def Logger.Output.writes : Logger.Output → List LogWrite
  | .serial dev writes => writes.map (LogWrite.serial dev)
  | .puts s => [.puts s]

namespace LogEntry

/-- What the log depends on, for a call that finds the buffer like this. -/
def logger (e : LogEntry) (serialId : Int) (buffer : Nat → UInt8) : Logger where
  loglevel := e.loglevel
  logmutex := true
  name := e.name
  priority := e.priority
  logconsole := e.logconsole
  serialId := serialId
  buffer := buffer

/-- A call of `__syslog_logMessage`: the buffer it leaves, and what it puts out. -/
def logMessage (e : LogEntry) (serialId : Int) (buffer : Nat → UInt8) : Res ((Nat → UInt8) × List LogWrite) := do
  let (logger, output) ← (e.logger serialId buffer).logMessage e.call
  pure (logger.buffer, (output.map Logger.Output.writes).getD [])

/-- Calls of `__syslog_logMessage`, each of which begins when the one before it has returned. -/
def logMessages (serialId : Int) (buffer : Nat → UInt8) : List LogEntry → Res ((Nat → UInt8) × List LogWrite)
  | [] => pure (buffer, [])
  | e :: es => do
    let (buffer, writes) ← e.logMessage serialId buffer
    let (buffer, rest) ← logMessages serialId buffer es
    pure (buffer, writes ++ rest)

end LogEntry

end Sel4Osapi
