import Sel4Osapi.Lib.TextBuffer
import Sel4Osapi.Serial

/-!
# log.c: the lines of the log

`__syslog_logMessage` formats a header and then the message into one static buffer, and hands the line to the console: to the
serial server if one is set, to `puts` otherwise. Strings are lists of bytes without the null; the message is what `msg` and
its arguments come to. Before `sel4osapi_log_initialize` there is no mutex, and the header does not name the thread. Who waits
for the mutex is left out.
-/

namespace Sel4Osapi

/-- `SYSLOG_BUFFER_MAX_SIZE`. -/
def syslogBufferMaxSize : Word := 4096

/-- `sel4osapi_loglevel_t`. -/
inductive LogLevel where
  | error
  | warn
  | info
  | trace
  deriving DecidableEq, Repr

/-- The value of the enumeration. -/
def LogLevel.toNat : LogLevel → Nat
  | .error => 0
  | .warn => 1
  | .info => 2
  | .trace => 3

/-- What the log depends on: its level and its mutex, the thread that calls it, the console and the serial client of the
process, and the memory from the static buffer on. -/
structure Logger where
  loglevel : LogLevel
  /-- `sel4osapi_gv_logmutex` is not null -/
  logmutex : Bool
  name : List UInt8
  priority : Int
  logconsole : Int
  serialId : Int
  buffer : Nat → UInt8

/-- The arguments of `__syslog_logMessage`. -/
structure LogCall where
  level : LogLevel
  levelStr : List UInt8
  file : List UInt8
  function : List UInt8
  line : Int
  msg : List UInt8

/-! ## Conversions -/

/-- The bytes of a literal. -/
def ascii (s : String) : List UInt8 := s.toList.map fun c => UInt8.ofNat c.toNat

/-- `%0<width>d`, and `%d` for width 0. -/
def formatInt (width : Nat) (n : Int) : List UInt8 :=
  let sign := if n < 0 then ascii "-" else []
  let digits := (Nat.toDigits 10 n.natAbs).map fun c => UInt8.ofNat c.toNat
  sign ++ List.replicate (width - sign.length - digits.length) 48 ++ digits

/-- `%<width>s`. -/
def formatStr (width : Nat) (s : List UInt8) : List UInt8 := List.replicate (width - s.length) 32 ++ s

namespace Logger

/-- The header: `[%s][%03d][%s:%d][%s][%5s] `, with the end of a long file name. -/
def header (s : Logger) (c : LogCall) : List UInt8 :=
  let file := if c.file.length > 30 then c.file.drop (c.file.length - 30) else c.file
  let thread :=
    if s.logmutex then ascii "[" ++ s.name ++ ascii "][" ++ formatInt 3 s.priority ++ ascii "]" else ascii "[N/A][0]"
  thread ++ ascii "[" ++ file ++ ascii ":" ++ formatInt 0 c.line ++ ascii "][" ++ c.function ++ ascii "][" ++
    formatStr 5 c.levelStr ++ ascii "] "

/-- A line as it is passed to `__syslog_outMessage`: the buffer, and the length. -/
structure Line where
  buffer : TextBuffer
  len : Word

/-- The line of a message: two calls of `snprintf` on one buffer. -/
def formatLine (s : Logger) (c : LogCall) : Line :=
  let buffer := (TextBuffer.ofMem s.buffer).snprintf 0 syslogBufferMaxSize.toNat (s.header c)
  let len := UInt32.ofNat (s.header c).length
  let buffer := buffer.snprintf len.toNat (syslogBufferMaxSize - len).toNat c.msg
  { buffer := buffer, len := len + UInt32.ofNat c.msg.length }

/-- What comes out of the log. -/
inductive Output where
  /-- the data of the calls of `sel4osapi_io_serial_write` -/
  | serial (dev : Int) (writes : List (List UInt8))
  /-- the string passed to `puts` -/
  | puts (s : List UInt8)

/-- `__syslog_outMessage(buf, len)`. -/
def outMessage (s : Logger) (l : Line) : Res Output :=
  if s.logconsole ≠ 0 then do
    let client : SerialClient := { id := s.serialId, bufSize := serialBufSize }
    let data := (List.range l.len.toNat).map l.buffer.mem
    SerialSystem.assertSize client (.write data)
    SerialSystem.assertSize client (.write (ascii "\n"))
    pure (.serial s.logconsole [data, ascii "\n"])
  else
    -- the first null is not behind the one stored last
    pure (.puts (((List.range l.buffer.stored).map l.buffer.mem).takeWhile fun b => b ≠ 0))

/-- `__syslog_logMessage(level, levelStr, file, function, line, msg, …)`. -/
def logMessage (s : Logger) (c : LogCall) : Res (Logger × Option Output) :=
  if c.level.toNat ≤ s.loglevel.toNat then do
    let line := s.formatLine c
    let output ← s.outMessage line
    pure ({ s with buffer := line.buffer.mem }, some output)
  else pure (s, none)

end Logger

end Sel4Osapi
