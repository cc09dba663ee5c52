import Sel4Osapi.LogThreads
import Sel4Osapi.Theorems.Log

/-!
# The lines of several threads

The calls of `__syslog_logMessage` put out what they would put out one after another, in the order in which they have got the
mutex, and leave the buffer as they would. The invariant is about the thread that has the mutex: `LogEntry.Progress` says
what is in the buffer and what has been put out at each place of the call, and every step of that thread keeps it. The other
threads change neither.
-/

namespace Sel4Osapi

open Transition Waiting Memory

namespace LogEntry

variable {e : LogEntry} {serialId : Int} {before buffer : Nat → UInt8}

/-- The stores of the header. -/
def headerStores (e : LogEntry) (serialId : Int) (before : Nat → UInt8) : List Store :=
  TextBuffer.stores 0 syslogBufferMaxSize.toNat ((e.logger serialId before).header e.call)

/-- `len` after the header. -/
def headerLen (e : LogEntry) (serialId : Int) (before : Nat → UInt8) : Word :=
  UInt32.ofNat ((e.logger serialId before).header e.call).length

/-- The stores of the message. -/
def messageStores (e : LogEntry) (serialId : Int) (before : Nat → UInt8) : List Store :=
  TextBuffer.stores (e.headerLen serialId before).toNat (syslogBufferMaxSize - e.headerLen serialId before).toNat e.call.msg

/-- The line of a call. -/
def line (e : LogEntry) (serialId : Int) (before : Nat → UInt8) : Logger.Line := (e.logger serialId before).formatLine e.call

/-- The line is in the buffer when all the stores have been made. -/
theorem line_mem : (e.line serialId before).buffer.mem =
    applyAll (applyAll before (e.headerStores serialId before)) (e.messageStores serialId before) := by
  simp only [line, Logger.formatLine, messageStores, headerStores, headerLen, ← TextBuffer.applyAll_stores]
  rfl

/-- There is a null behind what was stored of a line. -/
theorem line_null : (e.line serialId before).buffer.mem (e.line serialId before).buffer.stored = 0 := by
  simp only [line, Logger.formatLine]
  by_cases hroom : (syslogBufferMaxSize - UInt32.ofNat ((e.logger serialId before).header e.call).length).toNat = 0
  · -- the message is dropped, and the null is the one of the header
    rw [hroom, TextBuffer.snprintf_zero]
    exact TextBuffer.snprintf_null (by decide)
  · exact TextBuffer.snprintf_null hroom

/-- A call that is logged puts its line out. -/
theorem logMessage_of_level (hlevel : e.call.level.toNat ≤ e.loglevel.toNat) {output : Logger.Output}
    (ho : (e.logger serialId before).outMessage (e.line serialId before) = .ok output) :
    e.logMessage serialId before = .ok ((e.line serialId before).buffer.mem, output.writes) := by
  have hlogger : (e.logger serialId before).logMessage e.call =
      .ok ({ e.logger serialId before with buffer := (e.line serialId before).buffer.mem }, some output) := by
    unfold line at ho ⊢
    simp only [Logger.logMessage, if_pos (show e.call.level.toNat ≤ (e.logger serialId before).loglevel.toNat from hlevel), ho]
    rfl
  generalize (e.line serialId before).buffer.mem = after at hlogger ⊢
  rw [logMessage, hlogger]
  rfl

/-- On the serial console. -/
theorem outMessage_serial {l : Logger.Line} (hconsole : e.logconsole ≠ 0) (hlen : l.len.toNat ≤ serialBufSize.toNat) :
    (e.logger serialId before).outMessage l =
      .ok (.serial e.logconsole [(List.range l.len.toNat).map l.buffer.mem, ascii "\n"]) := by
  have hdata : ((List.range l.len.toNat).map l.buffer.mem).length ≤ serialBufSize.toNat := by
    rw [List.length_map, List.length_range]
    exact hlen
  have hnewline : (ascii "\n").length ≤ serialBufSize.toNat := by decide
  unfold Logger.outMessage
  rw [if_pos (show (e.logger serialId before).logconsole ≠ 0 from hconsole)]
  simp only [SerialSystem.assertSize, check_of_true hdata, check_of_true hnewline]
  rfl

/-- With `puts`, which reads up to the first null. -/
theorem outMessage_puts (hconsole : e.logconsole = 0) {i : Nat} (hi : (e.line serialId before).buffer.mem i = 0)
    (hlt : ∀ j, j < i → (e.line serialId before).buffer.mem j ≠ 0) :
    (e.logger serialId before).outMessage (e.line serialId before) =
      .ok (.puts ((List.range i).map (e.line serialId before).buffer.mem)) := by
  unfold Logger.outMessage
  rw [if_neg (show ¬ (e.logger serialId before).logconsole ≠ 0 from not_not.mpr hconsole),
    TextBuffer.takeWhile_map_range line_null hi hlt]
  rfl

/-- One more call, after the others. -/
theorem logMessages_snoc {es : List LogEntry} {buffer₀ : Nat → UInt8} {out writes : List LogWrite}
    (hes : logMessages serialId buffer₀ es = .ok (before, out)) (he : e.logMessage serialId before = .ok (buffer, writes)) :
    logMessages serialId buffer₀ (es ++ [e]) = .ok (buffer, out ++ writes) := by
  induction es generalizing buffer₀ out with
  | nil =>
    cases hes
    simp only [List.nil_append, logMessages, he]
    change Except.ok _ = Except.ok _
    rw [List.append_nil]
  | cons e₁ es ih =>
    simp only [List.cons_append, logMessages] at hes ⊢
    cases h₁ : e₁.logMessage serialId buffer₀ with
    | error f =>
      rw [h₁] at hes
      cases hes
    | ok r =>
      obtain ⟨buffer₁, writes₁⟩ := r
      rw [h₁] at hes
      change (logMessages serialId buffer₁ es >>= fun r => pure (r.1, writes₁ ++ r.2)) = _ at hes
      change (logMessages serialId buffer₁ (es ++ [e]) >>= fun r => pure (r.1, writes₁ ++ r.2)) = _
      cases h₂ : logMessages serialId buffer₁ es with
      | error f =>
        rw [h₂] at hes
        cases hes
      | ok r₂ =>
        rw [h₂] at hes
        cases hes
        rw [ih h₂]
        change Except.ok _ = Except.ok _
        rw [List.append_assoc]

/-! ## How far a call has come -/

/-- The entry is that of the call of a thread. -/
structure Of (e : LogEntry) (th : LogThread) : Prop where
  name : e.name = th.name
  priority : e.priority = th.priority
  call : e.call = th.call
  loglevel : e.loglevel = th.loglevel
  level : e.call.level.toNat ≤ e.loglevel.toNat

/-- The line is in the buffer. -/
structure Formatted (e : LogEntry) (serialId : Int) (before : Nat → UInt8) (th : LogThread) (buffer : Nat → UInt8) : Prop where
  buffer : buffer = (e.line serialId before).buffer.mem
  len : th.len = (e.line serialId before).len

/-- What is in the buffer, and what has been put out, when a thread has come this far in its call: `before` is what the call
found in the buffer. -/
def Progress (e : LogEntry) (serialId : Int) (before : Nat → UInt8) (th : LogThread) (buffer : Nat → UInt8)
    (begun : List LogWrite) : Prop :=
  match th.pc with
  | .idle | .compare | .lock => False
  | .header i => buffer = applyAll before ((e.headerStores serialId before).take i) ∧ begun = []
  | .message i =>
    th.len = e.headerLen serialId before ∧ begun = [] ∧
      buffer = applyAll (applyAll before (e.headerStores serialId before)) ((e.messageStores serialId before).take i)
  | .console => e.Formatted serialId before th buffer ∧ begun = []
  | .device => e.Formatted serialId before th buffer ∧ begun = [] ∧ e.logconsole ≠ 0 ∧ th.data = []
  | .write i =>
    e.Formatted serialId before th buffer ∧ begun = [] ∧ e.logconsole ≠ 0 ∧ th.dev = e.logconsole ∧
      th.len.toNat ≤ serialBufSize.toNat ∧ i ≤ th.len.toNat ∧ th.data = (List.range i).map buffer
  | .newline =>
    e.Formatted serialId before th buffer ∧ e.logconsole ≠ 0 ∧ th.len.toNat ≤ serialBufSize.toNat ∧
      begun = [.serial e.logconsole ((List.range th.len.toNat).map buffer)]
  | .puts i =>
    e.Formatted serialId before th buffer ∧ begun = [] ∧ e.logconsole = 0 ∧ (∀ j, j < i → buffer j ≠ 0) ∧
      th.data = (List.range i).map buffer
  | .unlock => e.logMessage serialId before = .ok (buffer, begun)

/-- What has been put out is what the call puts out, or its beginning. -/
theorem Progress.begun {th : LogThread} {begun : List LogWrite} (h : e.Progress serialId before th buffer begun)
    (hof : e.Of th) :
    begun = [] ∨ ∃ after writes, e.logMessage serialId before = .ok (after, writes) ∧ begun <+: writes := by
  unfold Progress at h
  split at h
  · exact h.elim
  · exact h.elim
  · exact h.elim
  · exact Or.inl h.2
  · exact Or.inl h.2.1
  · exact Or.inl h.2
  · exact Or.inl h.2.1
  · exact Or.inl h.2.1
  · obtain ⟨hf, hconsole, hlen, rfl⟩ := h
    rw [hf.len] at hlen ⊢
    refine Or.inr ⟨_, _, logMessage_of_level hof.level (outMessage_serial hconsole hlen), ?_⟩
    rw [hf.buffer]
    exact ⟨[.serial e.logconsole (ascii "\n")], rfl⟩
  · exact Or.inl h.2.1
  · exact Or.inr ⟨_, _, h, List.prefix_rfl⟩

end LogEntry

namespace LogSystem

variable {s s' : LogSystem} {t : Nat} {e : LogEntry} {serialId : Int} {before buffer₀ : Nat → UInt8} {begun : List LogWrite}

/-- The header that a thread formats is that of its entry. -/
theorem header_eq (serialId : Int) (before : Nat → UInt8) (hof : e.Of (s.threads t)) :
    (s.logger t).header (s.threads t).call = (e.logger serialId before).header e.call := by
  rw [hof.call]
  simp only [Logger.header, logger, LogEntry.logger, hof.name, hof.priority]

/-- The thread has gone on in its call, with what is in the buffer and what has been put out; nothing else has changed. -/
def GoesOn (s s' : LogSystem) (t : Nat) (e : LogEntry) (serialId : Int) (before : Nat → UInt8) (begun : List LogWrite) : Prop :=
  ∃ th buffer writes, s' = { s.setThread t th with buffer := buffer, output := s.output ++ writes } ∧ th.pc.Critical ∧
    e.Of th ∧ e.Progress serialId before th buffer (begun ++ writes)

/-- Nothing is put out. -/
theorem goesOn_quiet (hof : e.Of (s.threads t)) (pc : LogPc) (len : Word) (dev : Int) (data : List UInt8) (buffer : Nat → UInt8)
    (hpc : pc.Critical)
    (hp : e.Progress serialId before { s.threads t with pc := pc, len := len, dev := dev, data := data } buffer begun) :
    s.GoesOn { s.setThread t { s.threads t with pc := pc, len := len, dev := dev, data := data } with buffer := buffer } t e
      serialId before begun := by
  refine ⟨{ s.threads t with pc := pc, len := len, dev := dev, data := data }, buffer, [], ?_, hpc,
    ⟨hof.name, hof.priority, hof.call, hof.loglevel, hof.level⟩, ?_⟩
  · rw [List.append_nil]
    rfl
  · rw [List.append_nil]
    exact hp

/-- Something is put out. -/
theorem goesOn_put (hof : e.Of (s.threads t)) (pc : LogPc) (write : LogWrite) (hpc : pc.Critical)
    (hp : e.Progress serialId before { s.threads t with pc := pc } s.buffer (begun ++ [write])) :
    s.GoesOn { s.setThread t { s.threads t with pc := pc } with output := s.output ++ [write] } t e serialId before begun :=
  ⟨_, s.buffer, [write], rfl, hpc, ⟨hof.name, hof.priority, hof.call, hof.loglevel, hof.level⟩, hp⟩

/-- A store of the header, or the end of it. -/
theorem goesOn_header {i : Nat} (hof : e.Of (s.threads t)) (hp : e.Progress serialId before (s.threads t) s.buffer begun)
    (hpc : (s.threads t).pc = .header i) (hs : s.threadStep t = .next s') : s.GoesOn s' t e serialId before begun := by
  simp only [LogEntry.Progress, hpc] at hp
  obtain ⟨hbuffer, rfl⟩ := hp
  simp only [threadStep, hpc, header_eq serialId before hof] at hs
  split at hs
  · rename_i store hstore
    cases hs
    refine goesOn_quiet hof _ _ _ _ _ trivial ⟨?_, rfl⟩
    rw [hbuffer]
    exact (applyAll_take_succ hstore).symm
  · rename_i hnone
    cases hs
    have hall : (e.headerStores serialId before).take i = e.headerStores serialId before :=
      List.take_of_length_le (List.getElem?_eq_none_iff.mp hnone)
    refine goesOn_quiet hof _ _ _ _ _ trivial ⟨rfl, rfl, ?_⟩
    rw [hbuffer, hall, List.take_zero, applyAll_nil]

/-- A store of the message, or the end of it: the line is in the buffer. -/
theorem goesOn_message {i : Nat} (hof : e.Of (s.threads t)) (hp : e.Progress serialId before (s.threads t) s.buffer begun)
    (hpc : (s.threads t).pc = .message i) (hs : s.threadStep t = .next s') : s.GoesOn s' t e serialId before begun := by
  simp only [LogEntry.Progress, hpc] at hp
  obtain ⟨hlen, rfl, hbuffer⟩ := hp
  have hstores : TextBuffer.stores (s.threads t).len.toNat (syslogBufferMaxSize - (s.threads t).len).toNat
      (s.threads t).call.msg = e.messageStores serialId before := by
    rw [hlen, ← hof.call]
    rfl
  simp only [threadStep, hpc, hstores] at hs
  split at hs
  · rename_i store hstore
    cases hs
    refine goesOn_quiet hof _ _ _ _ _ trivial ⟨hlen, rfl, ?_⟩
    rw [hbuffer]
    exact (applyAll_take_succ hstore).symm
  · rename_i hnone
    cases hs
    have hall : (e.messageStores serialId before).take i = e.messageStores serialId before :=
      List.take_of_length_le (List.getElem?_eq_none_iff.mp hnone)
    refine goesOn_quiet hof _ _ _ _ _ trivial ⟨⟨?_, ?_⟩, rfl⟩
    · rw [hbuffer, hall, LogEntry.line_mem]
    · rw [hlen, ← hof.call]
      rfl

/-- A look at the console, which is what it was when the thread got the mutex. -/
theorem goesOn_console (hof : e.Of (s.threads t)) (hconsole : e.logconsole = s.logconsole)
    (hp : e.Progress serialId before (s.threads t) s.buffer begun) (hpc : (s.threads t).pc = .console)
    (hs : s.threadStep t = .next s') : s.GoesOn s' t e serialId before begun := by
  simp only [LogEntry.Progress, hpc] at hp
  obtain ⟨hf, rfl⟩ := hp
  simp only [threadStep, hpc] at hs
  by_cases hzero : s.logconsole = 0
  · simp only [hzero, ne_eq, not_true_eq_false, if_false] at hs
    cases hs
    refine goesOn_quiet hof _ _ _ _ _ trivial ?_
    exact ⟨⟨hf.buffer, hf.len⟩, rfl, hconsole.trans hzero, fun j hj => absurd hj (Nat.not_lt_zero j), rfl⟩
  · simp only [ne_eq, hzero, not_false_eq_true, if_true] at hs
    cases hs
    exact goesOn_quiet hof _ _ _ _ _ trivial ⟨⟨hf.buffer, hf.len⟩, rfl, hconsole ▸ hzero, rfl⟩

/-- The first call of `sel4osapi_io_serial_write`. -/
theorem goesOn_device (hof : e.Of (s.threads t)) (hconsole : e.logconsole = s.logconsole)
    (hp : e.Progress serialId before (s.threads t) s.buffer begun) (hpc : (s.threads t).pc = .device)
    (hs : s.threadStep t = .next s') : s.GoesOn s' t e serialId before begun := by
  simp only [LogEntry.Progress, hpc] at hp
  obtain ⟨hf, rfl, hzero, hdata⟩ := hp
  simp only [threadStep, hpc, Outcome.ofExcept_eq_next] at hs
  obtain ⟨_, hsize, hs⟩ := bind_ok hs
  cases hs
  refine goesOn_quiet hof _ _ _ _ _ trivial ?_
  exact ⟨⟨hf.buffer, hf.len⟩, rfl, hzero, hconsole.symm, of_check_ok hsize, Nat.zero_le _, hdata⟩

/-- A byte of the line is read by the serial client, or all of them have been. -/
theorem goesOn_write {i : Nat} (hof : e.Of (s.threads t)) (hp : e.Progress serialId before (s.threads t) s.buffer begun)
    (hpc : (s.threads t).pc = .write i) (hs : s.threadStep t = .next s') : s.GoesOn s' t e serialId before begun := by
  simp only [LogEntry.Progress, hpc] at hp
  obtain ⟨hf, rfl, hzero, hdev, hsize, hi, hdata⟩ := hp
  simp only [threadStep, hpc] at hs
  split at hs
  · rename_i hlt
    cases hs
    refine goesOn_quiet hof _ _ _ _ _ trivial ⟨⟨hf.buffer, hf.len⟩, rfl, hzero, hdev, hsize, hlt, ?_⟩
    rw [hdata, List.range_succ, List.map_append]
    rfl
  · rename_i hge
    cases hs
    refine goesOn_put hof _ _ trivial ⟨⟨hf.buffer, hf.len⟩, hzero, hsize, ?_⟩
    rw [hdev, hdata, show i = (s.threads t).len.toNat by omega]
    rfl

/-- The second call of `sel4osapi_io_serial_write`: the line is out. -/
theorem goesOn_newline (hof : e.Of (s.threads t)) (hconsole : e.logconsole = s.logconsole)
    (hp : e.Progress serialId before (s.threads t) s.buffer begun) (hpc : (s.threads t).pc = .newline)
    (hs : s.threadStep t = .next s') : s.GoesOn s' t e serialId before begun := by
  simp only [LogEntry.Progress, hpc] at hp
  obtain ⟨hf, hzero, hsize, rfl⟩ := hp
  simp only [threadStep, hpc, Outcome.ofExcept_eq_next] at hs
  obtain ⟨_, -, hs⟩ := bind_ok hs
  cases hs
  refine goesOn_put hof _ _ trivial ?_
  rw [hf.len] at hsize ⊢
  simp only [LogEntry.Progress]
  rw [LogEntry.logMessage_of_level hof.level (LogEntry.outMessage_serial hzero hsize), hf.buffer, ← hconsole]
  rfl

/-- A character of the line is read by `puts`, or the null behind it: the line is out. -/
theorem goesOn_puts {i : Nat} (hof : e.Of (s.threads t)) (hp : e.Progress serialId before (s.threads t) s.buffer begun)
    (hpc : (s.threads t).pc = .puts i) (hs : s.threadStep t = .next s') : s.GoesOn s' t e serialId before begun := by
  simp only [LogEntry.Progress, hpc] at hp
  obtain ⟨hf, rfl, hzero, hlt, hdata⟩ := hp
  simp only [threadStep, hpc] at hs
  split at hs
  · rename_i hchar
    cases hs
    refine goesOn_quiet hof _ _ _ _ _ trivial ⟨⟨hf.buffer, hf.len⟩, rfl, hzero, ?_, ?_⟩
    · intro j hj
      rcases Nat.lt_succ_iff_lt_or_eq.mp hj with hj | rfl
      · exact hlt j hj
      · exact hchar
    · rw [hdata, List.range_succ, List.map_append]
      rfl
  · rename_i hnull
    cases hs
    refine goesOn_put hof _ _ trivial ?_
    simp only [LogEntry.Progress]
    rw [hf.buffer] at hlt hnull hdata ⊢
    rw [LogEntry.logMessage_of_level hof.level (LogEntry.outMessage_puts hzero (not_not.mp hnull) hlt), hdata]
    rfl

/-- A step of the thread that has the mutex, up to the unlocking: the call goes on, and no other thread does. -/
theorem progress_step (hof : e.Of (s.threads t)) (hconsole : e.logconsole = s.logconsole)
    (hp : e.Progress serialId before (s.threads t) s.buffer begun) (hne : (s.threads t).pc ≠ .unlock)
    (hs : s.threadStep t = .next s') : s.GoesOn s' t e serialId before begun := by
  cases hpc : (s.threads t).pc with
  | idle | compare | lock => simp only [LogEntry.Progress, hpc] at hp
  | header i => exact goesOn_header hof hp hpc hs
  | message i => exact goesOn_message hof hp hpc hs
  | console => exact goesOn_console hof hconsole hp hpc hs
  | device => exact goesOn_device hof hconsole hp hpc hs
  | write i => exact goesOn_write hof hp hpc hs
  | newline => exact goesOn_newline hof hconsole hp hpc hs
  | puts i => exact goesOn_puts hof hp hpc hs
  | unlock => exact absurd hpc hne

/-! ## The invariant -/

/-- The call for which a thread is in `sel4osapi_log_lock`. -/
def waiting (s : LogSystem) (t : Nat) : List (LogLevel × LogCall) :=
  if (s.threads t).pc = .lock then [((s.threads t).loglevel, (s.threads t).call)] else []

/-- A thread has the mutex: those before it have run one after another, and its own call has come as far as it has. -/
structure Busy (serialId : Int) (buffer₀ : Nat → UInt8) (s : LogSystem) (t : Nat) (done : List (Nat × LogEntry)) (e : LogEntry)
    (before : Nat → UInt8) (out begun : List LogWrite) : Prop where
  locked : s.locked = done ++ [(t, e)]
  done : LogEntry.logMessages serialId buffer₀ (done.map Prod.snd) = .ok (before, out)
  output : s.output = out ++ begun
  of : e.Of (s.threads t)
  logconsole : e.logconsole = s.logconsole
  progress : e.Progress serialId before (s.threads t) s.buffer begun

/-- The threads between lock and unlock are one at most; the calls before have run one after another; and each thread has got the
mutex for its calls in the order in which it made them. -/
structure Inv (serialId : Int) (buffer₀ : Nat → UInt8) (s : LogSystem) : Prop where
  held : s.logmutex.HeldBy fun t => (s.threads t).pc.Critical
  idle : s.logmutex.owner = none →
    LogEntry.logMessages serialId buffer₀ (s.locked.map Prod.snd) = .ok (s.buffer, s.output)
  busy : ∀ t, s.logmutex.owner = some t → ∃ done e before out begun, s.Busy serialId buffer₀ t done e before out begun
  passed : ∀ t, History.events t s.passed =
    (History.events t s.locked).map (fun e => (e.loglevel, e.call)) ++ s.waiting t
  level : ∀ t, (s.threads t).pc = .lock → (s.threads t).call.level.toNat ≤ (s.threads t).loglevel.toNat

@[simp] theorem setThread_self (s : LogSystem) (t : Nat) (th : LogThread) : (s.setThread t th).threads t = th := by
  simp [setThread]

theorem setThread_of_ne {u : Nat} (h : u ≠ t) (th : LogThread) : (s.setThread t th).threads u = s.threads u := by
  simp [setThread, h]

/-- A thread that has not moved waits for what it waited for. -/
theorem waiting_of_eq {u : Nat} (h : s'.threads u = s.threads u) : s'.waiting u = s.waiting u := by
  unfold waiting
  rw [h]

namespace Inv

variable {th : LogThread}

/-- Initially no thread is in a call. -/
theorem init (h : LogSystem.Init serialId buffer₀ s) : s.Inv serialId buffer₀ where
  held := by
    rw [h.logmutex]
    refine RecursiveMutex.HeldBy.free ?_
    intro t
    rw [h.threads t]
    exact id
  idle _ := by
    rw [h.locked, h.output, h.buffer]
    rfl
  busy t ht := by
    rw [h.logmutex] at ht
    cases ht
  passed t := by
    rw [h.passed, h.locked, waiting, h.threads t]
    rfl
  level t ht := by
    rw [h.threads t] at ht
    cases ht

/-- A thread without the mutex goes on without it. -/
theorem outside (h : s.Inv serialId buffer₀) (hn : ¬ (s.threads t).pc.Critical) (hn' : ¬ th.pc.Critical)
    {passed' : List (Nat × LogLevel × LogCall)}
    (hpassed : ∀ u, u ≠ t → History.events u passed' = History.events u s.passed)
    (hself : History.events t passed' = (History.events t s.locked).map (fun e => (e.loglevel, e.call)) ++
      if th.pc = .lock then [(th.loglevel, th.call)] else [])
    (hlevel : th.pc = .lock → th.call.level.toNat ≤ th.loglevel.toNat) :
    Inv serialId buffer₀ { s.setThread t th with passed := passed' } where
  held := by
    refine h.held.congr ?_
    intro u
    rcases eq_or_ne u t with rfl | hu
    · exact ⟨fun hc => absurd (by simpa using hc) hn', fun hc => absurd hc hn⟩
    · exact iff_of_eq (congrArg (fun th => LogPc.Critical (LogThread.pc th)) (setThread_of_ne hu th))
  idle := h.idle
  busy u hu := by
    obtain ⟨done, e, before, out, begun, hb⟩ := h.busy u hu
    have hne : u ≠ t := by
      rintro rfl
      exact hn ((h.held.owner u).mpr hu)
    have hth : ({ s.setThread t th with passed := passed' } : LogSystem).threads u = s.threads u := setThread_of_ne hne th
    refine ⟨done, e, before, out, begun, hb.locked, hb.done, hb.output, ?_, hb.logconsole, ?_⟩
    · rw [hth]
      exact hb.of
    · rw [hth]
      exact hb.progress
  passed u := by
    rcases eq_or_ne u t with rfl | hu
    · simp only [waiting, setThread_self]
      exact hself
    · refine (hpassed u hu).trans ((h.passed u).trans (congrArg _ ?_))
      exact (waiting_of_eq (setThread_of_ne hu th)).symm
  level u hu := by
    rcases eq_or_ne u t with rfl | hne
    · simp only [setThread_self] at hu ⊢
      exact hlevel hu
    · simp only [setThread_of_ne hne] at hu ⊢
      exact h.level u hu

/-- The comparison with the level: the call is to be logged, or it returns. -/
theorem compare (h : s.Inv serialId buffer₀) (hpc : (s.threads t).pc = .compare) (hs : s.threadStep t = .next s') :
    s'.Inv serialId buffer₀ := by
  have hn : ¬ (s.threads t).pc.Critical := by
    rw [hpc]
    exact id
  have hself := h.passed t
  rw [waiting, hpc, if_neg (by decide), List.append_nil] at hself
  simp only [threadStep, hpc] at hs
  split at hs
  · rename_i hlevel
    cases hs
    refine h.outside hn id (fun u hu => History.events_snoc_of_ne hu _) ?_ (fun _ => hlevel)
    rw [History.events_snoc_self, hself]
    rfl
  · cases hs
    exact h.outside hn id (fun _ _ => rfl) (hself.trans (List.append_nil _).symm) (fun hlock => by cases hlock)

/-- A thread gets the mutex: it begins where the calls before it have ended. -/
theorem lock (h : s.Inv serialId buffer₀) (hpc : (s.threads t).pc = .lock) (hs : s.threadStep t = .next s') :
    s'.Inv serialId buffer₀ := by
  have hn : ¬ (s.threads t).pc.Critical := by
    rw [hpc]
    exact id
  simp only [threadStep, hpc] at hs
  split at hs
  · cases hs
  · rename_i m hm
    have hfree : s.logmutex.owner = none := by
      cases howner : s.logmutex.owner with
      | none => rfl
      | some u =>
        have hut : u ≠ t := by
          rintro rfl
          exact hn ((h.held.owner u).mpr howner)
        have hblocked : s.logmutex.lock t = none := RecursiveMutex.lock_eq_none.mpr ⟨u, howner, hut⟩
        rw [hblocked] at hm
        cases hm
    cases hs
    have hheld : RecursiveMutex.HeldBy m fun u => ((s.setThread t { s.threads t with pc := .header 0 }).threads u).pc.Critical :=
      h.held.lock hm hn (by rw [setThread_self]; trivial) (fun u hu => by rw [setThread_of_ne hu])
    have howner : m.owner = some t := (hheld.owner t).mp (by rw [setThread_self]; trivial)
    refine ⟨hheld, ?_, ?_, ?_, ?_⟩
    · intro hnone
      rw [show m.owner = none from hnone] at howner
      cases howner
    · intro u hu
      cases hu.symm.trans howner
      refine ⟨s.locked, _, s.buffer, s.output, [], rfl, h.idle hfree, (List.append_nil _).symm, ?_, rfl, ?_⟩
      · simp only [setThread_self]
        exact ⟨rfl, rfl, rfl, rfl, h.level t hpc⟩
      · simp only [LogEntry.Progress, setThread_self, List.take_zero]
        exact ⟨rfl, trivial⟩
    · intro u
      rcases eq_or_ne u t with rfl | hu
      · have hself := h.passed u
        rw [waiting, if_pos hpc] at hself
        refine hself.trans ?_
        simp [waiting]
      · refine (h.passed u).trans ?_
        rw [History.events_snoc_of_ne hu]
        exact congrArg _ (waiting_of_eq (setThread_of_ne hu _)).symm
    · intro u hu
      rcases eq_or_ne u t with rfl | hne
      · simp [setThread] at hu
      · simp only [setThread_of_ne hne] at hu ⊢
        exact h.level u hu

/-- The thread with the mutex goes on. -/
theorem inside (h : s.Inv serialId buffer₀) (hc : (s.threads t).pc.Critical) (hne : (s.threads t).pc ≠ .unlock)
    (hs : s.threadStep t = .next s') : s'.Inv serialId buffer₀ := by
  have howner := (h.held.owner t).mp hc
  obtain ⟨done, e, before, out, begun, hb⟩ := h.busy t howner
  obtain ⟨th, buffer, writes, rfl, hcrit, hof, hprogress⟩ := progress_step hb.of hb.logconsole hb.progress hne hs
  have hnlock : ∀ {p : LogPc}, p.Critical → p ≠ .lock := by
    rintro p hp rfl
    exact hp
  refine ⟨?_, ?_, ?_, ?_, ?_⟩
  · refine h.held.congr ?_
    intro u
    rcases eq_or_ne u t with rfl | hu
    · simp only [setThread_self]
      exact iff_of_true hcrit hc
    · simp only [setThread_of_ne hu]
  · intro hnone
    rw [show s.logmutex.owner = none from hnone] at howner
    cases howner
  · intro u hu
    cases hu.symm.trans howner
    refine ⟨done, e, before, out, begun ++ writes, hb.locked, hb.done, ?_, ?_, hb.logconsole, ?_⟩
    · simp only [hb.output, List.append_assoc]
    · simp only [setThread_self]
      exact hof
    · simp only [setThread_self]
      exact hprogress
  · intro u
    rcases eq_or_ne u t with rfl | hu
    · have hself := h.passed u
      rw [waiting, if_neg (hnlock hc)] at hself
      simp only [waiting, setThread_self, if_neg (hnlock hcrit)]
      exact hself
    · exact (h.passed u).trans (congrArg _ (waiting_of_eq (setThread_of_ne hu _)).symm)
  · intro u hu
    rcases eq_or_ne u t with rfl | hne
    · simp only [setThread_self] at hu
      exact absurd hu (hnlock hcrit)
    · simp only [setThread_of_ne hne] at hu ⊢
      exact h.level u hu

/-- The thread with the mutex unlocks it: its call has run as a whole. -/
theorem unlock (h : s.Inv serialId buffer₀) (hpc : (s.threads t).pc = .unlock) (hs : s.threadStep t = .next s') :
    s'.Inv serialId buffer₀ := by
  have hc : (s.threads t).pc.Critical := by
    rw [hpc]
    trivial
  obtain ⟨done, e, before, out, begun, hb⟩ := h.busy t ((h.held.owner t).mp hc)
  have hcall := hb.progress
  simp only [LogEntry.Progress, hpc] at hcall
  simp only [threadStep, hpc] at hs
  cases hs
  have hheld : RecursiveMutex.HeldBy (s.logmutex.unlock t) fun u =>
      ((s.setThread t { s.threads t with pc := .idle }).threads u).pc.Critical :=
    h.held.unlock hc (by rw [setThread_self]; exact id) (fun u hu => by rw [setThread_of_ne hu])
  have hfree : (s.logmutex.unlock t).owner = none := by
    cases howner : (s.logmutex.unlock t).owner with
    | none => rfl
    | some u =>
      have hu := (hheld.owner u).mpr howner
      rcases eq_or_ne u t with rfl | hne
      · rw [setThread_self] at hu
        exact hu.elim
      · rw [setThread_of_ne hne] at hu
        exact absurd (h.held.unique hu hc) hne
  refine ⟨hheld, ?_, ?_, ?_, ?_⟩
  · intro _
    simp only [setThread]
    rw [hb.locked, List.map_append, hb.output]
    exact LogEntry.logMessages_snoc hb.done hcall
  · intro u hu
    rw [show (s.logmutex.unlock t).owner = some u from hu] at hfree
    cases hfree
  · intro u
    rcases eq_or_ne u t with rfl | hu
    · have hself := h.passed u
      rw [waiting, hpc, if_neg (by decide)] at hself
      refine hself.trans (congrArg _ ?_)
      simp [waiting]
    · exact (h.passed u).trans (congrArg _ (waiting_of_eq (setThread_of_ne hu _)).symm)
  · intro u hu
    rcases eq_or_ne u t with rfl | hne
    · simp [setThread] at hu
    · simp only [setThread_of_ne hne] at hu ⊢
      exact h.level u hu

/-- Every step keeps the invariant, when the console is not set while a thread has the mutex. -/
theorem step {a : LogAction} (h : s.Inv serialId buffer₀) (hok : s.ConsoleKept a) (hs : s.step a = .next s') :
    s'.Inv serialId buffer₀ := by
  cases a with
  | call t c =>
    obtain ⟨hpc, hs⟩ := Outcome.guard_eq_next.mp hs
    cases hs
    have hself := h.passed t
    rw [waiting, hpc, if_neg (by decide)] at hself
    exact h.outside (by rw [hpc]; exact id) id (fun _ _ => rfl) hself (fun hlock => by cases hlock)
  | step t =>
    by_cases hc : (s.threads t).pc.Critical
    · by_cases hne : (s.threads t).pc = .unlock
      · exact h.unlock hne hs
      · exact h.inside hc hne hs
    · change s.threadStep t = .next s' at hs
      cases hpc : (s.threads t).pc with
      | idle =>
        simp only [threadStep, hpc] at hs
        cases hs
      | compare => exact h.compare hpc hs
      | lock => exact h.lock hpc hs
      | header | message | console | device | write | newline | puts | unlock =>
        rw [hpc] at hc
        exact absurd trivial hc
  | setLevel level =>
    cases hs
    refine ⟨h.held, h.idle, ?_, h.passed, h.level⟩
    intro t ht
    obtain ⟨done, e, before, out, begun, hb⟩ := h.busy t ht
    exact ⟨done, e, before, out, begun, hb.locked, hb.done, hb.output, hb.of, hb.logconsole, hb.progress⟩
  | setConsole logConsole =>
    cases hs
    refine ⟨h.held, h.idle, ?_, h.passed, h.level⟩
    intro t ht
    have hnone : s.logmutex.owner = none := hok
    rw [show s.logmutex.owner = some t from ht] at hnone
    cases hnone

end Inv

/-- The invariant holds in every run in which the console is kept. -/
theorem inv_of_reachable (h : (logMachine serialId buffer₀).ReachableVia ConsoleKept s) : s.Inv serialId buffer₀ :=
  h.invariant (fun _ h₀ => .init h₀) fun _ _ _ hinv hok hs => hinv.step hok hs

end LogSystem

/-- In every run of any number of threads that call `__syslog_logMessage`, at any levels, while the level is set at any time and
the console while no thread has the mutex: at most one thread is between lock and unlock. When none is, what was put out and
what is in the buffer are what the calls that have got the mutex would have put out and left one after another, in that order.
When one is, they are what the calls before it would have, and then nothing of its own line or the beginning of it. Every
thread has got the mutex once for each of its calls that passed the comparison, in its order, except for one for which it
waits. -/
theorem log_lines_whole {serialId : Int} {buffer₀ : Nat → UInt8} {s : LogSystem}
    (h : (logMachine serialId buffer₀).ReachableVia LogSystem.ConsoleKept s) :
    (∀ t u, (s.threads t).pc.Critical → (s.threads u).pc.Critical → t = u) ∧
    (s.logmutex.owner = none →
      LogEntry.logMessages serialId buffer₀ (s.locked.map Prod.snd) = .ok (s.buffer, s.output)) ∧
    (∀ t, s.logmutex.owner = some t → ∃ done e before out begun, s.locked = done ++ [(t, e)] ∧
      LogEntry.logMessages serialId buffer₀ (done.map Prod.snd) = .ok (before, out) ∧ s.output = out ++ begun ∧
      (begun = [] ∨ ∃ after writes, e.logMessage serialId before = .ok (after, writes) ∧ begun <+: writes)) ∧
    ∀ t, History.events t s.passed = (History.events t s.locked).map (fun e => (e.loglevel, e.call)) ++ s.waiting t := by
  have hinv := LogSystem.inv_of_reachable h
  refine ⟨?_, hinv.idle, ?_, hinv.passed⟩
  · intro t u ht hu
    exact hinv.held.unique ht hu
  · intro t ht
    obtain ⟨done, e, before, out, begun, hb⟩ := hinv.busy t ht
    exact ⟨done, e, before, out, begun, hb.locked, hb.done, hb.output, hb.progress.begun hb.of⟩

/-- A short message. -/
def shortCall (msg : String) : LogCall :=
  { level := .info, levelStr := ascii "INFO", file := ascii "f", function := ascii "g", line := 1, msg := ascii msg }

/-- Threads that have not logged yet, on the console of the kernel. -/
def newLoggers : LogSystem where
  loglevel := .info
  logmutex := .free
  logconsole := 0
  serialId := 1
  buffer := fun _ => 0
  threads t :=
    { name := if t = 0 then ascii "a" else ascii "b", priority := 7, pc := .idle, call := shortCall "", loglevel := .error,
      len := 0, dev := 0, data := [] }
  output := []
  passed := []
  locked := []

theorem newLoggers_init : (logMachine 1 fun _ => 0).init newLoggers := ⟨rfl, rfl, rfl, fun _ => rfl, rfl, rfl, rfl⟩

/-- Two threads call at the same time; the second one gets the mutex first, and the first one has stored two bytes of its header
when the line of the second is out. -/
def twoLoggersRun : List LogAction :=
  [.call 0 (shortCall "x"), .call 1 (shortCall "y"), .step 0, .step 1] ++ List.replicate 58 (.step 1) ++
    List.replicate 3 (.step 0)

/-- The first line is out as a whole when the second is begun. -/
theorem log_lines_whole_twoLoggers : ∃ s, (logMachine 1 fun _ => 0).ReachableVia LogSystem.ConsoleKept s ∧
    s.output = [.puts (ascii "[b][007][f:1][g][ INFO] y")] ∧ s.locked.map Prod.fst = [1, 0] ∧
    ∃ done e before out begun, s.locked = done ++ [(0, e)] ∧
      LogEntry.logMessages 1 (fun _ => 0) (done.map Prod.snd) = .ok (before, out) ∧ s.output = out ++ begun ∧
      (begun = [] ∨ ∃ after writes, e.logMessage 1 before = .ok (after, writes) ∧ begun <+: writes) := by
  have hinit : (logMachine 1 fun _ => 0).ReachableVia LogSystem.ConsoleKept newLoggers := .init newLoggers_init
  obtain ⟨s, hs, hP⟩ := hinit.exists_of_exec twoLoggersRun
    (fun s => decide (s.output = [.puts (ascii "[b][007][f:1][g][ INFO] y")] ∧ s.locked.map Prod.fst = [1, 0] ∧
      s.logmutex.owner = some 0)) (by decide)
  obtain ⟨houtput, hlocked, howner⟩ := of_decide_eq_true hP
  exact ⟨s, hs, houtput, hlocked, (log_lines_whole hs).2.2.1 0 howner⟩

end Sel4Osapi
