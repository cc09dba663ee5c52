import Sel4Osapi.Log

/-!
# The bounds of a line

`snprintf` returns the length of the whole text, whether it was stored or not. `__syslog_logMessage` takes it for what is in
the buffer: for a header of more than 4096 characters `SYSLOG_BUFFER_MAX_SIZE - len` is below zero and a word of almost
2^32, and for a line of more than 4095 characters the length passed on is more than was stored.
-/

namespace Sel4Osapi

namespace Logger

variable {s : Logger} {c : LogCall}

/-- A length that `snprintf` can return is the same as a word. -/
theorem toNat_ofNat_length {text : List UInt8} (h : text.length < 2 ^ 31) : (UInt32.ofNat text.length).toNat = text.length := by
  rw [UInt32.toNat_ofNat', Nat.mod_eq_of_lt (by omega)]

/-- What is left of the buffer after a header that fits it. -/
theorem toNat_room {text : List UInt8} (h : text.length ≤ 4096) :
    (syslogBufferMaxSize - UInt32.ofNat text.length).toNat = 4096 - text.length := by
  have hlen : (UInt32.ofNat text.length).toNat = text.length := toNat_ofNat_length (by omega)
  have hle : UInt32.ofNat text.length ≤ syslogBufferMaxSize := by
    rw [UInt32.le_iff_toNat_le, hlen]
    exact h
  rw [UInt32.toNat_sub_of_le _ _ hle, hlen]
  rfl

/-- What is left of the buffer after a header that does not, as a word. -/
theorem toNat_room_of_lt {text : List UInt8} (h : 4096 < text.length) (hfits : text.length < 2 ^ 31) :
    (syslogBufferMaxSize - UInt32.ofNat text.length).toNat = 2 ^ 32 + 4096 - text.length := by
  have hsize : syslogBufferMaxSize.toNat = 4096 := rfl
  rw [UInt32.toNat_sub, toNat_ofNat_length hfits, hsize, Nat.mod_eq_of_lt (by omega)]
  omega

/-- The length of a line is that of its text. -/
theorem formatLine_len (hheader : (s.header c).length < 2 ^ 31) (hmsg : c.msg.length < 2 ^ 31) :
    (s.formatLine c).len.toNat = (s.header c).length + c.msg.length := by
  simp only [formatLine]
  rw [UInt32.toNat_add, toNat_ofNat_length hheader, toNat_ofNat_length hmsg, Nat.mod_eq_of_lt (by omega)]

/-- A header that fits: the line is formatted as a whole. -/
theorem formatLine_buffer (h : (s.header c).length < 4096) :
    (s.formatLine c).buffer = (TextBuffer.ofMem s.buffer).snprintf 0 4096 (s.header c ++ c.msg) := by
  have hsize : syslogBufferMaxSize.toNat = 4096 := rfl
  simp only [formatLine]
  rw [toNat_room (by omega), toNat_ofNat_length (by omega), hsize, TextBuffer.snprintf_snprintf h]

/-- A header that fills the buffer: the message is dropped. -/
theorem formatLine_stored_of_eq (h : (s.header c).length = 4096) : (s.formatLine c).buffer.stored = 4095 := by
  have hsize : syslogBufferMaxSize.toNat = 4096 := rfl
  simp only [formatLine]
  rw [toNat_room (by omega), h, Nat.sub_self, TextBuffer.snprintf_zero, hsize, TextBuffer.snprintf_stored (by decide), h]
  rfl

/-- A header that is longer: the message is stored behind the buffer. -/
theorem lt_formatLine_extent (h : 4096 < (s.header c).length) (hfits : (s.header c).length < 2 ^ 31) :
    4096 < (s.formatLine c).buffer.extent := by
  simp only [formatLine]
  rw [toNat_room_of_lt h hfits, toNat_ofNat_length hfits, TextBuffer.snprintf_extent (by omega)]
  omega

/-- A line that is too long: it is cut off in the buffer but not in the length, unless the header alone is longer than the
buffer, and the message is then stored behind it. -/
theorem formatLine_too_long (hlen : 4096 ≤ (s.header c).length + c.msg.length) (hheader : (s.header c).length < 2 ^ 31)
    (hmsg : c.msg.length < 2 ^ 31) :
    ((s.formatLine c).buffer.stored = 4095 ∧ 4095 < (s.formatLine c).len.toNat) ∨ 4096 < (s.formatLine c).buffer.extent := by
  rcases Nat.lt_trichotomy (s.header c).length 4096 with hlt | heq | hgt
  · refine Or.inl ⟨?_, by rw [formatLine_len hheader hmsg]; omega⟩
    rw [formatLine_buffer hlt, TextBuffer.snprintf_stored (by decide), List.length_append]
    omega
  · exact Or.inl ⟨formatLine_stored_of_eq heq, by rw [formatLine_len hheader hmsg]; omega⟩
  · exact Or.inr (lt_formatLine_extent hgt hheader)

/-- A message is kept within the buffer: nothing is stored behind it, the length passed on is the number of characters that
are stored, these are at the front of the line, and the console takes them. -/
structure LineBounds (s : Logger) (c : LogCall) : Prop where
  inside : (s.formatLine c).buffer.extent ≤ 4096
  stored : (s.formatLine c).len.toNat = (s.formatLine c).buffer.stored
  len_le : (s.formatLine c).len.toNat ≤ 4095
  text : (List.range (s.formatLine c).len.toNat).map (s.formatLine c).buffer.mem = (s.header c ++ c.msg).take 4095
  returns : ∃ output, s.outMessage (s.formatLine c) = .ok output

/-- A line that is kept within the buffer was not too long for it. -/
theorem LineBounds.length_le (h : LineBounds s c) (hheader : (s.header c).length < 2 ^ 31) (hmsg : c.msg.length < 2 ^ 31) :
    (s.header c).length + c.msg.length ≤ 4095 := by
  rw [← formatLine_len hheader hmsg]
  exact h.len_le

/-- The console takes as many bytes as the buffer of the serial client has. -/
theorem exists_outMessage {l : Line} (h : l.len.toNat ≤ 4096) : ∃ output, s.outMessage l = .ok output := by
  unfold outMessage
  split
  · have hdata : ((List.range l.len.toNat).map l.buffer.mem).length ≤ serialBufSize.toNat := by
      rw [List.length_map, List.length_range]
      exact h
    have hnewline : (ascii "\n").length ≤ serialBufSize.toNat := by decide
    simp only [SerialSystem.assertSize, check_of_true hdata, check_of_true hnewline]
    exact ⟨_, rfl⟩
  · exact ⟨_, rfl⟩

/-- A line that is not too long for the buffer is kept within it. -/
theorem lineBounds_of_length_le (h : (s.header c).length + c.msg.length ≤ 4095) : LineBounds s c := by
  have hlen := formatLine_len (s := s) (c := c) (by omega) (by omega)
  have hbuffer := formatLine_buffer (s := s) (c := c) (by omega)
  have hstored : (s.formatLine c).buffer.stored = (s.header c).length + c.msg.length := by
    rw [hbuffer, TextBuffer.snprintf_stored (by decide), List.length_append]
    omega
  have hle : (s.formatLine c).len.toNat ≤ 4095 := hlen ▸ h
  refine ⟨?_, hlen.trans hstored.symm, hle, ?_, exists_outMessage (by omega)⟩
  · rw [hbuffer]
    exact TextBuffer.snprintf_extent_le (Nat.zero_le _)
  · rw [hlen, hbuffer, TextBuffer.map_range_snprintf (by decide), ← List.length_append, List.take_length,
      List.take_of_length_le (by rw [List.length_append]; exact h)]
    rw [← hbuffer, hstored]

end Logger

open Logger

/-- For every level, thread, file, function and message: `__syslog_logMessage` keeps a line within its buffer if and only if
its level is not logged, or the header and the message together have at most 4095 characters. `snprintf` returns the length
of a text as an `int`. -/
theorem log_line_bounds_iff (s : Logger) (c : LogCall) (hheader : (s.header c).length < 2 ^ 31) (hmsg : c.msg.length < 2 ^ 31) :
    (c.level.toNat ≤ s.loglevel.toNat → LineBounds s c ∧ ∃ s' output, s.logMessage c = .ok (s', some output)) ↔
      s.loglevel.toNat < c.level.toNat ∨ (s.header c).length + c.msg.length ≤ 4095 := by
  constructor
  · intro h
    rcases Nat.lt_or_ge s.loglevel.toNat c.level.toNat with hlt | hle
    · exact Or.inl hlt
    · exact Or.inr ((h hle).1.length_le hheader hmsg)
  · rintro (hlt | hlen) hle
    · omega
    · have hbounds := lineBounds_of_length_le hlen
      obtain ⟨output, houtput⟩ := hbounds.returns
      refine ⟨hbounds, { s with buffer := (s.formatLine c).buffer.mem }, output, ?_⟩
      simp only [logMessage, if_pos hle, houtput]
      rfl

/-- A thread that logs to the serial console, at the level of its messages. -/
def consoleLogger : Logger where
  loglevel := .info
  logmutex := true
  name := ascii "main"
  priority := 100
  logconsole := 1
  serialId := 1
  buffer := fun _ => 0

/-- An error of `main.c`. -/
def errorCall (msg : List UInt8) : LogCall where
  level := .error
  levelStr := ascii "ERROR"
  file := ascii "main.c"
  function := ascii "main"
  line := 7
  msg := msg

/-- A short message gets to the console. -/
theorem log_line_bounds_iff_short : ∃ s' output, consoleLogger.logMessage (errorCall (ascii "cannot allocate pbuf")) =
    .ok (s', some output) := by
  have hiff := log_line_bounds_iff consoleLogger (errorCall (ascii "cannot allocate pbuf")) (by decide) (by decide)
  exact (hiff.mpr (Or.inr (by decide)) (by decide)).2

/-- A message of 4096 characters is not kept within the buffer. -/
theorem log_line_too_long : ¬ ∀ s c, c.level.toNat ≤ s.loglevel.toNat → LineBounds s c := by
  intro hall
  have h := hall consoleLogger (errorCall (List.replicate 4096 97)) (by decide)
  have hmsg : (errorCall (List.replicate 4096 97)).msg.length = 4096 := List.length_replicate
  have hheader : (consoleLogger.header (errorCall (List.replicate 4096 97))).length < 2 ^ 31 := by decide
  have hlen := h.length_le hheader (by omega)
  omega

end Sel4Osapi
