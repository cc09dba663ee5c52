import Sel4Osapi.Lemmas.Serial

/-!
# The serial server: what a read takes from the device

The server is watched by a history variable that keeps, for the request that is being served, the characters
`ps_cdev_getchar` has returned and the last `tNow`. The variable `ret` of `SERIAL_OP_READ` is set to `EOF` before the loop
over the bytes and not between two of them, so at most one character is polled for a request, and it is stored as often as
the size says.
-/

namespace Sel4Osapi

open Transition Memory

/-- What the request that is being served has seen. -/
structure ReadHistory where
  /-- the characters other than `EOF` that `ps_cdev_getchar` returned, in order -/
  got : List UInt8
  /-- the last `tNow` -/
  tNow : Option Word
  deriving DecidableEq, Repr

namespace ReadHistory

/-- Nothing has been seen. -/
def empty : ReadHistory := { got := [], tNow := none }

/-- What a step adds: a new request begins when the server looks at it. -/
def record (h : ReadHistory) (s : SerialSystem) : SerialAction → ReadHistory
  | .server time char _ =>
    match s.server.pc with
    | .lookup => empty
    | .readWhile => if s.server.ret = none then { h with tNow := some time } else h
    | .readGetchar => { h with got := h.got ++ char.toList }
    | _ => h
  | _ => h

end ReadHistory

/-- The serial server with the history of the request it serves. -/
def serialReadMachine (processMax : Int) : Machine Fault (SerialSystem × ReadHistory) SerialAction :=
  (serialMachine processMax).recorded .empty .record

/-! ## The invariant -/

/-- The timeout is over at the last `tNow`. -/
def SerialServer.TimedOut (v : SerialServer) (h : ReadHistory) : Prop :=
  v.timeout > 0 ∧ ∃ tNow, h.tNow = some tNow ∧ tNow - v.tStart > v.timeout

/-- The server has polled at most one character, and all that it stored is that character. -/
def SerialServer.Polled (v : SerialServer) (h : ReadHistory) : Prop :=
  match v.ret with
  | none => h.got = [] ∧ v.stored = []
  | some c => h.got = [c] ∧ ∀ b ∈ v.stored, b = c

/-- What the server has polled and stored when it is about to reply to a read of `size` bytes. -/
def SerialServer.PolledAll (v : SerialServer) (h : ReadHistory) (size : Nat) : Prop :=
  (h.got = [] ∧ v.stored = [] ∧ (0 < size → v.TimedOut h)) ∨
    ∃ c, h.got = [c] ∧ v.stored = List.replicate size c ∧ 0 < size

/-- What the server has polled while it serves the call `c`. -/
def SerialServer.ReadLocal (v : SerialServer) (c : SerialCall) (h : ReadHistory) : Prop :=
  match v.pc with
  | .readTimeout | .readStart | .readGetchar => v.Polled h ∧ v.ret = none
  | .readFor => v.Polled h ∧ (v.ret ≠ none → 0 < v.opSize.toNat)
  | .readWhile => v.Polled h
  | .readCheck => v.Polled h ∧ (v.ret = none → v.TimedOut h)
  | .reply => ∀ size timeout, c.request = .read size timeout → v.timeout = timeout ∧ v.PolledAll h size.toNat
  | _ => True

/-- The invariant of the server and its history. -/
def SerialReadInv (x : SerialSystem × ReadHistory) : Prop := x.1.server.ReadLocal (x.1.calls x.1.server.caller) x.2

/-- Nothing is said of a server that waits or looks at a request. -/
theorem SerialServer.ReadLocal.of_idle {v : SerialServer} (hpc : v.pc = .recv ∨ v.pc = .lookup) (c : SerialCall)
    (h : ReadHistory) : v.ReadLocal c h := by
  rcases hpc with hpc | hpc <;> simp [SerialServer.ReadLocal, hpc]

/-- Only the request of the call that is served matters. -/
theorem SerialServer.ReadLocal.congr {v : SerialServer} {c c' : SerialCall} {h : ReadHistory} (hl : v.ReadLocal c h)
    (hc : c'.request = c.request) : v.ReadLocal c' h := by
  unfold SerialServer.ReadLocal at hl ⊢
  rw [hc]
  exact hl

/-- A step of a call leaves every request as it is; it can only hand one to the server. -/
theorem SerialSystem.callStep_frame {s s' : SerialSystem} {k : Nat} (hs : s.callStep k = .next s') :
    (s'.server = s.server ∨ s'.server.pc = .lookup) ∧ ∀ j, (s'.calls j).request = (s.calls j).request := by
  have hset : ∀ (c : SerialCall), c.request = (s.calls k).request →
      ∀ j, (Function.update s.calls k c j).request = (s.calls j).request := by
    intro c hc j
    rcases eq_or_ne j k with rfl | hne
    · rw [Function.update_self, hc]
    · rw [Function.update_of_ne hne]
  unfold SerialSystem.callStep at hs
  cases hp : (s.calls k).pc with
  | idle | await | done => simp [hp] at hs
  | take =>
    simp only [hp, Outcome.guard_eq_next, Outcome.next.injEq] at hs
    obtain ⟨-, rfl⟩ := hs
    exact ⟨Or.inl rfl, hset _ rfl⟩
  | store i =>
    simp only [hp] at hs
    split at hs
    · cases hs
      exact ⟨Or.inl rfl, hset _ rfl⟩
    · cases hs
      exact ⟨Or.inl rfl, hset _ rfl⟩
  | call =>
    simp only [hp, Outcome.guard_eq_next, Outcome.next.injEq] at hs
    obtain ⟨-, rfl⟩ := hs
    exact ⟨Or.inr rfl, hset _ rfl⟩
  | copyOut i =>
    simp only [hp] at hs
    split at hs
    · cases hs
      exact ⟨Or.inl rfl, hset _ rfl⟩
    · cases hs
      exact ⟨Or.inl rfl, hset _ rfl⟩
  | give =>
    simp only [hp, Outcome.next.injEq] at hs
    subst hs
    exact ⟨Or.inl rfl, hset _ rfl⟩

namespace SerialInv

variable {s s' : SerialSystem} {free live : List Ptr}

/-- The call that is served was started before. -/
theorem caller_ne_started (h : SerialInv s free live) (hpc : s.server.pc ≠ .recv) : s.server.caller ≠ s.started := by
  have hawait := h.serves hpc
  exact Nat.ne_of_lt (h.made _ (by simp [hawait])).1

/-- The clients do not touch the server or the request it serves; they can only hand it one. -/
theorem clients_step (h : SerialInv s free live) {a : SerialAction} (hs : s.step a = .next s')
    (ha : ∀ time char error, a ≠ .server time char error) :
    s'.server.pc = .lookup ∨ s'.server = s.server ∧
      (s.server.pc ≠ .recv → (s'.calls s.server.caller).request = (s.calls s.server.caller).request) := by
  cases a with
  | createClient page =>
    obtain ⟨⟨client, clients⟩, -, hs⟩ := bind_ok (Outcome.ofExcept_eq_next.mp hs)
    cases client with
    | none => cases hs
    | some client =>
      cases hs
      exact Or.inr ⟨rfl, fun _ => rfl⟩
  | start client dev request =>
    simp only [SerialSystem.step, Outcome.guard_eq_next, Outcome.ofExcept_eq_next] at hs
    obtain ⟨-, hs⟩ := hs
    obtain ⟨_, -, hs⟩ := bind_ok hs
    cases hs
    refine Or.inr ⟨rfl, ?_⟩
    intro hpc
    simp only [SerialSystem.setCall, Function.update_of_ne (h.caller_ne_started hpc)]
  | call k =>
    obtain ⟨hserver | hpc, hreq⟩ := SerialSystem.callStep_frame hs
    · exact Or.inr ⟨hserver, fun _ => hreq _⟩
    · exact Or.inl hpc
  | server time char error => exact absurd rfl (ha time char error)

/-- The last round of the loop over the bytes is over: all the bytes are there. -/
theorem polledAll_of_full {v : SerialServer} {c : SerialCall} {buf : Nat → UInt8} {h : ReadHistory} (hreads : v.Reads c buf)
    (hpolled : v.Polled h) (hpos : v.ret ≠ none → 0 < v.opSize.toNat) (hfull : ¬ v.i < v.opSize.toNat) :
    v.PolledAll h v.opSize.toNat := by
  obtain ⟨-, -, hi, hle, -⟩ := hreads
  unfold SerialServer.Polled at hpolled
  cases hret : v.ret with
  | none =>
    rw [hret] at hpolled
    obtain ⟨hgot, hstored⟩ := hpolled
    refine Or.inl ⟨hgot, hstored, ?_⟩
    intro hsize
    rw [hstored, List.length_nil] at hi
    omega
  | some b =>
    rw [hret] at hpolled
    refine Or.inr ⟨b, hpolled.1, List.eq_replicate_iff.mpr ⟨?_, hpolled.2⟩, hpos (by simp [hret])⟩
    omega

/-- A new request: nothing has been polled for it. -/
theorem readLocal_lookupStep (hs : s.lookupStep = .ok s') (c : SerialCall) : s'.server.ReadLocal c .empty := by
  obtain ⟨-, -, -, -, -, -, -, v, -, ⟨-, rfl⟩ | ⟨-, rfl⟩ | ⟨-, rfl⟩ | ⟨-, rfl⟩⟩ := SerialSystem.lookupStep_cases hs
  · trivial
  · exact ⟨⟨rfl, rfl⟩, rfl⟩
  · trivial
  · trivial

/-- A step of the server. -/
theorem readLocal_serverStep (h : SerialInv s free live) {g : ReadHistory} (hg : SerialReadInv (s, g)) {time : Word}
    {char : Option UInt8} {error : Word} (hs : s.serverStep time char error = .next s') :
    SerialReadInv (s', g.record s (.server time char error)) := by
  have hl := h.locals
  unfold SerialReadInv at hg ⊢
  simp only [SerialServer.ReadLocal] at hg
  cases hp : s.server.pc with
  | recv => simp [SerialSystem.serverStep, hp] at hs
  | lookup =>
    simp only [SerialSystem.serverStep, hp, Outcome.ofExcept_eq_next] at hs
    simp only [ReadHistory.record, hp]
    exact readLocal_lookupStep hs _
  | write =>
    simp only [SerialServer.Local, hp] at hl
    rw [eq_executeStep hs hl.1 (by simp [hp]) (by simp [hp])]
    simp only [SerialSystem.executeStep, hp]
    split
    · trivial
    · intro size timeout hreq
      rw [hreq] at hl
      cases hl.2.1
  | readTimeout =>
    simp only [SerialServer.Local, hp] at hl hg
    rw [eq_executeStep hs hl.1 (by simp [hp]) (by simp [hp])]
    simp only [SerialSystem.executeStep, ReadHistory.record, hp]
    exact hg
  | readStart =>
    simp only [SerialServer.Local, hp] at hl hg
    rw [eq_executeStep hs hl.1 (by simp [hp]) (by simp [hp])]
    simp only [SerialSystem.executeStep, ReadHistory.record, SerialServer.ReadLocal, hp]
    exact ⟨hg.1, fun hne => absurd hg.2 hne⟩
  | readFor =>
    simp only [SerialServer.Local, hp] at hl hg
    rw [eq_executeStep hs hl.1 (by simp [hp]) (by simp [hp])]
    simp only [SerialSystem.executeStep, ReadHistory.record, hp]
    split
    · exact hg.1
    · rename_i hfull
      intro size timeout hreq
      obtain ⟨rfl, rfl⟩ := SerialRequest.read.inj (hl.2.1.symm.trans hreq)
      exact ⟨rfl, polledAll_of_full hl hg.1 hg.2 hfull⟩
  | readWhile =>
    simp only [SerialServer.Local, hp] at hl hg
    rw [eq_executeStep hs hl.1.1 (by simp [hp]) (by simp [hp])]
    simp only [SerialSystem.executeStep, ReadHistory.record, hp]
    by_cases hret : s.server.ret = none
    · rw [if_pos hret]
      by_cases hover : s.server.timeout > 0 ∧ time - s.server.tStart > s.server.timeout
      · rw [if_neg fun hc => hc.2 hover]
        exact ⟨hg, fun _ => ⟨hover.1, time, rfl, hover.2⟩⟩
      · rw [if_pos ⟨hret, hover⟩]
        exact ⟨hg, hret⟩
    · rw [if_neg hret, if_neg fun hc => hret hc.1]
      exact ⟨hg, fun hnone => absurd hnone hret⟩
  | readGetchar =>
    simp only [SerialServer.Local, hp] at hl hg
    rw [eq_executeStep hs hl.1.1 (by simp [hp]) (by simp [hp])]
    simp only [SerialSystem.executeStep, ReadHistory.record, hp]
    obtain ⟨hpolled, hret⟩ := hg
    rw [SerialServer.Polled, hret] at hpolled
    obtain ⟨hgot, hstored⟩ := hpolled
    cases char with
    | none => exact ⟨by rw [hgot]; rfl, hstored⟩
    | some c =>
      refine ⟨by rw [hgot]; rfl, ?_⟩
      intro b hb
      rw [hstored] at hb
      cases hb
  | readCheck =>
    simp only [SerialServer.Local, hp] at hl hg
    rw [eq_executeStep hs hl.1.1 (by simp [hp]) (by simp [hp])]
    obtain ⟨hpolled, hover⟩ := hg
    rw [SerialServer.Polled] at hpolled
    simp only [SerialSystem.executeStep, ReadHistory.record, hp]
    cases hret : s.server.ret with
    | none =>
      rw [hret] at hpolled
      intro size timeout hreq
      obtain ⟨rfl, rfl⟩ := SerialRequest.read.inj (hl.1.2.1.symm.trans hreq)
      exact ⟨rfl, Or.inl ⟨hpolled.1, hpolled.2, fun _ => hover hret⟩⟩
    | some c =>
      rw [hret] at hpolled
      refine ⟨?_, fun _ => Nat.zero_lt_of_lt hl.2⟩
      simp only [SerialServer.Polled]
      refine ⟨hpolled.1, ?_⟩
      intro b hb
      rcases List.mem_append.mp hb with hb | hb
      · exact hpolled.2 b hb
      · exact List.mem_singleton.mp hb
  | config =>
    simp only [SerialServer.Local, hp] at hl
    rw [eq_executeStep hs hl.1 (by simp [hp]) (by simp [hp])]
    simp only [SerialSystem.executeStep, hp]
    intro size timeout hreq
    rw [hreq] at hl
    cases hl.2.1
  | reply =>
    simp only [SerialServer.Local, hp] at hl
    rw [eq_executeStep hs hl.1 (by simp [hp]) (by simp [hp])]
    exact .of_idle (Or.inl (by simp [SerialSystem.executeStep, SerialSystem.replyStep, hp])) _ _

/-- Every action keeps the invariant of the history. -/
theorem readLocal_step (h : SerialInv s free live) {g : ReadHistory} (hg : SerialReadInv (s, g)) {a : SerialAction}
    (hs : s.step a = .next s') : SerialReadInv (s', g.record s a) := by
  have hclients : (∀ time char error, a ≠ .server time char error) → SerialReadInv (s', g) := by
    intro ha
    rcases h.clients_step hs ha with hpc | ⟨hserver, hreq⟩
    · exact .of_idle (Or.inr hpc) _ _
    · unfold SerialReadInv at hg ⊢
      simp only at hg ⊢
      by_cases hrecv : s.server.pc = .recv
      · exact .of_idle (Or.inl (hserver ▸ hrecv)) _ _
      · rw [hserver]
        exact hg.congr (hreq hrecv)
  cases a with
  | server time char error => exact h.readLocal_serverStep hg hs
  | createClient page => exact hclients (by simp)
  | start client dev request => exact hclients (by simp)
  | call k => exact hclients (by simp)

end SerialInv

/-- The invariant of the history holds in every run. -/
theorem serialRead_inv {processMax : Int} {x : SerialSystem × ReadHistory} (hr : (serialReadMachine processMax).Reachable x) :
    SerialReadInv x := by
  refine hr.invariant ?_ ?_
  · intro x hi
    exact .of_idle (Or.inl hi.1.pc) _ _
  · intro x a x' hr hg hst
    obtain ⟨free, live, h⟩ := serial_inv hr.of_recorded
    obtain ⟨s', g'⟩ := x'
    obtain ⟨hs, hg'⟩ := Machine.recorded_step.mp hst
    dsimp only at hs hg'
    rw [hg']
    exact h.readLocal_step hg hs

/-! ## The reply -/

/-- What the reply to a read of `size` bytes with `timeout` should be: it counts the bytes at the start of the buffer of the
client, which are the characters that were polled, and it counts less than `size` only when the timeout was over. -/
structure SerialSystem.ReadCorrect (s : SerialSystem) (h : ReadHistory) (client : Ptr) (size timeout : Word) : Prop where
  le : s.server.mr0 ≤ size
  bytes : (List.range s.server.mr0.toNat).map (s.buf client) = h.got
  short : s.server.mr0 < size → timeout > 0 ∧ ∃ tNow, h.tNow = some tNow ∧ tNow - s.server.tStart > timeout

/-- The bytes at the start of a buffer. -/
theorem AtStart.map_range {bytes : List UInt8} {buf : Nat → UInt8} (h : AtStart bytes buf) :
    (List.range bytes.length).map buf = bytes := by
  refine List.ext_getElem? ?_
  intro j
  rw [List.getElem?_map]
  by_cases hj : j < bytes.length
  · rw [List.getElem?_range hj, h j hj]
    rfl
  · rw [List.getElem?_eq_none (by simpa using hj), List.getElem?_eq_none (by simpa using hj)]
    rfl

/-- When the server replies to a read, the count is at most the size, and less only when the timeout was over. The bytes
counted are the characters polled for the request if and only if at most one byte was asked for or no poll returned a
character. -/
theorem serial_read_exact (processMax : Int) (s : SerialSystem) (h : ReadHistory)
    (hr : (serialReadMachine processMax).Reachable (s, h)) (hpc : s.server.pc = .reply) (size timeout : Word)
    (hreq : (s.calls s.server.caller).request = .read size timeout) :
    (s.server.mr0 ≤ size ∧
      (s.server.mr0 < size → timeout > 0 ∧ ∃ tNow, h.tNow = some tNow ∧ tNow - s.server.tStart > timeout)) ∧
    (s.ReadCorrect h (s.calls s.server.caller).client size timeout ↔ size ≤ 1 ∨ h.got = []) := by
  obtain ⟨free, live, hinv⟩ := serial_inv hr.of_recorded
  have hl := hinv.locals
  simp only [SerialServer.Local, hpc, SerialServer.Replies, hreq] at hl
  obtain ⟨-, hcount, hle, hat⟩ := hl
  have hg := serialRead_inv hr
  simp only [SerialReadInv, SerialServer.ReadLocal, hpc] at hg
  obtain ⟨rfl, hpolled⟩ := hg size timeout hreq
  have hmr0 : s.server.mr0 ≤ size := by
    rw [UInt32.le_iff_toNat_le]
    omega
  have hshort : s.server.mr0 < size →
      s.server.timeout > 0 ∧ ∃ tNow, h.tNow = some tNow ∧ tNow - s.server.tStart > s.server.timeout := by
    intro hlt
    rw [UInt32.lt_iff_toNat_lt] at hlt
    rcases hpolled with ⟨-, -, hover⟩ | ⟨c, -, hstored, -⟩
    · exact hover (by omega)
    · rw [hstored, List.length_replicate] at hcount
      omega
  have hbytes : (List.range s.server.mr0.toNat).map (s.buf (s.calls s.server.caller).client) = s.server.stored := by
    rw [hcount]
    exact hat.map_range
  -- the bytes stored are the characters polled unless one character was stored several times
  have hiff : s.server.stored = h.got ↔ size ≤ 1 ∨ h.got = [] := by
    rw [UInt32.le_iff_toNat_le]
    rcases hpolled with ⟨hgot, hstored, -⟩ | ⟨c, hgot, hstored, hpos⟩
    · simp [hgot, hstored]
    · rw [hgot, hstored]
      constructor
      · intro heq
        have hlen := congrArg List.length heq
        rw [List.length_replicate, List.length_singleton] at hlen
        exact Or.inl hlen.le
      · rintro (hone | hnone)
        · have hsize : size.toNat = 1 := Nat.le_antisymm hone hpos
          rw [hsize]
          rfl
        · cases hnone
  refine ⟨⟨hmr0, hshort⟩, fun hc => hiff.mp (hbytes.symm.trans hc.bytes), fun hc => ⟨hmr0, ?_, hshort⟩⟩
  exact hbytes.trans (hiff.mpr hc)

/-- A process reads one byte, and the first poll returns it. -/
theorem serial_read_exact_oneByte : ∃ (s : SerialSystem) (h : ReadHistory), (serialReadMachine 2).Reachable (s, h) ∧
    s.server.pc = .reply ∧ (s.calls s.server.caller).request = .read 1 0 ∧ h.got = [97] ∧
    s.ReadCorrect h (s.calls s.server.caller).client 1 0 := by
  have hi : (serialReadMachine 2).init (.fresh, .empty) := ⟨SerialSystem.init_fresh, rfl⟩
  obtain ⟨⟨s, h⟩, hr, hs⟩ := (Machine.Reachable.init hi).exists_of_exec
    ([.createClient fun _ => 0, .start 0 .uart1 (.read 1 0)] ++ List.replicate 4 (.call 0) ++
      List.replicate 9 (.server 0 (some 97) 0))
    (fun x => x.1.server.pc = .reply ∧ (x.1.calls x.1.server.caller).request = .read 1 0 ∧ x.2.got = [97]) rfl
  simp only [Bool.decide_and, Bool.and_eq_true, decide_eq_true_eq] at hs
  obtain ⟨hpc, hreq, hgot⟩ := hs
  have hmain := serial_read_exact 2 s h hr hpc 1 0 hreq
  exact ⟨s, h, hr, hpc, hreq, hgot, hmain.2.mpr (Or.inl (by decide))⟩

/-- A process reads two bytes: one character is polled, and it is replied twice. -/
theorem serial_read_repeats : ∃ (s : SerialSystem) (h : ReadHistory), (serialReadMachine 2).Reachable (s, h) ∧
    s.server.pc = .reply ∧ (s.calls s.server.caller).request = .read 2 0 ∧ s.server.mr0 = 2 ∧ h.got = [97] ∧
    ¬ s.ReadCorrect h (s.calls s.server.caller).client 2 0 := by
  have hi : (serialReadMachine 2).init (.fresh, .empty) := ⟨SerialSystem.init_fresh, rfl⟩
  obtain ⟨⟨s, h⟩, hr, hs⟩ := (Machine.Reachable.init hi).exists_of_exec
    ([.createClient fun _ => 0, .start 0 .uart1 (.read 2 0)] ++ List.replicate 4 (.call 0) ++
      List.replicate 12 (.server 0 (some 97) 0))
    (fun x => x.1.server.pc = .reply ∧ (x.1.calls x.1.server.caller).request = .read 2 0 ∧ x.1.server.mr0 = 2 ∧ x.2.got = [97])
    rfl
  simp only [Bool.decide_and, Bool.and_eq_true, decide_eq_true_eq] at hs
  obtain ⟨hpc, hreq, hmr0, hgot⟩ := hs
  refine ⟨s, h, hr, hpc, hreq, hmr0, hgot, ?_⟩
  intro hc
  have hlen := congrArg List.length hc.bytes
  rw [List.length_map, List.length_range, hmr0, hgot] at hlen
  cases hlen

end Sel4Osapi
