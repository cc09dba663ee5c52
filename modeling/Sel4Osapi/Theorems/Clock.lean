import Sel4Osapi.Lemmas.ClockInv
import Mathlib.Data.List.DropRight

/-!
# The clock service: slots are nobody else's, and timeouts are independent

`sysclock_slots` is the invariant of the slots the schedule holds; the receive slot is one of them only between the
acceptance of a SET_TIMEOUT and the allocation of the next receive slot (`sysclock_receive_slot_in_schedule`).
`sysclock_timeouts_independent` gives the scans at which a timeout is signalled from its own request, its own signals and
the cancels of its own id.
-/

namespace Sel4Osapi

open Transition

/-! ## A run into the window between an acceptance and the next receive slot -/

/-- A service at its start, with no capability in any slot. -/
theorem exists_sysclock_init :
    ∃ s : Sysclock, s.Init ∧ (s.cspace = fun _ => none) ∧ s.schedule.size = sysclockMaxEntries := by
  obtain ⟨p, hp, -, -, -, hsize, -⟩ := simplePoolNew_spec id Function.injective_id (fun _ => ⟨0, none, none⟩)
    (fun _ => ⟨0, 0, 0, 0, 0⟩) sysclockMaxEntries 20 (some timerEntryInit) (some timerEntryCompare) (by decide) (by decide)
  exact ⟨⟨0, p, .allocSlot, 0, .waiting, [], fun _ => none, [], []⟩,
    ⟨rfl, ⟨id, _, _, 20, Function.injective_id, hp⟩, rfl, rfl, rfl, rfl, rfl⟩, rfl, hsize⟩

/-- The server takes a slot to receive capabilities and accepts a timeout. -/
theorem ClockInv.exists_set {periodMs : Word} {s : Sysclock} (hr : (sysclockMachine periodMs).Reachable s) {x : Ptr}
    {free live : List Ptr} (h : ClockInv s (x :: free) live) (hpc : s.serverPc = .allocSlot) {slot : CPtr} (hne : slot ≠ capNull)
    (hnew : slot ∉ s.allocated) (hempty : s.cspace slot = none) (periodic timeoutMs : Word) :
    ∃ s', (sysclockMachine periodMs).Reachable s' ∧ ClockInv s' free (live ++ [x]) ∧ (s'.schedule.timeout x).aep = slot ∧
      s'.serverPc = .allocSlot ∧ s'.callerEp = slot ∧ s'.time = s.time ∧ s'.timerPc = s.timerPc ∧
      s'.cspace = Function.update s.cspace slot (some 3) ∧ s'.allocated = slot :: s.allocated ∧
      s'.log = s.log ++ [.set 7 3 periodic timeoutMs slot s.time] ∧ ∀ n ∈ live, s'.schedule.timeout n = s.schedule.timeout n := by
  have hstep₁ : (sysclockMachine periodMs).step s (.allocSlot slot) =
      .next { s with callerEp := slot, allocated := slot :: s.allocated, serverPc := .waiting } := by
    simp [sysclockMachine, Sysclock.step, hpc, hne, hnew, hempty]
  obtain ⟨s₂, hs₂, h₂, hep, htime, htimer, haep, hcspace, hallocated, hlog, hsame⟩ :=
    (h.allocSlot hne hnew hempty).setTimeout_accepted rfl 7 periodic timeoutMs 3
  have hstep₂ : (sysclockMachine periodMs).step { s with callerEp := slot, allocated := slot :: s.allocated, serverPc := .waiting }
      (.request 7 (.setTimeout periodic timeoutMs 3)) = .next s₂ := by
    simp [sysclockMachine, Sysclock.step, hs₂]
  have hpc₂ : s₂.serverPc = .allocSlot := (h₂.window (by rw [hep, hlog, setIds_append, setIds_set]; simp)).1
  exact ⟨s₂, (hr.step _ hstep₁).step _ hstep₂, h₂, haep, hpc₂, hep, htime, htimer, hcspace, hallocated, hlog, hsame⟩

/-- A run of two steps: the server takes slot 1 to receive capabilities and accepts a timeout. -/
theorem exists_set_accepted (periodMs periodic timeoutMs : Word) : ∃ s : Sysclock, (sysclockMachine periodMs).Reachable s ∧
    s.callerEp = 1 ∧ s.log = [.set 7 3 periodic timeoutMs 1 0] ∧ s.time = 0 ∧ s.timerPc = .waiting ∧ s.cspace 2 = none ∧ s.allocated = [1] ∧
    ∃ free live x, ClockInv s free live ∧ x ∈ live ∧ (s.schedule.timeout x).aep = 1 := by
  obtain ⟨s₀, hi, hcs, -⟩ := exists_sysclock_init
  obtain ⟨free, h₀, hlen⟩ := hi.inv
  cases free with
  | nil => exact absurd hlen (by decide)
  | cons x free =>
    obtain ⟨s, hr, h, haep, -, hep, htime, htimer, hcspace, hallocated, hlog, -⟩ := h₀.exists_set (.init hi) hi.serverPc
      (by decide : (1 : CPtr) ≠ capNull) (by simp [hi.allocated]) (by simp [hcs]) periodic timeoutMs
    refine ⟨s, hr, hep, ?_, htime.trans hi.time, htimer.trans hi.timerPc, ?_, ?_, free, _, x, h, by simp, haep⟩
    · rw [hlog, hi.log, hi.time]
      rfl
    · rw [hcspace, hcs]
      rfl
    · rw [hallocated, hi.allocated]

/-- The same for a one-shot of 5 ms. -/
theorem exists_accepted (periodMs : Word) : ∃ s : Sysclock, (sysclockMachine periodMs).Reachable s ∧ s.callerEp = 1 ∧
    s.log = [.set 7 3 0 5 1 0] ∧ s.time = 0 ∧ s.timerPc = .waiting ∧ s.cspace 2 = none ∧ s.allocated = [1] ∧
    ∃ free live x, ClockInv s free live ∧ x ∈ live ∧ (s.schedule.timeout x).aep = 1 :=
  exists_set_accepted periodMs 0 5

/-! ## The slots of the schedule -/

/-- In every reachable state, with these free and live entries in the schedule:
1. the slots of the live entries, which are the ids replied to their clients, are pairwise distinct and not null;
2. the slot of a live entry is the one that received the capability of the entry's own SET_TIMEOUT, which is still in it;
3. it is not the receive slot, unless the server has just accepted that very entry and is about to allocate the next receive
slot (so never while it waits for a request);
4. the slot of every free entry is null;
5. `simple_pool_free` on a live entry releases that entry, a scan releases the entries that expire, a cancel the entry with
the id, and none of them any other entry;
6. no action faults: no assertion can fail. -/
theorem sysclock_slots (periodMs : Word) (s : Sysclock) (hr : (sysclockMachine periodMs).Reachable s) :
    ∃ free live, s.schedule.Rep free live ∧
      (live.map fun n => (s.schedule.timeout n).aep).Nodup ∧
      (∀ n ∈ live, (s.schedule.timeout n).aep ≠ capNull) ∧
      (∀ n ∈ live, ∃ cap t, ClockEvent.set (s.schedule.timeout n).caller cap (s.schedule.timeout n).periodic
          (s.schedule.timeout n).period (s.schedule.timeout n).aep t ∈ s.log ∧
        s.cspace (s.schedule.timeout n).aep = some cap) ∧
      (∀ n ∈ live, (s.schedule.timeout n).aep = s.callerEp →
        s.serverPc = .allocSlot ∧ (setIds s.log).getLast? = some (s.schedule.timeout n).aep) ∧
      (∀ n ∈ free, (s.schedule.timeout n).aep = capNull) ∧
      (∀ l x t, live = l ++ x :: t →
        ∃ p', simplePoolFree s.schedule (s.schedule.nodes x).el = .ok (0, p') ∧ p'.Rep (free ++ [x]) (l ++ t)) ∧
      (∃ s', s.scan = .ok s' ∧ s'.schedule.Rep (free ++ expired s.schedule.timeout s.time live)
        (unexpired s.schedule.timeout s.time live)) ∧
      (∀ id, ∃ s', s.cancelTimeout id = .ok s' ∧
        s'.schedule.Rep (free ++ live.filter fun n => decide ((s.schedule.timeout n).aep = id))
          (live.filter fun n => decide ((s.schedule.timeout n).aep ≠ id))) ∧
      ∀ a f, (sysclockMachine periodMs).step s a ≠ .fault f := by
  obtain ⟨⟨free, live, h⟩, hsafe⟩ := sysclock_safe hr
  refine ⟨free, live, h.schedule.rep, h.schedule.aeps, h.schedule.aep_ne, fun n hn => h.owner hn, ?_, h.schedule.aep_free,
    ?_, ?_, ?_, hsafe⟩
  · intro n hn hep
    rw [hep]
    exact h.window (hep ▸ h.live_id hn)
  · rintro l x t rfl
    obtain ⟨p', hp', hs', -⟩ := h.schedule.release
    exact ⟨p', hp', hs'.rep⟩
  · obtain ⟨s', hs', h', -⟩ := h.scan
    exact ⟨s', hs', h'.schedule.rep⟩
  · intro id
    obtain ⟨s', hs', h'⟩ := h.cancelTimeout id
    exact ⟨s', hs', h'.schedule.rep⟩

/-- The slots after the two steps of `exists_accepted`. -/
theorem sysclock_slots_accepted : ∃ s : Sysclock, (sysclockMachine 1).Reachable s ∧ s.log = [.set 7 3 0 5 1 0] ∧
    ∃ free live, s.schedule.Rep free live ∧ (live.map fun n => (s.schedule.timeout n).aep).Nodup ∧
      ∀ n ∈ live, (s.schedule.timeout n).aep ≠ capNull := by
  obtain ⟨s, hr, -, hlog, -⟩ := exists_accepted 1
  obtain ⟨free, live, hrep, hnd, hne, -⟩ := sysclock_slots 1 s hr
  exact ⟨s, hr, hlog, free, live, hrep, hnd, hne⟩

/-- A live entry can have the receive slot: it does after the acceptance of its SET_TIMEOUT, until the server has replied and
allocated the next one. -/
theorem sysclock_receive_slot_in_schedule :
    ¬ ∀ (periodMs : Word) (s : Sysclock), (sysclockMachine periodMs).Reachable s → ∀ free live, s.schedule.Rep free live →
      ∀ n ∈ live, (s.schedule.timeout n).aep ≠ s.callerEp := by
  intro hall
  obtain ⟨s, hr, hep, -, -, -, -, -, free, live, x, h, hx, haep⟩ := exists_accepted 1
  exact hall 1 s hr free live h.schedule.rep x hx (haep.trans hep.symm)

/-! ## The life of a timeout -/

/-- The event is a scan that signals the timeout `a`. -/
def ClockEvent.signals (a : CPtr) : ClockEvent → Bool
  | .scan _ signalled => decide (a ∈ signalled)
  | _ => false

/-- The event is the service of a cancel of `a`. -/
def ClockEvent.cancels (a : CPtr) : ClockEvent → Bool
  | .cancel id _ => decide (id = a)
  | _ => false

/-- A cancel of `a` has been served. -/
def cancelled (a : CPtr) (es : List ClockEvent) : Bool := es.any (ClockEvent.cancels a)

/-- The timeout `a` has been signalled. -/
def signalled (a : CPtr) (es : List ClockEvent) : Bool := es.any (ClockEvent.signals a)

/-- The clock value from which the period of `a` counts: that of its last signal, and that of its acceptance before the
first. -/
def lastSignal (a : CPtr) (t : Word) (es : List ClockEvent) : Word :=
  es.foldl (fun base ev => match ev with
    | .scan c signalled => if a ∈ signalled then c else base
    | _ => base) t

/-- The events after the last signal of `a`; all of them before the first. -/
def sinceSignal (a : CPtr) (es : List ClockEvent) : List ClockEvent := es.rtakeWhile fun ev => !ev.signals a

/-- A scan at clock value `c` is the first to reach `due` after the events `es`. -/
def FirstDue (due c : Word) (es : List ClockEvent) : Prop := due ≤ c ∧ ∀ c' sig, ClockEvent.scan c' sig ∈ es → ¬ due ≤ c'

/-- The last scan of a log whose scans are right. -/
theorem ScansOk.mem_iff {log : List ClockEvent} {c : Word} {sig : List CPtr} {a : CPtr} (h : ScansOk (log ++ [.scan c sig])) :
    a ∈ sig ↔ dueAt a log c = true := by
  have hc := h log c sig [] rfl a
  rw [← List.count_pos_iff, hc]
  split <;> simp_all

section Life

variable {caller : Word} {cap : Cap} {periodic d : Word} {a : CPtr} {t : Word} {pre es : List ClockEvent}

/-- What the events after its acceptance leave to a timeout: nothing after a cancel, nor after its signal if it is a one-shot,
else an entry that is due a period after the last signal. -/
theorem armed_after_set (hs : ScansOk (pre ++ .set caller cap periodic d a t :: es)) (hid : a ∉ setIds es) :
    armed a (pre ++ .set caller cap periodic d a t :: es) =
      if cancelled a es || (decide (periodic = 0) && signalled a es) then none
      else some { caller := caller, aep := a, periodic := periodic, period := d, nextEvent := lastSignal a t es + d } := by
  induction es using List.reverseRecOn with
  | nil => simp [cancelled, signalled, lastSignal, armStep]
  | append_singleton es ev ih =>
    rw [← List.cons_append, ← List.append_assoc] at hs ⊢
    rw [setIds_append, List.mem_append, not_or] at hid
    have hprev := ih (fun pre' c sig post e => hs pre' c sig (post ++ [ev]) (by rw [e]; simp)) hid.1
    rw [armed_concat, hprev]
    cases ev with
    | set caller' cap' periodic' d' id t' =>
      have hne : id ≠ a := fun e => hid.2 (by simp [setIds, ClockEvent.setId?, e])
      simp [armStep, hne, cancelled, signalled, ClockEvent.cancels, ClockEvent.signals, lastSignal]
    | cancel id error =>
      by_cases hida : id = a
      · simp [armStep, hida, cancelled, ClockEvent.cancels]
      · simp [armStep, hida, cancelled, signalled, ClockEvent.cancels, ClockEvent.signals, lastSignal]
    | scan c sig =>
      have hsig : a ∈ sig ↔ dueAt a (pre ++ .set caller cap periodic d a t :: es) c = true := hs.mem_iff
      have hcanc : cancelled a (es ++ [.scan c sig]) = cancelled a es := by simp [cancelled, ClockEvent.cancels]
      have hsign : signalled a (es ++ [.scan c sig]) = (signalled a es || decide (a ∈ sig)) := by
        simp [signalled, ClockEvent.signals]
      have hlast : lastSignal a t (es ++ [.scan c sig]) = if a ∈ sig then c else lastSignal a t es := by simp [lastSignal]
      rw [hcanc, hsign, hlast]
      rw [dueAt, hprev] at hsig
      by_cases hoff : (cancelled a es || (decide (periodic = 0) && signalled a es)) = true
      · rw [if_pos hoff, if_pos]
        · rfl
        · cases hc : cancelled a es <;> simp_all
      · rw [if_neg hoff] at hsig ⊢
        simp only [Option.any_some, TimeoutEntry.isDue, decide_eq_true_iff] at hsig
        simp only [armStep, Option.bind_some, TimeoutEntry.expires, TimeoutEntry.scanned, TimeoutEntry.isDue]
        by_cases hdue : lastSignal a t es + d ≤ c
        · by_cases hper : periodic = 0 <;> simp_all
        · have hns : a ∉ sig := fun h => hdue (hsig.mp h)
          simp only [hdue, hns, decide_false, Bool.false_and, Bool.false_eq_true, if_false, Bool.or_false]
          rw [if_neg hoff]
    | refused caller' => simp [armStep, cancelled, signalled, ClockEvent.cancels, ClockEvent.signals, lastSignal]
    | getTime t' => simp [armStep, cancelled, signalled, ClockEvent.cancels, ClockEvent.signals, lastSignal]

/-- While a timeout is armed, no scan since its last signal has reached its due time. -/
theorem not_due_since (hs : ScansOk (pre ++ .set caller cap periodic d a t :: es)) (hid : a ∉ setIds es)
    (hoff : (cancelled a es || (decide (periodic = 0) && signalled a es)) = false) :
    ∀ c sig, ClockEvent.scan c sig ∈ sinceSignal a es → ¬ lastSignal a t es + d ≤ c := by
  induction es using List.reverseRecOn with
  | nil => simp [sinceSignal]
  | append_singleton es ev ih =>
    rw [← List.cons_append, ← List.append_assoc] at hs
    rw [setIds_append, List.mem_append, not_or] at hid
    have hs' : ScansOk (pre ++ .set caller cap periodic d a t :: es) :=
      fun pre' c sig post e => hs pre' c sig (post ++ [ev]) (by rw [e]; simp)
    have hoff' : (cancelled a es || (decide (periodic = 0) && signalled a es)) = false := by
      simp only [cancelled, signalled, List.any_append, Bool.or_eq_false_iff, Bool.and_eq_false_iff] at hoff ⊢
      tauto
    have hprev := ih hs' hid.1 hoff'
    intro c sig hmem
    rw [sinceSignal, List.rtakeWhile_concat] at hmem
    split at hmem
    case isFalse => exact absurd hmem List.not_mem_nil
    case isTrue hev =>
      have hlast : lastSignal a t (es ++ [ev]) = lastSignal a t es := by
        cases ev <;> simp_all [lastSignal, ClockEvent.signals]
      rw [hlast]
      rcases List.mem_append.mp hmem with hmem | hmem
      · exact hprev c sig hmem
      · -- the scan just made did not signal it, so it was not due
        obtain rfl := List.mem_singleton.mp hmem
        have hsig := hs.mem_iff.not.mp (by simpa [ClockEvent.signals] using hev)
        rw [dueAt, armed_after_set hs' hid.1, hoff'] at hsig
        simpa [TimeoutEntry.isDue] using hsig

/-- Before its first signal, a timeout counts from its acceptance. -/
theorem lastSignal_of_not_signalled (h : signalled a es = false) : lastSignal a t es = t ∧ sinceSignal a es = es := by
  have hall : ∀ ev ∈ es, ev.signals a = false := by simpa [signalled] using h
  refine ⟨?_, List.rtakeWhile_eq_self_iff.mpr fun ev hev => by simp [hall ev hev]⟩
  clear h
  induction es with
  | nil => rfl
  | cons ev es ih =>
    have hrest := ih fun ev' hev' => hall ev' (List.mem_cons_of_mem _ hev')
    have hev := hall ev List.mem_cons_self
    cases ev <;> simp_all [lastSignal, ClockEvent.signals]

/-- When a scan signals a timeout. -/
theorem signal_iff {c : Word} {sig : List CPtr} (hs : ScansOk (pre ++ .set caller cap periodic d a t :: (es ++ [.scan c sig])))
    (hid : a ∉ setIds es) :
    a ∈ sig ↔ cancelled a es = false ∧ (periodic = 0 → signalled a es = false) ∧
      FirstDue (lastSignal a t es + d) c (sinceSignal a es) := by
  rw [← List.cons_append, ← List.append_assoc] at hs
  have hs' : ScansOk (pre ++ .set caller cap periodic d a t :: es) :=
    fun pre' c' sig' post e => hs pre' c' sig' (post ++ [.scan c sig]) (by rw [e]; simp)
  rw [hs.mem_iff, dueAt, armed_after_set hs' hid]
  cases hoff : cancelled a es || (decide (periodic = 0) && signalled a es)
  case false =>
    have hsince := not_due_since hs' hid hoff
    simp only [Bool.or_eq_false_iff, Bool.and_eq_false_imp, decide_eq_true_iff] at hoff
    simp only [Bool.false_eq_true, if_false, Option.any_some, TimeoutEntry.isDue, decide_eq_true_iff, FirstDue]
    exact ⟨fun hdue => ⟨hoff.1, hoff.2, hdue, hsince⟩, fun h => h.2.2.1⟩
  case true =>
    simp only [if_true, Option.any_none, Bool.false_eq_true, false_iff]
    rintro ⟨hc, hp, -⟩
    rw [hc, Bool.false_or, Bool.and_eq_true, decide_eq_true_iff] at hoff
    rw [hp hoff.1] at hoff
    exact absurd hoff.2 Bool.false_ne_true

/-- When a scan signals a one-shot. -/
theorem signal_iff_oneshot {c : Word} {sig : List CPtr}
    (hs : ScansOk (pre ++ .set caller cap 0 d a t :: (es ++ [.scan c sig]))) (hid : a ∉ setIds es) :
    a ∈ sig ↔ cancelled a es = false ∧ FirstDue (t + d) c es := by
  rw [signal_iff hs hid]
  cases hsig : signalled a es
  case false =>
    obtain ⟨hlast, hsince⟩ := lastSignal_of_not_signalled (t := t) hsig
    rw [hlast, hsince]
    simp
  case true =>
    -- the scan that signalled it was due, so this one is not the first
    simp only [Bool.true_eq_false, imp_false, not_true_eq_false, false_and, and_false, false_iff]
    rintro ⟨-, -, hfirst⟩
    obtain ⟨ev, hev, hsev⟩ := List.any_eq_true.mp hsig
    cases ev with
    | scan c' sig' =>
      obtain ⟨l, r, rfl⟩ := List.append_of_mem hev
      have hs' : ScansOk (pre ++ .set caller cap 0 d a t :: (l ++ [.scan c' sig'])) :=
        fun pre' c₁ sig₁ post e => hs pre' c₁ sig₁ (post ++ (r ++ [.scan c sig])) (by
          have := congrArg (fun x => x ++ (r ++ [ClockEvent.scan c sig])) e
          simpa using this)
      rw [setIds_append, List.mem_append, not_or] at hid
      obtain ⟨-, hns, hdue, -⟩ := (signal_iff hs' hid.1).mp (by simpa [ClockEvent.signals] using hsev)
      rw [(lastSignal_of_not_signalled (t := t) (hns rfl)).1] at hdue
      exact hfirst c' sig' (by simp) hdue
    | set => cases hsev
    | cancel => cases hsev
    | refused => cases hsev
    | getTime => cases hsev

/-- The events of a timeout's life up to a scan: the scans are right, and its id is not given out again. -/
theorem ClockInv.life {s : Sysclock} {free live : List Ptr} (h : ClockInv s free live) {c : Word} {sig : List CPtr}
    {rest : List ClockEvent} (hlog : s.log = pre ++ .set caller cap periodic d a t :: (es ++ .scan c sig :: rest)) :
    ScansOk (pre ++ .set caller cap periodic d a t :: (es ++ [.scan c sig])) ∧ a ∉ setIds es := by
  have hnd := h.ids
  rw [hlog, setIds_append, setIds_set, List.nodup_append, List.nodup_cons, setIds_append, List.mem_append, not_or] at hnd
  have hscans := h.scans
  rw [hlog] at hscans
  refine ⟨fun pre' c₁ sig₁ post e => hscans pre' c₁ sig₁ (post ++ rest) ?_, hnd.2.1.1.1⟩
  have happend := congrArg (fun x => x ++ rest) e
  simpa using happend

end Life

/-- In every reachable state, the log gives the life of each accepted timeout `a`, set at clock value `t` with `timeout_ms`
`d`. No scan before its acceptance signals it. A scan after it, at clock value `c`, signals it at most once, and does so
exactly when no cancel of `a` has been served, `a` has not been signalled if it is a one-shot, and this is the first scan
since the last signal (or since the acceptance, if there was none) whose clock value reaches that of the signal (or of the
acceptance) plus `d`, in 32-bit arithmetic. For a one-shot this is the first scan after the acceptance that reaches `t + d`.
None of the other timeouts of the log has a part in it, and no action faults. -/
theorem sysclock_timeouts_independent (periodMs : Word) (s : Sysclock) (hr : (sysclockMachine periodMs).Reachable s) :
    (∀ caller cap periodic d a t pre post, s.log = pre ++ .set caller cap periodic d a t :: post →
      signalled a pre = false ∧
      ∀ es c sig rest, post = es ++ .scan c sig :: rest →
        sig.count a ≤ 1 ∧
        (a ∈ sig ↔ cancelled a es = false ∧ (periodic = 0 → signalled a es = false) ∧
          FirstDue (lastSignal a t es + d) c (sinceSignal a es)) ∧
        (periodic = 0 → (a ∈ sig ↔ cancelled a es = false ∧ FirstDue (t + d) c es))) ∧
    ∀ act f, (sysclockMachine periodMs).step s act ≠ .fault f := by
  obtain ⟨⟨free, live, h⟩, hsafe⟩ := sysclock_safe hr
  refine ⟨?_, hsafe⟩
  intro caller cap periodic d a t pre post hlog
  have hnd := h.ids
  rw [hlog, setIds_append, setIds_set, List.nodup_append, List.nodup_cons] at hnd
  obtain ⟨-, -, hpre⟩ := hnd
  have hscans := h.scans
  rw [hlog] at hscans
  refine ⟨?_, ?_⟩
  · -- before its acceptance nothing is armed under its id
    rw [signalled, List.any_eq_false]
    intro ev hev
    cases ev with
    | scan c sig =>
      obtain ⟨l, r, rfl⟩ := List.append_of_mem hev
      have hnone : armed a l = none := by
        refine armed_eq_none fun hl => hpre a ?_ a (by simp) rfl
        rw [setIds_append]
        exact List.mem_append_left _ hl
      have hcount := hscans l c sig (r ++ .set caller cap periodic d a t :: post) (by simp) a
      rw [dueAt, hnone] at hcount
      simpa [ClockEvent.signals] using List.count_eq_zero.mp hcount
    | set => exact Bool.false_ne_true
    | cancel => exact Bool.false_ne_true
    | refused => exact Bool.false_ne_true
    | getTime => exact Bool.false_ne_true
  · rintro es c sig rest rfl
    obtain ⟨hs, hid⟩ := h.life hlog
    have hcount := hscans (pre ++ .set caller cap periodic d a t :: es) c sig rest (by simp) a
    refine ⟨by rw [hcount]; split <;> simp, signal_iff hs hid, ?_⟩
    rintro rfl
    exact signal_iff_oneshot hs hid

/-- The one-shot of 5 ms of `exists_accepted`, at a scan after the first interrupt of a clock with a period of 5 ms. -/
theorem sysclock_timeouts_independent_signalled : ∃ (s : Sysclock) (sig : List CPtr), (sysclockMachine 5).Reachable s ∧
    s.log = [] ++ .set 7 3 0 5 1 0 :: [.scan 5 sig] ∧ 1 ∈ sig := by
  obtain ⟨s, hr, -, hlog, htime, htimer, -, -, free, live, x, h, -⟩ := exists_accepted 5
  generalize hs₁ : { s with time := s.time + 5, timerPc := .scanning } = s₁
  have hstep₁ : (sysclockMachine 5).step s .tick = .next s₁ := by
    simp [sysclockMachine, Sysclock.step, htimer, hs₁]
  obtain ⟨s₂, hs₂, -, sig, hlog₂⟩ := (hs₁ ▸ h.tick (s.time + 5) : ClockInv s₁ free live).scan
  have hpc₁ : s₁.timerPc = .scanning := by rw [← hs₁]
  have hstep₂ : (sysclockMachine 5).step s₁ .scan = .next s₂ := by
    simp [sysclockMachine, Sysclock.step, hs₂, hpc₁]
  have hr₂ : (sysclockMachine 5).Reachable s₂ := (hr.step _ hstep₁).step _ hstep₂
  have hlog₂ : s₂.log = [] ++ .set 7 3 0 5 1 0 :: [.scan 5 sig] := by
    rw [hlog₂, ← hs₁, hlog, htime]
    rfl
  have hlife := (sysclock_timeouts_independent 5 s₂ hr₂).1 7 3 0 5 1 0 [] [.scan 5 sig] hlog₂
  refine ⟨s₂, sig, hr₂, hlog₂, ((hlife.2 [] 5 sig [] rfl).2.2 rfl).mpr ⟨rfl, by decide, ?_⟩⟩
  simp

end Sel4Osapi
