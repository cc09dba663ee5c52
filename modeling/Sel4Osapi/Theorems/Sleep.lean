import Sel4Osapi.Sleep
import Sel4Osapi.Theorems.ClockRealTime

/-!
# The clock service and the sleeps: never early, never late

The threads are watched on the exact count of the increments: when a sleep began and when it returned. A thread is notified
only by the signal of the timeout of its own sleep (`SleepInv`), so what holds of that signal holds of the return.
-/

namespace Sel4Osapi

open Transition

/-- A sleep that has returned. -/
structure Slept where
  ms : Word
  /-- when its timeout was accepted -/
  since : ClockStamp
  /-- how many increments had taken place when it returned -/
  ticks : Nat
  deriving DecidableEq, Repr

/-- The history of the clock, when the sleep of each thread began, and the sleeps that have returned. -/
structure SleepHistory where
  clock : ClockHistory
  since : Nat → ClockStamp
  slept : List Slept

namespace SleepHistory

/-- Before anything happened. -/
def empty : SleepHistory := { clock := .empty, since := fun _ => ⟨0, false⟩, slept := [] }

/-- What a step adds. -/
def record (h : SleepHistory) (s : SleepSystem) : SleepAction → SleepHistory
  | .clock a => { h with clock := h.clock.record s.clock a }
  | .sleep thread badge ms =>
    { h with
      clock := h.clock.record s.clock (.request badge (.setTimeout 0 ms (s.waitAep thread)))
      since := Function.update h.since thread ⟨h.clock.ticks, decide (s.clock.timerPc = .scanning)⟩ }
  | .wake thread =>
    match s.pc thread with
    | .waiting ms _ => { h with slept := h.slept ++ [⟨ms, h.since thread, h.clock.ticks⟩] }
    | .awake => h

end SleepHistory

/-- The stamped log has a set of a one-shot, and after it a scan that signals it. -/
def SignalledOnce (es : List (ClockEvent × ClockStamp)) (ms : Word) (a : CPtr) (since : ClockStamp) : Prop :=
  ∃ pre caller cap t mid c sig st rest, es = pre ++ (.set caller cap 0 ms a t, since) :: (mid ++ (.scan c sig, st) :: rest) ∧ a ∈ sig

/-- The log grows. -/
theorem SignalledOnce.append {es : List (ClockEvent × ClockStamp)} {ms : Word} {a : CPtr} {since : ClockStamp}
    (h : SignalledOnce es ms a since) (es' : List (ClockEvent × ClockStamp)) : SignalledOnce (es ++ es') ms a since := by
  obtain ⟨pre, caller, cap, t, mid, c, sig, st, rest, rfl, ha⟩ := h
  exact ⟨pre, caller, cap, t, mid, c, sig, st, rest ++ es', by simp, ha⟩

/-- The threads are consistent with the log of the clock. -/
structure SleepInv (periodMs : Word) (s : SleepSystem) (h : SleepHistory) : Prop where
  clock : (sysclockExactMachine periodMs).Reachable (s.clock, h.clock)
  owner : ∀ thread, s.owner (s.waitAep thread) = some thread
  /-- the timeouts on the `wait_aep` of a thread are one-shots, and an armed one is that of its sleep -/
  armed : ∀ caller cap periodic d a t st thread, (ClockEvent.set caller cap periodic d a t, st) ∈ stampedLog (s.clock, h.clock) →
    s.owner cap = some thread → periodic = 0 ∧ (armed a s.clock.log ≠ none → s.pc thread = .waiting d a ∧ h.since thread = st)
  /-- a thread that is notified was signalled by the timeout of its sleep -/
  notified : ∀ thread, s.notified thread = true → ∃ ms a, s.pc thread = .waiting ms a ∧
    SignalledOnce (stampedLog (s.clock, h.clock)) ms a (h.since thread)
  slept : ∀ r ∈ h.slept, Timely periodMs r.ms r.since → r.ms.toNat ≤ (r.ticks - r.since.ticks) * periodMs.toNat

/-- A step of the clock puts at most one event in the stamped log. -/
theorem stampedLog_record {periodMs : Word} {s s' : Sysclock} {h : ClockHistory} {a : ClockAction}
    (hinv : StampsInv periodMs (s, h))
    (hs : s.step periodMs a = .next s') :
    s'.log = s.log ∧ stampedLog (s', h.record s a) = stampedLog (s, h) ∨
      ∃ ev, s'.log = s.log ++ [ev] ∧
        stampedLog (s', h.record s a) = stampedLog (s, h) ++ [(ev, ⟨h.ticks, decide (s.timerPc = .scanning)⟩)] := by
  cases Sysclock.step_moves hs with
  | slot slot hpc hnew hs' =>
    subst hs'
    exact Or.inl ⟨rfl, rfl⟩
  | request badge r ev hpc hreplied =>
    exact Or.inr ⟨ev, hreplied.logs.log, stampedLog_concat _ hinv.length hreplied.logs.log⟩
  | tick hpc hs' =>
    subst hs'
    exact Or.inl ⟨rfl, rfl⟩
  | scan sig hpc hserver htimer hlogs => exact Or.inr ⟨_, hlogs.log, stampedLog_concat _ hinv.length hlogs.log⟩

/-- The log gets a set from the request for it. -/
theorem request_of_set {periodMs : Word} {s s' : Sysclock} {a : ClockAction} (hs : s.step periodMs a = .next s') {caller : Word}
    {cap : Cap} {periodic d : Word} {id : CPtr} {t : Word} (hlog : s'.log = s.log ++ [.set caller cap periodic d id t]) :
    a = .request caller (.setTimeout periodic d cap) ∧ id = s.callerEp ∧ t = s.time := by
  cases Sysclock.step_moves hs with
  | slot slot hpc hnew hs' =>
    subst hs'
    simp at hlog
  | request badge r ev hpc hreplied =>
    rw [hreplied.logs.log] at hlog
    have hev := List.singleton_inj.mp (List.append_cancel_left hlog)
    rcases hreplied.serverPc with ⟨⟨periodic', timeoutMs, c, rfl, rfl | rfl⟩, -⟩ | ⟨⟨id', error, rfl⟩ | ⟨t', rfl⟩, -⟩
    · cases hev
      exact ⟨rfl, rfl, rfl⟩
    · cases hev
    · cases hev
    · cases hev
  | tick hpc hs' =>
    subst hs'
    simp at hlog
  | scan sig hpc hserver htimer hlogs =>
    rw [hlogs.log] at hlog
    cases List.singleton_inj.mp (List.append_cancel_left hlog)

/-- A timeout that is armed after an event was armed before, or the event has set it. -/
theorem armed_of_concat {a : CPtr} {log : List ClockEvent} {ev : ClockEvent} (h : armed a (log ++ [ev]) ≠ none) :
    armed a log ≠ none ∨ ev.setId? = some a := by
  rw [armed_concat] at h
  cases ev with
  | set caller cap periodic d id t =>
    by_cases hid : id = a
    · exact Or.inr (by rw [← hid]; rfl)
    · rw [armStep, if_neg hid] at h
      exact Or.inl h
  | cancel id error =>
    refine Or.inl fun hnone => h ?_
    rw [armStep, hnone, ite_self]
  | scan c sig =>
    refine Or.inl fun hnone => h ?_
    rw [armStep, hnone, Option.bind_none]
  | refused caller => exact Or.inl h
  | getTime t => exact Or.inl h

/-- The id of a set in the stamped log was given out. -/
theorem mem_setIds_of_stamped {y : Sysclock × ClockHistory} {caller : Word} {cap : Cap} {periodic d : Word} {a : CPtr} {t : Word}
    {st : ClockStamp} (h : (ClockEvent.set caller cap periodic d a t, st) ∈ stampedLog y) : a ∈ setIds y.1.log :=
  List.mem_filterMap.mpr ⟨_, (List.of_mem_zip h).1, rfl⟩

/-- An event does not set a timeout that was set before. -/
theorem setId_ne_of_ids {log : List ClockEvent} {ev : ClockEvent} {a : CPtr} (hids : (setIds (log ++ [ev])).Nodup)
    (ha : a ∈ setIds log) : ev.setId? ≠ some a := by
  intro hev
  rw [setIds_append] at hids
  exact (List.disjoint_of_nodup_append hids) ha (List.mem_filterMap.mpr ⟨ev, List.mem_singleton_self _, hev⟩)

/-- A one-shot that was signalled is not armed any more. -/
theorem armed_of_signalledOnce {periodMs : Word} {y : Sysclock × ClockHistory} (hr : (sysclockExactMachine periodMs).Reachable y)
    {ms : Word} {a : CPtr} {since : ClockStamp} (h : SignalledOnce (stampedLog y) ms a since) : armed a y.1.log = none := by
  obtain ⟨pre, caller, cap, t, mid, c, sig, st, rest, hsplit, ha⟩ := h
  obtain ⟨⟨free, live, hinv⟩, -⟩ := sysclock_safe hr.of_recorded
  have hlog := (stamps_inv hr).log_eq
  rw [hsplit] at hlog
  simp only [List.map_append, List.map_cons] at hlog
  have hids := hinv.ids
  have hscans := hinv.scans
  rw [hlog] at hids hscans ⊢
  rw [setIds_append, setIds_set, List.nodup_append, List.nodup_cons] at hids
  rw [armed_after_set hscans hids.2.1.1, if_pos]
  simp [signalled, ClockEvent.signals, ha]

/-- The event that accepts a timeout is a set. -/
theorem SleepSystem.set_of_accepted {s clock : Sysclock} {ev : ClockEvent} {id : CPtr} (hlog : clock.log = s.log ++ [ev])
    (h : SleepSystem.accepted clock = some id) : ∃ caller cap periodic d t, ev = .set caller cap periodic d id t := by
  rw [SleepSystem.accepted, hlog, List.getLast?_concat] at h
  cases ev with
  | set caller cap periodic d id' t =>
    cases h
    exact ⟨caller, cap, periodic, d, t, rfl⟩
  | refused | cancel | getTime | scan => cases h

namespace SleepInv

variable {periodMs : Word} {s : SleepSystem} {h : SleepHistory}

/-- The threads just started. -/
theorem of_init (hi : s.Init) : SleepInv periodMs s .empty := by
  have hlog : s.clock.log = [] := hi.clock.log
  refine ⟨.init ⟨hi.clock, rfl⟩, hi.owner, ?_, ?_, ?_⟩
  · intro caller cap periodic d a t st thread hmem
    simp [stampedLog, hlog] at hmem
  · intro thread hn
    rw [hi.notified thread] at hn
    cases hn
  · simp [SleepHistory.empty]

/-- The clock goes on. -/
theorem reachable_step (hinv : SleepInv periodMs s h) {a : ClockAction} {clock : Sysclock}
    (hs : s.clock.step periodMs a = .next clock) :
    (sysclockExactMachine periodMs).Reachable (clock, h.clock.record s.clock a) :=
  hinv.clock.step a (Machine.recorded_step.mpr ⟨hs, rfl⟩)

/-- A timeout that was set before a step of the clock and is armed after it was armed before it. -/
theorem armed_before (hinv : SleepInv periodMs s h) {a : ClockAction} {clock : Sysclock}
    (hs : s.clock.step periodMs a = .next clock)
    {id : CPtr} (hid : id ∈ setIds s.clock.log) (harmed : Sel4Osapi.armed id clock.log ≠ none) :
    Sel4Osapi.armed id s.clock.log ≠ none := by
  rcases stampedLog_record (stamps_inv hinv.clock) hs with ⟨hlog, -⟩ | ⟨ev, hlog, -⟩
  · rwa [hlog] at harmed
  · obtain ⟨⟨free, live, hclock⟩, -⟩ := sysclock_safe (hinv.reachable_step hs).of_recorded
    have hids := hclock.ids
    simp only [hlog] at hids
    rw [hlog] at harmed
    exact (armed_of_concat harmed).resolve_right (setId_ne_of_ids hids hid)

/-- What a thread was signalled by stays in the log. -/
theorem signalledOnce_step (hinv : SleepInv periodMs s h) {a : ClockAction} {clock : Sysclock}
    (hs : s.clock.step periodMs a = .next clock) {ms : Word} {id : CPtr} {since : ClockStamp}
    (honce : SignalledOnce (stampedLog (s.clock, h.clock)) ms id since) :
    SignalledOnce (stampedLog (clock, h.clock.record s.clock a)) ms id since := by
  rcases stampedLog_record (stamps_inv hinv.clock) hs with ⟨-, hstamped⟩ | ⟨ev, -, hstamped⟩
  · rwa [hstamped]
  · rw [hstamped]
    exact honce.append _

/-- A thread that a scan notifies is signalled by the timeout of its sleep. -/
theorem signalled_scan (hinv : SleepInv periodMs s h) {clock : Sysclock} (hs : s.clock.step periodMs .scan = .next clock)
    {thread : Nat} (hsig : s.signalled clock thread = true) :
    ∃ ms a, s.pc thread = .waiting ms a ∧
      SignalledOnce (stampedLog (clock, h.clock.record s.clock .scan)) ms a (h.since thread) := by
  obtain ⟨⟨free, live, hclock⟩, -⟩ := sysclock_safe hinv.clock.of_recorded
  obtain ⟨⟨free', live', hclock'⟩, -⟩ := sysclock_safe (hinv.reachable_step hs).of_recorded
  cases Sysclock.step_moves hs with
  | scan sig hpc hserver htimer hlogs =>
    rw [SleepSystem.signalled, hlogs.log, List.getLast?_concat, List.any_eq_true] at hsig
    obtain ⟨a, ha, hcap⟩ := hsig
    obtain ⟨cap, hcap, howner⟩ := Option.bind_eq_some_iff.mp (of_decide_eq_true hcap)
    -- the scan signals what is armed, and that was set with the capability in its slot
    have hscans := hclock'.scans
    simp only [hlogs.log] at hscans
    have hdue := hscans.mem_iff.mp ha
    simp only [dueAt, Option.any_eq_true] at hdue
    obtain ⟨e, he, -⟩ := hdue
    obtain ⟨cap', t, hset⟩ := set_of_armed he
    obtain rfl : cap' = cap := Option.some.inj ((hclock.caps _ _ _ _ _ _ hset).symm.trans hcap)
    have hstamped := hset
    rw [(stamps_inv hinv.clock).log_eq] at hstamped
    obtain ⟨⟨ev, st⟩, hmem, hev⟩ := List.mem_map.mp hstamped
    dsimp only at hev
    subst hev
    obtain ⟨hperiodic, harmed⟩ := hinv.armed _ _ _ _ _ _ _ _ hmem howner
    obtain ⟨hpc', hsince⟩ := harmed (by simp [he])
    obtain ⟨pre, rest, hsplit⟩ := List.append_of_mem hmem
    refine ⟨_, _, hpc', pre, e.caller, cap', t, rest, s.clock.time, sig,
      ⟨h.clock.ticks, decide (s.clock.timerPc = .scanning)⟩, [], ?_, ha⟩
    have hconcat := stampedLog_concat ⟨h.clock.ticks, decide (s.clock.timerPc = .scanning)⟩ (stamps_inv hinv.clock).length hlogs.log
    rw [hperiodic] at hsplit
    rw [hsince]
    refine hconcat.trans ?_
    rw [hsplit]
    simp

/-- The clock service does something that is not the service of a sleep. -/
theorem clockStep (hinv : SleepInv periodMs s h) {a : ClockAction} (hforeign : s.Foreign a) {clock : Sysclock}
    (hs : s.clock.step periodMs a = .next clock) :
    SleepInv periodMs { s with
      clock := clock, notified := fun thread => s.notified thread || (decide (a = .scan) && s.signalled clock thread) }
      { h with clock := h.clock.record s.clock a } := by
  refine ⟨hinv.reachable_step hs, hinv.owner, ?_, ?_,
    hinv.slept⟩
  · intro caller cap periodic d id t st thread hmem howner
    have hold : (ClockEvent.set caller cap periodic d id t, st) ∈ stampedLog (s.clock, h.clock) := by
      rcases stampedLog_record (stamps_inv hinv.clock) hs with ⟨-, hstamped⟩ | ⟨ev, hlog, hstamped⟩
      · exact hstamped ▸ hmem
      · rcases List.mem_append.mp (hstamped ▸ hmem) with hmem | hmem
        · exact hmem
        · -- a new timeout would be on the capability of the request
          obtain ⟨rfl, -⟩ := Prod.mk.inj (List.mem_singleton.mp hmem)
          obtain ⟨rfl, -⟩ := request_of_set hs hlog
          have hnone : s.owner cap = none := hforeign
          have hsome : s.owner cap = some thread := howner
          rw [hnone] at hsome
          cases hsome
    obtain ⟨hperiodic, harmed⟩ := hinv.armed _ _ _ _ _ _ _ _ hold howner
    exact ⟨hperiodic, fun hne => harmed (hinv.armed_before hs (mem_setIds_of_stamped hold) hne)⟩
  · intro thread hn
    simp only [Bool.or_eq_true, Bool.and_eq_true, decide_eq_true_eq] at hn
    rcases hn with hn | ⟨rfl, hsig⟩
    · obtain ⟨ms, id, hpc, honce⟩ := hinv.notified thread hn
      exact ⟨ms, id, hpc, hinv.signalledOnce_step hs honce⟩
    · exact hinv.signalled_scan hs hsig

/-- The number of increments only grows. -/
theorem ticks_le (hinv : SleepInv periodMs s h) {pre post : List (ClockEvent × ClockStamp)} {ev : ClockEvent} {st : ClockStamp}
    (hsplit : stampedLog (s.clock, h.clock) = pre ++ (ev, st) :: post) (hscan : ev.isScan = true) : st.ticks ≤ h.clock.ticks := by
  have hstamps := stamps_inv hinv.clock
  have hok := hstamps.stamped pre ev st post hsplit
  have hticks : h.clock.ticks = scans (stampedLog (s.clock, h.clock)) + _ := hstamps.ticks
  rw [hsplit] at hticks
  have hcount : scans (pre ++ (ev, st) :: post) = scans pre + (scans post + 1) := by simp [scans, hscan]
  rw [hok.ticks, hok.scan hscan, pendingScans, if_pos rfl]
  omega

/-- A thread goes to sleep: its timeout is the only one on its `wait_aep` that is armed. -/
theorem sleepStep (hinv : SleepInv periodMs s h) {thread : Nat} (hpc : s.pc thread = .awake) {badge ms : Word} {s' : SleepSystem}
    (hs : s.sleep periodMs thread badge ms = .next s') : SleepInv periodMs s' (h.record s (.sleep thread badge ms)) := by
  unfold SleepSystem.sleep at hs
  cases hstep : s.clock.step periodMs (.request badge (.setTimeout 0 ms (s.waitAep thread))) with
  | blocked => simp [hstep] at hs
  | fault f => simp [hstep] at hs
  | next clock =>
    simp only [hstep] at hs
    cases haccepted : SleepSystem.accepted clock with
    | none => simp [haccepted] at hs
    | some id =>
      simp only [haccepted, Outcome.next.injEq] at hs
      subst hs
      obtain ⟨ev, hlog, hstamped⟩ : ∃ ev, clock.log = s.clock.log ++ [ev] ∧
          stampedLog (clock, (h.record s (.sleep thread badge ms)).clock) =
          stampedLog (s.clock, h.clock) ++ [(ev, ⟨h.clock.ticks, decide (s.clock.timerPc = .scanning)⟩)] := by
        cases Sysclock.step_moves hstep with
        | request badge r ev hpc' hreplied =>
          exact ⟨ev, hreplied.logs.log, stampedLog_concat _ (stamps_inv hinv.clock).length hreplied.logs.log⟩
      obtain ⟨caller, cap, periodic, d, t, rfl⟩ := SleepSystem.set_of_accepted hlog haccepted
      obtain ⟨hreq, -, -⟩ := request_of_set hstep hlog
      cases hreq
      have hfree : ∀ caller' cap' periodic' d' a t' st,
          (ClockEvent.set caller' cap' periodic' d' a t', st) ∈ stampedLog (s.clock, h.clock) →
          s.owner cap' = some thread → Sel4Osapi.armed a s.clock.log = none := by
        intro caller' cap' periodic' d' a t' st hmem howner
        by_contra hne
        have hwaiting := ((hinv.armed _ _ _ _ _ _ _ _ hmem howner).2 hne).1
        rw [hpc] at hwaiting
        cases hwaiting
      refine ⟨hinv.reachable_step hstep, hinv.owner, ?_, ?_,
        hinv.slept⟩
      · intro caller' cap' periodic' d' a t' st k hmem howner
        rcases List.mem_append.mp (hstamped ▸ hmem) with hold | hnew
        · obtain ⟨hperiodic, harmed⟩ := hinv.armed _ _ _ _ _ _ _ _ hold howner
          refine ⟨hperiodic, ?_⟩
          intro hne
          have hne' := hinv.armed_before hstep (mem_setIds_of_stamped hold) hne
          have hkt : k ≠ thread := by
            rintro rfl
            exact hne' (hfree _ _ _ _ _ _ _ hold howner)
          obtain ⟨hpck, hsince⟩ := harmed hne'
          exact ⟨(Function.update_of_ne hkt _ _).trans hpck, (Function.update_of_ne hkt _ _).trans hsince⟩
        · obtain ⟨hev, rfl⟩ := Prod.mk.inj (List.mem_singleton.mp hnew)
          cases hev
          obtain rfl : thread = k := Option.some.inj ((hinv.owner thread).symm.trans howner)
          exact ⟨rfl, fun _ => ⟨Function.update_self _ _ _, Function.update_self _ _ _⟩⟩
      · intro k hk
        obtain ⟨ms', a, hpck, honce⟩ := hinv.notified k hk
        have hkt : k ≠ thread := by
          rintro rfl
          rw [hpc] at hpck
          cases hpck
        refine ⟨ms', a, (Function.update_of_ne hkt _ _).trans hpck, ?_⟩
        have hsince : (h.record s (.sleep thread badge ms)).since k = h.since k := Function.update_of_ne hkt _ _
        rw [hsince]
        exact hinv.signalledOnce_step hstep honce

/-- A thread wakes up: the timeout of its sleep has been signalled, and is not armed any more. -/
theorem wakeStep (hinv : SleepInv periodMs s h) {thread : Nat} (hn : s.notified thread = true) :
    SleepInv periodMs { s with pc := Function.update s.pc thread .awake, notified := Function.update s.notified thread false }
      (h.record s (.wake thread)) := by
  obtain ⟨ms, a, hwaiting, honce⟩ := hinv.notified thread hn
  have hdisarmed := armed_of_signalledOnce hinv.clock honce
  simp only [SleepHistory.record, hwaiting]
  refine ⟨hinv.clock, hinv.owner, ?_, ?_, ?_⟩
  · intro caller cap periodic d id t st k hmem howner
    obtain ⟨hperiodic, harmed⟩ := hinv.armed _ _ _ _ _ _ _ _ hmem howner
    refine ⟨hperiodic, ?_⟩
    intro hne
    obtain ⟨hpck, hsince⟩ := harmed hne
    have hkt : k ≠ thread := by
      rintro rfl
      rw [hwaiting] at hpck
      cases hpck
      exact hne hdisarmed
    exact ⟨(Function.update_of_ne hkt _ _).trans hpck, hsince⟩
  · intro k hk
    dsimp only at hk
    have hkt : k ≠ thread := by
      rintro rfl
      rw [Function.update_self] at hk
      cases hk
    rw [Function.update_of_ne hkt] at hk
    obtain ⟨ms', a', hpc', honce'⟩ := hinv.notified k hk
    exact ⟨ms', a', (Function.update_of_ne hkt _ _).trans hpc', honce'⟩
  · intro r hr htimely
    rcases List.mem_append.mp hr with hr | hr
    · exact hinv.slept r hr htimely
    · obtain rfl := List.mem_singleton.mp hr
      obtain ⟨pre, caller, cap, t, mid, c, sig, st, rest, hsplit, ha⟩ := honce
      have helapsed := (((signal_iff_elapsed hinv.clock hsplit).1 htimely).mp ha).2.1
      have hscan : stampedLog (s.clock, h.clock) =
          (pre ++ (.set caller cap 0 ms a t, h.since thread) :: mid) ++ (.scan c sig, st) :: rest := by
        rw [hsplit]
        simp
      have hle := hinv.ticks_le hscan rfl
      exact helapsed.trans (Nat.mul_le_mul_right _ (Nat.sub_le_sub_right hle _))

/-- Every action keeps the invariant. -/
theorem step (hinv : SleepInv periodMs s h) {a : SleepAction} {s' : SleepSystem} (hs : s.step periodMs a = .next s') :
    SleepInv periodMs s' (h.record s a) := by
  cases a with
  | clock a =>
    simp only [SleepSystem.step, Outcome.guard_eq_next, Outcome.map_eq_next] at hs
    obtain ⟨hforeign, clock, hstep, rfl⟩ := hs
    exact hinv.clockStep hforeign hstep
  | sleep thread badge ms =>
    simp only [SleepSystem.step, Outcome.guard_eq_next] at hs
    exact hinv.sleepStep hs.1 hs.2
  | wake thread =>
    simp only [SleepSystem.step, Outcome.guard_eq_next, Outcome.next.injEq] at hs
    obtain ⟨⟨-, hn⟩, rfl⟩ := hs
    exact hinv.wakeStep hn

end SleepInv

end Sel4Osapi
