import Sel4Osapi.Theorems.Sleep

/-!
# The sleeps: no wake-up is lost

A thread waits after its timeout was accepted, and the scan that signals it may come before it waits. `Awaits` is what keeps
the wake-up: the log has the acceptance of its timeout, and a scan since that has signalled it has notified the thread.
-/

namespace Sel4Osapi

open Transition

/-- The timeout of a thread that sleeps was accepted, and if a scan has signalled it since, the thread is notified. -/
def Awaits (s : SleepSystem) (h : SleepHistory) : Prop :=
  ∀ thread ms a, s.pc thread = .waiting ms a → ∃ pre caller t mid,
    stampedLog (s.clock, h.clock) = pre ++ (.set caller (s.waitAep thread) 0 ms a t, h.since thread) :: mid ∧
      (signalled a (mid.map Prod.fst) = true → s.notified thread = true)

namespace Awaits

variable {periodMs : Word} {s s' : SleepSystem} {h : SleepHistory}

/-- A scan that signals the timeout of a thread notifies it. -/
theorem signalled_of_mem (hinv : SleepInv periodMs s h) {clock : Sysclock} {thread : Nat} {caller : Word} {ms : Word} {a : CPtr}
    {t : Word} {st : ClockStamp} (hset : (ClockEvent.set caller (s.waitAep thread) 0 ms a t, st) ∈ stampedLog (s.clock, h.clock))
    {c : Word} {sig : List CPtr} (hlog : clock.log = s.clock.log ++ [.scan c sig]) (ha : a ∈ sig) :
    s.signalled clock thread = true := by
  obtain ⟨⟨free, live, hclock⟩, -⟩ := sysclock_safe hinv.clock.of_recorded
  have hcap := hclock.caps _ _ _ _ _ _ (List.of_mem_zip hset).1
  unfold SleepSystem.signalled
  rw [hlog, List.getLast?_concat]
  refine List.any_eq_true.mpr ⟨a, ha, decide_eq_true ?_⟩
  rw [hcap, Option.bind_some, hinv.owner]

/-- The clock service does something that is not the service of a sleep. -/
theorem clockStep (haw : Awaits s h) (hinv : SleepInv periodMs s h) {a : ClockAction} {clock : Sysclock}
    (hs : s.clock.step periodMs a = .next clock) :
    Awaits { s with
      clock := clock, notified := fun thread => s.notified thread || (decide (a = .scan) && s.signalled clock thread) }
      { h with clock := h.clock.record s.clock a } := by
  intro thread ms id hpc
  obtain ⟨pre, caller, t, mid, hsplit, hnotified⟩ := haw thread ms id hpc
  rcases stampedLog_record (stamps_inv hinv.clock) hs with ⟨-, hstamped⟩ | ⟨ev, hlog, hstamped⟩
  · refine ⟨pre, caller, t, mid, hstamped.trans hsplit, ?_⟩
    intro hsig
    simp [hnotified hsig]
  · refine ⟨pre, caller, t, mid ++ [(ev, ⟨h.clock.ticks, decide (s.clock.timerPc = .scanning)⟩)], ?_, ?_⟩
    · rw [hstamped, hsplit]
      simp
    · intro hsig
      rw [List.map_append, signalled, List.any_append, Bool.or_eq_true] at hsig
      rcases hsig with hsig | hsig
      · simp [hnotified hsig]
      · have hset : (ClockEvent.set caller (s.waitAep thread) 0 ms id t, h.since thread) ∈ stampedLog (s.clock, h.clock) := by
          rw [hsplit]
          simp
        cases Sysclock.step_moves hs with
        | scan sig hpc' hserver htimer hlogs =>
          cases List.singleton_inj.mp (List.append_cancel_left (hlog.symm.trans hlogs.log))
          have ha : id ∈ sig := by simpa [ClockEvent.signals] using hsig
          simp [signalled_of_mem hinv hset hlogs.log ha]
        | slot slot hpc' hnew hs' =>
          subst hs'
          simp at hlog
        | request badge r ev' hpc' hreplied =>
          cases List.singleton_inj.mp (List.append_cancel_left (hlog.symm.trans hreplied.logs.log))
          rcases hreplied.serverPc with ⟨⟨_, _, _, -, rfl | rfl⟩, -⟩ | ⟨⟨_, _, rfl⟩ | ⟨_, rfl⟩, -⟩ <;>
            simp [ClockEvent.signals] at hsig
        | tick hpc' hs' =>
          subst hs'
          simp at hlog

/-- A thread goes to sleep. -/
theorem sleepStep (haw : Awaits s h) (hinv : SleepInv periodMs s h) {thread : Nat} {badge ms : Word}
    (hs : s.sleep periodMs thread badge ms = .next s') : Awaits s' (h.record s (.sleep thread badge ms)) := by
  unfold SleepSystem.sleep at hs
  cases hstep : s.clock.step periodMs (.request badge (.setTimeout 0 ms (s.waitAep thread))) with
  | blocked => simp [hstep] at hs
  | fault f => simp [hstep] at hs
  | next clock =>
    simp only [hstep] at hs
    cases haccepted : SleepSystem.accepted clock with
    | none => simp [haccepted] at hs
    | some id =>
      simp only [haccepted, Outcome.next.injEq] at hs
      subst hs
      obtain ⟨ev, hlog⟩ : ∃ ev, clock.log = s.clock.log ++ [ev] := by
        cases Sysclock.step_moves hstep with
        | request badge r ev hpc' hreplied => exact ⟨ev, hreplied.logs.log⟩
      have hstamped : stampedLog (clock, (h.record s (.sleep thread badge ms)).clock) =
          stampedLog (s.clock, h.clock) ++ [(ev, ⟨h.clock.ticks, decide (s.clock.timerPc = .scanning)⟩)] :=
        stampedLog_concat _ (stamps_inv hinv.clock).length hlog
      obtain ⟨caller, cap, periodic, d, t, rfl⟩ := SleepSystem.set_of_accepted hlog haccepted
      obtain ⟨hrequest, -, -⟩ := request_of_set hstep hlog
      cases hrequest
      intro k ms' a hpc
      rcases eq_or_ne k thread with rfl | hkt
      · -- its own timeout is the last event
        dsimp only at hpc
        rw [Function.update_self] at hpc
        cases hpc
        refine ⟨stampedLog (s.clock, h.clock), badge, t, [], hstamped.trans ?_, fun hsig => by simp [signalled] at hsig⟩
        simp [SleepHistory.record]
      · dsimp only at hpc
        rw [Function.update_of_ne hkt] at hpc
        obtain ⟨pre, caller', t', mid, hsplit, hnotified⟩ := haw k ms' a hpc
        refine ⟨pre, caller', t', mid ++ [(.set badge (s.waitAep thread) 0 ms id t, ⟨h.clock.ticks,
          decide (s.clock.timerPc = .scanning)⟩)], hstamped.trans ?_, ?_⟩
        · rw [hsplit]
          simp [SleepHistory.record, Function.update_of_ne hkt]
        · intro hsig
          rw [List.map_append, signalled, List.any_append, Bool.or_eq_true] at hsig
          rcases hsig with hsig | hsig
          · exact hnotified hsig
          · simp [ClockEvent.signals] at hsig

/-- A thread wakes up. -/
theorem wakeStep (haw : Awaits s h) (thread : Nat) :
    Awaits { s with pc := Function.update s.pc thread .awake, notified := Function.update s.notified thread false }
      (h.record s (.wake thread)) := by
  intro k ms a hpc
  have hkt : k ≠ thread := by
    rintro rfl
    simp at hpc
  dsimp only at hpc
  rw [Function.update_of_ne hkt] at hpc
  obtain ⟨pre, caller, t, mid, hsplit, hnotified⟩ := haw k ms a hpc
  have hhistory : (h.record s (.wake thread)).clock = h.clock ∧ (h.record s (.wake thread)).since = h.since := by
    simp only [SleepHistory.record]
    split <;> exact ⟨rfl, rfl⟩
  refine ⟨pre, caller, t, mid, ?_, ?_⟩
  · rw [hhistory.1, hhistory.2]
    exact hsplit
  · intro hsig
    dsimp only
    rw [Function.update_of_ne hkt]
    exact hnotified hsig

/-- Every action keeps it. -/
theorem step (haw : Awaits s h) (hinv : SleepInv periodMs s h) {a : SleepAction} (hs : s.step periodMs a = .next s') :
    Awaits s' (h.record s a) := by
  cases a with
  | clock a =>
    simp only [SleepSystem.step, Outcome.guard_eq_next, Outcome.map_eq_next] at hs
    obtain ⟨-, clock, hstep, rfl⟩ := hs
    exact haw.clockStep hinv hstep
  | sleep thread badge ms =>
    simp only [SleepSystem.step, Outcome.guard_eq_next] at hs
    exact haw.sleepStep hinv hs.2
  | wake thread =>
    simp only [SleepSystem.step, Outcome.guard_eq_next, Outcome.next.injEq] at hs
    obtain ⟨-, rfl⟩ := hs
    exact haw.wakeStep thread

end Awaits

end Sel4Osapi
