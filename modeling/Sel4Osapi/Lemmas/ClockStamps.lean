import Sel4Osapi.Lemmas.ClockLog
import Sel4Osapi.Lib.ModularClock

/-!
# The clock service: increments counted exactly

A history variable counts the increments of the clock and stamps every event of the log with the count it happened at, and
with whether the scan that follows the last increment was still to come. Every increment is followed by one scan, so the
scans of a log have the stamps 1, 2, 3, and so on; the clock values of the log are the stamps times the period, modulo 2^32.
-/

namespace Sel4Osapi

open Transition

/-- When an event happened. -/
structure ClockStamp where
  /-- how many increments of the clock had taken place -/
  ticks : Nat
  /-- the scan after the last increment was still to come -/
  scanPending : Bool
  deriving DecidableEq, Repr

/-- How many increments have taken place, and the stamps of the events of the log. -/
structure ClockHistory where
  ticks : Nat
  stamps : List ClockStamp
  deriving DecidableEq, Repr

namespace ClockHistory

/-- Before anything happened. -/
def empty : ClockHistory := { ticks := 0, stamps := [] }

/-- What a step adds: the service of a request and a scan put one event in the log. -/
def record (h : ClockHistory) (s : Sysclock) : ClockAction → ClockHistory
  | .tick => { h with ticks := h.ticks + 1 }
  | .request _ _ | .scan => { h with stamps := h.stamps ++ [{ ticks := h.ticks, scanPending := decide (s.timerPc = .scanning) }] }
  | .allocSlot _ => h

end ClockHistory

/-- The clock service with its exact history. -/
def sysclockExactMachine (periodMs : Word) : Machine Fault (Sysclock × ClockHistory) ClockAction :=
  (sysclockMachine periodMs).recorded .empty .record

/-- The events of the log with their stamps. -/
def stampedLog (x : Sysclock × ClockHistory) : List (ClockEvent × ClockStamp) := x.1.log.zip x.2.stamps

/-- The event is a scan. -/
def ClockEvent.isScan : ClockEvent → Bool
  | .scan _ _ => true
  | _ => false

/-- The number of scans. -/
def scans (es : List (ClockEvent × ClockStamp)) : Nat := es.countP fun x => x.1.isScan

/-- The clock value an event has, if it has one that the proofs need: that of an acceptance and that of a scan. -/
def ClockEvent.clock? : ClockEvent → Option Word
  | .set _ _ _ _ _ t => some t
  | .scan c _ => some c
  | _ => none

@[simp] theorem scans_append (es es' : List (ClockEvent × ClockStamp)) : scans (es ++ es') = scans es + scans es' :=
  List.countP_append

/-- One, if a scan is to come. -/
def pendingScans (b : Bool) : Nat := if b then 1 else 0

/-- An event that happened after `n` scans has this stamp, and the clock value that goes with it. -/
structure StampOk (periodMs : Word) (n : Nat) (ev : ClockEvent) (st : ClockStamp) : Prop where
  ticks : st.ticks = n + pendingScans st.scanPending
  scan : ev.isScan = true → st.scanPending = true
  clock : ∀ t, ev.clock? = some t → t.toNat = st.ticks * periodMs.toNat % 2 ^ 32

/-- The stamps of a log are right. -/
structure StampsInv (periodMs : Word) (x : Sysclock × ClockHistory) : Prop where
  length : x.2.stamps.length = x.1.log.length
  time : x.1.time.toNat = x.2.ticks * periodMs.toNat % 2 ^ 32
  ticks : x.2.ticks = scans (stampedLog x) + pendingScans (decide (x.1.timerPc = .scanning))
  stamped : ∀ pre ev st post, stampedLog x = pre ++ (ev, st) :: post → StampOk periodMs (scans pre) ev st

/-- An event is put in the log with a stamp. -/
theorem stampedLog_concat {s s' : Sysclock} {h : ClockHistory} {ev : ClockEvent} (st : ClockStamp)
    (hlen : h.stamps.length = s.log.length) (hlog : s'.log = s.log ++ [ev]) :
    stampedLog (s', { h with stamps := h.stamps ++ [st] }) = stampedLog (s, h) ++ [(ev, st)] := by
  simp only [stampedLog, hlog]
  rw [List.zip_append hlen.symm]
  rfl

namespace StampsInv

variable {periodMs : Word} {s s' : Sysclock} {h : ClockHistory}

/-- An event is put in the log with its stamp. -/
theorem event (hinv : StampsInv periodMs (s, h)) {ev : ClockEvent} (hlog : s'.log = s.log ++ [ev]) (htime : s'.time = s.time)
    (hscan : ev.isScan = true → s.timerPc = .scanning ∧ s'.timerPc = .waiting) (hother : ev.isScan = false → s'.timerPc = s.timerPc)
    (hclock : ∀ t, ev.clock? = some t → t = s.time) :
    StampsInv periodMs (s', { h with stamps := h.stamps ++ [⟨h.ticks, decide (s.timerPc = .scanning)⟩] }) := by
  have hlen : h.stamps.length = s.log.length := hinv.length
  have hticks : h.ticks = scans (stampedLog (s, h)) + pendingScans (decide (s.timerPc = .scanning)) := hinv.ticks
  have hzip := stampedLog_concat ⟨h.ticks, decide (s.timerPc = .scanning)⟩ hlen hlog
  refine ⟨?_, ?_, ?_, ?_⟩
  · simp only [hlog, List.length_append, hlen, List.length_singleton]
  · simp only [htime]
    exact hinv.time
  · rw [hzip, scans_append]
    cases hev : ev.isScan with
    | true =>
      obtain ⟨hpc, hpc'⟩ := hscan hev
      simp [scans, hev, pendingScans, hpc', hticks, hpc]
    | false => simp [scans, hev, hother hev, hticks]
  · intro pre ev' st post hsplit
    rw [hzip] at hsplit
    rcases List.eq_nil_or_concat post with rfl | ⟨post, x, rfl⟩
    · obtain ⟨rfl, hlast⟩ := List.append_inj' hsplit rfl
      obtain ⟨rfl, rfl⟩ := Prod.mk.inj (List.cons.inj hlast).1
      refine ⟨hticks, fun hev => by simp [(hscan hev).1], ?_⟩
      intro t ht
      rw [hclock t ht]
      exact hinv.time
    · rw [List.concat_eq_append, ← List.cons_append, ← List.append_assoc] at hsplit
      exact hinv.stamped pre ev' st post (List.append_inj' hsplit rfl).1

/-- A step that puts nothing in the log. -/
theorem silent (hinv : StampsInv periodMs (s, h)) {h' : ClockHistory} (hlog : s'.log = s.log) (hstamps : h'.stamps = h.stamps)
    (htime : s'.time.toNat = h'.ticks * periodMs.toNat % 2 ^ 32)
    (hticks : h'.ticks = scans (stampedLog (s, h)) + pendingScans (decide (s'.timerPc = .scanning))) :
    StampsInv periodMs (s', h') := by
  have hzip : stampedLog (s', h') = stampedLog (s, h) := by simp only [stampedLog, hlog, hstamps]
  refine ⟨?_, htime, hzip ▸ hticks, hzip ▸ hinv.stamped⟩
  simp only [hlog, hstamps]
  exact hinv.length

/-- Every step keeps the stamps right. -/
theorem step (hinv : StampsInv periodMs (s, h)) {a : ClockAction} (hs : s.step periodMs a = .next s') :
    StampsInv periodMs (s', h.record s a) := by
  have htime : s.time.toNat = h.ticks * periodMs.toNat % 2 ^ 32 := hinv.time
  have hticks : h.ticks = scans (stampedLog (s, h)) + pendingScans (decide (s.timerPc = .scanning)) := hinv.ticks
  cases Sysclock.step_moves hs with
  | slot slot hpc hnew hs' =>
    subst hs'
    exact hinv.silent rfl rfl htime hticks
  | request badge r ev hpc hreplied =>
    obtain ⟨hlogs, htimer, hev⟩ := hreplied
    have hnoscan : ev.isScan = false := by
      rcases hev with ⟨⟨_, _, _, -, rfl | rfl⟩, -⟩ | ⟨⟨_, _, rfl⟩ | ⟨_, rfl⟩, -⟩ <;> rfl
    refine hinv.event hlogs.log hlogs.time (fun hscan => by simp [hnoscan] at hscan) (fun _ => htimer) ?_
    intro t ht
    rcases hev with ⟨⟨_, _, _, -, rfl | rfl⟩, -⟩ | ⟨⟨_, _, rfl⟩ | ⟨_, rfl⟩, -⟩
    · exact (Option.some.inj ht).symm
    · cases ht
    · cases ht
    · cases ht
  | tick hpc hs' =>
    subst hs'
    refine hinv.silent rfl rfl ?_ ?_
    · simp only [ClockHistory.record, UInt32.toNat_add, htime, Nat.add_mul, Nat.one_mul, Nat.mod_add_mod]
    · simp [ClockHistory.record, hticks, hpc, pendingScans]
  | scan sig hpc hserver htimer hlogs =>
    exact hinv.event hlogs.log hlogs.time (fun _ => ⟨hpc, htimer⟩) (fun hscan => by cases hscan)
      fun t ht => (Option.some.inj ht).symm

end StampsInv

/-- The stamps are right in every reachable state. -/
theorem stamps_inv {periodMs : Word} {x : Sysclock × ClockHistory} (hr : (sysclockExactMachine periodMs).Reachable x) :
    StampsInv periodMs x := by
  refine hr.invariant ?_ ?_
  · intro x hi
    obtain ⟨s, h⟩ := x
    obtain ⟨hi, rfl⟩ := hi
    have hlog : s.log = [] := hi.log
    have htime : s.time = 0 := hi.time
    have htimer : s.timerPc = .waiting := hi.timerPc
    refine ⟨by simp [hlog, ClockHistory.empty], by simp [htime, ClockHistory.empty], ?_, ?_⟩
    · simp [ClockHistory.empty, stampedLog, hlog, scans, pendingScans, htimer]
    · intro pre ev st post hsplit
      simp [stampedLog, hlog] at hsplit
  · intro x a x' _ hinv hst
    obtain ⟨s, h⟩ := x
    obtain ⟨s', h'⟩ := x'
    obtain ⟨hs, hh⟩ := Machine.recorded_step.mp hst
    dsimp only at hs hh
    rw [hh]
    exact hinv.step hs

end Sel4Osapi
