import Sel4Osapi.Lemmas.ClockStamps
import Sel4Osapi.Theorems.Clock

/-!
# The clock service: timeouts in real time

The time of a timeout is compared in 32 bits with a clock that wraps. On the exact count of the increments, a one-shot is
signalled at the first scan at which its time has elapsed if and only if the clock does not wrap before: between the earlier
of its deadline and the first scan after its acceptance, and the scan at which it is due.
-/

namespace Sel4Osapi

open Transition ModularClock

/-! ## The scans after an acceptance -/

/-- The number of the first scan after an event. -/
def firstScan (st : ClockStamp) : Nat := if st.scanPending then st.ticks else st.ticks + 1

/-- The milliseconds of increments between two events. -/
def elapsedMs (periodMs : Word) (since now : ClockStamp) : Nat := (now.ticks - since.ticks) * periodMs.toNat

/-- A scan stamped `now` is the first after the events `es` at which `d` milliseconds have elapsed since `since`. -/
def FirstElapsed (periodMs d : Word) (since now : ClockStamp) (es : List (ClockEvent × ClockStamp)) : Prop :=
  d.toNat ≤ elapsedMs periodMs since now ∧ ∀ x ∈ es, x.1.isScan = true → ¬ d.toNat ≤ elapsedMs periodMs since x.2

/-- The clock does not wrap before a timeout of `d` milliseconds accepted at `since` is due. -/
def Timely (periodMs d : Word) (since : ClockStamp) : Prop :=
  NoWrap (2 ^ 32) periodMs.toNat (firstScan since) (since.ticks * periodMs.toNat + d.toNat)

instance (periodMs d : Word) (since : ClockStamp) : Decidable (Timely periodMs d since) :=
  inferInstanceAs (Decidable (NoWrap _ _ _ _))

/-- A list with scans has one of each number. -/
theorem exists_scan (es : List (ClockEvent × ClockStamp)) {j : Nat} (hj : j < scans es) :
    ∃ l x r, es = l ++ x :: r ∧ x.1.isScan = true ∧ scans l = j := by
  induction es generalizing j with
  | nil => simp [scans] at hj
  | cons y es ih =>
    cases hy : y.1.isScan with
    | true =>
      have hscans : scans (y :: es) = scans es + 1 := by simp [scans, hy]
      cases j with
      | zero => exact ⟨[], y, es, rfl, hy, rfl⟩
      | succ j =>
        obtain ⟨l, x, r, rfl, hx, hl⟩ := ih (j := j) (by omega)
        exact ⟨y :: l, x, r, rfl, hx, by simp [scans, hy] at hl ⊢; omega⟩
    | false =>
      have hscans : scans (y :: es) = scans es := by simp [scans, hy]
      obtain ⟨l, x, r, rfl, hx, hl⟩ := ih (j := j) (by omega)
      exact ⟨y :: l, x, r, rfl, hx, by simp [scans, hy] at hl ⊢; omega⟩

/-- The scans of a list are numbered from `first`. -/
def Numbered (first : Nat) (es : List (ClockEvent × ClockStamp)) : Prop :=
  ∀ l x r, es = l ++ x :: r → x.1.isScan = true → x.2.ticks = first + scans l

/-- What holds of all the scans of a list holds of all their numbers. -/
theorem Numbered.forall_iff {first : Nat} {es : List (ClockEvent × ClockStamp)} (h : Numbered first es) (Q : Nat → Prop) :
    (∀ x ∈ es, x.1.isScan = true → Q x.2.ticks) ↔ ∀ k, first ≤ k → k < first + scans es → Q k := by
  constructor
  · intro hall k hk hlt
    obtain ⟨l, x, r, rfl, hx, hl⟩ := exists_scan es (j := k - first) (by omega)
    have hticks := h l x r rfl hx
    have hQ := hall x (by simp) hx
    rwa [hticks, hl, Nat.add_sub_cancel' hk] at hQ
  · intro hall x hx hscan
    obtain ⟨l, r, rfl⟩ := List.append_of_mem hx
    rw [h l x r rfl hscan]
    refine hall _ (Nat.le_add_right _ _) ?_
    have hlt : scans (l ++ x :: r) = scans l + (scans r + 1) := by simp [scans, hscan]
    omega

/-! ## One timeout -/

section Timeout

variable {periodMs : Word} {y : Sysclock × ClockHistory} {caller : Word} {cap : Cap} {d : Word} {a : CPtr} {t : Word}
  {st st' : ClockStamp}
  {pre es rest : List (ClockEvent × ClockStamp)} {c : Word} {sig : List CPtr}

/-- The scans after an acceptance are numbered from the first one. -/
theorem StampsInv.numbered (hinv : StampsInv periodMs y)
    (hsplit : stampedLog y = pre ++ (.set caller cap 0 d a t, st) :: (es ++ (.scan c sig, st') :: rest)) :
    Numbered (firstScan st) es ∧ st'.ticks = firstScan st + scans es := by
  have hset := (hinv.stamped pre _ st _ hsplit).ticks
  have hfirst : firstScan st = scans pre + 1 := by
    unfold firstScan
    unfold pendingScans at hset
    split <;> simp_all
  have hscan : ∀ l x r, es ++ (.scan c sig, st') :: rest = l ++ x :: r → x.1.isScan = true →
      x.2.ticks = firstScan st + scans l := by
    intro l x r hl hx
    have hok := hinv.stamped (pre ++ (.set caller cap 0 d a t, st) :: l) x.1 x.2 r (by rw [hsplit, hl]; simp)
    rw [hok.ticks, hok.scan hx, hfirst]
    simp [scans, pendingScans, ClockEvent.isScan]
    omega
  refine ⟨fun l x r hl hx => hscan l x (r ++ (.scan c sig, st') :: rest) (by rw [hl]; simp) hx, ?_⟩
  exact hscan es (.scan c sig, st') rest rfl rfl

/-- The exact time has elapsed at the first scan that reaches the exact deadline. -/
theorem firstElapsed_iff (hnum : Numbered (firstScan st) es) (hst' : st'.ticks = firstScan st + scans es) :
    FirstElapsed periodMs d st st' es ↔
      FirstAt (fun k => st.ticks * periodMs.toNat + d.toNat ≤ k * periodMs.toNat) (firstScan st) st'.ticks := by
  have hle : st.ticks ≤ firstScan st := by
    unfold firstScan
    split <;> omega
  have hiff : ∀ k, firstScan st ≤ k →
      (d.toNat ≤ (k - st.ticks) * periodMs.toNat ↔ st.ticks * periodMs.toNat + d.toNat ≤ k * periodMs.toNat) := by
    intro k hk
    have hmul := Nat.mul_le_mul_right periodMs.toNat (hle.trans hk)
    rw [Nat.sub_mul]
    omega
  unfold FirstElapsed FirstAt elapsedMs
  rw [hiff _ (by omega), hnum.forall_iff fun k => ¬ d.toNat ≤ (k - st.ticks) * periodMs.toNat, ← hst']
  exact and_congr_right fun _ => forall_congr' fun k => forall_congr' fun hk => by rw [hiff k hk]

/-- The 32-bit time is reached at the first scan whose remainder reaches that of the exact deadline. -/
theorem firstDue_iff (hinv : StampsInv periodMs y)
    (hsplit : stampedLog y = pre ++ (.set caller cap 0 d a t, st) :: (es ++ (.scan c sig, st') :: rest)) :
    FirstDue (t + d) c (es.map Prod.fst) ↔
      FirstAt (fun k => (st.ticks * periodMs.toNat + d.toNat) % 2 ^ 32 ≤ k * periodMs.toNat % 2 ^ 32) (firstScan st) st'.ticks := by
  obtain ⟨hnum, hst'⟩ := hinv.numbered hsplit
  have ht := (hinv.stamped pre _ st _ hsplit).clock t rfl
  have hdue : (t + d).toNat = (st.ticks * periodMs.toNat + d.toNat) % 2 ^ 32 := by
    rw [UInt32.toNat_add, ht, Nat.mod_add_mod]
  have hclock : ∀ l c' sig' st'' r, es ++ (.scan c sig, st') :: rest = l ++ (.scan c' sig', st'') :: r →
      c'.toNat = st''.ticks * periodMs.toNat % 2 ^ 32 := by
    intro l c' sig' st'' r hl
    exact (hinv.stamped (pre ++ (.set caller cap 0 d a t, st) :: l) (.scan c' sig') st'' r (by rw [hsplit, hl]; simp)).clock c' rfl
  unfold FirstDue FirstAt
  rw [UInt32.le_iff_toNat_le, hdue, hclock es c sig st' rest rfl, hst', ← hnum.forall_iff fun k =>
    ¬ (st.ticks * periodMs.toNat + d.toNat) % 2 ^ 32 ≤ k * periodMs.toNat % 2 ^ 32]
  refine and_congr_right fun _ => ⟨?_, ?_⟩
  · intro hall x hx hscan
    obtain ⟨ev, st''⟩ := x
    cases ev with
    | scan c' sig' =>
      have hnot := hall c' sig' (List.mem_map.mpr ⟨_, hx, rfl⟩)
      obtain ⟨l, r, rfl⟩ := List.append_of_mem hx
      rwa [UInt32.le_iff_toNat_le, hdue, hclock l c' sig' st'' (r ++ (.scan c sig, st') :: rest) (by simp)] at hnot
    | set | refused | cancel | getTime => cases hscan
  · intro hall c' sig' hmem
    obtain ⟨⟨ev, st''⟩, hx, rfl⟩ := List.mem_map.mp hmem
    have hnot := hall _ hx rfl
    obtain ⟨l, r, rfl⟩ := List.append_of_mem hx
    rwa [UInt32.le_iff_toNat_le, hdue, hclock l c' sig' st'' (r ++ (.scan c sig, st') :: rest) (by simp)]

/-- The log is the stamped log without its stamps. -/
theorem StampsInv.log_eq (hinv : StampsInv periodMs y) : y.1.log = (stampedLog y).map Prod.fst := by
  rw [stampedLog, List.map_fst_zip hinv.length.ge]

/-- A one-shot is signalled by a scan if it was not cancelled and the remainders say it is the first that is due. -/
theorem signal_iff_firstAt (hr : (sysclockExactMachine periodMs).Reachable y)
    (hsplit : stampedLog y = pre ++ (.set caller cap 0 d a t, st) :: (es ++ (.scan c sig, st') :: rest)) :
    a ∈ sig ↔ cancelled a (es.map Prod.fst) = false ∧
      FirstAt (fun k => (st.ticks * periodMs.toNat + d.toNat) % 2 ^ 32 ≤ k * periodMs.toNat % 2 ^ 32) (firstScan st) st'.ticks := by
  have hinv := stamps_inv hr
  obtain ⟨⟨free, live, h⟩, -⟩ := sysclock_safe hr.of_recorded
  have hlog := hinv.log_eq
  rw [hsplit] at hlog
  simp only [List.map_append, List.map_cons] at hlog
  obtain ⟨hs, hid⟩ := h.life hlog
  rw [signal_iff_oneshot hs hid, firstDue_iff hinv hsplit]

/-- The bounds the deadline of a timeout has against the first scan after its acceptance. -/
theorem deadline_bounds (periodMs d : Word) (st : ClockStamp) :
    st.ticks * periodMs.toNat + d.toNat < firstScan st * periodMs.toNat + 2 ^ 32 ∧
      firstScan st * periodMs.toNat ≤ st.ticks * periodMs.toNat + d.toNat + periodMs.toNat := by
  have hd := d.toNat_lt
  unfold firstScan
  split
  · omega
  · rw [Nat.add_mul, Nat.one_mul]
    omega

/-- A timely one-shot is signalled when its time has elapsed, and no other is. -/
theorem signal_iff_elapsed (hr : (sysclockExactMachine periodMs).Reachable y)
    (hsplit : stampedLog y = pre ++ (.set caller cap 0 d a t, st) :: (es ++ (.scan c sig, st') :: rest)) :
    (Timely periodMs d st → (a ∈ sig ↔ cancelled a (es.map Prod.fst) = false ∧ FirstElapsed periodMs d st st' es)) ∧
    (cancelled a (es.map Prod.fst) = false → FirstElapsed periodMs d st st' es → (a ∈ sig ↔ Timely periodMs d st)) := by
  obtain ⟨hnum, hst'⟩ := (stamps_inv hr).numbered hsplit
  obtain ⟨hbelow, habove⟩ := deadline_bounds periodMs d st
  have hle : firstScan st ≤ st'.ticks := by omega
  rw [signal_iff_firstAt hr hsplit, firstElapsed_iff hnum hst']
  constructor
  · intro htimely
    rw [firstAt_iff hbelow htimely hle]
  · intro hcancelled helapsed
    rw [firstAt_mod_iff periodMs.toNat_lt hbelow habove hle helapsed]
    exact ⟨fun h => h.2, fun h => ⟨hcancelled, h⟩⟩

end Timeout

end Sel4Osapi
