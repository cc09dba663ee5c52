import Sel4Osapi.Theorems.Clock

/-!
# What a scan and a cancel do to the schedule

`scan_effect` is about every well-formed schedule whose live entries have slots of their own, reachable or not; the entries in
the free list play no part. `cancel_effect` is about the reachable ones: a cancel goes on from the node it has released, and
ends there because the null slot is in it and it is the last of the free list. The reply to a cancel is always an error, so it
agrees with the effect only when there was nothing to cancel (`cancel_reply_iff`).
-/

namespace Sel4Osapi

open Transition

/-! ## The scan -/

/-- One scan, at the clock value of `s`: it ends; it signals the entries that are due, in the order of the list, and no other;
it leaves in the list, in their order, the entries that are not due one-shots, and appends those to the free list in the order
they fired; a periodic entry that was due is due again a period after the clock value, an entry that was not due is as it was,
and an entry released is cleared. The free entries, the clock and the two threads' slots are as they were. -/
theorem scan_effect (s : Sysclock) (free live : List Ptr) (h : LiveSchedule s.schedule free live) :
    ∃ s', s.scan = .ok s' ∧
      s'.log = s.log ++ [.scan s.time ((live.filter fun n => decide ((s.schedule.timeout n).nextEvent ≤ s.time)).map
        fun n => (s.schedule.timeout n).aep)] ∧
      LiveSchedule s'.schedule
        (free ++ live.filter fun n =>
          decide ((s.schedule.timeout n).nextEvent ≤ s.time) && decide ((s.schedule.timeout n).periodic = 0))
        (live.filter fun n =>
          !(decide ((s.schedule.timeout n).nextEvent ≤ s.time) && decide ((s.schedule.timeout n).periodic = 0))) ∧
      (∀ n ∈ live, (s.schedule.timeout n).nextEvent ≤ s.time → (s.schedule.timeout n).periodic ≠ 0 →
        s'.schedule.timeout n = { s.schedule.timeout n with nextEvent := s.time + (s.schedule.timeout n).period }) ∧
      (∀ n ∈ live, ¬ (s.schedule.timeout n).nextEvent ≤ s.time → s'.schedule.timeout n = s.schedule.timeout n) ∧
      (∀ n ∈ live, (s.schedule.timeout n).nextEvent ≤ s.time → (s.schedule.timeout n).periodic = 0 →
        s'.schedule.timeout n = { s.schedule.timeout n with aep := capNull, caller := 0, period := 0, periodic := 0 }) ∧
      (∀ n ∈ free, s'.schedule.timeout n = s.schedule.timeout n) ∧
      s'.time = s.time ∧ s'.cspace = s.cspace ∧ s'.allocated = s.allocated := by
  obtain ⟨p', hp', hr⟩ := LiveSchedule.scanLoop_spec s.time live [] free s.schedule s.fuel [] s.revoked h
    (by have := h.rep.length_le_fuel; simp only [Sysclock.fuel]; omega)
  rw [List.head?_eq_getElem?, ← h.rep.liveList.head] at hp'
  have hscanned : ∀ n ∈ live, p'.timeout n = (s.schedule.timeout n).scanned s.time := hr.scanned
  have hscan : s.scan = .ok { s with
      schedule := p'
      revoked := s.revoked ++ (expired s.schedule.timeout s.time live).map fun n => (s.schedule.timeout n).aep
      timerPc := .waiting
      log := s.log ++ [.scan s.time (dueAeps s.schedule.timeout s.time live)] } := by
    simp only [Sysclock.scan, hp', ok_bind]
    rfl
  have hlive : LiveSchedule p' (free ++ expired s.schedule.timeout s.time live) (unexpired s.schedule.timeout s.time live) := by
    simpa using hr.schedule
  refine ⟨_, hscan, rfl, hlive, ?_, ?_, ?_, ?_, rfl, rfl, rfl⟩
  · intro n hn hdue hper
    rw [hscanned n hn]
    simp [TimeoutEntry.scanned, TimeoutEntry.expires, TimeoutEntry.isDue, hdue, hper]
  · intro n hn hdue
    rw [hscanned n hn]
    simp [TimeoutEntry.scanned, TimeoutEntry.expires, TimeoutEntry.isDue, hdue]
  · intro n hn hdue hper
    rw [hscanned n hn]
    simp [TimeoutEntry.scanned, TimeoutEntry.expires, TimeoutEntry.isDue, TimeoutEntry.cleared, hdue, hper]
  · intro n hn
    exact hr.same n (by simp [hn])

/-- Three timeouts accepted at the start: a one-shot of 5 ms, a periodic one of 5 ms, and a one-shot of 50 ms. -/
theorem exists_threeAccepted : ∃ (s : Sysclock) (free live : List Ptr) (x y z : Ptr), LiveSchedule s.schedule free live ∧
    live = [x, y, z] ∧ s.schedule.timeout x = { caller := 7, aep := 1, periodic := 0, period := 5, nextEvent := 5 } ∧
    s.schedule.timeout y = { caller := 7, aep := 2, periodic := 1, period := 5, nextEvent := 5 } ∧
    s.schedule.timeout z = { caller := 7, aep := 3, periodic := 0, period := 50, nextEvent := 50 } := by
  obtain ⟨s₀, hi, hcs, -⟩ := exists_sysclock_init
  obtain ⟨free, h₀, hlen⟩ := hi.inv
  match free, h₀, hlen with
  | [], _, hlen | [_], _, hlen | [_, _], _, hlen => exact absurd hlen (by simp [sysclockMaxEntries])
  | x :: y :: z :: free, h₀, _ =>
    obtain ⟨s₁, hr₁, h₁, hx, hpc₁, -, htime₁, -, hcs₁, hal₁, hlog₁, -⟩ := h₀.exists_set
      (.init hi : (sysclockMachine 5).Reachable s₀) hi.serverPc (by decide : (1 : CPtr) ≠ capNull) (by simp [hi.allocated]) (by simp [hcs]) 0 5
    obtain ⟨s₂, hr₂, h₂, hy, hpc₂, -, htime₂, -, hcs₂, hal₂, hlog₂, hsame₂⟩ := h₁.exists_set hr₁ hpc₁
      (by decide : (2 : CPtr) ≠ capNull) (by simp [hal₁, hi.allocated]) (by simp [hcs₁, hcs]) 1 5
    obtain ⟨s₃, -, h₃, hz, -, -, -, -, -, -, hlog₃, hsame₃⟩ := h₂.exists_set hr₂ hpc₂ (by decide : (3 : CPtr) ≠ capNull)
      (by simp [hal₂, hal₁, hi.allocated]) (by simp [hcs₂, hcs₁, hcs]) 0 50
    have hx₃ : (s₃.schedule.timeout x).aep = 1 := by rw [hsame₃ x (by simp), hsame₂ x (by simp), hx]
    have hy₃ : (s₃.schedule.timeout y).aep = 2 := by rw [hsame₃ y (by simp), hy]
    have hlog : s₃.log = [.set 7 3 0 5 1 0, .set 7 3 1 5 2 0, .set 7 3 0 50 3 0] := by
      rw [hlog₃, hlog₂, hlog₁, htime₂, htime₁, hi.log, hi.time]
      rfl
    have hentry : ∀ n ∈ [x, y, z], ∀ a e, (s₃.schedule.timeout n).aep = a →
        armed a [.set 7 3 0 5 1 0, .set 7 3 1 5 2 0, .set 7 3 0 50 3 0] = some e → s₃.schedule.timeout n = e := by
      intro n hn a e ha he
      have harmed := h₃.armed_eq (n := n) (by simpa using hn) ha
      rw [hlog, he] at harmed
      exact (Option.some.inj harmed).symm
    exact ⟨s₃, free, [x, y, z], x, y, z, h₃.schedule.toLive, rfl, hentry x (by simp) 1 _ hx₃ rfl, hentry y (by simp) 2 _ hy₃ rfl,
      hentry z (by simp) 3 _ hz rfl⟩

/-- A service at clock value 10 with these three: the scan signals the first two, releases the first, and leaves the third. -/
theorem scan_effect_threeAccepted : ∃ (s : Sysclock) (free live : List Ptr) (x y z : Ptr), live = [x, y, z] ∧
    LiveSchedule s.schedule free live ∧ s.time = 10 ∧
    ∃ s', s.scan = .ok s' ∧ s'.log = s.log ++ [.scan 10 [1, 2]] ∧ LiveSchedule s'.schedule (free ++ [x]) [y, z] ∧
      (s'.schedule.timeout x).aep = capNull ∧ (s'.schedule.timeout y).nextEvent = 15 ∧
      s'.schedule.timeout z = s.schedule.timeout z := by
  obtain ⟨s, free, live, x, y, z, h, rfl, hx, hy, hz⟩ := exists_threeAccepted
  obtain ⟨s', hs', hlog, hlive, hperiodic, hnotDue, hcleared, -⟩ := scan_effect { s with time := 10 } free [x, y, z] h
  refine ⟨{ s with time := 10 }, free, [x, y, z], x, y, z, rfl, h, rfl, s', hs', ?_, ?_, ?_, ?_, ?_⟩
  · simpa [hx, hy, hz] using hlog
  · simpa [hx, hy, hz] using hlive
  · rw [hcleared x (by simp) (by simp [hx]) (by simp [hx])]
  · rw [hperiodic y (by simp) (by simp [hy]) (by simp [hy])]
    simp [hy]
  · exact hnotDue z (by simp) (by simp [hz])

/-! ## The cancel -/

/-- At most one live entry has a given slot. -/
theorem Schedule.length_filter_le_one {p : Pool ScheduleMem} {free live : List Ptr} (h : Schedule p free live) (id : Word) :
    (live.filter fun n => decide ((p.timeout n).aep = id)).length ≤ 1 := by
  have hnd := h.aeps.sublist (List.filter_sublist.map _ : List.Sublist ((live.filter fun n =>
    decide ((p.timeout n).aep = id)).map fun n => (p.timeout n).aep) _)
  have heq : ((live.filter fun n => decide ((p.timeout n).aep = id)).map fun n => (p.timeout n).aep) =
      List.replicate (live.filter fun n => decide ((p.timeout n).aep = id)).length id := by
    refine List.eq_replicate_iff.mpr ⟨List.length_map .., ?_⟩
    intro a ha
    obtain ⟨n, hn, rfl⟩ := List.mem_map.mp ha
    exact of_decide_eq_true (List.mem_filter.mp hn).2
  rwa [heq, List.nodup_replicate] at hnd

/-- One cancel, in any reachable state and of any id: it ends and no assertion fails; the live entries but the one with that
id stay in the list, in their order and as they were; the one with that id, if there is one, is cleared and appended to the
free list; without one the schedule is as it was. That is so for the null id, and for the id of a timeout that has been
cancelled since its acceptance or, being a one-shot, has fired. -/
theorem cancel_effect (periodMs : Word) (s : Sysclock) (hr : (sysclockMachine periodMs).Reachable s) (free live : List Ptr)
    (hrep : s.schedule.Rep free live) (id : Word) :
    ∃ s', s.cancelTimeout id = .ok s' ∧
      s'.schedule.Rep (free ++ live.filter fun n => decide ((s.schedule.timeout n).aep = id))
        (live.filter fun n => decide ((s.schedule.timeout n).aep ≠ id)) ∧
      (live.filter fun n => decide ((s.schedule.timeout n).aep = id)).length ≤ 1 ∧
      (∀ n ∈ live, (s.schedule.timeout n).aep ≠ id → s'.schedule.timeout n = s.schedule.timeout n) ∧
      (∀ n ∈ live, (s.schedule.timeout n).aep = id →
        s'.schedule.timeout n = { s.schedule.timeout n with aep := capNull, caller := 0, period := 0, periodic := 0 }) ∧
      (∀ n ∈ free, s'.schedule.timeout n = s.schedule.timeout n) ∧
      ((∀ n ∈ live, (s.schedule.timeout n).aep ≠ id) → s'.schedule = s.schedule) ∧
      (id = capNull → ∀ n ∈ live, (s.schedule.timeout n).aep ≠ id) ∧
      ∀ caller cap periodic d t pre es, s.log = pre ++ .set caller cap periodic d id t :: es →
        cancelled id es = true ∨ periodic = 0 ∧ signalled id es = true → ∀ n ∈ live, (s.schedule.timeout n).aep ≠ id := by
  obtain ⟨⟨free₀, live₀, h⟩, -⟩ := sysclock_safe hr
  obtain ⟨rfl, rfl⟩ := h.schedule.rep.unique hrep
  obtain ⟨s', hs', h', hc, -⟩ := h.cancelTimeout_result id
  refine ⟨s', hs', h'.schedule.rep, ?_, hc.others, hc.cancelled, hc.free, hc.no_match, ?_, ?_⟩
  · exact h.schedule.length_filter_le_one id
  · rintro rfl
    exact h.schedule.aep_ne
  · intro caller cap periodic d t pre es hlog hoff n hn hid
    have hnd := h.ids
    rw [hlog, setIds_append, setIds_set, List.nodup_append, List.nodup_cons] at hnd
    have harmed := h.armed_eq hn hid
    rw [hlog, armed_after_set (hlog ▸ h.scans) hnd.2.1.1, if_pos] at harmed
    · cases harmed
    · rcases hoff with hc | ⟨hp, hs⟩
      · simp [hc]
      · simp [hp, hs]

/-- A cancel of the one-shot that the run of `exists_accepted` has accepted. -/
theorem cancel_effect_accepted : ∃ (s : Sysclock) (free live : List Ptr) (x : Ptr), (sysclockMachine 5).Reachable s ∧
    s.schedule.Rep free live ∧ x ∈ live ∧ (s.schedule.timeout x).aep = 1 ∧
    ∃ s', s.cancelTimeout 1 = .ok s' ∧ (s'.schedule.timeout x).aep = capNull := by
  obtain ⟨s, hr, -, -, -, -, -, -, free, live, x, h, hx, haep⟩ := exists_accepted 5
  obtain ⟨s', hs', -, -, -, hcleared, -⟩ := cancel_effect 5 s hr free live h.schedule.rep 1
  exact ⟨s, free, live, x, hr, h.schedule.rep, hx, haep, s', hs', by rw [hcleared x hx haep]⟩

/-! ## The reply to a cancel -/

/-- A live timeout of the schedule has this id. -/
def Sysclock.HasLive (s : Sysclock) (id : Word) : Prop :=
  ∃ free live, s.schedule.Rep free live ∧ ∃ n ∈ live, (s.schedule.timeout n).aep = id

/-- The service of a cancel and its reply: the request returns, and the error word replied, as well as what the client's call
returns, is zero exactly if a live timeout with that id was removed, and not zero exactly if the schedule is unchanged. -/
def CancelAgrees (s : Sysclock) (badge id : Word) : Prop :=
  ∃ s' error, s.serve badge (.cancelTimeout id) = .ok s' ∧ s'.log = s.log ++ [.cancel id error] ∧
    s.sysclockCancelTimeout badge id = .ok (some (intOfWord error), s') ∧
    (error = 0 ↔ s.HasLive id ∧ ¬ s'.HasLive id) ∧ (error ≠ 0 ↔ s'.schedule = s.schedule) ∧
    (intOfWord error = 0 ↔ s.HasLive id ∧ ¬ s'.HasLive id)

/-- The live timeouts of a state that satisfies the invariant. -/
theorem ClockInv.hasLive_iff {s : Sysclock} {free live : List Ptr} (h : ClockInv s free live) (id : Word) :
    s.HasLive id ↔ ∃ n ∈ live, (s.schedule.timeout n).aep = id := by
  constructor
  · rintro ⟨free', live', hrep, hn⟩
    obtain ⟨-, rfl⟩ := h.schedule.rep.unique hrep
    exact hn
  · exact fun hn => ⟨free, live, h.schedule.rep, hn⟩

/-- The service of a cancel in a state that satisfies the invariant: it replies 1, and the timeout is gone. -/
theorem ClockInv.serve_cancel {s : Sysclock} {free live : List Ptr} (h : ClockInv s free live) (badge id : Word) :
    ∃ s', s.serve badge (.cancelTimeout id) = .ok s' ∧ s'.log = s.log ++ [.cancel id 1] ∧
      s.sysclockCancelTimeout badge id = .ok (some 1, s') ∧ ¬ s'.HasLive id ∧
      CancelResult id s.schedule s'.schedule free live := by
  obtain ⟨s', hs', h', hc, hlog⟩ := h.cancelTimeout_result id
  have hserve : s.serve badge (.cancelTimeout id) = .ok s' := hs'
  refine ⟨s', hserve, hlog, ?_, ?_, hc⟩
  · rw [Sysclock.sysclockCancelTimeout, hserve, ok_bind, hlog, List.getLast?_concat]
    rfl
  · rw [h'.hasLive_iff]
    rintro ⟨n, hn, hid⟩
    obtain ⟨hn, hne⟩ := List.mem_filter.mp hn
    have hne := of_decide_eq_true hne
    exact hne ((hc.others n hn hne) ▸ hid)

/-- A cancel that removes a timeout replies an error all the same. -/
theorem ClockInv.not_cancelAgrees {s : Sysclock} {free live : List Ptr} (h : ClockInv s free live) (badge : Word) {id : Word}
    (hlive : s.HasLive id) : ¬ CancelAgrees s badge id := by
  rintro ⟨s₁, error, hs₁, hlog₁, -, herror, -⟩
  obtain ⟨s', hs', hlog, -, hgone, -⟩ := h.serve_cancel badge id
  obtain rfl : s₁ = s' := Except.ok.inj (hs₁.symm.trans hs')
  rw [hlog] at hlog₁
  obtain rfl : 1 = error := by simpa using hlog₁
  exact absurd (herror.mpr ⟨hlive, hgone⟩) (by decide)

/-- In every reachable state, the reply to a cancel agrees with its effect exactly if no live timeout has the id: the reply is an
error in any case. -/
theorem cancel_reply_iff (periodMs : Word) (s : Sysclock) (hr : (sysclockMachine periodMs).Reachable s) (badge id : Word) :
    CancelAgrees s badge id ↔ ¬ s.HasLive id := by
  obtain ⟨⟨free, live, h⟩, -⟩ := sysclock_safe hr
  refine ⟨fun ha hlive => h.not_cancelAgrees badge hlive ha, fun hnone => ?_⟩
  obtain ⟨s', hs', hlog, hcall, -, hc⟩ := h.serve_cancel badge id
  have hsame : s'.schedule = s.schedule :=
    hc.no_match fun n hn hid => hnone ((h.hasLive_iff id).mpr ⟨n, hn, hid⟩)
  refine ⟨s', 1, hs', hlog, hcall, ?_, ?_, ?_⟩
  · exact ⟨fun h01 => absurd h01 (by decide), fun hl => absurd hl.1 hnone⟩
  · exact ⟨fun _ => hsame, fun _ => by decide⟩
  · exact ⟨fun h01 => absurd h01 (by decide), fun hl => absurd hl.1 hnone⟩

/-- The reply to a cancel of an id nobody has, while the one-shot that the run of `exists_accepted` has accepted is live. -/
theorem cancel_reply_iff_otherId : ∃ s : Sysclock, (sysclockMachine 5).Reachable s ∧ s.HasLive 1 ∧ CancelAgrees s 7 2 := by
  obtain ⟨s, hr, -, hlog, -, -, -, -, free, live, x, h, hx, haep⟩ := exists_accepted 5
  refine ⟨s, hr, (h.hasLive_iff 1).mpr ⟨x, hx, haep⟩, (cancel_reply_iff 5 s hr 7 2).mpr ?_⟩
  rw [h.hasLive_iff]
  rintro ⟨n, hn, hid⟩
  have hgiven := h.live_id hn
  rw [hlog, hid] at hgiven
  exact absurd hgiven (by decide)

/-- The reply does not agree with the effect when the one-shot that the run of `exists_accepted` has accepted is cancelled. -/
theorem cancel_reply_disagrees :
    ¬ ∀ (periodMs : Word) (s : Sysclock), (sysclockMachine periodMs).Reachable s → ∀ badge id, CancelAgrees s badge id := by
  intro hall
  obtain ⟨s, hr, -, -, -, -, -, -, free, live, x, h, hx, haep⟩ := exists_accepted 5
  exact h.not_cancelAgrees 7 ((h.hasLive_iff 1).mpr ⟨x, hx, haep⟩) (hall 5 s hr 7 1)

end Sel4Osapi
