import Sel4Osapi.Lemmas.Schedule

/-!
# The invariant of the clock service

`armed a log` is the abstract model of one timeout: the entry that the events of a log leave to the timeout with id `a`,
with no regard to any other timeout. `ClockInv` says that the live entries of the schedule are the armed timeouts, one for
one, and that every scan of the log signalled exactly the timeouts that were armed and due. Each operation of the two
threads returns, and keeps the invariant.
-/

namespace Sel4Osapi

open Transition

/-! ## One timeout, by itself -/

/-- The id a SET_TIMEOUT was given. -/
def ClockEvent.setId? : ClockEvent → Option CPtr
  | .set _ _ _ _ id _ => some id
  | _ => none

/-- The ids given so far. -/
def setIds (log : List ClockEvent) : List CPtr := log.filterMap ClockEvent.setId?

/-- What an event does to the timeout with id `a`. -/
def armStep (a : CPtr) (st : Option TimeoutEntry) : ClockEvent → Option TimeoutEntry
  | .set caller _ periodic timeoutMs id time =>
    if id = a then
      some { caller := caller, aep := id, periodic := periodic, period := timeoutMs, nextEvent := time + timeoutMs }
    else st
  | .cancel id _ => if id = a then none else st
  | .scan time _ => st.bind fun e => if e.expires time then none else some (e.scanned time)
  | .refused _ => st
  | .getTime _ => st

/-- The timeout with id `a` after the events of a log: the entry it has while it is armed. -/
def armed (a : CPtr) (log : List ClockEvent) : Option TimeoutEntry := log.foldl (armStep a) none

/-- The timeout with id `a` is armed and due at this clock value. -/
def dueAt (a : CPtr) (log : List ClockEvent) (time : Word) : Bool := (armed a log).any fun e => e.isDue time

/-- Every scan of the log signalled each timeout that was armed and due once, and no other. -/
def ScansOk (log : List ClockEvent) : Prop :=
  ∀ pre c sig post, log = pre ++ .scan c sig :: post → ∀ a, sig.count a = if dueAt a pre c then 1 else 0

theorem armed_append (a : CPtr) (log es : List ClockEvent) : armed a (log ++ es) = es.foldl (armStep a) (armed a log) := by
  simp only [armed, List.foldl_append]

@[simp] theorem armed_concat (a : CPtr) (log : List ClockEvent) (ev : ClockEvent) :
    armed a (log ++ [ev]) = armStep a (armed a log) ev := by
  rw [armed_append, List.foldl_cons, List.foldl_nil]

@[simp] theorem setIds_append (log es : List ClockEvent) : setIds (log ++ es) = setIds log ++ setIds es :=
  List.filterMap_append

@[simp] theorem setIds_set (caller : Word) (cap : Cap) (periodic d : Word) (a : CPtr) (t : Word) (es : List ClockEvent) :
    setIds (.set caller cap periodic d a t :: es) = a :: setIds es := rfl

/-- The log grows by one event; a scan has to signal what is due. -/
theorem ScansOk.concat {log : List ClockEvent} {ev : ClockEvent} (h : ScansOk log)
    (hev : ∀ c sig, ev = .scan c sig → ∀ a, sig.count a = if dueAt a log c then 1 else 0) : ScansOk (log ++ [ev]) := by
  intro pre c sig post hlog a
  rcases List.eq_nil_or_concat post with rfl | ⟨post, ev', rfl⟩
  · obtain ⟨rfl, hev'⟩ := List.append_inj' hlog rfl
    exact hev c sig (List.cons.inj hev').1 a
  · rw [List.concat_eq_append, ← List.cons_append, ← List.append_assoc] at hlog
    exact h pre c sig post (List.append_inj' hlog rfl).1 a

/-- A timeout whose id has not been given out is not armed. -/
theorem armed_eq_none {a : CPtr} {log : List ClockEvent} (h : a ∉ setIds log) : armed a log = none := by
  induction log using List.reverseRecOn with
  | nil => rfl
  | append_singleton log ev ih =>
    rw [setIds_append, List.mem_append, not_or] at h
    rw [armed_concat, ih h.1]
    cases ev with
    | set caller cap periodic d id t =>
      have hid : id ≠ a := fun e => h.2 (by simp [setIds, ClockEvent.setId?, e])
      simp only [armStep, if_neg hid]
    | cancel id error => simp only [armStep, ite_self]
    | scan c sig => rfl
    | refused caller => rfl
    | getTime t => rfl

/-- An armed timeout was set, by the caller and with the arguments its entry has. -/
theorem set_of_armed {a : CPtr} {log : List ClockEvent} {e : TimeoutEntry} (h : armed a log = some e) :
    ∃ cap t, ClockEvent.set e.caller cap e.periodic e.period a t ∈ log := by
  induction log using List.reverseRecOn generalizing e with
  | nil => exact absurd h (by simp [armed])
  | append_singleton log ev ih =>
    -- the events other than the one that sets it change only the next event
    have keep : ∀ e₀, armed a log = some e₀ → e₀.caller = e.caller → e₀.periodic = e.periodic → e₀.period = e.period →
        ∃ cap t, ClockEvent.set e.caller cap e.periodic e.period a t ∈ log ++ [ev] := by
      intro e₀ he₀ hc hp hd
      obtain ⟨cap, t, hmem⟩ := ih he₀
      rw [hc, hp, hd] at hmem
      exact ⟨cap, t, List.mem_append_left _ hmem⟩
    rw [armed_concat] at h
    cases ev with
    | set caller cap periodic d id t =>
      rw [armStep] at h
      split at h
      case isTrue hid =>
        cases h
        exact ⟨cap, t, by simp [hid]⟩
      case isFalse => exact keep e h rfl rfl rfl
    | cancel id error =>
      rw [armStep] at h
      split at h
      · cases h
      · exact keep e h rfl rfl rfl
    | scan c sig =>
      obtain ⟨e₀, he₀, he⟩ := Option.bind_eq_some_iff.mp h
      split at he
      · cases he
      · cases he
        have hfields : (e₀.scanned c).caller = e₀.caller ∧ (e₀.scanned c).periodic = e₀.periodic ∧
            (e₀.scanned c).period = e₀.period := by
          unfold TimeoutEntry.scanned
          split
          · contradiction
          · split <;> exact ⟨rfl, rfl, rfl⟩
        exact keep e₀ he₀ hfields.1.symm hfields.2.1.symm hfields.2.2.symm
    | refused caller => exact keep e h rfl rfl rfl
    | getTime t => exact keep e h rfl rfl rfl

/-! ## The invariant -/

/-- The clock service is consistent, with these free and live entries in its schedule. -/
structure ClockInv (s : Sysclock) (free live : List Ptr) : Prop where
  schedule : Schedule s.schedule free live
  /-- the live entries are the armed timeouts -/
  armed_of_live : ∀ n ∈ live, armed (s.schedule.timeout n).aep s.log = some (s.schedule.timeout n)
  live_of_armed : ∀ a e, armed a s.log = some e → ∃ n ∈ live, (s.schedule.timeout n).aep = a
  scans : ScansOk s.log
  /-- no id is given out twice -/
  ids : (setIds s.log).Nodup
  ids_allocated : ∀ a ∈ setIds s.log, a ∈ s.allocated
  allocated_ne : ∀ a ∈ s.allocated, a ≠ capNull
  /-- the slot of a timeout holds the capability of the request that set it -/
  caps : ∀ caller cap periodic d a t, ClockEvent.set caller cap periodic d a t ∈ s.log → s.cspace a = some cap
  /-- a server that waits for a request has an empty receive slot which is nobody's id -/
  receive : s.serverPc = .waiting → s.callerEp ∈ s.allocated ∧ s.cspace s.callerEp = none ∧ s.callerEp ∉ setIds s.log
  /-- the receive slot is an id only between a SET_TIMEOUT and the allocation of the next slot, and then it is the last one -/
  window : s.callerEp ∈ setIds s.log → s.serverPc = .allocSlot ∧ (setIds s.log).getLast? = some s.callerEp

namespace ClockInv

variable {s s' : Sysclock} {free live : List Ptr}

/-- The id of a live entry was given out. -/
theorem live_id (h : ClockInv s free live) {n : Ptr} (hn : n ∈ live) : (s.schedule.timeout n).aep ∈ setIds s.log := by
  by_contra hc
  have := h.armed_of_live n hn
  rw [armed_eq_none hc] at this
  exact absurd this (by simp)

/-- A live entry with this id is what the log leaves to it. -/
theorem armed_eq (h : ClockInv s free live) {n : Ptr} (hn : n ∈ live) {a : CPtr}
    (ha : (s.schedule.timeout n).aep = a) : armed a s.log = some (s.schedule.timeout n) :=
  ha ▸ h.armed_of_live n hn

/-- A live entry comes from a SET_TIMEOUT of its caller, whose capability is in its slot. -/
theorem owner (h : ClockInv s free live) {n : Ptr} (hn : n ∈ live) :
    ∃ cap t, ClockEvent.set (s.schedule.timeout n).caller cap (s.schedule.timeout n).periodic (s.schedule.timeout n).period
      (s.schedule.timeout n).aep t ∈ s.log ∧ s.cspace (s.schedule.timeout n).aep = some cap := by
  obtain ⟨cap, t, hmem⟩ := set_of_armed (h.armed_of_live n hn)
  exact ⟨cap, t, hmem, h.caps _ _ _ _ _ _ hmem⟩

end ClockInv

/-- The service after its start. -/
theorem Sysclock.Init.inv {s : Sysclock} (h : s.Init) :
    ∃ free, ClockInv s free [] ∧ (free.length : Int) + ([] : List Ptr).length = sysclockMaxEntries := by
  obtain ⟨malloc, nodes, mem, elSize, hm, hnew⟩ := h.schedule
  refine ⟨_, ⟨Schedule.new hm hnew, by simp, ?_, ?_, ?_, ?_, ?_, ?_, ?_, by simp [h.log, setIds]⟩, ?_⟩
  · simp [h.log, armed]
  · intro pre c sig post hlog
    simp [h.log] at hlog
  · simp [h.log, setIds]
  · simp [h.log, setIds]
  · simp [h.allocated]
  · simp [h.log]
  · simp [h.serverPc]
  · simp [poolNodes, sysclockMaxEntries]

namespace ClockInv

variable {s s' : Sysclock} {free live : List Ptr}

/-- The server takes a new receive slot. -/
theorem allocSlot (h : ClockInv s free live) {slot : CPtr} (hne : slot ≠ capNull) (hnew : slot ∉ s.allocated)
    (hempty : s.cspace slot = none) :
    ClockInv { s with callerEp := slot, allocated := slot :: s.allocated, serverPc := .waiting } free live where
  schedule := h.schedule
  armed_of_live := h.armed_of_live
  live_of_armed := h.live_of_armed
  scans := h.scans
  ids := h.ids
  ids_allocated a ha := List.mem_cons_of_mem _ (h.ids_allocated a ha)
  allocated_ne a ha := by
    rcases List.mem_cons.mp ha with rfl | ha
    · exact hne
    · exact h.allocated_ne a ha
  caps := h.caps
  receive _ := ⟨List.mem_cons_self, hempty, fun hid => hnew (h.ids_allocated slot hid)⟩
  window hid := absurd (h.ids_allocated slot hid) hnew

/-- An event that sets, cancels and scans nothing. -/
theorem quiet (h : ClockInv s free live) {ev : ClockEvent} (hev : (∃ caller, ev = .refused caller) ∨ ∃ t, ev = .getTime t) :
    (∀ a, armed a (s.log ++ [ev]) = armed a s.log) ∧ ScansOk (s.log ++ [ev]) ∧ setIds (s.log ++ [ev]) = setIds s.log ∧
      ∀ caller cap periodic d a t, ClockEvent.set caller cap periodic d a t ∈ s.log ++ [ev] →
        ClockEvent.set caller cap periodic d a t ∈ s.log := by
  obtain ⟨caller, rfl⟩ | ⟨t, rfl⟩ := hev
  all_goals
    refine ⟨fun a => armed_concat a _ _, h.scans.concat (fun c sig e => ClockEvent.noConfusion e), ?_, ?_⟩
    · simp [setIds, ClockEvent.setId?]
    · simp

/-- A capability received in a slot that is nobody's id leaves those of the timeouts where they are. -/
theorem caps_update (h : ClockInv s free live) {slot : CPtr} (hnew : slot ∉ setIds s.log) (c : Cap) {caller : Word} {cap : Cap}
    {periodic d : Word} {a : CPtr} {t : Word} (hmem : ClockEvent.set caller cap periodic d a t ∈ s.log) :
    Function.update s.cspace slot (some c) a = some cap := by
  have hne : a ≠ slot := by
    rintro rfl
    exact hnew (List.mem_filterMap.mpr ⟨_, hmem, rfl⟩)
  rw [Function.update_of_ne hne]
  exact h.caps caller cap periodic d a t hmem

/-- A SET_TIMEOUT with no entry free is refused, and its capability stays in a slot nobody uses. -/
theorem setTimeout_refused (h : ClockInv s [] live) (hpc : s.serverPc = .waiting) (badge periodic timeoutMs : Word) (c : Cap) :
    ∃ s', s.serve badge (.setTimeout periodic timeoutMs c) = .ok s' ∧ ClockInv s' [] live := by
  obtain ⟨_, hempty, hnew⟩ := h.receive hpc
  obtain ⟨harmed, hscans, hids, hsets⟩ := h.quiet (Or.inl ⟨badge, rfl⟩)
  refine ⟨{ s with
    cspace := Function.update s.cspace s.callerEp (some c), serverPc := .allocSlot, log := s.log ++ [.refused badge] }, ?_, ?_⟩
  · simp only [Sysclock.serve, Sysclock.receiveCap, hempty, Sysclock.setTimeout, simplePoolAlloc_empty h.schedule.rep, ok_bind,
      check_of_true]
    rfl
  · refine ⟨h.schedule, ?_, ?_, hscans, ?_, ?_, h.allocated_ne, ?_, by simp, ?_⟩
    · intro n hn
      rw [harmed]
      exact h.armed_of_live n hn
    · intro a e he
      rw [harmed] at he
      exact h.live_of_armed a e he
    · rw [hids]
      exact h.ids
    · rw [hids]
      exact h.ids_allocated
    · intro caller cap periodic d a t hmem
      exact h.caps_update hnew c (hsets caller cap periodic d a t hmem)
    · rw [hids]
      exact fun hid => absurd hid hnew

/-- A SET_TIMEOUT with an entry free takes the first one, and its id is the receive slot. -/
theorem setTimeout_accepted {x : Ptr} (h : ClockInv s (x :: free) live) (hpc : s.serverPc = .waiting)
    (badge periodic timeoutMs : Word) (c : Cap) :
    ∃ s', s.serve badge (.setTimeout periodic timeoutMs c) = .ok s' ∧ ClockInv s' free (live ++ [x]) ∧
      s'.callerEp = s.callerEp ∧ s'.time = s.time ∧ s'.timerPc = s.timerPc ∧ (s'.schedule.timeout x).aep = s.callerEp ∧
      s'.cspace = Function.update s.cspace s.callerEp (some c) ∧ s'.allocated = s.allocated ∧
      s'.log = s.log ++ [.set badge c periodic timeoutMs s.callerEp s.time] ∧
      ∀ n ∈ live, s'.schedule.timeout n = s.schedule.timeout n := by
  obtain ⟨halloc, hempty, hnew⟩ := h.receive hpc
  have hlive : ∀ n ∈ live, (s.schedule.timeout n).aep ≠ s.callerEp := fun n hn e => hnew (e ▸ h.live_id hn)
  obtain ⟨p', q, hp', haep, hq, hsched, hself, hsame⟩ := h.schedule.insert
    { caller := badge, aep := s.callerEp, periodic := periodic, period := timeoutMs, nextEvent := s.time + timeoutMs }
    (h.allocated_ne _ halloc) hlive
  have hsame : ∀ n ∈ live, q.timeout n = s.schedule.timeout n := fun n hn => hsame n (List.mem_append_right _ hn)
  refine ⟨{ s with
    cspace := Function.update s.cspace s.callerEp (some c), schedule := q, serverPc := .allocSlot,
    log := s.log ++ [.set badge c periodic timeoutMs s.callerEp s.time] }, ?_, ?_, rfl, rfl, rfl, by simp [hself], rfl, rfl, rfl,
    hsame⟩
  · simp only [Sysclock.serve, Sysclock.receiveCap, hempty, Sysclock.setTimeout, hp', ok_bind, check_of_true, haep, hq]
    rfl
  · refine ⟨hsched, ?_, ?_, ?_, ?_, ?_, h.allocated_ne, ?_, by simp, fun _ => ⟨rfl, by simp [setIds, ClockEvent.setId?]⟩⟩
    · intro n hn
      rcases List.mem_append.mp hn with hn | hn
      · rw [hsame n hn, armed_concat, armStep, if_neg (hlive n hn).symm]
        exact h.armed_of_live n hn
      · rw [List.mem_singleton.mp hn, hself, armed_concat, armStep, if_pos rfl]
    · intro a e he
      rw [armed_concat, armStep] at he
      split at he
      case isTrue ha => exact ⟨x, by simp, by rw [hself]; exact ha⟩
      case isFalse ha =>
        obtain ⟨n, hn, hna⟩ := h.live_of_armed a e he
        exact ⟨n, List.mem_append_left _ hn, by rw [hsame n hn]; exact hna⟩
    · exact h.scans.concat fun c sig e => ClockEvent.noConfusion e
    · rw [setIds_append, setIds_set]
      exact List.nodup_append.mpr ⟨h.ids, by simp [setIds], by
        intro a ha b hb
        rw [show b = s.callerEp by simpa [setIds] using hb]
        rintro rfl
        exact hnew ha⟩
    · intro a ha
      rw [setIds_append, setIds_set, List.mem_append] at ha
      rcases ha with ha | ha
      · exact h.ids_allocated a ha
      · rw [show a = s.callerEp by simpa [setIds] using ha]
        exact halloc
    · intro caller cap periodic' d a t hmem
      rcases List.mem_append.mp hmem with hmem | hmem
      · exact h.caps_update hnew c hmem
      · cases List.mem_singleton.mp hmem
        simp

/-- A GET_TIME changes nothing. -/
theorem getTime (h : ClockInv s free live) : ClockInv { s with log := s.log ++ [.getTime s.time] } free live := by
  obtain ⟨harmed, hscans, hids, hsets⟩ := h.quiet (Or.inr ⟨s.time, rfl⟩)
  refine ⟨h.schedule, ?_, ?_, hscans, ?_, ?_, h.allocated_ne, ?_, ?_, ?_⟩
  · intro n hn
    rw [harmed]
    exact h.armed_of_live n hn
  · intro a e he
    rw [harmed] at he
    exact h.live_of_armed a e he
  · rw [hids]
    exact h.ids
  · rw [hids]
    exact h.ids_allocated
  · intro caller cap periodic d a t hmem
    exact h.caps caller cap periodic d a t (hsets caller cap periodic d a t hmem)
  · rw [hids]
    exact h.receive
  · rw [hids]
    exact h.window

/-- The service after a cancel that has left the live entries with other slots as they were. -/
theorem afterCancel (h : ClockInv s free live) {p' : Pool ScheduleMem} {free' live' : List Ptr} {id error : Word} {rv : List CPtr}
    (hs : Schedule p' free' live') (hlive : ∀ n, n ∈ live' ↔ n ∈ live ∧ (s.schedule.timeout n).aep ≠ id)
    (hsame : ∀ n ∈ live', p'.timeout n = s.schedule.timeout n) :
    ClockInv { s with schedule := p', revoked := rv, log := s.log ++ [.cancel id error] } free' live' := by
  have hids : setIds (s.log ++ [.cancel id error]) = setIds s.log := by simp [setIds, ClockEvent.setId?]
  refine ⟨hs, ?_, ?_, h.scans.concat fun c sig e => ClockEvent.noConfusion e, ?_, ?_, h.allocated_ne, ?_, ?_, ?_⟩
  · intro n hn
    obtain ⟨hn', hne⟩ := (hlive n).mp hn
    rw [hsame n hn, armed_concat, armStep, if_neg hne.symm]
    exact h.armed_of_live n hn'
  · intro a e he
    rw [armed_concat, armStep] at he
    split at he
    case isTrue => exact absurd he (by simp)
    case isFalse hne =>
      obtain ⟨n, hn, hna⟩ := h.live_of_armed a e he
      have hn' : n ∈ live' := (hlive n).mpr ⟨hn, fun hid => hne (hid.symm.trans hna)⟩
      exact ⟨n, hn', by rw [hsame n hn']; exact hna⟩
  · rw [hids]
    exact h.ids
  · rw [hids]
    exact h.ids_allocated
  · intro caller cap periodic d a t hmem
    exact h.caps caller cap periodic d a t (by simpa using hmem)
  · rw [hids]
    exact h.receive
  · rw [hids]
    exact h.window

/-- A CANCEL_TIMEOUT releases the entry with that id, if there is one, and no other, and replies 1. -/
theorem cancelTimeout_result (h : ClockInv s free live) (id : Word) :
    ∃ s', s.cancelTimeout id = .ok s' ∧
      ClockInv s' (free ++ live.filter fun n => decide ((s.schedule.timeout n).aep = id))
        (live.filter fun n => decide ((s.schedule.timeout n).aep ≠ id)) ∧
      CancelResult id s.schedule s'.schedule free live ∧ s'.log = s.log ++ [.cancel id 1] := by
  obtain ⟨p', hp', hc⟩ := h.schedule.cancelLoop_spec id s.revoked s.fuel le_rfl
  refine ⟨_, by simp only [Sysclock.cancelTimeout, hp', ok_bind]; rfl, ?_, hc, rfl⟩
  refine h.afterCancel hc.schedule (by simp) ?_
  intro n hn
  obtain ⟨hn, hid⟩ := List.mem_filter.mp hn
  exact hc.others n hn (of_decide_eq_true hid)

/-- A CANCEL_TIMEOUT keeps the invariant. -/
theorem cancelTimeout (h : ClockInv s free live) (id : Word) :
    ∃ s', s.cancelTimeout id = .ok s' ∧
      ClockInv s' (free ++ live.filter fun n => decide ((s.schedule.timeout n).aep = id))
        (live.filter fun n => decide ((s.schedule.timeout n).aep ≠ id)) := by
  obtain ⟨s', hs', h', -⟩ := h.cancelTimeout_result id
  exact ⟨s', hs', h'⟩

/-- The ids a scan signals: those that are armed and due, each once. -/
theorem count_dueAeps (h : ClockInv s free live) (time : Word) (a : CPtr) :
    (dueAeps s.schedule.timeout time live).count a = if dueAt a s.log time then 1 else 0 := by
  have hnd : (dueAeps s.schedule.timeout time live).Nodup := h.schedule.aeps.sublist (List.filter_sublist.map _)
  have hmem : a ∈ dueAeps s.schedule.timeout time live ↔ dueAt a s.log time = true := by
    simp only [dueAeps, List.mem_map, List.mem_filter, dueAt, Option.any_eq_true]
    constructor
    · rintro ⟨n, ⟨hn, hdue⟩, hna⟩
      exact ⟨_, h.armed_eq hn hna, hdue⟩
    · rintro ⟨e, he, hdue⟩
      obtain ⟨n, hn, hna⟩ := h.live_of_armed a e he
      have hen : e = s.schedule.timeout n := Option.some.inj (he.symm.trans (h.armed_eq hn hna))
      exact ⟨n, ⟨hn, hen ▸ hdue⟩, hna⟩
  rw [hnd.count]
  simp only [hmem]

/-- A scan releases the entries that expire, and no other. -/
theorem scan (h : ClockInv s free live) :
    ∃ s', s.scan = .ok s' ∧
      ClockInv s' (free ++ expired s.schedule.timeout s.time live) (unexpired s.schedule.timeout s.time live) ∧
      ∃ sig, s'.log = s.log ++ [.scan s.time sig] := by
  obtain ⟨p', hp', hr⟩ := LiveSchedule.scanLoop_spec s.time live [] free s.schedule s.fuel [] s.revoked h.schedule.toLive
    (by have := h.schedule.rep.length_le_fuel; simp only [Sysclock.fuel]; omega)
  rw [List.head?_eq_getElem?, ← h.schedule.rep.liveList.head] at hp'
  refine ⟨_, by simp only [Sysclock.scan, hp', ok_bind]; rfl, ?_, _, rfl⟩
  have hids : ∀ sig, setIds (s.log ++ [.scan s.time sig]) = setIds s.log := by simp [setIds, ClockEvent.setId?]
  have hkept : ∀ n ∈ unexpired s.schedule.timeout s.time live, n ∈ live ∧ (s.schedule.timeout n).expires s.time = false := by
    intro n hn
    simpa [unexpired] using hn
  have haep : ∀ n ∈ unexpired s.schedule.timeout s.time live, (p'.timeout n).aep = (s.schedule.timeout n).aep := by
    intro n hn
    obtain ⟨hn, hexp⟩ := hkept n hn
    rw [hr.scanned n hn, TimeoutEntry.scanned, hexp, if_neg Bool.false_ne_true]
    split <;> rfl
  refine ⟨by simpa using hr.full h.schedule.aep_free, ?_, ?_, ?_, ?_, ?_, h.allocated_ne, ?_, ?_, ?_⟩
  · intro n hn
    obtain ⟨hnl, hexp⟩ := hkept n hn
    rw [haep n hn, armed_concat, armStep, h.armed_of_live n hnl, Option.bind_some, hexp, hr.scanned n hnl]
    rfl
  · intro a e he
    rw [armed_concat, armStep, Option.bind_eq_some_iff] at he
    obtain ⟨e₀, he₀, he⟩ := he
    obtain ⟨n, hn, hna⟩ := h.live_of_armed a e₀ he₀
    have hen : e₀ = s.schedule.timeout n := Option.some.inj (he₀.symm.trans (h.armed_eq hn hna))
    have hnu : n ∈ unexpired s.schedule.timeout s.time live := by
      rw [hen] at he
      simp only [unexpired, List.mem_filter, hn, true_and, Bool.not_eq_true']
      by_contra hc
      simp [hc] at he
    exact ⟨n, hnu, by rw [haep n hnu]; exact hna⟩
  · refine h.scans.concat ?_
    intro c sig e a
    cases e
    exact h.count_dueAeps s.time a
  · rw [hids]
    exact h.ids
  · rw [hids]
    exact h.ids_allocated
  · intro caller cap periodic d a t hmem
    exact h.caps caller cap periodic d a t (by simpa using hmem)
  · rw [hids]
    exact h.receive
  · rw [hids]
    exact h.window

/-- The timer advances the clock. -/
theorem tick (h : ClockInv s free live) (time : Word) : ClockInv { s with time := time, timerPc := .scanning } free live :=
  ⟨h.schedule, h.armed_of_live, h.live_of_armed, h.scans, h.ids, h.ids_allocated, h.allocated_ne, h.caps, h.receive, h.window⟩

/-- A request is served, whatever it is. -/
theorem serve (h : ClockInv s free live) (hpc : s.serverPc = .waiting) (badge : Word) (r : ClockRequest) :
    ∃ s', s.serve badge r = .ok s' ∧
      ∃ free' live', ClockInv s' free' live' ∧ free'.length + live'.length = free.length + live.length := by
  cases r with
  | setTimeout periodic timeoutMs c =>
    cases free with
    | nil =>
      obtain ⟨s', hs', h'⟩ := h.setTimeout_refused hpc badge periodic timeoutMs c
      exact ⟨s', hs', _, _, h', rfl⟩
    | cons x free =>
      obtain ⟨s', hs', h', _⟩ := h.setTimeout_accepted hpc badge periodic timeoutMs c
      refine ⟨s', hs', _, _, h', ?_⟩
      rw [List.length_append, List.length_singleton, List.length_cons]
      omega
  | cancelTimeout id =>
    obtain ⟨s', hs', h'⟩ := h.cancelTimeout id
    refine ⟨s', hs', _, _, h', ?_⟩
    simp only [List.length_append, ne_eq, decide_not]
    have hsplit := List.length_eq_length_filter_add (l := live) fun n => decide ((s.schedule.timeout n).aep = id)
    omega
  | getTime => exact ⟨_, rfl, _, _, h.getTime, rfl⟩

/-- An action is blocked, or goes on to a consistent state with as many entries: it does not fault. -/
theorem step (h : ClockInv s free live) (periodMs : Word) (a : ClockAction) :
    s.step periodMs a = .blocked ∨ ∃ s', s.step periodMs a = .next s' ∧
      ∃ free' live', ClockInv s' free' live' ∧ free'.length + live'.length = free.length + live.length := by
  by_cases hb : s.step periodMs a = .blocked
  · exact Or.inl hb
  refine Or.inr ?_
  cases a with
  | allocSlot slot =>
    by_cases hg : s.serverPc = .allocSlot ∧ slot ≠ capNull ∧ slot ∉ s.allocated ∧ s.cspace slot = none
    · exact ⟨_, if_pos hg, _, _, h.allocSlot hg.2.1 hg.2.2.1 hg.2.2.2, rfl⟩
    · exact absurd (if_neg hg) hb
  | request badge r =>
    by_cases hpc : s.serverPc = .waiting
    · obtain ⟨s', hs', h'⟩ := h.serve hpc badge r
      exact ⟨s', by simp [Sysclock.step, hpc, hs'], h'⟩
    · exact absurd (if_neg hpc) hb
  | tick =>
    by_cases hpc : s.timerPc = .waiting
    · exact ⟨_, if_pos hpc, _, _, h.tick _, rfl⟩
    · exact absurd (if_neg hpc) hb
  | scan =>
    by_cases hpc : s.timerPc = .scanning
    · obtain ⟨s', hs', h', -⟩ := h.scan
      refine ⟨s', by simp [Sysclock.step, hpc, hs'], _, _, h', ?_⟩
      rw [List.length_append, expired, unexpired]
      have hsplit := List.length_eq_length_filter_add (l := live) fun n => (s.schedule.timeout n).expires s.time
      omega
    · exact absurd (if_neg hpc) hb

end ClockInv

/-- The invariant holds in every reachable state, and no action faults there: no assertion of the two threads can fail, and
their loops end. -/
theorem sysclock_inv {periodMs : Word} {s : Sysclock} (hr : (sysclockMachine periodMs).Reachable s) :
    (∃ free live, ClockInv s free live ∧ (free.length : Int) + live.length = sysclockMaxEntries) ∧
      ∀ a f, (sysclockMachine periodMs).step s a ≠ .fault f := by
  refine hr.safe (P := fun s => ∃ free live, ClockInv s free live ∧ (free.length : Int) + live.length = sysclockMaxEntries)
    ?_ ?_
  · intro s hi
    obtain ⟨free, h, hlen⟩ := Sysclock.Init.inv hi
    exact ⟨free, [], h, hlen⟩
  · intro s a hinv
    obtain ⟨free, live, h, hlen⟩ := hinv
    rcases h.step periodMs a with hb | ⟨s', hs', free', live', h', hlen'⟩
    · exact Or.inl hb
    · exact Or.inr ⟨s', hs', free', live', h', by omega⟩

/-- The same, without the number of the entries. -/
theorem sysclock_safe {periodMs : Word} {s : Sysclock} (hr : (sysclockMachine periodMs).Reachable s) :
    (∃ free live, ClockInv s free live) ∧ ∀ a f, (sysclockMachine periodMs).step s a ≠ .fault f := by
  obtain ⟨⟨free, live, h, -⟩, hsafe⟩ := sysclock_inv hr
  exact ⟨⟨free, live, h⟩, hsafe⟩

end Sel4Osapi
