import Sel4Osapi.Clock

/-!
# The schedule of timeouts: what an allocation, a release, a cancel and a scan do to it

`LiveSchedule p free live` says that the pool behind the schedule is well formed and that its live entries have distinct slots
other than the null one. The pool finds the entry to release by comparing slots with those of the live entries, so this is what
a release of the entry in hand needs (`LiveSchedule.release`), and all that a scan needs (`LiveSchedule.scanLoop_spec`).
`Schedule` is the invariant of the service: the slot of every free entry is the null one besides. A cancel goes on from the node
it has released, and relies on it (`Schedule.cancelLoop_none`, `Schedule.cancelLoop_some`).
-/

namespace Sel4Osapi

open DoublyLinked

/-- The timeout entry a node of the schedule carries. -/
def Pool.timeout (p : Pool ScheduleMem) (n : Ptr) : TimeoutEntry := p.mem (p.nodes n).el

/-- What `timer_entry_init` leaves of an entry. -/
def TimeoutEntry.cleared (e : TimeoutEntry) : TimeoutEntry :=
  { e with aep := capNull, caller := 0, period := 0, periodic := 0 }

/-- The pool of the schedule is well formed, with these free and live entries, and the live ones have distinct slots other than
the null one. -/
structure LiveSchedule (p : Pool ScheduleMem) (free live : List Ptr) : Prop where
  rep : p.Rep free live
  initFn : p.initFn = some timerEntryInit
  compareFn : p.compareFn = some timerEntryCompare
  aeps : (live.map fun n => (p.timeout n).aep).Nodup
  aep_ne : ∀ n ∈ live, (p.timeout n).aep ≠ capNull

/-- The schedule is well formed, with these free and live entries. -/
structure Schedule (p : Pool ScheduleMem) (free live : List Ptr) : Prop where
  rep : p.Rep free live
  initFn : p.initFn = some timerEntryInit
  compareFn : p.compareFn = some timerEntryCompare
  aeps : (live.map fun n => (p.timeout n).aep).Nodup
  aep_ne : ∀ n ∈ live, (p.timeout n).aep ≠ capNull
  aep_free : ∀ n ∈ free, (p.timeout n).aep = capNull

theorem timerEntryCompare_eq_zero (mem : ScheduleMem) (a b : Ptr) :
    timerEntryCompare mem a b = 0 ↔ (mem a).aep = (mem b).aep := by
  unfold timerEntryCompare
  split
  · simp_all
  · split <;> simp_all

namespace LiveSchedule

variable {p p' : Pool ScheduleMem} {free live l t : List Ptr} {x : Ptr}

/-- Two live entries with the same slot are the same entry. -/
theorem eq_of_aep (h : LiveSchedule p free live) {m n : Ptr} (hm : m ∈ live) (hn : n ∈ live)
    (he : (p.timeout m).aep = (p.timeout n).aep) : m = n :=
  List.inj_on_of_nodup_map h.aeps hm hn he

/-- The pool's test on a node: the slots are compared. -/
theorem isMatch_iff (h : LiveSchedule p free live) (n x : Ptr) :
    p.isMatch (p.nodes n).el (p.nodes x).el = true ↔ (p.timeout n).aep = (p.timeout x).aep := by
  simp only [Pool.isMatch, h.compareFn, beq_iff_eq, timerEntryCompare_eq_zero]
  rfl

/-- The init function changes the entry of one node of the pool and no other. -/
theorem timeout_init (h : LiveSchedule p free live) (hf : p.Frame p') (hm : p'.mem = p.init (p.nodes x).el)
    (hx : x ∈ free ++ live) :
    p'.timeout x = (p.timeout x).cleared ∧ ∀ n ∈ free ++ live, n ≠ x → p'.timeout n = p.timeout n := by
  have hmem : p'.mem = timerEntryInit (p.nodes x).el p.mem := by
    rw [hm]
    simp only [Pool.init, h.initFn]
  constructor
  · simp only [Pool.timeout, hf.el, hmem, timerEntryInit, Function.update_self]
    rfl
  · intro n hn hne
    have hel : (p.nodes n).el ≠ (p.nodes x).el := fun e => hne (h.rep.el_inj hn hx e)
    simp only [Pool.timeout, hf.el, hmem, timerEntryInit]
    rw [Function.update_of_ne hel]

/-- The schedule after a change to its lists that keeps the slots of the live entries, all of them old ones. -/
theorem of_frame {free' live' : List Ptr} (h : LiveSchedule p free live) (hf : p.Frame p') (hr : p'.Rep free' live')
    (hsub : live'.Sublist live) (hlive : ∀ n ∈ live', (p'.timeout n).aep = (p.timeout n).aep) :
    LiveSchedule p' free' live' where
  rep := hr
  initFn := hf.initFn.trans h.initFn
  compareFn := hf.compareFn.trans h.compareFn
  aeps := by
    rw [List.map_congr_left hlive]
    exact h.aeps.sublist (hsub.map _)
  aep_ne n hn := by
    rw [hlive n hn]
    exact h.aep_ne n (hsub.subset hn)

/-- With the null slot in every free entry it is the invariant of the service. -/
theorem schedule (h : LiveSchedule p free live) (hfree : ∀ n ∈ free, (p.timeout n).aep = capNull) : Schedule p free live :=
  ⟨h.rep, h.initFn, h.compareFn, h.aeps, h.aep_ne, hfree⟩

/-- The next pointer of a live entry, the list being cut there. -/
theorem next_eq (h : LiveSchedule p free (l ++ x :: t)) : (p.nodes x).next = t.head? :=
  (h.rep.liveList.at_split rfl).2

/-- `simple_pool_free` on a live entry releases that very entry, and clears it. -/
theorem release (h : LiveSchedule p free (l ++ x :: t)) :
    ∃ p', simplePoolFree p (p.nodes x).el = .ok (0, p') ∧ LiveSchedule p' (free ++ [x]) (l ++ t) ∧ p.Frame p' ∧
      p'.timeout x = (p.timeout x).cleared ∧ ∀ n ∈ free ++ (l ++ t), p'.timeout n = p.timeout n := by
  have hxm : x ∈ l ++ x :: t := by simp
  have hxl : x ∉ l ++ t := by
    have := h.rep.liveList.nodup
    rw [List.nodup_middle, List.nodup_cons] at this
    exact this.1
  have hl : ∀ n ∈ l, p.isMatch (p.nodes n).el (p.nodes x).el = false := by
    intro n hn
    rw [Bool.eq_false_iff, ne_eq, h.isMatch_iff]
    intro e
    exact hxl (h.eq_of_aep (by simp [hn]) hxm e ▸ List.mem_append_left _ hn)
  obtain ⟨p', hp', hr, hf, hm⟩ := simplePoolFree_some h.rep _ ((h.isMatch_iff x x).mpr rfl) hl
  obtain ⟨hcl, hsame⟩ := h.timeout_init hf hm (List.mem_append_right _ hxm)
  have hothers : ∀ n ∈ free ++ (l ++ t), p'.timeout n = p.timeout n := by
    intro n hn
    refine hsame n ?_ ?_
    · rcases List.mem_append.mp hn with hn | hn
      · exact List.mem_append_left _ hn
      · refine List.mem_append_right _ ?_
        rcases List.mem_append.mp hn with hn | hn <;> simp [hn]
    · rintro rfl
      rcases List.mem_append.mp hn with hn | hn
      · exact h.rep.disjoint n hxm hn
      · exact hxl hn
  refine ⟨p', hp', h.of_frame hf hr (by simp) ?_, hf, hcl, hothers⟩
  intro n hn
  rw [hothers n (List.mem_append_right _ hn)]

end LiveSchedule

namespace Schedule

variable {p p' : Pool ScheduleMem} {free live l t : List Ptr} {x : Ptr}

/-- The invariant of the service without its clause about the free entries. -/
theorem toLive (h : Schedule p free live) : LiveSchedule p free live := ⟨h.rep, h.initFn, h.compareFn, h.aeps, h.aep_ne⟩

/-- A release keeps the invariant: the entry released has been cleared. -/
theorem release (h : Schedule p free (l ++ x :: t)) :
    ∃ p', simplePoolFree p (p.nodes x).el = .ok (0, p') ∧ Schedule p' (free ++ [x]) (l ++ t) ∧ p.Frame p' ∧
      p'.timeout x = (p.timeout x).cleared ∧ ∀ n ∈ free ++ (l ++ t), p'.timeout n = p.timeout n := by
  obtain ⟨p', hp', hs', hf, hcl, hothers⟩ := h.toLive.release
  refine ⟨p', hp', hs'.schedule ?_, hf, hcl, hothers⟩
  intro n hn
  rcases List.mem_append.mp hn with hn | hn
  · rw [hothers n (List.mem_append_left _ hn)]
    exact h.aep_free n hn
  · rw [List.mem_singleton.mp hn, hcl]
    rfl

/-- An allocation hands out the first free entry, with the null slot in it, and changes no other entry. -/
theorem alloc (h : Schedule p (x :: free) live) :
    ∃ p', simplePoolAlloc p = .ok (some (p'.nodes x).el, p') ∧ p'.Rep free (live ++ [x]) ∧ p.Frame p' ∧
      p'.timeout x = (p.timeout x).cleared ∧ ∀ n ∈ free ++ live, p'.timeout n = p.timeout n := by
  obtain ⟨p', hp', hr, hf, hm⟩ := simplePoolAlloc_cons h.rep
  obtain ⟨hcl, hsame⟩ := h.toLive.timeout_init hf hm (by simp)
  refine ⟨p', by rw [hp', hf.el], hr, hf, hcl, ?_⟩
  intro n hn
  refine hsame n (by simpa using Or.inr (List.mem_append.mp hn)) ?_
  rintro rfl
  have := h.rep.nodup
  rw [List.cons_append, List.nodup_cons] at this
  exact this.1 hn

/-- An allocation followed by the write of an entry with a slot of its own. -/
theorem insert (h : Schedule p (x :: free) live) (e : TimeoutEntry) (hne : e.aep ≠ capNull)
    (hnew : ∀ n ∈ live, (p.timeout n).aep ≠ e.aep) :
    ∃ p' p'', simplePoolAlloc p = .ok (some (p'.nodes x).el, p') ∧ (p'.mem (p'.nodes x).el).aep = capNull ∧
      p'' = { p' with mem := Function.update p'.mem (p'.nodes x).el e } ∧ Schedule p'' free (live ++ [x]) ∧
      p''.timeout x = e ∧ ∀ n ∈ free ++ live, p''.timeout n = p.timeout n := by
  obtain ⟨p', hp', hr, hf, hcl, hsame⟩ := h.alloc
  refine ⟨p', _, hp', ?_, rfl, ?_⟩
  · rw [show p'.mem (p'.nodes x).el = (p.timeout x).cleared from hcl]
    rfl
  generalize hq : { p' with mem := Function.update p'.mem (p'.nodes x).el e } = q
  have hself : q.timeout x = e := by
    subst hq
    simp [Pool.timeout]
  have hsame' : ∀ n ∈ free ++ live, q.timeout n = p.timeout n := by
    intro n hn
    have hnx : n ≠ x := by
      rintro rfl
      have := h.rep.nodup
      rw [List.cons_append, List.nodup_cons] at this
      exact this.1 hn
    have hn' : n ∈ free ++ (live ++ [x]) := by
      rw [← List.append_assoc]
      exact List.mem_append_left _ hn
    have hel : (p'.nodes n).el ≠ (p'.nodes x).el := fun he => hnx (hr.el_inj hn' (by simp) he)
    rw [← hsame n hn]
    subst hq
    simp only [Pool.timeout]
    rw [Function.update_of_ne hel]
  have hlive : ∀ n ∈ live, q.timeout n = p.timeout n := fun n hn => hsame' n (List.mem_append_right _ hn)
  refine ⟨⟨?_, ?_, ?_, ?_, ?_, ?_⟩, hself, hsame'⟩
  · subst hq
    exact hr.write _
  · subst hq
    exact hf.initFn.trans h.initFn
  · subst hq
    exact hf.compareFn.trans h.compareFn
  · rw [List.map_append, List.map_singleton, hself, List.nodup_append]
    refine ⟨?_, List.nodup_singleton _, ?_⟩
    · rw [List.map_congr_left fun n hn => by rw [hlive n hn]]
      exact h.aeps
    · intro a ha b hb
      obtain ⟨n, hn, rfl⟩ := List.mem_map.mp ha
      rw [List.mem_singleton.mp hb, hlive n hn]
      exact hnew n hn
  · intro n hn
    rcases List.mem_append.mp hn with hn | hn
    · rw [hlive n hn]
      exact h.aep_ne n hn
    · rw [List.mem_singleton.mp hn, hself]
      exact hne
  · intro n hn
    rw [hsame' n (List.mem_append_left _ hn)]
    exact h.aep_free n (List.mem_cons_of_mem _ hn)

end Schedule

/-- An element that has been through `timer_entry_init` has the null slot, whatever other elements have been since. -/
theorem aep_foldl_timerEntryInit (els : List Ptr) (mem : ScheduleMem) {el : Ptr} (h : el ∈ els) :
    (els.foldl (fun mem el => timerEntryInit el mem) mem el).aep = capNull := by
  induction els using List.reverseRecOn with
  | nil => exact absurd h List.not_mem_nil
  | append_singleton els el' ih =>
    rw [List.foldl_append, List.foldl_cons, List.foldl_nil]
    rcases eq_or_ne el el' with rfl | hne
    · simp [timerEntryInit]
    · rw [timerEntryInit, Function.update_of_ne hne]
      refine ih ?_
      rcases List.mem_append.mp h with h | h
      · exact h
      · exact absurd (List.mem_singleton.mp h) hne

/-- A new schedule has all its entries free. -/
theorem Schedule.new {malloc : Nat → Ptr} (hm : Function.Injective malloc) {nodes : NodeStore} {mem : ScheduleMem}
    {size : Int} {elSize : Nat} {p : Pool ScheduleMem}
    (h : simplePoolNew malloc nodes mem size elSize (some timerEntryInit) (some timerEntryCompare) = .ok p) :
    Schedule p (poolNodes malloc size.toNat) [] := by
  obtain ⟨hr, hi, hc, _, hel⟩ := simplePoolNew_ok hm h
  refine ⟨hr, hi, hc, by simp, by simp, ?_⟩
  intro n hn
  obtain ⟨j, hj, rfl⟩ := List.mem_map.mp hn
  have hj : j < size.toNat := List.mem_range.mp hj
  have hmem : p.mem = ((List.range' 0 size.toNat).map fun j => malloc (2 * j)).foldl (fun mem el => timerEntryInit el mem) mem := by
    rw [simplePoolNew_mem h, List.foldl_map]
  rw [Pool.timeout, hel j hj, hmem]
  refine aep_foldl_timerEntryInit _ mem (List.mem_map.mpr ⟨j, ?_, rfl⟩)
  simp [List.mem_range'_1, hj]

namespace Schedule

variable {p p' : Pool ScheduleMem} {free live l t : List Ptr} {x : Ptr}

/-! ## The loop of a cancel -/

/-- A cancel walks past the entries with other slots. -/
theorem cancelLoop_skip (h : Schedule p free (l ++ t)) {id : Word} (fuel : Nat) (rv : List CPtr)
    (hl : ∀ n ∈ t, (p.timeout n).aep ≠ id) :
    t.length ≤ fuel → cancelLoop id fuel t.head? p rv = .ok (p, rv) := by
  intro hf
  induction t generalizing l fuel with
  | nil => cases fuel <;> rfl
  | cons x t ih =>
    cases fuel with
    | zero => simp at hf
    | succ fuel =>
      have hne : (p.mem (p.nodes x).el).aep ≠ id := hl x (List.mem_cons_self)
      simp only [List.head?_cons, cancelLoop, hne, if_false]
      rw [h.toLive.next_eq]
      exact ih (l := l ++ [x]) (by simpa using h) fuel (fun n hn => hl n (List.mem_cons_of_mem _ hn))
        (by simp only [List.length_cons] at hf; omega)

/-- A cancel of a slot no live entry has leaves the schedule as it is. -/
theorem cancelLoop_none (h : Schedule p free live) {id : Word} (rv : List CPtr) (fuel : Nat) (hf : p.fuel ≤ fuel)
    (hl : ∀ n ∈ live, (p.timeout n).aep ≠ id) : cancelLoop id fuel p.entries p rv = .ok (p, rv) := by
  rw [h.rep.liveList.head, ← List.head?_eq_getElem?]
  exact cancelLoop_skip (l := []) h fuel rv hl (by have := h.rep.length_le_fuel; omega)

/-- From the released node, which by then is the last of the free list with the null slot in it, a cancel ends. -/
theorem cancelLoop_released (h : Schedule p (free ++ [x]) live) {id : Word} (fuel : Nat) (rv : List CPtr)
    (hid : id ≠ capNull) : cancelLoop id (fuel + 1) (some x) p rv = .ok (p, rv) := by
  have hx : (p.mem (p.nodes x).el).aep ≠ id := by
    rw [show (p.mem (p.nodes x).el).aep = capNull from h.aep_free x (by simp)]
    exact Ne.symm hid
  have hnext : (p.nodes x).next = none := (h.rep.freeList.at_split (l := free) (t := []) rfl).2
  simp only [cancelLoop, hx, if_false, hnext]

/-- A cancel of the slot of a live entry releases that entry. -/
theorem cancelLoop_some (h : Schedule p free (l ++ x :: t)) (rv : List CPtr) (fuel : Nat) (hf : p.fuel + 2 ≤ fuel) :
    ∃ p', cancelLoop (p.timeout x).aep fuel p.entries p rv = .ok (p', rv ++ [(p.timeout x).aep]) ∧
      Schedule p' (free ++ [x]) (l ++ t) ∧ p.Frame p' ∧ p'.timeout x = (p.timeout x).cleared ∧
      ∀ n ∈ free ++ (l ++ t), p'.timeout n = p.timeout n := by
  obtain ⟨p', hp', hs', hframe, hcl, hsame⟩ := h.release
  refine ⟨p', ?_, hs', hframe, hcl, hsame⟩
  have hxne : (p.timeout x).aep ≠ capNull := h.aep_ne x (by simp)
  -- the walk over the entries before `x`, at any place of them
  have walk : ∀ (k : List Ptr) (l' : List Ptr) (fuel : Nat), l = l' ++ k → k.length + 2 ≤ fuel →
      cancelLoop (p.timeout x).aep fuel (k ++ x :: t).head? p rv = .ok (p', rv ++ [(p.timeout x).aep]) := by
    intro k
    induction k with
    | nil =>
      intro l' fuel _ hfuel
      obtain ⟨fuel, rfl⟩ : ∃ n, fuel = n + 2 := ⟨fuel - 2, by simp only [List.length_nil] at hfuel; omega⟩
      simp only [List.nil_append, List.head?_cons]
      rw [cancelLoop, if_pos (by rfl), hp', ok_bind]
      exact cancelLoop_released hs' fuel _ hxne
    | cons y k ih =>
      intro l' fuel hl hfuel
      obtain ⟨fuel, rfl⟩ : ∃ n, fuel = n + 1 := ⟨fuel - 1, by simp only [List.length_cons] at hfuel; omega⟩
      have hyx : (p.mem (p.nodes y).el).aep ≠ (p.timeout x).aep := by
        intro e
        have hyx : y = x := h.toLive.eq_of_aep (by simp [hl]) (by simp) e
        have hnd := h.rep.liveList.nodup
        rw [List.nodup_middle, List.nodup_cons] at hnd
        exact hnd.1 (by simp [hl, hyx])
      have hnext : (p.nodes y).next = (k ++ x :: t).head? :=
        (h.rep.liveList.at_split (l := l') (t := k ++ x :: t) (by simp [hl])).2
      simp only [List.cons_append, List.head?_cons, cancelLoop, hyx, if_false, hnext]
      exact ih (l' ++ [y]) fuel (by simp [hl]) (by simp only [List.length_cons] at hfuel; omega)
  rw [h.rep.liveList.head, ← List.head?_eq_getElem?]
  refine walk l [] fuel rfl ?_
  have := h.rep.length_le_fuel
  simp only [List.length_append, List.length_cons] at this
  omega

end Schedule

/-- What the loop of a cancel makes of the schedule. -/
structure CancelResult (id : Word) (p p' : Pool ScheduleMem) (free live : List Ptr) : Prop where
  schedule : Schedule p' (free ++ live.filter fun n => decide ((p.timeout n).aep = id))
    (live.filter fun n => decide ((p.timeout n).aep ≠ id))
  free : ∀ n ∈ free, p'.timeout n = p.timeout n
  others : ∀ n ∈ live, (p.timeout n).aep ≠ id → p'.timeout n = p.timeout n
  cancelled : ∀ n ∈ live, (p.timeout n).aep = id → p'.timeout n = (p.timeout n).cleared
  no_match : (∀ n ∈ live, (p.timeout n).aep ≠ id) → p' = p

/-- A cancel ends, revokes the slot of the live entry with that id, if there is one, and releases that entry. -/
theorem Schedule.cancelLoop_spec {p : Pool ScheduleMem} {free live : List Ptr} (h : Schedule p free live) (id : Word)
    (rv : List CPtr) (fuel : Nat) (hf : p.fuel + 2 ≤ fuel) :
    ∃ p', cancelLoop id fuel p.entries p rv =
        .ok (p', rv ++ (live.filter fun n => decide ((p.timeout n).aep = id)).map fun n => (p.timeout n).aep) ∧
      CancelResult id p p' free live := by
  by_cases hex : ∃ x ∈ live, (p.timeout x).aep = id
  · obtain ⟨x, hx, rfl⟩ := hex
    obtain ⟨l, t, rfl⟩ := List.append_of_mem hx
    obtain ⟨p', hp', hs', _, hcl, hsame⟩ := h.cancelLoop_some rv fuel hf
    have hother : ∀ n ∈ l ++ t, (p.timeout n).aep ≠ (p.timeout x).aep := by
      have hnd := h.rep.liveList.nodup
      rw [List.nodup_middle, List.nodup_cons] at hnd
      intro n hn e
      have hnm : n ∈ l ++ x :: t := by
        rcases List.mem_append.mp hn with hn | hn <;> simp [hn]
      exact hnd.1 (h.toLive.eq_of_aep hnm hx e ▸ hn)
    have heq : (l ++ x :: t).filter (fun n => decide ((p.timeout n).aep = (p.timeout x).aep)) = [x] := by
      have hl : l.filter (fun n => decide ((p.timeout n).aep = (p.timeout x).aep)) = [] :=
        List.filter_eq_nil_iff.mpr fun n hn => by simpa using hother n (List.mem_append_left _ hn)
      have ht : t.filter (fun n => decide ((p.timeout n).aep = (p.timeout x).aep)) = [] :=
        List.filter_eq_nil_iff.mpr fun n hn => by simpa using hother n (List.mem_append_right _ hn)
      rw [List.filter_append, List.filter_cons_of_pos (by simp), hl, ht, List.nil_append]
    have hne : (l ++ x :: t).filter (fun n => decide ((p.timeout n).aep ≠ (p.timeout x).aep)) = l ++ t := by
      have hl : l.filter (fun n => decide ((p.timeout n).aep ≠ (p.timeout x).aep)) = l :=
        List.filter_eq_self.mpr fun n hn => by simpa using hother n (List.mem_append_left _ hn)
      have ht : t.filter (fun n => decide ((p.timeout n).aep ≠ (p.timeout x).aep)) = t :=
        List.filter_eq_self.mpr fun n hn => by simpa using hother n (List.mem_append_right _ hn)
      rw [List.filter_append, List.filter_cons_of_neg (by simp), hl, ht]
    refine ⟨p', by rw [hp', heq]; rfl, ?_, ?_, ?_, ?_, fun hnone => absurd rfl (hnone x hx)⟩
    · rw [heq, hne]
      exact hs'
    · intro n hn
      exact hsame n (List.mem_append_left _ hn)
    · intro n hn hid
      refine hsame n (List.mem_append_right _ ?_)
      rw [← hne, List.mem_filter]
      exact ⟨hn, decide_eq_true hid⟩
    · intro n hn hid
      rw [h.toLive.eq_of_aep hn hx hid, hcl]
  · have hnone : ∀ n ∈ live, (p.timeout n).aep ≠ id := fun n hn e => hex ⟨n, hn, e⟩
    have hloop := h.cancelLoop_none rv fuel (by omega) hnone
    have heq : live.filter (fun n => decide ((p.timeout n).aep = id)) = [] :=
      List.filter_eq_nil_iff.mpr fun n hn => by simpa using hnone n hn
    have hne : live.filter (fun n => decide ((p.timeout n).aep ≠ id)) = live :=
      List.filter_eq_self.mpr fun n hn => by simpa using hnone n hn
    refine ⟨p, by rw [hloop, heq]; simp, ?_, fun _ _ => rfl, fun _ _ _ => rfl, fun n hn hid => absurd hid (hnone n hn), fun _ => rfl⟩
    rw [heq, hne, List.append_nil]
    exact h

/-! ## The loop of a scan -/

/-- The entry is due at a clock value. -/
def TimeoutEntry.isDue (e : TimeoutEntry) (time : Word) : Bool := decide (e.nextEvent ≤ time)

/-- The entry is due and is a one-shot: a scan releases it. -/
def TimeoutEntry.expires (e : TimeoutEntry) (time : Word) : Bool := e.isDue time && decide (e.periodic = 0)

/-- What a scan makes of an entry: a periodic one that is due is scheduled anew, a one-shot that is due is cleared. -/
def TimeoutEntry.scanned (e : TimeoutEntry) (time : Word) : TimeoutEntry :=
  if e.expires time then e.cleared
  else if e.isDue time then { e with nextEvent := time + e.period }
  else e

/-- The entries of a list of nodes that are due, by their slots and in order: those a scan signals. -/
def dueAeps (e : Ptr → TimeoutEntry) (time : Word) (ns : List Ptr) : List CPtr :=
  (ns.filter fun n => (e n).isDue time).map fun n => (e n).aep

/-- The nodes a scan releases. -/
def expired (e : Ptr → TimeoutEntry) (time : Word) (ns : List Ptr) : List Ptr := ns.filter fun n => (e n).expires time

/-- The nodes a scan leaves in the schedule. -/
def unexpired (e : Ptr → TimeoutEntry) (time : Word) (ns : List Ptr) : List Ptr := ns.filter fun n => !(e n).expires time

section Scanned

variable {e e' : Ptr → TimeoutEntry} {time : Word}

theorem dueAeps_cons (x : Ptr) (ns : List Ptr) : dueAeps e time (x :: ns) = dueAeps e time [x] ++ dueAeps e time ns := by
  simp only [dueAeps, ← List.map_append, ← List.filter_append, List.singleton_append]

theorem expired_cons (x : Ptr) (ns : List Ptr) : expired e time (x :: ns) = expired e time [x] ++ expired e time ns := by
  simp only [expired, ← List.filter_append, List.singleton_append]

theorem unexpired_cons (x : Ptr) (ns : List Ptr) : unexpired e time (x :: ns) = unexpired e time [x] ++ unexpired e time ns := by
  simp only [unexpired, ← List.filter_append, List.singleton_append]

theorem dueAeps_congr {ns : List Ptr} (h : ∀ n ∈ ns, e' n = e n) : dueAeps e' time ns = dueAeps e time ns := by
  induction ns with
  | nil => rfl
  | cons x ns ih =>
    rw [dueAeps_cons, dueAeps_cons, ih fun n hn => h n (List.mem_cons_of_mem x hn)]
    simp only [dueAeps, List.filter_cons, List.filter_nil, h x List.mem_cons_self]
    split <;> simp [h x List.mem_cons_self]

theorem expired_congr {ns : List Ptr} (h : ∀ n ∈ ns, e' n = e n) : expired e' time ns = expired e time ns :=
  List.filter_congr fun n hn => by rw [h n hn]

theorem unexpired_congr {ns : List Ptr} (h : ∀ n ∈ ns, e' n = e n) : unexpired e' time ns = unexpired e time ns :=
  List.filter_congr fun n hn => by rw [h n hn]

end Scanned

namespace LiveSchedule

variable {p p₁ p' : Pool ScheduleMem} {free kept todo : List Ptr} {x : Ptr} {time : Word}

/-- A change to the `next_event` of one live entry keeps the schedule. -/
theorem setNextEvent {live : List Ptr} (h : LiveSchedule p free live) (hx : x ∈ live) (v : Word) :
    ∃ p' : Pool ScheduleMem,
      p' = { p with mem := Function.update p.mem (p.nodes x).el { p.mem (p.nodes x).el with nextEvent := v } } ∧
      LiveSchedule p' free live ∧ p.Frame p' ∧ p'.timeout x = { p.timeout x with nextEvent := v } ∧
      ∀ n ∈ free ++ live, n ≠ x → p'.timeout n = p.timeout n := by
  refine ⟨_, rfl, ?_⟩
  generalize hp' : { p with mem := Function.update p.mem (p.nodes x).el { p.mem (p.nodes x).el with nextEvent := v } } = p'
  have hf : p.Frame p' := by
    subst hp'
    exact ⟨rfl, rfl, rfl, fun _ => rfl⟩
  have hself : p'.timeout x = { p.timeout x with nextEvent := v } := by
    subst hp'
    simp [Pool.timeout]
  have hsame : ∀ n ∈ free ++ live, n ≠ x → p'.timeout n = p.timeout n := by
    intro n hn hne
    have hel : (p.nodes n).el ≠ (p.nodes x).el := fun e => hne (h.rep.el_inj hn (List.mem_append_right _ hx) e)
    subst hp'
    simp only [Pool.timeout]
    rw [Function.update_of_ne hel]
  have hr : p'.Rep free live := by
    subst hp'
    exact h.rep.write _
  refine ⟨h.of_frame hf hr (List.Sublist.refl _) ?_, hf, hself, hsame⟩
  intro n hn
  rcases eq_or_ne n x with rfl | hne
  · rw [hself]
  · rw [hsame n (List.mem_append_right _ hn) hne]

/-- What one turn of the scan loop, or all of them, makes of the schedule, `kept` being the entries it has passed and `todo`
those it visits. -/
structure ScanResult (time : Word) (p p' : Pool ScheduleMem) (free kept todo rest : List Ptr) : Prop where
  schedule : LiveSchedule p' (free ++ expired p.timeout time todo) (kept ++ unexpired p.timeout time todo ++ rest)
  frame : p.Frame p'
  same : ∀ n ∈ free ++ kept ++ rest, p'.timeout n = p.timeout n
  scanned : ∀ n ∈ todo, p'.timeout n = (p.timeout n).scanned time

/-- The scan loop's turn at a node. -/
theorem scanLoop_turn (time : Word) (h : LiveSchedule p free (kept ++ x :: todo)) (fuel : Nat) (sig rv : List CPtr) :
    ∃ p₁, Sel4Osapi.scanLoop time (fuel + 1) (some x) p sig rv =
        Sel4Osapi.scanLoop time fuel todo.head? p₁ (sig ++ dueAeps p.timeout time [x])
          (rv ++ (expired p.timeout time [x]).map fun n => (p.timeout n).aep) ∧
      ScanResult time p p₁ free kept [x] todo := by
  have hxne : (p.timeout x).aep ≠ capNull := h.aep_ne x (by simp)
  have hnot : ∀ n ∈ free ++ kept ++ todo, n ≠ x := by
    have hnd := h.rep.nodup
    rw [← List.append_assoc, List.nodup_middle, List.nodup_cons] at hnd
    rintro n hn rfl
    exact hnd.1 hn
  simp only [Sel4Osapi.scanLoop, h.next_eq]
  change ∃ p₁, (if (p.timeout x).aep ≠ capNull ∧ (p.timeout x).nextEvent ≤ time then
    (if (p.timeout x).periodic ≠ 0 then _ else _) else _) = _ ∧ _
  by_cases hdue : (p.timeout x).nextEvent ≤ time
  · rw [if_pos ⟨hxne, hdue⟩]
    have hd : dueAeps p.timeout time [x] = [(p.timeout x).aep] := by simp [dueAeps, TimeoutEntry.isDue, hdue]
    by_cases hper : (p.timeout x).periodic = 0
    · -- a one-shot that is due is released, and the walk goes on from the node that followed it
      have hexp : (p.timeout x).expires time = true := by simp [TimeoutEntry.expires, TimeoutEntry.isDue, hdue, hper]
      obtain ⟨p₁, hp₁, hs₁, hf₁, hcl, hsame⟩ := h.release
      rw [if_neg (not_not.mpr hper), hp₁, ok_bind]
      refine ⟨p₁, ?_, ?_, hf₁, fun n hn => hsame n (by simpa using hn), ?_⟩
      · have he : expired p.timeout time [x] = [x] := by simp [expired, hexp]
        rw [hd, he]
        rfl
      · simpa [expired, unexpired, hexp] using hs₁
      · simp [hcl, TimeoutEntry.scanned, hexp]
    · -- a periodic one stays, with a new next event
      have hexp : (p.timeout x).expires time = false := by simp [TimeoutEntry.expires, hper]
      obtain ⟨p₁, hp₁, hs₁, hf₁, hself, hsame⟩ := h.setNextEvent (x := x) (by simp) (time + (p.timeout x).period)
      rw [if_pos hper]
      refine ⟨p₁, ?_, ?_, hf₁, fun n hn => hsame n ?_ (hnot n hn), ?_⟩
      · have he : expired p.timeout time [x] = [] := by simp [expired, hexp]
        rw [hp₁, hd, he, List.map_nil, List.append_nil]
        rfl
      · simpa [expired, unexpired, hexp] using hs₁
      · simp only [List.mem_append, List.mem_cons] at hn ⊢
        tauto
      · simp [hself, TimeoutEntry.scanned, hexp, TimeoutEntry.isDue, hdue]
  · -- an entry that is not due is passed
    have hexp : (p.timeout x).expires time = false := by simp [TimeoutEntry.expires, TimeoutEntry.isDue, hdue]
    rw [if_neg fun e => hdue e.2]
    refine ⟨p, ?_, ?_, Pool.Frame.refl p, fun _ _ => rfl, ?_⟩
    · simp [dueAeps, TimeoutEntry.isDue, hdue, expired, hexp]
    · simpa [expired, unexpired, hexp] using h
    · simp [TimeoutEntry.scanned, hexp, TimeoutEntry.isDue, hdue]

/-- One turn of the loop followed by the rest of the scan. -/
theorem ScanResult.trans (h₁ : ScanResult time p p₁ free kept [x] todo)
    (h₂ : ScanResult time p₁ p' (free ++ expired p.timeout time [x]) (kept ++ unexpired p.timeout time [x]) todo []) :
    ScanResult time p p' free kept (x :: todo) [] := by
  have htodo : ∀ n ∈ todo, p₁.timeout n = p.timeout n := fun n hn => h₁.same n (by simp [hn])
  have hx : x ∈ expired p.timeout time [x] ++ unexpired p.timeout time [x] := by
    simp only [expired, unexpired, List.filter_cons, List.filter_nil]
    cases (p.timeout x).expires time <;> simp
  constructor
  · have := h₂.schedule
    rw [expired_congr htodo, unexpired_congr htodo] at this
    rw [expired_cons, unexpired_cons]
    simpa using this
  · exact h₁.frame.trans h₂.frame
  · intro n hn
    have hn' : n ∈ free ∨ n ∈ kept := by simpa using hn
    rw [h₂.same n (by simp only [List.mem_append]; tauto), h₁.same n (by simp only [List.mem_append]; tauto)]
  · intro n hn
    rcases List.mem_cons.mp hn with rfl | hn
    · rw [h₂.same n (by simp only [List.mem_append] at hx ⊢; tauto), h₁.scanned n List.mem_cons_self]
    · rw [h₂.scanned n hn, htodo n hn]

/-- A scan from any place of the schedule, `kept` being the entries it has passed and `todo` those to come: it signals those of
them that are due, in order, releases the one-shots among these, and schedules the periodic ones anew. -/
theorem scanLoop_spec (time : Word) (todo kept free : List Ptr) (p : Pool ScheduleMem) (fuel : Nat) (sig rv : List CPtr)
    (h : LiveSchedule p free (kept ++ todo)) (hfuel : todo.length ≤ fuel) :
    ∃ p', Sel4Osapi.scanLoop time fuel todo.head? p sig rv = .ok (p', sig ++ dueAeps p.timeout time todo,
        rv ++ (expired p.timeout time todo).map fun n => (p.timeout n).aep) ∧
      ScanResult time p p' free kept todo [] := by
  induction todo generalizing kept free p fuel sig rv with
  | nil =>
    refine ⟨p, ?_, by simpa [expired, unexpired] using h, Pool.Frame.refl p, fun _ _ => rfl, by simp⟩
    cases fuel <;> simp [Sel4Osapi.scanLoop, dueAeps, expired]
  | cons x todo ih =>
    obtain ⟨fuel, rfl⟩ : ∃ n, fuel = n + 1 := ⟨fuel - 1, by simp only [List.length_cons] at hfuel; omega⟩
    have hfuel' : todo.length ≤ fuel := by simp only [List.length_cons] at hfuel; omega
    obtain ⟨p₁, hp₁, h₁⟩ := scanLoop_turn time h fuel sig rv
    obtain ⟨p', hp', h₂⟩ := ih _ _ p₁ fuel (sig ++ dueAeps p.timeout time [x])
      (rv ++ (expired p.timeout time [x]).map fun n => (p.timeout n).aep) h₁.schedule hfuel'
    have htodo : ∀ n ∈ todo, p₁.timeout n = p.timeout n := fun n hn => h₁.same n (by simp [hn])
    have haeps : ((expired p₁.timeout time todo).map fun n => (p₁.timeout n).aep) =
        (expired p.timeout time todo).map fun n => (p.timeout n).aep := by
      rw [expired_congr htodo]
      exact List.map_congr_left fun n hn => by rw [htodo n (List.mem_filter.mp hn).1]
    refine ⟨p', ?_, h₁.trans h₂⟩
    rw [List.head?_cons, hp₁, hp', haeps, dueAeps_congr htodo, dueAeps_cons x todo, expired_cons x todo, List.map_append,
      List.append_assoc, List.append_assoc]

/-- A scan keeps the invariant of the service: the entries released have been cleared. -/
theorem ScanResult.full (h : ScanResult time p p' free kept todo []) (hfree : ∀ n ∈ free, (p.timeout n).aep = capNull) :
    Schedule p' (free ++ expired p.timeout time todo) (kept ++ unexpired p.timeout time todo) := by
  have hs := h.schedule
  rw [List.append_nil] at hs
  refine hs.schedule ?_
  intro n hn
  rcases List.mem_append.mp hn with hn | hn
  · rw [h.same n (by simp [hn])]
    exact hfree n hn
  · obtain ⟨hn, hexp⟩ := List.mem_filter.mp hn
    rw [h.scanned n hn, TimeoutEntry.scanned, if_pos hexp]
    rfl

end LiveSchedule

end Sel4Osapi
