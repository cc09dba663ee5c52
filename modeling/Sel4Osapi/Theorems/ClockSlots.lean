import Sel4Osapi.Lemmas.ClockLog
import Sel4Osapi.Theorems.Clock

/-!
# The clock service: how many slots it takes

The server takes a slot for every SET_TIMEOUT it serves. Nothing in the library calls `vka_cspace_free`, so a slot stays
taken when the timeout that has it expires, is cancelled or was refused: the count of the slots is that of the requests, not
of the live timeouts.
-/

namespace Sel4Osapi

open Transition

/-- The ids given out whose timeout has ended: it expired, or it was cancelled. -/
def ended (log : List ClockEvent) : List CPtr := (setIds log).filter fun a => decide (armed a log = none)

/-- The event is the refusal of a SET_TIMEOUT. -/
def ClockEvent.refuses : ClockEvent → Bool
  | .refused _ => true
  | _ => false

/-- The number of SET_TIMEOUT refused so far. -/
def refusals (log : List ClockEvent) : Nat := log.countP ClockEvent.refuses

/-- The slot that waits for a capability: there is one while the server waits for a request. -/
def Sysclock.receiveSlots (s : Sysclock) : Nat := if s.serverPc = .waiting then 1 else 0

/-- The number of SET_TIMEOUT served so far. -/
def setsServed (log : List ClockEvent) : Nat := (setIds log).length + refusals log

theorem setsServed_append (log es : List ClockEvent) : setsServed (log ++ es) = setsServed log + setsServed es := by
  simp only [setsServed, setIds_append, List.length_append, refusals, List.countP_append]
  omega

/-- The slots taken are one for each SET_TIMEOUT served, and one to receive. -/
structure SlotsInv (s : Sysclock) : Prop where
  nodup : s.allocated.Nodup
  length : s.allocated.length = setsServed s.log + s.receiveSlots

namespace SlotsInv

variable {s s' : Sysclock} {periodMs : Word}

/-- Every step keeps the count. -/
theorem step (h : SlotsInv s) {a : ClockAction} (hm : ClockMove periodMs s s' a) : SlotsInv s' := by
  have hlen := h.length
  unfold Sysclock.receiveSlots at hlen
  cases hm with
  | slot slot hpc hnew hs =>
    subst hs
    refine ⟨List.nodup_cons.mpr ⟨hnew, h.nodup⟩, ?_⟩
    rw [hpc] at hlen
    rw [Sysclock.receiveSlots, List.length_cons, hlen]
    rfl
  | request badge r ev hpc hreplied =>
    obtain ⟨⟨hallocated, -, hlog⟩, -, hserver⟩ := hreplied
    refine ⟨hallocated ▸ h.nodup, ?_⟩
    rw [hallocated, hlen, Sysclock.receiveSlots, hlog, setsServed_append]
    rcases hserver with ⟨⟨periodic, timeoutMs, c, -, rfl | rfl⟩, hserver⟩ | ⟨⟨id, error, rfl⟩ | ⟨t, rfl⟩, hserver⟩
    · rw [hpc, hserver]
      rfl
    · rw [hpc, hserver]
      rfl
    · rw [hserver]
      rfl
    · rw [hserver]
      rfl
  | tick hpc hs =>
    subst hs
    exact ⟨h.nodup, hlen⟩
  | scan sig hpc hserver htimer hlogs =>
    refine ⟨hlogs.allocated ▸ h.nodup, ?_⟩
    rw [hlogs.allocated, hlen, Sysclock.receiveSlots, hserver, hlogs.log, setsServed_append]
    rfl

end SlotsInv

/-- The count is right in every reachable state. -/
theorem slots_inv {periodMs : Word} {s : Sysclock} (hr : (sysclockMachine periodMs).Reachable s) : SlotsInv s := by
  refine hr.invariant ?_ fun s a s' _ h hs => h.step (Sysclock.step_moves hs)
  intro s hi
  refine ⟨by simp [hi.allocated], ?_⟩
  simp [hi.allocated, hi.log, setsServed, setIds, refusals, Sysclock.receiveSlots, hi.serverPc]

/-- No step gives a slot back. -/
theorem ClockMove.allocated_mono {periodMs : Word} {s s' : Sysclock} {act : ClockAction}
    (hm : ClockMove periodMs s s' act) {a : CPtr}
    (ha : a ∈ s.allocated) : a ∈ s'.allocated := by
  cases hm with
  | slot slot hpc hnew hs =>
    subst hs
    exact List.mem_cons_of_mem _ ha
  | request badge r ev hpc hreplied => exact hreplied.logs.allocated ▸ ha
  | tick hpc hs =>
    subst hs
    exact ha
  | scan sig hpc hserver htimer hlogs => exact hlogs.allocated ▸ ha

namespace ClockInv

variable {s : Sysclock} {free live : List Ptr}

/-- Every timeout that was accepted is live or has ended. -/
theorem live_add_ended (h : ClockInv s free live) : live.length + (ended s.log).length = (setIds s.log).length := by
  have hperm : (live.map fun n => (s.schedule.timeout n).aep).Perm
      ((setIds s.log).filter fun a => !decide (armed a s.log = none)) := by
    refine (List.perm_ext_iff_of_nodup h.schedule.aeps (h.ids.filter _)).mpr ?_
    intro a
    simp only [List.mem_map, List.mem_filter, Bool.not_eq_true', decide_eq_false_iff_not]
    constructor
    · rintro ⟨n, hn, rfl⟩
      exact ⟨h.live_id hn, by simp [h.armed_of_live n hn]⟩
    · rintro ⟨-, harmed⟩
      obtain ⟨e, he⟩ := Option.ne_none_iff_exists'.mp harmed
      exact h.live_of_armed a e he
  have hlen := hperm.length_eq
  rw [List.length_map] at hlen
  have hsplit := List.length_eq_length_filter_add (l := setIds s.log) fun a => decide (armed a s.log = none)
  rw [hlen, hsplit, ended]
  omega

end ClockInv

/-- In every reachable state, with these free and live entries in the schedule, the slots the server has obtained are
pairwise distinct and are as many as the live entries, the timeouts that have ended, the SET_TIMEOUT that were refused, and
the receive slot while the server waits. The slot of every timeout, live or ended, is among them and still has its
capability, and no step gives one back. The live entries alone are at most `SEL4OSAPI_SYSCLOCK_MAX_ENTRIES`. -/
theorem sysclock_slots_taken (periodMs : Word) (s : Sysclock) (hr : (sysclockMachine periodMs).Reachable s) :
    ∃ free live, s.schedule.Rep free live ∧ s.allocated.Nodup ∧
      s.allocated.length = live.length + (ended s.log).length + refusals s.log + s.receiveSlots ∧
      (live.length : Int) ≤ sysclockMaxEntries ∧
      (∀ n ∈ live, (s.schedule.timeout n).aep ∈ s.allocated) ∧
      (∀ a ∈ ended s.log, a ∈ s.allocated ∧ s.cspace a ≠ none) ∧
      ∀ act s', (sysclockMachine periodMs).step s act = .next s' → ∀ a ∈ s.allocated, a ∈ s'.allocated := by
  obtain ⟨⟨free, live, h, hentries⟩, -⟩ := sysclock_inv hr
  have hslots := slots_inv hr
  refine ⟨free, live, h.schedule.rep, hslots.nodup, ?_, ?_, fun n hn => h.ids_allocated _ (h.live_id hn), ?_,
    fun act s' hs a ha => (Sysclock.step_moves hs).allocated_mono ha⟩
  · rw [hslots.length, setsServed, h.live_add_ended]
  · omega
  · intro a ha
    have hid := List.mem_of_mem_filter ha
    obtain ⟨ev, hev, hset⟩ := List.mem_filterMap.mp hid
    refine ⟨h.ids_allocated a hid, ?_⟩
    cases ev with
    | set caller cap periodic d id t =>
      obtain rfl := Option.some.inj hset
      rw [h.caps caller cap periodic d _ t hev]
      simp
    | refused | cancel | getTime | scan => cases hset

/-- After the two steps of `exists_accepted` one slot is taken, that of the live timeout. -/
theorem sysclock_slots_taken_accepted : ∃ s : Sysclock, (sysclockMachine 1).Reachable s ∧ s.allocated = [1] ∧
    ∃ free live, s.schedule.Rep free live ∧
      s.allocated.length = live.length + (ended s.log).length + refusals s.log + s.receiveSlots := by
  obtain ⟨s, hr, -, -, -, -, -, hallocated, -⟩ := exists_accepted 1
  obtain ⟨free, live, hrep, -, hlen, -⟩ := sysclock_slots_taken 1 s hr
  exact ⟨s, hr, hallocated, free, live, hrep, hlen⟩

/-- After the cancel of the only timeout its slot is still taken, beside the receive slot. -/
theorem sysclock_slots_exceed_live : ∃ (s : Sysclock) (free live : List Ptr), (sysclockMachine 1).Reachable s ∧
    s.schedule.Rep free live ∧ s.allocated = [2, 1] ∧ ¬ s.allocated.length ≤ live.length + 1 := by
  obtain ⟨s, hr, hep, hlog, -, -, hcs, hallocated, free, live, x, h, -⟩ := exists_accepted 1
  have hpc : s.serverPc = .allocSlot := (h.window (by rw [hep, hlog]; decide)).1
  have h₁ := h.allocSlot (by decide : (2 : CPtr) ≠ capNull) (by rw [hallocated]; decide) hcs
  generalize hs₁ : { s with callerEp := 2, allocated := 2 :: s.allocated, serverPc := .waiting } = s₁ at h₁
  have hstep₁ : (sysclockMachine 1).step s (.allocSlot 2) = .next s₁ := by
    simp [sysclockMachine, Sysclock.step, hpc, hallocated, hcs, capNull, ← hs₁]
  have hpc₁ : s₁.serverPc = .waiting := by rw [← hs₁]
  obtain ⟨s₂, hs₂, h₂⟩ := h₁.cancelTimeout 1
  have hstep₂ : (sysclockMachine 1).step s₁ (.request 7 (.cancelTimeout 1)) = .next s₂ := by
    simp [sysclockMachine, Sysclock.step, Sysclock.serve, hpc₁, hs₂]
  obtain ⟨hlog₂, hallocated₂⟩ : s₂.log = s₁.log ++ [.cancel 1 1] ∧ s₂.allocated = s₁.allocated := by
    obtain ⟨⟨schedule, revoked⟩, -, hs₂⟩ := bind_ok hs₂
    cases hs₂
    exact ⟨rfl, rfl⟩
  have hlog₂ : s₂.log = [.set 7 3 0 5 1 0, .cancel 1 1] := by
    rw [hlog₂, ← hs₁, hlog]
    rfl
  have hallocated₂ : s₂.allocated = [2, 1] := by rw [hallocated₂, ← hs₁, hallocated]
  refine ⟨s₂, _, _, (hr.step _ hstep₁).step _ hstep₂, h₂.schedule.rep, hallocated₂, ?_⟩
  have hcount := h₂.live_add_ended
  have hended : (ended s₂.log).length = 1 ∧ (setIds s₂.log).length = 1 := by
    rw [hlog₂]
    decide
  rw [hallocated₂, List.length_cons, List.length_singleton]
  omega

end Sel4Osapi
