import Sel4Osapi.Lemmas.ClockInv

/-!
# The clock service: what a step adds to the log

`ClockMove` says what one step can do to the clock, to the slots and to the log, whatever it does to the schedule.
-/

namespace Sel4Osapi

open Transition

/-- The event is the reply to a SET_TIMEOUT served in this state. -/
def Sysclock.RepliesSet (s : Sysclock) (badge : Word) (r : ClockRequest) (ev : ClockEvent) : Prop :=
  ∃ periodic timeoutMs c, r = .setTimeout periodic timeoutMs c ∧
    (ev = .set badge c periodic timeoutMs s.callerEp s.time ∨ ev = .refused badge)

/-- The event is the reply to another request. -/
def Sysclock.RepliesOther (ev : ClockEvent) : Prop := (∃ id error, ev = .cancel id error) ∨ ∃ t, ev = .getTime t

/-- The step puts an event in the log, and leaves the clock and the slots alone. -/
structure Sysclock.Logs (s s' : Sysclock) (ev : ClockEvent) : Prop where
  allocated : s'.allocated = s.allocated
  time : s'.time = s.time
  log : s'.log = s.log ++ [ev]

/-- A request was served: after a SET_TIMEOUT the server has to take a slot. -/
structure Sysclock.Replied (s s' : Sysclock) (badge : Word) (r : ClockRequest) (ev : ClockEvent) : Prop where
  logs : s.Logs s' ev
  timerPc : s'.timerPc = s.timerPc
  serverPc : s.RepliesSet badge r ev ∧ s'.serverPc = .allocSlot ∨ Sysclock.RepliesOther ev ∧ s'.serverPc = s.serverPc

/-- What a step of the service can do. -/
inductive ClockMove (periodMs : Word) (s s' : Sysclock) : ClockAction → Prop where
  | slot (slot : CPtr) (hpc : s.serverPc = .allocSlot) (hnew : slot ∉ s.allocated)
      (hs : s' = { s with callerEp := slot, allocated := slot :: s.allocated, serverPc := .waiting }) :
      ClockMove periodMs s s' (.allocSlot slot)
  | request (badge : Word) (r : ClockRequest) (ev : ClockEvent) (hpc : s.serverPc = .waiting) (hreplied : s.Replied s' badge r ev) :
      ClockMove periodMs s s' (.request badge r)
  | tick (hpc : s.timerPc = .waiting) (hs : s' = { s with time := s.time + periodMs, timerPc := .scanning }) :
      ClockMove periodMs s s' .tick
  | scan (sig : List CPtr) (hpc : s.timerPc = .scanning) (hserver : s'.serverPc = s.serverPc) (htimer : s'.timerPc = .waiting)
      (hlogs : s.Logs s' (.scan s.time sig)) : ClockMove periodMs s s' .scan

namespace Sysclock

variable {s s' : Sysclock} {periodMs : Word}

/-- The service of a request puts its reply in the log. -/
theorem replied_of_serve {badge : Word} {r : ClockRequest} (hs : s.serve badge r = .ok s') : ∃ ev, s.Replied s' badge r ev := by
  cases r with
  | setTimeout periodic timeoutMs c =>
    cases hslot : s.cspace s.callerEp with
    | some c' =>
      simp only [Sysclock.serve, Sysclock.receiveCap, hslot] at hs
      cases hs
    | none =>
      simp only [Sysclock.serve, Sysclock.receiveCap, hslot, check_of_true, ok_bind] at hs
      obtain ⟨⟨el, schedule⟩, -, hs⟩ := bind_ok hs
      cases el with
      | none =>
        cases hs
        exact ⟨_, ⟨rfl, rfl, rfl⟩, rfl, Or.inl ⟨⟨periodic, timeoutMs, c, rfl, Or.inr rfl⟩, rfl⟩⟩
      | some el =>
        obtain ⟨_, -, hs⟩ := bind_ok hs
        cases hs
        exact ⟨_, ⟨rfl, rfl, rfl⟩, rfl, Or.inl ⟨⟨periodic, timeoutMs, c, rfl, Or.inl rfl⟩, rfl⟩⟩
  | cancelTimeout id =>
    obtain ⟨⟨schedule, revoked⟩, -, hs⟩ := bind_ok hs
    cases hs
    exact ⟨_, ⟨rfl, rfl, rfl⟩, rfl, Or.inr ⟨Or.inl ⟨_, _, rfl⟩, rfl⟩⟩
  | getTime =>
    cases hs
    exact ⟨_, ⟨rfl, rfl, rfl⟩, rfl, Or.inr ⟨Or.inr ⟨_, rfl⟩, rfl⟩⟩

/-- What a step does. -/
theorem step_moves {a : ClockAction} (hs : s.step periodMs a = .next s') : ClockMove periodMs s s' a := by
  cases a with
  | allocSlot slot =>
    simp only [Sysclock.step, Outcome.guard_eq_next, Outcome.next.injEq] at hs
    obtain ⟨⟨hpc, -, hnew, -⟩, rfl⟩ := hs
    exact .slot slot hpc hnew rfl
  | request badge r =>
    simp only [Sysclock.step, Outcome.guard_eq_next, Outcome.ofExcept_eq_next] at hs
    obtain ⟨hpc, hs⟩ := hs
    obtain ⟨ev, hreplied⟩ := replied_of_serve hs
    exact .request badge r ev hpc hreplied
  | tick =>
    simp only [Sysclock.step, Outcome.guard_eq_next, Outcome.next.injEq] at hs
    obtain ⟨hpc, rfl⟩ := hs
    exact .tick hpc rfl
  | scan =>
    simp only [Sysclock.step, Outcome.guard_eq_next, Outcome.ofExcept_eq_next] at hs
    obtain ⟨hpc, hs⟩ := hs
    obtain ⟨⟨schedule, sig, revoked⟩, -, hs⟩ := bind_ok hs
    cases hs
    exact .scan sig hpc rfl rfl ⟨rfl, rfl, rfl⟩

end Sysclock

end Sel4Osapi
