import Mathlib.Data.List.Chain
import Sel4Osapi.EthIrq

/-!
# No interrupt is lost

The thread for the interrupts blocks only when the driver has handled every interrupt and the line is not masked: what has not
been handled is in the notification, or pending until the acknowledgement, or the thread is on its way to the driver. The
signal that the thread sends to itself makes up for interrupts that came before there was a notification.
-/

namespace Sel4Osapi

open Transition Waiting

/-- The thread is on its way to the driver. -/
def EthIrqPc.BeforeHandler : EthIrqPc → Prop
  | .send | .lock | .getTime | .handleIrq => True
  | _ => False

/-- The thread is between the driver and the acknowledgement. -/
def EthIrqPc.BeforeAck : EthIrqPc → Prop
  | .arpTmr | .ipTmr | .ack => True
  | _ => False

/-- The thread has the mutex of the interface. -/
def EthIrqPc.Locked : EthIrqPc → Prop
  | .getTime | .handleIrq | .arpTmr | .ipTmr | .ack | .unlock => True
  | _ => False

/-- How many steps the thread is from the return of the driver, at most. -/
def EthIrqPc.toHandler : EthIrqPc → Nat
  | .handleIrq => 1
  | .getTime => 2
  | .lock => 3
  | .wait => 4
  | .test => 5
  | .send | .unlock => 6
  | .ack => 7
  | .ipTmr => 8
  | .arpTmr => 9
  | .returned => 0

/-- The thread is in the code that is there with `CLEAR_BUFFERS` only. -/
def EthIrqPc.ClearsBuffers : EthIrqPc → Prop
  | .getTime | .arpTmr | .ipTmr => True
  | _ => False

/-! ## The timers of lwIP -/

/-- Readings of the clock as words, whose difference is more than an interval, are more than the interval apart. -/
theorem interval_lt_of_sub {interval : Word} {t t' : Nat} (hle : t ≤ t') (h : UInt32.ofNat t' - UInt32.ofNat t > interval) :
    t + interval.toNat < t' := by
  have h := UInt32.lt_iff_toNat_lt.mp h
  rw [UInt32.toNat_sub, UInt32.toNat_ofNat', UInt32.toNat_ofNat'] at h
  omega

/-- For every call of a timer the clock was read more than an interval after it was read for the one before, `last` is what it
was read as for the last one, and none of the calls was made after `now`. -/
structure Spaced (interval last : Word) (now : Nat) (calls : List TimerCall) : Prop where
  last : (⟨0, 0⟩ :: calls).getLast?.map (fun x => UInt32.ofNat x.read) = some last
  called : ∀ x ∈ ⟨0, 0⟩ :: calls, x.read ≤ x.called ∧ x.called ≤ now
  chain : (⟨0, 0⟩ :: calls).IsChain fun x y => x.read + interval.toNat < y.read

namespace Spaced

variable {interval last : Word} {now now' : Nat} {calls : List TimerCall}

/-- Before the first call. -/
theorem nil (interval : Word) (now : Nat) : Spaced interval 0 now [] := ⟨rfl, by simp, List.isChain_singleton _⟩

/-- The clock goes on. -/
theorem mono (h : Spaced interval last now calls) (hnow : now ≤ now') : Spaced interval last now' calls :=
  ⟨h.last, fun x hx => ⟨(h.called x hx).1, (h.called x hx).2.trans hnow⟩, h.chain⟩

/-- A call for which the clock was read at `read`, after the calls so far, and found more than an interval on. -/
theorem snoc {read : Nat} (h : Spaced interval last read calls) (hread : read ≤ now)
    (hlt : UInt32.ofNat read - last > interval) : Spaced interval (UInt32.ofNat read) now (calls ++ [⟨read, now⟩]) := by
  refine ⟨?_, ?_, ?_⟩
  · rw [← List.cons_append, List.getLast?_concat]
    rfl
  · intro x hx
    rw [← List.cons_append, List.mem_append] at hx
    rcases hx with hx | hx
    · exact ⟨(h.called x hx).1, (h.called x hx).2.trans hread⟩
    · rw [List.mem_singleton] at hx
      subst hx
      exact ⟨hread, Nat.le_refl _⟩
  · rw [← List.cons_append, List.isChain_append]
    refine ⟨h.chain, List.isChain_singleton _, ?_⟩
    intro x hx y hy
    cases hy
    have hlast := h.last
    rw [hx, Option.map_some, Option.some.injEq] at hlast
    rw [← hlast] at hlt
    have hcalled := h.called x (List.mem_of_getLast? hx)
    exact interval_lt_of_sub (hcalled.1.trans hcalled.2) hlt

/-- Each call comes more than an interval after the call before it, but for the time that had passed then since the clock was
read. -/
theorem calls_apart (h : Spaced interval last now calls) :
    (⟨0, 0⟩ :: calls).IsChain fun x y => x.called + interval.toNat < y.called + (x.called - x.read) := by
  refine h.chain.imp_of_mem_imp ?_
  intro x y hx hy hlt
  have hx := (h.called x hx).1
  have hy := (h.called y hy).1
  omega

end Spaced

namespace EthIrq

variable {cfg : EthIrqConfig} {s s' : EthIrq}

/-! ## The interrupts -/

/-- Where the interrupts are that have not been handled, and what will acknowledge the last one. -/
structure Delivers (s : EthIrq) : Prop where
  handled_le : s.handled ≤ s.raised
  pending : s.pending = true → s.masked = true
  kept : s.handled < s.raised → s.irqAep = true ∨ s.pc.BeforeHandler ∨ (s.pending = true ∧ s.pc.BeforeAck) ∨ s.pc = .returned
  masked : s.masked = true → s.irqAep = true ∨ s.pc.BeforeHandler ∨ s.pc.BeforeAck ∨ s.pc = .returned
  returned : s.pc = .returned → s.active = false

namespace Delivers

/-- The thread was just started. -/
theorem init (h : s.Init) : s.Delivers := by
  have hpc : s.pc.BeforeHandler := by
    rw [h.pc]
    trivial
  refine ⟨?_, h.pending, fun _ => Or.inr (Or.inl hpc), fun _ => Or.inr (Or.inl hpc), ?_⟩
  · rw [h.handled]
    exact Nat.zero_le _
  · intro hret
    rw [h.pc] at hret
    cases hret

/-- An interrupt comes. -/
theorem interrupt (h : s.Delivers) : s.interrupt.Delivers := by
  have hle := Nat.le_succ_of_le h.handled_le
  unfold EthIrq.interrupt
  split
  · rename_i hmasked
    refine ⟨hle, fun _ => hmasked, ?_, h.masked, h.returned⟩
    intro _
    rcases h.masked hmasked with haep | hpc | hpc | hpc
    · exact Or.inl haep
    · exact Or.inr (Or.inl hpc)
    · exact Or.inr (Or.inr (Or.inl ⟨rfl, hpc⟩))
    · exact Or.inr (Or.inr (Or.inr hpc))
  · exact ⟨hle, fun _ => rfl, fun _ => Or.inl rfl, fun _ => Or.inl rfl, h.returned⟩

/-- The thread goes on, towards the driver or the acknowledgement if it was on its way there. -/
theorem go (h : s.Delivers) (hkernel : s'.irqAep = s.irqAep ∧ s'.masked = s.masked ∧ s'.pending = s.pending)
    (hcount : s'.raised = s.raised ∧ s'.handled = s.handled) (hhandler : s.pc.BeforeHandler → s'.pc.BeforeHandler)
    (hack : s.pc.BeforeAck → s'.pc.BeforeAck) (hpc : s.pc ≠ .returned) (hreturned : s'.pc = .returned → s'.active = false) :
    s'.Delivers := by
  obtain ⟨haep, hmask, hpend⟩ := hkernel
  obtain ⟨hraised, hhandled⟩ := hcount
  refine ⟨?_, ?_, ?_, ?_, hreturned⟩
  · rw [hraised, hhandled]
    exact h.handled_le
  · rw [hpend, hmask]
    exact h.pending
  · rw [hraised, hhandled, haep, hpend]
    intro hlt
    rcases h.kept hlt with hset | hp | ⟨hset, hp⟩ | hp
    · exact Or.inl hset
    · exact Or.inr (Or.inl (hhandler hp))
    · exact Or.inr (Or.inr (Or.inl ⟨hset, hack hp⟩))
    · exact absurd hp hpc
  · rw [hmask, haep]
    intro hm
    rcases h.masked hm with hset | hp | hp | hp
    · exact Or.inl hset
    · exact Or.inr (Or.inl (hhandler hp))
    · exact Or.inr (Or.inr (Or.inl (hack hp)))
    · exact absurd hp hpc

/-- The thread takes a step. -/
theorem thread (h : s.Delivers) {settled : Bool} (hs : s.threadStep cfg settled = .next s') : s'.Delivers := by
  unfold threadStep at hs
  cases hpc : s.pc <;> simp only [hpc] at hs
  case send =>
    cases hs
    exact ⟨h.handled_le, h.pending, fun _ => Or.inl rfl, fun _ => Or.inl rfl, nofun⟩
  case test =>
    cases hs
    refine h.go ⟨rfl, rfl, rfl⟩ ⟨rfl, rfl⟩ ?_ ?_ (by simp [hpc]) ?_
    · simp [hpc, EthIrqPc.BeforeHandler]
    · simp [hpc, EthIrqPc.BeforeAck]
    · cases hactive : s.active <;> simp
  case wait =>
    obtain ⟨-, hs⟩ := Outcome.guard_eq_next.mp hs
    cases hs
    exact ⟨h.handled_le, h.pending, fun _ => Or.inr (Or.inl trivial), fun _ => Or.inr (Or.inl trivial), nofun⟩
  case lock =>
    split at hs
    · cases hs
    · cases hs
      refine h.go ⟨rfl, rfl, rfl⟩ ⟨rfl, rfl⟩ ?_ ?_ (by simp [hpc]) ?_
      · cases cfg.clearBuffers <;> exact fun _ => trivial
      · simp [hpc, EthIrqPc.BeforeAck]
      · cases cfg.clearBuffers <;> simp
  case getTime =>
    cases hs
    exact h.go ⟨rfl, rfl, rfl⟩ ⟨rfl, rfl⟩ (fun _ => trivial) (by simp [hpc, EthIrqPc.BeforeAck]) (by simp [hpc]) nofun
  case handleIrq =>
    cases hs
    -- everything there was is handled
    have hack : (if cfg.clearBuffers = true then EthIrqPc.arpTmr else EthIrqPc.ack).BeforeAck := by
      split <;> trivial
    refine ⟨Nat.le_refl _, ?_, fun hlt => absurd hlt (Nat.lt_irrefl _), fun _ => Or.inr (Or.inr (Or.inl hack)), ?_⟩
    · intro hp
      exact h.pending (Bool.and_eq_true_iff.mp hp).1
    · cases cfg.clearBuffers <;> simp
  case arpTmr =>
    split at hs <;> cases hs <;>
      exact h.go ⟨rfl, rfl, rfl⟩ ⟨rfl, rfl⟩ (by simp [hpc, EthIrqPc.BeforeHandler]) (fun _ => trivial) (by simp [hpc]) nofun
  case ipTmr =>
    split at hs <;> cases hs <;>
      exact h.go ⟨rfl, rfl, rfl⟩ ⟨rfl, rfl⟩ (by simp [hpc, EthIrqPc.BeforeHandler]) (fun _ => trivial) (by simp [hpc]) nofun
  case ack =>
    cases hs
    unfold irqHandlerAck
    split
    · exact ⟨h.handled_le, fun _ => rfl, fun _ => Or.inl rfl, fun _ => Or.inl rfl, nofun⟩
    · rename_i hp
      refine ⟨h.handled_le, fun hset => absurd hset hp, ?_, nofun, nofun⟩
      intro hlt
      have hkept := h.kept hlt
      simp only [hpc, hp, EthIrqPc.BeforeHandler, false_and, reduceCtorEq, or_false] at hkept
      exact Or.inl hkept
  case unlock =>
    cases hs
    exact h.go ⟨rfl, rfl, rfl⟩ ⟨rfl, rfl⟩ (by simp [hpc, EthIrqPc.BeforeHandler]) (by simp [hpc, EthIrqPc.BeforeAck]) (by simp [hpc]) nofun
  case returned => cases hs

/-- Every step. -/
theorem step (h : s.Delivers) {a : EthIrqAction} (hs : s.step cfg a = .next s') : s'.Delivers := by
  cases a with
  | interrupt =>
    cases hs
    exact h.interrupt
  | thread settled => exact h.thread hs
  | lock t =>
    simp only [EthIrq.step] at hs
    split at hs
    · cases hs
    · cases hs
      exact ⟨h.handled_le, h.pending, h.kept, h.masked, h.returned⟩
  | unlock t =>
    cases hs
    exact ⟨h.handled_le, h.pending, h.kept, h.masked, h.returned⟩
  | tick ms =>
    cases hs
    exact ⟨h.handled_le, h.pending, h.kept, h.masked, h.returned⟩
  | stop =>
    cases hs
    exact ⟨h.handled_le, h.pending, h.kept, h.masked, fun _ => rfl⟩

end Delivers

/-! ## The mutex of the interface -/

/-- The thread has the mutex of the interface between its lock and its unlock, and then only. -/
structure Locks (s : EthIrq) : Prop where
  locked : s.pc.Locked → s.mutex = { owner := some none, count := 1 }
  free : ¬ s.pc.Locked → s.mutex.owner ≠ some none

namespace Locks

/-- The thread was just started. -/
theorem init (h : s.Init) : s.Locks := by
  refine ⟨?_, ?_⟩
  · rw [h.pc]
    exact nofun
  · rw [h.mutex]
    simp [RecursiveMutex.free]

/-- The thread goes on, and neither locks nor unlocks. -/
theorem go (h : s.Locks) (hmutex : s'.mutex = s.mutex) (hpc : s'.pc.Locked ↔ s.pc.Locked) : s'.Locks := by
  refine ⟨?_, ?_⟩
  · rw [hpc, hmutex]
    exact h.locked
  · rw [hpc, hmutex]
    exact h.free

/-- The thread takes a step. -/
theorem thread (h : s.Locks) {settled : Bool} (hs : s.threadStep cfg settled = .next s') : s'.Locks := by
  unfold threadStep at hs
  cases hpc : s.pc <;> simp only [hpc] at hs
  case test =>
    cases hs
    refine h.go rfl ?_
    cases hactive : s.active <;> simp [hpc, EthIrqPc.Locked]
  case lock =>
    have howner := h.free (by simp [hpc, EthIrqPc.Locked])
    split at hs
    · cases hs
    · rename_i m hm
      cases hs
      have hlocked : m = { owner := some none, count := 1 } := by
        unfold RecursiveMutex.lock at hm
        split at hm
        · cases hm
          rfl
        · rename_i u hu
          split at hm
          · rename_i hnone
            exact absurd (hnone ▸ hu) howner
          · cases hm
      refine ⟨fun _ => hlocked, fun hnot => absurd ?_ hnot⟩
      cases cfg.clearBuffers <;> trivial
  case unlock =>
    have hlocked := h.locked (by rw [hpc]; trivial)
    cases hs
    refine ⟨nofun, fun _ => ?_⟩
    dsimp only
    rw [hlocked]
    simp [RecursiveMutex.unlock, RecursiveMutex.free]
  case wait =>
    obtain ⟨-, hs⟩ := Outcome.guard_eq_next.mp hs
    cases hs
    exact h.go rfl (by simp [hpc, EthIrqPc.Locked])
  case handleIrq =>
    cases hs
    refine h.go rfl ?_
    cases cfg.clearBuffers <;> simp [hpc, EthIrqPc.Locked]
  case arpTmr | ipTmr => split at hs <;> cases hs <;> exact h.go rfl (by simp [hpc, EthIrqPc.Locked])
  case ack =>
    cases hs
    refine h.go ?_ (by simp [hpc, EthIrqPc.Locked])
    unfold irqHandlerAck
    split <;> rfl
  case send | getTime =>
    cases hs
    exact h.go rfl (by simp [hpc, EthIrqPc.Locked])
  case returned => cases hs

/-- Every step. -/
theorem step (h : s.Locks) {a : EthIrqAction} (hs : s.step cfg a = .next s') : s'.Locks := by
  cases a with
  | interrupt =>
    cases hs
    unfold EthIrq.interrupt
    split <;> exact h.go rfl Iff.rfl
  | thread settled => exact h.thread hs
  | lock t =>
    simp only [EthIrq.step] at hs
    split at hs
    · cases hs
    · rename_i m hm
      cases hs
      refine ⟨?_, ?_⟩
      · intro hpc
        rw [h.locked hpc] at hm
        simp [RecursiveMutex.lock] at hm
      · intro hpc
        unfold RecursiveMutex.lock at hm
        split at hm
        · cases hm
          simp
        · rename_i u hu
          split at hm
          · rename_i hut
            cases hm
            simp [hu, hut]
          · cases hm
  | unlock t =>
    cases hs
    refine ⟨?_, ?_⟩
    · intro hpc
      dsimp only
      rw [h.locked hpc]
      simp [RecursiveMutex.unlock]
    · intro hpc
      have howner := h.free hpc
      dsimp only
      unfold RecursiveMutex.unlock RecursiveMutex.free
      split
      · split <;> simp_all
      · exact howner
  | tick ms =>
    cases hs
    exact h.go rfl Iff.rfl
  | stop =>
    cases hs
    exact h.go rfl Iff.rfl

end Locks

/-! ## The timers -/

/-- The calls of the timers are in order, and what the thread has computed is how long ago the clock was read for the last
ones. -/
structure Timed (cfg : EthIrqConfig) (s : EthIrq) : Prop where
  arp : Spaced cfg.arpTmrInterval s.lastCheckedArpT s.clock s.arpTmrs
  ip : Spaced cfg.ipTmrInterval s.lastCheckedIpT s.clock s.ipTmrs
  clearBuffers : s.pc.ClearsBuffers → cfg.clearBuffers = true
  read : cfg.clearBuffers = true → s.pc = .handleIrq ∨ s.pc = .arpTmr ∨ s.pc = .ipTmr →
    s.read ≤ s.clock ∧ s.currentTime = UInt32.ofNat s.read
  elapsedArp : cfg.clearBuffers = true → s.pc = .handleIrq ∨ s.pc = .arpTmr →
    s.elapsedArpT = s.currentTime - s.lastCheckedArpT ∧ Spaced cfg.arpTmrInterval s.lastCheckedArpT s.read s.arpTmrs
  elapsedIp : cfg.clearBuffers = true → s.pc = .handleIrq ∨ s.pc = .arpTmr ∨ s.pc = .ipTmr →
    s.elapsedIpT = s.currentTime - s.lastCheckedIpT ∧ Spaced cfg.ipTmrInterval s.lastCheckedIpT s.read s.ipTmrs

namespace Timed

/-- The thread was just started. -/
theorem init (h : s.Init) : s.Timed cfg := by
  refine ⟨?_, ?_, ?_, ?_, ?_, ?_⟩
  · rw [h.lastCheckedArpT, h.arpTmrs]
    exact .nil _ _
  · rw [h.lastCheckedIpT, h.ipTmrs]
    exact .nil _ _
  · rw [h.pc]
    exact nofun
  · simp [h.pc]
  · simp [h.pc]
  · simp [h.pc]

/-- The thread goes on to a place before it reads the clock. -/
theorem go (h : s.Timed cfg) (hclock : s'.clock = s.clock)
    (harp : s'.lastCheckedArpT = s.lastCheckedArpT ∧ s'.arpTmrs = s.arpTmrs)
    (hip : s'.lastCheckedIpT = s.lastCheckedIpT ∧ s'.ipTmrs = s.ipTmrs) (hclear : s'.pc.ClearsBuffers → cfg.clearBuffers = true)
    (hpc : cfg.clearBuffers = true → s'.pc ≠ .handleIrq ∧ s'.pc ≠ .arpTmr ∧ s'.pc ≠ .ipTmr) : s'.Timed cfg := by
  have hnone : cfg.clearBuffers = true → ¬ (s'.pc = .handleIrq ∨ s'.pc = .arpTmr ∨ s'.pc = .ipTmr) := by
    intro hcfg hp
    obtain ⟨h₁, h₂, h₃⟩ := hpc hcfg
    exact (hp.elim h₁ fun hp => hp.elim h₂ h₃).elim
  refine ⟨?_, ?_, hclear, fun hcfg hp => absurd hp (hnone hcfg), ?_, fun hcfg hp => absurd hp (hnone hcfg)⟩
  · rw [harp.1, harp.2, hclock]
    exact h.arp
  · rw [hip.1, hip.2, hclock]
    exact h.ip
  · intro hcfg hp
    exact absurd (hp.imp_right Or.inl) (hnone hcfg)

/-- The thread takes a step. -/
theorem thread (h : s.Timed cfg) {settled : Bool} (hs : s.threadStep cfg settled = .next s') : s'.Timed cfg := by
  unfold threadStep at hs
  cases hpc : s.pc <;> simp only [hpc] at hs
  case send | unlock =>
    cases hs
    exact h.go rfl ⟨rfl, rfl⟩ ⟨rfl, rfl⟩ nofun (by simp)
  case test =>
    cases hs
    refine h.go rfl ⟨rfl, rfl⟩ ⟨rfl, rfl⟩ ?_ ?_ <;> cases s.active <;> simp [EthIrqPc.ClearsBuffers]
  case wait =>
    obtain ⟨-, hs⟩ := Outcome.guard_eq_next.mp hs
    cases hs
    exact h.go rfl ⟨rfl, rfl⟩ ⟨rfl, rfl⟩ nofun (by simp)
  case lock =>
    split at hs
    · cases hs
    · cases hs
      refine h.go rfl ⟨rfl, rfl⟩ ⟨rfl, rfl⟩ ?_ ?_ <;> cases hclear : cfg.clearBuffers <;> simp [EthIrqPc.ClearsBuffers]
  case getTime =>
    cases hs
    -- the calls so far were made by now
    exact ⟨h.arp, h.ip, nofun, fun _ _ => ⟨Nat.le_refl _, rfl⟩, fun _ _ => ⟨rfl, h.arp⟩, fun _ _ => ⟨rfl, h.ip⟩⟩
  case handleIrq =>
    cases hs
    refine ⟨h.arp, h.ip, ?_, ?_, ?_, ?_⟩
    · cases hclear : cfg.clearBuffers <;> simp [EthIrqPc.ClearsBuffers]
    · exact fun hcfg _ => h.read hcfg (Or.inl hpc)
    · exact fun hcfg _ => h.elapsedArp hcfg (Or.inl hpc)
    · exact fun hcfg _ => h.elapsedIp hcfg (Or.inl hpc)
  case arpTmr =>
    have hcfg := h.clearBuffers (by rw [hpc]; trivial)
    have hread := h.read hcfg (Or.inr (Or.inl hpc))
    have hip := h.elapsedIp hcfg (Or.inr (Or.inl hpc))
    obtain ⟨helapsed, harp⟩ := h.elapsedArp hcfg (Or.inr hpc)
    split at hs
    · rename_i hlt
      cases hs
      rw [helapsed, hread.2] at hlt
      refine ⟨?_, h.ip, fun _ => hcfg, fun _ _ => hread, by simp, fun _ _ => hip⟩
      dsimp only
      rw [hread.2]
      exact harp.snoc hread.1 hlt
    · cases hs
      exact ⟨h.arp, h.ip, fun _ => hcfg, fun _ _ => hread, by simp, fun _ _ => hip⟩
  case ipTmr =>
    have hcfg := h.clearBuffers (by rw [hpc]; trivial)
    have hread := h.read hcfg (Or.inr (Or.inr hpc))
    obtain ⟨helapsed, hip⟩ := h.elapsedIp hcfg (Or.inr (Or.inr hpc))
    split at hs
    · rename_i hlt
      cases hs
      rw [helapsed, hread.2] at hlt
      refine ⟨h.arp, ?_, nofun, by simp, by simp, by simp⟩
      dsimp only
      rw [hread.2]
      exact hip.snoc hread.1 hlt
    · cases hs
      exact h.go rfl ⟨rfl, rfl⟩ ⟨rfl, rfl⟩ nofun (by simp)
  case ack =>
    cases hs
    unfold irqHandlerAck
    split <;> exact h.go rfl ⟨rfl, rfl⟩ ⟨rfl, rfl⟩ nofun (by simp)
  case returned => cases hs

/-- Every step. -/
theorem step (h : s.Timed cfg) {a : EthIrqAction} (hs : s.step cfg a = .next s') : s'.Timed cfg := by
  cases a with
  | interrupt =>
    cases hs
    unfold EthIrq.interrupt
    split <;> exact ⟨h.arp, h.ip, h.clearBuffers, h.read, h.elapsedArp, h.elapsedIp⟩
  | thread settled => exact h.thread hs
  | lock t =>
    simp only [EthIrq.step] at hs
    split at hs
    · cases hs
    · cases hs
      exact ⟨h.arp, h.ip, h.clearBuffers, h.read, h.elapsedArp, h.elapsedIp⟩
  | unlock t | stop =>
    cases hs
    exact ⟨h.arp, h.ip, h.clearBuffers, h.read, h.elapsedArp, h.elapsedIp⟩
  | tick ms =>
    cases hs
    have hle : s.clock ≤ s.clock + ms.toNat := Nat.le_add_right _ _
    refine ⟨h.arp.mono hle, h.ip.mono hle, h.clearBuffers, ?_, h.elapsedArp, h.elapsedIp⟩
    intro hcfg hp
    exact ⟨(h.read hcfg hp).1.trans hle, (h.read hcfg hp).2⟩

end Timed

/-! ## The driver is called -/

variable (cfg) in
/-- While there is an interrupt to handle and no other thread has the mutex, every step of the thread brings it nearer to the
driver. -/
theorem nearer (hd : s.Delivers) (hl : s.Locks) (hactive : s.active = true) (hfree : ∀ t, s.mutex.owner ≠ some (some t))
    (hlt : s.handled < s.raised) (settled : Bool) : ∃ s', s.threadStep cfg settled = .next s' ∧ s'.raised = s.raised ∧
      (s'.handled = s'.raised ∨ s'.active = true ∧ (∀ t, s'.mutex.owner ≠ some (some t)) ∧ s'.handled = s.handled ∧
        s'.pc.toHandler < s.pc.toHandler) := by
  unfold threadStep
  cases hpc : s.pc
  case send => exact ⟨_, rfl, rfl, Or.inr ⟨hactive, hfree, rfl, by simp [EthIrqPc.toHandler]⟩⟩
  case test =>
    refine ⟨_, rfl, rfl, Or.inr ⟨hactive, hfree, rfl, ?_⟩⟩
    simp [hactive, EthIrqPc.toHandler]
  case wait =>
    have hset := hd.kept hlt
    simp only [hpc, EthIrqPc.BeforeHandler, EthIrqPc.BeforeAck, reduceCtorEq, and_false, or_false] at hset
    exact ⟨_, Outcome.guard_eq_next.mpr ⟨hset, rfl⟩, rfl, Or.inr ⟨hactive, hfree, rfl, by simp [EthIrqPc.toHandler]⟩⟩
  case lock =>
    have hnone : s.mutex.owner = none := by
      cases howner : s.mutex.owner with
      | none => rfl
      | some u =>
        cases u with
        | none => exact absurd howner (hl.free (by simp [hpc, EthIrqPc.Locked]))
        | some t => exact absurd howner (hfree t)
    have hlock : s.mutex.lock none = some { owner := some none, count := 1 } := by
      unfold RecursiveMutex.lock
      rw [hnone]
    dsimp only
    rw [hlock]
    refine ⟨_, rfl, rfl, Or.inr ⟨hactive, by simp, rfl, ?_⟩⟩
    cases cfg.clearBuffers <;> simp [EthIrqPc.toHandler]
  case getTime => exact ⟨_, rfl, rfl, Or.inr ⟨hactive, hfree, rfl, by simp [EthIrqPc.toHandler]⟩⟩
  case handleIrq => exact ⟨_, rfl, rfl, Or.inl rfl⟩
  case arpTmr =>
    dsimp only
    split <;> exact ⟨_, rfl, rfl, Or.inr ⟨hactive, hfree, rfl, by simp [EthIrqPc.toHandler]⟩⟩
  case ipTmr =>
    dsimp only
    split <;> exact ⟨_, rfl, rfl, Or.inr ⟨hactive, hfree, rfl, by simp [EthIrqPc.toHandler]⟩⟩
  case ack =>
    dsimp only
    unfold irqHandlerAck
    split <;> exact ⟨_, rfl, rfl, Or.inr ⟨hactive, hfree, rfl, by simp [EthIrqPc.toHandler]⟩⟩
  case unlock =>
    refine ⟨_, rfl, rfl, Or.inr ⟨hactive, ?_, rfl, by simp [EthIrqPc.toHandler]⟩⟩
    rw [hl.locked (by rw [hpc]; trivial)]
    simp [RecursiveMutex.unlock, RecursiveMutex.free]
  case returned =>
    have hstopped := hd.returned hpc
    rw [hactive] at hstopped
    cases hstopped

variable (cfg) in
/-- An interrupt is handled within this many steps of the thread, if no other thread has the mutex. -/
theorem exists_handled (hd : s.Delivers) (hl : s.Locks) (hactive : s.active = true) (hfree : ∀ t, s.mutex.owner ≠ some (some t))
    (hlt : s.handled < s.raised) (settled : Bool) : ∃ n ≤ s.pc.toHandler, ∃ s',
      (ethIrqMachine cfg).exec s (List.replicate n (.thread settled)) = some s' ∧ s'.handled = s'.raised ∧ s'.raised = s.raised := by
  generalize hsteps : s.pc.toHandler = steps
  induction steps using Nat.strong_induction_on generalizing s with
  | _ steps ih =>
    obtain ⟨s₁, hs₁, hraised, hcase⟩ := nearer cfg hd hl hactive hfree hlt settled
    have hstep : (ethIrqMachine cfg).step s (.thread settled) = .next s₁ := hs₁
    rcases hcase with hdone | ⟨hactive₁, hfree₁, hhandled, hnear⟩
    · refine ⟨1, ?_, s₁, Machine.exec_singleton hstep, hdone, hraised⟩
      cases hpc : s.pc <;> simp only [hpc, EthIrqPc.toHandler] at hsteps <;> try omega
      have hstopped := hd.returned hpc
      rw [hactive] at hstopped
      cases hstopped
    · obtain ⟨n, hn, s', hexec, hdone, hraised'⟩ := ih _ (hsteps ▸ hnear) (hd.thread hs₁) (hl.thread hs₁) hactive₁ hfree₁
        (by rw [hhandled, hraised]; exact hlt) rfl
      refine ⟨n + 1, by omega, s', ?_, hdone, hraised'.trans hraised⟩
      rw [List.replicate_succ, Machine.exec_cons hstep]
      exact hexec

end EthIrq

/-- In every run, whatever interrupts came before the thread was started:
1. when the thread blocks in its wait, the driver has handled every interrupt, the line is not masked and nothing is pending;
2. an interrupt that has not been handled is handled within nine steps of the thread, as long as that has not been stopped and
no other thread has the mutex of the interface;
3. the driver and the timers of lwIP are called, and interrupts acknowledged, with that mutex locked;
4. each call of a timer comes more than its interval after the call before it, but for the time that had passed then since the
clock was read: the clock is read before the driver is called, and the timers after it. -/
theorem eth_irq_none_lost (cfg : EthIrqConfig) (s : EthIrq) (hr : (ethIrqMachine cfg).Reachable s) :
    (s.pc = .wait → s.irqAep = false → s.handled = s.raised ∧ s.masked = false ∧ s.pending = false) ∧
    (s.active = true → (∀ t, s.mutex.owner ≠ some (some t)) → s.handled < s.raised → ∀ settled, ∃ n ≤ 9, ∃ s',
      (ethIrqMachine cfg).exec s (List.replicate n (.thread settled)) = some s' ∧ s'.handled = s'.raised ∧ s'.raised = s.raised) ∧
    (s.pc.Locked → s.mutex.owner = some none) ∧
    ((⟨0, 0⟩ :: s.arpTmrs).IsChain fun x y => x.called + cfg.arpTmrInterval.toNat < y.called + (x.called - x.read)) ∧
    (⟨0, 0⟩ :: s.ipTmrs).IsChain fun x y => x.called + cfg.ipTmrInterval.toNat < y.called + (x.called - x.read) := by
  obtain ⟨hd, hl, ht⟩ : s.Delivers ∧ s.Locks ∧ s.Timed cfg := by
    refine hr.invariant (P := fun s => s.Delivers ∧ s.Locks ∧ s.Timed cfg) ?_ ?_
    · intro s hi
      exact ⟨.init hi, .init hi, .init hi⟩
    · intro s a s' _ ⟨hd, hl, ht⟩ hs
      exact ⟨hd.step hs, hl.step hs, ht.step hs⟩
  refine ⟨?_, ?_, ?_, ht.arp.calls_apart, ht.ip.calls_apart⟩
  · intro hpc haep
    have hkept := hd.kept
    have hmasked := hd.masked
    simp only [hpc, haep, EthIrqPc.BeforeHandler, EthIrqPc.BeforeAck, reduceCtorEq, Bool.false_eq_true, and_false, or_false,
      imp_false, Bool.not_eq_true] at hkept hmasked
    refine ⟨Nat.le_antisymm hd.handled_le (Nat.le_of_not_lt hkept), hmasked, ?_⟩
    cases hp : s.pending with
    | false => rfl
    | true =>
      rw [hd.pending hp] at hmasked
      cases hmasked
  · intro hactive hfree hlt settled
    obtain ⟨n, hn, hrun⟩ := EthIrq.exists_handled cfg hd hl hactive hfree hlt settled
    refine ⟨n, hn.trans ?_, hrun⟩
    cases s.pc <;> decide
  · intro hpc
    rw [hl.locked hpc]

/-- The thread was just started, after one interrupt that the kernel could not deliver and that has left the line masked. -/
def undelivered : EthIrq where
  pc := .send
  active := true
  irqAep := false
  masked := true
  pending := false
  mutex := RecursiveMutex.free
  clock := 0
  read := 0
  currentTime := 0
  elapsedIpT := 0
  elapsedArpT := 0
  lastCheckedIpT := 0
  lastCheckedArpT := 0
  raised := 1
  handled := 0
  arpTmrs := []
  ipTmrs := []

/-- The interrupt before `undelivered` is handled. -/
theorem eth_irq_none_lost_undelivered : (ethIrqMachine ⟨true, 5000, 1000⟩).Reachable undelivered ∧
    ∃ n ≤ 9, ∃ s', (ethIrqMachine ⟨true, 5000, 1000⟩).exec undelivered (List.replicate n (.thread false)) = some s' ∧
      s'.handled = 1 := by
  have hr : (ethIrqMachine ⟨true, 5000, 1000⟩).Reachable undelivered :=
    .init ⟨rfl, rfl, rfl, nofun, rfl, rfl, rfl, rfl, rfl, rfl⟩
  have hmain := eth_irq_none_lost ⟨true, 5000, 1000⟩ undelivered hr
  obtain ⟨n, hn, s', hexec, hdone, hraised⟩ := hmain.2.1 rfl (fun _ => nofun) (by decide) false
  exact ⟨hr, n, hn, s', hexec, hdone.trans hraised⟩

end Sel4Osapi
