import Mathlib.Init

/-!
# Transition systems

A machine is a set of initial states and a step function: an action attempted in a state is blocked, faults, or goes on to a
next state. The order of the actions is free, so the actions of a run are an interleaving of whatever the machine's threads do.
`Machine.Reachable.invariant` is the rule of invariants, `Machine.Reachable.safe` the rule of safety and
`Machine.Reachable.simulated` the rule of simulation.
-/

namespace Transition

/-- What comes of an action attempted in a state. -/
inductive Outcome (φ σ : Type*) where
  | blocked
  | fault (f : φ)
  | next (s : σ)

/-- The outcome of a computation that may fail. -/
def Outcome.ofExcept {φ σ : Type*} : Except φ σ → Outcome φ σ
  | .ok s => .next s
  | .error f => .fault f

/-- An outcome followed by a step that cannot be blocked or fail. -/
def Outcome.map {φ σ τ : Type*} (f : σ → τ) : Outcome φ σ → Outcome φ τ
  | .blocked => .blocked
  | .fault e => .fault e
  | .next s => .next (f s)

/-- The action is attempted only under a condition. -/
def Outcome.guard {φ σ : Type*} (c : Prop) [Decidable c] (o : Outcome φ σ) : Outcome φ σ :=
  if c then o else .blocked

@[simp] theorem Outcome.guard_eq_next {φ σ : Type*} {c : Prop} [Decidable c] {o : Outcome φ σ} {s : σ} :
    Outcome.guard c o = .next s ↔ c ∧ o = .next s := by
  unfold Outcome.guard
  split <;> simp_all

@[simp] theorem Outcome.guard_eq_fault {φ σ : Type*} {c : Prop} [Decidable c] {o : Outcome φ σ} {f : φ} :
    Outcome.guard c o = .fault f ↔ c ∧ o = .fault f := by
  unfold Outcome.guard
  split <;> simp_all

@[simp] theorem Outcome.ofExcept_eq_next {φ σ : Type*} {x : Except φ σ} {s : σ} :
    Outcome.ofExcept x = .next s ↔ x = .ok s := by
  cases x <;> simp [Outcome.ofExcept]

@[simp] theorem Outcome.ofExcept_eq_fault {φ σ : Type*} {x : Except φ σ} {f : φ} :
    Outcome.ofExcept x = .fault f ↔ x = .error f := by
  cases x <;> simp [Outcome.ofExcept]

@[simp] theorem Outcome.ofExcept_ne_blocked {φ σ : Type*} {x : Except φ σ} : Outcome.ofExcept x ≠ .blocked := by
  cases x <;> simp [Outcome.ofExcept]

@[simp] theorem Outcome.map_eq_next {φ σ τ : Type*} {g : σ → τ} {o : Outcome φ σ} {t : τ} :
    o.map g = .next t ↔ ∃ s, o = .next s ∧ g s = t := by
  cases o <;> simp [Outcome.map]

/-- The initial states and the steps of a system with states `σ`, actions `α` and faults `φ`. -/
structure Machine (φ σ α : Type*) where
  init : σ → Prop
  step : σ → α → Outcome φ σ

namespace Machine

variable {φ σ α : Type*} {M : Machine φ σ α}

/-- The states a machine can reach, by any sequence of actions. -/
inductive Reachable (M : Machine φ σ α) : σ → Prop where
  | init {s : σ} : M.init s → Reachable M s
  | step {s s' : σ} (a : α) : Reachable M s → M.step s a = .next s' → Reachable M s'

/-- What holds initially and is kept by every step from a reachable state holds of every reachable state. -/
theorem Reachable.invariant {P : σ → Prop} (h₀ : ∀ s, M.init s → P s)
    (hs : ∀ s a s', M.Reachable s → P s → M.step s a = .next s' → P s') {s : σ} (h : M.Reachable s) : P s := by
  induction h with
  | init hi => exact h₀ _ hi
  | step a hr hst ih => exact hs _ a _ hr ih hst

/-- The rule of safety: when every action from a state with `P` is blocked or goes on to a state with `P`, every reachable state
has `P` and no action faults there. -/
theorem Reachable.safe {P : σ → Prop} (h₀ : ∀ s, M.init s → P s)
    (hs : ∀ s a, P s → M.step s a = .blocked ∨ ∃ s', M.step s a = .next s' ∧ P s') {s : σ} (h : M.Reachable s) :
    P s ∧ ∀ a f, M.step s a ≠ .fault f := by
  have hP : P s := by
    refine h.invariant h₀ ?_
    intro s a s' _ hP hst
    rcases hs s a hP with hb | ⟨s'', hs'', hP'⟩
    · rw [hst] at hb
      cases hb
    · rw [hst] at hs''
      cases hs''
      exact hP'
  refine ⟨hP, ?_⟩
  intro a f hf
  rcases hs s a hP with hb | ⟨s', hs', _⟩
  · rw [hf] at hb
    cases hb
  · rw [hf] at hs'
    cases hs'

/-- The states a machine can reach by actions that meet a condition in the state they are taken in. -/
inductive ReachableVia (M : Machine φ σ α) (ok : σ → α → Prop) : σ → Prop where
  | init {s : σ} : M.init s → ReachableVia M ok s
  | step {s s' : σ} (a : α) : ReachableVia M ok s → ok s a → M.step s a = .next s' → ReachableVia M ok s'

/-- The rule of invariants for the runs whose actions meet a condition. -/
theorem ReachableVia.invariant {ok : σ → α → Prop} {P : σ → Prop} (h₀ : ∀ s, M.init s → P s)
    (hs : ∀ s a s', P s → ok s a → M.step s a = .next s' → P s') {s : σ} (h : M.ReachableVia ok s) : P s := by
  induction h with
  | init hi => exact h₀ _ hi
  | step a _ hok hst ih => exact hs _ a _ ih hok hst

/-- The condition does not add states. -/
theorem ReachableVia.reachable {ok : σ → α → Prop} {s : σ} (h : M.ReachableVia ok s) : M.Reachable s := by
  induction h with
  | init hi => exact .init hi
  | step a _ _ hst ih => exact ih.step a hst

/-- A run of a machine with fewer initial states and a stronger condition is a run of the other one. -/
theorem ReachableVia.mono {M' : Machine φ σ α} {ok ok' : σ → α → Prop} (h₀ : ∀ s, M.init s → M'.init s) (hstep : M.step = M'.step)
    (hok : ∀ s a, ok s a → ok' s a) {s : σ} (h : M.ReachableVia ok s) : M'.ReachableVia ok' s := by
  induction h with
  | init hi => exact .init (h₀ _ hi)
  | step a _ hoka hst ih => exact ih.step a (hok _ a hoka) (hstep ▸ hst)

/-- The machine with a history variable: it starts at `g₀`, every step updates it, and no step looks at it. -/
def recorded (M : Machine φ σ α) {γ : Type*} (g₀ : γ) (record : γ → σ → α → γ) : Machine φ (σ × γ) α where
  init x := M.init x.1 ∧ x.2 = g₀
  step x a := (M.step x.1 a).map fun s => (s, record x.2 x.1 a)

section recorded

variable {γ : Type*} {g₀ : γ} {record : γ → σ → α → γ}

/-- A step of the recorded machine is a step of the machine. -/
theorem recorded_step {x x' : σ × γ} {a : α} :
    (M.recorded g₀ record).step x a = .next x' ↔ M.step x.1 a = .next x'.1 ∧ x'.2 = record x.2 x.1 a := by
  obtain ⟨s', g'⟩ := x'
  simp only [recorded, Outcome.map_eq_next, Prod.mk.injEq]
  constructor
  · rintro ⟨s, hs, rfl, rfl⟩
    exact ⟨hs, rfl⟩
  · rintro ⟨hs, rfl⟩
    exact ⟨s', hs, rfl, rfl⟩

/-- The history does not add states. -/
theorem Reachable.of_recorded {x : σ × γ} (h : (M.recorded g₀ record).Reachable x) : M.Reachable x.1 := by
  induction h with
  | init hi => exact .init hi.1
  | step a _ hst ih => exact ih.step a (recorded_step.mp hst).1

/-- The history does not add states to those reached by actions that meet a condition. -/
theorem ReachableVia.of_recorded {ok : σ → α → Prop} {x : σ × γ}
    (h : (M.recorded g₀ record).ReachableVia (fun x a => ok x.1 a) x) : M.ReachableVia ok x.1 := by
  induction h with
  | init hi => exact .init hi.1
  | step a _ hok hst ih => exact ih.step a hok (recorded_step.mp hst).1

end recorded

/-- The state after a sequence of actions, none of them blocked and none of them a fault. -/
def exec (M : Machine φ σ α) (s : σ) : List α → Option σ
  | [] => some s
  | a :: as =>
    match M.step s a with
    | .next s' => M.exec s' as
    | _ => none

/-- A run goes on from its first step. -/
theorem exec_cons {s s' : σ} {a : α} (h : M.step s a = .next s') (as : List α) : M.exec s (a :: as) = M.exec s' as := by
  rw [exec, h]

/-- A run of one step. -/
theorem exec_singleton {s s' : σ} {a : α} (h : M.step s a = .next s') : M.exec s [a] = some s' := exec_cons h []

/-- A run goes on from where its first part has got to. -/
theorem exec_append {s s₁ : σ} {as : List α} (h : M.exec s as = some s₁) (bs : List α) : M.exec s (as ++ bs) = M.exec s₁ bs := by
  induction as generalizing s with
  | nil =>
    cases h
    rfl
  | cons a as ih =>
    unfold exec at h
    split at h
    · rename_i s' hs'
      rw [List.cons_append, exec, hs']
      exact ih h
    · cases h

/-- A sequence of actions that ends in a state with a property begins with a step. -/
theorem exists_step_of_exec {s : σ} {a : α} {as : List α} {P : σ → Bool} (h : (M.exec s (a :: as)).any P = true) :
    ∃ s', M.step s a = .next s' ∧ (M.exec s' as).any P = true := by
  unfold Machine.exec at h
  split at h
  · rename_i s' hs'
    exact ⟨s', hs', h⟩
  · simp at h

/-- A sequence of actions from a reachable state ends in a reachable state. -/
theorem Reachable.exec {s s' : σ} {as : List α} (h : M.Reachable s) (hs : M.exec s as = some s') : M.Reachable s' := by
  induction as generalizing s with
  | nil =>
    cases hs
    exact h
  | cons a as ih =>
    unfold Machine.exec at hs
    split at hs
    · rename_i s₁ hs₁
      exact ih (h.step a hs₁) hs
    · cases hs

/-- A reachable state with a property that can be computed, at the end of a sequence of actions. -/
theorem Reachable.exists_of_exec {s : σ} (h : M.Reachable s) (as : List α) (P : σ → Bool) (hs : (M.exec s as).any P = true) :
    ∃ s', M.Reachable s' ∧ P s' = true := by
  cases he : M.exec s as with
  | none => simp [he] at hs
  | some s' => exact ⟨s', h.exec he, by simpa [he] using hs⟩

/-- Some run leads from one state to the other. -/
def Leads (M : Machine φ σ α) (s s' : σ) : Prop := ∃ as, M.exec s as = some s'

namespace Leads

/-- No step. -/
theorem refl (s : σ) : M.Leads s s := ⟨[], rfl⟩

/-- A step, and a run from there. -/
theorem head {s s₁ s' : σ} (a : α) (hst : M.step s a = .next s₁) (h : M.Leads s₁ s') : M.Leads s s' := by
  obtain ⟨as, has⟩ := h
  exact ⟨a :: as, (exec_cons hst as).trans has⟩

/-- One step. -/
theorem of_step {s s' : σ} (a : α) (hst : M.step s a = .next s') : M.Leads s s' := head a hst (refl s')

/-- A run, and a run from where it has got to. -/
theorem trans {s s₁ s' : σ} (h₁ : M.Leads s s₁) (h₂ : M.Leads s₁ s') : M.Leads s s' := by
  obtain ⟨as, has⟩ := h₁
  obtain ⟨bs, hbs⟩ := h₂
  exact ⟨as ++ bs, (exec_append has bs).trans hbs⟩

end Leads

/-- The rule of simulation: when every step from a state related to a state of `N` is matched by a run of `N`, of no, one or more
steps, every reachable state is related to a reachable state of `N`. -/
theorem Reachable.simulated {ψ τ β : Type*} {N : Machine ψ τ β} (R : σ → τ → Prop) (h₀ : ∀ s, M.init s → ∃ t, N.init t ∧ R s t)
    (hs : ∀ s a s' t, N.Reachable t → R s t → M.step s a = .next s' → ∃ t', N.Leads t t' ∧ R s' t') {s : σ}
    (h : M.Reachable s) : ∃ t, N.Reachable t ∧ R s t := by
  induction h with
  | init hi =>
    obtain ⟨t, ht, hR⟩ := h₀ _ hi
    exact ⟨t, .init ht, hR⟩
  | @step s s' a _ hst ih =>
    obtain ⟨t, ht, hR⟩ := ih
    obtain ⟨t', ⟨bs, hbs⟩, hR'⟩ := hs s a s' t ht hR hst
    exact ⟨t', ht.exec hbs, hR'⟩

/-- The rule of bounded runs: when every action takes one off the work that is left, but those with `q` may add to it, there are no
more actions than there is work, and `c` more for each one with `q`. -/
theorem length_le_of_exec (P : σ → Prop) (ok : α → Prop) (work : σ → Nat) (q : α → Bool) (c : Nat)
    (hstep : ∀ s a s', P s → ok a → M.step s a = .next s' → P s' ∧ work s' + 1 ≤ work s + if q a then c else 0) {s s' : σ}
    {as : List α} (hs : P s) (hok : ∀ a ∈ as, ok a) (he : M.exec s as = some s') :
    P s' ∧ as.length + work s' ≤ work s + c * as.countP q := by
  induction as generalizing s with
  | nil =>
    cases he
    exact ⟨hs, by simp⟩
  | cons a as ih =>
    unfold Machine.exec at he
    split at he
    · rename_i s₁ hs₁
      obtain ⟨hP, hwork⟩ := hstep s a s₁ hs (hok a List.mem_cons_self) hs₁
      obtain ⟨hP', hlen⟩ := ih hP (fun b hb => hok b (List.mem_cons_of_mem a hb)) he
      refine ⟨hP', ?_⟩
      rw [List.length_cons, List.countP_cons, Nat.mul_add]
      cases hq : q a <;> simp only [hq, if_true, Bool.false_eq_true, if_false, Nat.mul_one, Nat.mul_zero] at hwork ⊢ <;> omega
    · cases he

/-- The rule of progress: when from every state with `P` that is not yet `D` some action takes work off and keeps `P`, a state with
`D` is reached by no more such actions than there is work. -/
theorem exists_exec_of_progress (P D : σ → Prop) (ok : α → Prop) (work : σ → Nat)
    (hstep : ∀ s, P s → D s ∨ ∃ a s', ok a ∧ M.step s a = .next s' ∧ P s' ∧ work s' < work s) {s : σ} (hs : P s) :
    ∃ as s', as.length ≤ work s ∧ (∀ a ∈ as, ok a) ∧ M.exec s as = some s' ∧ P s' ∧ D s' := by
  generalize hn : work s = n
  induction n using Nat.strongRecOn generalizing s with
  | ind n ih =>
    subst hn
    rcases hstep s hs with hD | ⟨a, s₁, hok, hs₁, hP, hlt⟩
    · exact ⟨[], s, Nat.zero_le _, by simp, rfl, hs, hD⟩
    · obtain ⟨as, s', hlen, hoks, he, hP', hD⟩ := ih _ hlt hP rfl
      refine ⟨a :: as, s', ?_, ?_, ?_, hP', hD⟩
      · rw [List.length_cons]
        omega
      · intro b hb
        rcases List.mem_cons.mp hb with rfl | hb
        · exact hok
        · exact hoks b hb
      · rw [exec_cons hs₁]
        exact he

/-- The state after a sequence of actions that meet a condition. -/
def execVia (M : Machine φ σ α) (ok : σ → α → Prop) [∀ s a, Decidable (ok s a)] (s : σ) : List α → Option σ
  | [] => some s
  | a :: as =>
    if ok s a then
      match M.step s a with
      | .next s' => M.execVia ok s' as
      | _ => none
    else none

/-- A sequence of actions that meet a condition, from a state reached by such actions. -/
theorem ReachableVia.exec {ok : σ → α → Prop} [∀ s a, Decidable (ok s a)] {s s' : σ} {as : List α} (h : M.ReachableVia ok s)
    (hs : M.execVia ok s as = some s') : M.ReachableVia ok s' := by
  induction as generalizing s with
  | nil =>
    cases hs
    exact h
  | cons a as ih =>
    unfold Machine.execVia at hs
    split at hs
    · rename_i hok
      split at hs
      · rename_i s₁ hs₁
        exact ih (h.step a hok hs₁) hs
      · cases hs
    · cases hs

/-- A state with a property that can be computed, at the end of a sequence of actions that meet a condition. -/
theorem ReachableVia.exists_of_exec {ok : σ → α → Prop} [∀ s a, Decidable (ok s a)] {s : σ} (h : M.ReachableVia ok s) (as : List α)
    (P : σ → Bool) (hs : (M.execVia ok s as).any P = true) : ∃ s', M.ReachableVia ok s' ∧ P s' = true := by
  cases he : M.execVia ok s as with
  | none => simp [he] at hs
  | some s' => exact ⟨s', h.exec he, by simpa [he] using hs⟩

end Machine

end Transition
