import Mathlib.Logic.Relation

/-!
# Recursive mutexes and waiting in circles

A recursive mutex is locked by the thread that owns it any number of times, and it is free again when that thread has
unlocked it as often. `RecursiveMutex.HeldBy m crit` ties the mutex `m` to the threads between a `lock` and the `unlock`
that follows it, those with `crit`, for code that does not lock twice: the owner is the only such thread. Locking and
unlocking keep it, and so does whatever leaves `crit` as it is.

Threads wait in a circle when one is led back to itself by a relation `R` of who waits for whom. `acyclic_of_rank` excludes
that when every thread has a rank above the rank of those it waits for.
-/

namespace Waiting

variable {τ : Type*}

/-- A mutex that its owner may lock again. -/
structure RecursiveMutex (τ : Type*) where
  owner : Option τ
  count : Nat
  deriving DecidableEq, Repr

namespace RecursiveMutex

/-- A mutex just created. -/
def free : RecursiveMutex τ := { owner := none, count := 0 }

/-- The threads with `crit` are the owner of the mutex, who has locked it once. -/
structure HeldBy (m : RecursiveMutex τ) (crit : τ → Prop) : Prop where
  owner : ∀ t, crit t ↔ m.owner = some t
  count : m.count = if m.owner = none then 0 else 1

namespace HeldBy

variable {m : RecursiveMutex τ} {crit crit' : τ → Prop}

/-- A free mutex is held by no thread. -/
theorem free (h : ∀ t, ¬ crit t) : HeldBy RecursiveMutex.free crit where
  owner t := by simp [RecursiveMutex.free, h t]
  count := by simp [RecursiveMutex.free]

/-- One thread at a time holds the mutex. -/
theorem unique (h : HeldBy m crit) {t u : τ} (ht : crit t) (hu : crit u) : t = u :=
  Option.some.inj (((h.owner t).mp ht).symm.trans ((h.owner u).mp hu))

/-- A mutex that no thread holds is free. -/
theorem eq_free (h : HeldBy m crit) (hn : ∀ t, ¬ crit t) : m = RecursiveMutex.free := by
  obtain ⟨owner, count⟩ := m
  cases owner with
  | none => exact congrArg (RecursiveMutex.mk none) h.count
  | some t => exact absurd ((h.owner t).mpr rfl) (hn t)

/-- No thread locks or unlocks the mutex. -/
theorem congr (h : HeldBy m crit) (hframe : ∀ u, crit' u ↔ crit u) : HeldBy m crit' :=
  ⟨fun u => (hframe u).trans (h.owner u), h.count⟩

end HeldBy

variable [DecidableEq τ]

/-- `lock` by a thread, which waits while another thread is the owner. -/
def lock (m : RecursiveMutex τ) (t : τ) : Option (RecursiveMutex τ) :=
  match m.owner with
  | none => some { owner := some t, count := 1 }
  | some u => if u = t then some { m with count := m.count + 1 } else none

/-- `unlock` by a thread, which does nothing when the thread is not the owner. -/
def unlock (m : RecursiveMutex τ) (t : τ) : RecursiveMutex τ :=
  if m.owner = some t then
    if m.count = 1 then free else { m with count := m.count - 1 }
  else m

/-- A thread has to wait for the mutex exactly when another thread is the owner. -/
theorem lock_eq_none {m : RecursiveMutex τ} {t : τ} : m.lock t = none ↔ ∃ u, m.owner = some u ∧ u ≠ t := by
  unfold lock
  split
  · rename_i h
    simp [h]
  · rename_i u h
    simp [h]

namespace HeldBy

variable {m m' : RecursiveMutex τ} {crit crit' : τ → Prop} {t : τ}

/-- A thread that does not hold the mutex locks it. -/
theorem lock (h : HeldBy m crit) (hl : m.lock t = some m') (hn : ¬ crit t) (ht : crit' t)
    (hframe : ∀ u, u ≠ t → (crit' u ↔ crit u)) : HeldBy m' crit' := by
  unfold RecursiveMutex.lock at hl
  split at hl
  · rename_i hfree
    cases hl
    refine ⟨?_, by simp⟩
    intro u
    by_cases hu : u = t
    · simp [hu, ht]
    · rw [hframe u hu, h.owner, hfree]
      simp [Ne.symm hu]
  · rename_i u hown
    split at hl
    · rename_i hut
      exact absurd ((h.owner t).mpr (hut ▸ hown)) hn
    · cases hl

/-- The thread that holds the mutex unlocks it. -/
theorem unlock (h : HeldBy m crit) (ht : crit t) (hn : ¬ crit' t) (hframe : ∀ u, u ≠ t → (crit' u ↔ crit u)) :
    HeldBy (m.unlock t) crit' := by
  have hown : m.owner = some t := (h.owner t).mp ht
  have hcount : m.count = 1 := by rw [h.count, hown]; simp
  have hfree : m.unlock t = RecursiveMutex.free := by simp [RecursiveMutex.unlock, hown, hcount]
  rw [hfree]
  refine free ?_
  intro u hu
  by_cases hut : u = t
  · exact hn (hut ▸ hu)
  · have := (h.owner u).mp ((hframe u hut).mp hu)
    rw [hown] at this
    exact hut (Option.some.inj this).symm

end HeldBy

end RecursiveMutex

section rank

variable {R : τ → τ → Prop} {rank : τ → Nat}

/-- Along a chain of waiting threads the rank goes down. -/
theorem rank_lt_of_transGen (hrank : ∀ a b, R a b → rank b < rank a) {a b : τ} (h : Relation.TransGen R a b) :
    rank b < rank a := by
  induction h with
  | single hab => exact hrank _ _ hab
  | tail _ hbc ih => exact Nat.lt_trans (hrank _ _ hbc) ih

/-- No thread is led back to itself when every thread ranks above those it waits for. -/
theorem acyclic_of_rank (hrank : ∀ a b, R a b → rank b < rank a) (a : τ) : ¬ Relation.TransGen R a a := by
  intro h
  exact Nat.lt_irrefl _ (rank_lt_of_transGen hrank h)

end rank

end Waiting
