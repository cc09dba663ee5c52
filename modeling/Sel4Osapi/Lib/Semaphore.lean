import Mathlib.Init

/-!
# Semaphores created with value one

`Exclusive v crit` ties the value `v` of a semaphore created with value one to the threads between a `take` and the `give`
that follows it, those with `crit`: either the semaphore is available and there is none, or it is not and there is exactly
one. Taking and giving keep it, and so does whatever leaves `crit` as it is.
-/

namespace Semaphore

variable {ι : Type*} {v : Nat} {crit crit' : ι → Prop} {c d : ι}

/-- One thread at a time is between its `take` and its `give`. -/
def Exclusive (v : Nat) (crit : ι → Prop) : Prop :=
  (v = 1 ∧ ∀ c, ¬ crit c) ∨ (v = 0 ∧ ∃ c, crit c ∧ ∀ d, crit d → d = c)

namespace Exclusive

/-- Two threads in the section are the same thread. -/
theorem eq (h : Exclusive v crit) (hc : crit c) (hd : crit d) : c = d := by
  rcases h with ⟨-, h⟩ | ⟨-, e, -, h⟩
  · exact absurd hc (h c)
  · rw [h c hc, h d hd]

/-- A thread takes the semaphore. -/
theorem take (h : Exclusive v crit) (hv : 0 < v) (hc : crit' c) (hframe : ∀ d, d ≠ c → (crit' d ↔ crit d)) :
    Exclusive (v - 1) crit' := by
  rcases h with ⟨rfl, hn⟩ | ⟨rfl, -⟩
  · exact Or.inr ⟨rfl, c, hc, fun d hd => Classical.byContradiction fun hne => hn d ((hframe d hne).mp hd)⟩
  · exact absurd hv (Nat.lt_irrefl 0)

/-- The thread in the section gives the semaphore back. -/
theorem give (h : Exclusive v crit) (hc : crit c) (hc' : ¬ crit' c) (hframe : ∀ d, d ≠ c → (crit' d ↔ crit d)) :
    Exclusive (v + 1) crit' := by
  rcases h with ⟨-, hn⟩ | ⟨rfl, e, -, he⟩
  · exact absurd hc (hn c)
  · refine Or.inl ⟨rfl, ?_⟩
    intro d hd
    by_cases hdc : d = c
    · exact hc' (hdc ▸ hd)
    · exact hdc ((he d ((hframe d hdc).mp hd)).trans (he c hc).symm)

/-- No thread enters or leaves the section. -/
theorem congr (h : Exclusive v crit) (hframe : ∀ d, crit' d ↔ crit d) : Exclusive v crit' := by
  rcases h with ⟨rfl, hn⟩ | ⟨rfl, e, hc, he⟩
  · exact Or.inl ⟨rfl, fun d hd => hn d ((hframe d).mp hd)⟩
  · exact Or.inr ⟨rfl, e, (hframe e).mpr hc, fun d hd => he d ((hframe d).mp hd)⟩

end Exclusive

end Semaphore
