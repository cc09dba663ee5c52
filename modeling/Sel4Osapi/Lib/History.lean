import Mathlib.Init

/-!
# Histories

What has happened so far as a list of events, each with the key of what it happened to. `History.events k h` are those of one
key, in order.
-/

namespace History

variable {κ ε : Type*} [DecidableEq κ] {k k' : κ} {h : List (κ × ε)}

/-- What has happened to one key. -/
def events (k : κ) (h : List (κ × ε)) : List ε := h.filterMap fun x => if x.1 = k then some x.2 else none

/-- Something happens to the key. -/
@[simp] theorem events_snoc_self (ev : ε) : events k (h ++ [(k, ev)]) = events k h ++ [ev] := by
  simp [events]

/-- Something happens to another key. -/
theorem events_snoc_of_ne (hne : k ≠ k') (ev : ε) : events k (h ++ [(k', ev)]) = events k h := by
  simp [events, hne.symm]

/-- A list with one more element, cut at some element: there, or before. -/
theorem snoc_eq_append_cons {l h₁ h₂ : List ε} {x a : ε} (h : l ++ [x] = h₁ ++ a :: h₂) :
    (l = h₁ ∧ x = a) ∨ ∃ h₃, l = h₁ ++ a :: h₃ := by
  rcases List.eq_nil_or_concat h₂ with rfl | ⟨h₃, y, rfl⟩
  · obtain ⟨hl, hx⟩ := List.append_inj' h rfl
    exact Or.inl ⟨hl, List.head_eq_of_cons_eq hx⟩
  · rw [List.concat_eq_append, ← List.cons_append, ← List.append_assoc] at h
    exact Or.inr ⟨h₃, (List.append_inj' h rfl).1⟩

end History
