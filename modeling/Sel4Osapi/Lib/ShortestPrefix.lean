import Mathlib.Algebra.BigOperators.Group.List.Basic
import Mathlib.Algebra.Ring.Nat
import Mathlib.Data.List.Infix

/-!
# Shortest prefixes that reach a total

`ShortestPrefix w m xs l` is for code that takes things from the front of a list until their weights add up to `m`: `l` is
the shortest prefix of `xs` that does. `cons_iff` finds it from the front.
-/

variable {α : Type*}

/-- `l` is the shortest prefix of `xs` whose weights add up to `m` at least. -/
structure ShortestPrefix (w : α → Nat) (m : Nat) (xs l : List α) : Prop where
  isPrefix : l <+: xs
  reaches : m ≤ (l.map w).sum
  least : ∀ l', l' <+: xs → m ≤ (l'.map w).sum → l.length ≤ l'.length

namespace ShortestPrefix

variable {w : α → Nat} {m : Nat} {x : α} {xs l : List α}

/-- A prefix weighs no more than the list. -/
theorem le_total (h : ShortestPrefix w m xs l) : m ≤ (xs.map w).sum := by
  obtain ⟨t, rfl⟩ := h.isPrefix
  have hreaches := h.reaches
  rw [List.map_append, List.sum_append]
  omega

/-- With nothing to reach nothing is taken. -/
@[simp] theorem zero_iff : ShortestPrefix w 0 xs l ↔ l = [] := by
  constructor
  · intro h
    exact List.length_eq_zero_iff.mp (Nat.le_zero.mp (h.least [] (List.nil_prefix) (Nat.zero_le _)))
  · rintro rfl
    exact ⟨List.nil_prefix, Nat.zero_le _, fun _ _ _ => Nat.zero_le _⟩

/-- With something to reach something is taken. -/
theorem ne_nil (hm : 0 < m) (h : ShortestPrefix w m xs l) : l ≠ [] := by
  rintro rfl
  have hreaches := h.reaches
  rw [List.map_nil, List.sum_nil] at hreaches
  omega

/-- From the front: the first is taken, and as many of the others as it takes for the rest. -/
theorem cons_iff (hm : 0 < m) : ShortestPrefix w m (x :: xs) (x :: l) ↔ ShortestPrefix w (m - w x) xs l := by
  constructor
  · intro h
    refine ⟨(List.prefix_cons_inj x).mp h.isPrefix, ?_, ?_⟩
    · have hreaches := h.reaches
      rw [List.map_cons, List.sum_cons] at hreaches
      omega
    · intro l' hl' hreaches
      have hlen := h.least (x :: l') ((List.prefix_cons_inj x).mpr hl') (by
        rw [List.map_cons, List.sum_cons]
        omega)
      simpa using hlen
  · intro h
    refine ⟨(List.prefix_cons_inj x).mpr h.isPrefix, ?_, ?_⟩
    · have hreaches := h.reaches
      rw [List.map_cons, List.sum_cons]
      omega
    · intro l' hl' hreaches
      cases l' with
      | nil =>
        rw [List.map_nil, List.sum_nil] at hreaches
        omega
      | cons y l' =>
        obtain ⟨rfl, hprefix⟩ := List.cons_prefix_cons.mp hl'
        rw [List.map_cons, List.sum_cons] at hreaches
        have hlen := h.least l' hprefix (by omega)
        simpa using hlen

/-- With something to reach the first is taken. -/
theorem exists_cons (hm : 0 < m) (h : ShortestPrefix w m (x :: xs) l) : ∃ l', l = x :: l' := by
  cases l with
  | nil => exact absurd rfl (ne_nil hm h)
  | cons y l' =>
    obtain ⟨rfl, -⟩ := List.cons_prefix_cons.mp h.isPrefix
    exact ⟨l', rfl⟩

/-- What is to hold of the shortest prefix, from the front. -/
theorem forall_cons (hm : 0 < m) {P : List α → Prop} :
    (∀ l, ShortestPrefix w m (x :: xs) l → P l) ↔ ∀ l, ShortestPrefix w (m - w x) xs l → P (x :: l) := by
  constructor
  · intro h l hl
    exact h (x :: l) ((cons_iff hm).mpr hl)
  · intro h l hl
    obtain ⟨l, rfl⟩ := hl.exists_cons hm
    exact h l ((cons_iff hm).mp hl)

end ShortestPrefix
