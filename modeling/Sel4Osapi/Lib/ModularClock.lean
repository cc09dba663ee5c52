import Mathlib.Algebra.Order.Floor.Div
import Mathlib.Data.Nat.Basic

/-!
# Deadlines on a clock that wraps

A clock is read again and again: reading number `k` is `k * period`, of which only the remainder modulo `wrap` is known. A
deadline `due` is compared with the readings from number `first` on. `FirstAt` is the first reading that reaches it;
`firstAt_iff` and `firstAt_mod_iff` say when the comparison of the remainders finds it: when the clock does not wrap between
the earlier of the deadline and the first reading, and the reading that reaches the deadline. `NextAt` is for a deadline that
is set again by each reading that reaches it: these readings are a fixed stride apart.
-/

namespace ModularClock

/-! ## Remainders -/

/-- Remainders compare as the numbers do when the quotients are the same. -/
theorem mod_le_mod_iff {wrap x y : Nat} (h : x / wrap = y / wrap) : x % wrap ≤ y % wrap ↔ x ≤ y := by
  have hx := Nat.div_add_mod x wrap
  have hy := Nat.div_add_mod y wrap
  rw [h] at hx
  omega

/-- Of two numbers less than `wrap` apart, the quotients are the same if the remainders compare as the numbers do. -/
theorem div_eq_of_mod_le {wrap x y : Nat} (hle : x ≤ y) (hlt : y < x + wrap) (h : x % wrap ≤ y % wrap) : x / wrap = y / wrap := by
  by_contra hne
  have hq : x / wrap + 1 ≤ y / wrap := Nat.lt_of_le_of_ne (Nat.div_le_div_right hle) hne
  have hx := Nat.div_add_mod x wrap
  have hy := Nat.div_add_mod y wrap
  have hmul := Nat.mul_le_mul_left wrap hq
  rw [Nat.mul_add, Nat.mul_one] at hmul
  omega

/-- The same when the remainders do not compare the other way. -/
theorem div_eq_of_not_mod_le {wrap x y : Nat} (hle : y ≤ x) (hlt : x < y + wrap) (h : ¬ x % wrap ≤ y % wrap) :
    y / wrap = x / wrap :=
  div_eq_of_mod_le hle hlt (by omega)

/-! ## The first reading that reaches a deadline -/

/-- Reading number `k` is the first from number `first` on with `Q`. -/
def FirstAt (Q : Nat → Prop) (first k : Nat) : Prop := Q k ∧ ∀ j, first ≤ j → j < k → ¬ Q j

/-- The reading that reaches the deadline. -/
def dueReading (period first due : Nat) : Nat := max first (due ⌈/⌉ period)

/-- The clock does not wrap between the earlier of the deadline and the first reading, and the reading that reaches the
deadline. -/
def NoWrap (wrap period first due : Nat) : Prop :=
  min (first * period) due / wrap = dueReading period first due * period / wrap

instance (wrap period first due : Nat) : Decidable (NoWrap wrap period first due) := inferInstanceAs (Decidable (_ = _))

variable {wrap period first due k : Nat}

/-- The readings that reach the deadline are the due one and those after it. -/
theorem due_le_iff (hperiod : 0 < period) (hk : first ≤ k) : due ≤ k * period ↔ dueReading period first due ≤ k := by
  rw [dueReading, Nat.max_le, ceilDiv_le_iff_le_mul hperiod, Nat.mul_comm]
  exact ⟨fun h => ⟨hk, h⟩, fun h => h.2⟩

/-- The due reading is the first to reach the deadline. -/
theorem eq_dueReading (hperiod : 0 < period) (hk : first ≤ k) (h : FirstAt (fun j => due ≤ j * period) first k) :
    k = dueReading period first due := by
  have hle := (due_le_iff hperiod hk).mp h.1
  refine Nat.le_antisymm (Nat.le_of_not_lt ?_) hle
  intro hlt
  have hfirst : first ≤ dueReading period first due := Nat.le_max_left _ _
  exact h.2 _ hfirst hlt ((due_le_iff hperiod hfirst).mpr (Nat.le_refl _))

/-- Up to the due reading of a clock that does not wrap, the remainders compare as the numbers do. -/
theorem agree_of_noWrap (hperiod : 0 < period) (h : NoWrap wrap period first due) (hfirst : first ≤ k)
    (hk : k ≤ dueReading period first due) : due % wrap ≤ k * period % wrap ↔ due ≤ k * period := by
  have hdue : due ≤ dueReading period first due * period := (due_le_iff hperiod (Nat.le_max_left _ _)).mpr (Nat.le_refl _)
  have hfk : first * period ≤ k * period := Nat.mul_le_mul_right _ hfirst
  have hkS : k * period ≤ dueReading period first due * period := Nat.mul_le_mul_right _ hk
  have hmin : min (first * period) due ≤ k * period := (Nat.min_le_left _ _).trans hfk
  -- both numbers are between the earlier of the two and the due reading, whose quotients are the same
  have h₁ := Nat.div_le_div_right (c := wrap) hmin
  have h₂ := Nat.div_le_div_right (c := wrap) hkS
  have h₃ := Nat.div_le_div_right (c := wrap) (Nat.min_le_right (first * period) due)
  have h₄ := Nat.div_le_div_right (c := wrap) hdue
  unfold NoWrap at h
  exact mod_le_mod_iff (by omega)

/-- On a clock that does not wrap, the remainders find the first reading that reaches the deadline. -/
theorem firstAt_iff (hdue : due < first * period + wrap) (h : NoWrap wrap period first due) (hk : first ≤ k) :
    FirstAt (fun j => due % wrap ≤ j * period % wrap) first k ↔ FirstAt (fun j => due ≤ j * period) first k := by
  rcases Nat.eq_zero_or_pos period with rfl | hperiod
  · have hmod : due % wrap = due := Nat.mod_eq_of_lt (by simpa using hdue)
    simp [FirstAt, hmod]
  rcases Nat.lt_or_ge (dueReading period first due) k with hlt | hle
  · -- the due reading comes before, for both
    have hfirst : first ≤ dueReading period first due := Nat.le_max_left _ _
    have hreach : due ≤ dueReading period first due * period := (due_le_iff hperiod hfirst).mpr (Nat.le_refl _)
    constructor
    · intro hmod
      exact absurd ((agree_of_noWrap hperiod h hfirst (Nat.le_refl _)).mpr hreach) (hmod.2 _ hfirst hlt)
    · intro hexact
      exact absurd hreach (hexact.2 _ hfirst hlt)
  · have hagree : ∀ j, first ≤ j → j ≤ k → (due % wrap ≤ j * period % wrap ↔ due ≤ j * period) :=
      fun j hj hjk => agree_of_noWrap hperiod h hj (hjk.trans hle)
    constructor
    · intro hmod
      exact ⟨(hagree k hk (Nat.le_refl _)).mp hmod.1, fun j hj hlt => (hagree j hj hlt.le).not.mp (hmod.2 j hj hlt)⟩
    · intro hexact
      exact ⟨(hagree k hk (Nat.le_refl _)).mpr hexact.1, fun j hj hlt => (hagree j hj hlt.le).not.mpr (hexact.2 j hj hlt)⟩

/-- The remainders find the reading that reaches the deadline only if the clock does not wrap. -/
theorem firstAt_mod_iff (hwrap : period < wrap) (hdue : due < first * period + wrap) (hfirst : first * period ≤ due + period)
    (hk : first ≤ k) (hexact : FirstAt (fun j => due ≤ j * period) first k) :
    FirstAt (fun j => due % wrap ≤ j * period % wrap) first k ↔ NoWrap wrap period first due := by
  refine ⟨?_, fun h => (firstAt_iff hdue h hk).mpr hexact⟩
  intro hmod
  rcases Nat.eq_zero_or_pos period with rfl | hperiod
  · simp [NoWrap]
  obtain rfl := eq_dueReading hperiod hk hexact
  have hnear : dueReading period first due * period ≤ due + period := by
    rcases Nat.eq_or_lt_of_le hk with heq | hlt
    · rw [← heq]
      exact hfirst
    · -- the reading before did not reach the deadline
      have hprev := hexact.2 (dueReading period first due - 1) (by omega) (by omega)
      dsimp only at hprev
      rw [Nat.sub_mul, Nat.one_mul] at hprev
      omega
  have hquot := div_eq_of_mod_le hexact.1 (by omega) hmod.1
  rcases Nat.lt_or_ge (first * period) due with hlt | hge
  · have hfk : first < dueReading period first due := by
      refine Nat.lt_of_le_of_ne hk ?_
      intro heq
      have hreach := hexact.1
      rw [← heq] at hreach
      omega
    have hfquot := div_eq_of_not_mod_le hlt.le hdue (hmod.2 first (Nat.le_refl _) hfk)
    rw [NoWrap, Nat.min_eq_left hlt.le, hfquot, hquot]
  · rw [NoWrap, Nat.min_eq_right hge, hquot]

/-! ## A deadline that is set again -/

/-- The readings from one deadline to the next, when each is set `d` after the reading that reached the last one. -/
def stride (period d : Nat) : Nat := max 1 (d ⌈/⌉ period)

/-- Before reading number `m`, the deadline is `d` after `base`, and `next` is the reading that will reach it; the readings that
reached the deadlines before it are those from `first` on, a stride apart. -/
structure NextAt (period d first base m next : Nat) : Prop where
  le : m ≤ next
  first_le : first ≤ next
  dvd : stride period d ∣ next - first
  last : next = first ∨ next < m + stride period d
  due : ∀ k, m ≤ k → (base + d ≤ k * period ↔ next ≤ k)

namespace NextAt

variable {d base m next : Nat}

/-- The first deadline. -/
theorem start (hperiod : 0 < period) : NextAt period d (dueReading period m (base + d)) base m (dueReading period m (base + d)) :=
  ⟨Nat.le_max_left _ _, Nat.le_refl _, by simp, Or.inl rfl, fun _ hk => due_le_iff hperiod hk⟩

/-- A reading that does not reach the deadline. -/
theorem skip (h : NextAt period d first base m next) (hnot : ¬ base + d ≤ m * period) : NextAt period d first base (m + 1) next := by
  have hlt : m < next := Nat.lt_of_not_le ((h.due m (Nat.le_refl m)).not.mp hnot)
  refine ⟨hlt, h.first_le, h.dvd, ?_, fun k hk => h.due k (Nat.le_of_succ_le hk)⟩
  rcases h.last with hfirst | hlast
  · exact Or.inl hfirst
  · exact Or.inr (by omega)

end NextAt

end ModularClock
