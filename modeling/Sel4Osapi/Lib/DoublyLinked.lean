import Mathlib.Data.List.Nodup
import Mathlib.Logic.Function.Basic

/-!
# Doubly linked lists in a store of links

A store of links gives every node a next and a previous pointer, null being `none`. `Represents L h xs` says that from the head
`h` the store `L` spells the sequence `xs`: null-terminated, the previous pointers inverse to the next pointers, the head
without a predecessor. Nothing is said about the nodes outside `xs`, so any number of lists can stand in one store, and
`Represents.congr` is their frame rule. The two operations are the ones an intrusive list has: append a node after the last
one (`Links.append`) and take a node out from wherever it stands (`Links.unlink`).
-/

namespace DoublyLinked

variable {α : Type*}

/-- The pointers of a store of nodes. -/
structure Links (α : Type*) where
  next : α → Option α
  prev : α → Option α

/-- The item before position `i` of a sequence, none at its start. -/
def before (xs : List α) : Nat → Option α
  | 0 => none
  | i + 1 => xs[i]?

@[simp] theorem before_zero (xs : List α) : before xs 0 = none := rfl

@[simp] theorem before_succ (xs : List α) (i : Nat) : before xs (i + 1) = xs[i]? := rfl

/-- From the head `h` the store `L` spells the sequence `xs`. -/
structure Represents (L : Links α) (h : Option α) (xs : List α) : Prop where
  head : h = xs[0]?
  next : ∀ (i : Nat) (x : α), xs[i]? = some x → L.next x = xs[i + 1]?
  prev : ∀ (i : Nat) (x : α), xs[i]? = some x → L.prev x = before xs i

namespace Represents

variable {L L' : Links α} {h : Option α} {xs : List α} {x : α}

/-- The empty list is represented by the null head. -/
theorem nil (L : Links α) : Represents L none ([] : List α) where
  head := rfl
  next := by simp
  prev := by simp

/-- The head is null exactly for the empty list. -/
theorem head_none_iff (r : Represents L h xs) : h = none ↔ xs = [] := by
  rw [r.head]
  cases xs <;> simp

/-- A head spells one sequence only. -/
theorem unique {ys : List α} (r : Represents L h xs) (r' : Represents L h ys) : xs = ys := by
  refine List.ext_getElem? fun i => ?_
  induction i with
  | zero => rw [← r.head, ← r'.head]
  | succ i ih =>
    cases hx : xs[i]? with
    | some x => rw [← r.next i x hx, ← r'.next i x (ih ▸ hx)]
    | none =>
      have hxs := List.getElem?_eq_none_iff.mp hx
      have hys := List.getElem?_eq_none_iff.mp (ih ▸ hx)
      rw [List.getElem?_eq_none (by omega), List.getElem?_eq_none (by omega)]

/-- A head that is not null is the first item. -/
theorem head_some (r : Represents L (some x) xs) : ∃ rest, xs = x :: rest := by
  have hh := r.head
  cases xs with
  | nil => simp at hh
  | cons y rest =>
    simp only [List.getElem?_cons_zero, Option.some.injEq] at hh
    exact ⟨rest, by rw [hh]⟩

/-- Two places of a represented list that hold the same node continue in the same way. -/
theorem getElem?_add (r : Represents L h xs) {i j : Nat} (hi : xs[i]? = some x) (hj : xs[j]? = some x) :
    ∀ k, xs[i + k]? = xs[j + k]? := by
  intro k
  induction k with
  | zero => rw [Nat.add_zero, Nat.add_zero, hi, hj]
  | succ k ih =>
    rw [← Nat.add_assoc, ← Nat.add_assoc]
    cases hk : xs[i + k]? with
    | none =>
      have h1 := List.getElem?_eq_none_iff.mp hk
      have h2 := List.getElem?_eq_none_iff.mp (ih.symm.trans hk)
      rw [List.getElem?_eq_none (by omega), List.getElem?_eq_none (by omega)]
    | some y => rw [← r.next _ y hk, ← r.next _ y (ih.symm.trans hk)]

/-- A represented list visits no node twice: its next pointers could not leave a node in two ways. -/
theorem nodup (r : Represents L h xs) : xs.Nodup := by
  rw [List.nodup_iff_getElem?_ne_getElem?]
  intro i j hij hj heq
  obtain ⟨x, hx⟩ : ∃ x, xs[j]? = some x := ⟨xs[j], List.getElem?_eq_getElem hj⟩
  have hk := r.getElem?_add (heq.trans hx) hx (xs.length - j)
  rw [List.getElem?_eq_none (i := j + (xs.length - j)) (by omega), List.getElem?_eq_none_iff] at hk
  omega

/-- The frame rule: a store with the same pointers at the nodes of the list represents the same list. -/
theorem congr (r : Represents L h xs) (hn : ∀ y ∈ xs, L'.next y = L.next y) (hp : ∀ y ∈ xs, L'.prev y = L.prev y) :
    Represents L' h xs where
  head := r.head
  next i y hy := by rw [hn y (List.mem_of_getElem? hy)]; exact r.next i y hy
  prev i y hy := by rw [hp y (List.mem_of_getElem? hy)]; exact r.prev i y hy

/-- The next pointer of a node of the list is a node of the list. -/
theorem next_mem (r : Represents L h xs) (hx : x ∈ xs) {y : α} (hy : L.next x = some y) : y ∈ xs := by
  obtain ⟨i, hi⟩ := List.mem_iff_getElem?.mp hx
  rw [r.next i x hi] at hy
  exact List.mem_of_getElem? hy

/-- The previous pointer of a node of the list is a node of the list. -/
theorem prev_mem (r : Represents L h xs) (hx : x ∈ xs) {y : α} (hy : L.prev x = some y) : y ∈ xs := by
  obtain ⟨i, hi⟩ := List.mem_iff_getElem?.mp hx
  rw [r.prev i x hi] at hy
  cases i with
  | zero => simp at hy
  | succ i => exact List.mem_of_getElem? hy

/-- Only the head has no predecessor. -/
theorem prev_none_of_head (r : Represents L (some x) xs) : L.prev x = none :=
  r.prev 0 x r.head.symm

/-- The node before the first of what follows a prefix is the last of the prefix. -/
theorem before_length_append (l r : List α) : before (l ++ r) l.length = l.getLast? := by
  rcases List.eq_nil_or_concat l with rfl | ⟨l', y, rfl⟩
  · rfl
  · simp

/-- The pointers of a node that stands between two parts of the list. -/
theorem at_split (r : Represents L h xs) {l t : List α} (hs : xs = l ++ x :: t) :
    L.prev x = l.getLast? ∧ L.next x = t.head? := by
  have hx : xs[l.length]? = some x := by rw [hs]; simp
  have hprev := r.prev _ _ hx
  have hnext := r.next _ _ hx
  rw [hs, before_length_append] at hprev
  rw [hs] at hnext
  refine ⟨hprev, hnext.trans ?_⟩
  rw [List.getElem?_append_right (by omega)]
  cases t <;> simp

/-- A sequence is represented as soon as the pointers are right at each of its splits. -/
theorem of_splits (hh : h = xs.head?) (hs : ∀ l y t, xs = l ++ y :: t → L.prev y = l.getLast? ∧ L.next y = t.head?) :
    Represents L h xs := by
  have hsplit : ∀ (i : Nat) (y : α), xs[i]? = some y → xs = xs.take i ++ y :: xs.drop (i + 1) := by
    intro i y hy
    obtain ⟨hi, rfl⟩ := List.getElem?_eq_some_iff.mp hy
    rw [← List.drop_eq_getElem_cons hi, List.take_append_drop]
  refine ⟨?_, ?_, ?_⟩
  · rw [hh, List.head?_eq_getElem?]
  · intro i y hy
    rw [(hs _ _ _ (hsplit i y hy)).2, List.head?_drop]
  · intro i y hy
    have hi := (List.getElem?_eq_some_iff.mp hy).1
    rw [(hs _ _ _ (hsplit i y hy)).1, List.getLast?_eq_getElem?, List.length_take_of_le (Nat.le_of_lt hi)]
    cases i with
    | zero => simp
    | succ i => simp

end Represents

/-! ## The two operations -/

/-- An entry behind those of `xs` is the one that was added. -/
theorem eq_of_getElem?_snoc {xs : List α} {x y : α} {i : Nat} (hi : ¬ i < xs.length) (hy : (xs ++ [x])[i]? = some y) :
    i = xs.length ∧ x = y := by
  rw [List.getElem?_append_right (by omega), List.getElem?_singleton] at hy
  split at hy
  · exact ⟨by omega, Option.some.inj hy⟩
  · cases hy

section Operations

variable [DecidableEq α]

/-- Write a next pointer. -/
def Links.setNext (L : Links α) (x : α) (v : Option α) : Links α := { L with next := Function.update L.next x v }

/-- Write a previous pointer. -/
def Links.setPrev (L : Links α) (x : α) (v : Option α) : Links α := { L with prev := Function.update L.prev x v }

@[simp] theorem Links.setNext_next (L : Links α) (x : α) (v : Option α) :
    (L.setNext x v).next = Function.update L.next x v := rfl

@[simp] theorem Links.setNext_prev (L : Links α) (x : α) (v : Option α) : (L.setNext x v).prev = L.prev := rfl

@[simp] theorem Links.setPrev_prev (L : Links α) (x : α) (v : Option α) :
    (L.setPrev x v).prev = Function.update L.prev x v := rfl

@[simp] theorem Links.setPrev_next (L : Links α) (x : α) (v : Option α) : (L.setPrev x v).next = L.next := rfl

/-- Link the node `x` after `last`, the last node of a list, or alone when the list is empty. -/
def Links.append (L : Links α) (last : Option α) (x : α) : Links α :=
  match last with
  | some p => ((L.setNext x none).setNext p (some x)).setPrev x (some p)
  | none => (L.setNext x none).setPrev x none

/-- Take the node `x` out of its list: join its neighbours and clear its own pointers. -/
def Links.unlink (L : Links α) (x : α) : Links α :=
  let L₁ := match L.prev x with
    | some p => L.setNext p (L.next x)
    | none => L
  let L₂ := match L.next x with
    | some n => L₁.setPrev n (L.prev x)
    | none => L₁
  (L₂.setPrev x none).setNext x none

/-- The next pointers after an append. -/
theorem Links.append_next (L : Links α) (last : Option α) (x y : α) :
    (L.append last x).next y =
      if last = some y then some x else if y = x then none else L.next y := by
  unfold Links.append
  cases last with
  | none => by_cases hy : y = x <;> simp [hy]
  | some p =>
    by_cases hp : y = p
    · simp [hp]
    · by_cases hy : y = x <;> simp [Function.update_apply, hp, hy, eq_comm]

/-- The previous pointers after an append. -/
theorem Links.append_prev (L : Links α) (last : Option α) (x y : α) :
    (L.append last x).prev y = if y = x then last else L.prev y := by
  unfold Links.append
  cases last <;> by_cases hy : y = x <;> simp [hy]

/-- The next pointers after an unlink. -/
theorem Links.unlink_next (L : Links α) (x y : α) :
    (L.unlink x).next y = if y = x then none else if L.prev x = some y then L.next x else L.next y := by
  unfold Links.unlink
  by_cases hy : y = x
  · simp [hy]
  · cases hp : L.prev x <;> cases hn : L.next x <;> simp [Function.update_apply, hy, eq_comm]

/-- The previous pointers after an unlink. -/
theorem Links.unlink_prev (L : Links α) (x y : α) :
    (L.unlink x).prev y = if y = x then none else if L.next x = some y then L.prev x else L.prev y := by
  unfold Links.unlink
  by_cases hy : y = x
  · simp [hy]
  · cases hp : L.prev x <;> cases hn : L.next x <;> simp [Function.update_apply, hy, eq_comm]

namespace Represents

variable {L : Links α} {h : Option α} {xs ys : List α} {x : α}

/-- Appending a node that is not in the list gives the list with the node at its end. -/
theorem append (r : Represents L h xs) (hx : x ∉ xs) :
    Represents (L.append xs.getLast? x) (h.or (some x)) (xs ++ [x]) := by
  have hnd := r.nodup
  -- the last node of the list is the only one whose next pointer changes
  have hlast : ∀ (i : Nat) (y : α), xs[i]? = some y → (xs.getLast? = some y ↔ i + 1 = xs.length) := by
    intro i y hy
    obtain ⟨hi, hyi⟩ := List.getElem?_eq_some_iff.mp hy
    rw [List.getLast?_eq_getElem?]
    constructor
    · intro hl
      have hj : xs.length - 1 < xs.length := by omega
      rw [List.getElem?_eq_getElem hj, Option.some.injEq, ← hyi, hnd.getElem_inj_iff] at hl
      omega
    · intro hi'
      rw [show xs.length - 1 = i by omega]
      exact hy
  refine ⟨?_, ?_, ?_⟩
  · rw [r.head]
    cases xs <;> simp
  · intro i y hy
    rw [Links.append_next]
    by_cases hi : i < xs.length
    · rw [List.getElem?_append_left hi] at hy
      have hyx : y ≠ x := fun e => hx (e ▸ List.mem_of_getElem? hy)
      by_cases hl : i + 1 = xs.length
      · rw [if_pos ((hlast i y hy).mpr hl), hl]
        simp
      · rw [if_neg (fun e => hl ((hlast i y hy).mp e)), if_neg hyx, r.next i y hy,
          List.getElem?_append_left (by omega)]
    · obtain ⟨rfl, rfl⟩ := eq_of_getElem?_snoc hi hy
      have hne : xs.getLast? ≠ some x := fun e => hx (List.mem_of_getLast? e)
      simp [hne]
  · intro i y hy
    rw [Links.append_prev]
    by_cases hi : i < xs.length
    · rw [List.getElem?_append_left hi] at hy
      have hyx : y ≠ x := fun e => hx (e ▸ List.mem_of_getElem? hy)
      rw [if_neg hyx, r.prev i y hy]
      cases i with
      | zero => rfl
      | succ i => simp only [before_succ]; rw [List.getElem?_append_left (by omega)]
    · obtain ⟨rfl, rfl⟩ := eq_of_getElem?_snoc hi hy
      rw [if_pos rfl, before_length_append]

/-- An append changes no list that holds neither the node nor the last node it is linked to. -/
theorem append_frame (last : Option α) (r : Represents L h ys) (hx : x ∉ ys) (hl : ∀ p, last = some p → p ∉ ys) :
    Represents (L.append last x) h ys := by
  refine r.congr ?_ ?_
  · intro y hy
    have hyx : y ≠ x := fun e => hx (e ▸ hy)
    rw [Links.append_next, if_neg (fun e => hl y e hy), if_neg hyx]
  · intro y hy
    have hyx : y ≠ x := fun e => hx (e ▸ hy)
    rw [Links.append_prev, if_neg hyx]

/-- Unlinking a node, wherever it stands, gives the list without it, in the same order. -/
theorem unlink (r : Represents L h xs) {l t : List α} (hs : xs = l ++ x :: t) :
    Represents (L.unlink x) (if h = some x then L.next x else h) (l ++ t) := by
  have hnd := r.nodup
  rw [hs, List.nodup_middle, List.nodup_cons, List.mem_append, not_or] at hnd
  obtain ⟨⟨hxl, hxt⟩, hnd⟩ := hnd
  have hdis := List.disjoint_of_nodup_append hnd
  obtain ⟨hpx, hnx⟩ := r.at_split hs
  -- a node after `x`: only the first of them is touched, its predecessor becomes the one of `x`
  have hright : ∀ a y b, t = a ++ y :: b →
      (L.unlink x).prev y = (l ++ a).getLast? ∧ (L.unlink x).next y = b.head? := by
    intro a y b ht
    have hyx : y ≠ x := by rintro rfl; exact hxt (by simp [ht])
    have hyl : L.prev x ≠ some y := by
      rw [hpx]
      exact fun e => hdis (List.mem_of_getLast? e) (by simp [ht])
    obtain ⟨hpy, hny⟩ := r.at_split (l := l ++ x :: a) (t := b) (x := y) (by simp [hs, ht])
    rw [Links.unlink_prev, Links.unlink_next, if_neg hyx, if_neg hyx, if_neg hyl, hny]
    refine ⟨?_, rfl⟩
    cases a with
    | nil => simp [hnx, ht, hpx]
    | cons z a =>
      have hzy : z ≠ y := by
        rintro rfl
        rw [ht] at hnd
        simp [List.nodup_append] at hnd
      have hne : L.next x ≠ some y := by rw [hnx, ht]; simp [hzy]
      rw [if_neg hne, hpy]
      simp [List.getLast?_append, List.getLast?_cons]
  -- a node before `x`: only the last of them is touched, its successor becomes the one of `x`
  have hleft : ∀ a y b, l = a ++ y :: b →
      (L.unlink x).prev y = a.getLast? ∧ (L.unlink x).next y = (b ++ t).head? := by
    intro a y b hl
    have hyx : y ≠ x := by rintro rfl; exact hxl (by simp [hl])
    have hyt : L.next x ≠ some y := by
      rw [hnx]
      exact fun e => hdis (by simp [hl]) (List.mem_of_head? e)
    obtain ⟨hpy, hny⟩ := r.at_split (l := a) (t := b ++ x :: t) (x := y) (by simp [hs, hl])
    rw [Links.unlink_prev, Links.unlink_next, if_neg hyx, if_neg hyx, if_neg hyt, hpy]
    refine ⟨rfl, ?_⟩
    rcases List.eq_nil_or_concat b with rfl | ⟨b, z, rfl⟩
    · simp [hpx, hl, hnx]
    · have hzy : z ≠ y := by
        rintro rfl
        rw [hl] at hnd
        simp [List.nodup_append] at hnd
      have hne : L.prev x ≠ some y := by rw [hpx, hl]; simp [List.getLast?_append, List.getLast?_cons, hzy]
      rw [if_neg hne, hny]
      cases b <;> simp
  refine of_splits ?_ ?_
  · rw [r.head, hs, hnx]
    cases l with
    | nil => simp
    | cons y l =>
      have : y ≠ x := by rintro rfl; simp at hxl
      simp [this]
  · intro a y b hab
    rcases List.append_eq_append_iff.mp hab with ⟨a', rfl, ht⟩ | ⟨c, hl, hc⟩
    · exact hright a' y b ht
    · cases c with
      | nil =>
        simp only [List.nil_append, List.append_nil] at hc hl
        have := hright [] y b (by simp [hc])
        simpa [hl] using this
      | cons z c =>
        simp only [List.cons_append, List.cons.injEq] at hc
        obtain ⟨rfl, rfl⟩ := hc
        exact hleft a y c hl

/-- The sequence that is left, written as `List.erase`. -/
theorem erase_split {l t : List α} (r : Represents L h (l ++ x :: t)) : (l ++ x :: t).erase x = l ++ t := by
  have hnd := r.nodup
  rw [List.nodup_middle, List.nodup_cons, List.mem_append, not_or] at hnd
  rw [List.erase_append_right _ hnd.1.1, List.erase_cons_head]

/-- Unlinking a node of the list, with the sequence that is left written so. -/
theorem unlink_erase (r : Represents L h xs) (hx : x ∈ xs) :
    Represents (L.unlink x) (if h = some x then L.next x else h) (xs.erase x) := by
  obtain ⟨l, t, rfl⟩ := List.append_of_mem hx
  rw [r.erase_split]
  exact r.unlink rfl

/-- Unlinking a node of one list changes no list that shares no node with it. -/
theorem unlink_frame {h' : Option α} (r : Represents L h xs) (hx : x ∈ xs) (r' : Represents L h' ys)
    (hd : ∀ y ∈ ys, y ∉ xs) : Represents (L.unlink x) h' ys := by
  refine r'.congr ?_ ?_
  · intro y hy
    have hyx : y ≠ x := fun e => hd y hy (e ▸ hx)
    rw [Links.unlink_next, if_neg hyx, if_neg (fun e => hd y hy (r.prev_mem hx e))]
  · intro y hy
    have hyx : y ≠ x := fun e => hd y hy (e ▸ hx)
    rw [Links.unlink_prev, if_neg hyx, if_neg (fun e => hd y hy (r.next_mem hx e))]

end Represents

end Operations

/-! ## Walking to the end -/

/-- Induction along a represented list, from any place of it on: from a node to the next one, until its end. -/
theorem Represents.walk_induction {L : Links α} {h : Option α} {xs : List α} (r : Represents L h xs)
    {motive : (fuel i : Nat) → (cursor : Option α) → Prop} (done : ∀ n i, xs.length ≤ i → motive n i none)
    (step : ∀ n i x, xs[i]? = some x → motive n (i + 1) (L.next x) → motive (n + 1) i (some x)) :
    ∀ n i, xs.length ≤ i + n → motive n i xs[i]? := by
  intro n
  induction n with
  | zero =>
    intro i hi
    have hi : xs.length ≤ i := hi
    rw [List.getElem?_eq_none hi]
    exact done 0 i hi
  | succ n ih =>
    intro i hi
    cases hx : xs[i]? with
    | none => exact done (n + 1) i (List.getElem?_eq_none_iff.mp hx)
    | some x =>
      have hrest := ih (i + 1) (by omega)
      rw [← r.next i x hx] at hrest
      exact step n i x hx hrest

/-- Follow the next pointers from `cursor`, remembering the node last left, until the null pointer: the node last left. `none`
when the null pointer is not met within `fuel` nodes. -/
def Links.walk (L : Links α) : Nat → (cursor last : Option α) → Option (Option α)
  | _, none, last => some last
  | 0, some _, _ => none
  | fuel + 1, some x, _ => L.walk fuel (L.next x) (some x)

/-- The walk from the head of a represented list ends at its last node, with fuel for its nodes. -/
theorem Represents.walk {L : Links α} {h : Option α} {xs : List α} (r : Represents L h xs) (fuel : Nat)
    (hf : xs.length ≤ fuel) : L.walk fuel h none = some xs.getLast? := by
  -- the invariant of the walk: at position `i` the cursor is `xs[i]?` and the node last left is the one before it
  have key : ∀ n i, xs.length ≤ i + n → i ≤ xs.length → L.walk n xs[i]? (before xs i) = some xs.getLast? := by
    refine r.walk_induction (motive := fun n i cursor => i ≤ xs.length → L.walk n cursor (before xs i) = some xs.getLast?) ?_ ?_
    · intro n i hn hi
      obtain rfl : i = xs.length := by omega
      have hlast := before_length_append xs ([] : List α)
      rw [List.append_nil] at hlast
      rw [hlast, Links.walk]
    · intro n i x hx ih hi
      have hlt := (List.getElem?_eq_some_iff.mp hx).1
      have hrest := ih hlt
      rw [before_succ, hx] at hrest
      rw [Links.walk, hrest]
  have hwalk := key fuel 0 (by omega) (Nat.zero_le _)
  rwa [← r.head, before_zero] at hwalk

end DoublyLinked
