import Mathlib.Data.UInt

/-!
# Words, pointers and faults

The library runs on 32-bit seL4: `seL4_Word`, `seL4_CPtr` and `uint32_t` are 32-bit words. A pointer the code may find null
is an `Option`, null being `none`, and a pointer it never finds null is a `Ptr`. A call that fails an `assert`, that follows
a null pointer or whose loop does not end does not return: its value is a `Fault`.
-/

namespace Sel4Osapi

/-- The address of a block of memory, never null. -/
abbrev Ptr : Type := Nat

/-- `seL4_Word`, `seL4_Uint32`, `uint32_t`. -/
abbrev Word : Type := UInt32

/-- `seL4_CPtr`: a slot of a CSpace. -/
abbrev CPtr : Type := UInt32

/-- `seL4_CapNull`. -/
def capNull : CPtr := 0

/-- A word assigned to an `int`. -/
def intOfWord (w : Word) : Int := w.toBitVec.toInt

/-- Why a call does not return. -/
inductive Fault where
  /-- an `assert` failed; the text is its condition -/
  | assert (cond : String)
  /-- a loop did not end within the steps the model allows it -/
  | diverged
  /-- a null pointer was followed -/
  | nullPointer
  deriving DecidableEq, Repr

/-- The value of a call that may fail an assertion. -/
abbrev Res : Type → Type := Except Fault

/-- `assert(cond)`. -/
def check (c : Prop) [Decidable c] (text : String) : Res Unit :=
  if c then .ok () else .error (.assert text)

@[simp] theorem check_of_true {c : Prop} [Decidable c] (h : c) (text : String) : check c text = .ok () := if_pos h

/-- An assertion that passed held. -/
theorem of_check_ok {c : Prop} [Decidable c] {text : String} {u : Unit} (h : check c text = .ok u) : c := by
  unfold check at h
  split at h
  · assumption
  · cases h

/-- An assertion that failed is named in the fault. -/
theorem of_check_error {c : Prop} [Decidable c] {text : String} {e : Fault} (h : check c text = .error e) : e = .assert text := by
  unfold check at h
  split at h
  · cases h
  · cases h
    rfl

/-- `assert(p)` on a pointer: the pointer is not null from there on. -/
def checkSome {α : Type} (p : Option α) (text : String) : Res α :=
  match p with
  | some a => .ok a
  | none => .error (.assert text)

/-- A pointer that passed its assertion was not null. -/
theorem of_checkSome_ok {α : Type} {p : Option α} {text : String} {a : α} (h : checkSome p text = .ok a) : p = some a := by
  cases p with
  | none => cases h
  | some b =>
    cases h
    rfl

/-- A pointer that failed its assertion is named in the fault. -/
theorem of_checkSome_error {α : Type} {p : Option α} {text : String} {e : Fault} (h : checkSome p text = .error e) :
    e = .assert text := by
  cases p with
  | none =>
    cases h
    rfl
  | some b => cases h

/-- A call in sequence returned: its first part did, and so did the rest from there. -/
theorem bind_ok {α β : Type} {x : Res α} {f : α → Res β} {b : β} (h : (x >>= f) = .ok b) :
    ∃ a, x = .ok a ∧ f a = .ok b := by
  cases x with
  | error e => cases h
  | ok a => exact ⟨a, rfl, h⟩

/-- A call in sequence did not return: its first part did not, or the rest from there. -/
theorem bind_error {α β : Type} {x : Res α} {f : α → Res β} {e : Fault} (h : (x >>= f) = .error e) :
    x = .error e ∨ ∃ a, x = .ok a ∧ f a = .error e := by
  cases x with
  | error e' =>
    cases h
    exact Or.inl rfl
  | ok a => exact Or.inr ⟨a, rfl, h⟩

@[simp] theorem ok_bind {α β : Type} (a : α) (f : α → Res β) : ((Except.ok a : Res α) >>= f) = f a := rfl

/-- A call whose value passes a test returned. -/
theorem exists_ok_of_any {α : Type} {x : Res α} {P : α → Bool} (h : x.toOption.any P = true) : ∃ a, x = .ok a ∧ P a = true := by
  cases x with
  | error e => cases h
  | ok a => exact ⟨a, rfl, h⟩

/-- An entry of a list that has grown by one: an old entry, or the new one. -/
theorem getElem?_snoc {α : Type} {l : List α} {a b : α} {i : Nat} (h : (l ++ [a])[i]? = some b) :
    l[i]? = some b ∨ i = l.length ∧ a = b := by
  rcases Nat.lt_or_ge i l.length with hi | hi
  · rw [List.getElem?_append_left hi] at h
    exact Or.inl h
  · rw [List.getElem?_append_right hi, List.getElem?_singleton] at h
    split at h
    · exact Or.inr ⟨by omega, Option.some.inj h⟩
    · cases h

/-- An array that holds something of every element of a list, after one more element. -/
theorem update_length_snoc {α β : Type} {l : List α} {f : Nat → β} {g : α → β} (h : ∀ k x, l[k]? = some x → f k = g x) (y : α)
    (k : Nat) (x : α) (hk : (l ++ [y])[k]? = some x) : Function.update f l.length (g y) k = g x := by
  rcases getElem?_snoc hk with hk | ⟨rfl, rfl⟩
  · rw [Function.update_of_ne (Nat.ne_of_lt (List.getElem?_eq_some_iff.mp hk).1)]
    exact h k x hk
  · rw [Function.update_self]

end Sel4Osapi
