import Sel4Osapi.Basic
import Sel4Osapi.Lib.DoublyLinked

/-!
# list.c: the intrusive doubly linked list

The nodes live in a store that every list of the program shares. The operations write the pointers one at a time, in the order
of the source. `SIMPLE_LIST_LIFO` is commented out in list.h, so an insertion goes to the end of the list. The loop of
`sel4osapi_list_insert_node` ends because the list does; the model gives it fuel, and a list longer than the fuel is a fault
that the specification lemmas rule out.
-/

namespace Sel4Osapi

open DoublyLinked

/-- `sel4osapi_list_t`. -/
structure Node where
  el : Ptr
  next : Option Ptr
  prev : Option Ptr
  deriving DecidableEq, Repr

/-- The memory of the nodes. -/
abbrev NodeStore : Type := Ptr → Node

namespace NodeStore

/-- `a->next = v`. -/
def setNext (s : NodeStore) (a : Ptr) (v : Option Ptr) : NodeStore := Function.update s a { s a with next := v }

/-- `a->prev = v`. -/
def setPrev (s : NodeStore) (a : Ptr) (v : Option Ptr) : NodeStore := Function.update s a { s a with prev := v }

/-- `a->el = v`. -/
def setEl (s : NodeStore) (a : Ptr) (v : Ptr) : NodeStore := Function.update s a { s a with el := v }

/-- The pointers of the store. -/
def links (s : NodeStore) : Links Ptr where
  next a := (s a).next
  prev a := (s a).prev

@[simp] theorem links_next (s : NodeStore) (a : Ptr) : s.links.next a = (s a).next := rfl

@[simp] theorem links_prev (s : NodeStore) (a : Ptr) : s.links.prev a = (s a).prev := rfl

@[simp] theorem links_setNext (s : NodeStore) (a : Ptr) (v : Option Ptr) :
    (s.setNext a v).links = s.links.setNext a v := by
  simp only [links, setNext, Links.setNext, Links.mk.injEq]
  constructor <;> funext b <;> by_cases h : b = a <;> simp [h]

@[simp] theorem links_setPrev (s : NodeStore) (a : Ptr) (v : Option Ptr) :
    (s.setPrev a v).links = s.links.setPrev a v := by
  simp only [links, setPrev, Links.setPrev, Links.mk.injEq]
  constructor <;> funext b <;> by_cases h : b = a <;> simp [h]

@[simp] theorem links_setEl (s : NodeStore) (a v : Ptr) : (s.setEl a v).links = s.links := by
  simp only [links, setEl, Links.mk.injEq]
  constructor <;> funext b <;> by_cases h : b = a <;> simp [h]

@[simp] theorem el_setNext (s : NodeStore) (a : Ptr) (v : Option Ptr) (b : Ptr) : (s.setNext a v b).el = (s b).el := by
  by_cases h : b = a <;> simp [setNext, h]

@[simp] theorem el_setPrev (s : NodeStore) (a : Ptr) (v : Option Ptr) (b : Ptr) : (s.setPrev a v b).el = (s b).el := by
  by_cases h : b = a <;> simp [setPrev, h]

@[simp] theorem el_setEl (s : NodeStore) (a v b : Ptr) : (s.setEl a v b).el = if b = a then v else (s b).el := by
  by_cases h : b = a <;> simp [setEl, h]

end NodeStore

/-- `sel4osapi_list_insert_node(head, node)`: the new store and the new head. -/
def listInsertNode (s : NodeStore) (fuel : Nat) (head : Option Ptr) (node : Ptr) : Res (NodeStore × Option Ptr) :=
  -- while (cursor != NULL) { prev = cursor; cursor = cursor->next; }
  match s.links.walk fuel head none with
  | none => .error .diverged
  | some prev =>
    let s := s.setNext node none
    match prev with
    | some p => .ok ((s.setNext p (some node)).setPrev node (some p), head)
    | none => .ok (s.setPrev node none, some node)

/-- `sel4osapi_list_insert(head, el)`; `newNode` is the block that `malloc` returns. -/
def listInsert (s : NodeStore) (fuel : Nat) (head : Option Ptr) (el newNode : Ptr) : Res (NodeStore × Option Ptr) :=
  listInsertNode (s.setEl newNode el) fuel head newNode

/-- `sel4osapi_list_unlink(head, node)`: the new store and the new head. -/
def listUnlink (s : NodeStore) (head : Option Ptr) (node : Ptr) : Res (NodeStore × Option Ptr) := do
  check (head ≠ none) "head != NULL"
  let prev := (s node).prev
  let next := (s node).next
  let s₁ := match prev with
    | some p => s.setNext p next
    | none => s
  let s₂ := match next with
    | some n => s₁.setPrev n prev
    | none => s₁
  let head' ← if head = some node then do
      check (prev = none) "prev == NULL"
      pure next
    else pure head
  pure ((s₂.setPrev node none).setNext node none, head')

/-- The loop of `sel4osapi_list_to_array` from `i` on, with `n` to go. -/
def listToArrayLoop (s : NodeStore) : (n i : Nat) → (list : Option Ptr) → (array : Nat → Ptr) → (Nat → Ptr) × Nat
  | 0, i, _, array => (array, i)
  | _ + 1, i, none, array => (array, i)
  | n + 1, i, some node, array => listToArrayLoop s n (i + 1) (s node).next (Function.update array i (s node).el)

/-- `sel4osapi_list_to_array(list, array, array_len_max, array_len_out)`: the code, the array and `*array_len_out`. The two
pointers to write to are never null. -/
def listToArray (s : NodeStore) (list : Option Ptr) (array : Nat → Ptr) (arrayLenMax : Int) : Res (Int × (Nat → Ptr) × Int) := do
  check (list ≠ none) "list != NULL"
  let (array, i) := listToArrayLoop s arrayLenMax.toNat 0 list array
  pure (0, array, i)

/-! ## What the operations do to the lists of the store -/

/-- An insertion into a list the fuel covers returns: the node is linked after the last one, and no element is touched. -/
theorem listInsertNode_spec {s : NodeStore} {head : Option Ptr} {xs : List Ptr} (fuel : Nat) (node : Ptr)
    (r : Represents s.links head xs) (hf : xs.length ≤ fuel) :
    ∃ s', listInsertNode s fuel head node = .ok (s', head.or (some node)) ∧
      s'.links = s.links.append xs.getLast? node ∧ ∀ b, (s' b).el = (s b).el := by
  unfold listInsertNode
  rw [r.walk fuel hf]
  cases hl : xs.getLast? with
  | none =>
    have hh : head = none := r.head_none_iff.mpr (List.getLast?_eq_none_iff.mp hl)
    refine ⟨_, by rw [hh]; rfl, ?_, by simp⟩
    simp [Links.append]
  | some p =>
    have hh : head ≠ none := fun e => by simp [r.head_none_iff.mp e] at hl
    obtain ⟨x, rfl⟩ := Option.ne_none_iff_exists'.mp hh
    refine ⟨_, rfl, ?_, by simp⟩
    simp [Links.append]

/-- An unlink of a node of the list returns: the node is taken out, the head moves on when it was the head, and no element is
touched. -/
theorem listUnlink_spec {s : NodeStore} {head : Option Ptr} {xs : List Ptr} {node : Ptr}
    (r : Represents s.links head xs) (hx : node ∈ xs) :
    ∃ s', listUnlink s head node = .ok (s', if head = some node then (s node).next else head) ∧
      s'.links = s.links.unlink node ∧ ∀ b, (s' b).el = (s b).el := by
  have hh : head ≠ none := fun e => by simp [r.head_none_iff.mp e] at hx
  have hp : head = some node → (s node).prev = none := by
    rintro rfl
    exact r.prev_none_of_head
  unfold listUnlink Links.unlink
  simp only [NodeStore.links_prev, NodeStore.links_next, check_of_true hh, ok_bind]
  by_cases hn : head = some node
  · simp only [hn, if_true, hp hn, check_of_true, ok_bind, pure_bind]
    refine ⟨_, rfl, ?_, ?_⟩ <;> cases (s node).next <;> simp
  · simp only [hn, if_false, pure_bind]
    refine ⟨_, rfl, ?_, ?_⟩ <;> cases (s node).prev <;> cases (s node).next <;> simp

/-- The loop of `sel4osapi_list_to_array` from position `i` of a list on: it ends at the end of the list or of the array, and
writes the elements it meets. -/
theorem listToArrayLoop_spec {s : NodeStore} {head : Option Ptr} {xs : List Ptr} (r : Represents s.links head xs) (n i : Nat)
    (hi : i ≤ xs.length) (array : Nat → Ptr) :
    (listToArrayLoop s n i xs[i]? array).2 = min xs.length (i + n) ∧
    (∀ k, i ≤ k → k < min xs.length (i + n) →
      xs[k]?.map (fun x => (s x).el) = some ((listToArrayLoop s n i xs[i]? array).1 k)) ∧
    ∀ k, k < i ∨ min xs.length (i + n) ≤ k → (listToArrayLoop s n i xs[i]? array).1 k = array k := by
  induction n generalizing i array with
  | zero =>
    rw [listToArrayLoop, Nat.add_zero, Nat.min_eq_right hi]
    exact ⟨rfl, fun k hk hk' => absurd hk (Nat.not_le_of_lt hk'), fun _ _ => rfl⟩
  | succ n ih =>
    rcases Nat.lt_or_eq_of_le hi with hlt | rfl
    · have hx : xs[i]? = some xs[i] := List.getElem?_eq_getElem hlt
      have hnext : (s xs[i]).next = xs[i + 1]? := r.next i _ hx
      have hlen : i + (n + 1) = i + 1 + n := by omega
      obtain ⟨hj, hwrites, hothers⟩ := ih (i + 1) hlt (Function.update array i (s xs[i]).el)
      rw [hx, listToArrayLoop, hnext, hlen]
      refine ⟨hj, ?_, ?_⟩
      · intro k hk hk'
        rcases Nat.eq_or_lt_of_le hk with rfl | hk
        · rw [hothers i (Or.inl (Nat.lt_succ_self i)), Function.update_self, hx, Option.map_some]
        · exact hwrites k hk hk'
      · intro k hk
        have hne : k ≠ i := by omega
        rw [hothers k (by omega), Function.update_of_ne hne]
    · rw [List.getElem?_eq_none (Nat.le_refl _), listToArrayLoop, Nat.min_eq_left (Nat.le_add_right _ _)]
      exact ⟨rfl, fun k hk hk' => absurd hk (Nat.not_le_of_lt hk'), fun _ _ => rfl⟩

/-- The array of a list that is not empty: its first elements, in order, as many as there is room for. -/
theorem listToArray_spec {s : NodeStore} {head : Option Ptr} {xs : List Ptr} (r : Represents s.links head xs) (hne : xs ≠ [])
    (array : Nat → Ptr) (arrayLenMax : Int) :
    ∃ array', listToArray s head array arrayLenMax = .ok (0, array', (min xs.length arrayLenMax.toNat : Nat)) ∧
      (∀ k < min xs.length arrayLenMax.toNat, xs[k]?.map (fun x => (s x).el) = some (array' k)) ∧
      ∀ k, min xs.length arrayLenMax.toNat ≤ k → array' k = array k := by
  have hhead : head ≠ none := fun h => hne (r.head_none_iff.mp h)
  obtain ⟨hj, hwrites, hothers⟩ := listToArrayLoop_spec r arrayLenMax.toNat 0 (Nat.zero_le _) array
  rw [Nat.zero_add] at hj hwrites hothers
  rw [← r.head] at hj hwrites hothers
  refine ⟨_, ?_, fun k hk => hwrites k (Nat.zero_le k) hk, fun k hk => hothers k (Or.inr hk)⟩
  rw [listToArray, check_of_true hhead, ok_bind, ← hj]
  rfl

end Sel4Osapi
