import Mathlib.Data.Set.Insert
import Sel4Osapi.List

/-!
# Any number of lists in one store

The lists of list.c share their nodes: a pool has two of them, and the nodes go from one to the other. `NodeStore.Holds` says of
a store that it holds a family of lists, pairwise disjoint, and that the other nodes of a set stand alone. An insertion and an
unlink change one list as they should, and nothing else (`insertNode`, `unlink`); so a run of them does to the family what it
does to the sequences (`lists_preserved`).
-/

namespace Sel4Osapi

open DoublyLinked

variable {ι : Type}

/-- A node in no list: its pointers are null. -/
def NodeStore.Isolated (s : NodeStore) (node : Ptr) : Prop := (s node).next = none ∧ (s node).prev = none

/-- From its head every list of the family is a sequence of nodes, no two of the lists share a node, and the rest of `nodes` is
isolated. -/
structure NodeStore.Holds (s : NodeStore) (nodes : Set Ptr) (head : ι → Option Ptr) (xs : ι → List Ptr) : Prop where
  rep : ∀ i, Represents s.links (head i) (xs i)
  disjoint : ∀ i j, i ≠ j → List.Disjoint (xs i) (xs j)
  mem : ∀ i, ∀ node ∈ xs i, node ∈ nodes
  isolated : ∀ node ∈ nodes, (∀ i, node ∉ xs i) → s.Isolated node

/-- An operation on the lists of the family. -/
inductive ListOp (ι : Type) where
  | insert (i : ι) (node : Ptr)
  | unlink (i : ι) (node : Ptr)

namespace ListOp

/-- A node that is inserted is in none of the lists, and one that is unlinked is in the list. -/
def Allowed (xs : ι → List Ptr) : ListOp ι → Prop
  | .insert _ node => ∀ j, node ∉ xs j
  | .unlink i node => node ∈ xs i

variable [DecidableEq ι]

/-- What an operation does to the sequences. -/
def apply (xs : ι → List Ptr) : ListOp ι → ι → List Ptr
  | .insert i node => Function.update xs i (xs i ++ [node])
  | .unlink i node => Function.update xs i ((xs i).erase node)

/-- What a sequence of operations does to them. -/
def applyAll (xs : ι → List Ptr) (ops : List (ListOp ι)) : ι → List Ptr := ops.foldl apply xs

/-- Each operation of a sequence is allowed where it comes. -/
def AllAllowed : (ι → List Ptr) → List (ListOp ι) → Prop
  | _, [] => True
  | xs, op :: ops => op.Allowed xs ∧ AllAllowed (op.apply xs) ops

/-- The nodes that have to do with the lists: one that is inserted does from then on. -/
def nodesAfter (nodes : Set Ptr) (ops : List (ListOp ι)) : Set Ptr :=
  nodes ∪ {node | ∃ i, insert i node ∈ ops}

/-- Whether a node is in a list after a sequence of operations, if it is in one before: the last operation on it decides. -/
def ListedAfter (node : Ptr) : List (ListOp ι) → Prop → Prop
  | [], listed => listed
  | .insert _ n :: ops, listed => ListedAfter node ops (n = node ∨ listed)
  | .unlink _ n :: ops, listed => ListedAfter node ops (n ≠ node ∧ listed)

end ListOp

/-- One operation of list.c. -/
def listStep [DecidableEq ι] (fuel : Nat) (s : NodeStore) (head : ι → Option Ptr) : ListOp ι → Res (NodeStore × (ι → Option Ptr))
  | .insert i node => do
    let (s, h) ← listInsertNode s fuel (head i) node
    pure (s, Function.update head i h)
  | .unlink i node => do
    let (s, h) ← listUnlink s (head i) node
    pure (s, Function.update head i h)

/-- A sequence of operations of list.c. -/
def listRun [DecidableEq ι] (fuel : Nat) (s : NodeStore) (head : ι → Option Ptr) :
    List (ListOp ι) → Res (NodeStore × (ι → Option Ptr))
  | [] => pure (s, head)
  | op :: ops => do
    let (s, head) ← listStep fuel s head op
    listRun fuel s head ops

/-- A node with the same element and the same pointers. -/
theorem NodeStore.eq_of_links {s s' : NodeStore} {node : Ptr} (hel : (s' node).el = (s node).el)
    (hnext : s'.links.next node = s.links.next node) (hprev : s'.links.prev node = s.links.prev node) : s' node = s node := by
  cases hs : s node
  cases hs' : s' node
  simp only [NodeStore.links_next, NodeStore.links_prev, hs, hs'] at hel hnext hprev
  rw [hel, hnext, hprev]

/-! ## One operation -/

namespace NodeStore.Holds

variable {s : NodeStore} {nodes : Set Ptr} {head : ι → Option Ptr} {xs : ι → List Ptr} {i : ι} {node : Ptr}

/-- A list has every node once. -/
theorem nodup (h : s.Holds nodes head xs) (i : ι) : (xs i).Nodup := (h.rep i).nodup

/-- A node is in one list only. -/
theorem not_mem (h : s.Holds nodes head xs) (hi : node ∈ xs i) {j : ι} (hj : j ≠ i) : node ∉ xs j :=
  fun hmem => h.disjoint j i hj hmem hi

variable [DecidableEq ι]

/-- `sel4osapi_list_insert_node` puts a node that is in none of the lists at the end of one, and touches the nodes of no other. -/
theorem insertNode (h : s.Holds nodes head xs) (hnode : ∀ j, node ∉ xs j) {fuel : Nat} (hfuel : (xs i).length ≤ fuel) :
    ∃ s' head', listInsertNode s fuel (head i) node = .ok (s', head') ∧
      s'.Holds (insert node nodes) (Function.update head i head') (Function.update xs i (xs i ++ [node])) ∧
      (∀ b, (s' b).el = (s b).el) ∧ ∀ b, b ∉ xs i → b ≠ node → s' b = s b := by
  obtain ⟨s', hs, hlinks, hel⟩ := listInsertNode_spec fuel node (h.rep i) hfuel
  have hlast : ∀ b, b ∉ xs i → (xs i).getLast? ≠ some b := fun b hb e => hb (List.mem_of_getLast? e)
  have hframe : ∀ b, b ∉ xs i → b ≠ node → s' b = s b := by
    intro b hb hne
    refine NodeStore.eq_of_links (hel b) ?_ ?_
    · rw [hlinks, Links.append_next, if_neg (hlast b hb), if_neg hne]
    · rw [hlinks, Links.append_prev, if_neg hne]
  have hsub : ∀ j b, b ∈ Function.update xs i (xs i ++ [node]) j → b ∈ xs j ∨ (j = i ∧ b = node) := by
    intro j b hb
    rcases eq_or_ne j i with rfl | hj
    · rw [Function.update_self, List.mem_append, List.mem_singleton] at hb
      exact hb.imp id fun e => ⟨rfl, e⟩
    · rw [Function.update_of_ne hj] at hb
      exact Or.inl hb
  refine ⟨s', _, hs, ⟨?_, ?_, ?_, ?_⟩, hel, hframe⟩
  · intro j
    rw [hlinks]
    rcases eq_or_ne j i with rfl | hj
    · rw [Function.update_self, Function.update_self]
      exact (h.rep j).append (hnode j)
    · rw [Function.update_of_ne hj, Function.update_of_ne hj]
      exact (h.rep j).append_frame _ (hnode j) fun p hp => h.not_mem (List.mem_of_getLast? hp) hj
  · intro j k hjk b hbj hbk
    rcases hsub j b hbj with hbj | ⟨hj, rfl⟩
    · rcases hsub k b hbk with hbk | ⟨-, heq⟩
      · exact h.disjoint j k hjk hbj hbk
      · exact hnode j (heq ▸ hbj)
    · rcases hsub k b hbk with hbk | ⟨hk, -⟩
      · exact hnode k hbk
      · exact hjk (hj.trans hk.symm)
  · intro j b hb
    rcases hsub j b hb with hb | ⟨-, rfl⟩
    · exact Set.mem_insert_of_mem _ (h.mem j b hb)
    · exact Set.mem_insert _ _
  · intro b hb hall
    have hbi := hall i
    rw [Function.update_self, List.mem_append, List.mem_singleton, not_or] at hbi
    have hold : ∀ j, b ∉ xs j := by
      intro j hj
      rcases eq_or_ne j i with rfl | hne
      · exact hbi.1 hj
      · refine hall j ?_
        rwa [Function.update_of_ne hne]
    rw [NodeStore.Isolated, hframe b hbi.1 hbi.2]
    exact h.isolated b (Set.mem_of_mem_insert_of_ne hb hbi.2) hold

/-- `sel4osapi_list_unlink` takes a node out of its list, wherever it stands, leaves it alone, and touches the nodes of no other
list. -/
theorem unlink (h : s.Holds nodes head xs) (hnode : node ∈ xs i) :
    ∃ s' head', listUnlink s (head i) node = .ok (s', head') ∧
      s'.Holds nodes (Function.update head i head') (Function.update xs i ((xs i).erase node)) ∧ s'.Isolated node ∧
      (∀ b, (s' b).el = (s b).el) ∧ ∀ b, b ∉ xs i → s' b = s b := by
  obtain ⟨s', hs, hlinks, hel⟩ := listUnlink_spec (h.rep i) hnode
  have hframe : ∀ b, b ∉ xs i → s' b = s b := by
    intro b hb
    have hne : b ≠ node := fun e => hb (e ▸ hnode)
    refine NodeStore.eq_of_links (hel b) ?_ ?_
    · rw [hlinks, Links.unlink_next, if_neg hne, if_neg fun e => hb ((h.rep i).prev_mem hnode e)]
    · rw [hlinks, Links.unlink_prev, if_neg hne, if_neg fun e => hb ((h.rep i).next_mem hnode e)]
  have halone : s'.Isolated node := by
    rw [NodeStore.Isolated, ← NodeStore.links_next, ← NodeStore.links_prev, hlinks, Links.unlink_next, Links.unlink_prev,
      if_pos rfl, if_pos rfl]
    exact ⟨rfl, rfl⟩
  have hsub : ∀ j, ∀ b ∈ Function.update xs i ((xs i).erase node) j, b ∈ xs j := by
    intro j b hb
    rcases eq_or_ne j i with rfl | hj
    · rw [Function.update_self] at hb
      exact List.mem_of_mem_erase hb
    · rwa [Function.update_of_ne hj] at hb
  refine ⟨s', _, hs, ⟨?_, fun j k hjk b hbj hbk => h.disjoint j k hjk (hsub j b hbj) (hsub k b hbk),
    fun j b hb => h.mem j b (hsub j b hb), ?_⟩, halone, hel, hframe⟩
  · intro j
    rw [hlinks]
    rcases eq_or_ne j i with rfl | hj
    · rw [Function.update_self, Function.update_self]
      exact (h.rep j).unlink_erase hnode
    · rw [Function.update_of_ne hj, Function.update_of_ne hj]
      exact (h.rep i).unlink_frame hnode (h.rep j) fun b hb => h.not_mem hb hj.symm
  · intro b hb hall
    rcases eq_or_ne b node with rfl | hne
    · exact halone
    · have hbi : b ∉ xs i := by
        intro hbi
        refine hall i ?_
        rw [Function.update_self]
        exact (List.mem_erase_of_ne hne).mpr hbi
      have hold : ∀ j, b ∉ xs j := by
        intro j hj
        rcases eq_or_ne j i with rfl | hji
        · exact hbi hj
        · refine hall j ?_
          rwa [Function.update_of_ne hji]
      rw [NodeStore.Isolated, hframe b hbi]
      exact h.isolated b hb hold

/-! ## A run -/

/-- One operation that is allowed. -/
theorem step (h : s.Holds nodes head xs) {op : ListOp ι} (hop : op.Allowed xs) {fuel : Nat} (hfuel : ∀ i, (xs i).length ≤ fuel) :
    ∃ s' head', listStep fuel s head op = .ok (s', head') ∧ s'.Holds (ListOp.nodesAfter nodes [op]) head' (op.apply xs) ∧
      (∀ b, (s' b).el = (s b).el) ∧ ∀ b, b ∉ ListOp.nodesAfter nodes [op] → s' b = s b := by
  cases op with
  | insert i node =>
    obtain ⟨s', head', hs, hholds, hel, hframe⟩ := h.insertNode (i := i) hop (hfuel i)
    have hnodes : ListOp.nodesAfter nodes [ListOp.insert i node] = insert node nodes := by
      ext b
      simp [ListOp.nodesAfter, or_comm]
    rw [hnodes]
    refine ⟨s', _, by rw [listStep, hs, ok_bind]; rfl, hholds, hel, ?_⟩
    intro b hb
    rw [Set.mem_insert_iff, not_or] at hb
    exact hframe b (fun hbi => hb.2 (h.mem i b hbi)) hb.1
  | unlink i node =>
    obtain ⟨s', head', hs, hholds, -, hel, hframe⟩ := h.unlink hop
    have hnodes : ListOp.nodesAfter nodes [ListOp.unlink i node] = nodes := by
      ext b
      simp [ListOp.nodesAfter]
    rw [hnodes]
    exact ⟨s', _, by rw [listStep, hs, ok_bind]; rfl, hholds, hel, fun b hb => hframe b fun hbi => hb (h.mem i b hbi)⟩

/-- An operation makes a list longer by one node at most. -/
theorem length_apply_le (op : ListOp ι) (i : ι) : (op.apply xs i).length ≤ (xs i).length + 1 := by
  cases op with
  | insert j node =>
    rw [ListOp.apply]
    rcases eq_or_ne i j with rfl | hne
    · rw [Function.update_self, List.length_append, List.length_singleton]
    · rw [Function.update_of_ne hne]
      exact Nat.le_succ _
  | unlink j node =>
    rw [ListOp.apply]
    rcases eq_or_ne i j with rfl | hne
    · rw [Function.update_self]
      exact Nat.le_succ_of_le List.length_erase_le
    · rw [Function.update_of_ne hne]
      exact Nat.le_succ _

/-- A node is in a list after an operation exactly if that inserts it, or does not unlink it and it was in one before. -/
theorem listed_apply (h : s.Holds nodes head xs) {op : ListOp ι} (hop : op.Allowed xs) :
    (∃ i, node ∈ op.apply xs i) ↔ ListOp.ListedAfter node [op] (∃ i, node ∈ xs i) := by
  cases op with
  | insert i n =>
    simp only [ListOp.apply, ListOp.ListedAfter]
    constructor
    · rintro ⟨j, hj⟩
      rcases eq_or_ne j i with rfl | hne
      · rw [Function.update_self, List.mem_append, List.mem_singleton] at hj
        rcases hj with hj | rfl
        · exact Or.inr ⟨j, hj⟩
        · exact Or.inl rfl
      · rw [Function.update_of_ne hne] at hj
        exact Or.inr ⟨j, hj⟩
    · rintro (rfl | ⟨j, hj⟩)
      · exact ⟨i, by rw [Function.update_self]; exact List.mem_append_right _ (List.mem_singleton_self _)⟩
      · refine ⟨j, ?_⟩
        rcases eq_or_ne j i with rfl | hne
        · rw [Function.update_self]
          exact List.mem_append_left _ hj
        · rwa [Function.update_of_ne hne]
  | unlink i n =>
    simp only [ListOp.apply, ListOp.ListedAfter]
    constructor
    · rintro ⟨j, hj⟩
      rcases eq_or_ne j i with rfl | hne
      · rw [Function.update_self] at hj
        refine ⟨?_, j, List.mem_of_mem_erase hj⟩
        rintro rfl
        exact (h.nodup j).not_mem_erase hj
      · rw [Function.update_of_ne hne] at hj
        refine ⟨?_, j, hj⟩
        rintro rfl
        exact h.not_mem hop hne hj
    · rintro ⟨hne, j, hj⟩
      refine ⟨j, ?_⟩
      rcases eq_or_ne j i with rfl | hji
      · rw [Function.update_self]
        exact (List.mem_erase_of_ne hne.symm).mpr hj
      · rwa [Function.update_of_ne hji]

/-- A sequence of operations that are allowed. -/
theorem run (h : s.Holds nodes head xs) {ops : List (ListOp ι)} (hops : ListOp.AllAllowed xs ops) {fuel : Nat}
    (hfuel : ∀ i, (xs i).length + ops.length ≤ fuel) :
    ∃ s' head', listRun fuel s head ops = .ok (s', head') ∧ s'.Holds (ListOp.nodesAfter nodes ops) head' (ListOp.applyAll xs ops) ∧
      (∀ b, (s' b).el = (s b).el) ∧ (∀ b, b ∉ ListOp.nodesAfter nodes ops → s' b = s b) ∧
      ∀ node, (∃ i, node ∈ ListOp.applyAll xs ops i) ↔ ListOp.ListedAfter node ops (∃ i, node ∈ xs i) := by
  induction ops generalizing s nodes head xs with
  | nil =>
    have hnodes : ListOp.nodesAfter nodes ([] : List (ListOp ι)) = nodes := by simp [ListOp.nodesAfter]
    rw [hnodes]
    exact ⟨s, head, rfl, h, fun _ => rfl, fun _ _ => rfl, fun _ => Iff.rfl⟩
  | cons op ops ih =>
    rw [List.length_cons] at hfuel
    have hfuel₁ : ∀ i, (xs i).length ≤ fuel := fun i => by
      have := hfuel i
      omega
    have hfuel₂ : ∀ i, (op.apply xs i).length + ops.length ≤ fuel := fun i => by
      have hle : (op.apply xs i).length ≤ (xs i).length + 1 := length_apply_le op i
      have := hfuel i
      omega
    obtain ⟨s₁, head₁, hs₁, h₁, hel₁, hframe₁⟩ := h.step hops.1 hfuel₁
    obtain ⟨s₂, head₂, hs₂, h₂, hel₂, hframe₂, hlisted⟩ := ih h₁ hops.2 hfuel₂
    have hnodes : ListOp.nodesAfter (ListOp.nodesAfter nodes [op]) ops = ListOp.nodesAfter nodes (op :: ops) := by
      ext b
      simp [ListOp.nodesAfter, exists_or, or_assoc]
    rw [hnodes] at h₂ hframe₂
    refine ⟨s₂, head₂, by rw [listRun, hs₁, ok_bind]; exact hs₂, h₂, fun b => (hel₂ b).trans (hel₁ b), ?_, ?_⟩
    · intro b hb
      rw [hframe₂ b hb]
      refine hframe₁ b fun hb₁ => hb ?_
      rw [← hnodes]
      exact Or.inl hb₁
    · intro node
      have hcons : ListOp.ListedAfter node (op :: ops) (∃ i, node ∈ xs i) =
          ListOp.ListedAfter node ops (ListOp.ListedAfter node [op] (∃ i, node ∈ xs i)) := by
        cases op <;> rfl
      rw [hcons, ← h.listed_apply hops.1]
      exact hlisted node

end NodeStore.Holds

/-- In a store that holds any number of lists: `sel4osapi_list_insert_node` of a node that is in none of them appends it to one;
`sel4osapi_list_unlink` takes a node out of its list and leaves it alone; neither touches an element or a node of another list.
After every sequence of these the store holds the lists that the sequence comes to, each node once: it is in one of them exactly
if the last operation on it inserted it, or none came and it was in one before, and is isolated otherwise. And
`sel4osapi_list_to_array` on one that is not empty writes its first elements, in order, as many as there is room for. -/
theorem lists_preserved [DecidableEq ι] (s : NodeStore) (nodes : Set Ptr) (head : ι → Option Ptr) (xs : ι → List Ptr)
    (h : s.Holds nodes head xs) :
    (∀ i node fuel, (∀ j, node ∉ xs j) → (xs i).length ≤ fuel →
      ∃ s' head', listInsertNode s fuel (head i) node = .ok (s', head') ∧
        s'.Holds (insert node nodes) (Function.update head i head') (Function.update xs i (xs i ++ [node])) ∧
        (∀ b, (s' b).el = (s b).el) ∧ ∀ b, b ∉ xs i → b ≠ node → s' b = s b) ∧
    (∀ i, ∀ node ∈ xs i, ∃ s' head', listUnlink s (head i) node = .ok (s', head') ∧
      s'.Holds nodes (Function.update head i head') (Function.update xs i ((xs i).erase node)) ∧ s'.Isolated node ∧
      (∀ b, (s' b).el = (s b).el) ∧ ∀ b, b ∉ xs i → s' b = s b) ∧
    ∀ ops fuel, ListOp.AllAllowed xs ops → (∀ i, (xs i).length + ops.length ≤ fuel) →
      ∃ s' head', listRun fuel s head ops = .ok (s', head') ∧
        s'.Holds (ListOp.nodesAfter nodes ops) head' (ListOp.applyAll xs ops) ∧ (∀ i, (ListOp.applyAll xs ops i).Nodup) ∧
        (∀ b, (s' b).el = (s b).el) ∧ (∀ b, b ∉ ListOp.nodesAfter nodes ops → s' b = s b) ∧
        (∀ node, (∃ i, node ∈ ListOp.applyAll xs ops i) ↔ ListOp.ListedAfter node ops (∃ i, node ∈ xs i)) ∧
        ∀ i, ListOp.applyAll xs ops i ≠ [] → ∀ array arrayLenMax, ∃ array',
          listToArray s' (head' i) array arrayLenMax =
            .ok (0, array', (min (ListOp.applyAll xs ops i).length arrayLenMax.toNat : Nat)) ∧
          (∀ k < min (ListOp.applyAll xs ops i).length arrayLenMax.toNat,
            (ListOp.applyAll xs ops i)[k]?.map (fun x => (s x).el) = some (array' k)) ∧
          ∀ k, min (ListOp.applyAll xs ops i).length arrayLenMax.toNat ≤ k → array' k = array k := by
  refine ⟨fun i node fuel hnode hfuel => h.insertNode hnode hfuel, fun i node hnode => h.unlink hnode, ?_⟩
  intro ops fuel hops hfuel
  obtain ⟨s', head', hs, hholds, hel, hframe, hlisted⟩ := h.run hops hfuel
  refine ⟨s', head', hs, hholds, hholds.nodup, hel, hframe, hlisted, ?_⟩
  intro i hne array arrayLenMax
  obtain ⟨array', harray, hwrites, hothers⟩ := listToArray_spec (hholds.rep i) hne array arrayLenMax
  refine ⟨array', harray, ?_, hothers⟩
  simp only [hel] at hwrites
  exact hwrites

/-- A store with two lists, one of the nodes 1 and 2 and one of node 3. -/
def twoLists : NodeStore := fun n => ⟨10 * n, if n = 1 then some 2 else none, if n = 2 then some 1 else none⟩

/-- Node 1 goes from the first list of `twoLists` to the second. -/
theorem lists_preserved_two : ∃ s' head' array', listRun 5 twoLists (fun b : Bool => if b then some 3 else some 1)
      [.unlink false 1, .insert true 1] = .ok (s', head') ∧
    listToArray s' (head' true) (fun _ => 0) 8 = .ok (0, array', 2) ∧ array' 0 = 30 ∧ array' 1 = 10 := by
  have hholds : twoLists.Holds {1, 2, 3} (fun b : Bool => if b then some 3 else some 1) (fun b : Bool => if b then [3] else [1, 2]) := by
    refine ⟨?_, by simp, by simp, by simp⟩
    intro b
    cases b with
    | false =>
      have hx : ∀ i x, [1, 2][i]? = some x → i = 0 ∧ x = 1 ∨ i = 1 ∧ x = 2 := by
        rintro (_ | _ | i) x hx
        · exact Or.inl ⟨rfl, (Option.some.inj hx).symm⟩
        · exact Or.inr ⟨rfl, (Option.some.inj hx).symm⟩
        · cases hx
      refine ⟨rfl, ?_, ?_⟩
      · intro i x h
        obtain ⟨rfl, rfl⟩ | ⟨rfl, rfl⟩ := hx i x h
        · rfl
        · rfl
      · intro i x h
        obtain ⟨rfl, rfl⟩ | ⟨rfl, rfl⟩ := hx i x h
        · rfl
        · rfl
    | true =>
      have hx : ∀ i x, [3][i]? = some x → i = 0 ∧ x = 3 := by
        rintro (_ | i) x hx
        · exact ⟨rfl, (Option.some.inj hx).symm⟩
        · cases hx
      refine ⟨rfl, ?_, ?_⟩
      · intro i x h
        obtain ⟨rfl, rfl⟩ := hx i x h
        rfl
      · intro i x h
        obtain ⟨rfl, rfl⟩ := hx i x h
        rfl
  obtain ⟨-, -, hrun⟩ := lists_preserved twoLists {1, 2, 3} _ _ hholds
  have hops : ListOp.AllAllowed (fun b : Bool => if b then [3] else [1, 2]) [.unlink false 1, .insert true 1] := by
    refine ⟨by simp [ListOp.Allowed], ?_, trivial⟩
    rintro (_ | _) <;> simp [ListOp.apply]
  obtain ⟨s', head', hs, -, -, -, -, -, harray⟩ := hrun _ 5 hops (by rintro (_ | _) <;> simp)
  have hlist : ListOp.applyAll (fun b : Bool => if b then [3] else [1, 2]) [.unlink false 1, .insert true 1] true = [3, 1] := rfl
  have harray := harray true
  rw [hlist] at harray
  obtain ⟨array', hret, hwrites, -⟩ := harray (by simp) (fun _ => 0) 8
  have h₀ := hwrites 0 (by decide)
  have h₁ := hwrites 1 (by decide)
  refine ⟨s', head', array', hs, hret, ?_, ?_⟩
  · exact (Option.some.inj h₀).symm
  · exact (Option.some.inj h₁).symm

end Sel4Osapi
