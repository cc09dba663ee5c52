import Sel4Osapi.List

/-!
# pool.c: the simple object pool

A pool owns `size` elements, each reached through one list node, and keeps the nodes in two lists of one store: the free entries
and the entries handed out. `μ` is the memory that the elements live in, which the pool changes only through its init function
and reads only through its compare function. The blocks come from `malloc`: `malloc k` is the address of the `k`-th one.
-/

namespace Sel4Osapi

open DoublyLinked

/-- `simple_pool_t`, with the nodes and the element memory it works on. `init_arg` is a constant of the pool and is part of
`initFn`. -/
structure Pool (μ : Type) where
  nodes : NodeStore
  mem : μ
  freeEntries : Option Ptr
  entries : Option Ptr
  elSize : Nat
  size : Int
  currentSize : Int
  initFn : Option (Ptr → μ → μ)
  compareFn : Option (μ → Ptr → Ptr → Int)

namespace Pool

variable {μ : Type}

/-- The steps the model allows a loop over a list of the pool: as many as the pool has nodes. -/
def fuel (p : Pool μ) : Nat := p.size.toNat

/-- `if (pool->init_fn) pool->init_fn(el, pool->init_arg)`. -/
def init (p : Pool μ) (el : Ptr) : μ :=
  match p.initFn with
  | some f => f el p.mem
  | none => p.mem

/-- The test of `simple_pool_find_node` on the element of a node: by the compare function, or by address without one. -/
def isMatch (p : Pool μ) (el el' : Ptr) : Bool :=
  match p.compareFn with
  | some f => f p.mem el el' == 0
  | none => el == el'

end Pool

variable {μ : Type}

/-- The loop of `simple_pool_new`, from iteration `i` on with `n` iterations to go: an element block and a node block each. -/
def simplePoolNewLoop (malloc : Nat → Ptr) : (n i : Nat) → Pool μ → Res (Pool μ)
  | 0, _, p => .ok p
  | n + 1, i, p => do
    let el := malloc (2 * i)
    let mem := p.init el
    let (nodes, head) ← listInsert p.nodes p.fuel p.freeEntries el (malloc (2 * i + 1))
    simplePoolNewLoop malloc n (i + 1) { p with nodes := nodes, mem := mem, freeEntries := head }

/-- `simple_pool_new(size, el_size, init_fn, init_arg, compare_fn)`, on the memory `nodes`, `mem` as it is before. -/
def simplePoolNew (malloc : Nat → Ptr) (nodes : NodeStore) (mem : μ) (size : Int) (elSize : Nat)
    (initFn : Option (Ptr → μ → μ)) (compareFn : Option (μ → Ptr → Ptr → Int)) : Res (Pool μ) := do
  check (size > 0) "size > 0"
  check (elSize > 0) "el_size > 0"
  simplePoolNewLoop malloc size.toNat 0
    { nodes := nodes, mem := mem, freeEntries := none, entries := none, elSize := elSize, size := size, currentSize := 0,
      initFn := initFn, compareFn := compareFn }

/-- The blocks and the memory that a new pool of elements gets. -/
structure PoolBlocks (ε : Type) where
  malloc : Nat ↪ Ptr
  nodes : NodeStore
  mem : Ptr → ε
  elSize : Nat

/-- The blocks of a pool that is filled with one value. -/
def blocksOf {ε : Type} (value : ε) : PoolBlocks ε where
  malloc := .refl _
  nodes := fun _ => ⟨0, none, none⟩
  mem := fun _ => value
  elSize := 4

/-- `simple_pool_new(size, el_size, NULL, NULL, NULL)`. -/
def simplePoolNewPlain {ε : Type} (b : PoolBlocks ε) (size : Int) : Res (Pool (Ptr → ε)) :=
  simplePoolNew b.malloc b.nodes b.mem size b.elSize none none

/-- `simple_pool_alloc_entry(pool)`: the node handed out, null when there is none. -/
def simplePoolAllocEntry (p : Pool μ) : Res (Option Ptr × Pool μ) :=
  match p.freeEntries with
  | none => .ok (none, p)
  | some entry => do
    let (nodes, freeEntries) ← listUnlink p.nodes p.freeEntries entry
    let mem := p.init (p.nodes entry).el
    let (nodes, entries) ← listInsertNode nodes p.fuel p.entries entry
    check (p.currentSize + 1 ≤ p.size) "pool->current_size <= pool->size"
    .ok (some entry, { p with
      nodes := nodes, mem := mem, freeEntries := freeEntries, entries := entries, currentSize := p.currentSize + 1 })

/-- `simple_pool_alloc(pool)`: the element handed out, null when there is none. -/
def simplePoolAlloc (p : Pool μ) : Res (Option Ptr × Pool μ) := do
  let (entry, p) ← simplePoolAllocEntry p
  match entry with
  | none => pure (none, p)
  | some n => pure (some (p.nodes n).el, p)

/-- `simple_pool_free_entry(pool, entry)`. -/
def simplePoolFreeEntry (p : Pool μ) (entry : Ptr) : Res (Int × Pool μ) := do
  let (nodes, entries) ← listUnlink p.nodes p.entries entry
  check (p.currentSize - 1 ≥ 0) "pool->current_size >= 0"
  let mem := p.init (p.nodes entry).el
  let (nodes, freeEntries) ← listInsertNode nodes p.fuel p.freeEntries entry
  pure (0, { p with
    nodes := nodes, mem := mem, freeEntries := freeEntries, entries := entries, currentSize := p.currentSize - 1 })

/-- The loop of `simple_pool_find_node` from `cursor`. -/
def simplePoolFindLoop (p : Pool μ) (el : Ptr) : Nat → Option Ptr → Res (Option Ptr)
  | _, none => .ok none
  | 0, some _ => .error .diverged
  | fuel + 1, some cursor =>
    if p.isMatch (p.nodes cursor).el el then .ok (some cursor)
    else simplePoolFindLoop p el fuel (p.nodes cursor).next

/-- `simple_pool_find_node(pool, el)`: the first entry whose element matches. -/
def simplePoolFindNode (p : Pool μ) (el : Ptr) : Res (Option Ptr) := simplePoolFindLoop p el p.fuel p.entries

/-- `simple_pool_free(pool, el)`: the code returned. -/
def simplePoolFree (p : Pool μ) (el : Ptr) : Res (Int × Pool μ) := do
  match ← simplePoolFindNode p el with
  | none => pure (-1, p)
  | some entry => simplePoolFreeEntry p entry

/-- `simple_pool_get_current_size(pool)`. -/
def simplePoolGetCurrentSize (p : Pool μ) : Int := p.currentSize

/-- The elements a loop over the entries of a pool meets, from `cursor` on. -/
def Pool.elementsFrom (p : Pool μ) : Nat → Option Ptr → Res (List Ptr)
  | _, none => .ok []
  | 0, some _ => .error .diverged
  | fuel + 1, some cursor => do
    let els ← p.elementsFrom fuel (p.nodes cursor).next
    pure ((p.nodes cursor).el :: els)

/-- The elements a loop over the entries of a pool meets. -/
def Pool.elements (p : Pool μ) : Res (List Ptr) := p.elementsFrom p.fuel p.entries

/-- The elements that a pool has handed out. -/
def Pool.contents (p : Pool μ) : List Ptr :=
  match p.elements with
  | .ok els => els
  | .error _ => []

/-! ## The two sequences a pool stands for -/

/-- The pool stands for the sequences `free` and `live`: its heads represent them, they share no node, the counters are their
lengths, and no two nodes have the same element. -/
structure Pool.Rep (p : Pool μ) (free live : List Ptr) : Prop where
  freeList : Represents p.nodes.links p.freeEntries free
  liveList : Represents p.nodes.links p.entries live
  nodup : (free ++ live).Nodup
  size : p.size = free.length + live.length
  currentSize : p.currentSize = live.length
  els : ((free ++ live).map fun n => (p.nodes n).el).Nodup

/-- What no operation of a pool changes: its size, its functions and which element a node carries. -/
structure Pool.Frame (p p' : Pool μ) : Prop where
  size : p'.size = p.size
  initFn : p'.initFn = p.initFn
  compareFn : p'.compareFn = p.compareFn
  el : ∀ n, (p'.nodes n).el = (p.nodes n).el

namespace Pool

variable {p p' p'' : Pool μ} {free live : List Ptr}

theorem Frame.refl (p : Pool μ) : Frame p p := ⟨rfl, rfl, rfl, fun _ => rfl⟩

theorem Frame.trans (h : Frame p p') (h' : Frame p' p'') : Frame p p'' :=
  ⟨h'.size.trans h.size, h'.initFn.trans h.initFn, h'.compareFn.trans h.compareFn, fun n => (h'.el n).trans (h.el n)⟩

namespace Rep

/-- The lists of a pool are short enough for the fuel of its loops. -/
theorem length_le_fuel (r : Rep p free live) : free.length + live.length ≤ p.fuel := by
  have := r.size
  unfold fuel
  omega

/-- A pool stands for one pair of sequences only. -/
theorem unique {free' live' : List Ptr} (r : Rep p free live) (r' : Rep p free' live') : free' = free ∧ live' = live :=
  ⟨r'.freeList.unique r.freeList, r'.liveList.unique r.liveList⟩

/-- No node is both free and handed out. -/
theorem disjoint (r : Rep p free live) : ∀ n ∈ live, n ∉ free :=
  fun _ hl hf => List.disjoint_of_nodup_append r.nodup hf hl

/-- Two nodes of the pool with the same element are the same node. -/
theorem el_inj (r : Rep p free live) {m n : Ptr} (hm : m ∈ free ++ live) (hn : n ∈ free ++ live)
    (h : (p.nodes m).el = (p.nodes n).el) : m = n :=
  List.inj_on_of_nodup_map r.els hm hn h

/-- The element of a free entry is not one of those handed out. -/
theorem fresh {x : Ptr} (r : Rep p (x :: free) live) : (p.nodes x).el ∉ live.map fun n => (p.nodes n).el := by
  intro hx
  obtain ⟨n, hn, he⟩ := List.mem_map.mp hx
  have hnx := r.el_inj (List.mem_append_right _ hn) (List.mem_append_left _ List.mem_cons_self) he
  exact r.disjoint n hn (hnx ▸ List.mem_cons_self)

/-- The count of the entries handed out lies between zero and the size of the pool. -/
theorem currentSize_bounds (r : Rep p free live) : 0 ≤ p.currentSize ∧ p.currentSize ≤ p.size := by
  have h1 := r.size
  have h2 := r.currentSize
  omega

/-- A change to the element memory alone keeps what the pool stands for. -/
theorem write (r : Rep p free live) (mem : μ) : Rep { p with mem := mem } free live :=
  ⟨r.freeList, r.liveList, r.nodup, r.size, r.currentSize, r.els⟩

/-- A pool that stands for rearranged sequences, over a store with the same elements. -/
theorem els_of_perm {free' live' : List Ptr} (r : Rep p free live) (hp : (free' ++ live').Perm (free ++ live))
    (hel : ∀ n, (p'.nodes n).el = (p.nodes n).el) : ((free' ++ live').map fun n => (p'.nodes n).el).Nodup := by
  simp only [hel]
  exact (hp.map _).nodup_iff.mpr r.els

end Rep

end Pool

open Pool

/-- With no free entry `simple_pool_alloc_entry` returns null and changes nothing. -/
theorem simplePoolAllocEntry_empty {p : Pool μ} {live : List Ptr} (r : p.Rep [] live) :
    simplePoolAllocEntry p = .ok (none, p) := by
  unfold simplePoolAllocEntry
  rw [r.freeList.head_none_iff.mpr rfl]

/-- With a free entry `simple_pool_alloc_entry` moves the first of them to the end of the entries and initialises it. -/
theorem simplePoolAllocEntry_cons {p : Pool μ} {x : Ptr} {free live : List Ptr} (r : p.Rep (x :: free) live) :
    ∃ p', simplePoolAllocEntry p = .ok (some x, p') ∧ p'.Rep free (live ++ [x]) ∧ p.Frame p' ∧
      p'.mem = p.init (p.nodes x).el := by
  have hhead : p.freeEntries = some x := r.freeList.head
  have hxl : x ∉ live := fun h => r.disjoint x h (List.mem_cons_self)
  have hnd := r.nodup
  rw [List.cons_append, List.nodup_cons] at hnd
  obtain ⟨hxf, hnd⟩ := hnd
  obtain ⟨s₁, hu, hlinks₁, hel₁⟩ := listUnlink_spec r.freeList (List.mem_cons_self)
  have rfree := r.freeList.unlink (l := []) rfl
  have rlive := r.freeList.unlink_frame (List.mem_cons_self) r.liveList r.disjoint
  rw [← hlinks₁] at rfree rlive
  simp only [List.nil_append] at rfree
  obtain ⟨s₂, hi, hlinks₂, hel₂⟩ := listInsertNode_spec p.fuel x rlive (by have := r.length_le_fuel; omega)
  have hsize : p.currentSize + 1 ≤ p.size := by
    have h1 := r.size
    have h2 := r.currentSize
    simp only [List.length_cons] at h1
    omega
  unfold simplePoolAllocEntry
  simp only [hhead] at hu ⊢
  simp only [hu, ok_bind, hi, check_of_true hsize]
  refine ⟨_, rfl, ?_, ⟨rfl, rfl, rfl, fun n => by rw [hel₂, hel₁]⟩, rfl⟩
  have rfree₂ := Represents.append_frame live.getLast? (x := x) rfree (fun h => hxf (List.mem_append_left _ h))
    (fun q hq h => List.disjoint_of_nodup_append hnd h (List.mem_of_getLast? hq))
  have rlive₂ := rlive.append hxl
  rw [← hlinks₂] at rfree₂ rlive₂
  simp only [hhead, if_true] at rfree₂
  have hperm : (free ++ (live ++ [x])).Perm (x :: free ++ live) := by
    rw [← List.append_assoc]
    exact List.perm_append_singleton x (free ++ live)
  refine ⟨?_, rlive₂, hperm.nodup_iff.mpr r.nodup, ?_, ?_, r.els_of_perm hperm (fun n => by rw [hel₂, hel₁])⟩
  · simpa using rfree₂
  · have := r.size
    simp only [List.length_cons, List.length_append, List.length_nil] at this ⊢
    omega
  · have := r.currentSize
    simp only [List.length_append, List.length_cons, List.length_nil]
    omega

/-- With no free entry `simple_pool_alloc` returns null and changes nothing. -/
theorem simplePoolAlloc_empty {p : Pool μ} {live : List Ptr} (r : p.Rep [] live) : simplePoolAlloc p = .ok (none, p) := by
  simp only [simplePoolAlloc, simplePoolAllocEntry_empty r, ok_bind]
  rfl

/-- With a free entry `simple_pool_alloc` returns the element of the first of them. -/
theorem simplePoolAlloc_cons {p : Pool μ} {x : Ptr} {free live : List Ptr} (r : p.Rep (x :: free) live) :
    ∃ p', simplePoolAlloc p = .ok (some (p.nodes x).el, p') ∧ p'.Rep free (live ++ [x]) ∧ p.Frame p' ∧
      p'.mem = p.init (p.nodes x).el := by
  obtain ⟨p', hp', hr, hf, hm⟩ := simplePoolAllocEntry_cons r
  refine ⟨p', ?_, hr, hf, hm⟩
  simp only [simplePoolAlloc, hp', ok_bind, hf.el]
  rfl

/-- A pool that handed out an element has one more in use. -/
theorem simplePoolAlloc_currentSize {p p' : Pool μ} {el : Ptr} (h : simplePoolAlloc p = .ok (some el, p')) :
    simplePoolGetCurrentSize p' = simplePoolGetCurrentSize p + 1 := by
  obtain ⟨⟨entry, q⟩, hentry, h⟩ := bind_ok h
  rw [simplePoolAllocEntry] at hentry
  split at hentry
  · cases hentry
    cases h
  · obtain ⟨⟨nodes, free⟩, -, hentry⟩ := bind_ok hentry
    obtain ⟨⟨nodes', live⟩, -, hentry⟩ := bind_ok hentry
    obtain ⟨_, -, hentry⟩ := bind_ok hentry
    cases hentry
    cases h
    rfl

/-- `simple_pool_free_entry` moves an entry, wherever it stands among the entries, to the end of the free entries. -/
theorem simplePoolFreeEntry_spec {p : Pool μ} {x : Ptr} {free l t : List Ptr} (r : p.Rep free (l ++ x :: t)) :
    ∃ p', simplePoolFreeEntry p x = .ok (0, p') ∧ p'.Rep (free ++ [x]) (l ++ t) ∧ p.Frame p' ∧
      p'.mem = p.init (p.nodes x).el := by
  have hxm : x ∈ l ++ x :: t := by simp
  have hxf : x ∉ free := r.disjoint x hxm
  have hnd := r.nodup
  obtain ⟨s₁, hu, hlinks₁, hel₁⟩ := listUnlink_spec r.liveList hxm
  have rlive := r.liveList.unlink rfl
  have rfree := r.liveList.unlink_frame hxm r.freeList (fun y hf hl => r.disjoint y hl hf)
  rw [← hlinks₁] at rfree rlive
  obtain ⟨s₂, hi, hlinks₂, hel₂⟩ := listInsertNode_spec p.fuel x rfree (by have := r.length_le_fuel; omega)
  have hsize : p.currentSize - 1 ≥ 0 := by
    have := r.currentSize
    simp only [List.length_append, List.length_cons] at this
    omega
  unfold simplePoolFreeEntry
  simp only [hu, ok_bind, check_of_true hsize, hi]
  refine ⟨_, rfl, ?_, ⟨rfl, rfl, rfl, fun n => by rw [hel₂, hel₁]⟩, rfl⟩
  have hxlt : x ∉ l ++ t := by
    have := r.liveList.nodup
    rw [List.nodup_middle, List.nodup_cons] at this
    exact this.1
  have rlive₂ := Represents.append_frame free.getLast? (x := x) rlive hxlt (fun q hq h => by
    refine r.disjoint q ?_ (List.mem_of_getLast? hq)
    rcases List.mem_append.mp h with h | h <;> simp [h])
  have rfree₂ := rfree.append hxf
  rw [← hlinks₂] at rfree₂ rlive₂
  have hperm : (free ++ [x] ++ (l ++ t)).Perm (free ++ (l ++ x :: t)) := by
    rw [List.append_assoc]
    have hmiddle : (l ++ x :: t).Perm (x :: (l ++ t)) := List.perm_middle
    exact List.Perm.append_left free hmiddle.symm
  refine ⟨rfree₂, rlive₂, hperm.nodup_iff.mpr hnd, ?_, ?_, r.els_of_perm hperm (fun n => by rw [hel₂, hel₁])⟩
  · have := r.size
    simp only [List.length_append, List.length_cons, List.length_nil] at this ⊢
    omega
  · have := r.currentSize
    simp only [List.length_append, List.length_cons] at this ⊢
    omega

/-- The search from a place of the entries returns the first match from there on. -/
theorem simplePoolFindLoop_spec {p : Pool μ} {free live : List Ptr} (r : p.Rep free live) (el : Ptr) :
    ∀ (n i : Nat), live.length ≤ i + n → simplePoolFindLoop p el n live[i]? =
      .ok ((live.drop i).find? fun m => p.isMatch (p.nodes m).el el) := by
  refine r.liveList.walk_induction
    (motive := fun n i cursor => simplePoolFindLoop p el n cursor = .ok ((live.drop i).find? fun m => p.isMatch (p.nodes m).el el)) ?_ ?_
  · intro n i hi
    rw [List.drop_eq_nil_of_le hi, simplePoolFindLoop]
    rfl
  · intro n i x hx ih
    obtain ⟨hlt, rfl⟩ := List.getElem?_eq_some_iff.mp hx
    rw [NodeStore.links_next] at ih
    rw [List.drop_eq_getElem_cons hlt, simplePoolFindLoop, List.find?_cons]
    split
    · rename_i hm
      rw [hm]
    · rename_i hm
      rw [ih]
      simp [hm]

/-- `simple_pool_find_node` returns the first entry whose element matches, null when none does. -/
theorem simplePoolFindNode_spec {p : Pool μ} {free live : List Ptr} (r : p.Rep free live) (el : Ptr) :
    simplePoolFindNode p el = .ok (live.find? fun m => p.isMatch (p.nodes m).el el) := by
  unfold simplePoolFindNode
  rw [r.liveList.head, simplePoolFindLoop_spec r el p.fuel 0 (by have := r.length_le_fuel; omega), List.drop_zero]

/-- A loop over the entries of a pool from a place on meets the elements from there on. -/
theorem Pool.elementsFrom_spec {p : Pool μ} {free live : List Ptr} (r : p.Rep free live) :
    ∀ (n i : Nat), live.length ≤ i + n → p.elementsFrom n live[i]? = .ok ((live.drop i).map fun m => (p.nodes m).el) := by
  refine r.liveList.walk_induction
    (motive := fun n i cursor => p.elementsFrom n cursor = .ok ((live.drop i).map fun m => (p.nodes m).el)) ?_ ?_
  · intro n i hi
    rw [List.drop_eq_nil_of_le hi, Pool.elementsFrom]
    rfl
  · intro n i x hx ih
    obtain ⟨hlt, rfl⟩ := List.getElem?_eq_some_iff.mp hx
    rw [NodeStore.links_next] at ih
    rw [List.drop_eq_getElem_cons hlt, Pool.elementsFrom, ih]
    rfl

/-- A loop over the entries of a pool meets the elements in order. -/
theorem Pool.elements_spec {p : Pool μ} {free live : List Ptr} (r : p.Rep free live) :
    p.elements = .ok (live.map fun m => (p.nodes m).el) := by
  unfold Pool.elements
  rw [r.liveList.head, Pool.elementsFrom_spec r p.fuel 0 (by have := r.length_le_fuel; omega), List.drop_zero]

/-- With a match `simple_pool_free` moves the first matching entry to the end of the free entries and returns 0. -/
theorem simplePoolFree_some {p : Pool μ} {x : Ptr} {free l t : List Ptr} (r : p.Rep free (l ++ x :: t)) (el : Ptr)
    (hx : p.isMatch (p.nodes x).el el = true) (hl : ∀ n ∈ l, p.isMatch (p.nodes n).el el = false) :
    ∃ p', simplePoolFree p el = .ok (0, p') ∧ p'.Rep (free ++ [x]) (l ++ t) ∧ p.Frame p' ∧
      p'.mem = p.init (p.nodes x).el := by
  unfold simplePoolFree
  have hf : ((l ++ x :: t).find? fun m => p.isMatch (p.nodes m).el el) = some x := by
    rw [List.find?_eq_some_iff_append]
    exact ⟨hx, l, t, rfl, fun a ha => by simp [hl a ha]⟩
  rw [simplePoolFindNode_spec r el, hf]
  exact simplePoolFreeEntry_spec r

/-! ## A new pool -/

/-- The node blocks of a pool of `n` elements, in the order `simple_pool_new` makes them. -/
def poolNodes (malloc : Nat → Ptr) (n : Nat) : List Ptr := (List.range n).map fun i => malloc (2 * i + 1)

theorem poolNodes_succ (malloc : Nat → Ptr) (n : Nat) :
    poolNodes malloc (n + 1) = poolNodes malloc n ++ [malloc (2 * n + 1)] := by
  simp [poolNodes, List.range_succ]

theorem not_mem_poolNodes {malloc : Nat → Ptr} (hm : Function.Injective malloc) (n : Nat) :
    malloc (2 * n + 1) ∉ poolNodes malloc n := by
  intro h
  obtain ⟨i, hi, he⟩ := List.mem_map.mp h
  have hlt := List.mem_range.mp hi
  have := hm he
  omega

/-- What the loop of `simple_pool_new` has made after `i` iterations: the list of the first `i` nodes, each with its own element
block. -/
structure Pool.Made (malloc : Nat → Ptr) (i : Nat) (p : Pool μ) : Prop where
  freeList : Represents p.nodes.links p.freeEntries (poolNodes malloc i)
  el : ∀ j < i, (p.nodes (malloc (2 * j + 1))).el = malloc (2 * j)

/-- The loop of `simple_pool_new` returns, with all the nodes made and the rest of the pool as it was. -/
theorem simplePoolNewLoop_spec {malloc : Nat → Ptr} (hm : Function.Injective malloc) :
    ∀ (n i : Nat) (p : Pool μ), p.Made malloc i → i + n ≤ p.fuel →
      ∃ p', simplePoolNewLoop malloc n i p = .ok p' ∧ p'.Made malloc (i + n) ∧ p'.entries = p.entries ∧
        p'.size = p.size ∧ p'.currentSize = p.currentSize ∧ p'.initFn = p.initFn ∧ p'.compareFn = p.compareFn := by
  intro n
  induction n with
  | zero => intro i p hp _; exact ⟨p, rfl, hp, rfl, rfl, rfl, rfl, rfl⟩
  | succ n ih =>
    intro i p hp hf
    have hlen : (poolNodes malloc i).length ≤ p.fuel := by
      simp only [poolNodes, List.length_map, List.length_range]
      omega
    have hfree : Represents (p.nodes.setEl (malloc (2 * i + 1)) (malloc (2 * i))).links p.freeEntries
        (poolNodes malloc i) := by
      rw [NodeStore.links_setEl]
      exact hp.freeList
    obtain ⟨s, hs, hlinks, hel⟩ := listInsertNode_spec p.fuel (malloc (2 * i + 1)) hfree hlen
    have happ := hfree.append (not_mem_poolNodes hm i)
    rw [← hlinks, ← poolNodes_succ] at happ
    simp only [simplePoolNewLoop, listInsert, hs, ok_bind]
    obtain ⟨p', hp', hmade, h1, h2, h3, h4, h5⟩ := ih (i + 1)
      { p with nodes := s, mem := p.init (malloc (2 * i)), freeEntries := p.freeEntries.or (some (malloc (2 * i + 1))) }
      ⟨happ, fun j hj => by
        simp only [hel, NodeStore.el_setEl]
        by_cases hji : j = i
        · rw [hji, if_pos rfl]
        · rw [if_neg (fun e => hji (by have := hm e; omega)), hp.el j (by omega)]⟩
      (by simpa [Pool.fuel] using (by omega : i + 1 + n ≤ p.fuel))
    refine ⟨p', hp', ?_, h1, h2, h3, h4, h5⟩
    rwa [Nat.add_assoc, Nat.add_comm 1 n] at hmade

/-- `simple_pool_new` returns, with all the nodes made and free. -/
theorem simplePoolNew_spec (malloc : Nat → Ptr) (hm : Function.Injective malloc) (nodes : NodeStore) (mem : μ)
    (size : Int) (elSize : Nat) (initFn : Option (Ptr → μ → μ)) (compareFn : Option (μ → Ptr → Ptr → Int))
    (hsize : size > 0) (hel : elSize > 0) :
    ∃ p₀, simplePoolNew malloc nodes mem size elSize initFn compareFn = .ok p₀ ∧
      p₀.Rep (poolNodes malloc size.toNat) [] ∧ p₀.initFn = initFn ∧ p₀.compareFn = compareFn ∧ p₀.size = size ∧
      ∀ j < size.toNat, (p₀.nodes (malloc (2 * j + 1))).el = malloc (2 * j) := by
  unfold simplePoolNew
  simp only [check_of_true hsize, check_of_true hel, ok_bind]
  obtain ⟨p', hp', hmade, h1, h2, h3, h4, h5⟩ := simplePoolNewLoop_spec hm size.toNat 0
    { nodes := nodes, mem := mem, freeEntries := none, entries := none, elSize := elSize, size := size, currentSize := 0,
      initFn := initFn, compareFn := compareFn }
    ⟨Represents.nil _, fun j hj => absurd hj (Nat.not_lt_zero j)⟩ (by simp [Pool.fuel])
  rw [Nat.zero_add] at hmade
  refine ⟨p', hp', ⟨hmade.freeList, ?_, ?_, ?_, ?_, ?_⟩, h4, h5, h2, hmade.el⟩
  · rw [h1]
    exact Represents.nil _
  · rw [List.append_nil]
    exact hmade.freeList.nodup
  · rw [h2]
    simp only [poolNodes, List.length_map, List.length_range, List.length_nil]
    omega
  · rw [h3]
    rfl
  · rw [List.append_nil, poolNodes, List.map_map]
    refine List.Nodup.map_on ?_ List.nodup_range
    intro i hi j hj hij
    simp only [Function.comp_apply, hmade.el i (List.mem_range.mp hi), hmade.el j (List.mem_range.mp hj)] at hij
    have := hm hij
    omega

/-- What a pool that `simple_pool_new` returned is like. -/
theorem simplePoolNew_ok {malloc : Nat → Ptr} (hm : Function.Injective malloc) {nodes : NodeStore} {mem : μ}
    {size : Int} {elSize : Nat} {initFn : Option (Ptr → μ → μ)} {compareFn : Option (μ → Ptr → Ptr → Int)} {p₀ : Pool μ}
    (h : simplePoolNew malloc nodes mem size elSize initFn compareFn = .ok p₀) :
    p₀.Rep (poolNodes malloc size.toNat) [] ∧ p₀.initFn = initFn ∧ p₀.compareFn = compareFn ∧ p₀.size = size ∧
      ∀ j < size.toNat, (p₀.nodes (malloc (2 * j + 1))).el = malloc (2 * j) := by
  obtain ⟨_, hsize, h'⟩ := bind_ok h
  obtain ⟨_, hel, _⟩ := bind_ok h'
  obtain ⟨p', hp', hspec⟩ := simplePoolNew_spec malloc hm nodes mem size elSize initFn compareFn
    (of_check_ok hsize) (of_check_ok hel)
  rw [h] at hp'
  cases hp'
  exact hspec

/-- The loop of `simple_pool_new` calls the init function on each new element block, in order. -/
theorem simplePoolNewLoop_mem {malloc : Nat → Ptr} (n i : Nat) (p p' : Pool μ) (f : Ptr → μ → μ) (hf : p.initFn = some f)
    (h : simplePoolNewLoop malloc n i p = .ok p') :
    p'.mem = (List.range' i n).foldl (fun mem j => f (malloc (2 * j)) mem) p.mem := by
  induction n generalizing i p with
  | zero =>
    cases h
    rfl
  | succ n ih =>
    obtain ⟨⟨nodes, head⟩, _, hloop⟩ := bind_ok h
    have := ih (i + 1) { p with nodes := nodes, mem := p.init (malloc (2 * i)), freeEntries := head } hf hloop
    rw [this, List.range'_succ, List.foldl_cons]
    simp only [Pool.init, hf]

/-- The elements of a new pool have each been through the init function. -/
theorem simplePoolNew_mem {malloc : Nat → Ptr} {nodes : NodeStore} {mem : μ} {size : Int} {elSize : Nat} {f : Ptr → μ → μ}
    {compareFn : Option (μ → Ptr → Ptr → Int)} {p₀ : Pool μ}
    (h : simplePoolNew malloc nodes mem size elSize (some f) compareFn = .ok p₀) :
    p₀.mem = (List.range' 0 size.toNat).foldl (fun mem j => f (malloc (2 * j)) mem) mem := by
  obtain ⟨_, _, h⟩ := bind_ok h
  obtain ⟨_, _, h⟩ := bind_ok h
  exact simplePoolNewLoop_mem size.toNat 0 _ p₀ f rfl h

/-! ## Pools by their contents -/

/-- A pool without an init function that stands for some sequences. -/
structure Pool.WellFormed (p : Pool μ) : Prop where
  rep : ∃ free live, p.Rep free live
  initFn : p.initFn = none

namespace Pool.WellFormed

variable {p : Pool μ}

/-- A new pool. -/
theorem of_new {malloc : Nat → Ptr} (hm : Function.Injective malloc) {nodes : NodeStore} {mem : μ} {size : Int} {elSize : Nat}
    {compareFn : Option (μ → Ptr → Ptr → Int)} (h : simplePoolNew malloc nodes mem size elSize none compareFn = .ok p) :
    p.WellFormed ∧ p.contents = [] := by
  obtain ⟨hr, hi, -⟩ := simplePoolNew_ok hm h
  refine ⟨⟨⟨_, _, hr⟩, hi⟩, ?_⟩
  rw [Pool.contents, Pool.elements_spec hr]
  rfl

/-- A pool has room as long as it has handed out fewer elements than its size. -/
theorem alloc_cases (h : p.WellFormed) :
    ((p.contents.length : Int) < p.size ∧ ∃ el p', simplePoolAlloc p = .ok (some el, p')) ∨
    (p.contents.length = p.size ∧ simplePoolAlloc p = .ok (none, p)) := by
  obtain ⟨free, live, hr⟩ := h.rep
  have hsize := hr.size
  have hlength : p.contents.length = live.length := by
    rw [Pool.contents, Pool.elements_spec hr, List.length_map]
  cases free with
  | nil =>
    refine Or.inr ⟨?_, simplePoolAlloc_empty hr⟩
    rw [hlength, hsize, List.length_nil]
    omega
  | cons x free =>
    obtain ⟨pool, hpool, -⟩ := simplePoolAlloc_cons hr
    refine Or.inl ⟨?_, _, pool, hpool⟩
    rw [hlength, hsize, List.length_cons]
    omega

/-- When `simple_pool_alloc` finds nothing the pool stays as it is. -/
theorem alloc_none {p' : Pool μ} (h : p.WellFormed) (ha : simplePoolAlloc p = .ok (none, p')) : p' = p := by
  rcases h.alloc_cases with ⟨-, el, q, hsome⟩ | ⟨-, hnone⟩
  · rw [hsome] at ha
    cases ha
  · rw [hnone] at ha
    cases ha
    rfl

/-- No more elements are handed out than there are. -/
theorem length_le_size (h : p.WellFormed) : (p.contents.length : Int) ≤ p.size := by
  rcases h.alloc_cases with ⟨hlt, -⟩ | ⟨heq, -⟩
  · exact Int.le_of_lt hlt
  · exact Int.le_of_eq heq

/-- `simple_pool_alloc` finds an element exactly when the pool has room. -/
theorem alloc_iff (h : p.WellFormed) : (∃ el p', simplePoolAlloc p = .ok (some el, p')) ↔ (p.contents.length : Int) < p.size := by
  rcases h.alloc_cases with ⟨hlt, hsome⟩ | ⟨heq, hnone⟩
  · exact iff_of_true hsome hlt
  · refine iff_of_false ?_ (by omega)
    rintro ⟨el, p', hsome⟩
    rw [hnone] at hsome
    cases hsome

/-- A loop over the entries meets the contents. -/
theorem elements_eq (h : p.WellFormed) : p.elements = .ok p.contents := by
  obtain ⟨_, _, hr⟩ := h.rep
  rw [Pool.contents, Pool.elements_spec hr]

/-- The size of a pool. -/
theorem currentSize_eq (h : p.WellFormed) : simplePoolGetCurrentSize p = p.contents.length := by
  obtain ⟨_, _, hr⟩ := h.rep
  rw [simplePoolGetCurrentSize, Pool.contents, Pool.elements_spec hr, hr.currentSize, List.length_map]

/-- A write to the elements keeps the pool as it is. -/
theorem write (h : p.WellFormed) (mem : μ) :
    ({ p with mem := mem } : Pool μ).WellFormed ∧ ({ p with mem := mem } : Pool μ).contents = p.contents := by
  obtain ⟨_, _, hr⟩ := h.rep
  refine ⟨⟨⟨_, _, hr.write mem⟩, h.initFn⟩, ?_⟩
  rw [Pool.contents, Pool.contents, Pool.elements_spec hr, Pool.elements_spec (hr.write mem)]

/-- What `simple_pool_alloc` hands out is new, and goes to the end of the contents. -/
theorem alloc {p' : Pool μ} {el : Ptr} (h : p.WellFormed) (ha : simplePoolAlloc p = .ok (some el, p')) :
    p'.WellFormed ∧ p'.contents = p.contents ++ [el] ∧ el ∉ p.contents ∧ p'.mem = p.mem := by
  obtain ⟨free, live, hr⟩ := h.rep
  cases free with
  | nil =>
    rw [simplePoolAlloc_empty hr] at ha
    cases ha
  | cons x free =>
    obtain ⟨pool, hpool, hr', hf, hm⟩ := simplePoolAlloc_cons hr
    rw [hpool] at ha
    obtain ⟨hx, rfl⟩ := Prod.mk.inj (Except.ok.inj ha)
    cases hx
    refine ⟨⟨⟨_, _, hr'⟩, hf.initFn.trans h.initFn⟩, ?_, ?_, ?_⟩
    · simp only [Pool.contents, Pool.elements_spec hr', Pool.elements_spec hr, List.map_append, List.map_cons, List.map_nil, hf.el]
    · rw [Pool.contents, Pool.elements_spec hr]
      exact hr.fresh
    · simpa [Pool.init, h.initFn] using hm

/-- `simple_pool_alloc` does not change the size. -/
theorem alloc_size {p' : Pool μ} {el : Ptr} (h : p.WellFormed) (ha : simplePoolAlloc p = .ok (some el, p')) : p'.size = p.size := by
  obtain ⟨free, live, hr⟩ := h.rep
  cases free with
  | nil =>
    rw [simplePoolAlloc_empty hr] at ha
    cases ha
  | cons x free =>
    obtain ⟨pool, hpool, -, hf, -⟩ := simplePoolAlloc_cons hr
    rw [hpool] at ha
    cases ha
    exact hf.size

/-- `simple_pool_alloc` and a write to what it hands out leave the other elements as they are. -/
theorem alloc_write {ε : Type} {p p' : Pool (Ptr → ε)} {el : Ptr} (h : p.WellFormed) (ha : simplePoolAlloc p = .ok (some el, p'))
    {q : Pool (Ptr → ε)} {v : ε} (hq : q = { p' with mem := Function.update p'.mem el v }) :
    q.WellFormed ∧ q.contents = p.contents ++ [el] ∧ q.mem el = v ∧ ∀ x ∈ p.contents, q.mem x = p.mem x := by
  obtain ⟨hwf, hcontents, hnew, hmem⟩ := h.alloc ha
  obtain ⟨hwf', hcontents'⟩ := hwf.write (Function.update p'.mem el v)
  subst hq
  refine ⟨hwf', hcontents'.trans hcontents, Function.update_self _ _ _, ?_⟩
  intro x hx
  have hne : x ≠ el := fun e => hnew (e ▸ hx)
  rw [← hmem]
  exact Function.update_of_ne hne _ _

end Pool.WellFormed

end Sel4Osapi
