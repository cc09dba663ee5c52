import Sel4Osapi.Pool

/-!
# A pool is a pair of sequences

`PoolSpec` says what a pool is for, without pointers: a sequence of free nodes and a sequence of nodes handed out, an allocation
moving the first free node to the end of the second and a release moving a node back to the end of the first. The pool of
pool.c refines it (`simplePool_refines`): started together and given the same operations, the two return the same values, and
the pointers of the pool go on representing the sequences of the specification.
-/

namespace Sel4Osapi

open DoublyLinked

variable {μ : Type}

/-- The pool without its pointers: the nodes free and handed out, in order, and the memory of the elements. -/
structure PoolSpec (μ : Type) where
  free : List Ptr
  live : List Ptr
  mem : μ

/-- What is fixed about a pool: the element of each node, the init function and the compare function. -/
structure PoolShape (μ : Type) where
  el : Ptr → Ptr
  initFn : Option (Ptr → μ → μ)
  compareFn : Option (μ → Ptr → Ptr → Int)

/-- An operation on a pool. Besides the four of pool.c, the owner of an element may write to the element memory. -/
inductive PoolOp (μ : Type) where
  | alloc
  | allocEntry
  | free (el : Ptr)
  | freeEntry (entry : Ptr)
  | write (f : μ → μ)

/-- What an operation returns: a pointer or null, a code, or nothing. -/
inductive PoolRet where
  | ptr (p : Option Ptr)
  | code (n : Int)
  | unit
  deriving DecidableEq, Repr

namespace PoolSpec

variable (sh : PoolShape μ)

/-- The memory after the init function has run on the element of a node. -/
def init (a : PoolSpec μ) (n : Ptr) : μ :=
  match sh.initFn with
  | some f => f (sh.el n) a.mem
  | none => a.mem

/-- The element of a node matches: by the compare function, or by address without one. -/
def isMatch (a : PoolSpec μ) (el : Ptr) (n : Ptr) : Bool :=
  match sh.compareFn with
  | some f => f a.mem (sh.el n) el == 0
  | none => sh.el n == el

/-- Move the first free node, if there is one, to the end of the nodes handed out. -/
def alloc (a : PoolSpec μ) : Option Ptr × PoolSpec μ :=
  match a.free with
  | [] => (none, a)
  | n :: free => (some n, { free := free, live := a.live ++ [n], mem := a.init sh n })

/-- Move a node handed out to the end of the free nodes. -/
def release (a : PoolSpec μ) (n : Ptr) : PoolSpec μ :=
  { free := a.free ++ [n], live := a.live.erase n, mem := a.init sh n }

/-- One operation. A `freeEntry` is defined on a node handed out. -/
def step (a : PoolSpec μ) : PoolOp μ → Option (PoolRet × PoolSpec μ)
  | .alloc => some (.ptr ((a.alloc sh).1.map sh.el), (a.alloc sh).2)
  | .allocEntry => some (.ptr (a.alloc sh).1, (a.alloc sh).2)
  | .free el =>
    match a.live.find? (a.isMatch sh el) with
    | none => some (.code (-1), a)
    | some n => some (.code 0, a.release sh n)
  | .freeEntry n => if n ∈ a.live then some (.code 0, a.release sh n) else none
  | .write f => some (.unit, { a with mem := f a.mem })

/-- A sequence of operations: what they return, and the pool after them. -/
def run (a : PoolSpec μ) : List (PoolOp μ) → Option (List PoolRet × PoolSpec μ)
  | [] => some ([], a)
  | op :: ops => do
    let (ret, a) ← a.step sh op
    let (rets, a) ← a.run ops
    pure (ret :: rets, a)

end PoolSpec

/-- One operation of pool.c. -/
def poolStep (p : Pool μ) : PoolOp μ → Res (PoolRet × Pool μ)
  | .alloc => do
    let (e, p) ← simplePoolAlloc p
    pure (.ptr e, p)
  | .allocEntry => do
    let (n, p) ← simplePoolAllocEntry p
    pure (.ptr n, p)
  | .free el => do
    let (c, p) ← simplePoolFree p el
    pure (.code c, p)
  | .freeEntry n => do
    let (c, p) ← simplePoolFreeEntry p n
    pure (.code c, p)
  | .write f => pure (.unit, { p with mem := f p.mem })

/-- A sequence of operations of pool.c: what they return, and the pool after them. -/
def poolRun (p : Pool μ) : List (PoolOp μ) → Res (List PoolRet × Pool μ)
  | [] => pure ([], p)
  | op :: ops => do
    let (ret, p) ← poolStep p op
    let (rets, p) ← poolRun p ops
    pure (ret :: rets, p)

/-! ## The simulation -/

/-- The pool of pool.c stands for the pool of the specification, and is of its shape. -/
structure Pool.Refines (p : Pool μ) (sh : PoolShape μ) (a : PoolSpec μ) : Prop where
  rep : p.Rep a.free a.live
  mem : p.mem = a.mem
  initFn : p.initFn = sh.initFn
  compareFn : p.compareFn = sh.compareFn
  el : ∀ n, (p.nodes n).el = sh.el n

namespace Pool.Refines

variable {p p' : Pool μ} {sh : PoolShape μ} {a a' : PoolSpec μ}

theorem init_eq (h : p.Refines sh a) (n : Ptr) : p.init (p.nodes n).el = a.init sh n := by
  cases hf : sh.initFn with
  | none => simp only [Pool.init, PoolSpec.init, h.initFn, hf, h.mem]
  | some f => simp only [Pool.init, PoolSpec.init, h.initFn, hf, h.mem, h.el]

theorem isMatch_eq (h : p.Refines sh a) (el n : Ptr) : p.isMatch (p.nodes n).el el = a.isMatch sh el n := by
  cases hf : sh.compareFn with
  | none => simp only [Pool.isMatch, PoolSpec.isMatch, h.compareFn, hf, h.el]
  | some f => simp only [Pool.isMatch, PoolSpec.isMatch, h.compareFn, hf, h.mem, h.el]

/-- The pool an operation leaves, when it stands for the sequences it should and its memory is the one it should be. -/
theorem of_frame (h : p.Refines sh a) (hf : p.Frame p') (hr : p'.Rep a'.free a'.live) (hm : p'.mem = a'.mem) :
    p'.Refines sh a' :=
  ⟨hr, hm, hf.initFn.trans h.initFn, hf.compareFn.trans h.compareFn, fun n => (hf.el n).trans (h.el n)⟩

/-- `simple_pool_alloc_entry` returns what an allocation of the specification returns. -/
theorem allocEntry (h : p.Refines sh a) :
    ∃ p', simplePoolAllocEntry p = .ok ((a.alloc sh).1, p') ∧ p'.Refines sh (a.alloc sh).2 := by
  have hr := h.rep
  cases hfree : a.free with
  | nil =>
    rw [hfree] at hr
    refine ⟨p, ?_, ?_⟩ <;> simp only [PoolSpec.alloc, hfree]
    · exact simplePoolAllocEntry_empty hr
    · exact h
  | cons x free =>
    rw [hfree] at hr
    obtain ⟨p', hp', hr', hf, hm⟩ := simplePoolAllocEntry_cons hr
    refine ⟨p', ?_, ?_⟩ <;> simp only [PoolSpec.alloc, hfree]
    · exact hp'
    · exact h.of_frame hf hr' (hm.trans (h.init_eq x))

/-- `simple_pool_free_entry` of a node handed out releases it. -/
theorem freeEntry (h : p.Refines sh a) {n : Ptr} (hn : n ∈ a.live) :
    ∃ p', simplePoolFreeEntry p n = .ok (0, p') ∧ p'.Refines sh (a.release sh n) := by
  have hr := h.rep
  obtain ⟨l, t, hlt⟩ := List.append_of_mem hn
  have herase := hr.liveList
  rw [hlt] at hr herase
  obtain ⟨p', hp', hr', hf, hm⟩ := simplePoolFreeEntry_spec hr
  refine ⟨p', hp', h.of_frame hf ?_ (hm.trans (h.init_eq n))⟩
  rw [PoolSpec.release, hlt, herase.erase_split]
  exact hr'

/-- Every operation of the specification is matched by the same operation of pool.c: it returns, and returns the same. -/
theorem step (h : p.Refines sh a) {op : PoolOp μ} {ret : PoolRet} (hs : a.step sh op = some (ret, a')) :
    ∃ p', poolStep p op = .ok (ret, p') ∧ p'.Refines sh a' := by
  cases op with
  | alloc =>
    simp only [PoolSpec.step, Option.some.injEq, Prod.mk.injEq] at hs
    obtain ⟨rfl, rfl⟩ := hs
    obtain ⟨p', hp', h'⟩ := h.allocEntry
    refine ⟨p', ?_, h'⟩
    simp only [poolStep, simplePoolAlloc, hp', ok_bind]
    cases (a.alloc sh).1 with
    | none => rfl
    | some n => simp only [pure_bind, Option.map_some, h'.el]; rfl
  | allocEntry =>
    simp only [PoolSpec.step, Option.some.injEq, Prod.mk.injEq] at hs
    obtain ⟨rfl, rfl⟩ := hs
    obtain ⟨p', hp', h'⟩ := h.allocEntry
    exact ⟨p', by simp only [poolStep, hp', ok_bind]; rfl, h'⟩
  | free el =>
    have hmatch : (fun m => p.isMatch (p.nodes m).el el) = a.isMatch sh el := by
      funext m
      exact h.isMatch_eq el m
    simp only [poolStep, simplePoolFree, simplePoolFindNode_spec h.rep, hmatch, ok_bind]
    cases hfind : a.live.find? (a.isMatch sh el) with
    | none =>
      simp only [PoolSpec.step, hfind, Option.some.injEq, Prod.mk.injEq] at hs
      obtain ⟨rfl, rfl⟩ := hs
      exact ⟨p, rfl, h⟩
    | some n =>
      simp only [PoolSpec.step, hfind, Option.some.injEq, Prod.mk.injEq] at hs
      obtain ⟨rfl, rfl⟩ := hs
      obtain ⟨p', hp', h'⟩ := h.freeEntry (List.mem_of_find?_eq_some hfind)
      exact ⟨p', by simp only [hp', ok_bind]; rfl, h'⟩
  | freeEntry n =>
    simp only [PoolSpec.step] at hs
    split at hs
    · rename_i hn
      simp only [Option.some.injEq, Prod.mk.injEq] at hs
      obtain ⟨rfl, rfl⟩ := hs
      obtain ⟨p', hp', h'⟩ := h.freeEntry hn
      exact ⟨p', by simp only [poolStep, hp', ok_bind]; rfl, h'⟩
    · cases hs
  | write f =>
    simp only [PoolSpec.step, Option.some.injEq, Prod.mk.injEq] at hs
    obtain ⟨rfl, rfl⟩ := hs
    refine ⟨_, rfl, h.rep.write _, ?_, h.initFn, h.compareFn, h.el⟩
    simp only [h.mem]

/-- Every run of the specification is matched by the same run of pool.c. -/
theorem run (h : p.Refines sh a) {ops : List (PoolOp μ)} {rets : List PoolRet} (hs : a.run sh ops = some (rets, a')) :
    ∃ p', poolRun p ops = .ok (rets, p') ∧ p'.Refines sh a' := by
  induction ops generalizing p a rets with
  | nil =>
    simp only [PoolSpec.run, Option.some.injEq, Prod.mk.injEq] at hs
    obtain ⟨rfl, rfl⟩ := hs
    exact ⟨p, rfl, h⟩
  | cons op ops ih =>
    simp only [PoolSpec.run, Option.bind_eq_bind, Option.bind_eq_some_iff, Option.pure_def, Option.some.injEq] at hs
    obtain ⟨⟨ret, a₁⟩, h₁, ⟨rets₁, a₂⟩, h₂, h₃⟩ := hs
    simp only [Prod.mk.injEq] at h₃
    obtain ⟨rfl, rfl⟩ := h₃
    obtain ⟨p₁, hp₁, hr₁⟩ := h.step h₁
    obtain ⟨p₂, hp₂, hr₂⟩ := ih hr₁ h₂
    exact ⟨p₂, by simp only [poolRun, hp₁, ok_bind, hp₂]; rfl, hr₂⟩

end Pool.Refines

/-! ## The specification loses and duplicates no node -/

namespace PoolSpec

variable {sh : PoolShape μ} {a a' : PoolSpec μ}

theorem alloc_perm (a : PoolSpec μ) : ((a.alloc sh).2.free ++ (a.alloc sh).2.live).Perm (a.free ++ a.live) := by
  unfold alloc
  split
  · exact List.Perm.refl _
  · rename_i n free hfree
    rw [hfree]
    simp only [← List.append_assoc]
    exact List.perm_append_singleton n (free ++ a.live)

theorem release_perm {n : Ptr} (hn : n ∈ a.live) :
    ((a.release sh n).free ++ (a.release sh n).live).Perm (a.free ++ a.live) := by
  simp only [release, List.append_assoc]
  exact List.Perm.append_left _ (List.perm_cons_erase hn).symm

theorem step_perm {op : PoolOp μ} {ret : PoolRet} (hs : a.step sh op = some (ret, a')) :
    (a'.free ++ a'.live).Perm (a.free ++ a.live) := by
  cases op with
  | alloc | allocEntry =>
    simp only [step, Option.some.injEq, Prod.mk.injEq] at hs
    exact hs.2 ▸ alloc_perm a
  | free el =>
    simp only [step] at hs
    split at hs
    · simp only [Option.some.injEq, Prod.mk.injEq] at hs
      rw [hs.2]
    · rename_i n hn
      simp only [Option.some.injEq, Prod.mk.injEq] at hs
      exact hs.2 ▸ release_perm (List.mem_of_find?_eq_some hn)
  | freeEntry n =>
    simp only [step] at hs
    split at hs
    · rename_i hn
      simp only [Option.some.injEq, Prod.mk.injEq] at hs
      exact hs.2 ▸ release_perm hn
    · cases hs
  | write f =>
    simp only [step, Option.some.injEq, Prod.mk.injEq] at hs
    rw [← hs.2]

theorem run_perm {ops : List (PoolOp μ)} {rets : List PoolRet} (hs : a.run sh ops = some (rets, a')) :
    (a'.free ++ a'.live).Perm (a.free ++ a.live) := by
  induction ops generalizing a rets with
  | nil =>
    simp only [run, Option.some.injEq, Prod.mk.injEq] at hs
    rw [hs.2]
  | cons op ops ih =>
    simp only [run, Option.bind_eq_bind, Option.bind_eq_some_iff, Option.pure_def, Option.some.injEq] at hs
    obtain ⟨⟨ret, a₁⟩, h₁, ⟨rets₁, a₂⟩, h₂, h₃⟩ := hs
    simp only [Prod.mk.injEq] at h₃
    obtain ⟨-, rfl⟩ := h₃
    exact (ih h₂).trans (step_perm h₁)

end PoolSpec

/-- Every pool that `simple_pool_new` makes, after every sequence of operations, is the pair of sequences the specification
gives. The pool is made whenever its size and its element size are positive. From then on, for every sequence of operations
that releases by entry only nodes handed out, no call fails an assertion or loops, each returns what the specification returns,
and the pool left has, over the nodes made at the start and no others, each of them once: its two heads representing the free
nodes and the nodes handed out, and its counter the number of the latter. An allocation finds nothing exactly when no node is
free, and never hands out an element that is handed out already. -/
theorem simplePool_refines (malloc : Nat → Ptr) (hmalloc : Function.Injective malloc) (nodes : NodeStore) (mem : μ)
    (size : Int) (elSize : Nat) (initFn : Option (Ptr → μ → μ)) (compareFn : Option (μ → Ptr → Ptr → Int))
    (hsize : size > 0) (hel : elSize > 0) :
    ∃ p₀, simplePoolNew malloc nodes mem size elSize initFn compareFn = .ok p₀ ∧
      ∀ (ops : List (PoolOp μ)) (rets : List PoolRet) (a : PoolSpec μ),
        PoolSpec.run ⟨fun n => (p₀.nodes n).el, initFn, compareFn⟩ ⟨poolNodes malloc size.toNat, [], p₀.mem⟩ ops =
          some (rets, a) →
        ∃ p, poolRun p₀ ops = .ok (rets, p) ∧
          Represents p.nodes.links p.freeEntries a.free ∧ Represents p.nodes.links p.entries a.live ∧
          (a.free ++ a.live).Nodup ∧ (a.free ++ a.live).Perm (poolNodes malloc size.toNat) ∧
          p.currentSize = a.live.length ∧ 0 ≤ p.currentSize ∧ p.currentSize ≤ size ∧ p.mem = a.mem ∧
          ((∃ p', simplePoolAllocEntry p = .ok (none, p')) ↔ a.free = []) ∧
          (∀ e p', simplePoolAlloc p = .ok (some e, p') → e ∉ a.live.map fun n => (p.nodes n).el) := by
  obtain ⟨p₀, hp₀, hr₀, hi₀, hc₀, hs₀, _⟩ :=
    simplePoolNew_spec malloc hmalloc nodes mem size elSize initFn compareFn hsize hel
  have h₀ : p₀.Refines ⟨fun n => (p₀.nodes n).el, initFn, compareFn⟩ ⟨poolNodes malloc size.toNat, [], p₀.mem⟩ :=
    ⟨hr₀, rfl, hi₀, hc₀, fun _ => rfl⟩
  refine ⟨p₀, hp₀, ?_⟩
  intro ops rets a hrun
  obtain ⟨p, hp, h⟩ := h₀.run hrun
  have hb := h.rep.currentSize_bounds
  have hperm := PoolSpec.run_perm hrun
  simp only [List.append_nil] at hperm
  have hps : p.size = size := by
    have h1 := h.rep.size
    have h2 := hperm.length_eq
    simp only [poolNodes, List.length_append, List.length_map, List.length_range] at h2
    omega
  refine ⟨p, hp, h.rep.freeList, h.rep.liveList, h.rep.nodup, hperm, h.rep.currentSize, hb.1, hps ▸ hb.2, h.mem, ?_, ?_⟩
  · obtain ⟨p', hp', -⟩ := h.allocEntry
    rw [hp']
    cases hfree : a.free <;> simp [PoolSpec.alloc, hfree]
  · intro e p' he hmem
    simp only [simplePoolAlloc] at he
    obtain ⟨p'', hp'', h''⟩ := h.allocEntry
    rw [hp'', ok_bind] at he
    cases hfree : a.free with
    | nil =>
      simp only [PoolSpec.alloc, hfree] at he
      cases he
    | cons x free =>
      simp only [PoolSpec.alloc, hfree, pure, Except.pure, Except.ok.injEq, Prod.mk.injEq, Option.some.injEq] at he
      obtain ⟨m, hm, hme⟩ := List.mem_map.mp hmem
      have hx : x ∈ a.free := by rw [hfree]; exact List.mem_cons_self
      -- the element of the node handed out is that of a live node, so the node is free and live
      have heq : m = x := h.rep.el_inj (List.mem_append_right _ hm) (List.mem_append_left _ hx) (by
        rw [hme, ← he.1, h''.el, h.el])
      exact h.rep.disjoint m hm (heq ▸ hx)

/-- A pool of two elements: both nodes are handed out, the third request finds nothing, and the first node comes back as the
last one free. -/
theorem simplePool_refines_pair :
    ∃ p₀ p, simplePoolNew id (fun _ => ⟨0, none, none⟩) () 2 4 none none = .ok p₀ ∧
      poolRun p₀ [.allocEntry, .allocEntry, .allocEntry, .freeEntry 1] =
        .ok ([.ptr (some 1), .ptr (some 3), .ptr none, .code 0], p) ∧
      Represents p.nodes.links p.freeEntries [1] ∧ Represents p.nodes.links p.entries [3] ∧ p.currentSize = 1 := by
  obtain ⟨p₀, hp₀, h⟩ := simplePool_refines id Function.injective_id (fun _ => ⟨0, none, none⟩) () 2 4 none none
    (by decide) (by decide)
  obtain ⟨p, hp, hfree, hlive, -, -, hcur, -⟩ :=
    h [.allocEntry, .allocEntry, .allocEntry, .freeEntry 1] _ ⟨[1], [3], p₀.mem⟩ rfl
  exact ⟨p₀, p, hp₀, hp, hfree, hlive, hcur⟩

end Sel4Osapi
