import Sel4Osapi.IpcBuffers
import Mathlib.Data.List.Basic

/-!
# What a process shares with the root task

Each page of the buffers of an IPC client is a frame that both the root task and the process have mapped, if both buffers
have equally many pages: `sel4osapi_process_init_env` maps as many pages for `tx_buf` as `rx_buf` has. With fewer of them the
end of `tx_buf` is not mapped in the process, and with more of them it maps entries of `tx_pages_mint` that were not written.
-/

namespace Sel4Osapi

/-! ## Pages -/

/-- A size in pages, rounded up. -/
theorem roundUpUnsafe_div (n : Nat) : roundUpUnsafe n 4096 / 4096 = (n + 4095) / 4096 := by
  unfold roundUpUnsafe
  split <;> omega

/-- The pages of `rx_buf`. -/
theorem IpcConfig.rxBufPages_eq (cfg : IpcConfig) : cfg.rxBufPages = (cfg.rxBufSize + 4095) / 4096 := roundUpUnsafe_div _

/-- The pages of `tx_buf`. -/
theorem IpcConfig.txBufPages_eq (cfg : IpcConfig) : cfg.txBufPages = (cfg.txBufSize + 4095) / 4096 := roundUpUnsafe_div _

/-- The pages after that of an address. -/
theorem pageOf_add_mul (vaddr : Ptr) (i : Nat) : pageOf (vaddr + i * 4096) = pageOf vaddr + i := by
  unfold pageOf
  omega

/-- The page of an offset into a range of pages. -/
theorem pageOf_add {vaddr : Nat} (h : vaddr % 4096 = 0) (o : Nat) : pageOf (vaddr + o) = pageOf vaddr + o / 4096 := by
  unfold pageOf
  omega

/-- The frame that a page shows. -/
def frameAt (cspace : RootCSpace) (vspace : VSpace) (page : Nat) : Option Ptr := (vspace page).bind cspace

/-! ## Slots that are taken -/

/-- The capabilities of `cspace` are in `cspace'` too, in the same slots. -/
def RootCSpace.Keeps (cspace cspace' : RootCSpace) : Prop := ∀ cap, cspace cap ≠ none → cspace' cap = cspace cap

namespace RootCSpace.Keeps

variable {cspace cspace' cspace'' : RootCSpace}

/-- Nothing changed. -/
theorem refl (cspace : RootCSpace) : RootCSpace.Keeps cspace cspace := fun _ _ => rfl

/-- One change after another. -/
theorem trans (h : RootCSpace.Keeps cspace cspace') (h' : RootCSpace.Keeps cspace' cspace'') :
    RootCSpace.Keeps cspace cspace'' := by
  intro cap hcap
  rw [h' cap (by rwa [h cap hcap]), h cap hcap]

/-- A slot that was empty is taken. -/
theorem update {cap : CPtr} (h : cspace cap = none) (object : Option Ptr) :
    RootCSpace.Keeps cspace (Function.update cspace cap object) := by
  intro cap' hcap'
  refine Function.update_of_ne ?_ _ _
  rintro rfl
  exact hcap' h

/-- A slot that is taken stays taken. -/
theorem ne_none (h : RootCSpace.Keeps cspace cspace') {cap : CPtr} (hcap : cspace cap ≠ none) : cspace' cap ≠ none := by
  rwa [h cap hcap]

end RootCSpace.Keeps

/-- A page shows the same frame after other slots were taken. -/
theorem frameAt_keeps {cspace cspace' : RootCSpace} (h : RootCSpace.Keeps cspace cspace') {vspace : VSpace} {page : Nat}
    (hframe : frameAt cspace vspace page ≠ none) : frameAt cspace' vspace page = frameAt cspace vspace page := by
  unfold frameAt at hframe ⊢
  cases hcap : vspace page with
  | none => rfl
  | some cap =>
    rw [hcap, Option.bind_some] at hframe
    exact h cap hframe

section allocator

variable {al : SpaceAllocator}

/-- New frames: so many capabilities, in slots that were empty. -/
theorem newFrames_some {n : Nat} {cspace cspace' : RootCSpace} {caps : List CPtr}
    (h : al.newFrames n cspace = some (caps, cspace')) :
    caps.length = n ∧ RootCSpace.Keeps cspace cspace' ∧ ∀ cap ∈ caps, cap ≠ capNull ∧ cspace' cap ≠ none := by
  induction n generalizing cspace caps with
  | zero =>
    cases h
    exact ⟨rfl, .refl _, by simp⟩
  | succ n ih =>
    rw [SpaceAllocator.newFrames, Option.bind_eq_bind, Option.bind_eq_some_iff] at h
    obtain ⟨cap, hcap, h⟩ := h
    rw [Option.bind_eq_bind, Option.bind_eq_some_iff] at h
    obtain ⟨⟨rest, cspace''⟩, hrest, h⟩ := h
    cases h
    obtain ⟨hlen, hkeeps, hcaps⟩ := ih hrest
    obtain ⟨hne, hfree⟩ := al.slot_free hcap
    refine ⟨by rw [List.length_cons, hlen], (RootCSpace.Keeps.update hfree _).trans hkeeps, ?_⟩
    intro c hc
    rcases List.mem_cons.mp hc with rfl | hc
    · exact ⟨hne, hkeeps.ne_none (by simp)⟩
    · exact hcaps c hc

/-- `n` pages of the root task, from an address on, show capabilities. -/
def RootSpace.HasPages (root : RootSpace) (vaddr : Ptr) (n : Nat) : Prop :=
  ∀ i < n, ∃ cap, root.vspace (pageOf vaddr + i) = some cap ∧ cap ≠ capNull ∧ root.cspace cap ≠ none

/-- Pages stay when other pages are mapped and other slots are taken. -/
theorem RootSpace.HasPages.keep {root root' : RootSpace} {vaddr : Ptr} {n : Nat} (h : root.HasPages vaddr n)
    (hcspace : RootCSpace.Keeps root.cspace root'.cspace)
    (hvspace : ∀ page, root.vspace page ≠ none → root'.vspace page = root.vspace page) :
    root'.HasPages vaddr n := by
  intro i hi
  obtain ⟨cap, hcap, hne, hsome⟩ := h i hi
  exact ⟨cap, by rw [hvspace _ (by simp [hcap]), hcap], hne, hcspace.ne_none hsome⟩

/-- New pages: they begin at the address of a page, and nothing that was there before is gone. -/
theorem vspaceNewPages_some {root root' : RootSpace} {n : Nat} {vaddr : Ptr}
    (h : vspaceNewPages al root n = some (vaddr, root')) :
    vaddr % 4096 = 0 ∧ root'.HasPages vaddr n ∧ RootCSpace.Keeps root.cspace root'.cspace ∧
      ∀ page, root.vspace page ≠ none → root'.vspace page = root.vspace page := by
  rw [vspaceNewPages, Option.bind_eq_bind, Option.bind_eq_some_iff] at h
  obtain ⟨a, ha, h⟩ := h
  rw [Option.bind_eq_bind, Option.bind_eq_some_iff] at h
  obtain ⟨⟨caps, cspace⟩, hcaps, h⟩ := h
  cases h
  obtain ⟨haligned, hfree⟩ := al.range_free ha
  obtain ⟨hlen, hkeeps, hall⟩ := newFrames_some hcaps
  refine ⟨haligned, ?_, hkeeps, ?_⟩
  · intro i hi
    have hi' : i < caps.length := hlen.symm ▸ hi
    obtain ⟨hne, hsome⟩ := hall caps[i] (List.getElem_mem hi')
    refine ⟨caps[i], ?_, hne, hsome⟩
    dsimp only
    rw [vspaceMapPages_add hi, List.getD_eq_getElem?_getD, List.getElem?_eq_getElem hi', Option.getD_some]
  · intro page hpage
    dsimp only
    refine vspaceMapPages_of_not ?_
    by_contra hin
    have hzero := hfree (page - pageOf vaddr) (by omega)
    rw [show pageOf vaddr + (page - pageOf vaddr) = page by omega] at hzero
    exact hpage hzero

/-- The copies of the capabilities to pages: each is to the frame of its page. -/
theorem copyPages_ok {root : RootSpace} {buf : Ptr} {text : String} {k n i : Nat} {mint mint' : CapArray}
    {cspace cspace' : RootCSpace} (hpages : root.HasPages buf k) (hk : i + n ≤ k)
    (hkeeps : RootCSpace.Keeps root.cspace cspace) (hwritten : mint.written = i)
    (h : copyPages al root.vspace buf text n i mint cspace = .ok (mint', cspace')) :
    mint'.written = i + n ∧ RootCSpace.Keeps cspace cspace' ∧ (∀ j < i, mint'.entries j = mint.entries j) ∧
      ∀ j, i ≤ j → j < i + n → cspace' (mint'.entries j) ≠ none ∧
        cspace' (mint'.entries j) = frameAt cspace' root.vspace (pageOf buf + j) := by
  induction n generalizing i mint cspace with
  | zero =>
    cases h
    exact ⟨hwritten, .refl _, fun _ _ => rfl, fun j hj hj' => by omega⟩
  | succ n ih =>
    obtain ⟨_, -, h⟩ := bind_ok h
    obtain ⟨⟨copy, cspace₁⟩, hcopy, h⟩ := bind_ok h
    obtain ⟨cap, hcap, -, hsome⟩ := hpages i (by omega)
    have hpage : vspaceGetCap root.vspace (buf + i * 4096) = cap := by rw [vspaceGetCap, pageOf_add_mul, hcap, Option.getD_some]
    rw [hpage] at hcopy
    obtain ⟨-, -, hfree, rfl⟩ := utilCopyCap_ok hcopy
    have hstep : RootCSpace.Keeps cspace (Function.update cspace copy (cspace cap)) := .update hfree _
    obtain ⟨hwritten', hkeeps', hbefore, hall⟩ := ih (i := i + 1) (by omega) (hkeeps.trans hstep) rfl h
    refine ⟨by omega, hstep.trans hkeeps', ?_, ?_⟩
    · intro j hj
      rw [hbefore j (by omega)]
      exact Function.update_of_ne (Nat.ne_of_lt hj) _ _
    · intro j hij hj
      rcases Nat.eq_or_lt_of_le hij with rfl | hlt
      · -- the capability to page `i` and its copy
        have hentry : mint'.entries i = copy := by
          rw [hbefore i (Nat.lt_succ_self i)]
          exact Function.update_self _ _ _
        have hcap' : cspace cap ≠ none := hkeeps.ne_none hsome
        have hcopied : cspace' copy = cspace cap := by
          rw [hkeeps' copy (by simpa using hcap'), Function.update_self]
        rw [hentry, hcopied, frameAt, hcap, Option.bind_some, (hstep.trans hkeeps') cap hcap']
        exact ⟨hcap', rfl⟩
      · exact hall j hlt (by omega)

/-- What comes of mapping capabilities. -/
theorem vspaceMapCaps_some {cspace : RootCSpace} {vspace vspace' : VSpace} {caps : Nat → CPtr} {n : Nat} {vaddr : Ptr}
    (h : vspaceMapCaps al cspace vspace caps n = some (vaddr, vspace')) :
    vaddr % 4096 = 0 ∧ (∀ i < n, vspace (pageOf vaddr + i) = none) ∧ vspace' = vspaceMapPages vspace caps n vaddr := by
  rw [vspaceMapCaps, Option.bind_eq_bind, Option.bind_eq_some_iff] at h
  obtain ⟨a, ha, h⟩ := h
  split at h
  · cases h
    obtain ⟨haligned, hfree⟩ := al.range_free ha
    exact ⟨haligned, hfree, rfl⟩
  · cases h

end allocator

/-! ## The buffers -/

/-- How both buffers are mapped: the pages of the root task, the copies of their capabilities, and the pages of the process,
as many for `tx_buf` as for `rx_buf`. -/
structure IpcLaid (cfg : IpcConfig) (before : VSpace) (m : IpcMapping) : Prop where
  sizes : m.client.rxBufSize = cfg.rxBufSize ∧ m.env.rxBufSize = cfg.rxBufSize ∧ m.client.txBufSize = cfg.txBufSize ∧
    m.env.txBufSize = cfg.txBufSize
  aligned : m.client.rxBuf % 4096 = 0 ∧ m.client.txBuf % 4096 = 0 ∧ m.env.rxBuf % 4096 = 0 ∧ m.env.txBuf % 4096 = 0
  rxCopies : ∀ i < cfg.rxBufPages, m.root.cspace (m.rxPagesMint.entries i) ≠ none ∧
    m.root.cspace (m.rxPagesMint.entries i) = frameAt m.root.cspace m.root.vspace (pageOf m.client.rxBuf + i)
  txCopies : ∀ i < cfg.txBufPages, m.root.cspace (m.txPagesMint.entries i) ≠ none ∧
    m.root.cspace (m.txPagesMint.entries i) = frameAt m.root.cspace m.root.vspace (pageOf m.client.txBuf + i)
  written : m.rxPagesMint.written = cfg.rxBufPages ∧ m.txPagesMint.written = cfg.txBufPages
  mapped : m.rxMapped = cfg.rxBufPages ∧ m.txMapped = cfg.rxBufPages
  rxFree : ∀ i < cfg.rxBufPages, before (pageOf m.env.rxBuf + i) = none
  txFree : ∀ i < cfg.rxBufPages,
    vspaceMapPages before m.rxPagesMint.entries cfg.rxBufPages m.env.rxBuf (pageOf m.env.txBuf + i) = none
  native : m.native = vspaceMapPages (vspaceMapPages before m.rxPagesMint.entries cfg.rxBufPages m.env.rxBuf)
    m.txPagesMint.entries cfg.rxBufPages m.env.txBuf

/-- What comes of the two calls. -/
theorem ipcConnect_ok {cfg : IpcConfig} {al : SpaceAllocator} {root : RootSpace} {native : VSpace} {aep : Ptr}
    {rxStack txStack : Nat → CPtr} {m : IpcMapping} (h : ipcConnect cfg al root native aep rxStack txStack = .ok m) :
    IpcLaid cfg native m := by
  obtain ⟨⟨client, root₂⟩, hclient, h⟩ := bind_ok h
  obtain ⟨⟨rxRoot, root₁⟩, hrx, hclient⟩ := bind_ok hclient
  obtain ⟨⟨txRoot, root₂'⟩, htx, hclient⟩ := bind_ok hclient
  cases hclient
  obtain ⟨hrxAligned, hrxPages, -, -⟩ := vspaceNewPages_some (of_checkSome_ok hrx)
  obtain ⟨htxAligned, htxPages, hcspace, hvspace⟩ := vspaceNewPages_some (of_checkSome_ok htx)
  obtain ⟨cap, hcap, h⟩ := bind_ok h
  have haep : RootCSpace.Keeps root₂.cspace (Function.update root₂.cspace cap (some aep)) :=
    .update (al.slot_free (of_checkSome_ok hcap)).2 _
  have hrxPages : RootSpace.HasPages ⟨Function.update root₂.cspace cap (some aep), root₂.vspace⟩ rxRoot cfg.rxBufPages :=
    (hrxPages.keep hcspace hvspace).keep haep fun _ _ => rfl
  have htxPages : RootSpace.HasPages ⟨Function.update root₂.cspace cap (some aep), root₂.vspace⟩ txRoot cfg.txBufPages :=
    htxPages.keep haep fun _ _ => rfl
  obtain ⟨⟨rxMint, cspace₁⟩, hrxMint, h⟩ := bind_ok h
  obtain ⟨⟨txMint, cspace₂⟩, htxMint, h⟩ := bind_ok h
  obtain ⟨⟨rxBuf, native₁⟩, hrxMap, h⟩ := bind_ok h
  obtain ⟨⟨txBuf, native₂⟩, htxMap, h⟩ := bind_ok h
  cases h
  obtain ⟨hrxWritten, hkeeps₁, -, hrxCopies⟩ := copyPages_ok hrxPages (Nat.zero_add _).le (.refl _) rfl hrxMint
  obtain ⟨htxWritten, hkeeps₂, -, htxCopies⟩ := copyPages_ok htxPages (Nat.zero_add _).le hkeeps₁ rfl htxMint
  obtain ⟨hrxEnv, hrxFree, rfl⟩ := vspaceMapCaps_some (of_checkSome_ok hrxMap)
  obtain ⟨htxEnv, htxFree, rfl⟩ := vspaceMapCaps_some (of_checkSome_ok htxMap)
  rw [Nat.zero_add] at hrxWritten htxWritten
  refine ⟨⟨rfl, rfl, rfl, rfl⟩, ⟨hrxAligned, htxAligned, hrxEnv, htxEnv⟩, ?_, ?_, ⟨hrxWritten, htxWritten⟩, ⟨rfl, rfl⟩, hrxFree,
    htxFree, rfl⟩
  · intro i hi
    obtain ⟨hsome, hframe⟩ := hrxCopies i (Nat.zero_le i) (by omega)
    refine ⟨hkeeps₂.ne_none hsome, ?_⟩
    dsimp only
    rw [hkeeps₂ _ hsome, frameAt_keeps hkeeps₂ (by rwa [← hframe]), hframe]
  · intro i hi
    exact htxCopies i (Nat.zero_le i) (by omega)

/-- A buffer of `size` bytes is shared: each of its pages is the same frame in the root task and in the process, and so each of
its bytes is in a frame that both have. -/
structure BufferShared (cspace : RootCSpace) (root native : VSpace) (rootBuf buf : Ptr) (size : Nat) : Prop where
  pages : ∀ i < (size + 4095) / 4096, ∃ frame, frameAt cspace root (pageOf rootBuf + i) = some frame ∧
    frameAt cspace native (pageOf buf + i) = some frame
  offsets : ∀ o < size, ∃ frame, frameAt cspace root (pageOf (rootBuf + o)) = some frame ∧
    frameAt cspace native (pageOf (buf + o)) = some frame

/-- The bytes of a buffer are in its pages. -/
theorem BufferShared.of_pages {cspace : RootCSpace} {root native : VSpace} {rootBuf buf : Ptr} {size : Nat}
    (hroot : rootBuf % 4096 = 0) (hbuf : buf % 4096 = 0)
    (h : ∀ i < (size + 4095) / 4096, ∃ frame, frameAt cspace root (pageOf rootBuf + i) = some frame ∧
      frameAt cspace native (pageOf buf + i) = some frame) : BufferShared cspace root native rootBuf buf size := by
  refine ⟨h, ?_⟩
  intro o ho
  rw [pageOf_add hroot, pageOf_add hbuf]
  exact h (o / 4096) (by omega)

/-- The page is one of the `(size + 4095) / 4096` pages of a buffer. -/
def InBuffer (buf : Ptr) (size page : Nat) : Prop := pageOf buf ≤ page ∧ page < pageOf buf + (size + 4095) / 4096

/-- Both buffers are mapped completely and nothing else is: their pages were free, do not overlap, are shared and are the only
ones that were mapped; the sizes are known on both sides; and every entry of the arrays that was mapped had been written. -/
structure IpcShared (cfg : IpcConfig) (before : VSpace) (m : IpcMapping) : Prop where
  rx : BufferShared m.root.cspace m.root.vspace m.native m.client.rxBuf m.env.rxBuf cfg.rxBufSize
  tx : BufferShared m.root.cspace m.root.vspace m.native m.client.txBuf m.env.txBuf cfg.txBufSize
  free : ∀ page, InBuffer m.env.rxBuf cfg.rxBufSize page ∨ InBuffer m.env.txBuf cfg.txBufSize page → before page = none
  apart : ∀ page, InBuffer m.env.rxBuf cfg.rxBufSize page → ¬ InBuffer m.env.txBuf cfg.txBufSize page
  only : ∀ page, m.native page ≠ before page →
    InBuffer m.env.rxBuf cfg.rxBufSize page ∨ InBuffer m.env.txBuf cfg.txBufSize page
  sizes : m.client.rxBufSize = cfg.rxBufSize ∧ m.env.rxBufSize = cfg.rxBufSize ∧ m.client.txBufSize = cfg.txBufSize ∧
    m.env.txBufSize = cfg.txBufSize
  written : m.rxMapped ≤ m.rxPagesMint.written ∧ m.txMapped ≤ m.txPagesMint.written

namespace IpcLaid

variable {cfg : IpcConfig} {before : VSpace} {m : IpcMapping}

/-- The pages of `rx_buf` in the process. -/
theorem native_rx (h : IpcLaid cfg before m) {i : Nat} (hi : i < cfg.rxBufPages) :
    m.native (pageOf m.env.rxBuf + i) = some (m.rxPagesMint.entries i) := by
  have hrx : vspaceMapPages before m.rxPagesMint.entries cfg.rxBufPages m.env.rxBuf (pageOf m.env.rxBuf + i) =
    some (m.rxPagesMint.entries i) := vspaceMapPages_add hi
  rw [h.native, vspaceMapPages_of_not, hrx]
  -- the pages for `tx_buf` were free then
  by_contra hin
  have hfree := h.txFree (pageOf m.env.rxBuf + i - pageOf m.env.txBuf) (by omega)
  rw [show pageOf m.env.txBuf + (pageOf m.env.rxBuf + i - pageOf m.env.txBuf) = pageOf m.env.rxBuf + i by omega, hrx] at hfree
  cases hfree

/-- The pages of the process that are mapped for `tx_buf`. -/
theorem native_tx (h : IpcLaid cfg before m) {i : Nat} (hi : i < cfg.rxBufPages) :
    m.native (pageOf m.env.txBuf + i) = some (m.txPagesMint.entries i) := by
  rw [h.native, vspaceMapPages_add hi]

/-- The frame of a page of the process is that of the copy that was mapped there. -/
theorem frameAt_native {page : Nat} {cap : CPtr} (h : m.native page = some cap) :
    frameAt m.root.cspace m.native page = m.root.cspace cap := by
  rw [frameAt, h, Option.bind_some]

/-- The other pages of the process. -/
theorem native_of_not (h : IpcLaid cfg before m) {page : Nat}
    (hrx : ¬ (pageOf m.env.rxBuf ≤ page ∧ page < pageOf m.env.rxBuf + cfg.rxBufPages))
    (htx : ¬ (pageOf m.env.txBuf ≤ page ∧ page < pageOf m.env.txBuf + cfg.rxBufPages)) : m.native page = before page := by
  rw [h.native, vspaceMapPages_of_not (by omega), vspaceMapPages_of_not (by omega)]

/-- `rx_buf` is shared, however many pages `tx_buf` has. -/
theorem rx_shared (h : IpcLaid cfg before m) :
    BufferShared m.root.cspace m.root.vspace m.native m.client.rxBuf m.env.rxBuf cfg.rxBufSize := by
  refine .of_pages h.aligned.1 h.aligned.2.2.1 ?_
  intro i hi
  rw [← cfg.rxBufPages_eq] at hi
  obtain ⟨hsome, hframe⟩ := h.rxCopies i hi
  obtain ⟨frame, hcopy⟩ := Option.ne_none_iff_exists'.mp hsome
  exact ⟨frame, by rw [← hframe, hcopy], by rw [frameAt_native (h.native_rx hi), hcopy]⟩

/-- `tx_buf` is shared as far as it has no more pages than `rx_buf`. -/
theorem tx_shared (h : IpcLaid cfg before m) (hle : cfg.txBufPages ≤ cfg.rxBufPages) :
    BufferShared m.root.cspace m.root.vspace m.native m.client.txBuf m.env.txBuf cfg.txBufSize := by
  refine .of_pages h.aligned.2.1 h.aligned.2.2.2 ?_
  intro i hi
  rw [← cfg.txBufPages_eq] at hi
  obtain ⟨hsome, hframe⟩ := h.txCopies i hi
  obtain ⟨frame, hcopy⟩ := Option.ne_none_iff_exists'.mp hsome
  exact ⟨frame, by rw [← hframe, hcopy], by rw [frameAt_native (h.native_tx (by omega)), hcopy]⟩

/-- With equally many pages both buffers are mapped completely. -/
theorem shared (h : IpcLaid cfg before m) (heq : cfg.rxBufPages = cfg.txBufPages) : IpcShared cfg before m := by
  have hrx : ∀ page, InBuffer m.env.rxBuf cfg.rxBufSize page ↔
      pageOf m.env.rxBuf ≤ page ∧ page < pageOf m.env.rxBuf + cfg.rxBufPages := by
    intro page
    rw [InBuffer, cfg.rxBufPages_eq]
  have htx : ∀ page, InBuffer m.env.txBuf cfg.txBufSize page ↔
      pageOf m.env.txBuf ≤ page ∧ page < pageOf m.env.txBuf + cfg.rxBufPages := by
    intro page
    rw [InBuffer, heq, cfg.txBufPages_eq]
  -- a page mapped for `tx_buf` was not mapped before, nor for `rx_buf`
  have hfree : ∀ page, InBuffer m.env.txBuf cfg.txBufSize page →
      before page = none ∧ ¬ InBuffer m.env.rxBuf cfg.rxBufSize page := by
    intro page hpage
    rw [htx] at hpage
    have hnone := h.txFree (page - pageOf m.env.txBuf) (by omega)
    rw [show pageOf m.env.txBuf + (page - pageOf m.env.txBuf) = page by omega, vspaceMapPages] at hnone
    rw [hrx]
    split at hnone
    · cases hnone
    · rename_i hnot
      exact ⟨hnone, hnot⟩
  refine ⟨h.rx_shared, h.tx_shared heq.ge, ?_, fun page hpage hpage' => (hfree page hpage').2 hpage, ?_, h.sizes, ?_⟩
  · rintro page (hpage | hpage)
    · rw [hrx] at hpage
      have hnone := h.rxFree (page - pageOf m.env.rxBuf) (by omega)
      rwa [show pageOf m.env.rxBuf + (page - pageOf m.env.rxBuf) = page by omega] at hnone
    · exact (hfree page hpage).1
  · intro page hpage
    rw [hrx, htx]
    by_contra hnot
    rw [not_or] at hnot
    exact hpage (h.native_of_not hnot.1 hnot.2)
  · rw [h.mapped.1, h.mapped.2, h.written.1, h.written.2]
    exact ⟨Nat.le_refl _, heq.le⟩

/-- If both buffers are mapped completely they have equally many pages. -/
theorem pages_eq (h : IpcLaid cfg before m) (hs : IpcShared cfg before m) : cfg.rxBufPages = cfg.txBufPages := by
  have hwritten := hs.written.2
  rw [h.mapped.2, h.written.2] at hwritten
  refine Nat.le_antisymm hwritten (Nat.le_of_not_lt fun hlt => ?_)
  -- the first page of `tx_buf` behind those that were mapped
  have htxPages := cfg.txBufPages_eq
  have hrxPages := cfg.rxBufPages_eq
  have hpage : InBuffer m.env.txBuf cfg.txBufSize (pageOf m.env.txBuf + cfg.rxBufPages) := by
    rw [InBuffer, ← htxPages]
    omega
  have hnotrx : ¬ InBuffer m.env.rxBuf cfg.rxBufSize (pageOf m.env.txBuf + cfg.rxBufPages) := fun hin => hs.apart _ hin hpage
  rw [InBuffer, ← hrxPages] at hnotrx
  have hbefore := hs.free _ (Or.inr hpage)
  obtain ⟨frame, -, hframe⟩ := hs.tx.pages cfg.rxBufPages (by omega)
  rw [frameAt, h.native_of_not hnotrx (by omega), hbefore] at hframe
  cases hframe

end IpcLaid

/-- For every two sizes, every root task and every process: after `sel4osapi_ipc_create_client` and
`sel4osapi_process_init_env` both buffers are mapped completely if and only if they have equally many pages. -/
theorem ipc_buffers_shared_iff (cfg : IpcConfig) (al : SpaceAllocator) (root : RootSpace) (native : VSpace) (aep : Ptr)
    (rxStack txStack : Nat → CPtr) (m : IpcMapping) (h : ipcConnect cfg al root native aep rxStack txStack = .ok m) :
    IpcShared cfg native m ↔ (cfg.rxBufSize + 4095) / 4096 = (cfg.txBufSize + 4095) / 4096 := by
  have hlaid := ipcConnect_ok h
  rw [← cfg.rxBufPages_eq, ← cfg.txBufPages_eq]
  exact ⟨hlaid.pages_eq, hlaid.shared⟩

/-- The first free slot from 16 on, and the first free range of pages at a multiple of 64 KB. -/
def firstFree : SpaceAllocator where
  slot cspace := ((List.range 64).map fun i => UInt32.ofNat (i + 16)).find? fun cap => cap ≠ capNull ∧ cspace cap = none
  frame cspace := (List.range 64).countP fun i => cspace (UInt32.ofNat (i + 16)) ≠ none
  range vspace numPages := ((List.range 16).map fun i => (i + 1) * 65536).find? fun vaddr =>
    vaddr % 4096 = 0 ∧ ∀ i < numPages, vspace (pageOf vaddr + i) = none
  slot_free h := by simpa using List.find?_some h
  range_free h := by simpa using List.find?_some h

/-- An empty root task. -/
def emptyRoot : RootSpace where
  cspace := fun _ => none
  vspace := fun _ => none

/-- Two buffers of two pages, one of them not quite full, are mapped completely. -/
theorem ipc_buffers_shared_iff_twoPages : ∃ m,
    ipcConnect ⟨8192, 5000⟩ firstFree emptyRoot (fun _ => none) 99 (fun _ => 0) (fun _ => 0) = .ok m ∧
    IpcShared ⟨8192, 5000⟩ (fun _ => none) m := by
  have hrun : (ipcConnect ⟨8192, 5000⟩ firstFree emptyRoot (fun _ => none) 99 (fun _ => 0) (fun _ => 0)).toOption.any
      (fun m => m.txMapped = 2) = true := by decide +kernel
  obtain ⟨m, h, -⟩ := exists_ok_of_any hrun
  exact ⟨m, h, (ipc_buffers_shared_iff _ _ _ _ _ _ _ m h).mpr (by decide)⟩

/-- With one page for `rx_buf` and two for `tx_buf`, the second page of `tx_buf` is not mapped in the process. -/
theorem ipc_buffers_not_shared : ¬ ∀ cfg al root native aep rxStack txStack m,
    ipcConnect cfg al root native aep rxStack txStack = .ok m → IpcShared cfg native m := by
  intro hall
  have hrun : (ipcConnect ⟨4096, 8192⟩ firstFree emptyRoot (fun _ => none) 99 (fun _ => 0) (fun _ => 0)).toOption.any
      (fun m => m.txMapped = 1) = true := by decide +kernel
  obtain ⟨m, h, -⟩ := exists_ok_of_any hrun
  have hpages := (ipcConnect_ok h).pages_eq (hall _ _ _ _ _ _ _ m h)
  exact absurd hpages (by decide)

end Sel4Osapi
