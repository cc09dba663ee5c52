import Sel4Osapi.Basic
import Mathlib.Logic.Function.Basic

/-!
# Frames, capabilities to them, and where they are mapped

What the code uses of a `vspace_t` and of the CSpace of the root task. A capability to a frame is in a slot of the CSpace, and
a page of a vspace shows the slot of the capability that is mapped there. The address of new pages is the choice of the
vspace, and the slot of a new capability that of the VKA: both are arguments here.
-/

namespace Sel4Osapi

/-- The CSpace of the root task: the frame that the capability in a slot is to. -/
abbrev RootCSpace : Type := CPtr → Option Ptr

/-- `vspace_t`, by the numbers of its pages: the slot of the capability that is mapped there. -/
abbrev VSpace : Type := Nat → Option CPtr

/-- The page of an address, of `PAGE_SIZE_4K` bytes. -/
def pageOf (vaddr : Ptr) : Nat := vaddr / 4096

/-- `vspace_get_cap(vspace, vaddr)`. -/
def vspaceGetCap (vspace : VSpace) (vaddr : Ptr) : CPtr := (vspace (pageOf vaddr)).getD capNull

/-- `vspace_map_pages(vspace, caps, NULL, seL4_AllRights, num_pages, PAGE_BITS_4K, 1)`, which returned `vaddr`. -/
def vspaceMapPages (vspace : VSpace) (caps : Nat → CPtr) (numPages : Nat) (vaddr : Ptr) : VSpace :=
  fun page =>
    if pageOf vaddr ≤ page ∧ page < pageOf vaddr + numPages then some (caps (page - pageOf vaddr)) else vspace page

/-- `vspace_unmap_pages(vspace, vaddr, num_pages, PAGE_BITS_4K, NULL)`. -/
def vspaceUnmapPages (vspace : VSpace) (vaddr : Ptr) (numPages : Nat) : VSpace :=
  fun page => if pageOf vaddr ≤ page ∧ page < pageOf vaddr + numPages then none else vspace page

/-- `sel4osapi_util_copy_cap(vka, src, dest_out)`: `slot` is what `vka_cspace_alloc` finds, and `vka_cnode_copy` wants a
capability in the one slot and none in the other. -/
def utilCopyCap (cspace : RootCSpace) (src : CPtr) (slot : Option CPtr) : Res (CPtr × RootCSpace) := do
  let dest ← checkSome slot "error == 0"
  check (cspace src ≠ none ∧ cspace dest = none) "error == 0"
  pure (dest, Function.update cspace dest (cspace src))

/-- A copy is to the same frame, in a slot of its own. -/
theorem utilCopyCap_ok {cspace cspace' : RootCSpace} {src dest : CPtr} {slot : Option CPtr}
    (h : utilCopyCap cspace src slot = .ok (dest, cspace')) :
    slot = some dest ∧ cspace src ≠ none ∧ cspace dest = none ∧ cspace' = Function.update cspace dest (cspace src) := by
  obtain ⟨d, hslot, h⟩ := bind_ok h
  obtain ⟨_, hcheck, h⟩ := bind_ok h
  obtain ⟨hsrc, hdest⟩ := of_check_ok hcheck
  cases h
  exact ⟨of_checkSome_ok hslot, hsrc, hdest, rfl⟩

/-- The pages mapped. -/
theorem vspaceMapPages_add {vspace : VSpace} {caps : Nat → CPtr} {numPages i : Nat} {vaddr : Ptr} (hi : i < numPages) :
    vspaceMapPages vspace caps numPages vaddr (pageOf vaddr + i) = some (caps i) := by
  have hpage : pageOf vaddr ≤ pageOf vaddr + i ∧ pageOf vaddr + i < pageOf vaddr + numPages := by omega
  rw [vspaceMapPages, if_pos hpage, Nat.add_sub_cancel_left]

/-- The other pages. -/
theorem vspaceMapPages_of_not {vspace : VSpace} {caps : Nat → CPtr} {numPages page : Nat} {vaddr : Ptr}
    (h : page < pageOf vaddr ∨ pageOf vaddr + numPages ≤ page) :
    vspaceMapPages vspace caps numPages vaddr page = vspace page := by
  rw [vspaceMapPages, if_neg]
  omega

/-- One page unmapped. -/
theorem vspaceUnmapPages_one (vspace : VSpace) (vaddr : Ptr) :
    vspaceUnmapPages vspace vaddr 1 = Function.update vspace (pageOf vaddr) none := by
  funext page
  rw [vspaceUnmapPages, Function.update_apply]
  by_cases h : page = pageOf vaddr
  · rw [if_pos h, if_pos (by omega)]
  · rw [if_neg h, if_neg (by omega)]

end Sel4Osapi
