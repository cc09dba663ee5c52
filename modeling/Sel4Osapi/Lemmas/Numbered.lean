import Sel4Osapi.Lemmas.UdpStack
import Sel4Osapi.Lemmas.Serial

/-!
# Pools whose elements are numbered

An id that is the number of entries of a pool, taken right after the allocation, is the position of the element among those
handed out. As long as nothing is given back, no two elements have the same id, and a lookup by id finds the one that has
it.
-/

namespace Sel4Osapi

/-- The ids count up from one, in the order in which the elements were handed out. -/
def Pool.Numbered {ε : Type} (p : Pool (Ptr → ε)) (id : ε → Int) : Prop :=
  ∀ (i : Nat) el, p.contents[i]? = some el → id (p.mem el) = i + 1

namespace Pool.Numbered

variable {ε : Type} {p p' q : Pool (Ptr → ε)} {id : ε → Int} {el : Ptr} {v : ε}

/-- A pool that has handed out nothing. -/
theorem of_nil (h : p.contents = []) : p.Numbered id := by
  intro i el hi
  rw [h] at hi
  cases hi

/-- An element that gets the number of entries as its id. -/
theorem alloc_write (h : p.Numbered id) (hwf : p.WellFormed) (ha : simplePoolAlloc p = .ok (some el, p'))
    (hq : q = { p' with mem := Function.update p'.mem el v }) (hv : id v = simplePoolGetCurrentSize p') : q.Numbered id := by
  obtain ⟨-, hcontents, hnew, hframe⟩ := hwf.alloc_write ha hq
  obtain ⟨hwf', hcontents', -⟩ := hwf.alloc ha
  have hsize : simplePoolGetCurrentSize p' = p.contents.length + 1 := by
    rw [hwf'.currentSize_eq, hcontents', List.length_append]
    rfl
  intro i x hx
  rw [hcontents] at hx
  rcases getElem?_snoc hx with hx | ⟨rfl, rfl⟩
  · rw [hframe x (List.mem_of_getElem? hx)]
    exact h i x hx
  · rw [hnew, hv, hsize]

/-- Ids lie between one and the number of elements. -/
theorem bounds (h : p.Numbered id) (hel : el ∈ p.contents) : 0 < id (p.mem el) ∧ id (p.mem el) ≤ p.contents.length := by
  obtain ⟨i, hi⟩ := List.getElem?_of_mem hel
  have hlt := (List.getElem?_eq_some_iff.mp hi).1
  rw [h i el hi]
  omega

/-- Ids are unique. -/
theorem inj (h : p.Numbered id) {el' : Ptr} (hel : el ∈ p.contents) (hel' : el' ∈ p.contents)
    (hid : id (p.mem el) = id (p.mem el')) : el = el' := by
  obtain ⟨i, hi⟩ := List.getElem?_of_mem hel
  obtain ⟨j, hj⟩ := List.getElem?_of_mem hel'
  rw [h i el hi, h j el' hj] at hid
  have hij : i = j := by omega
  rw [hij, hj] at hi
  exact (Option.some.inj hi).symm

end Pool.Numbered

/-- A loop that stops at the first match finds the only one, whatever its variable held before. -/
theorem lookupLoop_eq {P : Ptr → Prop} [DecidablePred P] {els : List Ptr} {el : Ptr} (hel : el ∈ els) (hP : P el)
    (hunique : ∀ x ∈ els, P x → x = el) (var : Option Ptr) : lookupLoop (fun x => P x) els var = some el := by
  have hsome : ∃ x, lookupLoop (fun x => P x) els var = some x := by
    induction els with
    | nil => cases hel
    | cons x els ih =>
      unfold lookupLoop
      split
      · exact ⟨x, rfl⟩
      · rename_i hx
        rcases List.mem_cons.mp hel with rfl | hel
        · exact absurd (decide_eq_true hP) hx
        · exact ih hel fun y hy => hunique y (List.mem_cons_of_mem _ hy)
  obtain ⟨x, hx⟩ := hsome
  obtain ⟨hmem, hPx⟩ := (found_of_lookupLoop hx).of_exists (Or.inl ⟨el, hel, hP⟩)
  rw [hx, hunique x hmem hPx]

section lookups

variable {el : Ptr}

/-- The lookups of the UDP stack, by client and by socket. -/
theorem Pool.Numbered.lookupLoop {ε : Type} {p : Pool (Ptr → ε)} {id : ε → Int} (h : p.Numbered id) (hel : el ∈ p.contents)
    (var : Option Ptr) : Sel4Osapi.lookupLoop (fun x => id (p.mem x) = id (p.mem el)) p.contents var = some el :=
  lookupLoop_eq (P := fun x => id (p.mem x) = id (p.mem el)) hel rfl (fun _ hx hid => h.inj hx hel hid) var

/-- The lookup of the serial server. -/
theorem Pool.Numbered.serialLookup {p : Pool (Ptr → SerialClient)} (h : p.Numbered SerialClient.id) (hel : el ∈ p.contents)
    (var : Option Ptr) : Sel4Osapi.serialLookup p.mem (p.mem el).id p.contents var = some el :=
  serialLookup_of_mem hel (fun _ hx hid => h.inj hx hel hid) var

end lookups

/-- A word holds an `int` that is not negative. -/
theorem intOfWord_ofInt {n : Int} (h₀ : 0 ≤ n) (h : n < 2 ^ 31) : intOfWord (UInt32.ofInt n) = n := by
  have htoNat : (UInt32.ofInt n).toBitVec.toNat = n.toNat := by
    have hmod : n % 2 ^ 32 = n := Int.emod_eq_of_lt h₀ (by omega)
    rw [UInt32.ofInt, hmod, UInt32.toNat_toBitVec, UInt32.toNat_ofNat', Nat.mod_eq_of_lt (by omega)]
  rw [intOfWord, BitVec.toInt_eq_toNat_of_lt (by rw [htoNat]; omega), htoNat, Int.toNat_of_nonneg h₀]

end Sel4Osapi
