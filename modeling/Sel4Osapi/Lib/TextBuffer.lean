import Sel4Osapi.Lib.Memory

/-!
# Formatted text in a buffer

A buffer that text is written to by `snprintf` and `vsnprintf`, one piece after another. Its memory is that from the start of
the buffer on, so a store past its end is one to other memory; `extent` says how far stores have gone. `text` is the formatted
text of a call, as long as it would be in a buffer that is large enough.

`snprintf_snprintf` is about a second piece put behind a first one that fitted: it is as if both were formatted at once.
`stores` are the single stores of a call, one byte each, and `applyAll_stores` says that they come to the same.
-/

/-- A buffer for text: the memory from its start on, the end of what has been stored so far, and how many characters come
before the null stored last. -/
structure TextBuffer where
  mem : Nat → UInt8
  extent : Nat
  stored : Nat

namespace TextBuffer

/-- A buffer that nothing has been stored in yet. -/
def ofMem (mem : Nat → UInt8) : TextBuffer := { mem := mem, extent := 0, stored := 0 }

/-- The memory after a block is stored at an offset. -/
def storeAt (mem : Nat → UInt8) (offset : Nat) (data : List UInt8) : Nat → UInt8 :=
  fun i => if offset ≤ i then (data[i - offset]?).getD (mem i) else mem i

/-- `snprintf(buffer + offset, size, …)` of a text: as much of it as fits with a null behind it, and nothing at all when the
size is zero. -/
def snprintf (b : TextBuffer) (offset size : Nat) (text : List UInt8) : TextBuffer :=
  if size = 0 then b
  else {
    mem := storeAt b.mem offset (text.take (size - 1) ++ [0])
    extent := max b.extent (offset + min text.length (size - 1) + 1)
    stored := offset + min text.length (size - 1) }

/-- A byte outside a block does not change when the block is stored. -/
theorem storeAt_of_outside {mem : Nat → UInt8} {offset i : Nat} {data : List UInt8} (h : i < offset ∨ offset + data.length ≤ i) :
    storeAt mem offset data i = mem i := by
  rw [storeAt]
  split
  · rw [List.getElem?_eq_none (by omega), Option.getD_none]
  · rfl

/-- The bytes of a block that was stored. -/
theorem storeAt_of_getElem? {mem : Nat → UInt8} {offset i : Nat} {data : List UInt8} {c : UInt8} (h : data[i]? = some c) :
    storeAt mem offset data (offset + i) = c := by
  rw [storeAt, if_pos (Nat.le_add_right offset i), Nat.add_sub_cancel_left, h, Option.getD_some]

variable {b : TextBuffer} {offset size : Nat} {text text' : List UInt8}

/-- Nothing is stored in a buffer without room. -/
@[simp] theorem snprintf_zero : b.snprintf offset 0 text = b := if_pos rfl

/-- How far a call stores. -/
theorem snprintf_extent (h : size ≠ 0) :
    (b.snprintf offset size text).extent = max b.extent (offset + min text.length (size - 1) + 1) := by
  rw [snprintf, if_neg h]

/-- What a call leaves in memory. -/
theorem snprintf_mem (h : size ≠ 0) : (b.snprintf offset size text).mem = storeAt b.mem offset (text.take (size - 1) ++ [0]) := by
  rw [snprintf, if_neg h]

/-- How many characters there are. -/
theorem snprintf_stored (h : size ≠ 0) : (b.snprintf offset size text).stored = offset + min text.length (size - 1) := by
  rw [snprintf, if_neg h]

/-- Stores go no further than the size that was passed. -/
theorem snprintf_extent_le (hb : b.extent ≤ offset + size) : (b.snprintf offset size text).extent ≤ offset + size := by
  rcases Nat.eq_zero_or_pos size with rfl | hpos
  · simpa using hb
  · rw [snprintf_extent (by omega)]
    omega

/-- The characters stored are those at the front of the text. -/
theorem map_range_snprintf (h : size ≠ 0) {k : Nat} (hk : k ≤ (b.snprintf 0 size text).stored) :
    (List.range k).map (b.snprintf 0 size text).mem = text.take k := by
  rw [snprintf_stored h] at hk
  refine List.ext_getElem (by simp; omega) ?_
  intro i hi hi'
  have hlt : i < text.length := by
    rw [List.length_take] at hi'
    omega
  have htake : i < (text.take (size - 1)).length := by
    rw [List.length_map, List.length_range] at hi
    rw [List.length_take]
    omega
  rw [List.getElem_map, List.getElem_range, List.getElem_take, snprintf, if_neg h]
  simp only [storeAt, Nat.zero_le, if_true, Nat.sub_zero]
  rw [List.getElem?_append_left htake, List.getElem?_eq_getElem htake, Option.getD_some, List.getElem_take]

/-- Behind a piece that fitted a second one goes on as if both were one. -/
theorem snprintf_snprintf (h : text.length < size) :
    (b.snprintf 0 size text).snprintf text.length (size - text.length) text' = b.snprintf 0 size (text ++ text') := by
  have hsize : size ≠ 0 := by omega
  have hrest : size - text.length ≠ 0 := by omega
  have htake : text.take (size - 1) = text := List.take_of_length_le (by omega)
  have happend : (text ++ text').take (size - 1) = text ++ text'.take (size - text.length - 1) := by
    rw [List.take_append, htake]
    congr 2
    omega
  simp only [snprintf, if_neg hsize, if_neg hrest, TextBuffer.mk.injEq, htake, happend, List.length_append]
  refine ⟨?_, by omega, by omega⟩
  funext i
  simp only [storeAt, Nat.zero_le, if_true, Nat.sub_zero, List.append_assoc]
  by_cases hi : text.length ≤ i
  · simp only [if_pos hi, List.getElem?_append_right hi]
    rcases Nat.eq_or_lt_of_le hi with heq | hlt
    · -- the second piece stores something where the null of the first is
      have hsome : ∃ c, (text'.take (size - text.length - 1) ++ [0])[i - text.length]? = some c := by
        rw [← heq, Nat.sub_self]
        exact ⟨_, List.getElem?_eq_getElem (by simp)⟩
      obtain ⟨c, hc⟩ := hsome
      rw [hc]
      rfl
    · have hnone : ([0] : List UInt8)[i - text.length]? = none := List.getElem?_eq_none (by simp; omega)
      rw [hnone, Option.getD_none]
  · have hlt : i < text.length := by omega
    rw [if_neg hi, List.getElem?_append_left hlt, List.getElem?_append_left hlt]

/-! ## Byte by byte -/

open Memory

/-- The stores of `snprintf(buffer + offset, size, …)` of a text, in order. -/
def stores (offset size : Nat) (text : List UInt8) : List Store :=
  if size = 0 then [] else (text.take (size - 1) ++ [0]).mapIdx fun i c => Store.byte (offset + i) c

/-- A block stored byte by byte. -/
theorem applyAll_mapIdx (mem : Nat → UInt8) (offset : Nat) (data : List UInt8) :
    applyAll mem (data.mapIdx fun i c => Store.byte (offset + i) c) = storeAt mem offset data := by
  induction data using List.reverseRecOn with
  | nil =>
    funext i
    simp [applyAll, storeAt]
  | append_singleton data c ih =>
    have hlast : applyAll mem ((data ++ [c]).mapIdx fun i c => Store.byte (offset + i) c) =
        Function.update (applyAll mem (data.mapIdx fun i c => Store.byte (offset + i) c)) (offset + data.length) c := by
      rw [List.mapIdx_append]
      simp [applyAll, Store.apply]
    rw [hlast, ih]
    funext i
    rcases eq_or_ne i (offset + data.length) with rfl | hne
    · rw [Function.update_self, storeAt_of_getElem? List.getElem?_concat_length]
    · rw [Function.update_of_ne hne, storeAt, storeAt]
      split
      · congr 1
        rcases Nat.lt_or_ge (i - offset) data.length with hlt | hge
        · rw [List.getElem?_append_left hlt]
        · rw [List.getElem?_eq_none hge, List.getElem?_eq_none (by simp; omega)]
      · rfl

/-- The stores of a call leave behind what the call does. -/
theorem applyAll_stores (b : TextBuffer) (offset size : Nat) (text : List UInt8) :
    applyAll b.mem (stores offset size text) = (b.snprintf offset size text).mem := by
  unfold stores snprintf
  split
  · rfl
  · exact applyAll_mapIdx _ _ _

/-- There is a null behind the characters stored last. -/
theorem snprintf_null (h : size ≠ 0) : (b.snprintf offset size text).mem (b.snprintf offset size text).stored = 0 := by
  rw [snprintf_stored h, snprintf_mem h]
  refine storeAt_of_getElem? ?_
  rw [List.getElem?_append_right (by rw [List.length_take]; omega), List.length_take, Nat.min_comm, Nat.sub_self]
  rfl

/-- The characters before the first null, read one after another, when there is a null behind some number of them. -/
theorem takeWhile_map_range {mem : Nat → UInt8} {i n : Nat} (hn : mem n = 0) (hi : mem i = 0) (hlt : ∀ j, j < i → mem j ≠ 0) :
    (((List.range n).map mem).takeWhile fun c => c ≠ 0) = (List.range i).map mem := by
  have hle : i ≤ n := Nat.le_of_not_lt fun h => hlt n h hn
  obtain ⟨k, rfl⟩ := Nat.exists_eq_add_of_le hle
  rw [List.range_add, List.map_append, List.takeWhile_append_of_pos (by simpa using hlt)]
  cases k with
  | zero => simp
  | succ k => simp [List.range_succ_eq_map, hi]

end TextBuffer
