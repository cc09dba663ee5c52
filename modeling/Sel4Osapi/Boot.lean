import Sel4Osapi.Bootstrap
import Sel4Osapi.Untypeds

/-!
# system.c: the memory that the system starts with

`sel4osapi_system_initialize` takes some untypeds for the root task, then everything that the allocator still has for the user
processes, and gives the first ones back to the allocator, which serves the root task from them. `user_untypeds_num` is a
`uint8_t`: it gets what the second call returned modulo 256, and the tables have no entry for the untypeds from there on. What
the allocator answers is left open; an answer to a call that is not made does not matter. The other things that are set up there
are left out: nothing here depends on them.

What is registered in the allocator of a process is read off its environment and its CSpace as the root task has filled them.
A deletion revokes capabilities, also those of other processes when the slots happen to have the same numbers. That takes memory away
from a process and gives it none, and is left out.
-/

namespace Sel4Osapi

open Transition

/-- `ROOT_TASK_NUM_UNTYPEDS` -/
def rootTaskNumUntypeds : Word := 16

/-- `UINT_MAX` -/
def uintMax : Word := 4294967295

/-- The configuration of the library, with what the start of the system takes from it. -/
structure BootConfig extends ProcessConfig where
  /-- `SEL4OSAPI_ROOT_TASK_UNTYPED_MEM_SIZE` -/
  rootTaskUntypedMemSize : Word
  /-- `CONFIG_MAX_NUM_BOOTINFO_UNTYPED_CAPS`, the length of the tables -/
  maxNumUntypedCaps : Word

/-- What each `vka_alloc_untyped` comes to, in the two calls of `sel4osapi_util_allocate_untypeds`. -/
structure BootAnswers where
  root : Nat → Option VkaObject
  user : Nat → Option VkaObject

/-- Each untyped that the allocator gives out is in a slot of its own, as long as none was given back. -/
structure BootAnswers.Sound (a : BootAnswers) : Prop where
  root : ∀ j k object object', a.root j = some object → a.root k = some object' → object.cptr = object'.cptr → j = k
  user : ∀ j k object object', a.user j = some object → a.user k = some object' → object.cptr = object'.cptr → j = k
  apart : ∀ j k object object', a.root j = some object → a.user k = some object' → object.cptr ≠ object'.cptr

/-- The system after `sel4osapi_system_initialize`. -/
structure Boot where
  system : ProcessSystem
  /-- `user_untypeds` -/
  userUntypeds : Nat → VkaObject
  /-- how many untypeds the second call took -/
  taken : Word
  /-- what `vka_free_object` was called with -/
  freed : List VkaObject

/-- A loop that writes an entry of a table after another, from `i` on with `n` to go. -/
def fillLoop (value : Nat → UInt8) : (n i : Nat) → (table : Nat → UInt8) → Nat → UInt8
  | 0, _, table => table
  | n + 1, i, table => fillLoop value n (i + 1) (Function.update table i (value i))

/-- The loop that calls `vka_free_object`, from `i` on with `n` to go. -/
def freeLoop (untypeds : Nat → VkaObject) : (n i : Nat) → (freed : List VkaObject) → List VkaObject
  | 0, _, freed => freed
  | n + 1, i, freed => freeLoop untypeds n (i + 1) (freed ++ [untypeds i])

/-- `sel4osapi_system_initialize`, as far as untypeds and processes go. The tables are static, the array of the root task is on the
stack, the pool in the blocks `b`. -/
def systemInitialize (cfg : BootConfig) (a : BootAnswers) (rootTaskUts : Nat → VkaObject) (b : PoolBlocks Process) : Res Boot := do
  let (reserveNum, rootTaskUts) := utilAllocateUntypeds a.root rootTaskUts cfg.rootTaskUntypedMemSize rootTaskNumUntypeds
  let (taken, userUntypeds) := utilAllocateUntypeds a.user (fun _ => ⟨0, 0⟩) uintMax cfg.maxNumUntypedCaps
  let userUntypedsNum := taken.toUInt8
  let sizeBits := fillLoop (fun i => (userUntypeds i).sizeBits) userUntypedsNum.toNat 0 fun _ => 0
  let freed := freeLoop rootTaskUts reserveNum.toNat 0 []
  check (userUntypedsNum > 0) "system->user_untypeds_num > 0"
  let allocation := fillLoop (fun _ => 0) userUntypedsNum.toNat 0 fun _ => 0
  let processes ← simplePoolNewPlain b cfg.processMax
  pure {
    system := {
      processes := processes, userUntypeds := fun i => (userUntypeds i).cptr, userUntypedsAllocation := allocation
      userUntypedsSizeBits := sizeBits, userUntypedsNum := userUntypedsNum, created := [], deleted := [], given := fun _ => []
      revoked := [] }
    userUntypeds := userUntypeds, taken := taken, freed := freed }

/-- The processes that are created and deleted from there on. -/
def Boot.machine (cfg : BootConfig) (boot : Boot) : Machine Fault ProcessSystem ProcessAction where
  init s := s = boot.system
  step := ProcessSystem.step cfg.toProcessConfig

/-- The memory of a process: the capability of the root task behind each slot that `sel4osapi_system_bootstrap_user` gives to the
allocator of the process, with the size it gives. -/
def Process.memory (process : Process) : Res (List (CPtr × UInt8)) := do
  let allocator ← systemBootstrapUser process.env
  pure (allocator.untypeds.filterMap fun x => (process.native.cspace x.1).map fun cap => (cap.1, x.2))

/-- A process has the untyped of the root task in slot `cap` in its memory. -/
def ProcessSystem.Holds (s : ProcessSystem) (process : Ptr) (cap : CPtr) : Prop :=
  ∃ memory, (s.processes.mem process).memory = .ok memory ∧ cap ∈ memory.map Prod.fst

/-! ## The tables -/

/-- The table after the loop. -/
theorem fillLoop_apply (value : Nat → UInt8) (n i : Nat) (table : Nat → UInt8) (j : Nat) :
    fillLoop value n i table j = if i ≤ j ∧ j < i + n then value j else table j := by
  induction n generalizing i table with
  | zero => rw [fillLoop, if_neg (by omega)]
  | succ n ih =>
    rw [fillLoop, ih]
    by_cases hj : j = i
    · subst hj
      rw [if_neg (by omega), if_pos (by omega), Function.update_self]
    · rw [Function.update_of_ne hj]
      simp only [show (i + 1 ≤ j ∧ j < i + 1 + n) ↔ (i ≤ j ∧ j < i + (n + 1)) by omega]

/-- What the loop frees. -/
theorem freeLoop_eq (untypeds : Nat → VkaObject) (n i : Nat) (freed : List VkaObject) :
    freeLoop untypeds n i freed = freed ++ (List.range' i n).map untypeds := by
  induction n generalizing i freed with
  | zero => simp [freeLoop]
  | succ n ih => rw [freeLoop, ih, List.range'_succ, List.map_cons, List.append_assoc, List.singleton_append]

end Sel4Osapi
