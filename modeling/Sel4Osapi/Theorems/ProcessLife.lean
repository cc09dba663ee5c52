import Sel4Osapi.ProcessLife
import Sel4Osapi.Lemmas.Words
import Sel4Osapi.Lib.History
import Sel4Osapi.Theorems.Delete

/-!
# What a process finds when it starts, and what a join of it returns

The slot of its fault endpoint reaches a process as a decimal string of at most nine characters (`atoi_argString_iff`). The
main thread receives the address of its environment there, if no join was called before, and the joins get the messages after it,
each one once and in order. A join that comes before the main thread takes the address away from it.
-/

namespace Sel4Osapi

open Transition Rendezvous

/-! ## The arguments -/

/-- The digits that `printf` writes. -/
theorem formatInt_zero (n : Int) : formatInt 0 n = if n < 0 then 45 :: Decimal.digits n.natAbs else Decimal.digits n.natAbs := by
  unfold formatInt
  simp only [Nat.zero_sub, List.replicate_zero, List.append_nil]
  split <;> rfl

/-- A string of ten characters holds nine and a null. -/
theorem argString_eq (w : Word) : argString w = (formatInt 0 (intOfWord w)).take 9 := by
  unfold argString
  dsimp only
  rw [TextBuffer.map_range_snprintf (by decide) (Nat.le_refl _), TextBuffer.snprintf_stored (by decide), Nat.zero_add,
    Nat.min_comm, ← List.take_take, List.take_length]

/-- A digit is no space. -/
theorem isSpace_of_isDigit {b : UInt8} (h : Decimal.isDigit b = true) : isSpace b = false := by
  simp only [Decimal.isDigit, Bool.and_eq_true, decide_eq_true_eq, UInt8.le_iff_toNat_le] at h
  simp only [isSpace, Bool.or_eq_false_iff, decide_eq_false_iff_not, Bool.and_eq_false_iff, UInt8.le_iff_toNat_le,
    ← UInt8.toNat_inj]
  simp at h ⊢
  omega

/-- `atoi` of digits. -/
theorem atoi_of_digits {l : List UInt8} (h : ∀ b ∈ l, Decimal.isDigit b = true) : atoi l = Decimal.value l := by
  cases l with
  | nil => rfl
  | cons b l =>
    have hb := h b List.mem_cons_self
    have hspace := isSpace_of_isDigit hb
    unfold atoi
    rw [List.dropWhile_cons_of_neg (by simp [hspace])]
    split
    · rename_i heq
      rw [List.cons.injEq] at heq
      rw [heq.1] at hb
      exact absurd hb (by decide)
    · rename_i heq
      rw [List.cons.injEq] at heq
      rw [heq.1] at hb
      exact absurd hb (by decide)
    · rfl

/-- The number that `atoi` reads in the arguments: that of the first nine digits, or of eight behind a sign. -/
theorem atoi_argString (w : Word) :
    atoi (argString w) =
      if intOfWord w < 0 then -(Decimal.value ((Decimal.digits (intOfWord w).natAbs).take 8) : Int)
      else Decimal.value ((Decimal.digits (intOfWord w).natAbs).take 9) := by
  rw [argString_eq, formatInt_zero]
  split
  · rfl
  · exact atoi_of_digits fun b hb => Decimal.isDigit_of_mem_digits (List.mem_of_mem_take hb)

/-- A slot reaches a process in its arguments exactly when it has at most nine characters. -/
theorem atoi_argString_iff (w : Word) :
    UInt32.ofInt (atoi (argString w)) = w ↔ -10 ^ 8 < intOfWord w ∧ intOfWord w < 10 ^ 9 := by
  have h8 := Decimal.value_take_digits_lt (n := (intOfWord w).natAbs) (k := 8)
  have h9 := Decimal.value_take_digits_lt (n := (intOfWord w).natAbs) (k := 9)
  have hiff8 := Decimal.value_take_digits_iff (n := (intOfWord w).natAbs) (k := 8) (by decide)
  have hiff9 := Decimal.value_take_digits_iff (n := (intOfWord w).natAbs) (k := 9) (by decide)
  rw [atoi_argString]
  by_cases hneg : intOfWord w < 0
  · rw [if_pos hneg, ofInt_eq_iff (by omega) (by omega)]
    omega
  · rw [if_neg hneg, ofInt_eq_iff (by omega) (by omega)]
    omega

/-- A slot of a CSpace of at most 2^29 slots reaches a process in its arguments. -/
theorem ofInt_atoi_argString {w : Word} (h : w.toNat < 2 ^ 29) : UInt32.ofInt (atoi (argString w)) = w := by
  have hmod := intOfWord_emod w
  obtain ⟨hlo, hhi⟩ := intOfWord_bounds w
  have hvalue := (Decimal.value_take_digits_iff (n := (intOfWord w).natAbs) (k := 9) (by decide)).mpr (by omega)
  rw [atoi_argString, if_neg (by omega), hvalue, ofInt_eq_iff (by omega) (by omega)]
  omega

/-- One page mapped. -/
theorem vspaceMapPages_self (vspace : VSpace) (cap : CPtr) (vaddr : Ptr) :
    vspaceMapPages vspace (fun _ => cap) 1 vaddr (pageOf vaddr) = some cap := vspaceMapPages_add Nat.zero_lt_one

/-! ## The fault endpoint of a new process -/

/-- What a capability copied into a process leaves there: the copy, in a slot of the CSpace. -/
theorem processCopyCapInto_native {cfg : ProcessConfig} {process process' : Process} {cap slot : CPtr}
    (h : processCopyCapInto cfg process cap = .ok (slot, process')) :
    process'.native.faultEndpoint = process.native.faultEndpoint ∧
      process'.native.cspace slot = some (cap, process.env.pid) ∧ slot.toNat < 2 ^ cfg.cspaceSizeBits.toNat := by
  unfold processCopyCapInto at h
  obtain ⟨_, hne, h⟩ := bind_ok h
  have hne := of_check_ok hne
  have hlt : process.native.cspaceNextFree.toNat < 2 ^ cfg.cspaceSizeBits.toNat := by
    by_contra hge
    rw [if_neg hge] at hne
    exact hne rfl
  cases h
  simp only [if_pos hlt, Function.update_self, true_and]
  exact hlt

/-- The endpoint of a server is copied without a change to the fault endpoint. -/
theorem copyServerEp_native {cfg : ProcessConfig} {process process' : Process} {text : String} {ep : Option CPtr} {cap : CPtr}
    (h : copyServerEp cfg process text ep = .ok (cap, process')) : process'.native.faultEndpoint = process.native.faultEndpoint := by
  cases ep with
  | none =>
    cases h
    rfl
  | some ep =>
    obtain ⟨⟨slot, p⟩, hcopy, h⟩ := bind_ok h
    obtain ⟨_, -, h⟩ := bind_ok h
    cases h
    exact (processCopyCapInto_native hcopy).1

/-- The untypeds are copied without a change to the fault endpoint. -/
theorem untypedLoop_native {cfg : ProcessConfig} {sizeBits : Nat → UInt8} {userUntypeds : Nat → CPtr} {n i : Nat} {v v' : UntypedLoop}
    (h : untypedLoop cfg sizeBits userUntypeds n i v = .ok v') :
    v'.process.native.faultEndpoint = v.process.native.faultEndpoint := by
  induction n generalizing i v with
  | zero =>
    cases h
    rfl
  | succ n ih =>
    rw [untypedLoop] at h
    split at h
    · split at h
      · exact ih h
      · obtain ⟨⟨slot, process⟩, hcopy, h⟩ := bind_ok h
        exact (ih h).trans (processCopyCapInto_native hcopy).1
    · cases h
      rfl

/-- The process has a copy of its fault endpoint in the slot that its environment names. -/
theorem processInitEnv_faultEndpoint {cfg : ProcessConfig} {process process' : Process} {pid : Word} {priority num : UInt8}
    {allocation allocation' : Nat → UInt8} {sizeBits : Nat → UInt8} {userUntypeds : Nat → CPtr} {aep : CPtr} {assigned : List Nat}
    (h : processInitEnv cfg process pid priority num allocation sizeBits userUntypeds aep = .ok (process', allocation', assigned)) :
    process'.native.faultEndpoint = process.native.faultEndpoint ∧
      (process'.native.cspace process'.env.faultEndpoint).map Prod.fst = some process.native.faultEndpoint ∧
      process'.env.faultEndpoint.toNat < 2 ^ cfg.cspaceSizeBits.toNat := by
  obtain ⟨pd, p₁, tcb, p₂, v, sysclock, p₃, idling, p₄, stack, p₅, serial, p₆, fault, p₇, _, _, _, hp₁, hp₂, -, hv, ⟨hp₃, -⟩, ⟨hp₄, -⟩,
    ⟨hp₅, -⟩, ⟨hp₆, -⟩, ⟨hp₇, -⟩, -, -, rfl⟩ := processInitEnv_cases h
  have hbefore : p₆.native.faultEndpoint = process.native.faultEndpoint := by
    calc p₆.native.faultEndpoint = p₅.native.faultEndpoint := copyServerEp_native hp₆
      _ = p₄.native.faultEndpoint := copyServerEp_native hp₅
      _ = p₃.native.faultEndpoint := (processCopyCapInto_native hp₄).1
      _ = v.process.native.faultEndpoint := copyServerEp_native hp₃
      _ = p₂.native.faultEndpoint := untypedLoop_native hv
      _ = p₁.native.faultEndpoint := (processCopyCapInto_native hp₂).1
      _ = process.native.faultEndpoint := (processCopyCapInto_native hp₁).1
  obtain ⟨hsame, hslot, hlt⟩ := processCopyCapInto_native hp₇
  refine ⟨hsame.trans hbefore, ?_, hlt⟩
  dsimp only
  rw [hslot, Option.map_some, hbefore]

/-! ## The events of one process -/

namespace ProcessEvent

/-- Who sends what. -/
def message? : ProcessEvent → Option (FaultSender × FaultMessage)
  | .spawned vaddr => some (.spawn, ⟨nullFault, 1, vaddr⟩)
  | .signalled exitCode => some (.process, ⟨nullFault, 1, (UInt32.ofInt exitCode).toNat⟩)
  | .faulted m => some (.process, m)
  | _ => none

/-- Who receives. -/
def receiver? : ProcessEvent → Option FaultReceiver
  | .asks => some .init
  | .joins joiner => some (.join joiner)
  | _ => none

/-- Who gets what. -/
def met? : ProcessEvent → Option (FaultReceiver × FaultMessage)
  | .met receiver m => some (receiver, m)
  | _ => none

end ProcessEvent

/-- The messages sent to the fault endpoint of a process. -/
def messages (evs : List ProcessEvent) : List (FaultSender × FaultMessage) := evs.filterMap ProcessEvent.message?

/-- Those who have come to receive from it. -/
def receivers (evs : List ProcessEvent) : List FaultReceiver := evs.filterMap ProcessEvent.receiver?


/-- A sender, its message and a receiver that meet. -/
abbrev Meeting : Type := FaultSender × FaultMessage × FaultReceiver

/-- What a step at the fault endpoint adds to the events: a message or a receiver, and that they meet. -/
def meeting (event : ProcessEvent) (met : Option Meeting) : List ProcessEvent :=
  event :: (met.map fun x => ProcessEvent.met x.2.2 x.2.1).toList

/-- Where the main thread of a process is after a step at the fault endpoint. -/
def mainAfter (main : MainPc) : Option Meeting → MainPc
  | some (_, m, .init) => .received m
  | _ => main

/-- Whether `sel4osapi_process_spawn` still waits after it. -/
def spawningAfter (spawning : Bool) : Option Meeting → Bool
  | some (.spawn, _) => false
  | _ => spawning

/-- The message with the address of the environment. -/
def envMessage (vaddr : Ptr) : FaultMessage := ⟨nullFault, 1, vaddr⟩

/-- How far a process has come: where its main thread is, what was sent to it, whether `sel4osapi_process_spawn` waits, and what
has been sent to and asked for at its fault endpoint. Joins may come at any time; before the main thread they are `js`. -/
inductive Phase : MainPc → Option Ptr → Bool → List (FaultSender × FaultMessage) → List FaultReceiver → Prop where
  | created (js : List Nat) : Phase .created none false [] (js.map .join)
  | started (js : List Nat) : Phase .started none false [] (js.map .join)
  | startedSpawned (v : Ptr) (js : List Nat) :
    Phase .started (some v) (decide (js.length ≤ 0)) [(.spawn, envMessage v)] (js.map .join)
  | receiving (js joiners : List Nat) : Phase .receiving none false [] (js.map .join ++ .init :: joiners.map .join)
  /-- the first join has taken the address -/
  | overtaken (v : Ptr) (j : Nat) (js joiners : List Nat) :
    Phase .receiving (some v) false [(.spawn, envMessage v)] (.join j :: (js.map .join ++ .init :: joiners.map .join))
  | faulted (ms : List FaultMessage) (js : List Nat) : Phase .faulted none false (ms.map (Prod.mk .process)) (js.map .join)
  | faultedSpawned (v : Ptr) (ms ms' : List FaultMessage) (js : List Nat) :
    Phase .faulted (some v) (decide (js.length ≤ ms.length))
      (ms.map (Prod.mk .process) ++ (.spawn, envMessage v) :: ms'.map (Prod.mk .process)) (js.map .join)
  | received (v : Ptr) (joiners : List Nat) :
    Phase (.received (envMessage v)) (some v) false [(.spawn, envMessage v)] (.init :: joiners.map .join)
  | receivedFaulted (v : Ptr) (ms : List FaultMessage) (joiners : List Nat) :
    Phase .faulted (some v) false ((.spawn, envMessage v) :: ms.map (Prod.mk .process)) (.init :: joiners.map .join)
  | initialised (v : Ptr) (ms : List FaultMessage) (joiners : List Nat) :
    Phase (.initialised v) (some v) false ((.spawn, envMessage v) :: ms.map (Prod.mk .process)) (.init :: joiners.map .join)

/-- What meets when a message is sent. -/
def sendMeets (x : FaultSender × FaultMessage) (ms : List (FaultSender × FaultMessage)) (rs : List FaultReceiver) : Option Meeting :=
  rs[ms.length]?.map fun r => (x.1, x.2, r)

/-- What meets when someone comes to receive. -/
def recvMeets (r : FaultReceiver) (ms : List (FaultSender × FaultMessage)) (rs : List FaultReceiver) : Option Meeting :=
  ms[rs.length]?.map fun x => (x.1, x.2, r)

/-- A message meets a join. -/
theorem sendMeets_joins (x : FaultSender × FaultMessage) (ms : List (FaultSender × FaultMessage)) (js : List Nat) :
    sendMeets x ms (js.map .join) = js[ms.length]?.map fun j => (x.1, x.2, .join j) := by
  simp [sendMeets, Function.comp_def]

/-- Behind the main thread come the joins. -/
theorem sendMeets_of_cons (x y : FaultSender × FaultMessage) (ms : List (FaultSender × FaultMessage)) (joiners : List Nat) :
    sendMeets x (y :: ms) (.init :: joiners.map .join) = joiners[ms.length]?.map fun j => (x.1, x.2, .join j) := by
  simp [sendMeets, Function.comp_def]

/-- Behind the address come the messages of the process. -/
theorem recvMeets_of_cons (r r' : FaultReceiver) (x : FaultSender × FaultMessage) (ms : List FaultMessage) (joiners : List Nat) :
    recvMeets r (x :: ms.map (Prod.mk .process)) (r' :: joiners.map .join) = ms[joiners.length]?.map fun m => (.process, m, r) := by
  simp [recvMeets, Function.comp_def]

/-- A join leaves the main thread where it is. -/
@[simp] theorem mainAfter_recvMeets_join (main : MainPc) (j : Nat) (ms : List (FaultSender × FaultMessage)) (rs : List FaultReceiver) :
    mainAfter main (recvMeets (.join j) ms rs) = main := by
  unfold recvMeets
  cases ms[rs.length]? <;> rfl

/-- Whether `sel4osapi_process_spawn` still waits, when the joins come for its message among those of the process. -/
theorem spawningAfter_recvMeets (v : Ptr) (ms ms' : List FaultMessage) (js : List Nat) (r : FaultReceiver) :
    spawningAfter (decide (js.length ≤ ms.length))
        (recvMeets r (ms.map (Prod.mk .process) ++ (.spawn, envMessage v) :: ms'.map (Prod.mk .process)) (js.map .join)) =
      decide (js.length + 1 ≤ ms.length) := by
  unfold recvMeets
  rw [List.length_map]
  rcases Nat.lt_trichotomy js.length ms.length with hlt | heq | hgt
  · rw [List.getElem?_append_left (by simpa using hlt), List.getElem?_map, List.getElem?_eq_getElem hlt]
    have hle : js.length + 1 ≤ ms.length := hlt
    simp [spawningAfter, Nat.le_of_lt hlt, hle]
  · rw [List.getElem?_append_right (by simp [heq])]
    simp [spawningAfter, heq]
  · have hafter : (ms.map (Prod.mk FaultSender.process) ++ (.spawn, envMessage v) :: ms'.map (Prod.mk .process))[js.length]? =
        ms'[js.length - ms.length - 1]?.map (Prod.mk .process) := by
      rw [List.getElem?_append_right (by simpa using Nat.le_of_lt hgt), List.length_map, List.getElem?_cons,
        if_neg (by omega), List.getElem?_map]
    rw [hafter]
    have hnot : decide (js.length ≤ ms.length) = false := decide_eq_false (by omega)
    have hnot' : decide (js.length + 1 ≤ ms.length) = false := decide_eq_false (by omega)
    rw [hnot, hnot']
    cases ms'[js.length - ms.length - 1]? <;> rfl

namespace Phase

variable {main : MainPc} {sent : Option Ptr} {spawning : Bool} {ms : List (FaultSender × FaultMessage)} {rs : List FaultReceiver}

/-- The address is sent: the first who waits gets it. -/
theorem spawn (h : Phase main none spawning ms rs) (hmain : main ≠ .created) (v : Ptr) :
    Phase (mainAfter main (sendMeets (.spawn, envMessage v) ms rs)) (some v)
      (spawningAfter true (sendMeets (.spawn, envMessage v) ms rs)) (ms ++ [(.spawn, envMessage v)]) rs := by
  cases h with
  | created js => exact absurd rfl hmain
  | started js =>
    cases js with
    | nil => exact .startedSpawned v []
    | cons j js => exact .startedSpawned v (j :: js)
  | receiving js joiners =>
    cases js with
    | nil => exact .received v joiners
    | cons j js => exact .overtaken v j js joiners
  | faulted ms js =>
    have hspawning : spawningAfter true (sendMeets (.spawn, envMessage v) (ms.map (Prod.mk .process)) (js.map .join)) =
        decide (js.length ≤ ms.length) := by
      rw [sendMeets_joins, List.length_map]
      rcases Nat.lt_or_ge ms.length js.length with hlt | hge
      · simp [spawningAfter, hlt]
      · simp [spawningAfter, hge]
    rw [hspawning, sendMeets_joins]
    cases js[(ms.map (Prod.mk FaultSender.process)).length]? <;> exact .faultedSpawned v ms [] js

/-- The main thread comes for the address: it gets it, if that was sent and no join has taken it. -/
theorem ask (h : Phase .started sent spawning ms rs) :
    Phase (mainAfter .receiving (recvMeets .init ms rs)) sent (spawningAfter spawning (recvMeets .init ms rs)) ms (rs ++ [.init]) := by
  cases h with
  | started js => exact .receiving js []
  | startedSpawned v js =>
    cases js with
    | nil => exact .received v []
    | cons j js => exact .overtaken v j js []

/-- The main thread is started. -/
theorem start (h : Phase .created sent spawning ms rs) : Phase .started sent spawning ms rs := by
  cases h with
  | created js => exact .started js

/-- The main thread goes on with the address. -/
theorem initialise {m : FaultMessage} (h : Phase (.received m) sent spawning ms rs) : Phase (.initialised m.mr0) sent spawning ms rs := by
  cases h with
  | received v joiners => exact .initialised v [] joiners

/-- The process sends: it meets nobody, or a join. -/
theorem send (h : Phase main sent spawning ms rs) (hmain : main.canFault = true) (m : FaultMessage) :
    Phase (mainAfter main.afterFault (sendMeets (.process, m) ms rs)) sent (spawningAfter spawning (sendMeets (.process, m) ms rs))
      (ms ++ [(.process, m)]) rs := by
  cases h with
  | created | receiving | overtaken | faulted | faultedSpawned | receivedFaulted => cases hmain
  | started js =>
    rw [sendMeets_joins]
    cases js[0]? <;> exact .faulted [m] js
  | startedSpawned v js =>
    rw [sendMeets_joins]
    cases js[1]? <;> exact .faultedSpawned v [] [m] js
  | received v joiners =>
    rw [sendMeets_of_cons]
    cases joiners[0]? <;> exact .receivedFaulted v [m] joiners
  | initialised v ms joiners =>
    rw [sendMeets_of_cons, List.length_map, List.cons_append, ← List.map_singleton, ← List.map_append]
    cases joiners[ms.length]? <;> exact .initialised v (ms ++ [m]) joiners

/-- A thread of the root task comes to join: it meets nobody, or whoever has sent. -/
theorem join (h : Phase main sent spawning ms rs) (j : Nat) :
    Phase (mainAfter main (recvMeets (.join j) ms rs)) sent (spawningAfter spawning (recvMeets (.join j) ms rs)) ms
      (rs ++ [.join j]) := by
  have hjoin : ∀ js : List Nat, js.map FaultReceiver.join ++ [.join j] = (js ++ [j]).map .join := by
    simp
  rw [mainAfter_recvMeets_join]
  cases h with
  | created js =>
    rw [hjoin]
    exact .created (js ++ [j])
  | started js =>
    rw [hjoin]
    exact .started (js ++ [j])
  | startedSpawned v js =>
    have hspawning := spawningAfter_recvMeets v [] [] js (.join j)
    rw [List.map_nil, List.nil_append, List.length_nil] at hspawning
    have hnext := startedSpawned v (js ++ [j])
    rw [List.length_append, List.length_singleton] at hnext
    rw [hspawning, hjoin]
    exact hnext
  | receiving js joiners =>
    rw [List.append_assoc, List.cons_append, hjoin]
    exact .receiving js (joiners ++ [j])
  | overtaken v j' js joiners =>
    have hnone : recvMeets (.join j) [(.spawn, envMessage v)] (.join j' :: (js.map .join ++ .init :: joiners.map .join)) = none := by
      simp [recvMeets]
    rw [hnone, List.cons_append, List.append_assoc, List.cons_append, hjoin]
    exact .overtaken v j' js (joiners ++ [j])
  | faulted ms js =>
    have hspawning : spawningAfter false (recvMeets (.join j) (ms.map (Prod.mk .process)) (js.map .join)) = false := by
      unfold recvMeets
      rw [List.getElem?_map]
      cases ms[(js.map FaultReceiver.join).length]? <;> rfl
    rw [hspawning, hjoin]
    exact .faulted ms (js ++ [j])
  | faultedSpawned v ms ms' js =>
    have hnext := faultedSpawned v ms ms' (js ++ [j])
    rw [List.length_append, List.length_singleton] at hnext
    rw [spawningAfter_recvMeets, hjoin]
    exact hnext
  | received v joiners =>
    have hnone : recvMeets (.join j) [(.spawn, envMessage v)] (.init :: joiners.map .join) = none := by simp [recvMeets]
    rw [hnone, List.cons_append, hjoin joiners]
    exact .received v (joiners ++ [j])
  | receivedFaulted v ms joiners =>
    rw [recvMeets_of_cons, List.cons_append, hjoin joiners]
    cases ms[joiners.length]? <;> exact .receivedFaulted v ms (joiners ++ [j])
  | initialised v ms joiners =>
    rw [recvMeets_of_cons, List.cons_append, hjoin joiners]
    cases ms[joiners.length]? <;> exact .initialised v ms (joiners ++ [j])

end Phase

namespace ProcessLives

/-- What has happened to one process. -/
def events (s : ProcessLives) (process : Ptr) : List ProcessEvent := History.events process s.history

/-- What holds of a process that was created. -/
structure ProcessOk (s : ProcessLives) (p : Ptr) : Prop where
  phase : Phase (s.main p) (s.spawn.sent p) (s.spawning p) (messages (s.events p)) (receivers (s.events p))
  met : (s.events p).filterMap ProcessEvent.met? =
    ((messages (s.events p)).zip (receivers (s.events p))).map fun x => (x.2, x.1.2)
  faults : ∀ m, .faulted m ∈ s.events p → m.label ≠ nullFault

/-- The page with the environment of a process in the root task shows the frame that the process has where it was sent. -/
def PageOk (s : SpawnSystem) (p : Ptr) : Prop :=
  ∃ cap frame, s.vspace (pageOf (s.env p)) = some cap ∧ s.cspace cap = some frame ∧
    ∀ v, s.sent p = some v → ∃ cap', s.native p (pageOf v) = some cap' ∧ s.cspace cap' = some frame

/-- Every process that was created is in order, and every one that was not deleted has its fault endpoint, which it has a
capability to. -/
structure Inv (cfg : ProcessConfig) (s : ProcessLives) : Prop where
  spawn : SpawnInv cfg s.spawn
  fresh : ∀ p, p ∉ s.spawn.system.created → s.events p = []
  ok : ∀ p ∈ s.spawn.system.created, s.ProcessOk p
  own : ∀ p ∈ s.spawn.system.created, s.capOf p (s.env p).faultEndpoint = some (s.faultEndpoint p) ∧
    (s.env p).faultEndpoint.toNat < 2 ^ cfg.cspaceSizeBits.toNat
  paired : ∀ p, s.spawn.system.Live p → ∃ e, s.endpoints (s.faultEndpoint p) = some e ∧
    e.Paired (messages (s.events p)) (receivers (s.events p))
  distinct : ∀ p q, s.spawn.system.Live p → s.spawn.system.Live q → s.faultEndpoint p = s.faultEndpoint q → p = q
  pages : ∀ p, s.spawn.system.Live p → PageOk s.spawn p

/-! ## What a step at an endpoint does -/

section meeting

variable {s : ProcessLives} {p q : Ptr}

@[simp] theorem events_record_self (ev : ProcessEvent) : (s.record p ev).events p = s.events p ++ [ev] := History.events_snoc_self ev

theorem events_record_of_ne (h : q ≠ p) (ev : ProcessEvent) : (s.record p ev).events q = s.events q := History.events_snoc_of_ne h ev

/-- A step at the endpoint with capability `ep` of process `p`: who is released of those who meet there, and what it adds to the
events. -/
structure Meets (s s' : ProcessLives) (p : Ptr) (ep : CPtr) (e : Endpoint (FaultSender × FaultMessage) FaultReceiver)
    (event : ProcessEvent) (met : Option Meeting) : Prop where
  spawn : s'.spawn = s.spawn
  endpoints : s'.endpoints = Function.update s.endpoints ep (some e)
  self : s'.events p = s.events p ++ meeting event met
  main : s'.main p = mainAfter (s.main p) met
  spawning : s'.spawning p = spawningAfter (s.spawning p) met
  other : ∀ q, q ≠ p → s'.events q = s.events q ∧ s'.main q = s.main q ∧ s'.spawning q = s.spawning q

/-- A message arrives. -/
theorem meets_deliver {s₀ : ProcessLives} {ep : CPtr} {e : Endpoint (FaultSender × FaultMessage) FaultReceiver} {event : ProcessEvent}
    (h : s = { s₀ with endpoints := Function.update s₀.endpoints ep (some e) }.record p event) (sender : FaultSender)
    (m : FaultMessage) (receiver : FaultReceiver) :
    s₀.Meets (s.deliver p sender m receiver) p ep e event (some (sender, m, receiver)) := by
  subst h
  refine ⟨?_, ?_, ?_, ?_, ?_, ?_⟩
  · cases sender <;> cases receiver <;> rfl
  · cases sender <;> cases receiver <;> rfl
  · unfold deliver
    rw [events_record_self]
    have hself : ({ s₀ with endpoints := Function.update s₀.endpoints ep (some e) }.record p event).events p = s₀.events p ++ [event] :=
      events_record_self event
    cases sender <;> cases receiver <;> exact (congrArg (· ++ _) hself).trans (List.append_assoc _ _ _)
  · cases sender <;> cases receiver <;> simp [deliver, record, mainAfter]
  · cases sender <;> cases receiver <;> simp [deliver, record, spawningAfter]
  · intro q hq
    have hother : ({ s₀ with endpoints := Function.update s₀.endpoints ep (some e) }.record p event).events q = s₀.events q :=
      events_record_of_ne hq event
    refine ⟨?_, ?_, ?_⟩
    · unfold deliver
      rw [events_record_of_ne hq]
      cases sender <;> cases receiver <;> exact hother
    · cases sender <;> cases receiver <;> simp [deliver, record, hq]
    · cases sender <;> cases receiver <;> simp [deliver, record, hq]

/-- Nobody meets. -/
theorem meets_none (s : ProcessLives) (p : Ptr) (ep : CPtr) (e : Endpoint (FaultSender × FaultMessage) FaultReceiver)
    (event : ProcessEvent) :
    s.Meets ({ s with endpoints := Function.update s.endpoints ep (some e) }.record p event) p ep e event none :=
  ⟨rfl, rfl, events_record_self event, rfl, rfl, fun _ hq => ⟨events_record_of_ne hq event, rfl, rfl⟩⟩

/-- A message is sent: it meets the first who waits to receive. -/
theorem meets_send (s : ProcessLives) (p : Ptr) (ep : CPtr) (e : Endpoint (FaultSender × FaultMessage) FaultReceiver)
    (sender : FaultSender) (m : FaultMessage) (event : ProcessEvent) :
    s.Meets (s.send p ep e sender m event) p ep (e.send (sender, m)).2 event ((e.send (sender, m)).1.map fun r => (sender, m, r)) := by
  unfold send
  rcases e.send (sender, m) with ⟨_ | receiver, e'⟩
  · exact meets_none s p ep e' event
  · exact meets_deliver rfl sender m receiver

/-- Someone comes to receive: who waits to send first is met. -/
theorem meets_recv (s : ProcessLives) (p : Ptr) (ep : CPtr) (e : Endpoint (FaultSender × FaultMessage) FaultReceiver)
    (receiver : FaultReceiver) (event : ProcessEvent) :
    s.Meets (s.recv p ep e receiver event) p ep (e.recv receiver).2 event
      ((e.recv receiver).1.map fun x => (x.1, x.2, receiver)) := by
  unfold recv
  rcases e.recv receiver with ⟨_ | ⟨sender, m⟩, e'⟩
  · exact meets_none s p ep e' event
  · exact meets_deliver rfl sender m receiver

end meeting

/-! ## The invariant -/

theorem filterMap_meeting {β : Type} {f : ProcessEvent → Option β} (hf : ∀ r m, f (.met r m) = none) (evs : List ProcessEvent)
    (event : ProcessEvent) (o : Option Meeting) : (evs ++ meeting event o).filterMap f = evs.filterMap f ++ (f event).toList := by
  cases o <;> cases h : f event <;> simp [meeting, h, hf]

theorem messages_meeting (evs : List ProcessEvent) (event : ProcessEvent) (o : Option Meeting) :
    messages (evs ++ meeting event o) = messages evs ++ event.message?.toList := filterMap_meeting (fun _ _ => rfl) evs event o

theorem receivers_meeting (evs : List ProcessEvent) (event : ProcessEvent) (o : Option Meeting) :
    receivers (evs ++ meeting event o) = receivers evs ++ event.receiver?.toList := filterMap_meeting (fun _ _ => rfl) evs event o

theorem mem_meeting {evs : List ProcessEvent} {event : ProcessEvent} {o : Option Meeting} {m : FaultMessage}
    (h : .faulted m ∈ evs ++ meeting event o) : .faulted m ∈ evs ∨ event = .faulted m := by
  rcases List.mem_append.mp h with h | h
  · exact Or.inl h
  · rcases List.mem_cons.mp h with h | h
    · exact Or.inr h.symm
    · cases o <;> simp at h

theorem mets_meeting (evs : List ProcessEvent) {event : ProcessEvent} (h : event.met? = none) (o : Option Meeting) :
    (evs ++ meeting event o).filterMap ProcessEvent.met? =
      evs.filterMap ProcessEvent.met? ++ (o.map fun x => (x.2.2, x.2.1)).toList := by
  rw [List.filterMap_append, meeting, List.filterMap_cons_none h]
  cases o <;> rfl

namespace ProcessOk

variable {s s₀ s' : ProcessLives} {p : Ptr} {ep : CPtr} {e : Endpoint (FaultSender × FaultMessage) FaultReceiver}
  {event : ProcessEvent} {x : FaultSender × FaultMessage} {r : FaultReceiver}

/-- A message was sent. -/
theorem send (hok : s.ProcessOk p) (hevents : s₀.events p = s.events p)
    (hm : s₀.Meets s' p ep e event (sendMeets x (messages (s.events p)) (receivers (s.events p)))) (hx : event.message? = some x)
    (hr : event.receiver? = none) (hmet : event.met? = none) (hfault : ∀ m, event = .faulted m → m.label ≠ nullFault)
    (hphase : Phase (s'.main p) (s'.spawn.sent p) (s'.spawning p) (messages (s.events p) ++ [x]) (receivers (s.events p))) :
    s'.ProcessOk p := by
  have hself := hm.self
  rw [hevents] at hself
  have hmessages : messages (s'.events p) = messages (s.events p) ++ [x] := by
    rw [hself, messages_meeting, hx]
    rfl
  have hreceivers : receivers (s'.events p) = receivers (s.events p) := by
    rw [hself, receivers_meeting, hr]
    exact List.append_nil _
  refine ⟨by rw [hmessages, hreceivers]; exact hphase, ?_, ?_⟩
  · rw [hmessages, hreceivers, hself, mets_meeting _ hmet, hok.met, Endpoint.zip_snoc_left, List.map_append]
    unfold sendMeets
    cases (receivers (s.events p))[(messages (s.events p)).length]? <;> rfl
  · intro m hm'
    rw [hself] at hm'
    rcases mem_meeting hm' with hm' | hm'
    · exact hok.faults m hm'
    · exact hfault m hm'

/-- Someone came to receive. -/
theorem recv (hok : s.ProcessOk p) (hevents : s₀.events p = s.events p)
    (hm : s₀.Meets s' p ep e event (recvMeets r (messages (s.events p)) (receivers (s.events p)))) (hx : event.message? = none)
    (hr : event.receiver? = some r) (hmet : event.met? = none)
    (hphase : Phase (s'.main p) (s'.spawn.sent p) (s'.spawning p) (messages (s.events p)) (receivers (s.events p) ++ [r])) :
    s'.ProcessOk p := by
  have hself := hm.self
  rw [hevents] at hself
  have hmessages : messages (s'.events p) = messages (s.events p) := by
    rw [hself, messages_meeting, hx]
    exact List.append_nil _
  have hreceivers : receivers (s'.events p) = receivers (s.events p) ++ [r] := by
    rw [hself, receivers_meeting, hr]
    rfl
  refine ⟨by rw [hmessages, hreceivers]; exact hphase, ?_, ?_⟩
  · rw [hmessages, hreceivers, hself, mets_meeting _ hmet, hok.met, Endpoint.zip_snoc_right, List.map_append]
    unfold recvMeets
    cases (messages (s.events p))[(receivers (s.events p)).length]? <;> rfl
  · intro m hm'
    rw [hself] at hm'
    rcases mem_meeting hm' with hm' | rfl
    · exact hok.faults m hm'
    · cases hr

end ProcessOk

/-- A step at an endpoint: there is one. -/
theorem of_atEndpoint {s s' : ProcessLives} {ep : Option CPtr}
    {f : CPtr → Endpoint (FaultSender × FaultMessage) FaultReceiver → Outcome Fault ProcessLives}
    (h : s.atEndpoint ep f = .next s') : ∃ c e, ep = some c ∧ s.endpoints c = some e ∧ f c e = .next s' := by
  unfold atEndpoint at h
  split at h
  · cases h
  · split at h
    · cases h
    · exact ⟨_, _, rfl, ‹_›, h⟩

namespace Inv

variable {cfg : ProcessConfig} {s s' : ProcessLives} {p : Ptr}

/-- After the initialisation. -/
theorem of_init (h : s.Init cfg) : s.Inv cfg := by
  have hnone : ∀ p, p ∉ s.spawn.system.created := by simp [h.spawn.system.created]
  refine ⟨.of_init h.spawn, ?_, fun p hp => absurd hp (hnone p), fun p hp => absurd hp (hnone p), fun p hp => absurd hp.1 (hnone p),
    fun p _ hp => absurd hp.1 (hnone p), fun p hp => absurd hp.1 (hnone p)⟩
  intro p _
  rw [events, h.history]
  rfl

/-- A step of one process that exists, and of its endpoint. -/
theorem update (h : s.Inv cfg) (hlive : s.spawn.system.Live p) (hsystem : s'.spawn.system = s.spawn.system)
    (hspawn : SpawnInv cfg s'.spawn) (hpages : ∀ q, s.spawn.system.Live q → PageOk s'.spawn q)
    (hother : ∀ q, q ≠ p → s'.events q = s.events q ∧ s'.main q = s.main q ∧ s'.spawning q = s.spawning q ∧
      s'.spawn.sent q = s.spawn.sent q)
    (hendpoints : ∀ c, c ≠ s.faultEndpoint p → s'.endpoints c = s.endpoints c) (hok : s'.ProcessOk p)
    (hpaired : ∃ e, s'.endpoints (s.faultEndpoint p) = some e ∧ e.Paired (messages (s'.events p)) (receivers (s'.events p))) :
    s'.Inv cfg := by
  have hfault : ∀ q, s'.faultEndpoint q = s.faultEndpoint q := fun q => by rw [faultEndpoint, hsystem, faultEndpoint]
  refine ⟨hspawn, ?_, ?_, ?_, ?_, ?_, ?_⟩
  · intro q hq
    rw [hsystem] at hq
    rw [(hother q fun e => hq (e ▸ hlive.1)).1, h.fresh q hq]
  · intro q hq
    rw [hsystem] at hq
    rcases eq_or_ne q p with rfl | hne
    · exact hok
    · obtain ⟨hevents, hmain, hspawning, hsent⟩ := hother q hne
      refine ⟨?_, ?_, ?_⟩
      · rw [hevents, hmain, hspawning, hsent]
        exact (h.ok q hq).phase
      · rw [hevents]
        exact (h.ok q hq).met
      · rw [hevents]
        exact (h.ok q hq).faults
  · intro q hq
    unfold capOf env
    rw [hfault, hsystem] at *
    exact h.own q hq
  · intro q hq
    rw [hsystem] at hq
    rw [hfault]
    rcases eq_or_ne q p with rfl | hne
    · exact hpaired
    · rw [hendpoints _ (fun e => hne (h.distinct q p hq hlive e)), (hother q hne).1]
      exact h.paired q hq
  · intro q q' hq hq'
    rw [hsystem] at hq hq'
    rw [hfault, hfault]
    exact h.distinct q q' hq hq'
  · intro q hq
    rw [hsystem] at hq
    exact hpages q hq

/-- The main thread is started. -/
theorem start (h : s.Inv cfg) (hlive : s.spawn.system.Live p) (hmain : s.main p = .created) :
    Inv cfg { s with main := Function.update s.main p .started } := by
  refine h.update hlive rfl h.spawn h.pages ?_ (fun _ _ => rfl) ⟨?_, (h.ok p hlive.1).met, (h.ok p hlive.1).faults⟩ (h.paired p hlive)
  · intro q hq
    exact ⟨rfl, Function.update_of_ne hq _ _, rfl, rfl⟩
  · have hphase := (h.ok p hlive.1).phase
    rw [hmain] at hphase
    have hnext := hphase.start
    dsimp only
    rw [Function.update_self]
    exact hnext

/-- The main thread goes on with the address. -/
theorem initialise (h : s.Inv cfg) (hlive : s.spawn.system.Live p) {m : FaultMessage} (hmain : s.main p = .received m)
    (hs : s.initialiseProcess p m = .ok s') : s'.Inv cfg := by
  obtain ⟨_, -, hs⟩ := bind_ok hs
  obtain ⟨_, -, hs⟩ := bind_ok hs
  obtain ⟨_, -, hs⟩ := bind_ok hs
  cases hs
  refine h.update hlive rfl h.spawn h.pages ?_ (fun _ _ => rfl) ⟨?_, (h.ok p hlive.1).met, (h.ok p hlive.1).faults⟩ (h.paired p hlive)
  · intro q hq
    exact ⟨rfl, Function.update_of_ne hq _ _, rfl, rfl⟩
  · have hphase := (h.ok p hlive.1).phase
    rw [hmain] at hphase
    have hnext := hphase.initialise
    dsimp only
    rw [Function.update_self]
    exact hnext

/-- What a step of process `p` does before it comes to the endpoint. -/
structure Prepares (cfg : ProcessConfig) (s s₀ : ProcessLives) (p : Ptr) : Prop where
  system : s₀.spawn.system = s.spawn.system
  spawn : SpawnInv cfg s₀.spawn
  pages : ∀ q, s.spawn.system.Live q → PageOk s₀.spawn q
  endpoints : s₀.endpoints = s.endpoints
  history : s₀.history = s.history
  other : ∀ q, q ≠ p → s₀.main q = s.main q ∧ s₀.spawning q = s.spawning q ∧ s₀.spawn.sent q = s.spawn.sent q

/-- Only the main thread of the process and whether `sel4osapi_process_spawn` waits has changed. -/
theorem prepares (h : s.Inv cfg) {s₀ : ProcessLives} (hspawn : s₀.spawn = s.spawn) (hendpoints : s₀.endpoints = s.endpoints)
    (hhistory : s₀.history = s.history) (hother : ∀ q, q ≠ p → s₀.main q = s.main q ∧ s₀.spawning q = s.spawning q) :
    Prepares cfg s s₀ p := by
  refine ⟨by rw [hspawn], hspawn ▸ h.spawn, fun q hq => by rw [hspawn]; exact h.pages q hq, hendpoints, hhistory, ?_⟩
  intro q hq
  exact ⟨(hother q hq).1, (hother q hq).2, by rw [hspawn]⟩

/-- A step at the endpoint of a process that exists. -/
theorem meets (h : s.Inv cfg) (hlive : s.spawn.system.Live p) {s₀ : ProcessLives} (hp : Prepares cfg s s₀ p)
    {e : Endpoint (FaultSender × FaultMessage) FaultReceiver} {event : ProcessEvent} {met : Option Meeting}
    (hm : s₀.Meets s' p (s.faultEndpoint p) e event met) (hok : s'.ProcessOk p)
    (hpaired : e.Paired (messages (s'.events p)) (receivers (s'.events p))) : s'.Inv cfg := by
  refine h.update hlive (by rw [hm.spawn, hp.system]) (hm.spawn ▸ hp.spawn) (fun q hq => by rw [hm.spawn]; exact hp.pages q hq) ?_ ?_
    hok ⟨e, by rw [hm.endpoints, Function.update_self], hpaired⟩
  · intro q hq
    obtain ⟨hev, hmain, hspawning⟩ := hm.other q hq
    obtain ⟨hmain₀, hspawning₀, hsent₀⟩ := hp.other q hq
    refine ⟨hev.trans ?_, hmain.trans hmain₀, hspawning.trans hspawning₀, by rw [hm.spawn, hsent₀]⟩
    rw [events, hp.history, events]
  · intro c hc
    rw [hm.endpoints, Function.update_of_ne hc, hp.endpoints]

/-- A message is sent to the endpoint of a process that exists. -/
theorem send (h : s.Inv cfg) (hlive : s.spawn.system.Live p) {s₀ : ProcessLives} (hp : Prepares cfg s s₀ p)
    {e : Endpoint (FaultSender × FaultMessage) FaultReceiver} (he : s.endpoints (s.faultEndpoint p) = some e) {sender : FaultSender}
    {m : FaultMessage} {event : ProcessEvent} (hx : event.message? = some (sender, m)) (hr : event.receiver? = none)
    (hmet : event.met? = none) (hfault : ∀ m, event = .faulted m → m.label ≠ nullFault)
    (hphase : Phase (mainAfter (s₀.main p) (sendMeets (sender, m) (messages (s.events p)) (receivers (s.events p)))) (s₀.spawn.sent p)
      (spawningAfter (s₀.spawning p) (sendMeets (sender, m) (messages (s.events p)) (receivers (s.events p))))
      (messages (s.events p) ++ [(sender, m)]) (receivers (s.events p))) :
    (s₀.send p (s.faultEndpoint p) e sender m event).Inv cfg := by
  obtain ⟨e', he', hpaired⟩ := h.paired p hlive
  cases he.symm.trans he'
  obtain ⟨hmeet, hpaired⟩ := hpaired.send (sender, m)
  have hm := meets_send s₀ p (s.faultEndpoint p) e sender m event
  rw [hmeet] at hm
  have hevents : s₀.events p = s.events p := by rw [events, hp.history, events]
  have hok : (s₀.send p (s.faultEndpoint p) e sender m event).ProcessOk p := by
    refine (h.ok p hlive.1).send hevents hm hx hr hmet hfault ?_
    rw [hm.main, hm.spawning, hm.spawn]
    exact hphase
  refine h.meets hlive hp hm hok ?_
  rw [hm.self, messages_meeting, receivers_meeting, hevents, hx, hr]
  simpa using hpaired

/-- Someone comes to receive from the endpoint of a process that exists. -/
theorem recv (h : s.Inv cfg) (hlive : s.spawn.system.Live p) {s₀ : ProcessLives} (hp : Prepares cfg s s₀ p)
    {e : Endpoint (FaultSender × FaultMessage) FaultReceiver} (he : s.endpoints (s.faultEndpoint p) = some e) {r : FaultReceiver}
    {event : ProcessEvent} (hx : event.message? = none) (hr : event.receiver? = some r) (hmet : event.met? = none)
    (hphase : Phase (mainAfter (s₀.main p) (recvMeets r (messages (s.events p)) (receivers (s.events p)))) (s₀.spawn.sent p)
      (spawningAfter (s₀.spawning p) (recvMeets r (messages (s.events p)) (receivers (s.events p))))
      (messages (s.events p)) (receivers (s.events p) ++ [r])) :
    (s₀.recv p (s.faultEndpoint p) e r event).Inv cfg := by
  obtain ⟨e', he', hpaired⟩ := h.paired p hlive
  cases he.symm.trans he'
  obtain ⟨hmeet, hpaired⟩ := hpaired.recv r
  have hm := meets_recv s₀ p (s.faultEndpoint p) e r event
  rw [hmeet] at hm
  have hevents : s₀.events p = s.events p := by rw [events, hp.history, events]
  have hok : (s₀.recv p (s.faultEndpoint p) e r event).ProcessOk p := by
    refine (h.ok p hlive.1).recv hevents hm hx hr hmet ?_
    rw [hm.main, hm.spawning, hm.spawn]
    exact hphase
  refine h.meets hlive hp hm hok ?_
  rw [hm.self, messages_meeting, receivers_meeting, hevents, hx, hr]
  simpa using hpaired

/-- The main thread comes for the address. -/
theorem ask (h : s.Inv cfg) (hlive : s.spawn.system.Live p) (hmain : s.main p = .started)
    {e : Endpoint (FaultSender × FaultMessage) FaultReceiver} (he : s.endpoints (s.faultEndpoint p) = some e) :
    ({ s with main := Function.update s.main p .receiving }.recv p (s.faultEndpoint p) e .init .asks).Inv cfg := by
  have hphase := (h.ok p hlive.1).phase
  rw [hmain] at hphase
  have hp : Prepares cfg s { s with main := Function.update s.main p .receiving } p :=
    h.prepares rfl rfl rfl fun q hq => ⟨Function.update_of_ne hq _ _, rfl⟩
  refine h.recv hlive hp he rfl rfl rfl ?_
  have hnext := hphase.ask
  dsimp only
  rw [Function.update_self]
  exact hnext

/-- The process signals its end, or the kernel a fault in it. -/
theorem processSends (h : s.Inv cfg) (hlive : s.spawn.system.Live p) (hmain : (s.main p).canFault = true)
    {e : Endpoint (FaultSender × FaultMessage) FaultReceiver} (he : s.endpoints (s.faultEndpoint p) = some e) {s₀ : ProcessLives}
    (hp : Prepares cfg s s₀ p) (hmain₀ : s₀.main p = (s.main p).afterFault) (hspawning : s₀.spawning p = s.spawning p)
    (hsent : s₀.spawn.sent p = s.spawn.sent p) {m : FaultMessage} {event : ProcessEvent}
    (hx : event.message? = some (.process, m)) (hr : event.receiver? = none) (hmet : event.met? = none)
    (hfault : ∀ m, event = .faulted m → m.label ≠ nullFault) :
    (s₀.send p (s.faultEndpoint p) e .process m event).Inv cfg := by
  refine h.send hlive hp he hx hr hmet hfault ?_
  rw [hmain₀, hspawning, hsent]
  exact (h.ok p hlive.1).phase.send hmain m

/-- A thread of the root task comes to join. -/
theorem join (h : s.Inv cfg) (hlive : s.spawn.system.Live p) {e : Endpoint (FaultSender × FaultMessage) FaultReceiver}
    (he : s.endpoints (s.faultEndpoint p) = some e) (j : Nat) :
    ({ s with joining := Function.update s.joining j (some p) }.recv p (s.faultEndpoint p) e (.join j) (.joins j)).Inv cfg := by
  have hp : Prepares cfg s { s with joining := Function.update s.joining j (some p) } p :=
    h.prepares rfl rfl rfl fun q _ => ⟨rfl, rfl⟩
  exact h.recv hlive hp he rfl rfl rfl ((h.ok p hlive.1).phase.join j)

/-- The page with the environment is mapped, and the address is sent. -/
theorem spawned (h : s.Inv cfg) (hp : s.spawn.Spawnable p) (hmain : s.main p ≠ .created)
    {e : Endpoint (FaultSender × FaultMessage) FaultReceiver} (he : s.endpoints (s.faultEndpoint p) = some e) {slot : Option CPtr}
    {vaddr : Option Ptr} (hs : s.processSpawn p slot vaddr e = .ok s') : s'.Inv cfg := by
  obtain ⟨spawn, hspawn, hs⟩ := bind_ok hs
  obtain ⟨v, hv, hs⟩ := bind_ok hs
  have hv := of_checkSome_ok hv
  cases hs
  have hinv := h.spawn.spawn hp hspawn
  obtain ⟨⟨copy, cspace⟩, hcopy, hspawn⟩ := bind_ok hspawn
  obtain ⟨a, -, hspawn⟩ := bind_ok hspawn
  cases hspawn
  obtain ⟨-, hsrc, hempty, rfl⟩ := utilCopyCap_ok hcopy
  have hva : a = v := by simpa using hv
  subst hva
  have hphase := (h.ok p hp.1.1).phase
  rw [hp.2] at hphase
  have hframe : ∀ cap frame, s.spawn.cspace cap = some frame →
      Function.update s.spawn.cspace copy (s.spawn.cspace (vspaceGetCap s.spawn.vspace (s.spawn.env p))) cap = some frame := by
    intro cap frame hcap
    rw [Function.update_of_ne, hcap]
    rintro rfl
    rw [hempty] at hcap
    cases hcap
  have hprepares : Prepares cfg s { s with
      spawn := { s.spawn with
        cspace := Function.update s.spawn.cspace copy (s.spawn.cspace (vspaceGetCap s.spawn.vspace (s.spawn.env p)))
        native := Function.update s.spawn.native p (vspaceMapPages (s.spawn.native p) (fun _ => copy) 1 a)
        sent := Function.update s.spawn.sent p (some a) }
      spawning := Function.update s.spawning p true } p := by
    refine ⟨rfl, hinv, ?_, rfl, rfl, fun q hq => ⟨rfl, Function.update_of_ne hq _ _, Function.update_of_ne hq _ _⟩⟩
    intro q hq
    obtain ⟨cap, frame, hcap, hcapframe, hsent⟩ := h.pages q hq
    refine ⟨cap, frame, hcap, hframe cap frame hcapframe, ?_⟩
    intro v' hv'
    dsimp only at hv' ⊢
    rcases eq_or_ne q p with rfl | hne
    · rw [Function.update_self] at hv' ⊢
      cases hv'
      refine ⟨copy, ?_, ?_⟩
      · exact vspaceMapPages_self (s.spawn.native q) copy a
      · rw [Function.update_self, vspaceGetCap, hcap, Option.getD_some, hcapframe]
    · rw [Function.update_of_ne hne] at hv' ⊢
      obtain ⟨cap', hcap', hcapframe'⟩ := hsent v' hv'
      exact ⟨cap', hcap', hframe cap' frame hcapframe'⟩
  refine h.send hp.1 hprepares he rfl rfl rfl (fun _ hm => by cases hm) ?_
  dsimp only
  rw [Function.update_self, Function.update_self]
  exact hphase.spawn hmain a

/-- A process is created, with a page and a fault endpoint that are new. -/
theorem create (h : s.Inv cfg) {priority : UInt8} {page : NewPage} {native : NativeProcess} {vspace : VSpace} {aep : CPtr}
    (hfresh : s.Fresh page native) (hs : s.processCreate cfg priority page native vspace aep = .ok s') : s'.Inv cfg := by
  obtain ⟨spawn, hspawn, hs⟩ := bind_ok hs
  have hinv := h.spawn.create hspawn
  obtain ⟨system, hsystem, hspawn⟩ := bind_ok hspawn
  rcases ProcessSystem.processCreate_cases h.spawn.books.pool hsystem with
    rfl | ⟨p, process, pid, allocation, assigned, hinit, hadds, hmem, hframe, -⟩
  · -- the pool has no entry
    rw [List.getElem?_eq_none (Nat.le_refl _)] at hspawn
    cases hspawn
    rw [List.getElem?_eq_none (Nat.le_refl _)] at hs
    cases hs
    exact h
  · have hp := hadds.fresh
    have hcreated := hadds.created
    have hdeleted := hadds.deleted
    rw [hcreated, List.getElem?_concat_length] at hspawn
    cases hspawn
    dsimp only at hs
    rw [hcreated, List.getElem?_concat_length] at hs
    cases hs
    obtain ⟨hnative, hslot, hlt⟩ := processInitEnv_faultEndpoint hinit
    obtain ⟨hpage, hcap, hendpoint⟩ := hfresh
    have hendpoint := Option.isNone_iff_eq_none.mp hendpoint
    have hmemCreated : ∀ q, q ∈ system.created ↔ q ∈ s.spawn.system.created ∨ q = p := by
      rw [hcreated]
      simp
    have hold : ∀ q, q ≠ p → q ∈ system.created → q ∈ s.spawn.system.created := fun q hne hq => ((hmemCreated q).mp hq).resolve_right hne
    have hlive : ∀ q, q ≠ p → system.Live q → s.spawn.system.Live q := fun q hne hq => ⟨hold q hne hq.1, hdeleted ▸ hq.2⟩
    have hnone : s.spawn.sent p = none := by
      cases hsent : s.spawn.sent p with
      | none => rfl
      | some v => exact absurd (h.spawn.created p v hsent) hp
    have hself : (system.processes.mem p).native.faultEndpoint = native.faultEndpoint := by rw [hmem, hnative]
    refine ⟨hinv, ?_, ?_, ?_, ?_, ?_, ?_⟩
    · intro q hq
      exact h.fresh q fun hc => hq ((hmemCreated q).mpr (Or.inl hc))
    · intro q hq
      rcases eq_or_ne q p with rfl | hne
      · have hevents := h.fresh q hp
        refine ⟨?_, ?_, ?_⟩
        · change Phase (Function.update s.main q .created q) (s.spawn.sent q) (Function.update s.spawning q false q)
            (messages (s.events q)) (receivers (s.events q))
          rw [Function.update_self, Function.update_self, hnone, hevents]
          exact .created []
        · change (s.events q).filterMap _ = ((messages (s.events q)).zip (receivers (s.events q))).map _
          rw [hevents]
          rfl
        · change ∀ m, .faulted m ∈ s.events q → _
          simp [hevents]
      · have hok := h.ok q (hold q hne hq)
        refine ⟨?_, hok.met, hok.faults⟩
        change Phase (Function.update s.main p .created q) (s.spawn.sent q) (Function.update s.spawning p false q) _ _
        rw [Function.update_of_ne hne, Function.update_of_ne hne]
        exact hok.phase
    · intro q hq
      rcases eq_or_ne q p with rfl | hne
      · change ((system.processes.mem q).native.cspace (system.processes.mem q).env.faultEndpoint).map Prod.fst =
          some (system.processes.mem q).native.faultEndpoint ∧ (system.processes.mem q).env.faultEndpoint.toNat < _
        rw [hself, hmem]
        exact ⟨hslot, hlt⟩
      · change ((system.processes.mem q).native.cspace (system.processes.mem q).env.faultEndpoint).map Prod.fst =
          some (system.processes.mem q).native.faultEndpoint ∧ (system.processes.mem q).env.faultEndpoint.toNat < _
        rw [hframe q (hold q hne hq)]
        exact h.own q (hold q hne hq)
    · intro q hq
      rcases eq_or_ne q p with rfl | hne
      · refine ⟨.empty, ?_, ?_⟩
        · change Function.update s.endpoints _ _ (system.processes.mem q).native.faultEndpoint = _
          rw [hself, Function.update_self]
        · change Endpoint.empty.Paired (messages (s.events q)) (receivers (s.events q))
          rw [h.fresh q hp]
          exact .empty
      · obtain ⟨e, he, hpaired⟩ := h.paired q (hlive q hne hq)
        refine ⟨e, ?_, hpaired⟩
        change Function.update s.endpoints _ _ (system.processes.mem q).native.faultEndpoint = _
        rw [hframe q (hold q hne hq.1), Function.update_of_ne, ← he]
        · rfl
        · intro hc
          rw [faultEndpoint, hc, hendpoint] at he
          cases he
    · intro q q' hq hq' heq
      change (system.processes.mem q).native.faultEndpoint = (system.processes.mem q').native.faultEndpoint at heq
      have hold' : ∀ r, r ≠ p → system.Live r → (system.processes.mem r).native.faultEndpoint ≠ native.faultEndpoint := by
        intro r hne hr hc
        obtain ⟨e, he, -⟩ := h.paired r (hlive r hne hr)
        rw [faultEndpoint, ← hframe r (hold r hne hr.1), hc, hendpoint] at he
        cases he
      rcases eq_or_ne q p with rfl | hne
      · by_contra hne
        exact hold' q' (Ne.symm hne) hq' (heq.symm.trans hself)
      · rcases eq_or_ne q' p with rfl | hne'
        · exact absurd (heq.trans hself) (hold' q hne hq)
        · refine h.distinct q q' (hlive q hne hq) (hlive q' hne' hq') ?_
          rw [hframe q (hold q hne hq.1), hframe q' (hold q' hne' hq'.1)] at heq
          exact heq
    · intro q hq
      rcases eq_or_ne q p with rfl | hne
      · refine ⟨page.cap, page.frame, ?_, Function.update_self .., fun v hv => ?_⟩
        · dsimp only
          rw [Function.update_self]
          exact vspaceMapPages_self s.spawn.vspace page.cap page.vaddr
        · change s.spawn.sent q = some v at hv
          rw [hnone] at hv
          cases hv
      · obtain ⟨cap, frame, hc, hf, hsent⟩ := h.pages q (hlive q hne hq)
        have hkept : ∀ c f, s.spawn.cspace c = some f → Function.update s.spawn.cspace page.cap (some page.frame) c = some f := by
          intro c f hcf
          rw [Function.update_of_ne, hcf]
          rintro rfl
          rw [hcap] at hcf
          cases hcf
        refine ⟨cap, frame, ?_, hkept cap frame hf, ?_⟩
        · dsimp only
          rw [Function.update_of_ne hne, vspaceMapPages_of_not, hc]
          have hpne : pageOf (s.spawn.env q) ≠ pageOf page.vaddr := by
            intro hp'
            rw [hp', hpage] at hc
            cases hc
          omega
        · intro v hv
          obtain ⟨cap', hcap', hf'⟩ := hsent v hv
          refine ⟨cap', ?_, hkept cap' frame hf'⟩
          dsimp only
          rw [Function.update_of_ne hne, hcap']

/-- A process is deleted. -/
theorem delete (h : s.Inv cfg) (hlive : s.spawn.system.Live p) :
    Inv cfg { s with spawn := s.spawn.processDelete p, endpoints := Function.update s.endpoints (s.faultEndpoint p) none } := by
  have hother : ∀ q, (s.spawn.processDelete p).system.Live q → s.spawn.system.Live q ∧ q ≠ p := by
    intro q hq
    have hd : q ∉ s.spawn.system.deleted ++ [p] := hq.2
    rw [List.mem_append, List.mem_singleton, not_or] at hd
    exact ⟨⟨hq.1, hd.1⟩, hd.2⟩
  refine ⟨h.spawn.delete hlive, h.fresh, fun q hq => ⟨(h.ok q hq).phase, (h.ok q hq).met, (h.ok q hq).faults⟩, h.own, ?_, ?_, ?_⟩
  · intro q hq
    obtain ⟨hl, hne⟩ := hother q hq
    obtain ⟨e, he, hpaired⟩ := h.paired q hl
    refine ⟨e, ?_, hpaired⟩
    change Function.update s.endpoints (s.faultEndpoint p) none (s.faultEndpoint q) = some e
    rw [Function.update_of_ne fun hc => hne (h.distinct q p hl hlive hc), he]
  · intro q q' hq hq' heq
    exact h.distinct q q' (hother q hq).1 (hother q' hq').1 heq
  · intro q hq
    obtain ⟨hl, hne⟩ := hother q hq
    obtain ⟨cap, frame, hcap, hframe, hsent⟩ := h.pages q hl
    refine ⟨cap, frame, hcap, hframe, ?_⟩
    intro v hv
    have hnative : (s.spawn.processDelete p).native q = s.spawn.native q := Function.update_of_ne hne _ _
    rw [hnative]
    exact hsent v hv

/-- The slot that a process reads in its arguments holds its fault endpoint. -/
theorem capOf_initEndpoint (h : s.Inv cfg) (hbits : cfg.cspaceSizeBits.toNat ≤ 29) (hp : p ∈ s.spawn.system.created) :
    s.capOf p (s.initEndpoint p) = some (s.faultEndpoint p) := by
  obtain ⟨hcap, hlt⟩ := h.own p hp
  have hle := Nat.pow_le_pow_right (n := 2) (by decide) hbits
  rw [initEndpoint, ofInt_atoi_argString (Nat.lt_of_lt_of_le hlt hle), hcap]

/-- Every step keeps it. -/
theorem step (h : s.Inv cfg) (hbits : cfg.cspaceSizeBits.toNat ≤ 29) {act : ProcessLifeAction}
    (hs : s.step cfg act = .next s') : s'.Inv cfg := by
  cases act with
  | create priority page native vspace aep =>
    obtain ⟨hfresh, hs⟩ := Outcome.guard_eq_next.mp hs
    exact h.create hfresh (Outcome.ofExcept_eq_next.mp hs)
  | start p =>
    obtain ⟨⟨hp, hmain⟩, hs⟩ := Outcome.guard_eq_next.mp hs
    cases hs
    exact h.start hp.1 hmain
  | spawn p slot vaddr =>
    rw [ProcessLives.step] at hs
    obtain ⟨c, e, hc, he, hs⟩ := of_atEndpoint hs
    cases hc
    obtain ⟨⟨hp, hmain⟩, hs⟩ := Outcome.guard_eq_next.mp hs
    exact h.spawned hp hmain he (Outcome.ofExcept_eq_next.mp hs)
  | ask p =>
    obtain ⟨c, e, hc, he, hs⟩ := of_atEndpoint hs
    obtain ⟨⟨hlive, hmain⟩, hs⟩ := Outcome.guard_eq_next.mp hs
    cases hs
    cases (h.capOf_initEndpoint hbits hlive.1).symm.trans hc
    exact h.ask hlive hmain he
  | initialise p =>
    unfold ProcessLives.step at hs
    dsimp only at hs
    split at hs
    · rename_i m hmain
      obtain ⟨hlive, hs⟩ := Outcome.guard_eq_next.mp hs
      exact h.initialise hlive hmain (Outcome.ofExcept_eq_next.mp hs)
    · cases hs
  | signalRoot p exitCode =>
    obtain ⟨c, e, hc, he, hs⟩ := of_atEndpoint hs
    obtain ⟨⟨hlive, hmain⟩, hs⟩ := Outcome.guard_eq_next.mp hs
    cases hs
    cases (h.own p hlive.1).1.symm.trans hc
    have hafter : s.main p = (s.main p).afterFault ∧ (s.main p).canFault = true := by
      cases hpc : s.main p <;> simp_all [MainPc.isInitialised, MainPc.afterFault, MainPc.canFault]
    exact h.processSends hlive hafter.2 he (h.prepares rfl rfl rfl fun q _ => ⟨rfl, rfl⟩) hafter.1 rfl rfl rfl rfl rfl
      fun _ hm => by cases hm
  | fault p m =>
    rw [ProcessLives.step] at hs
    obtain ⟨c, e, hc, he, hs⟩ := of_atEndpoint hs
    cases hc
    obtain ⟨⟨hlive, hlabel, hmain⟩, hs⟩ := Outcome.guard_eq_next.mp hs
    cases hs
    have hp : Prepares cfg s { s with main := Function.update s.main p (s.main p).afterFault } p :=
      h.prepares rfl rfl rfl fun q hq => ⟨Function.update_of_ne hq _ _, rfl⟩
    exact h.processSends hlive hmain he hp (Function.update_self ..) rfl rfl rfl rfl rfl fun _ hm => by cases hm; exact hlabel
  | join j p =>
    rw [ProcessLives.step] at hs
    obtain ⟨c, e, hc, he, hs⟩ := of_atEndpoint hs
    cases hc
    obtain ⟨⟨hlive, -⟩, hs⟩ := Outcome.guard_eq_next.mp hs
    cases hs
    exact h.join hlive he j
  | delete p =>
    obtain ⟨⟨hlive, -⟩, hs⟩ := Outcome.guard_eq_next.mp hs
    cases hs
    exact h.delete hlive

/-- In every state of every run. -/
theorem of_run (hbits : cfg.cspaceSizeBits.toNat ≤ 29) (hr : (processLifeMachine cfg).Reachable s) : s.Inv cfg := by
  induction hr with
  | init hi => exact of_init hi
  | step a _ hs ih => exact ih.step hbits hs

end Inv

end ProcessLives

/-! ## Who comes first -/

/-- No join has come to a fault endpoint before the main thread. -/
def MainFirst (rs : List FaultReceiver) : Prop := ∀ j, rs.head? ≠ some (.join j)

/-- Of joins alone that is so when there are none. -/
theorem mainFirst_joins {js : List Nat} : MainFirst (js.map .join) ↔ js = [] := by
  cases js <;> simp [MainFirst]

/-- The main thread has come first. -/
theorem mainFirst_init_cons (rs : List FaultReceiver) : MainFirst (.init :: rs) := by simp [MainFirst]

/-- A join has come first. -/
theorem not_mainFirst_join_cons (j : Nat) (rs : List FaultReceiver) : ¬ MainFirst (.join j :: rs) := by simp [MainFirst]

/-- The number of a join. -/
def FaultReceiver.joiner? : FaultReceiver → Option Nat
  | .join joiner => some joiner
  | .init => none

/-- The label of a message of the process. -/
def endLabel? : FaultSender × FaultMessage → Option Word
  | (.process, m) => some m.label
  | (.spawn, _) => none

/-- Those who have met a message. -/
def meetings (ms : List (FaultSender × FaultMessage)) (rs : List FaultReceiver) : List (FaultReceiver × FaultMessage) :=
  (ms.zip rs).map fun x => (x.2, x.1.2)

/-- The joins among those, with the labels. -/
def joinLabels (l : List (FaultReceiver × FaultMessage)) : List (Nat × Word) :=
  l.filterMap fun x => x.1.joiner?.map fun j => (j, x.2.label)

theorem joiners_map_join (js : List Nat) : (js.map FaultReceiver.join).filterMap FaultReceiver.joiner? = js := by
  simp [List.filterMap_map, Function.comp_def, FaultReceiver.joiner?]

theorem ends_of_process (ms : List FaultMessage) :
    (ms.map (Prod.mk FaultSender.process)).filterMap endLabel? = ms.map FaultMessage.label := by
  simp [List.filterMap_map, Function.comp_def, endLabel?]

/-- Joins alone meet one message after another. -/
theorem joinLabels_meetings (ms : List (FaultSender × FaultMessage)) (js : List Nat) :
    joinLabels (meetings ms (js.map .join)) = js.zip (ms.map fun x => x.2.label) := by
  induction ms generalizing js with
  | nil => simp [meetings, joinLabels]
  | cons x ms ih =>
    cases js with
    | nil => rfl
    | cons j js => exact congrArg (_ :: ·) (ih js)

/-- Joins alone are not the main thread. -/
theorem init_not_mem_meetings (ms : List (FaultSender × FaultMessage)) (js : List Nat) (m : FaultMessage) :
    (.init, m) ∉ meetings ms (js.map .join) := by
  intro hmem
  obtain ⟨x, hx, heq⟩ := List.mem_map.mp hmem
  obtain ⟨j, -, hj⟩ := List.mem_map.mp (List.of_mem_zip hx).2
  rw [← hj] at heq
  cases heq

namespace Phase

variable {main : MainPc} {sent : Option Ptr} {spawning : Bool} {ms : List (FaultSender × FaultMessage)} {rs : List FaultReceiver}

/-- The main thread has met the address, if and only if it came first and the address was sent. -/
theorem met_init (h : Phase main sent spawning ms rs) (m : FaultMessage) :
    (.init, m) ∈ meetings ms rs ↔ rs.head? = some .init ∧ ∃ v, sent = some v ∧ m = envMessage v := by
  have hjoins : ∀ (ms : List (FaultSender × FaultMessage)) (js : List Nat) (v : Option Ptr), (.init, m) ∈ meetings ms (js.map .join) ↔
      (js.map FaultReceiver.join).head? = some .init ∧ ∃ v', v = some v' ∧ m = envMessage v' := by
    intro ms js v
    rw [iff_false_left (init_not_mem_meetings ms js m)]
    cases js <;> simp
  cases h with
  | created js | started js | faulted ms js => exact hjoins _ js none
  | startedSpawned v js | faultedSpawned v ms ms' js => exact hjoins _ js (some v)
  | receiving js joiners => simp [meetings]
  | overtaken v j js joiners => simp [meetings]
  | received v joiners => simp [meetings]
  | receivedFaulted v ms joiners | initialised v ms joiners =>
    have hnone := init_not_mem_meetings (ms.map (Prod.mk .process)) joiners m
    rw [meetings, List.zip_cons_cons, List.map_cons, List.mem_cons, ← meetings, or_iff_left hnone]
    simp

/-- If no join has come before the main thread, `sel4osapi_process_spawn` has returned when that has come. -/
theorem spawning_iff {v : Ptr} (h : Phase main (some v) spawning ms rs) (hfirst : MainFirst rs) :
    spawning = false ↔ rs.head? = some .init := by
  cases h with
  | startedSpawned v js | faultedSpawned v ms ms' js =>
    obtain rfl := mainFirst_joins.mp hfirst
    simp
  | overtaken v j js joiners => exact absurd hfirst (not_mainFirst_join_cons j _)
  | received | receivedFaulted | initialised => simp

/-- The joins behind the main thread meet the messages of the process. -/
theorem joined_of_mainFirst (h : Phase main sent spawning ms rs) (hfirst : MainFirst rs) :
    joinLabels (meetings ms rs) = (rs.filterMap FaultReceiver.joiner?).zip (ms.filterMap endLabel?) := by
  have hall : ∀ (x : FaultSender × FaultMessage) (ms : List FaultMessage) (joiners : List Nat),
      joinLabels (meetings (x :: ms.map (Prod.mk .process)) (.init :: joiners.map .join)) =
        ((FaultReceiver.init :: joiners.map .join).filterMap FaultReceiver.joiner?).zip
          ((ms.map (Prod.mk FaultSender.process)).filterMap endLabel?) := by
    intro x ms joiners
    have hjoins := joinLabels_meetings (ms.map (Prod.mk .process)) joiners
    rw [List.map_map] at hjoins
    rw [List.filterMap_cons_none rfl, joiners_map_join, ends_of_process]
    exact hjoins
  cases h with
  | created js | started js | startedSpawned v js | faulted ms js | faultedSpawned v ms ms' js =>
    obtain rfl := mainFirst_joins.mp hfirst
    simp [meetings, joinLabels]
  | receiving js joiners => simp [meetings, joinLabels]
  | overtaken v j js joiners => exact absurd hfirst (not_mainFirst_join_cons j _)
  | received v joiners => exact hall _ [] joiners
  | receivedFaulted v ms joiners | initialised v ms joiners => exact hall _ ms joiners

/-- If a join has come before the main thread, the joins meet all messages, and the process does not run. -/
theorem joined_of_not_mainFirst (h : Phase main sent spawning ms rs) (hfirst : ¬ MainFirst rs) :
    joinLabels (meetings ms rs) = (rs.filterMap FaultReceiver.joiner?).zip (ms.map fun x => x.2.label) ∧
      main.isInitialised = false := by
  have hjoins : ∀ (ms : List (FaultSender × FaultMessage)) (js : List Nat), joinLabels (meetings ms (js.map .join)) =
      ((js.map FaultReceiver.join).filterMap FaultReceiver.joiner?).zip (ms.map fun x => x.2.label) := by
    intro ms js
    rw [joiners_map_join, joinLabels_meetings]
  cases h with
  | created js | started js | startedSpawned v js | faulted ms js | faultedSpawned v ms ms' js => exact ⟨hjoins _ js, rfl⟩
  | receiving js joiners => simp [meetings, joinLabels, MainPc.isInitialised]
  | overtaken v j js joiners => exact ⟨by simp [meetings, joinLabels, FaultReceiver.joiner?], rfl⟩
  | received | receivedFaulted | initialised => exact absurd (mainFirst_init_cons _) hfirst

/-- The environment of a process that runs is where it was sent. -/
theorem sent_of_initialised {v : Ptr} (h : Phase (.initialised v) sent spawning ms rs) : sent = some v := by
  cases h with
  | initialised => rfl

end Phase

namespace ProcessLives

/-- No join of a process has been called before its main thread waited for the address. -/
def MainFirst (s : ProcessLives) (process : Ptr) : Prop := Sel4Osapi.MainFirst (receivers (s.events process))

/-- A process is joined only when `sel4osapi_process_spawn` has returned. -/
def JoinOk (s : ProcessLives) : ProcessLifeAction → Prop
  | .join _ p => s.Spawned p
  | _ => True

variable {cfg : ProcessConfig} {s s' : ProcessLives} {p : Ptr}

/-- A step at an endpoint adds a receiver at most. -/
theorem Meets.receivers {ep : CPtr} {e : Endpoint (FaultSender × FaultMessage) FaultReceiver} {event : ProcessEvent}
    {met : Option Meeting} (hm : s.Meets s' p ep e event met) (q : Ptr) :
    ∃ added, receivers (s'.events q) = receivers (s.events q) ++ added ∧ ∀ j, .join j ∈ added → q = p ∧ event = .joins j := by
  rcases eq_or_ne q p with rfl | hne
  · refine ⟨event.receiver?.toList, by rw [hm.self, receivers_meeting], ?_⟩
    intro j hj
    refine ⟨rfl, ?_⟩
    cases event <;> simp [ProcessEvent.receiver?] at hj
    rw [hj]
  · exact ⟨[], by rw [(hm.other q hne).1, List.append_nil], nofun⟩

/-- A step at an endpoint, behind one that happens nowhere else. -/
theorem of_meets_events {s₀ : ProcessLives} {ep : CPtr} {e : Endpoint (FaultSender × FaultMessage) FaultReceiver}
    {event : ProcessEvent} {met : Option Meeting} (hhistory : s₀.history = s.history) (hm : s₀.Meets s' p ep e event met) (q : Ptr) :
    ∃ added, receivers (s'.events q) = receivers (s.events q) ++ added ∧ ∀ j, .join j ∈ added → q = p ∧ event = .joins j := by
  have hevents : s₀.events q = s.events q := by rw [events, hhistory, events]
  rw [← hevents]
  exact hm.receivers q

/-- A step adds a join only when that is called. -/
theorem receivers_step {act : ProcessLifeAction} (hs : s.step cfg act = .next s') (q : Ptr) :
    ∃ added, receivers (s'.events q) = receivers (s.events q) ++ added ∧ ∀ j, .join j ∈ added → act = .join j q := by
  cases act with
  | create priority page native vspace aep =>
    obtain ⟨-, hs⟩ := Outcome.guard_eq_next.mp hs
    obtain ⟨spawn, -, hs⟩ := bind_ok (Outcome.ofExcept_eq_next.mp hs)
    refine ⟨[], ?_, nofun⟩
    rw [List.append_nil]
    split at hs <;> cases hs <;> rfl
  | start p =>
    obtain ⟨-, hs⟩ := Outcome.guard_eq_next.mp hs
    cases hs
    exact ⟨[], (List.append_nil _).symm, nofun⟩
  | spawn p slot vaddr =>
    rw [ProcessLives.step] at hs
    obtain ⟨c, e, -, -, hs⟩ := of_atEndpoint hs
    obtain ⟨-, hs⟩ := Outcome.guard_eq_next.mp hs
    obtain ⟨spawn, -, hs⟩ := bind_ok (Outcome.ofExcept_eq_next.mp hs)
    obtain ⟨v, -, hs⟩ := bind_ok hs
    cases hs
    obtain ⟨added, hadded, hjoins⟩ := of_meets_events rfl (meets_send _ p _ e .spawn _ _) q
    exact ⟨added, hadded, fun j hj => by cases (hjoins j hj).2⟩
  | ask p =>
    obtain ⟨c, e, -, -, hs⟩ := of_atEndpoint hs
    obtain ⟨-, hs⟩ := Outcome.guard_eq_next.mp hs
    cases hs
    obtain ⟨added, hadded, hjoins⟩ := of_meets_events rfl (meets_recv _ p _ e .init _) q
    exact ⟨added, hadded, fun j hj => by cases (hjoins j hj).2⟩
  | initialise p =>
    unfold ProcessLives.step at hs
    dsimp only at hs
    split at hs
    · obtain ⟨-, hs⟩ := Outcome.guard_eq_next.mp hs
      obtain ⟨_, -, hs⟩ := bind_ok (Outcome.ofExcept_eq_next.mp hs)
      obtain ⟨_, -, hs⟩ := bind_ok hs
      obtain ⟨_, -, hs⟩ := bind_ok hs
      cases hs
      exact ⟨[], (List.append_nil _).symm, nofun⟩
    · cases hs
  | signalRoot p exitCode =>
    obtain ⟨c, e, -, -, hs⟩ := of_atEndpoint hs
    obtain ⟨-, hs⟩ := Outcome.guard_eq_next.mp hs
    cases hs
    obtain ⟨added, hadded, hjoins⟩ := of_meets_events rfl (meets_send _ p _ e .process _ _) q
    exact ⟨added, hadded, fun j hj => by cases (hjoins j hj).2⟩
  | fault p m =>
    rw [ProcessLives.step] at hs
    obtain ⟨c, e, -, -, hs⟩ := of_atEndpoint hs
    obtain ⟨-, hs⟩ := Outcome.guard_eq_next.mp hs
    cases hs
    obtain ⟨added, hadded, hjoins⟩ := of_meets_events rfl (meets_send _ p _ e .process m _) q
    exact ⟨added, hadded, fun j hj => by cases (hjoins j hj).2⟩
  | join j p =>
    rw [ProcessLives.step] at hs
    obtain ⟨c, e, -, -, hs⟩ := of_atEndpoint hs
    obtain ⟨-, hs⟩ := Outcome.guard_eq_next.mp hs
    cases hs
    obtain ⟨added, hadded, hjoins⟩ := of_meets_events rfl (meets_recv _ p _ e (.join j) _) q
    refine ⟨added, hadded, ?_⟩
    intro j' hj'
    obtain ⟨rfl, hevent⟩ := hjoins j' hj'
    cases hevent
    rfl
  | delete p =>
    obtain ⟨-, hs⟩ := Outcome.guard_eq_next.mp hs
    cases hs
    exact ⟨[], (List.append_nil _).symm, nofun⟩

/-- Who joins when `sel4osapi_process_spawn` has returned comes behind the main thread. -/
theorem mainFirst_step (h : s.Inv cfg) (hfirst : ∀ p, s.MainFirst p) {act : ProcessLifeAction} (hok : s.JoinOk act)
    (hs : s.step cfg act = .next s') : ∀ p, s'.MainFirst p := by
  intro p j hhead
  obtain ⟨added, hadded, hjoins⟩ := receivers_step hs p
  rw [hadded] at hhead
  cases hrs : receivers (s.events p) with
  | cons r rs =>
    refine hfirst p j ?_
    rw [hrs] at hhead ⊢
    exact hhead
  | nil =>
    rw [hrs, List.nil_append] at hhead
    obtain rfl := hjoins j (List.mem_of_head? hhead)
    obtain ⟨hsent, hspawning⟩ := hok
    obtain ⟨v, hv⟩ := Option.isSome_iff_exists.mp hsent
    rw [ProcessLives.step] at hs
    obtain ⟨c, e, -, -, hs⟩ := of_atEndpoint hs
    obtain ⟨⟨hlive, -⟩, -⟩ := Outcome.guard_eq_next.mp hs
    have hphase := (h.ok p hlive.1).phase
    rw [hv] at hphase
    have hinit := (hphase.spawning_iff (hfirst p)).mp hspawning
    rw [hrs] at hinit
    cases hinit

/-- In every run whose joins come when `sel4osapi_process_spawn` has returned. -/
theorem mainFirst_of_run (hbits : cfg.cspaceSizeBits.toNat ≤ 29) (hr : (processLifeMachine cfg).ReachableVia JoinOk s) :
    ∀ p, s.MainFirst p := by
  have hboth : s.Inv cfg ∧ ∀ p, s.MainFirst p := by
    refine hr.invariant (P := fun s => s.Inv cfg ∧ ∀ p, s.MainFirst p) ?_ ?_
    · intro s hi
      refine ⟨.of_init hi, ?_⟩
      intro p
      rw [MainFirst, events, hi.history]
      nofun
    · intro s act s' ⟨hinv, hfirst⟩ hok hs
      exact ⟨hinv.step hbits hs, mainFirst_step hinv hfirst hok hs⟩
  exact hboth.2

/-- Whether a message has arrived at the main thread. -/
theorem met_init_iff (m : FaultMessage) :
    .met .init m ∈ s.events p ↔ (.init, m) ∈ (s.events p).filterMap ProcessEvent.met? := by
  rw [List.mem_filterMap]
  constructor
  · intro hm
    exact ⟨_, hm, rfl⟩
  · rintro ⟨ev, hev, hm⟩
    cases ev <;> cases hm
    exact hev

end ProcessLives

/-! ## The theorems -/

namespace ProcessEvent

/-- The label of what a process sends, or the kernel for it. -/
def ended? : ProcessEvent → Option Word
  | .signalled _ => some nullFault
  | .faulted m => some m.label
  | _ => none

/-- The label of what is sent. -/
def label? (event : ProcessEvent) : Option Word := event.message?.map fun x => x.2.label

/-- Who joins. -/
def joins? : ProcessEvent → Option Nat
  | .joins joiner => some joiner
  | _ => none

/-- Who has joined, with the label that `sel4osapi_process_join` returns. -/
def joined? : ProcessEvent → Option (Nat × Word)
  | .met (.join joiner) m => some (joiner, m.label)
  | _ => none

end ProcessEvent

/-- The joins among the receivers. -/
theorem filterMap_joins (evs : List ProcessEvent) :
    evs.filterMap ProcessEvent.joins? = (receivers evs).filterMap FaultReceiver.joiner? := by
  rw [receivers, List.filterMap_filterMap]
  congr 1
  funext ev
  cases ev <;> rfl

/-- The ends among the messages. -/
theorem filterMap_ended (evs : List ProcessEvent) : evs.filterMap ProcessEvent.ended? = (messages evs).filterMap endLabel? := by
  rw [messages, List.filterMap_filterMap]
  congr 1
  funext ev
  cases ev <;> rfl

/-- The labels of the messages. -/
theorem filterMap_label (evs : List ProcessEvent) :
    evs.filterMap ProcessEvent.label? = (messages evs).map fun x => x.2.label := by
  rw [messages, List.map_filterMap]
  rfl

/-- The joins among those who met a message. -/
theorem filterMap_joined (evs : List ProcessEvent) :
    evs.filterMap ProcessEvent.joined? = joinLabels (evs.filterMap ProcessEvent.met?) := by
  rw [joinLabels, List.filterMap_filterMap]
  congr 1
  funext ev
  cases ev with
  | met receiver m => cases receiver <;> rfl
  | _ => rfl

/-- In every run, for every process that was created, when the slots of its CSpace have numbers of at most nine digits:
1. its main thread receives nothing but the address that `sel4osapi_process_spawn` sends;
2. if no join was called before it waited for that, it receives it exactly when `sel4osapi_process_spawn` has returned, and if one
was, it never does;
3. no join was called before, if all joins are called when `sel4osapi_process_spawn` has returned;
4. when the process runs, its environment is mapped at the address, in the frame of the page where the root task has it. -/
theorem process_handshake (cfg : ProcessConfig) (hbits : cfg.cspaceSizeBits.toNat ≤ 29) (s : ProcessLives)
    (hr : (processLifeMachine cfg).Reachable s) (p : Ptr) (hp : p ∈ s.spawn.system.created) :
    (∀ m, .met .init m ∈ s.events p → ∃ v, s.spawn.sent p = some v ∧ m = ⟨nullFault, 1, v⟩) ∧
    (s.MainFirst p → ∀ m, .met .init m ∈ s.events p ↔
      s.spawning p = false ∧ ∃ v, s.spawn.sent p = some v ∧ m = ⟨nullFault, 1, v⟩) ∧
    (¬ s.MainFirst p → ∀ m, .met .init m ∉ s.events p) ∧
    ((processLifeMachine cfg).ReachableVia ProcessLives.JoinOk s → s.MainFirst p) ∧
    ∀ env, s.main p = .initialised env → s.spawn.system.Live p → s.spawn.sent p = some env ∧ ∃ cap cap' frame,
      s.spawn.vspace (pageOf (s.spawn.env p)) = some cap ∧ s.spawn.cspace cap = some frame ∧
      s.spawn.native p (pageOf env) = some cap' ∧ s.spawn.cspace cap' = some frame := by
  have h := ProcessLives.Inv.of_run hbits hr
  have hok := h.ok p hp
  have hmet : ∀ m, .met .init m ∈ s.events p ↔
      (receivers (s.events p)).head? = some .init ∧ ∃ v, s.spawn.sent p = some v ∧ m = envMessage v := by
    intro m
    rw [ProcessLives.met_init_iff, hok.met]
    exact hok.phase.met_init m
  refine ⟨fun m hm => ((hmet m).mp hm).2, ?_, ?_, fun hrun => ProcessLives.mainFirst_of_run hbits hrun p, ?_⟩
  · intro hfirst m
    rw [hmet]
    refine and_congr_left ?_
    rintro ⟨v, hv, -⟩
    have hphase := hok.phase
    rw [hv] at hphase
    exact (hphase.spawning_iff hfirst).symm
  · intro hfirst m hm
    refine hfirst fun j hj => ?_
    have hinit := ((hmet m).mp hm).1
    rw [hj] at hinit
    cases hinit
  · intro env hmain hlive
    have hphase := hok.phase
    rw [hmain] at hphase
    have hsent := hphase.sent_of_initialised
    obtain ⟨cap, frame, hcap, hframe, hpage⟩ := h.pages p hlive
    obtain ⟨cap', hcap', hframe'⟩ := hpage env hsent
    exact ⟨hsent, cap, cap', frame, hcap, hframe, hcap', hframe'⟩

/-- In every run, for every process: the joins return one after another, and a join waits only when there is no message for it. If
no join was called before the main thread waited for the address, each returns the label of the next message that the process
has sent or the kernel for it; if one was, each returns the label of the next message of all, that of `sel4osapi_process_spawn`
among them, and the process does not run. The label is that of a null fault for the messages of `sel4osapi_process_signal_root`
and of `sel4osapi_process_spawn`, and for no others. -/
theorem process_join_labels (cfg : ProcessConfig) (hbits : cfg.cspaceSizeBits.toNat ≤ 29) (s : ProcessLives)
    (hr : (processLifeMachine cfg).Reachable s) (p : Ptr) :
    (s.MainFirst p → (s.events p).filterMap ProcessEvent.joined? =
      ((s.events p).filterMap ProcessEvent.joins?).zip ((s.events p).filterMap ProcessEvent.ended?)) ∧
    (¬ s.MainFirst p → (s.events p).filterMap ProcessEvent.joined? =
      ((s.events p).filterMap ProcessEvent.joins?).zip ((s.events p).filterMap ProcessEvent.label?) ∧
      (s.main p).isInitialised = false) ∧
    ∀ m, .faulted m ∈ s.events p → m.label ≠ nullFault := by
  have h := ProcessLives.Inv.of_run hbits hr
  by_cases hp : p ∈ s.spawn.system.created
  · have hok := h.ok p hp
    rw [filterMap_joined, filterMap_joins, filterMap_ended, filterMap_label, hok.met]
    exact ⟨hok.phase.joined_of_mainFirst, hok.phase.joined_of_not_mainFirst, hok.faults⟩
  · have hfirst : s.MainFirst p := by
      rw [ProcessLives.MainFirst, h.fresh p hp]
      nofun
    rw [h.fresh p hp]
    simp [hfirst]

/-- A process that is spawned while its main thread waits, joined, and ends with code 7; a second join waits. -/
def joinedProcess : List ProcessLifeAction := [.create 100 ⟨4096, 40, 7⟩ newNative (fun _ => none) 20, .start 0, .ask 0,
  .spawn 0 (some 41) (some 65536), .initialise 0, .join 5 0, .signalRoot 0 7, .join 6 0]

/-- A process that is joined before it is spawned. -/
def earlyJoin : List ProcessLifeAction := [.create 100 ⟨4096, 40, 7⟩ newNative (fun _ => none) 20, .start 0, .join 5 0,
  .spawn 0 (some 41) (some 65536), .ask 0]

/-- `oneUntyped` runs so. -/
theorem exists_joinedProcess : ∃ s, (processLifeMachine oneUntyped).init s ∧
    (((processLifeMachine oneUntyped).exec s joinedProcess).any fun s =>
      s.spawn.system.Live 0 ∧ s.main 0 = .initialised 65536 ∧
      s.events 0 = [.asks, .spawned 65536, .met .init ⟨nullFault, 1, 65536⟩, .joins 5, .signalled 7,
        .met (.join 5) ⟨nullFault, 1, 7⟩, .joins 6]) = true ∧
    (((processLifeMachine oneUntyped).exec s earlyJoin).any fun s =>
      s.main 0 = .receiving ∧ s.events 0 = [.joins 5, .spawned 65536, .met (.join 5) ⟨nullFault, 1, 65536⟩, .asks]) = true :=
  ⟨⟨newSpawnSystem _ 30 0, fun _ => none, fun _ => .created, fun _ => false, fun _ => none, []⟩,
    ⟨⟨⟨⟨id, fun _ => ⟨0, none, none⟩, fun _ => ⟨newNative, .zero, 0⟩, 400, Function.injective_id, rfl⟩,
      (by decide : (1 : UInt8) > 0), fun _ _ => rfl, rfl, rfl⟩, fun _ => rfl⟩, fun _ => rfl, rfl⟩, rfl, rfl⟩

/-- The process receives the address, and its environment is mapped there. -/
theorem process_handshake_joinedProcess : ∃ s cap frame, (processLifeMachine oneUntyped).Reachable s ∧
    s.main 0 = .initialised 65536 ∧ s.spawn.sent 0 = some 65536 ∧ s.spawn.native 0 (pageOf 65536) = some cap ∧
    s.spawn.cspace cap = some frame := by
  obtain ⟨s₀, hi, hrun, -⟩ := exists_joinedProcess
  obtain ⟨s, hr, hs⟩ := (Machine.Reachable.init hi).exists_of_exec _ _ hrun
  obtain ⟨hlive, hmain, -⟩ := of_decide_eq_true hs
  obtain ⟨-, -, -, -, hpage⟩ := process_handshake oneUntyped (by decide) s hr 0 hlive.1
  obtain ⟨hsent, _, cap, frame, -, -, hcap, hframe⟩ := hpage 65536 hmain hlive
  exact ⟨s, cap, frame, hr, hmain, hsent, hcap, hframe⟩

/-- The first of two joins returns; and a join before the main thread returns with the message of `sel4osapi_process_spawn`. -/
theorem process_join_labels_joinedProcess :
    (∃ s, (processLifeMachine oneUntyped).Reachable s ∧ s.main 0 = .initialised 65536 ∧
      (s.events 0).filterMap ProcessEvent.joins? = [5, 6] ∧ (s.events 0).filterMap ProcessEvent.joined? = [(5, nullFault)]) ∧
    ∃ s, (processLifeMachine oneUntyped).Reachable s ∧ s.main 0 = .receiving ∧
      (s.events 0).filterMap ProcessEvent.joined? = [(5, nullFault)] := by
  obtain ⟨s₀, hi, hrun, hearly⟩ := exists_joinedProcess
  refine ⟨?_, ?_⟩
  · obtain ⟨s, hr, hs⟩ := (Machine.Reachable.init hi).exists_of_exec _ _ hrun
    obtain ⟨-, hmain, hevents⟩ := of_decide_eq_true hs
    obtain ⟨hjoined, -, -⟩ := process_join_labels oneUntyped (by decide) s hr 0
    rw [ProcessLives.MainFirst, hevents] at hjoined
    exact ⟨s, hr, hmain, by rw [hevents]; rfl, by rw [hevents]; exact hjoined (mainFirst_init_cons _)⟩
  · obtain ⟨s, hr, hs⟩ := (Machine.Reachable.init hi).exists_of_exec _ _ hearly
    obtain ⟨hmain, hevents⟩ := of_decide_eq_true hs
    obtain ⟨-, hjoined, -⟩ := process_join_labels oneUntyped (by decide) s hr 0
    rw [ProcessLives.MainFirst, hevents] at hjoined
    exact ⟨s, hr, hmain, by rw [hevents]; exact (hjoined (not_mainFirst_join_cons 5 _)).1⟩

end Sel4Osapi
