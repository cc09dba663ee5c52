import Sel4Osapi.Lemmas.Serial

/-!
# The serial server: the size of a request against the buffer

The assertion on `op_size` comes before `op_size` is set from the message, so it tests the size of the last read or write
before this one. As long as every read and write asks for no more than the buffer of its client the server stays within the
buffers and no assertion fails; one that asks for more is served, and the request after it, whatever its size, fails the
assertion.
-/

namespace Sel4Osapi

open Transition Memory

/-- The message asks for bytes of a buffer: a read or a write. -/
def SerialMessage.Transfers (m : SerialMessage) : Prop :=
  SerialOp.ofWord m.mr1 = some .write ∨ SerialOp.ofWord m.mr1 = some .read

namespace SerialSystem

/-- A read or a write asks for no more than the buffer of its client. -/
def Sized (s : SerialSystem) : SerialTraffic → Prop
  | .message m => m.Transfers →
    ∀ client ∈ s.processes, (s.clients.mem client).id = intOfWord m.mr0 → m.mr3 ≤ (s.clients.mem client).bufSize
  | _ => True

/-- The index of the buffer of the client that the next step of the server reads or writes. -/
def bufIndex (s : SerialSystem) : Option Nat :=
  match s.server.pc with
  | .write => if s.server.i < s.server.opSize.toNat then some s.server.i else none
  | .readCheck => if s.server.ret = none then none else some s.server.i
  | _ => none

/-- Every access of the server to the buffer of its client is within it. -/
def InBounds (s : SerialSystem) : Prop :=
  ∀ i, s.bufIndex = some i → ∃ client, s.server.client = some client ∧ i < (s.clients.mem client).bufSize.toNat

end SerialSystem

/-! ## The invariant -/

/-- The server works for a client of a process, on some device, within the size of the request. -/
def SerialServer.Works (v : SerialServer) (processes : List Ptr) : Prop :=
  ∃ client ∈ processes, v.client = some client ∧ v.device.isSome ∧ (v.pc = .readWhile ∨ v.pc = .readGetchar ∨ v.pc = .readCheck →
    v.i < v.opSize.toNat)

/-- The message that is looked at is about a client and a device, and its size is within the buffer. -/
def SerialServer.Received (v : SerialServer) (mem : Ptr → SerialClient) (processes : List Ptr) : Prop :=
  (∃ client ∈ processes, (mem client).id = v.clientId) ∧ (SerialDevice.ofWord v.devid).isSome ∧
    (SerialOp.ofWord v.opcode = some .write ∨ SerialOp.ofWord v.opcode = some .read → v.mr3 ≤ serialBufSize)

/-- The server is within the buffers. -/
structure TrafficInv (s : SerialSystem) : Prop where
  clients : ∃ free live, ClientsInv s.clients s.processes free live
  opSize : s.server.opSize ≤ serialBufSize
  received : s.server.pc = .lookup → s.server.Received s.clients.mem s.processes
  works : s.server.pc ≠ .recv → s.server.pc ≠ .lookup → s.server.Works s.processes

namespace TrafficInv

variable {s s' : SerialSystem}

/-- The server just initialised. -/
theorem of_init {processMax : Int} (h : s.Init processMax) : TrafficInv s := by
  obtain ⟨free, hinv⟩ := SerialInv.of_init h
  refine ⟨⟨free, [], hinv.clients⟩, hinv.opSize, ?_, fun hpc => absurd h.pc hpc⟩
  intro hpc
  rw [h.pc] at hpc
  cases hpc

/-- A client is created. -/
theorem createClient (h : TrafficInv s) {page : Nat → UInt8} (hs : s.createClient page = .ok s') : TrafficInv s' := by
  obtain ⟨free, live, hclients⟩ := h.clients
  obtain ⟨⟨client, clients⟩, ha, hs⟩ := bind_ok hs
  cases client with
  | none => cases hs
  | some client =>
    cases hs
    obtain ⟨hfresh, hmem, free', live', hclients'⟩ := hclients.create ha
    refine ⟨⟨free', live', hclients'⟩, h.opSize, ?_, ?_⟩
    · intro hpc
      obtain ⟨⟨p, hp, hid⟩, hrest⟩ := h.received hpc
      have hne : p ≠ client := fun e => hfresh (e ▸ hp)
      refine ⟨⟨p, List.mem_append_left _ hp, ?_⟩, hrest⟩
      simp only [Function.update_of_ne hne, hmem p hne]
      exact hid
    · intro hrecv hlookup
      obtain ⟨p, hp, hrest⟩ := h.works hrecv hlookup
      exact ⟨p, List.mem_append_left _ hp, hrest⟩

/-- A message is received. -/
theorem deliver (h : TrafficInv s) {m : SerialMessage} (hknown : s.Known m) (hsized : s.Sized (.message m)) :
    TrafficInv (s.deliver m) := by
  obtain ⟨free, live, hclients⟩ := h.clients
  obtain ⟨⟨client, hmem, hid⟩, hdevice⟩ := hknown
  refine ⟨h.clients, h.opSize, fun _ => ⟨⟨client, hmem, hid⟩, hdevice, ?_⟩, fun _ hlookup => absurd rfl hlookup⟩
  intro htransfers
  have hle := hsized htransfers client hmem hid
  rw [hclients.bufSize client hmem] at hle
  exact hle

/-- A message that was received passes the assertions. -/
theorem lookup_ok (h : TrafficInv s) (hpc : s.server.pc = .lookup) : ∃ s', s.lookupStep = .ok s' := by
  obtain ⟨free, live, hclients⟩ := h.clients
  obtain ⟨⟨client, hmem, hid⟩, hdevice, -⟩ := h.received hpc
  obtain ⟨device, hdevice⟩ := Option.isSome_iff_exists.mp hdevice
  obtain ⟨hels, hfind⟩ := hclients.lookup hmem s.server.client
  have htest : s.server.opSize ≤ (s.clients.mem client).bufSize := by
    rw [hclients.bufSize client hmem]
    exact h.opSize
  rw [hid] at hfind
  simp only [SerialSystem.lookupStep, hels, ok_bind, hfind, check_of_true htest, hdevice]
  cases SerialOp.ofWord s.server.opcode with
  | none => exact ⟨_, rfl⟩
  | some op =>
    cases op with
    | write => exact ⟨_, rfl⟩
    | read => exact ⟨_, rfl⟩
    | config => exact ⟨_, rfl⟩

/-- The client of a message that was received is found. -/
theorem lookupStep (h : TrafficInv s) (hpc : s.server.pc = .lookup) (hs : s.lookupStep = .ok s') : TrafficInv s' := by
  obtain ⟨free, live, hclients⟩ := h.clients
  obtain ⟨⟨p, hmem, hid⟩, -, hsize⟩ := h.received hpc
  obtain ⟨els, client, device, hels, hfind, -, -, v, hv, hs⟩ := SerialSystem.lookupStep_cases hs
  obtain ⟨hels', hfind'⟩ := hclients.lookup hmem s.server.client
  obtain rfl := Except.ok.inj (hels.symm.trans hels')
  rw [hid, hfind] at hfind'
  obtain rfl := Option.some.inj hfind'
  -- whatever the opcode, the client and the device are set and no byte has been asked for
  have hworks : ∀ v' : SerialServer, v'.client = v.client → v'.device = v.device →
      ¬ (v'.pc = .readWhile ∨ v'.pc = .readGetchar ∨ v'.pc = .readCheck) → v'.Works s.processes := by
    intro v' hclient hdev hpc'
    refine ⟨client, hmem, ?_, ?_, fun hread => absurd hread hpc'⟩
    · rw [hclient, hv]
    · rw [hdev, hv]
      rfl
  have hmr3 : v.mr3 = s.server.mr3 := by rw [hv]
  have hopcode : v.opcode = s.server.opcode := by rw [hv]
  have hopSize : v.opSize = s.server.opSize := by rw [hv]
  rw [hopcode] at hs
  rcases hs with ⟨hop, rfl⟩ | ⟨hop, rfl⟩ | ⟨-, rfl⟩ | ⟨-, rfl⟩
  · exact ⟨h.clients, hmr3 ▸ hsize (Or.inl hop), by simp, fun _ _ => hworks _ rfl rfl (by simp)⟩
  · exact ⟨h.clients, hmr3 ▸ hsize (Or.inr hop), by simp, fun _ _ => hworks _ rfl rfl (by simp)⟩
  · exact ⟨h.clients, hopSize ▸ h.opSize, by simp, fun _ _ => hworks _ rfl rfl (by simp)⟩
  · exact ⟨h.clients, hopSize ▸ h.opSize, by simp, fun hrecv => absurd rfl hrecv⟩

/-- The server goes on in the execution of a request. -/
theorem moves (h : TrafficInv s) {buf : Ptr → Nat → UInt8} {calls : Nat → SerialCall} {output : SerialDevice → List UInt8}
    {written : List Nat} {configured : List (Nat × SerialDevice × SerialSettings)} (v : SerialServer)
    (hlookup : v.pc ≠ .lookup) (hopSize : v.opSize = s.server.opSize) (hworks : v.pc ≠ .recv → v.Works s.processes) :
    TrafficInv { s with
      server := v, buf := buf, calls := calls, output := output, written := written, configured := configured } :=
  ⟨h.clients, hopSize ▸ h.opSize, fun hpc => absurd hpc hlookup, fun hrecv _ => hworks hrecv⟩

/-- A step in the execution of a request. -/
theorem executeStep (h : TrafficInv s) (hrecv : s.server.pc ≠ .recv) (hlookup : s.server.pc ≠ .lookup) (client : Ptr)
    (device : SerialDevice) (time : Word) (char : Option UInt8) (error : Word) :
    TrafficInv (s.executeStep client device time char error) := by
  obtain ⟨p, hp, hclient, hdevice, hi⟩ := h.works hrecv hlookup
  cases hpc : s.server.pc with
  | recv => exact absurd hpc hrecv
  | lookup => exact absurd hpc hlookup
  | write =>
    simp only [SerialSystem.executeStep, hpc]
    split
    · exact h.moves _ (by simp) rfl fun _ => ⟨p, hp, hclient, hdevice, by simp⟩
    · exact h.moves _ (by simp) rfl fun _ => ⟨p, hp, hclient, hdevice, by simp⟩
  | readTimeout | readStart | config =>
    simp only [SerialSystem.executeStep, hpc]
    exact h.moves _ (by simp) rfl fun _ => ⟨p, hp, hclient, hdevice, by simp⟩
  | readFor =>
    simp only [SerialSystem.executeStep, hpc]
    split
    · rename_i hlt
      exact h.moves _ (by simp) rfl fun _ => ⟨p, hp, hclient, hdevice, fun _ => hlt⟩
    · exact h.moves _ (by simp) rfl fun _ => ⟨p, hp, hclient, hdevice, by simp⟩
  | readWhile =>
    have hlt := hi (Or.inl hpc)
    simp only [SerialSystem.executeStep, hpc]
    split
    · exact h.moves _ (by simp) rfl fun _ => ⟨p, hp, hclient, hdevice, fun _ => hlt⟩
    · exact h.moves _ (by simp) rfl fun _ => ⟨p, hp, hclient, hdevice, fun _ => hlt⟩
  | readGetchar =>
    have hlt := hi (Or.inr (Or.inl hpc))
    simp only [SerialSystem.executeStep, hpc]
    exact h.moves _ (by simp) rfl fun _ => ⟨p, hp, hclient, hdevice, fun _ => hlt⟩
  | readCheck =>
    simp only [SerialSystem.executeStep, hpc]
    cases s.server.ret with
    | none => exact h.moves _ (by simp) rfl fun _ => ⟨p, hp, hclient, hdevice, by simp⟩
    | some b => exact h.moves _ (by simp) rfl fun _ => ⟨p, hp, hclient, hdevice, by simp⟩
  | reply =>
    simp only [SerialSystem.executeStep, hpc, SerialSystem.replyStep]
    exact h.moves _ (by simp) rfl fun hr => absurd rfl hr

/-- The server neither faults nor leaves its invariant. -/
theorem serverStep (h : TrafficInv s) (time : Word) (char : Option UInt8) (error : Word) :
    s.serverStep time char error = .blocked ∨ ∃ s', s.serverStep time char error = .next s' ∧ TrafficInv s' := by
  by_cases hrecv : s.server.pc = .recv
  · left
    simp only [SerialSystem.serverStep, hrecv]
  · right
    by_cases hlookup : s.server.pc = .lookup
    · obtain ⟨s', hs'⟩ := h.lookup_ok hlookup
      refine ⟨s', ?_, h.lookupStep hlookup hs'⟩
      simp only [SerialSystem.serverStep, hlookup, hs', Outcome.ofExcept]
    · obtain ⟨p, -, hclient, hdevice, -⟩ := h.works hrecv hlookup
      obtain ⟨device, hdevice⟩ := Option.isSome_iff_exists.mp hdevice
      refine ⟨_, SerialInv.serverStep_of_executes (c := ⟨p, device, .write [], .idle, [], 0, []⟩) ⟨hclient, hdevice⟩ hrecv hlookup
        time char error, h.executeStep hrecv hlookup _ _ _ _ _⟩

/-- Every action keeps the invariant, as long as the sizes are within the buffers. -/
theorem step (h : TrafficInv s) {a : SerialTraffic} (hsized : s.Sized a) (hs : s.trafficStep a = .next s') : TrafficInv s' := by
  cases a with
  | createClient page => exact h.createClient (Outcome.ofExcept_eq_next.mp hs)
  | store client i b =>
    cases hs
    exact ⟨h.clients, h.opSize, h.received, h.works⟩
  | message m =>
    simp only [SerialSystem.trafficStep, Outcome.guard_eq_next, Outcome.next.injEq] at hs
    obtain ⟨⟨-, hknown⟩, rfl⟩ := hs
    exact h.deliver hknown hsized
  | server time char error =>
    rcases h.serverStep time char error with hb | ⟨s'', hs'', hinv⟩
    · rw [SerialSystem.trafficStep, hb] at hs
      cases hs
    · rw [SerialSystem.trafficStep, hs''] at hs
      cases hs
      exact hinv

/-- The accesses of the server are within the buffer. -/
theorem inBounds (h : TrafficInv s) : s.InBounds := by
  obtain ⟨free, live, hclients⟩ := h.clients
  intro i hi
  have hrecv : s.server.pc ≠ .recv := by
    intro hpc
    simp [SerialSystem.bufIndex, hpc] at hi
  have hlookup : s.server.pc ≠ .lookup := by
    intro hpc
    simp [SerialSystem.bufIndex, hpc] at hi
  obtain ⟨client, hmem, hclient, -, hlt⟩ := h.works hrecv hlookup
  refine ⟨client, hclient, ?_⟩
  have hopSize := h.opSize
  rw [UInt32.le_iff_toNat_le] at hopSize
  rw [hclients.bufSize client hmem]
  have hi' : i < s.server.opSize.toNat := by
    unfold SerialSystem.bufIndex at hi
    split at hi
    · split at hi
      · cases hi
        assumption
      · cases hi
    · rename_i hpc
      split at hi
      · cases hi
      · cases hi
        exact hlt (Or.inr (Or.inr hpc))
    · cases hi
  omega

end TrafficInv

/-- In every run in which each read and each write asks for no more than the buffer of its client, the server reads and
writes no byte outside the buffer of the client it serves, and no request fails an assertion, that on the size included. -/
theorem serial_size_guard (processMax : Int) (s : SerialSystem)
    (hr : (serialTrafficMachine processMax).ReachableVia SerialSystem.Sized s) :
    s.InBounds ∧ ∀ time char error f, s.serverStep time char error ≠ .fault f := by
  have h : TrafficInv s := hr.invariant (fun s hi => .of_init hi) fun s a s' h hsized hs => h.step hsized hs
  refine ⟨h.inBounds, ?_⟩
  intro time char error f hf
  rcases h.serverStep time char error with hb | ⟨s', hs', -⟩
  · rw [hf] at hb
    cases hb
  · rw [hf] at hs'
    cases hs'

/-- A write of as much as the buffer holds arrives. -/
theorem serial_size_guard_write : ∃ s, (serialTrafficMachine 2).ReachableVia SerialSystem.Sized s ∧ s.server.pc = .write ∧
    s.server.opSize = 4096 ∧ s.bufIndex = some 0 ∧ s.InBounds := by
  have hi : (serialTrafficMachine 2).init .fresh := SerialSystem.init_fresh
  have hexec : ((serialTrafficMachine 2).exec .fresh
      [.createClient fun _ => 0, .message ⟨1, 201, 1, 4096⟩, .server 0 none 0]).any
      (fun s => s.server.pc = .write ∧ s.server.opSize = 4096 ∧ s.bufIndex = some 0) = true := rfl
  obtain ⟨s₁, hs₁, hexec⟩ := Machine.exists_step_of_exec hexec
  obtain ⟨s₂, hs₂, hexec⟩ := Machine.exists_step_of_exec hexec
  obtain ⟨s₃, hs₃, hexec⟩ := Machine.exists_step_of_exec hexec
  have h₀ : (serialTrafficMachine 2).ReachableVia SerialSystem.Sized .fresh := .init hi
  have h₁ := h₀.step (SerialTraffic.createClient fun _ => 0) trivial hs₁
  obtain ⟨free, live, hclients⟩ :=
    ((TrafficInv.of_init hi).step (a := SerialTraffic.createClient fun _ => 0) trivial hs₁).clients
  have hsized : s₁.Sized (.message ⟨1, 201, 1, 4096⟩) := by
    intro _ client hmem _
    rw [hclients.bufSize client hmem]
    exact UInt32.le_refl _
  have h₃ := (h₁.step _ hsized hs₂).step (SerialTraffic.server 0 none 0) trivial hs₃
  simp only [Machine.exec, Option.any_some, decide_eq_true_eq] at hexec
  exact ⟨s₃, h₃, hexec.1, hexec.2.1, hexec.2.2, (serial_size_guard 2 _ h₃).1⟩

/-- A write goes on as long as its size says. -/
theorem SerialSystem.exists_write_index {processMax : Int} {s : SerialSystem} (hr : (serialTrafficMachine processMax).Reachable s)
    (hpc : s.server.pc = .write) {client : Ptr} (hclient : s.server.client = some client) {device : SerialDevice}
    (hdevice : s.server.device = some device) (hi : s.server.i = 0) (n : Nat) (hn : n ≤ s.server.opSize.toNat) :
    ∃ s', (serialTrafficMachine processMax).Reachable s' ∧ s'.clients = s.clients ∧ s'.server = { s.server with i := n } := by
  induction n with
  | zero => exact ⟨s, hr, rfl, by rw [← hi]⟩
  | succ n ih =>
    obtain ⟨s', hr', hclients, hserver⟩ := ih (by omega)
    refine ⟨s'.executeStep client device 0 none 0, hr'.step (.server 0 none 0) ?_, ?_, ?_⟩
    · refine SerialInv.serverStep_of_executes (c := ⟨client, device, .write [], .idle, [], 0, []⟩) ⟨?_, ?_⟩ ?_ ?_ 0 none 0
      · rw [hserver, hclient]
      · rw [hserver, hdevice]
      · simp [hserver, hpc]
      · simp [hserver, hpc]
    · have hlt : n < s.server.opSize.toNat := by omega
      simp [SerialSystem.executeStep, hserver, hpc, hlt, hclients]
    · have hlt : n < s.server.opSize.toNat := by omega
      simp [SerialSystem.executeStep, hserver, hpc, hlt]

/-- A write of 5000 bytes is served past the end of the buffer of 4096; and after a read of 5000 bytes, that gave up without
any, a write of one byte fails the assertion. -/
theorem serial_size_unguarded :
    (∃ s, (serialTrafficMachine 2).Reachable s ∧ ¬ s.InBounds) ∧
    ∃ s, (serialTrafficMachine 2).Reachable s ∧ s.server.pc = .lookup ∧ s.server.opcode = 201 ∧ s.server.mr3 = 1 ∧
      s.serverStep 0 none 0 = .fault (.assert "op_size <= client->buf_size") := by
  have hi : (serialTrafficMachine 2).init .fresh := SerialSystem.init_fresh
  constructor
  · obtain ⟨s, hr, hs⟩ := (Machine.Reachable.init hi).exists_of_exec
      [.createClient fun _ => 0, .message ⟨1, 201, 1, 5000⟩, .server 0 none 0]
      (fun s => s.server = { (SerialSystem.fresh.deliver ⟨1, 201, 1, 5000⟩).server with
          client := some 0, device := some .uart1, opSize := 5000, pc := .write } ∧
        (s.clients.mem 0).bufSize = 4096) rfl
    simp only [decide_eq_true_eq] at hs
    obtain ⟨hserver, hbuf⟩ := hs
    obtain ⟨s', hr', hclients', hserver'⟩ :=
      SerialSystem.exists_write_index hr (by rw [hserver]) (by rw [hserver]) (by rw [hserver])
      (by rw [hserver]; rfl) 4096 (by rw [hserver]; decide)
    refine ⟨s', hr', ?_⟩
    intro hb
    obtain ⟨client, hclient, hlt⟩ := hb 4096 (by rw [SerialSystem.bufIndex, hserver', hserver]; rfl)
    rw [hserver', hserver] at hclient
    obtain rfl := Option.some.inj hclient
    rw [hclients', hbuf] at hlt
    exact absurd hlt (by decide)
  · obtain ⟨s, hr, hs⟩ := (Machine.Reachable.init hi).exists_of_exec
      ([.createClient fun _ => 0, .store 0 0 1, .message ⟨1, 202, 1, 5000⟩] ++ List.replicate 4 (.server 0 none 0) ++
        List.replicate 3 (.server 10 none 0) ++ [.message ⟨1, 201, 1, 1⟩])
      (fun s => s.server.pc = .lookup ∧ s.server.opcode = 201 ∧ s.server.mr3 = 1 ∧
        s.lookupStep.map (fun _ => ()) = .error (.assert "op_size <= client->buf_size")) rfl
    simp only [decide_eq_true_eq] at hs
    obtain ⟨hpc, hop, hmr3, hfault⟩ := hs
    refine ⟨s, hr, hpc, hop, hmr3, ?_⟩
    simp only [SerialSystem.serverStep, hpc]
    cases hl : s.lookupStep with
    | ok s' =>
      rw [hl] at hfault
      cases hfault
    | error f =>
      rw [hl] at hfault
      cases hfault
      rfl

end Sel4Osapi
