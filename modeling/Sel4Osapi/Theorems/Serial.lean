import Sel4Osapi.Lemmas.Serial

/-!
# The serial server: no two calls mix in a buffer or on a device

The results hold of every interleaving of any number of calls by any number of processes.
-/

namespace Sel4Osapi

open Transition Memory

/-- What the server reads in the buffer for a request is what the call stored there. -/
def SerialRequest.Seen (buf : Nat → UInt8) : SerialRequest → Prop
  | .write data => ∀ j < data.length, data[j]? = some (buf j)
  | .read _ timeout => loadWord buf 0 = timeout
  | .configure config => SerialSettings.load buf = config.settings

/-- A buffer that was filled for a request shows it. -/
theorem SerialRequest.Filled.seen {r : SerialRequest} {buf : Nat → UInt8} (h : r.Filled buf) : r.Seen buf := by
  cases r with
  | write data => exact h.write
  | read size timeout => exact h.read
  | configure config => exact h.configure

namespace SerialInv

variable {s : SerialSystem} {free live : List Ptr}

/-- At the start of the execution of a request the buffer of its client shows what the call stored. -/
theorem seen (h : SerialInv s free live)
    (hpc : s.server.pc = .write ∨ s.server.pc = .readTimeout ∨ s.server.pc = .config) :
    s.server.Executes (s.calls s.server.caller) ∧
      (s.calls s.server.caller).request.Seen (s.buf (s.calls s.server.caller).client) := by
  have hl := h.locals
  rcases hpc with hpc | hpc | hpc <;> simp only [SerialServer.Local, hpc] at hl
  · obtain ⟨hexec, -, -, -, hfilled⟩ := hl
    exact ⟨hexec, hfilled.seen⟩
  · obtain ⟨hexec, -, -, -, -, hfilled⟩ := hl
    exact ⟨hexec, hfilled.seen⟩
  · obtain ⟨hexec, -, hfilled⟩ := hl
    exact ⟨hexec, hfilled.seen⟩

/-- The rest of a read goes by the size and the timeout of the call. -/
theorem reads (h : SerialInv s free live)
    (hpc : s.server.pc = .readStart ∨ s.server.pc = .readFor ∨ s.server.pc = .readWhile ∨ s.server.pc = .readGetchar ∨
      s.server.pc = .readCheck) :
    s.server.Executes (s.calls s.server.caller) ∧
      (s.calls s.server.caller).request = .read s.server.opSize s.server.timeout := by
  have hl := h.locals
  rcases hpc with hpc | hpc | hpc | hpc | hpc <;> simp only [SerialServer.Local, hpc] at hl
  · exact ⟨hl.1, hl.2.1⟩
  · exact ⟨hl.1, hl.2.1⟩
  · exact ⟨hl.1.1, hl.1.2.1⟩
  · exact ⟨hl.1.1, hl.1.2.1⟩
  · exact ⟨hl.1.1, hl.1.2.1⟩

/-- A write call that has returned has returned its size. -/
theorem write_done (h : SerialInv s free live) {k : Nat} {data : List UInt8} (hreq : (s.calls k).request = .write data)
    (hpc : (s.calls k).pc = .done) : (s.calls k).ret.toNat = data.length ∧ k ∈ s.written := by
  have hok := h.ok k
  rw [SerialCall.Ok, hpc] at hok
  obtain ⟨-, -, hfits⟩ := h.made k (by simp [hpc])
  have hret : (s.calls k).ret = (s.calls k).request.size := by
    have := hok.1
    rw [SerialCall.Replied, hreq] at this
    rw [hreq]
    exact this
  rw [hreq] at hret hfits
  refine ⟨by rw [hret, hfits.toNat_size], (h.output.written k).mpr ⟨by rw [hreq]; rfl, Or.inr (Or.inl hpc)⟩⟩

/-- A read call that has returned has copied out what the server stored for it, and returned how much that is. -/
theorem read_done (h : SerialInv s free live) {k : Nat} {size timeout : Word} (hreq : (s.calls k).request = .read size timeout)
    (hpc : (s.calls k).pc = .done) :
    (s.calls k).data = (s.calls k).stored ∧ (s.calls k).ret.toNat = (s.calls k).stored.length ∧
      (s.calls k).stored.length ≤ size.toNat := by
  have hok := h.ok k
  rw [SerialCall.Ok, hpc] at hok
  have hrep := hok.1
  rw [SerialCall.Replied, hreq] at hrep
  exact ⟨hok.2 (by rw [hreq]; rfl), hrep⟩

end SerialInv

/-- In every reachable state: when the server starts to execute a request, its variables point to the client and the device
of the call that made it, and the buffer shows the data, the timeout or the configuration of that call; a read goes by the
size and the timeout of its call, and every call of `serial_configure` had the device and the configuration of its call. The
output of a device is the concatenation of the byte strings of the write calls to it that have been executed, each once and
in the order of service, followed by what the one that is being executed has put. A write call that returned has returned
its size; a read call copies out of the buffer what the server stored for it, and nothing else. -/
theorem serial_calls_isolated (processMax : Int) (s : SerialSystem) (hr : (serialMachine processMax).Reachable s) :
    (s.server.pc = .write ∨ s.server.pc = .readTimeout ∨ s.server.pc = .config →
      s.server.Executes (s.calls s.server.caller) ∧
        (s.calls s.server.caller).request.Seen (s.buf (s.calls s.server.caller).client)) ∧
    (s.server.pc = .readStart ∨ s.server.pc = .readFor ∨ s.server.pc = .readWhile ∨ s.server.pc = .readGetchar ∨
        s.server.pc = .readCheck →
      s.server.Executes (s.calls s.server.caller) ∧
        (s.calls s.server.caller).request = .read s.server.opSize s.server.timeout) ∧
    (∀ e ∈ s.configured, ∃ config, (s.calls e.1).request = .configure config ∧ e.2 = ((s.calls e.1).dev, config.settings)) ∧
    (∀ dev, s.output dev =
      (s.written.filter fun k => (s.calls k).dev = dev).flatMap (fun k => (s.calls k).request.data) ++
        s.server.partialOutput s.calls dev) ∧
    s.written.Nodup ∧
    (∀ k data, (s.calls k).request = .write data → (s.calls k).pc = .done →
      (s.calls k).ret.toNat = data.length ∧ k ∈ s.written) ∧
    (∀ k ∈ s.written, (s.calls k).request.op = .write) ∧
    (∀ k i, (s.calls k).pc = .copyOut i →
      AtStart (s.calls k).stored (s.buf (s.calls k).client) ∧ (s.calls k).data = (s.calls k).stored.take i) ∧
    (∀ k size timeout, (s.calls k).request = .read size timeout → (s.calls k).pc = .done →
      (s.calls k).data = (s.calls k).stored ∧ (s.calls k).ret.toNat = (s.calls k).stored.length ∧
        (s.calls k).stored.length ≤ size.toNat) := by
  obtain ⟨free, live, h⟩ := serial_inv hr
  refine ⟨h.seen, h.reads, fun e he => (h.output.configured e he).2, h.output.output, h.output.nodup,
    fun k data hreq hpc => h.write_done hreq hpc, fun k hk => ((h.output.written k).mp hk).1, ?_,
    fun k size timeout hreq hpc => h.read_done hreq hpc⟩
  intro k i hpc
  have hok := h.ok k
  rw [SerialCall.Ok, hpc] at hok
  exact ⟨hok.2.2.1, hok.2.2.2.2⟩

/-- Two processes write to the same device at the same time: the call that starts later is served first. -/
def twoWrites : List SerialAction :=
  [.createClient fun _ => 0, .createClient fun _ => 0, .start 0 .uart1 (.write [104, 105]), .start 2 .uart1 (.write [33]),
    .call 0, .call 1, .call 0, .call 1, .call 0, .call 1, .call 1, .call 0] ++ List.replicate 4 (.server 0 none 0) ++ [.call 0] ++
  List.replicate 5 (.server 0 none 0) ++ [.call 0, .call 1]

/-- Each call has written its own bytes, in the order of service. -/
theorem serial_calls_isolated_twoWrites : ∃ s : SerialSystem, (serialMachine 2).Reachable s ∧
    (s.calls 0).request = .write [104, 105] ∧ (s.calls 1).request = .write [33] ∧ (s.calls 0).ret.toNat = 2 ∧
    (s.calls 1).ret.toNat = 1 ∧ s.output .uart1 = [33, 104, 105] := by
  have hi : (serialMachine 2).init .fresh := SerialSystem.init_fresh
  obtain ⟨s, hr, hs⟩ := (Machine.Reachable.init hi).exists_of_exec twoWrites
    (fun s => (s.calls 0).request = .write [104, 105] ∧ (s.calls 0).pc = .done ∧ (s.calls 0).dev = .uart1 ∧
      (s.calls 1).request = .write [33] ∧ (s.calls 1).pc = .done ∧ (s.calls 1).dev = .uart1 ∧ s.server.pc = .recv ∧
      s.written = [1, 0]) (by decide +kernel)
  simp only [Bool.decide_and, Bool.and_eq_true, decide_eq_true_eq] at hs
  obtain ⟨hreq₀, hpc₀, hdev₀, hreq₁, hpc₁, hdev₁, hpc, hwritten⟩ := hs
  obtain ⟨-, -, -, houtput, -, hret, -⟩ := serial_calls_isolated 2 s hr
  refine ⟨s, hr, hreq₀, hreq₁, (hret 0 _ hreq₀ hpc₀).1, (hret 1 _ hreq₁ hpc₁).1, ?_⟩
  rw [houtput, hwritten]
  simp [hdev₀, hdev₁, hreq₀, hreq₁, hpc, SerialServer.partialOutput, SerialRequest.data]

end Sel4Osapi
