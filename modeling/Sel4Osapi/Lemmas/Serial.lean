import Sel4Osapi.Serial
import Sel4Osapi.Lib.Semaphore

/-!
# The invariant of the serial server and its clients

The clients have different ids, so the lookup of the server finds the client of the call (`ClientsInv`). For each client one
call at a time is in the section of its `buf_avail`, and only it, or the server while it serves it, touches the buffer; so
the buffer holds what the call has stored in it until the server overwrites it for that same call (`SerialInv`). `OutputInv`
follows the characters put to the devices.
-/

namespace Sel4Osapi

open Transition Memory Semaphore

/-! ## What a buffer holds -/

/-- The buffer holds what the client stores in it for the request. -/
def SerialRequest.Filled (r : SerialRequest) (buf : Nat → UInt8) : Prop := ∃ m, buf = applyAll m r.stores

/-- The buffer of a write holds the data. -/
theorem SerialRequest.Filled.write {data : List UInt8} {buf : Nat → UInt8} (h : (SerialRequest.write data).Filled buf) (j : Nat)
    (hj : j < data.length) : data[j]? = some (buf j) := by
  obtain ⟨m, rfl⟩ := h
  exact applyAll_bytes m data j hj

/-- The buffer of a read holds the timeout. -/
theorem SerialRequest.Filled.read {size timeout : Word} {buf : Nat → UInt8} (h : (SerialRequest.read size timeout).Filled buf) :
    loadWord buf 0 = timeout := by
  obtain ⟨m, rfl⟩ := h
  exact loadWord_storeWord m 0 timeout

/-- The buffer of a configuration holds its fields. -/
theorem SerialRequest.Filled.configure {config : SerialConfig} {buf : Nat → UInt8}
    (h : (SerialRequest.configure config).Filled buf) : SerialSettings.load buf = config.settings := by
  obtain ⟨m, rfl⟩ := h
  simp only [SerialSettings.load, SerialConfig.settings, SerialRequest.stores, applyAll, List.foldl_cons, List.foldl_nil,
    Store.apply, SerialSettings.mk.injEq]
  refine ⟨?_, ?_, ?_, loadWord_storeWord _ _ _⟩
  · rw [loadWord_storeWord_of_disjoint (by omega), loadWord_storeWord_of_disjoint (by omega),
      loadWord_storeWord_of_disjoint (by omega), loadWord_storeWord]
  · rw [loadWord_storeWord_of_disjoint (by omega), loadWord_storeWord_of_disjoint (by omega), loadWord_storeWord]
  · rw [loadWord_storeWord_of_disjoint (by omega), loadWord_storeWord]

/-- The bytes of a request to write, none of the others. -/
def SerialRequest.data : SerialRequest → List UInt8
  | .write data => data
  | _ => []

/-- The size of a request is within the buffer. -/
def SerialRequest.Fits (r : SerialRequest) : Prop := r.size ≤ serialBufSize ∧ r.data.length ≤ 4096

/-- The assertion of the client passed. -/
theorem SerialRequest.fits_of_assertSize {client : SerialClient} {r : SerialRequest} {u : Unit}
    (hc : client.bufSize = serialBufSize) (h : SerialSystem.assertSize client r = .ok u) : r.Fits := by
  cases r with
  | write data =>
    have hlen : data.length ≤ 4096 := by
      have := of_check_ok h
      rw [hc] at this
      exact this
    refine ⟨?_, hlen⟩
    rw [SerialRequest.size, UInt32.le_iff_toNat_le, UInt32.toNat_ofNat', Nat.mod_eq_of_lt (by omega)]
    exact hlen
  | read size timeout =>
    have := of_check_ok h
    rw [hc] at this
    exact ⟨this, Nat.zero_le _⟩
  | configure config => exact ⟨by simp [SerialRequest.size, serialBufSize], Nat.zero_le _⟩

/-- The size of a write that fits is the length of its data. -/
theorem SerialRequest.Fits.toNat_size {data : List UInt8} (h : (SerialRequest.write data).Fits) :
    (SerialRequest.write data).size.toNat = data.length := by
  have hlen : data.length ≤ 4096 := h.2
  rw [SerialRequest.size, UInt32.toNat_ofNat', Nat.mod_eq_of_lt (by omega)]

/-! ## The clients -/

/-- The clients in the pool have different ids, the last the highest. -/
structure ClientsInv (clients : Pool (Ptr → SerialClient)) (processes : List Ptr) (free live : List Ptr) : Prop where
  rep : clients.Rep free live
  initFn : clients.initFn = none
  created : processes = live.map fun n => (clients.nodes n).el
  id_inj : ∀ p ∈ processes, ∀ q ∈ processes, (clients.mem p).id = (clients.mem q).id → p = q
  id_le : ∀ p ∈ processes, (clients.mem p).id ≤ processes.length
  bufSize : ∀ p ∈ processes, (clients.mem p).bufSize = serialBufSize

/-- The lookup finds the client with the id, whatever the variable held before. -/
theorem serialLookup_of_mem {mem : Ptr → SerialClient} {p : Ptr} {els : List Ptr} (hp : p ∈ els)
    (hinj : ∀ q ∈ els, (mem q).id = (mem p).id → q = p) (client : Option Ptr) :
    serialLookup mem (mem p).id els client = some p := by
  induction els generalizing client with
  | nil => simp at hp
  | cons el els ih =>
    unfold serialLookup
    split
    · rename_i he
      rw [hinj el List.mem_cons_self he]
    · rename_i hne
      have hp : p ∈ els := by
        rcases List.mem_cons.mp hp with rfl | hp
        · exact absurd rfl hne
        · exact hp
      exact ih hp (fun q hq => hinj q (List.mem_cons_of_mem _ hq)) none

namespace ClientsInv

variable {clients : Pool (Ptr → SerialClient)} {processes free live : List Ptr}

/-- The server finds the client of a call. -/
theorem lookup (h : ClientsInv clients processes free live) {p : Ptr} (hp : p ∈ processes) (client : Option Ptr) :
    clients.elements = .ok processes ∧ serialLookup clients.mem (clients.mem p).id processes client = some p := by
  refine ⟨?_, serialLookup_of_mem hp (fun q hq he => h.id_inj q hq p hp he) client⟩
  rw [Pool.elements_spec h.rep, h.created]

/-- A new client has an id of its own. -/
theorem create (h : ClientsInv clients processes free live) {client : Ptr} {clients' : Pool (Ptr → SerialClient)}
    (ha : simplePoolAlloc clients = .ok (some client, clients')) :
    client ∉ processes ∧ (∀ p, p ≠ client → clients'.mem p = clients.mem p) ∧
      ∃ free' live', ClientsInv
        { clients' with mem := Function.update clients'.mem client ⟨simplePoolGetCurrentSize clients', serialBufSize⟩ }
        (processes ++ [client]) free' live' := by
  cases free with
  | nil =>
    rw [simplePoolAlloc_empty h.rep] at ha
    cases ha
  | cons x free =>
    obtain ⟨p', hp', hr, hf, hm⟩ := simplePoolAlloc_cons h.rep
    rw [hp'] at ha
    obtain ⟨hclient, rfl⟩ := Prod.mk.inj (Except.ok.inj ha)
    obtain rfl := Option.some.inj hclient
    have hmem : p'.mem = clients.mem := by simpa [Pool.init, h.initFn] using hm
    have hfresh : (clients.nodes x).el ∉ processes := by
      rw [h.created]
      exact h.rep.fresh
    have hsize : simplePoolGetCurrentSize p' = processes.length + 1 := by
      rw [simplePoolGetCurrentSize, hr.currentSize, h.created, List.length_append, List.length_map, List.length_singleton]
      rfl
    -- what is in memory for an old client, and for the new one
    generalize hmem' : Function.update p'.mem (clients.nodes x).el ⟨simplePoolGetCurrentSize p', serialBufSize⟩ = mem'
    have hold : ∀ p ∈ processes, mem' p = clients.mem p := by
      intro p hp
      have hne : p ≠ (clients.nodes x).el := fun e => hfresh (e ▸ hp)
      rw [← hmem', Function.update_of_ne hne, hmem]
    have hnew : mem' (clients.nodes x).el = ⟨processes.length + 1, serialBufSize⟩ := by
      rw [← hmem', Function.update_self, hsize]
    refine ⟨hfresh, fun p _ => by rw [hmem], free, live ++ [x], hr.write _, ?_, ?_, ?_, ?_,
      ?_⟩
    · exact hf.initFn.trans h.initFn
    · simp only [List.map_append, List.map_cons, List.map_nil, hf.el, h.created]
    · intro p hp q hq he
      dsimp only at he
      rcases List.mem_append.mp hp with hp | hp <;> rcases List.mem_append.mp hq with hq | hq
      · rw [hold p hp, hold q hq] at he
        exact h.id_inj p hp q hq he
      · rw [List.mem_singleton.mp hq, hnew, hold p hp] at he
        have := h.id_le p hp
        simp only at he
        omega
      · rw [List.mem_singleton.mp hp, hnew, hold q hq] at he
        have := h.id_le q hq
        simp only at he
        omega
      · rw [List.mem_singleton.mp hp, List.mem_singleton.mp hq]
    · intro p hp
      rw [List.length_append, List.length_singleton]
      rcases List.mem_append.mp hp with hp | hp
      · have := h.id_le p hp
        simp only [hold p hp]
        omega
      · simp [List.mem_singleton.mp hp, hnew]
    · intro p hp
      rcases List.mem_append.mp hp with hp | hp
      · simp only [hold p hp]
        exact h.bufSize p hp
      · simp only [List.mem_singleton.mp hp, hnew]

end ClientsInv

/-! ## The calls and the server -/

/-- The call holds `buf_avail`. -/
def SerialCallPc.inSection : SerialCallPc → Bool
  | .store _ | .call | .await | .copyOut _ | .give => true
  | _ => false

/-- The bytes are at the start of the buffer. -/
def AtStart (bytes : List UInt8) (buf : Nat → UInt8) : Prop := ∀ j < bytes.length, bytes[j]? = some (buf j)

/-- What a call has been replied with. -/
def SerialCall.Replied (c : SerialCall) : Prop :=
  match c.request with
  | .write _ => c.ret = c.request.size
  | .read size _ => c.ret.toNat = c.stored.length ∧ c.stored.length ≤ size.toNat
  | .configure _ => True

/-- What a call has in the buffer and in its variables. -/
def SerialCall.Ok (c : SerialCall) (buf : Nat → UInt8) : Prop :=
  match c.pc with
  | .idle => True
  | .take | .await => c.data = []
  | .store i => c.data = [] ∧ ∃ m, buf = applyAll m (c.request.stores.take i)
  | .call => c.data = [] ∧ c.request.Filled buf
  | .copyOut i => c.request.op = .read ∧ c.Replied ∧ AtStart c.stored buf ∧ i ≤ c.stored.length ∧ c.data = c.stored.take i
  | .give | .done => c.Replied ∧ (c.request.op = .read → c.data = c.stored)

/-- Outside its section a call has nothing in the buffer. -/
theorem SerialCall.Ok.of_not_inSection {c : SerialCall} {buf : Nat → UInt8} (h : c.Ok buf) (hc : c.pc.inSection = false)
    (buf' : Nat → UInt8) : c.Ok buf' := by
  unfold SerialCall.Ok at h ⊢
  cases hpc : c.pc with
  | store | call | await | copyOut | give => simp [hpc, SerialCallPc.inSection] at hc
  | idle | take | done =>
    rw [hpc] at h
    exact h

/-- The variables of the server point to the client and the device of the call. -/
def SerialServer.Executes (v : SerialServer) (c : SerialCall) : Prop := v.client = some c.client ∧ v.device = some c.dev

/-- The server executes a read: it has the timeout of the call, and has stored the bytes `stored` for it. -/
def SerialServer.Reads (v : SerialServer) (c : SerialCall) (buf : Nat → UInt8) : Prop :=
  v.Executes c ∧ c.request = .read v.opSize v.timeout ∧ v.i = v.stored.length ∧ v.i ≤ v.opSize.toNat ∧ AtStart v.stored buf

/-- The server is about to reply. -/
def SerialServer.Replies (v : SerialServer) (c : SerialCall) (buf : Nat → UInt8) : Prop :=
  v.Executes c ∧ match c.request with
  | .write _ => v.mr0 = c.request.size
  | .read size _ => v.mr0.toNat = v.stored.length ∧ v.stored.length ≤ size.toNat ∧ AtStart v.stored buf
  | .configure _ => True

/-- What the variables of the server hold while it serves the call `c`, whose client has the id `id`. -/
def SerialServer.Local (v : SerialServer) (c : SerialCall) (id : Int) (buf : Nat → UInt8) : Prop :=
  match v.pc with
  | .recv => True
  | .lookup =>
    v.clientId = id ∧ v.opcode = c.request.op.toWord ∧ v.devid = c.dev.toWord ∧ v.mr3 = c.request.size ∧ c.request.Filled buf
  | .write =>
    v.Executes c ∧ c.request.op = .write ∧ v.opSize = c.request.size ∧ v.i ≤ v.opSize.toNat ∧ c.request.Filled buf
  | .readTimeout =>
    v.Executes c ∧ c.request.op = .read ∧ v.opSize = c.request.size ∧ v.i = 0 ∧ v.stored = [] ∧ c.request.Filled buf
  | .readStart | .readFor => v.Reads c buf
  | .readWhile | .readGetchar | .readCheck => v.Reads c buf ∧ v.i < v.opSize.toNat
  | .config => v.Executes c ∧ c.request.op = .config ∧ c.request.Filled buf
  | .reply => v.Replies c buf

/-- What has been put to a device for the write call that is being executed. -/
def SerialServer.partialOutput (v : SerialServer) (calls : Nat → SerialCall) (dev : SerialDevice) : List UInt8 :=
  if v.pc = .write ∧ (calls v.caller).dev = dev then (calls v.caller).request.data.take v.i else []

/-- The output of each device is what the write calls that have been executed wrote, and what the one that is being executed has
written so far. -/
structure OutputInv (calls : Nat → SerialCall) (v : SerialServer) (output : SerialDevice → List UInt8) (written : List Nat)
    (configured : List (Nat × SerialDevice × SerialSettings)) : Prop where
  output : ∀ dev, output dev =
    (written.filter fun k => (calls k).dev = dev).flatMap (fun k => (calls k).request.data) ++ v.partialOutput calls dev
  nodup : written.Nodup
  written : ∀ k, k ∈ written ↔
    (calls k).request.op = .write ∧ ((calls k).pc = .give ∨ (calls k).pc = .done ∨ (v.pc = .reply ∧ v.caller = k))
  configured : ∀ e ∈ configured, (calls e.1).pc ≠ .idle ∧
    ∃ config, (calls e.1).request = .configure config ∧ e.2 = ((calls e.1).dev, config.settings)

namespace OutputInv

variable {calls calls' : Nat → SerialCall} {v v' : SerialServer} {output : SerialDevice → List UInt8} {written : List Nat}
  {configured : List (Nat × SerialDevice × SerialSettings)}

/-- The calls go on, none of them over a reply. -/
theorem callsMove (h : OutputInv calls v output written configured)
    (hcaller : v.pc ≠ .recv → (calls v.caller).pc ≠ .idle)
    (hsame : ∀ k, (calls k).pc ≠ .idle →
      (calls' k).pc ≠ .idle ∧ (calls' k).dev = (calls k).dev ∧ (calls' k).request = (calls k).request)
    (hback : ∀ k, (calls' k).request.op = .write →
      ((calls' k).pc = .give ∨ (calls' k).pc = .done ↔ (calls k).pc = .give ∨ (calls k).pc = .done)) :
    OutputInv calls' v output written configured := by
  have hidle : ∀ k, k ∈ written → (calls k).pc ≠ .idle := by
    intro k hk
    obtain ⟨-, hpc | hpc | ⟨hpc, rfl⟩⟩ := (h.written k).mp hk
    · simp [hpc]
    · simp [hpc]
    · exact hcaller (by simp [hpc])
  refine ⟨?_, h.nodup, ?_, ?_⟩
  · intro dev
    rw [h.output dev]
    have hfilter : (written.filter fun k => (calls' k).dev = dev) = written.filter fun k => (calls k).dev = dev :=
      List.filter_congr fun k hk => by rw [(hsame k (hidle k hk)).2.1]
    have hmap : ∀ k ∈ written.filter fun k => (calls k).dev = dev, (calls' k).request.data = (calls k).request.data :=
      fun k hk => by rw [(hsame k (hidle k (List.mem_of_mem_filter hk))).2.2]
    have hpart : v.partialOutput calls' dev = v.partialOutput calls dev := by
      unfold SerialServer.partialOutput
      by_cases hw : v.pc = .write
      · obtain ⟨-, hd, hreq⟩ := hsame v.caller (hcaller (by simp [hw]))
        rw [hd, hreq]
      · simp [hw]
    rw [hfilter, hpart, List.flatMap_congr hmap]
  · intro k
    by_cases hk : (calls k).pc = .idle
    · -- a call that was not made has written nothing, and is not served
      have hserved : ¬ (v.pc = .reply ∧ v.caller = k) := by
        rintro ⟨hpc, rfl⟩
        exact hcaller (by simp [hpc]) hk
      refine ⟨fun hmem => absurd hk (hidle k hmem), fun ⟨hop, hpc⟩ => ?_⟩
      rcases hpc with hpc | hpc | hpc
      · simpa [hk] using (hback k hop).mp (Or.inl hpc)
      · simpa [hk] using (hback k hop).mp (Or.inr hpc)
      · exact absurd hpc hserved
    · rw [h.written k, (hsame k hk).2.2]
      refine and_congr_right ?_
      intro hop
      rw [← or_assoc, ← or_assoc, hback k (by rw [(hsame k hk).2.2]; exact hop)]
  · intro e he
    obtain ⟨hk, config, hreq, he⟩ := h.configured e he
    obtain ⟨hpc', hdev, hreq'⟩ := hsame e.1 hk
    exact ⟨hpc', config, hreq'.trans hreq, by rw [hdev]; exact he⟩

/-- The server goes on without writing or ending a write. -/
theorem serverMoves (h : OutputInv calls v output written configured)
    (hpart : ∀ dev, v'.partialOutput calls dev = v.partialOutput calls dev)
    (hreply : ∀ k, (calls k).request.op = .write → ((v'.pc = .reply ∧ v'.caller = k) ↔ (v.pc = .reply ∧ v.caller = k))) :
    OutputInv calls v' output written configured := by
  refine ⟨fun dev => by rw [hpart]; exact h.output dev, h.nodup, ?_, h.configured⟩
  intro k
  rw [h.written k]
  exact and_congr_right fun hop => by rw [hreply k hop]

/-- The server puts a character of the write call it executes. -/
theorem putChar (h : OutputInv calls v output written configured) (hpc : v.pc = .write) {b : UInt8}
    (hb : (calls v.caller).request.data[v.i]? = some b) :
    OutputInv calls { v with i := v.i + 1, pc := .write }
      (Function.update output (calls v.caller).dev (output (calls v.caller).dev ++ [b])) written configured := by
  refine ⟨?_, h.nodup, fun k => by rw [h.written k, hpc], h.configured⟩
  intro dev
  have hout := h.output dev
  rcases eq_or_ne dev (calls v.caller).dev with rfl | hne
  · simp only [SerialServer.partialOutput, hpc, true_and, if_true] at hout ⊢
    rw [Function.update_self, hout, List.take_add_one, hb, List.append_assoc]
    rfl
  · have hne' : ¬ (calls v.caller).dev = dev := fun e => hne e.symm
    simp only [SerialServer.partialOutput, hne', and_false, if_false] at hout ⊢
    rw [Function.update_of_ne hne, hout]

/-- The write call that was executed has been written whole. -/
theorem writeDone (h : OutputInv calls v output written configured) (hpc : v.pc = .write)
    (hop : (calls v.caller).request.op = .write) (hawait : (calls v.caller).pc = .await)
    (hlen : (calls v.caller).request.data.length ≤ v.i) {mr0 : Word} :
    OutputInv calls { v with mr0 := mr0, pc := .reply } output (written ++ [v.caller]) configured := by
  have hfresh : v.caller ∉ written := by
    intro hk
    obtain ⟨-, hk | hk | ⟨hk, -⟩⟩ := (h.written v.caller).mp hk
    · simp [hawait] at hk
    · simp [hawait] at hk
    · simp [hpc] at hk
  refine ⟨?_, ?_, ?_, h.configured⟩
  · intro dev
    have hout := h.output dev
    have hpart : ({ v with mr0 := mr0, pc := .reply } : SerialServer).partialOutput calls dev = [] := by
      simp [SerialServer.partialOutput]
    rw [hpart, List.append_nil, List.filter_append, List.flatMap_append, hout]
    congr 1
    by_cases hd : (calls v.caller).dev = dev
    · simp [SerialServer.partialOutput, hpc, hd, List.take_of_length_le hlen]
    · simp [SerialServer.partialOutput, hd]
  · exact List.Nodup.append h.nodup (List.nodup_singleton _) (by simpa using hfresh)
  · intro k
    rw [List.mem_append, h.written k, List.mem_singleton]
    constructor
    · rintro (⟨hk, hk' | hk' | ⟨hk', -⟩⟩ | rfl)
      · exact ⟨hk, Or.inl hk'⟩
      · exact ⟨hk, Or.inr (Or.inl hk')⟩
      · simp [hpc] at hk'
      · exact ⟨hop, Or.inr (Or.inr ⟨rfl, rfl⟩)⟩
    · rintro ⟨hk, hk' | hk' | ⟨-, hk'⟩⟩
      · exact Or.inl ⟨hk, Or.inl hk'⟩
      · exact Or.inl ⟨hk, Or.inr (Or.inl hk')⟩
      · exact Or.inr hk'.symm

/-- The server replies: from then on it is the call that knows it has been executed. -/
theorem reply (h : OutputInv calls v output written configured) (hpc : v.pc = .reply) {c' : SerialCall}
    (hdev : c'.dev = (calls v.caller).dev) (hreq : c'.request = (calls v.caller).request)
    (hgive : c'.request.op = .write → c'.pc = .give) (hidle : c'.pc ≠ .idle) :
    OutputInv (Function.update calls v.caller c') { v with pc := .recv } output written configured := by
  have hsame : ∀ k, (Function.update calls v.caller c' k).dev = (calls k).dev ∧
      (Function.update calls v.caller c' k).request = (calls k).request := by
    intro k
    rcases eq_or_ne k v.caller with rfl | hne
    · simp [hdev, hreq]
    · simp [hne]
  refine ⟨?_, h.nodup, ?_, ?_⟩
  · intro dev
    simp only [(hsame _).1, (hsame _).2, h.output dev, SerialServer.partialOutput, hpc]
    rfl
  · intro k
    rw [h.written k, (hsame k).2]
    refine and_congr_right ?_
    intro hop
    rcases eq_or_ne k v.caller with rfl | hne
    · simp [hpc, hgive (by rw [hreq]; exact hop)]
    · simp [hne, hne.symm]
  · intro e he
    obtain ⟨hk, config, hreq', he⟩ := h.configured e he
    refine ⟨?_, config, (hsame e.1).2.trans hreq', by rw [(hsame e.1).1]; exact he⟩
    rcases eq_or_ne e.1 v.caller with hk' | hne
    · rw [hk', Function.update_self]
      exact hidle
    · rw [Function.update_of_ne hne]
      exact hk

/-- The server configures a device. -/
theorem configure (h : OutputInv calls v output written configured) (hpc : v.pc = .config)
    (hawait : (calls v.caller).pc = .await) {config : SerialConfig} (hreq : (calls v.caller).request = .configure config)
    {error : Word} : OutputInv calls { v with mr0 := error, pc := .reply } output written
      (configured ++ [(v.caller, (calls v.caller).dev, config.settings)]) := by
  have hmoved : OutputInv calls { v with mr0 := error, pc := .reply } output written configured := by
    refine h.serverMoves (fun dev => by simp [SerialServer.partialOutput, hpc]) ?_
    intro k hop
    refine ⟨fun ⟨_, hk⟩ => ?_, fun ⟨hk, _⟩ => by simp [hpc] at hk⟩
    obtain rfl : v.caller = k := hk
    rw [hreq] at hop
    cases hop
  refine ⟨hmoved.output, hmoved.nodup, hmoved.written, ?_⟩
  intro e he
  rcases List.mem_append.mp he with he | he
  · exact h.configured e he
  · rw [List.mem_singleton.mp he]
    exact ⟨by simp [hawait], config, hreq, rfl⟩

end OutputInv

/-- What the server does with a request that passes its assertions. -/
theorem SerialSystem.lookupStep_cases {s s' : SerialSystem} (hs : s.lookupStep = .ok s') :
    ∃ els client device, s.clients.elements = .ok els ∧
      serialLookup s.clients.mem s.server.clientId els s.server.client = some client ∧
      s.server.opSize ≤ (s.clients.mem client).bufSize ∧ SerialDevice.ofWord s.server.devid = some device ∧
      ∃ v, v = { s.server with client := some client, device := some device } ∧
        (SerialOp.ofWord v.opcode = some .write ∧
            s' = { s with server := { v with opSize := v.mr3, i := 0, stored := [], pc := .write } } ∨
          SerialOp.ofWord v.opcode = some .read ∧
            s' = { s with server := { v with opSize := v.mr3, i := 0, ret := none, stored := [], pc := .readTimeout } } ∨
          SerialOp.ofWord v.opcode = some .config ∧ s' = { s with server := { v with stored := [], pc := .config } } ∨
          SerialOp.ofWord v.opcode = none ∧ s' = { s with server := { v with pc := .recv } }) := by
  obtain ⟨els, hels, hs⟩ := bind_ok hs
  cases hclient : serialLookup s.clients.mem s.server.clientId els s.server.client with
  | none =>
    rw [hclient] at hs
    cases hs
  | some client =>
    simp only [hclient] at hs
    obtain ⟨_, hsize, hs⟩ := bind_ok hs
    cases hdevice : SerialDevice.ofWord s.server.devid with
    | none =>
      rw [hdevice] at hs
      cases hs
    | some device =>
      simp only [hdevice] at hs
      refine ⟨els, client, device, hels, hclient, of_check_ok hsize, rfl, _, rfl, ?_⟩
      dsimp only
      generalize SerialOp.ofWord s.server.opcode = op at hs ⊢
      cases op with
      | none =>
        cases hs
        exact Or.inr (Or.inr (Or.inr ⟨rfl, rfl⟩))
      | some op =>
        cases op with
        | write =>
          cases hs
          exact Or.inl ⟨rfl, rfl⟩
        | read =>
          cases hs
          exact Or.inr (Or.inl ⟨rfl, rfl⟩)
        | config =>
          cases hs
          exact Or.inr (Or.inr (Or.inl ⟨rfl, rfl⟩))

/-! ## The invariant -/

/-- The server, its clients and their calls are consistent. -/
structure SerialInv (s : SerialSystem) (free live : List Ptr) : Prop where
  clients : ClientsInv s.clients s.processes free live
  made : ∀ k, (s.calls k).pc ≠ .idle →
    k < s.started ∧ (s.calls k).client ∈ s.processes ∧ (s.calls k).request.Fits
  excl : ∀ p ∈ s.processes, Exclusive (s.bufAvail p) fun k => (s.calls k).client = p ∧ (s.calls k).pc.inSection = true
  ok : ∀ k, (s.calls k).Ok (s.buf (s.calls k).client)
  serves : s.server.pc ≠ .recv → (s.calls s.server.caller).pc = .await
  locals : s.server.Local (s.calls s.server.caller) (s.clients.mem (s.calls s.server.caller).client).id
    (s.buf (s.calls s.server.caller).client)
  opSize : s.server.opSize ≤ serialBufSize
  output : OutputInv s.calls s.server s.output s.written s.configured

namespace SerialInv

variable {s s' : SerialSystem} {free live : List Ptr} {k : Nat}

/-- The server just initialised. -/
theorem of_init {processMax : Int} (h : s.Init processMax) : ∃ free, SerialInv s free [] := by
  obtain ⟨malloc, nodes, mem, elSize, hm, hnew⟩ := h.clients
  obtain ⟨hr, hi, -⟩ := simplePoolNew_ok hm hnew
  refine ⟨_, ⟨hr, hi, h.processes, ?_, ?_, ?_⟩, fun k hk => absurd (h.calls k) hk, ?_, ?_, fun hpc => absurd h.pc hpc,
    ?_, ?_, ?_, ?_, ?_, ?_⟩
  · simp [h.processes]
  · simp [h.processes]
  · simp [h.processes]
  · simp [h.processes]
  · intro k
    simp [SerialCall.Ok, h.calls k]
  · simp [SerialServer.Local, h.pc]
  · simp [h.opSize, serialBufSize]
  · intro dev
    simp [h.output, h.written, SerialServer.partialOutput, h.pc]
  · simp [h.written]
  · intro k
    simp [h.written, h.calls k, h.pc]
  · simp [h.configured]

/-- The other calls of its process are not in the section of a call that is. -/
theorem not_inSection (h : SerialInv s free live) (hk : (s.calls k).pc.inSection = true) {j : Nat} (hne : j ≠ k)
    (hj : (s.calls j).client = (s.calls k).client) : (s.calls j).pc.inSection = false := by
  have hmem := (h.made k (fun e => by simp [e, SerialCallPc.inSection] at hk)).2.1
  by_contra hs
  exact hne ((h.excl _ hmem).eq ⟨hj, by simpa using hs⟩ ⟨rfl, hk⟩)

/-- A call goes on that the server does not serve. -/
theorem callMoves (h : SerialInv s free live) (c' : SerialCall) (avail : Nat) (buf : Nat → UInt8)
    (hidle : (s.calls k).pc ≠ .idle) (hawait : (s.calls k).pc ≠ .await) (hidle' : c'.pc ≠ .idle)
    (hclient : c'.client = (s.calls k).client) (hdev : c'.dev = (s.calls k).dev)
    (hreq : c'.request = (s.calls k).request)
    (hexcl : Exclusive avail fun j =>
      (Function.update s.calls k c' j).client = (s.calls k).client ∧ (Function.update s.calls k c' j).pc.inSection = true)
    (hok : c'.Ok buf) (hbuf : buf = s.buf (s.calls k).client ∨ (s.calls k).pc.inSection = true)
    (hback : c'.request.op = .write →
      (c'.pc = .give ∨ c'.pc = .done ↔ (s.calls k).pc = .give ∨ (s.calls k).pc = .done)) :
    SerialInv { s with
      calls := Function.update s.calls k c', buf := Function.update s.buf (s.calls k).client buf
      bufAvail := Function.update s.bufAvail (s.calls k).client avail } free live := by
  have hcaller : s.server.pc ≠ .recv → s.server.caller ≠ k := by
    rintro hpc rfl
    exact hawait (h.serves hpc)
  -- the buffer of the call, and the others
  have hother : ∀ j, j ≠ k → (s.calls j).pc.inSection = true →
      Function.update s.buf (s.calls k).client buf (s.calls j).client = s.buf (s.calls j).client := by
    intro j hne hj
    by_cases hjk : (s.calls j).client = (s.calls k).client
    · rcases hbuf with hbuf | hk
      · rw [hjk, Function.update_self, hbuf]
      · simp [h.not_inSection hk hne hjk] at hj
    · rw [Function.update_of_ne hjk]
  refine ⟨h.clients, ?_, ?_, ?_, ?_, ?_, h.opSize, ?_⟩
  · intro j hj
    rcases eq_or_ne j k with rfl | hne
    · simpa [hclient, hreq] using h.made j hidle
    · simpa [hne] using h.made j (by simpa [hne] using hj)
  · intro p hp
    rcases eq_or_ne p (s.calls k).client with rfl | hne
    · simpa using hexcl
    · dsimp only
      rw [Function.update_of_ne hne]
      refine (h.excl p hp).congr ?_
      intro j
      rcases eq_or_ne j k with rfl | hjk
      · simp [hclient, hne.symm]
      · simp [hjk]
  · intro j
    rcases eq_or_ne j k with rfl | hne
    · simpa [hclient] using hok
    · simp only [Function.update_of_ne hne]
      cases hj : (s.calls j).pc.inSection with
      | true =>
        rw [hother j hne hj]
        exact h.ok j
      | false => exact (h.ok j).of_not_inSection hj _
  · intro hpc
    simp only [Function.update_of_ne (hcaller hpc)]
    exact h.serves hpc
  · by_cases hpc : s.server.pc = .recv
    · simp [SerialServer.Local, hpc]
    · simp only [Function.update_of_ne (hcaller hpc)]
      rw [hother _ (hcaller hpc) (by rw [h.serves hpc]; rfl)]
      exact h.locals
  · refine h.output.callsMove (fun hpc => by simp [h.serves hpc]) ?_ ?_
    · intro j hj
      rcases eq_or_ne j k with rfl | hne
      · simp [hidle', hdev, hreq]
      · simpa [hne] using hj
    · intro j hop
      rcases eq_or_ne j k with rfl | hne
      · simpa using hback (by simpa using hop)
      · simp [hne]

/-- A call goes on within its section, writing to the buffer or not. -/
theorem within (h : SerialInv s free live) (c' : SerialCall) (buf : Nat → UInt8) (hk : (s.calls k).pc.inSection = true)
    (hawait : (s.calls k).pc ≠ .await) (hk' : c'.pc.inSection = true) (hclient : c'.client = (s.calls k).client)
    (hdev : c'.dev = (s.calls k).dev) (hreq : c'.request = (s.calls k).request) (hok : c'.Ok buf)
    (hback : c'.request.op = .write →
      (c'.pc = .give ∨ c'.pc = .done ↔ (s.calls k).pc = .give ∨ (s.calls k).pc = .done)) :
    SerialInv { s with
      calls := Function.update s.calls k c', buf := Function.update s.buf (s.calls k).client buf } free live := by
  have hidle : (s.calls k).pc ≠ .idle := fun e => by simp [e, SerialCallPc.inSection] at hk
  have hidle' : c'.pc ≠ .idle := fun e => by simp [e, SerialCallPc.inSection] at hk'
  have hmoved := h.callMoves c' (s.bufAvail (s.calls k).client) buf hidle hawait hidle' hclient hdev hreq
    ((h.excl _ (h.made k hidle).2.1).congr fun j => ?_) hok (Or.inr hk) hback
  · rwa [Function.update_eq_self] at hmoved
  · rcases eq_or_ne j k with rfl | hne
    · simp [hclient, hk, hk']
    · simp [hne]

/-- A call goes on within its section, not writing to the buffer. -/
theorem withinSame (h : SerialInv s free live) (c' : SerialCall) (hk : (s.calls k).pc.inSection = true)
    (hawait : (s.calls k).pc ≠ .await) (hk' : c'.pc.inSection = true) (hclient : c'.client = (s.calls k).client)
    (hdev : c'.dev = (s.calls k).dev) (hreq : c'.request = (s.calls k).request) (hok : c'.Ok (s.buf (s.calls k).client))
    (hback : c'.request.op = .write →
      (c'.pc = .give ∨ c'.pc = .done ↔ (s.calls k).pc = .give ∨ (s.calls k).pc = .done)) :
    SerialInv (s.setCall k c') free live := by
  have hmoved := h.within c' _ hk hawait hk' hclient hdev hreq hok hback
  rwa [Function.update_eq_self] at hmoved

/-- A call takes the semaphore. -/
theorem take (h : SerialInv s free live) (hp : (s.calls k).pc = .take) (hv : 0 < s.bufAvail (s.calls k).client) :
    SerialInv { s.setCall k { s.calls k with pc := .store 0 } with
      bufAvail := Function.update s.bufAvail (s.calls k).client (s.bufAvail (s.calls k).client - 1) } free live := by
  have hok := h.ok k
  rw [SerialCall.Ok, hp] at hok
  have hmoved := h.callMoves { s.calls k with pc := .store 0 } (s.bufAvail (s.calls k).client - 1) (s.buf (s.calls k).client)
    (by simp [hp]) (by simp [hp]) (by simp) rfl rfl rfl
    ((h.excl _ (h.made k (by simp [hp])).2.1).take hv (c := k) (by simp [SerialCallPc.inSection]) fun j hne => by simp [hne])
    ⟨hok, _, rfl⟩ (Or.inl rfl) (by simp [hp])
  rwa [Function.update_eq_self] at hmoved

/-- A call gives the semaphore back. -/
theorem give (h : SerialInv s free live) (hp : (s.calls k).pc = .give) :
    SerialInv { s.setCall k { s.calls k with pc := .done } with
      bufAvail := Function.update s.bufAvail (s.calls k).client (s.bufAvail (s.calls k).client + 1) } free live := by
  have hok := h.ok k
  rw [SerialCall.Ok, hp] at hok
  have hmoved := h.callMoves { s.calls k with pc := .done } (s.bufAvail (s.calls k).client + 1) (s.buf (s.calls k).client)
    (by simp [hp]) (by simp [hp]) (by simp) rfl rfl rfl
    ((h.excl _ (h.made k (by simp [hp])).2.1).give (c := k) (by simp [hp, SerialCallPc.inSection])
      (by simp [SerialCallPc.inSection]) fun j hne => by simp [hne])
    hok (Or.inl rfl) (by simp [hp])
  rwa [Function.update_eq_self] at hmoved

/-- A step of a call other than its `seL4_Call`. -/
theorem callStep (h : SerialInv s free live) (hs : s.callStep k = .next s') (hcall : (s.calls k).pc ≠ .call) :
    SerialInv s' free live := by
  have hok := h.ok k
  unfold SerialCall.Ok at hok
  unfold SerialSystem.callStep at hs
  cases hp : (s.calls k).pc with
  | idle | await | done => simp [hp] at hs
  | call => exact absurd hp hcall
  | take =>
    simp only [hp, Outcome.guard_eq_next, Outcome.next.injEq] at hs
    obtain ⟨hv, rfl⟩ := hs
    exact h.take hp hv
  | store i =>
    simp only [hp] at hs hok
    obtain ⟨hdata, m, hm⟩ := hok
    split at hs
    · rename_i store hstore
      cases hs
      refine h.within _ _ (by rw [hp]; rfl) (by simp [hp]) rfl rfl rfl rfl ⟨hdata, m, ?_⟩ (by simp [hp])
      rw [applyAll_take_succ hstore, hm]
    · rename_i hnone
      cases hs
      refine h.withinSame _ (by rw [hp]; rfl) (by simp [hp]) rfl rfl rfl rfl ⟨hdata, m, ?_⟩ (by simp [hp])
      rw [hm, List.take_of_length_le (List.getElem?_eq_none_iff.mp hnone)]
  | copyOut i =>
    simp only [hp] at hs hok
    obtain ⟨hop, hrep, hat, hi, hdata⟩ := hok
    have hret : (s.calls k).ret.toNat = (s.calls k).stored.length := by
      revert hop hrep
      unfold SerialCall.Replied SerialRequest.op
      cases (s.calls k).request <;> simp +contextual
    split at hs
    · rename_i hlt
      cases hs
      refine h.withinSame _ (by rw [hp]; rfl) (by simp [hp]) rfl rfl rfl rfl ⟨hop, hrep, hat, ?_, ?_⟩ (by simp [hp])
      · dsimp only
        omega
      · rw [hdata, List.take_add_one, hat i (by omega)]
        rfl
    · rename_i hge
      cases hs
      refine h.withinSame _ (by rw [hp]; rfl) (by simp [hp]) rfl rfl rfl rfl ⟨hrep, ?_⟩ (by simp [hop])
      intro _
      dsimp only
      rw [hdata, List.take_of_length_le (by omega)]
  | give =>
    simp only [hp, Outcome.next.injEq] at hs
    subst hs
    exact h.give hp

/-- The server receives a call. -/
theorem call (h : SerialInv s free live) (hp : (s.calls k).pc = .call) (hpc : s.server.pc = .recv) :
    SerialInv { s.setCall k { s.calls k with pc := .await } with
      server := { s.server with
        pc := .lookup, caller := k, clientId := (s.clients.mem (s.calls k).client).id
        opcode := (s.calls k).request.op.toWord, devid := (s.calls k).dev.toWord, mr3 := (s.calls k).request.size } }
      free live := by
  have hok := h.ok k
  rw [SerialCall.Ok, hp] at hok
  have hmoved := h.withinSame { s.calls k with pc := .await } (by rw [hp]; rfl) (by simp [hp]) rfl rfl rfl rfl hok.1
    (by simp [hp])
  refine ⟨hmoved.clients, hmoved.made, hmoved.excl, hmoved.ok, ?_, ?_, hmoved.opSize, ?_⟩
  · intro _
    simp [SerialSystem.setCall]
  · simpa [SerialServer.Local, SerialSystem.setCall] using hok.2
  · exact hmoved.output.serverMoves (fun dev => by simp [SerialServer.partialOutput, SerialSystem.setCall, hpc])
      fun j _ => by simp [SerialSystem.setCall, hpc]

/-- The server goes on with the request it executes, and may write to the buffer of its client. -/
theorem serverWrites (h : SerialInv s free live) (hpc : s.server.pc ≠ .recv) (v' : SerialServer) (buf : Nat → UInt8)
    (hcaller : v'.caller = s.server.caller)
    (hlocal : v'.Local (s.calls s.server.caller) (s.clients.mem (s.calls s.server.caller).client).id buf)
    (hsize : v'.opSize ≤ serialBufSize)
    {output : SerialDevice → List UInt8} {written : List Nat} {configured : List (Nat × SerialDevice × SerialSettings)}
    (hout : OutputInv s.calls v' output written configured) :
    SerialInv { s with
      server := v', buf := Function.update s.buf (s.calls s.server.caller).client buf, output := output, written := written
      configured := configured } free live := by
  have hawait := h.serves hpc
  refine ⟨h.clients, h.made, h.excl, ?_, ?_, ?_, hsize, hout⟩
  · intro j
    by_cases hj : (s.calls j).client = (s.calls s.server.caller).client
    · -- the call that is served has no claim on the buffer, and the others of its process are not in their section
      rcases eq_or_ne j s.server.caller with rfl | hne
      · have hok := h.ok s.server.caller
        rw [SerialCall.Ok, hawait] at hok
        simp only [SerialCall.Ok, hawait]
        exact hok
      · exact (h.ok j).of_not_inSection (h.not_inSection (by rw [hawait]; rfl) hne hj) _
    · simp only [Function.update_of_ne hj]
      exact h.ok j
  · intro _
    simp only [hcaller]
    exact hawait
  · simpa only [hcaller, Function.update_self] using hlocal

/-- The server goes on with the request it executes. -/
theorem serverMoves (h : SerialInv s free live) (hpc : s.server.pc ≠ .recv) (v' : SerialServer)
    (hcaller : v'.caller = s.server.caller)
    (hlocal : v'.Local (s.calls s.server.caller) (s.clients.mem (s.calls s.server.caller).client).id
      (s.buf (s.calls s.server.caller).client)) (hsize : v'.opSize ≤ serialBufSize)
    {output : SerialDevice → List UInt8} {written : List Nat} {configured : List (Nat × SerialDevice × SerialSettings)}
    (hout : OutputInv s.calls v' output written configured) :
    SerialInv { s with server := v', output := output, written := written, configured := configured } free live := by
  have hmoved := h.serverWrites hpc v' _ hcaller hlocal hsize hout
  rwa [Function.update_eq_self] at hmoved

/-- The server finds the client and the device of the call, and its own size test passes. -/
theorem lookupStep (h : SerialInv s free live) (hpc : s.server.pc = .lookup) (hs : s.lookupStep = .ok s') :
    SerialInv s' free live := by
  have hawait := h.serves (by simp [hpc])
  obtain ⟨-, hmem, hfits⟩ := h.made s.server.caller (by simp [hawait])
  have hl := h.locals
  rw [SerialServer.Local, hpc] at hl
  obtain ⟨hid, hop, hdev, hmr3, hfilled⟩ := hl
  obtain ⟨hels, hfind⟩ := h.clients.lookup hmem s.server.client
  have hbuf := h.clients.bufSize _ hmem
  have htest : s.server.opSize ≤ (s.clients.mem (s.calls s.server.caller).client).bufSize := by
    rw [hbuf]
    exact h.opSize
  simp only [SerialSystem.lookupStep, hels, ok_bind, hid, hfind, check_of_true htest, hdev, SerialDevice.ofWord_toWord, hop,
    SerialOp.ofWord_toWord] at hs
  -- no write is under way before and none is ended
  have hquiet : ∀ v' : SerialServer, v'.caller = s.server.caller → (v'.pc = .write → v'.i = 0) → v'.pc ≠ .reply →
      OutputInv s.calls v' s.output s.written s.configured := by
    intro v' hcaller hi hr
    refine h.output.serverMoves ?_ fun j _ => by simp [hr, hpc]
    intro dev
    simp only [SerialServer.partialOutput, hpc]
    split
    · rename_i hw
      simp [hi hw.1]
    · rfl
  cases hreq : (s.calls s.server.caller).request with
  | write data =>
    rw [hreq] at hs
    cases hs
    refine h.serverMoves (by simp [hpc]) _ ?_ ?_ ?_ (hquiet _ ?_ ?_ ?_)
    · rfl
    · exact ⟨⟨rfl, rfl⟩, by rw [hreq]; rfl, hmr3, Nat.zero_le _, hfilled⟩
    · rw [hmr3]
      exact hfits.1
    · rfl
    · simp
    · simp
  | read size timeout =>
    rw [hreq] at hs
    cases hs
    refine h.serverMoves (by simp [hpc]) _ ?_ ?_ ?_ (hquiet _ ?_ ?_ ?_)
    · rfl
    · exact ⟨⟨rfl, rfl⟩, by rw [hreq]; rfl, hmr3, rfl, rfl, hfilled⟩
    · rw [hmr3]
      exact hfits.1
    · rfl
    · simp
    · simp
  | configure config =>
    rw [hreq] at hs
    cases hs
    refine h.serverMoves (by simp [hpc]) _ ?_ ?_ ?_ (hquiet _ ?_ ?_ ?_)
    · rfl
    · exact ⟨⟨rfl, rfl⟩, by rw [hreq]; rfl, hfilled⟩
    · exact h.opSize
    · rfl
    · simp
    · simp

/-- The server replies to its caller. -/
theorem reply (h : SerialInv s free live) (hpc : s.server.pc = .reply) : SerialInv s.replyStep free live := by
  have hawait := h.serves (by simp [hpc])
  have hl := h.locals
  rw [SerialServer.Local, hpc] at hl
  obtain ⟨-, hl⟩ := hl
  have hok := h.ok s.server.caller
  rw [SerialCall.Ok, hawait] at hok
  generalize hc' : ({ s.calls s.server.caller with
    pc := if (s.calls s.server.caller).request.op = .read ∧ s.server.mr0 > 0 then .copyOut 0 else .give
    ret := s.server.mr0, stored := s.server.stored } : SerialCall) = c'
  have hsame : c'.client = (s.calls s.server.caller).client ∧ c'.dev = (s.calls s.server.caller).dev ∧
      c'.request = (s.calls s.server.caller).request := by simp [← hc']
  have hpc' : c'.pc.inSection = true := by
    rw [← hc']
    dsimp only
    split <;> rfl
  have hok' : c'.Ok (s.buf (s.calls s.server.caller).client) := by
    have hrep : c'.Replied ∧ (c'.request.op = .read → AtStart c'.stored (s.buf (s.calls s.server.caller).client)) := by
      rw [← hc']
      unfold SerialCall.Replied SerialRequest.op
      revert hl
      cases (s.calls s.server.caller).request with
      | write data => exact fun hl => ⟨hl, by simp⟩
      | read size timeout => exact fun hl => ⟨⟨hl.1, hl.2.1⟩, fun _ => hl.2.2⟩
      | configure config => exact fun _ => ⟨trivial, by simp⟩
    by_cases hcopy : (s.calls s.server.caller).request.op = .read ∧ s.server.mr0 > 0
    · have hpc'' : c'.pc = .copyOut 0 := by simp [← hc', hcopy]
      rw [SerialCall.Ok, hpc'']
      have hop : c'.request.op = .read := by rw [hsame.2.2]; exact hcopy.1
      exact ⟨hop, hrep.1, hrep.2 hop, Nat.zero_le _, by simpa [← hc'] using hok⟩
    · have hpc'' : c'.pc = .give := by simp [← hc', hcopy]
      rw [SerialCall.Ok, hpc'']
      refine ⟨hrep.1, ?_⟩
      intro hop
      -- a read that is not to copy anything got nothing
      have hop : (s.calls s.server.caller).request.op = .read := by rw [← hsame.2.2]; exact hop
      have hzero : s.server.mr0.toNat = 0 := by
        have hgt : ¬ s.server.mr0 > 0 := fun hgt => hcopy ⟨hop, hgt⟩
        have hzero : s.server.mr0 = 0 := by simpa using hgt
        rw [hzero]
        rfl
      have hlen : s.server.stored.length = 0 := by
        revert hl hop
        unfold SerialRequest.op
        cases (s.calls s.server.caller).request with
        | write | configure => simp
        | read size timeout => exact fun hl _ => by omega
      rw [← hc']
      simp only [hok, List.length_eq_zero_iff.mp hlen]
  have hstep : s.replyStep = { s with
      calls := Function.update s.calls s.server.caller c', server := { s.server with pc := .recv } } := by
    rw [← hc']
    rfl
  rw [hstep]
  refine ⟨h.clients, ?_, ?_, ?_, fun hne => absurd rfl hne, trivial, h.opSize, ?_⟩
  · intro j hj
    rcases eq_or_ne j s.server.caller with rfl | hne
    · simpa [hsame] using h.made s.server.caller (by simp [hawait])
    · simpa [hne] using h.made j (by simpa [hne] using hj)
  · intro p hp
    refine (h.excl p hp).congr ?_
    intro j
    rcases eq_or_ne j s.server.caller with rfl | hne
    · have hin : (s.calls s.server.caller).pc.inSection = true := by rw [hawait]; rfl
      simp [hsame, hin, hpc']
    · simp [hne]
  · intro j
    rcases eq_or_ne j s.server.caller with rfl | hne
    · simpa [hsame] using hok'
    · simpa [hne] using h.ok j
  · refine h.output.reply hpc hsame.2.1 hsame.2.2 ?_ fun e => by simp [e, SerialCallPc.inSection] at hpc'
    intro hop
    rw [hsame.2.2] at hop
    simp [← hc', hop]

/-- A step of the server in `SERIAL_OP_WRITE`. -/
theorem executeWrite (h : SerialInv s free live) (hp : s.server.pc = .write) (time : Word) (char : Option UInt8) (error : Word) :
    SerialInv (s.executeStep (s.calls s.server.caller).client (s.calls s.server.caller).dev time char error) free live := by
  have hrecv : s.server.pc ≠ .recv := by simp [hp]
  have hawait := h.serves hrecv
  obtain ⟨-, -, hfits⟩ := h.made s.server.caller (by simp [hawait])
  have hl := h.locals
  simp only [SerialServer.Local, hp] at hl
  obtain ⟨hexec, hop, hsize, hi, hfilled⟩ := hl
  simp only [SerialSystem.executeStep, hp]
  cases hreq : (s.calls s.server.caller).request with
  | read | configure =>
    rw [hreq] at hop
    cases hop
  | write data =>
    rw [hreq] at hfilled hfits hsize
    have hlen : s.server.opSize.toNat = data.length := by rw [hsize, hfits.toNat_size]
    split
    · rename_i hlt
      refine h.serverMoves hrecv _ (by rfl) ?_ (by exact h.opSize) (h.output.putChar hp ?_)
      · rw [SerialServer.Local]
        simp only [hreq]
        exact ⟨hexec, rfl, hsize, hlt, hfilled⟩
      · rw [hreq]
        exact hfilled.write _ (by omega)
    · rename_i hge
      refine h.serverMoves hrecv _ (by rfl) ?_ (by exact h.opSize) (h.output.writeDone hp (by rw [hreq]; rfl) hawait ?_)
      · refine ⟨hexec, ?_⟩
        rw [hreq]
        exact hsize
      · simp only [hreq, SerialRequest.data]
        omega

/-- The server goes on in `SERIAL_OP_READ`: it writes to no device. -/
theorem readMoves (h : SerialInv s free live) (hrecv : s.server.pc ≠ .recv) (hw : s.server.pc ≠ .write)
    (hr : s.server.pc ≠ .reply) (hop : (s.calls s.server.caller).request.op = .read) (v' : SerialServer) (buf : Nat → UInt8)
    (hcaller : v'.caller = s.server.caller) (hsize : v'.opSize = s.server.opSize) (hw' : v'.pc ≠ .write)
    (hlocal : v'.Local (s.calls s.server.caller) (s.clients.mem (s.calls s.server.caller).client).id buf) :
    SerialInv { s with server := v', buf := Function.update s.buf (s.calls s.server.caller).client buf } free live := by
  refine h.serverWrites hrecv v' buf hcaller hlocal (by rw [hsize]; exact h.opSize) ?_
  refine h.output.serverMoves (fun dev => by simp [SerialServer.partialOutput, hw, hw']) ?_
  intro j hj
  refine ⟨fun ⟨_, hk⟩ => ?_, fun ⟨hp, _⟩ => absurd hp hr⟩
  rw [← hk, hcaller, hop] at hj
  cases hj

/-- The same, when the buffer is left as it is. -/
theorem readMovesSame (h : SerialInv s free live) (hrecv : s.server.pc ≠ .recv) (hw : s.server.pc ≠ .write)
    (hr : s.server.pc ≠ .reply) (hop : (s.calls s.server.caller).request.op = .read) (v' : SerialServer)
    (hcaller : v'.caller = s.server.caller) (hsize : v'.opSize = s.server.opSize) (hw' : v'.pc ≠ .write)
    (hlocal : v'.Local (s.calls s.server.caller) (s.clients.mem (s.calls s.server.caller).client).id
      (s.buf (s.calls s.server.caller).client)) : SerialInv { s with server := v' } free live := by
  have hmoved := h.readMoves hrecv hw hr hop v' _ hcaller hsize hw' hlocal
  rwa [Function.update_eq_self] at hmoved

/-- What the server replies to a read: how many bytes it has stored. -/
theorem replies_of_reads {v : SerialServer} {c : SerialCall} {buf : Nat → UInt8} (h : v.Reads c buf) :
    SerialServer.Replies { v with mr0 := UInt32.ofNat v.i, pc := .reply } c buf := by
  obtain ⟨hexec, hreq, hi, hle, hat⟩ := h
  refine ⟨hexec, ?_⟩
  rw [hreq]
  have hlt := v.opSize.toNat_lt
  refine ⟨?_, by rw [← hi]; exact hle, hat⟩
  rw [UInt32.toNat_ofNat', Nat.mod_eq_of_lt (by omega), hi]

/-- A step of the server in `SERIAL_OP_READ`. -/
theorem executeRead (h : SerialInv s free live) (hp : s.server.pc = .readTimeout ∨ s.server.pc = .readStart ∨
      s.server.pc = .readFor ∨ s.server.pc = .readWhile ∨ s.server.pc = .readGetchar ∨ s.server.pc = .readCheck)
    (time : Word) (char : Option UInt8) (error : Word) :
    SerialInv (s.executeStep (s.calls s.server.caller).client (s.calls s.server.caller).dev time char error) free live := by
  have hl := h.locals
  rcases hp with hp | hp | hp | hp | hp | hp <;> simp only [SerialServer.Local, hp] at hl <;>
    simp only [SerialSystem.executeStep, hp]
  · obtain ⟨hexec, hop, hsize, hi, hstored, hfilled⟩ := hl
    refine h.readMovesSame (by simp [hp]) (by simp [hp]) (by simp [hp]) hop _ (by rfl) (by rfl) (by simp) ?_
    cases hreq : (s.calls s.server.caller).request with
    | write | configure =>
      rw [hreq] at hop
      cases hop
    | read size timeout =>
      rw [hreq] at hfilled hsize
      refine ⟨hexec, ?_, by simp [hi, hstored], by simp [hi], by simp [hstored, AtStart]⟩
      dsimp only
      rw [hreq, hfilled.read, hsize]
      rfl
  · have hop : (s.calls s.server.caller).request.op = .read := by rw [hl.2.1]; rfl
    exact h.readMovesSame (by simp [hp]) (by simp [hp]) (by simp [hp]) hop _ (by rfl) (by rfl) (by simp) hl
  · have hop : (s.calls s.server.caller).request.op = .read := by rw [hl.2.1]; rfl
    split
    · rename_i hlt
      exact h.readMovesSame (by simp [hp]) (by simp [hp]) (by simp [hp]) hop _ (by rfl) (by rfl) (by simp) ⟨hl, hlt⟩
    · exact h.readMovesSame (by simp [hp]) (by simp [hp]) (by simp [hp]) hop _ (by rfl) (by rfl) (by simp)
        (replies_of_reads hl)
  · have hop : (s.calls s.server.caller).request.op = .read := by rw [hl.1.2.1]; rfl
    split
    · exact h.readMovesSame (by simp [hp]) (by simp [hp]) (by simp [hp]) hop _ (by rfl) (by rfl) (by simp) hl
    · exact h.readMovesSame (by simp [hp]) (by simp [hp]) (by simp [hp]) hop _ (by rfl) (by rfl) (by simp) hl
  · have hop : (s.calls s.server.caller).request.op = .read := by rw [hl.1.2.1]; rfl
    exact h.readMovesSame (by simp [hp]) (by simp [hp]) (by simp [hp]) hop _ (by rfl) (by rfl) (by simp) hl
  · obtain ⟨hreads, hlt⟩ := hl
    have hop : (s.calls s.server.caller).request.op = .read := by rw [hreads.2.1]; rfl
    split
    · exact h.readMovesSame (by simp [hp]) (by simp [hp]) (by simp [hp]) hop _ (by rfl) (by rfl) (by simp)
        (replies_of_reads hreads)
    · rename_i b hb
      refine h.readMoves (by simp [hp]) (by simp [hp]) (by simp [hp]) hop _ _ (by rfl) (by rfl) (by simp) ?_
      obtain ⟨hexec, hreq, hi, hle, hat⟩ := hreads
      refine ⟨hexec, hreq, by simp [hi], hlt, ?_⟩
      intro j hj
      -- the byte goes to the place after those stored
      rcases eq_or_ne j s.server.stored.length with rfl | hne
      · simp [hi]
      · have hj : j < s.server.stored.length := by
          simp only [List.length_append, List.length_singleton] at hj
          omega
        rw [List.getElem?_append_left hj, hi, Function.update_of_ne hne]
        exact hat j hj

/-- A step of the server in `SERIAL_OP_CONFIG`. -/
theorem executeConfig (h : SerialInv s free live) (hp : s.server.pc = .config) (time : Word) (char : Option UInt8)
    (error : Word) :
    SerialInv (s.executeStep (s.calls s.server.caller).client (s.calls s.server.caller).dev time char error) free live := by
  have hrecv : s.server.pc ≠ .recv := by simp [hp]
  have hl := h.locals
  simp only [SerialServer.Local, hp] at hl
  obtain ⟨hexec, hop, hfilled⟩ := hl
  simp only [SerialSystem.executeStep, hp]
  cases hreq : (s.calls s.server.caller).request with
  | write | read =>
    rw [hreq] at hop
    cases hop
  | configure config =>
    rw [hreq] at hfilled
    rw [hfilled.configure]
    refine h.serverMoves hrecv _ (by rfl) ?_ (by exact h.opSize) (h.output.configure hp (h.serves hrecv) hreq)
    refine ⟨hexec, ?_⟩
    rw [hreq]
    trivial

/-- In the execution of a call the server works on the client and the device of the call. -/
theorem serverStep_of_executes {c : SerialCall} (hx : s.server.Executes c) (hrecv : s.server.pc ≠ .recv)
    (hlookup : s.server.pc ≠ .lookup) (time : Word) (char : Option UInt8) (error : Word) :
    s.serverStep time char error = .next (s.executeStep c.client c.dev time char error) := by
  obtain ⟨hclient, hdevice⟩ := hx
  unfold SerialSystem.serverStep
  rw [hclient, hdevice]
  split
  · contradiction
  · contradiction
  · rfl

/-- A step in the execution of a call. -/
theorem eq_executeStep {c : SerialCall} {time : Word} {char : Option UInt8} {error : Word}
    (hs : s.serverStep time char error = .next s') (hx : s.server.Executes c) (hrecv : s.server.pc ≠ .recv)
    (hlookup : s.server.pc ≠ .lookup) : s' = s.executeStep c.client c.dev time char error := by
  rw [serverStep_of_executes hx hrecv hlookup] at hs
  exact (Outcome.next.inj hs).symm

/-- A step of the server. -/
theorem serverStep (h : SerialInv s free live) {time : Word} {char : Option UInt8} {error : Word}
    (hs : s.serverStep time char error = .next s') : SerialInv s' free live := by
  have hl := h.locals
  cases hp : s.server.pc with
  | recv => simp [SerialSystem.serverStep, hp] at hs
  | lookup =>
    simp only [SerialSystem.serverStep, hp, Outcome.ofExcept_eq_next] at hs
    exact h.lookupStep hp hs
  | write =>
    simp only [SerialServer.Local, hp] at hl
    rw [eq_executeStep hs hl.1 (by simp [hp]) (by simp [hp])]
    exact h.executeWrite hp time char error
  | readTimeout | readStart | readFor =>
    simp only [SerialServer.Local, hp] at hl
    rw [eq_executeStep hs hl.1 (by simp [hp]) (by simp [hp])]
    exact h.executeRead (by simp [hp]) time char error
  | readWhile | readGetchar | readCheck =>
    simp only [SerialServer.Local, hp] at hl
    rw [eq_executeStep hs hl.1.1 (by simp [hp]) (by simp [hp])]
    exact h.executeRead (by simp [hp]) time char error
  | config =>
    simp only [SerialServer.Local, hp] at hl
    rw [eq_executeStep hs hl.1 (by simp [hp]) (by simp [hp])]
    exact h.executeConfig hp time char error
  | reply =>
    simp only [SerialServer.Local, hp] at hl
    rw [eq_executeStep hs hl.1 (by simp [hp]) (by simp [hp])]
    simp only [SerialSystem.executeStep, hp]
    exact h.reply hp

/-- A thread makes a call. -/
theorem start (h : SerialInv s free live) {client : Ptr} {dev : SerialDevice} {request : SerialRequest}
    (hclient : client ∈ s.processes) (hfits : request.Fits) :
    SerialInv { s.setCall s.started
      { client := client, dev := dev, request := request, pc := .take, data := [], ret := 0, stored := [] }
      with started := s.started + 1 } free live := by
  have hidle : (s.calls s.started).pc = .idle := by
    by_contra hne
    exact Nat.lt_irrefl _ (h.made _ hne).1
  have hcaller : s.server.pc ≠ .recv → s.server.caller ≠ s.started := by
    rintro hpc e
    have := h.serves hpc
    rw [e, hidle] at this
    cases this
  simp only [SerialSystem.setCall]
  refine ⟨h.clients, ?_, ?_, ?_, ?_, ?_, h.opSize, ?_⟩
  · intro j hj
    rcases eq_or_ne j s.started with rfl | hne
    · simpa using ⟨hclient, hfits⟩
    · simp only [Function.update_of_ne hne] at hj ⊢
      exact ⟨Nat.lt_succ_of_lt (h.made j hj).1, (h.made j hj).2⟩
  · intro p hp
    refine (h.excl p hp).congr ?_
    intro j
    rcases eq_or_ne j s.started with rfl | hne
    · simp [hidle, SerialCallPc.inSection]
    · simp [hne]
  · intro j
    rcases eq_or_ne j s.started with rfl | hne
    · simp [SerialCall.Ok]
    · simpa [hne] using h.ok j
  · intro hpc
    simp only [Function.update_of_ne (hcaller hpc)]
    exact h.serves hpc
  · by_cases hpc : s.server.pc = .recv
    · simp [SerialServer.Local, hpc]
    · simp only [Function.update_of_ne (hcaller hpc)]
      exact h.locals
  · refine h.output.callsMove (fun hpc => by simp [h.serves hpc]) ?_ ?_
    · intro j hj
      have hne : j ≠ s.started := by
        rintro rfl
        exact hj hidle
      simpa [hne] using hj
    · intro j _
      rcases eq_or_ne j s.started with rfl | hne
      · simp [hidle]
      · simp [hne]

/-- A client is created: no call has to do with it yet. -/
theorem createClient (h : SerialInv s free live) {page : Nat → UInt8} (hs : s.createClient page = .ok s') :
    ∃ free' live', SerialInv s' free' live' := by
  obtain ⟨⟨client, clients⟩, ha, hs⟩ := bind_ok hs
  cases client with
  | none => cases hs
  | some client =>
    cases hs
    obtain ⟨hfresh, hmem, free', live', hclients⟩ := h.clients.create ha
    have hne : ∀ k, (s.calls k).pc ≠ .idle → (s.calls k).client ≠ client := by
      rintro k hk e
      exact hfresh (e ▸ (h.made k hk).2.1)
    refine ⟨free', live', hclients, ?_, ?_, ?_, h.serves, ?_, h.opSize, h.output⟩
    · intro k hk
      obtain ⟨hlt, hin, hfits⟩ := h.made k hk
      exact ⟨hlt, List.mem_append_left _ hin, hfits⟩
    · intro p hp
      dsimp only
      rcases eq_or_ne p client with rfl | hpc
      · rw [Function.update_self]
        refine Or.inl ⟨rfl, fun k hk => hne k ?_ hk.1⟩
        intro e
        simp [e, SerialCallPc.inSection] at hk
      · rw [Function.update_of_ne hpc]
        refine h.excl p ?_
        rcases List.mem_append.mp hp with hp | hp
        · exact hp
        · exact absurd (List.mem_singleton.mp hp) hpc
    · intro k
      by_cases hk : (s.calls k).pc = .idle
      · simp [SerialCall.Ok, hk]
      · simpa [hne k hk] using h.ok k
    · by_cases hpc : s.server.pc = .recv
      · simp [SerialServer.Local, hpc]
      · have hcaller := hne s.server.caller (by simp [h.serves hpc])
        simp only [Function.update_of_ne hcaller, hmem _ hcaller]
        exact h.locals

/-- Every action keeps the invariant. -/
theorem step (h : SerialInv s free live) {a : SerialAction} (hs : s.step a = .next s') :
    ∃ free' live', SerialInv s' free' live' := by
  cases a with
  | createClient page => exact h.createClient (Outcome.ofExcept_eq_next.mp hs)
  | start client dev request =>
    simp only [SerialSystem.step, Outcome.guard_eq_next, Outcome.ofExcept_eq_next] at hs
    obtain ⟨hclient, hs⟩ := hs
    obtain ⟨_, hsize, hs⟩ := bind_ok hs
    cases hs
    exact ⟨free, live, h.start hclient (SerialRequest.fits_of_assertSize (h.clients.bufSize _ hclient) hsize)⟩
  | call k =>
    by_cases hp : (s.calls k).pc = .call
    · simp only [SerialSystem.step, SerialSystem.callStep, hp, Outcome.guard_eq_next, Outcome.next.injEq] at hs
      obtain ⟨hpc, rfl⟩ := hs
      exact ⟨free, live, h.call hp hpc⟩
    · exact ⟨free, live, h.callStep hs hp⟩
  | server time char error => exact ⟨free, live, h.serverStep hs⟩

end SerialInv

/-- The invariant holds in every reachable state. -/
theorem serial_inv {processMax : Int} {s : SerialSystem} (hr : (serialMachine processMax).Reachable s) :
    ∃ free live, SerialInv s free live := by
  refine hr.invariant (P := fun s => ∃ free live, SerialInv s free live) ?_ ?_
  · intro s hi
    obtain ⟨free, h⟩ := SerialInv.of_init hi
    exact ⟨free, [], h⟩
  · intro s a s' _ hinv hs
    obtain ⟨free, live, h⟩ := hinv
    exact h.step hs

/-- A server for two processes, just initialised. -/
def SerialSystem.fresh : SerialSystem where
  clients := (simplePoolNew id (fun _ => ⟨0, none, none⟩) (fun _ => ⟨0, 0⟩) 2 20 none none).toOption.get rfl
  processes := []
  buf := fun _ _ => 0
  bufAvail := fun _ => 0
  server := ⟨.recv, 0, 0, 0, 0, 0, 0, none, none, 0, none, 0, 0, 0, []⟩
  calls := fun _ => ⟨0, .uart1, .write [], .idle, [], 0, []⟩
  started := 0
  output := fun _ => []
  written := []
  configured := []

/-- It is a state the system starts in. -/
theorem SerialSystem.init_fresh : SerialSystem.fresh.Init 2 :=
  ⟨⟨id, fun _ => ⟨0, none, none⟩, fun _ => ⟨0, 0⟩, 20, Function.injective_id, rfl⟩, rfl, rfl, rfl, rfl, fun _ => rfl, rfl,
    fun _ => rfl, rfl, rfl⟩

end Sel4Osapi
