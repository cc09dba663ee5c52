import Sel4Osapi.Udp.Stack

/-!
# What a request to the UDP stack does

The lookups, request by request: each returns a match, or what its variable held before when there is none. Nothing that was
created goes away: clients keep their ids, interfaces their addresses, and sockets their ids, clients and interfaces.
-/

namespace Sel4Osapi

open Transition

/-- What a lookup came to: a match, or, there being none, what the variable held before. -/
def Found (P : Ptr → Prop) (els : List Ptr) (var : Option Ptr) (p : Ptr) : Prop :=
  (p ∈ els ∧ P p) ∨ ((∀ x ∈ els, ¬ P x) ∧ var = some p)

/-- A lookup found a match whenever there is one, or its variable was null. -/
theorem Found.of_exists {P : Ptr → Prop} {els : List Ptr} {var : Option Ptr} {p : Ptr} (h : Found P els var p)
    (hok : (∃ x ∈ els, P x) ∨ var = none) : p ∈ els ∧ P p := by
  rcases h with h | ⟨hnone, hvar⟩
  · exact h
  · rcases hok with ⟨x, hx, hPx⟩ | hok
    · exact absurd hPx (hnone x hx)
    · rw [hok] at hvar
      cases hvar

/-- A loop that stops at the first match. -/
theorem found_of_lookupLoop {P : Ptr → Prop} [DecidablePred P] {els : List Ptr} {var : Option Ptr} {p : Ptr}
    (h : lookupLoop (fun el => P el) els var = some p) : Found P els var p := by
  induction els with
  | nil => exact Or.inr ⟨by simp, h⟩
  | cons el els ih =>
    unfold lookupLoop at h
    split at h
    · rename_i hel
      cases h
      exact Or.inl ⟨List.mem_cons_self, of_decide_eq_true hel⟩
    · rename_i hel
      rcases ih h with ⟨hp, hm⟩ | ⟨hnone, hvar⟩
      · exact Or.inl ⟨List.mem_cons_of_mem _ hp, hm⟩
      · refine Or.inr ⟨?_, hvar⟩
        intro x hx
        rcases List.mem_cons.mp hx with rfl | hx
        · exact fun hP => hel (decide_eq_true hP)
        · exact hnone x hx

/-- An interface has a virtual interface with the address, or any at all for address 0. -/
def NetIface.HasAddr (iface : NetIface) (addr : Word) : Prop :=
  ∃ v ∈ iface.vfaces.contents, addr = 0 ∨ (iface.vfaces.mem v).ipAddr = addr

/-- The loop over the interfaces, which goes on after a match. -/
theorem found_of_ifaceLoop {mem : Ptr → NetIface} {addr : Word} {els : List Ptr} {var : Option Ptr} {p : Ptr}
    (hwf : ∀ x ∈ els, (mem x).vfaces.WellFormed) (h : ifaceLoop mem addr els var = .ok (some p)) :
    Found (fun x => (mem x).HasAddr addr) els var p := by
  induction els generalizing var with
  | nil => exact Or.inr ⟨by simp, Except.ok.inj h⟩
  | cons el els ih =>
    have hany : ((mem el).vfaces.contents.any fun v => vfaceMatches addr ((mem el).vfaces.mem v)) = true ↔
        (mem el).HasAddr addr := by
      simp [NetIface.HasAddr, vfaceMatches]
    simp only [ifaceLoop, (hwf el List.mem_cons_self).elements_eq, ok_bind] at h
    rcases ih (fun x hx => hwf x (List.mem_cons_of_mem _ hx)) h with ⟨hp, hm⟩ | ⟨hnone, hvar⟩
    · exact Or.inl ⟨List.mem_cons_of_mem _ hp, hm⟩
    · split at hvar
      · rename_i hel
        cases hvar
        exact Or.inl ⟨List.mem_cons_self, hany.mp hel⟩
      · rename_i hel
        refine Or.inr ⟨?_, hvar⟩
        intro x hx
        rcases List.mem_cons.mp hx with rfl | hx
        · exact fun hx => hel (hany.mpr hx)
        · exact hnone x hx

/-! ## The invariant -/

/-- The pools are in order, and the ids of the sockets count up from one. -/
structure UdpStackInv (s : UdpStack) : Prop where
  clients : s.clients.WellFormed
  ifaces : s.ifaces.WellFormed
  vfaces : ∀ iface ∈ s.ifaces.contents, (s.ifaces.mem iface).vfaces.WellFormed
  socketServers : s.socketServers.WellFormed
  ids : ∀ (i : Nat) p, s.socketServers.contents[i]? = some p → (s.socketServers.mem p).socket.id = i + 1

/-- What there is in one state is there in another: the clients, the interfaces with their addresses, and the sockets. -/
structure UdpStack.Extends (s s' : UdpStack) : Prop where
  clients : ∀ c ∈ s.clients.contents, c ∈ s'.clients.contents ∧ (s'.clients.mem c).id = (s.clients.mem c).id
  ifaces : ∀ iface ∈ s.ifaces.contents, iface ∈ s'.ifaces.contents ∧
    ∀ addr, (s.ifaces.mem iface).HasAddr addr → (s'.ifaces.mem iface).HasAddr addr
  socketServers : ∀ p ∈ s.socketServers.contents, p ∈ s'.socketServers.contents ∧
    (s'.socketServers.mem p).socket.id = (s.socketServers.mem p).socket.id ∧
    (s'.socketServers.mem p).client = (s.socketServers.mem p).client ∧
    (s'.socketServers.mem p).iface = (s.socketServers.mem p).iface

/-- The parts of the state that the lookups read are the same. -/
theorem UdpStack.Extends.of_eq {s s' : UdpStack} (hc : s'.clients = s.clients) (hi : s'.ifaces = s.ifaces)
    (hs : s'.socketServers = s.socketServers) : s.Extends s' := by
  refine ⟨?_, ?_, ?_⟩
  · intro c hm
    rw [hc]
    exact ⟨hm, rfl⟩
  · intro iface hm
    rw [hi]
    exact ⟨hm, fun _ => id⟩
  · intro p hm
    rw [hs]
    exact ⟨hm, rfl, rfl, rfl⟩

/-- After the reply the server goes on to the next request, with another receive slot if it has started an rx thread. -/
theorem UdpStack.afterReply_ok {s s' : UdpStack} {error : Int} {rxReadyEpMint : CPtr}
    (hs : s.afterReply error rxReadyEpMint = .next s') :
    ∃ thread, s' = { s with thread := thread } ∧
      ((s.thread.pc = .startTx ∧ thread.capReceivePath = s.thread.capReceivePath ∧
          thread.rxReadyEpMint = s.thread.rxReadyEpMint) ∨
        (s.thread.pc = .startRx ∧ thread.capReceivePath = rxReadyEpMint ∧ thread.rxReadyEpMint = rxReadyEpMint)) := by
  unfold UdpStack.afterReply at hs
  cases hpc : s.thread.pc with
  | recv => simp [hpc] at hs
  | startTx =>
    rw [hpc] at hs
    obtain ⟨_, -, hs⟩ := bind_ok (Outcome.ofExcept_eq_next.mp hs)
    cases hs
    exact ⟨_, rfl, Or.inl ⟨rfl, rfl, rfl⟩⟩
  | startRx =>
    rw [hpc] at hs
    obtain ⟨_, -, hs⟩ := bind_ok (Outcome.ofExcept_eq_next.mp hs)
    obtain ⟨_, -, hs⟩ := bind_ok hs
    cases hs
    exact ⟨_, rfl, Or.inr ⟨rfl, rfl, rfl⟩⟩

namespace UdpStackInv

variable {cfg : UdpStackConfig} {s s' : UdpStack} {r : UdpRequest} {a : UdpAnswers}

/-- Socket ids are unique. -/
theorem id_inj (h : UdpStackInv s) {p q : Ptr} (hp : p ∈ s.socketServers.contents) (hq : q ∈ s.socketServers.contents)
    (hid : (s.socketServers.mem p).socket.id = (s.socketServers.mem q).socket.id) : p = q := by
  obtain ⟨i, hi⟩ := List.getElem?_of_mem hp
  obtain ⟨j, hj⟩ := List.getElem?_of_mem hq
  rw [h.ids i p hi, h.ids j q hj] at hid
  have hij : i = j := by omega
  rw [hij, hj] at hi
  exact (Option.some.inj hi).symm

/-- Nothing but the server's own variables and the CSpace has changed. -/
theorem of_eq (h : UdpStackInv s) (hc : s'.clients = s.clients) (hi : s'.ifaces = s.ifaces)
    (hs : s'.socketServers = s.socketServers) : UdpStackInv s' :=
  ⟨hc ▸ h.clients, hi ▸ h.ifaces, hi ▸ h.vfaces, hs ▸ h.socketServers, hs ▸ h.ids⟩

/-- A new client leaves the others as they are. -/
theorem createClient (h : UdpStackInv s) {id : Int} {clients : Pool (Ptr → IpcClient)}
    (hs : ipcCreateClient s.clients id = .ok clients) :
    UdpStackInv { s with clients := clients } ∧ s.Extends { s with clients := clients } := by
  obtain ⟨_, -, hs⟩ := bind_ok hs
  obtain ⟨⟨client, clients'⟩, halloc, hs⟩ := bind_ok hs
  obtain ⟨p, hp, hs⟩ := bind_ok hs
  cases hs
  cases of_checkSome_ok hp
  obtain ⟨hwf, hcontents, -, hframe⟩ := h.clients.alloc_write halloc (by rfl)
  refine ⟨⟨hwf, h.ifaces, h.vfaces, h.socketServers, h.ids⟩, fun c hc => ⟨?_, ?_⟩, fun _ hi => ⟨hi, fun _ ha => ha⟩,
    fun _ hp => ⟨hp, rfl, rfl, rfl⟩⟩
  · rw [hcontents]
    exact List.mem_append_left _ hc
  · rw [hframe c hc]

/-- An allocation of a virtual interface adds an address. -/
theorem hasAddr_alloc {iface : NetIface} (hwf : iface.vfaces.WellFormed) {v : Ptr} {vfaces : Pool (Ptr → NetVface)}
    (vface : NetVface)
    (halloc : simplePoolAlloc iface.vfaces = .ok (some v, vfaces)) :
    ({ vfaces with mem := Function.update vfaces.mem v vface } : Pool (Ptr → NetVface)).WellFormed ∧
    ∀ addr, iface.HasAddr addr → NetIface.HasAddr ⟨{ vfaces with mem := Function.update vfaces.mem v vface }⟩ addr := by
  obtain ⟨hwf, hcontents, -, hframe⟩ := hwf.alloc_write halloc (by rfl)
  refine ⟨hwf, fun addr ⟨x, hx, hxa⟩ => ⟨x, ?_, ?_⟩⟩
  · simp only [hcontents]
    exact List.mem_append_left _ hx
  · exact hxa.imp_right fun e => (congrArg NetVface.ipAddr (hframe x hx)).trans e

/-- A new interface leaves the others as they are. -/
theorem createInterface (h : UdpStackInv s) {irqNum : Int} {b : PoolBlocks NetVface} {iface : Ptr} {ifaces : Pool (Ptr → NetIface)}
    (hs : networkCreateInterface cfg s.ifaces irqNum b = .ok (iface, ifaces)) :
    UdpStackInv { s with ifaces := ifaces } ∧ s.Extends { s with ifaces := ifaces } ∧ iface ∈ ifaces.contents := by
  obtain ⟨_, -, hs⟩ := bind_ok hs
  obtain ⟨⟨_, ifaces'⟩, halloc, hs⟩ := bind_ok hs
  obtain ⟨p, hp, hs⟩ := bind_ok hs
  obtain ⟨vfaces, hvfaces, hs⟩ := bind_ok hs
  cases hs
  cases of_checkSome_ok hp
  obtain ⟨hwf, hcontents, hnew, hframe⟩ := h.ifaces.alloc_write halloc (by rfl)
  refine ⟨⟨h.clients, hwf, ?_, h.socketServers, h.ids⟩, ⟨fun _ hc => ⟨hc, rfl⟩, fun x hx => ⟨?_, ?_⟩,
    fun _ hp => ⟨hp, rfl, rfl, rfl⟩⟩, ?_⟩
  · intro x hx
    rw [hcontents, List.mem_append, List.mem_singleton] at hx
    rcases hx with hx | rfl
    · rw [hframe x hx]
      exact h.vfaces x hx
    · rw [hnew]
      exact (Pool.WellFormed.of_new b.malloc.injective hvfaces).1
  · rw [hcontents]
    exact List.mem_append_left _ hx
  · rw [hframe x hx]
    exact fun _ => id
  · rw [hcontents]
    exact List.mem_append_right _ (List.mem_singleton.mpr rfl)

/-- A new virtual interface leaves the others as they are. -/
theorem addVface (h : UdpStackInv s) {iface : Ptr} {addr mask gw : Word} {ifaces : Pool (Ptr → NetIface)}
    (hi : iface ∈ s.ifaces.contents) (hs : netifaceAddVface s.ifaces iface addr mask gw = .ok ifaces) :
    UdpStackInv { s with ifaces := ifaces } ∧ s.Extends { s with ifaces := ifaces } := by
  obtain ⟨⟨_, vfaces⟩, halloc, hs⟩ := bind_ok hs
  obtain ⟨v, hv, hs⟩ := bind_ok hs
  cases hs
  cases of_checkSome_ok hv
  obtain ⟨hvwf, haddr⟩ := hasAddr_alloc (h.vfaces iface hi) { ipMask := mask, ipAddr := addr, ipGw := gw } halloc
  obtain ⟨hwf, hcontents⟩ := h.ifaces.write (Function.update s.ifaces.mem iface
    ⟨{ vfaces with mem := Function.update vfaces.mem v { ipMask := mask, ipAddr := addr, ipGw := gw } }⟩)
  refine ⟨⟨h.clients, hwf, ?_, h.socketServers, h.ids⟩, fun _ hc => ⟨hc, rfl⟩, fun x hx => ⟨?_, ?_⟩,
    fun _ hp => ⟨hp, rfl, rfl, rfl⟩⟩
  · intro x hx
    rw [hcontents] at hx
    by_cases hxi : x = iface
    · subst hxi
      simpa only [Function.update_self] using hvwf
    · simpa only [Function.update_of_ne hxi] using h.vfaces x hx
  · rw [hcontents]
    exact hx
  · by_cases hxi : x = iface
    · subst hxi
      simpa only [Function.update_self] using haddr
    · simp only [Function.update_of_ne hxi]
      exact fun _ => id

/-- After the initialisation. -/
theorem of_init (h : s.Init cfg) : UdpStackInv s := by
  obtain ⟨b, hclients⟩ := h.clients
  obtain ⟨b', hsockets⟩ := h.socketServers
  obtain ⟨hwf, hnil⟩ := Pool.WellFormed.of_new b'.malloc.injective hsockets
  obtain ⟨irqNum, b₁, b₂, hifaces⟩ := h.ifaces
  obtain ⟨ifaces, hnew, hifaces⟩ := bind_ok hifaces
  obtain ⟨⟨iface, ifaces'⟩, hcreate, hadd⟩ := bind_ok hifaces
  obtain ⟨hiwf, hinil⟩ := Pool.WellFormed.of_new b₁.malloc.injective hnew
  -- the state of the network before its first interface
  have h₀ : UdpStackInv { s with ifaces := ifaces } :=
    ⟨(Pool.WellFormed.of_new b.malloc.injective hclients).1, hiwf, by simp [hinil], hwf, by simp [hnil]⟩
  obtain ⟨h₁, -, hmem⟩ := h₀.createInterface hcreate
  exact (h₁.addVface hmem hadd).1

/-- `UDPSTACK_CREATE_SOCKET` makes a new socket for what its lookups came to. -/
theorem createSocket (h : UdpStackInv s) (hs : s.createSocket r a = .ok s') :
    UdpStackInv s' ∧ s.Extends s' ∧ s'.clients = s.clients ∧ s'.ifaces = s.ifaces ∧ r.argsNum = 3 ∧
    ∃ p mrs cap, s'.replies = s.replies ++ [⟨r, some p, mrs, cap⟩] ∧ p ∈ s'.socketServers.contents ∧
      Found (fun c => (s.clients.mem c).id = intOfWord r.mr1) s.clients.contents s.thread.client (s'.socketServers.mem p).client ∧
      Found (fun i => (s.ifaces.mem i).HasAddr r.mr2) s.ifaces.contents s.thread.iface (s'.socketServers.mem p).iface := by
  obtain ⟨_, hargs, hs⟩ := bind_ok hs
  obtain ⟨clientEls, hclientEls, hs⟩ := bind_ok hs
  obtain ⟨client, hclient, hs⟩ := bind_ok hs
  obtain ⟨ifaceEls, hifaceEls, hs⟩ := bind_ok hs
  obtain ⟨iface, hloop, hs⟩ := bind_ok hs
  obtain ⟨iface', hiface, hs⟩ := bind_ok hs
  obtain ⟨⟨socketServer, socketServers⟩, halloc, hs⟩ := bind_ok hs
  obtain ⟨p, hp, hs⟩ := bind_ok hs
  obtain ⟨udpPcb, -, hs⟩ := bind_ok hs
  obtain ⟨_, -, hs⟩ := bind_ok hs
  obtain ⟨txThread, -, hs⟩ := bind_ok hs
  obtain ⟨_, -, hs⟩ := bind_ok hs
  obtain ⟨cspace, -, hs⟩ := bind_ok hs
  cases hs
  cases of_checkSome_ok hp
  cases of_checkSome_ok hiface
  rw [h.clients.elements_eq] at hclientEls
  rw [h.ifaces.elements_eq] at hifaceEls
  cases hclientEls
  cases hifaceEls
  obtain ⟨hwf, hcontents, hnew, hframe⟩ := h.socketServers.alloc_write halloc (by rfl)
  have hsize : simplePoolGetCurrentSize socketServers = s.socketServers.contents.length + 1 := by
    obtain ⟨hwf', hcontents', -⟩ := h.socketServers.alloc halloc
    rw [hwf'.currentSize_eq, hcontents', List.length_append]
    rfl
  have hmem : ∀ x ∈ s.socketServers.contents, x ∈ s.socketServers.contents ++ [p] := fun x hx => List.mem_append_left _ hx
  refine ⟨⟨h.clients, h.ifaces, h.vfaces, hwf, ?_⟩,
    ⟨fun _ hc => ⟨hc, rfl⟩, fun _ hi => ⟨hi, fun _ ha => ha⟩, ?_⟩, rfl, rfl, of_check_ok hargs, p, _, _, rfl,
    ?_, ?_, ?_⟩
  · intro i x hx
    rw [hcontents] at hx
    rcases getElem?_snoc hx with hx | ⟨rfl, rfl⟩
    · rw [hframe x (List.mem_of_getElem? hx)]
      exact h.ids i x hx
    · rw [hnew]
      exact hsize
  · intro x hx
    rw [hcontents, hframe x hx]
    exact ⟨hmem x hx, rfl, rfl, rfl⟩
  · rw [hcontents]
    exact List.mem_append_right _ (List.mem_singleton.mpr rfl)
  · rw [hnew]
    exact found_of_lookupLoop (of_checkSome_ok hclient)
  · rw [hnew]
    exact found_of_ifaceLoop h.vfaces hloop

/-- `UDPSTACK_BIND_SOCKET` binds what its lookup came to, a socket without a port. -/
theorem bindSocket (h : UdpStackInv s) {extraCaps : Nat} (hs : s.bindSocket r extraCaps a = .ok s') :
    UdpStackInv s' ∧ s.Extends s' ∧ s'.clients = s.clients ∧ s'.ifaces = s.ifaces ∧
    r.argsNum = 3 ∧ extraCaps = 1 ∧
    ∃ p mrs cap, s'.replies = s.replies ++ [⟨r, some p, mrs, cap⟩] ∧ (s.socketServers.mem p).socket.port = 0 ∧
      Found (fun p => (s.socketServers.mem p).socket.id = intOfWord r.mr1) s.socketServers.contents s.thread.socketServer p := by
  obtain ⟨_, hargs, hs⟩ := bind_ok hs
  obtain ⟨_, hcaps, hs⟩ := bind_ok hs
  obtain ⟨els, hels, hs⟩ := bind_ok hs
  obtain ⟨p, hp, hs⟩ := bind_ok hs
  obtain ⟨_, hport, hs⟩ := bind_ok hs
  obtain ⟨msgs, -, hs⟩ := bind_ok hs
  obtain ⟨msgsMutex, -, hs⟩ := bind_ok hs
  obtain ⟨rxThread, -, hs⟩ := bind_ok hs
  obtain ⟨_, -, hs⟩ := bind_ok hs
  obtain ⟨_, -, hs⟩ := bind_ok hs
  obtain ⟨_, -, hs⟩ := bind_ok hs
  obtain ⟨cspace, -, hs⟩ := bind_ok hs
  obtain ⟨_, -, hs⟩ := bind_ok hs
  cases hs
  rw [h.socketServers.elements_eq] at hels
  cases hels
  generalize hserver : ({ s.socketServers.mem p with
    socket := { (s.socketServers.mem p).socket with
      port := r.mr2.toUInt16, aepRxData := s.thread.rxReadyEpMint, epRxReady := a.epRxReady }
    msgs := some msgs, msgsMutex := some msgsMutex, rxThread := some rxThread } : UdpSocketServer) = server
  obtain ⟨hwf, hcontents⟩ := h.socketServers.write (Function.update s.socketServers.mem p server)
  have hsame : ∀ x, (Function.update s.socketServers.mem p server x).socket.id = (s.socketServers.mem x).socket.id ∧
      (Function.update s.socketServers.mem p server x).client = (s.socketServers.mem x).client ∧
      (Function.update s.socketServers.mem p server x).iface = (s.socketServers.mem x).iface := by
    intro x
    by_cases hx : x = p
    · subst hx
      rw [Function.update_self, ← hserver]
      exact ⟨rfl, rfl, rfl⟩
    · rw [Function.update_of_ne hx]
      exact ⟨rfl, rfl, rfl⟩
  refine ⟨⟨h.clients, h.ifaces, h.vfaces, hwf, ?_⟩,
    ⟨fun _ hc => ⟨hc, rfl⟩, fun _ hi => ⟨hi, fun _ ha => ha⟩, fun x hx => ⟨?_, hsame x⟩⟩, rfl, rfl, of_check_ok hargs,
    of_check_ok hcaps, p, _, _, rfl, of_check_ok hport, found_of_lookupLoop (of_checkSome_ok hp)⟩
  · intro i x hx
    rw [hcontents] at hx
    exact (hsame x).1.trans (h.ids i x hx)
  · rw [hcontents]
    exact hx

end UdpStackInv

/-- What came of a request that was served, up to the reply. -/
def UdpStack.Served (s : UdpStack) (r : UdpRequest) (s' : UdpStack) : Prop :=
  match UdpstackOpcode.ofWord r.mr0 with
  | some .createSocket => r.argsNum = 3 ∧
    ∃ p mrs cap, s'.replies = s.replies ++ [⟨r, some p, mrs, cap⟩] ∧ p ∈ s'.socketServers.contents ∧
      Found (fun c => (s.clients.mem c).id = intOfWord r.mr1) s.clients.contents s.thread.client (s'.socketServers.mem p).client ∧
      Found (fun i => (s.ifaces.mem i).HasAddr r.mr2) s.ifaces.contents s.thread.iface (s'.socketServers.mem p).iface
  | some .bindSocket => r.argsNum = 3 ∧ s.extraCaps r = 1 ∧
    ∃ p mrs cap, s'.replies = s.replies ++ [⟨r, some p, mrs, cap⟩] ∧ (s.socketServers.mem p).socket.port = 0 ∧
      Found (fun p => (s.socketServers.mem p).socket.id = intOfWord r.mr1) s.socketServers.contents s.thread.socketServer p
  | some .connectSocket => ∃ mrs cap, s'.replies = s.replies ++ [⟨r, none, mrs, cap⟩]
  | none => s'.replies = s.replies

namespace UdpStackInv

variable {cfg : UdpStackConfig} {s s' : UdpStack} {r : UdpRequest} {a : UdpAnswers}

/-- A request creates no client and no interface. -/
theorem serve (h : UdpStackInv s) (hs : s.serve r a = .ok s') :
    UdpStackInv s' ∧ s.Extends s' ∧ s'.clients = s.clients ∧ s'.ifaces = s.ifaces ∧ s.Served r s' := by
  obtain ⟨_, -, hs⟩ := bind_ok hs
  have hreceive : UdpStackInv (s.receive r) := h.of_eq rfl rfl rfl
  unfold UdpStack.Served
  generalize UdpstackOpcode.ofWord r.mr0 = op at hs ⊢
  cases op with
  | none =>
    cases hs
    exact ⟨h.of_eq rfl rfl rfl, .of_eq rfl rfl rfl, rfl, rfl, rfl⟩
  | some op =>
    cases op with
    | createSocket =>
      obtain ⟨hinv, hext, hc, hi, hserved⟩ := hreceive.createSocket hs
      exact ⟨hinv, ⟨hext.clients, hext.ifaces, hext.socketServers⟩, hc, hi, hserved⟩
    | bindSocket =>
      obtain ⟨hinv, hext, hc, hi, hserved⟩ := hreceive.bindSocket hs
      exact ⟨hinv, ⟨hext.clients, hext.ifaces, hext.socketServers⟩, hc, hi, hserved⟩
    | connectSocket =>
      cases hs
      exact ⟨h.of_eq rfl rfl rfl, .of_eq rfl rfl rfl, rfl, rfl, _, _, rfl⟩

/-- A step takes nothing away; only a request is replied to. -/
theorem step (h : UdpStackInv s) {act : UdpStackAction} (hs : s.step cfg act = .next s') :
    UdpStackInv s' ∧ s.Extends s' ∧
    (s'.replies = s.replies ∨ ∃ r a, act = .request r a ∧ s'.clients = s.clients ∧ s'.ifaces = s.ifaces ∧ s.Served r s') := by
  cases act with
  | createClient id =>
    obtain ⟨clients, hclients, hs⟩ := bind_ok (Outcome.ofExcept_eq_next.mp hs)
    cases hs
    obtain ⟨hinv, hext⟩ := h.createClient hclients
    exact ⟨hinv, hext, Or.inl rfl⟩
  | createInterface irqNum b =>
    obtain ⟨⟨_, ifaces⟩, hifaces, hs⟩ := bind_ok (Outcome.ofExcept_eq_next.mp hs)
    cases hs
    obtain ⟨hinv, hext, -⟩ := h.createInterface hifaces
    exact ⟨hinv, hext, Or.inl rfl⟩
  | addVface iface addr mask gw =>
    obtain ⟨hmem, hs⟩ := Outcome.guard_eq_next.mp hs
    obtain ⟨ifaces, hifaces, hs⟩ := bind_ok (Outcome.ofExcept_eq_next.mp hs)
    cases hs
    obtain ⟨hinv, hext⟩ := h.addVface hmem hifaces
    exact ⟨hinv, hext, Or.inl rfl⟩
  | request r a =>
    obtain ⟨-, hs⟩ := Outcome.guard_eq_next.mp hs
    obtain ⟨hinv, hext, hserved⟩ := h.serve (Outcome.ofExcept_eq_next.mp hs)
    exact ⟨hinv, hext, Or.inr ⟨r, a, rfl, hserved⟩⟩
  | start error rxReadyEpMint =>
    obtain ⟨thread, rfl, -⟩ := UdpStack.afterReply_ok hs
    exact ⟨h.of_eq rfl rfl rfl, .of_eq rfl rfl rfl, Or.inl rfl⟩

end UdpStackInv

/-! ## What a request does to the slots -/

/-- Two slots have been taken, and nothing else in the CSpace has changed. -/
structure CSpaceTakes (cspace cspace' : CPtr → Option UdpCap) (slot slot' : CPtr) : Prop where
  frame : ∀ c, c ≠ slot → c ≠ slot' → cspace' c = cspace c
  left : cspace' slot ≠ none
  right : cspace' slot' ≠ none

/-- An endpoint is made in one slot, and copied to another. -/
theorem CSpaceTakes.of_copy {cspace cspace' : CPtr → Option UdpCap} {ep mint : CPtr}
    (h : cnodeCopy (Function.update cspace ep (some (.endpoint ep))) mint ep = .ok cspace') :
    CSpaceTakes cspace cspace' ep mint := by
  obtain ⟨_, hcheck, h⟩ := bind_ok h
  cases h
  obtain ⟨hdest, -⟩ := of_check_ok hcheck
  have hne : mint ≠ ep := by
    rintro rfl
    rw [Function.update_self] at hdest
    cases hdest
  refine ⟨?_, ?_, ?_⟩
  · intro c hep hmint
    rw [Function.update_of_ne hmint, Function.update_of_ne hep]
  · rw [Function.update_of_ne hne.symm, Function.update_self]
    simp
  · rw [Function.update_self, Function.update_self]
    simp

namespace UdpStack

/-- Without a capability nothing is received. -/
theorem receive_of_none {s : UdpStack} {r : UdpRequest} (hcap : r.cap = none) : s.receive r = s := by
  unfold receive
  rw [hcap]

/-- A socket `p` was created. -/
structure SocketCreated (s s' : UdpStack) (a : UdpAnswers) (p : Ptr) : Prop where
  contents : s'.socketServers.contents = s.socketServers.contents ++ [p]
  new : p ∉ s.socketServers.contents
  epTxReady : (s'.socketServers.mem p).socket.epTxReady = a.epTxReady
  epRxReady : (s'.socketServers.mem p).socket.epRxReady = capNull
  aepRxData : (s'.socketServers.mem p).socket.aepRxData = capNull
  frame : ∀ x ∈ s.socketServers.contents, s'.socketServers.mem x = s.socketServers.mem x
  cspace : CSpaceTakes s.cspace s'.cspace a.epTxReady a.txReadyEpMint
  thread : s'.thread.pc = .startTx ∧ s'.thread.capReceivePath = s.thread.capReceivePath ∧
    s'.thread.rxReadyEpMint = s.thread.rxReadyEpMint
  size : s'.socketServers.size = s.socketServers.size
  replies : ∃ reply, s'.replies = s.replies ++ [reply] ∧ reply.cap = some a.txReadyEpMint ∧ reply.socketServer = some p ∧
    reply.mrs = [0, UInt32.ofInt (s'.socketServers.mem p).socket.id]

/-- The socket `p` was bound. -/
structure SocketBound (s s' : UdpStack) (r : UdpRequest) (a : UdpAnswers) (p : Ptr) : Prop where
  contents : s'.socketServers.contents = s.socketServers.contents
  found : Found (fun x => (s.socketServers.mem x).socket.id = intOfWord r.mr1) s.socketServers.contents s.thread.socketServer p
  id : (s'.socketServers.mem p).socket.id = (s.socketServers.mem p).socket.id
  epTxReady : (s'.socketServers.mem p).socket.epTxReady = (s.socketServers.mem p).socket.epTxReady
  epRxReady : (s'.socketServers.mem p).socket.epRxReady = a.epRxReady
  aepRxData : (s'.socketServers.mem p).socket.aepRxData = s.thread.rxReadyEpMint
  nonNull : s.thread.rxReadyEpMint ≠ capNull
  frame : ∀ x, x ≠ p → s'.socketServers.mem x = s.socketServers.mem x
  cspace : CSpaceTakes s.cspace s'.cspace a.epRxReady a.rxReadyEpMint
  thread : s'.thread.pc = .startRx
  size : s'.socketServers.size = s.socketServers.size
  replies : ∃ reply, s'.replies = s.replies ++ [reply] ∧ reply.cap = some a.rxReadyEpMint

end UdpStack

namespace UdpStackInv

variable {s s' : UdpStack} {r : UdpRequest} {a : UdpAnswers}

/-- `UDPSTACK_CREATE_SOCKET` creates a socket with an endpoint, and sends back a copy. -/
theorem socketCreated (h : UdpStackInv s) (hs : s.createSocket r a = .ok s') : ∃ p, s.SocketCreated s' a p := by
  obtain ⟨_, -, hs⟩ := bind_ok hs
  obtain ⟨clientEls, -, hs⟩ := bind_ok hs
  obtain ⟨client, -, hs⟩ := bind_ok hs
  obtain ⟨ifaceEls, -, hs⟩ := bind_ok hs
  obtain ⟨iface, -, hs⟩ := bind_ok hs
  obtain ⟨iface', -, hs⟩ := bind_ok hs
  obtain ⟨⟨socketServer, socketServers⟩, halloc, hs⟩ := bind_ok hs
  obtain ⟨p, hp, hs⟩ := bind_ok hs
  obtain ⟨udpPcb, -, hs⟩ := bind_ok hs
  obtain ⟨_, -, hs⟩ := bind_ok hs
  obtain ⟨txThread, -, hs⟩ := bind_ok hs
  obtain ⟨_, -, hs⟩ := bind_ok hs
  obtain ⟨cspace, hcopy, hs⟩ := bind_ok hs
  cases hs
  cases of_checkSome_ok hp
  obtain ⟨-, -, hnew, -⟩ := h.socketServers.alloc halloc
  obtain ⟨-, hcontents, hmem, hframe⟩ := h.socketServers.alloc_write halloc (by rfl)
  have hsize := h.socketServers.alloc_size halloc
  refine ⟨p, hcontents, hnew, ?_, ?_, ?_, hframe, .of_copy hcopy, ⟨rfl, rfl, rfl⟩, hsize, _, rfl, rfl, rfl, ?_⟩
  · rw [hmem]
  · rw [hmem]
    rfl
  · rw [hmem]
    rfl
  · rw [hmem]

/-- `UDPSTACK_BIND_SOCKET` keeps the receive slot for the socket, makes an endpoint, and sends back a copy. -/
theorem socketBound (h : UdpStackInv s) {extraCaps : Nat} (hs : s.bindSocket r extraCaps a = .ok s') :
    ∃ p, s.SocketBound s' r a p := by
  obtain ⟨_, -, hs⟩ := bind_ok hs
  obtain ⟨_, -, hs⟩ := bind_ok hs
  obtain ⟨els, hels, hs⟩ := bind_ok hs
  obtain ⟨p, hp, hs⟩ := bind_ok hs
  obtain ⟨_, -, hs⟩ := bind_ok hs
  obtain ⟨msgs, -, hs⟩ := bind_ok hs
  obtain ⟨msgsMutex, -, hs⟩ := bind_ok hs
  obtain ⟨rxThread, -, hs⟩ := bind_ok hs
  obtain ⟨_, hmint, hs⟩ := bind_ok hs
  obtain ⟨_, -, hs⟩ := bind_ok hs
  obtain ⟨_, -, hs⟩ := bind_ok hs
  obtain ⟨cspace, hcopy, hs⟩ := bind_ok hs
  obtain ⟨_, -, hs⟩ := bind_ok hs
  cases hs
  rw [h.socketServers.elements_eq] at hels
  cases hels
  refine ⟨p, (h.socketServers.write _).2, found_of_lookupLoop (of_checkSome_ok hp), ?_, ?_, ?_, ?_, of_check_ok hmint, ?_,
    .of_copy hcopy, rfl, rfl, _, rfl, rfl⟩
  · simp only [Function.update_self]
  · simp only [Function.update_self]
  · simp only [Function.update_self]
  · simp only [Function.update_self]
  · intro x hx
    exact Function.update_of_ne hx _ _

end UdpStackInv

end Sel4Osapi
