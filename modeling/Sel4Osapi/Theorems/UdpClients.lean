import Sel4Osapi.Lemmas.Words
import Sel4Osapi.Theorems.UdpRouting
import Sel4Osapi.Udp.Clients

/-!
# Both sides of a socket

A process and the server keep a record of a socket each. In every run they agree: on the id, the address and the port, and on
what is behind the capabilities. `UdpSystem.Agrees` is what the two records have in common; a call of the process adds a pair
of records or changes one, and leaves the others as they are, because the slots that it takes were empty on both sides.
-/

namespace Sel4Osapi

open Transition

/-! ## What a call does to a process -/

namespace UdpUser

variable {v v₁ v' : UdpUser} {p : Ptr} {addr : Word} {slot aepRxData rxReadEpCopy : CPtr} {r : UdpRequest} {mrs : List Word}
  {cap : Option UdpCap} {port : UInt16} {n : Nat}

/-- The capability of a reply was received. -/
theorem receive_ok (h : v.receive slot cap = .ok v') :
    ∃ obj, cap = some obj ∧ v.cspace slot = none ∧ v' = { v with cspace := Function.update v.cspace slot (some obj) } := by
  obtain ⟨_, hcheck, h⟩ := bind_ok h
  obtain ⟨hsome, hempty⟩ := of_check_ok hcheck
  obtain ⟨obj, rfl⟩ := Option.isSome_iff_exists.mp hsome
  cases h
  exact ⟨obj, rfl, hempty, rfl⟩

/-- The process has created the socket `p`. -/
structure Created (v v' : UdpUser) (p : Ptr) (addr : Word) (slot : CPtr) (mrs : List Word) (cap : Option UdpCap) : Prop where
  wellFormed : v'.sockets.WellFormed
  contents : v'.sockets.contents = v.sockets.contents ++ [p]
  new : p ∉ v.sockets.contents
  frame : ∀ x ∈ v.sockets.contents, v'.sockets.mem x = v.sockets.mem x
  clientId : v'.clientId = v.clientId
  nonNull : slot ≠ capNull
  record : ∃ mr0 mr1, mrs = [mr0, mr1] ∧ v'.sockets.mem p =
    { id := intOfWord mr1, addr := addr, port := 0, epTxReady := slot, epRxReady := capNull, aepRxData := capNull }
  cspace : ∃ obj, cap = some obj ∧ v.cspace slot = none ∧ v'.cspace = Function.update v.cspace slot (some obj)

/-- `sel4osapi_udp_create_socket` returns. -/
theorem created (hwf : v.sockets.WellFormed) (hcall : v.createSocket addr slot = .ok (p, v₁, r))
    (hret : v₁.socketCreated p mrs cap = .ok v') :
    v.Created v' p addr slot mrs cap ∧
      r = { mr0 := 300, mr1 := UInt32.ofInt v.clientId, mr2 := addr, mr3 := 0, argsNum := 3, cap := none } := by
  obtain ⟨⟨el, sockets⟩, halloc, hcall⟩ := bind_ok hcall
  obtain ⟨socket, hsocket, hcall⟩ := bind_ok hcall
  obtain ⟨_, hnull, hcall⟩ := bind_ok hcall
  cases hcall
  cases of_checkSome_ok hsocket
  obtain ⟨hwf₁, hcontents, hmem, hframe⟩ := hwf.alloc_write halloc (by rfl)
  obtain ⟨-, -, hnew, -⟩ := hwf.alloc halloc
  unfold socketCreated at hret
  split at hret
  · rename_i mr0 mr1
    obtain ⟨v₂, hreceive, hret⟩ := bind_ok hret
    obtain ⟨obj, rfl, hempty, rfl⟩ := receive_ok hreceive
    obtain ⟨_, -, hret⟩ := bind_ok hret
    cases hret
    simp only [Function.update_self] at hempty
    obtain ⟨hwf₂, hcontents₂⟩ := hwf₁.write _
    refine ⟨⟨hwf₂, hcontents₂.trans hcontents, hnew, ?_, rfl, of_check_ok hnull, ⟨mr0, mr1, rfl, ?_⟩, obj, rfl, hempty, ?_⟩, rfl⟩
    · intro x hx
      have hne : x ≠ p := by
        rintro rfl
        exact hnew hx
      exact (Function.update_of_ne hne _ _).trans (hframe x hx)
    · simp only [Function.update_self]
    · simp only [Function.update_self]
  · cases hret

/-- The process has bound the socket `p`. -/
structure Bound (v v' : UdpUser) (p : Ptr) (port : UInt16) (n : Nat) (aepRxData rxReadEpCopy slot : CPtr) (cap : Option UdpCap) :
    Prop where
  wellFormed : v'.sockets.WellFormed
  contents : v'.sockets.contents = v.sockets.contents
  frame : ∀ x, x ≠ p → v'.sockets.mem x = v.sockets.mem x
  clientId : v'.clientId = v.clientId
  unbound : (v.sockets.mem p).port = 0
  positive : port ≠ 0
  record : v'.sockets.mem p = { v.sockets.mem p with port := port, aepRxData := aepRxData, epRxReady := slot }
  cspace : ∃ obj, cap = some obj ∧ v'.cspace = Function.update
    (Function.update (Function.update v.cspace aepRxData (some (.received n))) rxReadEpCopy (some (.received n))) slot (some obj)

/-- `sel4osapi_udp_bind` returns. -/
theorem bound_ok (hwf : v.sockets.WellFormed) (hcall : v.bind p port n aepRxData rxReadEpCopy slot = .ok (v₁, r))
    (hret : v₁.bound p port mrs cap = .ok v') :
    v.Bound v' p port n aepRxData rxReadEpCopy slot cap ∧
      r = { mr0 := 301, mr1 := UInt32.ofInt (v.sockets.mem p).id, mr2 := port.toUInt32, mr3 := 0, argsNum := 3, cap := some n } := by
  obtain ⟨_, hport, hcall⟩ := bind_ok hcall
  have hpositive : port ≠ 0 := by
    rintro rfl
    exact absurd (of_check_ok hport) (by decide)
  obtain ⟨_, hunbound, hcall⟩ := bind_ok hcall
  obtain ⟨_, -, hcall⟩ := bind_ok hcall
  obtain ⟨_, -, hcall⟩ := bind_ok hcall
  obtain ⟨cspace, hcopy, hcall⟩ := bind_ok hcall
  obtain ⟨_, -, hcall⟩ := bind_ok hcall
  obtain ⟨_, hcheck, hcopy⟩ := bind_ok hcopy
  cases hcopy
  simp only [Function.update_self] at hcall
  cases hcall
  unfold bound at hret
  split at hret
  · obtain ⟨v₂, hreceive, hret⟩ := bind_ok hret
    obtain ⟨obj, rfl, -, rfl⟩ := receive_ok hreceive
    obtain ⟨_, -, hret⟩ := bind_ok hret
    cases hret
    obtain ⟨hwf', hcontents⟩ := hwf.write (Function.update v.sockets.mem p
      { v.sockets.mem p with port := port, aepRxData := aepRxData, epRxReady := slot })
    simp only [Function.update_self, Function.update_idem]
    refine ⟨⟨hwf', hcontents, ?_, rfl, of_check_ok hunbound, hpositive, ?_, obj, rfl, ?_⟩, rfl⟩
    · intro x hx
      simp only [Function.update_of_ne hx]
    · simp only [Function.update_self]
    · rfl
  · cases hret

/-- Datagrams for the socket `p` are announced at the notification `n`. -/
def Waits (v : UdpUser) (p : Ptr) (n : Nat) : Prop :=
  (v.sockets.mem p).port ≠ 0 ∧ v.cspace (v.sockets.mem p).aepRxData = some (.received n)

/-- What is behind a capability of the socket `p`: the endpoint of its tx thread, and, if it is bound, the endpoint of its rx thread
and the notification at which its datagrams are announced. -/
def Uses (v : UdpUser) (p : Ptr) (obj : Option UdpCap) : Prop :=
  obj = v.cspace (v.sockets.mem p).epTxReady ∨
    (v.sockets.mem p).port ≠ 0 ∧ (obj = v.cspace (v.sockets.mem p).epRxReady ∨ obj = v.cspace (v.sockets.mem p).aepRxData)

/-- Two sockets have an endpoint or a notification in common, whatever each of them uses it for. -/
def Shares (v : UdpUser) (p : Ptr) (v' : UdpUser) (p' : Ptr) : Prop := ∃ obj, v.Uses p obj ∧ v'.Uses p' obj

end UdpUser

/-! ## What a call does to the server -/

namespace UdpStack

variable {s s' : UdpStack} {r : UdpRequest} {a : UdpAnswers} {q : Ptr}

/-- An endpoint made in one slot, with a copy in another. -/
theorem endpoint_of_copy {cspace cspace' : CPtr → Option UdpCap} {ep mint : CPtr}
    (h : cnodeCopy (Function.update cspace ep (some (.endpoint ep))) mint ep = .ok cspace') :
    cspace' ep = some (.endpoint ep) ∧ cspace' mint = some (.endpoint ep) := by
  obtain ⟨_, hcheck, h⟩ := bind_ok h
  cases h
  obtain ⟨hdest, -⟩ := of_check_ok hcheck
  have hne : mint ≠ ep := by
    rintro rfl
    rw [Function.update_self] at hdest
    cases hdest
  rw [Function.update_of_ne hne.symm, Function.update_self, Function.update_self]
  exact ⟨rfl, rfl⟩

/-- What a process finds of a socket `q` that was created for it. -/
structure CreatedFor (s s' : UdpStack) (r : UdpRequest) (a : UdpAnswers) (q : Ptr) : Prop extends s.SocketCreated s' a q where
  record : ∃ id, (s'.socketServers.mem q).socket =
      { id := id, addr := r.mr2, port := 0, epTxReady := a.epTxReady, epRxReady := capNull, aepRxData := capNull }
  client : Found (fun c => (s.clients.mem c).id = intOfWord r.mr1) s.clients.contents s.thread.client
    (s'.socketServers.mem q).client
  clients : s'.clients = s.clients
  nonNull : a.epTxReady ≠ capNull
  endpoint : s'.cspace a.epTxReady = some (.endpoint a.epTxReady)
  reply : UdpSystem.reply s' = ([0, UInt32.ofInt (s'.socketServers.mem q).socket.id], some (.endpoint a.epTxReady))

/-- A `UDPSTACK_CREATE_SOCKET` is carried out. -/
theorem createdFor (h : UdpStackInv s) (hs : s.createSocket r a = .ok s') : ∃ q, s.CreatedFor s' r a q := by
  obtain ⟨q, hq⟩ := h.socketCreated hs
  obtain ⟨_, -, hs⟩ := bind_ok hs
  obtain ⟨clientEls, hclientEls, hs⟩ := bind_ok hs
  obtain ⟨client, hclient, hs⟩ := bind_ok hs
  obtain ⟨ifaceEls, -, hs⟩ := bind_ok hs
  obtain ⟨iface, -, hs⟩ := bind_ok hs
  obtain ⟨iface', -, hs⟩ := bind_ok hs
  obtain ⟨⟨socketServer, socketServers⟩, halloc, hs⟩ := bind_ok hs
  obtain ⟨q', hq', hs⟩ := bind_ok hs
  obtain ⟨udpPcb, -, hs⟩ := bind_ok hs
  obtain ⟨_, hnull, hs⟩ := bind_ok hs
  obtain ⟨txThread, -, hs⟩ := bind_ok hs
  obtain ⟨_, -, hs⟩ := bind_ok hs
  obtain ⟨cspace, hcopy, hs⟩ := bind_ok hs
  cases hs
  cases of_checkSome_ok hq'
  rw [h.clients.elements_eq] at hclientEls
  cases hclientEls
  obtain ⟨-, hcontents, hmem, -⟩ := h.socketServers.alloc_write halloc (by rfl)
  obtain rfl : q = q' := by
    have hcontents' := hq.contents.symm.trans hcontents
    simpa using hcontents'
  obtain ⟨hendpoint, hmint⟩ := endpoint_of_copy hcopy
  refine ⟨q, hq, ⟨simplePoolGetCurrentSize socketServers, ?_⟩, ?_, rfl, of_check_ok hnull, hendpoint, ?_⟩
  · rw [hmem]
    rfl
  · rw [hmem]
    exact found_of_lookupLoop (of_checkSome_ok hclient)
  · simp [UdpSystem.reply, hmint]

/-- What a process finds of a socket `q` that was bound for it. -/
structure BoundFor (s s' : UdpStack) (r : UdpRequest) (a : UdpAnswers) (q : Ptr) : Prop extends s.SocketBound s' r a q where
  record : (s'.socketServers.mem q).socket =
    { (s.socketServers.mem q).socket with
      port := r.mr2.toUInt16, aepRxData := s.thread.rxReadyEpMint, epRxReady := a.epRxReady }
  client : (s'.socketServers.mem q).client = (s.socketServers.mem q).client
  clients : s'.clients = s.clients
  endpointNonNull : a.epRxReady ≠ capNull
  endpoint : s'.cspace a.epRxReady = some (.endpoint a.epRxReady)
  reply : ∃ mrs, UdpSystem.reply s' = (mrs, some (.endpoint a.epRxReady))

/-- A `UDPSTACK_BIND_SOCKET` is carried out. -/
theorem boundFor (h : UdpStackInv s) {extraCaps : Nat} (hs : s.bindSocket r extraCaps a = .ok s') :
    ∃ q, s.BoundFor s' r a q := by
  obtain ⟨q, hq⟩ := h.socketBound hs
  obtain ⟨_, -, hs⟩ := bind_ok hs
  obtain ⟨_, -, hs⟩ := bind_ok hs
  obtain ⟨els, hels, hs⟩ := bind_ok hs
  obtain ⟨q', hq', hs⟩ := bind_ok hs
  obtain ⟨_, -, hs⟩ := bind_ok hs
  obtain ⟨msgs, -, hs⟩ := bind_ok hs
  obtain ⟨msgsMutex, -, hs⟩ := bind_ok hs
  obtain ⟨rxThread, -, hs⟩ := bind_ok hs
  obtain ⟨_, -, hs⟩ := bind_ok hs
  obtain ⟨_, hnull, hs⟩ := bind_ok hs
  obtain ⟨_, -, hs⟩ := bind_ok hs
  obtain ⟨cspace, hcopy, hs⟩ := bind_ok hs
  obtain ⟨_, -, hs⟩ := bind_ok hs
  cases hs
  rw [h.socketServers.elements_eq] at hels
  cases hels
  -- the two lookups have come to the same
  obtain rfl : q = q' := by
    rcases hq.found with ⟨hmem, hid⟩ | ⟨hnone, hvar⟩ <;>
      rcases found_of_lookupLoop (of_checkSome_ok hq') with ⟨hmem', hid'⟩ | ⟨hnone', hvar'⟩
    · exact h.id_inj hmem hmem' (hid.trans hid'.symm)
    · exact absurd hid (hnone' q hmem)
    · exact absurd hid' (hnone q' hmem')
    · exact Option.some.inj (hvar.symm.trans hvar')
  obtain ⟨hendpoint, hcap⟩ := endpoint_of_copy hcopy
  refine ⟨q, hq, ?_, ?_, rfl, of_check_ok hnull, hendpoint, [0], ?_⟩
  · simp only [Function.update_self]
  · simp only [Function.update_self]
  · simp [UdpSystem.reply, hcap]

/-- A `UDPSTACK_BIND_SOCKET` is carried out. -/
theorem bindSocket_of_serve (hop : r.IsBind) (hs : s.serve r a = .ok s') :
    (s.receive r).bindSocket r (s.extraCaps r) a = .ok s' := by
  obtain ⟨_, -, hs⟩ := bind_ok hs
  unfold UdpRequest.IsBind at hop
  generalize UdpstackOpcode.ofWord r.mr0 = op at hop hs
  cases hop
  exact hs

/-- What the condition on a `UDPSTACK_BIND_SOCKET` is. -/
theorem routingOk_of_isBind (hop : r.IsBind) (hcap : r.cap ≠ none) (hnames : s.NamesUnbound r) (hrx : s.Unused a.epRxReady)
    (hmint : s.Unused a.rxReadyEpMint) (hne : a.rxReadyEpMint ≠ a.epRxReady) : UdpRoutingOk s (.request r a) := by
  unfold UdpRequest.IsBind at hop
  simp only [UdpRoutingOk, hop]
  exact ⟨hcap, hnames, hrx, hmint, hne⟩

end UdpStack

/-! ## The invariant -/

/-- The socket `p` of a process and the socket `q` of the server are the two sides of one. -/
structure UdpSystem.Agrees (stack : UdpStack) (v : UdpUser) (p q : Ptr) : Prop where
  process : p ∈ v.sockets.contents
  server : q ∈ stack.socketServers.contents
  id : (v.sockets.mem p).id = (stack.socketServers.mem q).socket.id
  addr : (v.sockets.mem p).addr = (stack.socketServers.mem q).socket.addr
  port : (v.sockets.mem p).port = (stack.socketServers.mem q).socket.port
  client : (stack.socketServers.mem q).client ∈ stack.clients.contents ∧
    (stack.clients.mem (stack.socketServers.mem q).client).id = v.clientId
  nonNull : (stack.socketServers.mem q).socket.epTxReady ≠ capNull
  epTxReady : v.cspace (v.sockets.mem p).epTxReady = some (.endpoint (stack.socketServers.mem q).socket.epTxReady) ∧
    stack.cspace (stack.socketServers.mem q).socket.epTxReady = some (.endpoint (stack.socketServers.mem q).socket.epTxReady)
  unbound : (v.sockets.mem p).port = 0 → (stack.socketServers.mem q).socket.aepRxData = capNull
  bound : (v.sockets.mem p).port ≠ 0 → (stack.socketServers.mem q).socket.epRxReady ≠ capNull ∧
    v.cspace (v.sockets.mem p).epRxReady = some (.endpoint (stack.socketServers.mem q).socket.epRxReady) ∧
    stack.cspace (stack.socketServers.mem q).socket.epRxReady = some (.endpoint (stack.socketServers.mem q).socket.epRxReady) ∧
    ∃ n, v.cspace (v.sockets.mem p).aepRxData = some (.received n) ∧
      stack.cspace (stack.socketServers.mem q).socket.aepRxData = some (.received n)

namespace UdpSystem

variable {stack stack' : UdpStack} {v v' : UdpUser} {p q : Ptr}

/-- The two sides agree as long as their records and what is in their slots stay. -/
theorem Agrees.keep (h : Agrees stack v p q) (hp : p ∈ v'.sockets.contents) (hpmem : v'.sockets.mem p = v.sockets.mem p)
    (hid : v'.clientId = v.clientId) (hv : ∀ c, v.cspace c ≠ none → v'.cspace c = v.cspace c)
    (hq : q ∈ stack'.socketServers.contents) (hqmem : stack'.socketServers.mem q = stack.socketServers.mem q)
    (hclients : ∀ c ∈ stack.clients.contents, c ∈ stack'.clients.contents ∧ (stack'.clients.mem c).id = (stack.clients.mem c).id)
    (hs : ∀ c, stack.cspace c ≠ none → stack'.cspace c = stack.cspace c) : Agrees stack' v' p q := by
  have hv' : ∀ {c obj}, v.cspace c = some obj → v'.cspace c = some obj := by
    intro c obj hc
    rw [hv c (by rw [hc]; simp), hc]
  have hs' : ∀ {c obj}, stack.cspace c = some obj → stack'.cspace c = some obj := by
    intro c obj hc
    rw [hs c (by rw [hc]; simp), hc]
  obtain ⟨hclient, hclientId⟩ := hclients _ h.client.1
  refine ⟨hp, hq, ?_, ?_, ?_, ?_, ?_, ?_, ?_, ?_⟩
  · rw [hpmem, hqmem, h.id]
  · rw [hpmem, hqmem, h.addr]
  · rw [hpmem, hqmem, h.port]
  · rw [hqmem, hid]
    exact ⟨hclient, hclientId.trans h.client.2⟩
  · rw [hqmem]
    exact h.nonNull
  · rw [hpmem, hqmem]
    exact ⟨hv' h.epTxReady.1, hs' h.epTxReady.2⟩
  · rw [hpmem, hqmem]
    exact h.unbound
  · rw [hpmem, hqmem]
    intro hport
    obtain ⟨hnull, hrx, hrx', n, haep, haep'⟩ := h.bound hport
    exact ⟨hnull, hv' hrx, hs' hrx', n, hv' haep, hs' haep'⟩

/-- Where datagrams for the socket are announced is what the server has kept. -/
theorem Agrees.waits_iff (h : Agrees stack v p q) {n : Nat} : v.Waits p n ↔ (stack.socketServers.mem q).socket.port ≠ 0 ∧
    stack.cspace (stack.socketServers.mem q).socket.aepRxData = some (.received n) := by
  unfold UdpUser.Waits
  rw [h.port]
  refine and_congr_right fun hport => ?_
  obtain ⟨-, -, -, k, haep, haep'⟩ := h.bound (h.port ▸ hport)
  rw [haep, haep']

/-- What a socket uses: the endpoint in a slot that the server keeps for it, or the notification where its datagrams are announced. -/
theorem Agrees.uses (h : Agrees stack v p q) {obj : Option UdpCap} (hobj : v.Uses p obj) :
    (∃ x c, (x = .epTxReady q ∨ x = .epRxReady q) ∧ stack.slot? x = some c ∧ obj = some (.endpoint c)) ∨
      ∃ n, v.Waits p n ∧ obj = some (.received n) := by
  rcases hobj with rfl | ⟨hport, rfl | rfl⟩
  · exact Or.inl ⟨.epTxReady q, _, Or.inl rfl, UdpStack.field_eq_some.mpr ⟨h.server, rfl, h.nonNull⟩, h.epTxReady.1⟩
  · obtain ⟨hnull, hep, -⟩ := h.bound hport
    exact Or.inl ⟨.epRxReady q, _, Or.inr rfl, UdpStack.field_eq_some.mpr ⟨h.server, rfl, hnull⟩, hep⟩
  · obtain ⟨-, -, -, n, hn, -⟩ := h.bound hport
    exact Or.inr ⟨n, ⟨hport, hn⟩, hn⟩

/-- As long as the server keeps what it has, datagrams for the socket are announced where they were. -/
theorem Agrees.waits (h : Agrees stack v p q) (h' : Agrees stack' v' p q)
    (hqmem : stack'.socketServers.mem q = stack.socketServers.mem q)
    (hs : ∀ c, stack.cspace c ≠ none → stack'.cspace c = stack.cspace c) {n : Nat} (hn : v'.Waits p n) : v.Waits p n := by
  rw [h'.waits_iff, hqmem] at hn
  rw [h.waits_iff]
  obtain ⟨hport, haep⟩ := hn
  obtain ⟨-, -, -, k, -, haep'⟩ := h.bound (h.port ▸ hport)
  rw [hs _ (by rw [haep']; simp)] at haep
  exact ⟨hport, haep⟩

end UdpSystem

/-- The condition on a step: the slots that `vka` returns are not in use. -/
def UdpAllocOk (s : UdpSystem) : UdpSystemAction → Prop
  | .createSocket u _ epTxReady a => (s.users u).cspace epTxReady = none ∧
    s.stack.Unused a.epTxReady ∧ s.stack.Unused a.txReadyEpMint ∧ a.txReadyEpMint ≠ a.epTxReady
  | .bind u _ _ aepRxData rxReadEpCopy epRxReady a =>
    ((s.users u).cspace aepRxData = none ∧ (s.users u).cspace rxReadEpCopy = none ∧ (s.users u).cspace epRxReady = none ∧
      rxReadEpCopy ≠ aepRxData ∧ epRxReady ≠ aepRxData ∧ epRxReady ≠ rxReadEpCopy) ∧
    s.stack.Unused a.epRxReady ∧ s.stack.Unused a.rxReadyEpMint ∧ a.rxReadyEpMint ≠ a.epRxReady
  | .start _ slot => s.stack.thread.pc = .startRx → s.stack.Unused slot
  | _ => True

instance (s : UdpSystem) (act : UdpSystemAction) : Decidable (UdpAllocOk s act) := by
  cases act <;> unfold UdpAllocOk <;> infer_instance

namespace UdpSystem

/-- Every socket of a process is one side of a socket of the server, and every socket of the server is that of one process. -/
structure Inv (cfg : UdpStackConfig) (s : UdpSystem) : Prop where
  routing : ∃ requests, RoutingInv s.stack requests
  size : s.stack.socketServers.size = cfg.udpMaxSockets
  wellFormed : ∀ u < s.created, (s.users u).sockets.WellFormed
  client : ∀ u < s.created, (∃ c ∈ s.stack.clients.contents, (s.stack.clients.mem c).id = (s.users u).clientId) ∧
    ∃ w, (s.users u).clientId = intOfWord w
  agrees : ∀ u < s.created, ∀ p ∈ (s.users u).sockets.contents, ∃ q, Agrees s.stack (s.users u) p q
  owned : ∀ q ∈ s.stack.socketServers.contents, ∃ u < s.created, ∃ p, Agrees s.stack (s.users u) p q
  inj : ∀ u < s.created, ∀ u' < s.created, ∀ p ∈ (s.users u).sockets.contents, ∀ p' ∈ (s.users u').sockets.contents,
    ((s.users u).sockets.mem p).id = ((s.users u').sockets.mem p').id → u = u' ∧ p = p'
  made : ∀ u < s.created, ∀ p ∈ (s.users u).sockets.contents, ∀ n, (s.users u).Waits p n → n < s.notifications
  alone : ∀ u < s.created, ∀ u' < s.created, ∀ p ∈ (s.users u).sockets.contents, ∀ p' ∈ (s.users u').sockets.contents, ∀ n,
    (s.users u).Waits p n → (s.users u').Waits p' n → u = u' ∧ p = p'

namespace Inv

variable {cfg : UdpStackConfig} {s s' : UdpSystem} {stack stack' : UdpStack} {u : Nat} {v v' v₁ : UdpUser} {p q : Ptr}
  {r : UdpRequest} {a : UdpAnswers} {addr : Word} {port : UInt16} {slot aepRxData rxReadEpCopy : CPtr}

/-- Initially there is no process. -/
theorem init (h : UdpSystem.Init cfg s) : s.Inv cfg := by
  obtain ⟨b, hsockets⟩ := h.stack.socketServers
  obtain ⟨-, hnil⟩ := Pool.WellFormed.of_new b.malloc.injective hsockets
  have hnone : ∀ {P : Nat → Prop}, ∀ u < s.created, P u := by
    intro P u hu
    rw [h.created] at hu
    cases hu
  refine ⟨⟨[], .of_init h.stack h.path⟩, (simplePoolNew_ok b.malloc.injective hsockets).2.2.2.1, hnone, hnone, hnone, ?_, hnone,
    hnone, hnone⟩
  intro q hq
  rw [hnil] at hq
  cases hq

/-- There is a client with the id that `sel4osapi_ipc_create_client` was called with. -/
theorem exists_client (h : UdpStackInv stack) {id : Int} {clients : Pool (Ptr → IpcClient)}
    (hs : ipcCreateClient stack.clients id = .ok clients) : ∃ c ∈ clients.contents, (clients.mem c).id = id := by
  obtain ⟨_, -, hs⟩ := bind_ok hs
  obtain ⟨⟨client, clients'⟩, halloc, hs⟩ := bind_ok hs
  obtain ⟨c, hc, hs⟩ := bind_ok hs
  cases hs
  cases of_checkSome_ok hc
  obtain ⟨-, hcontents, hmem, -⟩ := h.clients.alloc_write halloc (by rfl)
  refine ⟨c, ?_, by rw [hmem]⟩
  rw [hcontents]
  exact List.mem_append_right _ (List.mem_singleton_self c)

/-- The ids of the sockets of the server are the values of an `int`. -/
theorem id_bounds {requests : List (UdpRequest × CPtr)} (hr : RoutingInv stack requests) (hsize : stack.socketServers.size < 2 ^ 31)
    (hq : q ∈ stack.socketServers.contents) :
    intOfWord (UInt32.ofInt (stack.socketServers.mem q).socket.id) = (stack.socketServers.mem q).socket.id := by
  obtain ⟨i, hi⟩ := List.getElem?_of_mem hq
  have hid := hr.inv.ids i q hi
  have hlt := (List.getElem?_eq_some_iff.mp hi).1
  have hle := hr.inv.socketServers.length_le_size
  exact ((ofInt_eq_iff (by omega) (by omega)).mp rfl).symm

/-- What a call of one process changes: its own sockets, and one of the server. -/
structure Calls (s : UdpSystem) (u : Nat) (stack' : UdpStack) (v' : UdpUser) (p q : Ptr) : Prop where
  contents : ∀ x, x ∈ v'.sockets.contents ↔ x ∈ (s.users u).sockets.contents ∨ x = p
  frame : ∀ x ∈ (s.users u).sockets.contents, x ≠ p → v'.sockets.mem x = (s.users u).sockets.mem x
  clientId : v'.clientId = (s.users u).clientId
  cspace : ∀ c, (s.users u).cspace c ≠ none → v'.cspace c = (s.users u).cspace c
  servers : ∀ x, x ∈ stack'.socketServers.contents ↔ x ∈ s.stack.socketServers.contents ∨ x = q
  serverFrame : ∀ x ∈ s.stack.socketServers.contents, x ≠ q → stack'.socketServers.mem x = s.stack.socketServers.mem x
  clients : stack'.clients = s.stack.clients
  serverCspace : ∀ c, s.stack.cspace c ≠ none → stack'.cspace c = s.stack.cspace c
  /-- the two sides agree now, and no other socket of a process has been the other side of `q` -/
  agrees : Agrees stack' v' p q
  only : ∀ u' < s.created, ∀ p', Agrees s.stack (s.users u') p' q → u' = u ∧ p' = p
  onlyProcess : ∀ q', Agrees s.stack (s.users u) p q' → q' = q
  waits : ∀ n, v'.Waits p n → n = s.notifications

/-- A call keeps the invariant. -/
theorem calls (h : s.Inv cfg) (hu : u < s.created) {stack' : UdpStack} {v' : UdpUser} {n : Nat} (hc : Calls s u stack' v' p q)
    (hrouting : ∃ requests, RoutingInv stack' requests) (hsize : stack'.socketServers.size = s.stack.socketServers.size)
    (hwf : v'.sockets.WellFormed) (hn : s.notifications ≤ n) (hwaits : ∀ k, v'.Waits p k → k < n) :
    Inv cfg { s with stack := stack', users := Function.update s.users u v', notifications := n } := by
  have hclients : ∀ c ∈ s.stack.clients.contents,
      c ∈ stack'.clients.contents ∧ (stack'.clients.mem c).id = (s.stack.clients.mem c).id := by
    intro c hmem
    rw [hc.clients]
    exact ⟨hmem, rfl⟩
  -- the other pairs of records
  have hother : ∀ u' < s.created, ∀ p' q', (u' ≠ u ∨ p' ≠ p) → Agrees s.stack (s.users u') p' q' →
      Agrees stack' (Function.update s.users u v' u') p' q' := by
    intro u' hu' p' q' hne hold
    have hq : q' ≠ q := by
      rintro rfl
      obtain ⟨rfl, rfl⟩ := hc.only u' hu' p' hold
      simp at hne
    have hserver := (hc.servers q').mpr (Or.inl hold.server)
    have hserverFrame := hc.serverFrame q' hold.server hq
    rcases eq_or_ne u' u with rfl | hne'
    · rw [Function.update_self]
      refine hold.keep ((hc.contents p').mpr (Or.inl hold.process)) ?_ hc.clientId hc.cspace hserver hserverFrame hclients
        hc.serverCspace
      exact hc.frame p' hold.process (by simpa using hne)
    · rw [Function.update_of_ne hne']
      exact hold.keep hold.process rfl rfl (fun _ _ => rfl) hserver hserverFrame hclients hc.serverCspace
  have hside : ∀ u' < s.created, ∀ p' ∈ (Function.update s.users u v' u').sockets.contents, (u' = u ∧ p' = p) ∨
      ∃ q', q' ≠ q ∧ Agrees s.stack (s.users u') p' q' ∧ Agrees stack' (Function.update s.users u v' u') p' q' := by
    intro u' hu' p' hp'
    by_cases hsame : u' = u ∧ p' = p
    · exact Or.inl hsame
    · have hmem : p' ∈ (s.users u').sockets.contents := by
        rcases eq_or_ne u' u with rfl | hne
        · rw [Function.update_self, hc.contents] at hp'
          exact hp'.resolve_right fun he => hsame ⟨rfl, he⟩
        · rwa [Function.update_of_ne hne] at hp'
      obtain ⟨q', hold⟩ := h.agrees u' hu' p' hmem
      refine Or.inr ⟨q', ?_, hold, hother u' hu' p' q' (by tauto) hold⟩
      rintro rfl
      exact hsame (hc.only u' hu' p' hold)
  have hself : Agrees stack' (Function.update s.users u v' u) p q := by
    rw [Function.update_self]
    exact hc.agrees
  -- another socket of a process waits where it did
  have hwait : ∀ u' < s.created, ∀ p' ∈ (Function.update s.users u v' u').sockets.contents, ∀ k,
      (Function.update s.users u v' u').Waits p' k → (u' = u ∧ p' = p ∧ k = s.notifications ∧ k < n) ∨
        p' ∈ (s.users u').sockets.contents ∧ (s.users u').Waits p' k := by
    intro u' hu' p' hp' k hk
    rcases hside u' hu' p' hp' with ⟨rfl, rfl⟩ | ⟨q', hne, hold, hnew⟩
    · rw [Function.update_self] at hk
      exact Or.inl ⟨rfl, rfl, hc.waits k hk, hwaits k hk⟩
    · exact Or.inr ⟨hold.process, hold.waits hnew (hc.serverFrame q' hold.server hne) hc.serverCspace hk⟩
  obtain ⟨requests, hr⟩ := hrouting
  refine ⟨⟨requests, hr⟩, hsize.trans h.size, ?_, ?_, ?_, ?_, ?_, ?_, ?_⟩
  · intro u' hu'
    rcases eq_or_ne u' u with rfl | hne
    · simp only [Function.update_self]
      exact hwf
    · simp only [Function.update_of_ne hne]
      exact h.wellFormed u' hu'
  · intro u' hu'
    have hid : (Function.update s.users u v' u').clientId = (s.users u').clientId := by
      rcases eq_or_ne u' u with rfl | hne
      · rw [Function.update_self, hc.clientId]
      · rw [Function.update_of_ne hne]
    simp only [hid, hc.clients]
    exact h.client u' hu'
  · intro u' hu' p' hp'
    rcases hside u' hu' p' hp' with ⟨rfl, rfl⟩ | ⟨q', -, -, hnew⟩
    · exact ⟨q, hself⟩
    · exact ⟨q', hnew⟩
  · intro q' hq'
    rcases eq_or_ne q' q with rfl | hne
    · exact ⟨u, hu, p, hself⟩
    · obtain ⟨u', hu', p', hold⟩ := h.owned q' (((hc.servers q').mp hq').resolve_right hne)
      refine ⟨u', hu', p', hother u' hu' p' q' ?_ hold⟩
      by_contra hcon
      obtain ⟨rfl, rfl⟩ : u' = u ∧ p' = p := by tauto
      exact hne (hc.onlyProcess q' hold)
  · -- the ids are those of the server, where no two are the same
    intro u₁ hu₁ u₂ hu₂ p₁ hp₁ p₂ hp₂ hid
    have hsame : ∀ {q₁ q₂}, Agrees stack' (Function.update s.users u v' u₁) p₁ q₁ →
        Agrees stack' (Function.update s.users u v' u₂) p₂ q₂ → q₁ = q₂ := fun h₁ h₂ =>
      hr.inv.id_inj h₁.server h₂.server (h₁.id.symm.trans (hid.trans h₂.id))
    rcases hside u₁ hu₁ p₁ hp₁ with ⟨rfl, rfl⟩ | ⟨q₁, hne₁, hold₁, hnew₁⟩ <;>
      rcases hside u₂ hu₂ p₂ hp₂ with ⟨rfl, rfl⟩ | ⟨q₂, hne₂, hold₂, hnew₂⟩
    · exact ⟨rfl, rfl⟩
    · exact absurd (hsame hself hnew₂).symm hne₂
    · exact absurd (hsame hnew₁ hself) hne₁
    · obtain rfl := hsame hnew₁ hnew₂
      exact h.inj u₁ hu₁ u₂ hu₂ p₁ hold₁.process p₂ hold₂.process (hold₁.id.trans hold₂.id.symm)
  · intro u' hu' p' hp' k hk
    rcases hwait u' hu' p' hp' k hk with ⟨-, -, -, hlt⟩ | ⟨hmem, hold⟩
    · exact hlt
    · exact Nat.lt_of_lt_of_le (h.made u' hu' p' hmem k hold) hn
  · intro u₁ hu₁ u₂ hu₂ p₁ hp₁ p₂ hp₂ k hk₁ hk₂
    rcases hwait u₁ hu₁ p₁ hp₁ k hk₁ with ⟨rfl, rfl, hk, -⟩ | ⟨hmem₁, hold₁⟩ <;>
      rcases hwait u₂ hu₂ p₂ hp₂ k hk₂ with ⟨rfl, rfl, hk', -⟩ | ⟨hmem₂, hold₂⟩
    · exact ⟨rfl, rfl⟩
    · exact absurd (h.made u₂ hu₂ p₂ hmem₂ k hold₂) (by omega)
    · exact absurd (h.made u₁ hu₁ p₁ hmem₁ k hold₁) (by omega)
    · exact h.alone u₁ hu₁ u₂ hu₂ p₁ hmem₁ p₂ hmem₂ k hold₁ hold₂

/-- `sel4osapi_udp_create_socket` adds a socket to the process, and one to the server. -/
theorem createSocket (h : s.Inv cfg) (hcfg : cfg.udpMaxSockets < 2 ^ 31) (hu : u < s.created) (hpc : s.stack.thread.pc = .recv)
    (hok : UdpAllocOk s (.createSocket u addr slot a)) (hcall : (s.users u).createSocket addr slot = .ok (p, v₁, r))
    (hserve : s.stack.serve r a = .ok stack')
    (hret : v₁.socketCreated p (reply stack').1 (reply stack').2 = .ok v') :
    Inv cfg { s with stack := stack', users := Function.update s.users u v' } := by
  obtain ⟨hempty, htx, hmint, hne⟩ := hok
  obtain ⟨hcr, rfl⟩ := UdpUser.created (h.wellFormed u hu) hcall hret
  obtain ⟨requests, hr⟩ := h.routing
  have hrouting := hr.serve (r := { mr0 := 300, mr1 := _, mr2 := _, mr3 := _, argsNum := _, cap := none }) hpc
    ⟨rfl, htx, hmint, hne⟩ hserve
  obtain ⟨_, -, hs⟩ := bind_ok hserve
  change (s.stack.receive _).createSocket _ a = _ at hs
  rw [UdpStack.receive_of_none rfl] at hs
  obtain ⟨q, hq⟩ := UdpStack.createdFor hr.inv hs
  have hqmem : q ∈ stack'.socketServers.contents := by
    rw [hq.contents]
    exact List.mem_append_right _ (List.mem_singleton_self q)
  -- the record of the process is that of the server
  obtain ⟨mr0, mr1, hmrs, hrecord⟩ := hcr.record
  obtain ⟨obj, hobj, -, hcspace⟩ := hcr.cspace
  rw [hq.reply] at hmrs hobj
  cases hmrs
  cases hobj
  have hid := id_bounds hrouting (by rw [hq.size, h.size]; exact hcfg) hqmem
  obtain ⟨⟨c, hc, hcid⟩, w, hw⟩ := h.client u hu
  have hclient := hq.client.of_exists (Or.inl ⟨c, hc, by rw [hcid, hw, ofInt_intOfWord]⟩)
  obtain ⟨id, hsocket⟩ := hq.record
  have hagrees : Agrees stack' v' p q := by
    refine ⟨?_, hqmem, ?_, ?_, ?_, ?_, ?_, ?_, fun _ => hq.aepRxData, ?_⟩
    · rw [hcr.contents]
      exact List.mem_append_right _ (List.mem_singleton_self p)
    · rw [hrecord, hid]
    · rw [hrecord, hsocket]
    · rw [hrecord, hsocket]
    · rw [hq.clients, hcr.clientId, hw]
      refine ⟨hclient.1, hclient.2.trans ?_⟩
      rw [hw, ofInt_intOfWord]
    · rw [hq.epTxReady]
      exact hq.nonNull
    · rw [hrecord, hq.epTxReady, hcspace, Function.update_self]
      exact ⟨rfl, hq.endpoint⟩
    · intro hport
      rw [hrecord] at hport
      exact absurd rfl hport
  have hwaits : ∀ n, ¬ v'.Waits p n := by
    intro n hn
    have hport := hn.1
    rw [hrecord] at hport
    exact hport rfl
  refine h.calls hu ⟨?_, ?_, hcr.clientId, ?_, ?_, ?_, hq.clients, ?_, hagrees, ?_, ?_, fun n hn => absurd hn (hwaits n)⟩
    ⟨_, hrouting⟩ hq.size hcr.wellFormed (Nat.le_refl _) fun n hn => absurd hn (hwaits n)
  · intro x
    rw [hcr.contents, List.mem_append, List.mem_singleton]
  · exact fun x hx _ => hcr.frame x hx
  · intro c hc
    have hne : c ≠ slot := by
      rintro rfl
      exact hc hempty
    rw [hcspace, Function.update_of_ne hne]
  · intro x
    rw [hq.contents, List.mem_append, List.mem_singleton]
  · exact fun x hx _ => hq.frame x hx
  · intro c hc
    exact hq.cspace.frame c (by rintro rfl; exact hc htx.1) (by rintro rfl; exact hc hmint.1)
  · exact fun u' _ p' hold => absurd hold.server hq.new
  · exact fun q' hold => absurd hold.process hcr.new

/-- `sel4osapi_udp_bind` binds the socket of the process, and the other side of it at the server. -/
theorem bindSocket (h : s.Inv cfg) (hcfg : cfg.udpMaxSockets < 2 ^ 31) (hu : u < s.created) (hpc : s.stack.thread.pc = .recv)
    (hp : p ∈ (s.users u).sockets.contents) (hok : UdpAllocOk s (.bind u p port aepRxData rxReadEpCopy slot a))
    (hcall : (s.users u).bind p port s.notifications aepRxData rxReadEpCopy slot = .ok (v₁, r))
    (hserve : s.stack.serve r a = .ok stack')
    (hret : v₁.bound p port (reply stack').1 (reply stack').2 = .ok v') :
    Inv cfg { s with stack := stack', users := Function.update s.users u v', notifications := s.notifications + 1 } := by
  obtain ⟨⟨haep, hcopy, hempty, hne, hne', hne''⟩, hrx, hmint, hmintne⟩ := hok
  obtain ⟨hb, hrequest⟩ := UdpUser.bound_ok (h.wellFormed u hu) hcall hret
  obtain ⟨q, hag⟩ := h.agrees u hu p hp
  obtain ⟨requests, hr⟩ := h.routing
  have hid : (s.stack.socketServers.mem q).socket.id = intOfWord r.mr1 := by
    rw [hrequest, hag.id, id_bounds hr (by rw [h.size]; exact hcfg) hag.server]
  have hcap : r.cap = some s.notifications := by rw [hrequest]
  have hop : r.IsBind := by
    rw [hrequest]
    rfl
  have hrouting := hr.serve hpc (UdpStack.routingOk_of_isBind hop (by simp [hcap])
    ⟨q, hag.server, hid, hag.unbound hb.unbound⟩ hrx hmint hmintne) hserve
  obtain ⟨hpath, hpathEmpty⟩ := hr.path (by rw [hpc]; simp)
  have hreceive := UdpStack.receive_cspace hcap hpathEmpty
  have hinv : UdpStackInv (s.stack.receive r) := hr.inv.of_eq rfl rfl rfl
  obtain ⟨q', hq⟩ := UdpStack.boundFor hinv (UdpStack.bindSocket_of_serve hop hserve)
  -- the lookup has found the other side of the socket
  obtain rfl : q' = q := by
    obtain ⟨hmem, hq'⟩ := hq.found.of_exists (Or.inl ⟨q, hag.server, hid⟩)
    exact hr.inv.id_inj hmem hag.server (hq'.trans hid.symm)
  have hserver : ∀ c, s.stack.cspace c ≠ none → stack'.cspace c = s.stack.cspace c := by
    intro c hc
    have hcpath : c ≠ s.stack.thread.capReceivePath := by
      rintro rfl
      exact hc hpathEmpty
    rw [hq.cspace.frame c (by rintro rfl; exact hc hrx.1) (by rintro rfl; exact hc hmint.1), hreceive, Function.update_of_ne hcpath]
  obtain ⟨mrs, hreply⟩ := hq.reply
  obtain ⟨obj, hobj, hcspace⟩ := hb.cspace
  rw [hreply] at hobj
  cases hobj
  have hprocess : ∀ c, (s.users u).cspace c ≠ none → v'.cspace c = (s.users u).cspace c := by
    intro c hc
    rw [hcspace, Function.update_of_ne, Function.update_of_ne, Function.update_of_ne]
    · rintro rfl
      exact hc haep
    · rintro rfl
      exact hc hcopy
    · rintro rfl
      exact hc hempty
  have hkeep : ∀ {c obj}, (s.users u).cspace c = some obj → v'.cspace c = some obj := fun hc =>
    (hprocess _ (by rw [hc]; simp)).trans hc
  have hserverKeep : ∀ {c obj}, s.stack.cspace c = some obj → stack'.cspace c = some obj := fun hc =>
    (hserver _ (by rw [hc]; simp)).trans hc
  have haepRxData : v'.cspace aepRxData = some (.received s.notifications) := by
    rw [hcspace, Function.update_of_ne hne'.symm, Function.update_of_ne hne.symm, Function.update_self]
  have hwaits : ∀ n, v'.Waits p n → n = s.notifications := by
    intro n hn
    have hslot := hn.2
    rw [hb.record, haepRxData] at hslot
    cases hslot
    rfl
  have hagrees : Agrees stack' v' p q' := by
    refine ⟨?_, ?_, ?_, ?_, ?_, ?_, ?_, ?_, ?_, ?_⟩
    · rw [hb.contents]
      exact hp
    · rw [hq.contents]
      exact hag.server
    · rw [hb.record, hq.record]
      exact hag.id
    · rw [hb.record, hq.record]
      exact hag.addr
    · rw [hb.record, hq.record, hrequest]
      exact (UInt16.toUInt16_toUInt32 port).symm
    · rw [hq.client, hq.clients, hb.clientId]
      exact hag.client
    · rw [hq.record]
      exact hag.nonNull
    · rw [hb.record, hq.record]
      exact ⟨hkeep hag.epTxReady.1, hserverKeep hag.epTxReady.2⟩
    · intro hport
      rw [hb.record] at hport
      exact absurd hport hb.positive
    · intro _
      rw [hb.record, hq.record]
      refine ⟨hq.endpointNonNull, ?_, hq.endpoint, s.notifications, haepRxData, ?_⟩
      · rw [hcspace, Function.update_self]
      · change stack'.cspace s.stack.thread.rxReadyEpMint = _
        rw [← hpath, hq.cspace.frame _ hrx.2.symm hmint.2.symm, hreceive, Function.update_self]
  refine h.calls hu ⟨?_, ?_, hb.clientId, hprocess, ?_, ?_, hq.clients, hserver, hagrees, ?_, ?_, hwaits⟩ ⟨_, hrouting⟩ hq.size
    hb.wellFormed (Nat.le_succ _) fun n hn => Nat.lt_succ_of_le (Nat.le_of_eq (hwaits n hn))
  · intro x
    rw [hb.contents]
    exact ⟨Or.inl, fun hx => hx.elim id fun he => he ▸ hp⟩
  · exact fun x _ hx => hb.frame x hx
  · intro x
    rw [hq.contents]
    exact ⟨Or.inl, fun hx => hx.elim id fun he => he ▸ hag.server⟩
  · exact fun x _ hx => hq.frame x hx
  · intro u' hu' p' hold
    exact h.inj u' hu' u hu p' hold.process p hp (hold.id.trans hag.id.symm)
  · intro q₁ hold
    exact hr.inv.id_inj hold.server hag.server (hold.id.symm.trans hag.id)

/-- A step that leaves the sockets as they are: new processes have none. -/
theorem grow (h : s.Inv cfg) {users : Nat → UdpUser} {created : Nat} (hrouting : ∃ requests, RoutingInv stack' requests)
    (hsockets : stack'.socketServers = s.stack.socketServers) (hcspace : stack'.cspace = s.stack.cspace)
    (hclients : ∀ c ∈ s.stack.clients.contents,
      c ∈ stack'.clients.contents ∧ (stack'.clients.mem c).id = (s.stack.clients.mem c).id)
    (hle : s.created ≤ created) (hold : ∀ u < s.created, users u = s.users u)
    (hnew : ∀ u < created, s.created ≤ u → (users u).sockets.WellFormed ∧ (users u).sockets.contents = [] ∧
      (∃ c ∈ stack'.clients.contents, (stack'.clients.mem c).id = (users u).clientId) ∧ ∃ w, (users u).clientId = intOfWord w) :
    Inv cfg { s with stack := stack', users := users, created := created } := by
  have hagrees : ∀ {u p q}, u < s.created → Agrees s.stack (s.users u) p q → Agrees stack' (users u) p q := by
    intro u p q hu hag
    rw [hold u hu]
    exact hag.keep hag.process rfl rfl (fun _ _ => rfl) (hsockets ▸ hag.server) (by rw [hsockets]) hclients
      fun c _ => by rw [hcspace]
  -- a process that has a socket is not a new one
  have hcreated : ∀ {u p}, u < created → p ∈ (users u).sockets.contents → u < s.created ∧ p ∈ (s.users u).sockets.contents := by
    intro u p hu hp
    rcases Nat.lt_or_ge u s.created with hlt | hge
    · exact ⟨hlt, hold u hlt ▸ hp⟩
    · rw [(hnew u hu hge).2.1] at hp
      cases hp
  refine ⟨hrouting, ?_, ?_, ?_, ?_, ?_, ?_, ?_, ?_⟩
  · rw [hsockets]
    exact h.size
  · intro u hu
    rcases Nat.lt_or_ge u s.created with hlt | hge
    · dsimp only
      rw [hold u hlt]
      exact h.wellFormed u hlt
    · exact (hnew u hu hge).1
  · intro u hu
    rcases Nat.lt_or_ge u s.created with hlt | hge
    · obtain ⟨⟨c, hc, hid⟩, hw⟩ := h.client u hlt
      obtain ⟨hc', hid'⟩ := hclients c hc
      dsimp only
      rw [hold u hlt]
      exact ⟨⟨c, hc', hid'.trans hid⟩, hw⟩
    · exact (hnew u hu hge).2.2
  · intro u hu p hp
    obtain ⟨hlt, hp⟩ := hcreated hu hp
    obtain ⟨q, hag⟩ := h.agrees u hlt p hp
    exact ⟨q, hagrees hlt hag⟩
  · intro q hq
    rw [hsockets] at hq
    obtain ⟨u, hu, p, hag⟩ := h.owned q hq
    exact ⟨u, Nat.lt_of_lt_of_le hu hle, p, hagrees hu hag⟩
  · intro u₁ hu₁ u₂ hu₂ p₁ hp₁ p₂ hp₂ hid
    obtain ⟨hlt₁, hp₁⟩ := hcreated hu₁ hp₁
    obtain ⟨hlt₂, hp₂⟩ := hcreated hu₂ hp₂
    dsimp only at hid
    rw [hold u₁ hlt₁, hold u₂ hlt₂] at hid
    exact h.inj u₁ hlt₁ u₂ hlt₂ p₁ hp₁ p₂ hp₂ hid
  · intro u hu p hp n hn
    obtain ⟨hlt, hp⟩ := hcreated hu hp
    dsimp only at hn
    rw [hold u hlt] at hn
    exact h.made u hlt p hp n hn
  · intro u₁ hu₁ u₂ hu₂ p₁ hp₁ p₂ hp₂ n hn₁ hn₂
    obtain ⟨hlt₁, hp₁⟩ := hcreated hu₁ hp₁
    obtain ⟨hlt₂, hp₂⟩ := hcreated hu₂ hp₂
    dsimp only at hn₁ hn₂
    rw [hold u₁ hlt₁] at hn₁
    rw [hold u₂ hlt₂] at hn₂
    exact h.alone u₁ hlt₁ u₂ hlt₂ p₁ hp₁ p₂ hp₂ n hn₁ hn₂

/-- What the server does besides requests. -/
theorem stackStep (h : s.Inv cfg) (act : UdpStackAction) (hok : UdpRoutingOk s.stack act)
    (hact : (∃ error slot, act = .start error slot) ∨ (∃ irqNum b, act = .createInterface irqNum b) ∨
      ∃ iface addr mask gw, act = .addVface iface addr mask gw)
    (hs : s.stackStep cfg act = .next s') : s'.Inv cfg := by
  obtain ⟨stack', hstack, heq⟩ := Outcome.map_eq_next.mp hs
  cases heq
  obtain ⟨requests, hr⟩ := h.routing
  have hrouting := hr.step hok hstack
  have hkeep : stack'.socketServers = s.stack.socketServers ∧ stack'.cspace = s.stack.cspace ∧
      stack'.clients = s.stack.clients := by
    rcases hact with ⟨error, slot, rfl⟩ | ⟨irqNum, b, rfl⟩ | ⟨iface, addr, mask, gw, rfl⟩
    · obtain ⟨thread, rfl, -⟩ := UdpStack.afterReply_ok hstack
      exact ⟨rfl, rfl, rfl⟩
    · obtain ⟨⟨_, ifaces⟩, -, hstack⟩ := bind_ok (Outcome.ofExcept_eq_next.mp hstack)
      cases hstack
      exact ⟨rfl, rfl, rfl⟩
    · obtain ⟨-, hstack⟩ := Outcome.guard_eq_next.mp hstack
      obtain ⟨ifaces, -, hstack⟩ := bind_ok (Outcome.ofExcept_eq_next.mp hstack)
      cases hstack
      exact ⟨rfl, rfl, rfl⟩
  obtain ⟨hsockets, hcspace, hclients⟩ := hkeep
  refine h.grow ⟨_, hrouting⟩ hsockets hcspace ?_ (Nat.le_refl _) (fun _ _ => rfl) ?_
  · intro c hc
    rw [hclients]
    exact ⟨hc, rfl⟩
  · intro u hu hge
    omega

/-- A step whose slots are not in use keeps the invariant. -/
theorem step (h : s.Inv cfg) (hcfg : cfg.udpMaxSockets < 2 ^ 31) {act : UdpSystemAction} (hok : UdpAllocOk s act)
    (hs : UdpSystem.step cfg s act = .next s') : s'.Inv cfg := by
  cases act with
  | createProcess id b =>
    obtain ⟨clients, hclients, hs⟩ := bind_ok (Outcome.ofExcept_eq_next.mp hs)
    obtain ⟨sockets, hsockets, hs⟩ := bind_ok hs
    cases hs
    obtain ⟨requests, hr⟩ := h.routing
    obtain ⟨hinv, hext⟩ := hr.inv.createClient hclients
    obtain ⟨hwf, hnil⟩ := Pool.WellFormed.of_new b.malloc.injective hsockets
    refine h.grow ⟨requests, hr.of_eq hinv rfl rfl (fun _ => rfl) hr.path⟩ rfl rfl hext.clients (Nat.le_succ _) ?_ ?_
    · intro u hu
      exact Function.update_of_ne (Nat.ne_of_lt hu) _ _
    · intro u hu hge
      obtain rfl : u = s.created := by omega
      rw [Function.update_self]
      exact ⟨hwf, hnil, exists_client hr.inv hclients, id, rfl⟩
  | createSocket u addr epTxReady a =>
    obtain ⟨⟨hu, hpc⟩, hs⟩ := Outcome.guard_eq_next.mp hs
    obtain ⟨⟨p, v₁, r⟩, hcall, hs⟩ := bind_ok (Outcome.ofExcept_eq_next.mp hs)
    obtain ⟨_, hreply, hs⟩ := bind_ok hs
    obtain ⟨stack', hserve, heq⟩ := bind_ok hreply
    cases heq
    obtain ⟨v', hret, hs⟩ := bind_ok hs
    cases hs
    exact h.createSocket hcfg hu hpc hok hcall hserve hret
  | bind u socket port aepRxData rxReadEpCopy epRxReady a =>
    obtain ⟨⟨hu, hp, hpc⟩, hs⟩ := Outcome.guard_eq_next.mp hs
    obtain ⟨⟨v₁, r⟩, hcall, hs⟩ := bind_ok (Outcome.ofExcept_eq_next.mp hs)
    obtain ⟨_, hreply, hs⟩ := bind_ok hs
    obtain ⟨stack', hserve, heq⟩ := bind_ok hreply
    cases heq
    obtain ⟨v', hret, hs⟩ := bind_ok hs
    cases hs
    exact h.bindSocket hcfg hu hpc hp hok hcall hserve hret
  | start error slot => exact h.stackStep (.start error slot) hok (Or.inl ⟨_, _, rfl⟩) hs
  | createInterface irqNum b => exact h.stackStep (.createInterface irqNum b) trivial (Or.inr (Or.inl ⟨_, _, rfl⟩)) hs
  | addVface iface addr mask gw => exact h.stackStep (.addVface iface addr mask gw) trivial (Or.inr (Or.inr ⟨_, _, _, _, rfl⟩)) hs

/-- Every run whose slots are not in use. -/
theorem of_reachable (hcfg : cfg.udpMaxSockets < 2 ^ 31) (hr : (udpSystemMachine cfg).ReachableVia UdpAllocOk s) : s.Inv cfg := by
  induction hr with
  | init hi => exact .init hi
  | step act _ hok hs ih => exact ih.step hcfg hok hs

/-- The socket with an id that the server has handed out. -/
theorem sdToSocket (h : s.Inv cfg) (hu : u < s.created) (hp : p ∈ (s.users u).sockets.contents) :
    (s.users u).sdToSocket ((s.users u).sockets.mem p).id = .ok p := by
  obtain ⟨requests, hr⟩ := h.routing
  obtain ⟨q, hag⟩ := h.agrees u hu p hp
  obtain ⟨i, hi⟩ := List.getElem?_of_mem hag.server
  have hpositive : ((s.users u).sockets.mem p).id > 0 := by
    rw [hag.id, hr.inv.ids i q hi]
    omega
  have hfind : (s.users u).sockets.contents.find? (fun el =>
      ((s.users u).sockets.mem el).id = ((s.users u).sockets.mem p).id) = some p := by
    cases hfound : (s.users u).sockets.contents.find? (fun el =>
        ((s.users u).sockets.mem el).id = ((s.users u).sockets.mem p).id) with
    | none =>
      have hne := List.find?_eq_none.mp hfound p hp
      simp at hne
    | some p' =>
      have hid := List.find?_some hfound
      rw [decide_eq_true_eq] at hid
      rw [(h.inj u hu u hu p' (List.mem_of_find?_eq_some hfound) p hp hid).2]
  unfold UdpUser.sdToSocket
  rw [(h.wellFormed u hu).elements_eq]
  simp [check, hpositive, hfind, checkSome]

/-- Two sockets have no capability in common. -/
theorem eq_of_shares (h : s.Inv cfg) {u' : Nat} {p' : Ptr} (hu : u < s.created) (hu' : u' < s.created)
    (hp : p ∈ (s.users u).sockets.contents) (hp' : p' ∈ (s.users u').sockets.contents)
    (hshares : (s.users u).Shares p (s.users u') p') : u = u' ∧ p = p' := by
  obtain ⟨requests, hr⟩ := h.routing
  obtain ⟨q, hag⟩ := h.agrees u hu p hp
  obtain ⟨q', hag'⟩ := h.agrees u' hu' p' hp'
  obtain ⟨obj, huses, huses'⟩ := hshares
  rcases hag.uses huses with ⟨x, c, hx, hc, hobj⟩ | ⟨n, hn, hobj⟩
  · rcases hag'.uses huses' with ⟨x', c', hx', hc', hobj'⟩ | ⟨n', -, hobj'⟩
    · -- an endpoint is in one slot of the server, and that is kept for one side of one socket
      cases hobj.symm.trans hobj'
      have hsame := hr.apart x x' c hc hc'
      have hq : q = q' := by
        rcases hx with rfl | rfl <;> rcases hx' with rfl | rfl <;> cases hsame <;> rfl
      subst hq
      exact h.inj u hu u' hu' p hp p' hp' (hag.id.trans hag'.id.symm)
    · cases hobj.symm.trans hobj'
  · rcases hag'.uses huses' with ⟨x', c', -, -, hobj'⟩ | ⟨n', hn', hobj'⟩
    · cases hobj.symm.trans hobj'
    · cases hobj.symm.trans hobj'
      exact h.alone u hu u' hu' p hp p' hp' n hn hn'

end Inv

end UdpSystem

/-- In every run in which the slots that `vka` returns are not in use: each socket of a process is one side of exactly one socket
of the server, and each socket of the server is that of exactly one process; `sel4osapi_udp_sd_to_socket` returns the socket with
the id that the server has given it; and no endpoint or notification is used by two sockets, whatever each uses it for. -/
theorem udp_sockets_agree (cfg : UdpStackConfig) (hcfg : cfg.udpMaxSockets < 2 ^ 31) (s : UdpSystem)
    (hr : (udpSystemMachine cfg).ReachableVia UdpAllocOk s) :
    (∀ u < s.created, ∀ p ∈ (s.users u).sockets.contents, ∃! q, UdpSystem.Agrees s.stack (s.users u) p q) ∧
    (∀ q ∈ s.stack.socketServers.contents,
      ∃! x : Nat × Ptr, x.1 < s.created ∧ UdpSystem.Agrees s.stack (s.users x.1) x.2 q) ∧
    (∀ u < s.created, ∀ p ∈ (s.users u).sockets.contents, (s.users u).sdToSocket ((s.users u).sockets.mem p).id = .ok p) ∧
    ∀ u < s.created, ∀ u' < s.created, ∀ p ∈ (s.users u).sockets.contents, ∀ p' ∈ (s.users u').sockets.contents,
      (s.users u).Shares p (s.users u') p' → u = u' ∧ p = p' := by
  have h := UdpSystem.Inv.of_reachable hcfg hr
  obtain ⟨requests, hrouting⟩ := h.routing
  refine ⟨?_, ?_, fun u hu p hp => h.sdToSocket hu hp, fun u hu u' hu' p hp p' hp' => h.eq_of_shares hu hu' hp hp'⟩
  · intro u hu p hp
    obtain ⟨q, hag⟩ := h.agrees u hu p hp
    exact ⟨q, hag, fun q' hag' => hrouting.inv.id_inj hag'.server hag.server (hag'.id.symm.trans hag.id)⟩
  · intro q hq
    obtain ⟨u, hu, p, hag⟩ := h.owned q hq
    refine ⟨(u, p), ⟨hu, hag⟩, ?_⟩
    rintro ⟨u', p'⟩ ⟨hu', hag'⟩
    obtain ⟨rfl, rfl⟩ := h.inj u' hu' u hu p' hag'.process p hag.process (hag'.id.trans hag.id.symm)
    rfl

/-- What there is of a process before it is created. -/
def noUser : UdpUser where
  clientId := 0
  sockets := ⟨fun _ => ⟨0, none, none⟩, fun _ => ⟨0, 0, 0, 0, 0, 0⟩, none, none, 4, 0, 0, none, none⟩
  cspace := fun _ => none

/-- Two processes create a socket each, and the second binds its socket. -/
def createTwoBindOne : List UdpSystemAction :=
  [.createProcess 1 (blocksOf ⟨0, 0, 0, 0, 0, 0⟩), .createProcess 2 (blocksOf ⟨0, 0, 0, 0, 0, 0⟩),
    .createSocket 0 0x0A00000A 1 (answersFrom 10), .start 0 0, .createSocket 1 0x0A00000A 1 (answersFrom 12), .start 0 0,
    .bind 1 0 7400 2 3 4 (answersFrom 14), .start 0 16]

/-- The socket of the second process after that. -/
theorem exists_createTwoBindOne : ∃ s, (udpSystemMachine twoSockets).ReachableVia UdpAllocOk s ∧
    decide (s.created = 2 ∧ (s.users 1).sockets.contents = [0] ∧ ((s.users 1).sockets.mem 0).id = 2 ∧
      ((s.users 1).sockets.mem 0).port = 7400) = true := by
  obtain ⟨stack, hi, hempty, hrun⟩ := exists_twoSockets_init (fun stack =>
    ((udpSystemMachine twoSockets).execVia UdpAllocOk ⟨stack, fun _ => noUser, 0, 0⟩ createTwoBindOne).any fun s =>
      s.created = 2 ∧ (s.users 1).sockets.contents = [0] ∧ ((s.users 1).sockets.mem 0).id = 2 ∧
        ((s.users 1).sockets.mem 0).port = 7400) rfl
  have hr : (udpSystemMachine twoSockets).ReachableVia UdpAllocOk ⟨stack, fun _ => noUser, 0, 0⟩ := .init ⟨hi, hempty, rfl⟩
  exact hr.exists_of_exec _ _ hrun

/-- The second process finds its socket by the id that the server has given it, and the server has the other side. -/
theorem udp_sockets_agree_createTwoBindOne : ∃ s, (udpSystemMachine twoSockets).ReachableVia UdpAllocOk s ∧
    ((s.users 1).sockets.mem 0).port = 7400 ∧ (s.users 1).sdToSocket 2 = .ok 0 ∧
    ∃! q, UdpSystem.Agrees s.stack (s.users 1) 0 q := by
  obtain ⟨s, hr, hs⟩ := exists_createTwoBindOne
  obtain ⟨hcreated, hcontents, hid, hport⟩ := of_decide_eq_true hs
  obtain ⟨hagrees, -, hfind, -⟩ := udp_sockets_agree twoSockets (by decide) s hr
  have hu : 1 < s.created := by omega
  have hp : (0 : Ptr) ∈ (s.users 1).sockets.contents := by
    rw [hcontents]
    exact List.mem_singleton_self 0
  exact ⟨s, hr, hport, hid ▸ hfind 1 hu 0 hp, hagrees 1 hu 0 hp⟩

end Sel4Osapi
