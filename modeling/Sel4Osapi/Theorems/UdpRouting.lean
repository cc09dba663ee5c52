import Sel4Osapi.Theorems.UdpStack

/-!
# Where the UDP stack keeps its capabilities

`rx_ready_ep_mint` is the slot a capability is received in, then the slot of the copy that is sent back, then the next
receive slot. As long as the allocators return slots that are not in use, and only a `UDPSTACK_BIND_SOCKET` for a socket
that is not bound comes with a capability, the receive path names an empty slot whenever the server waits, the capability of
a bound socket is where its own request put it, and no two of the slots that the server keeps are the same.
-/

namespace Sel4Osapi

open Transition

/-! ## The slots -/

/-- What a slot is kept for: a field of a socket, or the copy that was sent back in a reply. -/
inductive SlotHolder where
  | epTxReady (p : Ptr)
  | epRxReady (p : Ptr)
  | aepRxData (p : Ptr)
  | copy (i : Nat)
  deriving DecidableEq, Repr

/-- A slot, unless it is null. -/
def nonNull (slot : CPtr) : Option CPtr := if slot = capNull then none else some slot

namespace UdpStack

/-- The field of a socket that was created. -/
def field (s : UdpStack) (p : Ptr) (f : UdpSocket → CPtr) : Option CPtr :=
  if p ∈ s.socketServers.contents then nonNull (f (s.socketServers.mem p).socket) else none

/-- The slot that is kept for this. -/
def slot? (s : UdpStack) : SlotHolder → Option CPtr
  | .epTxReady p => s.field p UdpSocket.epTxReady
  | .epRxReady p => s.field p UdpSocket.epRxReady
  | .aepRxData p => s.field p UdpSocket.aepRxData
  | .copy i => s.replies[i]?.bind UdpReply.cap

/-- The slot is not in use: there is nothing in it, and it is not the one to receive in. -/
def Unused (s : UdpStack) (slot : CPtr) : Prop := s.cspace slot = none ∧ slot ≠ s.thread.capReceivePath

/-- There is a socket with the id in a request, and it has not been bound. -/
def NamesUnbound (s : UdpStack) (r : UdpRequest) : Prop :=
  ∃ p ∈ s.socketServers.contents, (s.socketServers.mem p).socket.id = intOfWord r.mr1 ∧
    (s.socketServers.mem p).socket.aepRxData = capNull

end UdpStack

/-- The condition on a step: only a `UDPSTACK_BIND_SOCKET` comes with a capability, and it names a socket that is not bound; the
allocators return slots that are not in use. -/
def UdpRoutingOk (s : UdpStack) : UdpStackAction → Prop
  | .request r a =>
    match UdpstackOpcode.ofWord r.mr0 with
    | some .createSocket => r.cap = none ∧ s.Unused a.epTxReady ∧ s.Unused a.txReadyEpMint ∧ a.txReadyEpMint ≠ a.epTxReady
    | some .bindSocket => r.cap ≠ none ∧ s.NamesUnbound r ∧
      s.Unused a.epRxReady ∧ s.Unused a.rxReadyEpMint ∧ a.rxReadyEpMint ≠ a.epRxReady
    | some .connectSocket | none => r.cap = none
  | .start _ slot => s.thread.pc = .startRx → s.Unused slot
  | _ => True

instance (s : UdpStack) (slot : CPtr) : Decidable (s.Unused slot) := inferInstanceAs (Decidable (_ ∧ _))

instance (s : UdpStack) (r : UdpRequest) : Decidable (s.NamesUnbound r) := inferInstanceAs (Decidable (∃ p ∈ _, _))

instance (s : UdpStack) (act : UdpStackAction) : Decidable (UdpRoutingOk s act) :=
  match act with
  | .request r a =>
    match h : UdpstackOpcode.ofWord r.mr0 with
    | some .createSocket => decidable_of_iff
      (r.cap = none ∧ s.Unused a.epTxReady ∧ s.Unused a.txReadyEpMint ∧ a.txReadyEpMint ≠ a.epTxReady) (by simp only [UdpRoutingOk, h])
    | some .bindSocket => decidable_of_iff
      (r.cap ≠ none ∧ s.NamesUnbound r ∧ s.Unused a.epRxReady ∧ s.Unused a.rxReadyEpMint ∧ a.rxReadyEpMint ≠ a.epRxReady)
      (by simp only [UdpRoutingOk, h])
    | some .connectSocket => decidable_of_iff (r.cap = none) (by simp only [UdpRoutingOk, h])
    | none => decidable_of_iff (r.cap = none) (by simp only [UdpRoutingOk, h])
  | .start _ slot => inferInstanceAs (Decidable (s.thread.pc = .startRx → s.Unused slot))
  | .createClient _ | .createInterface _ _ | .addVface _ _ _ _ => isTrue trivial

/-- The server of the UDP stack; its first receive slot is not in use either. -/
def udpStackMachineUnused (cfg : UdpStackConfig) : Machine Fault UdpStack UdpStackAction where
  init s := s.Init cfg ∧ s.cspace s.thread.capReceivePath = none
  step := UdpStack.step cfg

/-- The requests so far, each with the receive path it came on. -/
def recordRequest (requests : List (UdpRequest × CPtr)) (s : UdpStack) : UdpStackAction → List (UdpRequest × CPtr)
  | .request r _ => requests ++ [(r, s.thread.capReceivePath)]
  | _ => requests

/-- The server with the history of its requests. -/
def udpRoutingMachine (cfg : UdpStackConfig) : Machine Fault (UdpStack × List (UdpRequest × CPtr)) UdpStackAction :=
  (udpStackMachineUnused cfg).recorded [] recordRequest

/-! ## No two the same -/

/-- What keeps slots, and nothing else does, keeps them apart. -/
def Apart (f : SlotHolder → Option CPtr) : Prop := ∀ x y c, f x = some c → f y = some c → x = y

/-- The slots that are kept are taken. -/
def Taken (f : SlotHolder → Option CPtr) (cspace : CPtr → Option UdpCap) : Prop := ∀ x c, f x = some c → cspace c ≠ none

/-- New slots that were empty keep apart from the old ones, which were not. -/
theorem Apart.grow {f f' : SlotHolder → Option CPtr} {cspace : CPtr → Option UdpCap} {news : List (SlotHolder × CPtr)}
    (h : Apart f) (htaken : Taken f cspace) (hnodup : (news.map Prod.snd).Nodup) (hempty : ∀ x ∈ news, cspace x.2 = none)
    (hf : ∀ y c, f' y = some c → f y = some c ∨ (y, c) ∈ news) : Apart f' := by
  intro x y c hx hy
  rcases hf x c hx with hx | hx <;> rcases hf y c hy with hy | hy
  · exact h x y c hx hy
  · exact absurd (hempty _ hy) (htaken x c hx)
  · exact absurd (hempty _ hx) (htaken y c hy)
  · exact congrArg Prod.fst (List.inj_on_of_nodup_map hnodup hx hy rfl)

/-- The slots stay taken. -/
theorem Taken.grow {f f' : SlotHolder → Option CPtr} {cspace cspace' : CPtr → Option UdpCap} {news : List (SlotHolder × CPtr)}
    (h : Taken f cspace) (hkeep : ∀ c, cspace c ≠ none → cspace' c ≠ none) (hnew : ∀ x ∈ news, cspace' x.2 ≠ none)
    (hf : ∀ y c, f' y = some c → f y = some c ∨ (y, c) ∈ news) : Taken f' cspace' := by
  intro x c hx
  rcases hf x c hx with hx | hx
  · exact hkeep c (h x c hx)
  · exact hnew _ hx

namespace UdpStack

variable {s s' : UdpStack} {r : UdpRequest} {a : UdpAnswers} {p : Ptr}

/-- A field of a socket is kept if it is not null. -/
theorem field_eq_some {f : UdpSocket → CPtr} {c : CPtr} :
    s.field p f = some c ↔ p ∈ s.socketServers.contents ∧ f (s.socketServers.mem p).socket = c ∧ c ≠ capNull := by
  unfold field nonNull
  split
  · rename_i hp
    split
    · rename_i hnull
      simp only [reduceCtorEq, false_iff]
      rintro ⟨-, hc, hne⟩
      exact hne (hc ▸ hnull)
    · rename_i hnull
      rw [Option.some.injEq]
      exact ⟨fun hc => ⟨hp, hc, hc ▸ hnull⟩, fun hc => hc.2.1⟩
  · rename_i hp
    simp only [reduceCtorEq, false_iff]
    exact fun hc => hp hc.1

/-- The copy in a new reply. -/
theorem copy_eq_some {reply : UdpReply} {c' : CPtr} (hreplies : s'.replies = s.replies ++ [reply])
    (hcap : reply.cap = some c') {i : Nat}
    {c : CPtr} (h : s'.slot? (.copy i) = some c) : s.slot? (.copy i) = some c ∨ i = s.replies.length ∧ c = c' := by
  unfold slot? at h ⊢
  dsimp only at h ⊢
  rw [hreplies] at h
  rcases Nat.lt_trichotomy i s.replies.length with hlt | heq | hgt
  · rw [List.getElem?_append_left hlt] at h
    exact Or.inl h
  · rw [heq, List.getElem?_concat_length, Option.bind_some, hcap, Option.some.injEq] at h
    exact Or.inr ⟨heq, h.symm⟩
  · rw [List.getElem?_eq_none (by rw [List.length_append, List.length_singleton]; omega)] at h
    cases h

/-- There is no copy in a reply without a capability. -/
theorem copy_of_none {reply : UdpReply} (hreplies : s'.replies = s.replies ++ [reply]) (hcap : reply.cap = none) {i : Nat} :
    s'.slot? (.copy i) = s.slot? (.copy i) := by
  unfold slot?
  dsimp only
  rw [hreplies]
  rcases Nat.lt_trichotomy i s.replies.length with hlt | heq | hgt
  · rw [List.getElem?_append_left hlt]
  · rw [heq, List.getElem?_concat_length, Option.bind_some, hcap, List.getElem?_eq_none (Nat.le_refl _), Option.bind_none]
  · rw [List.getElem?_eq_none (by rw [List.length_append, List.length_singleton]; omega), List.getElem?_eq_none (by omega)]

/-- What a new socket keeps. -/
theorem SocketCreated.slots (h : s.SocketCreated s' a p) {y : SlotHolder} {c : CPtr} (hy : s'.slot? y = some c) :
    s.slot? y = some c ∨ (y, c) ∈ [(SlotHolder.epTxReady p, a.epTxReady), (SlotHolder.copy s.replies.length, a.txReadyEpMint)] := by
  have hold : ∀ (f : UdpSocket → CPtr) x, s'.field x f = some c →
      s.field x f = some c ∨ x = p ∧ f (s'.socketServers.mem p).socket = c ∧ c ≠ capNull := by
    intro f x hx
    obtain ⟨hmem, hfx, hne⟩ := field_eq_some.mp hx
    rw [h.contents, List.mem_append, List.mem_singleton] at hmem
    rcases hmem with hmem | rfl
    · rw [h.frame x hmem] at hfx
      exact Or.inl (field_eq_some.mpr ⟨hmem, hfx, hne⟩)
    · exact Or.inr ⟨rfl, hfx, hne⟩
  cases y with
  | epTxReady x =>
    rcases hold _ x hy with hx | ⟨rfl, hc, -⟩
    · exact Or.inl hx
    · rw [h.epTxReady] at hc
      simp [hc]
  | epRxReady x =>
    rcases hold _ x hy with hx | ⟨rfl, hc, hne⟩
    · exact Or.inl hx
    · exact absurd (hc.symm.trans h.epRxReady) hne
  | aepRxData x =>
    rcases hold _ x hy with hx | ⟨rfl, hc, hne⟩
    · exact Or.inl hx
    · exact absurd (hc.symm.trans h.aepRxData) hne
  | copy i =>
    obtain ⟨reply, hreplies, hcap, -⟩ := h.replies
    rcases copy_eq_some hreplies hcap hy with hi | ⟨rfl, rfl⟩
    · exact Or.inl hi
    · simp

/-- What a socket keeps once it is bound. -/
theorem SocketBound.slots (h : s.SocketBound s' r a p) {y : SlotHolder} {c : CPtr} (hy : s'.slot? y = some c) :
    s.slot? y = some c ∨ (y, c) ∈ [(SlotHolder.aepRxData p, s.thread.rxReadyEpMint), (SlotHolder.epRxReady p, a.epRxReady),
      (SlotHolder.copy s.replies.length, a.rxReadyEpMint)] := by
  have hold : ∀ (f : UdpSocket → CPtr) x, s'.field x f = some c →
      s.field x f = some c ∨ x = p ∧ f (s'.socketServers.mem p).socket = c := by
    intro f x hx
    obtain ⟨hmem, hfx, hne⟩ := field_eq_some.mp hx
    rcases eq_or_ne x p with rfl | hxp
    · exact Or.inr ⟨rfl, hfx⟩
    · rw [h.frame x hxp] at hfx
      exact Or.inl (field_eq_some.mpr ⟨h.contents ▸ hmem, hfx, hne⟩)
  cases y with
  | epTxReady x =>
    left
    obtain ⟨hmem, hfx, hne⟩ := field_eq_some.mp hy
    rcases eq_or_ne x p with rfl | hxp
    · exact field_eq_some.mpr ⟨h.contents ▸ hmem, h.epTxReady.symm.trans hfx, hne⟩
    · rw [h.frame x hxp] at hfx
      exact field_eq_some.mpr ⟨h.contents ▸ hmem, hfx, hne⟩
  | epRxReady x =>
    rcases hold _ x hy with hx | ⟨rfl, hc⟩
    · exact Or.inl hx
    · rw [h.epRxReady] at hc
      simp [hc]
  | aepRxData x =>
    rcases hold _ x hy with hx | ⟨rfl, hc⟩
    · exact Or.inl hx
    · rw [h.aepRxData] at hc
      simp [hc]
  | copy i =>
    obtain ⟨reply, hreplies, hcap⟩ := h.replies
    rcases copy_eq_some hreplies hcap hy with hi | ⟨rfl, rfl⟩
    · exact Or.inl hi
    · simp

/-- A capability is received in the receive slot, if that is empty. -/
theorem receive_cspace {cap : Nat} (hcap : r.cap = some cap) (hempty : s.cspace s.thread.capReceivePath = none) :
    (s.receive r).cspace = Function.update s.cspace s.thread.capReceivePath (some (.received cap)) := by
  unfold receive
  rw [hcap]
  dsimp only
  rw [if_pos hempty]

/-! ## The invariant -/

/-- The socket `p` has kept the slot in which the capability of the request `r` was received. -/
structure BoundBy (s : UdpStack) (p : Ptr) (r : UdpRequest) (path : CPtr) : Prop where
  mem : p ∈ s.socketServers.contents
  id : (s.socketServers.mem p).socket.id = intOfWord r.mr1
  aepRxData : (s.socketServers.mem p).socket.aepRxData = path
  nonNull : path ≠ capNull
  cap : ∃ cap, r.cap = some cap ∧ s.cspace path = some (.received cap)

/-- A socket and the capability it has kept stay. -/
theorem BoundBy.keep {path : CPtr} (h : s.BoundBy p r path) (hmem : p ∈ s'.socketServers.contents)
    (hp : (s'.socketServers.mem p).socket = (s.socketServers.mem p).socket)
    (hkeep : ∀ c, s.cspace c ≠ none → s'.cspace c = s.cspace c) : s'.BoundBy p r path := by
  obtain ⟨cap, hcap, hslot⟩ := h.cap
  refine ⟨hmem, hp ▸ h.id, hp ▸ h.aepRxData, h.nonNull, cap, hcap, ?_⟩
  rw [hkeep path (by rw [hslot]; simp)]
  exact hslot

end UdpStack

/-- A `UDPSTACK_BIND_SOCKET`. -/
def UdpRequest.IsBind (r : UdpRequest) : Prop := UdpstackOpcode.ofWord r.mr0 = some .bindSocket

/-- The slots are kept apart and taken, the receive path is empty unless the server is about to replace it, and the bound
sockets are those of the requests that bound them. -/
structure RoutingInv (s : UdpStack) (requests : List (UdpRequest × CPtr)) : Prop where
  inv : UdpStackInv s
  apart : Apart s.slot?
  taken : Taken s.slot? s.cspace
  path : s.thread.pc ≠ .startRx →
    s.thread.capReceivePath = s.thread.rxReadyEpMint ∧ s.cspace s.thread.capReceivePath = none
  bound : ∀ p ∈ s.socketServers.contents, (s.socketServers.mem p).socket.aepRxData ≠ capNull →
    ∃ x ∈ requests, x.1.IsBind ∧ s.BoundBy p x.1 x.2
  requests : ∀ x ∈ requests, x.1.IsBind → ∃ p, s.BoundBy p x.1 x.2

namespace RoutingInv

variable {cfg : UdpStackConfig} {s s' : UdpStack} {requests : List (UdpRequest × CPtr)} {r : UdpRequest} {a : UdpAnswers}

/-- After the initialisation. -/
theorem of_init (h : s.Init cfg) (hempty : s.cspace s.thread.capReceivePath = none) : RoutingInv s [] := by
  obtain ⟨b, hsockets⟩ := h.socketServers
  obtain ⟨-, hnil⟩ := Pool.WellFormed.of_new b.malloc.injective hsockets
  have hnone : ∀ y, s.slot? y = none := by
    intro y
    cases y <;> simp [UdpStack.slot?, UdpStack.field, hnil, h.replies]
  refine ⟨.of_init h, ?_, ?_, fun _ => ⟨h.capReceivePath, hempty⟩, ?_, ?_⟩
  · intro x y c hx
    rw [hnone] at hx
    cases hx
  · intro x c hx
    rw [hnone] at hx
    cases hx
  · intro p hp
    rw [hnil] at hp
    cases hp
  · intro x hx
    cases hx

/-- A step that leaves the sockets, the CSpace and the copies as they are. -/
theorem of_eq (h : RoutingInv s requests) (hinv : UdpStackInv s') (hsockets : s'.socketServers = s.socketServers)
    (hcspace : s'.cspace = s.cspace) (hcopy : ∀ i, s'.slot? (.copy i) = s.slot? (.copy i))
    (hpath : s'.thread.pc ≠ .startRx →
      s'.thread.capReceivePath = s'.thread.rxReadyEpMint ∧ s.cspace s'.thread.capReceivePath = none) : RoutingInv s' requests := by
  have hslots : s'.slot? = s.slot? := by
    funext y
    cases y with
    | copy i => exact hcopy i
    | _ p => simp [UdpStack.slot?, UdpStack.field, hsockets]
  have hbound : ∀ {p r path}, s.BoundBy p r path → s'.BoundBy p r path := fun hb =>
    hb.keep (hsockets ▸ hb.mem) (by rw [hsockets]) fun c _ => by rw [hcspace]
  refine ⟨hinv, hslots ▸ h.apart, hslots ▸ hcspace ▸ h.taken, hcspace ▸ hpath, ?_, ?_⟩
  · intro p hp hne
    rw [hsockets] at hp hne
    obtain ⟨x, hx, hbind, hb⟩ := h.bound p hp hne
    exact ⟨x, hx, hbind, hbound hb⟩
  · intro x hx hbind
    obtain ⟨p, hb⟩ := h.requests x hx hbind
    exact ⟨p, hbound hb⟩

/-- A request that is not a `UDPSTACK_BIND_SOCKET` adds nothing to what has to be kept. -/
theorem snoc (h : RoutingInv s requests) {x : UdpRequest × CPtr} (hx : ¬ x.1.IsBind) : RoutingInv s (requests ++ [x]) := by
  refine ⟨h.inv, h.apart, h.taken, h.path, ?_, ?_⟩
  · intro p hp hne
    obtain ⟨y, hy, hb⟩ := h.bound p hp hne
    exact ⟨y, List.mem_append_left _ hy, hb⟩
  · intro y hy hbind
    rw [List.mem_append, List.mem_singleton] at hy
    rcases hy with hy | rfl
    · exact h.requests y hy hbind
    · exact absurd hbind hx

/-- `UDPSTACK_CREATE_SOCKET` takes two slots that were not in use. -/
theorem createSocket (h : RoutingInv s requests) (hpc : s.thread.pc = .recv) (htx : s.Unused a.epTxReady)
    (hmint : s.Unused a.txReadyEpMint) (hne : a.txReadyEpMint ≠ a.epTxReady) (hs : s.createSocket r a = .ok s') :
    RoutingInv s' requests := by
  obtain ⟨p, hc⟩ := h.inv.socketCreated hs
  obtain ⟨hpath, hempty⟩ := h.path (by rw [hpc]; simp)
  have hkeep : ∀ c, s.cspace c ≠ none → s'.cspace c = s.cspace c := fun c hcne =>
    hc.cspace.frame c (by rintro rfl; exact hcne htx.1) (by rintro rfl; exact hcne hmint.1)
  have hbound : ∀ {p' r path}, s.BoundBy p' r path → s'.BoundBy p' r path := by
    intro p' r path hb
    refine hb.keep ?_ (by rw [hc.frame p' hb.mem]) hkeep
    rw [hc.contents]
    exact List.mem_append_left _ hb.mem
  refine ⟨(h.inv.createSocket hs).1, ?_, ?_, ?_, ?_, ?_⟩
  · refine h.apart.grow h.taken ?_ ?_ fun y c => hc.slots
    · simpa using hne.symm
    · simpa using ⟨htx.1, hmint.1⟩
  · refine h.taken.grow (fun c hcne => by rw [hkeep c hcne]; exact hcne) ?_ fun y c => hc.slots
    simpa using ⟨hc.cspace.left, hc.cspace.right⟩
  · intro _
    obtain ⟨-, hpath', hmint'⟩ := hc.thread
    rw [hpath', hmint', hc.cspace.frame _ htx.2.symm hmint.2.symm]
    exact ⟨hpath, hempty⟩
  · intro x hx hnull
    rw [hc.contents, List.mem_append, List.mem_singleton] at hx
    rcases hx with hx | rfl
    · rw [hc.frame x hx] at hnull
      obtain ⟨y, hy, hbind, hb⟩ := h.bound x hx hnull
      exact ⟨y, hy, hbind, hbound hb⟩
    · exact absurd hc.aepRxData hnull
  · intro x hx hbind
    obtain ⟨p', hb⟩ := h.requests x hx hbind
    exact ⟨p', hbound hb⟩

/-- `UDPSTACK_BIND_SOCKET` keeps the capability that was received with it for the socket it names, and takes two slots that
were not in use. -/
theorem bindSocket (h : RoutingInv s requests) (hpc : s.thread.pc = .recv) {cap extraCaps : Nat} (hcap : r.cap = some cap)
    (hop : r.IsBind) (hnames : s.NamesUnbound r) (hrx : s.Unused a.epRxReady) (hmint : s.Unused a.rxReadyEpMint)
    (hne : a.rxReadyEpMint ≠ a.epRxReady) (hs : (s.receive r).bindSocket r extraCaps a = .ok s') :
    RoutingInv s' (requests ++ [(r, s.thread.capReceivePath)]) := by
  obtain ⟨hpath, hempty⟩ := h.path (by rw [hpc]; simp)
  have hreceive := UdpStack.receive_cspace hcap hempty
  have hinv : UdpStackInv (s.receive r) := h.inv.of_eq rfl rfl rfl
  obtain ⟨p, hb⟩ := hinv.socketBound hs
  -- the socket that the lookup found is the one that is not bound
  obtain ⟨q, hq, hqid, hqnull⟩ := hnames
  obtain ⟨hp, hpid⟩ := hb.found.of_exists (Or.inl ⟨q, hq, hqid⟩)
  have hpnull : (s.socketServers.mem p).socket.aepRxData = capNull := by
    rw [h.inv.id_inj hp hq (hpid.trans hqid.symm)]
    exact hqnull
  have hslot : s'.cspace s.thread.capReceivePath = some (.received cap) := by
    rw [hb.cspace.frame _ hrx.2.symm hmint.2.symm, hreceive, Function.update_self]
  have hkeep : ∀ c, s.cspace c ≠ none → s'.cspace c = s.cspace c := by
    intro c hcne
    have hcpath : c ≠ s.thread.capReceivePath := by
      rintro rfl
      exact hcne hempty
    rw [hb.cspace.frame c (by rintro rfl; exact hcne hrx.1) (by rintro rfl; exact hcne hmint.1), hreceive,
      Function.update_of_ne hcpath]
  have hslots : ∀ {y c}, s'.slot? y = some c → s.slot? y = some c ∨
      (y, c) ∈ [(SlotHolder.aepRxData p, s.thread.capReceivePath), (SlotHolder.epRxReady p, a.epRxReady),
        (SlotHolder.copy s.replies.length, a.rxReadyEpMint)] := by
    intro y c hy
    rw [hpath]
    exact hb.slots hy
  have hnew : s'.BoundBy p r s.thread.capReceivePath := by
    refine ⟨hb.contents ▸ hp, hb.id.trans hpid, ?_, ?_, cap, hcap, hslot⟩
    · rw [hpath]
      exact hb.aepRxData
    · rw [hpath]
      exact hb.nonNull
  have hold : ∀ {p' r path}, s.BoundBy p' r path → s'.BoundBy p' r path := by
    intro p' r path hb'
    have hne' : p' ≠ p := by
      rintro rfl
      exact hb'.nonNull (hb'.aepRxData.symm.trans hpnull)
    exact hb'.keep (hb.contents ▸ hb'.mem) (congrArg UdpSocketServer.socket (hb.frame p' hne')) hkeep
  refine ⟨(hinv.bindSocket hs).1, ?_, ?_, fun hpc' => absurd hb.thread hpc', ?_, ?_⟩
  · refine h.apart.grow h.taken ?_ ?_ fun y c => hslots
    · simpa using ⟨⟨hrx.2.symm, hmint.2.symm⟩, hne.symm⟩
    · simpa using ⟨hempty, hrx.1, hmint.1⟩
  · refine h.taken.grow (fun c hcne => by rw [hkeep c hcne]; exact hcne) ?_ fun y c => hslots
    have hslotne : s'.cspace s.thread.capReceivePath ≠ none := by
      rw [hslot]
      simp
    simpa using ⟨hslotne, hb.cspace.left, hb.cspace.right⟩
  · intro x hx hnull
    rcases eq_or_ne x p with rfl | hxp
    · exact ⟨_, List.mem_append_right _ (List.mem_singleton.mpr rfl), hop, hnew⟩
    · rw [hb.frame x hxp] at hnull
      obtain ⟨y, hy, hbind, hb'⟩ := h.bound x (hb.contents ▸ hx) hnull
      exact ⟨y, List.mem_append_left _ hy, hbind, hold hb'⟩
  · intro x hx hbind
    rw [List.mem_append, List.mem_singleton] at hx
    rcases hx with hx | rfl
    · obtain ⟨p', hb'⟩ := h.requests x hx hbind
      exact ⟨p', hold hb'⟩
    · exact ⟨p, hnew⟩

/-- A request that meets the condition. -/
theorem serve (h : RoutingInv s requests) (hpc : s.thread.pc = .recv) (hok : UdpRoutingOk s (.request r a))
    (hs : s.serve r a = .ok s') : RoutingInv s' (requests ++ [(r, s.thread.capReceivePath)]) := by
  have hinv := (h.inv.serve hs).1
  obtain ⟨_, -, hs⟩ := bind_ok hs
  unfold UdpRoutingOk at hok
  dsimp only at hok
  generalize hop : UdpstackOpcode.ofWord r.mr0 = op at hs hok
  have hnot : op ≠ some .bindSocket → ¬ r.IsBind := fun hne hbind => hne (hop.symm.trans hbind)
  cases op with
  | none =>
    rw [UdpStack.receive_of_none hok] at hs
    cases hs
    exact h.snoc (hnot (by simp))
  | some op =>
    cases op with
    | createSocket =>
      obtain ⟨hcap, htx, hmint, hne⟩ := hok
      rw [UdpStack.receive_of_none hcap] at hs
      exact (h.createSocket hpc htx hmint hne hs).snoc (hnot (by simp))
    | bindSocket =>
      obtain ⟨hcap, hnames, hrx, hmint, hne⟩ := hok
      obtain ⟨cap, hcap⟩ := Option.ne_none_iff_exists'.mp hcap
      exact h.bindSocket hpc hcap hop hnames hrx hmint hne hs
    | connectSocket =>
      rw [UdpStack.receive_of_none hok] at hs
      cases hs
      refine (h.of_eq hinv rfl rfl ?_ h.path).snoc (hnot (by simp))
      intro i
      exact UdpStack.copy_of_none rfl rfl

/-- What happens after a reply: a new receive slot, if the last one was kept for a socket. -/
theorem afterReply (h : RoutingInv s requests) {error : Int} {slot : CPtr} (hok : UdpRoutingOk s (.start error slot))
    (hs : s.afterReply error slot = .next s') : RoutingInv s' requests := by
  obtain ⟨thread, rfl, hpath⟩ := UdpStack.afterReply_ok hs
  refine h.of_eq (h.inv.of_eq rfl rfl rfl) rfl rfl (fun _ => rfl) fun _ => ?_
  dsimp only
  rcases hpath with ⟨hpc, hcap, hmint⟩ | ⟨hpc, hcap, hmint⟩
  · rw [hcap, hmint]
    exact h.path (by rw [hpc]; simp)
  · rw [hcap, hmint]
    exact ⟨rfl, (hok hpc).1⟩

/-- A step that meets the condition. -/
theorem step (h : RoutingInv s requests) {act : UdpStackAction} (hok : UdpRoutingOk s act) (hs : s.step cfg act = .next s') :
    RoutingInv s' (recordRequest requests s act) := by
  have hinv := (h.inv.step hs).1
  cases act with
  | createClient id =>
    obtain ⟨clients, -, hs⟩ := bind_ok (Outcome.ofExcept_eq_next.mp hs)
    cases hs
    exact h.of_eq hinv rfl rfl (fun _ => rfl) h.path
  | createInterface irqNum b =>
    obtain ⟨⟨_, ifaces⟩, -, hs⟩ := bind_ok (Outcome.ofExcept_eq_next.mp hs)
    cases hs
    exact h.of_eq hinv rfl rfl (fun _ => rfl) h.path
  | addVface iface addr mask gw =>
    obtain ⟨-, hs⟩ := Outcome.guard_eq_next.mp hs
    obtain ⟨ifaces, -, hs⟩ := bind_ok (Outcome.ofExcept_eq_next.mp hs)
    cases hs
    exact h.of_eq hinv rfl rfl (fun _ => rfl) h.path
  | request r a =>
    obtain ⟨hpc, hs⟩ := Outcome.guard_eq_next.mp hs
    exact h.serve hpc hok (Outcome.ofExcept_eq_next.mp hs)
  | start error slot => exact h.afterReply hok hs

/-- Every run whose steps meet the condition. -/
theorem of_run {x : UdpStack × List (UdpRequest × CPtr)}
    (hr : (udpRoutingMachine cfg).ReachableVia (fun x act => UdpRoutingOk x.1 act) x) : RoutingInv x.1 x.2 := by
  induction hr with
  | init hi =>
    obtain ⟨⟨hinit, hempty⟩, hnil⟩ := hi
    rw [hnil]
    exact .of_init hinit hempty
  | step act _ hok hs ih =>
    obtain ⟨hs, hrecord⟩ := Machine.recorded_step.mp hs
    rw [hrecord]
    exact ih.step hok hs

end RoutingInv

/-- In every run of requests that meet the condition, with allocators that return slots that are not in use: whenever the
server waits, its receive path names an empty slot that nothing is kept in; a socket is bound exactly when there was a
`UDPSTACK_BIND_SOCKET` for it, and then keeps the slot that this request's capability was received in; and the slots that
are kept, in the sockets and as copies for the clients, are taken and pairwise distinct. -/
theorem udp_capability_routing (cfg : UdpStackConfig) (s : UdpStack) (requests : List (UdpRequest × CPtr))
    (hr : (udpRoutingMachine cfg).ReachableVia (fun x act => UdpRoutingOk x.1 act) (s, requests)) :
    (s.thread.pc = .recv → s.cspace s.thread.capReceivePath = none ∧ ∀ x, s.slot? x ≠ some s.thread.capReceivePath) ∧
    (∀ p ∈ s.socketServers.contents, (s.socketServers.mem p).socket.aepRxData ≠ capNull →
      ∃ x ∈ requests, x.1.IsBind ∧ s.BoundBy p x.1 x.2) ∧
    (∀ x ∈ requests, x.1.IsBind → ∃ p, s.BoundBy p x.1 x.2) ∧
    (∀ x c, s.slot? x = some c → s.cspace c ≠ none) ∧
    ∀ x y c, s.slot? x = some c → s.slot? y = some c → x = y := by
  have h := RoutingInv.of_run hr
  refine ⟨?_, h.bound, h.requests, h.taken, h.apart⟩
  intro hpc
  obtain ⟨-, hempty⟩ := h.path (by rw [hpc]; simp)
  exact ⟨hempty, fun x hx => h.taken x _ hx hempty⟩

/-- A `UDPSTACK_BIND_SOCKET` for a socket, with a capability. -/
def bindTo (socket : Word) (cap : Nat) : UdpRequest where
  mr0 := 301
  mr1 := socket
  mr2 := 7400
  mr3 := 0
  argsNum := 3
  cap := some cap

/-- A run of `twoSockets` in which a socket is created and bound. -/
theorem exists_bound : ∃ x, (udpRoutingMachine twoSockets).ReachableVia (fun x act => UdpRoutingOk x.1 act) x ∧
    decide (x.2 = [(createFor 1, 5), (bindTo 1 99, 5)] ∧ x.1.thread.pc = .recv ∧ x.1.thread.capReceivePath = 14) = true := by
  obtain ⟨s, hi, hempty, hrun⟩ := exists_twoSockets_init (fun s =>
    ((udpRoutingMachine twoSockets).execVia (fun x act => UdpRoutingOk x.1 act) (s, []) [.createClient 1,
      .request (createFor 1) (answersFrom 10), .start 0 0, .request (bindTo 1 99) (answersFrom 12), .start 0 14]).any fun x =>
      x.2 = [(createFor 1, 5), (bindTo 1 99, 5)] ∧ x.1.thread.pc = .recv ∧ x.1.thread.capReceivePath = 14) rfl
  have hr : (udpRoutingMachine twoSockets).ReachableVia (fun x act => UdpRoutingOk x.1 act) (s, []) := .init ⟨⟨hi, hempty⟩, rfl⟩
  exact hr.exists_of_exec _ _ hrun

/-- A socket of `twoSockets` is created and bound: its capability, received in the first slot, is where the socket keeps it. -/
theorem udp_capability_routing_twoSockets : ∃ s requests,
    (udpRoutingMachine twoSockets).ReachableVia (fun x act => UdpRoutingOk x.1 act) (s, requests) ∧
    requests = [(createFor 1, 5), (bindTo 1 99, 5)] ∧ s.thread.pc = .recv ∧ s.thread.capReceivePath = 14 ∧
    s.cspace s.thread.capReceivePath = none ∧ ∃ p, s.BoundBy p (bindTo 1 99) 5 := by
  obtain ⟨x, hr, hx⟩ := exists_bound
  simp only [decide_eq_true_eq] at hx
  obtain ⟨s, requests⟩ := x
  obtain ⟨hrequests, hpc, hpath⟩ := hx
  obtain ⟨hrecv, -, hbound, -, -⟩ := udp_capability_routing twoSockets s requests hr
  refine ⟨s, requests, hr, hrequests, hpc, hpath, (hrecv hpc).1, hbound (bindTo 1 99, 5) ?_ rfl⟩
  dsimp only at hrequests
  rw [hrequests]
  decide

end Sel4Osapi
