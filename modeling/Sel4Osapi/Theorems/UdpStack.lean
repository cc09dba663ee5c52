import Sel4Osapi.Lemmas.UdpStack

/-!
# On what the requests to the UDP stack are carried out

A request is to be carried out on the client, the interface and the socket that it names. The server does not reset the
variables of its lookups, so this holds as long as what a request names exists, or an assertion stops the request: the
variable of the lookup is still null, or the socket in it is already bound.
-/

namespace Sel4Osapi

open Transition

instance (iface : NetIface) (addr : Word) : Decidable (iface.HasAddr addr) :=
  inferInstanceAs (Decidable (∃ v ∈ iface.vfaces.contents, addr = 0 ∨ (iface.vfaces.mem v).ipAddr = addr))

namespace UdpStack

/-- There is a client with the id in a request. -/
def NamesClient (s : UdpStack) (r : UdpRequest) : Prop := ∃ c ∈ s.clients.contents, (s.clients.mem c).id = intOfWord r.mr1

/-- There is an interface with the address in a request. -/
def NamesIface (s : UdpStack) (r : UdpRequest) : Prop := ∃ iface ∈ s.ifaces.contents, (s.ifaces.mem iface).HasAddr r.mr2

/-- There is a socket with the id in a request. -/
def NamesSocket (s : UdpStack) (r : UdpRequest) : Prop :=
  ∃ p ∈ s.socketServers.contents, (s.socketServers.mem p).socket.id = intOfWord r.mr1

instance (s : UdpStack) (r : UdpRequest) : Decidable (s.NamesClient r) := inferInstanceAs (Decidable (∃ c ∈ _, _))

instance (s : UdpStack) (r : UdpRequest) : Decidable (s.NamesIface r) := inferInstanceAs (Decidable (∃ iface ∈ _, _))

instance (s : UdpStack) (r : UdpRequest) : Decidable (s.NamesSocket r) := inferInstanceAs (Decidable (∃ p ∈ _, _))

/-- What a request names exists. -/
def Names (s : UdpStack) (r : UdpRequest) : Prop :=
  match UdpstackOpcode.ofWord r.mr0 with
  | some .createSocket => s.NamesClient r ∧ s.NamesIface r
  | some .bindSocket => s.NamesSocket r
  | some .connectSocket | none => True

/-- A reply was made for what its request names: to a `UDPSTACK_CREATE_SOCKET` with a socket of that client, on an interface
with that address, and to a `UDPSTACK_BIND_SOCKET` for the one socket with that id. -/
def CarriedOut (s : UdpStack) (reply : UdpReply) : Prop :=
  let r := reply.request
  match UdpstackOpcode.ofWord r.mr0 with
  | some .createSocket => ∃ p, reply.socketServer = some p ∧ p ∈ s.socketServers.contents ∧
    ((s.socketServers.mem p).client ∈ s.clients.contents ∧
      (s.clients.mem (s.socketServers.mem p).client).id = intOfWord r.mr1) ∧
    ((s.socketServers.mem p).iface ∈ s.ifaces.contents ∧
      (s.ifaces.mem (s.socketServers.mem p).iface).HasAddr r.mr2)
  | some .bindSocket => ∃ p, reply.socketServer = some p ∧ p ∈ s.socketServers.contents ∧
    (s.socketServers.mem p).socket.id = intOfWord r.mr1 ∧
    ∀ q ∈ s.socketServers.contents, (s.socketServers.mem q).socket.id = intOfWord r.mr1 → q = p
  | some .connectSocket | none => True

end UdpStack

/-- The condition on a step under which a request is carried out on what it names: that exists, or an assertion stops the
request. -/
def UdpRequestOk (s : UdpStack) : UdpStackAction → Prop
  | .request r _ =>
    match UdpstackOpcode.ofWord r.mr0 with
    | some .createSocket => r.argsNum = 3 → (s.NamesClient r ∧ s.NamesIface r) ∨ (¬ s.NamesClient r ∧ s.thread.client = none) ∨
      (¬ s.NamesIface r ∧ s.thread.iface = none)
    | some .bindSocket => r.argsNum = 3 → s.extraCaps r = 1 → s.NamesSocket r ∨
      ∀ p, s.thread.socketServer = some p → (s.socketServers.mem p).socket.port ≠ 0
    | some .connectSocket | none => True
  | _ => True

instance (s : UdpStack) : (act : UdpStackAction) → Decidable (UdpRequestOk s act)
  | .request r a =>
    match h : UdpstackOpcode.ofWord r.mr0 with
    | none | some .connectSocket => .isTrue (by simp only [UdpRequestOk, h])
    | some .createSocket => decidable_of_iff (r.argsNum = 3 → (s.NamesClient r ∧ s.NamesIface r) ∨
        (¬ s.NamesClient r ∧ s.thread.client = none) ∨ (¬ s.NamesIface r ∧ s.thread.iface = none)) (by simp only [UdpRequestOk, h])
    | some .bindSocket => decidable_of_iff (r.argsNum = 3 → s.extraCaps r = 1 → s.NamesSocket r ∨
        ∀ p ∈ s.thread.socketServer, (s.socketServers.mem p).socket.port ≠ 0) (by simp only [UdpRequestOk, h]; rfl)
  | .createClient _ | .createInterface .. | .addVface .. | .start .. => .isTrue trivial

variable {s s' : UdpStack} {r : UdpRequest} {a : UdpAnswers} {reply : UdpReply}

/-- What a reply was made for stays. -/
theorem UdpStack.CarriedOut.extend (h : s.CarriedOut reply) (hext : s.Extends s') (hinv : UdpStackInv s') :
    s'.CarriedOut reply := by
  unfold CarriedOut at h ⊢
  dsimp only at h ⊢
  split at h
  · obtain ⟨p, hp, hmem, ⟨hc, hid⟩, hi, haddr⟩ := h
    obtain ⟨hmem', -, hclient, hiface⟩ := hext.socketServers p hmem
    obtain ⟨hc', hid'⟩ := hext.clients _ hc
    obtain ⟨hi', haddr'⟩ := hext.ifaces _ hi
    refine ⟨p, hp, hmem', ?_, ?_⟩
    · rw [hclient]
      exact ⟨hc', hid'.trans hid⟩
    · rw [hiface]
      exact ⟨hi', haddr' _ haddr⟩
  · obtain ⟨p, hp, hmem, hid, -⟩ := h
    obtain ⟨hmem', hid', -, -⟩ := hext.socketServers p hmem
    exact ⟨p, hp, hmem', hid'.trans hid, fun q hq hqid => hinv.id_inj hq hmem' (hqid.trans (hid'.trans hid).symm)⟩
  · trivial
  · trivial

/-- Under the condition, what a request names exists if the request was served. -/
theorem UdpStack.Served.names (h : s.Served r s') (hok : UdpRequestOk s (.request r a)) : s.Names r := by
  unfold Served at h
  unfold Names
  simp only [UdpRequestOk] at hok
  generalize UdpstackOpcode.ofWord r.mr0 = op at h hok ⊢
  cases op with
  | none => trivial
  | some op =>
    cases op with
    | createSocket =>
      obtain ⟨hargs, p, mrs, cap, -, -, hclient, hiface⟩ := h
      rcases hok hargs with hnames | ⟨hnot, hnull⟩ | ⟨hnot, hnull⟩
      · exact hnames
      · exact absurd ⟨_, hclient.of_exists (Or.inr hnull)⟩ hnot
      · exact absurd ⟨_, hiface.of_exists (Or.inr hnull)⟩ hnot
    | bindSocket =>
      obtain ⟨hargs, hcaps, p, mrs, cap, -, hport, hfound⟩ := h
      rcases hok hargs hcaps with hnames | hbound
      · exact hnames
      · rcases hfound with hfound | ⟨-, hvar⟩
        · exact ⟨p, hfound⟩
        · exact absurd hport (hbound p hvar)
    | connectSocket => trivial

/-- A request whose names exist is carried out on what they name. -/
theorem UdpStack.Served.carriedOut (h : s.Served r s') (hnames : s.Names r) (hext : s.Extends s') (hinv : UdpStackInv s')
    (hc : s'.clients = s.clients) (hi : s'.ifaces = s.ifaces) (hreply : reply ∈ s'.replies) :
    reply ∈ s.replies ∨ s'.CarriedOut reply := by
  unfold Served at h
  unfold Names at hnames
  split at h
  · rename_i hop
    obtain ⟨-, p, mrs, cap, hreplies, hmem, hclient, hiface⟩ := h
    simp only [hop] at hnames
    rw [hreplies, List.mem_append, List.mem_singleton] at hreply
    refine hreply.imp_right ?_
    intro e
    simp only [e, CarriedOut, hop, hc, hi]
    exact ⟨p, rfl, hmem, hclient.of_exists (Or.inl hnames.1), hiface.of_exists (Or.inl hnames.2)⟩
  · rename_i hop
    obtain ⟨-, -, p, mrs, cap, hreplies, -, hfound⟩ := h
    simp only [hop] at hnames
    obtain ⟨hp, hid⟩ := hfound.of_exists (Or.inl hnames)
    obtain ⟨hp', hid', -, -⟩ := hext.socketServers p hp
    rw [hreplies, List.mem_append, List.mem_singleton] at hreply
    refine hreply.imp_right ?_
    intro e
    simp only [e, CarriedOut, hop]
    exact ⟨p, rfl, hp', hid'.trans hid, fun q hq hqid => hinv.id_inj hq hp' (hqid.trans (hid'.trans hid).symm)⟩
  · rename_i hop
    obtain ⟨mrs, cap, hreplies⟩ := h
    rw [hreplies, List.mem_append, List.mem_singleton] at hreply
    refine hreply.imp_right ?_
    intro e
    simp only [e, CarriedOut, hop]
  · rw [h] at hreply
    exact Or.inl hreply

/-- A step that meets the condition keeps every reply right. -/
theorem UdpStackInv.step_carriedOut {cfg : UdpStackConfig} {act : UdpStackAction} (h : UdpStackInv s)
    (hreplies : ∀ reply ∈ s.replies, s.CarriedOut reply) (hok : UdpRequestOk s act) (hs : s.step cfg act = .next s') :
    UdpStackInv s' ∧ ∀ reply ∈ s'.replies, s'.CarriedOut reply := by
  obtain ⟨hinv, hext, hserved⟩ := h.step hs
  refine ⟨hinv, ?_⟩
  intro reply hreply
  rcases hserved with hsame | ⟨r, a, rfl, hc, hi, hserved⟩
  · exact (hreplies reply (hsame ▸ hreply)).extend hext hinv
  · rcases hserved.carriedOut (hserved.names hok) hext hinv hc hi hreply with hold | hnew
    · exact (hreplies reply hold).extend hext hinv
    · exact hnew

/-- In every run whose steps meet `UdpRequestOk`, in every state: every reply was made for what its request names, and of
the requests that are replied to next, those that meet the condition are exactly those whose names exist. -/
theorem udp_requests_separate (cfg : UdpStackConfig) (s : UdpStack) (hr : (udpStackMachine cfg).ReachableVia UdpRequestOk s) :
    (∀ reply ∈ s.replies, s.CarriedOut reply) ∧
    ∀ r a s', s.step cfg (.request r a) = .next s' → s'.replies ≠ s.replies →
      (UdpRequestOk s (.request r a) ↔ s.Names r) := by
  obtain ⟨hinv, hreplies⟩ : UdpStackInv s ∧ ∀ reply ∈ s.replies, s.CarriedOut reply := by
    refine hr.invariant (P := fun s => UdpStackInv s ∧ ∀ reply ∈ s.replies, s.CarriedOut reply) ?_
      fun s act s' hP hok hs => hP.1.step_carriedOut hP.2 hok hs
    intro s hi
    refine ⟨.of_init hi, ?_⟩
    rw [hi.replies]
    simp
  refine ⟨hreplies, fun r a s' hs hne => ⟨?_, ?_⟩⟩
  · intro hok
    obtain ⟨-, -, hsame | ⟨r', a', hact, -, -, hserved⟩⟩ := hinv.step hs
    · exact absurd hsame hne
    · cases hact
      exact hserved.names hok
  · intro hnames
    unfold UdpRequestOk
    unfold UdpStack.Names at hnames
    dsimp only
    split at hnames
    · exact fun _ => Or.inl hnames
    · exact fun _ _ => Or.inl hnames
    · trivial
    · trivial

/-- A system with room for two processes and two sockets, and one interface with the address 10.0.0.10. -/
def twoSockets : UdpStackConfig where
  processMax := 2
  netPhysIfaces := 1
  netVfacesMax := 1
  udpMaxSockets := 2
  ipAddrDefault := 0x0A00000A
  ipMaskDefault := 0x00FFFFFF
  ipGwDefault := 0x0100000A

/-- A `UDPSTACK_CREATE_SOCKET` for a client, with the address of `twoSockets`. -/
def createFor (client : Word) : UdpRequest where
  mr0 := 300
  mr1 := client
  mr2 := 0x0A00000A
  mr3 := 0
  argsNum := 3
  cap := none

/-- Answers to the calls made for a request, with the slots from `slot` on. -/
def answersFrom (slot : CPtr) : UdpAnswers where
  udpNew := some 70
  epTxReady := slot
  txThread := some 71
  txReadyEpMint := slot + 1
  msgs := some 72
  msgsMutex := some 73
  rxThread := some 74
  epRxReady := slot
  rxReadyEpMint := slot + 1
  udpBind := 0

/-- `twoSockets` after the initialisation, with slot 5 as its first receive slot. -/
def twoSocketsStart : Res UdpStack := do
  let clients ← simplePoolNewPlain (blocksOf ⟨0⟩) twoSockets.processMax
  let vfaces ← simplePoolNewPlain (blocksOf ⟨0, 0, 0⟩) 1
  let ifaces ← networkInitialize twoSockets 1 (blocksOf ⟨vfaces⟩) (blocksOf ⟨0, 0, 0⟩)
  let socketServers ← simplePoolNewPlain (blocksOf ⟨0, ⟨0, 0, 0, 0, 0, 0⟩, 0, 0, 0, none, none, none⟩) twoSockets.udpMaxSockets
  pure ⟨clients, ifaces, socketServers, ⟨.recv, none, none, none, 0, 5, 5⟩, fun _ => none, []⟩

/-- It is a state the system starts in, with an empty CSpace. -/
theorem init_twoSocketsStart {s : UdpStack} (hs : twoSocketsStart = .ok s) :
    s.Init twoSockets ∧ s.cspace s.thread.capReceivePath = none := by
  obtain ⟨clients, hclients, hs⟩ := bind_ok hs
  obtain ⟨_, -, hs⟩ := bind_ok hs
  obtain ⟨ifaces, hifaces, hs⟩ := bind_ok hs
  obtain ⟨socketServers, hsockets, hs⟩ := bind_ok hs
  cases hs
  exact ⟨⟨⟨_, hclients⟩, ⟨_, _, _, hifaces⟩, ⟨_, hsockets⟩, rfl, rfl, rfl, rfl, rfl, (by decide : (5 : CPtr) ≠ capNull), rfl, rfl⟩, rfl⟩

/-- What can be computed of `twoSocketsStart` holds of an initial state. -/
theorem exists_twoSockets_init (P : UdpStack → Bool) (h : twoSocketsStart.toOption.any P = true) :
    ∃ s, s.Init twoSockets ∧ s.cspace s.thread.capReceivePath = none ∧ P s = true := by
  obtain ⟨s, hs, hP⟩ := exists_ok_of_any h
  obtain ⟨hi, hempty⟩ := init_twoSocketsStart hs
  exact ⟨s, hi, hempty, hP⟩

/-- A `UDPSTACK_BIND_SOCKET` of a socket, with a notification. -/
def bindOf (socket : Word) : UdpRequest where
  mr0 := 301
  mr1 := socket
  mr2 := 7400
  mr3 := 0
  argsNum := 3
  cap := some 9

/-- Two clients of `twoSockets` have a socket created, and that of the second one is bound. -/
def createTwoAndBind : List UdpStackAction :=
  [.createClient 1, .createClient 2, .request (createFor 1) (answersFrom 10), .start 0 0, .request (createFor 2) (answersFrom 12),
    .start 0 0, .request (bindOf 2) (answersFrom 14)]

/-- The three requests are replied to, and carried out for the client and the socket that each names. -/
theorem udp_requests_separate_createTwoAndBind : ∃ s, (udpStackMachine twoSockets).ReachableVia UdpRequestOk s ∧
    s.replies.map UdpReply.request = [createFor 1, createFor 2, bindOf 2] ∧ ∀ reply ∈ s.replies, s.CarriedOut reply := by
  obtain ⟨s₀, hi, -, hrun⟩ := exists_twoSockets_init (fun s =>
    ((udpStackMachine twoSockets).execVia UdpRequestOk s createTwoAndBind).any fun s =>
      s.replies.map UdpReply.request = [createFor 1, createFor 2, bindOf 2]) (by decide +kernel)
  obtain ⟨s, hr, hs⟩ := (Machine.ReachableVia.init hi).exists_of_exec _ _ hrun
  exact ⟨s, hr, of_decide_eq_true hs, (udp_requests_separate twoSockets s hr).1⟩

/-- Without the condition a request can be carried out for another client: in `twoSockets`, after a request of client 1, one
that names a client 99 which does not exist. -/
theorem udp_requests_not_separate : ¬ ∀ cfg s, (udpStackMachine cfg).Reachable s →
    (∀ reply ∈ s.replies, s.CarriedOut reply) ∧
    ∀ r a s', s.step cfg (.request r a) = .next s' → s'.replies ≠ s.replies → s.Names r := by
  intro hall
  obtain ⟨s₀, hi, -, hrun⟩ := exists_twoSockets_init (fun s =>
    ((udpStackMachine twoSockets).exec s [.createClient 1, .request (createFor 1) (answersFrom 10), .start 0 0,
      .request (createFor 99) (answersFrom 12)]).any fun s =>
      s.replies.map UdpReply.request = [createFor 1, createFor 99] ∧ ¬ s.NamesClient (createFor 99)) rfl
  obtain ⟨s, hr, hs⟩ := (Machine.Reachable.init hi).exists_of_exec _ _ hrun
  simp only [Bool.decide_and, Bool.and_eq_true, decide_eq_true_eq, decide_not, Bool.not_eq_true', decide_eq_false_iff_not] at hs
  obtain ⟨hreplies, hnot⟩ := hs
  have hmem : createFor 99 ∈ s.replies.map UdpReply.request := by
    rw [hreplies]
    decide
  obtain ⟨reply, hreply, hrequest⟩ := List.mem_map.mp hmem
  obtain ⟨p, -, -, ⟨hclient, hid⟩, -⟩ : s.CarriedOut { reply with request := createFor 99 } := by
    rw [← hrequest]
    exact (hall twoSockets s hr).1 reply hreply
  exact hnot ⟨_, hclient, hid⟩

end Sel4Osapi
