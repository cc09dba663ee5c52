import Sel4Osapi.System
import Sel4Osapi.Lemmas.Numbered
import Sel4Osapi.Theorems.Release
import Sel4Osapi.Theorems.UdpStack

/-!
# The ids of the system

An id is the number of entries that a pool has at an allocation, so that ids are unique only as long as none of the pools
gets an entry back, and the ids of a process in three pools are equal only as long as these grow together. Both hold in
every run: a lookup by an id that exists finds the one that was created with it.
-/

namespace Sel4Osapi

open Transition

/-! ## What does not touch the clients -/

/-- Whatever the server and its calls do, the clients stay as they are. -/
theorem SerialSystem.step_clients {s s' : SerialSystem} {act : SerialAction} (hact : ∀ page, act ≠ .createClient page)
    (hs : s.step act = .next s') : s'.clients = s.clients := by
  cases act with
  | createClient page => exact absurd rfl (hact page)
  | start client dev request =>
    obtain ⟨-, hs⟩ := Outcome.guard_eq_next.mp hs
    obtain ⟨_, -, hs⟩ := bind_ok (Outcome.ofExcept_eq_next.mp hs)
    cases hs
    rfl
  | call k =>
    unfold SerialSystem.step SerialSystem.callStep at hs
    dsimp only at hs
    split at hs
    · cases hs
    · obtain ⟨-, hs⟩ := Outcome.guard_eq_next.mp hs
      cases hs
      rfl
    · split at hs <;> cases hs <;> rfl
    · obtain ⟨-, hs⟩ := Outcome.guard_eq_next.mp hs
      cases hs
      rfl
    · cases hs
    · split at hs <;> cases hs <;> rfl
    · cases hs
      rfl
    · cases hs
  | server time char error =>
    unfold SerialSystem.step SerialSystem.serverStep at hs
    dsimp only at hs
    split at hs
    · cases hs
    · obtain ⟨_, _, _, -, -, -, -, _, -, hs'⟩ := SerialSystem.lookupStep_cases (Outcome.ofExcept_eq_next.mp hs)
      rcases hs' with ⟨-, rfl⟩ | ⟨-, rfl⟩ | ⟨-, rfl⟩ | ⟨-, rfl⟩ <;> rfl
    · split at hs
      · cases hs
        unfold SerialSystem.executeStep
        dsimp only
        split <;> (try split) <;> rfl
      · cases hs

/-- Whatever else the UDP stack does, the clients stay as they are, and the pool of sockets as large as it is. -/
theorem UdpStackInv.step_clients {cfg : UdpStackConfig} {s s' : UdpStack} (h : UdpStackInv s) {act : UdpStackAction}
    (hact : ∀ id, act ≠ .createClient id) (hs : s.step cfg act = .next s') :
    s'.clients = s.clients ∧ s'.socketServers.size = s.socketServers.size := by
  cases act with
  | createClient id => exact absurd rfl (hact id)
  | createInterface irqNum b =>
    obtain ⟨⟨_, ifaces⟩, -, hs⟩ := bind_ok (Outcome.ofExcept_eq_next.mp hs)
    cases hs
    exact ⟨rfl, rfl⟩
  | addVface iface addr mask gw =>
    obtain ⟨-, hs⟩ := Outcome.guard_eq_next.mp hs
    obtain ⟨ifaces, -, hs⟩ := bind_ok (Outcome.ofExcept_eq_next.mp hs)
    cases hs
    exact ⟨rfl, rfl⟩
  | request r a =>
    obtain ⟨-, hs⟩ := Outcome.guard_eq_next.mp hs
    have hs := Outcome.ofExcept_eq_next.mp hs
    refine ⟨(h.serve hs).2.2.1, ?_⟩
    have hreceive : UdpStackInv (s.receive r) := h.of_eq rfl rfl rfl
    obtain ⟨_, -, hs⟩ := bind_ok hs
    generalize UdpstackOpcode.ofWord r.mr0 = op at hs
    cases op with
    | none =>
      cases hs
      rfl
    | some op =>
      cases op with
      | createSocket =>
        obtain ⟨p, hp⟩ := hreceive.socketCreated hs
        exact hp.size
      | bindSocket =>
        obtain ⟨p, hp⟩ := hreceive.socketBound hs
        exact hp.size
      | connectSocket =>
        cases hs
        rfl
  | start error rxReadyEpMint =>
    obtain ⟨thread, rfl, -⟩ := UdpStack.afterReply_ok hs
    exact ⟨rfl, rfl⟩

/-! ## Threads -/

/-- The threads of a task are numbered, and its main thread is number zero. -/
structure Task.Ids (cfg : ThreadConfig) (t : Task) : Prop where
  pool : t.PoolInv cfg
  tids : t.threads.Numbered fun thread => thread.info.tid
  main : t.mainThread.tid = 0

namespace Task.Ids

variable {cfg : ThreadConfig} {t t' : Task}

/-- A task that starts. -/
theorem of_init (h : t.Init cfg) : t.Ids cfg := by
  have hpool := Task.PoolInv.of_init h
  obtain ⟨waitAep, ipc, hmain⟩ := h.mainThread
  refine ⟨hpool, .of_nil (hpool.contents.trans h.created), ?_⟩
  rw [hmain]
  rfl

/-- A thread that is created gets the next number; a deletion takes nothing away. -/
theorem step (h : t.Ids cfg) {act : ThreadAction} (hs : t.step act = .next t') : t'.Ids cfg := by
  have hpool := h.pool.step hs
  cases act with
  | create threadRoutine threadArg priority a =>
    obtain ⟨⟨thread, _⟩, hcreate, hs⟩ := bind_ok (Outcome.ofExcept_eq_next.mp hs)
    cases hs
    obtain ⟨⟨p, threads⟩, halloc, hcreate⟩ := bind_ok hcreate
    obtain ⟨p', hp, hcreate⟩ := bind_ok hcreate
    obtain ⟨localEndpoint, -, hcreate⟩ := bind_ok hcreate
    obtain ⟨threadAep, -, hcreate⟩ := bind_ok hcreate
    obtain ⟨ipc, -, hcreate⟩ := bind_ok hcreate
    obtain ⟨_, -, hcreate⟩ := bind_ok hcreate
    cases hcreate
    cases of_checkSome_ok hp
    exact ⟨hpool, h.tids.alloc_write h.pool.wf halloc rfl rfl, h.main⟩
  | delete p =>
    simp only [Task.step, Outcome.guard_eq_next, Outcome.next.injEq] at hs
    obtain ⟨-, rfl⟩ := hs
    exact ⟨hpool, h.tids, h.main⟩

end Task.Ids

/-! ## The invariant -/

namespace System

/-- The pid of a process. -/
def pid (s : System) (p : Ptr) : Word := (s.process.processes.mem p).env.pid

/-- What is known of a socket that was created: it is in the pool of its process and in that of the server, with the same id. -/
def SocketOk (s : System) (x : SocketRecord) : Prop :=
  ∃ t, s.tasks x.process = some t ∧ x.socket ∈ t.sockets.contents ∧ x.server ∈ s.udp.socketServers.contents ∧
    (t.sockets.mem x.socket).id = (s.udp.socketServers.mem x.server).socket.id

/-- The processes and their clients: three pools that grow together. -/
structure ProcessIds (cfg : SystemConfig) (s : System) : Prop where
  pool : s.process.PoolInv cfg.process
  pids : ∀ (i : Nat) p, s.process.created[i]? = some p → s.pid p = UInt32.ofInt (i + 1)
  ipc : s.udp.clients.WellFormed
  ipcIds : s.udp.clients.Numbered IpcClient.id
  ipcLength : s.udp.clients.contents.length = s.process.created.length
  ipcClient : ∀ (i : Nat) p, s.process.created[i]? = some p → s.ipcClient p = s.udp.clients.contents[i]?
  serial : s.serial.clients.WellFormed
  serialIds : s.serial.clients.Numbered SerialClient.id
  serialLength : cfg.process.serialServerEp.isSome → s.serial.clients.contents.length = s.process.created.length
  serialClient : cfg.process.serialServerEp.isSome → ∀ (i : Nat) p, s.process.created[i]? = some p →
    s.serialClient p = s.serial.clients.contents[i]?

/-- The sockets of the processes and those of the server. -/
structure SocketIds (cfg : SystemConfig) (s : System) : Prop where
  udp : UdpStackInv s.udp
  size : s.udp.socketServers.size = cfg.udp.udpMaxSockets
  pools : ∀ p t, s.tasks p = some t → t.sockets.WellFormed
  recorded : ∀ x ∈ s.sockets, s.SocketOk x
  complete : ∀ p t, s.tasks p = some t → ∀ q ∈ t.sockets.contents, ∃ x ∈ s.sockets, x.process = p ∧ x.socket = q
  servers : (s.sockets.map SocketRecord.server).Nodup

/-- The threads of all the tasks. -/
structure ThreadIds (cfg : SystemConfig) (s : System) : Prop where
  root : s.rootTask.Ids cfg.thread
  user : ∀ p t, s.tasks p = some t → t.task.Ids cfg.thread

variable {cfg : SystemConfig} {s s' : System}

/-- The processes and their clients are as they were. -/
theorem ProcessIds.of_eq (h : s.ProcessIds cfg) (hprocesses : s'.process.processes = s.process.processes)
    (hcreated : s'.process.created = s.process.created) (hipc : s'.udp.clients = s.udp.clients)
    (hserial : s'.serial.clients = s.serial.clients) (hipcClient : s'.ipcClient = s.ipcClient)
    (hserialClient : s'.serialClient = s.serialClient) : s'.ProcessIds cfg := by
  refine ⟨⟨hprocesses ▸ h.pool.wf, hprocesses ▸ h.pool.size, ?_⟩, ?_, ?_, ?_, ?_, ?_, ?_, ?_, ?_, ?_⟩
  · rw [hprocesses, hcreated]
    exact h.pool.contents
  · unfold pid
    rw [hprocesses, hcreated]
    exact h.pids
  · rw [hipc]
    exact h.ipc
  · rw [hipc]
    exact h.ipcIds
  · rw [hipc, hcreated]
    exact h.ipcLength
  · rw [hipc, hcreated, hipcClient]
    exact h.ipcClient
  · rw [hserial]
    exact h.serial
  · rw [hserial]
    exact h.serialIds
  · rw [hserial, hcreated]
    exact h.serialLength
  · rw [hserial, hcreated, hserialClient]
    exact h.serialClient

/-- A new serial client gets the next number. -/
theorem serialCreated {s s' : SerialSystem} {page : Nat → UInt8} (hwf : s.clients.WellFormed)
    (hids : s.clients.Numbered SerialClient.id)
    (hs : s.createClient page = .ok s') :
    s'.clients.WellFormed ∧ s'.clients.Numbered SerialClient.id ∧ ∃ c, s'.clients.contents = s.clients.contents ++ [c] := by
  obtain ⟨⟨client, clients⟩, halloc, hs⟩ := bind_ok hs
  cases client with
  | none => cases hs
  | some client =>
    cases hs
    obtain ⟨hwf', hcontents, -⟩ := hwf.alloc_write halloc (by rfl)
    exact ⟨hwf', hids.alloc_write hwf halloc rfl rfl, client, hcontents⟩

/-- A new IPC client gets the next number, if that is its id. -/
theorem ipcCreated {clients clients' : Pool (Ptr → IpcClient)} {id : Int} (hwf : clients.WellFormed)
    (hids : clients.Numbered IpcClient.id) (hid : id = clients.contents.length + 1)
    (hs : ipcCreateClient clients id = .ok clients') :
    clients'.WellFormed ∧ clients'.Numbered IpcClient.id ∧ ∃ c, clients'.contents = clients.contents ++ [c] := by
  obtain ⟨_, -, hs⟩ := bind_ok hs
  obtain ⟨⟨client, pool⟩, halloc, hs⟩ := bind_ok hs
  obtain ⟨c, hc, hs⟩ := bind_ok hs
  cases hs
  cases of_checkSome_ok hc
  obtain ⟨hwf', hcontents, -⟩ := hwf.alloc_write halloc (by rfl)
  refine ⟨hwf', hids.alloc_write hwf halloc rfl ?_, c, hcontents⟩
  obtain ⟨hwf'', hcontents'', -⟩ := hwf.alloc halloc
  rw [hwf''.currentSize_eq, hcontents'', List.length_append, hid]
  rfl

/-- What a table says about the processes, after one more was created with the client that came last. -/
theorem client_snoc {created contents : List Ptr} {p c : Ptr} {client : Ptr → Option Ptr}
    (hlength : contents.length = created.length)
    (hfresh : p ∉ created) (hclient : ∀ (i : Nat) q, created[i]? = some q → client q = contents[i]?) {i : Nat} {q : Ptr}
    (hq : (created ++ [p])[i]? = some q) :
    Function.update client p (contents ++ [c]).getLast? q = (contents ++ [c])[i]? := by
  rcases getElem?_snoc hq with hq | ⟨rfl, rfl⟩
  · have hne : q ≠ p := fun e => hfresh (e ▸ List.mem_of_getElem? hq)
    rw [Function.update_of_ne hne, hclient i q hq, List.getElem?_append_left]
    rw [hlength]
    exact (List.getElem?_eq_some_iff.mp hq).1
  · rw [Function.update_self, ← hlength, List.getElem?_concat_length, List.getLast?_concat]

/-- A process is created with its clients. -/
theorem ProcessIds.processCreate (h : s.ProcessIds cfg) {priority : UInt8} {native : NativeProcess} {aep : CPtr}
    {page : Nat → UInt8}
    (hs : s.processCreate cfg priority native aep page = .ok s') : s'.ProcessIds cfg := by
  obtain ⟨⟨process, processes⟩, halloc, hs⟩ := bind_ok hs
  cases process with
  | none =>
    obtain rfl := h.pool.wf.alloc_none halloc
    cases hs
    exact h.of_eq rfl rfl rfl rfl rfl rfl
  | some p =>
    obtain ⟨serial, hserial, hs⟩ := bind_ok hs
    obtain ⟨clients, hclients, hs⟩ := bind_ok hs
    obtain ⟨⟨process, allocation, assigned⟩, hinit, hs⟩ := bind_ok hs
    cases hs
    obtain ⟨-, -, -, -, -, hpid⟩ := processInitEnv_ok rfl hinit
    obtain ⟨hwf₁, hcontents₁, hnew, -⟩ := h.pool.wf.alloc halloc
    obtain ⟨hwf, hcontents, hmem, hframe⟩ := h.pool.wf.alloc_write halloc (by rfl)
    rw [h.pool.contents] at hnew hframe hcontents hcontents₁
    have hsize : simplePoolGetCurrentSize processes = s.process.created.length + 1 := by
      rw [hwf₁.currentSize_eq, hcontents₁, List.length_append]
      rfl
    obtain ⟨hipcwf, hipcids, c, hipc⟩ := ipcCreated h.ipc h.ipcIds (hsize.trans (by rw [h.ipcLength])) hclients
    have hserial' : (serial.clients.WellFormed ∧ serial.clients.Numbered SerialClient.id) ∧
        (cfg.process.serialServerEp.isSome → ∃ c, serial.clients.contents = s.serial.clients.contents ++ [c]) := by
      unfold createSerialClient at hserial
      split at hserial
      · obtain ⟨hwf, hids, hc⟩ := serialCreated h.serial h.serialIds hserial
        exact ⟨⟨hwf, hids⟩, fun _ => hc⟩
      · rename_i hnot
        cases hserial
        exact ⟨⟨h.serial, h.serialIds⟩, fun hyes => absurd hyes hnot⟩
    obtain ⟨⟨hserialwf, hserialids⟩, hserialc⟩ := hserial'
    refine ⟨⟨hwf, (h.pool.wf.alloc_size halloc).trans h.pool.size, hcontents⟩, ?_, hipcwf, hipcids, ?_, ?_,
      hserialwf, hserialids, ?_, ?_⟩
    · intro i q hq
      unfold pid
      rcases getElem?_snoc hq with hq | ⟨rfl, rfl⟩
      · rw [hframe q (List.mem_of_getElem? hq)]
        exact h.pids i q hq
      · rw [hmem, hpid, hsize]
    · rw [hipc, List.length_append, List.length_append, h.ipcLength]
      rfl
    · intro i q hq
      simp only [hipc]
      exact client_snoc h.ipcLength hnew h.ipcClient hq
    · intro hyes
      obtain ⟨c', hc'⟩ := hserialc hyes
      rw [hc', List.length_append, List.length_append, h.serialLength hyes]
      rfl
    · intro hyes i q hq
      obtain ⟨c', hc'⟩ := hserialc hyes
      simp only [hc']
      exact client_snoc (h.serialLength hyes) hnew (h.serialClient hyes) hq

/-- The sockets of a socket record, after a step that keeps those of the server and those of the processes. -/
theorem SocketOk.keep {x : SocketRecord} (h : s.SocketOk x) (hext : s.udp.Extends s'.udp)
    (htasks : ∀ t, s.tasks x.process = some t → ∃ t', s'.tasks x.process = some t' ∧
      ∀ q ∈ t.sockets.contents, q ∈ t'.sockets.contents ∧ t'.sockets.mem q = t.sockets.mem q) : s'.SocketOk x := by
  obtain ⟨t, ht, hmem, hserver, hid⟩ := h
  obtain ⟨t', ht', hsame⟩ := htasks t ht
  obtain ⟨hmem', hval⟩ := hsame _ hmem
  obtain ⟨hserver', hid', -, -⟩ := hext.socketServers _ hserver
  refine ⟨t', ht', hmem', hserver', ?_⟩
  rw [hval, hid', hid]

/-- The tasks keep their sockets, and the server keeps its own. -/
theorem SocketIds.keep (h : s.SocketIds cfg) (hudp : UdpStackInv s'.udp)
    (hsize : s'.udp.socketServers.size = s.udp.socketServers.size)
    (hext : s.udp.Extends s'.udp) (hsockets : s'.sockets = s.sockets)
    (hold : ∀ p t, s.tasks p = some t → ∃ t', s'.tasks p = some t' ∧ t'.sockets = t.sockets)
    (hnew : ∀ p t', s'.tasks p = some t' → (∃ t, s.tasks p = some t ∧ t'.sockets = t.sockets) ∨
      t'.sockets.WellFormed ∧ t'.sockets.contents = []) : s'.SocketIds cfg := by
  refine ⟨hudp, hsize.trans h.size, ?_, ?_, ?_, hsockets ▸ h.servers⟩
  · intro p t' ht'
    rcases hnew p t' ht' with ⟨t, ht, hsame⟩ | ⟨hwf, -⟩
    · rw [hsame]
      exact h.pools p t ht
    · exact hwf
  · intro x hx
    rw [hsockets] at hx
    refine (h.recorded x hx).keep hext ?_
    intro t ht
    obtain ⟨t', ht', hsame⟩ := hold _ t ht
    exact ⟨t', ht', fun q hq => by rw [hsame]; exact ⟨hq, rfl⟩⟩
  · intro p t' ht' q hq
    rcases hnew p t' ht' with ⟨t, ht, hsame⟩ | ⟨-, hnil⟩
    · rw [hsame] at hq
      rw [hsockets]
      exact h.complete p t ht q hq
    · rw [hnil] at hq
      cases hq

/-- The id that the server sent. -/
theorem socketIdOfReply_eq {reply : UdpReply} {id n : Int} (hmrs : reply.mrs = [0, UInt32.ofInt n]) (h₀ : 0 ≤ n) (hn : n < 2 ^ 31)
    (h : socketIdOfReply reply = .ok id) : id = n := by
  obtain ⟨_, -, h⟩ := bind_ok h
  obtain ⟨_, -, h⟩ := bind_ok h
  obtain ⟨_, -, h⟩ := bind_ok h
  cases h
  rw [hmrs]
  exact intOfWord_ofInt h₀ hn

/-- A socket was created by process `p`, with the id of the server. -/
structure SocketAdded (s s' : System) (p : Ptr) (t t' : UserTask) (socket server : Ptr) : Prop where
  udp : UdpStackInv s'.udp
  ext : s.udp.Extends s'.udp
  size : s'.udp.socketServers.size = s.udp.socketServers.size
  new : server ∉ s.udp.socketServers.contents
  mem : server ∈ s'.udp.socketServers.contents
  pool : t'.sockets.WellFormed
  contents : t'.sockets.contents = t.sockets.contents ++ [socket]
  frame : ∀ x ∈ t.sockets.contents, t'.sockets.mem x = t.sockets.mem x
  id : (t'.sockets.mem socket).id = (s'.udp.socketServers.mem server).socket.id
  tasks : s'.tasks = Function.update s.tasks p (some t')
  sockets : s'.sockets = s.sockets ++ [{ process := p, socket := socket, server := server }]

/-- What a process and the server do to create a socket. -/
theorem SocketIds.added (h : s.SocketIds cfg) (hmax : cfg.udp.udpMaxSockets < 2 ^ 31) {p : Ptr} {t : UserTask} {addr mr3 : Word}
    {epTxReady : CPtr} {a : UdpAnswers} (ht : s.tasks p = some t) (hs : s.createSocket p t addr epTxReady mr3 a = .ok s') :
    ∃ t' socket server, s.SocketAdded s' p t t' socket server ∧ t'.task = t.task ∧ s'.udp.clients = s.udp.clients ∧
      s' = { s with udp := s'.udp, tasks := s'.tasks, sockets := s'.sockets } := by
  obtain ⟨⟨_, sockets⟩, halloc, hs⟩ := bind_ok hs
  obtain ⟨socket, hsocket, hs⟩ := bind_ok hs
  obtain ⟨_, -, hs⟩ := bind_ok hs
  obtain ⟨udp, hserve, hs⟩ := bind_ok hs
  obtain ⟨reply, hreply, hs⟩ := bind_ok hs
  obtain ⟨server, hserver, hs⟩ := bind_ok hs
  obtain ⟨id, hid, hs⟩ := bind_ok hs
  cases hs
  cases of_checkSome_ok hsocket
  obtain ⟨hudp, hext, hclients, -⟩ := h.udp.serve hserve
  -- the request is a `UDPSTACK_CREATE_SOCKET` without a capability
  obtain ⟨_, -, hcreate⟩ := bind_ok hserve
  rw [UdpStack.receive_of_none rfl] at hcreate
  obtain ⟨server', hcreated⟩ := h.udp.socketCreated hcreate
  obtain ⟨reply', hreplies, -, hserver', hmrs⟩ := hcreated.replies
  have hreply' : reply' = reply := by
    have hlast := of_checkSome_ok hreply
    rw [hreplies, List.getLast?_concat] at hlast
    exact Option.some.inj hlast
  subst hreply'
  obtain rfl : server' = server := Option.some.inj (hserver'.symm.trans (of_checkSome_ok hserver))
  have hmem : server' ∈ udp.socketServers.contents := by
    rw [hcreated.contents]
    exact List.mem_append_right _ (List.mem_singleton.mpr rfl)
  have hid : id = (udp.socketServers.mem server').socket.id := by
    have hnumbered : udp.socketServers.Numbered fun v => v.socket.id := hudp.ids
    obtain ⟨hpos, hle⟩ := hnumbered.bounds hmem
    have hroom := hudp.socketServers.length_le_size
    rw [hcreated.size, h.size] at hroom
    exact socketIdOfReply_eq hmrs (Int.le_of_lt hpos) (by omega) hid
  obtain ⟨hwf, hcontents, hval, hframe⟩ := (h.pools p t ht).alloc_write halloc (by rfl)
  exact ⟨_, socket, server', ⟨hudp, hext, hcreated.size, hcreated.new, hmem, hwf, hcontents, hframe,
    (congrArg UdpSocket.id hval).trans hid, rfl, rfl⟩, rfl, hclients, rfl⟩

/-- The task that a process has after an update of one of them. -/
theorem tasks_update {tasks : Ptr → Option UserTask} {p q : Ptr} {t u : UserTask}
    (h : Function.update tasks p (some t) q = some u) :
    (q = p ∧ u = t) ∨ (q ≠ p ∧ tasks q = some u) := by
  by_cases hq : q = p
  · rw [hq, Function.update_self] at h
    exact Or.inl ⟨hq, (Option.some.inj h).symm⟩
  · rw [Function.update_of_ne hq] at h
    exact Or.inr ⟨hq, h⟩

/-- A socket more. -/
theorem SocketIds.grow (h : s.SocketIds cfg) {p socket server : Ptr} {t t' : UserTask} (ht : s.tasks p = some t)
    (hadd : s.SocketAdded s' p t t' socket server) : s'.SocketIds cfg := by
  have hold : ∀ {x}, x ∈ s.sockets → x ∈ s'.sockets := by
    intro x hx
    rw [hadd.sockets]
    exact List.mem_append_left _ hx
  have hnew : { process := p, socket := socket, server := server } ∈ s'.sockets := by
    rw [hadd.sockets]
    exact List.mem_append_right _ (List.mem_singleton.mpr rfl)
  refine ⟨hadd.udp, hadd.size.trans h.size, ?_, ?_, ?_, ?_⟩
  · intro q u hu
    rw [hadd.tasks] at hu
    rcases tasks_update hu with ⟨-, rfl⟩ | ⟨-, hu⟩
    · exact hadd.pool
    · exact h.pools q u hu
  · intro x hx
    rw [hadd.sockets, List.mem_append, List.mem_singleton] at hx
    rcases hx with hx | rfl
    · refine (h.recorded x hx).keep hadd.ext ?_
      intro u hu
      rw [hadd.tasks]
      by_cases hq : x.process = p
      · rw [hq, ht] at hu
        cases hu
        refine ⟨t', by rw [hq, Function.update_self], fun y hy => ⟨?_, hadd.frame y hy⟩⟩
        rw [hadd.contents]
        exact List.mem_append_left _ hy
      · exact ⟨u, by rw [Function.update_of_ne hq, hu], fun y hy => ⟨hy, rfl⟩⟩
    · refine ⟨t', by rw [hadd.tasks, Function.update_self], ?_, hadd.mem, hadd.id⟩
      rw [hadd.contents]
      exact List.mem_append_right _ (List.mem_singleton.mpr rfl)
  · intro q u hu y hy
    rw [hadd.tasks] at hu
    rcases tasks_update hu with ⟨rfl, rfl⟩ | ⟨-, hu⟩
    · rw [hadd.contents, List.mem_append, List.mem_singleton] at hy
      rcases hy with hy | rfl
      · obtain ⟨x, hx, hxy⟩ := h.complete q t ht y hy
        exact ⟨x, hold hx, hxy⟩
      · exact ⟨_, hnew, rfl, rfl⟩
    · obtain ⟨x, hx, hxy⟩ := h.complete q u hu y hy
      exact ⟨x, hold hx, hxy⟩
  · rw [hadd.sockets, List.map_append, List.nodup_append]
    refine ⟨h.servers, List.nodup_singleton _, ?_⟩
    intro q hq r hr e
    obtain ⟨x, hx, rfl⟩ := List.mem_map.mp hq
    obtain ⟨_, -, -, hmem, -⟩ := h.recorded x hx
    rw [List.map_singleton, List.mem_singleton] at hr
    rw [e, hr] at hmem
    exact hadd.new hmem

/-- All the ids of the system. -/
structure Ids (cfg : SystemConfig) (s : System) : Prop where
  processes : s.ProcessIds cfg
  threads : s.ThreadIds cfg
  sockets : s.SocketIds cfg

namespace Ids

/-- After the initialisation. -/
theorem of_init (h : s.Init cfg) : s.Ids cfg := by
  obtain ⟨b, hipc⟩ := h.udp.clients
  obtain ⟨hipcwf, hipcnil⟩ := Pool.WellFormed.of_new b.malloc.injective hipc
  obtain ⟨malloc, nodes, mem, elSize, hm, hserial⟩ := h.serial.clients
  obtain ⟨hserialwf, hserialnil⟩ := Pool.WellFormed.of_new hm hserial
  obtain ⟨b', hsockets⟩ := h.udp.socketServers
  obtain ⟨-, -, -, hsize, -⟩ := simplePoolNew_ok b'.malloc.injective hsockets
  have hnone : ∀ p t, s.tasks p ≠ some t := by
    intro p t ht
    rw [h.tasks p] at ht
    cases ht
  have hempty : ∀ (i : Nat) p, s.process.created[i]? ≠ some p := by
    intro i p hp
    rw [h.process.created] at hp
    cases hp
  refine ⟨⟨.of_init h.process, fun i p hp => absurd hp (hempty i p), hipcwf, .of_nil hipcnil, ?_, fun i p hp => absurd hp (hempty i p),
    hserialwf, .of_nil hserialnil, ?_, fun _ i p hp => absurd hp (hempty i p)⟩,
    ⟨.of_init h.rootTask, fun p t ht => absurd ht (hnone p t)⟩,
    ⟨.of_init h.udp, hsize, fun p t ht => absurd ht (hnone p t), ?_, fun p t ht => absurd ht (hnone p t), ?_⟩⟩
  · rw [hipcnil, h.process.created]
  · intro _
    rw [hserialnil, h.process.created]
  · rw [h.sockets]
    simp
  · rw [h.sockets]
    exact List.nodup_nil

/-- A step that leaves the tasks as they are, and what the UDP stack has. -/
theorem of_processes (h : s.Ids cfg) (hprocesses : s'.ProcessIds cfg) (hroot : s'.rootTask = s.rootTask)
    (htasks : s'.tasks = s.tasks)
    (hsockets : s'.sockets = s.sockets) (hudp : UdpStackInv s'.udp)
    (hsize : s'.udp.socketServers.size = s.udp.socketServers.size) (hext : s.udp.Extends s'.udp) : s'.Ids cfg := by
  refine ⟨hprocesses, ⟨hroot ▸ h.threads.root, htasks ▸ h.threads.user⟩, h.sockets.keep hudp hsize hext hsockets ?_ ?_⟩
  · intro p t ht
    exact ⟨t, htasks ▸ ht, rfl⟩
  · intro p t ht
    exact Or.inl ⟨t, htasks ▸ ht, rfl⟩

/-- A step on the tasks. -/
theorem of_tasks (h : s.Ids cfg) (root : Task) {tasks : Ptr → Option UserTask}
    (hthreads : { s with rootTask := root, tasks := tasks }.ThreadIds cfg)
    (hold : ∀ p t, s.tasks p = some t → ∃ t', tasks p = some t' ∧ t'.sockets = t.sockets)
    (hnew : ∀ p t', tasks p = some t' → (∃ t, s.tasks p = some t ∧ t'.sockets = t.sockets) ∨
      t'.sockets.WellFormed ∧ t'.sockets.contents = []) : { s with rootTask := root, tasks := tasks }.Ids cfg :=
  ⟨h.processes.of_eq rfl rfl rfl rfl rfl rfl, hthreads, h.sockets.keep h.sockets.udp rfl (.of_eq rfl rfl rfl) rfl hold hnew⟩

/-- A process is created. -/
theorem processCreate (h : s.Ids cfg) {priority : UInt8} {native : NativeProcess} {aep : CPtr} {page : Nat → UInt8}
    (hs : s.processCreate cfg priority native aep page = .ok s') : s'.Ids cfg := by
  have hprocesses := h.processes.processCreate hs
  obtain ⟨⟨process, processes⟩, -, hs⟩ := bind_ok hs
  cases process with
  | none =>
    cases hs
    exact h.of_processes hprocesses rfl rfl rfl h.sockets.udp rfl (.of_eq rfl rfl rfl)
  | some p =>
    obtain ⟨serial, -, hs⟩ := bind_ok hs
    obtain ⟨clients, hclients, hs⟩ := bind_ok hs
    obtain ⟨⟨process, allocation, assigned⟩, -, hs⟩ := bind_ok hs
    cases hs
    obtain ⟨hudp, hext⟩ := h.sockets.udp.createClient hclients
    exact h.of_processes hprocesses rfl rfl rfl hudp rfl hext

/-- A process starts. -/
theorem initializeProcess (h : s.Ids cfg) {p : Ptr} {b : PoolBlocks Thread} {b' : PoolBlocks UdpSocket} {waitAep : CPtr} {ipc : Ptr}
    (hp : s.tasks p = none) (hs : s.initializeProcess cfg p b b' waitAep ipc = .ok s') : s'.Ids cfg := by
  obtain ⟨threads, hthreads, hs⟩ := bind_ok hs
  obtain ⟨sockets, hsockets, hs⟩ := bind_ok hs
  obtain ⟨ipcClient, -, hs⟩ := bind_ok hs
  cases hs
  refine h.of_tasks s.rootTask ⟨h.threads.root, ?_⟩ ?_ ?_
  · intro q t ht
    rcases tasks_update ht with ⟨-, rfl⟩ | ⟨-, ht⟩
    · exact .of_init ⟨⟨b, hthreads⟩, ⟨_, _, rfl⟩, rfl, rfl⟩
    · exact h.threads.user q t ht
  · intro q t ht
    have hq : q ≠ p := by
      rintro rfl
      rw [hp] at ht
      cases ht
    exact ⟨t, by rw [Function.update_of_ne hq, ht], rfl⟩
  · intro q t ht
    rcases tasks_update ht with ⟨-, rfl⟩ | ⟨-, ht⟩
    · exact Or.inr (Pool.WellFormed.of_new b'.malloc.injective hsockets)
    · exact Or.inl ⟨t, ht, rfl⟩

/-- A thread of a process is created or deleted. -/
theorem userThread (h : s.Ids cfg) {p : Ptr} {t : UserTask} {task : Task} {act : ThreadAction} (ht : s.tasks p = some t)
    (hs : t.task.step act = .next task) : { s with tasks := Function.update s.tasks p (some { t with task := task }) }.Ids cfg := by
  refine h.of_tasks s.rootTask ⟨h.threads.root, ?_⟩ ?_ ?_
  · intro q u hu
    rcases tasks_update hu with ⟨-, rfl⟩ | ⟨-, hu⟩
    · exact (h.threads.user p t ht).step hs
    · exact h.threads.user q u hu
  · intro q u hu
    by_cases hq : q = p
    · subst hq
      rw [ht] at hu
      cases hu
      exact ⟨_, Function.update_self _ _ _, rfl⟩
    · exact ⟨u, by rw [Function.update_of_ne hq, hu], rfl⟩
  · intro q u hu
    rcases tasks_update hu with ⟨rfl, rfl⟩ | ⟨-, hu⟩
    · exact Or.inl ⟨t, ht, rfl⟩
    · exact Or.inl ⟨u, hu, rfl⟩

/-- A process creates a socket. -/
theorem createSocket (h : s.Ids cfg) (hmax : cfg.udp.udpMaxSockets < 2 ^ 31) {p : Ptr} {t : UserTask} {addr mr3 : Word}
    {epTxReady : CPtr} {a : UdpAnswers} (ht : s.tasks p = some t) (hs : s.createSocket p t addr epTxReady mr3 a = .ok s') :
    s'.Ids cfg := by
  obtain ⟨t', socket, server, hadd, htask, hclients, heq⟩ := h.sockets.added hmax ht hs
  refine ⟨?_, ⟨?_, ?_⟩, h.sockets.grow ht hadd⟩
  · rw [heq]
    exact h.processes.of_eq rfl rfl hclients rfl rfl rfl
  · rw [heq]
    exact h.threads.root
  · intro q u hu
    rw [hadd.tasks] at hu
    rcases tasks_update hu with ⟨-, rfl⟩ | ⟨-, hu⟩
    · rw [htask]
      exact h.threads.user p t ht
    · exact h.threads.user q u hu

/-- The serial server and its clients go on. -/
theorem serialStep (h : s.Ids cfg) {act : SerialAction} (hact : ∀ page, act ≠ .createClient page) {serial : SerialSystem}
    (hs : s.serial.step act = .next serial) : { s with serial := serial }.Ids cfg :=
  ⟨h.processes.of_eq rfl rfl rfl (SerialSystem.step_clients hact hs) rfl rfl, ⟨h.threads.root, h.threads.user⟩,
    ⟨h.sockets.udp, h.sockets.size, h.sockets.pools, h.sockets.recorded, h.sockets.complete, h.sockets.servers⟩⟩

/-- The UDP stack goes on. -/
theorem udpStep (h : s.Ids cfg) {act : UdpStackAction} (hact : ∀ id, act ≠ .createClient id) {udp : UdpStack}
    (hs : s.udp.step cfg.udp act = .next udp) : { s with udp := udp }.Ids cfg := by
  obtain ⟨hudp, hext, -⟩ := h.sockets.udp.step hs
  obtain ⟨hclients, hsize⟩ := h.sockets.udp.step_clients hact hs
  exact h.of_processes (h.processes.of_eq rfl rfl hclients rfl rfl rfl) rfl rfl rfl hudp hsize hext

/-- Every step keeps the ids as they are. -/
theorem step (h : s.Ids cfg) (hmax : cfg.udp.udpMaxSockets < 2 ^ 31) {act : SystemAction} (hs : s.step cfg act = .next s') :
    s'.Ids cfg := by
  cases act with
  | processCreate priority native aep page => exact h.processCreate (Outcome.ofExcept_eq_next.mp hs)
  | processDelete p =>
    simp only [System.step, Outcome.guard_eq_next, Outcome.next.injEq] at hs
    obtain ⟨-, rfl⟩ := hs
    exact h.of_processes (h.processes.of_eq rfl rfl rfl rfl rfl rfl) rfl rfl rfl h.sockets.udp rfl (.of_eq rfl rfl rfl)
  | initializeProcess p b b' waitAep ipc =>
    obtain ⟨⟨-, hnone⟩, hs⟩ := Outcome.guard_eq_next.mp hs
    exact h.initializeProcess (Option.isNone_iff_eq_none.mp hnone) (Outcome.ofExcept_eq_next.mp hs)
  | rootThread act =>
    obtain ⟨task, htask, rfl⟩ := Outcome.map_eq_next.mp hs
    exact h.of_tasks task ⟨h.threads.root.step htask, h.threads.user⟩ (fun p t ht => ⟨t, ht, rfl⟩) fun p t ht => Or.inl ⟨t, ht, rfl⟩
  | userThread p act =>
    unfold System.step at hs
    dsimp only at hs
    split at hs
    · cases hs
    · rename_i t ht
      obtain ⟨-, hs⟩ := Outcome.guard_eq_next.mp hs
      obtain ⟨task, htask, rfl⟩ := Outcome.map_eq_next.mp hs
      exact h.userThread ht htask
  | createSocket p addr epTxReady mr3 a =>
    unfold System.step at hs
    dsimp only at hs
    split at hs
    · cases hs
    · rename_i t ht
      obtain ⟨-, hs⟩ := Outcome.guard_eq_next.mp hs
      exact h.createSocket hmax ht (Outcome.ofExcept_eq_next.mp hs)
  | serial act =>
    cases act with
    | createClient page => cases hs
    | _ =>
      obtain ⟨serial, hserial, rfl⟩ := Outcome.map_eq_next.mp hs
      exact h.serialStep (by simp) hserial
  | udp act =>
    cases act with
    | createClient id => cases hs
    | _ =>
      obtain ⟨udp, hudp, rfl⟩ := Outcome.map_eq_next.mp hs
      exact h.udpStep (by simp) hudp

/-- In every state of every run. -/
theorem of_run (hmax : cfg.udp.udpMaxSockets < 2 ^ 31) (hr : (systemMachine cfg).Reachable s) : s.Ids cfg := by
  induction hr with
  | init hi => exact of_init hi
  | step act _ hs ih => exact ih.step hmax hs

end Ids

/-! ## What follows for the ids and for the lookups -/

/-- The root task, and the tasks of the processes. -/
def IsTask (s : System) (t : Task) : Prop := t = s.rootTask ∨ ∃ p u, s.tasks p = some u ∧ u.task = t

/-- No id is used twice or is zero, the ids of a process are equal, and every lookup finds what was created with the id. -/
structure IdsUnique (cfg : SystemConfig) (s : System) : Prop where
  /-- the pids of all the processes that were ever created -/
  pid : ∀ p ∈ s.process.created, s.pid p ≠ 0 ∧ ∀ q ∈ s.process.created, s.pid p = s.pid q → p = q
  /-- the tids of all the threads that a task ever created, beside its main thread -/
  tid : ∀ t, s.IsTask t → t.mainThread.tid = 0 ∧ ∀ x ∈ t.created, (t.threads.mem x).info.tid ≠ 0 ∧
    ∀ y ∈ t.created, (t.threads.mem x).info.tid = (t.threads.mem y).info.tid → x = y
  /-- the ids of all the sockets of all the processes -/
  socket : ∀ p t x, s.tasks p = some t → x ∈ t.sockets.contents → (t.sockets.mem x).id ≠ 0 ∧
    ∀ q u y, s.tasks q = some u → y ∈ u.sockets.contents → (t.sockets.mem x).id = (u.sockets.mem y).id → p = q ∧ x = y
  /-- the ids of the serial clients -/
  serial : ∀ c ∈ s.serial.clients.contents, (s.serial.clients.mem c).id ≠ 0 ∧
    ∀ d ∈ s.serial.clients.contents, (s.serial.clients.mem c).id = (s.serial.clients.mem d).id → c = d
  /-- the IPC client of a process has its pid, and is what the UDP stack finds for it -/
  ipcLookup : ∀ p ∈ s.process.created, ∃ c els, s.ipcClient p = some c ∧ s.udp.clients.elements = .ok els ∧
    (s.udp.clients.mem c).id = intOfWord (s.pid p) ∧
    ∀ var, lookupLoop (fun el => (s.udp.clients.mem el).id = intOfWord (s.pid p)) els var = some c
  /-- the serial client of a process has its pid, and is what the serial server finds for it -/
  serialLookup : cfg.process.serialServerEp.isSome → ∀ p ∈ s.process.created, ∃ c els, s.serialClient p = some c ∧
    s.serial.clients.elements = .ok els ∧ (s.serial.clients.mem c).id = intOfWord (s.pid p) ∧
    ∀ var, serialLookup s.serial.clients.mem (intOfWord (s.pid p)) els var = some c
  /-- the socket that was created in the server with a socket of a process is what the server finds for it, and the process
  finds its own -/
  socketLookup : ∀ p t x, s.tasks p = some t → x ∈ t.sockets.contents → ∃ r ∈ s.sockets, r.process = p ∧ r.socket = x ∧
    (∃ els, s.udp.socketServers.elements = .ok els ∧
      ∀ var, lookupLoop (fun el => (s.udp.socketServers.mem el).socket.id = (t.sockets.mem x).id) els var = some r.server) ∧
    udpSdToSocket t.sockets (t.sockets.mem x).id = .ok x

namespace Ids

/-- The pid of a process as an `int`. -/
theorem intOfWord_pid (h : s.Ids cfg) (hmax : cfg.process.processMax < 2 ^ 31) {i : Nat} {p : Ptr}
    (hp : s.process.created[i]? = some p) : intOfWord (s.pid p) = i + 1 := by
  have hlt := (List.getElem?_eq_some_iff.mp hp).1
  have hroom := h.processes.pool.wf.length_le_size
  rw [h.processes.pool.contents, h.processes.pool.size] at hroom
  rw [h.processes.pids i p hp]
  exact intOfWord_ofInt (by omega) (by omega)

/-- The client of a process in a pool that grows with the processes. -/
theorem client_eq (h : s.Ids cfg) (hmax : cfg.process.processMax < 2 ^ 31) {ε : Type} {clients : Pool (Ptr → ε)} {id : ε → Int}
    {client : Ptr → Option Ptr} (hids : clients.Numbered id) (hlength : clients.contents.length = s.process.created.length)
    (hclient : ∀ (i : Nat) p, s.process.created[i]? = some p → client p = clients.contents[i]?) {p : Ptr}
    (hp : p ∈ s.process.created) :
    ∃ c ∈ clients.contents, client p = some c ∧ id (clients.mem c) = intOfWord (s.pid p) := by
  obtain ⟨i, hi⟩ := List.getElem?_of_mem hp
  have hlt : i < clients.contents.length := by
    rw [hlength]
    exact (List.getElem?_eq_some_iff.mp hi).1
  have hget : clients.contents[i]? = some clients.contents[i] := List.getElem?_eq_getElem hlt
  refine ⟨_, List.getElem_mem hlt, (hclient i p hi).trans hget, ?_⟩
  rw [hids i _ hget, h.intOfWord_pid hmax hi]

/-- The socket of a process and what it is in the server. -/
theorem record (h : s.Ids cfg) {p x : Ptr} {t : UserTask} (ht : s.tasks p = some t) (hx : x ∈ t.sockets.contents) :
    ∃ r ∈ s.sockets, r.process = p ∧ r.socket = x ∧ r.server ∈ s.udp.socketServers.contents ∧
      (t.sockets.mem x).id = (s.udp.socketServers.mem r.server).socket.id := by
  obtain ⟨r, hr, rfl, rfl⟩ := h.sockets.complete p t ht x hx
  obtain ⟨u, hu, -, hmem, hid⟩ := h.sockets.recorded r hr
  rw [ht] at hu
  cases hu
  exact ⟨r, hr, rfl, rfl, hmem, hid⟩

/-- The sockets of the server are numbered. -/
theorem servers (h : s.Ids cfg) : s.udp.socketServers.Numbered fun v => v.socket.id := h.sockets.udp.ids

/-- Two sockets with the same id are one. -/
theorem socket_inj (h : s.Ids cfg) {p q x y : Ptr} {t u : UserTask} (ht : s.tasks p = some t) (hx : x ∈ t.sockets.contents)
    (hu : s.tasks q = some u) (hy : y ∈ u.sockets.contents) (hid : (t.sockets.mem x).id = (u.sockets.mem y).id) : p = q ∧ x = y := by
  obtain ⟨r, hr, hrp, hrx, hserver, hrid⟩ := h.record ht hx
  obtain ⟨r', hr', hrq, hry, hserver', hrid'⟩ := h.record hu hy
  have hsame : r.server = r'.server := h.servers.inj hserver hserver' (hrid.symm.trans (hid.trans hrid'))
  obtain rfl : r = r' := List.inj_on_of_nodup_map h.sockets.servers hr hr' hsame
  exact ⟨hrp.symm.trans hrq, hrx.symm.trans hry⟩

/-- The invariant gives all of it. -/
theorem unique (h : s.Ids cfg) (hmax : cfg.process.processMax < 2 ^ 31) : s.IdsUnique cfg := by
  refine ⟨?_, ?_, fun p t x ht hx => ⟨?_, fun q u y hu hy => h.socket_inj ht hx hu hy⟩, ?_,
    ?_, ?_, ?_⟩
  · intro p hp
    obtain ⟨i, hi⟩ := List.getElem?_of_mem hp
    have hpid := h.intOfWord_pid hmax hi
    refine ⟨?_, ?_⟩
    · intro hzero
      rw [hzero, show intOfWord 0 = 0 from rfl] at hpid
      omega
    · intro q hq heq
      obtain ⟨j, hj⟩ := List.getElem?_of_mem hq
      rw [heq, h.intOfWord_pid hmax hj] at hpid
      obtain rfl : i = j := by omega
      exact Option.some.inj (hi.symm.trans hj)
  · intro t ht
    have hids : t.Ids cfg.thread := by
      rcases ht with rfl | ⟨p, u, hu, rfl⟩
      · exact h.threads.root
      · exact h.threads.user p u hu
    refine ⟨hids.main, ?_⟩
    intro x hx
    rw [← hids.pool.contents] at hx ⊢
    have hpos := (hids.tids.bounds hx).1
    exact ⟨by omega, fun y hy => hids.tids.inj hx hy⟩
  · obtain ⟨r, -, -, -, hserver, hid⟩ := h.record ht hx
    have hpos := (h.servers.bounds hserver).1
    omega
  · intro c hc
    have hpos := (h.processes.serialIds.bounds hc).1
    exact ⟨by omega, fun d hd => h.processes.serialIds.inj hc hd⟩
  · intro p hp
    obtain ⟨c, hc, hclient, hid⟩ := h.client_eq hmax h.processes.ipcIds h.processes.ipcLength h.processes.ipcClient hp
    refine ⟨c, _, hclient, h.processes.ipc.elements_eq, hid, ?_⟩
    intro var
    rw [← hid]
    exact h.processes.ipcIds.lookupLoop hc var
  · intro hserial p hp
    obtain ⟨c, hc, hclient, hid⟩ :=
      h.client_eq hmax h.processes.serialIds (h.processes.serialLength hserial) (h.processes.serialClient hserial) hp
    refine ⟨c, _, hclient, h.processes.serial.elements_eq, hid, ?_⟩
    intro var
    rw [← hid]
    exact h.processes.serialIds.serialLookup hc var
  · intro p t x ht hx
    obtain ⟨r, hr, hrp, hrx, hserver, hid⟩ := h.record ht hx
    refine ⟨r, hr, hrp, hrx, ⟨_, h.sockets.udp.socketServers.elements_eq, ?_⟩, ?_⟩
    · intro var
      rw [hid]
      exact h.servers.lookupLoop hserver var
    · have hpos := (h.servers.bounds hserver).1
      rw [← hid] at hpos
      unfold udpSdToSocket
      rw [check_of_true hpos, ok_bind, (h.sockets.pools p t ht).elements_eq, ok_bind,
        lookupLoop_eq (P := fun el => (t.sockets.mem el).id = (t.sockets.mem x).id) hx rfl
          (fun y hy heq => (h.socket_inj ht hy ht hx heq).2) none]
      rfl

end Ids

end System

/-- In every run of creations and deletions of processes and threads and of creations of sockets by any processes, with
whatever else the servers do in between: no id is used twice, the ids of a process are equal, and every lookup by an id that
exists finds the one that was created with it. The numbers of processes and of sockets are `int`s. -/
theorem system_ids_unique (cfg : SystemConfig) (hprocesses : cfg.process.processMax < 2 ^ 31) (hsockets : cfg.udp.udpMaxSockets < 2 ^ 31)
    (s : System) (hr : (systemMachine cfg).Reachable s) : s.IdsUnique cfg :=
  (System.Ids.of_run hsockets hr).unique hprocesses

/-- Room for two processes and two sockets, with all the servers, and one user untyped. -/
def twoProcesses : SystemConfig where
  process := { oneUntyped with processMax := 2, sysclockEp := some 50, udpStackEp := some 51, serialServerEp := some 52 }
  udp := twoSockets
  thread := oneThread

/-- `twoProcesses` after the initialisation. -/
def twoProcessesStart : Res System := do
  let processes ← simplePoolNewPlain (blocksOf ⟨newNative, .zero, 0⟩) twoProcesses.process.processMax
  let threads ← simplePoolNewPlain (blocksOf ⟨0, 0, 0, 0, ⟨0, none, none, 0, 0, 0⟩⟩) twoProcesses.thread.maxThreads
  let udp ← twoSocketsStart
  pure {
    process := ⟨processes, fun _ => 30, fun _ => 0, fun _ => 26, 1, [], [], fun _ => [], []⟩
    serial := .fresh
    udp := udp
    serialClient := fun _ => none
    ipcClient := fun _ => none
    rootTask := ⟨0, 254, 0, true, Task.initializeMainThread 254 60 61, threads, [], []⟩
    tasks := fun _ => none
    sockets := [] }

/-- It is a state the system starts in. -/
theorem init_twoProcessesStart {s : System} (hs : twoProcessesStart = .ok s) : s.Init twoProcesses := by
  obtain ⟨processes, hprocesses, hs⟩ := bind_ok hs
  obtain ⟨threads, hthreads, hs⟩ := bind_ok hs
  obtain ⟨udp, hudp, hs⟩ := bind_ok hs
  cases hs
  refine ⟨⟨⟨_, _, _, _, Function.Embedding.injective _, hprocesses⟩, (by decide : (1 : UInt8) > 0), fun _ _ => rfl, rfl, rfl⟩,
    SerialSystem.init_fresh, (init_twoSocketsStart hudp).1, ⟨⟨_, hthreads⟩, ⟨_, _, rfl⟩, rfl, rfl⟩, fun _ => rfl, rfl⟩

/-- A process starts, with a thread and a socket, and is deleted; another one is created. -/
def twoProcessesRun : List SystemAction := [.processCreate 100 newNative 20 (fun _ => 0),
  .initializeProcess 0 (blocksOf ⟨0, 0, 0, 0, ⟨0, none, none, 0, 0, 0⟩⟩) (blocksOf ⟨0, 0, 0, 0, 0, 0⟩) 60 61,
  .userThread 0 (.create 40 none 100 threadAnswers), .createSocket 0 0x0A00000A 200 0 (answersFrom 10), .udp (.start 0 0),
  .processDelete 0, .processCreate 100 newNative 21 (fun _ => 0)]

/-- In `twoProcesses` the second process has a pid of its own although the first was deleted. -/
theorem system_ids_unique_twoProcesses : ∃ s, (systemMachine twoProcesses).Reachable s ∧ s.process.created = [0, 2] ∧
    s.process.deleted = [0] ∧ s.sockets.length = 1 ∧ s.pid 0 ≠ s.pid 2 ∧ s.IdsUnique twoProcesses := by
  have hrun : (twoProcessesStart.toOption.any fun s => ((systemMachine twoProcesses).exec s twoProcessesRun).any fun s =>
      s.process.created = [0, 2] ∧ s.process.deleted = [0] ∧ s.sockets.length = 1) = true := rfl
  obtain ⟨s₀, hstart, hrun⟩ := exists_ok_of_any hrun
  have hr₀ : (systemMachine twoProcesses).Reachable s₀ := .init (init_twoProcessesStart hstart)
  obtain ⟨s, hr, hs⟩ := hr₀.exists_of_exec _ _ hrun
  simp only [Bool.decide_and, Bool.and_eq_true, decide_eq_true_eq] at hs
  obtain ⟨hcreated, hdeleted, hsockets⟩ := hs
  have hids := system_ids_unique twoProcesses (by decide) (by decide) s hr
  refine ⟨s, hr, hcreated, hdeleted, hsockets, ?_, hids⟩
  intro heq
  have h02 := (hids.pid 0 (by rw [hcreated]; decide)).2 2 (by rw [hcreated]; decide) heq
  exact absurd h02 (by decide)

end Sel4Osapi
