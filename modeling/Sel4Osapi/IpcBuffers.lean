import Sel4Osapi.VSpace

/-!
# ipc.c and process.c: the buffers of an IPC client

A process shares two buffers with the root task. `sel4osapi_ipc_create_client` makes the pages of both in the root task, and
`sel4osapi_process_init_env` copies the capabilities to them and maps the copies in the process. It collects the copies in two
arrays on its stack, which hold anything before they are written.

What slot a new capability gets, what frame a new page, and what address a range of pages, is the choice of seL4's libraries:
a slot that is empty, and pages where nothing is mapped. The pool of the clients, their ids and semaphores are in
`Sel4Osapi.Udp.Stack` and `Sel4Osapi.Udp.Sync`.
-/

namespace Sel4Osapi

/-- The choices of the VKA and of the vspaces. -/
structure SpaceAllocator where
  /-- the slot that `vka_cspace_alloc` finds -/
  slot : RootCSpace → Option CPtr
  /-- the frame of a new page -/
  frame : RootCSpace → Ptr
  /-- the address that a vspace finds for a number of pages -/
  range : VSpace → Nat → Option Ptr
  slot_free : ∀ {cspace cap}, slot cspace = some cap → cap ≠ capNull ∧ cspace cap = none
  range_free : ∀ {vspace numPages vaddr}, range vspace numPages = some vaddr →
    vaddr % 4096 = 0 ∧ ∀ i < numPages, vspace (pageOf vaddr + i) = none

/-- The CSpace and the vspace of the root task. -/
structure RootSpace where
  cspace : RootCSpace
  vspace : VSpace

/-- Capabilities to new frames. -/
def SpaceAllocator.newFrames (al : SpaceAllocator) : Nat → RootCSpace → Option (List CPtr × RootCSpace)
  | 0, cspace => some ([], cspace)
  | n + 1, cspace => do
    let cap ← al.slot cspace
    let (caps, cspace) ← al.newFrames n (Function.update cspace cap (some (al.frame cspace)))
    some (cap :: caps, cspace)

/-- `vspace_new_pages(vspace, seL4_AllRights, num_pages, PAGE_BITS_4K)` in the root task: null when anything is short. -/
def vspaceNewPages (al : SpaceAllocator) (root : RootSpace) (numPages : Nat) : Option (Ptr × RootSpace) := do
  let vaddr ← al.range root.vspace numPages
  let (caps, cspace) ← al.newFrames numPages root.cspace
  some (vaddr, { cspace := cspace, vspace := vspaceMapPages root.vspace (fun i => caps.getD i capNull) numPages vaddr })

/-- `vspace_map_pages(vspace, caps, NULL, seL4_AllRights, num_pages, PAGE_BITS_4K, 1)`: null when there is no room, or when a
slot has no capability. -/
def vspaceMapCaps (al : SpaceAllocator) (cspace : RootCSpace) (vspace : VSpace) (caps : Nat → CPtr) (numPages : Nat) :
    Option (Ptr × VSpace) := do
  let vaddr ← al.range vspace numPages
  if ∀ i < numPages, cspace (caps i) ≠ none then some (vaddr, vspaceMapPages vspace caps numPages vaddr) else none

/-- `SEL4OSAPI_PROCESS_RX_BUF_SIZE` and `SEL4OSAPI_PROCESS_TX_BUF_SIZE`. -/
structure IpcConfig where
  rxBufSize : Nat
  txBufSize : Nat
  deriving DecidableEq, Repr

/-- `ROUND_UP_UNSAFE(n, b)`. -/
def roundUpUnsafe (n b : Nat) : Nat := if n % b = 0 then n else n + (b - n % b)

/-- `SEL4OSAPI_PROCESS_RX_BUF_PAGES`. -/
def IpcConfig.rxBufPages (cfg : IpcConfig) : Nat := roundUpUnsafe cfg.rxBufSize 4096 / 4096

/-- `SEL4OSAPI_PROCESS_TX_BUF_PAGES`. -/
def IpcConfig.txBufPages (cfg : IpcConfig) : Nat := roundUpUnsafe cfg.txBufSize 4096 / 4096

/-- `sel4osapi_ipcclient_t`, as far as it is the buffers. -/
structure IpcBuffers where
  rxBuf : Ptr
  rxBufSize : Nat
  txBuf : Ptr
  txBufSize : Nat
  deriving DecidableEq, Repr

/-- The buffers that `sel4osapi_ipc_create_client(ipc, id)` makes. -/
def ipcCreateBuffers (cfg : IpcConfig) (al : SpaceAllocator) (root : RootSpace) : Res (IpcBuffers × RootSpace) := do
  let (rxBuf, root) ← checkSome (vspaceNewPages al root cfg.rxBufPages) "client->rx_buf != NULL"
  let (txBuf, root) ← checkSome (vspaceNewPages al root cfg.txBufPages) "client->tx_buf != NULL"
  pure ({ rxBuf := rxBuf, rxBufSize := cfg.rxBufSize, txBuf := txBuf, txBufSize := cfg.txBufSize }, root)

/-- An array of capabilities on the stack: its entries, and how many of them have been written. -/
structure CapArray where
  entries : Nat → CPtr
  written : Nat

/-- `caps[i] = cap`, for one entry after another. -/
def CapArray.set (a : CapArray) (i : Nat) (cap : CPtr) : CapArray :=
  { entries := Function.update a.entries i cap, written := i + 1 }

/-- A loop of `sel4osapi_process_init_env` over the pages of a buffer, from page `i` on with `n` to go: the capability to each
is copied. -/
def copyPages (al : SpaceAllocator) (vspace : VSpace) (buf : Ptr) (text : String) :
    (n i : Nat) → CapArray → RootCSpace → Res (CapArray × RootCSpace)
  | 0, _, mint, cspace => .ok (mint, cspace)
  | n + 1, i, mint, cspace => do
    let page := vspaceGetCap vspace (buf + i * 4096)
    check (page ≠ capNull) text
    let (cap, cspace) ← utilCopyCap cspace page (al.slot cspace)
    copyPages al vspace buf text n (i + 1) (mint.set i cap) cspace

/-- The buffers in both their places: what the root task and what the process knows of them, the CSpace and the vspaces, the
arrays of the copies, and how many entries of them were mapped. -/
structure IpcMapping where
  client : IpcBuffers
  env : IpcBuffers
  root : RootSpace
  native : VSpace
  rxPagesMint : CapArray
  txPagesMint : CapArray
  rxMapped : Nat
  txMapped : Nat

/-- `sel4osapi_process_init_env`, the part about the IPC client; the arguments after the vspace of the process are what is on
the stack. -/
def processInitEnvIpc (cfg : IpcConfig) (al : SpaceAllocator) (client : IpcBuffers) (root : RootSpace) (native : VSpace)
    (rxStack txStack : Nat → CPtr) : Res IpcMapping := do
  let (rxPagesMint, cspace) ← copyPages al root.vspace client.rxBuf "rx_pages[i] != seL4_CapNull" cfg.rxBufPages 0
    { entries := rxStack, written := 0 } root.cspace
  let (txPagesMint, cspace) ← copyPages al root.vspace client.txBuf "tx_pages[i] != seL4_CapNull" cfg.txBufPages 0
    { entries := txStack, written := 0 } cspace
  let (rxBuf, native) ← checkSome (vspaceMapCaps al cspace native rxPagesMint.entries cfg.rxBufPages)
    "process->env->ipcclient.rx_buf != NULL"
  -- as many pages as `rx_buf` has
  let (txBuf, native) ← checkSome (vspaceMapCaps al cspace native txPagesMint.entries cfg.rxBufPages)
    "process->env->ipcclient.tx_buf != NULL"
  pure {
    client := client
    env := { rxBuf := rxBuf, rxBufSize := cfg.rxBufSize, txBuf := txBuf, txBufSize := cfg.txBufSize }
    root := { root with cspace := cspace }
    native := native
    rxPagesMint := rxPagesMint
    txPagesMint := txPagesMint
    rxMapped := cfg.rxBufPages
    txMapped := cfg.rxBufPages }

/-- The two calls as `sel4osapi_process_create` makes them. In between `vka_alloc_notification` takes a slot, for the object
`aep`. -/
def ipcConnect (cfg : IpcConfig) (al : SpaceAllocator) (root : RootSpace) (native : VSpace) (aep : Ptr)
    (rxStack txStack : Nat → CPtr) : Res IpcMapping := do
  let (client, root) ← ipcCreateBuffers cfg al root
  let cap ← checkSome (al.slot root.cspace) "error == 0"
  processInitEnvIpc cfg al client { root with cspace := Function.update root.cspace cap (some aep) } native rxStack txStack

end Sel4Osapi
