import Sel4Osapi.Process
import Sel4Osapi.VSpace

/-!
# process.c: what a process is spawned with, and what its deletion takes away

The environment of a process is a page of the root task. `sel4osapi_process_spawn` maps a copy of the capability to it into
the process and sends it the address. `sel4osapi_process_delete` is to unmap it there, at the address in `env_remote_vaddr`,
and to revoke the untypeds of the process. The entries of the pool come from `malloc`, so what is in `env_remote_vaddr`
before it is written is anything.

The start of the main thread of the process by `sel4utils_spawn_process_v`, and the destruction of what is left of it by
`sel4utils_destroy_process`, are left out.
-/

namespace Sel4Osapi

open Transition

/-- A page from `vspace_new_pages`: its address, the slot of the capability to it, and the frame. -/
structure NewPage where
  vaddr : Ptr
  cap : CPtr
  frame : Ptr

/-- The processes of the root task with what is mapped in them. -/
structure SpawnSystem where
  system : ProcessSystem
  /-- the CSpace and the vspace of the root task -/
  cspace : RootCSpace
  vspace : VSpace
  /-- `env`, `native.vspace` and `env_remote_vaddr` of each process -/
  env : Ptr → Ptr
  native : Ptr → VSpace
  envRemoteVaddr : Ptr → Ptr
  /-- the address that `sel4osapi_process_spawn` sent to each process -/
  sent : Ptr → Option Ptr

/-- What can happen. -/
inductive SpawnAction where
  /-- `sel4osapi_process_create`; the page for the environment, and the vspace that the process gets with the notification
  and what else `sel4utils_configure_process_custom` makes -/
  | create (priority : UInt8) (page : NewPage) (native : NativeProcess) (vspace : VSpace) (aep : CPtr)
  /-- `sel4osapi_process_spawn`, of a process that was created; the slot for the capability, and the address that the page is
  mapped at -/
  | spawn (process : Ptr) (slot : Option CPtr) (vaddr : Option Ptr)
  /-- `sel4osapi_process_delete`, of a process that was created and not deleted -/
  | delete (process : Ptr)

namespace SpawnSystem

/-- `sel4osapi_process_create(process_name, priority)`: nothing more comes of it when the pool has no entry. -/
def processCreate (cfg : ProcessConfig) (s : SpawnSystem) (priority : UInt8) (page : NewPage) (native : NativeProcess)
    (vspace : VSpace) (aep : CPtr) : Res SpawnSystem := do
  let system ← s.system.processCreate cfg priority native aep
  match system.created[s.system.created.length]? with
  | none => pure { s with system := system }
  | some p =>
    pure { s with
      system := system
      cspace := Function.update s.cspace page.cap (some page.frame)
      vspace := vspaceMapPages s.vspace (fun _ => page.cap) 1 page.vaddr
      env := Function.update s.env p page.vaddr
      native := Function.update s.native p vspace }

/-- `sel4osapi_process_spawn(process)`. -/
def processSpawn (s : SpawnSystem) (process : Ptr) (slot : Option CPtr) (vaddr : Option Ptr) : Res SpawnSystem := do
  let processDataFrame := vspaceGetCap s.vspace (s.env process)
  let (processDataFrameCopy, cspace) ← utilCopyCap s.cspace processDataFrame slot
  let vaddr ← checkSome vaddr "vaddr != 0"
  pure { s with
    cspace := cspace
    native := Function.update s.native process (vspaceMapPages (s.native process) (fun _ => processDataFrameCopy) 1 vaddr)
    sent := Function.update s.sent process (some vaddr) }

/-- `sel4osapi_process_delete(process)`. -/
def processDelete (s : SpawnSystem) (process : Ptr) : SpawnSystem :=
  { s with
    system := s.system.processDelete process
    native := Function.update s.native process (vspaceUnmapPages (s.native process) (s.envRemoteVaddr process) 1) }

/-- A process can be spawned: it was created, and it has not been spawned before. -/
def Spawnable (s : SpawnSystem) (process : Ptr) : Prop := s.system.Live process ∧ s.sent process = none

instance (s : SpawnSystem) (process : Ptr) : Decidable (s.Spawnable process) := inferInstanceAs (Decidable (_ ∧ _))

/-- One step of the root task. -/
def step (cfg : ProcessConfig) (s : SpawnSystem) : SpawnAction → Outcome Fault SpawnSystem
  | .create priority page native vspace aep => .ofExcept (s.processCreate cfg priority page native vspace aep)
  | .spawn process slot vaddr => .guard (s.Spawnable process) (.ofExcept (s.processSpawn process slot vaddr))
  | .delete process => .guard (s.system.Live process) (.next (s.processDelete process))

/-- After `sel4osapi_system_initialize`. -/
structure Init (cfg : ProcessConfig) (s : SpawnSystem) : Prop where
  system : s.system.Init cfg
  sent : ∀ p, s.sent p = none

end SpawnSystem

/-- The creation, the spawning and the deletion of processes as a transition system. -/
def spawnMachine (cfg : ProcessConfig) : Machine Fault SpawnSystem SpawnAction where
  init := SpawnSystem.Init cfg
  step := SpawnSystem.step cfg

end Sel4Osapi
