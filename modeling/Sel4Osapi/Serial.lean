import Sel4Osapi.Pool
import Sel4Osapi.Lib.Transition
import Sel4Osapi.Lib.Memory

/-!
# io.c: the serial server and its clients

One thread serves the calls of all the processes. A process shares a buffer with it, the pages of its serial client, and
puts in it what its call is about: the bytes to write, the timeout of a read as a `size_t`, or a configuration, one field
after another. The semaphore `buf_avail` of the process, created with value one, is held from before that until the reply
has been dealt with.

The calls of `sel4osapi_io_serial_write`, `sel4osapi_io_serial_read` and `sel4osapi_io_serial_configure` are numbered, and
every access to a buffer is a step of its own, as are the calls and the replies: a run is any interleaving of any number of
calls by any number of processes. A client stands for its process. The buffer is indexed by the client: pages from
`vspace_new_pages` belong to one client. What the clock, the devices and `serial_configure` answer is part of the action.
-/

namespace Sel4Osapi

open Transition Memory

/-- `SEL4OSAPI_SERIAL_BUF_SIZE`. -/
def serialBufSize : Word := 4096

/-- `sel4osapi_serialclient_t`, as far as it is not the buffer and the semaphore. -/
structure SerialClient where
  id : Int
  bufSize : Word
  deriving DecidableEq, Repr

/-- `sel4osapi_serialdevice_t`. -/
inductive SerialDevice where
  | uart1
  | uart2
  deriving DecidableEq, Repr

/-- The value of the enumeration. -/
def SerialDevice.toWord : SerialDevice → Word
  | .uart1 => 1
  | .uart2 => 2

/-- The `switch` of the server on `devid`. -/
def SerialDevice.ofWord (devid : Word) : Option SerialDevice :=
  if devid = 1 then some .uart1 else if devid = 2 then some .uart2 else none

@[simp] theorem SerialDevice.ofWord_toWord (dev : SerialDevice) : SerialDevice.ofWord dev.toWord = some dev := by
  cases dev <;> rfl

/-- `sel4osapi_serial_op_t`. -/
inductive SerialOp where
  | write
  | read
  | config
  deriving DecidableEq, Repr

/-- The value of the enumeration. -/
def SerialOp.toWord : SerialOp → Word
  | .write => 201
  | .read => 202
  | .config => 203

/-- The `switch` of the server on `opcode`. -/
def SerialOp.ofWord (opcode : Word) : Option SerialOp :=
  if opcode = 201 then some .write else if opcode = 202 then some .read else if opcode = 203 then some .config else none

@[simp] theorem SerialOp.ofWord_toWord (op : SerialOp) : SerialOp.ofWord op.toWord = some op := by
  cases op <;> rfl

/-- `sel4osapi_serial_parity`. -/
inductive SerialParity where
  | none
  | even
  | odd
  deriving DecidableEq, Repr

/-- The value of the enumeration. -/
def SerialParity.toWord : SerialParity → Word
  | .none => 0
  | .even => 1
  | .odd => 2

/-- `sel4osapi_serial_config_t`. -/
structure SerialConfig where
  bps : Word
  charSize : Word
  parity : SerialParity
  stopBit : Word
  deriving DecidableEq, Repr

/-- The arguments of `serial_configure`, after the device. -/
structure SerialSettings where
  bps : Word
  charSize : Word
  parity : Word
  stopBit : Word
  deriving DecidableEq, Repr

/-- The arguments `serial_configure` gets for a configuration. -/
def SerialConfig.settings (c : SerialConfig) : SerialSettings :=
  { bps := c.bps, charSize := c.charSize, parity := c.parity.toWord, stopBit := c.stopBit }

/-- The four fields of a `sel4osapi_serial_config_t` at the start of a buffer. -/
def SerialSettings.load (buf : Nat → UInt8) : SerialSettings :=
  { bps := loadWord buf 0, charSize := loadWord buf 4, parity := loadWord buf 8, stopBit := loadWord buf 12 }

/-- What is asked of the server. -/
inductive SerialRequest where
  | write (data : List UInt8)
  | read (size timeout : Word)
  | configure (config : SerialConfig)
  deriving DecidableEq, Repr

namespace SerialRequest

/-- The opcode of a request. -/
def op : SerialRequest → SerialOp
  | .write _ => .write
  | .read _ _ => .read
  | .configure _ => .config

/-- The size that goes with a request in the third message register: that of the data, or of the `sel4osapi_serial_config_t`. -/
def size : SerialRequest → Word
  | .write data => UInt32.ofNat data.length
  | .read size _ => size
  | .configure _ => 16

/-- What the client stores in the buffer before the call, in order. -/
def stores : SerialRequest → List Store
  | .write data => bytes data
  | .read _ timeout => [.word 0 timeout]
  | .configure c => [.word 0 c.bps, .word 4 c.charSize, .word 8 c.parity.toWord, .word 12 c.stopBit]

end SerialRequest

/-- Where a call stands. -/
inductive SerialCallPc where
  | idle
  | take
  /-- about to make store number `i` to the buffer -/
  | store (i : Nat)
  | call
  | await
  /-- of a read: about to copy byte `i` out of the buffer -/
  | copyOut (i : Nat)
  | give
  | done
  deriving DecidableEq, Repr

/-- A call of one of the three functions. -/
structure SerialCall where
  /-- the serial client of the process -/
  client : Ptr
  dev : SerialDevice
  request : SerialRequest
  pc : SerialCallPc
  /-- of a read: the bytes copied out of the buffer -/
  data : List UInt8
  /-- the value returned, once there is a reply -/
  ret : Word
  /-- the bytes that the server stored in the buffer for this call, once there is a reply -/
  stored : List UInt8
  deriving DecidableEq, Repr

/-- Where the server stands. -/
inductive SerialPc where
  /-- in `seL4_Recv(server_ep)` -/
  | recv
  /-- looks for the client, tests the size and selects the device -/
  | lookup
  /-- in the loop of `SERIAL_OP_WRITE` -/
  | write
  /-- `SERIAL_OP_READ`: loads the timeout, and reads the clock -/
  | readTimeout
  | readStart
  /-- at the head of the `for`, and of the `while`, of `SERIAL_OP_READ` -/
  | readFor
  | readWhile
  | readGetchar
  /-- tests `ret` after the `while`, and stores it -/
  | readCheck
  | config
  | reply
  deriving DecidableEq, Repr

/-- `sel4osapi_serial_server_thread` with its variables. -/
structure SerialServer where
  pc : SerialPc
  /-- the call that is being served -/
  caller : Nat
  clientId : Int
  opcode : Word
  devid : Word
  mr3 : Word
  opSize : Word
  client : Option Ptr
  device : Option SerialDevice
  i : Nat
  /-- `EOF` is `none` -/
  ret : Option UInt8
  timeout : Word
  tStart : Word
  /-- the value of the reply -/
  mr0 : Word
  /-- the bytes stored in the buffer for this request -/
  stored : List UInt8
  deriving DecidableEq, Repr

/-- The serial server, the buffers and the semaphores of its clients, the devices, and what has happened so far. -/
structure SerialSystem where
  clients : Pool (Ptr → SerialClient)
  /-- the clients of the processes created so far -/
  processes : List Ptr
  buf : Ptr → Nat → UInt8
  bufAvail : Ptr → Nat
  server : SerialServer
  calls : Nat → SerialCall
  started : Nat
  /-- the characters put to each device -/
  output : SerialDevice → List UInt8
  /-- the write calls that have been executed, in order -/
  written : List Nat
  /-- the calls of `serial_configure`, in order: for which call, and with what -/
  configured : List (Nat × SerialDevice × SerialSettings)

/-- What can happen. -/
inductive SerialAction where
  /-- `sel4osapi_io_serial_create_client`, for a new process; `page` is what is in its pages -/
  | createClient (page : Nat → UInt8)
  /-- a thread of a process calls one of the three functions -/
  | start (client : Ptr) (dev : SerialDevice) (request : SerialRequest)
  /-- a call takes a step -/
  | call (k : Nat)
  /-- the server takes a step; the answers of the clock, of `ps_cdev_getchar` and of `serial_configure`, should it ask for
  them -/
  | server (time : Word) (char : Option UInt8) (error : Word)

/-- The lookup loop of the server: `client` is what the variable holds before. -/
def serialLookup (mem : Ptr → SerialClient) (clientId : Int) : List Ptr → (client : Option Ptr) → Option Ptr
  | [], client => client
  | el :: els, _ => if (mem el).id = clientId then some el else serialLookup mem clientId els none

namespace SerialSystem

/-- A call goes on. -/
def setCall (s : SerialSystem) (k : Nat) (c : SerialCall) : SerialSystem := { s with calls := Function.update s.calls k c }

/-- `sel4osapi_io_serial_create_client(server)`. -/
def createClient (s : SerialSystem) (page : Nat → UInt8) : Res SerialSystem := do
  let (client, clients) ← simplePoolAlloc s.clients
  match client with
  | none => .error (.assert "client")
  | some client =>
    let mem := Function.update clients.mem client { id := simplePoolGetCurrentSize clients, bufSize := serialBufSize }
    pure { s with
      clients := { clients with mem := mem }, processes := s.processes ++ [client]
      bufAvail := Function.update s.bufAvail client 1, buf := Function.update s.buf client page }

/-- The assertion a function makes before its call: `sel4osapi_io_serial_configure` makes none. -/
def assertSize (client : SerialClient) : SerialRequest → Res Unit
  | .write data => check (data.length ≤ client.bufSize.toNat) "size <= client->buf_size"
  | .read size _ => check (size ≤ client.bufSize) "size <= client->buf_size"
  | .configure _ => pure ()

/-- A step of call `k` of `sel4osapi_io_serial_write`, `sel4osapi_io_serial_read` or `sel4osapi_io_serial_configure`. -/
def callStep (s : SerialSystem) (k : Nat) : Outcome Fault SerialSystem :=
  let c := s.calls k
  match c.pc with
  | .idle => .blocked
  | .take =>
    .guard (0 < s.bufAvail c.client) (.next { s.setCall k { c with pc := .store 0 } with
      bufAvail := Function.update s.bufAvail c.client (s.bufAvail c.client - 1) })
  | .store i =>
    match c.request.stores[i]? with
    | some store =>
      .next { s.setCall k { c with pc := .store (i + 1) } with
        buf := Function.update s.buf c.client (store.apply (s.buf c.client)) }
    | none => .next (s.setCall k { c with pc := .call })
  | .call =>
    .guard (s.server.pc = .recv) (.next { s.setCall k { c with pc := .await } with
      server := { s.server with
        pc := .lookup, caller := k, clientId := (s.clients.mem c.client).id, opcode := c.request.op.toWord
        devid := c.dev.toWord, mr3 := c.request.size } })
  | .await => .blocked
  | .copyOut i =>
    if i < c.ret.toNat then .next (s.setCall k { c with data := c.data ++ [s.buf c.client i], pc := .copyOut (i + 1) })
    else .next (s.setCall k { c with pc := .give })
  | .give =>
    .next { s.setCall k { c with pc := .done } with
      bufAvail := Function.update s.bufAvail c.client (s.bufAvail c.client + 1) }
  | .done => .blocked

/-- The request that was received is looked at: the client, the size test, the device, the opcode. -/
def lookupStep (s : SerialSystem) : Res SerialSystem := do
  let v := s.server
  let els ← s.clients.elements
  match serialLookup s.clients.mem v.clientId els v.client with
  | none => .error (.assert "client")
  | some client =>
    check (v.opSize ≤ (s.clients.mem client).bufSize) "op_size <= client->buf_size"
    match SerialDevice.ofWord v.devid with
    | none => .error (.assert "device")
    | some device =>
      let v := { v with client := some client, device := some device }
      match SerialOp.ofWord v.opcode with
      | some .write => pure { s with server := { v with opSize := v.mr3, i := 0, stored := [], pc := .write } }
      | some .read =>
        pure { s with server := { v with opSize := v.mr3, i := 0, ret := none, stored := [], pc := .readTimeout } }
      | some .config => pure { s with server := { v with stored := [], pc := .config } }
      -- no case of the `switch`: no reply
      | none => pure { s with server := { v with pc := .recv } }

/-- A reply reaches the caller: a read that got something goes on to copy it. -/
def replyStep (s : SerialSystem) : SerialSystem :=
  let v := s.server
  let c := s.calls v.caller
  let pc := if c.request.op = .read ∧ v.mr0 > 0 then .copyOut 0 else .give
  { s.setCall v.caller { c with pc := pc, ret := v.mr0, stored := v.stored } with server := { v with pc := .recv } }

/-- A step of the server in the execution of a request of `client` on `device`. -/
def executeStep (s : SerialSystem) (client : Ptr) (device : SerialDevice) (time : Word) (char : Option UInt8) (error : Word) :
    SerialSystem :=
  let v := s.server
  match v.pc with
  | .write =>
    if v.i < v.opSize.toNat then
      { s with
        output := Function.update s.output device (s.output device ++ [s.buf client v.i]), server := { v with i := v.i + 1 } }
    else { s with server := { v with mr0 := v.opSize, pc := .reply }, written := s.written ++ [v.caller] }
  | .readTimeout => { s with server := { v with timeout := loadWord (s.buf client) 0, pc := .readStart } }
  | .readStart => { s with server := { v with tStart := time, pc := .readFor } }
  | .readFor =>
    if v.i < v.opSize.toNat then { s with server := { v with pc := .readWhile } }
    else { s with server := { v with mr0 := UInt32.ofNat v.i, pc := .reply } }
  | .readWhile =>
    -- `tNow` is `time`
    if v.ret = none ∧ ¬ (v.timeout > 0 ∧ time - v.tStart > v.timeout) then { s with server := { v with pc := .readGetchar } }
    else { s with server := { v with pc := .readCheck } }
  | .readGetchar => { s with server := { v with ret := char, pc := .readWhile } }
  | .readCheck =>
    match v.ret with
    | none => { s with server := { v with mr0 := UInt32.ofNat v.i, pc := .reply } }
    | some b =>
      { s with
        buf := Function.update s.buf client (Function.update (s.buf client) v.i b)
        server := { v with i := v.i + 1, stored := v.stored ++ [b], pc := .readFor } }
  | .config =>
    let settings := SerialSettings.load (s.buf client)
    { s with server := { v with mr0 := error, pc := .reply }, configured := s.configured ++ [(v.caller, device, settings)] }
  | .reply => s.replyStep
  | .recv | .lookup => s

/-- `sel4osapi_serial_server_thread`, a step of it other than in `seL4_Recv`. -/
def serverStep (s : SerialSystem) (time : Word) (char : Option UInt8) (error : Word) : Outcome Fault SerialSystem :=
  match s.server.pc with
  | .recv => .blocked
  | .lookup => .ofExcept s.lookupStep
  | _ =>
    match s.server.client, s.server.device with
    | some client, some device => .next (s.executeStep client device time char error)
    | _, _ => .fault .nullPointer

/-- One step of the server and of the processes that call it. -/
def step (s : SerialSystem) : SerialAction → Outcome Fault SerialSystem
  | .createClient page => .ofExcept (s.createClient page)
  | .start client dev request => .guard (client ∈ s.processes) (.ofExcept do
    assertSize (s.clients.mem client) request
    pure { s.setCall s.started { client := client, dev := dev, request := request, pc := .take, data := [], ret := 0, stored := [] }
      with started := s.started + 1 })
  | .call k => s.callStep k
  | .server time char error => s.serverStep time char error

/-- After `sel4osapi_io_serial_initialize`: a new pool for `processMax` clients, and the server at its start. -/
structure Init (processMax : Int) (s : SerialSystem) : Prop where
  clients : ∃ (malloc : Nat → Ptr) (nodes : NodeStore) (mem : Ptr → SerialClient) (elSize : Nat), Function.Injective malloc ∧
    simplePoolNew malloc nodes mem processMax elSize none none = .ok s.clients
  processes : s.processes = []
  pc : s.server.pc = .recv
  opSize : s.server.opSize = 0
  client : s.server.client = none
  calls : ∀ k, (s.calls k).pc = .idle
  started : s.started = 0
  output : ∀ dev, s.output dev = []
  written : s.written = []
  configured : s.configured = []

end SerialSystem

/-- The serial server and its clients as a transition system; `processMax` is `SEL4OSAPI_USER_PROCESS_MAX`. -/
def serialMachine (processMax : Int) : Machine Fault SerialSystem SerialAction where
  init := SerialSystem.Init processMax
  step := SerialSystem.step

/-! ## Messages from anywhere

Whoever has the endpoint of the server can send it four words, whether or not the functions above made them, and a process
can write to its buffer at any time. -/

/-- A message of four words to the server. -/
structure SerialMessage where
  mr0 : Word
  mr1 : Word
  mr2 : Word
  mr3 : Word
  deriving DecidableEq, Repr

/-- What can happen between the server and the processes, seen from the server. -/
inductive SerialTraffic where
  /-- `sel4osapi_io_serial_create_client`, for a new process -/
  | createClient (page : Nat → UInt8)
  /-- a process stores a byte in its buffer -/
  | store (client : Ptr) (i : Nat) (b : UInt8)
  /-- a message arrives on `server_ep` -/
  | message (m : SerialMessage)
  | server (time : Word) (char : Option UInt8) (error : Word)

namespace SerialSystem

/-- The message is about an existing client and an existing device. -/
def Known (s : SerialSystem) (m : SerialMessage) : Prop :=
  (∃ client ∈ s.processes, (s.clients.mem client).id = intOfWord m.mr0) ∧ (SerialDevice.ofWord m.mr2).isSome

instance (s : SerialSystem) (m : SerialMessage) : Decidable (s.Known m) := inferInstanceAs (Decidable (_ ∧ _))

/-- `seL4_Recv(server_ep)` returns with a message, and the variables are set from it. -/
def deliver (s : SerialSystem) (m : SerialMessage) : SerialSystem :=
  { s with
    server := { s.server with
      pc := .lookup, clientId := intOfWord m.mr0, opcode := m.mr1, devid := m.mr2, mr3 := m.mr3 } }

/-- One step of the server and of the processes around it. -/
def trafficStep (s : SerialSystem) : SerialTraffic → Outcome Fault SerialSystem
  | .createClient page => .ofExcept (s.createClient page)
  | .store client i b =>
    .next { s with buf := Function.update s.buf client (Function.update (s.buf client) i b) }
  | .message m => .guard (s.server.pc = .recv ∧ s.Known m) (.next (s.deliver m))
  | .server time char error => s.serverStep time char error

end SerialSystem

/-- The serial server under any messages about existing clients and devices. -/
def serialTrafficMachine (processMax : Int) : Machine Fault SerialSystem SerialTraffic where
  init := SerialSystem.Init processMax
  step := SerialSystem.trafficStep

end Sel4Osapi
