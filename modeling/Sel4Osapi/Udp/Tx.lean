import Sel4Osapi.Basic

/-!
# udp.c: the words of a transmission

What `sel4osapi_udp_socket_tx_thread` does with one message from `ep_tx_ready`, which any process with the endpoint may have
sent. The length goes through a message register, an `int`, a comparison with a `uint32_t`, the `u16_t` that `pbuf_alloc`
takes and the `size_t` of `memcpy`. The steps of the thread, among those of others, are in `Sel4Osapi.Udp.Process`, and who
waits for whom in between in `Sel4Osapi.Udp.Sync`.

lwIP is 1.4.1: `pbuf_alloc` returns null, or a packet buffer with a payload as long as the length it was passed; `err_t` has
8 bits.
-/

namespace Sel4Osapi

/-- `ERR_MEM` of lwIP. -/
def errMem : Int8 := -1

/-- A message for the tx thread: its length, and the message registers. -/
structure TxRequest where
  length : Nat
  mr0 : Word
  mr1 : Word
  mr2 : Word
  deriving DecidableEq, Repr

/-- Whether `pbuf_alloc` finds memory, and what `udp_sendto` returns. -/
structure TxAnswers where
  allocOk : Bool
  lwerr : Int8
  deriving DecidableEq, Repr

/-- What is passed to `udp_sendto`: the length of the payload of the packet buffer, the bytes of `tx_buf` that were copied to
it, the address and the port. -/
structure TxDatagram where
  payloadLen : UInt16
  copied : List UInt8
  addr : Word
  port : UInt16
  deriving DecidableEq, Repr

/-- What comes of a message: the datagram, if there was a packet buffer for it, and the reply. -/
structure TxServed where
  datagram : Option TxDatagram
  reply : Word
  deriving DecidableEq, Repr

/-- `len`, from message register 0 to where it is used. -/
def txLen (txBufSize mr0 : Word) : Int :=
  let len := intOfWord mr0
  -- the comparison is one of `uint32_t`
  if UInt32.ofInt len > txBufSize then intOfWord txBufSize else len

/-- `sel4osapi_udp_socket_tx_thread`, from `seL4_Recv` to `seL4_Reply`. -/
def udpSocketTxServe (txBufSize : Word) (txBuf : Nat → UInt8) (minfo : TxRequest) (a : TxAnswers) : Res TxServed := do
  check (minfo.length = 3) "seL4_MessageInfo_get_length(minfo) == 3"
  let len := txLen txBufSize minfo.mr0
  let datagram :=
    if a.allocOk then
      some {
        payloadLen := UInt16.ofInt len
        copied := (List.range (UInt32.ofInt len).toNat).map txBuf
        addr := minfo.mr1
        port := minfo.mr2.toUInt16 }
    else none
  let lwerr := if a.allocOk then a.lwerr else errMem
  pure { datagram := datagram, reply := UInt32.ofInt lwerr.toInt }

/-- The message that `sel4osapi_udp_send(socket, msg, len, ipaddr, port)` calls the tx thread with. -/
def udpSendRequest (len addr : Word) (port : UInt16) : TxRequest := { length := 3, mr0 := len, mr1 := addr, mr2 := port.toUInt32 }

end Sel4Osapi
