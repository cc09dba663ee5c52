import Sel4Osapi.Lemmas.Words
import Sel4Osapi.Udp.Tx

/-!
# The bounds of a transmission

Whatever length a process asks for, the tx thread copies that many bytes of `tx_buf`, or all of it if it has fewer. They fit
into the packet buffer if they are fewer than 65536, since `pbuf_alloc` takes the length modulo 65536.
-/

namespace Sel4Osapi

/-! ## The length -/

/-- The length is that of the message or of `tx_buf`, whichever is less. -/
theorem txLen_eq (txBufSize mr0 : Word) :
    ∃ w, txLen txBufSize mr0 = intOfWord w ∧ w.toNat = min mr0.toNat txBufSize.toNat := by
  unfold txLen
  simp only [ofInt_intOfWord]
  split
  · rename_i hlt
    have hlt := UInt32.lt_iff_toNat_lt.mp hlt
    exact ⟨txBufSize, rfl, by omega⟩
  · rename_i hle
    have hle := UInt32.le_iff_toNat_le.mp (UInt32.not_lt.mp hle)
    exact ⟨mr0, rfl, by omega⟩

/-- A message shorter than `tx_buf` has its own length. -/
theorem txLen_of_lt {txBufSize mr0 : Word} (h : mr0 < txBufSize) : txLen txBufSize mr0 = intOfWord mr0 := by
  unfold txLen
  dsimp only
  rw [ofInt_intOfWord, if_neg (UInt32.lt_asymm h)]

/-! ## What is copied -/

/-- What comes of a message of three words. -/
theorem udpSocketTxServe_ok (txBufSize : Word) (txBuf : Nat → UInt8) (mr0 mr1 mr2 : Word) (a : TxAnswers) :
    ∃ served, udpSocketTxServe txBufSize txBuf ⟨3, mr0, mr1, mr2⟩ a = .ok served ∧
      served.reply = UInt32.ofInt (if a.allocOk then a.lwerr else errMem).toInt ∧ (served.datagram.isSome ↔ a.allocOk) ∧
      ∀ d, served.datagram = some d →
        d.copied = (List.range (min mr0.toNat txBufSize.toNat)).map txBuf ∧
        d.payloadLen.toNat = min mr0.toNat txBufSize.toNat % 65536 ∧ d.addr = mr1 ∧ d.port = mr2.toUInt16 := by
  refine ⟨_, rfl, rfl, ?_, ?_⟩
  · cases a.allocOk <;> simp
  · intro d hd
    cases hok : a.allocOk with
    | false => simp [hok] at hd
    | true =>
      rw [hok, if_pos rfl] at hd
      cases hd
      obtain ⟨len, hlen, htoNat⟩ := txLen_eq txBufSize mr0
      simp only [hlen, ofInt_intOfWord, toNat_uint16_ofInt_intOfWord, htoNat, and_self]

/-- The bytes copied are within `tx_buf` and within the packet buffer, and as many as the message says if `tx_buf` has as
many. -/
structure TxBounds (txBufSize mr0 : Word) (d : TxDatagram) : Prop where
  txBuf : d.copied.length ≤ txBufSize.toNat
  pbuf : d.copied.length ≤ d.payloadLen.toNat
  length : mr0 ≤ txBufSize → d.copied.length = mr0.toNat

/-- For every message of three words, every size of `tx_buf` and whatever lwIP answers: the thread replies, it copies when
it has a packet buffer, and it then keeps to the bounds if and only if the length of the message or the size of `tx_buf` is
less than 65536. -/
theorem tx_bounds_iff (txBufSize : Word) (txBuf : Nat → UInt8) (mr0 mr1 mr2 : Word) (a : TxAnswers) :
    ∃ served, udpSocketTxServe txBufSize txBuf ⟨3, mr0, mr1, mr2⟩ a = .ok served ∧ (served.datagram.isSome ↔ a.allocOk) ∧
      ∀ d, served.datagram = some d → (TxBounds txBufSize mr0 d ↔ min mr0.toNat txBufSize.toNat < 65536) := by
  obtain ⟨served, hserved, -, hisSome, hdatagram⟩ := udpSocketTxServe_ok txBufSize txBuf mr0 mr1 mr2 a
  refine ⟨served, hserved, hisSome, ?_⟩
  intro d hd
  obtain ⟨hcopied, hpayload, -⟩ := hdatagram d hd
  have hlength : d.copied.length = min mr0.toNat txBufSize.toNat := by
    rw [hcopied, List.length_map, List.length_range]
  constructor
  · intro h
    have hpbuf := h.pbuf
    rw [hlength, hpayload] at hpbuf
    have hmod : min mr0.toNat txBufSize.toNat % 65536 < 65536 := Nat.mod_lt _ (by decide)
    exact Nat.lt_of_le_of_lt hpbuf hmod
  · intro hlt
    refine ⟨?_, ?_, ?_⟩
    · rw [hlength]
      exact Nat.min_le_right _ _
    · rw [hlength, hpayload, Nat.mod_eq_of_lt hlt]
    · intro hle
      rw [hlength, Nat.min_eq_left (UInt32.le_iff_toNat_le.mp hle)]

/-- With a `tx_buf` of 64 KB all of it is copied into a packet buffer without any payload. -/
theorem tx_bounds_exceeded : ¬ ∀ txBufSize txBuf mr0 mr1 mr2 a served,
    udpSocketTxServe txBufSize txBuf ⟨3, mr0, mr1, mr2⟩ a = .ok served →
    ∀ d, served.datagram = some d → TxBounds txBufSize mr0 d := by
  intro hall
  obtain ⟨served, hserved, -, hisSome, hdatagram⟩ := udpSocketTxServe_ok 65536 (fun _ => 0) 65536 0 0 ⟨true, 0⟩
  obtain ⟨d, hd⟩ := Option.isSome_iff_exists.mp (hisSome.mpr rfl)
  obtain ⟨hcopied, hpayload, -⟩ := hdatagram d hd
  have hpbuf := (hall _ _ _ _ _ _ _ hserved d hd).pbuf
  rw [hcopied, hpayload, List.length_map, List.length_range] at hpbuf
  exact absurd hpbuf (by decide)

/-- A message from `sel4osapi_udp_send` is transmitted with the bytes the process put in `tx_buf` and the address and the port it
gave, in a packet buffer of that length modulo 65536. -/
theorem udpSocketTxServe_udpSend {txBufSize len : Word} (h : len < txBufSize) (txBuf : Nat → UInt8) (addr : Word) (port : UInt16)
    (a : TxAnswers) :
    udpSocketTxServe txBufSize txBuf (udpSendRequest len addr port) a = .ok {
      datagram :=
        if a.allocOk then
          some {
            payloadLen := UInt16.ofInt (intOfWord len)
            copied := (List.range len.toNat).map txBuf
            addr := addr
            port := port }
        else none
      reply := UInt32.ofInt (if a.allocOk then a.lwerr else errMem).toInt } := by
  simp only [udpSocketTxServe, udpSendRequest, txLen_of_lt h, ofInt_intOfWord, UInt16.toUInt16_toUInt32]
  rfl

end Sel4Osapi
