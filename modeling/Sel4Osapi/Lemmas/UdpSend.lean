import Sel4Osapi.Udp.Process
import Sel4Osapi.Lib.Semaphore
import Sel4Osapi.Theorems.UdpTx

/-!
# The invariant of `tx_buf`

One thread at a time is in the section of `tx_buf_avail`, and the tx thread that serves its call has the arguments of that call.
As long as nothing else is written to `tx_buf`, it holds what that thread has copied into it, and the tx thread copies that: `intact`
stands for this condition, which the rx threads decide. No thread outside the section, and no tx thread of another socket, can
tell.
-/

namespace Sel4Osapi

open Transition Semaphore

/-- The thread has taken `tx_buf_avail` and not given it back. -/
def UdpPc.inTx : UdpPc → Bool
  | .sendCopy _ | .sendCall | .sendAwait | .sendGive => true
  | _ => false

/-- The thread is in `sel4osapi_udp_send`. -/
def UdpPc.inSend : UdpPc → Bool
  | .sendTake | .sendCopy _ | .sendCall | .sendAwait | .sendGive => true
  | _ => false

theorem UdpPc.inSend_of_inTx {pc : UdpPc} (h : pc.inTx = true) : pc.inSend = true := by
  cases pc <;> first | rfl | cases h

/-- `tx_buf` holds what the thread has copied into it. -/
def UdpThread.CopiedIn (t : UdpThread) (buf : Nat → UInt8) : Prop :=
  match t.pc with
  | .sendCopy i => i ≤ t.msg.length ∧ ∀ j < i, t.msg[j]? = some (buf j)
  | .sendCall | .sendAwait => ∀ j < t.msg.length, t.msg[j]? = some (buf j)
  | _ => True

theorem UdpThread.copiedIn_of_not_inTx {t : UdpThread} {buf : Nat → UInt8} (h : t.pc.inTx = false) : t.CopiedIn buf := by
  unfold UdpThread.CopiedIn
  cases hpc : t.pc <;> first | trivial | simp [hpc, UdpPc.inTx] at h

/-- Only the bytes of the message matter. -/
theorem UdpThread.CopiedIn.congr {t : UdpThread} {buf buf' : Nat → UInt8} (h : t.CopiedIn buf)
    (hbuf : t.pc.inTx = true → ∀ j < t.msg.length, buf' j = buf j) : t.CopiedIn buf' := by
  unfold UdpThread.CopiedIn at h ⊢
  cases hpc : t.pc with
  | sendCopy i =>
    rw [hpc] at h
    refine ⟨h.1, ?_⟩
    intro j hj
    rw [hbuf (by rw [hpc]; rfl) j (Nat.lt_of_lt_of_le hj h.1)]
    exact h.2 j hj
  | sendCall | sendAwait =>
    rw [hpc] at h
    intro j hj
    rw [hbuf (by rw [hpc]; rfl) j hj]
    exact h j hj
  | _ => trivial

/-- The message of a thread that sends is shorter than `tx_buf`, and one whose length a `u16_t` holds. -/
structure UdpThread.Fits (t : UdpThread) (cfg : UdpConfig) (intact : Prop) : Prop where
  inside : t.msg.length < cfg.txBufSize.toNat
  short : intact → t.msg.length < 65536

/-- The tx thread of socket `i` serves the call of the thread `t`. -/
structure TxServer.Serves (x : TxServer) (i : Nat) (t : UdpThread) : Prop where
  pc : t.pc = .sendAwait
  socket : t.socket = i
  len : x.len = intOfWord (UInt32.ofNat t.msg.length)
  addr : x.addr = t.addr
  port : x.port = t.port

/-- The tx thread has copied the message of the thread `t` as far as it has come. -/
structure TxServer.Copies (x : TxServer) (t : UdpThread) : Prop where
  copy : x.pc = .copy → x.payload = t.msg.take x.payload.length
  sendto : x.pc = .sendto → x.payload = t.msg

/-- The tx thread neither copies nor has copied. -/
theorem TxServer.copies_of_ne {x : TxServer} {t : UdpThread} (hcopy : x.pc ≠ .copy) (hsendto : x.pc ≠ .sendto) : x.Copies t :=
  ⟨fun h => absurd h hcopy, fun h => absurd h hsendto⟩

/-- A message shorter than `tx_buf` is received as it was sent. -/
theorem TxServer.receive_ok {x x' : TxServer} {txBufSize len addr : Word} {port : UInt16} {c : Nat} (hlt : len < txBufSize)
    (h : x.receive txBufSize c (udpSendRequest len addr port) = .ok x') :
    x' = { x with pc := .lockIface, caller := c, len := intOfWord len, addr := addr, port := port, lwerr := errMem } := by
  obtain ⟨_, -, h⟩ := bind_ok h
  simp only [udpSendRequest, txLen_of_lt hlt, UInt16.toUInt16_toUInt32] at h
  cases h
  rfl

/-- The threads of the process, the tx threads and `tx_buf` are consistent. -/
structure SendInv (cfg : UdpConfig) (intact : Prop) (threads : Nat → UdpThread) (tx : Nat → TxServer) (txBuf : Nat → UInt8)
    (avail : Nat) : Prop where
  excl : Exclusive avail fun c => (threads c).pc.inTx = true
  args : ∀ c, (threads c).pc.inSend = true → (threads c).Fits cfg intact
  serves : ∀ i, (tx i).pc ≠ .recv → (tx i).Serves i (threads (tx i).caller)
  copied : intact → ∀ c, (threads c).CopiedIn txBuf
  copies : intact → ∀ i, (tx i).pc ≠ .recv → (tx i).Copies (threads (tx i).caller)

namespace SendInv

variable {cfg : UdpConfig} {intact : Prop} {threads : Nat → UdpThread} {tx : Nat → TxServer} {txBuf : Nat → UInt8} {avail : Nat} {c i : Nat}
  {t' : UdpThread} {x' : TxServer}

/-- A thread that does not await a reply is not the one a tx thread serves. -/
theorem not_caller (h : SendInv cfg intact threads tx txBuf avail) (hc : (threads c).pc ≠ .sendAwait) (j : Nat)
    (hj : (tx j).pc ≠ .recv) : (tx j).caller ≠ c :=
  fun e => hc (e ▸ (h.serves j hj).pc)

/-- The other threads are not in the section of one that is. -/
theorem not_inTx (h : SendInv cfg intact threads tx txBuf avail) (hc : (threads c).pc.inTx = true) {d : Nat} (hne : d ≠ c) :
    (threads d).pc.inTx = false := by
  by_contra hd
  exact hne (h.excl.eq (by simpa using hd) hc)

/-- The length of the message of a thread that sends is one of a word. -/
theorem toNat_len (h : SendInv cfg intact threads tx txBuf avail) (hc : (threads c).pc.inSend = true) :
    (UInt32.ofNat (threads c).msg.length).toNat = (threads c).msg.length :=
  UInt32.toNat_ofNat_of_lt' (Nat.lt_trans (h.args c hc).inside cfg.txBufSize.toNat_lt)

/-- The length of the message of a thread that sends is less than the size of `tx_buf`. -/
theorem len_lt (h : SendInv cfg intact threads tx txBuf avail) (hc : (threads c).pc.inSend = true) :
    UInt32.ofNat (threads c).msg.length < cfg.txBufSize := by
  rw [UInt32.lt_iff_toNat_lt, h.toNat_len hc]
  exact (h.args c hc).inside

/-- The length that a tx thread copies is that of the message of its caller. -/
theorem copyLen (h : SendInv cfg intact threads tx txBuf avail) (hx : (tx i).pc ≠ .recv) :
    (tx i).copyLen = (threads (tx i).caller).msg.length := by
  have hs := h.serves i hx
  rw [TxServer.copyLen, hs.len, ofInt_intOfWord, h.toNat_len (by rw [hs.pc]; rfl)]

/-- The length of the packet buffer is that of the message of its caller, modulo 65536. -/
theorem payloadLen (h : SendInv cfg intact threads tx txBuf avail) (hx : (tx i).pc ≠ .recv) :
    (UInt16.ofInt (tx i).len).toNat = (threads (tx i).caller).msg.length % 65536 := by
  have hs := h.serves i hx
  rw [hs.len, toNat_uint16_ofInt_intOfWord, h.toNat_len (by rw [hs.pc]; rfl)]

/-- The packet buffer holds the message of the caller, and is as long. -/
theorem packet (h : SendInv cfg intact threads tx txBuf avail) (hi : intact) (hx : (tx i).pc = .sendto) :
    (tx i).packet = (threads (tx i).caller).msg ∧ (UInt16.ofInt (tx i).len).toNat = (threads (tx i).caller).msg.length := by
  have hrecv : (tx i).pc ≠ .recv := by simp [hx]
  have hshort := (h.args (tx i).caller (by rw [(h.serves i hrecv).pc]; rfl)).short hi
  have hlen : (UInt16.ofInt (tx i).len).toNat = (threads (tx i).caller).msg.length := by
    rw [h.payloadLen hrecv, Nat.mod_eq_of_lt hshort]
  exact ⟨by rw [TxServer.packet, hlen, (h.copies hi i hrecv).sendto hx, List.take_length], hlen⟩

/-- Once a tx thread has copied the message of its caller, it has what is in `tx_buf`. -/
theorem payload_eq (h : SendInv cfg intact threads tx txBuf avail) (hi : intact) (hx : (tx i).pc = .sendto) :
    (tx i).payload = (List.range (threads (tx i).caller).msg.length).map txBuf := by
  have hrecv : (tx i).pc ≠ .recv := by simp [hx]
  have hbuf := h.copied hi (tx i).caller
  rw [UdpThread.CopiedIn, (h.serves i hrecv).pc] at hbuf
  rw [(h.copies hi i hrecv).sendto hx]
  refine List.ext_getElem? fun j => ?_
  by_cases hj : j < (threads (tx i).caller).msg.length
  · rw [hbuf j hj, List.getElem?_map, List.getElem?_range hj]
    rfl
  · rw [List.getElem?_eq_none (Nat.not_lt.mp hj), List.getElem?_eq_none]
    simpa using hj

/-- Something is written outside `tx_buf`. -/
theorem overwrite (h : SendInv cfg intact threads tx txBuf avail) {buf' : Nat → UInt8}
    (hbuf : intact → ∀ j < cfg.txBufSize.toNat, buf' j = txBuf j) : SendInv cfg intact threads tx buf' avail := by
  refine ⟨h.excl, h.args, h.serves, ?_, h.copies⟩
  intro hi c
  refine (h.copied hi c).congr fun hc j hj => hbuf hi j ?_
  exact Nat.lt_trans hj (h.args c (UdpPc.inSend_of_inTx hc)).inside

/-- A thread goes on that no tx thread serves. -/
theorem updateThread (h : SendInv cfg intact threads tx txBuf avail) {buf' : Nat → UInt8} {avail' : Nat}
    (hexcl : Exclusive avail' fun d => (Function.update threads c t' d).pc.inTx = true)
    (hargs : t'.pc.inSend = true → t'.Fits cfg intact) (hself : intact → t'.CopiedIn buf')
    (hothers : intact → ∀ d, d ≠ c → (threads d).CopiedIn buf') (hserves : ∀ j, (tx j).pc ≠ .recv → (tx j).caller ≠ c) :
    SendInv cfg intact (Function.update threads c t') tx buf' avail' := by
  refine ⟨hexcl, ?_, ?_, ?_, ?_⟩
  · intro d hd
    rcases eq_or_ne d c with rfl | hne
    · simpa using hargs (by simpa using hd)
    · simpa [hne] using h.args d (by simpa [hne] using hd)
  · intro j hj
    rw [Function.update_of_ne (hserves j hj)]
    exact h.serves j hj
  · intro hi d
    rcases eq_or_ne d c with rfl | hne
    · simpa using hself hi
    · simpa [hne] using hothers hi d hne
  · intro hi j hj
    rw [Function.update_of_ne (hserves j hj)]
    exact h.copies hi j hj

/-- A thread moves outside `sel4osapi_udp_send`, or calls it. -/
theorem elsewhere (h : SendInv cfg intact threads tx txBuf avail) (hc : (threads c).pc.inSend = false) (ht : t'.pc.inTx = false)
    (hargs : t'.pc.inSend = true → t'.Fits cfg intact) :
    SendInv cfg intact (Function.update threads c t') tx txBuf avail := by
  refine h.updateThread (h.excl.congr ?_) hargs (fun _ => UdpThread.copiedIn_of_not_inTx ht) (fun hi d _ => h.copied hi d)
    (h.not_caller fun e => by simp [e, UdpPc.inSend] at hc)
  intro d
  rcases eq_or_ne d c with rfl | hne
  · have hx : (threads d).pc.inTx ≠ true := fun hx => by simp [UdpPc.inSend_of_inTx hx] at hc
    simp [ht, hx]
  · simp [hne]

/-- A thread moves within its section, without awaiting a reply. -/
theorem within (h : SendInv cfg intact threads tx txBuf avail) {buf' : Nat → UInt8} (hc : (threads c).pc.inTx = true)
    (hawait : (threads c).pc ≠ .sendAwait) (ht : t'.pc.inTx = true) (hmsg : t'.msg = (threads c).msg)
    (hcopied : intact → t'.CopiedIn buf') : SendInv cfg intact (Function.update threads c t') tx buf' avail := by
  refine h.updateThread (h.excl.congr ?_) ?_ hcopied
    (fun _ d hne => UdpThread.copiedIn_of_not_inTx (h.not_inTx hc hne)) (h.not_caller hawait)
  · intro d
    rcases eq_or_ne d c with rfl | hne
    · simp [ht, hc]
    · simp [hne]
  · intro _
    have hargs := h.args c (UdpPc.inSend_of_inTx hc)
    exact ⟨hmsg ▸ hargs.inside, hmsg ▸ hargs.short⟩

/-- A thread takes the semaphore. -/
theorem take (h : SendInv cfg intact threads tx txBuf avail) (hv : 0 < avail) (hc : (threads c).pc = .sendTake) :
    SendInv cfg intact (Function.update threads c { threads c with pc := .sendCopy 0 }) tx txBuf (avail - 1) :=
  h.updateThread (h.excl.take hv (c := c) (by simp [UdpPc.inTx]) fun d hne => by simp [hne])
    (fun _ => ⟨(h.args c (by simp [hc, UdpPc.inSend])).inside, (h.args c (by simp [hc, UdpPc.inSend])).short⟩)
    (fun _ => by simp [UdpThread.CopiedIn]) (fun hi d _ => h.copied hi d)
    (h.not_caller (by simp [hc]))

/-- A thread gives the semaphore back. -/
theorem give (h : SendInv cfg intact threads tx txBuf avail) (hc : (threads c).pc = .sendGive) :
    SendInv cfg intact (Function.update threads c { threads c with pc := .idle }) tx txBuf (avail + 1) :=
  h.updateThread (h.excl.give (c := c) (by simp [hc, UdpPc.inTx]) (by simp [UdpPc.inTx]) fun d hne => by simp [hne])
    (by simp [UdpPc.inSend]) (fun _ => by simp [UdpThread.CopiedIn]) (fun hi d _ => h.copied hi d) (h.not_caller (by simp [hc]))

/-- A thread copies a byte into `tx_buf`. -/
theorem copyByte (h : SendInv cfg intact threads tx txBuf avail) (hc : (threads c).pc = .sendCopy i) {b : UInt8}
    (hb : (threads c).msg[i]? = some b) :
    SendInv cfg intact (Function.update threads c { threads c with pc := .sendCopy (i + 1) }) tx (Function.update txBuf i b)
      avail := by
  refine h.within (by simp [hc, UdpPc.inTx]) (by simp [hc]) rfl rfl fun hi => ?_
  have hold := h.copied hi c
  rw [UdpThread.CopiedIn, hc] at hold
  obtain ⟨hlt, -⟩ := List.getElem?_eq_some_iff.mp hb
  refine ⟨hlt, ?_⟩
  intro j hj
  rcases eq_or_ne j i with rfl | hne
  · simpa using hb
  · rw [Function.update_of_ne hne]
    exact hold.2 j (by omega)

/-- A thread has copied its message into `tx_buf`. -/
theorem copyDone (h : SendInv cfg intact threads tx txBuf avail) (hc : (threads c).pc = .sendCopy i)
    (hb : (threads c).msg[i]? = none) :
    SendInv cfg intact (Function.update threads c { threads c with pc := .sendCall }) tx txBuf avail := by
  refine h.within (by simp [hc, UdpPc.inTx]) (by simp [hc]) rfl rfl fun hi => ?_
  intro j hj
  have hold := h.copied hi c
  rw [UdpThread.CopiedIn, hc] at hold
  have hlen : (threads c).msg.length ≤ i := List.getElem?_eq_none_iff.mp hb
  exact hold.2 j (Nat.lt_of_lt_of_le hj hlen)

/-- The tx thread of a socket receives the call of a thread. -/
theorem call (h : SendInv cfg intact threads tx txBuf avail) (hc : (threads c).pc = .sendCall)
    (hx : (tx (threads c).socket).receive cfg.txBufSize c
      (udpSendRequest (UInt32.ofNat (threads c).msg.length) (threads c).addr (threads c).port) = .ok x') :
    SendInv cfg intact (Function.update threads c { threads c with pc := .sendAwait })
      (Function.update tx (threads c).socket x') txBuf avail := by
  obtain rfl := TxServer.receive_ok (h.len_lt (by simp [hc, UdpPc.inSend])) hx
  have hmoved : SendInv cfg intact (Function.update threads c { threads c with pc := .sendAwait }) tx txBuf avail := by
    refine h.within (by simp [hc, UdpPc.inTx]) (by simp [hc]) rfl rfl fun hi => ?_
    have hold := h.copied hi c
    rw [UdpThread.CopiedIn, hc] at hold
    exact hold
  refine ⟨hmoved.excl, hmoved.args, ?_, hmoved.copied, ?_⟩
  · intro j hj
    rcases eq_or_ne j (threads c).socket with rfl | hne
    · simp only [Function.update_self]
      exact ⟨rfl, rfl, rfl, rfl, rfl⟩
    · rw [Function.update_of_ne hne] at hj ⊢
      exact hmoved.serves j hj
  · intro hi j hj
    rcases eq_or_ne j (threads c).socket with rfl | hne
    · simp only [Function.update_self]
      exact TxServer.copies_of_ne (by simp) (by simp)
    · rw [Function.update_of_ne hne] at hj ⊢
      exact hmoved.copies hi j hj

/-- A tx thread moves on with the call it serves. -/
theorem serve (h : SendInv cfg intact threads tx txBuf avail) (hx : (tx i).pc ≠ .recv) (hcaller : x'.caller = (tx i).caller)
    (hlen : x'.len = (tx i).len) (haddr : x'.addr = (tx i).addr) (hport : x'.port = (tx i).port)
    (hcopies : intact → x'.Copies (threads (tx i).caller)) : SendInv cfg intact threads (Function.update tx i x') txBuf avail := by
  refine ⟨h.excl, h.args, ?_, h.copied, ?_⟩
  · intro j hj
    rcases eq_or_ne j i with rfl | hne
    · have hs := h.serves j hx
      simp only [Function.update_self, hcaller]
      exact ⟨hs.pc, hs.socket, hlen.trans hs.len, haddr.trans hs.addr, hport.trans hs.port⟩
    · rw [Function.update_of_ne hne] at hj ⊢
      exact h.serves j hj
  · intro hi j hj
    rcases eq_or_ne j i with rfl | hne
    · simp only [Function.update_self, hcaller]
      exact hcopies hi
    · rw [Function.update_of_ne hne] at hj ⊢
      exact h.copies hi j hj

/-- The tx thread copies a byte out of `tx_buf`: it is the next one of the message of its caller. -/
theorem copyOut (h : SendInv cfg intact threads tx txBuf avail) (hx : (tx i).pc = .copy)
    (hlt : (tx i).payload.length < (tx i).copyLen) :
    SendInv cfg intact threads
      (Function.update tx i { tx i with payload := (tx i).payload ++ [txBuf (tx i).payload.length] }) txBuf avail := by
  have hrecv : (tx i).pc ≠ .recv := by simp [hx]
  refine h.serve hrecv rfl rfl rfl rfl fun hi => ⟨fun _ => ?_, by simp [hx]⟩
  have hbuf := h.copied hi (tx i).caller
  rw [UdpThread.CopiedIn, (h.serves i hrecv).pc] at hbuf
  have hb := hbuf (tx i).payload.length (h.copyLen hrecv ▸ hlt)
  rw [List.length_append, List.length_singleton, List.take_add_one, hb, ← (h.copies hi i hrecv).copy hx]
  rfl

/-- The tx thread has copied the whole message of its caller. -/
theorem copyOutDone (h : SendInv cfg intact threads tx txBuf avail) (hx : (tx i).pc = .copy)
    (hge : ¬ (tx i).payload.length < (tx i).copyLen) :
    SendInv cfg intact threads (Function.update tx i { tx i with pc := .sendto }) txBuf avail := by
  have hrecv : (tx i).pc ≠ .recv := by simp [hx]
  refine h.serve hrecv rfl rfl rfl rfl fun hi => ⟨by simp, fun _ => ?_⟩
  have hp := (h.copies hi i hrecv).copy hx
  rw [List.take_of_length_le (by rw [← h.copyLen hrecv]; omega)] at hp
  exact hp

/-- The tx thread replies to its caller. -/
theorem reply (h : SendInv cfg intact threads tx txBuf avail) (hx : (tx i).pc = .reply) (error : Int) :
    SendInv cfg intact (Function.update threads (tx i).caller { threads (tx i).caller with pc := .sendGive, error := error })
      (Function.update tx i { tx i with pc := .recv }) txBuf avail := by
  have hs := h.serves i (by simp [hx])
  have hfree : SendInv cfg intact threads (Function.update tx i { tx i with pc := .recv }) txBuf avail := by
    refine ⟨h.excl, h.args, ?_, h.copied, ?_⟩
    · intro j hj
      rcases eq_or_ne j i with rfl | hne
      · simp at hj
      · rw [Function.update_of_ne hne] at hj ⊢
        exact h.serves j hj
    · intro hi j hj
      rcases eq_or_ne j i with rfl | hne
      · simp at hj
      · rw [Function.update_of_ne hne] at hj ⊢
        exact h.copies hi j hj
  refine hfree.updateThread (h.excl.congr ?_) ?_ (fun _ => trivial)
    (fun _ d hne => UdpThread.copiedIn_of_not_inTx (h.not_inTx (by simp [hs.pc, UdpPc.inTx]) hne)) ?_
  · intro d
    rcases eq_or_ne d (tx i).caller with rfl | hne
    · simp [hs.pc, UdpPc.inTx]
    · simp [hne]
  · intro _
    have hargs := h.args (tx i).caller (by simp [hs.pc, UdpPc.inSend])
    exact ⟨hargs.inside, hargs.short⟩
  · -- a tx thread with the same caller would be that of the same socket
    intro j hj e
    rcases eq_or_ne j i with rfl | hne
    · simp at hj
    · rw [Function.update_of_ne hne] at hj e
      have := (h.serves j hj).socket
      rw [e, hs.socket] at this
      exact hne this.symm

end SendInv

end Sel4Osapi
