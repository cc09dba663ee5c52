import Sel4Osapi.Udp.Process
import Sel4Osapi.Lemmas.UdpRx
import Sel4Osapi.Lib.Semaphore

/-!
# The invariant of `rx_buf`

One thread at a time is in the section of `rx_buf_avail`, so one rx thread at a time serves a call, and `rx_buf` holds what
its copy loop has written, as far as that is inside `rx_buf`. From the reply on it holds the datagram the rx thread replied with,
which is no longer than `rx_buf`, until the thread in the section has copied it and given the semaphore back.
-/

namespace Sel4Osapi

open Transition Semaphore

/-- The thread has taken `rx_buf_avail` and not given it back. -/
def UdpPc.inRx : UdpPc → Bool
  | .recvCall | .recvAwait | .recvCheck | .recvCopy _ | .recvGive => true
  | _ => false

/-- The rx thread has received a call and not replied to it. -/
def RxPc.serving : RxPc → Bool
  | .lockPeek | .peek | .unlockPeek | .load | .copy | .unlockEmpty | .reply => true
  | _ => false

/-! ## The message registers of a reply -/

namespace RxServer

/-- The length of a datagram that fits in `rx_buf`. -/
theorem reply_mr0 {t : RxServer} (h : t.packetLen < 2 ^ 32) : t.reply.mr0.toNat = t.packetLen := UInt32.toNat_ofNat_of_lt' h

@[simp] theorem reply_mr1 (t : RxServer) : t.reply.mr1.toUInt16 = t.port := UInt16.toUInt16_toUInt32 t.port

@[simp] theorem reply_mr2 (t : RxServer) : t.reply.mr2 = t.ipaddr := rfl

end RxServer

/-! ## What the threads hold -/

/-- `rx_buf` holds the datagram the thread was replied with. -/
def UdpThread.Got (t : UdpThread) (rxBufSize : Nat) (rx : Nat → RxServer) (buf : Nat → UInt8) (sv : Served) : Prop :=
  t.datagram = some sv ∧ sv ∈ (rx t.socket).served ∧ t.len = sv.data.length ∧ sv.data.length ≤ rxBufSize ∧
    ∀ j < sv.data.length, sv.data[j]? = some (buf j)

/-- What a thread that receives has copied out of `rx_buf`. -/
def UdpThread.CopiedOut (t : UdpThread) (rxBufSize : Nat) (rx : Nat → RxServer) (buf : Nat → UInt8) : Prop :=
  match t.pc with
  | .recvWait | .recvTake | .recvCall | .recvAwait => t.msg = [] ∧ t.error = 0
  | .recvCheck => t.msg = [] ∧ (t.len = 0 ∨ ∃ sv, t.Got rxBufSize rx buf sv)
  | .recvCopy i => ∃ sv, t.Got rxBufSize rx buf sv ∧ i ≤ sv.data.length ∧ t.msg = sv.data.take i
  | .recvGive => if t.error = 0 then ∃ sv, t.datagram = some sv ∧ sv ∈ (rx t.socket).served ∧ t.msg = sv.data else t.msg = []
  | _ => True

/-- What a thread has copied does not change with more datagrams served, nor with a write beyond the end of `rx_buf`, or while it
does not read `rx_buf`. -/
theorem UdpThread.CopiedOut.mono {t : UdpThread} {rxBufSize : Nat} {rx rx' : Nat → RxServer} {buf buf' : Nat → UInt8}
    (h : t.CopiedOut rxBufSize rx buf) (hserved : ∀ sv ∈ (rx t.socket).served, sv ∈ (rx' t.socket).served)
    (hbuf : (∀ j < rxBufSize, buf' j = buf j) ∨ (t.pc ≠ .recvCheck ∧ ∀ i, t.pc ≠ .recvCopy i)) :
    t.CopiedOut rxBufSize rx' buf' := by
  have hgot : (∀ j < rxBufSize, buf' j = buf j) → ∀ sv, t.Got rxBufSize rx buf sv → t.Got rxBufSize rx' buf' sv := by
    rintro hbuf sv ⟨hd, hsv, hlen, hfits, hdata⟩
    refine ⟨hd, hserved sv hsv, hlen, hfits, ?_⟩
    intro j hj
    rw [hbuf j (Nat.lt_of_lt_of_le hj hfits)]
    exact hdata j hj
  unfold UdpThread.CopiedOut at h ⊢
  cases hpc : t.pc with
  | recvCheck =>
    rcases hbuf with hbuf | hbuf
    · rw [hpc] at h
      rcases h with ⟨hmsg, hlen | ⟨sv, hsv⟩⟩
      · exact ⟨hmsg, Or.inl hlen⟩
      · exact ⟨hmsg, Or.inr ⟨sv, hgot hbuf sv hsv⟩⟩
    · exact absurd hpc hbuf.1
  | recvCopy i =>
    rcases hbuf with hbuf | hbuf
    · rw [hpc] at h
      obtain ⟨sv, hsv, hrest⟩ := h
      exact ⟨sv, hgot hbuf sv hsv, hrest⟩
    · exact absurd hpc (hbuf.2 i)
  | recvGive =>
    simp only [hpc] at h ⊢
    split at h
    case isTrue he =>
      obtain ⟨sv, hd, hsv, hmsg⟩ := h
      rw [if_pos he]
      exact ⟨sv, hd, hserved sv hsv, hmsg⟩
    case isFalse he =>
      rw [if_neg he]
      exact h
  | _ =>
    rw [hpc] at h
    exact h

/-- The threads of the process, the rx threads and `rx_buf` are consistent. -/
structure RecvInv (rxBufSize : Nat) (threads : Nat → UdpThread) (rx : Nat → RxServer) (rxBuf : Nat → UInt8) (avail : Nat) :
    Prop where
  excl : Exclusive avail fun c => (threads c).pc.inRx = true
  serves : ∀ i, (rx i).pc.serving = true →
    (threads (rx i).caller).pc = .recvAwait ∧ (threads (rx i).caller).socket = i
  written : ∀ i, (rx i).pc = .copy ∨ (rx i).pc = .reply → (rx i).msg ≠ none →
    ∀ j < (rx i).copied.length, j < rxBufSize → (rx i).copied[j]? = some (rxBuf j)
  fits : ∀ i, (rx i).pc = .reply → (rx i).msg ≠ none → (rx i).copied.length ≤ rxBufSize
  copied : ∀ c, (threads c).CopiedOut rxBufSize rx rxBuf

namespace RecvInv

variable {rxBufSize : Nat} {threads : Nat → UdpThread} {rx : Nat → RxServer} {rxBuf : Nat → UInt8} {avail : Nat} {c i : Nat}
  {t' : UdpThread} {server : RxServer}

/-- A thread that does not await a reply is not the one an rx thread serves. -/
theorem not_caller (h : RecvInv rxBufSize threads rx rxBuf avail) (hc : (threads c).pc ≠ .recvAwait) (j : Nat)
    (hj : (rx j).pc.serving = true) : (rx j).caller ≠ c :=
  fun e => hc (e ▸ (h.serves j hj).1)

/-- The other threads are not in the section of one that is. -/
theorem not_inRx (h : RecvInv rxBufSize threads rx rxBuf avail) (hc : (threads c).pc.inRx = true) {d : Nat} (hne : d ≠ c) :
    (threads d).pc.inRx = false := by
  by_contra hd
  exact hne (h.excl.eq (by simpa using hd) hc)

/-- While an rx thread serves a call, no other does. -/
theorem not_serving (h : RecvInv rxBufSize threads rx rxBuf avail) (hi : (rx i).pc.serving = true) {j : Nat} (hne : j ≠ i) :
    (rx j).pc.serving = false := by
  by_contra hj
  obtain ⟨hpi, hsi⟩ := h.serves i hi
  obtain ⟨hpj, hsj⟩ := h.serves j (by simpa using hj)
  have : (rx j).caller = (rx i).caller := h.excl.eq (by simp [hpj, UdpPc.inRx]) (by simp [hpi, UdpPc.inRx])
  exact hne (by rw [← hsj, ← hsi, this])

/-- A thread goes on that no rx thread serves. -/
theorem updateThread (h : RecvInv rxBufSize threads rx rxBuf avail) {avail' : Nat}
    (hexcl : Exclusive avail' fun d => (Function.update threads c t' d).pc.inRx = true) (hself : t'.CopiedOut rxBufSize rx rxBuf)
    (hserves : ∀ j, (rx j).pc.serving = true → (rx j).caller ≠ c) :
    RecvInv rxBufSize (Function.update threads c t') rx rxBuf avail' := by
  refine ⟨hexcl, ?_, h.written, h.fits, ?_⟩
  · intro j hj
    rw [Function.update_of_ne (hserves j hj)]
    exact h.serves j hj
  · intro d
    rcases eq_or_ne d c with rfl | hne
    · simpa using hself
    · simpa [hne] using h.copied d

/-- A thread moves in or out of its section, or elsewhere, as before. -/
theorem moves (h : RecvInv rxBufSize threads rx rxBuf avail) (hc : t'.pc.inRx = (threads c).pc.inRx) (hself : t'.CopiedOut rxBufSize rx rxBuf)
    (hawait : (threads c).pc ≠ .recvAwait) : RecvInv rxBufSize (Function.update threads c t') rx rxBuf avail := by
  refine h.updateThread (h.excl.congr ?_) hself (h.not_caller hawait)
  intro d
  rcases eq_or_ne d c with rfl | hne
  · simp [hc]
  · simp [hne]

/-- Something is written outside `rx_buf`. -/
theorem overwrite (h : RecvInv rxBufSize threads rx rxBuf avail) {buf' : Nat → UInt8} (hbuf : ∀ j < rxBufSize, buf' j = rxBuf j) :
    RecvInv rxBufSize threads rx buf' avail := by
  refine ⟨h.excl, h.serves, ?_, h.fits, fun c => (h.copied c).mono (fun _ hsv => hsv) (Or.inl hbuf)⟩
  intro i hi hm j hj hlt
  rw [hbuf j hlt]
  exact h.written i hi hm j hj hlt

/-- A thread takes the semaphore. -/
theorem take (h : RecvInv rxBufSize threads rx rxBuf avail) (hv : 0 < avail) (hc : (threads c).pc = .recvTake) :
    RecvInv rxBufSize (Function.update threads c { threads c with pc := .recvCall }) rx rxBuf (avail - 1) := by
  have hold := h.copied c
  rw [UdpThread.CopiedOut, hc] at hold
  exact h.updateThread (h.excl.take hv (c := c) (by simp [UdpPc.inRx]) fun d hne => by simp [hne]) hold
    (h.not_caller (by simp [hc]))

/-- A thread gives the semaphore back. -/
theorem give (h : RecvInv rxBufSize threads rx rxBuf avail) (hc : (threads c).pc = .recvGive) :
    RecvInv rxBufSize (Function.update threads c { threads c with pc := .idle }) rx rxBuf (avail + 1) :=
  h.updateThread (h.excl.give (c := c) (by simp [hc, UdpPc.inRx]) (by simp [UdpPc.inRx]) fun d hne => by simp [hne]) trivial
    (h.not_caller (by simp [hc]))

/-- A thread copies a byte out of `rx_buf`: it is the next one of its datagram. -/
theorem copyByte (h : RecvInv rxBufSize threads rx rxBuf avail) (hc : (threads c).pc = .recvCopy i) (hlt : i < (threads c).len) :
    RecvInv rxBufSize (Function.update threads c { threads c with msg := (threads c).msg ++ [rxBuf i], pc := .recvCopy (i + 1) })
      rx rxBuf avail := by
  have hold := h.copied c
  rw [UdpThread.CopiedOut, hc] at hold
  obtain ⟨sv, ⟨hd, hsv, hlen, hfits, hbuf⟩, hi, hmsg⟩ := hold
  refine h.moves (by simp [hc, UdpPc.inRx]) ⟨sv, ⟨hd, hsv, hlen, hfits, hbuf⟩, by omega, ?_⟩ (by simp [hc])
  rw [hmsg, List.take_add_one, hbuf i (by omega)]
  rfl

/-- A thread has copied its datagram out of `rx_buf`. -/
theorem copyDone (h : RecvInv rxBufSize threads rx rxBuf avail) (hc : (threads c).pc = .recvCopy i) (hge : ¬ i < (threads c).len) :
    RecvInv rxBufSize (Function.update threads c { threads c with error := 0, pc := .recvGive }) rx rxBuf avail := by
  have hold := h.copied c
  rw [UdpThread.CopiedOut, hc] at hold
  obtain ⟨sv, ⟨hd, hsv, hlen, -, -⟩, hi, hmsg⟩ := hold
  refine h.moves (by simp [hc, UdpPc.inRx]) ?_ (by simp [hc])
  simp only [UdpThread.CopiedOut, if_true]
  exact ⟨sv, hd, hsv, by rw [hmsg, List.take_of_length_le (by omega)]⟩

/-- The rx thread of a socket moves on, or a call of `udprecv` does: a call in service stays in service, and only the rx
thread that serves one writes to `rx_buf`. -/
theorem serverMoves (h : RecvInv rxBufSize threads rx rxBuf avail) {buf' : Nat → UInt8}
    (hserving : server.pc.serving = true → (rx i).pc.serving = true ∧ server.caller = (rx i).caller)
    (hserved : ∀ sv ∈ (rx i).served, sv ∈ server.served)
    (hwritten : server.pc = .copy ∨ server.pc = .reply → server.msg ≠ none →
      ∀ j < server.copied.length, j < rxBufSize → server.copied[j]? = some (buf' j))
    (hfits : server.pc = .reply → server.msg ≠ none → server.copied.length ≤ rxBufSize)
    (hbuf : buf' = rxBuf ∨ (rx i).pc.serving = true) : RecvInv rxBufSize threads (Function.update rx i server) buf' avail := by
  refine ⟨h.excl, ?_, ?_, ?_, ?_⟩
  · intro j hj
    rcases eq_or_ne j i with rfl | hne
    · simp only [Function.update_self] at hj ⊢
      rw [(hserving hj).2]
      exact h.serves j (hserving hj).1
    · rw [Function.update_of_ne hne] at hj ⊢
      exact h.serves j hj
  · intro j hj hm
    rcases eq_or_ne j i with rfl | hne
    · simp only [Function.update_self] at hj hm ⊢
      exact hwritten hj hm
    · rw [Function.update_of_ne hne] at hj hm ⊢
      rcases hbuf with rfl | hi
      · exact h.written j hj hm
      · have := h.not_serving hi hne
        rcases hj with hj | hj <;> simp [hj, RxPc.serving] at this
  · intro j hj hm
    rcases eq_or_ne j i with rfl | hne
    · simp only [Function.update_self] at hj hm ⊢
      exact hfits hj hm
    · rw [Function.update_of_ne hne] at hj hm ⊢
      exact h.fits j hj hm
  · intro d
    refine (h.copied d).mono ?_ ?_
    · intro sv hsv
      rcases eq_or_ne (threads d).socket i with he | hne
      · rw [he, Function.update_self]
        exact hserved sv (he ▸ hsv)
      · rw [Function.update_of_ne hne]
        exact hsv
    · rcases hbuf with rfl | hi
      · exact Or.inl fun _ _ => rfl
      · -- the thread in the section awaits the reply, so no thread reads the buffer
        obtain ⟨hpc, -⟩ := h.serves i hi
        refine Or.inr ?_
        rcases eq_or_ne d (rx i).caller with rfl | hne
        · simp [hpc]
        · have := h.not_inRx (by simp [hpc, UdpPc.inRx] : (threads (rx i).caller).pc.inRx = true) hne
          constructor
          · intro e
            simp [e, UdpPc.inRx] at this
          · intro k e
            simp [e, UdpPc.inRx] at this

/-- The rx thread of a socket receives the call of a thread. -/
theorem call (h : RecvInv rxBufSize threads rx rxBuf avail) (hc : (threads c).pc = .recvCall) (hi : (threads c).socket = i) :
    RecvInv rxBufSize (Function.update threads c { threads c with pc := .recvAwait })
      (Function.update rx i { rx i with caller := c, pc := .lockPeek }) rxBuf avail := by
  have hold := h.copied c
  rw [UdpThread.CopiedOut, hc] at hold
  have hmoved : RecvInv rxBufSize (Function.update threads c { threads c with pc := .recvAwait }) rx rxBuf avail :=
    h.moves (by simp [hc, UdpPc.inRx]) hold (by simp [hc])
  refine ⟨hmoved.excl, ?_, ?_, ?_, fun d => (hmoved.copied d).mono ?_ (Or.inl fun _ _ => rfl)⟩
  · intro j hj
    rcases eq_or_ne j i with rfl | hne
    · simp [hi]
    · rw [Function.update_of_ne hne] at hj ⊢
      exact hmoved.serves j hj
  · intro j hj hm
    rcases eq_or_ne j i with rfl | hne
    · simp at hj
    · rw [Function.update_of_ne hne] at hj hm ⊢
      exact h.written j hj hm
  · intro j hj hm
    rcases eq_or_ne j i with rfl | hne
    · simp at hj
    · rw [Function.update_of_ne hne] at hj hm ⊢
      exact h.fits j hj hm
  · intro sv hsv
    by_cases he : (Function.update threads c { threads c with pc := .recvAwait } d).socket = i
    · rw [he, Function.update_self]
      exact he ▸ hsv
    · rw [Function.update_of_ne he]
      exact hsv

/-- What an rx thread replies with: the datagram in `rx_buf`, or a length of zero. -/
theorem replies (h : RecvInv rxBufSize threads rx rxBuf avail) {past queue : List Nat} {free live : List Ptr}
    (hinv : RxInv (rx i) past queue free live) (hpc : (rx i).pc = .reply) :
    ((rx i).msg = none ∧ (rx i).packetLen = 0) ∨
      ∃ sv, UdpProcess.replyDatagram (rx i) = some sv ∧ (rx i).packetLen = sv.data.length ∧ sv.data.length ≤ rxBufSize ∧
        ∀ j < sv.data.length, sv.data[j]? = some (rxBuf j) := by
  have hl := hinv.locals
  rw [RxServer.Local, hpc] at hl
  cases hmsg : (rx i).msg with
  | none =>
    rcases hl with ⟨-, hlen⟩ | ⟨⟨n, d, -, -, hm, -⟩, -⟩
    · exact Or.inl ⟨rfl, hlen⟩
    · rw [hmsg] at hm
      cases hm
  | some msg =>
    obtain ⟨d, -, hchain, hsv, -⟩ := hinv.replyMsg hpc hmsg
    have hfits := h.fits i hpc (by simp [hmsg])
    refine Or.inr ⟨⟨d, (rx i).copied, (rx i).packetLen, (rx i).port, (rx i).ipaddr⟩, ?_, ?_, hfits, ?_⟩
    · simp [UdpProcess.replyDatagram, hmsg, hchain]
    · have h₁ := congrArg Served.packetLen hsv
      have h₂ := congrArg Served.data hsv
      simp only [Udprecv.served] at h₁ h₂
      simp only [h₁, h₂]
    · intro j hj
      exact h.written i (Or.inr hpc) (by simp [hmsg]) j hj (Nat.lt_of_lt_of_le hj hfits)

/-- The length that a reply carries. -/
theorem reply_len (h : RecvInv rxBufSize threads rx rxBuf avail) {past queue : List Nat} {free live : List Ptr}
    (hinv : RxInv (rx i) past queue free live) (hpc : (rx i).pc = .reply) (hsize : rxBufSize < 2 ^ 32) :
    (rx i).reply.mr0.toNat = (rx i).packetLen := by
  refine RxServer.reply_mr0 ?_
  rcases h.replies hinv hpc with ⟨-, hlen⟩ | ⟨sv, -, hlen, hfits, -⟩ <;> omega

/-- The rx thread of a socket replies: its caller has the datagram in `rx_buf`, or is told that there is none. -/
theorem reply (h : RecvInv rxBufSize threads rx rxBuf avail) {past queue : List Nat} {free live : List Ptr}
    (hinv : RxInv (rx i) past queue free live) (hpc : (rx i).pc = .reply) (hsize : rxBufSize < 2 ^ 32)
    (hserving : server.pc.serving = false)
    (hserved : server.served = (rx i).served ++ (UdpProcess.replyDatagram (rx i)).toList) {addr : Word} {port : UInt16} :
    RecvInv rxBufSize (Function.update threads (rx i).caller { threads (rx i).caller with
        pc := .recvCheck, len := (rx i).reply.mr0.toNat, addr := addr, port := port
        datagram := UdpProcess.replyDatagram (rx i) }) (Function.update rx i server) rxBuf avail := by
  have hi : (rx i).pc.serving = true := by rw [hpc]; rfl
  obtain ⟨hcpc, hcsock⟩ := h.serves i hi
  have hold := h.copied (rx i).caller
  rw [UdpThread.CopiedOut, hcpc] at hold
  have hpc' : server.pc ≠ .reply := fun e => by simp [e, RxPc.serving] at hserving
  have hmoved : RecvInv rxBufSize threads (Function.update rx i server) rxBuf avail := by
    refine h.serverMoves (by simp [hserving]) (fun sv hsv => by simp [hserved, hsv]) ?_ (fun e => absurd e hpc') (Or.inl rfl)
    intro hs
    rcases hs with hs | hs <;> simp [hs, RxPc.serving] at hserving
  refine hmoved.updateThread (h.excl.congr ?_) ⟨hold.1, ?_⟩ ?_
  · intro d
    rcases eq_or_ne d (rx i).caller with rfl | hne
    · simp [hcpc, UdpPc.inRx]
    · simp [hne]
  · dsimp only
    rw [h.reply_len hinv hpc hsize]
    rcases h.replies hinv hpc with ⟨-, hlen⟩ | ⟨sv, hdg, hlen, hfits, hdata⟩
    · exact Or.inl hlen
    · exact Or.inr ⟨sv, hdg, by simp [hcsock, hserved, hdg], hlen, hfits, hdata⟩
  · intro j hj
    rcases eq_or_ne j i with rfl | hne
    · simp [hserving] at hj
    · rw [Function.update_of_ne hne] at hj
      simp [h.not_serving hi hne] at hj

/-- A step of the rx thread other than a reply. -/
theorem rxStep (h : RecvInv rxBufSize threads rx rxBuf avail) {past queue : List Nat} {free live : List Ptr}
    (hinv : RxInv (rx i) past queue free live) {self : IfaceHolder} {sh sh' : RxShared}
    (hs : (rx i).rxStep rxBufSize self sh = .next (sh', server)) (hsh : sh.rxBuf = rxBuf) (hpc : (rx i).pc ≠ .reply) :
    RecvInv rxBufSize threads (Function.update rx i server) sh'.rxBuf avail := by
  have hl := hinv.locals
  unfold RxServer.Local at hl
  unfold RxServer.rxStep at hs
  subst hsh
  cases hp : (rx i).pc with
  | reply => exact absurd hp hpc
  | recv => simp [hp] at hs
  | top =>
    simp only [hp, Outcome.next.injEq, Prod.mk.injEq] at hs
    obtain ⟨rfl, rfl⟩ := hs
    refine h.serverMoves ?_ (fun sv hsv => hsv) ?_ ?_ (Or.inl rfl) <;> (dsimp only; split <;> simp [RxPc.serving])
  | signalMore | unlockPeek | unlockIface | unlockFree =>
    simp only [hp, Outcome.next.injEq, Prod.mk.injEq] at hs
    obtain ⟨rfl, rfl⟩ := hs
    exact h.serverMoves (by simp [hp, RxPc.serving]) (fun sv hsv => hsv) (by simp) (by simp) (Or.inl rfl)
  | lockPeek | lockIface | lockFree =>
    simp only [hp, Outcome.guard_eq_next, Outcome.next.injEq, Prod.mk.injEq] at hs
    obtain ⟨-, rfl, rfl⟩ := hs
    exact h.serverMoves (by simp [hp, RxPc.serving]) (fun sv hsv => hsv) (by simp) (by simp) (Or.inl rfl)
  | unlockEmpty =>
    simp only [hp, Outcome.next.injEq, Prod.mk.injEq] at hs hl
    obtain ⟨rfl, rfl⟩ := hs
    exact h.serverMoves (by simp [hp, RxPc.serving]) (fun sv hsv => hsv) (by simp [hl.1]) (by simp [hl.1]) (Or.inl rfl)
  | peek =>
    simp only [hp] at hs
    split at hs
    · simp only [Outcome.next.injEq, Prod.mk.injEq] at hs
      obtain ⟨rfl, rfl⟩ := hs
      exact h.serverMoves (by simp [hp, RxPc.serving]) (fun sv hsv => hsv) (by simp) (by simp) (Or.inl rfl)
    · obtain ⟨-, -, hs⟩ := bind_ok (Outcome.ofExcept_eq_next.mp hs)
      cases hs
      exact h.serverMoves (by simp [hp, RxPc.serving]) (fun sv hsv => hsv) (by simp) (by simp) (Or.inl rfl)
  | load =>
    simp only [hp] at hs
    split at hs
    · cases hs
    · simp only [Outcome.next.injEq, Prod.mk.injEq] at hs
      obtain ⟨rfl, rfl⟩ := hs
      exact h.serverMoves (by simp [hp, RxPc.serving]) (fun sv hsv => hsv) (by simp) (by simp) (Or.inl rfl)
  | copy =>
    simp only [hp] at hs hl
    obtain ⟨-, d, done, -, -, -, -, -, hlen, hoff, hcopied⟩ := hl
    have hwr := h.written i (Or.inl hp)
    split at hs
    · rename_i seg q hq
      split at hs
      · -- a byte more: it goes to the place after those written
        rename_i b hb
        simp only [Outcome.next.injEq, Prod.mk.injEq] at hs
        obtain ⟨rfl, rfl⟩ := hs
        have hcl : (rx i).copied.length = (rx i).packetLen + (rx i).off := by
          rw [hcopied, List.length_append, hlen, List.length_take, Nat.min_eq_left hoff]
        refine h.serverMoves (by simp [hp, RxPc.serving]) (fun sv hsv => hsv) ?_ (by simp)
          (Or.inr (by rw [hp]; rfl))
        intro _ hm j hj hlt
        rw [← hcl]
        rcases eq_or_ne j (rx i).copied.length with rfl | hne
        · simp
        · have hj : j < (rx i).copied.length := by
            simp only [List.length_append, List.length_singleton] at hj
            omega
          dsimp only
          rw [Function.update_of_ne hne, List.getElem?_append_left hj]
          exact hwr hm j hj hlt
      · simp only [Outcome.next.injEq, Prod.mk.injEq] at hs
        obtain ⟨rfl, rfl⟩ := hs
        exact h.serverMoves (by simp [hp, RxPc.serving]) (fun sv hsv => hsv) (fun _ hm => hwr hm) (by simp) (Or.inl rfl)
    · -- the loop is over, and the assertion is met
      rename_i hq
      obtain ⟨_, hcheck, hs⟩ := bind_ok (Outcome.ofExcept_eq_next.mp hs)
      have hfits := of_check_ok hcheck
      cases hs
      refine h.serverMoves (by simp [hp, RxPc.serving]) (fun sv hsv => hsv) (fun _ hm => hwr hm) ?_ (Or.inl rfl)
      intro _ _
      simpa [hcopied, hq, ← hlen] using hfits
  | freePbuf =>
    simp only [hp] at hs
    split at hs
    all_goals
      simp only [Outcome.next.injEq, Prod.mk.injEq] at hs
      obtain ⟨rfl, rfl⟩ := hs
      exact h.serverMoves (by simp [RxPc.serving]) (fun sv hsv => hsv) (by simp) (by simp) (Or.inl rfl)
  | poolFree =>
    simp only [hp] at hs
    split at hs
    · cases hs
    · obtain ⟨⟨error, msgs⟩, -, hs⟩ := bind_ok (Outcome.ofExcept_eq_next.mp hs)
      obtain ⟨-, -, hs⟩ := bind_ok hs
      cases hs
      exact h.serverMoves (by simp [RxPc.serving]) (fun sv hsv => hsv) (by simp) (by simp) (Or.inl rfl)

end RecvInv

end Sel4Osapi
