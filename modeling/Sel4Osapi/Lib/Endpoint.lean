import Mathlib.Init

/-!
# Synchronous endpoints

An endpoint has no buffer: a thread that sends waits there for one that receives, and one that receives for one that sends,
first come, first served. `Endpoint.Paired xs ys e` ties an endpoint to all that has been sent to it and to all the receivers
that have come, in order: the n-th send meets the n-th receiver, and what is left over of the longer list waits.
-/

namespace Rendezvous

/-- An endpoint: what the threads that wait to send bring, and the threads that wait to receive. -/
structure Endpoint (σ ρ : Type*) where
  senders : List σ
  receivers : List ρ

namespace Endpoint

variable {σ ρ : Type*} {e : Endpoint σ ρ} {xs : List σ} {ys : List ρ}

/-- Nobody waits. -/
def empty : Endpoint σ ρ where
  senders := []
  receivers := []

/-- A thread sends: the receiver that gets it, or none, and then the sender waits. -/
def send (e : Endpoint σ ρ) (x : σ) : Option ρ × Endpoint σ ρ :=
  match e.receivers with
  | [] => (none, { e with senders := e.senders ++ [x] })
  | y :: receivers => (some y, { e with receivers := receivers })

/-- A thread receives: what it gets, or nothing, and then it waits. -/
def recv (e : Endpoint σ ρ) (y : ρ) : Option σ × Endpoint σ ρ :=
  match e.senders with
  | [] => (none, { e with receivers := e.receivers ++ [y] })
  | x :: senders => (some x, { e with senders := senders })

/-- What has been sent is `xs` and who has come to receive is `ys`. -/
structure Paired (xs : List σ) (ys : List ρ) (e : Endpoint σ ρ) : Prop where
  senders : e.senders = xs.drop ys.length
  receivers : e.receivers = ys.drop xs.length

namespace Paired

/-- A new endpoint. -/
theorem empty : Paired [] [] (Endpoint.empty : Endpoint σ ρ) := ⟨rfl, rfl⟩

/-- Nobody waits to receive: no more have come than was sent. -/
theorem length_le_of_receivers (h : Paired xs ys e) (hnil : e.receivers = []) : ys.length ≤ xs.length :=
  List.drop_eq_nil_iff.mp (h.receivers.symm.trans hnil)

/-- Nobody waits to send: no more was sent than have come. -/
theorem length_le_of_senders (h : Paired xs ys e) (hnil : e.senders = []) : xs.length ≤ ys.length :=
  List.drop_eq_nil_iff.mp (h.senders.symm.trans hnil)

/-- The first who waits to receive came after as many as was sent. -/
theorem of_receivers_cons (h : Paired xs ys e) {y : ρ} {rest : List ρ} (hcons : e.receivers = y :: rest) :
    xs.length < ys.length ∧ ys[xs.length]? = some y ∧ rest = ys.drop (xs.length + 1) := by
  have hdrop : ys.drop xs.length = y :: rest := h.receivers.symm.trans hcons
  have hlt : xs.length < ys.length := by
    refine Nat.lt_of_not_le ?_
    intro hle
    rw [List.drop_eq_nil_of_le hle] at hdrop
    cases hdrop
  rw [List.drop_eq_getElem_cons hlt, List.cons.injEq] at hdrop
  exact ⟨hlt, by rw [List.getElem?_eq_getElem hlt, hdrop.1], hdrop.2.symm⟩

/-- The first who waits to send came after as many as have received. -/
theorem of_senders_cons (h : Paired xs ys e) {x : σ} {rest : List σ} (hcons : e.senders = x :: rest) :
    ys.length < xs.length ∧ xs[ys.length]? = some x ∧ rest = xs.drop (ys.length + 1) :=
  of_receivers_cons (e := ⟨e.receivers, e.senders⟩) ⟨h.receivers, h.senders⟩ hcons

/-- A send meets the receiver of its number, if that has come. -/
theorem send (h : Paired xs ys e) (x : σ) : (e.send x).1 = ys[xs.length]? ∧ Paired (xs ++ [x]) ys (e.send x).2 := by
  cases hr : e.receivers with
  | nil =>
    have hle := h.length_le_of_receivers hr
    simp only [Endpoint.send, hr]
    refine ⟨(List.getElem?_eq_none hle).symm, ?_, ?_⟩
    · simp only [h.senders, List.drop_append_of_le_length hle]
    · rw [List.drop_eq_nil_of_le]
      simp only [List.length_append, List.length_singleton]
      omega
  | cons y rest =>
    obtain ⟨hlt, hy, hrest⟩ := h.of_receivers_cons hr
    simp only [Endpoint.send, hr]
    refine ⟨hy.symm, ?_, ?_⟩
    · rw [h.senders, List.drop_eq_nil_of_le (Nat.le_of_lt hlt), List.drop_eq_nil_of_le]
      simp only [List.length_append, List.length_singleton]
      exact hlt
    · simpa using hrest

/-- A receiver gets the send of its number, if that has been made. -/
theorem recv (h : Paired xs ys e) (y : ρ) : (e.recv y).1 = xs[ys.length]? ∧ Paired xs (ys ++ [y]) (e.recv y).2 := by
  cases hs : e.senders with
  | nil =>
    have hle := h.length_le_of_senders hs
    simp only [Endpoint.recv, hs]
    refine ⟨(List.getElem?_eq_none hle).symm, ?_, ?_⟩
    · rw [List.drop_eq_nil_of_le]
      simp only [List.length_append, List.length_singleton]
      omega
    · simp only [h.receivers, List.drop_append_of_le_length hle]
  | cons x rest =>
    obtain ⟨hlt, hx, hrest⟩ := h.of_senders_cons hs
    simp only [Endpoint.recv, hs]
    refine ⟨hx.symm, ?_, ?_⟩
    · simpa using hrest
    · rw [h.receivers, List.drop_eq_nil_of_le (Nat.le_of_lt hlt), List.drop_eq_nil_of_le]
      simp only [List.length_append, List.length_singleton]
      exact hlt

end Paired

/-- The pairs that have met, when one more is sent. -/
theorem zip_snoc_left (xs : List σ) (ys : List ρ) (x : σ) :
    (xs ++ [x]).zip ys = xs.zip ys ++ (ys[xs.length]?.map (Prod.mk x)).toList := by
  induction xs generalizing ys with
  | nil => cases ys <;> simp
  | cons a xs ih =>
    cases ys with
    | nil => simp
    | cons b ys => simpa using ih ys

/-- The pairs that have met, when one more comes. -/
theorem zip_snoc_right (xs : List σ) (ys : List ρ) (y : ρ) :
    xs.zip (ys ++ [y]) = xs.zip ys ++ (xs[ys.length]?.map fun x => (x, y)).toList := by
  induction ys generalizing xs with
  | nil => cases xs <;> simp
  | cons b ys ih =>
    cases xs with
    | nil => simp
    | cons a xs => simpa using ih xs

end Endpoint

end Rendezvous
