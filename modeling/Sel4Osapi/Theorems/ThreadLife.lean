import Sel4Osapi.ThreadLife
import Sel4Osapi.Lib.History
import Sel4Osapi.Theorems.Release

/-!
# What a join waits for, and what a thread finds in its record

The wrapper of a thread goes through `started`, `entered`, `returned` and `signalled`, in this order and each at most once.
The first who joins a thread meets its signal, whichever of the two comes first, and no join before that returns.
-/

namespace Sel4Osapi

open Transition Rendezvous

/-! ## The events of one thread -/

namespace ThreadEvent

/-- The events of the wrapper, in its order, with the user data that the thread is started with. -/
def wrapper (userData : Option Ptr) : List ThreadEvent := [.started userData, .entered, .returned, .signalled 0]

/-- The wrapper of the thread does it. -/
def ofWrapper : ThreadEvent → Bool
  | .started _ | .entered | .returned | .signalled _ => true
  | _ => false

/-- The message of a signal. -/
def signal? : ThreadEvent → Option Word
  | .signalled mr0 => some mr0
  | _ => none

/-- The joiner of a call to `sel4osapi_thread_join`. -/
def joins? : ThreadEvent → Option Joiner
  | .joins joiner => some joiner
  | _ => none

/-- The joiner and the value of a return from `sel4osapi_thread_join`. -/
def joined? : ThreadEvent → Option (Joiner × Int)
  | .joined joiner value => some (joiner, value)
  | _ => none

/-- The signals are among the events of the wrapper. -/
theorem signals_of_wrapper (evs : List ThreadEvent) : (evs.filter ofWrapper).filterMap signal? = evs.filterMap signal? := by
  rw [List.filterMap_filter]
  congr 1
  funext ev
  cases ev <;> rfl

/-- What a signal adds, with the join that returns. -/
def ofSignal (joiner : Option Joiner) : List ThreadEvent := .signalled 0 :: (joiner.map fun j => .joined j 0).toList

/-- What the call of a join adds, with its return if there is a message. -/
def ofJoin (joiner : Joiner) (mr0 : Option Word) : List ThreadEvent :=
  .joins joiner :: (mr0.map fun v => .joined joiner (intOfWord v)).toList

theorem signals_ofSignal (evs : List ThreadEvent) (o : Option Joiner) :
    (evs ++ ofSignal o).filterMap signal? = evs.filterMap signal? ++ [0] := by
  cases o <;> simp [ofSignal, signal?]

theorem joins_ofSignal (evs : List ThreadEvent) (o : Option Joiner) :
    (evs ++ ofSignal o).filterMap joins? = evs.filterMap joins? := by
  cases o <;> simp [ofSignal, joins?]

theorem signals_ofJoin (evs : List ThreadEvent) (j : Joiner) (o : Option Word) :
    (evs ++ ofJoin j o).filterMap signal? = evs.filterMap signal? := by
  cases o <;> simp [ofJoin, signal?]

theorem joins_ofJoin (evs : List ThreadEvent) (j : Joiner) (o : Option Word) :
    (evs ++ ofJoin j o).filterMap joins? = evs.filterMap joins? ++ [j] := by
  cases o <;> simp [ofJoin, joins?]

end ThreadEvent

/-- How many events of the wrapper are past. -/
def ThreadPc.passed : ThreadPc → Nat
  | .ready => 0
  | .saveWord | .setWord | .activate => 1
  | .routine => 2
  | .deactivate | .signal => 3
  | .signalled => 4

/-- `sel4osapi_thread_init_tls` has returned. -/
def ThreadPc.Initialised : ThreadPc → Prop
  | .ready | .saveWord | .setWord => False
  | _ => True

/-- The user data that a thread was started with is kept in the record, and then replaced by the address of the record. -/
structure ThreadRun.Own (t : Ptr) (userData : Option Ptr) (r : ThreadRun) : Prop where
  given : r.pc = .saveWord → r.userData = userData
  saved : r.pc.Initialised ∨ r.pc = .setWord → ∃ word, userData = some word ∧ r.ipcWord = some word
  self : r.pc.Initialised → r.userData = some t

/-- Once that is done nothing changes it. -/
theorem ThreadRun.Own.goOn {t : Ptr} {userData : Option Ptr} {r r' : ThreadRun} (h : r.Own t userData) (hpc : r.pc.Initialised)
    (hpc' : r'.pc ≠ .saveWord) (hdata : r'.userData = r.userData) (hword : r'.ipcWord = r.ipcWord) : r'.Own t userData :=
  ⟨fun hr => absurd hr hpc', fun _ => hword ▸ h.saved (Or.inl hpc), fun _ => hdata.trans (h.self hpc)⟩

namespace Threads

/-- What has happened to one thread. -/
def events (s : Threads) (thread : Ptr) : List ThreadEvent := History.events thread s.history

variable {s : Threads} {t u : Ptr} {ev : ThreadEvent}

@[simp] theorem events_record_self : (s.record t ev).events t = s.events t ++ [ev] := History.events_snoc_self ev

theorem events_record_of_ne (h : u ≠ t) : (s.record t ev).events u = s.events u := History.events_snoc_of_ne h ev

@[simp] theorem run_record : (s.record t ev).run = s.run := rfl

@[simp] theorem run_setRun_self (r : ThreadRun) : (s.setRun t r).run t = r := by simp [setRun]

theorem run_setRun_of_ne (h : u ≠ t) (r : ThreadRun) : (s.setRun t r).run u = s.run u := by simp [setRun, h]

@[simp] theorem events_setRun (r : ThreadRun) : (s.setRun t r).events u = s.events u := rfl

/-- The events at the return of a join, for the thread that is joined. -/
theorem events_joinReturns_self (j : Joiner) (mr0 : Word) :
    (s.joinReturns j t mr0).events t = s.events t ++ [.joined j (intOfWord mr0)] := by
  unfold joinReturns
  rw [events_record_self]
  rfl

/-- The events at the return of a join, for another thread. -/
theorem events_joinReturns_of_ne (h : u ≠ t) (j : Joiner) (mr0 : Word) : (s.joinReturns j t mr0).events u = s.events u := by
  unfold joinReturns
  rw [events_record_of_ne h]
  rfl

/-- A step about the join of one thread: what it adds to the events of the thread, and its endpoint after it. -/
structure Met (s s' : Threads) (t : Ptr) (e : Endpoint Word Joiner) (evs : List ThreadEvent) : Prop where
  task : s'.task = s.task
  run : s'.run = s.run
  endpoints : s'.endpoints = Function.update s.endpoints (s.localEndpoint t) (some e)
  self : s'.events t = s.events t ++ evs
  other : ∀ u, u ≠ t → s'.events u = s.events u

/-- The call of the endpoint adds a signal, and the return of the join that waits first. -/
theorem met_callEndpoint (s : Threads) (t : Ptr) (e : Endpoint Word Joiner) :
    s.Met (s.callEndpoint t e) t (e.send 0).2 (ThreadEvent.ofSignal (e.send 0).1) := by
  unfold callEndpoint
  rcases e.send 0 with ⟨_ | j, e'⟩
  · exact ⟨rfl, rfl, rfl, by rw [events_record_self]; rfl, fun u hu => by rw [events_record_of_ne hu]; rfl⟩
  · refine ⟨rfl, rfl, rfl, ?_, ?_⟩
    · dsimp only
      rw [events_joinReturns_self, events_record_self, List.append_assoc]
      rfl
    · intro u hu
      dsimp only
      rw [events_joinReturns_of_ne hu, events_record_of_ne hu]
      rfl

/-- The call of a join adds that, and its return if there is a message. -/
theorem met_threadJoin (s : Threads) (j : Joiner) (t : Ptr) (e : Endpoint Word Joiner) :
    s.Met (s.threadJoin j t e) t (e.recv j).2 (ThreadEvent.ofJoin j (e.recv j).1) := by
  unfold threadJoin
  rcases e.recv j with ⟨_ | v, e'⟩
  · exact ⟨rfl, rfl, rfl, by rw [events_record_self]; rfl, fun u hu => by rw [events_record_of_ne hu]; rfl⟩
  · refine ⟨rfl, rfl, rfl, ?_, ?_⟩
    · dsimp only
      rw [events_joinReturns_self, events_record_self, List.append_assoc]
      rfl
    · intro u hu
      dsimp only
      rw [events_joinReturns_of_ne hu, events_record_of_ne hu]
      rfl

end Threads

/-! ## The invariant of one thread -/

/-- A join that has returned was called before, and the routine of the thread had returned. -/
def JoinsOrdered (evs : List ThreadEvent) : Prop :=
  ∀ h₁ h₂ j v, evs = h₁ ++ .joined j v :: h₂ → .returned ∈ h₁ ∧ .joins j ∈ h₁

namespace JoinsOrdered

variable {evs : List ThreadEvent}

/-- Something else happens. -/
theorem snoc (h : JoinsOrdered evs) {ev : ThreadEvent} (hev : ev.joined? = none) : JoinsOrdered (evs ++ [ev]) := by
  intro h₁ h₂ j v he
  rcases History.snoc_eq_append_cons he with ⟨-, rfl⟩ | ⟨h₃, he⟩
  · cases hev
  · exact h h₁ h₃ j v he

/-- A join returns, after it was called and the routine has returned. -/
theorem joined (h : JoinsOrdered evs) {j : Joiner} (hr : .returned ∈ evs) (hj : .joins j ∈ evs) (v : Int) :
    JoinsOrdered (evs ++ [.joined j v]) := by
  intro h₁ h₂ j' v' he
  rcases History.snoc_eq_append_cons he with ⟨rfl, hx⟩ | ⟨h₃, he⟩
  · cases hx
    exact ⟨hr, hj⟩
  · exact h h₁ h₃ j' v' he

end JoinsOrdered

/-- What holds of a thread `t` that was created, with the user data it was started with, what it has of its own and what has
happened to it. -/
structure ThreadOk (t : Ptr) (userData : Option Ptr) (r : ThreadRun) (evs : List ThreadEvent) : Prop where
  /-- the wrapper has come as far as its program counter says -/
  control : evs.filter ThreadEvent.ofWrapper = (ThreadEvent.wrapper userData).take r.pc.passed
  own : r.Own t userData
  active : r.pc = .routine → ∃ h₁ h₂, evs = h₁ ++ .entered :: h₂ ∧ (r.active = true ↔ .stopped ∉ h₂)
  joined : evs.filterMap ThreadEvent.joined? =
    ((evs.filterMap ThreadEvent.signal?).zip (evs.filterMap ThreadEvent.joins?)).map fun x => (x.2, intOfWord x.1)
  ordered : JoinsOrdered evs

namespace ThreadOk

variable {t : Ptr} {userData userData' : Option Ptr} {r r' : ThreadRun} {evs : List ThreadEvent}

/-- A thread that was just created. -/
theorem ready (hr : r.pc = .ready) (userData : Option Ptr) : ThreadOk t userData r [] where
  control := by
    rw [hr]
    rfl
  own := by
    refine ⟨fun h => ?_, fun h => ?_, fun h => ?_⟩ <;> simp [hr, ThreadPc.Initialised] at h
  active h := by
    rw [hr] at h
    cases h
  joined := rfl
  ordered h₁ h₂ j v h := by simp at h

/-- What the wrapper of a thread has done is known from its program counter. -/
theorem mem_iff (h : ThreadOk t userData r evs) {ev : ThreadEvent} (hev : ev.ofWrapper = true) :
    ev ∈ evs ↔ ev ∈ (ThreadEvent.wrapper userData).take r.pc.passed := by
  rw [← h.control, List.mem_filter]
  exact ⟨fun hm => ⟨hm, hev⟩, fun hm => hm.1⟩

/-- A thread that has signalled has returned from its routine. -/
theorem returned_of_signalled (h : ThreadOk t userData r evs) {v : Word} (hv : .signalled v ∈ evs) : .returned ∈ evs := by
  rw [h.mem_iff rfl] at hv ⊢
  cases hpc : r.pc <;> simp_all [ThreadPc.passed, ThreadEvent.wrapper]

/-- The signals of a thread. -/
theorem signals (h : ThreadOk t userData r evs) : evs.filterMap ThreadEvent.signal? = if r.pc = .signalled then [0] else [] := by
  rw [← ThreadEvent.signals_of_wrapper, h.control]
  cases r.pc <;> rfl

/-- An event that is not about a join happens. -/
theorem snoc (h : ThreadOk t userData r evs) {ev : ThreadEvent}
    (hcontrol : (ThreadEvent.wrapper userData).take r.pc.passed ++ [ev].filter ThreadEvent.ofWrapper =
      (ThreadEvent.wrapper userData').take r'.pc.passed)
    (hown : r'.Own t userData')
    (hactive : r'.pc = .routine → ∃ h₁ h₂, evs ++ [ev] = h₁ ++ .entered :: h₂ ∧ (r'.active = true ↔ .stopped ∉ h₂))
    (hsignal : ev.signal? = none) (hjoins : ev.joins? = none) (hjoined : ev.joined? = none) :
    ThreadOk t userData' r' (evs ++ [ev]) where
  control := by rw [List.filter_append, h.control, hcontrol]
  own := hown
  active := hactive
  joined := by simp [List.filterMap_append, hsignal, hjoins, hjoined, h.joined]
  ordered := h.ordered.snoc hjoined

/-- Nothing happens that is recorded. -/
theorem setRun (h : ThreadOk t userData r evs) (hpc : r'.pc.passed = r.pc.passed) (hown : r'.Own t userData)
    (hactive : r'.pc ≠ .routine) : ThreadOk t userData r' evs :=
  ⟨by rw [h.control, hpc], hown, fun hr => absurd hr hactive, h.joined, h.ordered⟩

/-- The thread signals, and the join of this number, if it was called, returns. -/
theorem signal (h : ThreadOk t userData r evs) (hpc : r.pc = .signal) (hpc' : r'.pc = .signalled) (hdata : r'.userData = r.userData)
    (hword : r'.ipcWord = r.ipcWord) {o : Option Joiner}
    (ho : o = (evs.filterMap ThreadEvent.joins?)[(evs.filterMap ThreadEvent.signal?).length]?) :
    ThreadOk t userData r' (evs ++ ThreadEvent.ofSignal o) where
  control := by
    rw [List.filter_append, h.control, hpc, hpc']
    cases o <;> rfl
  own := h.own.goOn (by rw [hpc]; trivial) (by simp [hpc']) hdata hword
  active hr := by
    rw [hpc'] at hr
    cases hr
  joined := by
    rw [ThreadEvent.signals_ofSignal, ThreadEvent.joins_ofSignal, List.filterMap_append, h.joined, Endpoint.zip_snoc_left,
      List.map_append, ← ho]
    cases o <;> rfl
  ordered := by
    have hr : .returned ∈ evs := by
      rw [h.mem_iff rfl, hpc]
      simp [ThreadPc.passed, ThreadEvent.wrapper]
    have hordered : JoinsOrdered (evs ++ [.signalled 0]) := h.ordered.snoc rfl
    cases o with
    | none => exact hordered
    | some j =>
      obtain ⟨ev, hev, hj⟩ := List.mem_filterMap.mp (List.mem_of_getElem? ho.symm)
      cases ev <;> cases hj
      have hjoined := hordered.joined (List.mem_append_left _ hr) (List.mem_append_left _ hev) 0
      rw [List.append_assoc] at hjoined
      exact hjoined

/-- A join is called, and returns if the signal of this number was made. -/
theorem join (h : ThreadOk t userData r evs) (j : Joiner) {o : Option Word}
    (ho : o = (evs.filterMap ThreadEvent.signal?)[(evs.filterMap ThreadEvent.joins?).length]?) :
    ThreadOk t userData r (evs ++ ThreadEvent.ofJoin j o) where
  control := by
    rw [List.filter_append, h.control]
    cases o <;> exact List.append_nil _
  own := h.own
  active hr := by
    obtain ⟨h₁, h₂, he, hiff⟩ := h.active hr
    refine ⟨h₁, h₂ ++ ThreadEvent.ofJoin j o, by rw [he, List.append_assoc, List.cons_append], hiff.trans ?_⟩
    cases o <;> simp [ThreadEvent.ofJoin]
  joined := by
    rw [ThreadEvent.signals_ofJoin, ThreadEvent.joins_ofJoin, List.filterMap_append, h.joined, Endpoint.zip_snoc_right,
      List.map_append, ← ho]
    cases o <;> rfl
  ordered := by
    have hordered : JoinsOrdered (evs ++ [.joins j]) := h.ordered.snoc rfl
    cases o with
    | none => exact hordered
    | some v =>
      obtain ⟨ev, hev, hv⟩ := List.mem_filterMap.mp (List.mem_of_getElem? ho.symm)
      cases ev <;> cases hv
      have hjoined := hordered.joined (List.mem_append_left _ (h.returned_of_signalled hev))
        (List.mem_append_right _ (List.mem_singleton_self _)) (intOfWord v)
      rw [List.append_assoc] at hjoined
      exact hjoined

end ThreadOk

/-! ## The invariant of a task -/

namespace Threads

/-- Every thread that was created is in order, and every one that was not deleted has an endpoint of its own, where its
signals and its joins have come. -/
structure Inv (cfg : ThreadConfig) (s : Threads) : Prop where
  pool : s.task.PoolInv cfg
  fresh : ∀ t, t ∉ s.task.created → s.events t = []
  ok : ∀ t ∈ s.task.created, ∃ userData, ThreadOk t userData (s.run t) (s.events t)
  paired : ∀ t, s.task.Live t → ∃ e, s.endpoints (s.localEndpoint t) = some e ∧
    e.Paired ((s.events t).filterMap ThreadEvent.signal?) ((s.events t).filterMap ThreadEvent.joins?)
  distinct : ∀ t u, s.task.Live t → s.task.Live u → s.localEndpoint t = s.localEndpoint u → t = u

namespace Inv

variable {cfg : ThreadConfig} {s s' : Threads} {t : Ptr}

/-- After the initialisation. -/
theorem of_init (h : s.Init cfg) : s.Inv cfg := by
  have hnone : ∀ t, t ∉ s.task.created := by simp [h.task.created]
  refine ⟨.of_init h.task, ?_, fun t ht => absurd ht (hnone t), fun t ht => absurd ht.1 (hnone t), fun t _ ht => absurd ht.1 (hnone t)⟩
  intro t _
  rw [events, h.history]
  rfl

/-- A step of one thread that exists, and of its endpoint. -/
theorem update (h : s.Inv cfg) (hlive : s.task.Live t) (htask : s'.task = s.task) (hrun : ∀ u, u ≠ t → s'.run u = s.run u)
    (hevents : ∀ u, u ≠ t → s'.events u = s.events u)
    (hendpoints : ∀ c, c ≠ s.localEndpoint t → s'.endpoints c = s.endpoints c)
    (hok : ∃ userData, ThreadOk t userData (s'.run t) (s'.events t))
    (hpaired : ∃ e, s'.endpoints (s.localEndpoint t) = some e ∧
      e.Paired ((s'.events t).filterMap ThreadEvent.signal?) ((s'.events t).filterMap ThreadEvent.joins?)) : s'.Inv cfg := by
  have hlocal : ∀ u, s'.localEndpoint u = s.localEndpoint u := fun u => by rw [localEndpoint, htask, localEndpoint]
  refine ⟨htask ▸ h.pool, ?_, ?_, ?_, ?_⟩
  · intro u hu
    rw [htask] at hu
    rw [hevents u (fun e => hu (e ▸ hlive.1)), h.fresh u hu]
  · intro u hu
    rw [htask] at hu
    rcases eq_or_ne u t with rfl | hne
    · exact hok
    · rw [hrun u hne, hevents u hne]
      exact h.ok u hu
  · intro u hu
    rw [htask] at hu
    rw [hlocal]
    rcases eq_or_ne u t with rfl | hne
    · exact hpaired
    · rw [hendpoints _ (fun e => hne (h.distinct u t hu hlive e)), hevents u hne]
      exact h.paired u hu
  · intro u v hu hv
    rw [htask] at hu hv
    rw [hlocal, hlocal]
    exact h.distinct u v hu hv

/-- A step of one thread that does not touch its endpoint: nothing that is recorded, or an event that is not about a join. -/
theorem own (h : s.Inv cfg) (hlive : s.task.Live t) (htask : s'.task = s.task) (hrun : ∀ u, u ≠ t → s'.run u = s.run u)
    (hendpoints : s'.endpoints = s.endpoints) (evs : List ThreadEvent) (hhistory : s'.history = s.history ++ evs.map (Prod.mk t))
    (hsignal : evs.filterMap ThreadEvent.signal? = []) (hjoins : evs.filterMap ThreadEvent.joins? = [])
    (hok : ∃ userData, ThreadOk t userData (s'.run t) (s.events t ++ evs)) : s'.Inv cfg := by
  have hother : ∀ u, u ≠ t → s'.events u = s.events u := by
    intro u hu
    simp [events, History.events, hhistory, hu.symm]
  have hself : s'.events t = s.events t ++ evs := by simp [events, History.events, hhistory]
  refine h.update hlive htask hrun hother (fun c _ => by rw [hendpoints]) (hself ▸ hok) ?_
  rw [hendpoints, hself, List.filterMap_append, List.filterMap_append, hsignal, hjoins, List.append_nil, List.append_nil]
  exact h.paired t hlive

/-- A thread is started. -/
theorem start (h : s.Inv cfg) (hlive : s.task.Live t) (hpc : (s.run t).pc = .ready) {userData : Option Ptr} {ok : Bool}
    (hs : s.threadStart t userData ok = .ok s') : s'.Inv cfg := by
  obtain ⟨_, -, hs⟩ := bind_ok hs
  cases hs
  refine h.own hlive rfl (fun u hu => run_setRun_of_ne hu _) rfl [.started userData] rfl rfl rfl ⟨userData, ?_⟩
  obtain ⟨_, hok⟩ := h.ok t hlive.1
  rw [run_record, run_setRun_self]
  refine hok.snoc (by rw [hpc]; rfl) ⟨fun _ => rfl, fun hi => ?_, fun hi => hi.elim⟩ (fun hr => by cases hr) rfl rfl rfl
  simp [ThreadPc.Initialised] at hi

/-- Someone clears `info.active`. -/
theorem stop (h : s.Inv cfg) (hlive : s.task.Live t) : (s.stopThread t).Inv cfg := by
  obtain ⟨userData, hok⟩ := h.ok t hlive.1
  refine h.own hlive rfl (fun u hu => run_setRun_of_ne hu _) rfl [.stopped] rfl rfl rfl ⟨userData, ?_⟩
  rw [stopThread, run_record, run_setRun_self]
  refine hok.snoc (by simp [ThreadEvent.ofWrapper]) ⟨hok.own.given, hok.own.saved, hok.own.self⟩ ?_ rfl rfl rfl
  intro hr
  obtain ⟨h₁, h₂, he, -⟩ := hok.active hr
  exact ⟨h₁, h₂ ++ [.stopped], by rw [he, List.append_assoc, List.cons_append], by simp⟩

/-- A thread makes the next step of the wrapper. -/
theorem wrapperStep (h : s.Inv cfg) (hlive : s.task.Live t) (hs : s.wrapperStep t = .next s') : s'.Inv cfg := by
  obtain ⟨userData, hok⟩ := h.ok t hlive.1
  unfold Threads.wrapperStep at hs
  cases hpc : (s.run t).pc <;> simp only [hpc] at hs
  case ready => cases hs
  case saveWord =>
    obtain ⟨word, hword, hs⟩ := bind_ok (Outcome.ofExcept_eq_next.mp hs)
    cases hs
    refine h.own hlive rfl (fun u hu => run_setRun_of_ne hu _) rfl [] (by simp [setRun]) rfl rfl ⟨userData, ?_⟩
    rw [run_setRun_self, List.append_nil]
    have hdata := (hok.own.given hpc).symm.trans (of_checkSome_ok hword)
    exact hok.setRun (by rw [hpc]; rfl) ⟨by simp, fun _ => ⟨word, hdata, rfl⟩, fun hi => hi.elim⟩ (by simp)
  case setWord =>
    cases hs
    refine h.own hlive rfl (fun u hu => run_setRun_of_ne hu _) rfl [] (by simp [setRun]) rfl rfl ⟨userData, ?_⟩
    rw [run_setRun_self, List.append_nil]
    exact hok.setRun (by rw [hpc]; rfl) ⟨by simp, fun _ => hok.own.saved (Or.inr hpc), fun _ => rfl⟩ (by simp)
  case activate =>
    cases hs
    refine h.own hlive rfl (fun u hu => run_setRun_of_ne hu _) rfl [.entered] rfl rfl rfl ⟨userData, ?_⟩
    rw [run_record, run_setRun_self]
    refine hok.snoc (by rw [hpc]; rfl) (hok.own.goOn (by rw [hpc]; trivial) (by simp) rfl rfl) ?_ rfl rfl rfl
    intro _
    exact ⟨s.events t, [], rfl, by simp⟩
  case routine =>
    obtain ⟨-, hs⟩ := Outcome.guard_eq_next.mp hs
    cases hs
    refine h.own hlive rfl (fun u hu => run_setRun_of_ne hu _) rfl [.returned] rfl rfl rfl ⟨userData, ?_⟩
    rw [run_record, run_setRun_self]
    exact hok.snoc (by rw [hpc]; rfl) (hok.own.goOn (by rw [hpc]; trivial) (by simp) rfl rfl) (fun hr => by cases hr) rfl rfl rfl
  case deactivate =>
    cases hs
    refine h.own hlive rfl (fun u hu => run_setRun_of_ne hu _) rfl [] (by simp [setRun]) rfl rfl ⟨userData, ?_⟩
    rw [run_setRun_self, List.append_nil]
    exact hok.setRun (by rw [hpc]; rfl) (hok.own.goOn (by rw [hpc]; trivial) (by simp) rfl rfl) (by simp)
  case signal =>
    obtain ⟨e, he, hpaired⟩ := h.paired t hlive
    simp only [he] at hs
    cases hs
    obtain ⟨hmeet, hpaired⟩ := hpaired.send 0
    have hmet := (s.setRun t { s.run t with pc := .signalled }).met_callEndpoint t e
    refine h.update hlive hmet.task ?_ hmet.other ?_ ?_ ⟨_, by rw [hmet.endpoints]; exact Function.update_self .., ?_⟩
    · intro u hu
      rw [hmet.run, run_setRun_of_ne hu]
    · intro c hc
      rw [hmet.endpoints]
      exact Function.update_of_ne hc _ _
    · rw [hmet.run, run_setRun_self, hmet.self, events_setRun]
      refine ⟨userData, hok.signal hpc ?_ ?_ ?_ hmeet⟩ <;> rfl
    · rw [hmet.self, events_setRun, ThreadEvent.signals_ofSignal, ThreadEvent.joins_ofSignal]
      exact hpaired
  case signalled => cases hs

/-- A thread is joined. -/
theorem join (h : s.Inv cfg) (hlive : s.task.Live t) (j : Joiner) {e : Endpoint Word Joiner}
    (he : s.endpoints (s.localEndpoint t) = some e) : (s.threadJoin j t e).Inv cfg := by
  obtain ⟨e', he', hpaired⟩ := h.paired t hlive
  cases he.symm.trans he'
  obtain ⟨hmeet, hpaired⟩ := hpaired.recv j
  have hmet := s.met_threadJoin j t e
  refine h.update hlive hmet.task ?_ hmet.other ?_ ?_ ⟨_, by rw [hmet.endpoints]; exact Function.update_self .., ?_⟩
  · intro u _
    rw [hmet.run]
  · intro c hc
    rw [hmet.endpoints]
    exact Function.update_of_ne hc _ _
  · rw [hmet.run, hmet.self]
    obtain ⟨userData, hok⟩ := h.ok t hlive.1
    exact ⟨userData, hok.join j hmeet⟩
  · rw [hmet.self, ThreadEvent.signals_ofJoin, ThreadEvent.joins_ofJoin]
    exact hpaired

/-- A thread is created, with an endpoint in a slot that was empty. -/
theorem create (h : s.Inv cfg) {threadRoutine : Ptr} {threadArg : Option Ptr} {priority : Int} {a : ThreadAnswers}
    (ha : (a.localEndpoint.bind s.endpoints).isNone) (hs : s.threadCreate threadRoutine threadArg priority a = .ok s') :
    s'.Inv cfg := by
  obtain ⟨⟨t, task⟩, hcreate, hs⟩ := bind_ok hs
  have hpool := h.pool.create hcreate
  obtain ⟨threads, localEndpoint, threadAep, ipc, halloc, hlocal, -, -, htask⟩ := Task.threadCreate_ok hcreate
  obtain ⟨-, -, hnew, -⟩ := h.pool.wf.alloc halloc
  rw [h.pool.contents] at hnew
  obtain ⟨-, -, -, hmem⟩ := h.pool.wf.alloc_write halloc (q := task.threads) (by rw [htask])
  have hself : (task.threads.mem t).localEndpoint = localEndpoint := by
    rw [htask]
    simp
  have hempty : s.endpoints localEndpoint = none := by
    rw [hlocal] at ha
    simpa using ha
  have hcreated : ∀ u, u ∈ task.created ↔ u ∈ s.task.created ∨ u = t := by
    rw [htask]
    simp
  have hlive : ∀ u, u ≠ t → task.Live u → s.task.Live u ∧ s.endpoints (s.localEndpoint u) ≠ none ∧
      (task.threads.mem u).localEndpoint = s.localEndpoint u := by
    intro u hu hl
    have hl' : s.task.Live u := by
      refine ⟨((hcreated u).mp hl.1).resolve_right hu, ?_⟩
      have := hl.2
      rwa [htask] at this
    obtain ⟨e, he, -⟩ := h.paired u hl'
    refine ⟨hl', by simp [he], ?_⟩
    rw [hmem u (h.pool.contents ▸ hl'.1)]
    rfl
  cases hs
  refine ⟨hpool, ?_, ?_, ?_, ?_⟩
  · intro u hu
    exact h.fresh u fun hc => hu ((hcreated u).mpr (Or.inl hc))
  · intro u hu
    rcases eq_or_ne u t with rfl | hne
    · change ∃ userData, ThreadOk u userData ((s.setRun u _).run u) (s.events u)
      rw [run_setRun_self, h.fresh u hnew]
      exact ⟨none, .ready rfl none⟩
    · change ∃ userData, ThreadOk u userData ((s.setRun t _).run u) (s.events u)
      rw [run_setRun_of_ne hne]
      exact h.ok u (((hcreated u).mp hu).resolve_right hne)
  · intro u hu
    rcases eq_or_ne u t with rfl | hne
    · refine ⟨.empty, Function.update_self .., ?_⟩
      change Endpoint.empty.Paired ((s.events u).filterMap _) ((s.events u).filterMap _)
      rw [h.fresh u hnew]
      exact .empty
    · obtain ⟨hl, hsome, he⟩ := hlive u hne hu
      obtain ⟨e, he', hpaired⟩ := h.paired u hl
      refine ⟨e, ?_, hpaired⟩
      change Function.update s.endpoints _ _ (task.threads.mem u).localEndpoint = _
      rw [he, hself, Function.update_of_ne, he']
      intro hc
      exact hsome (by rw [hc, hempty])
  · intro u v hu hv huv
    change (task.threads.mem u).localEndpoint = (task.threads.mem v).localEndpoint at huv
    rcases eq_or_ne u t with rfl | hne
    · by_contra hne
      obtain ⟨-, hsome, he⟩ := hlive v (Ne.symm hne) hv
      exact hsome (by rw [← he, ← huv, hself, hempty])
    · obtain ⟨hl, hsome, he⟩ := hlive u hne hu
      rcases eq_or_ne v t with rfl | hne'
      · exact absurd (by rw [← he, huv, hself, hempty]) hsome
      · obtain ⟨hl', -, he'⟩ := hlive v hne' hv
        exact h.distinct u v hl hl' (by rw [← he, ← he', huv])

/-- A thread is deleted. -/
theorem delete (h : s.Inv cfg) (hlive : s.task.Live t) : (s.threadDelete t).Inv cfg := by
  have hother : ∀ u, (s.threadDelete t).task.Live u → s.task.Live u ∧ u ≠ t := by
    intro u hu
    have hd : u ∉ s.task.deleted ++ [t] := hu.2
    rw [List.mem_append, List.mem_singleton, not_or] at hd
    exact ⟨⟨hu.1, hd.1⟩, hd.2⟩
  refine ⟨⟨h.pool.wf, h.pool.size, h.pool.contents⟩, h.fresh, h.ok, ?_, ?_⟩
  · intro u hu
    obtain ⟨hl, hne⟩ := hother u hu
    obtain ⟨e, he, hpaired⟩ := h.paired u hl
    refine ⟨e, ?_, hpaired⟩
    change Function.update s.endpoints (s.localEndpoint t) none (s.localEndpoint u) = some e
    rw [Function.update_of_ne fun hc => hne (h.distinct u t hl hlive hc), he]
  · intro u v hu hv huv
    exact h.distinct u v (hother u hu).1 (hother v hv).1 huv

/-- Every step keeps it. -/
theorem step (h : s.Inv cfg) {act : ThreadLifeAction} (hs : s.step act = .next s') : s'.Inv cfg := by
  cases act with
  | create threadRoutine threadArg priority a =>
    obtain ⟨ha, hs⟩ := Outcome.guard_eq_next.mp hs
    exact h.create ha (Outcome.ofExcept_eq_next.mp hs)
  | start t userData ok =>
    obtain ⟨⟨hlive, hpc⟩, hs⟩ := Outcome.guard_eq_next.mp hs
    exact h.start hlive hpc (Outcome.ofExcept_eq_next.mp hs)
  | step t =>
    obtain ⟨hlive, hs⟩ := Outcome.guard_eq_next.mp hs
    exact h.wrapperStep hlive hs
  | stop t =>
    obtain ⟨hlive, hs⟩ := Outcome.guard_eq_next.mp hs
    cases hs
    exact h.stop hlive
  | join j t =>
    cases he : s.endpoints (s.localEndpoint t) with
    | none => simp [Threads.step, he] at hs
    | some e =>
      simp only [Threads.step, he, Outcome.guard_eq_next, Outcome.next.injEq] at hs
      obtain ⟨⟨hlive, -⟩, rfl⟩ := hs
      exact h.join hlive j he
  | delete t =>
    obtain ⟨⟨hlive, -⟩, hs⟩ := Outcome.guard_eq_next.mp hs
    cases hs
    exact h.delete hlive

/-- In every state of every run. -/
theorem of_run (hr : (threadLifeMachine cfg).Reachable s) : s.Inv cfg := by
  induction hr with
  | init hi => exact of_init hi
  | step a _ hs ih => exact ih.step hs

end Inv

end Threads

/-! ## The theorems -/

/-- A message met by the first of those who wait for it. -/
theorem zip_singleton_map (ys : List Joiner) :
    (([0] : List Word).zip ys).map (fun x => (x.2, intOfWord x.1)) = (ys.take 1).map fun j => (j, 0) := by
  cases ys <;> rfl

/-- In every run, for every thread: its wrapper starts, enters the routine, returns from it and signals, in this order and at
most once; no join returns before it was called and before the routine has returned; and the joins that have returned are the
first one that was called, with 0, if the thread has signalled, and none otherwise. -/
theorem thread_join_synchronises (cfg : ThreadConfig) (s : Threads) (hr : (threadLifeMachine cfg).Reachable s) (t : Ptr) :
    (∃ userData, (s.events t).filter ThreadEvent.ofWrapper <+: [.started userData, .entered, .returned, .signalled 0]) ∧
    (∀ h₁ h₂ j v, s.events t = h₁ ++ .joined j v :: h₂ → .returned ∈ h₁ ∧ .joins j ∈ h₁) ∧
    (s.events t).filterMap ThreadEvent.joined? =
      if .signalled 0 ∈ s.events t then (((s.events t).filterMap ThreadEvent.joins?).take 1).map fun j => (j, 0) else [] := by
  have h := Threads.Inv.of_run hr
  by_cases ht : t ∈ s.task.created
  · obtain ⟨userData, hok⟩ := h.ok t ht
    refine ⟨⟨userData, hok.control ▸ List.take_prefix _ _⟩, hok.ordered, ?_⟩
    have hsignal : .signalled 0 ∈ s.events t ↔ (s.run t).pc = .signalled := by
      rw [hok.mem_iff rfl]
      cases (s.run t).pc <;> simp [ThreadPc.passed, ThreadEvent.wrapper]
    rw [hok.joined, hok.signals]
    by_cases hpc : (s.run t).pc = .signalled
    · rw [if_pos hpc, if_pos (hsignal.mpr hpc), zip_singleton_map]
    · rw [if_neg hpc, if_neg (mt hsignal.mp hpc)]
      rfl
  · rw [h.fresh t ht]
    simp

/-- A thread that is created, joined by the main thread, and runs to its end. -/
def joinedRun : List ThreadLifeAction := [.create 40 none 100 threadAnswers, .start 0 (some 61) true, .join none 0, .step 0, .step 0,
  .step 0, .stop 0, .step 0, .step 0, .step 0]

/-- A run of a thread that is joined. -/
theorem exists_joinedRun : ∃ s, (threadLifeMachine oneThread).init s ∧
    (((threadLifeMachine oneThread).exec s (joinedRun.take 7)).any fun s =>
      s.task.Live 0 ∧ (s.run 0).pc = .routine ∧ (s.run 0).active = false ∧
        s.events 0 = [.started (some 61), .joins none, .entered, .stopped]) = true ∧
    (((threadLifeMachine oneThread).exec s joinedRun).any fun s =>
      s.events 0 = [.started (some 61), .joins none, .entered, .stopped, .returned, .signalled 0, .joined none 0]) = true := by
  refine ⟨⟨⟨1, 100, 50, false, Task.initializeMainThread 100 60 61, _, [], []⟩, fun _ => ⟨.ready, none, none, false⟩, fun _ => none,
    fun _ => none, []⟩, ⟨⟨⟨blocksOf ⟨0, 0, 0, 0, ⟨0, none, none, 0, 0, 0⟩⟩, rfl⟩, ⟨60, 61, rfl⟩, rfl, rfl⟩, fun _ => rfl, rfl⟩, ?_, ?_⟩
  · rfl
  · rfl

/-- The main thread joins a thread before it ends, and the join returns 0. -/
theorem thread_join_synchronises_joined : ∃ s, (threadLifeMachine oneThread).Reachable s ∧ .signalled 0 ∈ s.events 0 ∧
    (s.events 0).filterMap ThreadEvent.joined? = [(none, 0)] := by
  obtain ⟨s₀, hi, -, hrun⟩ := exists_joinedRun
  obtain ⟨s, hr, hs⟩ := (Machine.Reachable.init hi).exists_of_exec _ _ hrun
  have hs := of_decide_eq_true hs
  obtain ⟨-, -, hjoined⟩ := thread_join_synchronises oneThread s hr 0
  have hsignal : .signalled 0 ∈ s.events 0 := by
    rw [hs]
    decide
  rw [if_pos hsignal, hs] at hjoined
  exact ⟨s, hr, hsignal, by rw [hs, hjoined]; rfl⟩

/-- In every run, a thread in its routine: `sel4osapi_thread_get_current` gives it its own record, where the user data that its
IPC buffer had when it was started is kept; and its `info.active` is cleared exactly when someone has cleared it since the routine
was entered, once. What was cleared before that is lost. -/
theorem thread_routine_context (cfg : ThreadConfig) (s : Threads) (hr : (threadLifeMachine cfg).Reachable s) (t : Ptr)
    (hlive : s.task.Live t) (hpc : (s.run t).pc = .routine) :
    s.threadGetCurrent t = some t ∧ (∃ word, .started (some word) ∈ s.events t ∧ (s.run t).ipcWord = some word) ∧
    ∃ h₁ h₂, s.events t = h₁ ++ .entered :: h₂ ∧ .entered ∉ h₁ ++ h₂ ∧ ((s.run t).active = false ↔ .stopped ∈ h₂) := by
  obtain ⟨userData, hok⟩ := (Threads.Inv.of_run hr).ok t hlive.1
  have hinit : (s.run t).pc.Initialised := by
    rw [hpc]
    trivial
  obtain ⟨h₁, h₂, he, hiff⟩ := hok.active hpc
  obtain ⟨word, rfl, hword⟩ := hok.own.saved (Or.inl hinit)
  have hstarted : .started (some word) ∈ s.events t := by
    rw [hok.mem_iff rfl, hpc]
    simp [ThreadPc.passed, ThreadEvent.wrapper]
  refine ⟨hok.own.self hinit, ⟨word, hstarted, hword⟩, h₁, h₂, he, ?_, ?_⟩
  · have hcount : (s.events t).count .entered = 1 := by
      rw [← List.count_filter (p := ThreadEvent.ofWrapper) rfl, hok.control, hpc]
      rfl
    rw [he, List.perm_middle.count_eq, List.count_cons_self] at hcount
    exact List.count_eq_zero.mp (Nat.succ.inj hcount)
  · rw [← Bool.not_eq_true, hiff, not_not]

/-- A thread whose `info.active` was cleared after it entered its routine. -/
theorem thread_routine_context_stopped : ∃ s, (threadLifeMachine oneThread).Reachable s ∧ s.task.Live 0 ∧ (s.run 0).pc = .routine ∧
    (s.run 0).active = false ∧ s.threadGetCurrent 0 = some 0 ∧ (s.run 0).ipcWord = some 61 ∧
    ∃ h₁ h₂, s.events 0 = h₁ ++ .entered :: h₂ ∧ .entered ∉ h₁ ++ h₂ ∧ .stopped ∈ h₂ := by
  obtain ⟨s₀, hi, hrun, -⟩ := exists_joinedRun
  obtain ⟨s, hr, hs⟩ := (Machine.Reachable.init hi).exists_of_exec _ _ hrun
  obtain ⟨hlive, hpc, hactive, hevents⟩ := of_decide_eq_true hs
  obtain ⟨hself, ⟨word, hstarted, hword⟩, h₁, h₂, he, hne, hiff⟩ := thread_routine_context oneThread s hr 0 hlive hpc
  rw [hevents] at hstarted
  obtain rfl : word = 61 := by simpa using hstarted
  exact ⟨s, hr, hlive, hpc, hactive, hself, hword, h₁, h₂, he, hne, hiff.mp hactive⟩

end Sel4Osapi
