import Sel4Osapi.ThreadName

/-!
# What naming a thread does to its record

The array `info.name` is ten bytes smaller than the bound that every `snprintf` on it is passed, and `info.arg` is the next field,
which `sel4osapi_thread_create` has set by then. `undisturbed_iff` says for each of the three functions that name a thread when
the record is as it should be: when the name is shorter than the array. With a longer one the bytes go over the argument of the
thread, and the routine of the thread is entered with it.
-/

namespace Sel4Osapi

open Memory

/-! ## The record -/

/-- The fields of `sel4osapi_thread_info_t` beside the name, as they are in memory. -/
@[ext] structure ThreadFields where
  tid : Word
  arg : Word
  tls : Word
  active : UInt8
  waitAep : CPtr
  priority : Word
  ipc : Word
  ipcWord : Word

/-- The fields of the record of a thread. -/
def ThreadLayout.fields (l : ThreadLayout) (mem : Nat → UInt8) (thread : Nat) : ThreadFields where
  tid := loadWord mem (thread + l.tid)
  arg := loadWord mem (thread + l.arg)
  tls := loadWord mem (thread + l.tls)
  active := mem (thread + l.active)
  waitAep := loadWord mem (thread + l.waitAep)
  priority := loadWord mem (thread + l.priority)
  ipc := loadWord mem (thread + l.ipc)
  ipcWord := loadWord mem (thread + l.ipcWord)

/-- The fields as they are in memory, with those that are not part of `info` beside it. -/
def ThreadInfo.inMemory (info : ThreadInfo) (active : UInt8) (ipcWord : Word) : ThreadFields where
  tid := UInt32.ofInt info.tid
  arg := ptrWord info.arg
  tls := ptrWord info.tls
  active := active
  waitAep := info.waitAep
  priority := UInt32.ofInt info.priority
  ipc := UInt32.ofNat info.ipc
  ipcWord := ipcWord

/-- The record of a thread is as it should be: the name fits the array, which holds as much of `text` as it has room for, the other
fields have the values given, and the memory around the record is as it was `before`. -/
structure ThreadLayout.Undisturbed (l : ThreadLayout) (before : Nat → UInt8) (named : NamedThread) (thread : Nat) (text : List UInt8)
    (fields : ThreadFields) : Prop where
  fits : named.nameEnd ≤ thread + l.name + l.nameSize
  name : ∀ i c, (text.take (l.nameSize - 1) ++ [0])[i]? = some c → named.mem (thread + l.name + i) = c
  fields : l.fields named.mem thread = fields
  around : ∀ i, i < thread + l.tid ∨ thread + l.ipcWord + 4 ≤ i → named.mem i = before i

/-- The fields that `sel4osapi_thread_create` gives a thread, when the calls answered by `a` succeed. -/
def createdInfo (s : Task) (threadArg : Option Ptr) (priority : Int) (a : ThreadAnswers) : ThreadInfo where
  tid := simplePoolGetCurrentSize s.threads + 1
  arg := threadArg
  tls := none
  waitAep := a.threadAep.getD capNull
  priority := priority
  ipc := a.native.getD 0

/-- The record of a thread that was created is as it should be: when `sel4osapi_thread_create` returns, with the fields that it does
not set as they were, and when the routine of the thread is entered, nothing having been written to the record in between. -/
structure ThreadLayout.CreatedUndisturbed (l : ThreadLayout) (before : Nat → UInt8) (named : NamedThread) (thread : Nat)
    (text : List UInt8) (info : ThreadInfo) : Prop where
  created : l.Undisturbed before named thread text
    (info.inMemory (l.fields before thread).active (l.fields before thread).ipcWord)
  entered : ∀ between userData entered, (∀ i, thread + l.tid ≤ i → i < thread + l.ipcWord + 4 → between i = named.mem i) →
    l.threadRoutineWrapper between thread userData = .ok entered →
    l.Undisturbed between { named with mem := entered } thread text (info.inMemory 1 userData)

namespace ThreadLayout

variable {l : ThreadLayout} {mem : Nat → UInt8} {thread b : Nat} {text : List UInt8}

/-- The fields one after another. -/
theorem order (l : ThreadLayout) : l.tid + 4 ≤ l.name ∧ l.name + l.nameSize ≤ l.arg ∧ l.arg + 4 ≤ l.tls ∧ l.tls + 4 ≤ l.active ∧
    l.active + 1 ≤ l.waitAep ∧ l.waitAep + 4 ≤ l.priority ∧ l.priority + 4 ≤ l.ipc ∧ l.ipc + 4 ≤ l.ipcWord :=
  ⟨l.tid_name, l.name_arg, l.arg_tls, l.tls_active, l.active_waitAep, l.waitAep_priority, l.priority_ipc, l.ipc_ipcWord⟩

/-- The bound that is passed, in terms of the size of the array. -/
theorem nameMaxLen_eq (l : ThreadLayout) : l.nameMaxLen = l.nameSize + 10 := by
  have hlt : 10 < l.nameMaxLen := l.nameMaxLen_gt
  rw [nameSize, threadNamePrefixMaxLen]
  omega

/-- The array is not empty. -/
theorem nameSize_pos (l : ThreadLayout) : 0 < l.nameSize := Nat.sub_pos_of_lt l.nameMaxLen_gt

/-! ## The fields -/

/-- The fields are in the record, and not in the array. -/
theorem fields_congr {m m' : Nat → UInt8}
    (h : ∀ i, thread + l.tid ≤ i → i < thread + l.ipcWord + 4 → i < thread + l.name ∨ thread + l.name + l.nameSize ≤ i → m i = m' i) :
    l.fields m thread = l.fields m' thread := by
  obtain ⟨h1, h2, h3, h4, h5, h6, h7, h8⟩ := l.order
  have hword : ∀ b, thread + l.tid ≤ b → b < thread + l.ipcWord + 1 → b + 4 ≤ thread + l.name ∨ thread + l.name + l.nameSize ≤ b →
      loadWord m b = loadWord m' b := fun b hb hb' hb'' => loadWord_congr fun i hi hi' => h i (by omega) (by omega) (by omega)
  simp (disch := omega) only [fields, hword, h]

variable {w : Word}

theorem fields_storeWord_tid : l.fields (storeWord mem (thread + l.tid) w) thread = { l.fields mem thread with tid := w } := by
  obtain ⟨h1, h2, h3, h4, h5, h6, h7, h8⟩ := l.order
  simp (disch := omega) only [fields, loadWord_storeWord, loadWord_storeWord_of_disjoint, storeWord_of_outside]

theorem fields_storeWord_arg : l.fields (storeWord mem (thread + l.arg) w) thread = { l.fields mem thread with arg := w } := by
  obtain ⟨h1, h2, h3, h4, h5, h6, h7, h8⟩ := l.order
  simp (disch := omega) only [fields, loadWord_storeWord, loadWord_storeWord_of_disjoint, storeWord_of_outside]

theorem fields_storeWord_tls : l.fields (storeWord mem (thread + l.tls) w) thread = { l.fields mem thread with tls := w } := by
  obtain ⟨h1, h2, h3, h4, h5, h6, h7, h8⟩ := l.order
  simp (disch := omega) only [fields, loadWord_storeWord, loadWord_storeWord_of_disjoint, storeWord_of_outside]

theorem fields_update_active {c : UInt8} :
    l.fields (Function.update mem (thread + l.active) c) thread = { l.fields mem thread with active := c } := by
  obtain ⟨h1, h2, h3, h4, h5, h6, h7, h8⟩ := l.order
  simp (disch := omega) only [fields, Function.update_self, loadWord_update_of_disjoint]

theorem fields_storeWord_waitAep :
    l.fields (storeWord mem (thread + l.waitAep) w) thread = { l.fields mem thread with waitAep := w } := by
  obtain ⟨h1, h2, h3, h4, h5, h6, h7, h8⟩ := l.order
  simp (disch := omega) only [fields, loadWord_storeWord, loadWord_storeWord_of_disjoint, storeWord_of_outside]

theorem fields_storeWord_priority :
    l.fields (storeWord mem (thread + l.priority) w) thread = { l.fields mem thread with priority := w } := by
  obtain ⟨h1, h2, h3, h4, h5, h6, h7, h8⟩ := l.order
  simp (disch := omega) only [fields, loadWord_storeWord, loadWord_storeWord_of_disjoint, storeWord_of_outside]

theorem fields_storeWord_ipc : l.fields (storeWord mem (thread + l.ipc) w) thread = { l.fields mem thread with ipc := w } := by
  obtain ⟨h1, h2, h3, h4, h5, h6, h7, h8⟩ := l.order
  simp (disch := omega) only [fields, loadWord_storeWord, loadWord_storeWord_of_disjoint, storeWord_of_outside]

theorem fields_storeWord_ipcWord :
    l.fields (storeWord mem (thread + l.ipcWord) w) thread = { l.fields mem thread with ipcWord := w } := by
  obtain ⟨h1, h2, h3, h4, h5, h6, h7, h8⟩ := l.order
  simp (disch := omega) only [fields, loadWord_storeWord, loadWord_storeWord_of_disjoint, storeWord_of_outside]

/-! ## The name -/

/-- The end of the bytes that are written for a name. -/
theorem snprintfName_nameEnd : (l.snprintfName mem thread text).nameEnd = thread + l.name + min text.length (l.nameMaxLen - 1) + 1 := by
  have hne : l.nameMaxLen ≠ 0 := by
    have := l.nameMaxLen_eq
    omega
  exact (TextBuffer.snprintf_extent hne).trans (Nat.zero_max _)

/-- The bytes written for a name fit the array when the name is shorter than it, and only then. -/
theorem snprintfName_fits_iff : (l.snprintfName mem thread text).nameEnd ≤ thread + l.name + l.nameSize ↔ text.length < l.nameSize := by
  have hmax := l.nameMaxLen_eq
  rw [snprintfName_nameEnd]
  omega

/-- A name that fits is stored whole. -/
theorem snprintfName_mem (h : text.length < l.nameSize) :
    (l.snprintfName mem thread text).mem = TextBuffer.storeAt mem (thread + l.name) (text ++ [0]) := by
  have hmax := l.nameMaxLen_eq
  have htake : text.take (l.nameMaxLen - 1) = text := List.take_of_length_le (by omega)
  exact (TextBuffer.snprintf_mem (by omega)).trans (by rw [htake]; rfl)

/-- A name that fits leaves the bytes outside the array as they are. -/
theorem snprintfName_of_outside {i : Nat} (h : text.length < l.nameSize) (hi : i < thread + l.name ∨ thread + l.name + l.nameSize ≤ i) :
    (l.snprintfName mem thread text).mem i = mem i := by
  rw [snprintfName_mem h]
  refine TextBuffer.storeAt_of_outside ?_
  rw [List.length_append, List.length_singleton]
  omega

/-- A name that fits leaves the fields as they are. -/
theorem fields_snprintfName (h : text.length < l.nameSize) :
    l.fields (l.snprintfName mem thread text).mem thread = l.fields mem thread :=
  fields_congr fun _ _ _ hi => snprintfName_of_outside h hi

/-- The bytes of a name that fits are in the array. -/
theorem lt_nameSize {i : Nat} {c : UInt8} (hc : (text.take (l.nameSize - 1) ++ [0])[i]? = some c) : i < l.nameSize := by
  have hpos := l.nameSize_pos
  have hi := (List.getElem?_eq_some_iff.mp hc).1
  rw [List.length_append, List.length_singleton, List.length_take] at hi
  omega

/-- The array holds the bytes of a name that fits. -/
theorem snprintfName_of_getElem? {i : Nat} {c : UInt8} (h : text.length < l.nameSize)
    (hc : (text.take (l.nameSize - 1) ++ [0])[i]? = some c) : (l.snprintfName mem thread text).mem (thread + l.name + i) = c := by
  rw [List.take_of_length_le (by omega)] at hc
  rw [snprintfName_mem h]
  exact TextBuffer.storeAt_of_getElem? hc

/-! ## The main thread -/

/-- A main thread with a name that is shorter than the array. -/
theorem systemInitializeMainThread_undisturbed {mainThread : Nat} {pid : Word} {priority : UInt8} {waitAep : CPtr} {ipc : Ptr}
    {named : NamedThread} (h : (mainThreadNameText pid).length < l.nameSize)
    (hs : l.systemInitializeMainThread mem mainThread pid priority (some waitAep) ipc = .ok named) :
    l.Undisturbed mem named mainThread (mainThreadNameText pid)
      ((Task.initializeMainThread priority waitAep ipc).inMemory 1 (l.fields mem mainThread).ipcWord) := by
  obtain ⟨h1, h2, h3, h4, h5, h6, h7, h8⟩ := l.order
  have hpriority : UInt32.ofInt priority.toNat = priority.toUInt32 := by
    have hlt := priority.toNat_lt
    rw [UInt32.ofInt, ← UInt32.ofNat_uInt8ToNat]
    congr 1
    omega
  cases hs
  refine ⟨snprintfName_fits_iff.mpr h, ?_, ?_, ?_⟩
  · intro i c hc
    have hi := lt_nameSize hc
    simp (disch := omega) only [storeWord_of_outside, Function.update_of_ne]
    exact snprintfName_of_getElem? h hc
  · simp only [fields_storeWord_ipc, fields_storeWord_waitAep, fields_update_active, fields_storeWord_priority, fields_storeWord_tid,
      fields_storeWord_tls, fields_storeWord_arg, fields_snprintfName h, ThreadInfo.inMemory, Task.initializeMainThread, hpriority]
    rfl
  · intro i hi
    simp (disch := omega) only [storeWord_of_outside, Function.update_of_ne, snprintfName_of_outside h]

/-- A main thread has the record it should have when its name is shorter than the array, and only then. -/
theorem systemInitializeMainThread_undisturbed_iff {mainThread : Nat} {pid : Word} {priority : UInt8} {waitAep : CPtr} {ipc : Ptr}
    {named : NamedThread} (hs : l.systemInitializeMainThread mem mainThread pid priority (some waitAep) ipc = .ok named) :
    l.Undisturbed mem named mainThread (mainThreadNameText pid)
        ((Task.initializeMainThread priority waitAep ipc).inMemory 1 (l.fields mem mainThread).ipcWord) ↔
      (mainThreadNameText pid).length < l.nameSize := by
  constructor
  · intro h
    have hfits := h.fits
    cases hs
    exact snprintfName_fits_iff.mp hfits
  · intro h
    exact systemInitializeMainThread_undisturbed h hs

/-! ## A thread that is created -/

/-- The part of a creation that is not about memory: the number of the thread, and what `vka` and `sel4utils` gave it. -/
theorem task_threadCreate_ok {s s' : Task} {threadRoutine : Ptr} {threadArg : Option Ptr} {priority : Int} {a : ThreadAnswers}
    (hs : s.threadCreate threadRoutine threadArg priority a = .ok (thread, s')) :
    s'.pid = s.pid ∧ simplePoolGetCurrentSize s'.threads = simplePoolGetCurrentSize s.threads + 1 ∧
      (s'.threads.mem thread).info = createdInfo s threadArg priority a := by
  obtain ⟨threads, localEndpoint, threadAep, ipc, halloc, -, haep, hipc, rfl⟩ := Task.threadCreate_ok hs
  have hsize : simplePoolGetCurrentSize threads = simplePoolGetCurrentSize s.threads + 1 := simplePoolAlloc_currentSize halloc
  refine ⟨rfl, hsize, ?_⟩
  simp only [Function.update_self, createdInfo, haep, hipc, Option.getD_some, hsize]

/-- The creation of a thread, to its stores. -/
theorem threadCreate_ok {s s' : Task} {name : Option (List UInt8)} {threadRoutine : Ptr} {threadArg : Option Ptr} {priority : Int}
    {a : ThreadAnswers} {named : NamedThread} (hs : l.threadCreate s mem name threadRoutine threadArg priority a = .ok (thread, s', named)) :
    let info := createdInfo s threadArg priority a
    let given := storeWord (storeWord mem (thread + l.priority) (UInt32.ofInt info.priority)) (thread + l.arg) (ptrWord info.arg)
    let name := l.snprintfName given thread (threadNameText name s.pid info.tid)
    named = { name with
      mem := storeWord (storeWord (storeWord (storeWord name.mem (thread + l.tls) (ptrWord info.tls)) (thread + l.tid)
        (UInt32.ofInt info.tid)) (thread + l.waitAep) info.waitAep) (thread + l.ipc) (UInt32.ofNat info.ipc) } := by
  obtain ⟨⟨thread', s''⟩, hcreate, hs⟩ := bind_ok hs
  obtain ⟨hpid, hsize, hinfo⟩ := task_threadCreate_ok hcreate
  cases hs
  rw [hpid, hsize, hinfo]
  rfl

/-- A thread that is created with a name that is shorter than the array. -/
theorem threadCreate_undisturbed {s s' : Task} {name : Option (List UInt8)} {threadRoutine : Ptr} {threadArg : Option Ptr}
    {priority : Int} {a : ThreadAnswers} {named : NamedThread}
    (h : (threadNameText name s.pid (simplePoolGetCurrentSize s.threads + 1)).length < l.nameSize)
    (hs : l.threadCreate s mem name threadRoutine threadArg priority a = .ok (thread, s', named)) :
    l.Undisturbed mem named thread (threadNameText name s.pid (simplePoolGetCurrentSize s.threads + 1))
      ((createdInfo s threadArg priority a).inMemory (l.fields mem thread).active (l.fields mem thread).ipcWord) := by
  obtain ⟨h1, h2, h3, h4, h5, h6, h7, h8⟩ := l.order
  rw [threadCreate_ok hs]
  refine ⟨snprintfName_fits_iff.mpr h, ?_, ?_, ?_⟩
  · intro i c hc
    have hi := lt_nameSize hc
    simp (disch := omega) only [storeWord_of_outside]
    exact snprintfName_of_getElem? h hc
  · have hname : (threadNameText name s.pid (createdInfo s threadArg priority a).tid).length < l.nameSize := h
    simp only [fields_storeWord_ipc, fields_storeWord_waitAep, fields_storeWord_priority, fields_storeWord_tid,
      fields_storeWord_tls, fields_storeWord_arg, fields_snprintfName hname, ThreadInfo.inMemory]
  · intro i hi
    have hname : (threadNameText name s.pid (createdInfo s threadArg priority a).tid).length < l.nameSize := h
    simp (disch := omega) only [storeWord_of_outside, snprintfName_of_outside hname]

/-- The wrapper of the routine sets `active` and `ipc_word`. -/
theorem Undisturbed.entered {before between entered : Nat → UInt8} {named : NamedThread} {fields : ThreadFields} {userData : Word}
    (h : l.Undisturbed before named thread text fields)
    (hbetween : ∀ i, thread + l.tid ≤ i → i < thread + l.ipcWord + 4 → between i = named.mem i)
    (hs : l.threadRoutineWrapper between thread userData = .ok entered) :
    l.Undisturbed between { named with mem := entered } thread text { fields with active := 1, ipcWord := userData } := by
  obtain ⟨h1, h2, h3, h4, h5, h6, h7, h8⟩ := l.order
  obtain ⟨_, -, hs⟩ := bind_ok hs
  cases hs
  refine ⟨h.fits, ?_, ?_, ?_⟩
  · intro i c hc
    have hi := lt_nameSize hc
    simp (disch := omega) only [storeWord_of_outside, Function.update_of_ne]
    rw [hbetween _ (by omega) (by omega)]
    exact h.name i c hc
  · rw [fields_update_active, fields_storeWord_ipcWord, fields_congr fun i hi hi' _ => hbetween i hi hi', h.fields]
  · intro i hi
    simp (disch := omega) only [storeWord_of_outside, Function.update_of_ne]

/-- A thread that is created has the record it should have when its name is shorter than the array, and only then. -/
theorem threadCreate_undisturbed_iff {s s' : Task} {name : Option (List UInt8)} {threadRoutine : Ptr} {threadArg : Option Ptr}
    {priority : Int} {a : ThreadAnswers} {named : NamedThread}
    (hs : l.threadCreate s mem name threadRoutine threadArg priority a = .ok (thread, s', named)) :
    l.CreatedUndisturbed mem named thread (threadNameText name s.pid (simplePoolGetCurrentSize s.threads + 1))
        (createdInfo s threadArg priority a) ↔
      (threadNameText name s.pid (simplePoolGetCurrentSize s.threads + 1)).length < l.nameSize := by
  constructor
  · intro h
    have hfits := h.created.fits
    rw [threadCreate_ok hs] at hfits
    exact snprintfName_fits_iff.mp hfits
  · intro h
    have hcreated := threadCreate_undisturbed h hs
    exact ⟨hcreated, fun between userData entered hbetween hentered => hcreated.entered hbetween hentered⟩

/-! ## A monitoring thread -/

/-- Of the text, the array holds what it has room for. -/
theorem Undisturbed.congr_text {before : Nat → UInt8} {named : NamedThread} {fields : ThreadFields} {text' : List UInt8}
    (h : l.Undisturbed before named thread text fields) (htext : text.take (l.nameSize - 1) = text'.take (l.nameSize - 1)) :
    l.Undisturbed before named thread text' fields :=
  ⟨h.fits, htext ▸ h.name, h.fields, h.around⟩

theorem CreatedUndisturbed.congr_text {before : Nat → UInt8} {named : NamedThread} {info : ThreadInfo} {text' : List UInt8}
    (h : l.CreatedUndisturbed before named thread text info) (htext : text.take (l.nameSize - 1) = text'.take (l.nameSize - 1)) :
    l.CreatedUndisturbed before named thread text' info :=
  ⟨h.created.congr_text htext, fun between userData entered hbetween hentered =>
    (h.entered between userData entered hbetween hentered).congr_text htext⟩

/-- A monitoring thread is created with a name made from the one that is in memory. -/
theorem syslogMonitorThread_ok {s s' : Task} {fuel : Nat} {monitoringThread monitoring : Ptr} {a : ThreadAnswers} {started : Bool}
    {named : NamedThread} {name : List UInt8} (hname : stringAt mem fuel (thread + l.name) = some name)
    (hs : l.syslogMonitorThread s mem fuel thread monitoringThread a started = .ok (monitoring, s', named)) :
    l.threadCreate s mem (some ((monitorThreadNamePrefix ++ name).take (l.nameMaxLen - 1))) monitoringThread (some thread)
      (intOfWord (loadWord mem (thread + l.priority))) a = .ok (monitoring, s', named) := by
  rw [syslogMonitorThread, hname] at hs
  obtain ⟨_, hread, hs⟩ := bind_ok hs
  cases hread
  obtain ⟨⟨monitoring', s'', named'⟩, hcreate, hs⟩ := bind_ok hs
  obtain ⟨_, -, hs⟩ := bind_ok hs
  cases hs
  exact hcreate

/-- A monitoring thread has the record it should have when the name of the monitored thread, with `syslog::` before it, is shorter
than the array, and only then. -/
theorem syslogMonitorThread_undisturbed_iff {s s' : Task} {fuel : Nat} {monitoringThread monitoring : Ptr} {a : ThreadAnswers}
    {started : Bool} {named : NamedThread} {name : List UInt8} (hname : stringAt mem fuel (thread + l.name) = some name)
    (hs : l.syslogMonitorThread s mem fuel thread monitoringThread a started = .ok (monitoring, s', named)) :
    l.CreatedUndisturbed mem named monitoring (monitorThreadNamePrefix ++ name)
        (createdInfo s (some thread) (intOfWord (loadWord mem (thread + l.priority))) a) ↔
      (monitorThreadNamePrefix ++ name).length < l.nameSize := by
  have hmax := l.nameMaxLen_eq
  have hiff := threadCreate_undisturbed_iff (syslogMonitorThread_ok hname hs)
  simp only [threadNameText, List.length_take] at hiff
  -- the array on the stack has room for all that goes into `info.name`
  have htake : ((monitorThreadNamePrefix ++ name).take (l.nameMaxLen - 1)).take (l.nameSize - 1) =
      (monitorThreadNamePrefix ++ name).take (l.nameSize - 1) := by
    rw [List.take_take, Nat.min_eq_left (by omega)]
  constructor
  · intro h
    have hlen := hiff.mp (h.congr_text htake.symm)
    omega
  · intro h
    exact (hiff.mpr (by omega)).congr_text htake

end ThreadLayout

/-- Naming a thread leaves its record as it should be when the name is shorter than the array, and only then: for
`sel4osapi_thread_create`, for `sel4osapi_system_initialize_main_thread` and for `sel4osapi_syslog_monitor_thread`. -/
theorem undisturbed_iff (l : ThreadLayout) (mem : Nat → UInt8) :
    (∀ s name threadRoutine threadArg priority a thread s' named,
      l.threadCreate s mem name threadRoutine threadArg priority a = .ok (thread, s', named) →
      (l.CreatedUndisturbed mem named thread (threadNameText name s.pid (simplePoolGetCurrentSize s.threads + 1))
          (createdInfo s threadArg priority a) ↔
        (threadNameText name s.pid (simplePoolGetCurrentSize s.threads + 1)).length < l.nameSize)) ∧
    (∀ mainThread pid priority waitAep ipc named,
      l.systemInitializeMainThread mem mainThread pid priority (some waitAep) ipc = .ok named →
      (l.Undisturbed mem named mainThread (mainThreadNameText pid)
          ((Task.initializeMainThread priority waitAep ipc).inMemory 1 (l.fields mem mainThread).ipcWord) ↔
        (mainThreadNameText pid).length < l.nameSize)) ∧
    (∀ s fuel thread monitoringThread a started name monitoring s' named,
      stringAt mem fuel (thread + l.name) = some name →
      l.syslogMonitorThread s mem fuel thread monitoringThread a started = .ok (monitoring, s', named) →
      (l.CreatedUndisturbed mem named monitoring (monitorThreadNamePrefix ++ name)
          (createdInfo s (some thread) (intOfWord (loadWord mem (thread + l.priority))) a) ↔
        (monitorThreadNamePrefix ++ name).length < l.nameSize)) := by
  refine ⟨?_, ?_, ?_⟩
  · intro s name threadRoutine threadArg priority a thread s' named hs
    exact ThreadLayout.threadCreate_undisturbed_iff hs
  · intro mainThread pid priority waitAep ipc named hs
    exact ThreadLayout.systemInitializeMainThread_undisturbed_iff hs
  · intro s fuel thread monitoringThread a started name monitoring s' named hname hs
    exact ThreadLayout.syslogMonitorThread_undisturbed_iff hname hs

/-- The default configuration, and a record whose `info` is 64 bytes behind its start. -/
def defaultLayout : ThreadLayout := .aligned 64 50 (by decide)

/-- The blocks for the threads of a task. -/
def threadBlocks : PoolBlocks Thread where
  malloc := ⟨fun k => 4096 * (k + 1), fun a b h => by
    have h : 4096 * (a + 1) = 4096 * (b + 1) := h
    omega⟩
  nodes := fun _ => ⟨0, none, none⟩
  mem := fun _ => ⟨0, 0, 0, 0, ⟨0, none, none, 0, 0, 0⟩⟩
  elSize := 4

/-- A task with the given threads. -/
def namingTask (threads : Pool (Ptr → Thread)) : Task where
  pid := 1
  priority := 100
  faultEndpoint := 50
  isRootTask := false
  mainThread := Task.initializeMainThread 100 60 61
  threads := threads
  created := []
  deleted := []

/-- A thread with a name of three characters, a main thread, and a thread that monitors the first one. -/
theorem undisturbed_short : ∃ threads, simplePoolNewPlain threadBlocks 2 = .ok threads ∧
    ∃ thread s named, defaultLayout.threadCreate (namingTask threads) (fun _ => 0) (some (ascii "srv")) 40 (some 200) 100
        ⟨some 30, some 31, some 32, true⟩ = .ok (thread, s, named) ∧
      defaultLayout.CreatedUndisturbed (fun _ => 0) named thread (ascii "srv")
        (createdInfo (namingTask threads) (some 200) 100 ⟨some 30, some 31, some 32, true⟩) ∧
    (∃ main, defaultLayout.systemInitializeMainThread (fun _ => 0) 512 1 100 (some 60) 61 = .ok main ∧
      defaultLayout.Undisturbed (fun _ => 0) main 512 (ascii "p-01-main")
        ((Task.initializeMainThread 100 60 61).inMemory 1 (defaultLayout.fields (fun _ => 0) 512).ipcWord)) ∧
    ∃ monitoring s' named', defaultLayout.syslogMonitorThread s named.mem 40 thread 44 ⟨some 33, some 34, some 35, true⟩ true =
        .ok (monitoring, s', named') ∧
      defaultLayout.CreatedUndisturbed named.mem named' monitoring (ascii "syslog::srv")
        (createdInfo s (some thread) (intOfWord (loadWord named.mem (thread + defaultLayout.priority)))
          ⟨some 33, some 34, some 35, true⟩) := by
  refine ⟨_, rfl, _, _, _, rfl, ?_, ⟨_, rfl, ?_⟩, _, _, _, rfl, ?_⟩
  · exact ((undisturbed_iff _ _).1 _ (some (ascii "srv")) 40 _ _ _ _ _ _ rfl).mpr (by decide)
  · exact ((undisturbed_iff _ _).2.1 512 1 100 60 61 _ rfl).mpr (by decide)
  · exact ((undisturbed_iff _ _).2.2 _ 40 _ 44 _ true (ascii "srv") _ _ _ (by decide) rfl).mpr (by decide)

/-- A thread with a name of 44 characters: five bytes of it are behind the array, and the routine is entered with four of them as the
argument of the thread. -/
theorem name_overwrites_arg : ∃ threads, simplePoolNewPlain threadBlocks 1 = .ok threads ∧
    ∃ thread s named entered, defaultLayout.threadCreate (namingTask threads) (fun _ => 0) (some (List.replicate 44 97)) 40 (some 200) 100
        ⟨some 30, some 31, some 32, true⟩ = .ok (thread, s, named) ∧
      named.nameEnd = thread + defaultLayout.name + defaultLayout.nameSize + 5 ∧
      defaultLayout.threadRoutineWrapper named.mem thread 61 = .ok entered ∧
      loadWord entered (thread + defaultLayout.arg) = 0x61616161 ∧
      ¬ defaultLayout.CreatedUndisturbed (fun _ => 0) named thread (List.replicate 44 97)
        (createdInfo (namingTask threads) (some 200) 100 ⟨some 30, some 31, some 32, true⟩) := by
  refine ⟨_, rfl, _, _, _, _, rfl, by decide, rfl, by decide, ?_⟩
  intro h
  exact absurd h.created.fits (by decide)

end Sel4Osapi
