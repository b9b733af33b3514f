import EbpfToolbox.Common.PidNamespace
import EbpfToolbox.Lib.CallTracker

/-!
# fs/open

`fs/open/open.bpf.c`. Against fs/read and fs/write: the key of `tid_map` is the
TID in the chosen namespace, there is no filter for the tool itself, the exit
probe looks at the namespace before it looks into the map, and it checks the
target PID once more, after it has counted the call as completed.
-/

namespace EbpfToolbox.Fs.Open

open Common Lib

/-- `FS_OPEN_PATH_SIZE`. -/
def fsOpenPathSize : ℕ := 256

abbrev Path : Type := Vector Int8 fsOpenPathSize

/-- `struct Open_ctrl`. -/
structure Ctrl where
  enable : Bool
  minDelayNs : UInt64
  targetPid : Int32
  pidNsDev : UInt64
  pidNsIno : UInt64

/-- `struct entry_data`. -/
structure EntryData where
  enterTs : UInt64
  flags : UInt64
  pid : Int32
  tid : Int32
  dirfd : Int32
  pathName : Path

/-- `struct Open_event`. -/
structure Event where
  pid : Int32
  tid : Int32
  dirfd : Int32
  fd : Int32
  ret : Int64
  flags : UInt64
  timestampNs : UInt64
  latencyNs : UInt64
  pathName : Path
  comm : Comm

/-- `struct Open_stats`. -/
structure Stats where
  attempted : ℕ := 0
  completed : ℕ := 0
  submitted : ℕ := 0
  failed : ℕ := 0
  filteredPid : ℕ := 0
  filteredDelay : ℕ := 0
  ringbufDropped : ℕ := 0
  mapUpdateFailed : ℕ := 0
  lookupMissed : ℕ := 0
  pathReadFailed : ℕ := 0
  pathTruncated : ℕ := 0
  totalNs : UInt64 := 0
  maxNs : UInt64 := 0
  maxPid : Int32 := 0
  maxComm : Comm := Vector.replicate _ 0

/-- `tid_map`, `stats_map` and what was submitted to `rb`. -/
structure State (n : ℕ) where
  tidMap : BpfMap UInt32 EntryData
  stats : PerCpu n Stats
  rb : List Event

def State.start (n : ℕ) : State n := ⟨∅, fun _ => {}, []⟩

def State.bump {n : ℕ} (s : State n) (cpu : Fin n) (f : Stats → Stats) : State n :=
  { s with stats := s.stats.modify cpu f }

/-! ## The probes -/

/-- What the entry probe sees; `path` is the user string behind `args[1]`. -/
structure EntryArgs (n : ℕ) where
  cpu : Fin n
  now : UInt64
  arg0 : UInt64
  arg2 : UInt64
  path : ReadStr
  updateFails : Bool

structure ExitArgs (n : ℕ) where
  cpu : Fin n
  now : UInt64
  ret : Int64
  comm : Comm
  reserved : Bool

/-- `"<read-error>"`. -/
def readError : List Int8 := [60, 114, 101, 97, 100, 45, 101, 114, 114, 111, 114, 62]

/-- `path_len == sizeof(entry.path_name_)`: the string and its NUL fill the buffer. -/
def truncated (path : ReadStr) : Bool :=
  match path with
  | none => false
  | some bytes => decide (fsOpenPathSize ≤ bytes.length + 1)

variable {n : ℕ}

def entryData (pidTgid : UInt64) (a : EntryArgs n) : EntryData where
  enterTs := a.now
  flags := a.arg2
  pid := (tgidOf pidTgid).toInt32
  tid := (tidOf pidTgid).toInt32
  dirfd := a.arg0.toUInt32.toInt32
  pathName := copyStr fsOpenPathSize (a.path.getD readError)

/-- The entry probe behind its filters. -/
def recordEntry (pidTgid : UInt64) (a : EntryArgs n) (s : State n) : State n :=
  let s := s.bump a.cpu fun st => { st with attempted := st.attempted + 1 }
  let s :=
    if a.path.isNone then
      s.bump a.cpu fun st => { st with pathReadFailed := st.pathReadFailed + 1 }
    else if truncated a.path then
      s.bump a.cpu fun st => { st with pathTruncated := st.pathTruncated + 1 }
    else s
  if a.updateFails then
    s.bump a.cpu fun st => { st with mapUpdateFailed := st.mapUpdateFailed + 1 }
  else { s with tidMap := s.tidMap.update (tidOf pidTgid) (entryData pidTgid a) }

def openatEntry (ctrl : Ctrl) (cur : Task) (a : EntryArgs n) (s : State n) : State n :=
  if ctrl.enable = false then s
  else
    let pidTgid := appCurrentPidTgidNs cur ctrl.pidNsDev ctrl.pidNsIno
    if pidTgid = 0 then s
    else if ctrl.targetPid ≠ 0 ∧ (tgidOf pidTgid).toInt32 ≠ ctrl.targetPid then
      s.bump a.cpu fun st => { st with filteredPid := st.filteredPid + 1 }
    else recordEntry pidTgid a s

def Stats.complete (st : Stats) (entry : EntryData) (latencyNs : UInt64) (x : ExitArgs n) :
    Stats :=
  { st with
    completed := st.completed + 1
    failed := if x.ret < 0 then st.failed + 1 else st.failed
    totalNs := st.totalNs + latencyNs
    maxNs := if st.maxNs < latencyNs then latencyNs else st.maxNs
    maxPid := if st.maxNs < latencyNs then entry.pid else st.maxPid
    maxComm := if st.maxNs < latencyNs then x.comm else st.maxComm }

def mkEvent (entry : EntryData) (x : ExitArgs n) : Event where
  pid := entry.pid
  tid := entry.tid
  dirfd := entry.dirfd
  fd := if 0 ≤ x.ret then x.ret.toInt32 else -1
  ret := x.ret
  flags := entry.flags
  timestampNs := x.now
  latencyNs := x.now - entry.enterTs
  pathName := entry.pathName
  comm := x.comm

/-- The exit probe once it has found a context and collection is on. -/
def finish (ctrl : Ctrl) (tid : UInt32) (entry : EntryData) (x : ExitArgs n) (s : State n) :
    State n :=
  let latencyNs := x.now - entry.enterTs
  let s := s.bump x.cpu fun st => st.complete entry latencyNs x
  if ctrl.targetPid ≠ 0 ∧ entry.pid ≠ ctrl.targetPid then
    let s := s.bump x.cpu fun st => { st with filteredPid := st.filteredPid + 1 }
    { s with tidMap := s.tidMap.delete tid }
  else if ctrl.minDelayNs ≠ 0 ∧ latencyNs < ctrl.minDelayNs then
    let s := s.bump x.cpu fun st => { st with filteredDelay := st.filteredDelay + 1 }
    { s with tidMap := s.tidMap.delete tid }
  else if x.reserved = false then
    let s := s.bump x.cpu fun st => { st with ringbufDropped := st.ringbufDropped + 1 }
    { s with tidMap := s.tidMap.delete tid }
  else
    let s := s.bump x.cpu fun st => { st with submitted := st.submitted + 1 }
    let s := { s with rb := s.rb ++ [mkEvent entry x] }
    { s with tidMap := s.tidMap.delete tid }

def openatExit (ctrl : Ctrl) (cur : Task) (x : ExitArgs n) (s : State n) : State n :=
  let pidTgid := appCurrentPidTgidNs cur ctrl.pidNsDev ctrl.pidNsIno
  if pidTgid = 0 then s
  else
    match s.tidMap.get (tidOf pidTgid) with
    | none =>
        if ctrl.enable = true ∧
            (ctrl.targetPid = 0 ∨ ctrl.targetPid = (tgidOf pidTgid).toInt32) then
          s.bump x.cpu fun st => { st with lookupMissed := st.lookupMissed + 1 }
        else s
    | some entry =>
        if ctrl.enable = false then { s with tidMap := s.tidMap.delete (tidOf pidTgid) }
        else finish ctrl (tidOf pidTgid) entry x s

/-! ## One probe is one step of a tracker -/

variable {T : Type}

/-- The filter of the entry probe, as a property of the thread. -/
def passes (ctrl : Ctrl) (K : Kernel T) (t : T) : Bool :=
  let pidTgid := K.visible ctrl.pidNsDev ctrl.pidNsIno t
  decide (pidTgid ≠ 0 ∧ ¬(ctrl.targetPid ≠ 0 ∧ (tgidOf pidTgid).toInt32 ≠ ctrl.targetPid))

def probe (ctrl : Ctrl) (K : Kernel T) (s : State n) :
    CallLabel T (EntryArgs n) (ExitArgs n) UInt32 → State n
  | .enter t a => openatEntry ctrl (K.task t) a s
  | .leave t x => openatExit ctrl (K.task t) x s
  | .evict k => { s with tidMap := s.tidMap.delete k }

/-- Only threads that are visible in the namespace have a key. -/
def tracker (n : ℕ) (ctrl : Ctrl) (K : Kernel T) :
    Tracker T (EntryArgs n) (ExitArgs n) UInt32 EntryData where
  passes := passes ctrl K
  key t := tidOf (K.visible ctrl.pidNsDev ctrl.pidNsIno t)
  Keyed t := K.visible ctrl.pidNsDev ctrl.pidNsIno t ≠ 0
  ctx t a := entryData (K.visible ctrl.pidNsDev ctrl.pidNsIno t) a
  stored a := !a.updateFails
  keyed_of_passes _ h := (of_decide_eq_true h).1
  key_inj _ _ ht hu h := K.visible_tid_inj ht hu h

def view (n : ℕ) : Tracker.View n (State n) Stats UInt32 EntryData Event where
  table s := s.tidMap
  rb s := s.rb
  stats s := s.stats
  attempted st := st.attempted
  missed st := st.lookupMissed
  completed st := st.completed
  below st := st.filteredDelay
  dropped st := st.ringbufDropped

/-- What the exit probe does with a context it found. The second check of the
target PID has no outcome of its own: no stored context fails it. -/
def outcome (ctrl : Ctrl) (call : T × EntryData × ExitArgs n) : Outcome Event :=
  let latencyNs := call.2.2.now - call.2.1.enterTs
  if ctrl.minDelayNs ≠ 0 ∧ latencyNs < ctrl.minDelayNs then .below
  else if call.2.2.reserved = false then .dropped
  else .submitted (mkEvent call.2.1 call.2.2)

theorem start_agrees (ctrl : Ctrl) : Tracker.Agrees (view n) (outcome (n := n) (T := T) ctrl)
    (State.start n) (Tracker.State.start : Tracker.State T (ExitArgs n) UInt32 EntryData) := by
  constructor <;> simp [view, State.start, Tracker.State.start]

/-- The recorded entry: one attempt, one stored context unless the insertion fails. -/
theorem recordEntry_agrees {ctrl : Ctrl} {s : State n}
    {ts : Tracker.State T (ExitArgs n) UInt32 EntryData}
    (h : Tracker.Agrees (view n) (outcome ctrl) s ts) (pidTgid : UInt64) (a : EntryArgs n) :
    Tracker.Agrees (view n) (outcome ctrl) (recordEntry pidTgid a s)
      { ts with
        attempted := ts.attempted + 1
        table := if !a.updateFails then ts.table.update (tidOf pidTgid) (entryData pidTgid a)
          else ts.table } := by
  have hatt : Tracker.Agrees (view n) (outcome ctrl)
      (s.bump a.cpu fun st => { st with attempted := st.attempted + 1 })
      { ts with attempted := ts.attempted + 1, table := s.tidMap } := by
    refine h.attempt rfl rfl ?_
    exact fun _ => ⟨rfl, rfl, rfl, rfl, rfl⟩
  rw [show s.tidMap = ts.table from h.table] at hatt
  -- which of the two path counters is bumped does not matter to the agreement
  obtain ⟨s₁, hs₁, heq⟩ : ∃ s₁, Tracker.Agrees (view n) (outcome ctrl) s₁
      { ts with attempted := ts.attempted + 1 } ∧
      recordEntry pidTgid a s =
        if a.updateFails then
          s₁.bump a.cpu fun st => { st with mapUpdateFailed := st.mapUpdateFailed + 1 }
        else { s₁ with tidMap := s₁.tidMap.update (tidOf pidTgid) (entryData pidTgid a) } := by
    refine ⟨_, ?_, rfl⟩
    split_ifs
    · refine hatt.quiet rfl rfl rfl ?_
      exact fun _ => ⟨rfl, rfl, rfl, rfl, rfl⟩
    · refine hatt.quiet rfl rfl rfl ?_
      exact fun _ => ⟨rfl, rfl, rfl, rfl, rfl⟩
    · exact hatt
  rw [heq]
  cases a.updateFails with
  | true =>
      refine hs₁.quiet rfl rfl rfl ?_
      exact fun _ => ⟨rfl, rfl, rfl, rfl, rfl⟩
  | false => exact { hs₁ with table := congrArg (fun m => BpfMap.update m _ _) hs₁.table }

theorem entry_agrees {ctrl : Ctrl} {K : Kernel T} (hen : ctrl.enable = true) {s : State n}
    {ts : Tracker.State T (ExitArgs n) UInt32 EntryData}
    (h : Tracker.Agrees (view n) (outcome ctrl) s ts) (t : T) (a : EntryArgs n) :
    Tracker.Agrees (view n) (outcome ctrl) (openatEntry ctrl (K.task t) a s)
      ((tracker n ctrl K).step ts (.enter t a)) := by
  cases hp : passes ctrl K t with
  | false =>
      rw [Tracker.step_enter_of_rejected (P := tracker n ctrl K) hp]
      have hp := of_decide_eq_false hp
      unfold Kernel.visible at hp
      simp only [openatEntry, hen, Bool.true_eq_false, if_false]
      split_ifs with hv htarget
      · exact h
      · refine h.quiet rfl rfl rfl ?_
        exact fun _ => ⟨rfl, rfl, rfl, rfl, rfl⟩
      · exact absurd ⟨hv, htarget⟩ hp
  | true =>
      rw [Tracker.step_enter_of_passes (P := tracker n ctrl K) hp]
      obtain ⟨hv, htarget⟩ := of_decide_eq_true hp
      unfold Kernel.visible at hv htarget
      simp only [openatEntry, hen, Bool.true_eq_false, if_false, hv, if_neg htarget]
      exact recordEntry_agrees h _ a

/-- A context that passes the target check is deleted on every path, and the
call falls in one bucket. -/
theorem finish_agrees {ctrl : Ctrl} {s : State n}
    {ts : Tracker.State T (ExitArgs n) UInt32 EntryData}
    (h : Tracker.Agrees (view n) (outcome ctrl) s ts) (t : T) (tid : UInt32) (entry : EntryData)
    (hpid : ¬(ctrl.targetPid ≠ 0 ∧ entry.pid ≠ ctrl.targetPid)) (x : ExitArgs n) :
    Tracker.Agrees (view n) (outcome ctrl) (finish ctrl tid entry x s)
      { ts with table := ts.table.delete tid, log := ts.log ++ [(t, entry, x)] } := by
  rw [← h.table]
  simp only [finish, if_neg hpid]
  split_ifs with hdelay hres
  · have ho : outcome ctrl (t, entry, x) = .below := if_pos hdelay
    refine h.leave ho (PerCpu.modify_modify _ _ _ _) (List.append_nil _).symm ?_
    exact fun _ => ⟨rfl, rfl, rfl, rfl, rfl⟩
  · have ho : outcome ctrl (t, entry, x) = .dropped := (if_neg hdelay).trans (if_pos hres)
    refine h.leave ho (PerCpu.modify_modify _ _ _ _) (List.append_nil _).symm ?_
    exact fun _ => ⟨rfl, rfl, rfl, rfl, rfl⟩
  · have ho : outcome ctrl (t, entry, x) = .submitted (mkEvent entry x) :=
      (if_neg hdelay).trans (if_neg hres)
    refine h.leave ho (PerCpu.modify_modify _ _ _ _) rfl ?_
    exact fun _ => ⟨rfl, rfl, rfl, rfl, rfl⟩

theorem exit_agrees {ctrl : Ctrl} {K : Kernel T} (hen : ctrl.enable = true) {s : State n}
    {ts : Tracker.State T (ExitArgs n) UInt32 EntryData}
    {sch : Schedule T (EntryArgs n) (ExitArgs n)}
    (h : Tracker.Agrees (view n) (outcome ctrl) s ts)
    (hown : (tracker n ctrl K).OwnContexts (ts, sch)) (t : T) (x : ExitArgs n) :
    Tracker.Agrees (view n) (outcome ctrl) (openatExit ctrl (K.task t) x s)
      ((tracker n ctrl K).step ts (.leave t x)) := by
  have htable : s.tidMap = ts.table := h.table
  cases hp : passes ctrl K t with
  | false =>
      rw [Tracker.step_leave_of_rejected (P := tracker n ctrl K) hp]
      by_cases hv : K.visible ctrl.pidNsDev ctrl.pidNsIno t = 0
      · unfold Kernel.visible at hv
        simpa only [openatExit, if_pos hv] using h
      · have hnone := (tracker n ctrl K).table_rejected hown hv hp
        have hpid := of_decide_eq_false hp
        simp only [tracker] at hnone
        unfold Kernel.visible at hv hpid hnone
        simp only [openatExit, if_neg hv, htable, hnone, hen, true_and]
        rwa [if_neg fun hf => hpid ⟨hv, fun hc => hf.elim hc.1 fun he => hc.2 he.symm⟩]
  | true =>
      obtain ⟨hv, htarget⟩ := of_decide_eq_true hp
      cases hg : ts.table.get (tidOf (K.visible ctrl.pidNsDev ctrl.pidNsIno t)) with
      | none =>
          rw [Tracker.step_leave_of_missed (P := tracker n ctrl K) hp hg]
          unfold Kernel.visible at hv htarget hg
          simp only [openatExit, if_neg hv, htable, hg, hen, true_and]
          rw [if_pos (by tauto)]
          refine h.miss rfl rfl rfl ?_
          exact fun _ => ⟨rfl, rfl, rfl, rfl, rfl⟩
      | some entry =>
          rw [Tracker.step_leave_of_found (P := tracker n ctrl K) hp hg]
          obtain ⟨_, a, _, _, rfl⟩ := hown t hv entry hg
          have hfin := finish_agrees h t (tidOf (K.visible ctrl.pidNsDev ctrl.pidNsIno t))
            (entryData (K.visible ctrl.pidNsDev ctrl.pidNsIno t) a) htarget x
          unfold Kernel.visible at hv hg hfin
          simp only [openatExit, if_neg hv, htable, hg, hen, Bool.true_eq_false, if_false]
          exact hfin

/-- One probe of fs/open is one step of the tracker. -/
theorem probe_agrees {ctrl : Ctrl} (K : Kernel T) (hen : ctrl.enable = true) (s : State n)
    (ts : Tracker.State T (ExitArgs n) UInt32 EntryData)
    (sch : Schedule T (EntryArgs n) (ExitArgs n))
    (l : CallLabel T (EntryArgs n) (ExitArgs n) UInt32)
    (h : Tracker.Agrees (view n) (outcome ctrl) s ts)
    (hown : (tracker n ctrl K).OwnContexts (ts, sch)) (_ : sch.Allowed l) :
    Tracker.Agrees (view n) (outcome ctrl) (probe ctrl K s l) ((tracker n ctrl K).step ts l) := by
  cases l with
  | enter t a => exact entry_agrees hen h t a
  | leave t x => exact exit_agrees hen h hown t x
  | evict k =>
      exact { h with table := congrArg (fun m => BpfMap.delete m k) h.table }

/-! ## Runs -/

variable [DecidableEq T]

/-- All interleavings of the threads' calls, with evictions. -/
abbrev machine (n : ℕ) (ctrl : Ctrl) (K : Kernel T) :
    Machine (State n × Schedule T (EntryArgs n) (ExitArgs n))
      (CallLabel T (EntryArgs n) (ExitArgs n) UInt32) :=
  scheduled (State.start n) (probe ctrl K)

/-- The accounting at one point of a run: every attempted call is completed, missed
or still running, every completed one submitted, below the threshold or dropped;
and a visible thread outside a call has no context. -/
structure Accounted (ctrl : Ctrl) (K : Kernel T)
    (s : State n × Schedule T (EntryArgs n) (ExitArgs n)) : Prop where
  attempted : s.1.stats.total (·.attempted) =
    s.1.stats.total (·.completed) + s.1.stats.total (·.lookupMissed) +
      (s.2.inside.filter fun t => passes ctrl K t = true).card
  completed : s.1.stats.total (·.completed) =
    s.1.rb.length + s.1.stats.total (·.filteredDelay) + s.1.stats.total (·.ringbufDropped)
  idle : ∀ t, K.visible ctrl.pidNsDev ctrl.pidNsIno t ≠ 0 → s.2.busy t = none →
    s.1.tidMap.get (tidOf (K.visible ctrl.pidNsDev ctrl.pidNsIno t)) = none

theorem accounted {ctrl : Ctrl} (K : Kernel T) (hen : ctrl.enable = true)
    {es : List (CallLabel T (EntryArgs n) (ExitArgs n) UInt32)}
    (hv : (machine n ctrl K).Valid es) : Accounted ctrl K ((machine n ctrl K).run es) := by
  obtain ⟨hatt, hcomp, hidle⟩ :=
    (tracker n ctrl K).accounting_of_agrees (start_agrees ctrl) (probe_agrees K hen) hv
  exact ⟨hatt, hcomp, fun t ht hb => hidle t ht hb⟩

end EbpfToolbox.Fs.Open
