import EbpfToolbox.Common.PidNamespace
import EbpfToolbox.Lib.CallTracker
import EbpfToolbox.Lib.PerCpu

/-!
# fs/read and fs/write

`fs/read/read.bpf.c` and `fs/write/write.bpf.c` are one text with the word
changed: the same structures, the same filters in the same order, the same four
exits of the exit probe. The definitions below are that text; the members
`readEntry`, `readExit`, `writeEntry` and `writeExit` are it under their own
names. `bytes` stands for `bytes_read` and for `bytes_written`.

The last section shows that one probe step is one step of a `Tracker`.
-/

namespace EbpfToolbox.Fs.ReadWrite

open Common Lib

/-- `FS_READ_PATH_SIZE` and `FS_WRITE_PATH_SIZE`. -/
def pathSize : ℕ := 256

abbrev Path : Type := Vector Int8 pathSize

/-- `struct Read_ctrl`, `struct Write_ctrl`. -/
structure Ctrl where
  enable : Bool
  minDelayNs : UInt64
  targetPid : Int32
  selfPid : Int32
  pidNsDev : UInt64
  pidNsIno : UInt64

/-- `struct read_entry_data`, `struct write_entry_data`. -/
structure EntryData where
  enterTs : UInt64
  requestedCount : UInt64
  pid : Int32
  tid : Int32
  fd : Int32
  comm : Comm
  pathName : Path

/-- `struct Read_event`, `struct Write_event`. -/
structure Event where
  pid : Int32
  tid : Int32
  fd : Int32
  requestedCount : UInt64
  bytes : Int64
  timestampNs : UInt64
  latencyNs : UInt64
  pathName : Path
  comm : Comm

/-- `struct Read_stats`, `struct Write_stats`. -/
structure Stats where
  attempted : ℕ := 0
  completed : ℕ := 0
  submitted : ℕ := 0
  failed : ℕ := 0
  filteredPid : ℕ := 0
  filteredSelf : ℕ := 0
  filteredDelay : ℕ := 0
  ringbufDropped : ℕ := 0
  mapUpdateFailed : ℕ := 0
  lookupMissed : ℕ := 0
  pathLookupFailed : ℕ := 0
  totalNs : UInt64 := 0
  maxNs : UInt64 := 0
  maxPid : Int32 := 0
  maxComm : Comm := Vector.replicate _ 0

/-- `inflight_reads` / `inflight_writes`, `stats_map` and what was submitted to `rb`. -/
structure State (n : ℕ) where
  inflight : BpfMap UInt32 EntryData
  stats : PerCpu n Stats
  rb : List Event

def State.start (n : ℕ) : State n := ⟨∅, fun _ => {}, []⟩

def State.bump {n : ℕ} (s : State n) (cpu : Fin n) (f : Stats → Stats) : State n :=
  { s with stats := s.stats.modify cpu f }

/-! ## The name behind a file descriptor -/

/-- `struct qstr`; a `name` of `none` is a null pointer. -/
structure Qstr where
  name : Option ReadStr
  len : UInt32

/-- `struct file`: the dentry's `d_name`, `none` for a null dentry. -/
structure File where
  dName : Option Qstr

/-- `struct fdtable`. `fd` is the array, `none` for a null pointer; a slot that
cannot be read and an empty slot are both `none`. -/
structure Fdtable where
  maxFds : UInt32
  fd : Option (ℕ → Option File)

/-- The `files` of the current task: `none` for a null `files` or a null `fdt`. -/
abbrev Files : Type := Option Fdtable

/-- `fill_name_from_fd`: `none` is the return value -1, with the buffer left zeroed. -/
def fillNameFromFd (files : Files) (fdNum : Int32) : Option Path :=
  if fdNum < 0 then none
  else
    match files with
    | none => none
    | some fdt =>
        if fdt.maxFds ≤ fdNum.toUInt32 then none
        else
          match fdt.fd with
          | none => none
          | some fdArray =>
              match fdArray fdNum.toUInt32.toNat with
              | none => none
              | some filp =>
                  match filp.dName with
                  | none => none
                  | some dName =>
                      match dName.name with
                      | none => none
                      | some name =>
                          if dName.len = 0 then none
                          else name.map (copyStr pathSize)

/-! ## The probes -/

/-- What the entry probe sees: the CPU, the clock, the system call arguments,
the task's name and file table, and whether the map insertion fails. -/
structure EntryArgs (n : ℕ) where
  cpu : Fin n
  now : UInt64
  arg0 : UInt64
  arg2 : UInt64
  comm : Comm
  files : Files
  updateFails : Bool

/-- What the exit probe sees; `reserved` says whether `bpf_ringbuf_reserve` gave a slot. -/
structure ExitArgs (n : ℕ) where
  cpu : Fin n
  now : UInt64
  ret : Int64
  reserved : Bool

/-- The context the entry probe builds for a thread visible as `visible`. -/
def entryData {n : ℕ} (visible : UInt64) (a : EntryArgs n) : EntryData where
  enterTs := a.now
  requestedCount := a.arg2
  pid := (tgidOf visible).toInt32
  tid := (tidOf visible).toInt32
  fd := a.arg0.toUInt32.toInt32
  comm := a.comm
  pathName := (fillNameFromFd a.files a.arg0.toUInt32.toInt32).getD (Vector.replicate _ 0)

variable {n : ℕ}

/-- The entry probe behind its filters. -/
def recordEntry (cur : Task) (data : EntryData) (a : EntryArgs n) (s : State n) : State n :=
  let s := s.bump a.cpu fun st => { st with attempted := st.attempted + 1 }
  let s :=
    if (fillNameFromFd a.files data.fd).isNone then
      s.bump a.cpu fun st => { st with pathLookupFailed := st.pathLookupFailed + 1 }
    else s
  -- the key is the TID of the initial namespace, not the visible one
  if a.updateFails then
    s.bump a.cpu fun st => { st with mapUpdateFailed := st.mapUpdateFailed + 1 }
  else { s with inflight := s.inflight.update (tidOf cur.pidTgid) data }

/-- `read_entry`, `write_entry`. -/
def entry (ctrl : Ctrl) (cur : Task) (a : EntryArgs n) (s : State n) : State n :=
  if ctrl.enable = false then s
  else
    let visible := appCurrentPidTgidNs cur ctrl.pidNsDev ctrl.pidNsIno
    let data := entryData visible a
    if visible = 0 then s
    -- the tool's own reads and writes are left out, or its log would feed itself
    else if ctrl.selfPid ≠ 0 ∧ ctrl.selfPid = data.pid then
      s.bump a.cpu fun st => { st with filteredSelf := st.filteredSelf + 1 }
    else if ctrl.targetPid ≠ 0 ∧ ctrl.targetPid ≠ data.pid then
      s.bump a.cpu fun st => { st with filteredPid := st.filteredPid + 1 }
    else recordEntry cur data a s

/-- The aggregate update of the exit probe, which no threshold touches. -/
def Stats.complete (st : Stats) (data : EntryData) (latencyNs : UInt64) (ret : Int64) : Stats :=
  { st with
    completed := st.completed + 1
    totalNs := st.totalNs + latencyNs
    failed := if ret < 0 then st.failed + 1 else st.failed
    maxNs := if st.maxNs < latencyNs then latencyNs else st.maxNs
    maxPid := if st.maxNs < latencyNs then data.pid else st.maxPid
    maxComm := if st.maxNs < latencyNs then data.comm else st.maxComm }

def mkEvent (data : EntryData) (x : ExitArgs n) : Event where
  pid := data.pid
  tid := data.tid
  fd := data.fd
  requestedCount := data.requestedCount
  bytes := x.ret
  timestampNs := x.now
  latencyNs := x.now - data.enterTs
  pathName := data.pathName
  comm := data.comm

/-- The exit probe once it has found a context and collection is on. -/
def finish (ctrl : Ctrl) (cur : Task) (data : EntryData) (x : ExitArgs n) (s : State n) :
    State n :=
  let globalTid := tidOf cur.pidTgid
  let latencyNs := x.now - data.enterTs
  let s := s.bump x.cpu fun st => st.complete data latencyNs x.ret
  if ctrl.minDelayNs ≠ 0 ∧ latencyNs < ctrl.minDelayNs then
    let s := s.bump x.cpu fun st => { st with filteredDelay := st.filteredDelay + 1 }
    { s with inflight := s.inflight.delete globalTid }
  else if x.reserved = false then
    let s := s.bump x.cpu fun st => { st with ringbufDropped := st.ringbufDropped + 1 }
    { s with inflight := s.inflight.delete globalTid }
  else
    let s := { s with rb := s.rb ++ [mkEvent data x] }
    let s := s.bump x.cpu fun st => { st with submitted := st.submitted + 1 }
    { s with inflight := s.inflight.delete globalTid }

/-- `read_exit`, `write_exit`. -/
def exit (ctrl : Ctrl) (cur : Task) (x : ExitArgs n) (s : State n) : State n :=
  match s.inflight.get (tidOf cur.pidTgid) with
  | none =>
      if ctrl.enable = false then s
      else
        let visible := appCurrentPidTgidNs cur ctrl.pidNsDev ctrl.pidNsIno
        if visible ≠ 0 ∧ (tgidOf visible).toInt32 ≠ ctrl.selfPid ∧
            (ctrl.targetPid = 0 ∨ ctrl.targetPid = (tgidOf visible).toInt32) then
          s.bump x.cpu fun st => { st with lookupMissed := st.lookupMissed + 1 }
        else s
  | some data =>
      if ctrl.enable = false then { s with inflight := s.inflight.delete (tidOf cur.pidTgid) }
      else finish ctrl cur data x s

/-- `fs/read/read.bpf.c`. -/
def readEntry (ctrl : Ctrl) (cur : Task) (a : EntryArgs n) (s : State n) : State n :=
  entry ctrl cur a s

def readExit (ctrl : Ctrl) (cur : Task) (x : ExitArgs n) (s : State n) : State n :=
  exit ctrl cur x s

/-- `fs/write/write.bpf.c`. -/
def writeEntry (ctrl : Ctrl) (cur : Task) (a : EntryArgs n) (s : State n) : State n :=
  entry ctrl cur a s

def writeExit (ctrl : Ctrl) (cur : Task) (x : ExitArgs n) (s : State n) : State n :=
  exit ctrl cur x s

/-! ## One probe is one step of a tracker -/

variable {T : Type}

/-- The filter of the entry probe, as a property of the thread. -/
def passes (ctrl : Ctrl) (K : Kernel T) (t : T) : Bool :=
  let visible := K.visible ctrl.pidNsDev ctrl.pidNsIno t
  let pid := (tgidOf visible).toInt32
  decide (visible ≠ 0 ∧ ¬(ctrl.selfPid ≠ 0 ∧ ctrl.selfPid = pid) ∧
    ¬(ctrl.targetPid ≠ 0 ∧ ctrl.targetPid ≠ pid))

/-- Entry, exit and eviction as labels of a call schedule. -/
def probe (ctrl : Ctrl) (K : Kernel T) (s : State n) :
    CallLabel T (EntryArgs n) (ExitArgs n) UInt32 → State n
  | .enter t a => entry ctrl (K.task t) a s
  | .leave t x => exit ctrl (K.task t) x s
  | .evict k => { s with inflight := s.inflight.delete k }

def tracker (n : ℕ) (ctrl : Ctrl) (K : Kernel T) :
    Tracker T (EntryArgs n) (ExitArgs n) UInt32 EntryData where
  passes := passes ctrl K
  key t := tidOf (K.task t).pidTgid
  Keyed _ := True
  ctx t a := entryData (K.visible ctrl.pidNsDev ctrl.pidNsIno t) a
  stored a := !a.updateFails
  keyed_of_passes _ _ := trivial
  key_inj _ _ _ _ h := K.tid_inj h

def view (n : ℕ) : Tracker.View n (State n) Stats UInt32 EntryData Event where
  table s := s.inflight
  rb s := s.rb
  stats s := s.stats
  attempted st := st.attempted
  missed st := st.lookupMissed
  completed st := st.completed
  below st := st.filteredDelay
  dropped st := st.ringbufDropped

/-- What the exit probe does with a context it found. -/
def outcome (ctrl : Ctrl) (call : T × EntryData × ExitArgs n) : Outcome Event :=
  let latencyNs := call.2.2.now - call.2.1.enterTs
  if ctrl.minDelayNs ≠ 0 ∧ latencyNs < ctrl.minDelayNs then .below
  else if call.2.2.reserved = false then .dropped
  else .submitted (mkEvent call.2.1 call.2.2)

theorem start_agrees (ctrl : Ctrl) : Tracker.Agrees (view n) (outcome (n := n) (T := T) ctrl)
    (State.start n) (Tracker.State.start : Tracker.State T (ExitArgs n) UInt32 EntryData) := by
  constructor <;> simp [view, State.start, Tracker.State.start]

/-- The exit probe's own filter for a missing context is the entry filter. -/
theorem missed_filter_iff (ctrl : Ctrl) (K : Kernel T) (t : T) :
    (K.visible ctrl.pidNsDev ctrl.pidNsIno t ≠ 0 ∧
      (tgidOf (K.visible ctrl.pidNsDev ctrl.pidNsIno t)).toInt32 ≠ ctrl.selfPid ∧
      (ctrl.targetPid = 0 ∨
        ctrl.targetPid = (tgidOf (K.visible ctrl.pidNsDev ctrl.pidNsIno t)).toInt32)) ↔
      passes ctrl K t = true := by
  unfold passes
  simp only [decide_eq_true_eq]
  refine and_congr_right fun hv => and_congr ?_ ?_
  · -- with `self_pid = 0` the exit probe still compares; no visible TGID is 0
    have hpid := K.visible_pid_ne_zero hv
    constructor
    · rintro h ⟨_, h'⟩
      exact h h'.symm
    · intro h h'
      exact h ⟨h' ▸ hpid, h'.symm⟩
  · tauto

theorem entry_of_passes {ctrl : Ctrl} {K : Kernel T} {t : T} (hen : ctrl.enable = true)
    (hp : passes ctrl K t = true) (a : EntryArgs n) (s : State n) :
    entry ctrl (K.task t) a s =
      recordEntry (K.task t) (entryData (K.visible ctrl.pidNsDev ctrl.pidNsIno t) a) a s := by
  obtain ⟨hv, hself, htarget⟩ := of_decide_eq_true hp
  unfold Kernel.visible at *
  simp only [entry, hen, Bool.true_eq_false, if_false, hv]
  exact (if_neg hself).trans (if_neg htarget)

/-- The recorded entry: one attempt, one stored context unless the insertion fails. -/
theorem recordEntry_agrees {ctrl : Ctrl} {s : State n}
    {ts : Tracker.State T (ExitArgs n) UInt32 EntryData}
    (h : Tracker.Agrees (view n) (outcome ctrl) s ts) (cur : Task) (data : EntryData)
    (a : EntryArgs n) :
    Tracker.Agrees (view n) (outcome ctrl) (recordEntry cur data a s)
      { ts with
        attempted := ts.attempted + 1
        table := if !a.updateFails then ts.table.update (tidOf cur.pidTgid) data
          else ts.table } := by
  have hatt : Tracker.Agrees (view n) (outcome ctrl)
      (s.bump a.cpu fun st => { st with attempted := st.attempted + 1 })
      { ts with attempted := ts.attempted + 1, table := s.inflight } := by
    refine h.attempt rfl rfl ?_
    exact fun _ => ⟨rfl, rfl, rfl, rfl, rfl⟩
  rw [show s.inflight = ts.table from h.table] at hatt
  -- whether the path counter is bumped does not matter to the agreement
  obtain ⟨s₁, hs₁, heq⟩ : ∃ s₁, Tracker.Agrees (view n) (outcome ctrl) s₁
      { ts with attempted := ts.attempted + 1 } ∧
      recordEntry cur data a s =
        if a.updateFails then
          s₁.bump a.cpu fun st => { st with mapUpdateFailed := st.mapUpdateFailed + 1 }
        else { s₁ with inflight := s₁.inflight.update (tidOf cur.pidTgid) data } := by
    refine ⟨_, ?_, rfl⟩
    split_ifs
    · refine hatt.quiet rfl rfl rfl ?_
      exact fun _ => ⟨rfl, rfl, rfl, rfl, rfl⟩
    · exact hatt
  rw [heq]
  cases a.updateFails with
  | true =>
      refine hs₁.quiet rfl rfl rfl ?_
      exact fun _ => ⟨rfl, rfl, rfl, rfl, rfl⟩
  | false => exact { hs₁ with table := congrArg (fun m => BpfMap.update m _ data) hs₁.table }

theorem entry_agrees {ctrl : Ctrl} {K : Kernel T} (hen : ctrl.enable = true) {s : State n}
    {ts : Tracker.State T (ExitArgs n) UInt32 EntryData}
    (h : Tracker.Agrees (view n) (outcome ctrl) s ts) (t : T) (a : EntryArgs n) :
    Tracker.Agrees (view n) (outcome ctrl) (entry ctrl (K.task t) a s)
      ((tracker n ctrl K).step ts (.enter t a)) := by
  cases hp : passes ctrl K t with
  | false =>
      rw [Tracker.step_enter_of_rejected (P := tracker n ctrl K) hp]
      have hp := of_decide_eq_false hp
      unfold Kernel.visible at hp
      simp only [entry, hen, Bool.true_eq_false, if_false]
      split_ifs with hv hself htarget
      · exact h
      · refine h.quiet rfl rfl rfl ?_
        exact fun _ => ⟨rfl, rfl, rfl, rfl, rfl⟩
      · refine h.quiet rfl rfl rfl ?_
        exact fun _ => ⟨rfl, rfl, rfl, rfl, rfl⟩
      · exact absurd ⟨hv, hself, htarget⟩ hp
  | true =>
      have hrec := recordEntry_agrees h (K.task t)
        (entryData (K.visible ctrl.pidNsDev ctrl.pidNsIno t) a) a
      rw [entry_of_passes hen hp, Tracker.step_enter_of_passes (P := tracker n ctrl K) hp]
      exact hrec

/-- A context that was found is deleted on every path, and the call falls in one bucket. -/
theorem finish_agrees {ctrl : Ctrl} {s : State n}
    {ts : Tracker.State T (ExitArgs n) UInt32 EntryData}
    (h : Tracker.Agrees (view n) (outcome ctrl) s ts) (cur : Task) (t : T) (data : EntryData)
    (x : ExitArgs n) :
    Tracker.Agrees (view n) (outcome ctrl) (finish ctrl cur data x s)
      { ts with
        table := ts.table.delete (tidOf cur.pidTgid)
        log := ts.log ++ [(t, data, x)] } := by
  rw [← h.table]
  simp only [finish]
  split_ifs with hdelay hres
  · have ho : outcome ctrl (t, data, x) = .below := if_pos hdelay
    refine h.leave ho (PerCpu.modify_modify _ _ _ _) (List.append_nil _).symm ?_
    exact fun _ => ⟨rfl, rfl, rfl, rfl, rfl⟩
  · have ho : outcome ctrl (t, data, x) = .dropped := (if_neg hdelay).trans (if_pos hres)
    refine h.leave ho (PerCpu.modify_modify _ _ _ _) (List.append_nil _).symm ?_
    exact fun _ => ⟨rfl, rfl, rfl, rfl, rfl⟩
  · have ho : outcome ctrl (t, data, x) = .submitted (mkEvent data x) :=
      (if_neg hdelay).trans (if_neg hres)
    refine h.leave ho (PerCpu.modify_modify _ _ _ _) rfl ?_
    exact fun _ => ⟨rfl, rfl, rfl, rfl, rfl⟩

theorem exit_agrees {ctrl : Ctrl} {K : Kernel T} (hen : ctrl.enable = true) {s : State n}
    {ts : Tracker.State T (ExitArgs n) UInt32 EntryData}
    {sch : Schedule T (EntryArgs n) (ExitArgs n)}
    (h : Tracker.Agrees (view n) (outcome ctrl) s ts)
    (hown : (tracker n ctrl K).OwnContexts (ts, sch)) (t : T) (x : ExitArgs n) :
    Tracker.Agrees (view n) (outcome ctrl) (exit ctrl (K.task t) x s)
      ((tracker n ctrl K).step ts (.leave t x)) := by
  have hfilter := missed_filter_iff ctrl K t
  unfold Kernel.visible at hfilter
  have htable : s.inflight = ts.table := h.table
  cases hp : passes ctrl K t with
  | false =>
      have hnone : ts.table.get (tidOf (K.task t).pidTgid) = none :=
        (tracker n ctrl K).table_rejected hown trivial hp
      rw [Tracker.step_leave_of_rejected (P := tracker n ctrl K) hp]
      simp only [exit, htable, hnone, hen, Bool.true_eq_false, if_false]
      rwa [if_neg (fun hf => by simp [hfilter.mp hf] at hp)]
  | true =>
      cases hg : ts.table.get (tidOf (K.task t).pidTgid) with
      | none =>
          rw [Tracker.step_leave_of_missed (P := tracker n ctrl K) hp hg]
          simp only [exit, htable, hg, hen, Bool.true_eq_false, if_false]
          rw [if_pos (hfilter.mpr hp)]
          refine h.miss rfl rfl rfl ?_
          exact fun _ => ⟨rfl, rfl, rfl, rfl, rfl⟩
      | some data =>
          rw [Tracker.step_leave_of_found (P := tracker n ctrl K) hp hg]
          simp only [exit, htable, hg, hen, Bool.true_eq_false, if_false]
          exact finish_agrees h (K.task t) t data x

/-- One probe of fs/read or fs/write is one step of the tracker. -/
theorem probe_agrees {ctrl : Ctrl} (K : Kernel T) (hen : ctrl.enable = true) (s : State n)
    (ts : Tracker.State T (ExitArgs n) UInt32 EntryData)
    (sch : Schedule T (EntryArgs n) (ExitArgs n))
    (l : CallLabel T (EntryArgs n) (ExitArgs n) UInt32)
    (h : Tracker.Agrees (view n) (outcome ctrl) s ts)
    (hown : (tracker n ctrl K).OwnContexts (ts, sch)) (_ : sch.Allowed l) :
    Tracker.Agrees (view n) (outcome ctrl) (probe ctrl K s l) ((tracker n ctrl K).step ts l) := by
  cases l with
  | enter t a => exact entry_agrees hen h t a
  | leave t x => exact exit_agrees hen h hown t x
  | evict k =>
      exact { h with table := congrArg (fun m => BpfMap.delete m k) h.table }

/-! ## Runs -/

variable [DecidableEq T]

/-- All interleavings of the threads' calls, with evictions. -/
abbrev machine (n : ℕ) (ctrl : Ctrl) (K : Kernel T) :
    Machine (State n × Schedule T (EntryArgs n) (ExitArgs n))
      (CallLabel T (EntryArgs n) (ExitArgs n) UInt32) :=
  scheduled (State.start n) (probe ctrl K)

/-- The same over the probes of fs/read. -/
abbrev readMachine (n : ℕ) (ctrl : Ctrl) (K : Kernel T) :
    Machine (State n × Schedule T (EntryArgs n) (ExitArgs n))
      (CallLabel T (EntryArgs n) (ExitArgs n) UInt32) :=
  scheduled (State.start n) fun s l =>
    match l with
    | .enter t a => readEntry ctrl (K.task t) a s
    | .leave t x => readExit ctrl (K.task t) x s
    | .evict k => { s with inflight := s.inflight.delete k }

/-- The same over the probes of fs/write. -/
abbrev writeMachine (n : ℕ) (ctrl : Ctrl) (K : Kernel T) :
    Machine (State n × Schedule T (EntryArgs n) (ExitArgs n))
      (CallLabel T (EntryArgs n) (ExitArgs n) UInt32) :=
  scheduled (State.start n) fun s l =>
    match l with
    | .enter t a => writeEntry ctrl (K.task t) a s
    | .leave t x => writeExit ctrl (K.task t) x s
    | .evict k => { s with inflight := s.inflight.delete k }

theorem readMachine_eq (ctrl : Ctrl) (K : Kernel T) : readMachine n ctrl K = machine n ctrl K :=
  congrArg (scheduled (State.start n)) (funext fun _ => funext fun l => by cases l <;> rfl)

theorem writeMachine_eq (ctrl : Ctrl) (K : Kernel T) : writeMachine n ctrl K = machine n ctrl K :=
  congrArg (scheduled (State.start n)) (funext fun _ => funext fun l => by cases l <;> rfl)

/-- The accounting at one point of a run: every attempted call is completed, missed
or still running, every completed one submitted, below the threshold or dropped;
and a thread outside a call has no context. -/
structure Accounted (ctrl : Ctrl) (K : Kernel T)
    (s : State n × Schedule T (EntryArgs n) (ExitArgs n)) : Prop where
  attempted : s.1.stats.total (·.attempted) =
    s.1.stats.total (·.completed) + s.1.stats.total (·.lookupMissed) +
      (s.2.inside.filter fun t => passes ctrl K t = true).card
  completed : s.1.stats.total (·.completed) =
    s.1.rb.length + s.1.stats.total (·.filteredDelay) + s.1.stats.total (·.ringbufDropped)
  idle : ∀ t, s.2.busy t = none →
    s.1.inflight.get (tidOf (K.task t).pidTgid) = none

theorem accounted {ctrl : Ctrl} (K : Kernel T) (hen : ctrl.enable = true)
    {es : List (CallLabel T (EntryArgs n) (ExitArgs n) UInt32)}
    (hv : (machine n ctrl K).Valid es) : Accounted ctrl K ((machine n ctrl K).run es) := by
  obtain ⟨hatt, hcomp, hidle⟩ :=
    (tracker n ctrl K).accounting_of_agrees (start_agrees ctrl) (probe_agrees K hen) hv
  exact ⟨hatt, hcomp, fun t hb => hidle t trivial hb⟩

end EbpfToolbox.Fs.ReadWrite
