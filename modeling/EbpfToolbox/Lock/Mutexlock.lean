import EbpfToolbox.Common.PidNamespace
import EbpfToolbox.Lib.CallTracker

/-!
# lock/mutexlock

`lock/mutexlock/mutexlock.bpf.c`: the waits in `__mutex_lock_slowpath`. The
context is a snapshot of the contender and of the owner at entry, kept in an LRU
map under the visible `pid_tgid`. There is no counter for completed calls: a
matched call goes to `contention_count`, `filtered_delay` or `ringbuf_dropped`.
-/

namespace EbpfToolbox.Lock.Mutexlock

open Common Lib

/-- `struct Mutexlock_ctrl`. -/
structure Ctrl where
  enable : Bool
  minDelayNs : UInt64
  targetPid : Int32
  pidNsDev : UInt64
  pidNsIno : UInt64

/-- `struct contention_data`. -/
structure ContentionData where
  addr : UInt64
  enterTs : UInt64
  ownerPid : Int32
  ownerTgid : Int32
  contenderPid : Int32
  contenderTgid : Int32
  ownerPrio : Int32
  contenderPrio : Int32
  ownerName : Comm
  contenderName : Comm

/-- `struct Mutexlock_event`. -/
structure Event where
  ptr : UInt64
  ownerPid : Int32
  ownerTgid : Int32
  contenderPid : Int32
  contenderTgid : Int32
  ownerPrio : Int32
  contenderPrio : Int32
  contentionNs : UInt64
  contenderName : Comm
  ownerName : Comm

/-- `struct Mutexlock_stats`. -/
structure Stats where
  attempted : ℕ := 0
  contentionCount : ℕ := 0
  filteredDelay : ℕ := 0
  ringbufDropped : ℕ := 0
  mapUpdateFailed : ℕ := 0
  lookupMissed : ℕ := 0
  waitTotalNs : UInt64 := 0
  waitMaxNs : UInt64 := 0
  maxLockAddr : UInt64 := 0
  maxOwnerPid : Int32 := 0
  maxContenderPid : Int32 := 0
  maxOwnerName : Comm := Vector.replicate _ 0
  maxContenderName : Comm := Vector.replicate _ 0

/-- `contention_map`, `stats_map` and what was submitted to `rb`. -/
structure State (n : ℕ) where
  contentionMap : BpfMap UInt64 ContentionData
  stats : PerCpu n Stats
  rb : List Event

def State.start (n : ℕ) : State n := ⟨∅, fun _ => {}, []⟩

def State.bump {n : ℕ} (s : State n) (cpu : Fin n) (f : Stats → Stats) : State n :=
  { s with stats := s.stats.modify cpu f }

/-! ## The probes -/

/-- `~MUTEX_OWNER_FLAGS`: the three low bits of `owner.counter` are flags. -/
def ownerMask : UInt64 := ~~~(0x7 : UInt64)

/-- What the entry probe sees: the lock, the current task's priority and name,
the word in `lock->owner` and the task it points to. -/
structure EntryArgs (n : ℕ) where
  cpu : Fin n
  now : UInt64
  lock : UInt64
  prio : Int32
  comm : Comm
  ownerCounter : UInt64
  ownerTask : TaskStruct
  updateFails : Bool

structure ExitArgs (n : ℕ) where
  cpu : Fin n
  now : UInt64
  reserved : Bool

variable {n : ℕ}

/-- The snapshot of the entry probe. Without an owner its fields stay zero. -/
def contentionData (ctrl : Ctrl) (pidTgid : UInt64) (a : EntryArgs n) : ContentionData :=
  let ownerTask := if a.ownerCounter &&& ownerMask = 0 then none else some a.ownerTask
  { addr := a.lock
    enterTs := a.now
    ownerPid := appTaskTidNs ownerTask ctrl.pidNsIno
    ownerTgid := appTaskTgidNs ownerTask ctrl.pidNsIno
    contenderPid := (tidOf pidTgid).toInt32
    contenderTgid := (tgidOf pidTgid).toInt32
    ownerPrio := ownerTask.elim 0 TaskStruct.prio
    contenderPrio := a.prio
    ownerName := copyStr taskCommLen
      (ownerTask.elim [] fun task => task.comm.toList.takeWhile (· ≠ 0))
    contenderName := a.comm }

/-- The entry probe behind its filters. -/
def recordEntry (ctrl : Ctrl) (pidTgid : UInt64) (a : EntryArgs n) (s : State n) : State n :=
  let s := s.bump a.cpu fun st => { st with attempted := st.attempted + 1 }
  if a.updateFails then
    s.bump a.cpu fun st => { st with mapUpdateFailed := st.mapUpdateFailed + 1 }
  else
    { s with contentionMap := s.contentionMap.update pidTgid (contentionData ctrl pidTgid a) }

def mutexSlowpathEntry (ctrl : Ctrl) (cur : Task) (a : EntryArgs n) (s : State n) : State n :=
  if ctrl.enable = false then s
  else
    let pidTgid := appCurrentPidTgidNs cur ctrl.pidNsDev ctrl.pidNsIno
    if pidTgid = 0 then s
    else if ctrl.targetPid ≠ 0 ∧ (tgidOf pidTgid).toInt32 ≠ ctrl.targetPid then s
    else recordEntry ctrl pidTgid a s

def mkEvent (data : ContentionData) (x : ExitArgs n) : Event where
  ptr := data.addr
  ownerPid := data.ownerPid
  ownerTgid := data.ownerTgid
  contenderPid := data.contenderPid
  contenderTgid := data.contenderTgid
  ownerPrio := data.ownerPrio
  contenderPrio := data.contenderPrio
  contentionNs := x.now - data.enterTs
  contenderName := data.contenderName
  ownerName := data.ownerName

/-- The statistics of a wait that is reported. -/
def Stats.contend (st : Stats) (data : ContentionData) (waitNs : UInt64) : Stats :=
  { st with
    contentionCount := st.contentionCount + 1
    waitTotalNs := st.waitTotalNs + waitNs
    waitMaxNs := if st.waitMaxNs < waitNs then waitNs else st.waitMaxNs
    maxLockAddr := if st.waitMaxNs < waitNs then data.addr else st.maxLockAddr
    maxOwnerPid := if st.waitMaxNs < waitNs then data.ownerPid else st.maxOwnerPid
    maxContenderPid := if st.waitMaxNs < waitNs then data.contenderPid else st.maxContenderPid
    maxOwnerName := if st.waitMaxNs < waitNs then data.ownerName else st.maxOwnerName
    maxContenderName :=
      if st.waitMaxNs < waitNs then data.contenderName else st.maxContenderName }

/-- The exit probe once it has found a context that it does not throw away. -/
def finish (ctrl : Ctrl) (pidTgid : UInt64) (data : ContentionData) (x : ExitArgs n)
    (s : State n) : State n :=
  let waitNs := x.now - data.enterTs
  if ctrl.minDelayNs ≠ 0 ∧ waitNs < ctrl.minDelayNs then
    let s := s.bump x.cpu fun st => { st with filteredDelay := st.filteredDelay + 1 }
    { s with contentionMap := s.contentionMap.delete pidTgid }
  else if x.reserved = false then
    let s := s.bump x.cpu fun st => { st with ringbufDropped := st.ringbufDropped + 1 }
    { s with contentionMap := s.contentionMap.delete pidTgid }
  else
    let s := s.bump x.cpu fun st => st.contend data waitNs
    let s := { s with rb := s.rb ++ [mkEvent data x] }
    { s with contentionMap := s.contentionMap.delete pidTgid }

def mutexSlowpathExit (ctrl : Ctrl) (cur : Task) (x : ExitArgs n) (s : State n) : State n :=
  let pidTgid := appCurrentPidTgidNs cur ctrl.pidNsDev ctrl.pidNsIno
  if pidTgid = 0 then s
  else
    match s.contentionMap.get pidTgid with
    | none =>
        if ctrl.enable = true ∧
            (ctrl.targetPid = 0 ∨ ctrl.targetPid = (tgidOf pidTgid).toInt32) then
          s.bump x.cpu fun st => { st with lookupMissed := st.lookupMissed + 1 }
        else s
    | some data =>
        if ctrl.enable = false ∨ (ctrl.targetPid ≠ 0 ∧ data.contenderTgid ≠ ctrl.targetPid) then
          { s with contentionMap := s.contentionMap.delete pidTgid }
        else finish ctrl pidTgid data x s

/-! ## One probe is one step of a tracker -/

variable {T : Type}

/-- The filter of the entry probe, as a property of the thread. -/
def passes (ctrl : Ctrl) (K : Kernel T) (t : T) : Bool :=
  let pidTgid := K.visible ctrl.pidNsDev ctrl.pidNsIno t
  decide (pidTgid ≠ 0 ∧ ¬(ctrl.targetPid ≠ 0 ∧ (tgidOf pidTgid).toInt32 ≠ ctrl.targetPid))

def probe (ctrl : Ctrl) (K : Kernel T) (s : State n) :
    CallLabel T (EntryArgs n) (ExitArgs n) UInt64 → State n
  | .enter t a => mutexSlowpathEntry ctrl (K.task t) a s
  | .leave t x => mutexSlowpathExit ctrl (K.task t) x s
  | .evict k => { s with contentionMap := s.contentionMap.delete k }

def tracker (n : ℕ) (ctrl : Ctrl) (K : Kernel T) :
    Tracker T (EntryArgs n) (ExitArgs n) UInt64 ContentionData where
  passes := passes ctrl K
  key t := K.visible ctrl.pidNsDev ctrl.pidNsIno t
  Keyed t := K.visible ctrl.pidNsDev ctrl.pidNsIno t ≠ 0
  ctx t a := contentionData ctrl (K.visible ctrl.pidNsDev ctrl.pidNsIno t) a
  stored a := !a.updateFails
  keyed_of_passes _ h := (of_decide_eq_true h).1
  key_inj _ _ ht _ h := K.visible_inj ht h

/-- The three buckets of a matched call stand in for a counter of completed calls. -/
def view (n : ℕ) : Tracker.View n (State n) Stats UInt64 ContentionData Event where
  table s := s.contentionMap
  rb s := s.rb
  stats s := s.stats
  attempted st := st.attempted
  missed st := st.lookupMissed
  completed st := st.contentionCount + st.filteredDelay + st.ringbufDropped
  below st := st.filteredDelay
  dropped st := st.ringbufDropped

/-- What the exit probe does with a context it found. -/
def outcome (ctrl : Ctrl) (call : T × ContentionData × ExitArgs n) : Outcome Event :=
  let waitNs := call.2.2.now - call.2.1.enterTs
  if ctrl.minDelayNs ≠ 0 ∧ waitNs < ctrl.minDelayNs then .below
  else if call.2.2.reserved = false then .dropped
  else .submitted (mkEvent call.2.1 call.2.2)

theorem start_agrees (ctrl : Ctrl) : Tracker.Agrees (view n) (outcome (n := n) (T := T) ctrl)
    (State.start n)
    (Tracker.State.start : Tracker.State T (ExitArgs n) UInt64 ContentionData) := by
  constructor <;> simp [view, State.start, Tracker.State.start]

/-- The recorded entry: one attempt, one stored context unless the insertion fails. -/
theorem recordEntry_agrees {ctrl : Ctrl} {s : State n}
    {ts : Tracker.State T (ExitArgs n) UInt64 ContentionData}
    (h : Tracker.Agrees (view n) (outcome ctrl) s ts) (pidTgid : UInt64) (a : EntryArgs n) :
    Tracker.Agrees (view n) (outcome ctrl) (recordEntry ctrl pidTgid a s)
      { ts with
        attempted := ts.attempted + 1
        table := if !a.updateFails then
          ts.table.update pidTgid (contentionData ctrl pidTgid a) else ts.table } := by
  have hatt : Tracker.Agrees (view n) (outcome ctrl)
      (s.bump a.cpu fun st => { st with attempted := st.attempted + 1 })
      { ts with attempted := ts.attempted + 1, table := s.contentionMap } := by
    refine h.attempt rfl rfl ?_
    exact fun _ => ⟨rfl, rfl, rfl, rfl, rfl⟩
  rw [show s.contentionMap = ts.table from h.table] at hatt
  unfold recordEntry
  cases a.updateFails with
  | true =>
      refine hatt.quiet rfl rfl rfl ?_
      exact fun _ => ⟨rfl, rfl, rfl, rfl, rfl⟩
  | false => exact { hatt with table := congrArg (fun m => BpfMap.update m _ _) hatt.table }

theorem entry_agrees {ctrl : Ctrl} {K : Kernel T} (hen : ctrl.enable = true) {s : State n}
    {ts : Tracker.State T (ExitArgs n) UInt64 ContentionData}
    (h : Tracker.Agrees (view n) (outcome ctrl) s ts) (t : T) (a : EntryArgs n) :
    Tracker.Agrees (view n) (outcome ctrl) (mutexSlowpathEntry ctrl (K.task t) a s)
      ((tracker n ctrl K).step ts (.enter t a)) := by
  cases hp : passes ctrl K t with
  | false =>
      rw [Tracker.step_enter_of_rejected (P := tracker n ctrl K) hp]
      have hp := of_decide_eq_false hp
      unfold Kernel.visible at hp
      simp only [mutexSlowpathEntry, hen, Bool.true_eq_false, if_false]
      split_ifs with hv htarget
      · exact h
      · exact h
      · exact absurd ⟨hv, htarget⟩ hp
  | true =>
      rw [Tracker.step_enter_of_passes (P := tracker n ctrl K) hp]
      obtain ⟨hv, htarget⟩ := of_decide_eq_true hp
      unfold Kernel.visible at hv htarget
      simp only [mutexSlowpathEntry, hen, Bool.true_eq_false, if_false, hv, if_neg htarget]
      exact recordEntry_agrees h _ a

/-- A context is deleted on every path, and the call falls in one bucket. -/
theorem finish_agrees {ctrl : Ctrl} {s : State n}
    {ts : Tracker.State T (ExitArgs n) UInt64 ContentionData}
    (h : Tracker.Agrees (view n) (outcome ctrl) s ts) (t : T) (pidTgid : UInt64)
    (data : ContentionData) (x : ExitArgs n) :
    Tracker.Agrees (view n) (outcome ctrl) (finish ctrl pidTgid data x s)
      { ts with table := ts.table.delete pidTgid, log := ts.log ++ [(t, data, x)] } := by
  rw [← h.table]
  simp only [finish]
  split_ifs with hdelay hres
  · have ho : outcome ctrl (t, data, x) = .below := if_pos hdelay
    refine h.leave ho rfl (List.append_nil _).symm ?_
    intro st
    refine ⟨rfl, rfl, ?_, rfl, rfl⟩
    simp only [view]
    omega
  · have ho : outcome ctrl (t, data, x) = .dropped := (if_neg hdelay).trans (if_pos hres)
    refine h.leave ho rfl (List.append_nil _).symm ?_
    exact fun _ => ⟨rfl, rfl, rfl, rfl, rfl⟩
  · have ho : outcome ctrl (t, data, x) = .submitted (mkEvent data x) :=
      (if_neg hdelay).trans (if_neg hres)
    refine h.leave ho rfl rfl ?_
    intro st
    refine ⟨rfl, rfl, ?_, rfl, rfl⟩
    simp only [view, Stats.contend]
    omega

theorem exit_agrees {ctrl : Ctrl} {K : Kernel T} (hen : ctrl.enable = true) {s : State n}
    {ts : Tracker.State T (ExitArgs n) UInt64 ContentionData}
    {sch : Schedule T (EntryArgs n) (ExitArgs n)}
    (h : Tracker.Agrees (view n) (outcome ctrl) s ts)
    (hown : (tracker n ctrl K).OwnContexts (ts, sch)) (t : T) (x : ExitArgs n) :
    Tracker.Agrees (view n) (outcome ctrl) (mutexSlowpathExit ctrl (K.task t) x s)
      ((tracker n ctrl K).step ts (.leave t x)) := by
  have htable : s.contentionMap = ts.table := h.table
  cases hp : passes ctrl K t with
  | false =>
      rw [Tracker.step_leave_of_rejected (P := tracker n ctrl K) hp]
      by_cases hv : K.visible ctrl.pidNsDev ctrl.pidNsIno t = 0
      · unfold Kernel.visible at hv
        simpa only [mutexSlowpathExit, if_pos hv] using h
      · have hnone := (tracker n ctrl K).table_rejected hown hv hp
        have hpid := of_decide_eq_false hp
        simp only [tracker] at hnone
        unfold Kernel.visible at hv hpid hnone
        simp only [mutexSlowpathExit, if_neg hv, htable, hnone, hen, true_and]
        rwa [if_neg fun hf => hpid ⟨hv, fun hc => hf.elim hc.1 fun he => hc.2 he.symm⟩]
  | true =>
      obtain ⟨hv, htarget⟩ := of_decide_eq_true hp
      cases hg : ts.table.get (K.visible ctrl.pidNsDev ctrl.pidNsIno t) with
      | none =>
          rw [Tracker.step_leave_of_missed (P := tracker n ctrl K) hp hg]
          unfold Kernel.visible at hv htarget hg
          simp only [mutexSlowpathExit, if_neg hv, htable, hg, hen, true_and]
          rw [if_pos (by tauto)]
          refine h.miss rfl rfl rfl ?_
          exact fun _ => ⟨rfl, rfl, rfl, rfl, rfl⟩
      | some data =>
          rw [Tracker.step_leave_of_found (P := tracker n ctrl K) hp hg]
          obtain ⟨_, a, _, _, rfl⟩ := hown t hv data hg
          have hfin := finish_agrees h t (K.visible ctrl.pidNsDev ctrl.pidNsIno t)
            (contentionData ctrl (K.visible ctrl.pidNsDev ctrl.pidNsIno t) a) x
          have hkeep : ¬(ctrl.enable = false ∨ (ctrl.targetPid ≠ 0 ∧
              (contentionData ctrl (K.visible ctrl.pidNsDev ctrl.pidNsIno t) a).contenderTgid ≠
                ctrl.targetPid)) := by
            rintro (hoff | hmis)
            · simp [hen] at hoff
            · exact htarget hmis
          unfold Kernel.visible at hv hg hfin hkeep
          simp only [mutexSlowpathExit, if_neg hv, htable, hg]
          exact (if_neg hkeep).symm ▸ hfin

/-- One probe of mutexlock is one step of the tracker. -/
theorem probe_agrees {ctrl : Ctrl} (K : Kernel T) (hen : ctrl.enable = true) (s : State n)
    (ts : Tracker.State T (ExitArgs n) UInt64 ContentionData)
    (sch : Schedule T (EntryArgs n) (ExitArgs n))
    (l : CallLabel T (EntryArgs n) (ExitArgs n) UInt64)
    (h : Tracker.Agrees (view n) (outcome ctrl) s ts)
    (hown : (tracker n ctrl K).OwnContexts (ts, sch)) (_ : sch.Allowed l) :
    Tracker.Agrees (view n) (outcome ctrl) (probe ctrl K s l) ((tracker n ctrl K).step ts l) := by
  cases l with
  | enter t a => exact entry_agrees hen h t a
  | leave t x => exact exit_agrees hen h hown t x
  | evict k =>
      exact { h with table := congrArg (fun m => BpfMap.delete m k) h.table }

/-! ## Runs -/

variable [DecidableEq T]

/-- All interleavings of the threads' calls, with evictions. -/
abbrev machine (n : ℕ) (ctrl : Ctrl) (K : Kernel T) :
    Machine (State n × Schedule T (EntryArgs n) (ExitArgs n))
      (CallLabel T (EntryArgs n) (ExitArgs n) UInt64) :=
  scheduled (State.start n) (probe ctrl K)

/-- The accounting at one point of a run: every attempted call is reported, below
the threshold, dropped, missed or still running; and a visible thread outside a
call has no context. -/
structure Accounted (ctrl : Ctrl) (K : Kernel T)
    (s : State n × Schedule T (EntryArgs n) (ExitArgs n)) : Prop where
  attempted : s.1.stats.total (·.attempted) =
    s.1.stats.total (·.contentionCount) + s.1.stats.total (·.filteredDelay) +
      s.1.stats.total (·.ringbufDropped) + s.1.stats.total (·.lookupMissed) +
      (s.2.inside.filter fun t => passes ctrl K t = true).card
  idle : ∀ t, K.visible ctrl.pidNsDev ctrl.pidNsIno t ≠ 0 → s.2.busy t = none →
    s.1.contentionMap.get (K.visible ctrl.pidNsDev ctrl.pidNsIno t) = none

theorem accounted {ctrl : Ctrl} (K : Kernel T) (hen : ctrl.enable = true)
    {es : List (CallLabel T (EntryArgs n) (ExitArgs n) UInt64)}
    (hv : (machine n ctrl K).Valid es) : Accounted ctrl K ((machine n ctrl K).run es) := by
  obtain ⟨hatt, _, hidle⟩ :=
    (tracker n ctrl K).accounting_of_agrees (start_agrees ctrl) (probe_agrees K hen) hv
  refine ⟨?_, fun t ht hb => hidle t ht hb⟩
  simp only [view, PerCpu.total_add] at hatt
  exact hatt

end EbpfToolbox.Lock.Mutexlock
