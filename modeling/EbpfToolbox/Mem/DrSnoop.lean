import EbpfToolbox.Common.PidNamespace
import EbpfToolbox.Lib.CallTracker

/-!
# mem/dr_snoop

`mem/dr_snoop/dr_snoop.bpf.c`: direct reclaim from
`mm_vmscan_direct_reclaim_begin` to `mm_vmscan_direct_reclaim_end`. The context
is in the LRU map `start` under the visible `pid_tgid`, because reclaim sleeps
and moves between CPUs.
-/

namespace EbpfToolbox.Mem.DrSnoop

open Common Lib

/-- `struct DrSnoop_ctrl`. -/
structure Ctrl where
  enable : Bool
  minDelayNs : UInt64
  targetPid : Int32
  pidNsDev : UInt64
  pidNsIno : UInt64

/-- `struct val_t`. -/
structure Val where
  id : UInt64
  ts : UInt64
  name : Comm

/-- `struct data_t`. -/
structure Data where
  id : UInt64
  nrReclaimed : UInt64
  delta : UInt64
  tsNs : UInt64
  name : Comm

/-- `struct DrSnoop_stats`. -/
structure Stats where
  attempted : ℕ := 0
  completed : ℕ := 0
  filteredDelay : ℕ := 0
  ringbufDropped : ℕ := 0
  mapUpdateFailed : ℕ := 0
  lookupMissed : ℕ := 0
  totalNs : UInt64 := 0
  maxNs : UInt64 := 0
  totalReclaimed : UInt64 := 0
  maxPid : Int32 := 0
  maxComm : Comm := Vector.replicate _ 0

/-- The map `start`, `stats_map` and what was submitted to `rb`. -/
structure State (n : ℕ) where
  startMap : BpfMap UInt64 Val
  stats : PerCpu n Stats
  rb : List Data

def State.start (n : ℕ) : State n := ⟨∅, fun _ => {}, []⟩

def State.bump {n : ℕ} (s : State n) (cpu : Fin n) (f : Stats → Stats) : State n :=
  { s with stats := s.stats.modify cpu f }

/-! ## The probes -/

structure BeginArgs (n : ℕ) where
  cpu : Fin n
  now : UInt64
  comm : Comm
  updateFails : Bool

/-- What the end probe sees, `nr_reclaimed` being the tracepoint's argument. -/
structure EndArgs (n : ℕ) where
  cpu : Fin n
  now : UInt64
  nrReclaimed : UInt64
  reserved : Bool

variable {n : ℕ}

def mkVal (id : UInt64) (a : BeginArgs n) : Val := ⟨id, a.now, a.comm⟩

/-- The begin probe behind its filters. -/
def recordBegin (id : UInt64) (a : BeginArgs n) (s : State n) : State n :=
  let s := s.bump a.cpu fun st => { st with attempted := st.attempted + 1 }
  if a.updateFails then
    s.bump a.cpu fun st => { st with mapUpdateFailed := st.mapUpdateFailed + 1 }
  else { s with startMap := s.startMap.update id (mkVal id a) }

def traceDirectReclaimBegin (ctrl : Ctrl) (cur : Task) (a : BeginArgs n) (s : State n) :
    State n :=
  if ctrl.enable = false then s
  else
    let id := appCurrentPidTgidNs cur ctrl.pidNsDev ctrl.pidNsIno
    if id = 0 then s
    else if ctrl.targetPid ≠ 0 ∧ ctrl.targetPid ≠ (tgidOf id).toInt32 then s
    else recordBegin id a s

def Stats.complete (st : Stats) (tgid : Int32) (val : Val) (x : EndArgs n) : Stats :=
  let delayNs := x.now - val.ts
  { st with
    completed := st.completed + 1
    totalNs := st.totalNs + delayNs
    totalReclaimed := st.totalReclaimed + x.nrReclaimed
    maxNs := if st.maxNs < delayNs then delayNs else st.maxNs
    maxPid := if st.maxNs < delayNs then tgid else st.maxPid
    maxComm := if st.maxNs < delayNs then val.name else st.maxComm }

def mkData (val : Val) (x : EndArgs n) : Data where
  id := val.id
  nrReclaimed := x.nrReclaimed
  delta := x.now - val.ts
  tsNs := x.now
  name := val.name

/-- The end probe once it has found a context that it does not throw away. -/
def finish (ctrl : Ctrl) (id : UInt64) (val : Val) (x : EndArgs n) (s : State n) : State n :=
  let delayNs := x.now - val.ts
  let s := s.bump x.cpu fun st => st.complete (tgidOf id).toInt32 val x
  if ctrl.minDelayNs ≠ 0 ∧ delayNs < ctrl.minDelayNs then
    let s := s.bump x.cpu fun st => { st with filteredDelay := st.filteredDelay + 1 }
    { s with startMap := s.startMap.delete id }
  else if x.reserved = false then
    let s := s.bump x.cpu fun st => { st with ringbufDropped := st.ringbufDropped + 1 }
    { s with startMap := s.startMap.delete id }
  else
    let s := { s with rb := s.rb ++ [mkData val x] }
    { s with startMap := s.startMap.delete id }

def traceDirectReclaimEnd (ctrl : Ctrl) (cur : Task) (x : EndArgs n) (s : State n) : State n :=
  let id := appCurrentPidTgidNs cur ctrl.pidNsDev ctrl.pidNsIno
  if id = 0 then s
  else
    match s.startMap.get id with
    | none =>
        if ctrl.enable = true ∧ (ctrl.targetPid = 0 ∨ ctrl.targetPid = (tgidOf id).toInt32) then
          s.bump x.cpu fun st => { st with lookupMissed := st.lookupMissed + 1 }
        else s
    | some val =>
        if ctrl.enable = false ∨
            (ctrl.targetPid ≠ 0 ∧ ctrl.targetPid ≠ (tgidOf id).toInt32) then
          { s with startMap := s.startMap.delete id }
        else finish ctrl id val x s

/-! ## One probe is one step of a tracker -/

variable {T : Type}

/-- The filter of the begin probe, as a property of the thread. -/
def passes (ctrl : Ctrl) (K : Kernel T) (t : T) : Bool :=
  let id := K.visible ctrl.pidNsDev ctrl.pidNsIno t
  decide (id ≠ 0 ∧ ¬(ctrl.targetPid ≠ 0 ∧ ctrl.targetPid ≠ (tgidOf id).toInt32))

def probe (ctrl : Ctrl) (K : Kernel T) (s : State n) :
    CallLabel T (BeginArgs n) (EndArgs n) UInt64 → State n
  | .enter t a => traceDirectReclaimBegin ctrl (K.task t) a s
  | .leave t x => traceDirectReclaimEnd ctrl (K.task t) x s
  | .evict k => { s with startMap := s.startMap.delete k }

def tracker (n : ℕ) (ctrl : Ctrl) (K : Kernel T) :
    Tracker T (BeginArgs n) (EndArgs n) UInt64 Val where
  passes := passes ctrl K
  key t := K.visible ctrl.pidNsDev ctrl.pidNsIno t
  Keyed t := K.visible ctrl.pidNsDev ctrl.pidNsIno t ≠ 0
  ctx t a := mkVal (K.visible ctrl.pidNsDev ctrl.pidNsIno t) a
  stored a := !a.updateFails
  keyed_of_passes _ h := (of_decide_eq_true h).1
  key_inj _ _ ht _ h := K.visible_inj ht h

def view (n : ℕ) : Tracker.View n (State n) Stats UInt64 Val Data where
  table s := s.startMap
  rb s := s.rb
  stats s := s.stats
  attempted st := st.attempted
  missed st := st.lookupMissed
  completed st := st.completed
  below st := st.filteredDelay
  dropped st := st.ringbufDropped

/-- What the end probe does with a context it found. -/
def outcome (ctrl : Ctrl) (call : T × Val × EndArgs n) : Outcome Data :=
  let delayNs := call.2.2.now - call.2.1.ts
  if ctrl.minDelayNs ≠ 0 ∧ delayNs < ctrl.minDelayNs then .below
  else if call.2.2.reserved = false then .dropped
  else .submitted (mkData call.2.1 call.2.2)

theorem start_agrees (ctrl : Ctrl) : Tracker.Agrees (view n) (outcome (n := n) (T := T) ctrl)
    (State.start n) (Tracker.State.start : Tracker.State T (EndArgs n) UInt64 Val) := by
  constructor <;> simp [view, State.start, Tracker.State.start]

/-- The recorded begin: one attempt, one stored context unless the insertion fails. -/
theorem recordBegin_agrees {ctrl : Ctrl} {s : State n}
    {ts : Tracker.State T (EndArgs n) UInt64 Val}
    (h : Tracker.Agrees (view n) (outcome ctrl) s ts) (id : UInt64) (a : BeginArgs n) :
    Tracker.Agrees (view n) (outcome ctrl) (recordBegin id a s)
      { ts with
        attempted := ts.attempted + 1
        table := if !a.updateFails then ts.table.update id (mkVal id a) else ts.table } := by
  have hatt : Tracker.Agrees (view n) (outcome ctrl)
      (s.bump a.cpu fun st => { st with attempted := st.attempted + 1 })
      { ts with attempted := ts.attempted + 1, table := s.startMap } := by
    refine h.attempt rfl rfl ?_
    exact fun _ => ⟨rfl, rfl, rfl, rfl, rfl⟩
  rw [show s.startMap = ts.table from h.table] at hatt
  unfold recordBegin
  cases a.updateFails with
  | true =>
      refine hatt.quiet rfl rfl rfl ?_
      exact fun _ => ⟨rfl, rfl, rfl, rfl, rfl⟩
  | false => exact { hatt with table := congrArg (fun m => BpfMap.update m _ _) hatt.table }

theorem begin_agrees {ctrl : Ctrl} {K : Kernel T} (hen : ctrl.enable = true) {s : State n}
    {ts : Tracker.State T (EndArgs n) UInt64 Val}
    (h : Tracker.Agrees (view n) (outcome ctrl) s ts) (t : T) (a : BeginArgs n) :
    Tracker.Agrees (view n) (outcome ctrl) (traceDirectReclaimBegin ctrl (K.task t) a s)
      ((tracker n ctrl K).step ts (.enter t a)) := by
  cases hp : passes ctrl K t with
  | false =>
      rw [Tracker.step_enter_of_rejected (P := tracker n ctrl K) hp]
      have hp := of_decide_eq_false hp
      unfold Kernel.visible at hp
      simp only [traceDirectReclaimBegin, hen, Bool.true_eq_false, if_false]
      split_ifs with hv htarget
      · exact h
      · exact h
      · exact absurd ⟨hv, htarget⟩ hp
  | true =>
      rw [Tracker.step_enter_of_passes (P := tracker n ctrl K) hp]
      obtain ⟨hv, htarget⟩ := of_decide_eq_true hp
      unfold Kernel.visible at hv htarget
      simp only [traceDirectReclaimBegin, hen, Bool.true_eq_false, if_false, hv, if_neg htarget]
      exact recordBegin_agrees h _ a

/-- A context is deleted on every path, and the call falls in one bucket. -/
theorem finish_agrees {ctrl : Ctrl} {s : State n}
    {ts : Tracker.State T (EndArgs n) UInt64 Val}
    (h : Tracker.Agrees (view n) (outcome ctrl) s ts) (t : T) (id : UInt64) (val : Val)
    (x : EndArgs n) :
    Tracker.Agrees (view n) (outcome ctrl) (finish ctrl id val x s)
      { ts with table := ts.table.delete id, log := ts.log ++ [(t, val, x)] } := by
  rw [← h.table]
  simp only [finish]
  split_ifs with hdelay hres
  · have ho : outcome ctrl (t, val, x) = .below := if_pos hdelay
    refine h.leave ho (PerCpu.modify_modify _ _ _ _) (List.append_nil _).symm ?_
    exact fun _ => ⟨rfl, rfl, rfl, rfl, rfl⟩
  · have ho : outcome ctrl (t, val, x) = .dropped := (if_neg hdelay).trans (if_pos hres)
    refine h.leave ho (PerCpu.modify_modify _ _ _ _) (List.append_nil _).symm ?_
    exact fun _ => ⟨rfl, rfl, rfl, rfl, rfl⟩
  · have ho : outcome ctrl (t, val, x) = .submitted (mkData val x) :=
      (if_neg hdelay).trans (if_neg hres)
    refine h.leave ho rfl rfl ?_
    exact fun _ => ⟨rfl, rfl, rfl, rfl, rfl⟩

theorem end_agrees {ctrl : Ctrl} {K : Kernel T} (hen : ctrl.enable = true) {s : State n}
    {ts : Tracker.State T (EndArgs n) UInt64 Val}
    {sch : Schedule T (BeginArgs n) (EndArgs n)}
    (h : Tracker.Agrees (view n) (outcome ctrl) s ts)
    (hown : (tracker n ctrl K).OwnContexts (ts, sch)) (t : T) (x : EndArgs n) :
    Tracker.Agrees (view n) (outcome ctrl) (traceDirectReclaimEnd ctrl (K.task t) x s)
      ((tracker n ctrl K).step ts (.leave t x)) := by
  have htable : s.startMap = ts.table := h.table
  cases hp : passes ctrl K t with
  | false =>
      rw [Tracker.step_leave_of_rejected (P := tracker n ctrl K) hp]
      by_cases hv : K.visible ctrl.pidNsDev ctrl.pidNsIno t = 0
      · unfold Kernel.visible at hv
        simpa only [traceDirectReclaimEnd, if_pos hv] using h
      · have hnone := (tracker n ctrl K).table_rejected hown hv hp
        have hpid := of_decide_eq_false hp
        simp only [tracker] at hnone
        unfold Kernel.visible at hv hpid hnone
        simp only [traceDirectReclaimEnd, if_neg hv, htable, hnone, hen, true_and]
        rwa [if_neg fun hf => hpid ⟨hv, fun hc => hf.elim hc.1 hc.2⟩]
  | true =>
      obtain ⟨hv, htarget⟩ := of_decide_eq_true hp
      cases hg : ts.table.get (K.visible ctrl.pidNsDev ctrl.pidNsIno t) with
      | none =>
          rw [Tracker.step_leave_of_missed (P := tracker n ctrl K) hp hg]
          unfold Kernel.visible at hv htarget hg
          simp only [traceDirectReclaimEnd, if_neg hv, htable, hg, hen, true_and]
          rw [if_pos (by tauto)]
          refine h.miss rfl rfl rfl ?_
          exact fun _ => ⟨rfl, rfl, rfl, rfl, rfl⟩
      | some val =>
          rw [Tracker.step_leave_of_found (P := tracker n ctrl K) hp hg]
          unfold Kernel.visible at hv htarget hg
          simp only [traceDirectReclaimEnd, if_neg hv, htable, hg, hen, Bool.true_eq_false,
            false_or, if_neg htarget]
          exact finish_agrees h t _ val x

/-- One probe of dr_snoop is one step of the tracker. -/
theorem probe_agrees {ctrl : Ctrl} (K : Kernel T) (hen : ctrl.enable = true) (s : State n)
    (ts : Tracker.State T (EndArgs n) UInt64 Val)
    (sch : Schedule T (BeginArgs n) (EndArgs n))
    (l : CallLabel T (BeginArgs n) (EndArgs n) UInt64)
    (h : Tracker.Agrees (view n) (outcome ctrl) s ts)
    (hown : (tracker n ctrl K).OwnContexts (ts, sch)) (_ : sch.Allowed l) :
    Tracker.Agrees (view n) (outcome ctrl) (probe ctrl K s l) ((tracker n ctrl K).step ts l) := by
  cases l with
  | enter t a => exact begin_agrees hen h t a
  | leave t x => exact end_agrees hen h hown t x
  | evict k =>
      exact { h with table := congrArg (fun m => BpfMap.delete m k) h.table }

/-! ## Runs -/

variable [DecidableEq T]

/-- All interleavings of the threads' calls, with evictions. -/
abbrev machine (n : ℕ) (ctrl : Ctrl) (K : Kernel T) :
    Machine (State n × Schedule T (BeginArgs n) (EndArgs n))
      (CallLabel T (BeginArgs n) (EndArgs n) UInt64) :=
  scheduled (State.start n) (probe ctrl K)

/-- The accounting at one point of a run: every attempted call is completed, missed
or still running, every completed one submitted, below the threshold or dropped;
and a visible thread outside a call has no context. -/
structure Accounted (ctrl : Ctrl) (K : Kernel T)
    (s : State n × Schedule T (BeginArgs n) (EndArgs n)) : Prop where
  attempted : s.1.stats.total (·.attempted) =
    s.1.stats.total (·.completed) + s.1.stats.total (·.lookupMissed) +
      (s.2.inside.filter fun t => passes ctrl K t = true).card
  completed : s.1.stats.total (·.completed) =
    s.1.rb.length + s.1.stats.total (·.filteredDelay) + s.1.stats.total (·.ringbufDropped)
  idle : ∀ t, K.visible ctrl.pidNsDev ctrl.pidNsIno t ≠ 0 → s.2.busy t = none →
    s.1.startMap.get (K.visible ctrl.pidNsDev ctrl.pidNsIno t) = none

theorem accounted {ctrl : Ctrl} (K : Kernel T) (hen : ctrl.enable = true)
    {es : List (CallLabel T (BeginArgs n) (EndArgs n) UInt64)}
    (hv : (machine n ctrl K).Valid es) : Accounted ctrl K ((machine n ctrl K).run es) := by
  obtain ⟨hatt, hcomp, hidle⟩ :=
    (tracker n ctrl K).accounting_of_agrees (start_agrees ctrl) (probe_agrees K hen) hv
  exact ⟨hatt, hcomp, fun t ht hb => hidle t ht hb⟩

end EbpfToolbox.Mem.DrSnoop
