import EbpfToolbox.Common.PidNamespace
import EbpfToolbox.Lib.BpfMap
import EbpfToolbox.Lib.Machine
import EbpfToolbox.Lib.PerCpu
import Mathlib.Data.UInt

/-!
# sched/context_switch

`sched/context_switch/context_switch.bpf.c`. A wakeup stores its time and CPU in
the LRU map `wakeup_map` under the address of the `task_struct`; the switch that
puts the task on a CPU takes the record out again and reports the time between
the two. The exit of a task removes what is left under its address.

The last section counts: a record is used at most once.
-/

namespace EbpfToolbox.Sched.ContextSwitch

open Common Lib

/-- `struct ContextSwitch_ctrl`. -/
structure Ctrl where
  enable : Bool
  minDelayNs : UInt64
  targetPid : Int32
  pidNsDev : UInt64
  pidNsIno : UInt64

/-- `struct wakeup_info`. -/
structure WakeupInfo where
  tsNs : UInt64
  wakeupCpu : Int32
deriving DecidableEq, Repr

/-- `struct ContextSwitch_event`. -/
structure Event where
  tsNs : UInt64
  delayNs : UInt64
  cpu : Int32
  wakeupCpu : Int32
  prevPid : Int32
  nextPid : Int32
  prevTgid : Int32
  nextTgid : Int32
  prevPrio : Int32
  nextPrio : Int32
  prevState : Int32
  preempt : Bool
  prevComm : Comm
  nextComm : Comm

/-- `struct ContextSwitch_stats`. -/
structure Stats where
  wakeups : ℕ := 0
  count : ℕ := 0
  filteredDelay : ℕ := 0
  ringbufDropped : ℕ := 0
  mapUpdateFailed : ℕ := 0
  unmatchedSwitches : ℕ := 0
  totalNs : UInt64 := 0
  maxNs : UInt64 := 0
  maxPrevPid : Int32 := 0
  maxNextPid : Int32 := 0
  maxPrevComm : Comm := Vector.replicate _ 0
  maxNextComm : Comm := Vector.replicate _ 0

/-- `wakeup_map`, `stats_map` and what was submitted to `rb`. -/
structure State (n : ℕ) where
  wakeupMap : BpfMap UInt64 WakeupInfo
  stats : PerCpu n Stats
  rb : List Event

def State.start (n : ℕ) : State n := ⟨∅, fun _ => {}, []⟩

def State.bump {n : ℕ} (s : State n) (cpu : Fin n) (f : Stats → Stats) : State n :=
  { s with stats := s.stats.modify cpu f }

/-! ## The probes -/

/-- A `struct task_struct *`: the address is the key of `wakeup_map`, the rest is what
the probes read behind it. -/
structure TaskPtr where
  addr : UInt64
  task : TaskStruct
  state : Int32

structure WakeupArgs (n : ℕ) where
  cpu : Fin n
  now : UInt64
  task : TaskPtr
  fails : Bool

/-- Room in `rb`, with the names that an earlier event left there. -/
structure Slot where
  prevComm : Comm
  nextComm : Comm

/-- Nothing has been there yet. -/
def Slot.zero : Slot := ⟨Vector.replicate _ 0, Vector.replicate _ 0⟩

/-- `reserved` is what `bpf_ringbuf_reserve` returns: `none` when there is no room. -/
structure SwitchArgs (n : ℕ) where
  cpu : Fin n
  now : UInt64
  preempt : Bool
  prev : TaskPtr
  next : TaskPtr
  reserved : Option Slot

variable {n : ℕ}

/-- `bpf_get_smp_processor_id`. -/
def smpProcessorId (cpu : Fin n) : Int32 := Int32.ofNat cpu

def recordWakeup (c : Ctrl) (x : WakeupArgs n) (s : State n) : State n :=
  if c.enable = false then s
  else
    let tgid := appTaskTgidNs (some x.task.task) c.pidNsIno
    if tgid = 0 then s
    else if c.targetPid ≠ 0 ∧ tgid ≠ c.targetPid then s
    else if x.fails then
      s.bump x.cpu fun st => { st with mapUpdateFailed := st.mapUpdateFailed + 1 }
    else
      let s := { s with wakeupMap := s.wakeupMap.update x.task.addr ⟨x.now, smpProcessorId x.cpu⟩ }
      s.bump x.cpu fun st => { st with wakeups := st.wakeups + 1 }

def traceSchedWakeup (c : Ctrl) (x : WakeupArgs n) (s : State n) : State n := recordWakeup c x s

def traceSchedWakeupNew (c : Ctrl) (x : WakeupArgs n) (s : State n) : State n := recordWakeup c x s

def traceSchedProcessExit (addr : UInt64) (s : State n) : State n :=
  { s with wakeupMap := s.wakeupMap.delete addr }

def mkEvent (c : Ctrl) (info : WakeupInfo) (x : SwitchArgs n) (slot : Slot) : Event where
  tsNs := x.now
  delayNs := x.now - info.tsNs
  cpu := smpProcessorId x.cpu
  wakeupCpu := info.wakeupCpu
  prevPid := appTaskTidNs (some x.prev.task) c.pidNsIno
  nextPid := appTaskTidNs (some x.next.task) c.pidNsIno
  prevTgid := appTaskTgidNs (some x.prev.task) c.pidNsIno
  nextTgid := appTaskTgidNs (some x.next.task) c.pidNsIno
  prevPrio := x.prev.task.prio
  nextPrio := x.next.task.prio
  prevState := x.prev.state
  preempt := x.preempt
  prevComm := readStrInto slot.prevComm (nameOf x.prev.task.comm)
  nextComm := readStrInto slot.nextComm (nameOf x.next.task.comm)

/-- Where the reported delay begins. -/
theorem mkEvent_start (c : Ctrl) (info : WakeupInfo) (x : SwitchArgs n) (slot : Slot) :
    (mkEvent c info x slot).tsNs - (mkEvent c info x slot).delayNs = info.tsNs :=
  sub_sub_cancel x.now info.tsNs

/-- What an earlier event left in the slot stays behind the names. -/
theorem mkEvent_names (c : Ctrl) (info : WakeupInfo) (x : SwitchArgs n) (slot : Slot) :
    cString (mkEvent c info x slot).prevComm = (nameOf x.prev.task.comm).bytes ∧
      cString (mkEvent c info x slot).nextComm = (nameOf x.next.task.comm).bytes :=
  ⟨cString_readStrInto _ _, cString_readStrInto _ _⟩

def Stats.report (st : Stats) (event : Event) : Stats :=
  { st with
    count := st.count + 1
    totalNs := st.totalNs + event.delayNs
    maxNs := if st.maxNs < event.delayNs then event.delayNs else st.maxNs
    maxPrevPid := if st.maxNs < event.delayNs then event.prevPid else st.maxPrevPid
    maxNextPid := if st.maxNs < event.delayNs then event.nextPid else st.maxNextPid
    maxPrevComm := if st.maxNs < event.delayNs then event.prevComm else st.maxPrevComm
    maxNextComm := if st.maxNs < event.delayNs then event.nextComm else st.maxNextComm }

/-- `trace_sched_switch` with the record of the task it switches in. -/
def switchIn (c : Ctrl) (info : WakeupInfo) (x : SwitchArgs n) (s : State n) : State n :=
  let delayNs := x.now - info.tsNs
  -- the record is gone whatever becomes of the event
  let s := { s with wakeupMap := s.wakeupMap.delete x.next.addr }
  if c.minDelayNs ≠ 0 ∧ delayNs < c.minDelayNs then
    s.bump x.cpu fun st => { st with filteredDelay := st.filteredDelay + 1 }
  else
    match x.reserved with
    | none => s.bump x.cpu fun st => { st with ringbufDropped := st.ringbufDropped + 1 }
    | some slot =>
        let event := mkEvent c info x slot
        let s := s.bump x.cpu fun st => st.report event
        { s with rb := s.rb ++ [event] }

def traceSchedSwitch (c : Ctrl) (x : SwitchArgs n) (s : State n) : State n :=
  if c.enable = false then s
  else
    let nextTid := appTaskTidNs (some x.next.task) c.pidNsIno
    let nextTgid := appTaskTgidNs (some x.next.task) c.pidNsIno
    if nextTid = 0 ∨ nextTgid = 0 then s
    else if c.targetPid ≠ 0 ∧ nextTgid ≠ c.targetPid then s
    else
      match s.wakeupMap.get x.next.addr with
      | none => s.bump x.cpu fun st => { st with unmatchedSwitches := st.unmatchedSwitches + 1 }
      | some info => switchIn c info x s

/-! ## What the probes do -/

/-- Does a wakeup of the task get past the filters? -/
def wakes (c : Ctrl) (task : TaskStruct) : Bool :=
  let tgid := appTaskTgidNs (some task) c.pidNsIno
  decide (c.enable = true ∧ tgid ≠ 0 ∧ ¬(c.targetPid ≠ 0 ∧ tgid ≠ c.targetPid))

/-- Does the switch to the task get past the filters? -/
def switches (c : Ctrl) (task : TaskStruct) : Bool :=
  wakes c task && decide (appTaskTidNs (some task) c.pidNsIno ≠ 0)

theorem recordWakeup_eq (c : Ctrl) (x : WakeupArgs n) (s : State n) :
    recordWakeup c x s =
      if wakes c x.task.task = false then s
      else if x.fails then
        s.bump x.cpu fun st => { st with mapUpdateFailed := st.mapUpdateFailed + 1 }
      else
        { s with wakeupMap := s.wakeupMap.update x.task.addr ⟨x.now, smpProcessorId x.cpu⟩ }.bump
          x.cpu fun st => { st with wakeups := st.wakeups + 1 } := by
  unfold recordWakeup wakes
  by_cases hen : c.enable = false
  · simp [hen]
  by_cases htgid : appTaskTgidNs (some x.task.task) c.pidNsIno = 0
  · simp [hen, htgid]
  by_cases htarget : c.targetPid ≠ 0 ∧ appTaskTgidNs (some x.task.task) c.pidNsIno ≠ c.targetPid
  · simp [hen, htgid, htarget]
  · simp only [hen, htgid, if_false, if_neg htarget]
    simp [htgid, htarget]

theorem traceSchedSwitch_eq (c : Ctrl) (x : SwitchArgs n) (s : State n) :
    traceSchedSwitch c x s =
      if switches c x.next.task = false then s
      else
        match s.wakeupMap.get x.next.addr with
        | none => s.bump x.cpu fun st => { st with unmatchedSwitches := st.unmatchedSwitches + 1 }
        | some info => switchIn c info x s := by
  unfold traceSchedSwitch switches wakes
  by_cases hen : c.enable = false
  · simp [hen]
  by_cases htid : appTaskTidNs (some x.next.task) c.pidNsIno = 0
  · simp [htid]
  by_cases htgid : appTaskTgidNs (some x.next.task) c.pidNsIno = 0
  · simp [hen, htgid]
  by_cases htarget : c.targetPid ≠ 0 ∧ appTaskTgidNs (some x.next.task) c.pidNsIno ≠ c.targetPid
  · simp [hen, htid, htgid, htarget]
  · simp only [hen, htid, htgid, or_self, if_false, if_neg htarget]
    simp [htid, htgid, htarget]

theorem recordWakeup_get (c : Ctrl) (x : WakeupArgs n) (s : State n) (k : UInt64) :
    (recordWakeup c x s).wakeupMap.get k =
      if (wakes c x.task.task && !x.fails) = true ∧ k = x.task.addr
      then some ⟨x.now, smpProcessorId x.cpu⟩ else s.wakeupMap.get k := by
  rw [recordWakeup_eq]
  cases hwakes : wakes c x.task.task with
  | false => simp
  | true =>
      cases hfails : x.fails with
      | true => simp [State.bump]
      | false => simp [State.bump, BpfMap.get_update]

theorem recordWakeup_rb (c : Ctrl) (x : WakeupArgs n) (s : State n) :
    (recordWakeup c x s).rb = s.rb := by
  rw [recordWakeup_eq]
  split_ifs <;> rfl

theorem switchIn_wakeupMap (c : Ctrl) (info : WakeupInfo) (x : SwitchArgs n) (s : State n) :
    (switchIn c info x s).wakeupMap = s.wakeupMap.delete x.next.addr := by
  simp only [switchIn]
  split_ifs
  · rfl
  · cases x.reserved <;> rfl

/-- A switch that is not filtered leaves no record of the task behind. -/
theorem traceSchedSwitch_get (c : Ctrl) (x : SwitchArgs n) (s : State n) (k : UInt64) :
    (traceSchedSwitch c x s).wakeupMap.get k =
      if switches c x.next.task = true ∧ k = x.next.addr then none else s.wakeupMap.get k := by
  rw [traceSchedSwitch_eq]
  cases hswitches : switches c x.next.task with
  | false => simp
  | true =>
      cases hinfo : s.wakeupMap.get x.next.addr with
      | none =>
          by_cases hk : k = x.next.addr
          · subst hk
            simpa [State.bump] using hinfo
          · simp [State.bump, hk]
      | some info => simp [switchIn_wakeupMap, BpfMap.get_delete]

/-- An event is made of the record of the task that is switched in. -/
theorem traceSchedSwitch_rb (c : Ctrl) (x : SwitchArgs n) (s : State n) :
    (traceSchedSwitch c x s).rb = s.rb ∨
      ∃ info slot, switches c x.next.task = true ∧ s.wakeupMap.get x.next.addr = some info ∧
        (traceSchedSwitch c x s).rb = s.rb ++ [mkEvent c info x slot] := by
  rw [traceSchedSwitch_eq]
  cases hswitches : switches c x.next.task with
  | false => exact .inl rfl
  | true =>
      cases hinfo : s.wakeupMap.get x.next.addr with
      | none => exact .inl rfl
      | some info =>
          simp only [Bool.true_eq_false, if_false, switchIn]
          split_ifs
          · exact .inl rfl
          · cases x.reserved with
            | none => exact .inl rfl
            | some slot => exact .inr ⟨info, slot, trivial, rfl, rfl⟩

/-! ## A record is used at most once -/

/-- The probes, and the evictions from `wakeup_map`. -/
inductive Probe (n : ℕ) : Type where
  | wakeup (x : WakeupArgs n)
  | wakeupNew (x : WakeupArgs n)
  | switch (x : SwitchArgs n)
  | exit (addr : UInt64)
  | evict (key : UInt64)

def probe (c : Ctrl) (s : State n) : Probe n → State n
  | .wakeup x => traceSchedWakeup c x s
  | .wakeupNew x => traceSchedWakeupNew c x s
  | .switch x => traceSchedSwitch c x s
  | .exit addr => traceSchedProcessExit addr s
  | .evict key => { s with wakeupMap := s.wakeupMap.delete key }

/-- Any probes on any CPUs, in any order. -/
def probes (n : ℕ) (c : Ctrl) : Machine (State n) (Probe n) := ⟨State.start n, probe c, fun _ _ => True⟩

/-- The records that a switch took out of the map. -/
def Stats.used (st : Stats) : ℕ := st.count + st.filteredDelay + st.ringbufDropped

/-- Every used and every stored record was written by a wakeup of its own. -/
def UsedOnce (s : State n) : Prop :=
  s.stats.total Stats.used + s.wakeupMap.size ≤ s.stats.total (·.wakeups)

/-- One record, if there was one, goes from the map to the counters. -/
theorem usedOnce_settle {s s' : State n} (h : UsedOnce s) {cpu : Fin n} {f : Stats → Stats}
    (hstats : s'.stats = s.stats.modify cpu f)
    {j : ℕ} (hused : ∀ st, (f st).used = st.used + j ∧ (f st).wakeups = st.wakeups)
    (hsize : s'.wakeupMap.size + j ≤ s.wakeupMap.size) : UsedOnce s' := by
  unfold UsedOnce at *
  have hwake := PerCpu.total_modify_add (fun st : Stats => st.wakeups) s.stats cpu f
    (show _ = _ + 0 from (hused _).2)
  rw [hstats, PerCpu.total_modify_add Stats.used _ _ _ (hused _).1, hwake]
  omega

theorem usedOnce_delete {s : State n} (h : UsedOnce s) (k : UInt64) :
    UsedOnce { s with wakeupMap := s.wakeupMap.delete k } := by
  have hsize := BpfMap.size_delete s.wakeupMap k
  unfold UsedOnce at *
  simp only
  omega

theorem usedOnce_recordWakeup {s : State n} (h : UsedOnce s) (c : Ctrl) (x : WakeupArgs n) :
    UsedOnce (recordWakeup c x s) := by
  rw [recordWakeup_eq]
  split_ifs
  · exact h
  · refine usedOnce_settle h rfl (j := 0) ?_ le_rfl
    exact fun _ => ⟨rfl, rfl⟩
  · have hsize := BpfMap.size_update_le s.wakeupMap x.task.addr ⟨x.now, smpProcessorId x.cpu⟩
    have hwake : (s.stats.modify x.cpu fun st => { st with wakeups := st.wakeups + 1 }).total
        (·.wakeups) = s.stats.total (·.wakeups) + 1 := PerCpu.total_modify_add _ _ _ _ rfl
    have hused : (s.stats.modify x.cpu fun st => { st with wakeups := st.wakeups + 1 }).total
        Stats.used = s.stats.total Stats.used + 0 := PerCpu.total_modify_add _ _ _ _ rfl
    unfold UsedOnce at *
    simp only [State.bump, hwake, hused]
    omega

theorem usedOnce_switchIn {s : State n} (h : UsedOnce s) (c : Ctrl) {info : WakeupInfo}
    (x : SwitchArgs n) (hinfo : s.wakeupMap.get x.next.addr = some info) :
    UsedOnce (switchIn c info x s) := by
  have hsize := BpfMap.size_delete s.wakeupMap x.next.addr
  rw [hinfo] at hsize
  simp only [switchIn]
  split_ifs
  · refine usedOnce_settle h rfl (j := 1) ?_ hsize.le
    exact fun st => ⟨by simp only [Stats.used]; omega, rfl⟩
  cases x.reserved with
  | none =>
      refine usedOnce_settle h rfl (j := 1) ?_ hsize.le
      exact fun st => ⟨by simp only [Stats.used]; omega, rfl⟩
  | some slot =>
      refine usedOnce_settle h rfl (j := 1) ?_ hsize.le
      exact fun st => ⟨by simp only [Stats.used, Stats.report]; omega, rfl⟩

theorem usedOnce_probe {s : State n} (h : UsedOnce s) (c : Ctrl) (e : Probe n) :
    UsedOnce (probe c s e) := by
  cases e with
  | wakeup x => exact usedOnce_recordWakeup h c x
  | wakeupNew x => exact usedOnce_recordWakeup h c x
  | switch x =>
      simp only [probe, traceSchedSwitch_eq]
      split_ifs
      · exact h
      cases hinfo : s.wakeupMap.get x.next.addr with
      | none =>
          refine usedOnce_settle h rfl (j := 0) ?_ le_rfl
          exact fun _ => ⟨rfl, rfl⟩
      | some info => exact usedOnce_switchIn h c x hinfo
  | exit addr => exact usedOnce_delete h addr
  | evict key => exact usedOnce_delete h key

theorem usedOnce_run (c : Ctrl) (es : List (Probe n)) : UsedOnce ((probes n c).run es) := by
  refine Machine.invariant_of_any (M := probes n c) (I := UsedOnce) ?_
    (fun s e h => usedOnce_probe h c e) es
  have hused : (State.start n).stats.total Stats.used = 0 := PerCpu.total_const_zero _ _ rfl
  have hsize : (State.start n).wakeupMap.size = 0 := rfl
  change (State.start n).stats.total Stats.used + (State.start n).wakeupMap.size ≤ _
  omega

end EbpfToolbox.Sched.ContextSwitch
