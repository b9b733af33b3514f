import EbpfToolbox.Lib.Panel
import EbpfToolbox.Requests

/-!
# The panels at the end

`print_stats` of the modules that count per CPU and report single calls: `fs/open`,
`fs/read`, `fs/write`, `lock/mutexlock`, `mem/dr_snoop` and `sched/context_switch`. User space
reads the copies of all CPUs, adds the counters up and keeps the largest maximum with the
fields that belong to it. The counters are natural numbers here, in the kernel and in user
space; the totals are 64-bit words. `printStats` is given the copies: where the map cannot be
read the source prints nothing.

`board` says which fields of a module's statistics and events are about calls, and `finished`
which call a probe completes. The panel is compared with the calls of the whole run.
-/

namespace EbpfToolbox

open Common Lib

/-! ## lock/mutexlock -/

namespace Lock.Mutexlock

variable {n : ℕ} {o : AppOptions} {w : Setting}

/-- The fields that go with the longest wait. -/
structure MaxFields where
  lockAddr : UInt64
  ownerPid : Int32
  contenderPid : Int32
  ownerName : Comm
  contenderName : Comm

def board (n : ℕ) : Board n (State n) Stats Event MaxFields where
  stats := State.stats
  rb := State.rb
  count := Stats.contentionCount
  total := Stats.waitTotalNs
  peak st := ⟨st.waitMaxNs, st.maxLockAddr, st.maxOwnerPid, st.maxContenderPid, st.maxOwnerName,
    st.maxContenderName⟩
  withheld _ := 0
  call e := ⟨e.contentionNs, e.ptr, e.ownerPid, e.contenderPid, e.ownerName, e.contenderName⟩

/-- The body of the loop over the CPUs. -/
def Stats.addCpu (s v : Stats) : Stats :=
  let s : Stats :=
    { s with
      attempted := s.attempted + v.attempted
      contentionCount := s.contentionCount + v.contentionCount
      filteredDelay := s.filteredDelay + v.filteredDelay
      ringbufDropped := s.ringbufDropped + v.ringbufDropped
      mapUpdateFailed := s.mapUpdateFailed + v.mapUpdateFailed
      lookupMissed := s.lookupMissed + v.lookupMissed
      waitTotalNs := s.waitTotalNs + v.waitTotalNs }
  if s.waitMaxNs < v.waitMaxNs then
    { s with
      waitMaxNs := v.waitMaxNs, maxLockAddr := v.maxLockAddr, maxOwnerPid := v.maxOwnerPid
      maxContenderPid := v.maxContenderPid, maxOwnerName := v.maxOwnerName
      maxContenderName := v.maxContenderName }
  else s

def mergeCpus (stats : PerCpu n Stats) : Stats :=
  (List.finRange n).foldl (fun s cpu => s.addCpu (stats cpu)) {}

/-- `print_stats`. -/
def printStats (stats : PerCpu n Stats) : Option Stats :=
  let s := mergeCpus stats
  if s.attempted = 0 ∧ s.contentionCount = 0 then none else some s

theorem blank : (board n).Blank {} := ⟨rfl, rfl, rfl, rfl⟩

theorem addCpu_merges : (board n).Merges Stats.addCpu := by
  constructor
  · intro s v
    simp only [board, Stats.addCpu]
    split_ifs <;> rfl
  · intro s v
    simp only [board, Stats.addCpu]
    split_ifs <;> rfl
  · exact fun s v => Peak.note_ite (board n).peak Iff.rfl rfl rfl
  · intro s v
    rfl

theorem contend_books (data : ContentionData) (x : ExitArgs n) :
    (board n).Books ((board n).call (mkEvent data x)) 0
      fun st => st.contend data (x.now - data.enterTs) := by
  refine ⟨fun _ => rfl, fun _ => rfl, fun st => ?_, fun _ => rfl⟩
  by_cases hlt : st.waitMaxNs < x.now - data.enterTs
  · refine Eq.trans ?_ (Peak.note_of_lt hlt).symm
    simp only [board, Stats.contend, if_pos hlt]
    rfl
  · refine Eq.trans ?_ (Peak.note_of_not_lt hlt).symm
    simp only [board, Stats.contend, if_neg hlt]

variable {s : State n} {xs : List (Fin n × Peak UInt64 MaxFields)}

theorem tells_bump {f : Stats → Stats} (hf : (board n).Marks 0 f) (h : (board n).Tells {} xs s)
    (cpu : Fin n) : (board n).Tells {} xs (s.bump cpu f) :=
  h.ignore hf rfl rfl

theorem mutexSlowpathEntry_tells (h : (board n).Tells {} xs s) (c : Ctrl) (cur : Task)
    (a : EntryArgs n) : (board n).Tells {} xs (mutexSlowpathEntry c cur a s) := by
  refine .ite (fun _ => h) fun _ => .ite (fun _ => h) fun _ => .ite (fun _ => h) fun _ => ?_
  have hattempt : (board n).Tells {} xs
      (s.bump a.cpu fun st => { st with attempted := st.attempted + 1 }) :=
    tells_bump (by constructor <;> exact fun _ => rfl) h _
  refine .ite (fun _ => tells_bump ?_ hattempt _) fun _ => hattempt.frame rfl rfl
  constructor <;> exact fun _ => rfl

/-- A wait is booked exactly when it is reported. -/
theorem mutexSlowpathExit_tells (h : (board n).Tells {} xs s) (c : Ctrl) (cur : Task)
    (x : ExitArgs n) : ∃ xs, (board n).Tells {} xs (mutexSlowpathExit c cur x s) := by
  simp only [mutexSlowpathExit]
  by_cases hzero : appCurrentPidTgidNs cur c.pidNsDev c.pidNsIno = 0
  · rw [if_pos hzero]
    exact ⟨xs, h⟩
  rw [if_neg hzero]
  cases s.contentionMap.get _ with
  | none =>
      refine ⟨xs, .ite (fun _ => tells_bump ?_ h _) fun _ => h⟩
      constructor <;> exact fun _ => rfl
  | some data =>
      dsimp only [finish]
      split_ifs
      · exact ⟨xs, h.frame rfl rfl⟩
      · refine ⟨xs, h.ignore ?_ rfl rfl⟩
        constructor <;> exact fun _ => rfl
      · refine ⟨xs, h.ignore ?_ rfl rfl⟩
        constructor <;> exact fun _ => rfl
      · exact ⟨_, h.report (contend_books data x) rfl rfl rfl⟩

theorem tells_run (ls : List (asMonitor o w).Label) :
    ∃ xs, (board w.cpus).Tells {} xs ((asMonitor o w).machine.run ls) := by
  refine Machine.invariant_of_any (I := fun s => ∃ xs, (board w.cpus).Tells {} xs s) ?_ ?_ ls
  · exact ⟨[], .start blank rfl rfl⟩
  · rintro s l ⟨xs, h⟩
    cases l with
    | enter cur a => exact ⟨xs, mutexSlowpathEntry_tells h _ cur a⟩
    | leave cur x => exact mutexSlowpathExit_tells h _ cur x
    | evict k => exact ⟨xs, h.frame rfl rfl⟩

/-- The panel is about the waits that were reported, and no others. -/
theorem panel_run (ls : List (asMonitor o w).Label) :
    let s := (asMonitor o w).machine.run ls
    (board w.cpus).Shows (State.rb s |>.map (board w.cpus).call) (State.rb s)
      (printStats (State.stats s)) := by
  intro s
  obtain ⟨xs, h⟩ := tells_run (o := o) (w := w) ls
  have hpanel := h.merged blank addCpu_merges
  rw [← hpanel.calls_eq rfl] at hpanel
  refine hpanel.shows ?_
  rintro ⟨-, hcount⟩
  exact List.eq_nil_of_length_eq_zero (hpanel.count.symm.trans hcount)

end Lock.Mutexlock

/-! ## sched/context_switch -/

namespace Sched.ContextSwitch

variable {n : ℕ} {o : AppOptions} {w : Setting}

/-- The fields that go with the longest delay. -/
structure MaxFields where
  prevPid : Int32
  nextPid : Int32
  prevComm : Comm
  nextComm : Comm

def board (n : ℕ) : Board n (State n) Stats Event MaxFields where
  stats := State.stats
  rb := State.rb
  count := Stats.count
  total := Stats.totalNs
  peak st := ⟨st.maxNs, st.maxPrevPid, st.maxNextPid, st.maxPrevComm, st.maxNextComm⟩
  withheld _ := 0
  call e := ⟨e.delayNs, e.prevPid, e.nextPid, e.prevComm, e.nextComm⟩

/-- The body of the loop over the CPUs. -/
def Stats.addCpu (s v : Stats) : Stats :=
  let s : Stats :=
    { s with
      wakeups := s.wakeups + v.wakeups
      count := s.count + v.count
      filteredDelay := s.filteredDelay + v.filteredDelay
      ringbufDropped := s.ringbufDropped + v.ringbufDropped
      mapUpdateFailed := s.mapUpdateFailed + v.mapUpdateFailed
      unmatchedSwitches := s.unmatchedSwitches + v.unmatchedSwitches
      totalNs := s.totalNs + v.totalNs }
  if s.maxNs < v.maxNs then
    { s with
      maxNs := v.maxNs, maxPrevPid := v.maxPrevPid, maxNextPid := v.maxNextPid
      maxPrevComm := v.maxPrevComm, maxNextComm := v.maxNextComm }
  else s

def mergeCpus (stats : PerCpu n Stats) : Stats :=
  (List.finRange n).foldl (fun s cpu => s.addCpu (stats cpu)) {}

/-- `print_stats`. -/
def printStats (stats : PerCpu n Stats) : Option Stats :=
  let s := mergeCpus stats
  if s.wakeups = 0 ∧ s.count = 0 then none else some s

theorem blank : (board n).Blank {} := ⟨rfl, rfl, rfl, rfl⟩

theorem addCpu_merges : (board n).Merges Stats.addCpu := by
  constructor
  · intro s v
    simp only [board, Stats.addCpu]
    split_ifs <;> rfl
  · intro s v
    simp only [board, Stats.addCpu]
    split_ifs <;> rfl
  · exact fun s v => Peak.note_ite (board n).peak Iff.rfl rfl rfl
  · intro s v
    rfl

theorem report_books (e : Event) : (board n).Books ((board n).call e) 0 fun st => st.report e := by
  refine ⟨fun _ => rfl, fun _ => rfl, fun st => ?_, fun _ => rfl⟩
  by_cases hlt : st.maxNs < e.delayNs
  · refine Eq.trans ?_ (Peak.note_of_lt hlt).symm
    simp only [board, Stats.report, if_pos hlt]
  · refine Eq.trans ?_ (Peak.note_of_not_lt hlt).symm
    simp only [board, Stats.report, if_neg hlt]

variable {s : State n} {xs : List (Fin n × Peak UInt64 MaxFields)}

theorem tells_bump {f : Stats → Stats} (hf : (board n).Marks 0 f) (h : (board n).Tells {} xs s)
    (cpu : Fin n) : (board n).Tells {} xs (s.bump cpu f) :=
  h.ignore hf rfl rfl

theorem recordWakeup_tells (h : (board n).Tells {} xs s) (c : Ctrl) (x : WakeupArgs n) :
    (board n).Tells {} xs (recordWakeup c x s) := by
  refine .ite (fun _ => h) fun _ => .ite (fun _ => h) fun _ => .ite (fun _ => h) fun _ => ?_
  refine .ite (fun _ => tells_bump ?_ h _) fun _ => h.ignore ?_ rfl rfl
  · constructor <;> exact fun _ => rfl
  · constructor <;> exact fun _ => rfl

/-- A delay is booked exactly when it is reported. -/
theorem traceSchedSwitch_tells (h : (board n).Tells {} xs s) (c : Ctrl) (x : SwitchArgs n) :
    ∃ xs, (board n).Tells {} xs (traceSchedSwitch c x s) := by
  simp only [traceSchedSwitch, switchIn]
  cases s.wakeupMap.get x.next.addr with
  | none =>
      refine ⟨xs, .ite (fun _ => h) fun _ => .ite (fun _ => h) fun _ => .ite (fun _ => h) ?_⟩
      refine fun _ => tells_bump ?_ h _
      constructor <;> exact fun _ => rfl
  | some info =>
      dsimp only
      split_ifs
      · exact ⟨xs, h⟩
      · exact ⟨xs, h⟩
      · exact ⟨xs, h⟩
      · refine ⟨xs, h.ignore ?_ rfl rfl⟩
        constructor <;> exact fun _ => rfl
      cases x.reserved with
      | none =>
          refine ⟨xs, h.ignore ?_ rfl rfl⟩
          constructor <;> exact fun _ => rfl
      | some slot => exact ⟨_, h.report (report_books (mkEvent c info x slot)) rfl rfl rfl⟩

theorem tells_run (ls : List (asMonitor o w).Label) :
    ∃ xs, (board w.cpus).Tells {} xs ((asMonitor o w).machine.run ls) := by
  refine Machine.invariant_of_any (I := fun s => ∃ xs, (board w.cpus).Tells {} xs s) ?_ ?_ ls
  · exact ⟨[], .start blank rfl rfl⟩
  · rintro s l ⟨xs, h⟩
    cases l with
    | wakeup x => exact ⟨xs, recordWakeup_tells h _ x⟩
    | wakeupNew x => exact ⟨xs, recordWakeup_tells h _ x⟩
    | switch x => exact traceSchedSwitch_tells h _ x
    | exit addr => exact ⟨xs, h.frame rfl rfl⟩
    | evict key => exact ⟨xs, h.frame rfl rfl⟩

/-- The panel is about the delays that were reported, and no others. -/
theorem panel_run (ls : List (asMonitor o w).Label) :
    let s := (asMonitor o w).machine.run ls
    (board w.cpus).Shows (State.rb s |>.map (board w.cpus).call) (State.rb s)
      (printStats (State.stats s)) := by
  intro s
  obtain ⟨xs, h⟩ := tells_run (o := o) (w := w) ls
  have hpanel := h.merged blank addCpu_merges
  rw [← hpanel.calls_eq rfl] at hpanel
  refine hpanel.shows ?_
  rintro ⟨-, hcount⟩
  exact List.eq_nil_of_length_eq_zero (hpanel.count.symm.trans hcount)

end Sched.ContextSwitch

/-! ## mem/dr_snoop -/

namespace Mem.DrSnoop

variable {n : ℕ} {o : AppOptions} {w : Setting}

/-- The fields that go with the longest reclaim. -/
structure MaxFields where
  pid : Int32
  comm : Comm

def board (n : ℕ) : Board n (State n) Stats Data MaxFields where
  stats := State.stats
  rb := State.rb
  count := Stats.completed
  total := Stats.totalNs
  peak st := ⟨st.maxNs, st.maxPid, st.maxComm⟩
  withheld st := st.filteredDelay + st.ringbufDropped
  call e := ⟨e.delta, (tgidOf e.id).toInt32, e.name⟩

/-- The reclaim that a probe sees the end of. -/
def finished (c : Ctrl) (s : State n) :
    CallLabel Task (BeginArgs n) (EndArgs n) UInt64 → Option (Fin n × Peak UInt64 MaxFields)
  | .leave cur x =>
      let id := appCurrentPidTgidNs cur c.pidNsDev c.pidNsIno
      if id = 0 ∨ c.enable = false ∨ (c.targetPid ≠ 0 ∧ c.targetPid ≠ (tgidOf id).toInt32) then none
      else (s.startMap.get id).map fun val =>
        (x.cpu, ⟨x.now - val.ts, (tgidOf id).toInt32, val.name⟩)
  | _ => none

/-- The body of the loop over the CPUs. -/
def Stats.addCpu (s v : Stats) : Stats :=
  let s : Stats :=
    { s with
      attempted := s.attempted + v.attempted
      completed := s.completed + v.completed
      filteredDelay := s.filteredDelay + v.filteredDelay
      ringbufDropped := s.ringbufDropped + v.ringbufDropped
      mapUpdateFailed := s.mapUpdateFailed + v.mapUpdateFailed
      lookupMissed := s.lookupMissed + v.lookupMissed
      totalNs := s.totalNs + v.totalNs
      totalReclaimed := s.totalReclaimed + v.totalReclaimed }
  if s.maxNs < v.maxNs then
    { s with maxNs := v.maxNs, maxPid := v.maxPid, maxComm := v.maxComm }
  else s

def mergeCpus (stats : PerCpu n Stats) : Stats :=
  (List.finRange n).foldl (fun s cpu => s.addCpu (stats cpu)) {}

/-- `print_stats`. -/
def printStats (stats : PerCpu n Stats) : Option Stats :=
  let s := mergeCpus stats
  if s.attempted = 0 ∧ s.completed = 0 then none else some s

theorem blank : (board n).Blank {} := ⟨rfl, rfl, rfl, rfl⟩

theorem addCpu_merges : (board n).Merges Stats.addCpu := by
  constructor
  · intro s v
    simp only [board, Stats.addCpu]
    split_ifs <;> rfl
  · intro s v
    simp only [board, Stats.addCpu]
    split_ifs <;> rfl
  · exact fun s v => Peak.note_ite (board n).peak Iff.rfl rfl rfl
  · intro s v
    simp only [board, Stats.addCpu]
    split_ifs <;> exact add_add_add_comm _ _ _ _

variable {s : State n} {xs : List (Fin n × Peak UInt64 MaxFields)}

theorem complete_books (pid : Int32) (val : Val) (x : EndArgs n) :
    (board n).Books ⟨x.now - val.ts, pid, val.name⟩ 0 fun st => st.complete pid val x := by
  refine ⟨fun _ => rfl, fun _ => rfl, fun st => ?_, fun _ => rfl⟩
  by_cases hlt : st.maxNs < x.now - val.ts
  · refine Eq.trans ?_ (Peak.note_of_lt hlt).symm
    simp only [board, Stats.complete, if_pos hlt]
  · refine Eq.trans ?_ (Peak.note_of_not_lt hlt).symm
    simp only [board, Stats.complete, if_neg hlt]

theorem tells_bump {f : Stats → Stats} (hf : (board n).Marks 0 f) (h : (board n).Tells {} xs s)
    (cpu : Fin n) : (board n).Tells {} xs (s.bump cpu f) :=
  h.ignore hf rfl rfl

theorem traceDirectReclaimBegin_tells (h : (board n).Tells {} xs s) (c : Ctrl) (cur : Task)
    (a : BeginArgs n) : (board n).Tells {} xs (traceDirectReclaimBegin c cur a s) := by
  refine .ite (fun _ => h) fun _ => .ite (fun _ => h) fun _ => .ite (fun _ => h) fun _ => ?_
  have hattempt : (board n).Tells {} xs
      (s.bump a.cpu fun st => { st with attempted := st.attempted + 1 }) :=
    tells_bump (by constructor <;> exact fun _ => rfl) h _
  refine .ite (fun _ => tells_bump ?_ hattempt _) fun _ => hattempt.frame rfl rfl
  constructor <;> exact fun _ => rfl

/-- A reclaim that is over is booked, whatever becomes of its event. -/
theorem traceDirectReclaimEnd_tells (h : (board n).Tells {} xs s) (hid : KeyedById s) (c : Ctrl)
    (cur : Task) (x : EndArgs n) :
    (board n).Tells {} (xs ++ (finished c s (.leave cur x)).toList)
      (traceDirectReclaimEnd c cur x s) := by
  simp only [traceDirectReclaimEnd, finished]
  generalize hkey : appCurrentPidTgidNs cur c.pidNsDev c.pidNsIno = id
  by_cases hzero : id = 0
  · rw [if_pos hzero, if_pos (Or.inl hzero)]
    simpa using h
  rw [if_neg hzero]
  cases hval : s.startMap.get id with
  | none =>
      have hnone : (if id = 0 ∨ c.enable = false ∨
          (c.targetPid ≠ 0 ∧ c.targetPid ≠ (tgidOf id).toInt32) then none
        else Option.map (fun val : Val => ((x.cpu, ⟨x.now - val.ts, (tgidOf id).toInt32, val.name⟩) :
          Fin n × Peak UInt64 MaxFields)) none) = none := by
        simp
      rw [hnone, Option.toList_none, List.append_nil]
      refine .ite (fun _ => tells_bump ?_ h _) fun _ => h
      constructor <;> exact fun _ => rfl
  | some val =>
      dsimp only
      by_cases hpass : c.enable = false ∨ (c.targetPid ≠ 0 ∧ c.targetPid ≠ (tgidOf id).toInt32)
      · rw [if_pos hpass, if_pos (Or.inr hpass), Option.toList_none, List.append_nil]
        exact h.frame rfl rfl
      · rw [if_neg hpass, if_neg (not_or.mpr ⟨hzero, hpass⟩)]
        simp only [Option.map_some, Option.toList_some, finish]
        have hbooks := complete_books (tgidOf id).toInt32 val x
        split_ifs
        · refine h.withhold hbooks ?_ rfl rfl
          exact ⟨fun _ => rfl, fun _ => rfl, fun _ => rfl, fun _ => Nat.add_right_comm _ _ _⟩
        · refine h.withhold hbooks ?_ rfl rfl
          exact ⟨fun _ => rfl, fun _ => rfl, fun _ => rfl, fun _ => rfl⟩
        · refine h.report hbooks rfl rfl ?_
          have hsame : val.id = id := hid _ _ hval
          rw [← hsame]
          rfl

theorem tells_run (ls : List (asMonitor o w).Label) :
    (board w.cpus).Tells {} ((asMonitor o w).machine.collect (finished (ctrlOf o w)) ls)
        ((asMonitor o w).machine.run ls) ∧ KeyedById ((asMonitor o w).machine.run ls) := by
  refine Machine.collect_invariant (finished (ctrlOf o w))
    (R := fun xs s => (board w.cpus).Tells {} xs s ∧ KeyedById s) ?_ ?_ ls
  · exact ⟨.start blank rfl rfl, BpfMap.holds_empty⟩
  · rintro xs s l ⟨h, hid⟩
    refine ⟨?_, (anyProbe_keeps (o := o) (w := w) hid l).invariant⟩
    cases l with
    | enter cur a =>
        rw [show finished (ctrlOf o w) s (.enter cur a) = none from rfl, Option.toList_none,
          List.append_nil]
        exact traceDirectReclaimBegin_tells h _ cur a
    | leave cur x => exact traceDirectReclaimEnd_tells h hid _ cur x
    | evict k =>
        rw [show finished (ctrlOf o w) s (.evict k) = none from rfl, Option.toList_none,
          List.append_nil]
        exact h.frame rfl rfl

theorem panel_run (ls : List (asMonitor o w).Label) :
    let s := (asMonitor o w).machine.run ls
    (board w.cpus).Shows (((asMonitor o w).machine.collect (finished (ctrlOf o w)) ls).map Prod.snd)
      (State.rb s) (printStats (State.stats s)) := by
  intro s
  have hpanel := (tells_run (o := o) (w := w) ls).1.merged blank addCpu_merges
  refine hpanel.shows ?_
  rintro ⟨-, hcount⟩
  exact List.eq_nil_of_length_eq_zero (hpanel.count.symm.trans hcount)

end Mem.DrSnoop

/-! ## fs/open -/

namespace Fs.Open

variable {n : ℕ} {o : AppOptions} {w : Setting}

/-- The fields that go with the longest call. -/
structure MaxFields where
  pid : Int32
  comm : Comm

def board (n : ℕ) : Board n (State n) Stats Event MaxFields where
  stats := State.stats
  rb := State.rb
  count := Stats.completed
  total := Stats.totalNs
  peak st := ⟨st.maxNs, st.maxPid, st.maxComm⟩
  withheld st := st.filteredDelay + st.ringbufDropped
  call e := ⟨e.latencyNs, e.pid, e.comm⟩

/-- The call that a probe sees the end of. -/
def finished (c : Ctrl) (s : State n) :
    CallLabel Task (EntryArgs n) (ExitArgs n) UInt32 → Option (Fin n × Peak UInt64 MaxFields)
  | .leave cur x =>
      let pidTgid := appCurrentPidTgidNs cur c.pidNsDev c.pidNsIno
      if pidTgid = 0 ∨ c.enable = false then none
      else (s.tidMap.get (tidOf pidTgid)).map fun entry =>
        (x.cpu, ⟨x.now - entry.enterTs, entry.pid, x.comm⟩)
  | _ => none

/-- The body of the loop over the CPUs. -/
def Stats.addCpu (s v : Stats) : Stats :=
  let s : Stats :=
    { s with
      attempted := s.attempted + v.attempted
      completed := s.completed + v.completed
      submitted := s.submitted + v.submitted
      failed := s.failed + v.failed
      filteredPid := s.filteredPid + v.filteredPid
      filteredDelay := s.filteredDelay + v.filteredDelay
      ringbufDropped := s.ringbufDropped + v.ringbufDropped
      mapUpdateFailed := s.mapUpdateFailed + v.mapUpdateFailed
      lookupMissed := s.lookupMissed + v.lookupMissed
      pathReadFailed := s.pathReadFailed + v.pathReadFailed
      pathTruncated := s.pathTruncated + v.pathTruncated
      totalNs := s.totalNs + v.totalNs }
  if s.maxNs < v.maxNs then
    { s with maxNs := v.maxNs, maxPid := v.maxPid, maxComm := v.maxComm }
  else s

def mergeCpus (stats : PerCpu n Stats) : Stats :=
  (List.finRange n).foldl (fun s cpu => s.addCpu (stats cpu)) {}

/-- `print_stats`. -/
def printStats (stats : PerCpu n Stats) : Option Stats :=
  let s := mergeCpus stats
  if s.attempted = 0 ∧ s.filteredPid = 0 then none else some s

theorem blank : (board n).Blank {} := ⟨rfl, rfl, rfl, rfl⟩

theorem addCpu_merges : (board n).Merges Stats.addCpu := by
  constructor
  · intro s v
    simp only [board, Stats.addCpu]
    split_ifs <;> rfl
  · intro s v
    simp only [board, Stats.addCpu]
    split_ifs <;> rfl
  · exact fun s v => Peak.note_ite (board n).peak Iff.rfl rfl rfl
  · intro s v
    simp only [board, Stats.addCpu]
    split_ifs <;> exact add_add_add_comm _ _ _ _

theorem attempted_mergeCpus (stats : PerCpu n Stats) :
    (mergeCpus stats).attempted = stats.total Stats.attempted := by
  refine PerCpu.foldl_merge_eq_total Stats.addCpu {} Stats.attempted rfl (fun s v => ?_) stats
  simp only [Stats.addCpu]
  split_ifs <;> rfl

theorem complete_books (entry : EntryData) (x : ExitArgs n) :
    (board n).Books ⟨x.now - entry.enterTs, entry.pid, x.comm⟩ 0
      fun st => st.complete entry (x.now - entry.enterTs) x := by
  refine ⟨fun _ => rfl, fun _ => rfl, fun st => ?_, fun _ => rfl⟩
  by_cases hlt : st.maxNs < x.now - entry.enterTs
  · refine Eq.trans ?_ (Peak.note_of_lt hlt).symm
    simp only [board, Stats.complete, if_pos hlt]
  · refine Eq.trans ?_ (Peak.note_of_not_lt hlt).symm
    simp only [board, Stats.complete, if_neg hlt]

variable {s : State n} {xs : List (Fin n × Peak UInt64 MaxFields)}

theorem tells_bump {f : Stats → Stats} (hf : (board n).Marks 0 f) (h : (board n).Tells {} xs s)
    (cpu : Fin n) : (board n).Tells {} xs (s.bump cpu f) :=
  h.ignore hf rfl rfl

theorem recordEntry_tells (h : (board n).Tells {} xs s) (pidTgid : UInt64) (a : EntryArgs n) :
    (board n).Tells {} xs (recordEntry pidTgid a s) := by
  have hattempt : (board n).Tells {} xs
      (s.bump a.cpu fun st => { st with attempted := st.attempted + 1 }) :=
    tells_bump (by constructor <;> exact fun _ => rfl) h _
  have hpath : (board n).Tells {} xs
      (if a.path.isNone then
        (s.bump a.cpu fun st => { st with attempted := st.attempted + 1 }).bump a.cpu
          fun st => { st with pathReadFailed := st.pathReadFailed + 1 }
      else if truncated a.path then
        (s.bump a.cpu fun st => { st with attempted := st.attempted + 1 }).bump a.cpu
          fun st => { st with pathTruncated := st.pathTruncated + 1 }
      else s.bump a.cpu fun st => { st with attempted := st.attempted + 1 }) := by
    refine .ite (fun _ => tells_bump ?_ hattempt _) fun _ =>
      .ite (fun _ => tells_bump ?_ hattempt _) fun _ => hattempt
    · constructor <;> exact fun _ => rfl
    · constructor <;> exact fun _ => rfl
  refine .ite (fun _ => tells_bump ?_ hpath _) fun _ => hpath.frame rfl rfl
  constructor <;> exact fun _ => rfl

theorem openatEntry_tells (h : (board n).Tells {} xs s) (c : Ctrl) (cur : Task)
    (a : EntryArgs n) : (board n).Tells {} xs (openatEntry c cur a s) := by
  refine .ite (fun _ => h) fun _ => .ite (fun _ => h) fun _ => ?_
  refine .ite (fun _ => tells_bump ?_ h _) fun _ => recordEntry_tells h _ a
  constructor <;> exact fun _ => rfl

theorem attempted_bump (s : State n) (cpu : Fin n) {f : Stats → Stats}
    (hf : ∀ st, (f st).attempted = st.attempted) :
    (s.bump cpu f).stats.total Stats.attempted = s.stats.total Stats.attempted :=
  (PerCpu.total_modify_add Stats.attempted s.stats cpu f ((hf _).trans (add_zero _).symm)).trans
    (add_zero _)

theorem attempted_recordEntry (pidTgid : UInt64) (a : EntryArgs n) (s : State n) :
    (recordEntry pidTgid a s).stats.total Stats.attempted = s.stats.total Stats.attempted + 1 := by
  simp only [recordEntry, State.bump]
  split_ifs <;> simp only [PerCpu.modify_modify] <;>
    exact PerCpu.total_modify_add Stats.attempted _ _ _ rfl

/-- What the exit probe and the panel rely on: the stored contexts are of selected processes,
and they and the calls that are over were attempted. -/
def Prepared (o : AppOptions) (xs : List (Fin n × Peak UInt64 MaxFields)) (s : State n) : Prop :=
  Attempted (fun _ entry => o.targetPid = 0 ∨ o.targetPid ∈ [entry.pid]) s.tidMap
    (s.stats.total Stats.attempted) xs

theorem prepared_start (o : AppOptions) (n : ℕ) : Prepared o [] (State.start n) := by
  have hzero : (State.start n).stats.total Stats.attempted = 0 :=
    PerCpu.total_const_zero _ _ rfl
  rw [Prepared, hzero]
  exact .start

theorem Prepared.bump (h : Prepared o xs s) (cpu : Fin n) {f : Stats → Stats}
    (hf : ∀ st, (f st).attempted = st.attempted) : Prepared o xs (s.bump cpu f) := by
  rw [Prepared, attempted_bump s cpu hf]
  exact h

theorem openatEntry_prepared (h : Prepared o xs s) (cur : Task) (a : EntryArgs n) :
    Prepared o xs (openatEntry (ctrlOf o w) cur a s) := by
  simp only [openatEntry]
  split_ifs with hen hzero hpid
  · exact h
  · exact h
  · exact h.bump a.cpu (by exact fun _ => rfl)
  · refine .attempt ?_ (attempted_recordEntry _ _ _)
    have hnew : o.targetPid = 0 ∨ o.targetPid ∈
        [(entryData (appCurrentPidTgidNs cur w.pidNsDev w.pidNsIno) a).pid] := target_eq hpid
    simp only [recordEntry]
    split_ifs
    · exact h.contexts
    · exact h.contexts
    · exact h.contexts
    · exact h.contexts.update hnew
    · exact h.contexts.update hnew
    · exact h.contexts.update hnew

/-- A call that is over is booked, whatever becomes of its event. That its process is looked
at once more makes no difference. -/
theorem openatExit_tells (h : (board n).Tells {} xs s) (hs : Prepared o xs s) (cur : Task)
    (x : ExitArgs n) :
    (board n).Tells {} (xs ++ (finished (ctrlOf o w) s (.leave cur x)).toList)
        (openatExit (ctrlOf o w) cur x s) ∧
      Prepared o (xs ++ (finished (ctrlOf o w) s (.leave cur x)).toList)
        (openatExit (ctrlOf o w) cur x s) := by
  simp only [openatExit, finished]
  generalize appCurrentPidTgidNs cur (ctrlOf o w).pidNsDev (ctrlOf o w).pidNsIno = pidTgid
  by_cases hzero : pidTgid = 0
  · rw [if_pos hzero, if_pos (Or.inl hzero), Option.toList_none, List.append_nil]
    exact ⟨h, hs⟩
  rw [if_neg hzero]
  cases hentry : s.tidMap.get (tidOf pidTgid) with
  | none =>
      simp only [Option.map_none, ite_self, Option.toList_none, List.append_nil]
      split_ifs
      · refine ⟨tells_bump ?_ h _, ?_⟩
        · constructor <;> exact fun _ => rfl
        · exact hs.bump x.cpu (by exact fun _ => rfl)
      · exact ⟨h, hs⟩
  | some entry =>
      dsimp only
      by_cases hen : (ctrlOf o w).enable = false
      · rw [if_pos hen, if_pos (Or.inr hen), Option.toList_none, List.append_nil]
        exact ⟨h.frame rfl rfl, hs.delete _⟩
      · rw [if_neg hen, if_neg (not_or.mpr ⟨hzero, hen⟩)]
        have hpid : ¬((ctrlOf o w).targetPid ≠ 0 ∧ entry.pid ≠ (ctrlOf o w).targetPid) := by
          rintro ⟨hne, hpid⟩
          have hmem := (hs.contexts _ _ hentry).resolve_left hne
          exact hpid (List.mem_singleton.mp hmem).symm
        have hbooks := complete_books entry x
        simp only [finish, if_neg hpid, Option.map_some, Option.toList_some]
        have hdone : ∀ f : Stats → Stats, (∀ st, (f st).attempted = st.attempted) →
            Attempted (fun _ entry => o.targetPid = 0 ∨ o.targetPid ∈ [entry.pid])
              (s.tidMap.delete (tidOf pidTgid))
              (PerCpu.total Stats.attempted (((s.stats.modify x.cpu fun st =>
                st.complete entry (x.now - entry.enterTs) x)).modify x.cpu f))
              (xs ++ [(x.cpu, ⟨x.now - entry.enterTs, entry.pid, x.comm⟩)]) := by
          intro f hf
          exact ((hs.bump x.cpu (by exact fun _ => rfl)).bump x.cpu hf).finish hentry _
        split_ifs
        · refine ⟨h.withhold hbooks ?_ rfl rfl, hdone _ (by exact fun _ => rfl)⟩
          exact ⟨fun _ => rfl, fun _ => rfl, fun _ => rfl, fun _ => Nat.add_right_comm _ _ _⟩
        · refine ⟨h.withhold hbooks ?_ rfl rfl, hdone _ (by exact fun _ => rfl)⟩
          exact ⟨fun _ => rfl, fun _ => rfl, fun _ => rfl, fun _ => rfl⟩
        · refine ⟨h.report_marked hbooks ?_ rfl rfl rfl, hdone _ (by exact fun _ => rfl)⟩
          constructor <;> exact fun _ => rfl

theorem tells_run (ls : List (asMonitor o w).Label) :
    (board w.cpus).Tells {} ((asMonitor o w).machine.collect (finished (ctrlOf o w)) ls)
        ((asMonitor o w).machine.run ls) ∧
      Prepared o ((asMonitor o w).machine.collect (finished (ctrlOf o w)) ls)
        ((asMonitor o w).machine.run ls) := by
  refine Machine.collect_invariant (finished (ctrlOf o w))
    (R := fun xs s => (board w.cpus).Tells {} xs s ∧ Prepared o xs s) ?_ ?_ ls
  · exact ⟨.start blank rfl rfl, prepared_start o w.cpus⟩
  · rintro xs s l ⟨h, hs⟩
    cases l with
    | enter cur a =>
        rw [show finished (ctrlOf o w) s (.enter cur a) = none from rfl, Option.toList_none,
          List.append_nil]
        exact ⟨openatEntry_tells h _ cur a, openatEntry_prepared hs cur a⟩
    | leave cur x => exact openatExit_tells h hs cur x
    | evict k =>
        rw [show finished (ctrlOf o w) s (.evict k) = none from rfl, Option.toList_none,
          List.append_nil]
        exact ⟨h.frame rfl rfl, hs.delete k⟩

theorem panel_run (ls : List (asMonitor o w).Label) :
    let s := (asMonitor o w).machine.run ls
    (board w.cpus).Shows (((asMonitor o w).machine.collect (finished (ctrlOf o w)) ls).map Prod.snd)
      (State.rb s) (printStats (State.stats s)) := by
  intro s
  obtain ⟨h, hs⟩ := tells_run (o := o) (w := w) ls
  refine (h.merged blank addCpu_merges).shows ?_
  rintro ⟨hattempted, -⟩
  rw [attempted_mergeCpus] at hattempted
  rw [(hs.first hattempted).2, List.map_nil]

end Fs.Open

/-! ## fs/read and fs/write -/

namespace Fs.ReadWrite

variable {n : ℕ} {o : AppOptions} {w : Setting}

/-- The fields that go with the longest call. -/
structure MaxFields where
  pid : Int32
  comm : Comm

def board (n : ℕ) : Board n (State n) Stats Event MaxFields where
  stats := State.stats
  rb := State.rb
  count := Stats.completed
  total := Stats.totalNs
  peak st := ⟨st.maxNs, st.maxPid, st.maxComm⟩
  withheld st := st.filteredDelay + st.ringbufDropped
  call e := ⟨e.latencyNs, e.pid, e.comm⟩

/-- The call that a probe sees the end of. -/
def finished (c : Ctrl) (s : State n) :
    CallLabel Task (EntryArgs n) (ExitArgs n) UInt32 → Option (Fin n × Peak UInt64 MaxFields)
  | .leave cur x =>
      if c.enable = false then none
      else (s.inflight.get (tidOf cur.pidTgid)).map fun data =>
        (x.cpu, ⟨x.now - data.enterTs, data.pid, data.comm⟩)
  | _ => none

/-- The body of the loop over the CPUs. -/
def Stats.addCpu (s v : Stats) : Stats :=
  let s : Stats :=
    { s with
      attempted := s.attempted + v.attempted
      completed := s.completed + v.completed
      submitted := s.submitted + v.submitted
      failed := s.failed + v.failed
      filteredPid := s.filteredPid + v.filteredPid
      filteredSelf := s.filteredSelf + v.filteredSelf
      filteredDelay := s.filteredDelay + v.filteredDelay
      ringbufDropped := s.ringbufDropped + v.ringbufDropped
      mapUpdateFailed := s.mapUpdateFailed + v.mapUpdateFailed
      lookupMissed := s.lookupMissed + v.lookupMissed
      pathLookupFailed := s.pathLookupFailed + v.pathLookupFailed
      totalNs := s.totalNs + v.totalNs }
  if s.maxNs < v.maxNs then
    { s with maxNs := v.maxNs, maxPid := v.maxPid, maxComm := v.maxComm }
  else s

def mergeCpus (stats : PerCpu n Stats) : Stats :=
  (List.finRange n).foldl (fun s cpu => s.addCpu (stats cpu)) {}

/-- `print_stats`. -/
def printStats (stats : PerCpu n Stats) : Option Stats :=
  let s := mergeCpus stats
  if s.attempted = 0 ∧ s.filteredPid = 0 then none else some s

theorem blank : (board n).Blank {} := ⟨rfl, rfl, rfl, rfl⟩

theorem addCpu_merges : (board n).Merges Stats.addCpu := by
  constructor
  · intro s v
    simp only [board, Stats.addCpu]
    split_ifs <;> rfl
  · intro s v
    simp only [board, Stats.addCpu]
    split_ifs <;> rfl
  · exact fun s v => Peak.note_ite (board n).peak Iff.rfl rfl rfl
  · intro s v
    simp only [board, Stats.addCpu]
    split_ifs <;> exact add_add_add_comm _ _ _ _

theorem attempted_mergeCpus (stats : PerCpu n Stats) :
    (mergeCpus stats).attempted = stats.total Stats.attempted := by
  refine PerCpu.foldl_merge_eq_total Stats.addCpu {} Stats.attempted rfl (fun s v => ?_) stats
  simp only [Stats.addCpu]
  split_ifs <;> rfl

theorem complete_books (data : EntryData) (latencyNs : UInt64) (ret : Int64) :
    (board n).Books ⟨latencyNs, data.pid, data.comm⟩ 0
      fun st => st.complete data latencyNs ret := by
  refine ⟨fun _ => rfl, fun _ => rfl, fun st => ?_, fun _ => rfl⟩
  by_cases hlt : st.maxNs < latencyNs
  · refine Eq.trans ?_ (Peak.note_of_lt hlt).symm
    simp only [board, Stats.complete, if_pos hlt]
  · refine Eq.trans ?_ (Peak.note_of_not_lt hlt).symm
    simp only [board, Stats.complete, if_neg hlt]

variable {s : State n} {xs : List (Fin n × Peak UInt64 MaxFields)}

theorem tells_bump {f : Stats → Stats} (hf : (board n).Marks 0 f) (h : (board n).Tells {} xs s)
    (cpu : Fin n) : (board n).Tells {} xs (s.bump cpu f) :=
  h.ignore hf rfl rfl

theorem recordEntry_tells (h : (board n).Tells {} xs s) (cur : Task) (data : EntryData)
    (a : EntryArgs n) : (board n).Tells {} xs (recordEntry cur data a s) := by
  have hattempt : (board n).Tells {} xs
      (s.bump a.cpu fun st => { st with attempted := st.attempted + 1 }) :=
    tells_bump (by constructor <;> exact fun _ => rfl) h _
  have hmissed : (board n).Tells {} xs
      ((s.bump a.cpu fun st => { st with attempted := st.attempted + 1 }).bump a.cpu
        fun st => { st with pathLookupFailed := st.pathLookupFailed + 1 }) :=
    tells_bump (by constructor <;> exact fun _ => rfl) hattempt _
  simp only [recordEntry]
  split_ifs
  · exact tells_bump (by constructor <;> exact fun _ => rfl) hmissed _
  · exact tells_bump (by constructor <;> exact fun _ => rfl) hattempt _
  · exact hmissed.frame rfl rfl
  · exact hattempt.frame rfl rfl

theorem entry_tells (h : (board n).Tells {} xs s) (c : Ctrl) (cur : Task) (a : EntryArgs n) :
    (board n).Tells {} xs (entry c cur a s) := by
  refine .ite (fun _ => h) fun _ => .ite (fun _ => h) fun _ => ?_
  refine .ite (fun _ => tells_bump ?_ h _) fun _ => .ite (fun _ => tells_bump ?_ h _) fun _ => ?_
  · constructor <;> exact fun _ => rfl
  · constructor <;> exact fun _ => rfl
  · exact recordEntry_tells h cur _ a

theorem attempted_bump (s : State n) (cpu : Fin n) {f : Stats → Stats}
    (hf : ∀ st, (f st).attempted = st.attempted) :
    (s.bump cpu f).stats.total Stats.attempted = s.stats.total Stats.attempted :=
  (PerCpu.total_modify_add Stats.attempted s.stats cpu f ((hf _).trans (add_zero _).symm)).trans
    (add_zero _)

theorem attempted_recordEntry (cur : Task) (data : EntryData) (a : EntryArgs n) (s : State n) :
    (recordEntry cur data a s).stats.total Stats.attempted = s.stats.total Stats.attempted + 1 := by
  simp only [recordEntry, State.bump]
  split_ifs <;> simp only [PerCpu.modify_modify] <;>
    exact PerCpu.total_modify_add Stats.attempted _ _ _ rfl

/-- The contexts and the calls that are over were attempted. -/
def Prepared (xs : List (Fin n × Peak UInt64 MaxFields)) (s : State n) : Prop :=
  Attempted (fun _ _ => True) s.inflight (s.stats.total Stats.attempted) xs

theorem prepared_start (n : ℕ) : Prepared [] (State.start n) := by
  have hzero : (State.start n).stats.total Stats.attempted = 0 :=
    PerCpu.total_const_zero _ _ rfl
  rw [Prepared, hzero]
  exact .start

theorem Prepared.bump (h : Prepared xs s) (cpu : Fin n) {f : Stats → Stats}
    (hf : ∀ st, (f st).attempted = st.attempted) : Prepared xs (s.bump cpu f) := by
  rw [Prepared, attempted_bump s cpu hf]
  exact h

theorem entry_prepared (h : Prepared xs s) (c : Ctrl) (cur : Task) (a : EntryArgs n) :
    Prepared xs (entry c cur a s) := by
  simp only [entry]
  split_ifs
  · exact h
  · exact h
  · exact h.bump a.cpu (by exact fun _ => rfl)
  · exact h.bump a.cpu (by exact fun _ => rfl)
  · exact .attempt (fun _ _ _ => trivial) (attempted_recordEntry _ _ _ _)

/-- A call that is over is booked, whatever becomes of its event. -/
theorem exit_tells (h : (board n).Tells {} xs s) (hs : Prepared xs s) (c : Ctrl) (cur : Task)
    (x : ExitArgs n) :
    (board n).Tells {} (xs ++ (finished c s (.leave cur x)).toList) (exit c cur x s) ∧
      Prepared (xs ++ (finished c s (.leave cur x)).toList) (exit c cur x s) := by
  simp only [exit, finished]
  cases hdata : s.inflight.get (tidOf cur.pidTgid) with
  | none =>
      simp only [Option.map_none, ite_self, Option.toList_none, List.append_nil]
      split_ifs
      · exact ⟨h, hs⟩
      · refine ⟨tells_bump ?_ h _, hs.bump x.cpu (by exact fun _ => rfl)⟩
        constructor <;> exact fun _ => rfl
      · exact ⟨h, hs⟩
  | some data =>
      dsimp only
      by_cases hen : c.enable = false
      · rw [if_pos hen, if_pos hen, Option.toList_none, List.append_nil]
        exact ⟨h.frame rfl rfl, hs.delete _⟩
      · rw [if_neg hen, if_neg hen]
        have hbooks := complete_books (n := n) data (x.now - data.enterTs) x.ret
        have hdone : ∀ f : Stats → Stats, (∀ st, (f st).attempted = st.attempted) →
            Attempted (fun _ _ => True) (s.inflight.delete (tidOf cur.pidTgid))
              (PerCpu.total Stats.attempted ((s.stats.modify x.cpu fun st =>
                st.complete data (x.now - data.enterTs) x.ret).modify x.cpu f))
              (xs ++ [(x.cpu, (⟨x.now - data.enterTs, data.pid, data.comm⟩ :
                Peak UInt64 MaxFields))]) := by
          intro f hf
          exact ((hs.bump x.cpu (by exact fun _ => rfl)).bump x.cpu hf).finish hdata _
        simp only [finish, Option.map_some, Option.toList_some]
        split_ifs
        · refine ⟨h.withhold hbooks ?_ rfl rfl, hdone _ (by exact fun _ => rfl)⟩
          exact ⟨fun _ => rfl, fun _ => rfl, fun _ => rfl, fun _ => Nat.add_right_comm _ _ _⟩
        · refine ⟨h.withhold hbooks ?_ rfl rfl, hdone _ (by exact fun _ => rfl)⟩
          exact ⟨fun _ => rfl, fun _ => rfl, fun _ => rfl, fun _ => rfl⟩
        · refine ⟨h.report_marked hbooks ?_ rfl rfl rfl, hdone _ (by exact fun _ => rfl)⟩
          constructor <;> exact fun _ => rfl

theorem tells_run (ls : List (asMonitor o w).Label) :
    (board w.cpus).Tells {} ((asMonitor o w).machine.collect (finished (ctrlOf o w)) ls)
        ((asMonitor o w).machine.run ls) ∧
      Prepared ((asMonitor o w).machine.collect (finished (ctrlOf o w)) ls)
        ((asMonitor o w).machine.run ls) := by
  refine Machine.collect_invariant (finished (ctrlOf o w))
    (R := fun xs s => (board w.cpus).Tells {} xs s ∧ Prepared xs s) ?_ ?_ ls
  · exact ⟨.start blank rfl rfl, prepared_start w.cpus⟩
  · rintro xs s l ⟨h, hs⟩
    cases l with
    | enter cur a =>
        rw [show finished (ctrlOf o w) s (.enter cur a) = none from rfl, Option.toList_none,
          List.append_nil]
        exact ⟨entry_tells h _ cur a, entry_prepared hs _ cur a⟩
    | leave cur x => exact exit_tells h hs _ cur x
    | evict k =>
        rw [show finished (ctrlOf o w) s (.evict k) = none from rfl, Option.toList_none,
          List.append_nil]
        exact ⟨h.frame rfl rfl, hs.delete k⟩

theorem panel_run (ls : List (asMonitor o w).Label) :
    let s := (asMonitor o w).machine.run ls
    (board w.cpus).Shows (((asMonitor o w).machine.collect (finished (ctrlOf o w)) ls).map Prod.snd)
      (State.rb s) (printStats (State.stats s)) := by
  intro s
  obtain ⟨h, hs⟩ := tells_run (o := o) (w := w) ls
  refine (h.merged blank addCpu_merges).shows ?_
  rintro ⟨hattempted, -⟩
  rw [attempted_mergeCpus] at hattempted
  rw [(hs.first hattempted).2, List.map_nil]

end Fs.ReadWrite

/-! ## All of them -/

/-- **The panels tell what happened.** For all options and every run of the probes: a module
that prints no panel has measured no call, and what a panel prints are the number of the
calls, the sum and the largest of their times and the fields of a call that took so long. For
`mutexlock` and `context_switch` the calls are the events; for the others they are the calls
that ended with a context, and the events are some of them, less those that the panel counts as
filtered or dropped. -/
theorem panels_tell_the_run (o : AppOptions) (w : Setting) :
    (∀ ls, let s := (Lock.Mutexlock.asMonitor o w).machine.run ls
      (Lock.Mutexlock.board w.cpus).Shows
        ((Lock.Mutexlock.State.rb s).map (Lock.Mutexlock.board w.cpus).call)
        (Lock.Mutexlock.State.rb s) (Lock.Mutexlock.printStats (Lock.Mutexlock.State.stats s))) ∧
    (∀ ls, let s := (Sched.ContextSwitch.asMonitor o w).machine.run ls
      (Sched.ContextSwitch.board w.cpus).Shows
        ((Sched.ContextSwitch.State.rb s).map (Sched.ContextSwitch.board w.cpus).call)
        (Sched.ContextSwitch.State.rb s)
        (Sched.ContextSwitch.printStats (Sched.ContextSwitch.State.stats s))) ∧
    (∀ ls, let M := (Mem.DrSnoop.asMonitor o w).machine
      (Mem.DrSnoop.board w.cpus).Shows
        ((M.collect (Mem.DrSnoop.finished (Mem.DrSnoop.ctrlOf o w)) ls).map Prod.snd)
        (Mem.DrSnoop.State.rb (M.run ls))
        (Mem.DrSnoop.printStats (Mem.DrSnoop.State.stats (M.run ls)))) ∧
    (∀ ls, let M := (Fs.Open.asMonitor o w).machine
      (Fs.Open.board w.cpus).Shows
        ((M.collect (Fs.Open.finished (Fs.Open.ctrlOf o w)) ls).map Prod.snd)
        (Fs.Open.State.rb (M.run ls)) (Fs.Open.printStats (Fs.Open.State.stats (M.run ls)))) ∧
    (∀ ls, let M := (Fs.ReadWrite.asMonitor o w).machine
      (Fs.ReadWrite.board w.cpus).Shows
        ((M.collect (Fs.ReadWrite.finished (Fs.ReadWrite.ctrlOf o w)) ls).map Prod.snd)
        (Fs.ReadWrite.State.rb (M.run ls))
        (Fs.ReadWrite.printStats (Fs.ReadWrite.State.stats (M.run ls)))) := by
  refine ⟨?_, ?_, ?_, ?_, ?_⟩
  · exact fun ls => Lock.Mutexlock.panel_run ls
  · exact fun ls => Sched.ContextSwitch.panel_run ls
  · exact fun ls => Mem.DrSnoop.panel_run ls
  · exact fun ls => Fs.Open.panel_run ls
  · exact fun ls => Fs.ReadWrite.panel_run ls

end EbpfToolbox
