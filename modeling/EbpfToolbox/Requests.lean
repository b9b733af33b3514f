import EbpfToolbox.Common.Options
import EbpfToolbox.Fs.BlockIo
import EbpfToolbox.Fs.Open
import EbpfToolbox.Fs.ReadWrite
import EbpfToolbox.Ipc.Provenance
import EbpfToolbox.Lock.Mutexlock
import EbpfToolbox.Mem.DrSnoop
import EbpfToolbox.Mem.OomKiller
import EbpfToolbox.Net.TcpStories
import EbpfToolbox.Sched.ContextSwitch
import EbpfToolbox.Sched.Preempt
import EbpfToolbox.Syscall.Syscall
import EbpfToolbox.Threshold

/-!
# What the user asks for and what the events are about

From the command line to the ring buffer. `app_parse_args` makes the options, `main` hands
them to the modules it starts, the `run` function of a module writes them into its control
map before it attaches a probe, and the probes filter by what they read there. `-p` names a
process and `-d` a least delay; `-e 0` switches collection off. `oom_killer` takes all three
and heeds only `-e`, and `tcp_monitor` compares only handshakes with `-d`.

For every module with a ring buffer there is a `Monitor`: all its probes, in any order, with
the settings that its `run` function makes of the options. Where a probe relies on what an
earlier one stored, `wanted_run` asks for the invariant of the map.
-/

namespace EbpfToolbox

open Common Lib Lib.CString

/-- What a module finds when it is started: the CPUs, the threads whose probes may overlap,
the PID namespace and its own PID. -/
structure Setting where
  cpus : ℕ
  threads : ℕ
  pidNsDev : UInt64
  pidNsIno : UInt64
  selfPid : Int32

/-- A module with the settings written. `pids` are the numbers that `-p` is compared with,
`delay` is compared with `-d`, and `own` must not be the tool itself; `none` when the module
does not look, which is `Filters` below. -/
structure Monitor where
  State : Type
  Label : Type
  Event : Type
  machine : Machine State Label
  rb : State → List Event
  pids : Event → Option (List Int32)
  delay : Event → Option UInt64
  own : Event → Option Int32 := fun _ => none

/-- An event passes the filters that are there, by the options. -/
structure Wanted (o : AppOptions) (w : Setting) (pids : Option (List Int32))
    (delay : Option UInt64) (own : Option Int32) : Prop where
  enabled : o.enable = true
  selected : ∀ l ∈ pids, o.targetPid = 0 ∨ o.targetPid ∈ l
  long : ∀ d ∈ delay, o.minDelayNs ≤ d
  foreign : ∀ p ∈ own, ¬(w.selfPid ≠ 0 ∧ w.selfPid = p)

variable {o : AppOptions} {w : Setting}

theorem Wanted.mk_one {pids : List Int32} {d : UInt64} (hen : o.enable = true)
    (hpid : o.targetPid = 0 ∨ o.targetPid ∈ pids) (hdelay : o.minDelayNs ≤ d) :
    Wanted o w (some pids) (some d) none where
  enabled := hen
  selected l hl := by
    obtain rfl : pids = l := by simpa using hl
    exact hpid
  long d' hd := by
    obtain rfl : d = d' := by simpa using hd
    exact hdelay
  foreign := by simp

/-- A step from a state with the ring buffer `rb` ends in `s`: the invariant `J` holds there,
and at most one event was added, which is `P`. -/
structure Keeps {S E : Type} (J : S → Prop) (f : S → List E) (P : E → Prop) (rb : List E) (s : S) :
    Prop where
  invariant : J s
  adds : f s = rb ∨ ∃ e, P e ∧ f s = rb ++ [e]

section Keeps

variable {S E : Type} {J : S → Prop} {f : S → List E} {P : E → Prop} {rb : List E} {s s' : S}

theorem Keeps.quiet (hJ : J s) (h : f s = rb) : Keeps J f P rb s := ⟨hJ, .inl h⟩

theorem Keeps.event (hJ : J s) (e : E) (he : P e) (h : f s = rb ++ [e]) : Keeps J f P rb s :=
  ⟨hJ, .inr ⟨e, he, h⟩⟩

theorem Keeps.ite {c : Prop} [Decidable c] (hs : c → Keeps J f P rb s)
    (hs' : ¬c → Keeps J f P rb s') : Keeps J f P rb (if c then s else s') := by
  split_ifs with hc
  · exact hs hc
  · exact hs' hc

theorem Keeps.option (hJ : J s) (e : Option E) (he : ∀ e' ∈ e, P e') (h : f s = rb ++ e.toList) :
    Keeps J f P rb s := by
  cases e with
  | none => exact .quiet hJ (by simpa using h)
  | some e => exact .event hJ e (he e rfl) h

theorem Keeps.mem (h : Keeps J f P rb s) (hrb : ∀ e ∈ rb, P e) : ∀ e ∈ f s, P e := by
  rcases h.adds with hs | ⟨e, he, hs⟩
  · rwa [hs]
  · intro e' he'
    rw [hs] at he'
    rcases List.mem_append.mp he' with he' | he'
    · exact hrb e' he'
    · rwa [List.mem_singleton.mp he']

end Keeps

/-- The event has passed the filters that the module has. -/
def Monitor.Reports (M : Monitor) (o : AppOptions) (w : Setting) (e : M.Event) : Prop :=
  Wanted o w (M.pids e) (M.delay e) (M.own e)

/-- The rule for a module whose maps keep the invariant `J`. -/
theorem Monitor.wanted_run {M : Monitor} (J : M.State → Prop)
    (h0 : J M.machine.init) (hrb : M.rb M.machine.init = [])
    (hstep : ∀ s l, J s → Keeps J M.rb (fun e => M.Reports o w e) (M.rb s)
      (M.machine.step s l)) (ls : List M.Label) :
    ∀ e ∈ M.rb (M.machine.run ls), M.Reports o w e := by
  have hrun : J (M.machine.run ls) ∧
      ∀ e ∈ M.rb (M.machine.run ls), M.Reports o w e := by
    refine Machine.invariant_of_any
      (I := fun s => J s ∧ ∀ e ∈ M.rb s, M.Reports o w e) ?_ ?_ ls
    · refine ⟨h0, ?_⟩
      rw [hrb]
      exact fun e he => (List.not_mem_nil he).elim
    · rintro s l ⟨hJ, hs⟩
      exact ⟨(hstep s l hJ).invariant, (hstep s l hJ).mem hs⟩
  exact hrun.2

/-- The test of a threshold that zero switches off. -/
theorem threshold_le {m d : UInt64} (h : ¬(m ≠ 0 ∧ d < m)) : m ≤ d := by
  by_cases hm : m = 0
  · rw [hm]
    exact UInt64.zero_le
  · exact UInt64.not_lt.mp fun hlt => h ⟨hm, hlt⟩

theorem target_eq {t p : Int32} (h : ¬(t ≠ 0 ∧ p ≠ t)) : t = 0 ∨ t ∈ [p] := by
  by_cases ht : t = 0
  · exact Or.inl ht
  · right
    by_contra hp
    exact h ⟨ht, fun heq => hp (by simp [heq])⟩

/-- The kernel compares unsigned numbers. -/
theorem target_eq_tgid {t : Int32} {tgid : UInt32} :
    t.toUInt32 = tgid ↔ t ∈ [tgid.toInt32] := by
  rw [List.mem_singleton]
  constructor
  · intro h
    rw [← h, Int32.toInt32_toUInt32]
  · intro h
    rw [h, UInt32.toUInt32_toInt32]

/-! ## fs/open -/

namespace Fs.Open

variable {n : ℕ}

/-- `open_run`. -/
def ctrlOf (o : AppOptions) (w : Setting) : Ctrl where
  enable := o.enable
  minDelayNs := o.minDelayNs
  targetPid := o.targetPid
  pidNsDev := w.pidNsDev
  pidNsIno := w.pidNsIno

def anyProbe (c : Ctrl) (s : State n) : CallLabel Task (EntryArgs n) (ExitArgs n) UInt32 → State n
  | .enter cur a => openatEntry c cur a s
  | .leave cur x => openatExit c cur x s
  | .evict k => { s with tidMap := s.tidMap.delete k }

def asMonitor (o : AppOptions) (w : Setting) : Monitor where
  State := State w.cpus
  Label := CallLabel Task (EntryArgs w.cpus) (ExitArgs w.cpus) UInt32
  Event := Event
  machine := ⟨State.start w.cpus, anyProbe (ctrlOf o w), fun _ _ => True⟩
  rb := State.rb
  pids e := some [e.pid]
  delay e := some e.latencyNs

theorem recordEntry_rb (pidTgid : UInt64) (a : EntryArgs n) (s : State n) :
    (recordEntry pidTgid a s).rb = s.rb := by
  simp only [recordEntry]
  split_ifs <;> rfl

/-- The exit probe looks at the process again. -/
theorem anyProbe_keeps (s : State n) (l : CallLabel Task (EntryArgs n) (ExitArgs n) UInt32) :
    Keeps (fun _ => True) State.rb (fun e => Wanted o w (some [e.pid]) (some e.latencyNs) none) s.rb
      (anyProbe (ctrlOf o w) s l) := by
  cases l with
  | enter cur a =>
      refine .ite (fun _ => .quiet trivial rfl) fun _ => .ite (fun _ => .quiet trivial rfl) ?_
      refine fun _ => .ite (fun _ => .quiet trivial rfl) fun _ => .quiet trivial ?_
      exact recordEntry_rb _ _ _
  | leave cur x =>
      refine .ite (fun _ => .quiet trivial rfl) fun _ => ?_
      cases s.tidMap.get _ with
      | none => exact .ite (fun _ => .quiet trivial rfl) fun _ => .quiet trivial rfl
      | some entry =>
          refine .ite (fun _ => .quiet trivial rfl) fun hen => ?_
          refine .ite (fun _ => .quiet trivial rfl) fun hpid => ?_
          refine .ite (fun _ => .quiet trivial rfl) fun hdelay => ?_
          refine .ite (fun _ => .quiet trivial rfl) fun _ => ?_
          refine .event trivial (mkEvent entry x) ?_ rfl
          exact .mk_one (Bool.of_not_eq_false hen) (target_eq hpid) (threshold_le hdelay)
  | evict k => exact .quiet trivial rfl

theorem wanted (ls : List (asMonitor o w).Label) :
    ∀ e ∈ (asMonitor o w).rb ((asMonitor o w).machine.run ls), (asMonitor o w).Reports o w e :=
  Monitor.wanted_run (fun _ => True) trivial rfl (fun s l _ => anyProbe_keeps s l) ls

end Fs.Open

/-! ## fs/read and fs/write -/

namespace Fs.ReadWrite

variable {n : ℕ}

/-- `read_run`, `write_run`. -/
def ctrlOf (o : AppOptions) (w : Setting) : Ctrl where
  enable := o.enable
  minDelayNs := o.minDelayNs
  targetPid := o.targetPid
  selfPid := w.selfPid
  pidNsDev := w.pidNsDev
  pidNsIno := w.pidNsIno

def anyProbe (c : Ctrl) (s : State n) : CallLabel Task (EntryArgs n) (ExitArgs n) UInt32 → State n
  | .enter cur a => entry c cur a s
  | .leave cur x => exit c cur x s
  | .evict k => { s with inflight := s.inflight.delete k }

def asMonitor (o : AppOptions) (w : Setting) : Monitor where
  State := State w.cpus
  Label := CallLabel Task (EntryArgs w.cpus) (ExitArgs w.cpus) UInt32
  Event := Event
  machine := ⟨State.start w.cpus, anyProbe (ctrlOf o w), fun _ _ => True⟩
  rb := State.rb
  pids e := some [e.pid]
  delay e := some e.latencyNs
  own e := some e.pid

/-- The process of a context that may be stored. -/
def SelectedPid (o : AppOptions) (w : Setting) (pid : Int32) : Prop :=
  (o.targetPid = 0 ∨ o.targetPid ∈ [pid]) ∧ ¬(w.selfPid ≠ 0 ∧ w.selfPid = pid)

/-- Only the entry probe looks at the process. -/
def Selected (o : AppOptions) (w : Setting) (s : State n) : Prop :=
  s.inflight.Holds fun _ data => SelectedPid o w data.pid

theorem recordEntry_rb (cur : Task) (data : EntryData) (a : EntryArgs n) (s : State n) :
    (recordEntry cur data a s).rb = s.rb := by
  simp only [recordEntry]
  split_ifs <;> rfl

theorem recordEntry_selected {s : State n} (h : Selected o w s) (cur : Task) {data : EntryData}
    (hdata : SelectedPid o w data.pid) (a : EntryArgs n) :
    Selected o w (recordEntry cur data a s) := by
  simp only [recordEntry]
  split_ifs
  · exact h
  · exact h
  · exact h.update hdata
  · exact h.update hdata

theorem anyProbe_keeps {s : State n} (h : Selected o w s)
    (l : CallLabel Task (EntryArgs n) (ExitArgs n) UInt32) :
    Keeps (Selected o w) State.rb
      (fun e => Wanted o w (some [e.pid]) (some e.latencyNs) (some e.pid)) s.rb
      (anyProbe (ctrlOf o w) s l) := by
  cases l with
  | enter cur a =>
      refine .ite (fun _ => .quiet h rfl) fun _ => .ite (fun _ => .quiet h rfl) fun _ => ?_
      refine .ite (fun _ => .quiet h rfl) fun hself => .ite (fun _ => .quiet h rfl) fun hpid => ?_
      refine .quiet (recordEntry_selected h _ ⟨?_, hself⟩ _) (recordEntry_rb _ _ _ _)
      exact target_eq fun hne => hpid ⟨hne.1, hne.2.symm⟩
  | leave cur x =>
      simp only [anyProbe, exit]
      cases hdata : s.inflight.get _ with
      | none =>
          refine .ite (fun _ => .quiet h rfl) fun _ => ?_
          exact .ite (fun _ => .quiet h rfl) fun _ => .quiet h rfl
      | some data =>
          have hpid : SelectedPid o w data.pid := h _ _ hdata
          have hdelete : Selected o w { s with inflight := s.inflight.delete (tidOf cur.pidTgid) } :=
            h.delete _
          refine .ite (fun _ => .quiet hdelete rfl) fun hen => ?_
          refine .ite (fun _ => .quiet hdelete rfl) fun hdelay => ?_
          refine .ite (fun _ => .quiet hdelete rfl) fun _ => ?_
          have hone : Wanted o w (some [data.pid]) (some (x.now - data.enterTs)) none :=
            .mk_one (Bool.of_not_eq_false hen) hpid.1 (threshold_le hdelay)
          refine .event hdelete (mkEvent data x) { hone with foreign := fun p hp => ?_ } rfl
          obtain rfl : data.pid = p := Option.some.inj hp
          exact hpid.2
  | evict k => exact .quiet (h.delete k) rfl

theorem wanted (ls : List (asMonitor o w).Label) :
    ∀ e ∈ (asMonitor o w).rb ((asMonitor o w).machine.run ls), (asMonitor o w).Reports o w e :=
  Monitor.wanted_run (Selected o w) BpfMap.holds_empty rfl (fun _ l h => anyProbe_keeps h l) ls

end Fs.ReadWrite

/-! ## lock/mutexlock -/

namespace Lock.Mutexlock

variable {n : ℕ}

/-- `mutexlock_run`. -/
def ctrlOf (o : AppOptions) (w : Setting) : Ctrl where
  enable := o.enable
  minDelayNs := o.minDelayNs
  targetPid := o.targetPid
  pidNsDev := w.pidNsDev
  pidNsIno := w.pidNsIno

def anyProbe (c : Ctrl) (s : State n) : CallLabel Task (EntryArgs n) (ExitArgs n) UInt64 → State n
  | .enter cur a => mutexSlowpathEntry c cur a s
  | .leave cur x => mutexSlowpathExit c cur x s
  | .evict k => { s with contentionMap := s.contentionMap.delete k }

def asMonitor (o : AppOptions) (w : Setting) : Monitor where
  State := State w.cpus
  Label := CallLabel Task (EntryArgs w.cpus) (ExitArgs w.cpus) UInt64
  Event := Event
  machine := ⟨State.start w.cpus, anyProbe (ctrlOf o w), fun _ _ => True⟩
  rb := State.rb
  pids e := some [e.contenderTgid]
  delay e := some e.contentionNs

theorem recordEntry_rb (c : Ctrl) (pidTgid : UInt64) (a : EntryArgs n) (s : State n) :
    (recordEntry c pidTgid a s).rb = s.rb := by
  simp only [recordEntry]
  split_ifs <;> rfl

/-- Only the contender is compared with `-p`; the owner of the lock may be anyone. -/
theorem anyProbe_keeps (s : State n) (l : CallLabel Task (EntryArgs n) (ExitArgs n) UInt64) :
    Keeps (fun _ => True) State.rb
      (fun e => Wanted o w (some [e.contenderTgid]) (some e.contentionNs) none) s.rb
      (anyProbe (ctrlOf o w) s l) := by
  cases l with
  | enter cur a =>
      refine .ite (fun _ => .quiet trivial rfl) fun _ => .ite (fun _ => .quiet trivial rfl) ?_
      refine fun _ => .ite (fun _ => .quiet trivial rfl) fun _ => .quiet trivial ?_
      exact recordEntry_rb _ _ _ _
  | leave cur x =>
      refine .ite (fun _ => .quiet trivial rfl) fun _ => ?_
      cases s.contentionMap.get _ with
      | none => exact .ite (fun _ => .quiet trivial rfl) fun _ => .quiet trivial rfl
      | some data =>
          refine .ite (fun _ => .quiet trivial rfl) fun hpass => ?_
          refine .ite (fun _ => .quiet trivial rfl) fun hdelay => ?_
          refine .ite (fun _ => .quiet trivial rfl) fun _ => ?_
          obtain ⟨hen, hpid⟩ := not_or.mp hpass
          refine .event trivial (mkEvent data x) ?_ rfl
          exact .mk_one (Bool.of_not_eq_false hen) (target_eq hpid) (threshold_le hdelay)
  | evict k => exact .quiet trivial rfl

theorem wanted (ls : List (asMonitor o w).Label) :
    ∀ e ∈ (asMonitor o w).rb ((asMonitor o w).machine.run ls), (asMonitor o w).Reports o w e :=
  Monitor.wanted_run (fun _ => True) trivial rfl (fun s l _ => anyProbe_keeps s l) ls

end Lock.Mutexlock

/-! ## mem/dr_snoop -/

namespace Mem.DrSnoop

variable {n : ℕ}

/-- `dr_snoop_run`. -/
def ctrlOf (o : AppOptions) (w : Setting) : Ctrl where
  enable := o.enable
  minDelayNs := o.minDelayNs
  targetPid := o.targetPid
  pidNsDev := w.pidNsDev
  pidNsIno := w.pidNsIno

def anyProbe (c : Ctrl) (s : State n) : CallLabel Task (BeginArgs n) (EndArgs n) UInt64 → State n
  | .enter cur a => traceDirectReclaimBegin c cur a s
  | .leave cur x => traceDirectReclaimEnd c cur x s
  | .evict k => { s with startMap := s.startMap.delete k }

def asMonitor (o : AppOptions) (w : Setting) : Monitor where
  State := State w.cpus
  Label := CallLabel Task (BeginArgs w.cpus) (EndArgs w.cpus) UInt64
  Event := Data
  machine := ⟨State.start w.cpus, anyProbe (ctrlOf o w), fun _ _ => True⟩
  rb := State.rb
  pids e := some [(tgidOf e.id).toInt32]
  delay e := some e.delta

/-- The event carries the `id` of the context, the end probe compares its own. -/
def KeyedById (s : State n) : Prop := s.startMap.Holds fun k val => val.id = k

theorem recordBegin_rb (id : UInt64) (a : BeginArgs n) (s : State n) :
    (recordBegin id a s).rb = s.rb := by
  simp only [recordBegin]
  split_ifs <;> rfl

theorem recordBegin_keyedById {s : State n} (h : KeyedById s) (id : UInt64) (a : BeginArgs n) :
    KeyedById (recordBegin id a s) := by
  simp only [recordBegin]
  split_ifs
  · exact h
  · exact h.update rfl

theorem anyProbe_keeps {s : State n} (h : KeyedById s)
    (l : CallLabel Task (BeginArgs n) (EndArgs n) UInt64) :
    Keeps KeyedById State.rb
      (fun e => Wanted o w (some [(tgidOf e.id).toInt32]) (some e.delta) none) s.rb
      (anyProbe (ctrlOf o w) s l) := by
  cases l with
  | enter cur a =>
      refine .ite (fun _ => .quiet h rfl) fun _ => .ite (fun _ => .quiet h rfl) fun _ => ?_
      refine .ite (fun _ => .quiet h rfl) fun _ => .quiet (recordBegin_keyedById h _ a) ?_
      exact recordBegin_rb _ _ _
  | leave cur x =>
      refine .ite (fun _ => .quiet h rfl) fun _ => ?_
      cases hval : s.startMap.get _ with
      | none => exact .ite (fun _ => .quiet h rfl) fun _ => .quiet h rfl
      | some val =>
          have hid : val.id = _ := h _ _ hval
          refine .ite (fun _ => .quiet (h.delete _) rfl) fun hpass => ?_
          refine .ite (fun _ => .quiet (h.delete _) rfl) fun hdelay => ?_
          refine .ite (fun _ => .quiet (h.delete _) rfl) fun _ => ?_
          obtain ⟨hen, hpid⟩ := not_or.mp hpass
          refine .event (h.delete _) (mkData val x) ?_ rfl
          refine .mk_one (Bool.of_not_eq_false hen) (target_eq ?_) (threshold_le hdelay)
          change ¬(o.targetPid ≠ 0 ∧ (tgidOf val.id).toInt32 ≠ o.targetPid)
          rw [hid]
          exact fun hne => hpid ⟨hne.1, hne.2.symm⟩
  | evict k => exact .quiet (h.delete k) rfl

theorem wanted (ls : List (asMonitor o w).Label) :
    ∀ e ∈ (asMonitor o w).rb ((asMonitor o w).machine.run ls), (asMonitor o w).Reports o w e :=
  Monitor.wanted_run KeyedById BpfMap.holds_empty rfl (fun _ l h => anyProbe_keeps h l) ls

end Mem.DrSnoop

/-! ## sched/context_switch -/

namespace Sched.ContextSwitch

variable {n : ℕ}

/-- `context_switch_run`. -/
def ctrlOf (o : AppOptions) (w : Setting) : Ctrl where
  enable := o.enable
  minDelayNs := o.minDelayNs
  targetPid := o.targetPid
  pidNsDev := w.pidNsDev
  pidNsIno := w.pidNsIno

def asMonitor (o : AppOptions) (w : Setting) : Monitor where
  State := State w.cpus
  Label := Probe w.cpus
  Event := Event
  machine := probes w.cpus (ctrlOf o w)
  rb := State.rb
  pids e := some [e.nextTgid]
  delay e := some e.delayNs

/-- It is the task that gets the CPU that is compared with `-p`. -/
theorem probe_keeps (s : State n) (l : Probe n) :
    Keeps (fun _ => True) State.rb (fun e => Wanted o w (some [e.nextTgid]) (some e.delayNs) none)
      s.rb (probe (ctrlOf o w) s l) := by
  cases l with
  | wakeup x => exact .quiet trivial (recordWakeup_rb _ x s)
  | wakeupNew x => exact .quiet trivial (recordWakeup_rb _ x s)
  | switch x =>
      refine .ite (fun _ => .quiet trivial rfl) fun hen => .ite (fun _ => .quiet trivial rfl) ?_
      refine fun _ => .ite (fun _ => .quiet trivial rfl) fun hpid => ?_
      cases s.wakeupMap.get _ with
      | none => exact .quiet trivial rfl
      | some info =>
          refine .ite (fun _ => .quiet trivial rfl) fun hdelay => ?_
          cases x.reserved with
          | none => exact .quiet trivial rfl
          | some slot =>
              refine .event trivial (mkEvent (ctrlOf o w) info x slot) ?_ rfl
              exact .mk_one (Bool.of_not_eq_false hen) (target_eq hpid) (threshold_le hdelay)
  | exit addr => exact .quiet trivial rfl
  | evict key => exact .quiet trivial rfl

theorem wanted (ls : List (asMonitor o w).Label) :
    ∀ e ∈ (asMonitor o w).rb ((asMonitor o w).machine.run ls), (asMonitor o w).Reports o w e :=
  Monitor.wanted_run (fun _ => True) trivial rfl (fun s l _ => probe_keeps s l) ls

end Sched.ContextSwitch

/-! ## sched/preempt -/

namespace Sched.Preempt

variable {n : ℕ}

/-- `preempt_run`. -/
def ctrlOf (o : AppOptions) : Ctrl where
  enable := o.enable
  minDelayNs := o.minDelayNs
  targetPid := o.targetPid

/-- The probes in any order, the end of a switch with what the ring buffer says. -/
inductive Firing (n : ℕ) : Type where
  | switch (x : Switch n)
  | finish (cpu : Fin n) (endTs : UInt64) (reserved : Bool)

def anyProbe (c : Ctrl) (s : State n) : Firing n → State n
  | .switch x => schedSwitchPreempt c x s
  | .finish cpu endTs reserved => finishTaskSwitch c cpu endTs reserved s

def asMonitor (o : AppOptions) (w : Setting) : Monitor where
  State := State w.cpus
  Label := Firing w.cpus
  Event := Event
  machine := ⟨State.start w.cpus, anyProbe (ctrlOf o), fun _ _ => True⟩
  rb := State.rb
  pids e := some [e.prevPid, e.nextPid]
  delay e := some e.delayNs

theorem shouldSkip_eq_false {c : Ctrl} {prevPid nextPid : Int32} {delayNs : UInt64}
    (h : ¬shouldSkip c prevPid nextPid delayNs = true) :
    (c.targetPid = 0 ∨ c.targetPid ∈ [prevPid, nextPid]) ∧ c.minDelayNs ≤ delayNs := by
  rw [Bool.not_eq_true] at h
  unfold shouldSkip at h
  split_ifs at h with hen hpid hdelay
  refine ⟨?_, threshold_le hdelay⟩
  by_cases ht : c.targetPid = 0
  · exact Or.inl ht
  · right
    by_contra hne
    simp only [List.mem_cons, List.not_mem_nil, or_false, not_or] at hne
    exact hpid ⟨ht, Ne.symm hne.1, Ne.symm hne.2⟩

/-- One of the two threads of the switch is the one that `-p` names. -/
theorem anyProbe_keeps (s : State n) (l : Firing n) :
    Keeps (fun _ => True) State.rb
      (fun e => Wanted o w (some [e.prevPid, e.nextPid]) (some e.delayNs) none) s.rb
      (anyProbe (ctrlOf o) s l) := by
  cases l with
  | switch x => exact .ite (fun _ => .quiet trivial rfl) fun _ => .quiet trivial rfl
  | finish cpu endTs reserved =>
      refine .ite (fun _ => .quiet trivial rfl) fun hen => .ite (fun _ => .quiet trivial rfl) ?_
      refine fun _ => .ite (fun _ => .quiet trivial rfl) fun hskip => ?_
      refine .ite (fun _ => .quiet trivial rfl) fun _ => ?_
      obtain ⟨hpid, hdelay⟩ := shouldSkip_eq_false hskip
      refine .event trivial ((s.startMap cpu).event endTs) ?_ rfl
      exact .mk_one (Bool.of_not_eq_false hen) hpid hdelay

theorem wanted (ls : List (asMonitor o w).Label) :
    ∀ e ∈ (asMonitor o w).rb ((asMonitor o w).machine.run ls), (asMonitor o w).Reports o w e :=
  Monitor.wanted_run (fun _ => True) trivial rfl (fun s l _ => anyProbe_keeps s l) ls

end Sched.Preempt

/-! ## syscall -/

namespace Syscall

variable {n : ℕ}

/-- `syscall_run`. -/
def ctrlOf (o : AppOptions) : Ctrl where
  enable := o.enable
  minLatencyNs := o.minDelayNs
  targetPid := o.targetPid

/-- The probes in any order; the settings do not change any more. -/
inductive Firing (n : ℕ) : Type where
  | enter (a : EnterArgs n)
  | leave (pidTgid : UInt64) (x : ExitArgs n)

def anyProbe (c : Ctrl) (s : State n) : Firing n → State n
  | .enter a => traceEnter { a with ctrl := c } s
  | .leave pidTgid x => traceExit pidTgid { x with ctrl := c } s

/-- The module measures in microseconds and compares in nanoseconds. -/
def asMonitor (o : AppOptions) (w : Setting) : Monitor where
  State := State w.cpus
  Label := Firing w.cpus
  Event := Event
  machine := ⟨State.start w.cpus, anyProbe (ctrlOf o), fun _ _ => True⟩
  rb := State.rb
  pids e := some [e.pid]
  delay e := some (e.delayNs * 1000)

theorem anyProbe_keeps (s : State n) (l : Firing n) :
    Keeps (fun _ => True) State.rb
      (fun e => Wanted o w (some [e.pid]) (some (e.delayNs * 1000)) none) s.rb
      (anyProbe (ctrlOf o) s l) := by
  cases l with
  | enter a => exact .ite (fun _ => .quiet trivial rfl) fun _ => .quiet trivial rfl
  | leave pidTgid x =>
      refine .ite (fun _ => .quiet trivial rfl) fun hen => .ite (fun _ => .quiet trivial rfl) ?_
      refine fun _ => .ite (fun _ => .quiet trivial rfl) fun hpass => ?_
      refine .ite (fun _ => .quiet trivial rfl) fun _ => ?_
      obtain ⟨hpid, hdelay⟩ := not_or.mp hpass
      refine .event trivial (mkEvent pidTgid (s.enterMap x.cpu) { x with ctrl := ctrlOf o }) ?_ rfl
      exact .mk_one (Bool.of_not_eq_false hen) (target_eq hpid) (threshold_le hdelay)

theorem wanted (ls : List (asMonitor o w).Label) :
    ∀ e ∈ (asMonitor o w).rb ((asMonitor o w).machine.run ls), (asMonitor o w).Reports o w e :=
  Monitor.wanted_run (fun _ => True) trivial rfl (fun s l _ => anyProbe_keeps s l) ls

end Syscall

/-! ## fs/block_io -/

namespace Fs.BlockIo

/-- `block_io_run`. -/
def ctrlOf (o : AppOptions) : Ctrl where
  enable := o.enable
  minLatencyNs := o.minDelayNs
  targetPid := o.targetPid

/-- The probes in any order. -/
inductive Firing : Type where
  | issue (x : IssueArgs)
  | complete (x : CompleteArgs)

def anyProbe (c : Ctrl) (s : State) : Firing → State
  | .issue x => traceIssue c x s
  | .complete x => traceComplete c x s

def asMonitor (o : AppOptions) : Monitor where
  State := State
  Label := Firing
  Event := Event
  machine := ⟨State.start, anyProbe (ctrlOf o), fun _ _ => True⟩
  rb := State.rb
  pids e := some [e.pid]
  delay e := some e.latencyNs

theorem anyProbe_keeps (s : State) (l : Firing) :
    Keeps (fun _ => True) State.rb (fun e => Wanted o w (some [e.pid]) (some e.latencyNs) none)
      s.rb (anyProbe (ctrlOf o) s l) := by
  cases l with
  | issue x =>
      refine .ite (fun _ => .quiet trivial rfl) fun _ => ?_
      exact .ite (fun _ => .quiet trivial rfl) fun _ => .quiet trivial rfl
  | complete x =>
      refine .ite (fun _ => .quiet trivial rfl) fun hen => ?_
      cases s.ioMap.get _ with
      | none => exact .quiet trivial rfl
      | some v =>
          refine .ite (fun _ => .quiet trivial rfl) fun hpid => ?_
          refine .ite (fun _ => .quiet trivial rfl) fun hdelay => ?_
          refine .ite (fun _ => .quiet trivial rfl) fun _ => ?_
          refine .event trivial (mkEvent x.key v x.now) ?_ rfl
          exact .mk_one (Bool.of_not_eq_false hen) (target_eq hpid) (threshold_le hdelay)

theorem wanted (ls : List (asMonitor o).Label) :
    ∀ e ∈ (asMonitor o).rb ((asMonitor o).machine.run ls), (asMonitor o).Reports o w e :=
  Monitor.wanted_run (fun _ => True) trivial rfl (fun s l _ => anyProbe_keeps s l) ls

end Fs.BlockIo

/-! ## net/tcp_monitor -/

namespace Net.TcpMonitor

variable {n : ℕ}

/-- `tcp_monitor_run`. -/
def ctrlOf (o : AppOptions) (w : Setting) : Ctrl where
  enable := o.enable
  minLatencyNs := o.minDelayNs
  targetPid := o.targetPid
  pidNsDev := w.pidNsDev
  pidNsIno := w.pidNsIno

/-- What `-d` is compared with: only handshakes are filtered by their latency. -/
def Event.delay (e : Event) : Option UInt64 :=
  match e.type with
  | .handshake => some e.latencyNs
  | .retransmit => none
  | .close => none

def asMonitor (o : AppOptions) (w : Setting) : Monitor where
  State := State w.cpus
  Label := Probe w.cpus
  Event := Event
  machine := monitor w.cpus (ctrlOf o w)
  rb := State.rb
  pids e := some [e.tgid.toInt32]
  delay := Event.delay

theorem sessionAllowed_iff {sess : TcpSess} :
    sessionAllowed (ctrlOf o w) sess = true ↔
      o.enable = true ∧ (o.targetPid = 0 ∨ o.targetPid ∈ [sess.tgid.toInt32]) := by
  cases hen : o.enable with
  | false => simp [sessionAllowed, ctrlOf, hen]
  | true => simp [sessionAllowed, ctrlOf, hen, target_eq_tgid]

theorem wanted_of_allowed {sess : TcpSess} (h : sessionAllowed (ctrlOf o w) sess = true)
    {delay : Option UInt64} (hdelay : ∀ d ∈ delay, o.minDelayNs ≤ d) :
    Wanted o w (some [sess.tgid.toInt32]) delay none where
  enabled := (sessionAllowed_iff.mp h).1
  selected l hl := by
    obtain rfl : [sess.tgid.toInt32] = l := by simpa using hl
    exact (sessionAllowed_iff.mp h).2
  long := hdelay
  foreign := by simp

theorem settled_tgid (ctrl : Ctrl) (sess : TcpSess) (x : EventArgs n) :
    (settled ctrl sess x).tgid = sess.tgid := by
  simp only [settled, saveSock]
  split_ifs <;> rfl

theorem settled_startTs (ctrl : Ctrl) (sess : TcpSess) (x : EventArgs n) :
    (settled ctrl sess x).startTs = sess.startTs := by
  simp only [settled, saveSock]
  split_ifs <;> rfl

theorem fillSock_tgid (e : Event) (sk : Sock) : (fillSock e sk).tgid = e.tgid := by
  simp only [fillSock]
  split_ifs <;> rfl

theorem fillSock_type (e : Event) (sk : Sock) : (fillSock e sk).type = e.type := by
  simp only [fillSock]
  split_ifs <;> rfl

/-- What the probe reports is about a session that is allowed now. -/
theorem Probe.event_wanted {old : Option TcpSess} {p : Probe n} {e : Event}
    (he : e ∈ p.event (ctrlOf o w) old) : Wanted o w (some [e.tgid.toInt32]) e.delay none := by
  cases p with
  | finishConnect sk x =>
      obtain ⟨sess, -, he⟩ := Option.bind_eq_some_iff.mp he
      simp only [Option.ite_none_right_eq_some, Bool.and_eq_true, Option.some.injEq] at he
      obtain ⟨⟨⟨hsettles, hbelow⟩, -⟩, rfl⟩ := he
      rw [settles, Bool.and_eq_true] at hsettles
      have hbelow' : below (ctrlOf o w) sess x = false := by simpa using hbelow
      have hlong : o.minDelayNs ≤ x.now - sess.startTs := threshold_le (of_decide_eq_false hbelow')
      have hwanted : Wanted o w (some [sess.tgid.toInt32]) (some (x.now - sess.startTs)) none :=
        wanted_of_allowed hsettles.1 (by simpa using hlong)
      rwa [← settled_tgid (ctrlOf o w) sess x, ← settled_startTs (ctrlOf o w) sess x] at hwanted
  | retransmit sk x =>
      obtain ⟨sess, -, he⟩ := Option.bind_eq_some_iff.mp he
      simp only [Option.ite_none_right_eq_some, Bool.and_eq_true, Option.some.injEq] at he
      obtain ⟨⟨hallowed, -⟩, rfl⟩ := he
      have htype : (retransmitEvent (retransmitted sess) x).type = .retransmit := fillSock_type _ _
      have htgid : (retransmitEvent (retransmitted sess) x).tgid = sess.tgid := fillSock_tgid _ _
      rw [htgid, Event.delay, htype]
      exact wanted_of_allowed hallowed (by simp)
  | close sk x =>
      obtain ⟨sess, -, he⟩ := Option.bind_eq_some_iff.mp he
      simp only [Option.ite_none_right_eq_some, Bool.and_eq_true, Option.some.injEq] at he
      obtain ⟨⟨hallowed, -⟩, rfl⟩ := he
      exact wanted_of_allowed hallowed (by simp [closeEvent, fillSavedSock, fillProcess, Event.delay])
  | connect family cur sk a => cases he
  | connectExit family sk sock ret => cases he
  | evict sk => cases he

theorem wanted (ls : List (asMonitor o w).Label) :
    ∀ e ∈ (asMonitor o w).rb ((asMonitor o w).machine.run ls), (asMonitor o w).Reports o w e := by
  refine Monitor.wanted_run (fun _ => True) trivial rfl (fun s l _ => ?_) ls
  exact .option trivial _ (fun e he => Probe.event_wanted he) (Probe.run_does (ctrlOf o w) s l).rb

end Net.TcpMonitor

/-! ## net/udp_monitor -/

namespace Net.UdpMonitor

variable {n : ℕ}

/-- `udp_monitor_run`. -/
def ctrlOf (o : AppOptions) (w : Setting) : Ctrl where
  enable := o.enable
  minLatencyNs := o.minDelayNs
  targetPid := o.targetPid
  pidNsDev := w.pidNsDev
  pidNsIno := w.pidNsIno

def asMonitor (o : AppOptions) (w : Setting) : Monitor where
  State := State w.cpus
  Label := Call w.cpus
  Event := Event
  machine := ⟨State.start w.cpus, fun s call => invoke s ⟨ctrlOf o w, call⟩, fun _ _ => True⟩
  rb := State.rb
  pids e := some [e.tgid.toInt32]
  delay e := some e.latencyNs

/-- Only the entry of a send looks at the process; the flow changes the addresses later. -/
def Selected (o : AppOptions) (s : State n) : Prop :=
  s.startMap.Holds fun _ v => o.targetPid = 0 ∨ o.targetPid ∈ [v.tgid.toInt32]

theorem readMsgName_tgid {v v' : UdpStart} {name : Option MsgName}
    (h : readMsgName v name = some v') : v'.tgid = v.tgid := by
  unfold readMsgName at h
  cases name with
  | none => cases h
  | some dst =>
      simp only at h
      split_ifs at h
      cases hf : dst.family with
      | none => simp [hf] at h
      | some family =>
          simp only [hf] at h
          split_ifs at h
          · obtain ⟨sin, -, rfl⟩ := Option.map_eq_some_iff.mp h
            rfl
          · obtain ⟨sin6, -, rfl⟩ := Option.map_eq_some_iff.mp h
            rfl

theorem mkStart_tgid (visible : UInt64) (a : SendArgs n) :
    (mkStart visible a).tgid = tgidOf visible := by
  simp only [mkStart]
  split
  · next v' hv' =>
      rw [readMsgName_tgid hv']
      split_ifs <;> rfl
  · split_ifs <;> rfl

theorem rewriteV4_tgid (x : FlowArgs UInt32) (v : UdpStart) : (rewriteV4 x v).tgid = v.tgid := by
  unfold rewriteV4
  split <;> rfl

theorem rewriteV6_tgid (x : FlowArgs Addr6) (v : UdpStart) : (rewriteV6 x v).tgid = v.tgid := by
  unfold rewriteV6
  split <;> rfl

/-- The events of `net/udp_monitor` that were asked for. -/
def Asked (o : AppOptions) (w : Setting) (e : Event) : Prop :=
  Wanted o w (some [e.tgid.toInt32]) (some e.latencyNs) none

theorem recordUdpSend_keeps {s : State n} (h : Selected o s) (cur : Task) (a : SendArgs n) :
    Keeps (Selected o) State.rb (Asked o w) s.rb (recordUdpSend (ctrlOf o w) cur a s) := by
  refine .ite (fun _ => .quiet h rfl) fun _ => .ite (fun _ => .quiet h rfl) fun _ => ?_
  refine .ite (fun _ => .quiet h rfl) fun hpid => ?_
  simp only [recordUnfiltered]
  cases s.depthMap.get cur.pidTgid with
  | some depth => exact .quiet h rfl
  | none =>
      refine .ite (fun _ => .quiet h rfl) fun _ => .ite (fun _ => .quiet h rfl) fun _ => ?_
      refine .quiet (h.update ?_) rfl
      rw [mkStart_tgid, ← target_eq_tgid]
      exact or_iff_not_imp_left.mpr (not_and_not_right.mp hpid)

theorem finishUdpSend_keeps {s : State n} (h : Selected o s) (cur : Task) (x : ReturnArgs n) :
    Keeps (Selected o) State.rb (Asked o w) s.rb (finishUdpSend (ctrlOf o w) cur x s) := by
  have hmissed : ∀ s' : State n, Selected o s' → s'.rb = s.rb →
      Keeps (Selected o) State.rb (Asked o w) s.rb (missed (ctrlOf o w) x.cpu s') :=
    fun s' h' hrb => .ite (fun _ => .quiet h' hrb) fun _ => .quiet h' hrb
  simp only [finishUdpSend]
  cases s.depthMap.get cur.pidTgid with
  | none => exact hmissed s h rfl
  | some depth =>
      refine .ite (fun _ => .quiet h rfl) fun _ => ?_
      simp only [finishOutermost]
      cases hv : s.startMap.get cur.pidTgid with
      | none => exact hmissed _ h rfl
      | some v =>
          refine .ite (fun _ => hmissed _ h rfl) fun _ => ?_
          refine .ite (fun _ => .quiet (h.delete _) rfl) fun hen => ?_
          refine .ite (fun _ => .quiet (h.delete _) rfl) fun _ => ?_
          refine .ite (fun _ => .quiet (h.delete _) rfl) fun hdelay => ?_
          refine .ite (fun _ => .quiet (h.delete _) rfl) fun _ => ?_
          refine .event (h.delete _) (mkEvent v x) ?_ rfl
          exact .mk_one (Bool.of_not_eq_false hen) (h _ _ hv) (threshold_le hdelay)

theorem invoke_keeps {s : State n} (h : Selected o s) (call : Call n) :
    Keeps (Selected o) State.rb (Asked o w) s.rb (invoke s ⟨ctrlOf o w, call⟩) := by
  cases call with
  | sendmsg cur a => exact recordUdpSend_keeps h cur a
  | v6Sendmsg cur a => exact recordUdpSend_keeps h cur a
  | sendSkb cur x =>
      refine .quiet (h.modify fun v hv => ?_) rfl
      rwa [rewriteV4_tgid]
  | v6SendSkb cur x =>
      refine .quiet (h.modify fun v hv => ?_) rfl
      rwa [rewriteV6_tgid]
  | retSendmsg cur x => exact finishUdpSend_keeps h cur x
  | retV6Sendmsg cur x => exact finishUdpSend_keeps h cur x
  | evict key => exact .quiet (h.delete key) rfl

theorem wanted (ls : List (asMonitor o w).Label) :
    ∀ e ∈ (asMonitor o w).rb ((asMonitor o w).machine.run ls), (asMonitor o w).Reports o w e :=
  Monitor.wanted_run (Selected o) BpfMap.holds_empty rfl (fun _ l h => invoke_keeps h l) ls

end Net.UdpMonitor

/-! ## mem/oom_killer -/

namespace Mem.OomKiller

/-- `oom_killer_run`. -/
def ctrlOf (o : AppOptions) : Ctrl := ⟨o.enable⟩

/-- Nothing is compared with `-p` or `-d`: whoever is killed is reported. -/
def asMonitor (o : AppOptions) : Monitor where
  State := List Event
  Label := KillArgs
  Event := Event
  machine := ⟨[], fun rb x => oomKillProcess (ctrlOf o) x rb, fun _ _ => True⟩
  rb := id
  pids _ := none
  delay _ := none

theorem oomKillProcess_keeps (rb : List Event) (x : KillArgs) :
    Keeps (fun _ => True) id (fun _ => Wanted o w none none none) rb
      (oomKillProcess (ctrlOf o) x rb) := by
  refine .ite (fun _ => .quiet trivial rfl) fun hen => .ite (fun _ => .quiet trivial rfl) ?_
  refine fun _ => .event trivial (mkEvent x) ⟨Bool.of_not_eq_false hen, ?_, ?_, ?_⟩ rfl
  · simp
  · simp
  · simp

theorem wanted (ls : List (asMonitor o).Label) :
    ∀ e ∈ (asMonitor o).rb ((asMonitor o).machine.run ls), (asMonitor o).Reports o w e :=
  Monitor.wanted_run (fun _ => True) trivial rfl (fun s l _ => oomKillProcess_keeps s l) ls

end Mem.OomKiller

/-! ## ipc/msgqueue -/

namespace Ipc.Msgqueue

/-- `msgqueue_run`. -/
def ctrlOf (o : AppOptions) (w : Setting) : Ctrl where
  enable := o.enable
  minDelayNs := o.minDelayNs
  targetPid := o.targetPid
  pidnsDev := w.pidNsDev
  pidnsIno := w.pidNsIno

/-- `threads` of them at most are inside a probe at a time, and their helper calls
interleave. -/
def asMonitor (o : AppOptions) (w : Setting) : Monitor where
  State := State × (Fin w.threads → Prog Unit)
  Label := Turn w.threads Probe
  Event := Event
  machine := probes w.threads (ctrlOf o w)
  rb s := s.1.rb
  pids e := some [e.senderPid, e.receiverPid]
  delay e := some e.residenceNs

theorem wanted (ls : List (asMonitor o w).Label) :
    ∀ e ∈ (asMonitor o w).rb ((asMonitor o w).machine.run ls), (asMonitor o w).Reports o w e := by
  intro e he
  obtain ⟨cur, msg, x, receiver, -, -, hen, hpid, hdelay, -⟩ :=
    (allGenuine_run (ctrlOf o w) ls).events e he
  refine .mk_one hen ?_ (threshold_le hdelay)
  simp only [pidMatches, Bool.or_eq_true, decide_eq_true_eq, or_assoc] at hpid
  simp only [List.mem_cons, List.not_mem_nil, or_false]
  exact hpid

end Ipc.Msgqueue

/-! ## From the command line to the event -/

/-- The module of a row of the table; `slab_rate` has no ring buffer. -/
def monitorOf (o : AppOptions) (w : Setting) : AppMode → Option Monitor
  | .contextSwitch => some (Sched.ContextSwitch.asMonitor o w)
  | .preempt => some (Sched.Preempt.asMonitor o w)
  | .mutexlock => some (Lock.Mutexlock.asMonitor o w)
  | .msgqueue => some (Ipc.Msgqueue.asMonitor o w)
  | .syscall => some (Syscall.asMonitor o w)
  | .fsOpen => some (Fs.Open.asMonitor o w)
  | .fsRead | .fsWrite => some (Fs.ReadWrite.asMonitor o w)
  | .blockIo => some (Fs.BlockIo.asMonitor o)
  | .drSnoop => some (Mem.DrSnoop.asMonitor o w)
  | .oomKiller => some (Mem.OomKiller.asMonitor o)
  | .tcpMonitor => some (Net.TcpMonitor.asMonitor o w)
  | .udpMonitor => some (Net.UdpMonitor.asMonitor o w)
  | .slabRate | .unset => none

theorem monitorOf_wanted {mode : AppMode} {M : Monitor} (hM : monitorOf o w mode = some M)
    (ls : List M.Label) : ∀ e ∈ M.rb (M.machine.run ls), M.Reports o w e := by
  cases mode <;> cases hM
  case contextSwitch => exact Sched.ContextSwitch.wanted ls
  case preempt => exact Sched.Preempt.wanted ls
  case mutexlock => exact Lock.Mutexlock.wanted ls
  case msgqueue => exact Ipc.Msgqueue.wanted ls
  case syscall => exact Syscall.wanted ls
  case fsOpen => exact Fs.Open.wanted ls
  case fsRead => exact Fs.ReadWrite.wanted ls
  case fsWrite => exact Fs.ReadWrite.wanted ls
  case blockIo => exact Fs.BlockIo.wanted ls
  case drSnoop => exact Mem.DrSnoop.wanted ls
  case oomKiller => exact Mem.OomKiller.wanted ls
  case tcpMonitor => exact Net.TcpMonitor.wanted ls
  case udpMonitor => exact Net.UdpMonitor.wanted ls

/-- Which filters the modules have. All but `oom_killer` compare a process with `-p`, all but
`oom_killer` and `tcp_monitor` compare a time with `-d` for every event, `tcp_monitor` does
for a handshake, and `fs_read` and `fs_write` look for the tool itself. -/
structure Filters (mode : AppMode) (M : Monitor) : Prop where
  byPid : mode ≠ .oomKiller → ∀ e, (M.pids e).isSome = true
  byDelay : mode ≠ .oomKiller → mode ≠ .tcpMonitor → ∀ e, (M.delay e).isSome = true
  bySelf : mode = .fsRead ∨ mode = .fsWrite → ∀ e, (M.own e).isSome = true

theorem monitorOf_filters {mode : AppMode} {M : Monitor} (hM : monitorOf o w mode = some M) :
    Filters mode M := by
  cases mode <;> cases hM
  case oomKiller => exact ⟨absurd rfl, absurd rfl, by simp⟩
  case tcpMonitor => exact ⟨fun _ _ => rfl, fun _ => absurd rfl, by simp⟩
  case fsRead => exact ⟨fun _ _ => rfl, fun _ _ _ => rfl, fun _ _ => rfl⟩
  case fsWrite => exact ⟨fun _ _ => rfl, fun _ _ _ => rfl, fun _ _ => rfl⟩
  all_goals exact ⟨fun _ _ => rfl, fun _ _ _ => rfl, by simp⟩

/-- An event with these numbers passes the filters as the text of the command line gives
them: the last `-e` is not zero, the last `-p` is zero or one of the processes, the last `-d`,
unless blanks hide its minus sign, is no more than the delay, and it is not the tool that it
is about. What is `none` was not compared. -/
structure Requested (argv : List (OptKey × CString)) (w : Setting) (pids : Option (List Int32))
    (delay : Option UInt64) (own : Option Int32) : Prop where
  on : ∀ s ∈ lastArg .enable argv, ∃ x : Numeral, x.text = s ∧ x.value = 1
  process : ∀ s ∈ lastArg .pid argv, ∃ x : Numeral, x.text = s ∧
    (x.value = 0 ∨ ∀ l ∈ pids, ∃ p ∈ l, p.toInt = x.value)
  long : ∀ s ∈ lastArg .delay argv, ¬SpacedMinus s →
    ∃ x : Numeral, x.text = s ∧ ∀ d ∈ delay, x.magnitude ≤ d.toNat
  foreign : ∀ p ∈ own, ¬(w.selfPid ≠ 0 ∧ w.selfPid = p)

theorem Wanted.requested {argv : List (OptKey × CString)} {pids : Option (List Int32)}
    {delay : Option UInt64} {own : Option Int32} (h : Wanted o w pids delay own)
    (hopts : Says argv o) : Requested argv w pids delay own where
  on s hs := by
    have henable := hopts.enable
    rw [Option.mem_def.mp hs] at henable
    obtain ⟨x, hx, -, hon⟩ := henable
    exact ⟨x, hx, hon.mp h.enabled⟩
  process s hs := by
    have hpid := hopts.pid
    rw [Option.mem_def.mp hs] at hpid
    obtain ⟨x, hx, -, hval⟩ := hpid
    refine ⟨x, hx, ?_⟩
    by_cases hzero : o.targetPid = 0
    · left
      rw [hval, hzero]
      rfl
    · right
      intro l hl
      exact ⟨o.targetPid, (h.selected l hl).resolve_left hzero, hval.symm⟩
  long s hs hminus := by
    have hdelay := hopts.delay
    rw [Option.mem_def.mp hs] at hdelay
    obtain ⟨x, hx, hval⟩ := hdelay hminus
    refine ⟨x, hx, fun d hd => ?_⟩
    rw [hval]
    exact UInt64.le_iff_toNat_le.mp (h.long d hd)
  foreign := h.foreign

/-- **Only what was asked for.** Whatever the probes of a module see, in whatever order they
run: every event that it submits has passed the filters of the module as the command line
sets them, and the module is one that a `-m` names. `oom_killer` is the same module for every
`-p` and `-d`. -/
theorem only_requested_events {argv : List (OptKey × CString)} {o : AppOptions}
    (hok : appParseArgs argv = .ok o) (w : Setting) {row : ModuleEntry}
    (hrow : some row ∈ startedModules o) {M : Monitor} (hM : monitorOf o w row.mode = some M)
    (ls : List M.Label) :
    Named (argsOf .mode argv) row.name ∧ Filters row.mode M ∧
      (∀ e ∈ M.rb (M.machine.run ls), Requested argv w (M.pids e) (M.delay e) (M.own e)) ∧
      (row.mode = .oomKiller → ∀ pid ns,
        monitorOf { o with targetPid := pid, minDelayNs := ns } w row.mode = some M) := by
  have hopts := says_of_ok hok
  refine ⟨?_, monitorOf_filters hM, fun e he => ?_, fun hoom pid ns => ?_⟩
  · obtain ⟨hmem, hbit⟩ := mem_startedModules_iff.mp hrow
    exact (hopts.modes row hmem).mp hbit
  · exact (monitorOf_wanted hM ls e he).requested hopts
  · rw [← hM, hoom]
    rfl

/-- `-m block_io -d 5 -p 8 -p 7`. -/
def askedArgv : List (OptKey × CString) :=
  [(.mode, bytes "block_io"), (.delay, bytes "5"), (.pid, bytes "8"), (.pid, bytes "7")]

def askedOptions : AppOptions :=
  { mode := .blockIo, modeMask := AppMode.blockIo.bit, targetPid := 7, minDelayNs := 5 }

/-- Two processes write, and both requests take ten nanoseconds. -/
def twoRequests : List Fs.BlockIo.Firing :=
  [.issue ⟨10, packPidTgid 7 7, Vector.replicate _ 0, ⟨8, 0, 1, 87⟩, 0, false⟩,
    .issue ⟨10, packPidTgid 8 8, Vector.replicate _ 0, ⟨8, 4096, 1, 87⟩, 0, false⟩,
    .complete ⟨20, ⟨8, 0, 1, 87⟩, 0, true⟩, .complete ⟨20, ⟨8, 4096, 1, 87⟩, 0, true⟩]

/-- `-m oom_killer -p 7`. -/
def oomArgv : List (OptKey × CString) := [(.mode, bytes "oom_killer"), (.pid, bytes "7")]

def oomOptions : AppOptions :=
  { mode := .oomKiller, modeMask := AppMode.oomKiller.bit, targetPid := 7 }

/-- Process 200 is killed while process 100 runs. -/
def kill : Mem.OomKiller.KillArgs :=
  ⟨⟨200, none, Vector.replicate _ 0⟩, ⟨100, none, Vector.replicate _ 0⟩, true⟩

theorem request_of_the_last_pid_is_reported :
    (∃ e, (Fs.BlockIo.asMonitor askedOptions).rb
        ((Fs.BlockIo.asMonitor askedOptions).machine.run twoRequests) = [e] ∧
      Requested askedArgv ⟨1, 1, 0, 0, 0⟩ (some [7]) (some 10) none) ∧
    ∃ e, (Mem.OomKiller.asMonitor oomOptions).rb
        ((Mem.OomKiller.asMonitor oomOptions).machine.run [kill]) = [e] ∧
      e.oomkillPid = 200 ∧ e.triggeredPid = 100 ∧
      Requested oomArgv ⟨1, 1, 0, 0, 0⟩ none none none := by
  have hok : appParseArgs askedArgv = .ok askedOptions := by decide +kernel
  have hrow : some ⟨bytes "block_io", .blockIo⟩ ∈ startedModules askedOptions := by decide +kernel
  obtain ⟨-, -, h, -⟩ := only_requested_events hok ⟨1, 1, 0, 0, 0⟩ hrow rfl twoRequests
  have hok' : appParseArgs oomArgv = .ok oomOptions := by decide +kernel
  have hrow' : some ⟨bytes "oom_killer", .oomKiller⟩ ∈ startedModules oomOptions := by
    decide +kernel
  obtain ⟨-, -, h', -⟩ := only_requested_events hok' ⟨1, 1, 0, 0, 0⟩ hrow' rfl [kill]
  exact ⟨⟨_, rfl, h _ List.mem_cons_self⟩, _, rfl, rfl, rfl, h' _ List.mem_cons_self⟩

end EbpfToolbox
