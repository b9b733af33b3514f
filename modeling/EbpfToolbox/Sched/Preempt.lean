import EbpfToolbox.Common.PidNamespace
import EbpfToolbox.Lib.Machine
import EbpfToolbox.Lib.PerCpu

/-!
# sched/preempt

`sched/preempt/preempt.bpf.c`. A preempting `sched_switch` fills the slot of its CPU;
the `finish_task_switch` that follows reports it and clears `start_ts`. Voluntary
switches do not touch the slot.

The filter `should_skip` compares the target with the thread ids of the two tasks, while
the option it serves selects a process. The last section says which switches that makes
a difference for.
-/

namespace EbpfToolbox.Sched.Preempt

open Common Lib

/-- `struct Preempt_ctrl`. -/
structure Ctrl where
  enable : Bool
  minDelayNs : UInt64
  targetPid : Int32

/-- `struct start_val`. -/
structure StartVal where
  prevPid : Int32
  nextPid : Int32
  prevTgid : Int32
  nextTgid : Int32
  prevPrio : Int32
  nextPrio : Int32
  prevState : Int32
  cpu : Int32
  startTs : UInt64
  prevComm : Comm
  nextComm : Comm

/-- `struct Preempt_event`. -/
structure Event where
  tsNs : UInt64
  delayNs : UInt64
  cpu : Int32
  prevPid : Int32
  nextPid : Int32
  prevTgid : Int32
  nextTgid : Int32
  prevPrio : Int32
  nextPrio : Int32
  prevState : Int32
  prevComm : Comm
  nextComm : Comm

/-- `struct Preempt_stats`. -/
structure Stats where
  count : ℕ := 0
  totalNs : UInt64 := 0
  maxNs : UInt64 := 0
  maxPrevPid : Int32 := 0
  maxNextPid : Int32 := 0
  maxPrevComm : Comm := Vector.replicate _ 0
  maxNextComm : Comm := Vector.replicate _ 0

/-- `start_map`, `stats_map` and what was submitted to `rb`. -/
structure State (n : ℕ) where
  startMap : PerCpu n StartVal
  stats : Stats
  rb : List Event

def StartVal.zero : StartVal :=
  ⟨0, 0, 0, 0, 0, 0, 0, 0, 0, Vector.replicate _ 0, Vector.replicate _ 0⟩

def State.start (n : ℕ) : State n := ⟨fun _ => .zero, {}, []⟩

/-! ## The probes -/

/-- The fields of a `struct task_struct` that are read. -/
structure TaskFields where
  pid : Int32
  tgid : Int32
  prio : Int32
  state : Int32
  comm : TaskName

/-- The arguments of `sched_switch`, where and when it fires. -/
structure Switch (n : ℕ) where
  cpu : Fin n
  now : UInt64
  preempt : Bool
  prev : TaskFields
  next : TaskFields

variable {n : ℕ}

/-- What `sched_switch` leaves in the slot. -/
def StartVal.fill (v : StartVal) (x : Switch n) : StartVal where
  startTs := x.now
  cpu := Int32.ofNat x.cpu
  prevPid := x.prev.pid
  nextPid := x.next.pid
  prevTgid := x.prev.tgid
  nextTgid := x.next.tgid
  prevPrio := x.prev.prio
  nextPrio := x.next.prio
  prevState := x.prev.state
  prevComm := readStrInto v.prevComm x.prev.comm
  nextComm := readStrInto v.nextComm x.next.comm

def schedSwitchPreempt (c : Ctrl) (x : Switch n) (s : State n) : State n :=
  if c.enable = false ∨ x.preempt = false then s
  else { s with startMap := s.startMap.modify x.cpu (·.fill x) }

def shouldSkip (c : Ctrl) (prevPid nextPid : Int32) (delayNs : UInt64) : Bool :=
  if c.enable = false then true
  else if c.targetPid ≠ 0 ∧ prevPid ≠ c.targetPid ∧ nextPid ≠ c.targetPid then true
  else if c.minDelayNs ≠ 0 ∧ delayNs < c.minDelayNs then true
  else false

def StartVal.event (v : StartVal) (endTs : UInt64) : Event where
  tsNs := endTs
  delayNs := endTs - v.startTs
  cpu := v.cpu
  prevPid := v.prevPid
  nextPid := v.nextPid
  prevTgid := v.prevTgid
  nextTgid := v.nextTgid
  prevPrio := v.prevPrio
  nextPrio := v.nextPrio
  prevState := v.prevState
  prevComm := v.prevComm
  nextComm := v.nextComm

def Stats.report (st : Stats) (e : Event) : Stats where
  count := st.count + 1
  totalNs := st.totalNs + e.delayNs
  maxNs := if st.maxNs < e.delayNs then e.delayNs else st.maxNs
  maxPrevPid := if st.maxNs < e.delayNs then e.prevPid else st.maxPrevPid
  maxNextPid := if st.maxNs < e.delayNs then e.nextPid else st.maxNextPid
  maxPrevComm := if st.maxNs < e.delayNs then e.prevComm else st.maxPrevComm
  maxNextComm := if st.maxNs < e.delayNs then e.nextComm else st.maxNextComm

/-- Clear the mark of a waiting switch. -/
def State.consume (s : State n) (cpu : Fin n) : State n :=
  { s with startMap := s.startMap.modify cpu fun v => { v with startTs := 0 } }

def finishTaskSwitch (c : Ctrl) (cpu : Fin n) (endTs : UInt64) (reserved : Bool) (s : State n) :
    State n :=
  if c.enable = false then s
  else
    let v := s.startMap cpu
    if v.startTs = 0 then s
    else
      let delayNs := endTs - v.startTs
      if shouldSkip c v.prevPid v.nextPid delayNs then s.consume cpu
      else if reserved = false then s.consume cpu
      else
        let e := v.event endTs
        { s with stats := s.stats.report e, rb := s.rb ++ [e] }.consume cpu

/-! ## Runs -/

/-- A switch that is over, with the events its end submitted. -/
structure Finished (n : ℕ) where
  switch : Switch n
  endTs : UInt64
  events : List Event

/-- The switch each CPU is in, and those that are over. -/
structure Switches (n : ℕ) where
  pending : Fin n → Option (Switch n)
  finished : List (Finished n)

inductive Step (n : ℕ) : Type where
  | switch (x : Switch n)
  | finish (cpu : Fin n) (endTs : UInt64)

def preemptStep (c : Ctrl) (s : State n × Switches n) : Step n → State n × Switches n
  | .switch x =>
      (schedSwitchPreempt c x s.1,
        { s.2 with pending := Function.update s.2.pending x.cpu (some x) })
  | .finish cpu endTs =>
      let s' := finishTaskSwitch c cpu endTs true s.1
      (s',
        { pending := Function.update s.2.pending cpu none
          finished := s.2.finished ++ (s.2.pending cpu).toList.map fun x =>
            ⟨x, endTs, s'.rb.drop s.1.rb.length⟩ })

/-- On every CPU, `sched_switch` and `finish_task_switch` alternate. -/
def preempt (n : ℕ) (c : Ctrl) : Machine (State n × Switches n) (Step n) where
  init := (State.start n, ⟨fun _ => none, []⟩)
  step := preemptStep c
  Allowed s e := match e with
    | .switch x => s.2.pending x.cpu = none
    | .finish cpu _ => (s.2.pending cpu).isSome = true

instance (c : Ctrl) (s : State n × Switches n) (e : Step n) :
    Decidable ((preempt n c).Allowed s e) :=
  match e with
  | .switch x => decidable_of_iff ((s.2.pending x.cpu).isNone = true) Option.isNone_iff_eq_none
  | .finish cpu _ => inferInstanceAs (Decidable ((s.2.pending cpu).isSome = true))

/-! ## What is to be reported -/

namespace Finished

variable (c : Ctrl) (d : Finished n)

/-- One of the two tasks belongs to the selected process. -/
def OfProcess : Prop :=
  c.targetPid = 0 ∨ d.switch.prev.tgid = c.targetPid ∨ d.switch.next.tgid = c.targetPid

/-- One of the two tasks is the thread with the selected number. -/
def OfThread : Prop :=
  c.targetPid = 0 ∨ d.switch.prev.pid = c.targetPid ∨ d.switch.next.pid = c.targetPid

def Slow : Prop := c.minDelayNs = 0 ∨ c.minDelayNs ≤ d.endTs - d.switch.now

/-- The switch is a preemption that the user asked for. -/
def Selected : Prop := d.switch.preempt = true ∧ d.OfProcess c ∧ d.Slow c

/-- What the probes report. -/
def Emitted : Prop :=
  d.switch.preempt = true ∧ d.switch.now ≠ 0 ∧ d.OfThread c ∧ d.Slow c

/-- The two filters agree on the switch: if one of its tasks belongs to the process, one of
them is the main thread. And the clock was not 0, which is the mark of an empty slot. -/
def Agrees : Prop :=
  d.switch.preempt = true → d.Slow c → (d.switch.now ≠ 0 ∧ d.OfThread c ↔ d.OfProcess c)

instance : Decidable (d.OfProcess c) := inferInstanceAs (Decidable (_ ∨ _ ∨ _))

instance : Decidable (d.OfThread c) := inferInstanceAs (Decidable (_ ∨ _ ∨ _))

instance : Decidable (d.Slow c) := inferInstanceAs (Decidable (_ ∨ _))

instance : Decidable (d.Selected c) := inferInstanceAs (Decidable (_ ∧ _ ∧ _))

instance : Decidable (d.Agrees c) := inferInstanceAs (Decidable (_ → _ → (_ ↔ _)))

theorem emitted_iff_selected_iff : (d.Emitted c ↔ d.Selected c) ↔ d.Agrees c := by
  unfold Emitted Selected Agrees
  by_cases hpreempt : d.switch.preempt = true
  · by_cases hslow : d.Slow c
    · simp only [hpreempt, hslow, and_true, true_and, forall_true_left]
    · simp [hslow]
  · simp [hpreempt]

end Finished

/-- The event is about this switch and its tasks. -/
structure Event.IsOf (e : Event) (d : Finished n) : Prop where
  tsNs : e.tsNs = d.endTs
  delayNs : e.delayNs = d.endTs - d.switch.now
  cpu : e.cpu = Int32.ofNat d.switch.cpu
  pids : e.prevPid = d.switch.prev.pid ∧ e.nextPid = d.switch.next.pid
  tgids : e.prevTgid = d.switch.prev.tgid ∧ e.nextTgid = d.switch.next.tgid
  prios : e.prevPrio = d.switch.prev.prio ∧ e.nextPrio = d.switch.next.prio
  prevState : e.prevState = d.switch.prev.state
  comms : cString e.prevComm = d.switch.prev.comm.bytes ∧
    cString e.nextComm = d.switch.next.comm.bytes

/-- One event for a selected switch, about it, and none for any other. -/
structure Finished.Reported (c : Ctrl) (d : Finished n) : Prop where
  one : d.Selected c → d.events.length = 1
  none : ¬d.Selected c → d.events = []
  own : ∀ e ∈ d.events, e.IsOf d

/-- Every event comes from the end of a switch, and every switch is reported as it should. -/
def ReportsExactly (c : Ctrl) (s : State n × Switches n) : Prop :=
  s.1.rb = s.2.finished.flatMap Finished.events ∧ ∀ d ∈ s.2.finished, d.Reported c

/-! ## The slots -/

theorem StartVal.isOf_fill (v : StartVal) (d : Finished n) :
    ((v.fill d.switch).event d.endTs).IsOf d where
  tsNs := rfl
  delayNs := rfl
  cpu := rfl
  pids := ⟨rfl, rfl⟩
  tgids := ⟨rfl, rfl⟩
  prios := ⟨rfl, rfl⟩
  prevState := rfl
  comms := ⟨cString_readStrInto _ _, cString_readStrInto _ _⟩

theorem shouldSkip_eq_false_iff {c : Ctrl} (hen : c.enable = true) (prevPid nextPid : Int32)
    (delayNs : UInt64) :
    shouldSkip c prevPid nextPid delayNs = false ↔
      (c.targetPid = 0 ∨ prevPid = c.targetPid ∨ nextPid = c.targetPid) ∧
        (c.minDelayNs = 0 ∨ c.minDelayNs ≤ delayNs) := by
  have hon : ¬c.enable = false := by simp [hen]
  unfold shouldSkip
  rw [if_neg hon]
  by_cases hpid : c.targetPid ≠ 0 ∧ prevPid ≠ c.targetPid ∧ nextPid ≠ c.targetPid
  · rw [if_pos hpid]
    simp [hpid]
  rw [if_neg hpid]
  have hpid' : c.targetPid = 0 ∨ prevPid = c.targetPid ∨ nextPid = c.targetPid := by tauto
  by_cases hdelay : c.minDelayNs ≠ 0 ∧ delayNs < c.minDelayNs
  · rw [if_pos hdelay]
    simp [hdelay]
  · rw [if_neg hdelay]
    rw [not_and_or, not_not, UInt64.not_lt] at hdelay
    exact ⟨fun _ => ⟨hpid', hdelay⟩, fun _ => rfl⟩

/-- The end of a switch: the slot is empty, and an event was submitted if there was a
switch in it that is not skipped. -/
theorem finishTaskSwitch_cases {c : Ctrl} (hen : c.enable = true) (cpu : Fin n) (endTs : UInt64)
    (s : State n) :
    (∀ i, i ≠ cpu → (finishTaskSwitch c cpu endTs true s).startMap i = s.startMap i) ∧
    ((finishTaskSwitch c cpu endTs true s).startMap cpu).startTs = 0 ∧
    (finishTaskSwitch c cpu endTs true s).rb = s.rb ++
      if (s.startMap cpu).startTs ≠ 0 ∧ shouldSkip c (s.startMap cpu).prevPid
        (s.startMap cpu).nextPid (endTs - (s.startMap cpu).startTs) = false
      then [(s.startMap cpu).event endTs] else [] := by
  have hon : ¬c.enable = false := by simp [hen]
  have hother : ∀ (t : State n) i, i ≠ cpu → (t.consume cpu).startMap i = t.startMap i :=
    fun t i hi => PerCpu.modify_of_ne _ _ hi
  have hself : ∀ t : State n, ((t.consume cpu).startMap cpu).startTs = 0 := by
    intro t
    simp only [State.consume, PerCpu.modify_self]
  unfold finishTaskSwitch
  simp only [if_neg hon]
  by_cases hts : (s.startMap cpu).startTs = 0
  · simp [hts]
  cases hskip : shouldSkip c (s.startMap cpu).prevPid (s.startMap cpu).nextPid
      (endTs - (s.startMap cpu).startTs) with
  | true =>
      simp only [if_neg hts, if_true]
      exact ⟨hother s, hself s, by simp [State.consume]⟩
  | false =>
      simp only [if_neg hts, Bool.true_eq_false, Bool.false_eq_true, if_false]
      exact ⟨hother _, hself _, by simp [State.consume, hts]⟩

/-- A slot is empty unless its CPU is in a preempting switch; then it has the data of that
switch. What is over was reported by thread number. -/
structure Slots (c : Ctrl) (s : State n × Switches n) : Prop where
  empty : ∀ cpu, (∀ x, s.2.pending cpu = some x → x.preempt = false) →
    (s.1.startMap cpu).startTs = 0
  filled : ∀ cpu x, s.2.pending cpu = some x → x.preempt = true →
    ∃ v : StartVal, s.1.startMap cpu = v.fill x
  rb : s.1.rb = s.2.finished.flatMap Finished.events
  emitted : ∀ d ∈ s.2.finished, d.Emitted c ∧ (∃ e, d.events = [e] ∧ e.IsOf d) ∨
    ¬d.Emitted c ∧ d.events = []

theorem Slots.start (c : Ctrl) : Slots c (preempt n c).init where
  empty := fun _ _ => rfl
  filled := nofun
  rb := rfl
  emitted := nofun

theorem Slots.switch {c : Ctrl} (hen : c.enable = true) {s : State n × Switches n}
    (h : Slots c s) {x : Switch n} (hx : s.2.pending x.cpu = none) :
    Slots c (preemptStep c s (.switch x)) := by
  have hrb : (schedSwitchPreempt c x s.1).rb = s.1.rb := by
    unfold schedSwitchPreempt
    split_ifs <;> rfl
  have hother : ∀ i, i ≠ x.cpu → (schedSwitchPreempt c x s.1).startMap i = s.1.startMap i := by
    intro i hi
    unfold schedSwitchPreempt
    split_ifs
    · rfl
    · exact PerCpu.modify_of_ne _ _ hi
  refine ⟨?_, ?_, hrb.trans h.rb, h.emitted⟩
  · intro cpu hcpu
    by_cases hc : cpu = x.cpu
    · subst hc
      have hvoluntary : x.preempt = false := hcpu x (by simp [preemptStep])
      have hstay : schedSwitchPreempt c x s.1 = s.1 := if_pos (.inr hvoluntary)
      simp only [preemptStep, hstay]
      exact h.empty _ (by simp [hx])
    · simp only [preemptStep, hother cpu hc]
      refine h.empty cpu fun y hy => hcpu y ?_
      simp only [preemptStep, Function.update_of_ne hc, hy]
  · intro cpu y hy hpreempt
    by_cases hc : cpu = x.cpu
    · subst hc
      obtain rfl : x = y := by simpa [preemptStep] using hy
      refine ⟨s.1.startMap x.cpu, ?_⟩
      simp [preemptStep, schedSwitchPreempt, hen, hpreempt]
    · simp only [preemptStep, Function.update_of_ne hc] at hy
      simp only [preemptStep, hother cpu hc]
      exact h.filled cpu y hy hpreempt

/-- The end of a switch submits the event of that switch, if any. -/
theorem Slots.finish_events {c : Ctrl} (hen : c.enable = true) {s : State n × Switches n}
    (h : Slots c s) {cpu : Fin n} {d : Finished n} (hx : s.2.pending cpu = some d.switch)
    (hd : d.events = (finishTaskSwitch c cpu d.endTs true s.1).rb.drop s.1.rb.length) :
    d.Emitted c ∧ (∃ e, d.events = [e] ∧ e.IsOf d) ∨ ¬d.Emitted c ∧ d.events = [] := by
  rw [(finishTaskSwitch_cases hen cpu d.endTs s.1).2.2, List.drop_left] at hd
  cases hpreempt : d.switch.preempt with
  | false =>
      refine .inr ⟨fun he => ?_, ?_⟩
      · have hyes := he.1
        rw [hpreempt] at hyes
        cases hyes
      · have hempty := h.empty cpu fun y hy => by
          obtain rfl : d.switch = y := Option.some.inj (hx.symm.trans hy)
          exact hpreempt
        rw [hd, if_neg fun hcond => hcond.1 hempty]
  | true =>
      obtain ⟨v, hv⟩ := h.filled cpu d.switch hx hpreempt
      have hskip := shouldSkip_eq_false_iff hen (v.fill d.switch).prevPid
        (v.fill d.switch).nextPid (d.endTs - (v.fill d.switch).startTs)
      rw [hv] at hd
      by_cases hemit : d.Emitted c
      · refine .inl ⟨hemit, _, ?_, v.isOf_fill d⟩
        rw [hd, if_pos ⟨hemit.2.1, hskip.mpr hemit.2.2⟩]
      · refine .inr ⟨hemit, ?_⟩
        rw [hd, if_neg fun hcond => hemit ⟨hpreempt, hcond.1, hskip.mp hcond.2⟩]

theorem Slots.finish {c : Ctrl} (hen : c.enable = true) {s : State n × Switches n}
    (h : Slots c s) {cpu : Fin n} {x : Switch n} (hx : s.2.pending cpu = some x) (endTs : UInt64) :
    Slots c (preemptStep c s (.finish cpu endTs)) := by
  obtain ⟨hother, hself, hrb⟩ := finishTaskSwitch_cases hen cpu endTs s.1
  refine ⟨?_, ?_, ?_, ?_⟩
  · intro i hi
    by_cases hc : i = cpu
    · subst hc
      exact hself
    · simp only [preemptStep, hother i hc]
      refine h.empty i fun y hy => hi y ?_
      simp only [preemptStep, Function.update_of_ne hc, hy]
  · intro i y hy hpreempt
    by_cases hc : i = cpu
    · subst hc
      simp [preemptStep] at hy
    · simp only [preemptStep, Function.update_of_ne hc] at hy
      simp only [preemptStep, hother i hc]
      exact h.filled i y hy hpreempt
  · simp only [preemptStep, hx, Option.toList_some, List.map_cons, List.map_nil,
      List.flatMap_append, List.flatMap_cons, List.flatMap_nil, List.append_nil]
    rw [← h.rb, hrb, List.drop_left]
  · intro d hd
    simp only [preemptStep, hx, Option.toList_some, List.map_cons, List.map_nil] at hd
    rcases List.mem_append.mp hd with hd | hd
    · exact h.emitted d hd
    · obtain rfl := List.mem_singleton.mp hd
      exact h.finish_events hen hx rfl

theorem slots_run {c : Ctrl} (hen : c.enable = true) {es : List (Step n)}
    (hv : (preempt n c).Valid es) : Slots c ((preempt n c).run es) := by
  refine Machine.invariant (M := preempt n c) (I := Slots c) ?_ ?_ hv
  · exact Slots.start c
  intro s e h ha
  cases e with
  | switch x => exact h.switch hen ha
  | finish cpu endTs =>
      obtain ⟨x, hx⟩ := Option.isSome_iff_exists.mp ha
      exact h.finish hen hx endTs

theorem Slots.reported_iff {c : Ctrl} {s : State n × Switches n} (h : Slots c s)
    {d : Finished n} (hd : d ∈ s.2.finished) : d.Reported c ↔ d.Agrees c := by
  rw [← d.emitted_iff_selected_iff c]
  rcases h.emitted d hd with ⟨hemit, e, hevents, hof⟩ | ⟨hemit, hevents⟩
  · constructor
    · intro hr
      refine ⟨fun _ => ?_, fun _ => hemit⟩
      by_contra hsel
      rw [hr.none hsel] at hevents
      cases hevents
    · intro hiff
      refine ⟨fun _ => by rw [hevents]; rfl, fun hsel => absurd (hiff.mp hemit) hsel, ?_⟩
      intro e' he'
      rw [hevents] at he'
      obtain rfl := List.mem_singleton.mp he'
      exact hof
  · constructor
    · intro hr
      refine ⟨fun he => absurd he hemit, fun hsel => ?_⟩
      have hone := hr.one hsel
      rw [hevents] at hone
      cases hone
    · intro hiff
      refine ⟨fun hsel => absurd (hiff.mpr hsel) hemit, fun _ => hevents, ?_⟩
      rw [hevents]
      exact nofun

/-- The reports are exact if and only if the two filters agree on every switch of the run. -/
theorem preemptions_are_reported_exactly_iff (c : Ctrl) (hen : c.enable = true)
    (es : List (Step n)) (hv : (preempt n c).Valid es) :
    ReportsExactly c ((preempt n c).run es) ↔
      ∀ d ∈ ((preempt n c).run es).2.finished, d.Agrees c := by
  have h := slots_run hen hv
  constructor
  · exact fun hexact d hd => (h.reported_iff hd).mp (hexact.2 d hd)
  · exact fun hagree => ⟨h.rb, fun d hd => (h.reported_iff hd).mpr (hagree d hd)⟩

/-! ## A worker thread -/

def task (tid tgid : Int32) : TaskFields := ⟨tid, tgid, 120, 0, ⟨[], nofun, by decide⟩⟩

/-- A thread of process 100 is preempted on CPU 0, from 50 to 60. -/
def preempted (tid : Int32) : List (Step 1) :=
  [.switch ⟨0, 50, true, task tid 100, task 7 7⟩, .finish 0 60]

theorem main_thread_is_reported :
    ReportsExactly ⟨true, 0, 100⟩ ((preempt 1 ⟨true, 0, 100⟩).run (preempted 100)) ∧
      ((preempt 1 ⟨true, 0, 100⟩).run (preempted 100)).1.rb.map
        (fun e => (e.prevPid, e.nextPid, e.delayNs)) = [(100, 7, 10)] :=
  ⟨(preemptions_are_reported_exactly_iff ⟨true, 0, 100⟩ rfl (preempted 100)
    (by decide +kernel)).mpr (by decide +kernel), by decide +kernel⟩

/-- A thread other than the main one is not reported, although its process is selected. -/
theorem worker_thread_is_not_reported :
    (preempt 1 ⟨true, 0, 100⟩).Valid (preempted 101) ∧
      ((preempt 1 ⟨true, 0, 100⟩).run (preempted 101)).1.rb.length = 0 ∧
      ¬ ReportsExactly ⟨true, 0, 100⟩ ((preempt 1 ⟨true, 0, 100⟩).run (preempted 101)) := by
  refine ⟨by decide +kernel, by decide +kernel, ?_⟩
  rintro ⟨-, h⟩
  have hmissing : ∃ d ∈ ((preempt 1 ⟨true, 0, 100⟩).run (preempted 101)).2.finished,
      d.Selected ⟨true, 0, 100⟩ ∧ d.events.length = 0 := by
    decide +kernel
  rcases hmissing with ⟨d, hd, hselected, hevents⟩
  have hone := (h d hd).one hselected
  rw [hevents] at hone
  cases hone

end EbpfToolbox.Sched.Preempt
