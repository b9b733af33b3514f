import EbpfToolbox.Common.PidNamespace
import EbpfToolbox.Lib.Machine
import EbpfToolbox.Lib.PerCpu

/-!
# syscall

`syscall/syscall.bpf.c`. The entry of a system call is kept in one slot per CPU
that does not say whose entry it is; the exit probe takes what it finds on the
CPU it runs on. A thread that moved to another CPU can therefore meet the entry
of a thread that is still inside a call there.

The machine `calls` is every schedule of threads on CPUs. It remembers which call
wrote each slot, which the code does not, and when the threads really entered and left
their calls; events are right as long as no thread reports on a slot that another call
wrote.
-/

namespace EbpfToolbox.Syscall

open Common Lib

/-- `struct Syscall_ctrl`. -/
structure Ctrl where
  enable : Bool
  minLatencyNs : UInt64
  targetPid : Int32

/-- `struct start_val`; `start_ts` is in microseconds. -/
structure StartVal where
  startTs : UInt64 := 0
  syscallId : Int32 := 0

/-- `struct Syscall_event`; both times are in microseconds. -/
structure Event where
  tsNs : UInt64
  delayNs : UInt64
  pid : Int32
  tid : Int32
  syscallId : Int32
  comm : Comm

/-- `struct Syscall_stats`. -/
structure Stats where
  count : ℕ := 0
  totalNs : UInt64 := 0
  maxNs : UInt64 := 0
  maxPid : Int32 := 0
  maxSyscallId : Int32 := 0
  maxComm : Comm := Vector.replicate _ 0

/-- `enter_map`, `stats_map` and what was submitted to `rb`. -/
structure State (n : ℕ) where
  enterMap : PerCpu n StartVal
  stats : Stats
  rb : List Event

def State.start (n : ℕ) : State n := ⟨fun _ => {}, {}, []⟩

/-! ## The probes -/

/-- What `trace_enter` sees: the control settings of the moment, the CPU, the
clock and the `long` system call number. -/
structure EnterArgs (n : ℕ) where
  ctrl : Ctrl
  cpu : Fin n
  now : UInt64
  id : Int64

structure ExitArgs (n : ℕ) where
  ctrl : Ctrl
  cpu : Fin n
  now : UInt64
  comm : Comm
  reserved : Bool

variable {n : ℕ}

def traceEnter (a : EnterArgs n) (s : State n) : State n :=
  if a.ctrl.enable = false then s
  else
    { s with
      enterMap := s.enterMap.modify a.cpu fun _ => ⟨a.now / 1000, a.id.toInt32⟩ }

def Stats.add (st : Stats) (e : Event) : Stats :=
  { count := st.count + 1
    totalNs := st.totalNs + e.delayNs
    maxNs := if st.maxNs < e.delayNs then e.delayNs else st.maxNs
    maxPid := if st.maxNs < e.delayNs then e.pid else st.maxPid
    maxSyscallId := if st.maxNs < e.delayNs then e.syscallId else st.maxSyscallId
    maxComm := if st.maxNs < e.delayNs then e.comm else st.maxComm }

/-- The event of an exit on a slot that holds `v`. -/
def mkEvent (pidTgid : UInt64) (v : StartVal) (x : ExitArgs n) : Event where
  tsNs := x.now / 1000
  delayNs := x.now / 1000 - v.startTs
  pid := (tgidOf pidTgid).toInt32
  tid := (tidOf pidTgid).toInt32
  syscallId := v.syscallId
  comm := x.comm

/-- The two filters of `trace_exit`. -/
def filtered (ctrl : Ctrl) (e : Event) : Prop :=
  (ctrl.targetPid ≠ 0 ∧ e.pid ≠ ctrl.targetPid) ∨
    (ctrl.minLatencyNs ≠ 0 ∧ e.delayNs * 1000 < ctrl.minLatencyNs)

instance (ctrl : Ctrl) (e : Event) : Decidable (filtered ctrl e) :=
  inferInstanceAs (Decidable (_ ∨ _))

def traceExit (pidTgid : UInt64) (x : ExitArgs n) (s : State n) : State n :=
  if x.ctrl.enable = false then s
  else
    let v := s.enterMap x.cpu
    if v.startTs = 0 then s
    else
      let e := mkEvent pidTgid v x
      let s := { s with enterMap := s.enterMap.modify x.cpu fun v => { v with startTs := 0 } }
      if filtered x.ctrl e then s
      else if x.reserved = false then s
      else { s with stats := s.stats.add e, rb := s.rb ++ [e] }

/-! ## Schedules -/

/-- One system call of a thread: a serial number, the number it passed and the
time of its entry in the module's microseconds. -/
structure Call where
  serial : ℕ
  id : Int32
  entryUs : UInt64
deriving DecidableEq

variable {T : Type}

/-- A thread enters or leaves a system call, on some CPU. -/
inductive Step (T : Type) (n : ℕ) : Type where
  | enter (t : T) (a : EnterArgs n)
  | leave (t : T) (x : ExitArgs n)

/-- An event with what it should be about: the thread that ran the exit probe, the call
this thread was inside of and the time of this exit in the module's microseconds. -/
structure Emission (T : Type) where
  event : Event
  thread : T
  call : Call
  exitUs : UInt64

/-- `inside t`: the call thread `t` is inside of; `writer c`: the call that last
wrote the slot of CPU `c`; `log`: every event with what it should be about. -/
structure Trace (T : Type) (n : ℕ) where
  inside : T → Option Call
  writer : Fin n → Option (T × Call)
  fresh : ℕ
  log : List (Emission T)

def Trace.start (T : Type) (n : ℕ) : Trace T n := ⟨fun _ => none, fun _ => none, 0, []⟩

variable [DecidableEq T]

/-- The call that an entry with `a` starts. -/
def Trace.newCall (g : Trace T n) (a : EnterArgs n) : Call :=
  ⟨g.fresh, a.id.toInt32, a.now / 1000⟩

def step (K : Kernel T) (s : State n × Trace T n) : Step T n → State n × Trace T n
  | .enter t a =>
      (traceEnter a s.1,
        { s.2 with
          inside := Function.update s.2.inside t (some (s.2.newCall a))
          writer := if a.ctrl.enable then
            Function.update s.2.writer a.cpu (some (t, s.2.newCall a)) else s.2.writer
          fresh := s.2.fresh + 1 })
  | .leave t x =>
      let s' := traceExit (K.task t).pidTgid x s.1
      (s',
        { s.2 with
          inside := Function.update s.2.inside t none
          log := match s.2.inside t with
            | some call =>
                s.2.log ++ (s'.rb.drop s.1.rb.length).map fun e => ⟨e, t, call, x.now / 1000⟩
            | none => s.2.log })

/-- Every thread alternates between entry and exit. -/
def calls (n : ℕ) (K : Kernel T) : Machine (State n × Trace T n) (Step T n) where
  init := (State.start n, Trace.start T n)
  step := step K
  Allowed s e := match e with
    | .enter t _ => (s.2.inside t).isNone
    | .leave t _ => (s.2.inside t).isSome

instance (K : Kernel T) (s : State n × Trace T n) (e : Step T n) :
    Decidable ((calls n K).Allowed s e) :=
  match e with
  | .enter t _ => inferInstanceAs (Decidable ((s.2.inside t).isNone = true))
  | .leave t _ => inferInstanceAs (Decidable ((s.2.inside t).isSome = true))

/-- The event is about the call that its thread left, and about nothing else. -/
structure Emission.Right (K : Kernel T) (m : Emission T) : Prop where
  pid : m.event.pid = (tgidOf (K.task m.thread).pidTgid).toInt32
  tid : m.event.tid = (tidOf (K.task m.thread).pidTgid).toInt32
  syscallId : m.event.syscallId = m.call.id
  delayNs : m.event.delayNs = m.exitUs - m.call.entryUs
  tsNs : m.event.tsNs = m.exitUs

/-- The log is complete and every event is about its own call. -/
structure Attributed (K : Kernel T) (s : State n × Trace T n) : Prop where
  complete : s.2.log.map Emission.event = s.1.rb
  right : ∀ m ∈ s.2.log, m.Right K

/-- An exit that reports nothing on a slot that holds `v`: collection is off, the slot is
empty, the process is not the one asked for, the time since the entry in the slot is below
the threshold, or there is no room. -/
def Silent (pidTgid : UInt64) (x : ExitArgs n) (v : StartVal) : Prop :=
  x.ctrl.enable = false ∨ v.startTs = 0 ∨
    (x.ctrl.targetPid ≠ 0 ∧ (tgidOf pidTgid).toInt32 ≠ x.ctrl.targetPid) ∨
    (x.ctrl.minLatencyNs ≠ 0 ∧ (x.now / 1000 - v.startTs) * 1000 < x.ctrl.minLatencyNs) ∨
    x.reserved = false

instance (pidTgid : UInt64) (x : ExitArgs n) (v : StartVal) : Decidable (Silent pidTgid x v) :=
  inferInstanceAs (Decidable (_ ∨ _))

/-- A leaving thread has nothing to report, or its own current call wrote the slot it finds. -/
def OwnSlot (K : Kernel T) (s : State n × Trace T n) : Step T n → Prop
  | .enter _ _ => True
  | .leave t x => Silent (K.task t).pidTgid x (s.1.enterMap x.cpu) ∨
      ∃ call, s.2.inside t = some call ∧ s.2.writer x.cpu = some (t, call)

/-! ## A slot holds the entry of its writer -/

def SlotsWritten (s : State n × Trace T n) : Prop :=
  ∀ c, (s.1.enterMap c).startTs ≠ 0 → ∃ t call, s.2.writer c = some (t, call) ∧
    (s.1.enterMap c).startTs = call.entryUs ∧ (s.1.enterMap c).syscallId = call.id

omit [DecidableEq T] in
theorem traceExit_rb (pidTgid : UInt64) (x : ExitArgs n) (s : State n) :
    ∃ es, (traceExit pidTgid x s).rb = s.rb ++ es ∧
      ∀ e ∈ es, e = mkEvent pidTgid (s.enterMap x.cpu) x ∧
        ¬Silent pidTgid x (s.enterMap x.cpu) := by
  simp only [traceExit]
  split_ifs with hen hts hfil hres
  · exact ⟨[], by simp, by simp⟩
  · exact ⟨[], by simp, by simp⟩
  · exact ⟨[], by simp, by simp⟩
  · exact ⟨[], by simp, by simp⟩
  · refine ⟨_, rfl, fun e he => ⟨List.mem_singleton.mp he, ?_⟩⟩
    rintro (h | h | h | h | h)
    · exact hen h
    · exact hts h
    · exact hfil (Or.inl h)
    · exact hfil (Or.inr h)
    · exact hres h

theorem traceExit_slot (pidTgid : UInt64) (x : ExitArgs n) (s : State n) (c : Fin n) :
    (traceExit pidTgid x s).enterMap c = s.enterMap c ∨
      ((traceExit pidTgid x s).enterMap c).startTs = 0 := by
  simp only [traceExit]
  split_ifs with hen hts hfil hres
  · exact Or.inl rfl
  · exact Or.inl rfl
  all_goals
    by_cases hc : c = x.cpu
    · subst hc
      exact Or.inr (by simp)
    · exact Or.inl (PerCpu.modify_of_ne _ _ hc)

theorem slotsWritten_step {K : Kernel T} {s : State n × Trace T n} (h : SlotsWritten s)
    (e : Step T n) : SlotsWritten (step K s e) := by
  intro c hc
  cases e with
  | enter t a =>
      simp only [step, traceEnter] at hc ⊢
      cases hen : a.ctrl.enable with
      | false =>
          simp only [hen, if_true, Bool.false_eq_true, if_false] at hc ⊢
          exact h c hc
      | true =>
          simp only [hen, if_true, Bool.true_eq_false, if_false] at hc ⊢
          by_cases hcpu : c = a.cpu
          · subst hcpu
            exact ⟨t, s.2.newCall a, by simp, by simp [Trace.newCall], by simp [Trace.newCall]⟩
          · simp only [PerCpu.modify_of_ne _ _ hcpu, Function.update_of_ne hcpu] at hc ⊢
            exact h c hc
  | leave t x =>
      simp only [step] at hc ⊢
      rcases traceExit_slot (K.task t).pidTgid x s.1 c with hsame | hzero
      · rw [hsame] at hc ⊢
        exact h c hc
      · exact absurd hzero hc

theorem Attributed.step {K : Kernel T} {s : State n × Trace T n} {e : Step T n}
    (h : Attributed K s) (hslots : SlotsWritten s) (ha : (calls n K).Allowed s e)
    (hown : OwnSlot K s e) : Attributed K (step K s e) := by
  cases e with
  | enter t a =>
      refine ⟨?_, h.right⟩
      rw [show (Syscall.step K s (.enter t a)).1.rb = s.1.rb by
        simp only [Syscall.step, traceEnter]
        split_ifs <;> rfl]
      exact h.complete
  | leave t x =>
      obtain ⟨call, hcall⟩ := Option.isSome_iff_exists.mp ha
      obtain ⟨es, hrb, hes⟩ := traceExit_rb (K.task t).pidTgid x s.1
      have hlog : (Syscall.step K s (.leave t x)).2.log =
          s.2.log ++ es.map fun e => ⟨e, t, call, x.now / 1000⟩ := by
        simp only [Syscall.step, hcall, hrb, List.drop_left]
      refine ⟨?_, fun m hmem => ?_⟩
      · rw [hlog, List.map_append, h.complete, List.map_map]
        exact (congrArg _ (List.map_id _)).trans hrb.symm
      · rw [hlog, List.mem_append, List.mem_map] at hmem
        rcases hmem with hmem | ⟨e, he, rfl⟩
        · exact h.right m hmem
        · obtain ⟨rfl, hloud⟩ := hes e he
          -- something is reported, so the writer of the slot is this very call
          obtain ⟨call', hin, hw⟩ := hown.resolve_left hloud
          obtain rfl := Option.some.inj (hcall.symm.trans hin)
          have hts : (s.1.enterMap x.cpu).startTs ≠ 0 := fun hzero => hloud (.inr (.inl hzero))
          obtain ⟨t', call', hw', hstart, hid⟩ := hslots x.cpu hts
          obtain ⟨rfl, rfl⟩ := Prod.mk.inj (Option.some.inj (hw.symm.trans hw'))
          exact ⟨rfl, rfl, hid, congrArg (x.now / 1000 - ·) hstart, rfl⟩

/-! ## Runs -/

/-- In every schedule in which no thread reports on a slot that holds the entry of another
call, every event is about one call of one thread. -/
theorem events_are_about_one_call (K : Kernel T) {es : List (Step T n)}
    (hv : ((calls n K).restrict (OwnSlot K)).Valid es) :
    Attributed K ((calls n K).run es) := by
  suffices h : SlotsWritten ((calls n K).run es) ∧ Attributed K ((calls n K).run es) from h.2
  refine Machine.invariant_restrict (I := fun s => SlotsWritten s ∧ Attributed K s) ?_ ?_ hv
  · refine ⟨fun c hc => absurd rfl hc, rfl, ?_⟩
    intro m hmem
    simp [calls, Trace.start] at hmem
  · rintro s e ⟨hslots, hatt⟩ ha hown
    exact ⟨slotsWritten_step hslots e, hatt.step hslots ha hown⟩

/-- Thread 1 migrates from CPU 1 to CPU 0, whose slot is empty: its call is lost,
and the next call on CPU 1 is reported with its own number and delay. -/
theorem migration_onto_an_empty_slot :
    let ctrl : Ctrl := ⟨true, 0, 0⟩
    let es : List (Step (Fin 2) 2) :=
      [.enter 1 ⟨ctrl, 1, 50000, 1⟩, .leave 1 ⟨ctrl, 0, 60000, Vector.replicate _ 0, true⟩,
        .enter 0 ⟨ctrl, 1, 70000, 0⟩, .leave 0 ⟨ctrl, 1, 90000, Vector.replicate _ 0, true⟩]
    ((calls 2 Kernel.two).run es).1.rb.map (fun e => (e.tid, e.syscallId, e.delayNs)) =
        [(1, 0, 20)] ∧
      Attributed Kernel.two ((calls 2 Kernel.two).run es) := by
  intro ctrl es
  refine ⟨by decide +kernel, events_are_about_one_call Kernel.two ?_⟩
  refine ⟨⟨rfl, trivial⟩, ⟨rfl, Or.inl (by decide +kernel)⟩, ⟨rfl, trivial⟩,
    ⟨rfl, Or.inr ⟨⟨1, 0, 70⟩, by decide +kernel, by decide +kernel⟩⟩, trivial⟩

/-- Thread 0 sleeps inside `read` (0), entered on CPU 0; thread 1 enters `write`
(1) on CPU 1 and leaves it on CPU 0. Its event has the number and the start of
thread 0's call. -/
theorem migration_onto_a_used_slot_mixes_two_calls :
    let ctrl : Ctrl := ⟨true, 0, 0⟩
    let es : List (Step (Fin 2) 2) :=
      [.enter 0 ⟨ctrl, 0, 10000, 0⟩, .enter 1 ⟨ctrl, 1, 50000, 1⟩,
        .leave 1 ⟨ctrl, 0, 60000, Vector.replicate _ 0, true⟩]
    (calls 2 Kernel.two).Valid es ∧
      ((calls 2 Kernel.two).run es).1.rb.map (fun e => (e.tid, e.syscallId, e.delayNs)) =
        [(2, 0, 50)] ∧
      ¬ Attributed Kernel.two ((calls 2 Kernel.two).run es) := by
  intro ctrl es
  refine ⟨by decide +kernel, by decide +kernel, fun h => ?_⟩
  have hall : ∀ m ∈ ((calls 2 Kernel.two).run es).2.log,
      m.event.delayNs = m.exitUs - m.call.entryUs := fun m hm => (h.right m hm).delayNs
  revert hall
  decide +kernel

end EbpfToolbox.Syscall
