import EbpfToolbox.Fs.BlockIo
import EbpfToolbox.Lib.SharedRecord
import EbpfToolbox.Sched.Preempt
import EbpfToolbox.Syscall.Syscall

/-!
# Statistics that all CPUs share

`syscall`, `sched/preempt` and `fs/block_io` keep their statistics in a plain array map
with one entry. All CPUs increment, add and compare there without atomic operations;
the source of `preempt` says that this is a race and leaves it at that. Here the probes of
the three modules run on `n` CPUs at once, one access to the shared entry at a time.

An event is listed when it is submitted. `start_map` and `enter_map` have a slot per CPU,
and only the probes of a CPU get at it. `io_map` belongs to all CPUs; a lookup gives a
pointer to an element, and what is read through it later can be another context by then.
-/

namespace EbpfToolbox

open Common Lib

section Trustworthy

variable {X F W E O S St : Type} {V : F → Type} {Ans : O → Type} {n : ℕ}

/-- A module whose probes run one after the other. -/
structure Sequential (X E S St : Type) (n : ℕ) where
  start : S
  fire : S → Fin n × E → S
  stats : S → St
  rb : S → List X
  enter : St → X → St

/-- What is true of the statistics of a module. In every interleaving they are made of
reported events: no count, no delay and no data comes from anywhere else, and nothing is
entered twice. Once all probes are done they are blank only if there was nothing to
enter. Where the probes did not overlap, the module is the sequential one, and the
statistics are those of all events. -/
structure Trustworthy (L : Layout X V) (d₀ : (f : F) → V f)
    (shared : Machine (Books X V W × (Fin n → Program (Access X V O) (Access.Ret Ans) Unit))
      (Turn n E))
    (view : Books X V W → S) (M : Sequential X E S St n) : Prop where
  credible : ∀ es, shared.Valid es → L.Plausible d₀ (shared.run es).1
  blank_iff : ∀ es, shared.Valid es → (∀ i, ((shared.run es).2 i).isDone = true) →
    ((shared.run es).1.record.count = 0 ↔ (shared.run es).1.reported = []) ∧
      ((shared.run es).1.record.max = 0 ↔ ∀ x ∈ (shared.run es).1.reported, L.delay x = 0)
  serial : ∀ es, (shared.restrict Alone).Valid es →
    (∀ i, ((shared.run es).2 i).isDone = true) →
    view (shared.run es).1 = (begun es).foldl M.fire M.start ∧
      M.stats (view (shared.run es).1) = (M.rb (view (shared.run es).1)).foldl M.enter
        (M.stats M.start)

variable [DecidableEq F] {L : Layout X V} {d₀ : (f : F) → V f}
  {handle : Fin n → W → (o : O) → Ans o × W} {w : W}
  {steps : E → Program (Access X V O) (Access.Ret Ans) Unit} {view : Books X V W → S}
  {M : Sequential X E S St n}

theorem trustworthy_of_steps (hfollow : ∀ e, (steps e).Follows L.protocol .idle)
    (hstart : view (Layout.blank d₀ w) = M.start)
    (hexec : ∀ i e s, view ((steps e).exec (Access.run (handle i)) s).2 = M.fire (view s) (i, e))
    (hrb : M.rb M.start = [])
    (hstats : ∀ s p, M.stats s = (M.rb s).foldl M.enter (M.stats M.start) →
      M.stats (M.fire s p) = (M.rb (M.fire s p)).foldl M.enter (M.stats M.start)) :
    Trustworthy L d₀ (interleaved (fun i => Access.run (handle i)) steps (Layout.blank d₀ w))
      view M where
  credible es hv := by
    obtain ⟨gs, hsound, -⟩ := Layout.interleaved_sound hfollow hv
    exact hsound.credible
  blank_iff es hv hdone := by
    have hsound := (Layout.interleaved_sound hfollow hv).of_all_done hdone
    exact Layout.Sound.blank_iff hsound
  serial es hv hdone := by
    have hview : view ((interleaved (fun i => Access.run (handle i)) steps
        (Layout.blank d₀ w)).run es).1 = (begun es).foldl M.fire M.start := by
      rw [serial_run hv hdone, ← hstart]
      exact (List.foldl_hom view fun s p => (hexec p.1 p.2 s).symm).symm
    refine ⟨hview, ?_⟩
    rw [hview]
    generalize begun es = l
    induction l using List.reverseRecOn with
    | nil => simp [hrb]
    | append_singleton l p ih =>
        rw [List.foldl_append, List.foldl_cons, List.foldl_nil]
        exact hstats _ p ih

end Trustworthy

theorem ofFn_get (comm : Comm) : Vector.ofFn comm.get = comm := by
  ext i hi
  simp [Vector.get]

theorem ofFn_zero : Vector.ofFn (fun _ : Fin taskCommLen => (0 : Int8)) = Vector.replicate _ 0 := by
  ext i hi
  simp

/-! ## syscall -/

namespace Syscall

variable {n : ℕ}

/-- The cells of `struct Syscall_stats` that describe the longest call. -/
inductive MaxCell : Type where
  | pid
  | syscallId
  | comm (i : Fin taskCommLen)
deriving DecidableEq

def MaxCell.Value : MaxCell → Type
  | .pid => Int32
  | .syscallId => Int32
  | .comm _ => Int8

def layout : Layout Event MaxCell.Value where
  delay e := e.delayNs
  data e
    | .pid => e.pid
    | .syscallId => e.syscallId
    | .comm i => e.comm.get i
  fields := .pid :: .syscallId :: (List.finRange taskCommLen).map .comm
  complete f := by cases f <;> simp

def zeros : (f : MaxCell) → f.Value
  | .pid => (0 : Int32)
  | .syscallId => (0 : Int32)
  | .comm _ => (0 : Int8)

def Stats.ofRecord (r : Record MaxCell.Value) : Stats where
  count := r.count
  totalNs := r.total
  maxNs := r.max
  maxPid := r.data .pid
  maxSyscallId := r.data .syscallId
  maxComm := Vector.ofFn fun i => r.data (.comm i)

theorem ofRecord_enter (r : Record MaxCell.Value) (e : Event) :
    Stats.ofRecord (layout.enter r e) = (Stats.ofRecord r).add e := by
  by_cases hmax : r.max < e.delayNs
  · simp [Stats.ofRecord, Stats.add, Layout.enter, layout, hmax, ofFn_get]
  · simp [Stats.ofRecord, Stats.add, Layout.enter, layout, hmax]

/-- What a probe does with the slot of its CPU. -/
inductive SlotCall : Type where
  | load
  | store (v : StartVal)
  | clear

def SlotCall.Ret : SlotCall → Type
  | .load => StartVal
  | _ => Unit

def SlotCall.run (cpu : Fin n) (m : PerCpu n StartVal) : (c : SlotCall) → c.Ret × PerCpu n StartVal
  | .load => (m cpu, m)
  | .store v => ((), m.modify cpu fun _ => v)
  | .clear => ((), m.modify cpu fun v => { v with startTs := 0 })

abbrev Steps : Type := Program (Access Event MaxCell.Value SlotCall) (Access.Ret SlotCall.Ret) Unit

def traceEnterSteps (a : EnterArgs n) : Steps :=
  if a.ctrl.enable = false then .pure ()
  else .call (.other (.store ⟨a.now / 1000, a.id.toInt32⟩)) fun _ => .pure ()

def traceExitSteps (pidTgid : UInt64) (x : ExitArgs n) : Steps :=
  if x.ctrl.enable = false then .pure ()
  else
    .call (.other .load) fun v : StartVal =>
    if v.startTs = 0 then .pure ()
    else
      let e := mkEvent pidTgid v x
      .call (.other .clear) fun _ =>
      if filtered x.ctrl e then .pure ()
      else if x.reserved = false then .pure ()
      else layout.update e

inductive Probe (n : ℕ) : Type where
  | enter (a : EnterArgs n)
  | exit (pidTgid : UInt64) (x : ExitArgs n)

def Probe.steps : Probe n → Steps
  | .enter a => traceEnterSteps a
  | .exit pidTgid x => traceExitSteps pidTgid x

/-- The probe on a CPU, at a stroke. -/
def Probe.fire (s : State n) : Fin n × Probe n → State n
  | (cpu, .enter a) => traceEnter { a with cpu := cpu } s
  | (cpu, .exit pidTgid x) => traceExit pidTgid { x with cpu := cpu } s

def shared (n : ℕ) : Machine (Books Event MaxCell.Value (PerCpu n StartVal) × (Fin n → Steps))
    (Turn n (Probe n)) :=
  interleaved (fun cpu => Access.run (SlotCall.run cpu)) Probe.steps
    (Layout.blank zeros fun _ => {})

def view (s : Books Event MaxCell.Value (PerCpu n StartVal)) : State n :=
  ⟨s.rest, .ofRecord s.record, s.reported⟩

theorem steps_follow (p : Probe n) : p.steps.Follows layout.protocol .idle := by
  cases p with
  | enter a => exact .ite rfl (layout.other_follows fun _ => rfl)
  | exit pidTgid x =>
      refine .ite rfl (layout.other_follows fun v => .ite rfl (layout.other_follows fun _ => ?_))
      exact .ite rfl (.ite rfl (layout.update_follows _))

theorem exec_steps (cpu : Fin n) (p : Probe n)
    (s : Books Event MaxCell.Value (PerCpu n StartVal)) :
    view (p.steps.exec (Access.run (SlotCall.run cpu)) s).2 = Probe.fire (view s) (cpu, p) := by
  cases p with
  | enter a =>
      simp only [Probe.steps, traceEnterSteps, Probe.fire, traceEnter]
      split_ifs
      · rfl
      · rfl
  | exit pidTgid x =>
      have hevent : mkEvent pidTgid (s.rest cpu) { x with cpu := cpu } =
        mkEvent pidTgid (s.rest cpu) x := rfl
      simp only [Probe.steps, traceExitSteps, Probe.fire, traceExit, view, hevent]
      by_cases hen : x.ctrl.enable = false
      · simp [hen, Program.exec]
      by_cases h0 : (s.rest cpu).startTs = 0
      · simp [hen, h0, Program.exec, Access.run, SlotCall.run]
      by_cases hf : filtered x.ctrl (mkEvent pidTgid (s.rest cpu) x)
      · simp [hen, h0, hf, Program.exec, Access.run, SlotCall.run]
      by_cases hr : x.reserved = false
      · simp [hen, h0, hf, hr, Program.exec, Access.run, SlotCall.run]
      · simp [hen, h0, hf, hr, Program.exec, Access.run, SlotCall.run, Layout.exec_update,
          ofRecord_enter]

def sequential (n : ℕ) : Sequential Event (Probe n) (State n) Stats n where
  start := State.start n
  fire := Probe.fire
  stats := State.stats
  rb := State.rb
  enter := Stats.add

/-- A probe enters what it reports. -/
theorem stats_fire (s : State n) (p : Fin n × Probe n)
    (hs : s.stats = s.rb.foldl Stats.add {}) :
    (Probe.fire s p).stats = (Probe.fire s p).rb.foldl Stats.add {} := by
  obtain ⟨cpu, p⟩ := p
  cases p with
  | enter a =>
      simp only [Probe.fire, traceEnter]
      split_ifs
      · exact hs
      · exact hs
  | exit pidTgid x =>
      simp only [Probe.fire, traceExit]
      split_ifs
      · exact hs
      · exact hs
      · exact hs
      · exact hs
      · simp [hs]

theorem trustworthy (n : ℕ) : Trustworthy layout zeros (shared n) view (sequential n) := by
  refine trustworthy_of_steps steps_follow ?_ exec_steps rfl stats_fire
  simp only [view, Layout.blank, Stats.ofRecord, sequential, State.start, zeros, ofFn_zero]

end Syscall

/-! ## sched/preempt -/

namespace Sched.Preempt

variable {n : ℕ}

/-- The cells of `struct Preempt_stats` that describe the longest switch. -/
inductive MaxCell : Type where
  | prevPid
  | nextPid
  | prevComm (i : Fin taskCommLen)
  | nextComm (i : Fin taskCommLen)
deriving DecidableEq

def MaxCell.Value : MaxCell → Type
  | .prevPid => Int32
  | .nextPid => Int32
  | .prevComm _ => Int8
  | .nextComm _ => Int8

def layout : Layout Event MaxCell.Value where
  delay e := e.delayNs
  data e
    | .prevPid => e.prevPid
    | .nextPid => e.nextPid
    | .prevComm i => e.prevComm.get i
    | .nextComm i => e.nextComm.get i
  fields := .prevPid :: .nextPid :: ((List.finRange taskCommLen).map .prevComm ++
    (List.finRange taskCommLen).map .nextComm)
  complete f := by cases f <;> simp

def zeros : (f : MaxCell) → f.Value
  | .prevPid => (0 : Int32)
  | .nextPid => (0 : Int32)
  | .prevComm _ => (0 : Int8)
  | .nextComm _ => (0 : Int8)

def Stats.ofRecord (r : Record MaxCell.Value) : Stats where
  count := r.count
  totalNs := r.total
  maxNs := r.max
  maxPrevPid := r.data .prevPid
  maxNextPid := r.data .nextPid
  maxPrevComm := Vector.ofFn fun i => r.data (.prevComm i)
  maxNextComm := Vector.ofFn fun i => r.data (.nextComm i)

theorem ofRecord_enter (r : Record MaxCell.Value) (e : Event) :
    Stats.ofRecord (layout.enter r e) = (Stats.ofRecord r).report e := by
  by_cases hmax : r.max < e.delayNs
  · simp [Stats.ofRecord, Stats.report, Layout.enter, layout, hmax, ofFn_get]
  · simp [Stats.ofRecord, Stats.report, Layout.enter, layout, hmax]

/-- What a probe does with the slot of its CPU. -/
inductive SlotCall (n : ℕ) : Type where
  | load
  | fill (x : Switch n)
  | clear

def SlotCall.Ret : SlotCall n → Type
  | .load => StartVal
  | _ => Unit

def SlotCall.run (cpu : Fin n) (m : PerCpu n StartVal) :
    (c : SlotCall n) → c.Ret × PerCpu n StartVal
  | .load => (m cpu, m)
  | .fill x => ((), m.modify cpu (·.fill { x with cpu := cpu }))
  | .clear => ((), m.modify cpu fun v => { v with startTs := 0 })

abbrev Steps (n : ℕ) : Type :=
  Program (Access Event MaxCell.Value (SlotCall n)) (Access.Ret SlotCall.Ret) Unit

def clearSteps : Steps n := .call (.other .clear) fun _ => .pure ()

def schedSwitchPreemptSteps (c : Ctrl) (x : Switch n) : Steps n :=
  if c.enable = false ∨ x.preempt = false then .pure ()
  else .call (.other (.fill x)) fun _ => .pure ()

def finishTaskSwitchSteps (c : Ctrl) (endTs : UInt64) (reserved : Bool) : Steps n :=
  if c.enable = false then .pure ()
  else
    .call (.other .load) fun v : StartVal =>
    if v.startTs = 0 then .pure ()
    else if shouldSkip c v.prevPid v.nextPid (endTs - v.startTs) then clearSteps
    else if reserved = false then clearSteps
    else layout.update (v.event endTs) >>= fun _ => clearSteps

inductive Probe (n : ℕ) : Type where
  | switch (c : Ctrl) (x : Switch n)
  | finish (c : Ctrl) (endTs : UInt64) (reserved : Bool)

def Probe.steps : Probe n → Steps n
  | .switch c x => schedSwitchPreemptSteps c x
  | .finish c endTs reserved => finishTaskSwitchSteps c endTs reserved

/-- The probe on a CPU, at a stroke. -/
def Probe.fire (s : State n) : Fin n × Probe n → State n
  | (cpu, .switch c x) => schedSwitchPreempt c { x with cpu := cpu } s
  | (cpu, .finish c endTs reserved) => finishTaskSwitch c cpu endTs reserved s

def shared (n : ℕ) : Machine (Books Event MaxCell.Value (PerCpu n StartVal) × (Fin n → Steps n))
    (Turn n (Probe n)) :=
  interleaved (fun cpu => Access.run (SlotCall.run cpu)) Probe.steps
    (Layout.blank zeros fun _ => .zero)

def view (s : Books Event MaxCell.Value (PerCpu n StartVal)) : State n :=
  ⟨s.rest, .ofRecord s.record, s.reported⟩

theorem clearSteps_follow : (clearSteps : Steps n).Follows layout.protocol .idle :=
  layout.other_follows fun _ => rfl

theorem steps_follow (p : Probe n) : p.steps.Follows layout.protocol .idle := by
  cases p with
  | switch c x => exact .ite rfl (layout.other_follows fun _ => rfl)
  | finish c endTs reserved =>
      refine .ite rfl (layout.other_follows fun v => .ite rfl (.ite clearSteps_follow ?_))
      exact .ite clearSteps_follow ((layout.update_follows _).bind clearSteps_follow)

theorem exec_steps (cpu : Fin n) (p : Probe n)
    (s : Books Event MaxCell.Value (PerCpu n StartVal)) :
    view (p.steps.exec (Access.run (SlotCall.run cpu)) s).2 = Probe.fire (view s) (cpu, p) := by
  cases p with
  | switch c x =>
      simp only [Probe.steps, schedSwitchPreemptSteps, Probe.fire, schedSwitchPreempt]
      split_ifs
      · rfl
      · rfl
  | finish c endTs reserved =>
      simp only [Probe.steps, finishTaskSwitchSteps, Probe.fire, finishTaskSwitch, view]
      by_cases hen : c.enable = false
      · simp [hen, Program.exec]
      by_cases h0 : (s.rest cpu).startTs = 0
      · simp [hen, h0, Program.exec, Access.run, SlotCall.run]
      by_cases hskip : shouldSkip c (s.rest cpu).prevPid (s.rest cpu).nextPid
          (endTs - (s.rest cpu).startTs) = true
      · simp [hen, h0, hskip, clearSteps, State.consume, Program.exec, Access.run, SlotCall.run]
      by_cases hr : reserved = false
      · simp [hen, h0, hskip, hr, clearSteps, State.consume, Program.exec, Access.run,
          SlotCall.run]
      · simp [hen, h0, hskip, hr, clearSteps, State.consume, Program.exec, Access.run,
          SlotCall.run, Layout.exec_update, ofRecord_enter]

def sequential (n : ℕ) : Sequential Event (Probe n) (State n) Stats n where
  start := State.start n
  fire := Probe.fire
  stats := State.stats
  rb := State.rb
  enter := Stats.report

theorem stats_fire (s : State n) (p : Fin n × Probe n)
    (hs : s.stats = s.rb.foldl Stats.report {}) :
    (Probe.fire s p).stats = (Probe.fire s p).rb.foldl Stats.report {} := by
  obtain ⟨cpu, p⟩ := p
  cases p with
  | switch c x =>
      simp only [Probe.fire, schedSwitchPreempt]
      split_ifs
      · exact hs
      · exact hs
  | finish c endTs reserved =>
      simp only [Probe.fire, finishTaskSwitch]
      split_ifs
      · exact hs
      · exact hs
      · exact hs
      · exact hs
      · simp [State.consume, hs]

theorem trustworthy (n : ℕ) : Trustworthy layout zeros (shared n) view (sequential n) := by
  refine trustworthy_of_steps steps_follow ?_ exec_steps rfl stats_fire
  simp only [view, Layout.blank, Stats.ofRecord, sequential, State.start, zeros, ofFn_zero]

end Sched.Preempt

/-! ## fs/block_io -/

namespace Fs.BlockIo

variable {n : ℕ}

/-- The statistics say nothing about the request that took longest. -/
def layout : Layout Event (fun _ : Empty => Unit) where
  delay e := e.latencyNs
  data _ f := f.elim
  fields := []
  complete f := f.elim

def Stats.ofRecord (r : Record fun _ : Empty => Unit) : Stats where
  completeCnt := r.count
  totalLatNs := r.total
  maxLatNs := r.max

/-- The cells of `struct io_start`, each read at once. -/
inductive StartField : Type where
  | startTs
  | pid
  | rwbs
  | bytes
  | nrSectors
  | comm (i : Fin taskCommLen)

abbrev StartField.Value : StartField → Type
  | .startTs => UInt64
  | .pid => Int32
  | .rwbs => Int32
  | .bytes => UInt64
  | .nrSectors => UInt32
  | .comm _ => Int8

def StartField.of (v : IoStart) : (f : StartField) → f.Value
  | .startTs => v.startTs
  | .pid => v.pid
  | .rwbs => v.rwbs
  | .bytes => v.bytes
  | .nrSectors => v.nrSectors
  | .comm i => v.comm.get i

/-- The elements of `io_map`, by number: which one a key has, and what is in each of
them. A deleted element keeps its contents until it is used again. -/
structure Elements where
  index : BpfMap IoKey ℕ
  contents : ℕ → IoStart

namespace Elements

def none : Elements := ⟨∅, fun _ => ⟨0, 0, 0, 0, 0, Vector.replicate _ 0⟩⟩

def ioMap (m : Elements) : BpfMap IoKey IoStart := m.index.map m.contents

def InUse (m : Elements) (elem : ℕ) : Prop := ∃ k ∈ m.index.keys, m.index.get k = some elem

instance (m : Elements) (elem : ℕ) : Decidable (m.InUse elem) :=
  inferInstanceAs (Decidable (∃ k ∈ m.index.keys, m.index.get k = some elem))

/-- The element that a new entry gets: the one that is asked for if it is free. -/
def take (m : Elements) (elem : ℕ) : ℕ :=
  if m.InUse elem then m.index.weight id + 1 else elem

/-- The element is free. -/
theorem get_ne_take (m : Elements) (elem : ℕ) (k : IoKey) :
    m.index.get k ≠ some (m.take elem) := by
  intro hk
  unfold take at hk
  split_ifs at hk with huse
  · exact absurd (BpfMap.le_weight id hk) (Nat.not_succ_le_self _)
  · refine huse ⟨k, ?_, hk⟩
    rw [BpfMap.mem_keys_iff, hk]
    rfl

/-- The entry of a key gets a new element, also when it has one already. -/
def update (m : Elements) (k : IoKey) (v : IoStart) (elem : ℕ) : Elements where
  index := m.index.update k (m.take elem)
  contents := Function.update m.contents (m.take elem) v

def delete (m : Elements) (k : IoKey) : Elements := { m with index := m.index.delete k }

theorem ioMap_update (m : Elements) (k : IoKey) (v : IoStart) (elem : ℕ) :
    (m.update k v elem).ioMap = m.ioMap.update k v := by
  refine BpfMap.ext_get fun k' => ?_
  simp only [ioMap, update, BpfMap.get_map, BpfMap.get_update]
  split_ifs with hk
  · simp
  · cases hget : m.index.get k' with
    | none => rfl
    | some e =>
        -- the other keys have other elements
        have hne : e ≠ m.take elem := fun he => m.get_ne_take elem k' (by rw [hget, he])
        simp [hne]

theorem ioMap_delete (m : Elements) (k : IoKey) : (m.delete k).ioMap = m.ioMap.delete k := by
  refine BpfMap.ext_get fun k' => ?_
  simp only [ioMap, delete, BpfMap.get_map, BpfMap.get_delete]
  split_ifs <;> rfl

theorem get_ioMap (m : Elements) (k : IoKey) :
    m.ioMap.get k = (m.index.get k).map m.contents := BpfMap.get_map _ _ _

end Elements

inductive MapCall : Type where
  | lookup (k : IoKey)
  | read (elem : ℕ) (f : StartField)
  | update (k : IoKey) (v : IoStart) (elem : ℕ)
  | delete (k : IoKey)

def MapCall.Ret : MapCall → Type
  | .lookup _ => Option ℕ
  | .read _ f => f.Value
  | _ => Unit

def MapCall.run (m : Elements) : (c : MapCall) → c.Ret × Elements
  | .lookup k => (m.index.get k, m)
  | .read elem f => (f.of (m.contents elem), m)
  | .update k v elem => ((), m.update k v elem)
  | .delete k => ((), m.delete k)

abbrev Steps : Type := Program (Access Event (fun _ : Empty => Unit) MapCall)
  (Access.Ret MapCall.Ret) Unit

def deleteSteps (k : IoKey) : Steps := .call (.other (.delete k)) fun _ => .pure ()

/-- `elem` is the element that the kernel takes when it is free. -/
def traceIssueSteps (c : Ctrl) (x : IssueArgs) (elem : ℕ) : Steps :=
  if c.enable = false then .pure ()
  else if x.fails then .pure ()
  else .call (.other (.update x.key x.ioStart elem)) fun _ => .pure ()

/-- `v->f` -/
def readField (elem : ℕ) (f : StartField) (k : f.Value → Steps) : Steps :=
  .call (.other (.read elem f)) k

/-- `__builtin_memcpy(e->comm, v->comm, TASK_COMM_LEN)` -/
def copyComm (elem : ℕ) : List (Fin taskCommLen) → (Fin taskCommLen → Int8) →
    ((Fin taskCommLen → Int8) → Steps) → Steps
  | [], comm, k => k comm
  | i :: is, comm, k =>
      readField elem (.comm i) fun ch => copyComm elem is (Function.update comm i ch) k

/-- The event is filled with what is read after the reservation. -/
def reportSteps (x : CompleteArgs) (elem : ℕ) (startTs : UInt64) : Steps :=
  readField elem .pid fun pid =>
  readField elem .nrSectors fun nrSectors =>
  readField elem .rwbs fun rwbs =>
  readField elem .bytes fun bytes =>
  copyComm elem (List.finRange taskCommLen) (fun _ => 0) fun comm =>
  layout.update (mkEvent x.key ⟨startTs, pid, rwbs, bytes, nrSectors, .ofFn comm⟩ x.now)
    >>= fun _ => deleteSteps x.key

/-- Threshold, reservation and report. -/
def finishSteps (c : Ctrl) (x : CompleteArgs) (elem : ℕ) (startTs : UInt64) : Steps :=
  if c.minLatencyNs ≠ 0 ∧ x.now - startTs < c.minLatencyNs then deleteSteps x.key
  else if x.reserved = false then deleteSteps x.key
  else reportSteps x elem startTs

/-- The filter, with the process that was read. -/
def filterSteps (c : Ctrl) (x : CompleteArgs) (elem : ℕ) (startTs : UInt64) (pid : Int32) : Steps :=
  if pid ≠ c.targetPid then deleteSteps x.key else finishSteps c x elem startTs

def traceCompleteSteps (c : Ctrl) (x : CompleteArgs) : Steps :=
  if c.enable = false then .pure ()
  else
    .call (.other (.lookup x.key)) fun
    | none => .pure ()
    | some (elem : ℕ) =>
        readField elem .startTs fun startTs =>
        if c.targetPid = 0 then finishSteps c x elem startTs
        else readField elem .pid (filterSteps c x elem startTs)

inductive Probe : Type where
  | issue (c : Ctrl) (x : IssueArgs) (elem : ℕ)
  | complete (c : Ctrl) (x : CompleteArgs)

def Probe.steps : Probe → Steps
  | .issue c x elem => traceIssueSteps c x elem
  | .complete c x => traceCompleteSteps c x

/-- The probe at a stroke; it is the same on all CPUs. -/
def Probe.fire (s : State) : Fin n × Probe → State
  | (_, .issue c x _) => traceIssue c x s
  | (_, .complete c x) => traceComplete c x s

def shared (n : ℕ) : Machine (Books Event (fun _ : Empty => Unit) Elements × (Fin n → Steps))
    (Turn n Probe) :=
  interleaved (fun _ => Access.run MapCall.run) Probe.steps (Layout.blank (fun _ => ()) .none)

def view (s : Books Event (fun _ : Empty => Unit) Elements) : State :=
  ⟨s.rest.ioMap, .ofRecord s.record, s.reported⟩

/-! ### Every probe keeps to the protocol -/

theorem deleteSteps_follow (k : IoKey) : (deleteSteps k).Follows layout.protocol .idle :=
  layout.other_follows fun _ => rfl

theorem readField_follows {elem : ℕ} {f : StartField} {k : f.Value → Steps}
    (hk : ∀ a, (k a).Follows layout.protocol .idle) :
    (readField elem f k).Follows layout.protocol .idle :=
  layout.other_follows hk

theorem copyComm_follows {elem : ℕ} {is : List (Fin taskCommLen)} {comm : Fin taskCommLen → Int8}
    {k : (Fin taskCommLen → Int8) → Steps} (hk : ∀ comm, (k comm).Follows layout.protocol .idle) :
    (copyComm elem is comm k).Follows layout.protocol .idle := by
  induction is generalizing comm with
  | nil => exact hk comm
  | cons i is ih => exact readField_follows fun _ => ih

theorem reportSteps_follow (x : CompleteArgs) (elem : ℕ) (startTs : UInt64) :
    (reportSteps x elem startTs).Follows layout.protocol .idle := by
  refine readField_follows fun pid => readField_follows fun nrSectors => ?_
  refine readField_follows fun rwbs => readField_follows fun bytes => copyComm_follows fun comm => ?_
  exact (layout.update_follows _).bind (deleteSteps_follow _)

theorem finishSteps_follow (c : Ctrl) (x : CompleteArgs) (elem : ℕ) (startTs : UInt64) :
    (finishSteps c x elem startTs).Follows layout.protocol .idle :=
  .ite (deleteSteps_follow _) (.ite (deleteSteps_follow _) (reportSteps_follow x elem startTs))

theorem steps_follow (p : Probe) : p.steps.Follows layout.protocol .idle := by
  cases p with
  | issue c x elem => exact .ite rfl (.ite rfl (layout.other_follows fun _ => rfl))
  | complete c x =>
      refine .ite rfl (layout.other_follows fun r => ?_)
      cases r with
      | none => rfl
      | some elem =>
          refine readField_follows fun startTs => .ite (finishSteps_follow c x elem startTs) ?_
          exact readField_follows fun pid =>
            .ite (deleteSteps_follow _) (finishSteps_follow c x elem startTs)

/-! ### A probe that runs alone -/

section Alone

variable (s : Books Event (fun _ : Empty => Unit) Elements)

theorem exec_deleteSteps (k : IoKey) : ((deleteSteps k).exec (Access.run MapCall.run) s).2 =
    { s with rest := s.rest.delete k } := rfl

theorem exec_readField {elem : ℕ} {f : StartField} {k : f.Value → Steps} :
    (readField elem f k).exec (Access.run MapCall.run) s =
      (k (f.of (s.rest.contents elem))).exec (Access.run MapCall.run) s := rfl

/-- What is copied of the name when nothing comes between. -/
theorem exec_copyComm {elem : ℕ} (is : List (Fin taskCommLen)) (comm : Fin taskCommLen → Int8)
    {k : (Fin taskCommLen → Int8) → Steps} :
    (copyComm elem is comm k).exec (Access.run MapCall.run) s =
      (k fun i => if i ∈ is then (s.rest.contents elem).comm.get i else comm i).exec
        (Access.run MapCall.run) s := by
  induction is generalizing comm with
  | nil => simp [copyComm]
  | cons i is ih =>
      rw [copyComm, exec_readField, ih]
      congr 2
      funext j
      by_cases hji : j = i
      · subst hji
        simp [StartField.of]
      · simp [hji]

theorem exec_reportSteps (x : CompleteArgs) (elem : ℕ) :
    ((reportSteps x elem (s.rest.contents elem).startTs).exec (Access.run MapCall.run) s).2 =
      ⟨layout.enter s.record (mkEvent x.key (s.rest.contents elem) x.now),
        s.reported ++ [mkEvent x.key (s.rest.contents elem) x.now], s.rest.delete x.key⟩ := by
  simp only [reportSteps, exec_readField, exec_copyComm, List.mem_finRange, if_true, ofFn_get,
    Program.exec_bind, exec_deleteSteps, Layout.exec_update, StartField.of]

theorem exec_finishSteps (c : Ctrl) (x : CompleteArgs) (elem : ℕ) :
    view ((finishSteps c x elem (s.rest.contents elem).startTs).exec (Access.run MapCall.run) s).2 =
      let v := s.rest.contents elem
      let lat := x.now - v.startTs
      if c.minLatencyNs ≠ 0 ∧ lat < c.minLatencyNs then
        { view s with ioMap := (view s).ioMap.delete x.key }
      else if x.reserved = false then { view s with ioMap := (view s).ioMap.delete x.key }
      else
        { ioMap := (view s).ioMap.delete x.key
          stats := (view s).stats.complete lat
          rb := (view s).rb ++ [mkEvent x.key v x.now] } := by
  simp only [finishSteps]
  by_cases hlat : c.minLatencyNs ≠ 0 ∧ x.now - (s.rest.contents elem).startTs < c.minLatencyNs
  · simp only [if_pos hlat, exec_deleteSteps, view, Elements.ioMap_delete]
  rw [if_neg hlat, if_neg hlat]
  by_cases hres : x.reserved = false
  · simp only [if_pos hres, exec_deleteSteps, view, Elements.ioMap_delete]
  · rw [if_neg hres, if_neg hres]
    simp only [exec_reportSteps, view, Elements.ioMap_delete]
    rfl

theorem exec_filterSteps (c : Ctrl) (x : CompleteArgs) (elem : ℕ) (startTs : UInt64) (pid : Int32) :
    view ((filterSteps c x elem startTs pid).exec (Access.run MapCall.run) s).2 =
      if pid ≠ c.targetPid then { view s with ioMap := (view s).ioMap.delete x.key }
      else view ((finishSteps c x elem startTs).exec (Access.run MapCall.run) s).2 := by
  unfold filterSteps
  by_cases hpid : pid ≠ c.targetPid
  · simp only [if_pos hpid, exec_deleteSteps, view, Elements.ioMap_delete]
  · rw [if_neg hpid, if_neg hpid]

end Alone

theorem exec_steps (cpu : Fin n) (p : Probe) (s : Books Event (fun _ : Empty => Unit) Elements) :
    view (p.steps.exec (Access.run MapCall.run) s).2 = Probe.fire (view s) (cpu, p) := by
  cases p with
  | issue c x elem =>
      simp only [Probe.steps, traceIssueSteps, Probe.fire, traceIssue]
      split_ifs
      · rfl
      · rfl
      · simp only [view, Program.exec, Access.run, MapCall.run, Elements.ioMap_update]
  | complete c x =>
      simp only [Probe.steps, traceCompleteSteps, Probe.fire, traceComplete, view]
      by_cases hen : c.enable = false
      · simp [hen, Program.exec]
      rw [if_neg hen, if_neg hen]
      simp only [Program.exec, Access.run, MapCall.run, Elements.get_ioMap]
      cases hv : s.rest.index.get x.key with
      | none => rfl
      | some elem =>
          simp only [Option.map_some, exec_readField, StartField.of]
          by_cases hall : c.targetPid = 0
          · rw [if_pos hall, if_neg (fun h => h.1 hall)]
            exact exec_finishSteps s c x elem
          rw [if_neg hall]
          refine (exec_filterSteps s c x elem _ (s.rest.contents elem).pid).trans ?_
          by_cases hpid : (s.rest.contents elem).pid ≠ c.targetPid
          · rw [if_pos hpid, if_pos ⟨hall, hpid⟩]
            rfl
          · rw [if_neg hpid, if_neg (fun h => hpid h.2)]
            exact exec_finishSteps s c x elem

def sequential (n : ℕ) : Sequential Event Probe State Stats n where
  start := State.start
  fire := Probe.fire
  stats := State.stats
  rb := State.rb
  enter st e := st.complete e.latencyNs

theorem stats_fire (s : State) (p : Fin n × Probe)
    (hs : s.stats = s.rb.foldl (fun st e => st.complete e.latencyNs) {}) :
    (Probe.fire s p).stats =
      (Probe.fire s p).rb.foldl (fun st e => st.complete e.latencyNs) {} := by
  obtain ⟨cpu, p⟩ := p
  cases p with
  | issue c x =>
      simp only [Probe.fire, traceIssue]
      split_ifs
      · exact hs
      · exact hs
      · exact hs
  | complete c x =>
      simp only [Probe.fire, traceComplete]
      by_cases hen : c.enable = false
      · rwa [if_pos hen]
      rw [if_neg hen]
      cases hv : s.ioMap.get x.key with
      | none => exact hs
      | some v =>
          simp only
          split_ifs
          · exact hs
          · exact hs
          · exact hs
          · simp [hs, mkEvent]

theorem trustworthy (n : ℕ) :
    Trustworthy layout (fun _ => ()) (shared n) view (sequential n) := by
  refine trustworthy_of_steps steps_follow ?_ exec_steps rfl stats_fire
  rfl

end Fs.BlockIo

/-! ## All three -/

end EbpfToolbox
