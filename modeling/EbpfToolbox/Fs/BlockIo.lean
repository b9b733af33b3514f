import EbpfToolbox.Common.PidNamespace
import EbpfToolbox.Lib.BpfMap
import EbpfToolbox.Lib.Machine
import Mathlib.Data.Fintype.Basic

/-!
# fs/block_io

`fs/block_io/block_io.bpf.c`: the latency of block requests from `block_rq_issue` to
`block_rq_complete`. The context of a request is in the hash `io_map` under its device
and start sector, which the source takes for the identity of the request. Flushes and
passthrough requests are all traced with sector 0, so that two of them can be in flight
under one key: the second issue overwrites the context of the first one, and the first
completion takes the context of the second request with it.

Between device and sector the key has four bytes that neither probe writes, and a hash
map compares them too. What is in them is an input of both probes.

The machine `blockIo` runs the probes over requests with identities of their own.
`Distinct` is the condition under which issue and completion are paired correctly.
-/

namespace EbpfToolbox.Fs.BlockIo

open Common Lib

/-- `struct BlockIo_ctrl`. -/
structure Ctrl where
  enable : Bool
  minLatencyNs : UInt64
  targetPid : Int32

/-- `struct io_key`. The compiler aligns `sector` to eight bytes. -/
structure IoKey where
  dev : Int32
  padding : UInt32
  sector : UInt64
deriving DecidableEq, Repr

/-- `struct io_start`. -/
structure IoStart where
  startTs : UInt64
  pid : Int32
  rwbs : Int32
  bytes : UInt64
  nrSectors : UInt32
  comm : Comm

/-- `BLOCK_IO_EV_ISSUE` and `BLOCK_IO_EV_COMPLETE`. -/
inductive EventType : Type where
  | issue
  | complete
deriving DecidableEq, Repr

/-- `struct BlockIo_event`. -/
structure Event where
  type : EventType
  tsNs : UInt64
  latencyNs : UInt64
  pid : Int32
  dev : Int32
  sector : UInt64
  nrSectors : UInt32
  rwbs : Int32
  bytes : UInt64
  comm : Comm
deriving DecidableEq

/-- `struct BlockIo_stats`, without the counter of issues that nothing writes. -/
structure Stats where
  completeCnt : ℕ := 0
  totalLatNs : UInt64 := 0
  maxLatNs : UInt64 := 0

/-- `io_map`, `stats_map` and what was submitted to `rb`. -/
structure State where
  ioMap : BpfMap IoKey IoStart
  stats : Stats
  rb : List Event

def State.start : State := ⟨∅, {}, []⟩

/-- The fields of `struct trace_event_raw_block_rq_completion` that are read; of `rwbs`
the first character. -/
structure RqCompletion where
  dev : UInt32
  sector : UInt64
  nrSector : UInt32
  rwbs : Int8

/-- The encoding of `R`, `W`, `D` and `F`. -/
def enc (c : Int8) : Int32 :=
  if c = 82 then 1 else if c = 87 then 2 else if c = 68 then 3 else if c = 70 then 4 else 5

/-! ## The probes -/

structure IssueArgs where
  now : UInt64
  pidTgid : UInt64
  comm : Comm
  ctx : RqCompletion
  padding : UInt32
  fails : Bool

structure CompleteArgs where
  now : UInt64
  ctx : RqCompletion
  padding : UInt32
  reserved : Bool

/-- `{ .dev = .., .sector = .. }` says nothing about the padding. -/
def RqCompletion.key (ctx : RqCompletion) (padding : UInt32) : IoKey :=
  ⟨ctx.dev.toInt32, padding, ctx.sector⟩

def IssueArgs.key (x : IssueArgs) : IoKey := x.ctx.key x.padding

def CompleteArgs.key (x : CompleteArgs) : IoKey := x.ctx.key x.padding

def IssueArgs.ioStart (x : IssueArgs) : IoStart where
  startTs := x.now
  pid := (tgidOf x.pidTgid).toInt32
  rwbs := x.ctx.rwbs.toInt32
  nrSectors := x.ctx.nrSector
  bytes := x.ctx.nrSector.toUInt64 * 512
  comm := x.comm

def traceIssue (c : Ctrl) (x : IssueArgs) (s : State) : State :=
  if c.enable = false then s
  else if x.fails then s
  else { s with ioMap := s.ioMap.update x.key x.ioStart }

def mkEvent (k : IoKey) (v : IoStart) (now : UInt64) : Event where
  type := .complete
  tsNs := now
  latencyNs := now - v.startTs
  pid := v.pid
  dev := k.dev
  sector := k.sector
  nrSectors := v.nrSectors
  rwbs := enc v.rwbs.toInt8
  bytes := v.bytes
  comm := v.comm

def Stats.complete (st : Stats) (lat : UInt64) : Stats where
  completeCnt := st.completeCnt + 1
  totalLatNs := st.totalLatNs + lat
  maxLatNs := if st.maxLatNs < lat then lat else st.maxLatNs

def traceComplete (c : Ctrl) (x : CompleteArgs) (s : State) : State :=
  if c.enable = false then s
  else
    let k := x.key
    match s.ioMap.get k with
    | none => s
    | some v =>
        let lat := x.now - v.startTs
        if c.targetPid ≠ 0 ∧ v.pid ≠ c.targetPid then { s with ioMap := s.ioMap.delete k }
        else if c.minLatencyNs ≠ 0 ∧ lat < c.minLatencyNs then { s with ioMap := s.ioMap.delete k }
        else if x.reserved = false then { s with ioMap := s.ioMap.delete k }
        else
          { s with
            ioMap := s.ioMap.delete k
            stats := s.stats.complete lat
            rb := s.rb ++ [mkEvent k v x.now] }

/-- Does a request with this context get an event when it completes? -/
def reports (c : Ctrl) (v : IoStart) (now : UInt64) (reserved : Bool) : Bool :=
  decide (¬(c.targetPid ≠ 0 ∧ v.pid ≠ c.targetPid) ∧
    ¬(c.minLatencyNs ≠ 0 ∧ now - v.startTs < c.minLatencyNs)) && reserved

/-- A completion takes the context of its key, and reports that. -/
theorem traceComplete_some {c : Ctrl} (hen : c.enable = true) {x : CompleteArgs} {s : State}
    {v : IoStart} (hv : s.ioMap.get x.key = some v) :
    (traceComplete c x s).ioMap = s.ioMap.delete x.key ∧
      (traceComplete c x s).rb = s.rb ++
        if reports c v x.now x.reserved then [mkEvent x.key v x.now] else [] := by
  have hon : ¬c.enable = false := by simp [hen]
  unfold traceComplete reports
  simp only [if_neg hon, hv]
  by_cases hpid : c.targetPid ≠ 0 ∧ v.pid ≠ c.targetPid
  · simp [hpid]
  by_cases hlat : c.minLatencyNs ≠ 0 ∧ x.now - v.startTs < c.minLatencyNs
  · simp only [if_neg hpid, if_pos hlat]
    simp [hlat]
  simp only [hpid, hlat]
  cases x.reserved with
  | false => simp
  | true => simp

/-! ## Requests -/

/-- Where a request is traced. -/
structure Place where
  dev : UInt32
  sector : UInt64

/-- What the tracepoints see of a request besides its place. -/
structure Sight where
  nrSector : UInt32
  rwbs : Int8

def Place.ctx (p : Place) (v : Sight) : RqCompletion := ⟨p.dev, p.sector, v.nrSector, v.rwbs⟩

inductive Step (Q : Type) : Type where
  | issue (q : Q) (now pidTgid : UInt64) (comm : Comm) (v : Sight) (padding : UInt32)
  | complete (q : Q) (now : UInt64) (v : Sight) (padding : UInt32) (reserved : Bool)

/-- A completed request: its issue, its completion and the events of the completion. -/
structure Completion (Q : Type) where
  req : Q
  issued : IssueArgs
  now : UInt64
  reserved : Bool
  events : List Event

/-- The requests that were issued, those in flight, and the completed ones. -/
structure Requests (Q : Type) where
  issued : Q → Bool
  flight : Q → Option IssueArgs
  completed : List (Completion Q)

variable {Q : Type} [DecidableEq Q]

def blockStep (c : Ctrl) (place : Q → Place) (s : State × Requests Q) :
    Step Q → State × Requests Q
  | .issue q now pidTgid comm v padding =>
      let x : IssueArgs := ⟨now, pidTgid, comm, (place q).ctx v, padding, false⟩
      (traceIssue c x s.1,
        { s.2 with
          issued := Function.update s.2.issued q true
          flight := Function.update s.2.flight q (some x) })
  | .complete q now v padding reserved =>
      let s' := traceComplete c ⟨now, (place q).ctx v, padding, reserved⟩ s.1
      (s',
        { s.2 with
          flight := Function.update s.2.flight q none
          completed := s.2.completed ++ (s.2.flight q).toList.map fun x =>
            ⟨q, x, now, reserved, s'.rb.drop s.1.rb.length⟩ })

/-- Every request is issued once, and completed once after that. -/
def blockIo (c : Ctrl) (place : Q → Place) : Machine (State × Requests Q) (Step Q) where
  init := (State.start, ⟨fun _ => false, fun _ => none, []⟩)
  step := blockStep c place
  Allowed s e := match e with
    | .issue q .. => s.2.issued q = false
    | .complete q .. => (s.2.flight q).isSome = true

instance (c : Ctrl) (place : Q → Place) (s : State × Requests Q) (e : Step Q) :
    Decidable ((blockIo c place).Allowed s e) :=
  match e with
  | .issue q .. => inferInstanceAs (Decidable (s.2.issued q = false))
  | .complete q .. => inferInstanceAs (Decidable ((s.2.flight q).isSome = true))

/-- The key of a request: where it is traced, and what its issue finds in the padding. -/
def Place.key (p : Place) (padding : UInt32) : IoKey := ⟨p.dev.toInt32, padding, p.sector⟩

/-- No request is issued while another one with its key is in flight, and a completion
finds in the padding what its own issue found there. -/
def Distinct (place : Q → Place) (s : State × Requests Q) : Step Q → Prop
  | .issue q _ _ _ _ padding =>
      ∀ r, ∀ y ∈ s.2.flight r, (place r).key y.padding ≠ (place q).key padding
  | .complete q _ _ padding _ => ∀ x ∈ s.2.flight q, x.padding = padding

instance [Fintype Q] (place : Q → Place) (s : State × Requests Q) (e : Step Q) :
    Decidable (Distinct place s e) :=
  match e with
  | .issue q _ _ _ _ padding => inferInstanceAs
      (Decidable (∀ r, ∀ y ∈ s.2.flight r, (place r).key y.padding ≠ (place q).key padding))
  | .complete q _ _ padding _ => inferInstanceAs
      (Decidable (∀ x ∈ s.2.flight q, x.padding = padding))

/-- Does the request itself pass the filters, and did it get a slot? -/
def Completion.Passes (c : Ctrl) (d : Completion Q) : Prop :=
  (c.targetPid = 0 ∨ (tgidOf d.issued.pidTgid).toInt32 = c.targetPid) ∧
    (c.minLatencyNs = 0 ∨ c.minLatencyNs ≤ d.now - d.issued.now) ∧ d.reserved = true

/-- One event if the request passes, with the data of its own issue. -/
structure Completion.Paired (c : Ctrl) (d : Completion Q) : Prop where
  one : d.Passes c → d.events.length = 1
  none : ¬d.Passes c → d.events = []
  own : ∀ e ∈ d.events, e = {
    type := .complete
    tsNs := d.now
    latencyNs := d.now - d.issued.now
    pid := (tgidOf d.issued.pidTgid).toInt32
    dev := d.issued.ctx.dev.toInt32
    sector := d.issued.ctx.sector
    nrSectors := d.issued.ctx.nrSector
    rwbs := enc d.issued.ctx.rwbs.toInt32.toInt8
    bytes := d.issued.ctx.nrSector.toUInt64 * 512
    comm := d.issued.comm }

/-- Every event comes from a completion, and every completion is paired with its issue. -/
def Pairs (c : Ctrl) (s : State × Requests Q) : Prop :=
  s.1.rb = s.2.completed.flatMap Completion.events ∧ ∀ d ∈ s.2.completed, d.Paired c

omit [DecidableEq Q] in
theorem Completion.paired_of_events {c : Ctrl} {d : Completion Q}
    (h : d.events = if reports c d.issued.ioStart d.now d.reserved
      then [mkEvent d.issued.key d.issued.ioStart d.now] else []) : d.Paired c := by
  have hpasses : reports c d.issued.ioStart d.now d.reserved = true ↔ d.Passes c := by
    simp only [reports, Completion.Passes, IssueArgs.ioStart, Bool.and_eq_true, decide_eq_true_eq,
      not_and_or, not_not, UInt64.not_lt, and_assoc]
  refine ⟨fun hp => ?_, fun hp => ?_, fun e he => ?_⟩
  · rw [h, if_pos (hpasses.mpr hp)]
    rfl
  · rw [h, if_neg (fun hr => hp (hpasses.mp hr))]
  · rw [h] at he
    split_ifs at he
    · exact List.mem_singleton.mp he
    · cases he

/-! ## The invariant -/

/-- The contexts of the requests in flight are in the map, apart from each other. -/
structure Held (place : Q → Place) (m : BpfMap IoKey IoStart) (flight : Q → Option IssueArgs) :
    Prop where
  context : ∀ q x, flight q = some x → m.get x.key = some x.ioStart
  placed : ∀ q x, flight q = some x → x.key = (place q).key x.padding
  apart : ∀ q r x y, flight q = some x → flight r = some y → x.key = y.key → q = r

theorem Held.issue {place : Q → Place} {m : BpfMap IoKey IoStart} {flight : Q → Option IssueArgs}
    (h : Held place m flight) {q : Q} {x : IssueArgs} (hx : x.key = (place q).key x.padding)
    (hd : ∀ r y, flight r = some y → y.key ≠ x.key) :
    Held place (m.update x.key x.ioStart) (Function.update flight q (some x)) := by
  refine ⟨?_, ?_, ?_⟩
  · intro r y hr
    by_cases hrq : r = q
    · subst hrq
      obtain rfl : x = y := by simpa using hr
      exact BpfMap.get_update_self _ _ _
    · rw [Function.update_of_ne hrq] at hr
      rw [BpfMap.get_update_of_ne _ _ (hd r y hr)]
      exact h.context r y hr
  · intro r y hr
    by_cases hrq : r = q
    · subst hrq
      obtain rfl : x = y := by simpa using hr
      exact hx
    · rw [Function.update_of_ne hrq] at hr
      exact h.placed r y hr
  · intro r r' y y' hr hr' hkey
    by_cases hrq : r = q
    · by_cases hrq' : r' = q
      · rw [hrq, hrq']
      · subst hrq
        obtain rfl : x = y := by simpa using hr
        rw [Function.update_of_ne hrq'] at hr'
        exact absurd hkey.symm (hd r' y' hr')
    · rw [Function.update_of_ne hrq] at hr
      by_cases hrq' : r' = q
      · subst hrq'
        obtain rfl : x = y' := by simpa using hr'
        exact absurd hkey (hd r y hr)
      · rw [Function.update_of_ne hrq'] at hr'
        exact h.apart r r' y y' hr hr' hkey

theorem Held.complete {place : Q → Place} {m : BpfMap IoKey IoStart}
    {flight : Q → Option IssueArgs} (h : Held place m flight) {q : Q} {x : IssueArgs}
    (hx : flight q = some x) : Held place (m.delete x.key) (Function.update flight q none) := by
  have hold : ∀ r y, Function.update flight q none r = some y → r ≠ q ∧ flight r = some y := by
    intro r y hr
    by_cases hrq : r = q
    · subst hrq
      simp at hr
    · rw [Function.update_of_ne hrq] at hr
      exact ⟨hrq, hr⟩
  refine ⟨?_, fun r y hr => h.placed r y (hold r y hr).2, ?_⟩
  · intro r y hr
    obtain ⟨hrq, hr⟩ := hold r y hr
    have hne : y.key ≠ x.key := fun hkey => hrq (h.apart r q y x hr hx hkey)
    rw [BpfMap.get_delete_of_ne _ hne]
    exact h.context r y hr
  · exact fun r r' y y' hr hr' => h.apart r r' y y' (hold r y hr).2 (hold r' y' hr').2

structure Tracked (c : Ctrl) (place : Q → Place) (s : State × Requests Q) : Prop where
  held : Held place s.1.ioMap s.2.flight
  pairs : Pairs c s

theorem Tracked.step {c : Ctrl} (hen : c.enable = true) {place : Q → Place}
    {s : State × Requests Q} {e : Step Q} (h : Tracked c place s)
    (ha : (blockIo c place).Allowed s e) (hd : Distinct place s e) :
    Tracked c place (blockStep c place s e) := by
  have hon : ¬c.enable = false := by simp [hen]
  cases e with
  | issue q now pidTgid comm v padding =>
      simp only [blockStep, traceIssue, if_neg hon, Bool.false_eq_true, if_false]
      refine ⟨h.held.issue rfl fun r y hr => ?_, h.pairs⟩
      rw [h.held.placed r y hr]
      exact hd r y hr
  | complete q now v padding reserved =>
      obtain ⟨x, hx⟩ := Option.isSome_iff_exists.mp ha
      -- the completion builds the key of the issue
      have hkey : ((place q).ctx v).key padding = x.key := by
        rw [h.held.placed q x hx, hd x hx]
        rfl
      have hget : s.1.ioMap.get (((place q).ctx v).key padding) = some x.ioStart := by
        rw [hkey]
        exact h.held.context q x hx
      obtain ⟨hmap, hrb⟩ := traceComplete_some hen
        (show s.1.ioMap.get (CompleteArgs.key ⟨now, (place q).ctx v, padding, reserved⟩) =
          some x.ioStart from hget)
      simp only [blockStep, hx, Option.toList_some, List.map_cons, List.map_nil]
      refine ⟨?_, ?_, ?_⟩
      · simp only [hmap, CompleteArgs.key, hkey]
        exact h.held.complete hx
      · simp only [hrb, List.drop_left, List.flatMap_append, List.flatMap_cons, List.flatMap_nil,
          List.append_nil, h.pairs.1]
      · intro d hd
        rcases List.mem_append.mp hd with hd | hd
        · exact h.pairs.2 d hd
        · obtain rfl := List.mem_singleton.mp hd
          apply Completion.paired_of_events
          rw [hrb, List.drop_left]
          simp only [CompleteArgs.key, hkey]

/-- As long as no two requests in flight share their key, and every completion finds the
padding of its issue, every completion reports its own request, once. -/
theorem issue_and_completion_are_paired (c : Ctrl) (hen : c.enable = true) (place : Q → Place)
    (es : List (Step Q)) (hv : ((blockIo c place).restrict (Distinct place)).Valid es) :
    Pairs c ((blockIo c place).run es) := by
  have htracked : Tracked c place ((blockIo c place).run es) := by
    refine Machine.invariant_restrict (M := blockIo c place) (I := Tracked c place) ?_ ?_ hv
    · exact ⟨⟨nofun, nofun, nofun⟩, rfl, nofun⟩
    · exact fun s e h ha hd => h.step hen ha hd
  exact htracked.pairs

/-! ## Two flushes -/

def plainComm : Comm := Vector.replicate _ 0

/-- Two flushes of one device, issued one after the other. -/
def flushes : Bool → Place := fun _ => ⟨8, 0⟩

/-- A write and a flush of one device, both in flight. -/
def writeAndFlush : Bool → Place := fun q => if q then ⟨8, 0⟩ else ⟨8, 4096⟩

/-- Process 1 issues the first request and process 2 the second; they complete in order. -/
def overlap (v : Sight) : List (Step Bool) :=
  [.issue false 10 (packPidTgid 1 1) plainComm v 0,
   .issue true 20 (packPidTgid 2 2) plainComm ⟨0, 70⟩ 0,
   .complete false 30 v 0 true, .complete true 45 ⟨0, 70⟩ 0 true]

theorem overlapping_sectors_apart_are_paired :
    Pairs ⟨true, 0, 0⟩ ((blockIo ⟨true, 0, 0⟩ writeAndFlush).run (overlap ⟨8, 87⟩)) ∧
      ((blockIo ⟨true, 0, 0⟩ writeAndFlush).run (overlap ⟨8, 87⟩)).1.rb.map
        (fun e => (e.pid, e.sector, e.latencyNs, e.bytes)) =
          [(1, 4096, 20, 4096), (2, 0, 25, 0)] :=
  ⟨issue_and_completion_are_paired ⟨true, 0, 0⟩ rfl writeAndFlush (overlap ⟨8, 87⟩)
    (by decide +kernel), by decide +kernel⟩

omit [DecidableEq Q] in
/-- A request that completes without an event although it passes the filters. -/
theorem not_pairs_of_lost {c : Ctrl} {s : State × Requests Q}
    (h : ∃ d ∈ s.2.completed, d.Passes c ∧ d.events = []) : ¬ Pairs c s := by
  rintro ⟨-, hpaired⟩
  rcases h with ⟨d, hd, hpasses, hevents⟩
  have hone := (hpaired d hd).one hpasses
  rw [hevents] at hone
  cases hone

instance (c : Ctrl) (d : Completion Q) : Decidable (d.Passes c) :=
  inferInstanceAs (Decidable (_ ∧ _ ∧ _))

/-- The completion of the first flush reports the second one, whose own completion is lost.
A single request is lost when its completion finds other bytes in the padding. -/
theorem overlapping_flushes_are_mixed_up :
    ((blockIo ⟨true, 0, 0⟩ flushes).Valid (overlap ⟨0, 70⟩) ∧
      ((blockIo ⟨true, 0, 0⟩ flushes).run (overlap ⟨0, 70⟩)).1.rb.map (fun e => (e.pid, e.latencyNs)) =
        [(2, 10)] ∧
      ¬ Pairs ⟨true, 0, 0⟩ ((blockIo ⟨true, 0, 0⟩ flushes).run (overlap ⟨0, 70⟩))) ∧
    let single : List (Step Bool) :=
      [.issue false 10 (packPidTgid 1 1) plainComm ⟨8, 87⟩ 0, .complete false 30 ⟨8, 87⟩ 1 true]
    (blockIo ⟨true, 0, 0⟩ writeAndFlush).Valid single ∧
      ((blockIo ⟨true, 0, 0⟩ writeAndFlush).run single).1.rb = [] ∧
      ¬ Pairs ⟨true, 0, 0⟩ ((blockIo ⟨true, 0, 0⟩ writeAndFlush).run single) := by
  refine ⟨⟨by decide +kernel, by decide +kernel, ?_⟩, by decide +kernel, by decide +kernel, ?_⟩
  · exact not_pairs_of_lost (by decide +kernel)
  · exact not_pairs_of_lost (by decide +kernel)

end EbpfToolbox.Fs.BlockIo
