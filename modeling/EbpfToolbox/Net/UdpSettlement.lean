import Mathlib.Data.UInt
import EbpfToolbox.Net.UdpNesting

/-!
# What a UDP send contributes to the statistics

Runs in which no insertion fails and nothing is evicted: every outermost call of
an unfiltered thread is settled once, with its own entry time and return value.
Every counter is accounted for. A nested call moves `nested_calls` and nothing else.
The last section puts the two halves together and shows where the two bounds on a run
come from.
-/

namespace EbpfToolbox.Net.UdpMonitor

open Common Lib

variable {n : ℕ} {T : Type}

/-! ## Contributions -/

/-- What becomes of a call that returned with its context. -/
inductive Outcome : Type where
  | failed
  | filtered
  | dropped
  | reported
deriving DecidableEq, Repr

/-- The counters of `struct UdpMonitor_stats`. -/
inductive Counter : Type where
  | attempted
  | count
  | failed
  | filteredPid
  | filteredLatency
  | ringbufDropped
  | mapUpdateFailed
  | lookupMissed
  | nestedCalls
  | flowTuple
  | fallbackTuple
deriving DecidableEq, Repr

def Stats.get (st : Stats) : Counter → ℕ
  | .attempted => st.attempted
  | .count => st.count
  | .failed => st.failed
  | .filteredPid => st.filteredPid
  | .filteredLatency => st.filteredLatency
  | .ringbufDropped => st.ringbufDropped
  | .mapUpdateFailed => st.mapUpdateFailed
  | .lookupMissed => st.lookupMissed
  | .nestedCalls => st.nestedCalls
  | .flowTuple => st.flowTuple
  | .fallbackTuple => st.fallbackTuple

namespace Sent

def latency (f : Sent) : UInt64 := f.exitTs - f.entryTs

/-- The first of the four that applies. -/
def outcome (c : Ctrl) (f : Sent) : Outcome :=
  if f.retval < 0 then .failed
  else if c.minLatencyNs ≠ 0 ∧ f.latency < c.minLatencyNs then .filtered
  else if f.reserved = false then .dropped
  else .reported

/-- A send that returned a negative value is a failure and nothing else. -/
def contribution (c : Ctrl) (f : Sent) : Counter → ℕ
  | .count => if f.retval < 0 then 0 else 1
  | .failed => if f.retval < 0 then 1 else 0
  | .filteredLatency => if f.outcome c = .filtered then 1 else 0
  | .ringbufDropped => if f.outcome c = .dropped then 1 else 0
  | .flowTuple => if f.retval < 0 then 0 else if f.routed then 1 else 0
  | .fallbackTuple => if f.retval < 0 then 0 else if f.routed then 0 else 1
  | _ => 0

def totalNs (f : Sent) : UInt64 := if f.retval < 0 then 0 else f.latency

def totalBytes (f : Sent) : UInt64 := if f.retval < 0 then 0 else f.retval.toInt64.toUInt64

/-- Return time, latency and result, as an event reports them. -/
def timing (f : Sent) : UInt64 × UInt64 × Int32 := (f.exitTs, f.latency, f.retval)

end Sent

def Event.timing (e : Event) : UInt64 × UInt64 × Int32 := (e.tsNs, e.latencyNs, e.result)

/-- What entries and returns contribute by themselves. -/
def Calls.entries (g : Calls T) : Counter → ℕ
  | .attempted => g.outermost
  | .nestedCalls => g.nested
  | .filteredPid => g.rejectedEntries
  | .lookupMissed => g.rejectedReturns
  | _ => 0

def reportedCalls (c : Ctrl) (fs : List Sent) : List Sent :=
  fs.filter fun f => f.outcome c = .reported

/-- Every counter is what the entries and the finished outermost calls contribute to it, the
totals are those of the finished outermost calls, and the events are in order about those of
them that are reported. -/
structure Settled (c : Ctrl) (s : State n × Calls T) : Prop where
  counters : ∀ k, s.1.stats.total (·.get k) =
    s.2.entries k + (s.2.finished.map (·.contribution c k)).sum
  totalNs : s.1.stats.total (·.totalNs) = (s.2.finished.map Sent.totalNs).sum
  totalBytes : s.1.stats.total (·.totalBytes) = (s.2.finished.map Sent.totalBytes).sum
  events : s.1.rb.map Event.timing = (reportedCalls c s.2.finished).map Sent.timing

/-- One more for one counter. -/
def one (k : Counter) : Counter → ℕ := fun k' => if k' = k then 1 else 0

/-- The update `f` adds `d` to the counters and the contributions of `fs`. -/
def Contributes (c : Ctrl) (f : Stats → Stats) (d : Counter → ℕ) (fs : List Sent) : Prop :=
  ∀ st, (∀ k, (f st).get k = st.get k + (d k + (fs.map (·.contribution c k)).sum)) ∧
    (f st).totalNs = st.totalNs + (fs.map Sent.totalNs).sum ∧
    (f st).totalBytes = st.totalBytes + (fs.map Sent.totalBytes).sum

theorem Settled.modify {c : Ctrl} {s s' : State n × Calls T} (h : Settled c s) (cpu : Fin n)
    {f : Stats → Stats} {d : Counter → ℕ} (fs : List Sent) (es : List Event)
    (hstats : s'.1.stats = s.1.stats.modify cpu f) (hf : Contributes c f d fs)
    (hrb : s'.1.rb = s.1.rb ++ es) (hes : es.map Event.timing = (reportedCalls c fs).map Sent.timing)
    (hfin : s'.2.finished = s.2.finished ++ fs)
    (hd : ∀ k, s'.2.entries k = s.2.entries k + d k) : Settled c s' := by
  obtain ⟨hcounters, hns, hbytes⟩ := hf (s.1.stats cpu)
  refine ⟨fun k => ?_, ?_, ?_, ?_⟩
  · rw [hstats, PerCpu.total_modify_add (fun st : Stats => st.get k) _ _ _ (hcounters k),
      h.counters, hfin, hd, List.map_append, List.sum_append]
    omega
  · rw [hstats, PerCpu.total_modify_add _ _ _ _ hns, h.totalNs, hfin, List.map_append,
      List.sum_append]
  · rw [hstats, PerCpu.total_modify_add _ _ _ _ hbytes, h.totalBytes, hfin, List.map_append,
      List.sum_append]
  · rw [hrb, hfin, List.map_append, h.events, hes]
    simp only [reportedCalls, List.filter_append, List.map_append]

/-- One counter moves, and no call is finished. -/
theorem Settled.bump {c : Ctrl} {s s' : State n × Calls T} (h : Settled c s) (cpu : Fin n)
    {f : Stats → Stats} (k : Counter) (hstats : s'.1.stats = s.1.stats.modify cpu f)
    (hf : ∀ st, (∀ k', (f st).get k' = st.get k' + one k k') ∧ (f st).totalNs = st.totalNs ∧
      (f st).totalBytes = st.totalBytes)
    (hrb : s'.1.rb = s.1.rb) (hfin : s'.2.finished = s.2.finished)
    (hd : ∀ k', s'.2.entries k' = s.2.entries k' + one k k') : Settled c s' := by
  refine h.modify cpu [] [] hstats (d := one k) (fun st => ?_) (by rw [hrb, List.append_nil]) rfl
    (by rw [hfin, List.append_nil]) hd
  obtain ⟨hcounters, hns, hbytes⟩ := hf st
  exact ⟨hcounters, by rw [hns]; exact (add_zero _).symm, by rw [hbytes]; exact (add_zero _).symm⟩

theorem Settled.same {c : Ctrl} {s s' : State n × Calls T} (h : Settled c s)
    (hstats : s'.1.stats = s.1.stats) (hrb : s'.1.rb = s.1.rb)
    (hfin : s'.2.finished = s.2.finished) (hd : s'.2.entries = s.2.entries) : Settled c s' := by
  refine ⟨fun k => ?_, ?_, ?_, ?_⟩
  · rw [hstats, hfin, hd, h.counters]
  · rw [hstats, hfin, h.totalNs]
  · rw [hstats, hfin, h.totalBytes]
  · rw [hrb, hfin, h.events]

/-- The finished call that a snapshot and a return make up. -/
def sentOf (v : UdpStart) (x : ReturnArgs n) : Sent :=
  ⟨v.startTs, x.now, x.retval, x.reserved, decide (v.tupleSource = .flow)⟩

@[simp] theorem sentOf_retval (v : UdpStart) (x : ReturnArgs n) :
    (sentOf v x).retval = x.retval := rfl

@[simp] theorem sentOf_routed (v : UdpStart) (x : ReturnArgs n) :
    (sentOf v x).routed = decide (v.tupleSource = .flow) := rfl

/-- What `settle` adds. -/
theorem settle_contributes (c : Ctrl) (v : UdpStart) (x : ReturnArgs n) (s : State n) :
    ∃ f es, (settle c v x s).stats = s.stats.modify x.cpu f ∧
      Contributes c f (fun _ => 0) [sentOf v x] ∧ (settle c v x s).rb = s.rb ++ es ∧
      es.map Event.timing = (reportedCalls c [sentOf v x]).map Sent.timing := by
  simp only [settle, reportedCalls, List.filter_singleton]
  by_cases hret : x.retval < 0
  · have hout : (sentOf v x).outcome c = .failed := if_pos hret
    simp only [hout, if_pos hret]
    refine ⟨_, [], rfl, fun st => ⟨fun k => ?_, ?_, ?_⟩, (List.append_nil _).symm, rfl⟩
    · cases k <;> simp [Stats.get, Sent.contribution, hout, hret]
    · simp [Sent.totalNs, sentOf, hret]
    · simp [Sent.totalBytes, sentOf, hret]
  have hns : ∀ st : Stats, (st.sent v (x.now - v.startTs) x.retval).totalNs =
      st.totalNs + ([sentOf v x].map Sent.totalNs).sum := by
    intro st
    simp [Stats.sent, Sent.totalNs, Sent.latency, sentOf, hret]
  have hbytes : ∀ st : Stats, (st.sent v (x.now - v.startTs) x.retval).totalBytes =
      st.totalBytes + ([sentOf v x].map Sent.totalBytes).sum := by
    intro st
    simp [Stats.sent, Sent.totalBytes, sentOf, hret]
  by_cases hmin : c.minLatencyNs ≠ 0 ∧ x.now - v.startTs < c.minLatencyNs
  · have hout : (sentOf v x).outcome c = .filtered := (if_neg hret).trans (if_pos hmin)
    simp only [hout, if_neg hret, if_pos hmin]
    refine ⟨_, [], PerCpu.modify_modify _ _ _ _, fun st => ⟨fun k => ?_, hns st, hbytes st⟩,
      (List.append_nil _).symm, rfl⟩
    by_cases hflow : v.tupleSource = .flow <;> cases k <;>
      simp [Stats.get, Stats.sent, Sent.contribution, hout, hret, hflow]
  by_cases hres : x.reserved = false
  · have hout : (sentOf v x).outcome c = .dropped :=
      (if_neg hret).trans ((if_neg hmin).trans (if_pos hres))
    simp only [hout, if_neg hret, if_neg hmin, if_pos hres]
    refine ⟨_, [], PerCpu.modify_modify _ _ _ _, fun st => ⟨fun k => ?_, hns st, hbytes st⟩,
      (List.append_nil _).symm, rfl⟩
    by_cases hflow : v.tupleSource = .flow <;> cases k <;>
      simp [Stats.get, Stats.sent, Sent.contribution, hout, hret, hflow]
  · have hout : (sentOf v x).outcome c = .reported :=
      (if_neg hret).trans ((if_neg hmin).trans (if_neg hres))
    simp only [hout, if_neg hret, if_neg hmin, if_neg hres]
    refine ⟨_, [mkEvent v x], rfl, fun st => ⟨fun k => ?_, hns st, hbytes st⟩, rfl, rfl⟩
    by_cases hflow : v.tupleSource = .flow <;> cases k <;>
      simp [Stats.get, Stats.sent, Sent.contribution, hout, hret, hflow]

/-! ## The call a context belongs to -/

/-- Both insertions of an entry succeed, and nothing is evicted. -/
def Step.succeeds : Step T n → Bool
  | .enter _ _ a => !a.depthFails && !a.startFails
  | .evict _ => false
  | _ => true

/-- The context is the one of this call. -/
def UdpStart.IsOf (v : UdpStart) (call : ActiveCall) : Prop :=
  v.startTs = call.entryTs ∧ call.routed = decide (v.tupleSource = .flow)

/-- The outermost active call is recorded, and the context in `start_map` is its own. -/
def AnchoredAt (cur : Task) (s : State n) (l : List ActiveCall) : Prop :=
  l = [] ∨ ∃ inner o v, l = inner ++ [o] ∧ o.recorded = true ∧
    s.startMap.get cur.pidTgid = some v ∧ v.IsOf o

def Anchored (c : Ctrl) (K : Kernel T) (s : State n × Calls T) : Prop :=
  ∀ t, unfiltered c (K.task t) = true → AnchoredAt (K.task t) s.1 (s.2.stack t)

theorem AnchoredAt.frame_eq {cur : Task} {s s' : State n} {l : List ActiveCall}
    (h : AnchoredAt cur s l)
    (hs : s'.startMap.get cur.pidTgid = s.startMap.get cur.pidTgid) : AnchoredAt cur s' l := by
  rcases h with rfl | ⟨inner, o, v, rfl, ho, hv, hof⟩
  · exact Or.inl rfl
  · exact Or.inr ⟨inner, o, v, rfl, ho, hs.trans hv, hof⟩

/-- A packet is handed on. -/
theorem AnchoredAt.route {cur : Task} {s s' : State n} {l : List ActiveCall}
    (h : AnchoredAt cur s l) {f : UdpStart → UdpStart} {flow : Bool}
    (hs : s'.startMap.get cur.pidTgid = (s.startMap.get cur.pidTgid).map f)
    (hf : ∀ v, (f v).startTs = v.startTs ∧
      (f v).tupleSource = if flow then .flow else v.tupleSource) :
    AnchoredAt cur s' (l.map (ActiveCall.route flow)) := by
  rcases h with rfl | ⟨inner, o, v, rfl, ho, hv, hts, hsource⟩
  · exact Or.inl rfl
  · refine Or.inr ⟨inner.map (ActiveCall.route flow), o.route flow, f v, by simp, ho, ?_, ?_, ?_⟩
    · rw [hs, hv, Option.map_some]
    · rw [(hf v).1]
      exact hts
    · rw [(hf v).2]
      cases flow <;> simp [ActiveCall.route, hsource]

/-- An entry below the outermost call. -/
theorem AnchoredAt.push {cur : Task} {s s' : State n} {l : List ActiveCall}
    (h : AnchoredAt cur s l) (hne : l ≠ [])
    (hs : s'.startMap.get cur.pidTgid = s.startMap.get cur.pidTgid) (call : ActiveCall) :
    AnchoredAt cur s' (call :: l) := by
  rcases h with rfl | ⟨inner, o, v, rfl, ho, hv, hof⟩
  · exact absurd rfl hne
  · exact Or.inr ⟨call :: inner, o, v, rfl, ho, hs.trans hv, hof⟩

/-- A return from a call below the outermost one. -/
theorem AnchoredAt.pop {cur : Task} {s s' : State n} {call : ActiveCall} {rest : List ActiveCall}
    (h : AnchoredAt cur s (call :: rest)) (hne : rest ≠ [])
    (hs : s'.startMap.get cur.pidTgid = s.startMap.get cur.pidTgid) : AnchoredAt cur s' rest := by
  rcases h with h | ⟨inner, o, v, hl, ho, hv, hof⟩
  · cases h
  · cases inner with
    | nil => exact absurd (List.cons.inj hl).2 hne
    | cons call' inner => exact Or.inr ⟨inner, o, v, (List.cons.inj hl).2, ho, hs.trans hv, hof⟩

/-- The depth entry of a thread with an active call. -/
theorem depth_of_anchored {c : Ctrl} {cur : Task} {s : State n} {l : List ActiveCall}
    (ht : TrackedAt c cur s l) (h : AnchoredAt cur s l) (hne : l ≠ []) :
    s.depthMap.get cur.pidTgid = some (UInt32.ofNat l.length) := by
  rcases h with rfl | ⟨inner, o, v, rfl, ho, -, -⟩
  · exact absurd rfl hne
  · rw [ht.depth, depthOf_of_recorded ht.once ho, List.length_append]
    rfl

/-- The address of the entry never comes from a flow. -/
theorem mkStart_tupleSource (visible : UInt64) (a : SendArgs n) :
    (mkStart visible a).tupleSource ≠ .flow := by
  have hname : ∀ v v', readMsgName v a.name = some v' → v'.tupleSource = .msg := by
    intro v v' h
    unfold readMsgName at h
    cases hn : a.name with
    | none => simp [hn] at h
    | some dst =>
        simp only [hn] at h
        split_ifs at h
        cases hf : dst.family with
        | none => simp [hf] at h
        | some family =>
            simp only [hf] at h
            split_ifs at h
            · obtain ⟨sin, _, rfl⟩ := Option.map_eq_some_iff.mp h
              rfl
            · obtain ⟨sin6, _, rfl⟩ := Option.map_eq_some_iff.mp h
              rfl
  simp only [mkStart]
  split
  · rename_i v' hv'
    rw [hname _ v' hv']
    decide
  · split_ifs <;> simp

theorem rewrite_tupleSource (v : UdpStart) (x : FlowArgs UInt32) (y : FlowArgs Addr6) :
    (rewriteV4 x v).tupleSource = (if x.flow.isSome then .flow else v.tupleSource) ∧
      (rewriteV6 y v).tupleSource = if y.flow.isSome then .flow else v.tupleSource := by
  constructor
  · unfold rewriteV4
    cases x.flow <;> rfl
  · unfold rewriteV6
    cases y.flow <;> rfl

/-! ## Steps -/

/-- What a nested call of an unfiltered thread does: its entry moves `nested_calls`, its
return moves nothing; the contexts and the ring buffer stay. -/
structure NestedOnly [DecidableEq T] (c : Ctrl) (K : Kernel T) (s : State n × Calls T) : Prop where
  enter : ∀ family t a, unfiltered c (K.task t) = true → s.2.stack t ≠ [] →
    let s' := (step c K s (.enter family t a)).1
    s'.stats = s.1.stats.modify a.cpu (fun st => { st with nestedCalls := st.nestedCalls + 1 }) ∧
      s'.startMap = s.1.startMap ∧ s'.rb = s.1.rb
  leave : ∀ t x call rest, unfiltered c (K.task t) = true → s.2.stack t = call :: rest →
    rest ≠ [] →
    let s' := (step c K s (.leave t x)).1
    s'.stats = s.1.stats ∧ s'.startMap = s.1.startMap ∧ s'.rb = s.1.rb

variable [DecidableEq T] {c : Ctrl} {K : Kernel T} {s : State n × Calls T}

omit [DecidableEq T] in
/-- The probe of a nested entry. -/
theorem entryProbe_nested (hen : c.enable = true) (family : Family) {t : T} (a : SendArgs n)
    (ht : TrackedAt c (K.task t) s.1 (s.2.stack t)) (hu : unfiltered c (K.task t) = true)
    (h : AnchoredAt (K.task t) s.1 (s.2.stack t)) (hne : s.2.stack t ≠ []) :
    entryProbe c (K.task t) a s.1 family =
      { s.1 with
        depthMap := s.1.depthMap.update (K.task t).pidTgid
          (UInt32.ofNat (s.2.stack t).length + 1) }.bump a.cpu
        fun st => { st with nestedCalls := st.nestedCalls + 1 } := by
  rw [entryProbe_of_unfiltered hen hu]
  simp only [recordUnfiltered, depth_of_anchored ht h hne]

omit [DecidableEq T] in
/-- The probe of a nested return. -/
theorem returnProbe_nested {t : T} (x : ReturnArgs n) {call : ActiveCall} {rest : List ActiveCall}
    (ht : TrackedAt c (K.task t) s.1 (call :: rest)) (h : AnchoredAt (K.task t) s.1 (call :: rest))
    (hne : rest ≠ []) :
    returnProbe c (K.task t) x s.1 call.family =
      { s.1 with
        depthMap := s.1.depthMap.update (K.task t).pidTgid
          (UInt32.ofNat (call :: rest).length - 1) } := by
  have hg := depth_of_anchored ht h (by simp)
  have hgt : 1 < UInt32.ofNat (call :: rest).length := by
    have hpos := List.length_pos_of_ne_nil hne
    rw [UInt32.lt_iff_toNat_lt, UInt32.toNat_ofNat_of_lt' ht.short, List.length_cons]
    simp only [UInt32.toNat_one]
    omega
  rw [returnProbe_eq]
  simp only [finishUdpSend, hg, if_pos hgt]

theorem nestedOnly (hen : c.enable = true) (ht : Tracked c K s) (h : Anchored c K s) :
    NestedOnly c K s := by
  constructor
  · intro family t a hu hne
    simp only [step, entryProbe_nested hen family a (ht t) hu (h t hu) hne]
    exact ⟨rfl, rfl, rfl⟩
  · intro t x call rest hu hst hne
    have htt := ht t
    have hanc := h t hu
    rw [hst] at htt hanc
    simp only [step, hst, returnProbe_nested x htt hanc hne, and_self]

theorem settled_enter_filtered (hen : c.enable = true) (family : Family) {t : T}
    (a : SendArgs n) (hs : Settled c s) (hu : unfiltered c (K.task t) = false) :
    Settled c (step c K s (.enter family t a)) := by
  refine hs.bump a.cpu .filteredPid
    (f := fun st => { st with filteredPid := st.filteredPid + 1 }) ?_ ?_ ?_ ?_ ?_
  · simp only [step, entryProbe_of_filtered hen hu]
    rfl
  · refine fun st => ⟨fun k => ?_, rfl, rfl⟩
    cases k <;> rfl
  · simp only [step, entryProbe_of_filtered hen hu]
    rfl
  · simp only [step, Calls.enter, if_pos hu]
  · intro k
    simp only [step, Calls.enter, if_pos hu]
    cases k <;> rfl

/-- The first entry of an unfiltered thread stores its context. -/
theorem settled_enter_outermost (hen : c.enable = true) (family : Family) {t : T}
    (a : SendArgs n) (ht : TrackedAt c (K.task t) s.1 (s.2.stack t)) (hs : Settled c s)
    (hu : unfiltered c (K.task t) = true) (hst : s.2.stack t = [])
    (hok : a.depthFails = false ∧ a.startFails = false) :
    Settled c (step c K s (.enter family t a)) ∧
      AnchoredAt (K.task t) (step c K s (.enter family t a)).1
        ((step c K s (.enter family t a)).2.stack t) := by
  have hg : s.1.depthMap.get (K.task t).pidTgid = none := by simp [ht.depth, hst, depthOf]
  have hprobe := entryProbe_of_unfiltered (s := s.1) hen hu a family
  simp only [recordUnfiltered, hg, hok, Bool.false_eq_true, if_false] at hprobe
  have hne : ¬unfiltered c (K.task t) = false := by simp [hu]
  constructor
  · refine hs.bump a.cpu .attempted
      (f := fun st => { st with attempted := st.attempted + 1 }) ?_ ?_ ?_ ?_ ?_
    · simp only [step, hprobe]
      rfl
    · refine fun st => ⟨fun k => ?_, rfl, rfl⟩
      cases k <;> rfl
    · simp only [step, hprobe]
      rfl
    · simp only [step, Calls.enter, if_neg hne, hst, List.isEmpty_nil, if_true]
    · intro k
      simp only [step, Calls.enter, if_neg hne, hst, List.isEmpty_nil, if_true]
      cases k <;> rfl
  · refine Or.inr ⟨[], enterCall c (K.task t) family a [],
      mkStart (appCurrentPidTgidNs (K.task t) c.pidNsDev c.pidNsIno) a, ?_, ?_, ?_,
      mkStart_startTs _ _, ?_⟩
    · simp [step, stack_enter, hst]
    · simp [enterCall, hu, hok]
    · simp [step, hprobe, State.bump]
    · simp [enterCall, mkStart_tupleSource]

theorem settled_enter_nested (hen : c.enable = true) (family : Family) {t : T}
    (a : SendArgs n) (ht : TrackedAt c (K.task t) s.1 (s.2.stack t)) (hs : Settled c s)
    (hu : unfiltered c (K.task t) = true) (h : AnchoredAt (K.task t) s.1 (s.2.stack t))
    (hne : s.2.stack t ≠ []) :
    Settled c (step c K s (.enter family t a)) ∧
      AnchoredAt (K.task t) (step c K s (.enter family t a)).1
        ((step c K s (.enter family t a)).2.stack t) := by
  have hprobe := entryProbe_nested hen family a ht hu h hne
  have hpass : ¬unfiltered c (K.task t) = false := by simp [hu]
  have hempty : ¬(s.2.stack t).isEmpty = true := by simpa using hne
  constructor
  · refine hs.bump a.cpu .nestedCalls
      (f := fun st => { st with nestedCalls := st.nestedCalls + 1 }) ?_ ?_ ?_ ?_ ?_
    · simp only [step, hprobe]
      rfl
    · refine fun st => ⟨fun k => ?_, rfl, rfl⟩
      cases k <;> rfl
    · simp only [step, hprobe]
      rfl
    · simp only [step, Calls.enter, if_neg hpass, if_neg hempty]
    · intro k
      simp only [step, Calls.enter, if_neg hpass, if_neg hempty]
      cases k <;> rfl
  · simp only [step, stack_enter, Function.update_self]
    refine h.push hne ?_ _
    rw [hprobe]
    rfl

theorem settled_leave_filtered (hen : c.enable = true) {t : T} (x : ReturnArgs n)
    (ht : TrackedAt c (K.task t) s.1 (s.2.stack t)) (hs : Settled c s)
    (hu : unfiltered c (K.task t) = false) : Settled c (step c K s (.leave t x)) := by
  have hg : s.1.depthMap.get (K.task t).pidTgid = none := by simp [ht.depth, ht.filtered hu]
  cases hst : s.2.stack t with
  | nil =>
      simp only [step, hst]
      exact hs
  | cons call rest =>
      have hprobe : returnProbe c (K.task t) x s.1 call.family =
          s.1.bump x.cpu fun st => { st with lookupMissed := st.lookupMissed + 1 } := by
        simp only [returnProbe_eq, finishUdpSend, hg, missed, hen, if_true]
      refine hs.bump x.cpu .lookupMissed
        (f := fun st => { st with lookupMissed := st.lookupMissed + 1 }) ?_ ?_ ?_ ?_ ?_
      · simp only [step, hst, hprobe]
        rfl
      · refine fun st => ⟨fun k => ?_, rfl, rfl⟩
        cases k <;> rfl
      · simp only [step, hst, hprobe]
        rfl
      · simp only [step, hst, Calls.leave, if_pos hu]
      · intro k
        simp only [step, hst, Calls.leave, if_pos hu]
        cases k <;> rfl

theorem settled_leave_nested {t : T} (x : ReturnArgs n) {call : ActiveCall}
    {rest : List ActiveCall} (hst : s.2.stack t = call :: rest)
    (ht : TrackedAt c (K.task t) s.1 (call :: rest)) (hs : Settled c s)
    (hu : unfiltered c (K.task t) = true) (h : AnchoredAt (K.task t) s.1 (call :: rest))
    (hne : rest ≠ []) :
    Settled c (step c K s (.leave t x)) ∧
      AnchoredAt (K.task t) (step c K s (.leave t x)).1 ((step c K s (.leave t x)).2.stack t) := by
  have hprobe := returnProbe_nested x ht h hne
  have hpass : ¬unfiltered c (K.task t) = false := by simp [hu]
  have hempty : ¬rest.isEmpty = true := by simpa using hne
  constructor
  · refine hs.same ?_ ?_ ?_ ?_
    · simp only [step, hst, hprobe]
    · simp only [step, hst, hprobe]
    · simp only [step, hst, Calls.leave, if_neg hpass, if_neg hempty]
    · simp only [step, hst, Calls.leave, if_neg hpass, if_neg hempty]
      rfl
  · simp only [step, hst, stack_leave, Function.update_self, hprobe]
    exact h.pop hne rfl

/-- The return of the outermost call settles it with its own context. -/
theorem settled_leave_outermost (hen : c.enable = true) {t : T} (x : ReturnArgs n)
    {call : ActiveCall} (hst : s.2.stack t = [call])
    (ht : TrackedAt c (K.task t) s.1 [call]) (hs : Settled c s)
    (hu : unfiltered c (K.task t) = true) (h : AnchoredAt (K.task t) s.1 [call]) :
    Settled c (step c K s (.leave t x)) := by
  obtain ⟨v, hv, hts, hsource⟩ : ∃ v, s.1.startMap.get (K.task t).pidTgid = some v ∧
      v.IsOf call := by
    rcases h with h | ⟨inner, o, v, hl, -, hv, hof⟩
    · cases h
    · cases inner with
      | nil => exact ⟨v, hv, (List.cons.inj hl).1 ▸ hof⟩
      | cons _ inner => simp at hl
  have hg : s.1.depthMap.get (K.task t).pidTgid = some 1 := depth_of_anchored ht h (by simp)
  have hnz : v.startTs ≠ 0 := (ht.start v hv).2
  have hle : ¬(1 : UInt32) < 1 := by decide
  have hprobe : returnProbe c (K.task t) x s.1 call.family = finishUdpSend c (K.task t) x s.1 :=
    returnProbe_eq x call.family
  simp only [finishUdpSend, hg, if_neg hle, finishOutermost, hv, if_neg hnz, hen,
    Bool.true_eq_false, if_false] at hprobe
  obtain ⟨f, es, hstats, hf, hrb, hes⟩ := settle_contributes c v x
    { s.1 with
      depthMap := s.1.depthMap.delete (K.task t).pidTgid
      startMap := s.1.startMap.delete (K.task t).pidTgid }
  have hpass : ¬unfiltered c (K.task t) = false := by simp [hu]
  refine hs.modify x.cpu [sentOf v x] es (f := f) ?_ hf ?_ hes ?_ ?_
  · simp only [step, hst, hprobe]
    exact hstats
  · simp only [step, hst, hprobe]
    exact hrb
  · simp only [step, hst, Calls.leave, if_neg hpass, List.isEmpty_nil, if_true, sentOf, hts, hsource]
  · intro k
    simp only [step, hst, Calls.leave, if_neg hpass, List.isEmpty_nil, if_true]
    cases k <;> rfl

theorem anchored_rewrite (h : Anchored c K s) (t : T) {flow : Bool} {f : UdpStart → UdpStart}
    (hf : ∀ v, (f v).startTs = v.startTs ∧
      (f v).tupleSource = if flow then .flow else v.tupleSource) :
    Anchored c K ({ s.1 with startMap := s.1.startMap.modify (K.task t).pidTgid f },
      s.2.route t flow) := by
  intro u hu
  simp only [Calls.route]
  by_cases hut : u = t
  · subst hut
    rw [Function.update_self]
    exact (h u hu).route (by simp [BpfMap.get_modify]) hf
  · rw [Function.update_of_ne hut]
    exact (h u hu).frame_eq (by simp [BpfMap.get_modify, K.pidTgid_ne hut])

omit [DecidableEq T] in
theorem anchored_of_own {t : T}
    (hothers : ∀ u, u ≠ t → unfiltered c (K.task u) = true →
      AnchoredAt (K.task u) s.1 (s.2.stack u))
    (hown : unfiltered c (K.task t) = true → AnchoredAt (K.task t) s.1 (s.2.stack t)) :
    Anchored c K s := by
  intro u hu
  by_cases hut : u = t
  · subst hut
    exact hown hu
  · exact hothers u hut hu

theorem settled_step (hen : c.enable = true) {e : Step T n} (ht : Tracked c K s)
    (h : Anchored c K s) (hs : Settled c s) (ha : (sends n c K).Allowed s e)
    (hok : e.succeeds = true) :
    Anchored c K (step c K s e) ∧ Settled c (step c K s e) := by
  cases e with
  | enter family t a =>
      -- the other threads do not notice
      have hothers : ∀ u, u ≠ t → unfiltered c (K.task u) = true →
          AnchoredAt (K.task u) (step c K s (.enter family t a)).1
            ((step c K s (.enter family t a)).2.stack u) := by
        intro u hut hu
        simp only [step, stack_enter, Function.update_of_ne hut]
        exact (h u hu).frame_eq (entryProbe_frame a family (K.pidTgid_ne hut)).2
      suffices hrun : Settled c (step c K s (.enter family t a)) ∧
          (unfiltered c (K.task t) = true →
            AnchoredAt (K.task t) (step c K s (.enter family t a)).1
              ((step c K s (.enter family t a)).2.stack t)) from
        ⟨anchored_of_own hothers hrun.2, hrun.1⟩
      cases hu : unfiltered c (K.task t) with
      | false => exact ⟨settled_enter_filtered hen family a hs hu, fun hf => by cases hf⟩
      | true =>
          obtain ⟨hdf, hsf⟩ : a.depthFails = false ∧ a.startFails = false := by
            simpa [Step.succeeds] using hok
          by_cases hst : s.2.stack t = []
          · obtain ⟨hset, hanc⟩ :=
              settled_enter_outermost hen family a (ht t) hs hu hst ⟨hdf, hsf⟩
            exact ⟨hset, fun _ => hanc⟩
          · obtain ⟨hset, hanc⟩ := settled_enter_nested hen family a (ht t) hs hu (h t hu) hst
            exact ⟨hset, fun _ => hanc⟩
  | leave t x =>
      obtain ⟨call, rest, hst⟩ : ∃ call rest, s.2.stack t = call :: rest :=
        List.ne_nil_iff_exists_cons.mp (List.isEmpty_eq_false_iff.mp ha)
      have hothers : ∀ u, u ≠ t → unfiltered c (K.task u) = true →
          AnchoredAt (K.task u) (step c K s (.leave t x)).1
            ((step c K s (.leave t x)).2.stack u) := by
        intro u hut hu
        simp only [step, hst, stack_leave, Function.update_of_ne hut]
        exact (h u hu).frame_eq (returnProbe_frame x call.family (K.pidTgid_ne hut)).2
      suffices hrun : Settled c (step c K s (.leave t x)) ∧
          (unfiltered c (K.task t) = true →
            AnchoredAt (K.task t) (step c K s (.leave t x)).1
              ((step c K s (.leave t x)).2.stack t)) from
        ⟨anchored_of_own hothers hrun.2, hrun.1⟩
      cases hu : unfiltered c (K.task t) with
      | false => exact ⟨settled_leave_filtered hen x (ht t) hs hu, fun hf => by cases hf⟩
      | true =>
          have htt := ht t
          have hanc := h t hu
          rw [hst] at htt hanc
          by_cases hne : rest = []
          · subst hne
            refine ⟨settled_leave_outermost hen x hst htt hs hu hanc, fun _ => Or.inl ?_⟩
            simp [step, hst, stack_leave]
          · obtain ⟨hset, hanc'⟩ := settled_leave_nested x hst htt hs hu hanc hne
            exact ⟨hset, fun _ => hanc'⟩
  | sendSkb t x =>
      refine ⟨anchored_rewrite h t fun v => ?_, hs.same rfl rfl rfl rfl⟩
      exact ⟨(rewrite_startTs v x ⟨none, none⟩).1, (rewrite_tupleSource v x ⟨none, none⟩).1⟩
  | sendSkbV6 t x =>
      refine ⟨anchored_rewrite h t fun v => ?_, hs.same rfl rfl rfl rfl⟩
      exact ⟨(rewrite_startTs v ⟨none, none⟩ x).2, (rewrite_tupleSource v ⟨none, none⟩ x).2⟩
  | evict key => cases hok

/-! ## Runs -/

instance (s : State n × Calls T) (e : Step T n) : Decidable (InRange s e) :=
  match e with
  | .enter _ t a => inferInstanceAs (Decidable ((s.2.stack t).length + 1 < 2 ^ 32 ∧ a.now ≠ 0))
  | .leave .. | .sendSkb .. | .sendSkbV6 .. | .evict .. => inferInstanceAs (Decidable True)

theorem tracked_run (hen : c.enable = true) {es : List (Step T n)}
    (hv : ((sends n c K).restrict InRange).Valid es) :
    Tracked c K ((sends n c K).run es) ∧ ((∀ e ∈ es, e.succeeds = true) →
      Anchored c K ((sends n c K).run es) ∧ Settled c ((sends n c K).run es)) := by
  induction es using List.reverseRecOn with
  | nil =>
      refine ⟨fun t => ⟨rfl, ?_, trivial, fun _ => rfl, Nat.two_pow_pos 32⟩, fun _ => ⟨?_, ?_⟩⟩
      · intro v hv
        simp [Machine.run, Machine.runFrom, sends, State.start] at hv
      · exact fun t _ => Or.inl rfl
      · refine ⟨fun k => ?_, PerCpu.total_const_zero _ _ rfl, PerCpu.total_const_zero _ _ rfl, rfl⟩
        cases k <;> exact PerCpu.total_const_zero _ _ rfl
  | append_singleton es e ih =>
      rw [Machine.valid_snoc] at hv
      rcases hv with ⟨hv, ha, hr⟩
      obtain ⟨ht, hset⟩ := ih hv
      rw [Machine.run_snoc]
      refine ⟨tracked_step hen ht ha hr, fun hok => ?_⟩
      obtain ⟨hanc, hs⟩ := hset fun e' he' => hok e' (List.mem_append_left _ he')
      exact settled_step hen ht hanc hs ha (hok e (by simp))

/-- In every run whose depths fit 32 bits the maps follow the stacks, whatever
fails or is evicted; and when nothing fails and nothing is evicted the
statistics are those of the outermost calls, and a nested call moves `nested_calls` only. -/
theorem maps_follow_the_active_calls (c : Ctrl) (K : Kernel T) (hen : c.enable = true)
    {es : List (Step T n)} (hv : ((sends n c K).restrict InRange).Valid es) :
    Tracks c K ((sends n c K).run es) ∧
      ((∀ e ∈ es, e.succeeds = true) →
        Settled c ((sends n c K).run es) ∧ NestedOnly c K ((sends n c K).run es)) := by
  obtain ⟨htracked, hset⟩ := tracked_run hen hv
  refine ⟨htracked.tracks, fun hok => ?_⟩
  obtain ⟨hanchored, hsettled⟩ := hset hok
  exact ⟨hsettled, nestedOnly hen htracked hanchored⟩

/-- A mapped IPv6 send: `udpv6_sendmsg` calls `udp_sendmsg`, and the outer call is
the one that counts. -/
theorem mapped_send_settles_once :
    let c : Ctrl := ⟨true, 0, 0, 0, 0⟩
    let sock : Sock := ⟨afInet6, 40000, 53, 1, 2, Vector.replicate _ 0, Vector.replicate _ 0⟩
    let es : List (Step (Fin 2) 1) :=
      [.enter .v6 0 ⟨0, 10, Vector.replicate _ 0, sock, 5, none, false, false⟩,
        .enter .v4 0 ⟨0, 20, Vector.replicate _ 0, sock, 5, none, false, false⟩,
        .leave 0 ⟨0, 30, 5, true⟩, .leave 0 ⟨0, 45, 5, true⟩]
    let s := (sends 1 c Kernel.two).run es
    (s.1.stats.total (·.count), s.1.stats.total (·.totalNs), s.1.stats.total (·.nestedCalls)) =
        (1, 35, 1) ∧
      Tracks c Kernel.two s ∧ Settled c s ∧ NestedOnly c Kernel.two s := by
  intro c sock es s
  have hv : ((sends 1 c Kernel.two).restrict InRange).Valid es := by decide +kernel
  obtain ⟨htracks, hset⟩ := maps_follow_the_active_calls c Kernel.two rfl hv
  exact ⟨by decide +kernel, htracks, hset (by decide +kernel)⟩

/-! ## The two bounds -/

/-- `k + 1` entries of one thread without a return: the depth counts modulo `2 ^ 32`. -/
theorem nested_entries (hen : c.enable = true) (family : Family) {t : T} {a : SendArgs n}
    (hu : unfiltered c (K.task t) = true) (hdf : a.depthFails = false)
    (hsf : a.startFails = false) (k : ℕ) :
    let es : List (Step T n) := List.replicate (k + 1) (.enter family t a)
    (sends n c K).Valid es ∧
      ((sends n c K).run es).1.depthMap.get (K.task t).pidTgid = some (UInt32.ofNat (k + 1)) ∧
      ∃ inner o, ((sends n c K).run es).2.stack t = inner ++ [o] ∧ inner.length = k ∧
        o.recorded = true := by
  intro es
  induction k with
  | zero =>
      have hprobe : entryProbe c (K.task t) a (State.start n) family = _ :=
        entryProbe_of_unfiltered hen hu a family
      simp only [recordUnfiltered, State.start, BpfMap.get_empty, hdf, hsf, Bool.false_eq_true,
        if_false] at hprobe
      refine ⟨⟨trivial, trivial⟩, ?_, [], enterCall c (K.task t) family a [], ?_, rfl, ?_⟩
      · change (entryProbe c (K.task t) a (State.start n) family).depthMap.get _ = _
        simp only [State.start, hprobe, State.bump, BpfMap.get_update_self]
        rfl
      · change (Calls.enter c K _ family t a).stack t = _
        rw [stack_enter, Function.update_self]
        rfl
      · simp [enterCall, hu, hdf, hsf]
  | succ k ih =>
      rcases ih with ⟨hv, hd, inner, o, hst, hlen, ho⟩
      have hes : es = List.replicate (k + 1) (.enter family t a) ++ [.enter family t a] :=
        List.replicate_succ'
      rw [hes, Machine.run_snoc, Machine.valid_snoc]
      generalize (sends n c K).run (List.replicate (k + 1) (.enter family t a)) = s at hd hst ⊢
      have hprobe := entryProbe_of_unfiltered (s := s.1) hen hu a family
      simp only [recordUnfiltered, hd] at hprobe
      refine ⟨⟨hv, trivial⟩, ?_,
        enterCall c (K.task t) family a (inner ++ [o]) :: inner, o, ?_,
        by rw [List.length_cons, hlen], ho⟩
      · change (entryProbe c (K.task t) a s.1 family).depthMap.get _ = _
        simp only [hprobe, State.bump, BpfMap.get_update_self, UInt32.ofNat_add]
        rfl
      · change (Calls.enter c K s.2 family t a).stack t = _
        rw [stack_enter, Function.update_self, hst]
        rfl

/-- Why a run has to stay in range. `2 ^ 32` nested entries bring the depth back
to 0; and a context that starts at time 0 is taken for an empty one and stays
behind when its thread is idle again. -/
theorem depth_wraps_and_zero_start_stays :
    let c : Ctrl := ⟨true, 0, 0, 0, 0⟩
    let sock : Sock := ⟨afInet, 40000, 53, 1, 2, Vector.replicate _ 0, Vector.replicate _ 0⟩
    let deep : List (Step (Fin 2) 1) := List.replicate (2 ^ 32)
      (.enter .v4 0 ⟨0, 10, Vector.replicate _ 0, sock, 5, none, false, false⟩)
    let early : List (Step (Fin 2) 1) :=
      [.enter .v4 0 ⟨0, 0, Vector.replicate _ 0, sock, 5, none, false, false⟩,
        .leave 0 ⟨0, 30, 5, true⟩]
    ((sends 1 c Kernel.two).Valid deep ∧
        ((sends 1 c Kernel.two).run deep).1.depthMap.get (Kernel.two.task 0).pidTgid = some 0 ∧
        ¬ Tracks c Kernel.two ((sends 1 c Kernel.two).run deep)) ∧
      (sends 1 c Kernel.two).Valid early ∧
        ((sends 1 c Kernel.two).run early).2.stack 0 = [] ∧
        ((sends 1 c Kernel.two).run early).1.startMap.get (Kernel.two.task 0).pidTgid ≠ none ∧
        ¬ Tracks c Kernel.two ((sends 1 c Kernel.two).run early) := by
  intro c sock deep early
  obtain ⟨hv, hd, inner, o, hst, hlen, ho⟩ := nested_entries (n := 1) (c := c) (K := Kernel.two)
    rfl .v4 (t := 0) (a := ⟨0, 10, Vector.replicate _ 0, sock, 5, none, false, false⟩)
    (by decide +kernel) rfl rfl (2 ^ 32 - 1)
  have hpow : 2 ^ 32 - 1 + 1 = 2 ^ 32 := by norm_num
  have hdeep : deep = List.replicate (2 ^ 32 - 1 + 1)
      (.enter .v4 0 ⟨0, 10, Vector.replicate _ 0, sock, 5, none, false, false⟩) := by rw [hpow]
  have hzero : UInt32.ofNat (2 ^ 32 - 1 + 1) = 0 := by decide +kernel
  rw [← hdeep] at hv hd hst
  rw [hzero] at hd
  clear_value deep
  refine ⟨⟨hv, hd, fun h => ?_⟩, by decide +kernel, ?_, ?_, fun h => ?_⟩
  · have hval := h.value 0 inner o [] hst ho
    rw [hd, hlen, hpow] at hval
    simp at hval
  · rfl
  · decide +kernel
  · exact absurd (h.idle 0 rfl).2 (by decide +kernel)

end EbpfToolbox.Net.UdpMonitor
