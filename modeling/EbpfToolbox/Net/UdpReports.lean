import EbpfToolbox.Net.Summary
import EbpfToolbox.Net.UdpSettlement

/-!
# What udp_monitor reports about a send

`ledger` is the monitor as one would like to have it: every thread has a stack of
active calls, and the call that is being recorded carries its own context. There
is no depth counter, no key and no shared map; a context is rewritten by the
thread that owns the call and is handed over when that call returns.

The two maps of the probes implement it. Whatever fails to be inserted and
whatever is evicted, the events, the statistics and the printed summary of a run
are those of the finished calls of the ledger.
-/

namespace EbpfToolbox.Net.UdpMonitor

open Common Lib

variable {n : ℕ} {T : Type}

/-! ## The ledger -/

/-- An active call. The recorded call of a thread carries its context until it is
evicted. -/
inductive Frame : Type where
  | silent
  | recorded (context : Option UdpStart)

namespace Frame

def isRecorded : Frame → Bool
  | silent => false
  | recorded _ => true

def rewrite (f : UdpStart → UdpStart) : Frame → Frame
  | silent => silent
  | recorded context => recorded (context.map f)

def evict : Frame → Frame
  | silent => silent
  | recorded _ => recorded none

@[simp] theorem isRecorded_rewrite (f : UdpStart → UdpStart) (frame : Frame) :
    (frame.rewrite f).isRecorded = frame.isRecorded := by
  cases frame <;> rfl

@[simp] theorem isRecorded_evict (frame : Frame) : frame.evict.isRecorded = frame.isRecorded := by
  cases frame <;> rfl

end Frame

/-- A recorded call that returned with its context. -/
structure Finished (n : ℕ) where
  context : UdpStart
  ret : ReturnArgs n

/-- The active calls, the finished ones, the number of recorded calls that lost
their context and the number of returns outside any recorded call. -/
structure Ledger (T : Type) (n : ℕ) where
  active : T → List Frame
  finished : List (Finished n)
  lost : ℕ
  unrecorded : ℕ

/-- A call is recorded when its thread passes the filters, no call of the thread is
being recorded and both insertions succeed. -/
def enterFrame (c : Ctrl) (cur : Task) (a : SendArgs n) (active : List Frame) : Frame :=
  if unfiltered c cur && !active.any Frame.isRecorded && !a.depthFails && !a.startFails then
    .recorded (some (mkStart (appCurrentPidTgidNs cur c.pidNsDev c.pidNsIno) a))
  else .silent

variable [DecidableEq T]

def Ledger.leave (g : Ledger T n) (t : T) (x : ReturnArgs n) : Ledger T n :=
  match g.active t with
  | [] => g
  | frame :: rest =>
      let g := { g with active := Function.update g.active t rest }
      match frame with
      | .recorded (some v) => { g with finished := g.finished ++ [⟨v, x⟩] }
      | .recorded none => { g with lost := g.lost + 1 }
      | .silent =>
          if rest.any Frame.isRecorded then g else { g with unrecorded := g.unrecorded + 1 }

def Ledger.rewrite (g : Ledger T n) (t : T) (f : UdpStart → UdpStart) : Ledger T n :=
  { g with active := Function.update g.active t ((g.active t).map (Frame.rewrite f)) }

def Ledger.step (c : Ctrl) (K : Kernel T) (g : Ledger T n) : Step T n → Ledger T n
  | .enter _ t a =>
      { g with
        active := Function.update g.active t
          (enterFrame c (K.task t) a (g.active t) :: g.active t) }
  | .leave t x => g.leave t x
  | .sendSkb t x => g.rewrite t (rewriteV4 x)
  | .sendSkbV6 t x => g.rewrite t (rewriteV6 x)
  | .evict key =>
      { g with
        active := fun t =>
          if (K.task t).pidTgid = key then (g.active t).map Frame.evict else g.active t }

def ledger (n : ℕ) (c : Ctrl) (K : Kernel T) : Machine (Ledger T n) (Step T n) where
  init := ⟨fun _ => [], [], 0, 0⟩
  step := Ledger.step c K
  Allowed _ _ := True

/-! ## What becomes of a finished call -/

namespace Finished

def latency (f : Finished n) : UInt64 := f.ret.now - f.context.startTs

/-- The first of the four that applies. -/
def outcome (c : Ctrl) (f : Finished n) : Outcome :=
  if f.ret.retval < 0 then .failed
  else if c.minLatencyNs ≠ 0 ∧ f.latency < c.minLatencyNs then .filtered
  else if f.ret.reserved = false then .dropped
  else .reported

def event (f : Finished n) : Event := mkEvent f.context f.ret

/-- A send that did not fail is a sample on the CPU it returned on. -/
def sample (f : Finished n) : Option (Fin n × Sample) :=
  if f.ret.retval < 0 then none else some (f.ret.cpu, ⟨f.context, f.latency, f.ret.retval⟩)

end Finished

def tally (c : Ctrl) (l : List (Finished n)) (o : Outcome) : ℕ := l.countP fun f => f.outcome c = o

def reported (c : Ctrl) (l : List (Finished n)) : List Event :=
  (l.filter fun f => f.outcome c = .reported).map Finished.event

def samples (l : List (Finished n)) : List (Fin n × Sample) := l.filterMap Finished.sample

/-! ## The books -/

/-- The part of the statistics that only a successful send moves. -/
def Stats.sends (st : Stats) : Stats where
  count := st.count
  totalNs := st.totalNs
  maxNs := st.maxNs
  totalBytes := st.totalBytes
  flowTuple := st.flowTuple
  fallbackTuple := st.fallbackTuple
  maxPid := st.maxPid
  maxTid := st.maxTid
  maxComm := st.maxComm

/-- The ring buffer and the statistics are those of the ledger's calls. A recorded
call is finished, lost or still has its entry in `depth_map`. -/
structure Reports (c : Ctrl) (s : State n) (g : Ledger T n) : Prop where
  events : s.rb = reported c g.finished
  sends : s.stats.map Stats.sends = aggregate (samples g.finished)
  failed : s.stats.total (·.failed) = tally c g.finished .failed
  filtered : s.stats.total (·.filteredLatency) = tally c g.finished .filtered
  dropped : s.stats.total (·.ringbufDropped) = tally c g.finished .dropped
  attempted : s.stats.total (·.attempted) = g.finished.length + g.lost + s.depthMap.size
  missed : s.stats.total (·.lookupMissed) = g.lost + g.unrecorded

/-- An update that finishes no call: `i` calls are attempted and `m` are missed. -/
def Quiet (f : Stats → Stats) (i m : ℕ) : Prop :=
  ∀ st, (f st).sends = st.sends ∧ (f st).failed = st.failed ∧
    (f st).filteredLatency = st.filteredLatency ∧ (f st).ringbufDropped = st.ringbufDropped ∧
    (f st).attempted = st.attempted + i ∧ (f st).lookupMissed = st.lookupMissed + m

namespace Reports

variable {c : Ctrl} {s s' : State n} {g g' : Ledger T n}

omit [DecidableEq T] in
theorem quiet (h : Reports c s g) {cpu : Fin n} {f : Stats → Stats} {i m : ℕ}
    (hstats : s'.stats = s.stats.modify cpu f) (hf : Quiet f i m) (hrb : s'.rb = s.rb)
    (hfin : g'.finished = g.finished)
    (hsize : g'.lost + s'.depthMap.size = g.lost + s.depthMap.size + i)
    (hmiss : g'.lost + g'.unrecorded = g.lost + g.unrecorded + m) : Reports c s' g' := by
  obtain ⟨-, hfailed, hfiltered, hdropped, hattempted, hmissed⟩ := hf (s.stats cpu)
  refine ⟨?_, ?_, ?_, ?_, ?_, ?_, ?_⟩
  · rw [hrb, hfin, h.events]
  · rw [hstats, PerCpu.map_modify_of_hidden (fun st => (hf st).1), h.sends, hfin]
  · rw [hstats, PerCpu.total_modify_add (d := 0) _ _ _ _ hfailed, h.failed, hfin, add_zero]
  · rw [hstats, PerCpu.total_modify_add (d := 0) _ _ _ _ hfiltered, h.filtered, hfin, add_zero]
  · rw [hstats, PerCpu.total_modify_add (d := 0) _ _ _ _ hdropped, h.dropped, hfin, add_zero]
  · rw [hstats, PerCpu.total_modify_add _ _ _ _ hattempted, h.attempted, hfin]
    omega
  · rw [hstats, PerCpu.total_modify_add _ _ _ _ hmissed, h.missed, hmiss]

omit [DecidableEq T] in
/-- Neither the statistics nor the ring buffer move. -/
theorem same (h : Reports c s g) (hstats : s'.stats = s.stats) (hrb : s'.rb = s.rb)
    (hsize : s'.depthMap.size = s.depthMap.size) (hfin : g'.finished = g.finished)
    (hlost : g'.lost = g.lost) (hun : g'.unrecorded = g.unrecorded) : Reports c s' g' := by
  refine ⟨?_, ?_, ?_, ?_, ?_, ?_, ?_⟩
  · rw [hrb, hfin, h.events]
  · rw [hstats, h.sends, hfin]
  · rw [hstats, h.failed, hfin]
  · rw [hstats, h.filtered, hfin]
  · rw [hstats, h.dropped, hfin]
  · rw [hstats, h.attempted, hfin, hlost, hsize]
  · rw [hstats, h.missed, hlost, hun]

end Reports

/-- What `settle` does with one finished call. -/
theorem settle_outcome (c : Ctrl) (f : Finished n) (s : State n) :
    ∃ u : Stats → Stats, (settle c f.context f.ret s).stats = s.stats.modify f.ret.cpu u ∧
      (∀ st, (u st).sends = f.sample.elim st.sends (fun x => st.sends.sample x.2) ∧
        (u st).failed = st.failed + tally c [f] .failed ∧
        (u st).filteredLatency = st.filteredLatency + tally c [f] .filtered ∧
        (u st).ringbufDropped = st.ringbufDropped + tally c [f] .dropped ∧
        (u st).attempted = st.attempted ∧ (u st).lookupMissed = st.lookupMissed) ∧
      (settle c f.context f.ret s).rb = s.rb ++ reported c [f] := by
  simp only [settle, tally, reported, Finished.sample, List.countP_singleton,
    List.filter_singleton]
  by_cases hret : f.ret.retval < 0
  · have hout : f.outcome c = .failed := if_pos hret
    simp only [hout, if_pos hret]
    exact ⟨_, rfl, fun st => ⟨rfl, rfl, rfl, rfl, rfl, rfl⟩, (List.append_nil _).symm⟩
  by_cases hmin : c.minLatencyNs ≠ 0 ∧ f.ret.now - f.context.startTs < c.minLatencyNs
  · have hout : f.outcome c = .filtered := (if_neg hret).trans (if_pos hmin)
    simp only [hout, if_neg hret, if_pos hmin]
    exact ⟨_, PerCpu.modify_modify _ _ _ _, fun st => ⟨rfl, rfl, rfl, rfl, rfl, rfl⟩,
      (List.append_nil _).symm⟩
  by_cases hres : f.ret.reserved = false
  · have hout : f.outcome c = .dropped := (if_neg hret).trans ((if_neg hmin).trans (if_pos hres))
    simp only [hout, if_neg hret, if_neg hmin, if_pos hres]
    exact ⟨_, PerCpu.modify_modify _ _ _ _, fun st => ⟨rfl, rfl, rfl, rfl, rfl, rfl⟩,
      (List.append_nil _).symm⟩
  · have hout : f.outcome c = .reported := (if_neg hret).trans ((if_neg hmin).trans (if_neg hres))
    simp only [hout, if_neg hret, if_neg hmin, if_neg hres]
    exact ⟨_, rfl, fun st => ⟨rfl, rfl, rfl, rfl, rfl, rfl⟩, rfl⟩

theorem aggregate_snoc (l : List (Finished n)) (f : Finished n) :
    aggregate (samples (l ++ [f])) = (aggregate (samples l)).modify f.ret.cpu
      fun st => f.sample.elim st (fun x => st.sample x.2) := by
  simp only [samples, List.filterMap_append]
  unfold Finished.sample
  by_cases hret : f.ret.retval < 0
  · have hid : ∀ p : PerCpu n Stats, p.modify f.ret.cpu (fun st => st) = p := fun p => by
      simp [PerCpu.modify]
    simp [hret, hid]
  · simp only [List.filterMap_cons, List.filterMap_nil, hret, if_false, Option.elim_some]
    exact spread_snoc _ _

omit [DecidableEq T] in
/-- A finished call is entered into the books. -/
theorem Reports.settle {c : Ctrl} {s s₁ : State n} {g g' : Ledger T n} (h : Reports c s g)
    (f : Finished n) (hstats : s₁.stats = s.stats) (hrb : s₁.rb = s.rb)
    (hsize : s₁.depthMap.size + 1 = s.depthMap.size)
    (hfin : g'.finished = g.finished ++ [f]) (hlost : g'.lost = g.lost)
    (hun : g'.unrecorded = g.unrecorded) :
    Reports c (UdpMonitor.settle c f.context f.ret s₁) g' := by
  obtain ⟨u, hu, hcounters, hevents⟩ := settle_outcome c f s₁
  obtain ⟨-, hfailed, hfiltered, hdropped, hattempted, hmissed⟩ := hcounters (s.stats f.ret.cpu)
  have htally : ∀ o, tally c g'.finished o = tally c g.finished o + tally c [f] o := fun o => by
    rw [tally, hfin, List.countP_append]
    rfl
  refine ⟨?_, ?_, ?_, ?_, ?_, ?_, ?_⟩
  · rw [hevents, hrb, h.events, hfin]
    simp only [reported, List.filter_append, List.map_append]
  · rw [hu, hstats, hfin, aggregate_snoc, ← h.sends]
    exact PerCpu.map_modify (fun st => (hcounters st).1) _ _
  · rw [hu, hstats, PerCpu.total_modify_add _ _ _ _ hfailed, h.failed, htally]
  · rw [hu, hstats, PerCpu.total_modify_add _ _ _ _ hfiltered, h.filtered, htally]
  · rw [hu, hstats, PerCpu.total_modify_add _ _ _ _ hdropped, h.dropped, htally]
  · rw [hu, hstats, PerCpu.total_modify_add (d := 0) _ _ _ _ hattempted, h.attempted, hfin,
      (settle_maps _ _).1, List.length_append, List.length_singleton, hlost]
    omega
  · rw [hu, hstats, PerCpu.total_modify_add (d := 0) _ _ _ _ hmissed, h.missed, hlost, hun, add_zero]

/-! ## One thread -/

/-- The context that the recorded call of a stack carries. -/
def contextOf : List Frame → Option UdpStart
  | [] => none
  | .silent :: rest => contextOf rest
  | .recorded context :: _ => context

theorem contextOf_rewrite (f : UdpStart → UdpStart) (frames : List Frame) :
    contextOf (frames.map (Frame.rewrite f)) = (contextOf frames).map f := by
  induction frames with
  | nil => rfl
  | cons frame rest ih =>
      cases frame with
      | silent => exact ih
      | recorded context => rfl

theorem contextOf_evict (frames : List Frame) : contextOf (frames.map Frame.evict) = none := by
  induction frames with
  | nil => rfl
  | cons frame rest ih =>
      cases frame with
      | silent => exact ih
      | recorded context => rfl

theorem contextOf_of_unrecorded {frames : List Frame}
    (h : frames.any Frame.isRecorded = false) : contextOf frames = none := by
  induction frames with
  | nil => rfl
  | cons frame rest ih =>
      cases frame with
      | silent => exact ih h
      | recorded context => simp [Frame.isRecorded] at h

/-- The stacks record the same calls, and `start_map` holds the context. -/
structure FollowsAt (cur : Task) (s : State n) (l : List ActiveCall) (frames : List Frame) :
    Prop where
  stack : l.map ActiveCall.recorded = frames.map Frame.isRecorded
  context : s.startMap.get cur.pidTgid = contextOf frames

theorem any_recorded {l : List ActiveCall} {frames : List Frame}
    (h : l.map ActiveCall.recorded = frames.map Frame.isRecorded) :
    frames.any Frame.isRecorded = (depthOf l).isSome := by
  have hany : l.any ActiveCall.recorded = frames.any Frame.isRecorded := by
    simpa [List.any_map] using congrArg (fun bs => bs.any id) h
  rw [← hany, any_recorded_eq]

section Probes

variable {c : Ctrl} {cur : Task} {s s' : State n} {l : List ActiveCall} {frames : List Frame}
  {g g' : Ledger T n}

theorem FollowsAt.push_silent (h : FollowsAt cur s l frames)
    (hs : s'.startMap.get cur.pidTgid = s.startMap.get cur.pidTgid) {call : ActiveCall}
    (hc : call.recorded = false) {frame : Frame} (hf : frame = .silent) :
    FollowsAt cur s' (call :: l) (frame :: frames) := by
  subst hf
  constructor
  · rw [List.map_cons, List.map_cons, h.stack, hc]
    rfl
  · rw [hs, h.context]
    rfl

/-- The size of a map that has, at one key, an entry more or fewer. -/
theorem size_of_get {m m' : BpfMap UInt64 UInt32} {key : UInt64}
    (h : ∀ k, k ≠ key → m'.get k = m.get k) :
    m'.size + (if (m.get key).isSome then 1 else 0) =
      m.size + if (m'.get key).isSome then 1 else 0 := by
  have hw := BpfMap.weight_congr (fun _ => 1) h
  cases hm : m.get key <;> cases hm' : m'.get key <;> simpa [BpfMap.size, hm, hm'] using hw

omit [DecidableEq T] in
theorem follows_enter (h : FollowsAt cur s l frames) (ht : TrackedAt c cur s l)
    (hr : Reports c s g) (hen : c.enable = true) (a : SendArgs n) (family : Family)
    (hfin : g'.finished = g.finished) (hlost : g'.lost = g.lost)
    (hun : g'.unrecorded = g.unrecorded) :
    FollowsAt cur (entryProbe c cur a s family) (enterCall c cur family a l :: l)
        (enterFrame c cur a frames :: frames) ∧
      Reports c (entryProbe c cur a s family) g' := by
  have hany := any_recorded h.stack
  have hsize := size_of_get fun k hk => (@entryProbe_frame n c cur s a family k hk).1
  have hmiss : g'.lost + g'.unrecorded = g.lost + g.unrecorded := by rw [hlost, hun]
  have hc : (enterCall c cur family a l).recorded = (unfiltered c cur &&
      !l.any ActiveCall.recorded && !a.depthFails && !a.startFails) := rfl
  rw [any_recorded_eq] at hc
  generalize enterCall c cur family a l = call at hc ⊢
  cases hu : unfiltered c cur with
  | false =>
      rw [entryProbe_of_filtered hen hu]
      constructor
      · refine h.push_silent ?_ ?_ ?_
        · rfl
        · simp [hc, hu]
        · simp [enterFrame, hu]
      · exact hr.quiet rfl (i := 0) (m := 0) (fun st => ⟨rfl, rfl, rfl, rfl, rfl, rfl⟩) rfl hfin
          (by rw [hlost]; rfl) hmiss
  | true =>
      rw [entryProbe_of_unfiltered hen hu] at hsize ⊢
      cases hdep : depthOf l with
      | some d =>
          have hg : s.depthMap.get cur.pidTgid = some (UInt32.ofNat d) := by
            simp [ht.depth, hdep]
          simp only [recordUnfiltered, hg] at hsize ⊢
          constructor
          · refine h.push_silent ?_ ?_ ?_
            · rfl
            · simp [hc, hdep]
            · simp [enterFrame, hany, hdep]
          · refine hr.quiet rfl (i := 0) (m := 0) (fun st => ⟨rfl, rfl, rfl, rfl, rfl, rfl⟩) rfl
              hfin ?_ hmiss
            simpa [State.bump, hlost, Nat.add_assoc] using hsize
      | none =>
          have hg : s.depthMap.get cur.pidTgid = none := by simp [ht.depth, hdep]
          simp only [recordUnfiltered, hg] at hsize ⊢
          by_cases hdf : a.depthFails = true
          · simp only [if_pos hdf]
            constructor
            · refine h.push_silent ?_ ?_ ?_
              · rfl
              · simp [hc, hdf]
              · simp [enterFrame, hdf]
            · exact hr.quiet rfl (i := 0) (m := 0) (fun st => ⟨rfl, rfl, rfl, rfl, rfl, rfl⟩) rfl
                hfin (by rw [hlost]; rfl) hmiss
          by_cases hsf : a.startFails = true
          · simp only [if_neg hdf, if_pos hsf] at hsize ⊢
            constructor
            · refine h.push_silent ?_ ?_ ?_
              · rfl
              · simp [hc, hsf]
              · simp [enterFrame, hsf]
            · refine hr.quiet rfl (i := 0) (m := 0) (fun st => ⟨rfl, rfl, rfl, rfl, rfl, rfl⟩) rfl
                hfin ?_ hmiss
              simpa [State.bump, hlost, Nat.add_assoc] using hsize
          · simp only [if_neg hdf, if_neg hsf] at hsize ⊢
            have hframe : enterFrame c cur a frames =
                .recorded (some (mkStart (appCurrentPidTgidNs cur c.pidNsDev c.pidNsIno) a)) := by
              simp [enterFrame, hu, hany, hdep, hdf, hsf]
            rw [hframe]
            constructor
            · constructor
              · have hrec : call.recorded = true := by simp [hc, hu, hdep, hdf, hsf]
                rw [List.map_cons, List.map_cons, h.stack, hrec]
                rfl
              · simp [State.bump, contextOf]
            · refine hr.quiet rfl (i := 1) (m := 0) (fun st => ⟨rfl, rfl, rfl, rfl, rfl, rfl⟩) rfl
                hfin ?_ hmiss
              simpa [State.bump, hlost, Nat.add_assoc] using hsize

/-- What the return probe does for a tracked thread, by the frame that returns. -/
theorem return_cases {call : ActiveCall} {rest : List ActiveCall}
    (ht : TrackedAt c cur s (call :: rest)) (hen : c.enable = true) (x : ReturnArgs n)
    (family : Family) :
    (call.recorded = false ∧ (depthOf rest).isSome ∧
        (returnProbe c cur x s family).stats = s.stats ∧
        (returnProbe c cur x s family).rb = s.rb ∧
        (returnProbe c cur x s family).startMap = s.startMap) ∨
      (call.recorded = false ∧ depthOf rest = none ∧ returnProbe c cur x s family =
        s.bump x.cpu fun st => { st with lookupMissed := st.lookupMissed + 1 }) ∨
      (call.recorded = true ∧ depthOf rest = none ∧
        returnProbe c cur x s family = finishOutermost c cur.pidTgid x s) := by
  rw [returnProbe_eq]
  cases hdep : depthOf rest with
  | some d =>
      have hrec : call.recorded = false := by
        by_contra hc
        simp [ht.once.2 (by simpa using hc)] at hdep
      have hall : depthOf (call :: rest) = some (d + 1) := by simp [depthOf, hdep]
      obtain ⟨hpos, hle⟩ := depthOf_le hdep
      have hgt : 1 < UInt32.ofNat (d + 1) := by
        have hfits : d + 1 < UInt32.size := Nat.lt_of_le_of_lt (Nat.succ_le_succ hle) ht.short
        rw [UInt32.lt_iff_toNat_lt, UInt32.toNat_ofNat_of_lt' hfits]
        simp only [UInt32.toNat_one]
        omega
      have hg : s.depthMap.get cur.pidTgid = some (UInt32.ofNat (d + 1)) := by
        simp [ht.depth, hall]
      refine Or.inl ⟨hrec, rfl, ?_⟩
      simp only [finishUdpSend, hg, if_pos hgt, and_self]
  | none =>
      cases hc : call.recorded with
      | false =>
          have hall : depthOf (call :: rest) = none := by simp [depthOf, hdep, hc]
          refine Or.inr (Or.inl ⟨rfl, rfl, ?_⟩)
          simp [finishUdpSend, ht.depth, hall, missed, hen]
      | true =>
          have hall : depthOf (call :: rest) = some 1 := by simp [depthOf, hdep, hc]
          have hg : s.depthMap.get cur.pidTgid = some 1 := by
            rw [ht.depth, hall]
            rfl
          have hle : ¬(1 : UInt32) < 1 := by decide
          refine Or.inr (Or.inr ⟨rfl, rfl, ?_⟩)
          simp only [finishUdpSend, hg, if_neg hle]

/-- The outermost recorded call returns, with its context or without. -/
theorem follows_finish {rest : List ActiveCall} {t : T} {context : Option UdpStart}
    (hctx : s.startMap.get cur.pidTgid = context)
    (hnz : ∀ v, context = some v → v.startTs ≠ 0) (hr : Reports c s g) (hen : c.enable = true)
    (x : ReturnArgs n) (hg : g.active t = .recorded context :: frames)
    (hdepth : (s.depthMap.get cur.pidTgid).isSome)
    (hrest : rest.map ActiveCall.recorded = frames.map Frame.isRecorded)
    (hnone : depthOf rest = none) :
    FollowsAt cur (finishOutermost c cur.pidTgid x s) rest frames ∧
      Reports c (finishOutermost c cur.pidTgid x s) (g.leave t x) := by
  have hempty : contextOf frames = none :=
    contextOf_of_unrecorded (by rw [any_recorded hrest, hnone]; rfl)
  have hsize : (s.depthMap.delete cur.pidTgid).size + 1 = s.depthMap.size := by
    simpa [hdepth] using size_of_get fun k (hk : k ≠ cur.pidTgid) =>
      BpfMap.get_delete_of_ne s.depthMap hk
  cases context with
  | none =>
      have hprobe : finishOutermost c cur.pidTgid x s =
          { s with depthMap := s.depthMap.delete cur.pidTgid }.bump x.cpu
            fun st => { st with lookupMissed := st.lookupMissed + 1 } := by
        simp only [finishOutermost, hctx, missed, hen, if_true]
      have hleave : g.leave t x =
          { g with active := Function.update g.active t frames, lost := g.lost + 1 } := by
        simp only [Ledger.leave, hg]
      rw [hprobe, hleave]
      refine ⟨⟨hrest, hctx.trans hempty.symm⟩, ?_⟩
      refine hr.quiet rfl (i := 0) (m := 1) (fun st => ⟨rfl, rfl, rfl, rfl, rfl, rfl⟩) rfl rfl ?_ ?_
      · simp only [State.bump]
        omega
      · simp only
        omega
  | some v =>
      have hprobe : finishOutermost c cur.pidTgid x s =
          settle c v x
            { s with
              depthMap := s.depthMap.delete cur.pidTgid
              startMap := s.startMap.delete cur.pidTgid } := by
        simp only [finishOutermost, hctx, if_neg (hnz v rfl), hen, Bool.true_eq_false, if_false]
      have hleave : g.leave t x =
          { g with
            active := Function.update g.active t frames
            finished := g.finished ++ [⟨v, x⟩] } := by
        simp only [Ledger.leave, hg]
      rw [hprobe, hleave]
      constructor
      · refine ⟨hrest, ?_⟩
        rw [(settle_maps _ _).2, BpfMap.get_delete_self, hempty]
      · refine hr.settle ⟨v, x⟩ ?_ ?_ hsize rfl rfl rfl
        · rfl
        · rfl

theorem follows_leave {call : ActiveCall} {rest : List ActiveCall} {frame : Frame} {t : T}
    (h : FollowsAt cur s (call :: rest) (frame :: frames))
    (ht : TrackedAt c cur s (call :: rest)) (hr : Reports c s g) (hen : c.enable = true)
    (x : ReturnArgs n) (family : Family) (hg : g.active t = frame :: frames) :
    FollowsAt cur (returnProbe c cur x s family) rest frames ∧
      Reports c (returnProbe c cur x s family) (g.leave t x) := by
  obtain ⟨hhead, hrest⟩ := List.cons.inj h.stack
  have hany := any_recorded hrest
  have hsize := size_of_get fun k hk => (@returnProbe_frame n c cur s x family k hk).1
  rw [(ht.leave x family).depth, ht.depth] at hsize
  rcases return_cases ht hen x family with
    ⟨hc, hd, hstats, hrb, hstart⟩ | ⟨hc, hd, hprobe⟩ | ⟨hc, hd, hprobe⟩
  · -- a call inside the recorded one
    obtain rfl : frame = .silent := by
      cases frame <;> simp_all [Frame.isRecorded]
    have hleave : g.leave t x = { g with active := Function.update g.active t frames } := by
      simp only [Ledger.leave, hg, hany, hd, if_true]
    obtain ⟨d, hd⟩ := Option.isSome_iff_exists.mp hd
    rw [hleave]
    refine ⟨⟨hrest, ?_⟩, hr.same hstats hrb ?_ rfl rfl rfl⟩
    · rw [hstart, h.context]
      rfl
    · simpa [depthOf, hd] using hsize
  · -- a call of a thread without a recorded one
    obtain rfl : frame = .silent := by
      cases frame <;> simp_all [Frame.isRecorded]
    have hleave : g.leave t x =
        { g with
          active := Function.update g.active t frames
          unrecorded := g.unrecorded + 1 } := by
      simp [Ledger.leave, hg, hany, hd]
    rw [hleave, hprobe]
    refine ⟨⟨hrest, ?_⟩, ?_⟩
    · exact h.context
    · exact hr.quiet rfl (i := 0) (m := 1) (fun st => ⟨rfl, rfl, rfl, rfl, rfl, rfl⟩) rfl rfl rfl rfl
  · obtain ⟨context, rfl⟩ : ∃ context, frame = .recorded context := by
      cases frame with
      | silent => simp [hc, Frame.isRecorded] at hhead
      | recorded context => exact ⟨context, rfl⟩
    rw [hprobe]
    refine follows_finish h.context ?_ hr hen x hg ?_ hrest hd
    · exact fun v hv => (ht.start v (h.context.trans hv)).2
    · simp [ht.depth, depthOf, hd, hc]

end Probes

/-! ## All threads -/

/-- The simulation relation. -/
structure Follows (c : Ctrl) (K : Kernel T) (s : State n × Calls T) (g : Ledger T n) : Prop where
  tracked : Tracked c K s
  thread : ∀ t, FollowsAt (K.task t) s.1 (s.2.stack t) (g.active t)
  books : Reports c s.1 g

variable {c : Ctrl} {K : Kernel T} {s : State n × Calls T} {g : Ledger T n}

theorem follows_rewrite (h : ∀ u, FollowsAt (K.task u) s.1 (s.2.stack u) (g.active u)) (t : T)
    (f : UdpStart → UdpStart) (flow : Bool) (u : T) :
    FollowsAt (K.task u) { s.1 with startMap := s.1.startMap.modify (K.task t).pidTgid f }
      ((s.2.route t flow).stack u) ((g.rewrite t f).active u) := by
  by_cases hut : u = t
  · subst hut
    constructor
    · simpa [Ledger.rewrite, Calls.route, ActiveCall.route, Function.comp_def] using (h u).stack
    · simp [Ledger.rewrite, BpfMap.get_modify, contextOf_rewrite, (h u).context]
  · constructor
    · simpa [Ledger.rewrite, Calls.route, hut] using (h u).stack
    · simpa [Ledger.rewrite, hut, BpfMap.get_modify, K.pidTgid_ne hut] using (h u).context

omit [DecidableEq T] in
theorem follows_evict (h : ∀ u, FollowsAt (K.task u) s.1 (s.2.stack u) (g.active u))
    (key : UInt64) (u : T) :
    FollowsAt (K.task u) { s.1 with startMap := s.1.startMap.delete key } (s.2.stack u)
      (if (K.task u).pidTgid = key then (g.active u).map Frame.evict else g.active u) := by
  by_cases hk : (K.task u).pidTgid = key
  · rw [if_pos hk]
    constructor
    · simpa [Function.comp_def] using (h u).stack
    · simp [hk, contextOf_evict]
  · rw [if_neg hk]
    refine ⟨(h u).stack, ?_⟩
    exact (BpfMap.get_delete_of_ne _ hk).trans (h u).context

theorem leave_active {t : T} {frame : Frame} {frames : List Frame} (x : ReturnArgs n)
    (hg : g.active t = frame :: frames) :
    (g.leave t x).active = Function.update g.active t frames := by
  simp only [Ledger.leave, hg]
  cases frame with
  | silent =>
      simp only
      split_ifs <;> rfl
  | recorded context => cases context <;> rfl

/-- A step of `t` that leaves the maps of the others alone. -/
theorem follows_update {s' : State n} {t : T} {l : List ActiveCall} {frames : List Frame}
    (h : ∀ u, FollowsAt (K.task u) s.1 (s.2.stack u) (g.active u))
    (hframe : ∀ u, u ≠ t →
      s'.startMap.get (K.task u).pidTgid = s.1.startMap.get (K.task u).pidTgid)
    (hown : FollowsAt (K.task t) s' l frames) (u : T) :
    FollowsAt (K.task u) s' (Function.update s.2.stack t l u)
      (Function.update g.active t frames u) := by
  by_cases hut : u = t
  · subst hut
    rwa [Function.update_self, Function.update_self]
  · rw [Function.update_of_ne hut, Function.update_of_ne hut]
    exact ⟨(h u).stack, (hframe u hut).trans (h u).context⟩

theorem follows_step (hen : c.enable = true) {e : Step T n} (h : Follows c K s g)
    (ha : (sends n c K).Allowed s e) (hr : InRange s e) :
    Follows c K (step c K s e) (Ledger.step c K g e) := by
  have htracked := tracked_step hen h.tracked ha hr
  cases e with
  | enter family t a =>
      have hfin : (Ledger.step c K g (.enter family t a)).finished = g.finished := rfl
      obtain ⟨hown, hbooks⟩ := follows_enter (h.thread t) (h.tracked t) h.books hen a family
        hfin rfl rfl
      refine ⟨htracked, fun u => ?_, hbooks⟩
      simp only [step, stack_enter]
      refine follows_update h.thread (fun u hut => ?_) hown u
      exact (entryProbe_frame a family (K.pidTgid_ne hut)).2
  | leave t x =>
      obtain ⟨call, rest, hst⟩ : ∃ call rest, s.2.stack t = call :: rest :=
        List.ne_nil_iff_exists_cons.mp (List.isEmpty_eq_false_iff.mp ha)
      have hthread := h.thread t
      have htrack := h.tracked t
      rw [hst] at hthread htrack
      obtain ⟨frame, frames, hg⟩ : ∃ frame frames, g.active t = frame :: frames := by
        cases hg : g.active t with
        | nil => simpa [hg] using hthread.stack
        | cons frame frames => exact ⟨frame, frames, rfl⟩
      rw [hg] at hthread
      obtain ⟨hown, hbooks⟩ := follows_leave hthread htrack h.books hen x call.family hg
      refine ⟨htracked, fun u => ?_, ?_⟩
      · simp only [step, hst, Ledger.step, stack_leave, leave_active x hg]
        refine follows_update h.thread (fun u hut => ?_) hown u
        exact (returnProbe_frame x call.family (K.pidTgid_ne hut)).2
      · simp only [step, hst]
        exact hbooks
  | sendSkb t x =>
      exact ⟨htracked, follows_rewrite h.thread t (rewriteV4 x) _,
        h.books.same rfl rfl rfl rfl rfl rfl⟩
  | sendSkbV6 t x =>
      exact ⟨htracked, follows_rewrite h.thread t (rewriteV6 x) _,
        h.books.same rfl rfl rfl rfl rfl rfl⟩
  | evict key => exact ⟨htracked, follows_evict h.thread key, h.books.same rfl rfl rfl rfl rfl rfl⟩

theorem follows_run (hen : c.enable = true) {es : List (Step T n)}
    (hv : ((sends n c K).restrict InRange).Valid es) :
    Follows c K ((sends n c K).run es) ((ledger n c K).run es) := by
  refine Machine.simulation (M := (sends n c K).restrict InRange) (N := ledger n c K) ?_ ?_ hv
  · refine ⟨fun t => ⟨rfl, ?_, trivial, fun _ => rfl, Nat.two_pow_pos 32⟩, fun t => ⟨rfl, rfl⟩, ?_⟩
    · intro v hv
      simp [Machine.restrict, sends, State.start] at hv
    · exact ⟨rfl, rfl, PerCpu.total_const_zero _ _ rfl, PerCpu.total_const_zero _ _ rfl,
        PerCpu.total_const_zero _ _ rfl, PerCpu.total_const_zero _ _ rfl,
        PerCpu.total_const_zero _ _ rfl⟩
  · exact fun s g e h ha => follows_step hen h ha.1 ha.2

/-! ## Runs -/

/-- The summary reads only the part of the statistics that the samples make up. -/
theorem merges_of_sends {stats : PerCpu n Stats} {l : List (Fin n × Sample)}
    (h : stats.map Stats.sends = aggregate l) : Merges l (mergeCpus stats) := by
  have hsends : ∀ stats : PerCpu n Stats, (mergeCpus stats).sends = stats.total (·.read.sends) :=
    PerCpu.foldl_merge_eq_total (fun s st => s.addCpu (Stats.read st)) {} Summary.sends rfl
      fun s st => by
        simp only [Summary.addCpu]
        split_ifs <;> rfl
  have hcounters : (mergeCpus stats).sends = (mergeCpus (aggregate l)).sends := by
    rw [← h]
    exact (hsends stats).trans (hsends (stats.map Stats.sends)).symm
  have hpeak : (mergeCpus stats).peak = (mergeCpus (aggregate l)).peak := by
    rw [← h]
    exact (mergeCpus_parts stats).2.trans (mergeCpus_parts (stats.map Stats.sends)).2.symm
  have hmax : (mergeCpus stats).maxNs = (mergeCpus (aggregate l)).maxNs :=
    congrArg Peak.value hpeak
  have hm := merges l
  refine ⟨?_, ?_, ?_⟩
  · rw [hcounters, hm.sends]
  · rw [hmax, hm.maximum]
  · intro hpos
    rw [hpeak]
    exact hm.attached (hmax ▸ hpos)

theorem length_eq_tally (c : Ctrl) (l : List (Finished n)) :
    l.length = (reported c l).length + tally c l .failed + tally c l .filtered +
      tally c l .dropped := by
  induction l with
  | nil => rfl
  | cons f l ih =>
      simp only [reported, tally, List.length_map, ← List.countP_eq_length_filter] at ih ⊢
      simp only [List.length_cons, List.countP_cons, ih]
      cases f.outcome c <;> simp <;> omega

/-- Whatever fails and whatever is evicted: the events are, in order, those of the
recorded calls that finished with their context and passed the threshold, each with
the context its own thread built; the summary is the one of their samples; and every
attempted call is reported, failed, filtered, dropped, lost or still active. -/
theorem sends_are_reported_per_call (c : Ctrl) (K : Kernel T) (hen : c.enable = true)
    {es : List (Step T n)} (hv : ((sends n c K).restrict InRange).Valid es) :
    let s := ((sends n c K).run es).1
    let g := (ledger n c K).run es
    Reports c s g ∧ Merges (samples g.finished) (mergeCpus s.stats) ∧
      s.stats.total (·.attempted) =
        s.rb.length + s.stats.total (·.failed) + s.stats.total (·.filteredLatency) +
          s.stats.total (·.ringbufDropped) + g.lost + s.depthMap.size := by
  intro s g
  have hbooks : Reports c s g := (follows_run hen hv).books
  refine ⟨hbooks, merges_of_sends hbooks.sends, ?_⟩
  rw [hbooks.attempted, hbooks.failed, hbooks.filtered, hbooks.dropped, hbooks.events,
    length_eq_tally c g.finished]

/-- Thread 0 sends to a mapped address and its packet is routed; the context of thread
1 is evicted meanwhile, and its second send is reported again. -/
theorem routed_send_is_reported_with_its_flow :
    let c : Ctrl := ⟨true, 0, 0, 0, 0⟩
    let sock : Sock := ⟨afInet6, 40000, 53, 1, 2, Vector.replicate _ 0, Vector.replicate _ 0⟩
    let args : UInt64 → SendArgs 1 := fun now =>
      ⟨⟨0, Nat.one_pos⟩, now, Vector.replicate _ 0, sock, 5, none, false, false⟩
    let es : List (Step (Fin 2) 1) :=
      [.enter .v6 ⟨0, Nat.two_pos⟩ (args 10), .enter .v6 ⟨1, Nat.one_lt_two⟩ (args 12),
        .enter .v4 ⟨0, Nat.two_pos⟩ (args 20),
        .sendSkb ⟨0, Nat.two_pos⟩ ⟨some (7, 8, 1, 2), none⟩,
        .evict (Kernel.two.task ⟨1, Nat.one_lt_two⟩).pidTgid,
        .leave ⟨0, Nat.two_pos⟩ ⟨⟨0, Nat.one_pos⟩, 30, 5, true⟩,
        .leave ⟨1, Nat.one_lt_two⟩ ⟨⟨0, Nat.one_pos⟩, 40, 5, true⟩,
        .leave ⟨0, Nat.two_pos⟩ ⟨⟨0, Nat.one_pos⟩, 45, 5, true⟩,
        .enter .v6 ⟨1, Nat.one_lt_two⟩ (args 50),
        .leave ⟨1, Nat.one_lt_two⟩ ⟨⟨0, Nat.one_pos⟩, 60, 5, true⟩]
    let s := ((sends 1 c Kernel.two).run es).1
    let g := (ledger 1 c Kernel.two).run es
    (s.rb.map fun e => (e.tsNs, e.latencyNs, e.af, e.daddrV4)) =
        [(45, 35, afInet, 8), (60, 10, afInet6, 0)] ∧
      g.lost = 1 ∧ Reports c s g ∧ Merges (samples g.finished) (mergeCpus s.stats) := by
  intro c sock args es s g
  have hv : ((sends 1 c Kernel.two).restrict InRange).Valid es := by decide +kernel
  obtain ⟨hreports, hmerges, -⟩ := sends_are_reported_per_call c Kernel.two rfl hv
  exact ⟨by decide +kernel, by decide +kernel, hreports, hmerges⟩

end EbpfToolbox.Net.UdpMonitor
