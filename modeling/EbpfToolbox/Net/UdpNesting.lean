import EbpfToolbox.Lib.Machine
import EbpfToolbox.Net.UdpMonitor

/-!
# Nested UDP sends

Threads enter and leave `udp_sendmsg` and `udpv6_sendmsg`, well nested and to any
depth; insertions fail and contexts are evicted at will. The machine `sends`
keeps every thread's stack of active calls, innermost first. A call is recorded when
its thread passes the filters, none of the thread's active calls is recorded and both
insertions succeed; the mark is made from the arguments of the entry, not from the maps.

`Tracks` says that `depth_map` is the height of the stack above the recorded call
and that an idle thread has no entry in either map.
-/

namespace EbpfToolbox.Net.UdpMonitor

open Common Lib

variable {n : ℕ} {T : Type}

/-- An active call; `recorded`: it is the one `depth_map` counts from; `routed`: since its
entry the thread handed on a packet with a flow. -/
structure ActiveCall where
  family : Family
  entryTs : UInt64
  recorded : Bool
  routed : Bool

/-- The height of a stack above its outermost recorded call, that call included. -/
def depthOf : List ActiveCall → Option ℕ
  | [] => none
  | call :: rest =>
      match depthOf rest with
      | some d => some (d + 1)
      | none => if call.recorded then some 1 else none

/-- A finished outermost call; `reserved`: the ring buffer had room at its return. -/
structure Sent where
  entryTs : UInt64
  exitTs : UInt64
  retval : Int32
  reserved : Bool
  routed : Bool

/-- The ghost part: the stacks; of the unfiltered threads the finished outermost calls and
the numbers of outermost and of nested entries; of the filtered threads the numbers of
entries and returns. -/
structure Calls (T : Type) where
  stack : T → List ActiveCall
  finished : List Sent
  outermost : ℕ
  nested : ℕ
  rejectedEntries : ℕ
  rejectedReturns : ℕ

inductive Step (T : Type) (n : ℕ) : Type where
  | enter (family : Family) (t : T) (a : SendArgs n)
  | leave (t : T) (x : ReturnArgs n)
  | sendSkb (t : T) (x : FlowArgs UInt32)
  | sendSkbV6 (t : T) (x : FlowArgs Addr6)
  | evict (key : UInt64)

/-- Does a task get past the filters of `record_udp_send`? -/
def unfiltered (c : Ctrl) (cur : Task) : Bool :=
  let visible := appCurrentPidTgidNs cur c.pidNsDev c.pidNsIno
  decide (visible ≠ 0 ∧ ¬(c.targetPid ≠ 0 ∧ c.targetPid.toUInt32 ≠ tgidOf visible))

def entryProbe (c : Ctrl) (cur : Task) (a : SendArgs n) (s : State n) : Family → State n
  | .v4 => traceUdpSendmsg c cur a s
  | .v6 => traceUdpv6Sendmsg c cur a s

def returnProbe (c : Ctrl) (cur : Task) (x : ReturnArgs n) (s : State n) : Family → State n
  | .v4 => retUdpSendmsg c cur x s
  | .v6 => retUdpv6Sendmsg c cur x s

variable [DecidableEq T]

/-- The call that an entry begins. -/
def enterCall (c : Ctrl) (cur : Task) (family : Family) (a : SendArgs n)
    (active : List ActiveCall) : ActiveCall where
  family := family
  entryTs := a.now
  recorded := unfiltered c cur && !active.any ActiveCall.recorded && !a.depthFails && !a.startFails
  routed := false

def ActiveCall.route (flow : Bool) (call : ActiveCall) : ActiveCall :=
  { call with routed := call.routed || flow }

def Calls.enter (c : Ctrl) (K : Kernel T) (g : Calls T) (family : Family) (t : T)
    (a : SendArgs n) : Calls T :=
  let g :=
    if unfiltered c (K.task t) = false then { g with rejectedEntries := g.rejectedEntries + 1 }
    else if (g.stack t).isEmpty then { g with outermost := g.outermost + 1 }
    else { g with nested := g.nested + 1 }
  { g with
    stack := Function.update g.stack t (enterCall c (K.task t) family a (g.stack t) :: g.stack t) }

/-- The innermost call of `t` returns; `rest` are the others. -/
def Calls.leave (c : Ctrl) (K : Kernel T) (g : Calls T) (t : T) (call : ActiveCall)
    (rest : List ActiveCall) (x : ReturnArgs n) : Calls T :=
  let g :=
    if unfiltered c (K.task t) = false then { g with rejectedReturns := g.rejectedReturns + 1 }
    else if rest.isEmpty then
      { g with
        finished := g.finished ++ [⟨call.entryTs, x.now, x.retval, x.reserved, call.routed⟩] }
    else g
  { g with stack := Function.update g.stack t rest }

/-- The active calls of `t` hand on a packet. -/
def Calls.route (g : Calls T) (t : T) (flow : Bool) : Calls T :=
  { g with stack := Function.update g.stack t ((g.stack t).map (ActiveCall.route flow)) }

def step (c : Ctrl) (K : Kernel T) (s : State n × Calls T) : Step T n → State n × Calls T
  | .enter family t a => (entryProbe c (K.task t) a s.1 family, s.2.enter c K family t a)
  | .leave t x =>
      match s.2.stack t with
      | [] => s
      | call :: rest =>
          (returnProbe c (K.task t) x s.1 call.family, s.2.leave c K t call rest x)
  | .sendSkb t x => (traceUdpSendSkb (K.task t) x s.1, s.2.route t x.flow.isSome)
  | .sendSkbV6 t x => (traceUdpV6SendSkb (K.task t) x s.1, s.2.route t x.flow.isSome)
  | .evict key => ({ s.1 with startMap := s.1.startMap.delete key }, s.2)

/-- Every thread's entries and returns are well nested. -/
def sends (n : ℕ) (c : Ctrl) (K : Kernel T) : Machine (State n × Calls T) (Step T n) where
  init := (State.start n, ⟨fun _ => [], [], 0, 0, 0, 0⟩)
  step := step c K
  Allowed s e := match e with
    | .leave t _ => (s.2.stack t).isEmpty = false
    | _ => True

instance (c : Ctrl) (K : Kernel T) (s : State n × Calls T) (e : Step T n) :
    Decidable ((sends n c K).Allowed s e) :=
  match e with
  | .leave t _ => inferInstanceAs (Decidable ((s.2.stack t).isEmpty = false))
  | .enter .. | .sendSkb .. | .sendSkbV6 .. | .evict .. => inferInstanceAs (Decidable True)

/-- The depth fits its 32 bits, and the clock does not read 0, which
`finish_udp_send` takes for an empty context. -/
def InRange (s : State n × Calls T) : Step T n → Prop
  | .enter _ t a => (s.2.stack t).length + 1 < 2 ^ 32 ∧ a.now ≠ 0
  | _ => True

/-! ## The depth of a stack -/

theorem depthOf_le {l : List ActiveCall} {d : ℕ} (h : depthOf l = some d) :
    1 ≤ d ∧ d ≤ l.length := by
  induction l generalizing d with
  | nil => cases h
  | cons call rest ih =>
      simp only [depthOf] at h
      cases hr : depthOf rest with
      | some d' =>
          obtain rfl : d' + 1 = d := by simpa [hr] using h
          obtain ⟨_, hle⟩ := ih hr
          exact ⟨by omega, by simpa using hle⟩
      | none =>
          simp only [hr] at h
          split_ifs at h
          obtain rfl := Option.some.inj h
          exact ⟨le_rfl, by simp⟩

theorem depthOf_eq_none_iff {l : List ActiveCall} :
    depthOf l = none ↔ ∀ call ∈ l, call.recorded = false := by
  induction l with
  | nil => simp [depthOf]
  | cons call rest ih =>
      simp only [depthOf, List.forall_mem_cons]
      cases hr : depthOf rest with
      | some d =>
          have hnot : ¬∀ call ∈ rest, call.recorded = false := fun hall => by
            simp [ih.mpr hall] at hr
          simp [hnot]
      | none => simpa [hr] using fun _ => ih.mp hr

theorem any_recorded_eq (l : List ActiveCall) :
    l.any ActiveCall.recorded = (depthOf l).isSome := by
  rw [Bool.eq_iff_iff, List.any_eq_true, Option.isSome_iff_ne_none, Ne, depthOf_eq_none_iff]
  simp

/-- A packet that is handed on changes neither the depth nor what is recorded. -/
@[simp] theorem depthOf_route (flow : Bool) (l : List ActiveCall) :
    depthOf (l.map (ActiveCall.route flow)) = depthOf l := by
  induction l with
  | nil => rfl
  | cons call rest ih => simp [depthOf, ih, ActiveCall.route]

/-- No call above a recorded one is recorded again. -/
def RecordedOnce : List ActiveCall → Prop
  | [] => True
  | call :: rest => RecordedOnce rest ∧ (call.recorded = true → depthOf rest = none)

theorem recordedOnce_route {flow : Bool} {l : List ActiveCall} (h : RecordedOnce l) :
    RecordedOnce (l.map (ActiveCall.route flow)) := by
  induction l with
  | nil => trivial
  | cons call rest ih => exact ⟨ih h.1, fun hc => (depthOf_route flow rest).trans (h.2 hc)⟩

/-- The depth counts from the recorded call inward. -/
theorem depthOf_of_recorded {inner outer : List ActiveCall} {call : ActiveCall}
    (h : RecordedOnce (inner ++ call :: outer)) (hc : call.recorded = true) :
    depthOf (inner ++ call :: outer) = some (inner.length + 1) := by
  induction inner with
  | nil => simp [depthOf, h.2 hc, hc]
  | cons top inner ih => simp [depthOf, ih h.1]

/-! ## The probes on the two maps -/

section Probes

omit [DecidableEq T]

variable {c : Ctrl} {cur : Task} {s : State n}

theorem entryProbe_of_filtered (hen : c.enable = true) (h : unfiltered c cur = false)
    (a : SendArgs n) (family : Family) :
    entryProbe c cur a s family =
      s.bump a.cpu fun st => { st with filteredPid := st.filteredPid + 1 } := by
  have hnot := of_decide_eq_false h
  have hrec : recordUdpSend c cur a s =
      s.bump a.cpu fun st => { st with filteredPid := st.filteredPid + 1 } := by
    simp only [recordUdpSend, hen, Bool.true_eq_false, if_false]
    split_ifs with hv htarget
    · rfl
    · rfl
    · exact absurd ⟨hv, htarget⟩ hnot
  cases family <;> exact hrec

theorem entryProbe_of_unfiltered (hen : c.enable = true) (h : unfiltered c cur = true)
    (a : SendArgs n) (family : Family) :
    entryProbe c cur a s family =
      recordUnfiltered cur (appCurrentPidTgidNs cur c.pidNsDev c.pidNsIno) a s := by
  obtain ⟨hv, htarget⟩ := of_decide_eq_true h
  have hrec : recordUdpSend c cur a s =
      recordUnfiltered cur (appCurrentPidTgidNs cur c.pidNsDev c.pidNsIno) a s := by
    simp only [recordUdpSend, hen, Bool.true_eq_false, if_false, hv, if_neg htarget]
  cases family <;> exact hrec

theorem returnProbe_eq (x : ReturnArgs n) (family : Family) :
    returnProbe c cur x s family = finishUdpSend c cur x s := by
  cases family <;> rfl

@[simp] theorem missed_maps (cpu : Fin n) :
    (missed c cpu s).depthMap = s.depthMap ∧ (missed c cpu s).startMap = s.startMap := by
  unfold missed
  split_ifs <;> exact ⟨rfl, rfl⟩

@[simp] theorem settle_maps (v : UdpStart) (x : ReturnArgs n) :
    (settle c v x s).depthMap = s.depthMap ∧ (settle c v x s).startMap = s.startMap := by
  simp only [settle]
  split_ifs <;> exact ⟨rfl, rfl⟩

theorem finishOutermost_maps (key : UInt64) (x : ReturnArgs n) :
    (finishOutermost c key x s).depthMap = s.depthMap.delete key ∧
      ((finishOutermost c key x s).startMap = s.startMap.delete key ∨
        (finishOutermost c key x s).startMap = s.startMap ∧
          ∀ v, s.startMap.get key = some v → v.startTs = 0) := by
  simp only [finishOutermost]
  cases hg : s.startMap.get key with
  | none => exact ⟨(missed_maps _).1, Or.inr ⟨(missed_maps _).2, fun v hv => by cases hv⟩⟩
  | some v =>
      simp only
      split_ifs with hts hen
      · refine ⟨(missed_maps _).1, Or.inr ⟨(missed_maps _).2, ?_⟩⟩
        rintro v' hv'
        rwa [← Option.some.inj hv']
      · exact ⟨rfl, Or.inl rfl⟩
      · exact ⟨(settle_maps _ _).1, Or.inl (settle_maps _ _).2⟩

/-- Both probes touch the maps at the key of the running thread only. -/
theorem entryProbe_frame (a : SendArgs n) (family : Family) {k : UInt64}
    (hk : k ≠ cur.pidTgid) :
    (entryProbe c cur a s family).depthMap.get k = s.depthMap.get k ∧
      (entryProbe c cur a s family).startMap.get k = s.startMap.get k := by
  have hrec : ∀ visible, (recordUnfiltered cur visible a s).depthMap.get k = s.depthMap.get k ∧
      (recordUnfiltered cur visible a s).startMap.get k = s.startMap.get k := by
    intro visible
    simp only [recordUnfiltered]
    cases s.depthMap.get cur.pidTgid with
    | some d => exact ⟨BpfMap.get_update_of_ne _ _ hk, rfl⟩
    | none =>
        simp only
        split_ifs
        · exact ⟨rfl, rfl⟩
        · exact ⟨(BpfMap.get_delete_of_ne _ hk).trans (BpfMap.get_update_of_ne _ _ hk), rfl⟩
        · exact ⟨BpfMap.get_update_of_ne _ _ hk, BpfMap.get_update_of_ne _ _ hk⟩
  have hall : (recordUdpSend c cur a s).depthMap.get k = s.depthMap.get k ∧
      (recordUdpSend c cur a s).startMap.get k = s.startMap.get k := by
    simp only [recordUdpSend]
    split_ifs
    · exact ⟨rfl, rfl⟩
    · exact ⟨rfl, rfl⟩
    · exact ⟨rfl, rfl⟩
    · exact hrec _
  cases family <;> exact hall

theorem returnProbe_frame (x : ReturnArgs n) (family : Family) {k : UInt64}
    (hk : k ≠ cur.pidTgid) :
    (returnProbe c cur x s family).depthMap.get k = s.depthMap.get k ∧
      (returnProbe c cur x s family).startMap.get k = s.startMap.get k := by
  rw [returnProbe_eq]
  simp only [finishUdpSend]
  cases s.depthMap.get cur.pidTgid with
  | none =>
      rw [(missed_maps _).1, (missed_maps _).2]
      exact ⟨rfl, rfl⟩
  | some d =>
      simp only
      split_ifs
      · exact ⟨BpfMap.get_update_of_ne _ _ hk, rfl⟩
      · obtain ⟨hdm, hsm⟩ := finishOutermost_maps (c := c) (s := s) cur.pidTgid x
        refine ⟨by rw [hdm, BpfMap.get_delete_of_ne _ hk], ?_⟩
        rcases hsm with hsm | ⟨hsm, _⟩
        · rw [hsm, BpfMap.get_delete_of_ne _ hk]
        · rw [hsm]

theorem mkStart_startTs (visible : UInt64) (a : SendArgs n) :
    (mkStart visible a).startTs = a.now := by
  have hname : ∀ v v', readMsgName v a.name = some v' → v'.startTs = v.startTs := by
    intro v v' h
    unfold readMsgName at h
    cases hn : a.name with
    | none => simp [hn] at h
    | some dst =>
        simp only [hn] at h
        split_ifs at h
        cases hf : dst.family with
        | none => simp [hf] at h
        | some family =>
            simp only [hf] at h
            split_ifs at h
            · obtain ⟨sin, _, rfl⟩ := Option.map_eq_some_iff.mp h
              rfl
            · obtain ⟨sin6, _, rfl⟩ := Option.map_eq_some_iff.mp h
              rfl
  simp only [mkStart]
  split
  · rename_i v' hv'
    rw [hname _ v' hv']
    split_ifs <;> rfl
  · split_ifs <;> rfl

theorem rewrite_startTs (v : UdpStart) (x : FlowArgs UInt32) (y : FlowArgs Addr6) :
    (rewriteV4 x v).startTs = v.startTs ∧ (rewriteV6 y v).startTs = v.startTs := by
  constructor
  · unfold rewriteV4
    split <;> rfl
  · unfold rewriteV6
    split <;> rfl

end Probes

/-! ## One thread -/

/-- What the two maps hold for one thread with the given stack. -/
structure TrackedAt (c : Ctrl) (cur : Task) (s : State n) (l : List ActiveCall) : Prop where
  depth : s.depthMap.get cur.pidTgid = (depthOf l).map UInt32.ofNat
  start : ∀ v, s.startMap.get cur.pidTgid = some v → (depthOf l).isSome ∧ v.startTs ≠ 0
  once : RecordedOnce l
  filtered : unfiltered c cur = false → depthOf l = none
  short : l.length < 2 ^ 32

namespace TrackedAt

variable {c : Ctrl} {cur : Task} {s s' : State n} {l rest : List ActiveCall}

/-- Nothing happened at the thread's key, except to the addresses of its context. -/
theorem frame (h : TrackedAt c cur s l)
    (hd : s'.depthMap.get cur.pidTgid = s.depthMap.get cur.pidTgid)
    (hs : ∀ v', s'.startMap.get cur.pidTgid = some v' →
      ∃ v, s.startMap.get cur.pidTgid = some v ∧ v'.startTs = v.startTs) :
    TrackedAt c cur s' l := by
  refine ⟨hd.trans h.depth, ?_, h.once, h.filtered, h.short⟩
  intro v' hv'
  obtain ⟨v, hv, hts⟩ := hs v' hv'
  rw [hts]
  exact h.start v hv

theorem frame_eq (h : TrackedAt c cur s l)
    (hd : s'.depthMap.get cur.pidTgid = s.depthMap.get cur.pidTgid)
    (hs : s'.startMap.get cur.pidTgid = s.startMap.get cur.pidTgid) : TrackedAt c cur s' l :=
  h.frame hd fun v' hv' => ⟨v', hs.symm.trans hv', rfl⟩

/-- An entry that is not recorded and leaves the maps alone. -/
theorem push_unrecorded (h : TrackedAt c cur s l) (hnone : depthOf l = none)
    (hd : s'.depthMap.get cur.pidTgid = s.depthMap.get cur.pidTgid)
    (hs : s'.startMap.get cur.pidTgid = s.startMap.get cur.pidTgid)
    (hlen : l.length + 1 < 2 ^ 32) {call : ActiveCall} (hc : call.recorded = false) :
    TrackedAt c cur s' (call :: l) := by
  have hdep : depthOf (call :: l) = none := by simp [depthOf, hnone, hc]
  refine ⟨?_, ?_, ⟨h.once, by simp [hc]⟩, fun _ => hdep, hlen⟩
  · rw [hd, h.depth, hnone, hdep]
  · intro v hv
    have := (h.start v (hs.symm.trans hv)).1
    simp [hnone] at this

/-- An entry below a recorded call. -/
theorem push_nested (h : TrackedAt c cur s l) {d : ℕ} (hdep : depthOf l = some d)
    (hd : s'.depthMap.get cur.pidTgid = some (UInt32.ofNat d + 1))
    (hs : s'.startMap.get cur.pidTgid = s.startMap.get cur.pidTgid)
    (hlen : l.length + 1 < 2 ^ 32) {call : ActiveCall} (hc : call.recorded = false) :
    TrackedAt c cur s' (call :: l) := by
  have hnew : depthOf (call :: l) = some (d + 1) := by simp [depthOf, hdep]
  refine ⟨?_, ?_, ⟨h.once, by simp [hc]⟩, fun hf => ?_, hlen⟩
  · rw [hd, hnew, Option.map_some, UInt32.ofNat_add]
    rfl
  · intro v hv
    exact ⟨by simp [hnew], (h.start v (hs.symm.trans hv)).2⟩
  · rw [h.filtered hf] at hdep
    cases hdep

/-- An entry that creates both map entries. -/
theorem push_recorded (h : TrackedAt c cur s l) (hnone : depthOf l = none)
    (hu : unfiltered c cur = true) (hd : s'.depthMap.get cur.pidTgid = some 1) {v : UdpStart}
    (hs : s'.startMap.get cur.pidTgid = some v) (hv : v.startTs ≠ 0)
    (hlen : l.length + 1 < 2 ^ 32) {call : ActiveCall} (hc : call.recorded = true) :
    TrackedAt c cur s' (call :: l) := by
  have hnew : depthOf (call :: l) = some 1 := by simp [depthOf, hnone, hc]
  refine ⟨?_, ?_, ⟨h.once, fun _ => hnone⟩, fun hf => ?_, hlen⟩
  · rw [hd, hnew]
    rfl
  · intro v' hv'
    obtain rfl := Option.some.inj (hs.symm.trans hv')
    exact ⟨by simp [hnew], hv⟩
  · simp [hu] at hf

/-- The entry probe, whatever fails on the way. -/
theorem enter (h : TrackedAt c cur s l) (hen : c.enable = true) (a : SendArgs n)
    (hnow : a.now ≠ 0) (hlen : l.length + 1 < 2 ^ 32) (family : Family)
    {call : ActiveCall} (hc : call.recorded = (enterCall c cur family a l).recorded) :
    TrackedAt c cur (entryProbe c cur a s family) (call :: l) := by
  simp only [enterCall, any_recorded_eq] at hc
  cases hu : unfiltered c cur with
  | false =>
      have hnone := h.filtered hu
      rw [entryProbe_of_filtered hen hu]
      refine h.push_unrecorded hnone ?_ ?_ hlen ?_
      · rfl
      · rfl
      · simp [hc, hu]
  | true =>
      rw [entryProbe_of_unfiltered hen hu]
      cases hdep : depthOf l with
      | some d =>
          have hg : s.depthMap.get cur.pidTgid = some (UInt32.ofNat d) := by
            simp [h.depth, hdep]
          simp only [recordUnfiltered, hg]
          refine h.push_nested hdep ?_ ?_ hlen ?_
          · simp [State.bump]
          · rfl
          · simp [hc, hdep]
      | none =>
          have hg : s.depthMap.get cur.pidTgid = none := by simp [h.depth, hdep]
          simp only [recordUnfiltered, hg]
          split_ifs with hdf hsf
          · refine h.push_unrecorded hdep ?_ ?_ hlen ?_
            · rfl
            · rfl
            · simp [hc, hdf]
          · refine h.push_unrecorded hdep ?_ ?_ hlen ?_
            · simp [State.bump, hg]
            · rfl
            · simp [hc, hsf]
          · refine h.push_recorded hdep hu ?_ (v := mkStart
              (appCurrentPidTgidNs cur c.pidNsDev c.pidNsIno) a) ?_ ?_ hlen ?_
            · simp [State.bump]
            · simp [State.bump]
            · rwa [mkStart_startTs]
            · simp [hc, hu, hdep, hdf, hsf]

/-- The return probe pops the innermost call. -/
theorem leave {call : ActiveCall} (h : TrackedAt c cur s (call :: rest)) (x : ReturnArgs n)
    (family : Family) : TrackedAt c cur (returnProbe c cur x s family) rest := by
  have hshort : rest.length < 2 ^ 32 := by
    have := h.short
    simp only [List.length_cons] at this
    omega
  rw [returnProbe_eq]
  cases hdep : depthOf rest with
  | some d =>
      -- nested: the depth is at least two and goes down by one
      have hall : depthOf (call :: rest) = some (d + 1) := by simp [depthOf, hdep]
      obtain ⟨hpos, hle⟩ := depthOf_le hdep
      have hg : s.depthMap.get cur.pidTgid = some (UInt32.ofNat (d + 1)) := by
        simp [h.depth, hall]
      have hgt : 1 < UInt32.ofNat (d + 1) := by
        have hfits : d + 1 < UInt32.size := Nat.lt_of_le_of_lt (Nat.succ_le_succ hle) h.short
        rw [UInt32.lt_iff_toNat_lt, UInt32.toNat_ofNat_of_lt' hfits]
        simp only [UInt32.toNat_one]
        omega
      simp only [finishUdpSend, hg, if_pos hgt]
      refine ⟨?_, ?_, h.once.1, fun hf => ?_, hshort⟩
      · simp [hdep]
      · intro v hv
        exact ⟨by simp [hdep], (h.start v hv).2⟩
      · rw [h.filtered hf] at hall
        cases hall
  | none =>
      cases hc : call.recorded with
      | false =>
          have hall : depthOf (call :: rest) = none := by simp [depthOf, hdep, hc]
          have hg : s.depthMap.get cur.pidTgid = none := by simp [h.depth, hall]
          simp only [finishUdpSend, hg]
          refine ⟨?_, ?_, h.once.1, fun _ => hdep, hshort⟩
          · simp [hg, hdep]
          · intro v hv
            rw [(missed_maps _).2] at hv
            have := (h.start v hv).1
            simp [hall] at this
      | true =>
          have hall : depthOf (call :: rest) = some 1 := by simp [depthOf, hdep, hc]
          have hg : s.depthMap.get cur.pidTgid = some 1 := by
            rw [h.depth, hall]
            rfl
          have hle : ¬(1 : UInt32) < 1 := by decide
          simp only [finishUdpSend, hg, if_neg hle]
          obtain ⟨hdm, hsm⟩ := finishOutermost_maps (c := c) (s := s) cur.pidTgid x
          refine ⟨?_, ?_, h.once.1, fun _ => hdep, hshort⟩
          · rw [hdm, BpfMap.get_delete_self, hdep]
            rfl
          · intro v hv
            rcases hsm with hsm | ⟨hsm, hzero⟩
            · simp [hsm] at hv
            · rw [hsm] at hv
              exact absurd (hzero v hv) (h.start v hv).2

end TrackedAt

/-! ## All threads -/

theorem stack_enter (c : Ctrl) (K : Kernel T) (g : Calls T) (family : Family) (t : T)
    (a : SendArgs n) :
    (g.enter c K family t a).stack = Function.update g.stack t
      (enterCall c (K.task t) family a (g.stack t) :: g.stack t) := by
  simp only [Calls.enter]
  split_ifs <;> rfl

theorem stack_leave (c : Ctrl) (K : Kernel T) (g : Calls T) (t : T) (call : ActiveCall)
    (rest : List ActiveCall) (x : ReturnArgs n) :
    (g.leave c K t call rest x).stack = Function.update g.stack t rest := by
  simp only [Calls.leave]
  split_ifs <;> rfl

def Tracked (c : Ctrl) (K : Kernel T) (s : State n × Calls T) : Prop :=
  ∀ t, TrackedAt c (K.task t) s.1 (s.2.stack t)

theorem TrackedAt.route {c : Ctrl} {cur : Task} {s : State n} {l : List ActiveCall}
    (h : TrackedAt c cur s l) (flow : Bool) : TrackedAt c cur s (l.map (ActiveCall.route flow)) := by
  refine ⟨?_, ?_, recordedOnce_route h.once, ?_, ?_⟩
  · rw [depthOf_route]
    exact h.depth
  · rw [depthOf_route]
    exact h.start
  · rw [depthOf_route]
    exact h.filtered
  · rw [List.length_map]
    exact h.short

theorem tracked_rewrite {c : Ctrl} {K : Kernel T} {s : State n × Calls T} (h : Tracked c K s)
    (t : T) (flow : Bool) (key : UInt64) {f : UdpStart → UdpStart}
    (hf : ∀ v, (f v).startTs = v.startTs) :
    Tracked c K ({ s.1 with startMap := s.1.startMap.modify key f }, s.2.route t flow) := by
  intro u
  have hframe : TrackedAt c (K.task u) { s.1 with startMap := s.1.startMap.modify key f }
      (s.2.stack u) := by
    refine (h u).frame rfl fun v' hv' => ?_
    simp only [BpfMap.get_modify] at hv'
    split_ifs at hv' with hk
    · obtain ⟨v, hv, rfl⟩ := Option.map_eq_some_iff.mp hv'
      exact ⟨v, hk ▸ hv, hf v⟩
    · exact ⟨v', hv', rfl⟩
  simp only [Calls.route]
  by_cases hut : u = t
  · subst hut
    rw [Function.update_self]
    exact hframe.route flow
  · rwa [Function.update_of_ne hut]

theorem tracked_step {c : Ctrl} {K : Kernel T} (hen : c.enable = true) {s : State n × Calls T}
    {e : Step T n} (h : Tracked c K s) (ha : (sends n c K).Allowed s e) (hr : InRange s e) :
    Tracked c K (step c K s e) := by
  cases e with
  | enter family t a =>
      intro u
      simp only [step, stack_enter]
      by_cases hut : u = t
      · subst hut
        rw [Function.update_self]
        exact (h u).enter hen a hr.2 hr.1 family rfl
      · rw [Function.update_of_ne hut]
        obtain ⟨hd, hs⟩ := entryProbe_frame (c := c) (s := s.1) a family (K.pidTgid_ne hut)
        exact (h u).frame_eq hd hs
  | leave t x =>
      obtain ⟨call, rest, hst⟩ : ∃ call rest, s.2.stack t = call :: rest := by
        cases hst : s.2.stack t with
        | nil => simp [sends, hst] at ha
        | cons call rest => exact ⟨call, rest, rfl⟩
      intro u
      simp only [step, hst, stack_leave]
      by_cases hut : u = t
      · subst hut
        rw [Function.update_self]
        exact TrackedAt.leave (hst ▸ h u) x call.family
      · rw [Function.update_of_ne hut]
        obtain ⟨hd, hs⟩ := returnProbe_frame (c := c) (s := s.1) x call.family
          (K.pidTgid_ne hut)
        exact (h u).frame_eq hd hs
  | sendSkb t x => exact tracked_rewrite h t _ _ fun v => (rewrite_startTs v x ⟨none, none⟩).1
  | sendSkbV6 t x => exact tracked_rewrite h t _ _ fun v => (rewrite_startTs v ⟨none, none⟩ x).2
  | evict key =>
      intro u
      refine (h u).frame rfl fun v' hv' => ?_
      simp only [step, BpfMap.get_delete] at hv'
      split_ifs at hv'
      exact ⟨v', hv', rfl⟩

/-- `depth_map` and `start_map` follow the stacks: a depth entry exists exactly
when an active call was recorded, its value is the number of calls from that one
inward, and an idle thread has no entry in either map. -/
structure Tracks (c : Ctrl) (K : Kernel T) (s : State n × Calls T) : Prop where
  entry : ∀ t, (s.1.depthMap.get (K.task t).pidTgid).isSome ↔
    ∃ call ∈ s.2.stack t, call.recorded = true
  value : ∀ t inner call outer, s.2.stack t = inner ++ call :: outer → call.recorded = true →
    (s.1.depthMap.get (K.task t).pidTgid).map UInt32.toNat = some (inner.length + 1)
  idle : ∀ t, s.2.stack t = [] → s.1.depthMap.get (K.task t).pidTgid = none ∧
    s.1.startMap.get (K.task t).pidTgid = none

omit [DecidableEq T] in
theorem Tracked.tracks {c : Ctrl} {K : Kernel T} {s : State n × Calls T} (h : Tracked c K s) :
    Tracks c K s := by
  refine ⟨?_, ?_, ?_⟩
  · intro t
    rw [(h t).depth]
    constructor
    · intro hsome
      by_contra hno
      have hnone : depthOf (s.2.stack t) = none :=
        depthOf_eq_none_iff.mpr fun call hm => by
          cases hc : call.recorded with
          | false => rfl
          | true => exact absurd ⟨call, hm, hc⟩ hno
      simp [hnone] at hsome
    · rintro ⟨call, hm, hc⟩
      cases hd : depthOf (s.2.stack t) with
      | some d => rfl
      | none => simp [depthOf_eq_none_iff.mp hd call hm] at hc
  · intro t inner call outer hst hc
    have hdep := depthOf_of_recorded (hst ▸ (h t).once) hc
    have hlen : inner.length + 1 < UInt32.size := by
      have hshort := (h t).short
      rw [hst, List.length_append, List.length_cons] at hshort
      exact Nat.lt_of_le_of_lt (by omega) hshort
    rw [(h t).depth, hst, hdep, Option.map_some, Option.map_some, UInt32.toNat_ofNat_of_lt' hlen]
  · intro t hst
    have hdep := (h t).depth
    rw [hst] at hdep
    refine ⟨hdep, ?_⟩
    cases hs : s.1.startMap.get (K.task t).pidTgid with
    | none => rfl
    | some v =>
        have := ((h t).start v hs).1
        simp [hst, depthOf] at this

end EbpfToolbox.Net.UdpMonitor
