import EbpfToolbox.Fs.ReadWrite
import EbpfToolbox.Ipc.Msgqueue
import EbpfToolbox.Lib.Machine
import EbpfToolbox.Mem.DrSnoop
import EbpfToolbox.Net.UdpMonitor

/-!
# The threshold and the ring buffer are about events only

`min_delay_ns`, `min_latency_ns` and a full ring buffer decide which events reach
user space. The maps and the aggregates must not depend on them. For each module
`aggregates` forgets the ring buffer and the counters that say what became of an
event, `common` forgets the threshold and the outcome of a reservation, and the
probes commute with the two.

A run is a sequence of probe invocations in any order, by any tasks, each with
the control settings it reads.
-/

namespace EbpfToolbox

open Common Lib

/-! ## fs/read -/

namespace Fs.ReadWrite

variable {n : ℕ}

def Stats.aggregates (st : Stats) : Stats :=
  { st with submitted := 0, filteredDelay := 0, ringbufDropped := 0 }

def State.aggregates (s : State n) : State n :=
  { s with stats := s.stats.map Stats.aggregates, rb := [] }

/-- A probe of `fs/read`, with the settings it reads. -/
structure Invocation (n : ℕ) where
  ctrl : Ctrl
  call : CallLabel Task (EntryArgs n) (ExitArgs n) UInt32

@[reducible] def Ctrl.common (ctrl : Ctrl) : Ctrl := { ctrl with minDelayNs := 0 }

def Invocation.common (i : Invocation n) : Invocation n where
  ctrl := i.ctrl.common
  call := match i.call with
    | .leave cur x => .leave cur { x with reserved := true }
    | call => call

def invoke (s : State n) (i : Invocation n) : State n :=
  match i.call with
  | .enter cur a => readEntry i.ctrl cur a s
  | .leave cur x => readExit i.ctrl cur x s
  | .evict k => { s with inflight := s.inflight.delete k }

def reads (n : ℕ) : Machine (State n) (Invocation n) := ⟨State.start n, invoke, fun _ _ => True⟩

theorem aggregates_bump {f : Stats → Stats} (s : State n) (cpu : Fin n)
    (hf : ∀ st, (f st).aggregates = f st.aggregates) :
    (s.bump cpu f).aggregates = s.aggregates.bump cpu f := by
  simp only [State.aggregates, State.bump, PerCpu.map_modify hf]

/-- What becomes of the event is not among the aggregates. -/
theorem aggregates_settled {f : Stats → Stats} (s : State n) (cpu : Fin n)
    (m : BpfMap UInt32 EntryData) (hf : ∀ st, (f st).aggregates = st.aggregates) :
    ({ s.bump cpu f with inflight := m } : State n).aggregates =
      { s.aggregates with inflight := m } := by
  simp only [State.aggregates, State.bump, PerCpu.map_modify_of_hidden hf]

theorem aggregates_inflight (s : State n) (m : BpfMap UInt32 EntryData) :
    ({ s with inflight := m } : State n).aggregates = { s.aggregates with inflight := m } := rfl

theorem aggregates_recordEntry (cur : Task) (data : EntryData) (a : EntryArgs n) (s : State n) :
    (recordEntry cur data a s).aggregates = recordEntry cur data a s.aggregates := by
  unfold recordEntry
  cases (fillNameFromFd a.files data.fd).isNone <;> cases a.updateFails <;>
    simp only [Bool.false_eq_true, if_true, if_false]
  · rw [aggregates_inflight, aggregates_bump]
    · rfl
    · exact fun _ => rfl
  · rw [aggregates_bump, aggregates_bump] <;> exact fun _ => rfl
  · rw [aggregates_inflight, aggregates_bump, aggregates_bump]
    · rfl
    all_goals exact fun _ => rfl
  · rw [aggregates_bump, aggregates_bump, aggregates_bump] <;> exact fun _ => rfl

theorem aggregates_readEntry (ctrl : Ctrl) (cur : Task) (a : EntryArgs n) (s : State n) :
    (readEntry ctrl cur a s).aggregates = readEntry ctrl.common cur a s.aggregates := by
  simp only [readEntry, entry, apply_ite State.aggregates, aggregates_recordEntry]
  rw [aggregates_bump, aggregates_bump] <;> exact fun _ => rfl

/-- The three ends of `read_exit` leave the same aggregates. -/
theorem aggregates_finish (ctrl : Ctrl) (cur : Task) (data : EntryData) (x : ExitArgs n)
    (s : State n) :
    (finish ctrl cur data x s).aggregates =
      { s.aggregates.bump x.cpu fun st => st.complete data (x.now - data.enterTs) x.ret with
        inflight := s.inflight.delete (tidOf cur.pidTgid) } := by
  have hdone := aggregates_bump s x.cpu
    (show ∀ st : Stats, (st.complete data (x.now - data.enterTs) x.ret).aggregates = _ from
      fun _ => rfl)
  rw [← hdone]
  simp only [finish]
  split_ifs
  · apply aggregates_settled
    exact fun _ => rfl
  · apply aggregates_settled
    exact fun _ => rfl
  · refine (aggregates_settled _ x.cpu _ ?_).trans rfl
    exact fun _ => rfl

theorem aggregates_readExit (ctrl : Ctrl) (cur : Task) (x : ExitArgs n) (s : State n) :
    (readExit ctrl cur x s).aggregates =
      (readExit ctrl.common cur { x with reserved := true } s.aggregates).aggregates := by
  have hmap : s.aggregates.inflight = s.inflight := rfl
  simp only [readExit, exit, Ctrl.common, hmap]
  cases s.inflight.get (tidOf cur.pidTgid) with
  | none =>
      simp only
      split_ifs
      · rfl
      · rw [aggregates_bump, aggregates_bump]
        · rfl
        all_goals exact fun _ => rfl
      · rfl
  | some data =>
      simp only [apply_ite State.aggregates, aggregates_finish]
      rfl

theorem reads_erases : (reads n).Erases State.aggregates Invocation.common := by
  intro s i
  rcases i with ⟨ctrl, call⟩
  cases call with
  | enter cur a =>
      exact (aggregates_readEntry ctrl cur a s).trans
        (aggregates_readEntry ctrl.common cur a s.aggregates).symm
  | leave cur x => exact aggregates_readExit ctrl cur x s
  | evict k => rfl

end Fs.ReadWrite

/-! ## mem/dr_snoop -/

namespace Mem.DrSnoop

variable {n : ℕ}

def Stats.aggregates (st : Stats) : Stats := { st with filteredDelay := 0, ringbufDropped := 0 }

def State.aggregates (s : State n) : State n :=
  { s with stats := s.stats.map Stats.aggregates, rb := [] }

/-- A probe of `mem/dr_snoop`, with the settings it reads. -/
structure Invocation (n : ℕ) where
  ctrl : Ctrl
  call : CallLabel Task (BeginArgs n) (EndArgs n) UInt64

@[reducible] def Ctrl.common (ctrl : Ctrl) : Ctrl := { ctrl with minDelayNs := 0 }

def Invocation.common (i : Invocation n) : Invocation n where
  ctrl := i.ctrl.common
  call := match i.call with
    | .leave cur x => .leave cur { x with reserved := true }
    | call => call

def invoke (s : State n) (i : Invocation n) : State n :=
  match i.call with
  | .enter cur a => traceDirectReclaimBegin i.ctrl cur a s
  | .leave cur x => traceDirectReclaimEnd i.ctrl cur x s
  | .evict k => { s with startMap := s.startMap.delete k }

def reclaims (n : ℕ) : Machine (State n) (Invocation n) :=
  ⟨State.start n, invoke, fun _ _ => True⟩

theorem aggregates_bump {f : Stats → Stats} (s : State n) (cpu : Fin n)
    (hf : ∀ st, (f st).aggregates = f st.aggregates) :
    (s.bump cpu f).aggregates = s.aggregates.bump cpu f := by
  simp only [State.aggregates, State.bump, PerCpu.map_modify hf]

/-- What becomes of the event is not among the aggregates. -/
theorem aggregates_settled {f : Stats → Stats} (s : State n) (cpu : Fin n)
    (m : BpfMap UInt64 Val) (hf : ∀ st, (f st).aggregates = st.aggregates) :
    ({ s.bump cpu f with startMap := m } : State n).aggregates =
      { s.aggregates with startMap := m } := by
  simp only [State.aggregates, State.bump, PerCpu.map_modify_of_hidden hf]

theorem aggregates_startMap (s : State n) (m : BpfMap UInt64 Val) :
    ({ s with startMap := m } : State n).aggregates = { s.aggregates with startMap := m } := rfl

theorem aggregates_recordBegin (id : UInt64) (a : BeginArgs n) (s : State n) :
    (recordBegin id a s).aggregates = recordBegin id a s.aggregates := by
  unfold recordBegin
  cases a.updateFails <;> simp only [Bool.false_eq_true, if_true, if_false]
  · rw [aggregates_startMap, aggregates_bump]
    · rfl
    · exact fun _ => rfl
  · rw [aggregates_bump, aggregates_bump] <;> exact fun _ => rfl

theorem aggregates_begin (ctrl : Ctrl) (cur : Task) (a : BeginArgs n) (s : State n) :
    (traceDirectReclaimBegin ctrl cur a s).aggregates =
      traceDirectReclaimBegin ctrl.common cur a s.aggregates := by
  simp only [traceDirectReclaimBegin, apply_ite State.aggregates, aggregates_recordBegin]

/-- The three ends of the end probe leave the same aggregates. -/
theorem aggregates_finish (ctrl : Ctrl) (id : UInt64) (val : Val) (x : EndArgs n) (s : State n) :
    (finish ctrl id val x s).aggregates =
      { s.aggregates.bump x.cpu fun st => st.complete (tgidOf id).toInt32 val x with
        startMap := s.startMap.delete id } := by
  have hdone := aggregates_bump s x.cpu
    (show ∀ st : Stats, (st.complete (tgidOf id).toInt32 val x).aggregates = _ from fun _ => rfl)
  rw [← hdone]
  simp only [finish]
  split_ifs
  · apply aggregates_settled
    exact fun _ => rfl
  · apply aggregates_settled
    exact fun _ => rfl
  · rfl

theorem aggregates_end (ctrl : Ctrl) (cur : Task) (x : EndArgs n) (s : State n) :
    (traceDirectReclaimEnd ctrl cur x s).aggregates =
      (traceDirectReclaimEnd ctrl.common cur { x with reserved := true } s.aggregates).aggregates := by
  have hmap : s.aggregates.startMap = s.startMap := rfl
  simp only [traceDirectReclaimEnd, hmap]
  by_cases hid : appCurrentPidTgidNs cur ctrl.pidNsDev ctrl.pidNsIno = 0
  · simp only [if_pos hid]
    rfl
  simp only [if_neg hid]
  cases s.startMap.get (appCurrentPidTgidNs cur ctrl.pidNsDev ctrl.pidNsIno) with
  | none =>
      simp only
      split_ifs
      · rw [aggregates_bump, aggregates_bump]
        · rfl
        all_goals exact fun _ => rfl
      · rfl
  | some val =>
      simp only [apply_ite State.aggregates, aggregates_finish]
      rfl

theorem reclaims_erases : (reclaims n).Erases State.aggregates Invocation.common := by
  intro s i
  rcases i with ⟨ctrl, call⟩
  cases call with
  | enter cur a =>
      exact (aggregates_begin ctrl cur a s).trans
        (aggregates_begin ctrl.common cur a s.aggregates).symm
  | leave cur x => exact aggregates_end ctrl cur x s
  | evict k => rfl

end Mem.DrSnoop

/-! ## net/udp_monitor -/

namespace Net.UdpMonitor

variable {n : ℕ}

def Stats.aggregates (st : Stats) : Stats := { st with filteredLatency := 0, ringbufDropped := 0 }

def State.aggregates (s : State n) : State n :=
  { s with stats := s.stats.map Stats.aggregates, rb := [] }

/-- The probes of `net/udp_monitor`, and the evictions from `start_map`. -/
inductive Call (n : ℕ) : Type where
  | sendmsg (cur : Task) (a : SendArgs n)
  | v6Sendmsg (cur : Task) (a : SendArgs n)
  | sendSkb (cur : Task) (x : FlowArgs UInt32)
  | v6SendSkb (cur : Task) (x : FlowArgs Addr6)
  | retSendmsg (cur : Task) (x : ReturnArgs n)
  | retV6Sendmsg (cur : Task) (x : ReturnArgs n)
  | evict (key : UInt64)

structure Invocation (n : ℕ) where
  ctrl : Ctrl
  call : Call n

@[reducible] def Ctrl.common (c : Ctrl) : Ctrl := { c with minLatencyNs := 0 }

def Invocation.common (i : Invocation n) : Invocation n where
  ctrl := i.ctrl.common
  call := match i.call with
    | .retSendmsg cur x => .retSendmsg cur { x with reserved := true }
    | .retV6Sendmsg cur x => .retV6Sendmsg cur { x with reserved := true }
    | call => call

def invoke (s : State n) (i : Invocation n) : State n :=
  match i.call with
  | .sendmsg cur a => traceUdpSendmsg i.ctrl cur a s
  | .v6Sendmsg cur a => traceUdpv6Sendmsg i.ctrl cur a s
  | .sendSkb cur x => traceUdpSendSkb cur x s
  | .v6SendSkb cur x => traceUdpV6SendSkb cur x s
  | .retSendmsg cur x => retUdpSendmsg i.ctrl cur x s
  | .retV6Sendmsg cur x => retUdpv6Sendmsg i.ctrl cur x s
  | .evict key => { s with startMap := s.startMap.delete key }

def invocations (n : ℕ) : Machine (State n) (Invocation n) :=
  ⟨State.start n, invoke, fun _ _ => True⟩

theorem aggregates_bump {f : Stats → Stats} (s : State n) (cpu : Fin n)
    (hf : ∀ st, (f st).aggregates = f st.aggregates) :
    (s.bump cpu f).aggregates = s.aggregates.bump cpu f := by
  simp only [State.aggregates, State.bump, PerCpu.map_modify hf]

theorem aggregates_bump_hidden {f : Stats → Stats} (s : State n) (cpu : Fin n)
    (hf : ∀ st, (f st).aggregates = st.aggregates) :
    (s.bump cpu f).aggregates = s.aggregates := by
  simp only [State.aggregates, State.bump, PerCpu.map_modify_of_hidden hf]

theorem aggregates_recordUnfiltered (cur : Task) (visible : UInt64) (a : SendArgs n) (s : State n) :
    (recordUnfiltered cur visible a s).aggregates =
      recordUnfiltered cur visible a s.aggregates := by
  have hmap : s.aggregates.depthMap = s.depthMap := rfl
  simp only [recordUnfiltered, hmap]
  cases s.depthMap.get cur.pidTgid with
  | some depth =>
      simp only
      rw [aggregates_bump]
      · rfl
      · exact fun _ => rfl
  | none =>
      simp only
      split_ifs
      · rw [aggregates_bump]
        exact fun _ => rfl
      · rw [aggregates_bump]
        · rfl
        · exact fun _ => rfl
      · rw [aggregates_bump]
        · rfl
        · exact fun _ => rfl

theorem aggregates_recordUdpSend (c : Ctrl) (cur : Task) (a : SendArgs n) (s : State n) :
    (recordUdpSend c cur a s).aggregates = recordUdpSend c.common cur a s.aggregates := by
  simp only [recordUdpSend, apply_ite State.aggregates, aggregates_recordUnfiltered]
  rw [aggregates_bump]
  exact fun _ => rfl

/-- Below the threshold, without a slot or reported: the aggregates are those of a
finished send. -/
theorem aggregates_settle (c : Ctrl) (snapshot : UdpStart) (x : ReturnArgs n) (s : State n) :
    (settle c snapshot x s).aggregates =
      if x.retval < 0 then
        s.aggregates.bump x.cpu fun st => { st with failed := st.failed + 1 }
      else s.aggregates.bump x.cpu fun st => st.sent snapshot (x.now - snapshot.startTs) x.retval := by
  simp only [settle]
  split_ifs
  · rw [aggregates_bump]
    exact fun _ => rfl
  · rw [aggregates_bump_hidden, aggregates_bump] <;> exact fun _ => rfl
  · rw [aggregates_bump_hidden, aggregates_bump] <;> exact fun _ => rfl
  · refine Eq.trans (rfl : _ = State.aggregates (s.bump x.cpu _)) ?_
    rw [aggregates_bump]
    exact fun _ => rfl

theorem aggregates_missed (c : Ctrl) (cpu : Fin n) (s : State n) :
    (missed c cpu s).aggregates = missed c.common cpu s.aggregates := by
  simp only [missed, apply_ite State.aggregates]
  rw [aggregates_bump]
  exact fun _ => rfl

theorem aggregates_finishUdpSend (c : Ctrl) (cur : Task) (x : ReturnArgs n) (s : State n) :
    (finishUdpSend c cur x s).aggregates =
      (finishUdpSend c.common cur { x with reserved := true } s.aggregates).aggregates := by
  have hdepth : s.aggregates.depthMap = s.depthMap := rfl
  have hstart : s.aggregates.startMap = s.startMap := rfl
  simp only [finishUdpSend, finishOutermost, hdepth, hstart]
  cases s.depthMap.get cur.pidTgid with
  | none =>
      simp only [aggregates_missed]
      rfl
  | some depth =>
      by_cases hd : 1 < depth
      · simp only [if_pos hd]
        rfl
      simp only [if_neg hd]
      cases s.startMap.get cur.pidTgid with
      | none =>
          simp only [aggregates_missed]
          rfl
      | some v =>
          simp only [apply_ite State.aggregates, aggregates_missed, aggregates_settle]
          rfl

theorem invocations_erases : (invocations n).Erases State.aggregates Invocation.common := by
  intro s i
  rcases i with ⟨c, call⟩
  cases call with
  | sendmsg cur a =>
      exact (aggregates_recordUdpSend c cur a s).trans
        (aggregates_recordUdpSend c.common cur a s.aggregates).symm
  | v6Sendmsg cur a =>
      exact (aggregates_recordUdpSend c cur a s).trans
        (aggregates_recordUdpSend c.common cur a s.aggregates).symm
  | sendSkb cur x => rfl
  | v6SendSkb cur x => rfl
  | retSendmsg cur x => exact aggregates_finishUdpSend c cur x s
  | retV6Sendmsg cur x => exact aggregates_finishUdpSend c cur x s
  | evict key => rfl

end Net.UdpMonitor

/-! ## ipc/msgqueue -/

namespace Ipc.Msgqueue

def State.aggregates (s : State) : State :=
  { s with counters := Function.update s.counters .ringbufDropCount 0, rb := [] }

/-- The probes of `ipc/msgqueue`, and the evictions from its LRU maps. -/
inductive Call : Type where
  | sendEnter (cur : Task) (a : SendArgs)
  | loadMsgExit (cur : Task) (ret : UInt64) (fails : Bool)
  | msgInsertExit (msg : UInt64) (ret : Int32) (now : UInt64) (fails : Bool)
  | sendExit (cur : Task) (ret : Int32) (fails : Bool)
  | recvEnter (cur : Task) (a : RecvArgs)
  | storeMsgEnter (cur : Task) (msg : UInt64) (x : ConsumeArgs)
  | freeMsgEnter (cur : Task) (msg : UInt64) (x : ConsumeArgs)
  | recvExit (cur : Task)
  | evict (m : Table) (key : UInt64)

structure Invocation where
  ctrl : Ctrl
  call : Call

@[reducible] def Ctrl.common (c : Ctrl) : Ctrl := { c with minDelayNs := 0 }

def ConsumeArgs.common (x : ConsumeArgs) : ConsumeArgs := { x with reserved := true }

def Invocation.common (i : Invocation) : Invocation where
  ctrl := i.ctrl.common
  call := match i.call with
    | .storeMsgEnter cur msg x => .storeMsgEnter cur msg x.common
    | .freeMsgEnter cur msg x => .freeMsgEnter cur msg x.common
    | call => call

def invoke (s : State) (i : Invocation) : State :=
  match i.call with
  | .sendEnter cur a => run (mqSendEnter i.ctrl cur a) s
  | .loadMsgExit cur ret fails => run (mqLoadMsgExit cur ret fails) s
  | .msgInsertExit msg ret now fails => run (mqMsgInsertExit msg ret now fails) s
  | .sendExit cur ret fails => run (mqSendExit cur ret fails) s
  | .recvEnter cur a => run (mqRecvEnter i.ctrl cur a) s
  | .storeMsgEnter cur msg x => run (mqStoreMsgEnter i.ctrl cur msg x) s
  | .freeMsgEnter cur msg x => run (mqFreeMsgEnter i.ctrl cur msg x) s
  | .recvExit cur => run (mqRecvExit cur) s
  | .evict m key => s.erase m key

def invocations : Machine State Invocation := ⟨State.start, invoke, fun _ _ => True⟩

@[simp] theorem aggregates_get (s : State) (m : Table) (key : UInt64) :
    s.aggregates.get m key = s.get m key := rfl

theorem aggregates_aggregates (s : State) : s.aggregates.aggregates = s.aggregates := by
  simp [State.aggregates]

theorem aggregates_add (s : State) (counter : Counter) (delta : counter.Value) :
    (s.aggregates.add counter delta).aggregates = (s.add counter delta).aggregates := by
  cases counter <;> simp [State.aggregates, State.add, Function.update_comm]

/-- No helper call sees what `aggregates` forgets. -/
theorem aggregates_helper (s : State) (h : Helper) :
    (h.run s.aggregates).1 = (h.run s).1 ∧
      (h.run s.aggregates).2.aggregates = (h.run s).2.aggregates := by
  cases h with
  | lookup m key => exact ⟨rfl, aggregates_aggregates s⟩
  | update m key v fails =>
      refine ⟨rfl, ?_⟩
      cases fails
      · simp [Helper.run, State.put, State.aggregates]
      · exact aggregates_aggregates s
  | delete m key => exact ⟨rfl, by simp [Helper.run, State.erase, State.aggregates]⟩
  | setMsgKey key msgKey =>
      refine ⟨rfl, ?_⟩
      simp only [Helper.run, aggregates_get]
      cases s.get .activeSends key with
      | none => exact aggregates_aggregates s
      | some send => simp [State.put, State.aggregates]
  | add counter delta => exact ⟨rfl, aggregates_add s counter delta⟩
  | loadMax => exact ⟨rfl, aggregates_aggregates s⟩
  | casMax old new =>
      refine ⟨rfl, ?_⟩
      simp only [Helper.run, apply_ite State.aggregates]
      simp [State.aggregates]
  | submit e => exact ⟨rfl, by simp [Helper.run, State.aggregates]⟩

theorem aggregates_run (p : Prog Unit) (s : State) :
    (run p s.aggregates).aggregates = (run p s).aggregates :=
  (p.exec_view Helper.run aggregates_helper (aggregates_aggregates s)).2

theorem aggregates_submitEvent (x : ConsumeArgs) (e : Event) (s : State) :
    ((submitEvent x e).exec Helper.run s).2.aggregates = s.aggregates := by
  unfold submitEvent
  split_ifs
  · rfl
  · simp [State.add, State.aggregates]

/-- The statistics of a delivery from the queue. -/
def queuedStats (residenceNs : UInt64) : Prog Unit := do
  statsAdd .queuedCount 1
  statsAdd .queuedTotalNs residenceNs
  statsUpdateMax residenceNs 16

/-- They are settled before the threshold is looked at. -/
theorem aggregates_submitQueued (c : Ctrl) (queued : QueuedMsg) (receiver : RecvCtx)
    (x : ConsumeArgs) (s : State) :
    ((submitQueued c queued receiver x).exec Helper.run s).2.aggregates =
      if c.enable && pidMatches c queued.senderPid receiver.receiverPid then
        (run (queuedStats (x.now - queued.enqueueNs)) s).aggregates
      else s.aggregates := by
  unfold submitQueued
  by_cases hm : (c.enable && pidMatches c queued.senderPid receiver.receiverPid) = true
  · simp only [if_pos hm, run, queuedStats, Program.exec_bind]
    split_ifs
    · rfl
    · exact aggregates_submitEvent _ _ _
  · simp only [if_neg hm]
    rfl

theorem aggregates_submitDirect (c : Ctrl) (pending : PendingMsg) (receiver : RecvCtx)
    (x : ConsumeArgs) (s : State) :
    ((submitDirect c pending receiver x).exec Helper.run s).2.aggregates =
      if c.enable && pidMatches c pending.senderPid receiver.receiverPid then
        (s.add .directCount 1).aggregates
      else s.aggregates := by
  unfold submitDirect
  by_cases hm : (c.enable && pidMatches c pending.senderPid receiver.receiverPid) = true
  · simp only [if_pos hm, Program.exec_bind]
    split_ifs
    · rfl
    · exact aggregates_submitEvent _ _ _
  · simp only [if_neg hm]
    rfl

theorem aggregates_consumeMessage (c : Ctrl) (cur : Task) (msg : UInt64) (countUnmatched : Bool)
    (x : ConsumeArgs) (s : State) :
    (run (consumeMessage c cur msg countUnmatched x) s).aggregates =
      (run (consumeMessage c.common cur msg countUnmatched x.common) s).aggregates := by
  simp only [run, consumeMessage]
  by_cases hmsg : msg = 0
  · simp only [if_pos hmsg]
  simp only [if_neg hmsg, Program.exec_bind, exec_lookupQueued, exec_lookupReceive]
  cases s.get .queuedMessages msg with
  | some queued =>
      cases s.get .activeReceives cur.pidTgid with
      | none => rfl
      | some receiver =>
          simp only [Program.exec_bind, aggregates_submitQueued]
          rfl
  | none =>
      simp only [Program.exec_bind, exec_lookupDirect]
      cases s.get .directMessages msg with
      | some direct =>
          cases s.get .activeReceives cur.pidTgid with
          | none => rfl
          | some receiver =>
              simp only [Program.exec_bind, aggregates_submitDirect]
              rfl
      | none =>
          simp only [consumePending, Program.exec_bind, exec_lookupPending]
          cases s.get .pendingMessages msg with
          | none => rfl
          | some pending =>
              cases s.get .activeReceives cur.pidTgid with
              | none => rfl
              | some receiver =>
                  simp only [Program.exec_bind, aggregates_submitDirect]
                  rfl

theorem invocations_erases : invocations.Erases State.aggregates Invocation.common := by
  intro s i
  rcases i with ⟨c, call⟩
  cases call with
  | sendEnter cur a => exact (aggregates_run _ s).symm
  | loadMsgExit cur ret fails => exact (aggregates_run _ s).symm
  | msgInsertExit msg ret now fails => exact (aggregates_run _ s).symm
  | sendExit cur ret fails => exact (aggregates_run _ s).symm
  | recvEnter cur a => exact (aggregates_run _ s).symm
  | storeMsgEnter cur msg x =>
      exact (aggregates_consumeMessage c cur msg true x s).trans (aggregates_run _ s).symm
  | freeMsgEnter cur msg x =>
      exact (aggregates_consumeMessage c cur msg false x s).trans (aggregates_run _ s).symm
  | recvExit cur => exact (aggregates_run _ s).symm
  | evict m key => exact (aggregates_helper s (.delete m key)).2.symm

end Ipc.Msgqueue

/-! ## All four -/

open Fs Ipc Mem Net

/-- Two runs of the same invocations that differ in the thresholds and in which
reservations succeed have, at every point, the same maps and the same aggregates. -/
theorem aggregates_independent_of_reporting :
    (∀ es es' : List Msgqueue.Invocation,
      es.map Msgqueue.Invocation.common = es'.map Msgqueue.Invocation.common → ∀ k,
        (Msgqueue.invocations.run (es.take k)).aggregates =
          (Msgqueue.invocations.run (es'.take k)).aggregates) ∧
    (∀ (n : ℕ) (es es' : List (UdpMonitor.Invocation n)),
      es.map UdpMonitor.Invocation.common = es'.map UdpMonitor.Invocation.common → ∀ k,
        ((UdpMonitor.invocations n).run (es.take k)).aggregates =
          ((UdpMonitor.invocations n).run (es'.take k)).aggregates) ∧
    (∀ (n : ℕ) (es es' : List (ReadWrite.Invocation n)),
      es.map ReadWrite.Invocation.common = es'.map ReadWrite.Invocation.common → ∀ k,
        ((ReadWrite.reads n).run (es.take k)).aggregates =
          ((ReadWrite.reads n).run (es'.take k)).aggregates) ∧
    (∀ (n : ℕ) (es es' : List (DrSnoop.Invocation n)),
      es.map DrSnoop.Invocation.common = es'.map DrSnoop.Invocation.common → ∀ k,
        ((DrSnoop.reclaims n).run (es.take k)).aggregates =
          ((DrSnoop.reclaims n).run (es'.take k)).aggregates) := by
  refine ⟨?_, ?_, ?_, ?_⟩
  · intro es es' h k
    exact Msgqueue.invocations_erases.run_take_eq h k
  · intro n es es' h k
    exact UdpMonitor.invocations_erases.run_take_eq h k
  · intro n es es' h k
    exact ReadWrite.reads_erases.run_take_eq h k
  · intro n es es' h k
    exact DrSnoop.reclaims_erases.run_take_eq h k

/-- The same calls, reported in one run and below the threshold in the other. -/
theorem aggregates_reported_and_suppressed :
    let cur : Task := ⟨packPidTgid 1 1, fun _ _ => none⟩
    let name : Comm := Vector.replicate _ 0
    let queue (delay : UInt64) (ok : Bool) : List Msgqueue.Invocation :=
      [⟨⟨true, delay, 0, 0, 0⟩, .sendEnter cur ⟨3, 8, 0, name, false⟩⟩,
        ⟨⟨true, delay, 0, 0, 0⟩, .loadMsgExit cur 4096 false⟩,
        ⟨⟨true, delay, 0, 0, 0⟩, .msgInsertExit 4096 0 10 false⟩,
        ⟨⟨true, delay, 0, 0, 0⟩, .recvEnter cur ⟨4, name, false⟩⟩,
        ⟨⟨true, delay, 0, 0, 0⟩, .storeMsgEnter cur 4096 ⟨30, ok⟩⟩]
    let udp (delay : UInt64) (ok : Bool) : List (UdpMonitor.Invocation 1) :=
      [⟨⟨true, delay, 0, 0, 0⟩, .sendmsg cur
          ⟨0, 10, name, ⟨2, 9, 9, 1, 1, Vector.replicate _ 0, Vector.replicate _ 0⟩, 5, none,
            false, false⟩⟩,
        ⟨⟨true, delay, 0, 0, 0⟩, .retSendmsg cur ⟨0, 30, 5, ok⟩⟩]
    let read (delay : UInt64) (ok : Bool) : List (ReadWrite.Invocation 1) :=
      [⟨⟨true, delay, 0, 0, 0, 0⟩, .enter cur ⟨0, 10, 3, 64, name, none, false⟩⟩,
        ⟨⟨true, delay, 0, 0, 0, 0⟩, .leave cur ⟨0, 30, 64, ok⟩⟩]
    let reclaim (delay : UInt64) (ok : Bool) : List (DrSnoop.Invocation 1) :=
      [⟨⟨true, delay, 0, 0, 0⟩, .enter cur ⟨0, 10, name, false⟩⟩,
        ⟨⟨true, delay, 0, 0, 0⟩, .leave cur ⟨0, 30, 4, ok⟩⟩]
    ((Msgqueue.invocations.run (queue 0 true)).rb.length = 1 ∧
      (Msgqueue.invocations.run (queue 100 false)).rb.length = 0 ∧
      (Msgqueue.invocations.run ((queue 0 true).take 5)).aggregates =
        (Msgqueue.invocations.run ((queue 100 false).take 5)).aggregates) ∧
    (((UdpMonitor.invocations 1).run (udp 0 true)).rb.length = 1 ∧
      ((UdpMonitor.invocations 1).run (udp 100 false)).rb.length = 0 ∧
      ((UdpMonitor.invocations 1).run ((udp 0 true).take 2)).aggregates =
        ((UdpMonitor.invocations 1).run ((udp 100 false).take 2)).aggregates) ∧
    (((ReadWrite.reads 1).run (read 0 true)).rb.length = 1 ∧
      ((ReadWrite.reads 1).run (read 0 false)).rb.length = 0 ∧
      ((ReadWrite.reads 1).run ((read 0 true).take 2)).aggregates =
        ((ReadWrite.reads 1).run ((read 0 false).take 2)).aggregates) ∧
    (((DrSnoop.reclaims 1).run (reclaim 0 true)).rb.length = 1 ∧
      ((DrSnoop.reclaims 1).run (reclaim 100 true)).rb.length = 0 ∧
      ((DrSnoop.reclaims 1).run ((reclaim 0 true).take 2)).aggregates =
        ((DrSnoop.reclaims 1).run ((reclaim 100 true).take 2)).aggregates) := by
  intro cur name queue udp read reclaim
  rcases aggregates_independent_of_reporting with ⟨hqueue, hudp, hread, hreclaim⟩
  refine ⟨⟨by decide +kernel, by decide +kernel, ?_⟩, ⟨by decide +kernel, by decide +kernel, ?_⟩,
    ⟨by decide +kernel, by decide +kernel, ?_⟩, ⟨by decide +kernel, by decide +kernel, ?_⟩⟩
  · exact hqueue (queue 0 true) (queue 100 false) rfl 5
  · exact hudp 1 (udp 0 true) (udp 100 false) rfl 2
  · exact hread 1 (read 0 true) (read 0 false) rfl 2
  · exact hreclaim 1 (reclaim 0 true) (reclaim 100 true) rfl 2

end EbpfToolbox
