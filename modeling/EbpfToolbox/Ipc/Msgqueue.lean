import EbpfToolbox.Common.PidNamespace
import EbpfToolbox.Lib.BpfMap
import EbpfToolbox.Lib.Program
import Mathlib.Data.UInt

/-!
# ipc/msgqueue

`ipc/msgqueue/msgqueue.bpf.c`. A message is followed from `load_msg` to `free_msg`
under the address of its `struct msg_msg`. Its record starts in
`pending_messages`; `msg_insert` moves it to `queued_messages`, the exit of a send
that did not insert its message moves it to `direct_messages`, and the receiver
takes it out of whichever map it finds it in.

A probe is a program of helper calls. The counts are natural numbers, and the
lookups in the one-entry arrays `ctrl_map` and `stats_map` always succeed, so they
are not calls of their own: a probe is given the control settings it reads.

A lookup gives the value and not a pointer to it. The probes read through their pointers
a little later, after the next lookup at most: the value is the same then, since an update
puts a new element in place of the old one and `active_receives` and `active_sends` are
written by the thread itself. Not covered is an element of a message that another thread
consumes and that is used again for another message between the two lookups.
-/

namespace EbpfToolbox.Ipc.Msgqueue

open Common Lib

/-- `struct Msgqueue_ctrl`. -/
structure Ctrl where
  enable : Bool
  minDelayNs : UInt64
  targetPid : Int32
  pidnsDev : UInt64
  pidnsIno : UInt64
deriving DecidableEq

/-- `struct mq_send_ctx`. -/
structure SendCtx where
  msgKey : UInt64
  msgLen : UInt64
  senderPid : Int32
  mqdes : Int32
  msgPrio : UInt32
  senderComm : Comm

/-- `struct mq_recv_ctx`. -/
structure RecvCtx where
  receiverPid : Int32
  mqdes : Int32
  receiverComm : Comm

/-- `struct mq_pending_msg`. -/
structure PendingMsg where
  msgLen : UInt64
  senderPid : Int32
  mqdes : Int32
  msgPrio : UInt32
  senderComm : Comm

/-- `struct mq_queued_msg`. -/
structure QueuedMsg where
  enqueueNs : UInt64
  msgLen : UInt64
  senderPid : Int32
  mqdes : Int32
  msgPrio : UInt32
  senderComm : Comm

/-- `MQ_DELIVERY_QUEUED` and `MQ_DELIVERY_DIRECT`. -/
inductive DeliveryType : Type where
  | queued
  | direct
deriving DecidableEq, Repr

/-- `struct Msgqueue_event`. -/
structure Event where
  tsNs : UInt64
  residenceNs : UInt64
  msgLen : UInt64
  senderPid : Int32
  receiverPid : Int32
  sendMqdes : Int32
  recvMqdes : Int32
  msgPrio : UInt32
  deliveryType : DeliveryType
  senderComm : Comm
  receiverComm : Comm

/-- The fields of `struct Msgqueue_stats` that are only added to; the other one is
`queued_max_ns`. -/
inductive Counter : Type where
  | queuedCount
  | queuedTotalNs
  | directCount
  | unmatchedCount
  | trackingDropCount
  | ringbufDropCount
deriving DecidableEq, Repr

/-- Counts are natural numbers here; the sum of the residence times wraps. -/
@[reducible] def Counter.Value : Counter → Type
  | .queuedTotalNs => UInt64
  | _ => ℕ

instance (x : Counter) : AddCancelCommMonoid x.Value :=
  match x with
  | .queuedTotalNs => inferInstanceAs (AddCancelCommMonoid UInt64)
  | .queuedCount | .directCount | .unmatchedCount | .trackingDropCount | .ringbufDropCount =>
      inferInstanceAs (AddCancelCommMonoid ℕ)

/-- The five hash maps. -/
inductive Table : Type where
  | activeSends
  | activeReceives
  | pendingMessages
  | queuedMessages
  | directMessages
deriving DecidableEq, Repr

@[reducible] def Table.Value : Table → Type
  | .activeSends => SendCtx
  | .activeReceives => RecvCtx
  | .pendingMessages => PendingMsg
  | .queuedMessages => QueuedMsg
  | .directMessages => PendingMsg

/-- The maps that are keyed by message addresses. -/
def Table.OfMessages (m : Table) : Prop :=
  m = .pendingMessages ∨ m = .queuedMessages ∨ m = .directMessages

structure State where
  maps : (m : Table) → BpfMap UInt64 m.Value
  counters : (x : Counter) → x.Value
  queuedMaxNs : UInt64
  rb : List Event

namespace State

def start : State := ⟨fun _ => ∅, fun x => (0 : x.Value), 0, []⟩

def get (s : State) (m : Table) (key : UInt64) : Option m.Value := (s.maps m).get key

def put (s : State) (m : Table) (key : UInt64) (v : m.Value) : State :=
  { s with maps := Function.update s.maps m ((s.maps m).update key v) }

def erase (s : State) (m : Table) (key : UInt64) : State :=
  { s with maps := Function.update s.maps m ((s.maps m).delete key) }

def add (s : State) (counter : Counter) (delta : counter.Value) : State :=
  { s with counters := Function.update s.counters counter (s.counters counter + delta) }

@[simp] theorem get_start (m : Table) (key : UInt64) : start.get m key = none :=
  BpfMap.get_empty key

@[simp] theorem get_add (s : State) (counter : Counter) (delta : counter.Value) (m : Table)
    (key : UInt64) :
    (s.add counter delta).get m key = s.get m key := rfl

@[simp] theorem get_put_self (s : State) (m : Table) (key : UInt64) (v : m.Value) :
    (s.put m key v).get m key = some v := by
  simp [get, put]

theorem get_put_of_ne (s : State) {m m' : Table} {key key' : UInt64} (v : m.Value)
    (h : m' = m → key' ≠ key) : (s.put m key v).get m' key' = s.get m' key' := by
  by_cases hm : m' = m
  · subst hm
    simp [get, put, BpfMap.get_update_of_ne _ _ (h rfl)]
  · simp [get, put, hm]

@[simp] theorem get_erase_self (s : State) (m : Table) (key : UInt64) :
    (s.erase m key).get m key = none := by
  simp [get, erase]

theorem get_erase_of_ne (s : State) {m m' : Table} {key key' : UInt64}
    (h : m' = m → key' ≠ key) : (s.erase m key).get m' key' = s.get m' key' := by
  by_cases hm : m' = m
  · subst hm
    simp [get, erase, BpfMap.get_delete_of_ne _ (h rfl)]
  · simp [get, erase, hm]

@[simp] theorem counters_erase (s : State) (m : Table) (key : UInt64) :
    (s.erase m key).counters = s.counters := rfl

end State

/-! ## Helper calls -/

inductive Helper : Type where
  | lookup (m : Table) (key : UInt64)
  | update (m : Table) (key : UInt64) (v : m.Value) (fails : Bool)
  | delete (m : Table) (key : UInt64)
  /-- `send->msg_key = msg_key`, through the pointer into `active_sends`. -/
  | setMsgKey (key msgKey : UInt64)
  /-- `stats_add`. -/
  | add (counter : Counter) (delta : counter.Value)
  /-- The read of `*max_value` and the compare-and-swap of `stats_update_max`. -/
  | loadMax
  | casMax (old new : UInt64)
  | submit (e : Event)

/-- `update` returns whether it failed. -/
@[reducible] def Helper.Result : Helper → Type
  | .lookup m _ => Option m.Value
  | .update .. => Bool
  | .delete .. => Unit
  | .setMsgKey .. => Unit
  | .add .. => Unit
  | .loadMax => UInt64
  | .casMax .. => UInt64
  | .submit _ => Unit

def Helper.run (s : State) : (h : Helper) → h.Result × State
  | .lookup m key => (s.get m key, s)
  | .update m key v fails => (fails, if fails then s else s.put m key v)
  | .delete m key => ((), s.erase m key)
  | .setMsgKey key msgKey =>
      ((), match s.get .activeSends key with
        | some send => s.put .activeSends key { send with msgKey }
        | none => s)
  | .add counter delta => ((), s.add counter delta)
  | .loadMax => (s.queuedMaxNs, s)
  | .casMax old new =>
      (s.queuedMaxNs, if s.queuedMaxNs = old then { s with queuedMaxNs := new } else s)
  | .submit e => ((), { s with rb := s.rb ++ [e] })

abbrev Prog (α : Type) : Type := Program Helper Helper.Result α

def perform (h : Helper) : Prog h.Result := Program.lift h

def lookupSend (key : UInt64) : Prog (Option SendCtx) := perform (.lookup .activeSends key)

def lookupReceive (key : UInt64) : Prog (Option RecvCtx) := perform (.lookup .activeReceives key)

def lookupPending (key : UInt64) : Prog (Option PendingMsg) :=
  perform (.lookup .pendingMessages key)

def lookupQueued (key : UInt64) : Prog (Option QueuedMsg) := perform (.lookup .queuedMessages key)

def lookupDirect (key : UInt64) : Prog (Option PendingMsg) := perform (.lookup .directMessages key)

def update (m : Table) (key : UInt64) (v : m.Value) (fails : Bool) : Prog Bool :=
  perform (.update m key v fails)

def delete (m : Table) (key : UInt64) : Prog Unit := perform (.delete m key)

def setMsgKey (key msgKey : UInt64) : Prog Unit := perform (.setMsgKey key msgKey)

def statsAdd (counter : Counter) (delta : counter.Value) : Prog Unit := perform (.add counter delta)

def loadMax : Prog UInt64 := perform .loadMax

def casMax (old new : UInt64) : Prog UInt64 := perform (.casMax old new)

def ringbufSubmit (e : Event) : Prog Unit := perform (.submit e)

/-- A whole probe as one step. -/
def run (p : Prog Unit) (s : State) : State := (p.exec Helper.run s).2

/-! ## The probes -/

def currentTgid (c : Ctrl) (cur : Task) : Int32 :=
  (tgidOf (appCurrentPidTgidNs cur c.pidnsDev c.pidnsIno)).toInt32

/-- Error pointers are the last 4095 addresses. -/
def validMsgPtr (msg : UInt64) : Bool := msg ≠ 0 && msg < (0 : UInt64) - 4095

def pidMatches (c : Ctrl) (senderPid receiverPid : Int32) : Bool :=
  c.targetPid = 0 || c.targetPid = senderPid || c.targetPid = receiverPid

/-- `stats_update_max`, with the number of tries that are left. -/
def statsUpdateMax (candidate : UInt64) : ℕ → Prog Unit
  | 0 => pure ()
  | tries + 1 => do
      let old ← loadMax
      if candidate ≤ old then pure ()
      else
        let seen ← casMax old candidate
        if seen = old then pure () else statsUpdateMax candidate tries

/-- The time and the outcome of `bpf_ringbuf_reserve` that a consuming probe meets. -/
structure ConsumeArgs where
  now : UInt64
  reserved : Bool

/-- The end of both `submit_*` functions. -/
def submitEvent (x : ConsumeArgs) (e : Event) : Prog Unit :=
  if x.reserved then ringbufSubmit e else statsAdd .ringbufDropCount 1

def mkQueuedEvent (queued : QueuedMsg) (receiver : RecvCtx) (x : ConsumeArgs) : Event where
  tsNs := x.now
  residenceNs := x.now - queued.enqueueNs
  msgLen := queued.msgLen
  senderPid := queued.senderPid
  receiverPid := receiver.receiverPid
  sendMqdes := queued.mqdes
  recvMqdes := receiver.mqdes
  msgPrio := queued.msgPrio
  deliveryType := .queued
  senderComm := queued.senderComm
  receiverComm := receiver.receiverComm

def mkDirectEvent (pending : PendingMsg) (receiver : RecvCtx) (x : ConsumeArgs) : Event where
  tsNs := x.now
  residenceNs := 0
  msgLen := pending.msgLen
  senderPid := pending.senderPid
  receiverPid := receiver.receiverPid
  sendMqdes := pending.mqdes
  recvMqdes := receiver.mqdes
  msgPrio := pending.msgPrio
  deliveryType := .direct
  senderComm := pending.senderComm
  receiverComm := receiver.receiverComm

/-- The threshold only concerns the event, not the statistics. -/
def submitQueued (c : Ctrl) (queued : QueuedMsg) (receiver : RecvCtx) (x : ConsumeArgs) :
    Prog Unit :=
  if c.enable && pidMatches c queued.senderPid receiver.receiverPid then do
    let residenceNs := x.now - queued.enqueueNs
    statsAdd .queuedCount 1
    statsAdd .queuedTotalNs residenceNs
    statsUpdateMax residenceNs 16
    if c.minDelayNs ≠ 0 ∧ residenceNs < c.minDelayNs then pure ()
    else submitEvent x (mkQueuedEvent queued receiver x)
  else pure ()

def submitDirect (c : Ctrl) (pending : PendingMsg) (receiver : RecvCtx) (x : ConsumeArgs) :
    Prog Unit :=
  if c.enable && pidMatches c pending.senderPid receiver.receiverPid then do
    statsAdd .directCount 1
    if c.minDelayNs ≠ 0 then pure ()
    else submitEvent x (mkDirectEvent pending receiver x)
  else pure ()

/-- The arguments of `do_mq_timedsend` and the outcome of the insertion. -/
structure SendArgs where
  mqdes : Int32
  msgLen : UInt64
  msgPrio : UInt32
  comm : Comm
  fails : Bool

def mqSendEnter (c : Ctrl) (cur : Task) (a : SendArgs) : Prog Unit :=
  if c.enable = false ∨ currentTgid c cur = 0 then pure ()
  else do
    let failed ← update .activeSends cur.pidTgid
      { msgKey := 0, msgLen := a.msgLen, senderPid := currentTgid c cur, mqdes := a.mqdes
        msgPrio := a.msgPrio, senderComm := a.comm } a.fails
    if failed then statsAdd .trackingDropCount 1 else pure ()

/-- What `load_msg` and the exit probe copy from the send context. -/
def SendCtx.pending (send : SendCtx) : PendingMsg where
  msgLen := send.msgLen
  senderPid := send.senderPid
  mqdes := send.mqdes
  msgPrio := send.msgPrio
  senderComm := send.senderComm

def mqLoadMsgExit (cur : Task) (ret : UInt64) (fails : Bool) : Prog Unit :=
  if validMsgPtr ret = false then pure ()
  else do
    match ← lookupSend cur.pidTgid with
    | none => pure ()
    | some send =>
        let failed ← update .pendingMessages ret (send.pending) fails
        if failed then statsAdd .trackingDropCount 1
        else setMsgKey cur.pidTgid ret

def PendingMsg.queued (pending : PendingMsg) (now : UInt64) : QueuedMsg where
  enqueueNs := now
  msgLen := pending.msgLen
  senderPid := pending.senderPid
  mqdes := pending.mqdes
  msgPrio := pending.msgPrio
  senderComm := pending.senderComm

/-- `msg_insert` may run in the thread of a receiver: nothing here looks at it. -/
def mqMsgInsertExit (msg : UInt64) (ret : Int32) (now : UInt64) (fails : Bool) : Prog Unit :=
  if ret ≠ 0 ∨ msg = 0 then pure ()
  else do
    match ← lookupPending msg with
    | none => pure ()
    | some pending =>
        let failed ← update .queuedMessages msg (pending.queued now) fails
        if failed then statsAdd .trackingDropCount 1 else pure ()
        delete .pendingMessages msg

/-- The arguments of `do_mq_timedreceive` and the outcome of the insertion. -/
structure RecvArgs where
  mqdes : Int32
  comm : Comm
  fails : Bool

def mqRecvEnter (c : Ctrl) (cur : Task) (a : RecvArgs) : Prog Unit :=
  if c.enable = false ∨ currentTgid c cur = 0 then pure ()
  else do
    let failed ← update .activeReceives cur.pidTgid
      { receiverPid := currentTgid c cur, mqdes := a.mqdes, receiverComm := a.comm } a.fails
    if failed then statsAdd .trackingDropCount 1 else pure ()

/-- No record was found, or it was found in `pending_messages` by a thread that is
not a recorded receiver. -/
def unmatched (c : Ctrl) (receiver : Option RecvCtx) (countUnmatched : Bool) : Prog Unit :=
  match receiver with
  | none => pure ()
  | some receiver =>
      if countUnmatched && c.enable &&
          (c.targetPid = 0 || c.targetPid = receiver.receiverPid) then
        statsAdd .unmatchedCount 1
      else pure ()

/-- The third branch and the end of `consume_message`. -/
def consumePending (c : Ctrl) (msg : UInt64) (countUnmatched : Bool) (x : ConsumeArgs)
    (receiver : Option RecvCtx) : Prog Unit := do
  match ← lookupPending msg, receiver with
  | some direct, some receiver =>
      delete .pendingMessages msg
      submitDirect c direct receiver x
  | _, receiver => unmatched c receiver countUnmatched

def consumeMessage (c : Ctrl) (cur : Task) (msg : UInt64) (countUnmatched : Bool)
    (x : ConsumeArgs) : Prog Unit :=
  if msg = 0 then pure ()
  else do
    let queued ← lookupQueued msg
    let receiver ← lookupReceive cur.pidTgid
    match queued with
    | some queued =>
        delete .queuedMessages msg
        match receiver with
        | some receiver => submitQueued c queued receiver x
        | none => pure ()
    | none =>
        match ← lookupDirect msg with
        | some direct =>
            delete .directMessages msg
            match receiver with
            | some receiver => submitDirect c direct receiver x
            | none => pure ()
        | none => consumePending c msg countUnmatched x receiver

def mqStoreMsgEnter (c : Ctrl) (cur : Task) (msg : UInt64) (x : ConsumeArgs) : Prog Unit :=
  consumeMessage c cur msg true x

def mqFreeMsgEnter (c : Ctrl) (cur : Task) (msg : UInt64) (x : ConsumeArgs) : Prog Unit :=
  consumeMessage c cur msg false x

/-- The part of `mq_send_exit` for a context with a message; `ret` is what the send
returns, `fails` the outcome of the insertion into `direct_messages`. -/
def settlePending (msgKey : UInt64) (ret : Int32) (fails : Bool) : Prog Unit := do
  match ← lookupPending msgKey with
  | none => pure ()
  | some pending =>
      if ret = 0 then
        let failed ← update .directMessages msgKey pending fails
        if failed then statsAdd .trackingDropCount 1 else pure ()
      else pure ()
      delete .pendingMessages msgKey

def mqSendExit (cur : Task) (ret : Int32) (fails : Bool) : Prog Unit := do
  match ← lookupSend cur.pidTgid with
  | none => pure ()
  | some send =>
      if send.msgKey ≠ 0 then settlePending send.msgKey ret fails else pure ()
      delete .activeSends cur.pidTgid

def mqRecvExit (cur : Task) : Prog Unit := delete .activeReceives cur.pidTgid

/-! ## A probe as one step -/

section Run

variable {c : Ctrl} {cur : Task} {s : State}

@[simp] theorem exec_lookupSend (key : UInt64) :
    (lookupSend key).exec Helper.run s = (s.get .activeSends key, s) := rfl

@[simp] theorem exec_lookupReceive (key : UInt64) :
    (lookupReceive key).exec Helper.run s = (s.get .activeReceives key, s) := rfl

@[simp] theorem exec_lookupPending (key : UInt64) :
    (lookupPending key).exec Helper.run s = (s.get .pendingMessages key, s) := rfl

@[simp] theorem exec_lookupQueued (key : UInt64) :
    (lookupQueued key).exec Helper.run s = (s.get .queuedMessages key, s) := rfl

@[simp] theorem exec_lookupDirect (key : UInt64) :
    (lookupDirect key).exec Helper.run s = (s.get .directMessages key, s) := rfl

@[simp] theorem exec_update (m : Table) (key : UInt64) (v : m.Value) (fails : Bool) :
    (update m key v fails).exec Helper.run s = (fails, if fails then s else s.put m key v) := rfl

@[simp] theorem exec_delete (m : Table) (key : UInt64) :
    (delete m key).exec Helper.run s = ((), s.erase m key) := rfl

theorem exec_setMsgKey {key : UInt64} (msgKey : UInt64) {send : SendCtx}
    (h : s.get .activeSends key = some send) :
    (setMsgKey key msgKey).exec Helper.run s =
      ((), s.put .activeSends key { send with msgKey }) := by
  have hrun : (Helper.run s (.setMsgKey key msgKey)).2 =
      s.put .activeSends key { send with msgKey } := by simp only [Helper.run, h]
  exact Prod.ext rfl hrun

@[simp] theorem exec_statsAdd (counter : Counter) (delta : counter.Value) :
    (statsAdd counter delta).exec Helper.run s = ((), s.add counter delta) := rfl

theorem run_mqSendEnter (c : Ctrl) (cur : Task) (s : State) (a : SendArgs) :
    run (mqSendEnter c cur a) s =
      if c.enable = false ∨ currentTgid c cur = 0 then s
      else if a.fails then s.add .trackingDropCount 1
      else s.put .activeSends cur.pidTgid
        ⟨0, a.msgLen, currentTgid c cur, a.mqdes, a.msgPrio, a.comm⟩ := by
  unfold run mqSendEnter
  split_ifs with h hf
  · rfl
  · simp [hf]
  · simp [hf]

theorem run_mqRecvEnter (c : Ctrl) (cur : Task) (s : State) (a : RecvArgs) :
    run (mqRecvEnter c cur a) s =
      if c.enable = false ∨ currentTgid c cur = 0 then s
      else if a.fails then s.add .trackingDropCount 1
      else s.put .activeReceives cur.pidTgid ⟨currentTgid c cur, a.mqdes, a.comm⟩ := by
  unfold run mqRecvEnter
  split_ifs with h hf
  · rfl
  · simp [hf]
  · simp [hf]

theorem run_mqRecvExit : run (mqRecvExit cur) s = s.erase .activeReceives cur.pidTgid := rfl

/-- A thread without a send context, as in a System V send, leaves no trace. -/
theorem run_mqLoadMsgExit_untracked {ret : UInt64} (fails : Bool)
    (h : validMsgPtr ret = false ∨ s.get .activeSends cur.pidTgid = none) :
    run (mqLoadMsgExit cur ret fails) s = s := by
  unfold run mqLoadMsgExit
  split_ifs with hv
  · rfl
  · simp [h.resolve_left hv]

theorem run_mqLoadMsgExit {ret : UInt64} (fails : Bool) {send : SendCtx}
    (hv : validMsgPtr ret = true) (hs : s.get .activeSends cur.pidTgid = some send) :
    run (mqLoadMsgExit cur ret fails) s =
      if fails then s.add .trackingDropCount 1
      else (s.put .pendingMessages ret send.pending).put .activeSends cur.pidTgid
        { send with msgKey := ret } := by
  have hs' : (s.put .pendingMessages ret send.pending).get .activeSends cur.pidTgid =
      some send := by
    simp [State.get_put_of_ne, hs]
  unfold run mqLoadMsgExit
  rw [if_neg (by simp [hv])]
  cases fails with
  | true => simp [hs]
  | false => simp [hs, exec_setMsgKey _ hs']

theorem run_mqMsgInsertExit_untracked {msg : UInt64} {ret : Int32} (now : UInt64) (fails : Bool)
    (h : ret ≠ 0 ∨ s.get .pendingMessages msg = none) :
    run (mqMsgInsertExit msg ret now fails) s = s := by
  unfold run mqMsgInsertExit
  split_ifs with hr
  · rfl
  · simp [h.resolve_left fun hne => hr (Or.inl hne)]

theorem run_mqMsgInsertExit {msg : UInt64} (now : UInt64) (fails : Bool) {pending : PendingMsg}
    (hmsg : msg ≠ 0) (hp : s.get .pendingMessages msg = some pending) :
    run (mqMsgInsertExit msg 0 now fails) s =
      (if fails then s.add .trackingDropCount 1
        else s.put .queuedMessages msg (pending.queued now)).erase .pendingMessages msg := by
  unfold run mqMsgInsertExit
  rw [if_neg (by simp [hmsg])]
  cases fails with
  | true => simp [hp]
  | false => simp [hp]

theorem run_mqSendExit_untracked (ret : Int32) (fails : Bool)
    (h : s.get .activeSends cur.pidTgid = none) : run (mqSendExit cur ret fails) s = s := by
  simp [run, mqSendExit, h]

/-- The exit of a send whose message has no record in `pending_messages` any more. -/
theorem run_mqSendExit_settled (ret : Int32) (fails : Bool) {send : SendCtx}
    (h : s.get .activeSends cur.pidTgid = some send)
    (hp : send.msgKey = 0 ∨ s.get .pendingMessages send.msgKey = none) :
    run (mqSendExit cur ret fails) s = s.erase .activeSends cur.pidTgid := by
  by_cases hz : send.msgKey = 0
  · simp [run, mqSendExit, h, hz]
  · simp [run, mqSendExit, settlePending, h, hz, hp.resolve_left hz]

theorem run_mqSendExit (ret : Int32) (fails : Bool) {send : SendCtx} {pending : PendingMsg}
    (h : s.get .activeSends cur.pidTgid = some send) (hz : send.msgKey ≠ 0)
    (hp : s.get .pendingMessages send.msgKey = some pending) :
    run (mqSendExit cur ret fails) s =
      ((if ret = 0 then
          if fails then s.add .trackingDropCount 1
          else s.put .directMessages send.msgKey pending
        else s).erase .pendingMessages send.msgKey).erase .activeSends cur.pidTgid := by
  by_cases hr : ret = 0
  · cases fails with
    | true =>
        simp [run, mqSendExit, settlePending, h, hz,
          hp, hr]
    | false =>
        simp [run, mqSendExit, settlePending, h, hz, hp, hr]
  · simp [run, mqSendExit, settlePending, h, hz, hp, hr]

/-- The entry probe writes a context without a message, or nothing. -/
theorem get_run_mqSendEnter (c : Ctrl) (cur : Task) (a : SendArgs) (σ : State) :
    (∀ (m : Table) key, (m = .activeSends → key ≠ cur.pidTgid) →
        (run (mqSendEnter c cur a) σ).get m key = σ.get m key) ∧
      ∀ send, (run (mqSendEnter c cur a) σ).get .activeSends cur.pidTgid = some send →
        σ.get .activeSends cur.pidTgid = some send ∨ send.msgKey = 0 := by
  rw [run_mqSendEnter]
  split_ifs
  · exact ⟨fun _ _ _ => rfl, fun _ hsend => Or.inl hsend⟩
  · exact ⟨fun _ _ _ => rfl, fun _ hsend => Or.inl hsend⟩
  · refine ⟨fun m key hne => State.get_put_of_ne _ _ hne, fun send hsend => Or.inr ?_⟩
    rw [State.get_put_self] at hsend
    rw [← Option.some.inj hsend]

/-- The probe after `load_msg` stores the record and the address together. -/
theorem get_run_mqLoadMsgExit (cur : Task) (ret : UInt64) (fails : Bool) (σ : State) :
    (∀ (m : Table) key, (m = .activeSends → key ≠ cur.pidTgid) →
        (m = .pendingMessages → key ≠ ret) →
        (run (mqLoadMsgExit cur ret fails) σ).get m key = σ.get m key) ∧
      ((∃ send, (run (mqLoadMsgExit cur ret fails) σ).get .activeSends cur.pidTgid = some send ∧
          send.msgKey = ret) ∨ run (mqLoadMsgExit cur ret fails) σ = σ ∨
        run (mqLoadMsgExit cur ret fails) σ = σ.add .trackingDropCount 1) := by
  by_cases hun : validMsgPtr ret = false ∨ σ.get .activeSends cur.pidTgid = none
  · rw [run_mqLoadMsgExit_untracked fails hun]
    exact ⟨fun _ _ _ _ => rfl, Or.inr (Or.inl rfl)⟩
  · obtain ⟨hv, hsend⟩ := not_or.mp hun
    obtain ⟨send, hsend⟩ := Option.ne_none_iff_exists'.mp hsend
    rw [run_mqLoadMsgExit fails (by simpa using hv) hsend]
    cases fails with
    | true => exact ⟨fun _ _ _ _ => rfl, Or.inr (Or.inr rfl)⟩
    | false =>
        refine ⟨fun m key h1 h2 => ?_, Or.inl ⟨_, State.get_put_self _ _ _ _, rfl⟩⟩
        exact (State.get_put_of_ne _ _ h1).trans (State.get_put_of_ne _ _ h2)

/-! ### Consumption -/

/-- The counters of deliveries: what went through the queue, what was handed over,
and what had no record. -/
def State.deliveries (s : State) : ℕ × ℕ × ℕ :=
  (s.counters .queuedCount, s.counters .directCount, s.counters .unmatchedCount)

@[simp] theorem State.deliveries_erase (s : State) (m : Table) (key : UInt64) :
    (s.erase m key).deliveries = s.deliveries := rfl

theorem State.deliveries_congr {s s' : State} (h : s'.counters = s.counters) :
    s'.deliveries = s.deliveries := by
  simp only [State.deliveries, h]

/-- The map that `consume_message` takes the record from. -/
def takes (s : State) (cur : Task) (msg : UInt64) : Option Table :=
  if (s.get .queuedMessages msg).isSome then some .queuedMessages
  else if (s.get .directMessages msg).isSome then some .directMessages
  else if (s.get .pendingMessages msg).isSome && (s.get .activeReceives cur.pidTgid).isSome then
    some .pendingMessages
  else none

/-- What a recorded receiver adds to the deliveries, by the map it takes from. -/
def delivered (countUnmatched : Bool) : Option Table → ℕ × ℕ × ℕ
  | some .queuedMessages => (1, 0, 0)
  | some _ => (0, 1, 0)
  | none => (0, 0, if countUnmatched then 1 else 0)

theorem exec_statsUpdateMax (candidate : UInt64) (tries : ℕ) (s : State) :
    let s' := ((statsUpdateMax candidate tries).exec Helper.run s).2
    s'.maps = s.maps ∧ s'.counters = s.counters := by
  induction tries generalizing s with
  | zero => exact ⟨rfl, rfl⟩
  | succ tries ih =>
      have hload : loadMax.exec Helper.run s = (s.queuedMaxNs, s) := rfl
      have hcas : (casMax s.queuedMaxNs candidate).exec Helper.run s =
          (s.queuedMaxNs, { s with queuedMaxNs := candidate }) := by
        change (s.queuedMaxNs, if s.queuedMaxNs = s.queuedMaxNs then _ else _) = _
        rw [if_pos rfl]
      simp only [statsUpdateMax, Program.exec_bind, hload]
      split_ifs with hle
      · exact ⟨rfl, rfl⟩
      · simp only [Program.exec_bind, hcas, if_true]
        exact ⟨rfl, rfl⟩

theorem exec_submitEvent (x : ConsumeArgs) (e : Event) (s : State) :
    let s' := ((submitEvent x e).exec Helper.run s).2
    s'.maps = s.maps ∧ s'.deliveries = s.deliveries := by
  unfold submitEvent
  split_ifs <;> exact ⟨rfl, rfl⟩

theorem exec_submitQueued (c : Ctrl) (queued : QueuedMsg) (receiver : RecvCtx) (x : ConsumeArgs)
    (s : State) :
    ((submitQueued c queued receiver x).exec Helper.run s).2.maps = s.maps ∧
      ((submitQueued c queued receiver x).exec Helper.run s).2.deliveries = s.deliveries +
        if c.enable && pidMatches c queued.senderPid receiver.receiverPid then (1, 0, 0) else 0 := by
  unfold submitQueued
  by_cases hm : (c.enable && pidMatches c queued.senderPid receiver.receiverPid) = true
  · obtain ⟨hmax, hcnt⟩ := exec_statsUpdateMax (x.now - queued.enqueueNs) 16
      ((s.add .queuedCount 1).add .queuedTotalNs (x.now - queued.enqueueNs))
    have hdel := (State.deliveries_congr hcnt).trans (show _ = s.deliveries + (1, 0, 0) by
      simp [State.deliveries, State.add])
    simp only [if_pos hm, Program.exec_bind, exec_statsAdd]
    split_ifs
    · exact ⟨hmax, hdel⟩
    · obtain ⟨hm, hd⟩ := exec_submitEvent x (mkQueuedEvent queued receiver x)
        ((statsUpdateMax (x.now - queued.enqueueNs) 16).exec Helper.run
          ((s.add .queuedCount 1).add .queuedTotalNs (x.now - queued.enqueueNs))).2
      exact ⟨hm.trans hmax, hd.trans hdel⟩
  · simp only [if_neg hm]
    exact ⟨rfl, rfl⟩

theorem exec_submitDirect (c : Ctrl) (pending : PendingMsg) (receiver : RecvCtx)
    (x : ConsumeArgs) (s : State) :
    ((submitDirect c pending receiver x).exec Helper.run s).2.maps = s.maps ∧
      ((submitDirect c pending receiver x).exec Helper.run s).2.deliveries = s.deliveries +
        if c.enable && pidMatches c pending.senderPid receiver.receiverPid then (0, 1, 0) else 0 := by
  unfold submitDirect
  by_cases hm : (c.enable && pidMatches c pending.senderPid receiver.receiverPid) = true
  · have hdel : (s.add .directCount 1).deliveries = s.deliveries + (0, 1, 0) := by
      simp [State.deliveries, State.add]
    simp only [if_pos hm, Program.exec_bind, exec_statsAdd]
    split_ifs
    · exact ⟨rfl, hdel⟩
    · obtain ⟨hm, hd⟩ := exec_submitEvent x (mkDirectEvent pending receiver x)
        (s.add .directCount 1)
      exact ⟨hm, hd.trans hdel⟩
  · simp only [if_neg hm]
    exact ⟨rfl, rfl⟩

theorem exec_unmatched (c : Ctrl) (receiver : Option RecvCtx) (countUnmatched : Bool) (s : State) :
    ((unmatched c receiver countUnmatched).exec Helper.run s).2.maps = s.maps := by
  unfold unmatched
  cases receiver with
  | none => rfl
  | some receiver =>
      simp only
      split_ifs <;> rfl

/-- A consuming probe takes the record out of one map, or out of none. -/
theorem run_consumeMessage_maps (c : Ctrl) (cur : Task) (s : State) {msg : UInt64}
    (countUnmatched : Bool) (x : ConsumeArgs)
    (hmsg : msg ≠ 0) :
    (run (consumeMessage c cur msg countUnmatched x) s).maps =
      match takes s cur msg with
      | some m => (s.erase m msg).maps
      | none => s.maps := by
  simp only [run, consumeMessage, if_neg hmsg, takes, Program.exec_bind, exec_lookupQueued,
    exec_lookupReceive]
  cases hq : s.get .queuedMessages msg with
  | some queued =>
      cases hr : s.get .activeReceives cur.pidTgid with
      | some receiver => simpa using (exec_submitQueued c queued receiver x _).1
      | none => simp
  | none =>
      cases hd : s.get .directMessages msg with
      | some direct =>
          cases hr : s.get .activeReceives cur.pidTgid with
          | some receiver => simpa [hd] using (exec_submitDirect c direct receiver x _).1
          | none => simp [hd]
      | none =>
          cases hp : s.get .pendingMessages msg with
          | some direct =>
              cases hr : s.get .activeReceives cur.pidTgid with
              | some receiver =>
                  simpa [hd, hp, consumePending] using (exec_submitDirect c direct receiver x _).1
              | none => simpa [hd, hp, consumePending] using exec_unmatched c none countUnmatched s
          | none => simpa [hd, hp, consumePending] using exec_unmatched c _ countUnmatched s

theorem get_run_consumeMessage (c : Ctrl) (cur : Task) (s : State) {msg : UInt64}
    (countUnmatched : Bool) (x : ConsumeArgs)
    (hmsg : msg ≠ 0) (m : Table) (key : UInt64) :
    (run (consumeMessage c cur msg countUnmatched x) s).get m key =
      if takes s cur msg = some m ∧ key = msg then none else s.get m key := by
  have hmaps := run_consumeMessage_maps c cur s countUnmatched x hmsg
  simp only [State.get, hmaps]
  cases ht : takes s cur msg with
  | none => simp
  | some m' =>
      by_cases h : m' = m ∧ key = msg
      · rcases h with ⟨rfl, rfl⟩
        simpa [State.get] using State.get_erase_self s m' key
      · have hne : m = m' → key ≠ msg := fun hm hk => h ⟨hm.symm, hk⟩
        simpa [State.get, h] using State.get_erase_of_ne s hne

/-- What a recorded receiver adds when collection is on for every process. -/
theorem run_consumeMessage_deliveries {msg : UInt64} (countUnmatched : Bool) (x : ConsumeArgs)
    (hmsg : msg ≠ 0) (hen : c.enable = true) (hpid : c.targetPid = 0)
    (hr : s.get .activeReceives cur.pidTgid ≠ none) :
    (run (consumeMessage c cur msg countUnmatched x) s).deliveries =
      s.deliveries + delivered countUnmatched (takes s cur msg) := by
  obtain ⟨receiver, hr⟩ := Option.ne_none_iff_exists'.mp hr
  have hmatch : ∀ a b, pidMatches c a b = true := fun a b => by simp [pidMatches, hpid]
  simp only [run, consumeMessage, if_neg hmsg, takes, Program.exec_bind, exec_lookupQueued,
    exec_lookupReceive, hr]
  cases hq : s.get .queuedMessages msg with
  | some queued =>
      simpa [hen, hmatch, delivered] using
        (exec_submitQueued c queued receiver x (s.erase .queuedMessages msg)).2
  | none =>
      cases hd : s.get .directMessages msg with
      | some direct =>
          simpa [hd, hen, hmatch, delivered] using
            (exec_submitDirect c direct receiver x (s.erase .directMessages msg)).2
      | none =>
          cases hp : s.get .pendingMessages msg with
          | some direct =>
              simpa [hd, hp, hen, hmatch, consumePending, delivered] using
                (exec_submitDirect c direct receiver x (s.erase .pendingMessages msg)).2
          | none =>
              cases countUnmatched with
              | true =>
                  simp [hd, hp, hen, hpid, consumePending, unmatched, delivered,
                    State.deliveries, State.add]
              | false =>
                  simp [hd, hp, consumePending, unmatched, delivered, State.deliveries]

end Run

end EbpfToolbox.Ipc.Msgqueue
