import EbpfToolbox.Ipc.Msgqueue
import EbpfToolbox.Lib.Machine

/-!
# The exit of a send against the receiver of its message

Messages that are handed over directly, without reuse of addresses, failing
insertions or evictions. Here `mq_send_exit` on one side and `mq_store_msg_enter` and
`mq_free_msg_enter` on the other make one helper call at a time, in any order. The
other probes only touch entries that nobody else looks at meanwhile and are one
step each.

The exit copies the record from `pending_messages` to `direct_messages` and deletes it
only then, and the receiver looks in `direct_messages` first. When both find the
record in `pending_messages` it is delivered by both.
-/

namespace EbpfToolbox.Ipc.Msgqueue.Handover

open Common Lib

variable {T : Type}

/-! ## Flights -/

/-- Where the receiver of a message is: it has not started, or it runs one of its
two probes. -/
inductive Receiving : Type where
  | waiting
  | storing (p : Prog Unit)
  | freeing (p : Prog Unit)

/-- A message in flight. `moved`: the exit has written `direct_messages`; `taken`: a
recorded receiver has found the record in `pending_messages`; `found`: the receiver has
found it in `direct_messages`; `swept`: `free_msg` has looked there. -/
structure Flight (T : Type) where
  sender : T
  receiver : Option T
  exit : Option (Prog Unit)
  recv : Receiving
  sendReturned : Bool
  recvReturned : Bool
  moved : Bool
  taken : Bool
  found : Bool
  swept : Bool

def Flight.new (t : T) : Flight T :=
  ⟨t, none, none, .waiting, false, false, false, false, false, false⟩

def Flight.exitDone (f : Flight T) : Bool := f.exit.any Program.isDone

def Flight.freeDone (f : Flight T) : Bool :=
  match f.recv with
  | .freeing p => p.isDone
  | _ => false

/-- The flights by address, the call every thread is in, with its message once it
has one, and the message of every delivery that was counted or reported. -/
structure Race (T : Type) where
  flights : UInt64 → Option (Flight T)
  sending : T → Option (Option UInt64)
  receiving : T → Option (Option UInt64)
  counted : List UInt64
  reported : List UInt64

def Race.start : Race T := ⟨fun _ => none, fun _ => none, fun _ => none, [], []⟩

def Receiving.advance (s : State) : Receiving → Receiving
  | .waiting => .waiting
  | .storing p => .storing (p.advance Helper.run s).1
  | .freeing p => .freeing (p.advance Helper.run s).1

/-- `free_msg` comes after `store_msg`, or instead of it. -/
def Receiving.canFree : Receiving → Bool
  | .waiting => true
  | .storing p => p.isDone
  | .freeing _ => false

def Receiving.isWaiting : Receiving → Bool
  | .waiting => true
  | _ => false

/-- The two probes by whether they count what has no record. -/
def Receiving.probe : Bool → Prog Unit → Receiving
  | true => .storing
  | false => .freeing

theorem Receiving.advance_probe (b : Bool) (p : Prog Unit) (s : State) :
    (probe b p).advance s = probe b (p.advance Helper.run s).1 := by
  cases b <;> rfl

inductive Step (T : Type) : Type where
  | sendEnter (t : T) (c : Ctrl) (a : SendArgs)
  | loadMsg (t : T) (msg : UInt64)
  | recvEnter (t : T) (c : Ctrl) (a : RecvArgs)
  | handOver (msg : UInt64) (t : T)
  | exitStart (msg : UInt64)
  | exitHelper (msg : UInt64)
  | sendReturn (msg : UInt64)
  | storeStart (msg : UInt64) (c : Ctrl) (x : ConsumeArgs)
  | freeStart (msg : UInt64) (c : Ctrl) (x : ConsumeArgs)
  | recvHelper (msg : UInt64)
  | recvReturn (msg : UInt64)

/-! ## One helper call -/

/-- The deliveries that were counted. -/
def deliveredCount (s : State) : ℕ := s.counters .queuedCount + s.counters .directCount

def isMove : Option Helper → Bool
  | some (.update .directMessages _ _ _) => true
  | _ => false

def looksUp (m : Table) : Option Helper → Bool
  | some (.lookup m' _) => m' = m
  | _ => false

namespace Flight

/-- What is left of the exit probe. -/
def exitProg (f : Flight T) : Prog Unit := f.exit.getD (pure ())

/-- What is left of the receiver's probe. -/
def recvProg (f : Flight T) : Prog Unit :=
  match f.recv with
  | .waiting => pure ()
  | .storing p => p
  | .freeing p => p

def Freeing (f : Flight T) : Bool :=
  match f.recv with
  | .freeing _ => true
  | _ => false

theorem recvProg_of_probe {f : Flight T} {b : Bool} {p : Prog Unit} (h : f.recv = .probe b p) :
    f.recvProg = p := by
  cases b <;> simp [recvProg, h, Receiving.probe]

theorem freeing_of_probe {f : Flight T} {b : Bool} {p : Prog Unit} (h : f.recv = .probe b p) :
    f.Freeing = !b := by
  cases b <;> simp [Freeing, h, Receiving.probe]

def stepExit (f : Flight T) (s : State) : Flight T :=
  { f with
    exit := f.exit.map fun p => (p.advance Helper.run s).1
    moved := f.moved || isMove f.exitProg.next }

/-- The receiver thread is recorded. -/
def recorded (f : Flight T) (K : Kernel T) (s : State) : Bool :=
  f.receiver.any fun r => (s.get .activeReceives (K.task r).pidTgid).isSome

/-- The next call of the receiver finds the record in `pending_messages` and takes it. -/
def takesPending (f : Flight T) (K : Kernel T) (msg : UInt64) (s : State) : Bool :=
  looksUp .pendingMessages f.recvProg.next && f.recorded K s &&
    (s.get .pendingMessages msg).isSome

def stepRecv (f : Flight T) (K : Kernel T) (msg : UInt64) (s : State) : Flight T :=
  { f with
    recv := f.recv.advance s
    taken := f.taken || f.takesPending K msg s
    found := f.found ||
      (looksUp .directMessages f.recvProg.next && (s.get .directMessages msg).isSome)
    swept := f.swept || (f.Freeing && looksUp .directMessages f.recvProg.next) }

end Flight

/-! ## The machine -/

namespace Race

def modify (g : Race T) (msg : UInt64) (f : Flight T → Flight T) : Race T :=
  { g with flights := Function.update g.flights msg ((g.flights msg).map f) }

theorem modify_eq {g : Race T} {msg : UInt64} {f : Flight T} (h : g.flights msg = some f)
    (φ : Flight T → Flight T) :
    g.modify msg φ = { g with flights := Function.update g.flights msg (some (φ f)) } := by
  rw [modify, h, Option.map_some]

/-- Attribute what a helper call added to the statistics and the ring buffer. -/
def record (g : Race T) (msg : UInt64) (s s' : State) : Race T :=
  { g with
    counted := g.counted ++ List.replicate (deliveredCount s' - deliveredCount s) msg
    reported := g.reported ++ List.replicate (s'.rb.length - s.rb.length) msg }

end Race

variable [DecidableEq T]

def step (K : Kernel T) (s : State × Race T) (e : Step T) : State × Race T :=
  match e with
  | .sendEnter t c a =>
      (run (mqSendEnter c (K.task t) a) s.1,
        { s.2 with sending := Function.update s.2.sending t (some none) })
  | .loadMsg t msg =>
      (run (mqLoadMsgExit (K.task t) msg false) s.1,
        { s.2 with
          flights := Function.update s.2.flights msg (some (Flight.new t))
          sending := Function.update s.2.sending t (some (some msg)) })
  | .recvEnter t c a =>
      (run (mqRecvEnter c (K.task t) a) s.1,
        { s.2 with receiving := Function.update s.2.receiving t (some none) })
  | .handOver msg t =>
      (s.1, { s.2.modify msg fun f => { f with receiver := some t } with
        receiving := Function.update s.2.receiving t (some (some msg)) })
  | .exitStart msg =>
      (s.1, s.2.modify msg fun f =>
        { f with exit := some (mqSendExit (K.task f.sender) 0 false) })
  | .exitHelper msg =>
      match s.2.flights msg with
      | none => s
      | some f =>
          let s' := (f.exitProg.advance Helper.run s.1).2
          (s', (s.2.modify msg fun f => f.stepExit s.1).record msg s.1 s')
  | .sendReturn msg =>
      match s.2.flights msg with
      | none => s
      | some f =>
          -- the exit probe has already run: the context is gone
          (s.1, { s.2.modify msg fun f => { f with sendReturned := true } with
            sending := Function.update s.2.sending f.sender none })
  | .storeStart msg c x =>
      (s.1, s.2.modify msg fun f =>
        match f.receiver with
        | none => f
        | some r => { f with recv := .storing (mqStoreMsgEnter c (K.task r) msg x) })
  | .freeStart msg c x =>
      (s.1, s.2.modify msg fun f =>
        match f.receiver with
        | none => f
        | some r => { f with recv := .freeing (mqFreeMsgEnter c (K.task r) msg x) })
  | .recvHelper msg =>
      match s.2.flights msg with
      | none => s
      | some f =>
          let s' := (f.recvProg.advance Helper.run s.1).2
          (s', (s.2.modify msg fun f => f.stepRecv K msg s.1).record msg s.1 s')
  | .recvReturn msg =>
      match (s.2.flights msg).bind Flight.receiver with
      | none => s
      | some r =>
          (run (mqRecvExit (K.task r)) s.1,
            { s.2.modify msg fun f => { f with recvReturned := true } with
              receiving := Function.update s.2.receiving r none })

def Race.Allows (g : Race T) : Step T → Bool
  | .sendEnter t _ a => g.sending t = none && g.receiving t = none && !a.fails
  | .loadMsg t msg => g.sending t = some none && validMsgPtr msg && (g.flights msg).isNone
  | .recvEnter t _ a => g.sending t = none && g.receiving t = none && !a.fails
  | .handOver msg t => (g.flights msg).any (·.receiver.isNone) && g.receiving t = some none
  | .exitStart msg => (g.flights msg).any fun f => f.receiver.isSome && f.exit.isNone
  | .exitHelper msg => (g.flights msg).any (·.exitProg.next.isSome)
  | .sendReturn msg => (g.flights msg).any fun f => f.exitDone && !f.sendReturned
  | .storeStart msg _ _ => (g.flights msg).any fun f => f.receiver.isSome && f.recv.isWaiting
  | .freeStart msg _ _ => (g.flights msg).any fun f => f.receiver.isSome && f.recv.canFree
  | .recvHelper msg => (g.flights msg).any (·.recvProg.next.isSome)
  | .recvReturn msg => (g.flights msg).any fun f => f.freeDone && !f.recvReturned

def handovers (K : Kernel T) : Machine (State × Race T) (Step T) where
  init := (State.start, Race.start)
  step := step K
  Allowed s e := s.2.Allows e = true

instance (K : Kernel T) (s : State × Race T) (e : Step T) :
    Decidable ((handovers K).Allowed s e) :=
  inferInstanceAs (Decidable (s.2.Allows e = true))

/-- The exit does not write `direct_messages` once the receiver has taken the record or
`free_msg` has looked there, and the receiver does not take the record from
`pending_messages` once the exit has written `direct_messages`. -/
def Uncrossed (K : Kernel T) (s : State × Race T) : Step T → Prop
  | .exitHelper msg => (s.2.flights msg).all (fun f =>
      !isMove f.exitProg.next || (!f.taken && !f.swept)) = true
  | .recvHelper msg => (s.2.flights msg).all (fun f =>
      !f.takesPending K msg s.1 || !f.moved) = true
  | _ => True

/-! ## Control points -/

/-- Where `mq_send_exit` is, for a message `msg` of the running thread. -/
inductive ExitPc : Type where
  | start
  | found
  | copied (pending : PendingMsg)
  | moved
  | leaving
  | finished

namespace ExitPc

/-- What is left of the probe. -/
def prog (cur : Task) (msg : UInt64) : ExitPc → Prog Unit
  | start => mqSendExit cur 0 false
  | found => do
      settlePending msg 0 false
      delete .activeSends cur.pidTgid
  | copied pending => do
      (do
        let failed ← update .directMessages msg pending false
        if failed then
          statsAdd .trackingDropCount 1
          delete .pendingMessages msg
        else delete .pendingMessages msg)
      delete .activeSends cur.pidTgid
  | moved => do
      delete .pendingMessages msg
      delete .activeSends cur.pidTgid
  | leaving => delete .activeSends cur.pidTgid
  | finished => pure ()

def next (cur : Task) (msg : UInt64) (s : State) : ExitPc → ExitPc
  | start =>
      match s.get .activeSends cur.pidTgid with
      | none => finished
      | some send => if SendCtx.msgKey send = 0 then leaving else found
  | found =>
      match s.get .pendingMessages msg with
      | none => leaving
      | some pending => copied pending
  | copied _ => moved
  | moved => leaving
  | leaving => finished
  | finished => finished

def effect (cur : Task) (msg : UInt64) (s : State) : ExitPc → State
  | copied pending => s.put .directMessages msg pending
  | moved => s.erase .pendingMessages msg
  | leaving => s.erase .activeSends cur.pidTgid
  | _ => s

theorem advance_prog {cur : Task} {msg : UInt64} {s : State} (pc : ExitPc)
    (hkey : pc = start → ∀ send, s.get .activeSends cur.pidTgid = some send →
      send.msgKey = 0 ∨ send.msgKey = msg) :
    (pc.prog cur msg).advance Helper.run s =
      ((pc.next cur msg s).prog cur msg, pc.effect cur msg s) := by
  cases pc with
  | start =>
      have hadv : (mqSendExit cur 0 false).advance Helper.run s =
          (match s.get .activeSends cur.pidTgid with
            | none => pure ()
            | some send =>
                if SendCtx.msgKey send ≠ 0 then do
                  settlePending (SendCtx.msgKey send) 0 false
                  delete .activeSends cur.pidTgid
                else delete .activeSends cur.pidTgid, s) := rfl
      simp only [prog, hadv, next, effect]
      cases hsend : s.get .activeSends cur.pidTgid with
      | none => rfl
      | some send =>
          by_cases hz : send.msgKey = 0
          · simp [hz]
          · obtain rfl := (hkey rfl send hsend).resolve_left hz
            simp [hz]
  | found =>
      have hadv : (prog cur msg found).advance Helper.run s =
          ((match s.get .pendingMessages msg with
            | none => pure ()
            | some pending => do
                let failed ← update .directMessages msg pending false
                if failed then
                  statsAdd .trackingDropCount 1
                  delete .pendingMessages msg
                else delete .pendingMessages msg) >>= fun _ =>
            delete .activeSends cur.pidTgid, s) := rfl
      simp only [hadv, next, effect]
      cases s.get .pendingMessages msg with
      | none => rfl
      | some pending => rfl
  | copied pending => rfl
  | moved => rfl
  | leaving => rfl
  | finished => rfl

/-- Before the exit probe has written `direct_messages`. -/
def early : ExitPc → Bool
  | start | found | copied _ => true
  | _ => false

/-- Every call but the last one only concerns the message. -/
theorem get_effect_of_ne (cur : Task) {msg : UInt64} (s : State) (pc : ExitPc) {m : Table}
    {key : UInt64} (hm : m.OfMessages → key ≠ msg) (hs : m = .activeSends → key ≠ cur.pidTgid) :
    (pc.effect cur msg s).get m key = s.get m key := by
  cases pc with
  | copied pending => exact State.get_put_of_ne _ _ fun h => hm (Or.inr (Or.inr h))
  | moved => exact State.get_erase_of_ne _ fun h => hm (Or.inl h)
  | leaving => exact State.get_erase_of_ne _ hs
  | start | found | finished => rfl

theorem effect_delivers_nothing (cur : Task) (msg : UInt64) (s : State) (pc : ExitPc) :
    deliveredCount (pc.effect cur msg s) = deliveredCount s ∧
      (pc.effect cur msg s).rb = s.rb := by
  cases pc <;> exact ⟨rfl, rfl⟩

theorem eq_finished {cur : Task} {msg : UInt64} {pc : ExitPc}
    (h : (pc.prog cur msg).isDone = true) : pc = finished := by
  cases pc with
  | finished => rfl
  | start | found | copied | moved | leaving => cases h

end ExitPc

/-- Where a consuming probe is. -/
inductive RecvPc : Type where
  | start
  | unqueued
  | ready (receiver : Option RecvCtx)
  | dropDirect (receiver : Option RecvCtx) (direct : PendingMsg)
  | pend (receiver : Option RecvCtx)
  | dropPending (receiver : RecvCtx) (direct : PendingMsg)
  | submit (receiver : RecvCtx) (direct : PendingMsg)
  | event (receiver : RecvCtx) (direct : PendingMsg)
  | unmatched (receiver : Option RecvCtx)
  | finished

namespace RecvPc

section Prog

variable (c : Ctrl) (cur : Task) (msg : UInt64) (countUnmatched : Bool) (x : ConsumeArgs)

/-- What is left of the probe, for a message that is not in `queued_messages`. -/
def prog : RecvPc → Prog Unit
  | start => consumeMessage c cur msg countUnmatched x
  | unqueued => do
      let receiver ← lookupReceive cur.pidTgid
      match ← lookupDirect msg with
      | some direct =>
          delete .directMessages msg
          match receiver with
          | some receiver => submitDirect c direct receiver x
          | none => pure ()
      | none => consumePending c msg countUnmatched x receiver
  | ready receiver => do
      match ← lookupDirect msg with
      | some direct =>
          delete .directMessages msg
          match receiver with
          | some receiver => submitDirect c direct receiver x
          | none => pure ()
      | none => consumePending c msg countUnmatched x receiver
  | dropDirect receiver direct => do
      -- deleted also for a thread that is not a recorded receiver
      delete .directMessages msg
      match receiver with
      | some receiver => submitDirect c direct receiver x
      | none => pure ()
  | pend receiver => consumePending c msg countUnmatched x receiver
  | dropPending receiver direct => do
      delete .pendingMessages msg
      submitDirect c direct receiver x
  | submit receiver direct => submitDirect c direct receiver x
  | event receiver direct =>
      if c.minDelayNs ≠ 0 then pure () else submitEvent x (mkDirectEvent direct receiver x)
  | unmatched receiver => Msgqueue.unmatched c receiver countUnmatched
  | finished => pure ()

/-- Is the delivery counted at all? -/
def counts (receiver : RecvCtx) (direct : PendingMsg) : Bool :=
  c.enable && pidMatches c direct.senderPid receiver.receiverPid

def countsUnmatched (receiver : RecvCtx) : Bool :=
  countUnmatched && c.enable && (c.targetPid = 0 || c.targetPid = receiver.receiverPid)

def next (s : State) : RecvPc → RecvPc
  | start => unqueued
  | unqueued => ready (s.get .activeReceives cur.pidTgid)
  | ready receiver =>
      match s.get .directMessages msg with
      | some direct => dropDirect receiver direct
      | none => pend receiver
  | dropDirect receiver direct =>
      match receiver with
      | some receiver => submit receiver direct
      | none => finished
  | pend receiver =>
      match s.get .pendingMessages msg, receiver with
      | some direct, some receiver => dropPending receiver direct
      | _, receiver => unmatched receiver
  | dropPending receiver direct => submit receiver direct
  | submit receiver direct => if counts c receiver direct then event receiver direct else finished
  | event _ _ => finished
  | unmatched _ => finished
  | finished => finished

def effect (s : State) : RecvPc → State
  | dropDirect _ _ => s.erase .directMessages msg
  | dropPending _ _ => s.erase .pendingMessages msg
  | submit receiver direct => if counts c receiver direct then s.add .directCount 1 else s
  | event receiver direct =>
      if c.minDelayNs ≠ 0 then s
      else if x.reserved then { s with rb := s.rb ++ [mkDirectEvent direct receiver x] }
      else s.add .ringbufDropCount 1
  | unmatched (some receiver) =>
      if countsUnmatched c countUnmatched receiver then s.add .unmatchedCount 1 else s
  | _ => s

end Prog

theorem advance_prog {c : Ctrl} {cur : Task} {msg : UInt64} {countUnmatched : Bool}
    {x : ConsumeArgs} {s : State} (hmsg : msg ≠ 0) (hq : s.get .queuedMessages msg = none)
    (pc : RecvPc) :
    (pc.prog c cur msg countUnmatched x).advance Helper.run s =
      ((pc.next c cur msg s).prog c cur msg countUnmatched x,
        pc.effect c msg countUnmatched x s) := by
  cases pc with
  | start =>
      have hadv : (consumeMessage c cur msg countUnmatched x).advance Helper.run s =
          (do
            let receiver ← lookupReceive cur.pidTgid
            match s.get .queuedMessages msg with
            | some queued =>
                delete .queuedMessages msg
                match receiver with
                | some receiver => submitQueued c queued receiver x
                | none => pure ()
            | none =>
                match ← lookupDirect msg with
                | some direct =>
                    delete .directMessages msg
                    match receiver with
                    | some receiver => submitDirect c direct receiver x
                    | none => pure ()
                | none => consumePending c msg countUnmatched x receiver, s) := by
        rw [consumeMessage, if_neg hmsg]
        rfl
      simp only [prog, hadv, hq, next, effect]
  | unqueued => rfl
  | ready receiver =>
      have hadv : (prog c cur msg countUnmatched x (ready receiver)).advance Helper.run s =
          (match s.get .directMessages msg with
            | some direct => do
                delete .directMessages msg
                match receiver with
                | some receiver => submitDirect c direct receiver x
                | none => pure ()
            | none => consumePending c msg countUnmatched x receiver, s) := rfl
      simp only [hadv, next, effect]
      cases s.get .directMessages msg with
      | none => rfl
      | some direct => rfl
  | dropDirect receiver direct => cases receiver <;> rfl
  | pend receiver =>
      have hadv : (prog c cur msg countUnmatched x (pend receiver)).advance Helper.run s =
          (match s.get .pendingMessages msg, receiver with
            | some direct, some receiver => do
                delete .pendingMessages msg
                submitDirect c direct receiver x
            | _, receiver => Msgqueue.unmatched c receiver countUnmatched, s) := rfl
      simp only [hadv, next, effect]
      cases s.get .pendingMessages msg <;> cases receiver <;> rfl
  | dropPending receiver direct => rfl
  | submit receiver direct =>
      by_cases hc : counts c receiver direct = true
      · have hprog : prog c cur msg countUnmatched x (submit receiver direct) = (do
            statsAdd .directCount 1
            prog c cur msg countUnmatched x (event receiver direct)) := if_pos hc
        rw [hprog, next, effect, if_pos hc, if_pos hc]
        rfl
      · have hprog : prog c cur msg countUnmatched x (submit receiver direct) = pure () :=
          if_neg hc
        rw [hprog, next, effect, if_neg hc, if_neg hc]
        rfl
  | event receiver direct =>
      simp only [prog, submitEvent, next, effect]
      split_ifs <;> rfl
  | unmatched receiver =>
      cases receiver with
      | none => rfl
      | some receiver =>
          by_cases hc : countsUnmatched c countUnmatched receiver = true
          · have hprog : prog c cur msg countUnmatched x (unmatched (some receiver)) =
                statsAdd .unmatchedCount 1 := if_pos hc
            rw [hprog, effect, if_pos hc]
            rfl
          · have hprog : prog c cur msg countUnmatched x (unmatched (some receiver)) = pure () :=
              if_neg hc
            rw [hprog, effect, if_neg hc]
            rfl
  | finished => rfl

/-- What the probe knows about its receiver, while it still matters where the record
is found. -/
def receiver : RecvPc → Option (Option RecvCtx)
  | ready receiver | pend receiver => some receiver
  | _ => none

/-- The lookup in `direct_messages` is still to come. -/
def beforeSweep : RecvPc → Bool
  | start | unqueued | ready _ => true
  | _ => false

/-- A delivery that the probe is about to count. -/
def owes : RecvPc → ℕ
  | dropDirect (some _) _ | dropPending _ _ | submit _ _ => 1
  | _ => 0

/-- An event that the probe is about to submit. -/
def owesEvent : RecvPc → ℕ
  | dropDirect (some _) _ | dropPending _ _ | submit _ _ | event _ _ => 1
  | _ => 0

/-- The map that the next call looks in, if it is a lookup. -/
def lookedUp : RecvPc → Option Table
  | start => some .queuedMessages
  | unqueued => some .activeReceives
  | ready _ => some .directMessages
  | pend _ => some .pendingMessages
  | _ => none

/-- The record was found and is about to be deleted. -/
def drops : RecvPc → Bool
  | dropDirect _ _ | dropPending _ _ => true
  | _ => false

/-- Not yet past the maps. -/
def busy : RecvPc → Bool
  | start | unqueued | ready _ | dropDirect _ _ | pend _ | dropPending _ _ => true
  | _ => false

section Next

variable {c : Ctrl} {cur : Task} {msg : UInt64} {countUnmatched : Bool} {x : ConsumeArgs}

theorem next_start (hmsg : msg ≠ 0) :
    (prog c cur msg countUnmatched x start).next = some (.lookup .queuedMessages msg) := by
  rw [prog, consumeMessage, if_neg hmsg]
  rfl

theorem looksUp_next (hmsg : msg ≠ 0) (m : Table) (pc : RecvPc) :
    looksUp m (pc.prog c cur msg countUnmatched x).next = decide (pc.lookedUp = some m) := by
  cases pc with
  | start =>
      rw [next_start hmsg]
      simp [looksUp, lookedUp]
  | unqueued => cases m <;> rfl
  | ready receiver => cases m <;> rfl
  | dropDirect receiver direct => cases m <;> rfl
  | pend receiver => cases m <;> rfl
  | dropPending receiver direct => cases m <;> rfl
  | submit receiver direct =>
      simp only [prog, submitDirect]
      split_ifs <;> cases m <;> rfl
  | event receiver direct =>
      simp only [prog, submitEvent]
      split_ifs <;> cases m <;> rfl
  | unmatched receiver =>
      cases receiver with
      | none => cases m <;> rfl
      | some receiver =>
          simp only [prog, Msgqueue.unmatched]
          split_ifs <;> cases m <;> rfl
  | finished => cases m <;> rfl

theorem effect_of_lookedUp {s : State} {pc : RecvPc} (h : pc.lookedUp ≠ none) :
    pc.effect c msg countUnmatched x s = s := by
  cases pc with
  | start | unqueued | ready | pend => rfl
  | dropDirect | dropPending | submit | event | unmatched | finished => exact absurd rfl h

/-- A delivery is counted when it was owed. -/
theorem deliveredCount_effect {s : State} {pc : RecvPc} (h : pc.lookedUp = none) :
    deliveredCount (pc.effect c msg countUnmatched x s) - deliveredCount s +
      (pc.next c cur msg s).owes ≤ pc.owes := by
  cases pc with
  | start | unqueued | ready | pend => cases h
  | dropDirect receiver direct => cases receiver <;> simp [deliveredCount, effect, next, owes]
  | dropPending receiver direct => simp [deliveredCount, effect, next, owes]
  | submit receiver direct =>
      simp only [effect, next]
      split_ifs with hc
      · simp [deliveredCount, State.add, owes]
        omega
      · simp [owes]
  | event receiver direct =>
      simp only [effect, next]
      split_ifs <;> simp [deliveredCount, State.add, owes]
  | unmatched receiver =>
      cases receiver with
      | none => simp [effect, next, owes]
      | some receiver =>
          simp only [effect, next]
          split_ifs <;> simp [deliveredCount, State.add, owes]
  | finished => simp [effect, next, owes]

/-- An event is submitted when it was owed. -/
theorem length_rb_effect {s : State} {pc : RecvPc} (h : pc.lookedUp = none) :
    (pc.effect c msg countUnmatched x s).rb.length - s.rb.length +
      (pc.next c cur msg s).owesEvent ≤ pc.owesEvent := by
  cases pc with
  | start | unqueued | ready | pend => cases h
  | dropDirect receiver direct =>
      cases receiver <;> simp [State.erase, effect, next, owesEvent]
  | dropPending receiver direct => simp [State.erase, effect, next, owesEvent]
  | submit receiver direct =>
      simp only [effect, next]
      split_ifs <;> simp [State.add, owesEvent]
  | event receiver direct =>
      simp only [effect, next]
      split_ifs <;> simp [State.add, owesEvent]
  | unmatched receiver =>
      cases receiver with
      | none => simp [effect, next, owesEvent]
      | some receiver =>
          simp only [effect, next]
          split_ifs <;> simp [State.add, owesEvent]
  | finished => simp [effect, next, owesEvent]

theorem get_effect {s : State} {pc : RecvPc} (h : pc.drops = false) (m : Table) (key : UInt64) :
    (pc.effect c msg countUnmatched x s).get m key = s.get m key := by
  cases pc with
  | dropDirect | dropPending => cases h
  | start | unqueued | ready | pend | finished => rfl
  | submit receiver direct =>
      simp only [effect]
      split_ifs <;> rfl
  | event receiver direct =>
      simp only [effect]
      split_ifs <;> rfl
  | unmatched receiver =>
      cases receiver with
      | none => rfl
      | some receiver =>
          simp only [effect]
          split_ifs <;> rfl

theorem get_effect_of_ne {s : State} (pc : RecvPc) {m : Table} {key : UInt64}
    (h : m.OfMessages → key ≠ msg) :
    (pc.effect c msg countUnmatched x s).get m key = s.get m key := by
  cases hd : pc.drops with
  | false => exact get_effect hd m key
  | true =>
      cases pc with
      | dropDirect => exact State.get_erase_of_ne _ fun hm => h (Or.inr (Or.inr hm))
      | dropPending => exact State.get_erase_of_ne _ fun hm => h (Or.inl hm)
      | start | unqueued | ready | pend | submit | event | unmatched | finished => cases hd

theorem le_effect (s : State) (pc : RecvPc) :
    deliveredCount s ≤ deliveredCount (pc.effect c msg countUnmatched x s) ∧
      s.rb.length ≤ (pc.effect c msg countUnmatched x s).rb.length := by
  cases pc with
  | start | unqueued | ready | pend | finished | dropDirect | dropPending =>
      exact ⟨le_rfl, le_rfl⟩
  | submit receiver direct =>
      simp only [effect]
      split_ifs <;> simp [deliveredCount, State.add]
  | event receiver direct =>
      simp only [effect]
      split_ifs <;> simp [deliveredCount, State.add]
  | unmatched receiver =>
      cases receiver with
      | none => exact ⟨le_rfl, le_rfl⟩
      | some receiver =>
          simp only [effect]
          split_ifs <;> simp [deliveredCount, State.add]

theorem busy_next {s : State} {pc : RecvPc} (h : pc.busy = false) :
    (pc.next c cur msg s).busy = false := by
  cases pc with
  | start | unqueued | ready | dropDirect | pend | dropPending => cases h
  | submit receiver direct =>
      simp only [next]
      split_ifs <;> rfl
  | event | unmatched | finished => rfl

theorem receiver_next {s : State} {pc : RecvPc} {receiver : Option RecvCtx}
    (h : (pc.next c cur msg s).receiver = some receiver) :
    s.get .activeReceives cur.pidTgid = receiver ∨ pc.receiver = some receiver := by
  cases pc with
  | unqueued => exact Or.inl (Option.some.inj h)
  | ready old =>
      cases hd : s.get .directMessages msg with
      | none => exact Or.inr (by simpa [next, hd, RecvPc.receiver] using h)
      | some direct => simp [next, hd, RecvPc.receiver] at h
  | pend old => cases hp : s.get .pendingMessages msg <;> cases old <;>
      simp [next, hp, RecvPc.receiver] at h
  | dropDirect old direct => cases old <;> simp [next, RecvPc.receiver] at h
  | submit old direct =>
      simp only [next] at h
      split_ifs at h <;> cases h
  | start | dropPending | event | unmatched | finished => cases h

theorem get_direct_of_miss {s : State} {pc : RecvPc} (hmiss : (pc.next c cur msg s).drops = false)
    (h : pc.lookedUp = some .directMessages) : s.get .directMessages msg = none := by
  cases pc with
  | ready receiver =>
      cases hd : s.get .directMessages msg with
      | none => rfl
      | some direct => simp [next, hd, drops] at hmiss
  | start | unqueued | pend | dropDirect | dropPending | submit | event | unmatched | finished =>
      simp [lookedUp] at h

theorem lookedUp_of_beforeSweep {s : State} {pc : RecvPc} (h : pc.beforeSweep = true)
    (hnext : (pc.next c cur msg s).beforeSweep = false) : pc.lookedUp = some .directMessages := by
  cases pc with
  | start | unqueued => cases hnext
  | ready receiver => rfl
  | dropDirect | pend | dropPending | submit | event | unmatched | finished => cases h

/-- A lookup that misses owes nothing. -/
theorem owes_next_of_miss {s : State} {pc : RecvPc} (h : pc.lookedUp ≠ none)
    (hmiss : (pc.next c cur msg s).drops = false) :
    (pc.next c cur msg s).owes = 0 ∧ (pc.next c cur msg s).owesEvent = 0 := by
  cases pc with
  | start | unqueued => exact ⟨rfl, rfl⟩
  | ready receiver =>
      cases hd : s.get .directMessages msg with
      | none => simp [next, hd, owes, owesEvent]
      | some direct => simp [next, hd, drops] at hmiss
  | pend receiver =>
      cases hp : s.get .pendingMessages msg <;> cases receiver <;>
        simp [next, hp, owes, owesEvent, drops] at hmiss ⊢
  | dropDirect | dropPending | submit | event | unmatched | finished => exact absurd rfl h

theorem isDone_of_busy (hmsg : msg ≠ 0) {pc : RecvPc} (h : pc.busy = true) :
    (pc.prog c cur msg countUnmatched x).isDone = false := by
  cases pc with
  | start => rw [Program.isDone, next_start hmsg, Option.isNone_some]
  | unqueued | ready | dropDirect | pend | dropPending => rfl
  | submit | event | unmatched | finished => cases h

end Next

end RecvPc

end EbpfToolbox.Ipc.Msgqueue.Handover
