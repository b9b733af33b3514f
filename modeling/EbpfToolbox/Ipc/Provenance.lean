import EbpfToolbox.Ipc.Reports

/-!
# Where the fields of an event come from

An event of `ipc/msgqueue` is put together from records that at least four probes wrote,
in two threads: the sender's fields pass through `active_sends`, `pending_messages` and
`queued_messages` or `direct_messages`, the receiver's through `active_receives`.

However the helper calls interleave, which insertions fail and which records are
evicted: no event mixes two sends or two receives. All fields of the sender come from
one invocation of `mq_send_enter`, in the thread whose `load_msg` returned the message
that the consuming probe was called for; all fields of the receiver come from one
invocation of `mq_recv_enter` in the thread of the consuming probe.
-/

namespace EbpfToolbox.Ipc.Msgqueue

open Common Lib

variable {n : ℕ}

/-! ## Genuine records -/

section Genuine

-- `Began`: the invocations that there were
variable (c : Ctrl) (Began : Probe → Prop)

/-- `p` is what `mq_send_enter` saw in the thread `key`. -/
def Sent (key : UInt64) (p : PendingMsg) : Prop :=
  ∃ cur a, Began (.sendEnter cur a) ∧ cur.pidTgid = key ∧ currentTgid c cur ≠ 0 ∧
    p = ⟨a.msgLen, currentTgid c cur, a.mqdes, a.msgPrio, a.comm⟩

/-- `r` is what `mq_recv_enter` saw in the thread `key`. -/
def Awaited (key : UInt64) (r : RecvCtx) : Prop :=
  ∃ cur a, Began (.recvEnter cur a) ∧ cur.pidTgid = key ∧ currentTgid c cur ≠ 0 ∧
    r = ⟨currentTgid c cur, a.mqdes, a.comm⟩

/-- `load_msg` returned `msg` in the thread of that send. -/
def Loaded (msg : UInt64) (p : PendingMsg) : Prop :=
  ∃ cur fails, Began (.loadMsgExit cur msg fails) ∧ validMsgPtr msg = true ∧
    Sent c Began cur.pidTgid p

/-- And `msg_insert` put it into the queue. -/
def Inserted (msg : UInt64) (q : QueuedMsg) : Prop :=
  ∃ p now fails, Began (.msgInsertExit msg 0 now fails) ∧ Loaded c Began msg p ∧ q = p.queued now

def Genuine : (m : Table) → UInt64 → m.Value → Prop
  | .activeSends, key, v => Sent c Began key v.pending
  | .activeReceives, key, v => Awaited c Began key v
  | .pendingMessages, key, v | .directMessages, key, v => Loaded c Began key v
  | .queuedMessages, key, v => Inserted c Began key v

/-- The event of one delivery: a probe of the receiver was called for `msg`, the filters let
it pass, and the fields are those of the send and the receive behind it. -/
def Attested (e : Event) : Prop :=
  ∃ cur msg x receiver, (Began (.storeMsgEnter cur msg x) ∨ Began (.freeMsgEnter cur msg x)) ∧
    Awaited c Began cur.pidTgid receiver ∧ c.enable = true ∧
    pidMatches c e.senderPid e.receiverPid = true ∧
    ¬(c.minDelayNs ≠ 0 ∧ e.residenceNs < c.minDelayNs) ∧
    ((∃ q, Inserted c Began msg q ∧ e = mkQueuedEvent q receiver x) ∨
      ∃ p, Loaded c Began msg p ∧ e = mkDirectEvent p receiver x)

/-- Calls that write what is genuine. -/
def OkCall : Helper → Prop
  | .update m key v _ => Genuine c Began m key v
  | .submit e => Attested c Began e
  | _ => True

/-- A lookup finds what is genuine. -/
def GoodAnswer : (h : Helper) → h.Result → Prop
  | .lookup m key => fun r => ∀ v, r = some v → Genuine c Began m key v
  | _ => fun _ => True

structure AllGenuine (s : State) : Prop where
  records : ∀ m key v, s.get m key = some v → Genuine c Began m key v
  events : ∀ e ∈ s.rb, Attested c Began e

end Genuine

section Calls

variable {c : Ctrl} {Began : Probe → Prop} {s : State}

theorem AllGenuine.put (h : AllGenuine c Began s) {m : Table} {key : UInt64} {v : m.Value}
    (hv : Genuine c Began m key v) : AllGenuine c Began (s.put m key v) := by
  refine ⟨fun m' key' v' hget => ?_, h.events⟩
  by_cases hm : m' = m
  · subst hm
    by_cases hk : key' = key
    · subst hk
      rw [State.get_put_self] at hget
      rw [← Option.some.inj hget]
      exact hv
    · rw [State.get_put_of_ne _ _ fun _ => hk] at hget
      exact h.records _ _ _ hget
  · rw [State.get_put_of_ne _ _ fun hmm => absurd hmm hm] at hget
    exact h.records _ _ _ hget

theorem AllGenuine.erase (h : AllGenuine c Began s) (m : Table) (key : UInt64) :
    AllGenuine c Began (s.erase m key) := by
  refine ⟨fun m' key' v' hget => ?_, h.events⟩
  by_cases hne : m' = m ∧ key' = key
  · rcases hne with ⟨rfl, rfl⟩
    rw [State.get_erase_self] at hget
    cases hget
  · rw [State.get_erase_of_ne _ fun hm hk => hne ⟨hm, hk⟩] at hget
    exact h.records _ _ _ hget

theorem AllGenuine.call (h : AllGenuine c Began s) {a : Helper} (ha : OkCall c Began a) :
    GoodAnswer c Began a (Helper.run s a).1 ∧ AllGenuine c Began (Helper.run s a).2 := by
  cases a with
  | lookup m key => exact ⟨fun v hv => h.records m key v hv, h⟩
  | update m key v fails =>
      refine ⟨trivial, ?_⟩
      cases fails with
      | true => exact h
      | false => exact h.put ha
  | delete m key => exact ⟨trivial, h.erase m key⟩
  | setMsgKey key msgKey =>
      refine ⟨trivial, ?_⟩
      simp only [Helper.run]
      cases hsend : s.get .activeSends key with
      | none => exact h
      | some send => exact h.put (h.records .activeSends key send hsend)
  | add x delta => exact ⟨trivial, h.records, h.events⟩
  | loadMax => exact ⟨trivial, h⟩
  | casMax old new =>
      refine ⟨trivial, ?_⟩
      simp only [Helper.run]
      split_ifs
      · exact ⟨h.records, h.events⟩
      · exact h
  | submit e =>
      refine ⟨trivial, h.records, fun e' he => ?_⟩
      rcases List.mem_append.mp he with he | he
      · exact h.events e' he
      · rw [List.mem_singleton.mp he]
        exact ha

/-! ## The probes -/

theorem relies_pure : (pure () : Prog Unit).Relies (OkCall c Began) (GoodAnswer c Began) := trivial

theorem relies_statsAdd (x : Counter) (delta : x.Value) :
    (statsAdd x delta).Relies (OkCall c Began) (GoodAnswer c Began) :=
  ⟨trivial, fun _ _ => trivial⟩

theorem relies_delete (m : Table) (key : UInt64) :
    (delete m key).Relies (OkCall c Began) (GoodAnswer c Began) :=
  ⟨trivial, fun _ _ => trivial⟩

theorem relies_statsUpdateMax_bind {k : Prog Unit}
    (hk : k.Relies (OkCall c Began) (GoodAnswer c Began)) (r : UInt64) (tries : ℕ) :
    (statsUpdateMax r tries >>= fun _ => k).Relies (OkCall c Began) (GoodAnswer c Began) := by
  induction tries with
  | zero => exact hk
  | succ tries ih =>
      refine ⟨trivial, fun (old : UInt64) _ => ?_⟩
      show ((if r ≤ old then (pure () : Prog Unit) else casMax old r >>= fun seen =>
        if seen = old then pure () else statsUpdateMax r tries) >>= fun _ => k).Relies _ _
      split_ifs
      · exact hk
      · refine ⟨trivial, fun (seen : UInt64) _ => ?_⟩
        show ((if seen = old then (pure () : Prog Unit) else statsUpdateMax r tries) >>=
          fun _ => k).Relies _ _
        split_ifs
        · exact hk
        · exact ih

theorem relies_submitEvent {e : Event} (he : Attested c Began e) (x : ConsumeArgs) :
    (submitEvent x e).Relies (OkCall c Began) (GoodAnswer c Began) := by
  unfold submitEvent
  split_ifs
  · exact ⟨he, fun _ _ => trivial⟩
  · exact relies_statsAdd ..

theorem relies_unmatched (receiver : Option RecvCtx) (countUnmatched : Bool) :
    (unmatched c receiver countUnmatched).Relies (OkCall c Began) (GoodAnswer c Began) := by
  unfold unmatched
  split
  · exact relies_pure
  · split_ifs
    · exact relies_statsAdd ..
    · exact relies_pure

variable {cur : Task} {msg : UInt64} {x : ConsumeArgs}
  (hcur : Began (.storeMsgEnter cur msg x) ∨ Began (.freeMsgEnter cur msg x))
include hcur

theorem relies_submitQueued {queued : QueuedMsg} {receiver : RecvCtx}
    (hq : Inserted c Began msg queued) (hr : Awaited c Began cur.pidTgid receiver) :
    (submitQueued c queued receiver x).Relies (OkCall c Began) (GoodAnswer c Began) := by
  unfold submitQueued
  split_ifs with hmatch
  swap
  · exact relies_pure
  rw [Bool.and_eq_true] at hmatch
  refine ⟨trivial, fun _ _ => ⟨trivial, fun _ _ => relies_statsUpdateMax_bind ?_ _ _⟩⟩
  split_ifs with hdelay
  · exact relies_pure
  · exact relies_submitEvent
      ⟨cur, msg, x, receiver, hcur, hr, hmatch.1, hmatch.2, hdelay, .inl ⟨queued, hq, rfl⟩⟩ x

theorem relies_submitDirect {pending : PendingMsg} {receiver : RecvCtx}
    (hp : Loaded c Began msg pending) (hr : Awaited c Began cur.pidTgid receiver) :
    (submitDirect c pending receiver x).Relies (OkCall c Began) (GoodAnswer c Began) := by
  unfold submitDirect
  split_ifs with hmatch hdelay
  · exact ⟨trivial, fun _ _ => relies_pure⟩
  · rw [Bool.and_eq_true] at hmatch
    -- a residence of zero is below every threshold
    have hzero : ¬(c.minDelayNs ≠ 0 ∧ (0 : UInt64) < c.minDelayNs) := fun h => hdelay h.1
    exact ⟨trivial, fun _ _ => relies_submitEvent
      ⟨cur, msg, x, receiver, hcur, hr, hmatch.1, hmatch.2, hzero, .inr ⟨pending, hp, rfl⟩⟩ x⟩
  · exact relies_pure

/-- What a lookup found is handed on to the event. -/
theorem relies_consumeMessage (countUnmatched : Bool) :
    (consumeMessage c cur msg countUnmatched x).Relies (OkCall c Began) (GoodAnswer c Began) := by
  unfold consumeMessage
  split_ifs
  · exact relies_pure
  refine ⟨trivial, fun queued hqueued => ⟨trivial, fun receiver hreceiver => ?_⟩⟩
  cases queued with
  | some queued =>
      refine ⟨trivial, fun _ _ => ?_⟩
      cases receiver with
      | some receiver =>
          exact relies_submitQueued hcur (hqueued queued rfl) (hreceiver receiver rfl)
      | none => exact relies_pure
  | none =>
      refine ⟨trivial, fun direct hdirect => ?_⟩
      cases direct with
      | some direct =>
          refine ⟨trivial, fun _ _ => ?_⟩
          cases receiver with
          | some receiver =>
              exact relies_submitDirect hcur (hdirect direct rfl) (hreceiver receiver rfl)
          | none => exact relies_pure
      | none =>
          refine ⟨trivial, fun pending hpending => ?_⟩
          cases pending with
          | some pending =>
              cases receiver with
              | some receiver =>
                  exact ⟨trivial, fun _ _ =>
                    relies_submitDirect hcur (hpending pending rfl) (hreceiver receiver rfl)⟩
              | none => exact relies_unmatched none countUnmatched
          | none => exact relies_unmatched receiver countUnmatched

omit hcur

theorem relies_settlePending_bind (msgKey : UInt64) (ret : Int32) (fails : Bool) {k : Prog Unit}
    (hk : k.Relies (OkCall c Began) (GoodAnswer c Began)) :
    (settlePending msgKey ret fails >>= fun _ => k).Relies (OkCall c Began)
      (GoodAnswer c Began) := by
  have hdel : (delete .pendingMessages msgKey >>= fun _ => k).Relies (OkCall c Began)
      (GoodAnswer c Began) := ⟨trivial, fun _ _ => hk⟩
  refine ⟨trivial, fun pending hpending => ?_⟩
  cases pending with
  | none => exact hk
  | some pending =>
      by_cases hret : ret = 0
      · subst hret
        refine ⟨hpending pending rfl, fun failed _ => ?_⟩
        cases failed with
        | true => exact ⟨trivial, fun _ _ => hdel⟩
        | false => exact hdel
      · show ((if ret = 0 then _ else delete .pendingMessages msgKey) >>= fun _ => k).Relies _ _
        rw [if_neg hret]
        exact hdel

theorem relies_mqSendExit (cur : Task) (ret : Int32) (fails : Bool) :
    (mqSendExit cur ret fails).Relies (OkCall c Began) (GoodAnswer c Began) := by
  refine ⟨trivial, fun send _ => ?_⟩
  cases send with
  | none => exact relies_pure
  | some send =>
      show (if send.msgKey ≠ 0 then settlePending send.msgKey ret fails >>= fun _ =>
          delete .activeSends cur.pidTgid else delete .activeSends cur.pidTgid).Relies _ _
      split_ifs
      · exact relies_settlePending_bind _ _ _ (relies_delete _ _)
      · exact relies_delete _ _

theorem relies_prog {p : Probe} (hp : Began p) :
    (p.prog c).Relies (OkCall c Began) (GoodAnswer c Began) := by
  cases p with
  | sendEnter cur a =>
      simp only [Probe.prog, mqSendEnter]
      split_ifs with h
      · exact relies_pure
      · refine ⟨⟨cur, a, hp, rfl, (not_or.mp h).2, rfl⟩, fun failed _ => ?_⟩
        cases failed with
        | true => exact relies_statsAdd ..
        | false => exact relies_pure
  | loadMsgExit cur ret fails =>
      simp only [Probe.prog, mqLoadMsgExit]
      split_ifs with hv
      · exact relies_pure
      refine ⟨trivial, fun send hsend => ?_⟩
      cases send with
      | none => exact relies_pure
      | some send =>
          refine ⟨⟨cur, fails, hp, by simpa using hv, hsend send rfl⟩, fun failed _ => ?_⟩
          cases failed with
          | true => exact relies_statsAdd ..
          | false => exact ⟨trivial, fun _ _ => trivial⟩
  | msgInsertExit msg ret now fails =>
      simp only [Probe.prog, mqMsgInsertExit]
      split_ifs with hr
      · exact relies_pure
      obtain rfl : ret = 0 := not_not.mp (not_or.mp hr).1
      refine ⟨trivial, fun pending hpending => ?_⟩
      cases pending with
      | none => exact relies_pure
      | some pending =>
          refine ⟨⟨pending, now, fails, hp, hpending pending rfl, rfl⟩, fun failed _ => ?_⟩
          cases failed with
          | true => exact ⟨trivial, fun _ _ => relies_delete _ _⟩
          | false => exact relies_delete _ _
  | sendExit cur ret fails => exact relies_mqSendExit cur ret fails
  | recvEnter cur a =>
      simp only [Probe.prog, mqRecvEnter]
      split_ifs with h
      · exact relies_pure
      · refine ⟨⟨cur, a, hp, rfl, (not_or.mp h).2, rfl⟩, fun failed _ => ?_⟩
        cases failed with
        | true => exact relies_statsAdd ..
        | false => exact relies_pure
  | recvExit cur => exact relies_delete _ _
  | storeMsgEnter cur msg x => exact relies_consumeMessage (.inl hp) true
  | freeMsgEnter cur msg x => exact relies_consumeMessage (.inr hp) false
  | evict m key => exact relies_delete m key

end Calls

/-- The invocations of a run. -/
def Began (es : List (Turn n Probe)) (p : Probe) : Prop := ∃ i, .begin i p ∈ es

theorem allGenuine_run (c : Ctrl) (es : List (Turn n Probe)) :
    AllGenuine c (Began es) ((probes n c).run es).1 := by
  have h0 : AllGenuine c (Began es) State.start := by
    constructor
    · intro m key v hv
      rw [State.get_start] at hv
      cases hv
    · intro e he
      cases he
  have h : Relying (AllGenuine c (Began es)) (OkCall c (Began es)) (GoodAnswer c (Began es))
      ((probes n c).run es) := by
    apply interleaved_relies _ h0
    · intro s i a hs ha
      exact hs.call ha
    · intro i p hp
      exact relies_prog ⟨i, hp⟩
  exact h.1

end EbpfToolbox.Ipc.Msgqueue
