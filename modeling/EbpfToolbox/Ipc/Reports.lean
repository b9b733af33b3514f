import EbpfToolbox.Ipc.MaxUpdate
import EbpfToolbox.Lib.PerCpu

/-!
# The statistics and the ring buffer tell one story

All probes of `ipc/msgqueue/msgqueue.bpf.c` at once: any number of threads run them in
any order, and between any two helper calls of one probe the others go on. The
insertions may fail, the LRU maps may lose a record at any time and the ring buffer may
be full.

The counters are written at several points of a probe, the event at its end. Still the
numbers fit together: whenever no probe is under way, there is one list of deliveries
from which all counters of deliveries, the maximum and the ring buffer can be read off.
-/

namespace EbpfToolbox.Ipc.Msgqueue

open Common Lib

variable {n : ℕ}

/-! ## All probes -/

/-- One invocation of a probe; `evict` is the kernel dropping a record of an LRU map. -/
inductive Probe : Type where
  | sendEnter (cur : Task) (a : SendArgs)
  | loadMsgExit (cur : Task) (ret : UInt64) (fails : Bool)
  | msgInsertExit (msg : UInt64) (ret : Int32) (now : UInt64) (fails : Bool)
  | sendExit (cur : Task) (ret : Int32) (fails : Bool)
  | recvEnter (cur : Task) (a : RecvArgs)
  | recvExit (cur : Task)
  | storeMsgEnter (cur : Task) (msg : UInt64) (x : ConsumeArgs)
  | freeMsgEnter (cur : Task) (msg : UInt64) (x : ConsumeArgs)
  | evict (m : Table) (key : UInt64)

def Probe.prog (c : Ctrl) : Probe → Prog Unit
  | .sendEnter cur a => mqSendEnter c cur a
  | .loadMsgExit cur ret fails => mqLoadMsgExit cur ret fails
  | .msgInsertExit msg ret now fails => mqMsgInsertExit msg ret now fails
  | .sendExit cur ret fails => mqSendExit cur ret fails
  | .recvEnter cur a => mqRecvEnter c cur a
  | .recvExit cur => mqRecvExit cur
  | .storeMsgEnter cur msg x => mqStoreMsgEnter c cur msg x
  | .freeMsgEnter cur msg x => mqFreeMsgEnter c cur msg x
  | .evict m key => delete m key

/-- The probes of `n` threads, in any interleaving of their helper calls. -/
def probes (n : ℕ) (c : Ctrl) : Machine (State × (Fin n → Prog Unit)) (Turn n Probe) :=
  interleaved (fun _ => Helper.run) (Probe.prog c) State.start

instance (c : Ctrl) (s : State × (Fin n → Prog Unit)) (e : Turn n Probe) :
    Decidable ((probes n c).Allowed s e) :=
  inferInstanceAs (Decidable ((interleaved _ _ _).Allowed s e))

/-! ## Deliveries -/

/-- Where the event of a delivery went. -/
inductive Outcome : Type where
  | submitted (e : Event)
  | dropped
  | withheld

/-- What is counted of an event that got no room. -/
def Outcome.amount : Outcome → (x : Counter) → x.Value
  | .dropped, .ringbufDropCount => 1
  | _, x => (0 : x.Value)

/-- A delivery that a receiver made and the statistics counted. -/
structure Delivery where
  deliveryType : DeliveryType
  residenceNs : UInt64
  outcome : Outcome

namespace Delivery

/-- What the delivery adds to a counter. -/
def amount (d : Delivery) : (x : Counter) → x.Value
  | .queuedCount => if d.deliveryType = .queued then 1 else 0
  | .queuedTotalNs => if d.deliveryType = .queued then d.residenceNs else 0
  | .directCount => if d.deliveryType = .direct then 1 else 0
  | .ringbufDropCount => match d.outcome with
      | .dropped => 1
      | _ => 0
  | .unmatchedCount => 0
  | .trackingDropCount => 0

def event (d : Delivery) : Option Event :=
  match d.outcome with
  | .submitted e => some e
  | _ => none

/-- The event is withheld exactly below the threshold `m`, a message that was handed over
spent no time in the queue, and the event says what was counted. -/
structure Fair (m : UInt64) (d : Delivery) : Prop where
  withheld : d.outcome = .withheld ↔ d.residenceNs < m
  direct : d.deliveryType = .direct → d.residenceNs = 0
  event : ∀ e, d.outcome = .submitted e →
    e.deliveryType = d.deliveryType ∧ e.residenceNs = d.residenceNs

end Delivery

/-- The counters that a delivery moves. -/
def Counter.OfDeliveries (x : Counter) : Prop := x ≠ .unmatchedCount ∧ x ≠ .trackingDropCount

/-- The counters, the maximum and the ring buffer are those of the deliveries `ds`. The sum
of the residence times is one of 64-bit words. -/
structure Reflects (m : UInt64) (s : State) (ds : List Delivery) : Prop where
  fair : ∀ d ∈ ds, d.Fair m
  counters : ∀ x : Counter, x.OfDeliveries → s.counters x = (ds.map (·.amount x)).sum
  rb : s.rb = ds.filterMap Delivery.event
  max : s.queuedMaxNs = 0 ∨ ∃ d ∈ ds, d.deliveryType = .queued ∧ d.residenceNs = s.queuedMaxNs

/-! ## What a probe owes -/

/-- `counted`: `queued_count` is incremented. `updating`: so is `queued_total_ns`, and
`stats_update_max` is at the point `g`. `owing`: only the event is missing. -/
inductive ReportPhase : Type where
  | idle
  | counted
  | updating (g : MaxPhase) (residenceNs : UInt64)
  | owing (t : DeliveryType) (residenceNs : UInt64)

namespace ReportPhase

/-- After the statistics: below the threshold nothing is owed. -/
def settle (m : UInt64) (t : DeliveryType) (residenceNs : UInt64) : ReportPhase :=
  if residenceNs < m then .idle else .owing t residenceNs

/-- `stats_update_max` is at `g`. -/
def resume (m : UInt64) (g : MaxPhase) (residenceNs : UInt64) : ReportPhase :=
  if g = .returned then settle m .queued residenceNs else .updating g residenceNs

/-- What was added to a counter for a delivery that is not complete. -/
def amount : ReportPhase → (x : Counter) → x.Value
  | .counted, .queuedCount => 1
  | .updating _ _, .queuedCount => 1
  | .owing .queued _, .queuedCount => 1
  | .updating _ r, .queuedTotalNs => r
  | .owing .queued r, .queuedTotalNs => r
  | .owing .direct _, .directCount => 1
  | _, x => (0 : x.Value)

/-- The candidate for the maximum. -/
def residence : ReportPhase → Option UInt64
  | .updating _ r | .owing .queued r => some r
  | _ => none

/-- An event is owed only from the threshold on. -/
def Owed (m : UInt64) : ReportPhase → Prop
  | .owing t r => ¬ r < m ∧ (t = .direct → r = 0)
  | _ => True

end ReportPhase

/-- Counters of deliveries move in the order of `submit_queued` and `submit_direct`. -/
def reportProtocol (m : UInt64) : Protocol Helper Helper.Result ReportPhase where
  idle := .idle
  Permits g c := match g, c with
    | .idle, .add .queuedCount delta => delta = 1
    | .idle, .add .directCount delta => delta = 1
    | .idle, .add .unmatchedCount _ => True
    | .idle, .add .trackingDropCount _ => True
    | .idle, .lookup _ _ | .idle, .update _ _ _ _ | .idle, .delete _ _ => True
    | .idle, .setMsgKey _ _ => True
    | .counted, .add .queuedTotalNs _ => True
    | .updating _ _, .loadMax => True
    | .updating _ r, .casMax _ new => new = r
    | .owing _ _, .add .ringbufDropCount delta => delta = 1
    | .owing t r, .submit e => e.deliveryType = t ∧ e.residenceNs = r
    | _, _ => False
  next g c := match g, c with
    | .idle, .add .queuedCount _ => fun _ => .counted
    | .idle, .add .directCount _ => fun _ => .settle m .direct 0
    | .idle, _ => fun _ => .idle
    | .counted, .add .queuedTotalNs r => fun _ => .updating (.attempt r 16) r
    | .counted, _ => fun _ => .counted
    | .updating g r, c => fun ans => .resume m (maxProtocol.next g c ans) r
    | .owing _ _, _ => fun _ => .idle

section Follows

variable {m : UInt64}

theorem pure_follows : (pure () : Prog Unit).Follows (reportProtocol m) .idle := rfl

/-- Whatever `stats_update_max` meets, the probe goes on with what it owes. -/
theorem statsUpdateMax_bind_follows {r : UInt64} {k : Prog Unit}
    (hk : k.Follows (reportProtocol m) (.settle m .queued r)) (tries : ℕ) :
    (statsUpdateMax r tries >>= fun _ => k).Follows (reportProtocol m)
      (.resume m (.attempt r tries) r) := by
  induction tries with
  | zero => exact hk
  | succ tries ih =>
      refine ⟨trivial, fun old : UInt64 => ?_⟩
      show ((if r ≤ old then (pure () : Prog Unit) else
          casMax old r >>= fun seen =>
            if seen = old then pure () else statsUpdateMax r tries) >>= fun _ => k).Follows
          (reportProtocol m)
        (.resume m (if r ≤ old then .returned else .swapping r old tries) r)
      by_cases hle : r ≤ old
      · rw [if_pos hle, if_pos hle]
        exact hk
      · rw [if_neg hle, if_neg hle]
        refine ⟨rfl, fun seen : UInt64 => ?_⟩
        show ((if seen = old then (pure () : Prog Unit)
            else statsUpdateMax r tries) >>= fun _ => k).Follows (reportProtocol m)
          (.resume m (if seen = old then .returned else .attempt r tries) r)
        by_cases hseen : seen = old
        · rw [if_pos hseen, if_pos hseen]
          exact hk
        · rw [if_neg hseen, if_neg hseen]
          exact ih

theorem submitEvent_follows (x : ConsumeArgs) {e : Event} {t : DeliveryType} {r : UInt64}
    (ht : e.deliveryType = t) (hr : e.residenceNs = r) :
    (submitEvent x e).Follows (reportProtocol m) (.owing t r) := by
  unfold submitEvent
  split_ifs
  · exact ⟨⟨ht, hr⟩, fun _ => rfl⟩
  · exact ⟨rfl, fun _ => rfl⟩

theorem submitQueued_follows (c : Ctrl) (queued : QueuedMsg) (receiver : RecvCtx)
    (x : ConsumeArgs) :
    (submitQueued c queued receiver x).Follows (reportProtocol c.minDelayNs) .idle := by
  unfold submitQueued
  split_ifs with hc
  swap
  · exact pure_follows
  refine ⟨rfl, fun _ => ⟨trivial, fun _ => ?_⟩⟩
  apply statsUpdateMax_bind_follows
  unfold ReportPhase.settle
  by_cases hlt : x.now - queued.enqueueNs < c.minDelayNs
  · have hne : c.minDelayNs ≠ 0 := fun h0 => UInt64.not_lt_zero (h0 ▸ hlt)
    rw [if_pos hlt, if_pos ⟨hne, hlt⟩]
    exact pure_follows
  · rw [if_neg hlt, if_neg fun h => hlt h.2]
    exact submitEvent_follows x rfl rfl

theorem submitDirect_follows (c : Ctrl) (pending : PendingMsg) (receiver : RecvCtx)
    (x : ConsumeArgs) :
    (submitDirect c pending receiver x).Follows (reportProtocol c.minDelayNs) .idle := by
  unfold submitDirect
  split_ifs with hc hm
  · -- a message that was handed over has the residence time 0, below every threshold
    refine ⟨rfl, fun _ => ?_⟩
    show Program.Follows _ _ (ReportPhase.settle c.minDelayNs .direct 0)
    rw [ReportPhase.settle, if_pos (UInt64.pos_iff_ne_zero.mpr hm)]
    exact pure_follows
  · refine ⟨rfl, fun _ => ?_⟩
    show Program.Follows _ _ (ReportPhase.settle c.minDelayNs .direct 0)
    rw [ReportPhase.settle, if_neg (mt UInt64.pos_iff_ne_zero.mp hm)]
    exact submitEvent_follows x rfl rfl
  · exact pure_follows

/-- Counting what is no delivery. -/
theorem statsAdd_follows {x : Counter} (hx : ¬ x.OfDeliveries) (delta : x.Value) :
    (statsAdd x delta).Follows (reportProtocol m) .idle := by
  cases x with
  | unmatchedCount => exact ⟨trivial, fun _ => rfl⟩
  | trackingDropCount => exact ⟨trivial, fun _ => rfl⟩
  | _ => exact absurd ⟨by decide, by decide⟩ hx

theorem trackingDrop_follows : (statsAdd .trackingDropCount 1).Follows (reportProtocol m) .idle :=
  statsAdd_follows (fun h => h.2 rfl) 1

theorem delete_follows (t : Table) (key : UInt64) :
    (delete t key).Follows (reportProtocol m) .idle :=
  ⟨trivial, fun _ => rfl⟩

/-- What every insertion does when it fails, and what comes after it. -/
theorem insertion_follows (failed : Bool) {k : Prog Unit}
    (hk : k.Follows (reportProtocol m) .idle) :
    (if failed then statsAdd .trackingDropCount 1 >>= fun _ => k else k).Follows
      (reportProtocol m) .idle := by
  split_ifs
  · exact ⟨trackingDrop_follows.1, fun _ => hk⟩
  · exact hk

theorem unmatched_follows (c : Ctrl) (receiver : Option RecvCtx) (countUnmatched : Bool) :
    (unmatched c receiver countUnmatched).Follows (reportProtocol m) .idle := by
  unfold unmatched
  split
  · exact pure_follows
  · split_ifs
    · exact statsAdd_follows (fun h => h.1 rfl) 1
    · exact pure_follows

theorem consumeMessage_follows (c : Ctrl) (cur : Task) (msg : UInt64) (countUnmatched : Bool)
    (x : ConsumeArgs) :
    (consumeMessage c cur msg countUnmatched x).Follows (reportProtocol c.minDelayNs) .idle := by
  unfold consumeMessage
  split_ifs
  · exact pure_follows
  refine ⟨trivial, fun queued => ⟨trivial, fun receiver => ?_⟩⟩
  cases queued with
  | some queued =>
      refine ⟨trivial, fun _ => ?_⟩
      cases receiver with
      | some receiver => exact submitQueued_follows c queued receiver x
      | none => exact pure_follows
  | none =>
      refine ⟨trivial, fun direct => ?_⟩
      cases direct with
      | some direct =>
          refine ⟨trivial, fun _ => ?_⟩
          cases receiver with
          | some receiver => exact submitDirect_follows c direct receiver x
          | none => exact pure_follows
      | none =>
          refine ⟨trivial, fun pending => ?_⟩
          cases pending with
          | some pending =>
              cases receiver with
              | some receiver => exact ⟨trivial, fun _ => submitDirect_follows c pending receiver x⟩
              | none => exact unmatched_follows c none countUnmatched
          | none => exact unmatched_follows c receiver countUnmatched

theorem settlePending_bind_follows (msgKey : UInt64) (ret : Int32) (fails : Bool) {k : Prog Unit}
    (hk : k.Follows (reportProtocol m) .idle) :
    (settlePending msgKey ret fails >>= fun _ => k).Follows (reportProtocol m) .idle := by
  have hdel : (delete .pendingMessages msgKey >>= fun _ => k).Follows (reportProtocol m) .idle :=
    ⟨trivial, fun _ => hk⟩
  refine ⟨trivial, fun pending => ?_⟩
  cases pending with
  | none => exact hk
  | some pending =>
      by_cases hret : ret = 0
      · subst hret
        refine ⟨trivial, fun failed => ?_⟩
        cases failed with
        | true => exact ⟨trackingDrop_follows.1, fun _ => hdel⟩
        | false => exact hdel
      · show ((if ret = 0 then _ else delete .pendingMessages msgKey) >>= fun _ => k).Follows
          (reportProtocol m) .idle
        rw [if_neg hret]
        exact hdel

theorem mqSendExit_follows (cur : Task) (ret : Int32) (fails : Bool) :
    (mqSendExit cur ret fails).Follows (reportProtocol m) .idle := by
  refine ⟨trivial, fun send => ?_⟩
  cases send with
  | none => exact pure_follows
  | some send =>
      show (if send.msgKey ≠ 0 then settlePending send.msgKey ret fails >>= fun _ =>
          delete .activeSends cur.pidTgid else delete .activeSends cur.pidTgid).Follows
        (reportProtocol m) .idle
      split_ifs
      · exact settlePending_bind_follows _ _ _ (delete_follows _ _)
      · exact delete_follows _ _

theorem prog_follows (c : Ctrl) (p : Probe) :
    (p.prog c).Follows (reportProtocol c.minDelayNs) .idle := by
  cases p with
  | sendEnter cur a =>
      simp only [Probe.prog, mqSendEnter]
      split_ifs
      · exact pure_follows
      · refine ⟨trivial, fun failed => ?_⟩
        cases failed with
        | true => exact trackingDrop_follows
        | false => exact pure_follows
  | loadMsgExit cur ret fails =>
      simp only [Probe.prog, mqLoadMsgExit]
      split_ifs
      · exact pure_follows
      refine ⟨trivial, fun send => ?_⟩
      cases send with
      | none => exact pure_follows
      | some send =>
          refine ⟨trivial, fun failed => ?_⟩
          cases failed with
          | true => exact trackingDrop_follows
          | false => exact ⟨trivial, fun _ => rfl⟩
  | msgInsertExit msg ret now fails =>
      simp only [Probe.prog, mqMsgInsertExit]
      split_ifs
      · exact pure_follows
      refine ⟨trivial, fun pending => ?_⟩
      cases pending with
      | none => exact pure_follows
      | some pending => exact ⟨trivial, fun failed => insertion_follows failed (delete_follows _ _)⟩
  | sendExit cur ret fails => exact mqSendExit_follows cur ret fails
  | recvEnter cur a =>
      simp only [Probe.prog, mqRecvEnter]
      split_ifs
      · exact pure_follows
      · refine ⟨trivial, fun failed => ?_⟩
        cases failed with
        | true => exact trackingDrop_follows
        | false => exact pure_follows
  | recvExit cur => exact delete_follows _ _
  | storeMsgEnter cur msg x => exact consumeMessage_follows c cur msg true x
  | freeMsgEnter cur msg x => exact consumeMessage_follows c cur msg false x
  | evict t key => exact delete_follows t key

end Follows

/-! ## The log of deliveries -/

/-- The deliveries `ds` are complete; what the phases `gs` have added for others comes on
top. -/
structure Books (m : UInt64) (s : State) (gs : Fin n → ReportPhase) (ds : List Delivery) :
    Prop where
  fair : ∀ d ∈ ds, d.Fair m
  counters : ∀ x : Counter, x.OfDeliveries →
    s.counters x = (ds.map (·.amount x)).sum + PerCpu.total (·.amount x) gs
  rb : s.rb = ds.filterMap Delivery.event
  max : s.queuedMaxNs = 0 ∨ (∃ d ∈ ds, d.deliveryType = .queued ∧ d.residenceNs = s.queuedMaxNs) ∨
    ∃ i, (gs i).residence = some s.queuedMaxNs
  owed : ∀ i, (gs i).Owed m

namespace Books

variable {m : UInt64} {s s' : State} {gs : Fin n → ReportPhase} {ds : List Delivery} {i : Fin n}

/-- Thread `i` goes on to `g` and completes the deliveries `new`. -/
theorem move (h : Books m s gs ds) (i : Fin n) {g : ReportPhase} (hg : g.Owed m)
    (new : List Delivery) (hfair : ∀ d ∈ new, d.Fair m)
    (hcounters : ∀ x : Counter, x.OfDeliveries → s'.counters x + (gs i).amount x =
      s.counters x + (new.map (·.amount x)).sum + g.amount x)
    (hrb : s'.rb = s.rb ++ new.filterMap Delivery.event)
    (hmax : s'.queuedMaxNs = s.queuedMaxNs ∨ (gs i).residence = some s'.queuedMaxNs)
    (hkeep : ∀ r, (gs i).residence = some r → g.residence = some r ∨
      ∃ d ∈ new, d.deliveryType = .queued ∧ d.residenceNs = r) :
    Books m s' (Function.update gs i g) (ds ++ new) := by
  -- the candidate of thread `i` is not lost, and neither is that of another thread
  have hheld : ∀ j r, (gs j).residence = some r →
      (∃ d ∈ ds ++ new, d.deliveryType = .queued ∧ d.residenceNs = r) ∨
        ∃ k, (Function.update gs i g k).residence = some r := by
    intro j r hj
    by_cases hji : j = i
    · subst hji
      rcases hkeep r hj with hg | ⟨d, hd, hq⟩
      · exact .inr ⟨j, by rwa [Function.update_self]⟩
      · exact .inl ⟨d, List.mem_append_right _ hd, hq⟩
    · exact .inr ⟨j, by rwa [Function.update_of_ne hji]⟩
  constructor
  · intro d hd
    rcases List.mem_append.mp hd with hd | hd
    · exact h.fair d hd
    · exact hfair d hd
  · intro x hx
    have hmove := hcounters x hx
    have htotal := PerCpu.total_update (·.amount x) gs i g
    rw [h.counters x hx] at hmove
    rw [List.map_append, List.sum_append]
    -- what thread `i` had added before cancels out
    refine add_right_cancel (b := (gs i).amount x) ?_
    rw [hmove, add_assoc _ (PerCpu.total _ _) ((gs i).amount x), htotal]
    ac_rfl
  · rw [hrb, h.rb, List.filterMap_append]
  · rcases hmax with hmax | hmax
    · rw [hmax]
      rcases h.max with h0 | ⟨d, hd, hq⟩ | ⟨j, hj⟩
      · exact .inl h0
      · exact .inr (.inl ⟨d, List.mem_append_left _ hd, hq⟩)
      · exact .inr (hheld j _ hj)
    · exact .inr (hheld i _ hmax)
  · exact (Function.forall_update_iff gs fun _ g => g.Owed m).mpr ⟨hg, fun j _ => h.owed j⟩

/-- Calls that leave everything of deliveries alone. -/
theorem frame (h : Books m s gs ds) (hc : ∀ x : Counter, x.OfDeliveries → s'.counters x = s.counters x)
    (hrb : s'.rb = s.rb) (hmax : s'.queuedMaxNs = s.queuedMaxNs) : Books m s' gs ds := by
  refine ⟨h.fair, fun x hx => ?_, hrb.trans h.rb, ?_, h.owed⟩
  · rw [hc x hx]
    exact h.counters x hx
  · rw [hmax]
    exact h.max

theorem counters_add_self (s : State) (x : Counter) (delta : x.Value) :
    (s.add x delta).counters x = s.counters x + delta := by
  simp [State.add]

theorem counters_add_of_ne (s : State) {x y : Counter} (delta : x.Value) (h : y ≠ x) :
    (s.add x delta).counters y = s.counters y := by
  simp [State.add, h]

/-- A complete delivery has added what one without its event has, and maybe a drop. -/
theorem amount_eq (t : DeliveryType) (r : UInt64) (o : Outcome) (x : Counter) :
    (⟨t, r, o⟩ : Delivery).amount x = (ReportPhase.owing t r).amount x + o.amount x := by
  cases x with
  | queuedTotalNs => cases t <;> cases o <;> exact (add_zero _).symm
  | _ => cases t <;> cases o <;> rfl

theorem amount_withheld (x : Counter) : Outcome.withheld.amount x = 0 := by cases x <;> rfl

theorem amount_submitted (e : Event) (x : Counter) : (Outcome.submitted e).amount x = 0 := by
  cases x <;> rfl

theorem amount_idle (x : Counter) : ReportPhase.idle.amount x = 0 := by cases x <;> rfl

/-- The statistics are complete: the event is withheld here, or owed. -/
theorem settle (h : Books m s gs ds) {t : DeliveryType} {r : UInt64} (i : Fin n)
    (hdirect : t = .direct → r = 0)
    (hcounters : ∀ x : Counter, x.OfDeliveries → s'.counters x + (gs i).amount x =
      s.counters x + (ReportPhase.owing t r).amount x)
    (hrb : s'.rb = s.rb)
    (hmax : s'.queuedMaxNs = s.queuedMaxNs ∨ (gs i).residence = some s'.queuedMaxNs)
    (hkeep : ∀ r', (gs i).residence = some r' → t = .queued ∧ r' = r) :
    ∃ ds', Books m s' (Function.update gs i (.settle m t r)) ds' := by
  unfold ReportPhase.settle
  by_cases hlt : r < m
  · rw [if_pos hlt]
    refine ⟨_, h.move i (g := .idle) trivial [⟨t, r, .withheld⟩] ?_ ?_ ?_ hmax ?_⟩
    · intro d hd
      rw [List.mem_singleton.mp hd]
      exact ⟨⟨fun _ => hlt, fun _ => rfl⟩, hdirect, nofun⟩
    · intro x hx
      rw [hcounters x hx, List.map_singleton, List.sum_singleton, amount_eq, amount_withheld,
        amount_idle, add_zero, add_zero]
    · rw [hrb]
      exact (List.append_nil _).symm
    · intro r' hr'
      rcases hkeep r' hr' with ⟨rfl, rfl⟩
      exact .inr ⟨_, List.mem_singleton_self _, rfl, rfl⟩
  · rw [if_neg hlt]
    refine ⟨_, h.move i (g := .owing t r) ⟨hlt, hdirect⟩ [] nofun ?_ ?_ hmax ?_⟩
    · intro x hx
      rw [hcounters x hx, List.map_nil, List.sum_nil, add_zero]
    · rw [hrb]
      exact (List.append_nil _).symm
    · intro r' hr'
      rcases hkeep r' hr' with ⟨rfl, rfl⟩
      exact .inl rfl

/-- A call of `stats_update_max` writes the candidate or nothing. -/
theorem resume (h : Books m s gs ds) {g g' : MaxPhase} {r : UInt64}
    (hg : gs i = .updating g r) (hcounters : s'.counters = s.counters) (hrb : s'.rb = s.rb)
    (hmax : s'.queuedMaxNs = s.queuedMaxNs ∨ s'.queuedMaxNs = r) :
    ∃ ds', Books m s' (Function.update gs i (.resume m g' r)) ds' := by
  have hmax' : s'.queuedMaxNs = s.queuedMaxNs ∨ (gs i).residence = some s'.queuedMaxNs := by
    rcases hmax with hmax | hmax
    · exact .inl hmax
    · rw [hg, hmax]
      exact .inr rfl
  have hkeep : ∀ r', (gs i).residence = some r' → r' = r := by
    intro r' hr'
    rw [hg] at hr'
    exact (Option.some.inj hr').symm
  have hsame : ∀ x : Counter, (gs i).amount x = (ReportPhase.owing .queued r).amount x := by
    intro x
    rw [hg]
    cases x <;> rfl
  unfold ReportPhase.resume
  by_cases hret : g' = .returned
  · rw [if_pos hret]
    refine h.settle i nofun ?_ hrb hmax' fun r' hr' => ⟨rfl, hkeep r' hr'⟩
    intro x _
    rw [hcounters, hsame]
  · rw [if_neg hret]
    refine ⟨_, h.move i (g := .updating g' r) trivial [] nofun ?_ ?_ hmax' ?_⟩
    · intro x _
      rw [hcounters, hsame, List.map_nil, List.sum_nil, add_zero]
      cases x <;> rfl
    · rw [hrb]
      exact (List.append_nil _).symm
    · intro r' hr'
      rw [hkeep r' hr']
      exact .inl rfl

/-- The event is submitted or dropped. -/
theorem complete (h : Books m s gs ds) {t : DeliveryType} {r : UInt64} {o : Outcome}
    (hg : gs i = .owing t r) (ho : o ≠ .withheld)
    (hevent : ∀ e, o = .submitted e → e.deliveryType = t ∧ e.residenceNs = r)
    (hcounters : ∀ x : Counter, s'.counters x + (ReportPhase.owing t r).amount x =
      s.counters x + (⟨t, r, o⟩ : Delivery).amount x)
    (hrb : s'.rb = s.rb ++ [(⟨t, r, o⟩ : Delivery)].filterMap Delivery.event)
    (hmax : s'.queuedMaxNs = s.queuedMaxNs) :
    ∃ ds', Books m s' (Function.update gs i .idle) ds' := by
  have howed := h.owed i
  rw [hg] at howed
  refine ⟨_, h.move i (g := .idle) trivial [⟨t, r, o⟩] ?_ ?_ hrb (.inl hmax) ?_⟩
  · intro d hd
    rw [List.mem_singleton.mp hd]
    exact ⟨⟨fun hw => absurd hw ho, fun hlt => absurd hlt howed.1⟩, howed.2, hevent⟩
  · intro x _
    rw [hg, hcounters x, List.map_singleton, List.sum_singleton, amount_idle, add_zero]
  · intro r' hr'
    rw [hg] at hr'
    cases t with
    | queued => exact .inr ⟨_, List.mem_singleton_self _, rfl, Option.some.inj hr'⟩
    | direct => cases hr'

theorem add (h : Books m s gs ds) {x : Counter} {delta : x.Value}
    (hp : (reportProtocol m).Permits (gs i) (.add x delta)) :
    ∃ ds', Books m (s.add x delta)
      (Function.update gs i ((reportProtocol m).next (gs i) (.add x delta) ())) ds' := by
  have hother : ∀ y, y ≠ x → ∀ a b : y.Value, a = b →
      (s.add x delta).counters y + a = s.counters y + 0 + b := by
    intro y hy a b hab
    rw [counters_add_of_ne s delta hy, hab, add_zero]
  cases hg : gs i with
  | idle =>
      rw [hg] at hp
      -- a counter that no delivery moves
      have hstay : ¬x.OfDeliveries →
          ∃ ds', Books m (s.add x delta) (Function.update gs i .idle) ds' := by
        intro hx
        rw [← hg, Function.update_eq_self]
        refine ⟨ds, h.frame (fun y hy => ?_) rfl rfl⟩
        exact counters_add_of_ne s delta fun hyx => hx (hyx ▸ hy)
      cases x with
      | queuedCount =>
          obtain rfl : delta = 1 := hp
          refine ⟨_, h.move i (g := .counted) trivial [] nofun ?_ ?_ (.inl rfl) ?_⟩
          · intro y _
            rw [hg]
            by_cases hy : y = .queuedCount
            · subst hy
              exact congrArg (· + 0) (counters_add_self s .queuedCount 1)
            · refine hother y hy _ _ ?_
              cases y <;> first | rfl | exact absurd rfl hy
          · exact (List.append_nil _).symm
          · intro r hr
            rw [hg] at hr
            cases hr
      | directCount =>
          obtain rfl : delta = 1 := hp
          refine h.settle i (fun _ => rfl) ?_ rfl (.inl rfl) ?_
          · intro y _
            rw [hg]
            by_cases hy : y = .directCount
            · subst hy
              exact counters_add_self s .directCount 1
            · rw [counters_add_of_ne s _ hy]
              cases y <;> first | rfl | exact absurd rfl hy
          · intro r hr
            rw [hg] at hr
            cases hr
      | queuedTotalNs => exact hp.elim
      | ringbufDropCount => exact hp.elim
      | unmatchedCount => exact hstay fun hx => hx.1 rfl
      | trackingDropCount => exact hstay fun hx => hx.2 rfl
  | counted =>
      rw [hg] at hp
      cases x with
      | queuedTotalNs =>
          refine ⟨_, h.move i (g := .updating (.attempt delta 16) delta) trivial [] nofun ?_ ?_
            (.inl rfl) ?_⟩
          · intro y _
            rw [hg]
            by_cases hy : y = .queuedTotalNs
            · subst hy
              rw [counters_add_self, List.map_nil, List.sum_nil, add_zero]
              exact add_zero _
            · refine hother y hy _ _ ?_
              cases y <;> first | rfl | exact absurd rfl hy
          · exact (List.append_nil _).symm
          · intro r hr
            rw [hg] at hr
            cases hr
      | _ => exact hp.elim
  | updating g r =>
      rw [hg] at hp
      exact hp.elim
  | owing t r =>
      rw [hg] at hp
      cases x with
      | ringbufDropCount =>
          obtain rfl : delta = 1 := hp
          refine h.complete (o := .dropped) hg nofun nofun ?_ (List.append_nil _).symm rfl
          intro y
          rw [amount_eq]
          by_cases hy : y = .ringbufDropCount
          · subst hy
            rw [counters_add_self, add_right_comm, add_assoc]
            rfl
          · have hdrop : Outcome.dropped.amount y = 0 := by
              cases y <;> first | rfl | exact absurd rfl hy
            rw [counters_add_of_ne s _ hy, hdrop, add_zero]
      | _ => exact hp.elim

theorem submit (h : Books m s gs ds) {e : Event}
    (hp : (reportProtocol m).Permits (gs i) (.submit e)) :
    ∃ ds', Books m { s with rb := s.rb ++ [e] }
      (Function.update gs i ((reportProtocol m).next (gs i) (.submit e) ())) ds' := by
  cases hg : gs i with
  | owing t r =>
      rw [hg] at hp
      rcases hp with ⟨ht, hr⟩
      refine h.complete (o := .submitted e) hg nofun ?_ ?_ rfl rfl
      · intro e' he
        cases he
        exact ⟨ht, hr⟩
      · intro y
        rw [amount_eq, amount_submitted, add_zero]
  | _ =>
      rw [hg] at hp
      exact hp.elim

/-- The calls of `stats_update_max`. -/
theorem casMax (h : Books m s gs ds) {old new : UInt64}
    (hp : (reportProtocol m).Permits (gs i) (.casMax old new)) :
    ∃ ds', Books m (Helper.run s (.casMax old new)).2
      (Function.update gs i ((reportProtocol m).next (gs i) (.casMax old new) s.queuedMaxNs))
      ds' := by
  cases hg : gs i with
  | updating g r =>
      rw [hg] at hp
      obtain rfl : new = r := hp
      simp only [Helper.run]
      split_ifs
      · exact h.resume hg rfl rfl (.inr rfl)
      · exact h.resume hg rfl rfl (.inl rfl)
  | _ =>
      rw [hg] at hp
      exact hp.elim

theorem loadMax (h : Books m s gs ds) (hp : (reportProtocol m).Permits (gs i) .loadMax) :
    ∃ ds', Books m s
      (Function.update gs i ((reportProtocol m).next (gs i) .loadMax s.queuedMaxNs)) ds' := by
  cases hg : gs i with
  | updating g r => exact h.resume hg rfl rfl (.inl rfl)
  | _ =>
      rw [hg] at hp
      exact hp.elim

/-- The calls on the maps. -/
theorem idle (h : Books m s gs ds) {c : Helper} {r : c.Result} (hg : gs i = .idle)
    (hnext : (reportProtocol m).next .idle c r = .idle) (hc : s'.counters = s.counters)
    (hrb : s'.rb = s.rb) (hmax : s'.queuedMaxNs = s.queuedMaxNs) :
    ∃ ds', Books m s' (Function.update gs i ((reportProtocol m).next (gs i) c r)) ds' := by
  rw [hg, hnext, ← hg, Function.update_eq_self]
  exact ⟨ds, h.frame (fun x _ => by rw [hc]) hrb hmax⟩

theorem call (h : Books m s gs ds) {c : Helper} (hp : (reportProtocol m).Permits (gs i) c) :
    ∃ ds', Books m (Helper.run s c).2
      (Function.update gs i ((reportProtocol m).next (gs i) c (Helper.run s c).1)) ds' := by
  have hidle : (∀ g, (reportProtocol m).Permits g c → g = .idle) → gs i = .idle :=
    fun hall => hall _ hp
  cases c with
  | add x delta => exact h.add hp
  | submit e => exact h.submit hp
  | loadMax => exact h.loadMax hp
  | casMax old new => exact h.casMax hp
  | lookup t key =>
      refine h.idle (hidle fun g hg => ?_) rfl rfl rfl rfl
      cases g with
      | idle => rfl
      | _ => exact hg.elim
  | update t key v fails =>
      have hg := hidle fun g hg => by
        cases g with
        | idle => rfl
        | _ => exact hg.elim
      cases fails with
      | true => exact h.idle hg rfl rfl rfl rfl
      | false => exact h.idle hg rfl rfl rfl rfl
  | delete t key =>
      refine h.idle (hidle fun g hg => ?_) rfl rfl rfl rfl
      cases g with
      | idle => rfl
      | _ => exact hg.elim
  | setMsgKey key msgKey =>
      have hg := hidle fun g hg => by
        cases g with
        | idle => rfl
        | _ => exact hg.elim
      simp only [Helper.run]
      cases s.get .activeSends key with
      | none => exact h.idle hg rfl rfl rfl rfl
      | some send => exact h.idle hg rfl rfl rfl rfl

end Books

theorem total_amount_idle (n : ℕ) (x : Counter) :
    PerCpu.total (·.amount x) (fun _ : Fin n => ReportPhase.idle) = 0 :=
  PerCpu.total_const_zero _ _ (Books.amount_idle x)

theorem books_run (c : Ctrl) {es : List (Turn n Probe)} (hv : (probes n c).Valid es) :
    Phased (reportProtocol c.minDelayNs) (fun s gs => ∃ ds, Books c.minDelayNs s gs ds)
      ((probes n c).run es) := by
  refine interleaved_invariant _ _ ?_ (prog_follows c) ?_ hv
  · refine ⟨[], nofun, fun x _ => ?_, rfl, .inl rfl, fun _ => trivial⟩
    exact (total_amount_idle n x).symm.trans (zero_add _).symm
  · rintro s gs i c ⟨ds, h⟩ hp
    exact h.call hp

/-- Whenever no probe is under way, the statistics and the ring buffer are those of one
list of deliveries. -/
theorem reports_reflect_one_log (n : ℕ) (c : Ctrl) (es : List (Turn n Probe))
    (hv : (probes n c).Valid es) (hdone : ∀ i, (((probes n c).run es).2 i).isDone = true) :
    ∃ ds, Reflects c.minDelayNs ((probes n c).run es).1 ds := by
  rcases (books_run c hv).of_all_done hdone with ⟨ds, h⟩
  refine ⟨ds, h.fair, fun x hx => ?_, h.rb, ?_⟩
  · rw [h.counters x hx]
    exact (congrArg _ (total_amount_idle n x)).trans (add_zero _)
  · rcases h.max with h0 | hd | ⟨i, hi⟩
    · exact .inl h0
    · exact .inr hd
    · cases hi

/-- The exit of a send in one thread runs between the helper calls of the receiver. -/
def crossedDelivery : List (Turn 2 Probe) :=
  let tx : Fin 2 := ⟨0, Nat.two_pos⟩
  let rx : Fin 2 := ⟨1, Nat.one_lt_two⟩
  let sender : Task := ⟨0x100000001, fun _ _ => none⟩
  let receiver : Task := ⟨0x200000002, fun _ _ => none⟩
  [.begin tx (.sendEnter sender ⟨3, 8, 0, Vector.replicate _ 0, false⟩), .call tx,
    .begin tx (.loadMsgExit sender 64 false), .call tx, .call tx, .call tx,
    .begin tx (.msgInsertExit 64 0 50 false), .call tx, .call tx, .call tx,
    .begin rx (.recvEnter receiver ⟨4, Vector.replicate _ 0, false⟩), .call rx,
    .begin tx (.sendExit sender 0 false), .begin rx (.storeMsgEnter receiver 64 ⟨80, true⟩)] ++
    (List.replicate 8 [.call rx, .call tx]).flatten

theorem crossed_delivery_reflects_one_log :
    (∃ ds, Reflects 20 ((probes 2 ⟨true, 20, 0, 0, 0⟩).run crossedDelivery).1 ds) ∧
      ((probes 2 ⟨true, 20, 0, 0, 0⟩).run crossedDelivery).1.counters .queuedCount = 1 ∧
      ((probes 2 ⟨true, 20, 0, 0, 0⟩).run crossedDelivery).1.rb.map (·.residenceNs) = [30] :=
  ⟨reports_reflect_one_log 2 ⟨true, 20, 0, 0, 0⟩ crossedDelivery (by decide +kernel)
    (by decide +kernel), by decide +kernel, by decide +kernel⟩

end EbpfToolbox.Ipc.Msgqueue
