import EbpfToolbox.Ipc.Traffic

/-!
# What free_msg reports

The probe on `free_msg` is there to clean the maps up. It shares `consume_message` with
the probe on `store_msg`, and the flag that tells the two apart only guards the count of
unmatched messages: when a receive skips `store_msg` and frees its message at once, the
record and the receiver are both still there, and the delivery is reported.
-/

namespace EbpfToolbox.Ipc.Msgqueue

open Common Lib

/-! ## Quiet probes -/

/-- No field of `struct Msgqueue_stats` changes and no event is submitted. -/
structure Quiet (s s' : State) : Prop where
  counters : s'.counters = s.counters
  queuedMaxNs : s'.queuedMaxNs = s.queuedMaxNs
  rb : s'.rb = s.rb

/-- The sender in the record that `consume_message` finds first. -/
def recordSender (s : State) (msg : UInt64) : Option Int32 :=
  match s.get .queuedMessages msg with
  | some queued => some queued.senderPid
  | none =>
      match s.get .directMessages msg with
      | some direct => some direct.senderPid
      | none => (s.get .pendingMessages msg).map fun direct => direct.senderPid

/-- The current thread is a recorded receiver, the message has a record, and the two pass
the filter. -/
def reports (c : Ctrl) (cur : Task) (msg : UInt64) (s : State) : Bool :=
  msg ≠ 0 && match s.get .activeReceives cur.pidTgid, recordSender s msg with
    | some receiver, some sender => c.enable && pidMatches c sender receiver.receiverPid
    | _, _ => false

variable {c : Ctrl} {cur : Task} {s : State}

/-- The queued and the direct count. -/
def State.counted (s : State) : ℕ × ℕ := (s.counters .queuedCount, s.counters .directCount)

@[simp] theorem State.counted_erase (s : State) (m : Table) (key : UInt64) :
    (s.erase m key).counted = s.counted := rfl

@[simp] theorem State.counted_put (s : State) (m : Table) (key : UInt64) (v : m.Value) :
    (s.put m key v).counted = s.counted := rfl

@[simp] theorem State.counted_drop (s : State) (delta : ℕ) :
    (s.add .trackingDropCount delta).counted = s.counted := rfl

theorem counted_of_deliveries {s s' : State} {d : ℕ × ℕ × ℕ}
    (h : s'.deliveries = s.deliveries + d) : s'.counted = s.counted + (d.1, d.2.1) := by
  have h1 := congrArg Prod.fst h
  have h2 := congrArg (fun p => p.2.1) h
  exact Prod.ext h1 h2

theorem Quiet.counted {s s' : State} (h : Quiet s s') : s'.counted = s.counted := by
  simp only [State.counted, h.counters]

/-- A delivery that passes the filter is counted, whatever the threshold. -/
theorem quiet_submitQueued_iff {s₀ s : State} (h : Quiet s₀ s) (queued : QueuedMsg)
    (receiver : RecvCtx) (x : ConsumeArgs) :
    Quiet s₀ ((submitQueued c queued receiver x).exec Helper.run s).2 ↔
      (c.enable && pidMatches c queued.senderPid receiver.receiverPid) = false := by
  by_cases hm : (c.enable && pidMatches c queued.senderPid receiver.receiverPid) = true
  · refine iff_of_false ?_ (by simp [hm])
    intro hquiet
    have hdel := (exec_submitQueued c queued receiver x s).2
    rw [if_pos hm] at hdel
    have hcounted := hquiet.counted.symm.trans (counted_of_deliveries hdel)
    rw [h.counted] at hcounted
    simpa using congrArg Prod.fst hcounted
  · rw [Bool.not_eq_true] at hm
    simp only [submitQueued, hm, Bool.false_eq_true, if_false]
    exact iff_of_true h trivial

theorem quiet_submitDirect_iff {s₀ s : State} (h : Quiet s₀ s) (pending : PendingMsg)
    (receiver : RecvCtx) (x : ConsumeArgs) :
    Quiet s₀ ((submitDirect c pending receiver x).exec Helper.run s).2 ↔
      (c.enable && pidMatches c pending.senderPid receiver.receiverPid) = false := by
  by_cases hm : (c.enable && pidMatches c pending.senderPid receiver.receiverPid) = true
  · refine iff_of_false ?_ (by simp [hm])
    intro hquiet
    have hdel := (exec_submitDirect c pending receiver x s).2
    rw [if_pos hm] at hdel
    have hcounted := hquiet.counted.symm.trans (counted_of_deliveries hdel)
    rw [h.counted] at hcounted
    simpa using congrArg Prod.snd hcounted
  · rw [Bool.not_eq_true] at hm
    simp only [submitDirect, hm, Bool.false_eq_true, if_false]
    exact iff_of_true h trivial

/-- The probe is quiet exactly when it has nothing to report. -/
theorem run_mqFreeMsgEnter_quiet_iff {msg : UInt64} (x : ConsumeArgs) :
    Quiet s (run (mqFreeMsgEnter c cur msg x) s) ↔ reports c cur msg s = false := by
  have herase : ∀ m key, Quiet s (s.erase m key) := fun _ _ => ⟨rfl, rfl, rfl⟩
  by_cases hmsg : msg = 0
  · simp only [run, mqFreeMsgEnter, consumeMessage, reports, if_pos hmsg]
    exact iff_of_true ⟨rfl, rfl, rfl⟩ (by simp [hmsg])
  · simp only [run, mqFreeMsgEnter, consumeMessage, reports, recordSender, if_neg hmsg,
      Program.exec_bind, exec_lookupQueued, exec_lookupReceive]
    cases hr : s.get .activeReceives cur.pidTgid with
    | none =>
        -- without a receiver the record is dropped, and one in `pending_messages` stays
        refine iff_of_true ?_ (by simp)
        cases hq : s.get .queuedMessages msg with
        | some queued => exact herase _ _
        | none =>
            cases hd : s.get .directMessages msg with
            | some direct => simpa [hd] using herase .directMessages msg
            | none =>
                cases hp : s.get .pendingMessages msg with
                | some direct => simpa [hd, hp, consumePending, unmatched] using ⟨rfl, rfl, rfl⟩
                | none => simpa [hd, hp, consumePending, unmatched] using ⟨rfl, rfl, rfl⟩
    | some receiver =>
        cases hq : s.get .queuedMessages msg with
        | some queued =>
            simpa [hmsg] using quiet_submitQueued_iff (herase .queuedMessages msg) queued receiver x
        | none =>
            cases hd : s.get .directMessages msg with
            | some direct =>
                simpa [hmsg, hd] using
                  quiet_submitDirect_iff (herase .directMessages msg) direct receiver x
            | none =>
                cases hp : s.get .pendingMessages msg with
                | some direct =>
                    simpa [hmsg, hd, hp, consumePending] using
                      quiet_submitDirect_iff (herase .pendingMessages msg) direct receiver x
                | none =>
                    refine iff_of_true ?_ (by simp)
                    simpa [hd, hp, consumePending, unmatched] using ⟨rfl, rfl, rfl⟩

/-! ## The other probes -/

theorem run_mqLoadMsgExit_counted (ret : UInt64) (fails : Bool) :
    (run (mqLoadMsgExit cur ret fails) s).counted = s.counted := by
  by_cases hun : validMsgPtr ret = false ∨ s.get .activeSends cur.pidTgid = none
  · rw [run_mqLoadMsgExit_untracked fails hun]
  · obtain ⟨hv, hsend⟩ := not_or.mp hun
    obtain ⟨send, hsend⟩ := Option.ne_none_iff_exists'.mp hsend
    rw [run_mqLoadMsgExit fails (by simpa using hv) hsend]
    split_ifs <;> simp

theorem run_mqMsgInsertExit_counted (msg : UInt64) (ret : Int32) (now : UInt64) (fails : Bool) :
    (run (mqMsgInsertExit msg ret now fails) s).counted = s.counted := by
  by_cases hun : ret ≠ 0 ∨ s.get .pendingMessages msg = none
  · rw [run_mqMsgInsertExit_untracked now fails hun]
  · obtain ⟨hret, hp⟩ := not_or.mp hun
    obtain ⟨pending, hp⟩ := Option.ne_none_iff_exists'.mp hp
    obtain rfl : ret = 0 := not_not.mp hret
    by_cases hmsg : msg = 0
    · simp [run, mqMsgInsertExit, hmsg]
    · rw [run_mqMsgInsertExit now fails hmsg hp]
      split_ifs <;> simp

theorem run_mqSendExit_counted (ret : Int32) (fails : Bool) :
    (run (mqSendExit cur ret fails) s).counted = s.counted := by
  cases hsend : s.get .activeSends cur.pidTgid with
  | none => rw [run_mqSendExit_untracked ret fails hsend]
  | some send =>
      by_cases hz : send.msgKey = 0 ∨ s.get .pendingMessages send.msgKey = none
      · rw [run_mqSendExit_settled ret fails hsend hz]
        simp
      · obtain ⟨hz, hp⟩ := not_or.mp hz
        obtain ⟨pending, hp⟩ := Option.ne_none_iff_exists'.mp hp
        rw [run_mqSendExit ret fails hsend hz hp]
        split_ifs <;> simp

variable {T : Type} [DecidableEq T]

def Step.isStore : Step T → Bool
  | .storeMsg .. => true
  | _ => false

/-- A `free_msg` has no delivery to report. -/
def FreeUnreported (K : Kernel T) (s : State × Kern T) : Step T → Prop
  | .freeMsg t msg _ c _ => reports c (K.task t) msg s.1 = false
  | _ => True

instance (K : Kernel T) (s : State × Kern T) (e : Step T) : Decidable (FreeUnreported K s e) :=
  match e with
  | .freeMsg t msg _ c _ => inferInstanceAs (Decidable (reports c (K.task t) msg s.1 = false))
  | .sendEnter .. | .loadMsg .. | .msgInsert .. | .handOver .. | .sendExit .. | .recvEnter ..
  | .storeMsg .. | .recvExit .. | .evict .. => inferInstanceAs (Decidable True)

/-- Only `store_msg` counts deliveries, as long as no `free_msg` has any to report. -/
theorem step_counted (K : Kernel T) (s : State × Kern T) {e : Step T} (hstore : e.isStore = false)
    (hfree : FreeUnreported K s e) : (step K s e).1.counted = s.1.counted := by
  cases e with
  | sendEnter t c a =>
      simp only [step, run_mqSendEnter]
      split_ifs <;> simp
  | loadMsg t ret fails => exact run_mqLoadMsgExit_counted ret fails
  | msgInsert msg ret now fails => exact run_mqMsgInsertExit_counted msg ret now fails
  | handOver msg => rfl
  | sendExit t ret fails => exact run_mqSendExit_counted ret fails
  | recvEnter t c a =>
      simp only [step, run_mqRecvEnter]
      split_ifs <;> simp
  | storeMsg t msg c x => cases hstore
  | freeMsg t msg why c x =>
      exact ((run_mqFreeMsgEnter_quiet_iff x).2 hfree).counted
  | recvExit t => rfl
  | evict m key => rfl

/-! ## Runs -/

/-- In the run `es`, no `free_msg` touches the statistics or the ring buffer, and the counts
of deliveries change with a `store_msg` only. -/
structure FreeIsCleanup (K : Kernel T) (es : List (Step T)) : Prop where
  quiet : ∀ pre t msg why c x, pre ++ [.freeMsg t msg why c x] <+: es →
    Quiet ((traffic K).run pre).1 ((traffic K).run (pre ++ [.freeMsg t msg why c x])).1
  counted : ∀ pre e, pre ++ [e] <+: es → e.isStore = false →
    ((traffic K).run (pre ++ [e])).1.counted = ((traffic K).run pre).1.counted

/-- `free_msg` is cleanup only in exactly the runs in which no receiver frees a message
whose record is still there and passes the filter. -/
theorem freeIsCleanup_iff (K : Kernel T) {es : List (Step T)} (hv : (traffic K).Valid es) :
    FreeIsCleanup K es ↔ ((traffic K).restrict (FreeUnreported K)).Valid es := by
  constructor
  · intro h
    induction es using List.reverseRecOn with
    | nil => exact trivial
    | append_singleton es e ih =>
        rw [Machine.valid_snoc] at hv ⊢
        have hbefore : FreeIsCleanup K es :=
          ⟨fun pre t msg why c x hpre => h.quiet pre t msg why c x (hpre.trans (List.prefix_append _ _)),
            fun pre e' hpre => h.counted pre e' (hpre.trans (List.prefix_append _ _))⟩
        refine ⟨ih hv.1 hbefore, hv.2, ?_⟩
        show FreeUnreported K ((traffic K).run es) e
        cases e with
        | freeMsg t msg why c x =>
            have hquiet := h.quiet es t msg why c x List.prefix_rfl
            rw [Machine.run_snoc] at hquiet
            exact (run_mqFreeMsgEnter_quiet_iff x).1 hquiet
        | _ => exact trivial
  · intro hvalid
    have hstep : ∀ pre e, pre ++ [e] <+: es → FreeUnreported K ((traffic K).run pre) e :=
      fun pre e hpre => (Machine.allowed_at hvalid hpre).2
    refine ⟨fun pre t msg why c x hpre => ?_, fun pre e hpre hstore => ?_⟩
    · rw [Machine.run_snoc]
      exact (run_mqFreeMsgEnter_quiet_iff x).2 (hstep pre _ hpre)
    · rw [Machine.run_snoc]
      exact step_counted K _ hstore (hstep pre e hpre)

/-- A message is queued, stored by its receiver and then freed by it. -/
theorem free_after_store_is_cleanup :
    let c : Ctrl := ⟨true, 0, 0, 0, 0⟩
    let es : List (Step (Fin 2)) :=
      [.sendEnter ⟨0, Nat.two_pos⟩ c ⟨3, 8, 0, Vector.replicate _ 0, false⟩,
        .loadMsg ⟨0, Nat.two_pos⟩ 64 false, .msgInsert 64 0 50 false,
        .sendExit ⟨0, Nat.two_pos⟩ 0 false,
        .recvEnter ⟨1, Nat.one_lt_two⟩ c ⟨4, Vector.replicate _ 0, false⟩,
        .storeMsg ⟨1, Nat.one_lt_two⟩ 64 c ⟨100, true⟩,
        .freeMsg ⟨1, Nat.one_lt_two⟩ 64 .receiver c ⟨110, true⟩]
    ((traffic Kernel.two).run es).1.counted = (1, 0) ∧ FreeIsCleanup Kernel.two es := by
  intro c es
  exact ⟨by decide +kernel, (freeIsCleanup_iff Kernel.two (by decide +kernel)).2 (by decide +kernel)⟩

/-- The receive skips `store_msg`: `free_msg` counts the delivery and submits an event. -/
theorem free_without_store_is_reported :
    let c : Ctrl := ⟨true, 0, 0, 0, 0⟩
    let es : List (Step (Fin 2)) :=
      [.sendEnter ⟨0, Nat.two_pos⟩ c ⟨3, 8, 0, Vector.replicate _ 0, false⟩,
        .loadMsg ⟨0, Nat.two_pos⟩ 64 false, .msgInsert 64 0 50 false,
        .sendExit ⟨0, Nat.two_pos⟩ 0 false,
        .recvEnter ⟨1, Nat.one_lt_two⟩ c ⟨4, Vector.replicate _ 0, false⟩,
        .freeMsg ⟨1, Nat.one_lt_two⟩ 64 .receiver c ⟨100, true⟩]
    (traffic Kernel.two).Valid es ∧ es.all (fun e => !e.isStore) = true ∧
      ((traffic Kernel.two).run es).1.counted = (1, 0) ∧
      ((traffic Kernel.two).run es).1.rb.map (·.deliveryType) = [.queued] ∧
      ¬FreeIsCleanup Kernel.two es := by
  intro c es
  refine ⟨by decide +kernel, by decide +kernel, by decide +kernel, by decide +kernel, fun h => ?_⟩
  have hcounted := h.counted (es.take 5) _ (List.prefix_rfl) rfl
  revert hcounted
  decide +kernel

end EbpfToolbox.Ipc.Msgqueue
