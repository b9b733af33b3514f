import EbpfToolbox.Ipc.Handover

/-!
# A handed over message is delivered at most once

`FlightInv` ties the record of one message to the control points of the two sides:
the record is in `pending_messages` until one of them takes it out, in
`direct_messages` from the move of the exit until the receiver finds it, and the
receiver owes a delivery only while it holds the record. The calls for other
messages do not concern it, so it holds for every number of messages in flight.
-/

namespace EbpfToolbox.Ipc.Msgqueue.Handover

open Common Lib

variable {T : Type}

/-! ## One message -/

/-- The send context of the message's sender, before the exit has looked at it. -/
structure SenderKnows (cur : Task) (msg : UInt64) (σ : State) : Prop where
  key : ∀ send, σ.get .activeSends cur.pidTgid = some send → send.msgKey = 0 ∨ send.msgKey = msg
  pending : σ.get .pendingMessages msg ≠ none → ∃ send,
    σ.get .activeSends cur.pidTgid = some send ∧ send.msgKey = msg

def RecvAt (K : Kernel T) (msg : UInt64) (f : Flight T) : Option RecvPc → Prop
  | none => f.recv = .waiting
  | some q => ∃ c r b x, f.receiver = some r ∧ f.recv = .probe b (q.prog c (K.task r) msg b x)

theorem RecvAt.of_eq {K : Kernel T} {msg : UInt64} {f f' : Flight T} {q : Option RecvPc}
    (h : RecvAt K msg f q) (hr : f'.receiver = f.receiver) (hv : f'.recv = f.recv) :
    RecvAt K msg f' q := by
  cases q with
  | none => exact hv.trans h
  | some q =>
      rcases h with ⟨c, r, b, x, hrecv, hprog⟩
      exact ⟨c, r, b, x, hr.trans hrecv, hv.trans hprog⟩

/-- The message `msg` with its exit at `p` and its receiver at `q`; `n` of its
deliveries were counted and `k` reported. -/
structure FlightInv (K : Kernel T) (σ : State) (n k : ℕ) (msg : UInt64)
    (f : Flight T) (p : Option ExitPc) (q : Option RecvPc) : Prop where
  nonnull : msg ≠ 0
  unqueued : σ.get .queuedMessages msg = none
  exitAt : f.exit = p.map (ExitPc.prog (K.task f.sender) msg)
  recvAt : RecvAt K msg f q
  knows : p = none ∨ p = some .start → SenderKnows (K.task f.sender) msg σ
  early : p.all ExitPc.early = true → f.moved = false
  cleared : p = some .leaving ∨ p = some .finished → σ.get .pendingMessages msg = none
  left : p = some .finished → f.sendReturned = false →
    σ.get .activeSends (K.task f.sender).pidTgid = none
  inSend : f.sendReturned = true → p = some .finished
  inRecv : f.recvReturned = true → f.Freeing = true ∧ q.all (fun q => !q.busy) = true
  recorded : ∀ r q' receiver, f.receiver = some r → q = some q' → q'.receiver = some receiver →
    σ.get .activeReceives (K.task r).pidTgid = receiver
  notBoth : f.moved = true → f.taken = false
  foundMoved : f.found = true → f.moved = true
  finds : ∀ r d, q = some (.dropDirect r d) → f.found = true
  direct : σ.get .directMessages msg ≠ none → f.moved = true ∧
    (f.found = true → ∃ r d, q = some (.dropDirect r d))
  unfound : f.moved = true → f.found = false → σ.get .directMessages msg ≠ none
  pending : f.taken = true → σ.get .pendingMessages msg ≠ none →
    ∃ r d, q = some (.dropPending r d)
  swept : f.swept = true → f.moved = true → f.found = true
  sweeps : f.Freeing = true → q.all (fun q => !q.beforeSweep) = true → f.swept = true
  counted : n + q.elim 0 RecvPc.owes ≤ if f.taken || f.found then 1 else 0
  reported : k + q.elim 0 RecvPc.owesEvent ≤ if f.taken || f.found then 1 else 0

namespace FlightInv

variable {K : Kernel T} {σ σ' : State} {n k : ℕ} {msg : UInt64} {f : Flight T}
  {p : Option ExitPc} {q : Option RecvPc}

/-- Steps for other messages. -/
theorem frame (h : FlightInv K σ n k msg f p q)
    (hget : ∀ m : Table, m.OfMessages → σ'.get m msg = σ.get m msg)
    (hsend : f.sendReturned = false → σ'.get .activeSends (K.task f.sender).pidTgid =
      σ.get .activeSends (K.task f.sender).pidTgid)
    (hrecv : ∀ r, f.receiver = some r → f.recvReturned = false →
      σ'.get .activeReceives (K.task r).pidTgid = σ.get .activeReceives (K.task r).pidTgid) :
    FlightInv K σ' n k msg f p q := by
  have hp := hget .pendingMessages (by simp [Table.OfMessages])
  have hq := hget .queuedMessages (by simp [Table.OfMessages])
  have hd := hget .directMessages (by simp [Table.OfMessages])
  refine { h with
    unqueued := by rw [hq, h.unqueued]
    knows := ?_
    cleared := ?_
    left := ?_
    recorded := ?_
    direct := ?_
    unfound := ?_
    pending := ?_ }
  · intro hpc
    have hback : f.sendReturned = false := by
      by_contra hret
      rcases hpc with hpc | hpc <;> simp [h.inSend (by simpa using hret)] at hpc
    obtain ⟨hkey, hpend⟩ := h.knows hpc
    exact ⟨by rwa [hsend hback], by rwa [hp, hsend hback]⟩
  · rw [hp]
    exact h.cleared
  · intro hpc hback
    rw [hsend hback]
    exact h.left hpc hback
  · intro r q' receiver hr hq' hrec
    have hback : f.recvReturned = false := by
      by_contra hret
      have hbusy := (h.inRecv (by simpa using hret)).2
      rw [hq'] at hbusy
      cases q' <;> simp [RecvPc.receiver, RecvPc.busy] at hrec hbusy
    rw [hrecv r hr hback]
    exact h.recorded r q' receiver hr hq' hrec
  · rw [hd]
    exact h.direct
  · rw [hd]
    exact h.unfound
  · rw [hp]
    exact h.pending

theorem exitProg_eq {p : ExitPc} (h : FlightInv K σ n k msg f (some p) q) :
    f.exitProg = p.prog (K.task f.sender) msg := by
  rw [Flight.exitProg, h.exitAt]
  rfl

theorem advance_exitProg {p : ExitPc} (h : FlightInv K σ n k msg f (some p) q) :
    f.exitProg.advance Helper.run σ = ((p.next (K.task f.sender) msg σ).prog (K.task f.sender) msg,
      p.effect (K.task f.sender) msg σ) := by
  rw [h.exitProg_eq]
  exact p.advance_prog fun hp => (h.knows (Or.inr (congrArg some hp))).key

theorem stepExit_eq {p : ExitPc} (h : FlightInv K σ n k msg f (some p) q) :
    f.stepExit σ = { f with
      exit := some ((p.next (K.task f.sender) msg σ).prog (K.task f.sender) msg)
      moved := f.moved || isMove (p.prog (K.task f.sender) msg).next } := by
  have hadv := h.advance_exitProg
  rw [h.exitProg_eq] at hadv
  simp only [Flight.stepExit, h.exitProg_eq, h.exitAt, Option.map_some, hadv]

/-- The exit goes on without writing to the message maps. -/
theorem reexit {p p' : ExitPc} (h : FlightInv K σ n k msg f (some p) q)
    (hback : f.sendReturned = false) (hstart : p' ≠ .start)
    (hget : ∀ (m : Table) key, m ≠ .activeSends → σ'.get m key = σ.get m key)
    (early : p'.early = true → f.moved = false)
    (cleared : p' = .leaving ∨ p' = .finished → σ.get .pendingMessages msg = none)
    (left : p' = .finished → σ'.get .activeSends (K.task f.sender).pidTgid = none) :
    FlightInv K σ' n k msg { f with exit := some (p'.prog (K.task f.sender) msg) }
      (some p') q := by
  have hp := hget .pendingMessages msg (by decide)
  have hd := hget .directMessages msg (by decide)
  refine { h with
    unqueued := ?_
    exitAt := rfl
    recvAt := ?_
    knows := ?_
    early := early
    cleared := ?_
    left := ?_
    inSend := ?_
    recorded := ?_
    direct := ?_
    unfound := ?_
    pending := ?_ }
  · rw [hget _ _ (by decide), h.unqueued]
  · exact h.recvAt.of_eq rfl rfl
  · rintro (hpc | hpc)
    · cases hpc
    · exact absurd (Option.some.inj hpc) hstart
  · rw [hp]
    exact fun hpc => cleared (hpc.imp Option.some.inj Option.some.inj)
  · exact fun hpc _ => left (Option.some.inj hpc)
  · exact fun hret => by simp [hback] at hret
  · intro r q' receiver hr hq' hrec
    rw [hget _ _ (by decide)]
    exact h.recorded r q' receiver hr hq' hrec
  · rw [hd]
    exact h.direct
  · rw [hd]
    exact h.unfound
  · rw [hp]
    exact h.pending

/-- The exit writes `direct_messages`: the record is now in both maps. -/
theorem exitCopies {pending : PendingMsg} (h : FlightInv K σ n k msg f (some (.copied pending)) q)
    (hback : f.sendReturned = false) (htaken : f.taken = false) (hswept : f.swept = false) :
    FlightInv K (σ.put .directMessages msg pending) n k msg
      { f with
        exit := some (ExitPc.moved.prog (K.task f.sender) msg)
        moved := true } (some .moved) q := by
  have hfound : f.found = false := by
    by_contra hf
    have hmoved := h.foundMoved (by simpa using hf)
    simp [h.early rfl] at hmoved
  refine { h with
    unqueued := ?_
    exitAt := rfl
    recvAt := h.recvAt.of_eq rfl rfl
    knows := ?_
    early := by simp [ExitPc.early]
    cleared := ?_
    left := by simp
    inSend := ?_
    recorded := ?_
    notBoth := fun _ => htaken
    foundMoved := fun _ => rfl
    direct := ?_
    unfound := ?_
    pending := ?_
    swept := ?_ }
  · simpa [State.get_put_of_ne] using h.unqueued
  · rintro (hpc | hpc) <;> cases hpc
  · rintro (hpc | hpc) <;> cases hpc
  · exact fun hret => by simp [hback] at hret
  · intro r q' receiver hr hq' hrec
    simpa [State.get_put_of_ne] using h.recorded r q' receiver hr hq' hrec
  · exact fun _ => ⟨rfl, fun hf => by simp [hfound] at hf⟩
  · simp
  · exact fun ht => by simp [htaken] at ht
  · exact fun hs => by simp [hswept] at hs

/-- The exit deletes the record from `pending_messages`. -/
theorem exitDeletes (h : FlightInv K σ n k msg f (some .moved) q) (hback : f.sendReturned = false) :
    FlightInv K (σ.erase .pendingMessages msg) n k msg
      { f with exit := some (ExitPc.leaving.prog (K.task f.sender) msg) } (some .leaving) q := by
  refine { h with
    unqueued := ?_
    exitAt := rfl
    recvAt := h.recvAt.of_eq rfl rfl
    knows := ?_
    early := by simp [ExitPc.early]
    cleared := fun _ => State.get_erase_self _ _ _
    left := by simp
    inSend := ?_
    recorded := ?_
    direct := ?_
    unfound := ?_
    pending := ?_ }
  · simpa [State.get_erase_of_ne] using h.unqueued
  · rintro (hpc | hpc) <;> cases hpc
  · exact fun hret => by simp [hback] at hret
  · intro r q' receiver hr hq' hrec
    simpa [State.get_erase_of_ne] using h.recorded r q' receiver hr hq' hrec
  · simpa [State.get_erase_of_ne] using h.direct
  · simpa [State.get_erase_of_ne] using h.unfound
  · simp

/-- Before its first call the exit does not know whether the send is recorded; when it
is not, there is no record of the message either. -/
theorem exitStarts (h : FlightInv K σ n k msg f (some .start) q) (hback : f.sendReturned = false) :
    FlightInv K σ n k msg
      { f with
        exit := some ((ExitPc.start.next (K.task f.sender) msg σ).prog (K.task f.sender) msg) }
      (some (ExitPc.start.next (K.task f.sender) msg σ)) q := by
  have hknows := h.knows (Or.inr rfl)
  have hmoved := h.early rfl
  simp only [ExitPc.next]
  cases hsend : σ.get .activeSends (K.task f.sender).pidTgid with
  | none =>
      have hnone : σ.get .pendingMessages msg = none := by
        by_contra hne
        obtain ⟨send, hs, -⟩ := hknows.pending hne
        simp [hsend] at hs
      exact h.reexit hback (by simp) (fun _ _ _ => rfl) (by simp [ExitPc.early])
        (fun _ => hnone) fun _ => hsend
  | some send =>
      by_cases hz : send.msgKey = 0
      · have hnone : σ.get .pendingMessages msg = none := by
          by_contra hne
          obtain ⟨send', hs, hk⟩ := hknows.pending hne
          obtain rfl := Option.some.inj (hsend.symm.trans hs)
          exact h.nonnull (hk.symm.trans hz)
        simp only [hz, if_true]
        exact h.reexit hback (by simp) (fun _ _ _ => rfl) (by simp [ExitPc.early])
          (fun _ => hnone) (by simp)
      · simp only [if_neg hz]
        exact h.reexit hback (by simp) (fun _ _ _ => rfl) (fun _ => hmoved) (by simp) (by simp)

/-- One call of the exit probe. -/
theorem stepExit {p : ExitPc} (h : FlightInv K σ n k msg f (some p) q)
    (hback : f.sendReturned = false) (hbusy : p ≠ .finished)
    (hfree : isMove f.exitProg.next = true → f.taken = false ∧ f.swept = false) :
    FlightInv K (p.effect (K.task f.sender) msg σ) n k msg (f.stepExit σ)
      (some (p.next (K.task f.sender) msg σ)) q := by
  have hmove := h.exitProg_eq
  rw [h.stepExit_eq]
  cases p with
  | start =>
      have hno : isMove (ExitPc.start.prog (K.task f.sender) msg).next = false := rfl
      rw [hno, Bool.or_false]
      exact h.exitStarts hback
  | found =>
      have hno : isMove (ExitPc.found.prog (K.task f.sender) msg).next = false := rfl
      rw [hno, Bool.or_false]
      simp only [ExitPc.next, ExitPc.effect]
      cases hp : σ.get .pendingMessages msg with
      | none =>
          exact h.reexit hback (by simp) (fun _ _ _ => rfl) (by simp [ExitPc.early])
            (fun _ => hp) (by simp)
      | some pending =>
          exact h.reexit hback (by simp) (fun _ _ _ => rfl) (fun _ => h.early rfl) (by simp)
            (by simp)
  | copied pending =>
      have hyes : isMove ((ExitPc.copied pending).prog (K.task f.sender) msg).next = true := rfl
      obtain ⟨htaken, hswept⟩ := hfree (by rw [hmove, hyes])
      rw [hyes, Bool.or_true]
      exact h.exitCopies hback htaken hswept
  | moved =>
      have hno : isMove (ExitPc.moved.prog (K.task f.sender) msg).next = false := rfl
      rw [hno, Bool.or_false]
      exact h.exitDeletes hback
  | leaving =>
      have hno : isMove (ExitPc.leaving.prog (K.task f.sender) msg).next = false := rfl
      rw [hno, Bool.or_false]
      simp only [ExitPc.next, ExitPc.effect]
      exact h.reexit hback (by simp)
        (fun m key hne => State.get_erase_of_ne _ fun hm => absurd hm hne) (by simp [ExitPc.early])
        (fun _ => h.cleared (Or.inl rfl)) fun _ => State.get_erase_self _ _ _
  | finished => exact absurd rfl hbusy

/-- One call of a consuming probe of the receiver `r`. -/
structure RecvCall (c : Ctrl) (K : Kernel T) (σ : State) (msg : UInt64) (f : Flight T)
    (q : RecvPc) (r : T) (b : Bool) (x : ConsumeArgs) : Prop where
  receiver : f.receiver = some r
  freeing : f.Freeing = !b
  state : (f.recvProg.advance Helper.run σ).2 = q.effect c msg b x σ
  flight : f.stepRecv K msg σ = { f with
    recv := .probe b ((q.next c (K.task r) msg σ).prog c (K.task r) msg b x)
    taken := f.taken || f.takesPending K msg σ
    found := f.found || (q.lookedUp = some .directMessages && (σ.get .directMessages msg).isSome)
    swept := f.swept || (!b && q.lookedUp = some .directMessages) }
  takes : f.takesPending K msg σ = (q.lookedUp = some .pendingMessages &&
    (σ.get .activeReceives (K.task r).pidTgid).isSome && (σ.get .pendingMessages msg).isSome)

theorem recvCall {q : RecvPc} (h : FlightInv K σ n k msg f p (some q)) :
    ∃ c r b x, RecvCall c K σ msg f q r b x := by
  obtain ⟨c, r, b, x, hr, hrecv⟩ := h.recvAt
  have hadv : (q.prog c (K.task r) msg b x).advance Helper.run σ =
      ((q.next c (K.task r) msg σ).prog c (K.task r) msg b x, q.effect c msg b x σ) :=
    q.advance_prog h.nonnull h.unqueued
  have hprog := Flight.recvProg_of_probe hrecv
  have hfree := Flight.freeing_of_probe hrecv
  refine ⟨c, r, b, x, hr, hfree, by rw [hprog, hadv], ?_, ?_⟩
  · simp only [Flight.stepRecv, hprog, hfree, RecvPc.looksUp_next h.nonnull, hrecv,
      Receiving.advance_probe, hadv]
  · simp only [Flight.takesPending, Flight.recorded, hprog, RecvPc.looksUp_next h.nonnull, hr,
      Option.any_some]

section Receiver

variable {q : RecvPc} {c : Ctrl} {r : T} {b : Bool} {x : ConsumeArgs}

/-- A lookup that does not lead to a deletion has not found the record. -/
theorem takesPending_of_miss (h : FlightInv K σ n k msg f p (some q))
    (call : RecvCall c K σ msg f q r b x) (hmiss : (q.next c (K.task r) msg σ).drops = false) :
    f.takesPending K msg σ = false := by
  rw [call.takes]
  cases q with
  | pend receiver =>
      rw [h.recorded r _ receiver call.receiver rfl rfl]
      cases receiver <;> cases hp : σ.get .pendingMessages msg <;>
        simp [RecvPc.next, RecvPc.drops, hp] at hmiss ⊢
  | start | unqueued | ready | dropDirect | dropPending | submit | event | unmatched | finished =>
      simp [RecvPc.lookedUp]

/-- The receiver goes on without touching the message maps or finding the record. -/
theorem recvPasses (h : FlightInv K σ n k msg f p (some q)) (call : RecvCall c K σ msg f q r b x)
    (hkeeps : q.drops = false) (hmiss : (q.next c (K.task r) msg σ).drops = false) :
    FlightInv K (q.effect c msg b x σ)
      (n + (deliveredCount (q.effect c msg b x σ) - deliveredCount σ))
      (k + ((q.effect c msg b x σ).rb.length - σ.rb.length)) msg (f.stepRecv K msg σ) p
      (some (q.next c (K.task r) msg σ)) := by
  have hget : ∀ m key, (q.effect c msg b x σ).get m key = σ.get m key :=
    q.get_effect hkeeps
  have hdirect : q.lookedUp = some .directMessages → σ.get .directMessages msg = none :=
    RecvPc.get_direct_of_miss hmiss
  have hfind : (decide (q.lookedUp = some .directMessages) &&
      (σ.get .directMessages msg).isSome) = false := by
    by_cases hl : q.lookedUp = some .directMessages
    · simp [hdirect hl]
    · simp [hl]
  rw [call.flight, h.takesPending_of_miss call hmiss, hfind, Bool.or_false, Bool.or_false]
  refine { h with
    unqueued := ?_
    recvAt := ⟨c, r, b, x, call.receiver, rfl⟩
    knows := ?_
    cleared := ?_
    left := ?_
    inRecv := ?_
    recorded := ?_
    finds := ?_
    direct := ?_
    unfound := ?_
    pending := ?_
    swept := ?_
    sweeps := ?_
    counted := ?_
    reported := ?_ }
  · rw [hget, h.unqueued]
  · intro hpc
    obtain ⟨hkey, hpend⟩ := h.knows hpc
    exact ⟨by rwa [hget], by rwa [hget, hget]⟩
  · rw [hget]
    exact h.cleared
  · rw [hget]
    exact h.left
  · intro hret
    obtain ⟨hf, hbusy⟩ := h.inRecv hret
    rw [call.freeing] at hf
    simp only [Option.all_some, Bool.not_eq_true'] at hbusy ⊢
    exact ⟨(Flight.freeing_of_probe rfl).trans hf, RecvPc.busy_next hbusy⟩
  · intro r' q'' receiver hr hq'' hrec
    obtain rfl := Option.some.inj (call.receiver.symm.trans hr)
    obtain rfl := Option.some.inj hq''
    rw [hget]
    rcases RecvPc.receiver_next hrec with rfl | hold
    · rfl
    · exact h.recorded r q receiver hr rfl hold
  · intro r d hq'
    rw [Option.some.inj hq'] at hmiss
    cases hmiss
  · intro hd
    rw [hget] at hd
    refine ⟨(h.direct hd).1, fun hf => ?_⟩
    obtain ⟨r, d, hq⟩ := (h.direct hd).2 hf
    obtain rfl := Option.some.inj hq
    cases hkeeps
  · rw [hget]
    exact h.unfound
  · intro ht hp
    rw [hget] at hp
    obtain ⟨r, d, hq⟩ := h.pending ht hp
    obtain rfl := Option.some.inj hq
    cases hkeeps
  · intro hs hmoved
    rcases Bool.or_eq_true_iff.mp hs with hs | hs
    · exact h.swept hs hmoved
    · -- the sweep has missed, so the record is no longer there
      by_contra hf
      refine h.unfound hmoved (by simpa using hf) (hdirect ?_)
      simpa using (Bool.and_eq_true_iff.mp hs).2
  · intro hf hq'
    rw [Option.all_some, Bool.not_eq_true'] at hq'
    rw [Flight.freeing_of_probe (b := b) rfl] at hf
    have hb : f.Freeing = true := call.freeing.trans hf
    cases hq : q.beforeSweep with
    | false => simp [h.sweeps hb (by simpa using hq)]
    | true => simp [hf, RecvPc.lookedUp_of_beforeSweep hq hq']
  · refine le_trans ?_ h.counted
    by_cases hl : q.lookedUp = none
    · have howed : deliveredCount (q.effect c msg b x σ) - deliveredCount σ +
          (q.next c (K.task r) msg σ).owes ≤ q.owes := q.deliveredCount_effect hl
      simp only [Option.elim_some]
      omega
    · simp [RecvPc.effect_of_lookedUp hl, (RecvPc.owes_next_of_miss hl hmiss).1]
  · refine le_trans ?_ h.reported
    by_cases hl : q.lookedUp = none
    · have howed : (q.effect c msg b x σ).rb.length - σ.rb.length +
          (q.next c (K.task r) msg σ).owesEvent ≤ q.owesEvent := q.length_rb_effect hl
      simp only [Option.elim_some]
      omega
    · simp [RecvPc.effect_of_lookedUp hl, (RecvPc.owes_next_of_miss hl hmiss).2]

theorem recvFindsDirect {receiver : Option RecvCtx} {direct : PendingMsg}
    (h : FlightInv K σ n k msg f p (some (.ready receiver)))
    (call : RecvCall c K σ msg f (.ready receiver) r b x)
    (hd : σ.get .directMessages msg = some direct) :
    FlightInv K σ n k msg (f.stepRecv K msg σ) p (some (.dropDirect receiver direct)) := by
  have hne : σ.get .directMessages msg ≠ none := by simp [hd]
  obtain ⟨hmoved, hfound⟩ := h.direct hne
  have hnot : f.found = false := by
    by_contra hf
    obtain ⟨r, d, hq⟩ := hfound (by simpa using hf)
    cases hq
  have htaken := h.notBoth hmoved
  -- so nothing was delivered before
  have hn := h.counted
  have hk := h.reported
  simp only [htaken, hnot, Bool.or_self, Bool.false_eq_true, if_false, Option.elim_some] at hn hk
  have htake : f.takesPending K msg σ = false := by
    rw [call.takes]
    rfl
  have hnext : RecvPc.next c (K.task r) msg σ (.ready receiver) = .dropDirect receiver direct := by
    simp [RecvPc.next, hd]
  have hfinds : (f.found || (decide ((RecvPc.ready receiver).lookedUp = some .directMessages) &&
      (σ.get .directMessages msg).isSome)) = true := by
    simp [RecvPc.lookedUp, hd]
  rw [call.flight, htake, hnext, hfinds, Bool.or_false]
  refine { h with
    recvAt := ⟨c, r, b, x, call.receiver, rfl⟩
    inRecv := ?_
    recorded := ?_
    foundMoved := fun _ => hmoved
    finds := fun _ _ _ => rfl
    direct := fun _ => ⟨hmoved, fun _ => ?_⟩
    unfound := by simp
    pending := ?_
    swept := fun _ _ => rfl
    sweeps := ?_
    counted := ?_
    reported := ?_ }
  · intro hret
    have hbusy := (h.inRecv hret).2
    cases hbusy
  · intro r' q' receiver' hr' hq' hrec
    obtain rfl := Option.some.inj hq'
    cases hrec
  · exact ⟨receiver, direct, rfl⟩
  · exact fun ht => by simp [htaken] at ht
  · intro hf _
    rw [Flight.freeing_of_probe (b := b) rfl] at hf
    simp [hf, RecvPc.lookedUp]
  · cases receiver <;> simp [RecvPc.owes] <;> omega
  · cases receiver <;> simp [RecvPc.owesEvent] <;> omega

theorem recvFindsPending {receiver : RecvCtx} {direct : PendingMsg}
    (h : FlightInv K σ n k msg f p (some (.pend (some receiver))))
    (call : RecvCall c K σ msg f (.pend (some receiver)) r b x)
    (hp : σ.get .pendingMessages msg = some direct)
    (hfree : f.takesPending K msg σ = true → f.moved = false) :
    FlightInv K σ n k msg (f.stepRecv K msg σ) p (some (.dropPending receiver direct)) := by
  have hne : σ.get .pendingMessages msg ≠ none := by simp [hp]
  have htake : f.takesPending K msg σ = true := by
    rw [call.takes, h.recorded r _ _ call.receiver rfl rfl, hp]
    rfl
  have hmoved := hfree htake
  -- the exit has not written yet, so this is the first time the record is found
  have hfound : f.found = false := by
    by_contra hf
    have := h.foundMoved (by simpa using hf)
    simp [hmoved] at this
  have htaken : f.taken = false := by
    by_contra ht
    obtain ⟨r, d, hq⟩ := h.pending (by simpa using ht) hne
    cases hq
  have hn := h.counted
  have hk := h.reported
  simp only [htaken, hfound, Bool.or_self, Bool.false_eq_true, if_false, Option.elim_some] at hn hk
  have hnext : RecvPc.next c (K.task r) msg σ (.pend (some receiver)) =
      .dropPending receiver direct := by
    simp [RecvPc.next, hp]
  have hno : (RecvPc.pend (some receiver)).lookedUp ≠ some .directMessages := by
    simp [RecvPc.lookedUp]
  rw [call.flight, htake, hnext, decide_eq_false hno, Bool.false_and, Bool.and_false, Bool.or_false,
    Bool.or_false, Bool.or_true]
  refine { h with
    recvAt := ⟨c, r, b, x, call.receiver, rfl⟩
    inRecv := ?_
    recorded := ?_
    notBoth := ?_
    finds := by simp
    direct := ?_
    pending := ?_
    sweeps := ?_
    counted := ?_
    reported := ?_ }
  · intro hret
    have hbusy := (h.inRecv hret).2
    cases hbusy
  · intro r' q' receiver' hr' hq' hrec
    obtain rfl := Option.some.inj hq'
    cases hrec
  · exact fun hm => by simp [hmoved] at hm
  · exact fun hd => absurd (h.direct hd).1 (by simp [hmoved])
  · exact fun _ _ => ⟨receiver, direct, rfl⟩
  · intro hf _
    rw [Flight.freeing_of_probe (b := b) rfl] at hf
    exact h.sweeps (call.freeing.trans hf) rfl
  · simp [RecvPc.owes]
    omega
  · simp [RecvPc.owesEvent]
    omega

theorem stepRecv_of_drops (call : RecvCall c K σ msg f q r b x) (hq : q.drops = true) :
    f.stepRecv K msg σ = { f with
      recv := .probe b ((q.next c (K.task r) msg σ).prog c (K.task r) msg b x) } := by
  have hl : q.lookedUp = none := by
    cases q <;> simp [RecvPc.drops, RecvPc.lookedUp] at hq ⊢
  rw [call.flight, call.takes, hl]
  simp

theorem recvDropsDirect {receiver : Option RecvCtx} {direct : PendingMsg}
    (h : FlightInv K σ n k msg f p (some (.dropDirect receiver direct)))
    (call : RecvCall c K σ msg f (.dropDirect receiver direct) r b x) :
    FlightInv K (σ.erase .directMessages msg) n k msg (f.stepRecv K msg σ) p
      (some ((RecvPc.dropDirect receiver direct).next c (K.task r) msg σ)) := by
  have hfound := h.finds receiver direct rfl
  rw [stepRecv_of_drops call rfl]
  refine { h with
    unqueued := ?_
    recvAt := ⟨c, r, b, x, call.receiver, rfl⟩
    knows := ?_
    cleared := ?_
    left := ?_
    inRecv := ?_
    recorded := ?_
    finds := ?_
    direct := ?_
    unfound := ?_
    pending := ?_
    sweeps := ?_
    counted := ?_
    reported := ?_ }
  · simpa [State.get_erase_of_ne] using h.unqueued
  · intro hpc
    obtain ⟨hkey, hpend⟩ := h.knows hpc
    constructor
    · simpa [State.get_erase_of_ne] using hkey
    · simpa [State.get_erase_of_ne] using hpend
  · simpa [State.get_erase_of_ne] using h.cleared
  · simpa [State.get_erase_of_ne] using h.left
  · intro hret
    have hbusy := (h.inRecv hret).2
    cases hbusy
  · intro r' q' receiver' hr' hq' hrec
    obtain rfl := Option.some.inj hq'
    cases receiver <;> cases hrec
  · exact fun _ _ _ => hfound
  · simp
  · exact fun _ hf => by simp [hfound] at hf
  · intro ht hp
    obtain ⟨r, d, hq⟩ := h.pending ht (by simpa [State.get_erase_of_ne] using hp)
    cases hq
  · intro hf _
    rw [Flight.freeing_of_probe (b := b) rfl] at hf
    exact h.sweeps (call.freeing.trans hf) rfl
  · have hn := h.counted
    cases receiver with
    | none => simpa [RecvPc.next, RecvPc.owes] using hn
    | some receiver => exact hn
  · have hk := h.reported
    cases receiver with
    | none => simpa [RecvPc.next, RecvPc.owesEvent] using hk
    | some receiver => exact hk

theorem recvDropsPending {receiver : RecvCtx} {direct : PendingMsg}
    (h : FlightInv K σ n k msg f p (some (.dropPending receiver direct)))
    (call : RecvCall c K σ msg f (.dropPending receiver direct) r b x) :
    FlightInv K (σ.erase .pendingMessages msg) n k msg (f.stepRecv K msg σ) p
      (some (.submit receiver direct)) := by
  rw [stepRecv_of_drops call rfl]
  refine { h with
    unqueued := ?_
    recvAt := ⟨c, r, b, x, call.receiver, rfl⟩
    knows := ?_
    cleared := ?_
    left := ?_
    inRecv := ?_
    recorded := ?_
    finds := nofun
    direct := ?_
    unfound := ?_
    pending := ?_
    sweeps := ?_ }
  · simpa [State.get_erase_of_ne] using h.unqueued
  · intro hpc
    obtain ⟨hkey, -⟩ := h.knows hpc
    constructor
    · simpa [State.get_erase_of_ne] using hkey
    · simp
  · simp
  · simpa [State.get_erase_of_ne] using h.left
  · intro hret
    have hbusy := (h.inRecv hret).2
    cases hbusy
  · intro r' q' receiver' hr' hq' hrec
    obtain rfl := Option.some.inj hq'
    cases hrec
  · intro hd
    obtain ⟨hmoved, hfound⟩ := h.direct (by simpa [State.get_erase_of_ne] using hd)
    refine ⟨hmoved, fun hf => ?_⟩
    obtain ⟨r, d, hq⟩ := hfound hf
    cases hq
  · simpa [State.get_erase_of_ne] using h.unfound
  · simp
  · intro hf _
    rw [Flight.freeing_of_probe (b := b) rfl] at hf
    exact h.sweeps (call.freeing.trans hf) rfl

/-- One call of a consuming probe. -/
theorem stepRecv (h : FlightInv K σ n k msg f p (some q))
    (hfree : f.takesPending K msg σ = true → f.moved = false) :
    ∃ q', FlightInv K (f.recvProg.advance Helper.run σ).2
      (n + (deliveredCount (f.recvProg.advance Helper.run σ).2 - deliveredCount σ))
      (k + ((f.recvProg.advance Helper.run σ).2.rb.length - σ.rb.length)) msg
      (f.stepRecv K msg σ) p (some q') := by
  obtain ⟨c, r, b, x, call⟩ := h.recvCall
  rw [call.state]
  -- the record is deleted, found, or neither
  by_cases hq : q.drops = true
  · cases q with
    | dropDirect receiver direct =>
        refine ⟨(RecvPc.dropDirect receiver direct).next c (K.task r) msg σ, ?_⟩
        simpa [RecvPc.effect, deliveredCount, State.erase] using h.recvDropsDirect call
    | dropPending receiver direct =>
        refine ⟨.submit receiver direct, ?_⟩
        simpa [RecvPc.effect, deliveredCount, State.erase] using h.recvDropsPending call
    | start | unqueued | ready | pend | submit | event | unmatched | finished => cases hq
  by_cases hhit : (q.next c (K.task r) msg σ).drops = true
  · cases q with
    | ready receiver =>
        cases hd : σ.get .directMessages msg with
        | none => simp [RecvPc.next, hd, RecvPc.drops] at hhit
        | some direct => exact ⟨_, by simpa [RecvPc.effect] using h.recvFindsDirect call hd⟩
    | pend receiver =>
        cases hp : σ.get .pendingMessages msg with
        | none => simp [RecvPc.next, hp, RecvPc.drops] at hhit
        | some direct =>
            cases receiver with
            | none => simp [RecvPc.next, hp, RecvPc.drops] at hhit
            | some receiver =>
                exact ⟨_, by simpa [RecvPc.effect] using h.recvFindsPending call hp hfree⟩
    | submit receiver direct =>
        simp only [RecvPc.next] at hhit
        split_ifs at hhit <;> cases hhit
    | dropDirect | dropPending => exact absurd rfl hq
    | start | unqueued | event | unmatched | finished => cases hhit
  · exact ⟨_, h.recvPasses call (by simpa using hq) (by simpa using hhit)⟩

end Receiver

/-! ### The other steps -/

theorem handOver (h : FlightInv K σ n k msg f p q) (hr : f.receiver = none) (t : T) :
    FlightInv K σ n k msg { f with receiver := some t } p q := by
  cases q with
  | some q =>
      obtain ⟨c, r, b, x, hsome, -⟩ := h.recvAt
      simp [hr] at hsome
  | none =>
      exact { h with
        recorded := nofun }

theorem exitStart (h : FlightInv K σ n k msg f p q) (hexit : f.exit = none) :
    FlightInv K σ n k msg { f with exit := some (mqSendExit (K.task f.sender) 0 false) }
      (some .start) q := by
  have hp : p = none := by
    have hat := h.exitAt
    cases p with
    | none => rfl
    | some p => simp [hexit] at hat
  subst hp
  refine { h with
    exitAt := rfl
    recvAt := h.recvAt.of_eq rfl rfl
    knows := fun _ => h.knows (Or.inl rfl)
    early := fun _ => h.early rfl
    cleared := ?_
    left := nofun
    inSend := ?_ }
  · rintro (hpc | hpc) <;> cases hpc
  · intro hret
    cases h.inSend hret

theorem sendReturn (h : FlightInv K σ n k msg f p q) (hdone : f.exitDone = true) :
    p = some .finished ∧ FlightInv K σ n k msg { f with sendReturned := true } p q := by
  have hp : p = some .finished := by
    have hat := h.exitAt
    rw [Flight.exitDone] at hdone
    cases p with
    | none => simp [hat] at hdone
    | some p =>
        rw [hat] at hdone
        exact congrArg some (ExitPc.eq_finished hdone)
  refine ⟨hp, { h with
    recvAt := h.recvAt.of_eq rfl rfl
    left := nofun
    inSend := fun _ => hp }⟩

/-- The receiver starts a probe while it runs none. -/
theorem recvStart {r : T} (h : FlightInv K σ n k msg f p q) (hr : f.receiver = some r)
    (hbusy : q.all (fun q => !q.busy) = true) (hfree : f.Freeing = false) (c : Ctrl) (b : Bool)
    (x : ConsumeArgs) :
    FlightInv K σ n k msg { f with recv := .probe b (consumeMessage c (K.task r) msg b x) } p
      (some .start) := by
  refine { h with
    recvAt := ⟨c, r, b, x, hr, rfl⟩
    inRecv := ?_
    recorded := ?_
    finds := nofun
    direct := ?_
    pending := ?_
    sweeps := ?_
    counted := ?_
    reported := ?_ }
  · intro hret
    have := (h.inRecv hret).1
    simp [hfree] at this
  · intro r' q' receiver hr' hq' hrec
    obtain rfl := Option.some.inj hq'
    cases hrec
  · intro hd
    refine ⟨(h.direct hd).1, fun hf => ?_⟩
    obtain ⟨r, d, rfl⟩ := (h.direct hd).2 hf
    cases hbusy
  · intro ht hp
    obtain ⟨r, d, rfl⟩ := h.pending ht hp
    cases hbusy
  · intro _ hq
    cases hq
  · exact le_trans (Nat.le_add_right _ _) h.counted
  · exact le_trans (Nat.le_add_right _ _) h.reported

theorem not_busy_of_canFree (h : FlightInv K σ n k msg f p q) (hcan : f.recv.canFree = true) :
    q.all (fun q => !q.busy) = true ∧ f.Freeing = false := by
  cases q with
  | none =>
      have hw : f.recv = .waiting := h.recvAt
      exact ⟨rfl, by rw [Flight.Freeing, hw]⟩
  | some q =>
      obtain ⟨c, r, b, x, -, hprog⟩ := h.recvAt
      rw [hprog] at hcan
      cases b with
      | false => cases hcan
      | true =>
          refine ⟨?_, by rw [Flight.Freeing, hprog]; rfl⟩
          by_contra hb
          have hdone : (q.prog c (K.task r) msg true x).isDone = false :=
            RecvPc.isDone_of_busy h.nonnull (by simpa using hb)
          exact absurd hcan (by simpa [Receiving.probe, Receiving.canFree] using hdone)

theorem not_busy_of_freeDone (h : FlightInv K σ n k msg f p q) (hdone : f.freeDone = true) :
    f.Freeing = true ∧ q.all (fun q => !q.busy) = true := by
  constructor
  · rw [Flight.freeDone] at hdone
    rw [Flight.Freeing]
    cases hrecv : f.recv with
    | freeing p => rfl
    | waiting | storing => simp [hrecv] at hdone
  · cases q with
    | none => rfl
    | some q =>
        obtain ⟨c, r, b, x, -, hprog⟩ := h.recvAt
        by_contra hb
        have hbusy : (q.prog c (K.task r) msg b x).isDone = false :=
          RecvPc.isDone_of_busy h.nonnull (by simpa using hb)
        rw [Flight.freeDone, hprog] at hdone
        cases b <;> simp [Receiving.probe, hbusy] at hdone

theorem recvReturn {r : T} (h : FlightInv K σ n k msg f p q) (hdone : f.freeDone = true) :
    FlightInv K (σ.erase .activeReceives (K.task r).pidTgid) n k msg
      { f with recvReturned := true } p q := by
  obtain ⟨hfree, hbusy⟩ := h.not_busy_of_freeDone hdone
  refine { h with
    unqueued := ?_
    recvAt := h.recvAt.of_eq rfl rfl
    knows := ?_
    cleared := ?_
    left := ?_
    inRecv := fun _ => ⟨hfree, hbusy⟩
    recorded := ?_
    direct := ?_
    unfound := ?_
    pending := ?_ }
  · simpa [State.get_erase_of_ne] using h.unqueued
  · intro hpc
    obtain ⟨hkey, hpend⟩ := h.knows hpc
    constructor
    · simpa [State.get_erase_of_ne] using hkey
    · simpa [State.get_erase_of_ne] using hpend
  · simpa [State.get_erase_of_ne] using h.cleared
  · simpa [State.get_erase_of_ne] using h.left
  · intro r q' receiver hr hq' hrec
    rw [hq'] at hbusy
    cases q' <;> simp [RecvPc.receiver, RecvPc.busy] at hrec hbusy
  · simpa [State.get_erase_of_ne] using h.direct
  · simpa [State.get_erase_of_ne] using h.unfound
  · simpa [State.get_erase_of_ne] using h.pending

theorem received (h : FlightInv K σ n k msg f p q) (hdone : f.freeDone = true) :
    ∃ r, f.receiver = some r := by
  cases q with
  | none =>
      have hw : f.recv = .waiting := h.recvAt
      rw [Flight.freeDone, hw] at hdone
      cases hdone
  | some q =>
      obtain ⟨c, r, b, x, hr, -⟩ := h.recvAt
      exact ⟨r, hr⟩

/-- When both sides are finished nothing is left. -/
theorem gone (h : FlightInv K σ n k msg f p q) (hexit : f.exitDone = true)
    (hfree : f.freeDone = true) {m : Table} (hm : m.OfMessages) : σ.get m msg = none := by
  have hp := (h.sendReturn hexit).1
  obtain ⟨hfreeing, hbusy⟩ := h.not_busy_of_freeDone hfree
  rcases hm with rfl | rfl | rfl
  · exact h.cleared (Or.inr hp)
  · exact h.unqueued
  · by_contra hd
    obtain ⟨hmoved, hfound⟩ := h.direct hd
    -- `free_msg` has looked in `direct_messages`, after the move or before it
    have hswept : f.swept = true := h.sweeps hfreeing (by
      cases q with
      | none => rfl
      | some q => cases q <;> simp [RecvPc.busy, RecvPc.beforeSweep] at hbusy ⊢)
    obtain ⟨r, d, rfl⟩ := hfound (h.swept hswept hmoved)
    cases hbusy

end FlightInv

/-! ## All messages -/

structure Sound (K : Kernel T) (s : State × Race T) : Prop where
  flights : ∀ msg f, s.2.flights msg = some f → ∃ p q,
    FlightInv K s.1 (s.2.counted.count msg) (s.2.reported.count msg) msg f p q
  unknown : ∀ msg, s.2.flights msg = none → (∀ m : Table, m.OfMessages → s.1.get m msg = none) ∧
    s.2.counted.count msg = 0 ∧ s.2.reported.count msg = 0
  sending : ∀ msg f, s.2.flights msg = some f → f.sendReturned = false →
    s.2.sending f.sender = some (some msg)
  receiving : ∀ msg f r, s.2.flights msg = some f → f.receiver = some r →
    f.recvReturned = false → s.2.receiving r = some (some msg)
  idle : ∀ t, s.2.sending t = none → s.1.get .activeSends (K.task t).pidTgid = none
  entered : ∀ t, s.2.sending t = some none → ∀ send,
    s.1.get .activeSends (K.task t).pidTgid = some send → send.msgKey = 0
  counted : s.2.counted.length = deliveredCount s.1
  reported : s.2.reported.length = s.1.rb.length

theorem Sound.init (K : Kernel T) : Sound K (State.start, Race.start) where
  flights _ _ hf := by cases hf
  unknown _ _ := ⟨fun _ _ => State.get_start _ _, rfl, rfl⟩
  sending _ _ hf := by cases hf
  receiving _ _ _ hf := by cases hf
  idle _ _ := State.get_start _ _
  entered _ ht := by cases ht
  counted := rfl
  reported := rfl

namespace Sound

variable {K : Kernel T} {s : State × Race T} {msg : UInt64} {f f' : Flight T}

/-- A step that concerns the message `msg` and the threads that send and receive it. -/
theorem of_message (h : Sound K s) {σ : State} {g : Race T}
    (hflights : g.flights = Function.update s.2.flights msg (some f'))
    (hinv : ∃ p q, FlightInv K σ (g.counted.count msg) (g.reported.count msg) msg f' p q)
    (hcount : ∀ msg', msg' ≠ msg → g.counted.count msg' = s.2.counted.count msg' ∧
      g.reported.count msg' = s.2.reported.count msg')
    (hothers : ∀ t msg', msg' ≠ msg →
      (s.2.sending t = some (some msg') → g.sending t = some (some msg')) ∧
      (s.2.receiving t = some (some msg') → g.receiving t = some (some msg')))
    (hsender : f'.sendReturned = false → g.sending f'.sender = some (some msg))
    (hreceiver : ∀ r, f'.receiver = some r → f'.recvReturned = false →
      g.receiving r = some (some msg))
    (hidle : ∀ t, g.sending t = none →
      s.2.sending t = none ∨ σ.get .activeSends (K.task t).pidTgid = none)
    (hentered : ∀ t, g.sending t = some none → s.2.sending t = some none)
    (hget : ∀ (m : Table) key, m.OfMessages → key ≠ msg → σ.get m key = s.1.get m key)
    (hsends : ∀ t, g.sending t ≠ some (some msg) →
      σ.get .activeSends (K.task t).pidTgid = s.1.get .activeSends (K.task t).pidTgid)
    (hrecvs : ∀ t, s.2.receiving t ≠ some (some msg) →
      σ.get .activeReceives (K.task t).pidTgid = s.1.get .activeReceives (K.task t).pidTgid)
    (hcounted : g.counted.length = deliveredCount σ) (hreported : g.reported.length = σ.rb.length) :
    Sound K (σ, g) := by
  have hcases : ∀ msg' f₁, g.flights msg' = some f₁ →
      (msg' = msg ∧ f₁ = f') ∨ (msg' ≠ msg ∧ s.2.flights msg' = some f₁) := by
    intro msg' f₁ hf₁
    rw [hflights] at hf₁
    by_cases hm : msg' = msg
    · subst hm
      rw [Function.update_self] at hf₁
      exact Or.inl ⟨rfl, (Option.some.inj hf₁).symm⟩
    · rw [Function.update_of_ne hm] at hf₁
      exact Or.inr ⟨hm, hf₁⟩
  refine ⟨?_, ?_, ?_, ?_, ?_, ?_, hcounted, hreported⟩
  · intro msg' f₁ hf₁
    rcases hcases msg' f₁ hf₁ with ⟨rfl, rfl⟩ | ⟨hm, hf₁⟩
    · exact hinv
    · -- another message: its sender and its receiver are other threads
      obtain ⟨p, q, hold⟩ := h.flights msg' f₁ hf₁
      refine ⟨p, q, ?_⟩
      rw [(hcount msg' hm).1, (hcount msg' hm).2]
      refine hold.frame (fun m hmsgs => hget m msg' hmsgs hm) (fun hret => hsends _ ?_)
        fun r hr hret => hrecvs r ?_
      · simpa [(hothers _ msg' hm).1 (h.sending msg' f₁ hf₁ hret)] using hm
      · simpa [h.receiving msg' f₁ r hf₁ hr hret] using hm
  · intro msg' hnone
    have hm : msg' ≠ msg := by
      rintro rfl
      simp [hflights] at hnone
    rw [hflights, Function.update_of_ne hm] at hnone
    obtain ⟨htables, hc, hr⟩ := h.unknown msg' hnone
    rw [(hcount msg' hm).1, (hcount msg' hm).2]
    exact ⟨fun m hmsgs => (hget m msg' hmsgs hm).trans (htables m hmsgs), hc, hr⟩
  · intro msg' f₁ hf₁ hret
    rcases hcases msg' f₁ hf₁ with ⟨rfl, rfl⟩ | ⟨hm, hf₁⟩
    · exact hsender hret
    · exact (hothers _ msg' hm).1 (h.sending msg' f₁ hf₁ hret)
  · intro msg' f₁ r hf₁ hr hret
    rcases hcases msg' f₁ hf₁ with ⟨rfl, rfl⟩ | ⟨hm, hf₁⟩
    · exact hreceiver r hr hret
    · exact (hothers _ msg' hm).2 (h.receiving msg' f₁ r hf₁ hr hret)
  · intro t ht
    change g.sending t = none at ht
    rcases hidle t ht with hold | hnone
    · exact (hsends t (by simp [ht])).trans (h.idle t hold)
    · exact hnone
  · intro t ht send hsend
    change g.sending t = some none at ht
    rw [hsends t (by simp [ht])] at hsend
    exact h.entered t (hentered t ht) send hsend

/-- A step that changes neither who sends nor who receives. -/
theorem of_flight (h : Sound K s) (hf : s.2.flights msg = some f) {σ : State} {g : Race T}
    (hflights : g.flights = Function.update s.2.flights msg (some f'))
    (hcalls : g.sending = s.2.sending ∧ g.receiving = s.2.receiving)
    (hsame : f'.sender = f.sender ∧ f'.receiver = f.receiver ∧
      f'.sendReturned = f.sendReturned ∧ f'.recvReturned = f.recvReturned)
    (hinv : ∃ p q, FlightInv K σ (g.counted.count msg) (g.reported.count msg) msg f' p q)
    (hcount : ∀ msg', msg' ≠ msg → g.counted.count msg' = s.2.counted.count msg' ∧
      g.reported.count msg' = s.2.reported.count msg')
    (hget : ∀ (m : Table) key, m.OfMessages → key ≠ msg → σ.get m key = s.1.get m key)
    (hsends : ∀ t, s.2.sending t ≠ some (some msg) →
      σ.get .activeSends (K.task t).pidTgid = s.1.get .activeSends (K.task t).pidTgid)
    (hrecvs : ∀ key, σ.get .activeReceives key = s.1.get .activeReceives key)
    (hcounted : g.counted.length = deliveredCount σ) (hreported : g.reported.length = σ.rb.length) :
    Sound K (σ, g) := by
  rcases hcalls with ⟨hsending, hreceiving⟩
  rcases hsame with ⟨hsender, hreceiver, hsret, hrret⟩
  refine h.of_message hflights hinv hcount ?_ ?_ ?_ ?_ ?_ hget ?_ (fun t _ => hrecvs _) hcounted
    hreported
  · intro t msg' _
    rw [hsending, hreceiving]
    exact ⟨id, id⟩
  · rw [hsender, hsret, hsending]
    exact h.sending msg f hf
  · rw [hreceiver, hrret, hreceiving]
    exact fun r => h.receiving msg f r hf
  · intro t ht
    exact Or.inl (by rwa [hsending] at ht)
  · intro t ht
    rwa [hsending] at ht
  · rwa [hsending]

/-- A step that only changes how far one of the two probes has come. -/
theorem of_pc (h : Sound K s) (hf : s.2.flights msg = some f)
    (hsame : f'.sender = f.sender ∧ f'.receiver = f.receiver ∧
      f'.sendReturned = f.sendReturned ∧ f'.recvReturned = f.recvReturned)
    (hinv : ∃ p q, FlightInv K s.1 (s.2.counted.count msg) (s.2.reported.count msg) msg f' p q) :
    Sound K (s.1, { s.2 with flights := Function.update s.2.flights msg (some f') }) :=
  h.of_flight hf rfl ⟨rfl, rfl⟩ hsame hinv (fun _ _ => ⟨rfl, rfl⟩) (fun _ _ _ _ => rfl)
    (fun _ _ => rfl) (fun _ => rfl) h.counted h.reported

/-- One call of a probe for `msg`. -/
theorem of_call (h : Sound K s) (hf : s.2.flights msg = some f) {σ : State}
    (hsame : f'.sender = f.sender ∧ f'.receiver = f.receiver ∧
      f'.sendReturned = f.sendReturned ∧ f'.recvReturned = f.recvReturned)
    (hinv : ∃ p q, FlightInv K σ (s.2.counted.count msg + (deliveredCount σ - deliveredCount s.1))
      (s.2.reported.count msg + (σ.rb.length - s.1.rb.length)) msg f' p q)
    (hget : ∀ (m : Table) key, m.OfMessages → key ≠ msg → σ.get m key = s.1.get m key)
    (hsends : ∀ t, s.2.sending t ≠ some (some msg) →
      σ.get .activeSends (K.task t).pidTgid = s.1.get .activeSends (K.task t).pidTgid)
    (hrecvs : ∀ key, σ.get .activeReceives key = s.1.get .activeReceives key)
    (hcounted : deliveredCount s.1 ≤ deliveredCount σ)
    (hreported : s.1.rb.length ≤ σ.rb.length) :
    Sound K (σ, Race.record
      { s.2 with flights := Function.update s.2.flights msg (some f') } msg s.1 σ) := by
  refine h.of_flight hf rfl ⟨rfl, rfl⟩ hsame ?_ ?_ hget hsends hrecvs ?_ ?_
  · simpa [Race.record] using hinv
  · intro msg' hm
    simp [Race.record, List.count_replicate, Ne.symm hm]
  · simp only [Race.record, List.length_append, List.length_replicate, h.counted]
    omega
  · simp only [Race.record, List.length_append, List.length_replicate, h.reported]
    omega

end Sound

/-! ## The steps -/

section Steps

variable {K : Kernel T} {s : State × Race T} {msg : UInt64} {f : Flight T} [DecidableEq T]

theorem sound_exitStart (h : Sound K s) (hf : s.2.flights msg = some f) (hexit : f.exit = none) :
    Sound K (step K s (.exitStart msg)) := by
  obtain ⟨p, q, hinv⟩ := h.flights msg f hf
  simp only [step, Race.modify_eq hf]
  exact h.of_pc hf ⟨rfl, rfl, rfl, rfl⟩ ⟨_, _, hinv.exitStart hexit⟩

theorem sound_exitHelper (h : Sound K s) (hf : s.2.flights msg = some f)
    (hnext : f.exitProg.next.isSome = true)
    (hfree : isMove f.exitProg.next = true → f.taken = false ∧ f.swept = false) :
    Sound K (step K s (.exitHelper msg)) := by
  obtain ⟨p, q, hinv⟩ := h.flights msg f hf
  cases p with
  | none =>
      rw [Flight.exitProg, hinv.exitAt] at hnext
      cases hnext
  | some p =>
      have hbusy : p ≠ .finished := by
        rintro rfl
        rw [hinv.exitProg_eq] at hnext
        cases hnext
      have hback : f.sendReturned = false := by
        by_contra hret
        exact hbusy (Option.some.inj (hinv.inSend (by simpa using hret)))
      obtain ⟨hcnt, hrb⟩ := p.effect_delivers_nothing (K.task f.sender) msg s.1
      simp only [step, hf, Race.modify_eq hf, hinv.advance_exitProg]
      refine h.of_call hf ⟨rfl, rfl, rfl, rfl⟩ ?_ ?_ ?_ ?_ hcnt.ge (by rw [hrb])
      · rw [hcnt, hrb, Nat.sub_self, Nat.sub_self]
        exact ⟨_, _, hinv.stepExit hback hbusy hfree⟩
      · intro m key hm hne
        refine p.get_effect_of_ne _ _ (fun _ => hne) ?_
        rintro rfl
        simp [Table.OfMessages] at hm
      · intro t ht
        refine p.get_effect_of_ne _ _ (by simp [Table.OfMessages]) fun _ => K.pidTgid_ne ?_
        rintro rfl
        exact ht (h.sending msg f hf hback)
      · intro key
        exact p.get_effect_of_ne _ _ (by simp [Table.OfMessages]) nofun

theorem sound_recvHelper (h : Sound K s) (hf : s.2.flights msg = some f)
    (hnext : f.recvProg.next.isSome = true)
    (hfree : f.takesPending K msg s.1 = true → f.moved = false) :
    Sound K (step K s (.recvHelper msg)) := by
  obtain ⟨p, q, hinv⟩ := h.flights msg f hf
  cases q with
  | none =>
      have hw : f.recv = .waiting := hinv.recvAt
      rw [Flight.recvProg, hw] at hnext
      cases hnext
  | some q =>
      obtain ⟨q', hinv'⟩ := hinv.stepRecv hfree
      obtain ⟨c, r, b, x, call⟩ := hinv.recvCall
      obtain ⟨hcnt, hrb⟩ : deliveredCount s.1 ≤ deliveredCount (q.effect c msg b x s.1) ∧
          s.1.rb.length ≤ (q.effect c msg b x s.1).rb.length := q.le_effect s.1
      simp only [step, hf, Race.modify_eq hf]
      rw [call.state] at hinv' ⊢
      refine h.of_call hf ⟨rfl, rfl, rfl, rfl⟩ ⟨_, _, hinv'⟩ ?_ ?_ ?_ hcnt hrb
      · exact fun m key _ hne => q.get_effect_of_ne fun _ => hne
      · exact fun t _ => q.get_effect_of_ne (by simp [Table.OfMessages])
      · exact fun key => q.get_effect_of_ne (by simp [Table.OfMessages])

theorem sound_storeStart {r : T} (h : Sound K s) (hf : s.2.flights msg = some f)
    (hr : f.receiver = some r) (hwait : f.recv.isWaiting = true) (c : Ctrl) (x : ConsumeArgs) :
    Sound K (step K s (.storeStart msg c x)) := by
  obtain ⟨p, q, hinv⟩ := h.flights msg f hf
  have hcan : f.recv.canFree = true := by
    cases hrecv : f.recv with
    | waiting => rfl
    | storing | freeing => simp [hrecv, Receiving.isWaiting] at hwait
  obtain ⟨hbusy, hfree⟩ := hinv.not_busy_of_canFree hcan
  have hstep : step K s (.storeStart msg c x) = (s.1, { s.2 with
      flights := Function.update s.2.flights msg
        (some { f with recv := .storing (mqStoreMsgEnter c (K.task r) msg x) }) }) := by
    simp only [step, Race.modify_eq hf, hr]
  rw [hstep]
  exact h.of_pc hf ⟨rfl, rfl, rfl, rfl⟩ ⟨_, _, hinv.recvStart hr hbusy hfree c true x⟩

theorem sound_freeStart {r : T} (h : Sound K s) (hf : s.2.flights msg = some f)
    (hr : f.receiver = some r) (hcan : f.recv.canFree = true) (c : Ctrl) (x : ConsumeArgs) :
    Sound K (step K s (.freeStart msg c x)) := by
  obtain ⟨p, q, hinv⟩ := h.flights msg f hf
  obtain ⟨hbusy, hfree⟩ := hinv.not_busy_of_canFree hcan
  have hstep : step K s (.freeStart msg c x) = (s.1, { s.2 with
      flights := Function.update s.2.flights msg
        (some { f with recv := .freeing (mqFreeMsgEnter c (K.task r) msg x) }) }) := by
    simp only [step, Race.modify_eq hf, hr]
  rw [hstep]
  exact h.of_pc hf ⟨rfl, rfl, rfl, rfl⟩ ⟨_, _, hinv.recvStart hr hbusy hfree c false x⟩

theorem sound_handOver {t : T} (h : Sound K s) (hf : s.2.flights msg = some f)
    (hr : f.receiver = none) (ht : s.2.receiving t = some none) :
    Sound K (step K s (.handOver msg t)) := by
  obtain ⟨p, q, hinv⟩ := h.flights msg f hf
  simp only [step, Race.modify_eq hf]
  refine h.of_message rfl ⟨p, q, hinv.handOver hr t⟩ (fun _ _ => ⟨rfl, rfl⟩) ?_
    (h.sending msg f hf) ?_ (fun _ => Or.inl) (fun _ => id) (fun _ _ _ _ => rfl) (fun _ _ => rfl)
    (fun _ _ => rfl) h.counted h.reported
  · intro t' msg' hm
    refine ⟨id, fun ht' => ?_⟩
    have hne : t' ≠ t := by
      rintro rfl
      simp [ht] at ht'
    simpa only [Function.update_of_ne hne] using ht'
  · intro r hr' _
    obtain rfl := Option.some.inj hr'
    exact Function.update_self ..

theorem sound_sendReturn (h : Sound K s) (hf : s.2.flights msg = some f)
    (hdone : f.exitDone = true) (hback : f.sendReturned = false) :
    Sound K (step K s (.sendReturn msg)) := by
  obtain ⟨p, q, hinv⟩ := h.flights msg f hf
  obtain ⟨hp, hinv'⟩ := hinv.sendReturn hdone
  have hself := h.sending msg f hf hback
  simp only [step, hf, Race.modify_eq hf]
  refine h.of_message rfl ⟨p, q, hinv'⟩ (fun _ _ => ⟨rfl, rfl⟩) ?_ nofun
    (fun r => h.receiving msg f r hf) ?_ ?_ (fun _ _ _ _ => rfl) (fun _ _ => rfl) (fun _ _ => rfl)
    h.counted h.reported
  · intro t msg' hm
    refine ⟨fun ht => ?_, id⟩
    have hne : t ≠ f.sender := by
      rintro rfl
      simp [hself, Ne.symm hm] at ht
    simpa only [Function.update_of_ne hne] using ht
  · intro t ht
    by_cases hne : t = f.sender
    · -- the exit probe has deleted the context
      subst hne
      exact Or.inr (hinv.left hp hback)
    · exact Or.inl (by simpa only [Function.update_of_ne hne] using ht)
  · intro t ht
    by_cases hne : t = f.sender
    · subst hne
      simp at ht
    · simpa only [Function.update_of_ne hne] using ht

theorem sound_recvReturn {r : T} (h : Sound K s) (hf : s.2.flights msg = some f)
    (hr : f.receiver = some r) (hdone : f.freeDone = true) (hback : f.recvReturned = false) :
    Sound K (step K s (.recvReturn msg)) := by
  obtain ⟨p, q, hinv⟩ := h.flights msg f hf
  have hself := h.receiving msg f r hf hr hback
  simp only [step, hf, Option.bind_some, hr, Race.modify_eq hf, run_mqRecvExit]
  refine h.of_message rfl ⟨p, q, ?_⟩ (fun _ _ => ⟨rfl, rfl⟩) ?_
    (h.sending msg f hf) (fun _ _ => nofun) (fun _ => Or.inl) (fun _ => id) ?_ ?_ ?_ h.counted
    h.reported
  · have hinv' := hinv.recvReturn (r := r) hdone
    rwa [hr] at hinv'
  · intro t msg' hm
    refine ⟨id, fun ht => ?_⟩
    have hne : t ≠ r := by
      rintro rfl
      simp [hself, Ne.symm hm] at ht
    simpa only [Function.update_of_ne hne] using ht
  · intro m key hm _
    refine State.get_erase_of_ne _ ?_
    rintro rfl
    simp [Table.OfMessages] at hm
  · exact fun t _ => State.get_erase_of_ne _ nofun
  · intro t ht
    refine State.get_erase_of_ne _ fun _ => K.pidTgid_ne ?_
    rintro rfl
    exact ht hself

omit [DecidableEq T] in
theorem flightInv_new {t : T} (h : Sound K s) (ht : s.2.sending t = some none)
    (hvalid : validMsgPtr msg = true) (hnew : s.2.flights msg = none) :
    FlightInv K (run (mqLoadMsgExit (K.task t) msg false) s.1) 0 0 msg (Flight.new t)
      none none := by
  obtain ⟨hget, hkey⟩ := get_run_mqLoadMsgExit (K.task t) msg false s.1
  obtain ⟨hnone, -, -⟩ := h.unknown msg hnew
  have hdirect : (run (mqLoadMsgExit (K.task t) msg false) s.1).get .directMessages msg = none :=
    (hget .directMessages _ nofun nofun).trans (hnone _ (by simp [Table.OfMessages]))
  refine ⟨?_, ?_, rfl, rfl, ?_, fun _ => rfl, ?_, nofun, nofun, nofun, nofun, nofun, nofun, nofun,
    ?_, nofun, nofun, nofun, nofun, le_rfl, le_rfl⟩
  · rintro rfl
    cases hvalid
  · exact (hget .queuedMessages _ nofun nofun).trans (hnone _ (by simp [Table.OfMessages]))
  · intro _
    rcases hkey with ⟨send, hsend, hmsg⟩ | hsame
    · refine ⟨fun send' hsend' => Or.inr ?_, fun _ => ⟨send, hsend, hmsg⟩⟩
      rw [← Option.some.inj (hsend.symm.trans hsend'), hmsg]
    · -- the send is not recorded, so the message is not either
      have hget' : ∀ m key, (run (mqLoadMsgExit (K.task t) msg false) s.1).get m key =
          s.1.get m key := by
        rcases hsame with hsame | hsame
        · exact fun m key => by rw [hsame]
        · exact fun m key => by rw [hsame, State.get_add]
      refine ⟨fun send hsend => Or.inl (h.entered t ht send (by rwa [hget'] at hsend)), ?_⟩
      intro hp
      rw [hget'] at hp
      exact absurd (hnone _ (by simp [Table.OfMessages])) hp
  · rintro (hpc | hpc) <;> cases hpc
  · exact fun hd => absurd hdirect hd

theorem loadMsg_delivers_nothing (cur : Task) (msg : UInt64) (σ : State) :
    deliveredCount (run (mqLoadMsgExit cur msg false) σ) = deliveredCount σ ∧
      (run (mqLoadMsgExit cur msg false) σ).rb = σ.rb := by
  by_cases hun : validMsgPtr msg = false ∨ σ.get .activeSends cur.pidTgid = none
  · rw [run_mqLoadMsgExit_untracked false hun]
    exact ⟨rfl, rfl⟩
  · obtain ⟨hv, hsend⟩ := not_or.mp hun
    obtain ⟨send, hsend⟩ := Option.ne_none_iff_exists'.mp hsend
    rw [run_mqLoadMsgExit false (by simpa using hv) hsend]
    exact ⟨rfl, rfl⟩

theorem sound_loadMsg {t : T} (h : Sound K s) (ht : s.2.sending t = some none)
    (hvalid : validMsgPtr msg = true) (hnew : s.2.flights msg = none) :
    Sound K (step K s (.loadMsg t msg)) := by
  obtain ⟨hget, -⟩ := get_run_mqLoadMsgExit (K.task t) msg false s.1
  obtain ⟨-, hc, hk⟩ := h.unknown msg hnew
  obtain ⟨hcnt, hrb⟩ := loadMsg_delivers_nothing (K.task t) msg s.1
  have hother : ∀ t', s.2.sending t' ≠ some none →
      Function.update s.2.sending t (some (some msg)) t' = s.2.sending t' := by
    intro t' ht'
    refine Function.update_of_ne ?_ _ _
    rintro rfl
    exact ht' ht
  have hself : ∀ {t' v}, Function.update s.2.sending t (some (some msg)) t' = v →
      v ≠ some (some msg) → t' ≠ t ∧ s.2.sending t' = v := by
    rintro t' v rfl hv
    have hne : t' ≠ t := by
      rintro rfl
      exact hv (Function.update_self ..)
    exact ⟨hne, (Function.update_of_ne hne _ _).symm⟩
  simp only [step]
  refine h.of_message rfl ⟨none, none, ?_⟩ (fun _ _ => ⟨rfl, rfl⟩) ?_ ?_ nofun ?_ ?_ ?_ ?_ ?_
    (by rw [hcnt]; exact h.counted) (by rw [hrb]; exact h.reported)
  · rw [hc, hk]
    exact flightInv_new h ht hvalid hnew
  · intro t' msg' _
    exact ⟨fun ht' => (hother t' (by simp [ht'])).trans ht', id⟩
  · exact fun _ => Function.update_self ..
  · exact fun t' ht' => Or.inl (hself ht' nofun).2
  · exact fun t' ht' => (hself ht' nofun).2
  · intro m key hm hne
    refine hget m key ?_ fun _ => hne
    rintro rfl
    simp [Table.OfMessages] at hm
  · intro t' ht'
    exact hget _ _ (fun _ => K.pidTgid_ne (hself rfl ht').1) nofun
  · exact fun t' _ => hget _ _ nofun nofun

omit [DecidableEq T] in
/-- A step outside of the messages' calls. -/
theorem Sound.of_enter (h : Sound K s) {σ : State} {g : Race T} (hflights : g.flights = s.2.flights)
    (hlists : g.counted = s.2.counted ∧ g.reported = s.2.reported)
    (hcalls : ∀ t msg, (s.2.sending t = some (some msg) → g.sending t = some (some msg)) ∧
      (s.2.receiving t = some (some msg) → g.receiving t = some (some msg)))
    (hidle : ∀ t, g.sending t = none → s.2.sending t = none ∧
      σ.get .activeSends (K.task t).pidTgid = s.1.get .activeSends (K.task t).pidTgid)
    (hentered : ∀ t, g.sending t = some none → ∀ send,
      σ.get .activeSends (K.task t).pidTgid = some send → send.msgKey = 0)
    (hget : ∀ (m : Table) key, m.OfMessages → σ.get m key = s.1.get m key)
    (hsends : ∀ t msg, s.2.sending t = some (some msg) →
      σ.get .activeSends (K.task t).pidTgid = s.1.get .activeSends (K.task t).pidTgid)
    (hrecvs : ∀ t msg, s.2.receiving t = some (some msg) →
      σ.get .activeReceives (K.task t).pidTgid = s.1.get .activeReceives (K.task t).pidTgid)
    (htotal : deliveredCount σ = deliveredCount s.1 ∧ σ.rb = s.1.rb) : Sound K (σ, g) := by
  refine ⟨?_, ?_, ?_, ?_, ?_, hentered, ?_, ?_⟩
  · intro msg f hf
    replace hf : s.2.flights msg = some f := by rw [← hflights]; exact hf
    obtain ⟨p, q, hinv⟩ := h.flights msg f hf
    refine ⟨p, q, ?_⟩
    rw [hlists.1, hlists.2]
    exact hinv.frame (fun m hm => hget m msg hm)
      (fun hret => hsends _ msg (h.sending msg f hf hret))
      fun r hr hret => hrecvs r msg (h.receiving msg f r hf hr hret)
  · intro msg hnone
    replace hnone : s.2.flights msg = none := by rw [← hflights]; exact hnone
    obtain ⟨htables, hc, hr⟩ := h.unknown msg hnone
    rw [hlists.1, hlists.2]
    exact ⟨fun m hm => (hget m msg hm).trans (htables m hm), hc, hr⟩
  · intro msg f hf hret
    replace hf : s.2.flights msg = some f := by rw [← hflights]; exact hf
    exact (hcalls _ msg).1 (h.sending msg f hf hret)
  · intro msg f r hf hr hret
    replace hf : s.2.flights msg = some f := by rw [← hflights]; exact hf
    exact (hcalls _ msg).2 (h.receiving msg f r hf hr hret)
  · intro t ht
    exact (hidle t ht).2.trans (h.idle t (hidle t ht).1)
  · rw [hlists.1, htotal.1]
    exact h.counted
  · rw [hlists.2, htotal.2]
    exact h.reported

theorem sound_sendEnter {t : T} (h : Sound K s) (ht : s.2.sending t = none) (c : Ctrl)
    (a : SendArgs) : Sound K (step K s (.sendEnter t c a)) := by
  obtain ⟨hget, hkey⟩ := get_run_mqSendEnter c (K.task t) a s.1
  have hother : ∀ {t'}, t' ≠ t →
      (run (mqSendEnter c (K.task t) a) s.1).get .activeSends (K.task t').pidTgid =
        s.1.get .activeSends (K.task t').pidTgid :=
    fun hne => hget _ _ fun _ => K.pidTgid_ne hne
  have hne : ∀ {t' msg}, s.2.sending t' = some (some msg) → t' ≠ t := by
    rintro t' msg ht' rfl
    simp [ht] at ht'
  simp only [step]
  refine h.of_enter rfl ⟨rfl, rfl⟩ ?_ ?_ ?_ ?_ ?_ (fun _ _ _ => hget _ _ nofun) ?_
  · intro t' msg
    exact ⟨fun ht' => (Function.update_of_ne (hne ht') _ _).trans ht', id⟩
  · intro t' ht'
    have hne' : t' ≠ t := by
      rintro rfl
      simp at ht'
    exact ⟨by simpa only [Function.update_of_ne hne'] using ht', hother hne'⟩
  · intro t' ht' send hsend
    by_cases hte : t' = t
    · subst hte
      rcases hkey send hsend with hold | hz
      · simp [h.idle t' ht] at hold
      · exact hz
    · rw [hother hte] at hsend
      exact h.entered t' (by simpa only [Function.update_of_ne hte] using ht') send hsend
  · intro m key hm
    apply hget m key
    rintro rfl
    simp [Table.OfMessages] at hm
  · exact fun t' msg ht' => hother (hne ht')
  · rw [run_mqSendEnter]
    split_ifs <;> exact ⟨rfl, rfl⟩

theorem sound_recvEnter {t : T} (h : Sound K s) (ht : s.2.receiving t = none) (c : Ctrl)
    (a : RecvArgs) : Sound K (step K s (.recvEnter t c a)) := by
  have hget : ∀ (m : Table) key, (m = .activeReceives → key ≠ (K.task t).pidTgid) →
      (run (mqRecvEnter c (K.task t) a) s.1).get m key = s.1.get m key := by
    intro m key hne
    rw [run_mqRecvEnter]
    split_ifs
    · rfl
    · rfl
    · exact State.get_put_of_ne _ _ hne
  have hne : ∀ {t' msg}, s.2.receiving t' = some (some msg) → t' ≠ t := by
    rintro t' msg ht' rfl
    simp [ht] at ht'
  simp only [step]
  refine h.of_enter rfl ⟨rfl, rfl⟩ ?_ ?_ ?_ ?_ (fun _ _ _ => hget _ _ nofun) ?_ ?_
  · intro t' msg
    exact ⟨id, fun ht' => (Function.update_of_ne (hne ht') _ _).trans ht'⟩
  · exact fun t' ht' => ⟨ht', hget _ _ nofun⟩
  · intro t' ht' send hsend
    rw [hget .activeSends _ nofun] at hsend
    exact h.entered t' ht' send hsend
  · intro m key hm
    apply hget m key
    rintro rfl
    simp [Table.OfMessages] at hm
  · exact fun t' msg ht' => hget _ _ fun _ => K.pidTgid_ne (hne ht')
  · rw [run_mqRecvEnter]
    split_ifs <;> exact ⟨rfl, rfl⟩

theorem sound_step {e : Step T} (h : Sound K s) (ha : (handovers K).Allowed s e)
    (hu : Uncrossed K s e) : Sound K (step K s e) := by
  replace ha : s.2.Allows e = true := ha
  cases e with
  | sendEnter t c a =>
      simp only [Race.Allows, Bool.and_eq_true, decide_eq_true_eq] at ha
      exact sound_sendEnter h ha.1.1 c a
  | recvEnter t c a =>
      simp only [Race.Allows, Bool.and_eq_true, decide_eq_true_eq] at ha
      exact sound_recvEnter h ha.1.2 c a
  | loadMsg t msg =>
      simp only [Race.Allows, Bool.and_eq_true, decide_eq_true_eq, Option.isNone_iff_eq_none] at ha
      exact sound_loadMsg h ha.1.1 ha.1.2 ha.2
  | handOver msg t =>
      simp only [Race.Allows, Bool.and_eq_true, decide_eq_true_eq, Option.any_eq_true] at ha
      rcases ha with ⟨⟨f, hf, hr⟩, ht⟩
      exact sound_handOver h hf (Option.isNone_iff_eq_none.mp hr) ht
  | exitStart msg =>
      simp only [Race.Allows, Option.any_eq_true, Bool.and_eq_true] at ha
      rcases ha with ⟨f, hf, -, hexit⟩
      exact sound_exitStart h hf (Option.isNone_iff_eq_none.mp hexit)
  | exitHelper msg =>
      simp only [Race.Allows, Option.any_eq_true] at ha
      rcases ha with ⟨f, hf, hnext⟩
      refine sound_exitHelper h hf hnext fun hmove => ?_
      simpa [hf, hmove] using (show (s.2.flights msg).all _ = true from hu)
  | sendReturn msg =>
      simp only [Race.Allows, Option.any_eq_true, Bool.and_eq_true, Bool.not_eq_true'] at ha
      rcases ha with ⟨f, hf, hdone, hback⟩
      exact sound_sendReturn h hf hdone hback
  | storeStart msg c x =>
      simp only [Race.Allows, Option.any_eq_true, Bool.and_eq_true] at ha
      rcases ha with ⟨f, hf, hr, hwait⟩
      obtain ⟨r, hr⟩ := Option.isSome_iff_exists.mp hr
      exact sound_storeStart h hf hr hwait c x
  | freeStart msg c x =>
      simp only [Race.Allows, Option.any_eq_true, Bool.and_eq_true] at ha
      rcases ha with ⟨f, hf, hr, hcan⟩
      obtain ⟨r, hr⟩ := Option.isSome_iff_exists.mp hr
      exact sound_freeStart h hf hr hcan c x
  | recvHelper msg =>
      simp only [Race.Allows, Option.any_eq_true] at ha
      rcases ha with ⟨f, hf, hnext⟩
      refine sound_recvHelper h hf hnext fun htakes => ?_
      simpa [hf, htakes] using (show (s.2.flights msg).all _ = true from hu)
  | recvReturn msg =>
      simp only [Race.Allows, Option.any_eq_true, Bool.and_eq_true, Bool.not_eq_true'] at ha
      rcases ha with ⟨f, hf, hdone, hback⟩
      obtain ⟨p, q, hinv⟩ := h.flights msg f hf
      obtain ⟨r, hr⟩ := hinv.received hdone
      exact sound_recvReturn h hf hr hdone hback

end Steps

/-! ## At most once -/

/-- Every message was counted and reported at most once, and no map holds a message
whose exit probe and `free_msg` probe are finished. -/
structure AtMostOnce (s : State × Race T) : Prop where
  counted : s.2.counted.Nodup ∧ s.2.counted.length = deliveredCount s.1
  reported : s.2.reported.Nodup ∧ s.2.reported.length = s.1.rb.length
  gone : ∀ msg f, s.2.flights msg = some f → f.exitDone = true → f.freeDone = true →
    ∀ m : Table, m.OfMessages → s.1.get m msg = none

theorem Sound.atMostOnce {K : Kernel T} {s : State × Race T} (h : Sound K s) : AtMostOnce s := by
  -- a delivery is counted for a record that was taken, and a record is taken once
  have hone : ∀ msg, s.2.counted.count msg ≤ 1 ∧ s.2.reported.count msg ≤ 1 := by
    intro msg
    cases hf : s.2.flights msg with
    | none =>
        obtain ⟨-, hc, hr⟩ := h.unknown msg hf
        simp [hc, hr]
    | some f =>
        obtain ⟨p, q, hinv⟩ := h.flights msg f hf
        have hn := hinv.counted
        have hk := hinv.reported
        constructor
        · split_ifs at hn <;> omega
        · split_ifs at hk <;> omega
  refine ⟨⟨List.nodup_iff_count_le_one.mpr fun msg => (hone msg).1, h.counted⟩,
    ⟨List.nodup_iff_count_le_one.mpr fun msg => (hone msg).2, h.reported⟩, ?_⟩
  intro msg f hf hexit hfree m hm
  obtain ⟨p, q, hinv⟩ := h.flights msg f hf
  exact hinv.gone hexit hfree hm

/-- As long as the two sides do not cross. -/
theorem handed_over_at_most_once [DecidableEq T] (K : Kernel T) {es : List (Step T)}
    (hv : ((handovers K).restrict (Uncrossed K)).Valid es) :
    AtMostOnce ((handovers K).run es) := by
  suffices h : Sound K ((handovers K).run es) from h.atMostOnce
  refine Machine.invariant_restrict (I := Sound K) (Sound.init K) ?_ hv
  intro s e h ha hu
  exact sound_step h ha hu

instance (K : Kernel T) (s : State × Race T) (e : Step T) : Decidable (Uncrossed K s e) :=
  match e with
  | .exitHelper _ => inferInstanceAs (Decidable (_ = true))
  | .recvHelper _ => inferInstanceAs (Decidable (_ = true))
  | .sendEnter .. | .loadMsg .. | .recvEnter .. | .handOver .. | .exitStart .. | .sendReturn ..
  | .storeStart .. | .freeStart .. | .recvReturn .. => inferInstanceAs (Decidable True)

/-- The receiver looks in `direct_messages` right after the exit has written there,
and before the exit has deleted the record from `pending_messages`. -/
theorem receiver_between_copy_and_delete :
    let c : Ctrl := ⟨true, 0, 0, 0, 0⟩
    let x : ConsumeArgs := ⟨100, true⟩
    let es : List (Step (Fin 2)) :=
      [.recvEnter 1 c ⟨4, Vector.replicate _ 0, false⟩,
        .sendEnter 0 c ⟨3, 8, 0, Vector.replicate _ 0, false⟩, .loadMsg 0 64, .handOver 64 1,
        .exitStart 64, .exitHelper 64, .exitHelper 64, .storeStart 64 c x, .recvHelper 64,
        .recvHelper 64, .exitHelper 64] ++ List.replicate 4 (.recvHelper 64) ++
      [.exitHelper 64, .exitHelper 64, .freeStart 64 c x] ++ List.replicate 4 (.recvHelper 64)
    let s := (handovers Kernel.two).run es
    AtMostOnce s ∧ s.2.counted = [64] ∧ s.2.reported = [64] ∧
      (s.2.flights 64).any (fun f => f.exitDone && f.freeDone) = true := by
  intro c x es s
  exact ⟨handed_over_at_most_once Kernel.two (by decide +kernel), by decide +kernel,
    by decide +kernel, by decide +kernel⟩

/-- Both sides find the record in `pending_messages`: the receiver delivers it, the exit
then writes `direct_messages`, and `free_msg` delivers it again. -/
theorem both_find_the_pending_record :
    let c : Ctrl := ⟨true, 0, 0, 0, 0⟩
    let x : ConsumeArgs := ⟨100, true⟩
    let es : List (Step (Fin 2)) :=
      [.recvEnter 1 c ⟨4, Vector.replicate _ 0, false⟩,
        .sendEnter 0 c ⟨3, 8, 0, Vector.replicate _ 0, false⟩, .loadMsg 0 64, .handOver 64 1,
        .exitStart 64, .exitHelper 64, .exitHelper 64, .storeStart 64 c x] ++
      List.replicate 7 (.recvHelper 64) ++ List.replicate 3 (.exitHelper 64) ++
      [.freeStart 64 c x] ++ List.replicate 6 (.recvHelper 64)
    let s := (handovers Kernel.two).run es
    (handovers Kernel.two).Valid es ∧ s.2.counted = [64, 64] ∧ s.1.counters .directCount = 2 ∧
      s.1.rb.length = 2 ∧ ¬ AtMostOnce s := by
  intro c x es s
  have htwice : s.2.counted = [64, 64] := by decide +kernel
  refine ⟨by decide +kernel, htwice, by decide +kernel, by decide +kernel, fun h => ?_⟩
  have hnodup := h.counted.1
  rw [htwice] at hnodup
  simp at hnodup

end EbpfToolbox.Ipc.Msgqueue.Handover
