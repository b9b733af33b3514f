import EbpfToolbox.Ipc.Traffic

/-!
# What stays behind in the message maps

Anything may fail here: insertions, whole sends, receives that are not recorded,
and any record may be evicted. Addresses are not reused. `Kept` says which record
may exist for a message; once the message is freed and its send has exited, none
may.

The pending branch of `consume_message` leaves the record of a directly handed over
message in place when the receiver is not recorded, and the exit of the send moves
it to `direct_messages` afterwards, where nobody looks for it any more.
-/

namespace EbpfToolbox.Ipc.Msgqueue

open Common Lib

variable {T : Type}

/-- No address is given out twice. -/
def NoReuse (s : State × Kern T) : Step T → Prop
  | .loadMsg _ ret _ => (s.2.msgs ret).isNone = true
  | _ => True

/-- A receiver that frees a message which was handed over and still has its record
in `pending_messages` has an entry in `active_receives`. -/
def RecordedFree (K : Kernel T) (s : State × Kern T) : Step T → Prop
  | .freeMsg t msg .receiver _ _ =>
      (s.2.msgs msg).any (·.stage = .handed) = true →
        (s.1.get .pendingMessages msg).isSome = true →
        (s.1.get .activeReceives (K.task t).pidTgid).isSome = true
  | _ => True

/-! ## The records that may exist -/

/-- What the phase of a send says about its message. -/
def SendPhase.Of (p : SendPhase) (m : Msg T) : Prop :=
  match p with
  | .entered => False
  | .loaded _ => m.stage = .loaded ∧ m.freed = false
  | .delivered _ => m.stage ≠ .loaded
  | .failed _ => True

structure Kept (K : Kernel T) (s : State × Kern T) : Prop where
  sends : ∀ t send, s.1.get .activeSends (K.task t).pidTgid = some send → send.msgKey ≠ 0 →
    (s.2.sending t).bind SendPhase.msg = some send.msgKey
  phases : ∀ t p msg, s.2.sending t = some p → p.msg = some msg → ∃ m,
    s.2.msgs msg = some m ∧ m.sender = t ∧ p.Of m
  loading : ∀ msg m, s.2.msgs msg = some m → m.stage = .loaded → m.freed = false →
    s.2.sending m.sender = some (.loaded msg)
  stored : ∀ t msg, s.2.receiving t = some (.stored msg) → ∃ m,
    s.2.msgs msg = some m ∧ m.stage ≠ .loaded
  nonnull : ∀ msg, s.2.msgs msg ≠ none → msg ≠ 0
  pending : ∀ msg, s.1.get .pendingMessages msg ≠ none → ∃ m, s.2.msgs msg = some m ∧
    m.stage ≠ .queued ∧ (m.freed = true → s.2.sending m.sender = some (.failed msg)) ∧
    ∃ send, s.1.get .activeSends (K.task m.sender).pidTgid = some send ∧ send.msgKey = msg
  queued : ∀ msg, s.1.get .queuedMessages msg ≠ none → ∃ m, s.2.msgs msg = some m ∧
    m.stage = .queued ∧ m.freed = false
  direct : ∀ msg, s.1.get .directMessages msg ≠ none → ∃ m, s.2.msgs msg = some m ∧
    m.stage = .handed ∧ m.freed = false ∧ s.1.get .pendingMessages msg = none

namespace Kept

variable {K : Kernel T} {s s' : State × Kern T}

/-- The sender of a pending message is still in its call. -/
theorem sender_of_pending (h : Kept K s) {msg : UInt64}
    (hp : s.1.get .pendingMessages msg ≠ none) : ∃ m, s.2.msgs msg = some m ∧
      (s.2.sending m.sender).bind SendPhase.msg = some msg := by
  obtain ⟨m, hm, -, -, send, hsend, rfl⟩ := h.pending msg hp
  exact ⟨m, hm, h.sends _ send hsend (h.nonnull _ (by simp [hm]))⟩

/-- An address without a message has no record. -/
theorem none_of_unknown (h : Kept K s) {msg : UInt64} (hm : s.2.msgs msg = none) :
    s.1.get .pendingMessages msg = none ∧ s.1.get .queuedMessages msg = none ∧
      s.1.get .directMessages msg = none := by
  refine ⟨?_, ?_, ?_⟩
  · by_contra hne
    obtain ⟨m, hm', -⟩ := h.pending msg hne
    simp [hm] at hm'
  · by_contra hne
    obtain ⟨m, hm', -⟩ := h.queued msg hne
    simp [hm] at hm'
  · by_contra hne
    obtain ⟨m, hm', -⟩ := h.direct msg hne
    simp [hm] at hm'

/-- A step that concerns one message `a` and the send `t` it belongs to. -/
theorem of_step (h : Kept K s) (t : T) (a : UInt64)
    (hown : (s'.1.get .activeSends (K.task t).pidTgid = s.1.get .activeSends (K.task t).pidTgid ∧
        s'.2.sending t = s.2.sending t) ∨
      ∀ msg, (s.2.sending t).bind SendPhase.msg = some msg → msg = a)
    (hsender : ∀ m, s.2.msgs a = some m → m.sender = t)
    (hthreads : ∀ u, u ≠ t → s'.1.get .activeSends (K.task u).pidTgid =
      s.1.get .activeSends (K.task u).pidTgid ∧ s'.2.sending u = s.2.sending u)
    (hmsgs : ∀ msg, msg ≠ a → s'.2.msgs msg = s.2.msgs msg)
    (hpend : ∀ msg, msg ≠ a → s'.1.get .pendingMessages msg = none ∨
      s'.1.get .pendingMessages msg = s.1.get .pendingMessages msg)
    (hqueue : ∀ msg, msg ≠ a → s'.1.get .queuedMessages msg = none ∨
      s'.1.get .queuedMessages msg = s.1.get .queuedMessages msg)
    (hdir : ∀ msg, msg ≠ a → s'.1.get .directMessages msg = none ∨
      s'.1.get .directMessages msg = s.1.get .directMessages msg)
    (sends : ∀ send, s'.1.get .activeSends (K.task t).pidTgid = some send → send.msgKey ≠ 0 →
      (s'.2.sending t).bind SendPhase.msg = some send.msgKey)
    (phases : ∀ p msg, s'.2.sending t = some p → p.msg = some msg → ∃ m,
      s'.2.msgs msg = some m ∧ m.sender = t ∧ p.Of m)
    (loading : ∀ m, s'.2.msgs a = some m → m.stage = .loaded → m.freed = false →
      s'.2.sending m.sender = some (.loaded a))
    (stored : ∀ u msg, s'.2.receiving u = some (.stored msg) → ∃ m,
      s'.2.msgs msg = some m ∧ m.stage ≠ .loaded)
    (nonnull : s'.2.msgs a ≠ none → a ≠ 0)
    (pending : s'.1.get .pendingMessages a ≠ none → ∃ m, s'.2.msgs a = some m ∧
      m.stage ≠ .queued ∧ (m.freed = true → s'.2.sending m.sender = some (.failed a)) ∧
      ∃ send, s'.1.get .activeSends (K.task m.sender).pidTgid = some send ∧ send.msgKey = a)
    (queued : s'.1.get .queuedMessages a ≠ none → ∃ m, s'.2.msgs a = some m ∧
      m.stage = .queued ∧ m.freed = false)
    (direct : s'.1.get .directMessages a ≠ none → ∃ m, s'.2.msgs a = some m ∧
      m.stage = .handed ∧ m.freed = false ∧ s'.1.get .pendingMessages a = none) :
    Kept K s' := by
  -- the send of another message is not touched
  have hother : ∀ u msg, msg ≠ a → (s.2.sending u).bind SendPhase.msg = some msg →
      s'.1.get .activeSends (K.task u).pidTgid = s.1.get .activeSends (K.task u).pidTgid ∧
        s'.2.sending u = s.2.sending u := by
    intro u msg hmsg hbind
    by_cases hut : u = t
    · subst hut
      exact hown.resolve_right fun hall => hmsg (hall msg hbind)
    · exact hthreads u hut
  refine ⟨?_, ?_, ?_, stored, ?_, ?_, ?_, ?_⟩
  · intro u send hsend hz
    by_cases hut : u = t
    · subst hut
      exact sends send hsend hz
    · rw [(hthreads u hut).1] at hsend
      rw [(hthreads u hut).2]
      exact h.sends u send hsend hz
  · intro u p msg hp hmsg
    by_cases hut : u = t
    · subst hut
      exact phases p msg hp hmsg
    · rw [(hthreads u hut).2] at hp
      obtain ⟨m, hm, hu, hof⟩ := h.phases u p msg hp hmsg
      have hma : msg ≠ a := by
        rintro rfl
        exact hut (hu.symm.trans (hsender m hm))
      exact ⟨m, (hmsgs msg hma).trans hm, hu, hof⟩
  · intro msg m hm hst hf
    by_cases hma : msg = a
    · subst hma
      exact loading m hm hst hf
    · rw [hmsgs msg hma] at hm
      have hload := h.loading msg m hm hst hf
      rw [(hother _ msg hma (by simp [hload, SendPhase.msg])).2]
      exact hload
  · intro msg hmsg
    by_cases hma : msg = a
    · subst hma
      exact nonnull hmsg
    · rw [hmsgs msg hma] at hmsg
      exact h.nonnull msg hmsg
  · intro msg hp
    by_cases hma : msg = a
    · subst hma
      exact pending hp
    · rw [(hpend msg hma).resolve_left hp] at hp
      obtain ⟨m, hm, hbind⟩ := h.sender_of_pending hp
      obtain ⟨m', hm', hst, hf, hsend⟩ := h.pending msg hp
      obtain rfl := Option.some.inj (hm.symm.trans hm')
      have hut := hother _ msg hma hbind
      exact ⟨m, (hmsgs msg hma).trans hm, hst, by rwa [hut.2], by rwa [hut.1]⟩
  · intro msg hq
    by_cases hma : msg = a
    · subst hma
      exact queued hq
    · rw [(hqueue msg hma).resolve_left hq] at hq
      rw [hmsgs msg hma]
      exact h.queued msg hq
  · intro msg hd
    by_cases hma : msg = a
    · subst hma
      exact direct hd
    · rw [(hdir msg hma).resolve_left hd] at hd
      obtain ⟨m, hm, hst, hf, hnone⟩ := h.direct msg hd
      refine ⟨m, (hmsgs msg hma).trans hm, hst, hf, ?_⟩
      rcases hpend msg hma with hp | hp
      · exact hp
      · rw [hp, hnone]

/-- A step that changes no message, no send and no send context, and adds no record. -/
theorem of_frame (h : Kept K s) (hmsgs : s'.2.msgs = s.2.msgs)
    (hsending : s'.2.sending = s.2.sending)
    (hsends : ∀ key, s'.1.get .activeSends key = s.1.get .activeSends key)
    (hget : ∀ (m : Table) key, m.OfMessages → s'.1.get m key = none ∨
      s'.1.get m key = s.1.get m key)
    (stored : ∀ t msg, s'.2.receiving t = some (.stored msg) → ∃ m,
      s.2.msgs msg = some m ∧ m.stage ≠ .loaded) : Kept K s' := by
  refine ⟨?_, ?_, ?_, ?_, ?_, ?_, ?_, ?_⟩
  · intro t send hsend hz
    rw [hsending]
    exact h.sends t send (by rwa [← hsends]) hz
  · rw [hsending, hmsgs]
    exact h.phases
  · rw [hsending, hmsgs]
    exact h.loading
  · rw [hmsgs]
    exact stored
  · rw [hmsgs]
    exact h.nonnull
  · intro msg hp
    rw [(hget _ msg (by simp [Table.OfMessages])).resolve_left hp] at hp
    simp only [hmsgs, hsending, hsends]
    exact h.pending msg hp
  · intro msg hq
    rw [(hget _ msg (by simp [Table.OfMessages])).resolve_left hq] at hq
    rw [hmsgs]
    exact h.queued msg hq
  · intro msg hd
    rw [(hget _ msg (by simp [Table.OfMessages])).resolve_left hd] at hd
    obtain ⟨m, hm, hst, hf, hnone⟩ := h.direct msg hd
    refine ⟨m, by rw [hmsgs, hm], hst, hf, ?_⟩
    rcases hget .pendingMessages msg (by simp [Table.OfMessages]) with hp | hp
    · exact hp
    · rw [hp, hnone]

end Kept

/-! ## Steps -/

section Steps

variable [DecidableEq T] {K : Kernel T} {s : State × Kern T}

theorem kept_sendEnter (h : Kept K s) {t : T} (c : Ctrl) (a : SendArgs)
    (hidle : s.2.sending t = none) : Kept K (step K s (.sendEnter t c a)) := by
  obtain ⟨hget, hown⟩ := get_run_mqSendEnter c (K.task t) a s.1
  have hzero : s.2.msgs 0 = none := by
    by_contra hne
    exact h.nonnull 0 hne rfl
  obtain ⟨hp, hq, hd⟩ := h.none_of_unknown hzero
  simp only [step]
  refine h.of_step t 0 (Or.inr (by simp [hidle])) (by simp [hzero]) ?_ (fun _ _ => rfl)
    (fun msg _ => Or.inr (hget _ _ nofun)) (fun msg _ => Or.inr (hget _ _ nofun))
    (fun msg _ => Or.inr (hget _ _ nofun)) ?_ ?_ ?_ h.stored (by simp [hzero]) ?_ ?_ ?_
  · intro u hut
    exact ⟨hget _ _ fun _ => K.pidTgid_ne hut, by simp [hut]⟩
  · intro send hsend hz
    have hold := h.sends t send ((hown send hsend).resolve_right hz) hz
    simp [hidle] at hold
  · intro p msg hp hmsg
    obtain rfl : .entered = p := by simpa using hp
    cases hmsg
  · simp [hzero]
  · exact fun hne => absurd ((hget .pendingMessages 0 nofun).trans hp) hne
  · exact fun hne => absurd ((hget .queuedMessages 0 nofun).trans hq) hne
  · exact fun hne => absurd ((hget .directMessages 0 nofun).trans hd) hne

theorem kept_loadMsg (h : Kept K s) {t : T} {ret : UInt64} (fails : Bool)
    (hent : s.2.sending t = some .entered) (hv : validMsgPtr ret = true)
    (hfresh : s.2.msgs ret = none) : Kept K (step K s (.loadMsg t ret fails)) := by
  obtain ⟨hget, hrun⟩ := get_run_mqLoadMsgExit (K.task t) ret fails s.1
  obtain ⟨hp, hq, hd⟩ := h.none_of_unknown hfresh
  have hold : ∀ send, s.1.get .activeSends (K.task t).pidTgid = some send → send.msgKey = 0 := by
    intro send hsend
    by_contra hz
    simpa [hent, SendPhase.msg] using h.sends t send hsend hz
  simp only [step, hv, if_true, Kern.load]
  refine h.of_step t ret (Or.inr (by simp [hent, SendPhase.msg])) (by simp [hfresh]) ?_ ?_ ?_ ?_ ?_ ?_ ?_
    ?_ ?_ ?_ ?_ ?_ ?_
  · intro u hut
    exact ⟨hget _ _ (fun _ => K.pidTgid_ne hut) nofun, by simp [hut]⟩
  · exact fun msg hne => Function.update_of_ne hne _ _
  · exact fun msg hne => Or.inr (hget _ _ nofun fun _ => hne)
  · exact fun msg hne => Or.inr (hget _ _ nofun nofun)
  · exact fun msg hne => Or.inr (hget _ _ nofun nofun)
  · intro send hsend hz
    rcases hrun with ⟨send', hsend', hkey⟩ | hsame | hsame
    · obtain rfl := Option.some.inj (hsend.symm.trans hsend')
      simp [SendPhase.msg, hkey]
    · exact absurd (hold send (by simpa [hsame] using hsend)) hz
    · exact absurd (hold send (by simpa [hsame] using hsend)) hz
  · intro p msg hp hmsg
    obtain rfl : .loaded ret = p := by simpa using hp
    obtain rfl := Option.some.inj hmsg
    exact ⟨Msg.new t, by simp, rfl, rfl, rfl⟩
  · intro m hm _ _
    obtain rfl : Msg.new t = m := by simpa using hm
    simp [Msg.new]
  · intro u msg hu
    obtain ⟨m, hm, hst⟩ := h.stored u msg hu
    have hne : msg ≠ ret := by
      rintro rfl
      simp [hfresh] at hm
    exact ⟨m, by simpa [hne] using hm, hst⟩
  · rintro - rfl
    simp [validMsgPtr] at hv
  · intro hne
    refine ⟨Msg.new t, by simp, by simp [Msg.new], by simp [Msg.new], ?_⟩
    rcases hrun with hsend | hsame | hsame
    · exact hsend
    · simp [hsame, hp] at hne
    · simp [hsame, hp] at hne
  · exact fun hne => absurd ((hget .queuedMessages ret nofun nofun).trans hq) hne
  · exact fun hne => absurd ((hget .directMessages ret nofun nofun).trans hd) hne

theorem get_run_mqMsgInsertExit {msg : UInt64} (hmsg : msg ≠ 0) (now : UInt64) (fails : Bool)
    (σ : State) :
    (∀ (m : Table) key, (m.OfMessages → key ≠ msg) →
        (run (mqMsgInsertExit msg 0 now fails) σ).get m key = σ.get m key) ∧
      (run (mqMsgInsertExit msg 0 now fails) σ).get .pendingMessages msg = none ∧
      (run (mqMsgInsertExit msg 0 now fails) σ).get .directMessages msg =
        σ.get .directMessages msg := by
  cases hp : σ.get .pendingMessages msg with
  | none =>
      rw [run_mqMsgInsertExit_untracked now fails (Or.inr hp)]
      exact ⟨fun _ _ _ => rfl, hp, rfl⟩
  | some pending =>
      rw [run_mqMsgInsertExit now fails hmsg hp]
      refine ⟨fun m key hne => ?_, by simp, ?_⟩
      · rw [State.get_erase_of_ne _ fun hm => hne (by simp [hm, Table.OfMessages])]
        split_ifs
        · rfl
        · exact State.get_put_of_ne _ _ fun hm => hne (by simp [hm, Table.OfMessages])
      · split_ifs <;> simp [State.get_erase_of_ne, State.get_put_of_ne]

/-- A loaded message is inserted or handed over. -/
theorem kept_deliver (h : Kept K s) {σ : State} {msg : UInt64} {m : Msg T}
    (hm : s.2.msgs msg = some m) (hst : m.stage = .loaded) (hf : m.freed = false) {stage : Stage}
    (hstage : stage ≠ .loaded)
    (hget : ∀ (tbl : Table) key, (tbl.OfMessages → key ≠ msg) → σ.get tbl key = s.1.get tbl key)
    (hpend : σ.get .pendingMessages msg ≠ none →
      stage ≠ .queued ∧ s.1.get .pendingMessages msg ≠ none)
    (hqueue : σ.get .queuedMessages msg ≠ none →
      stage = .queued ∨ s.1.get .queuedMessages msg ≠ none)
    (hdir : σ.get .directMessages msg = s.1.get .directMessages msg) :
    Kept K (σ, s.2.deliver msg stage) := by
  have hload := h.loading msg m hm hst hf
  have hdeliver : s.2.deliver msg stage = { s.2 with
      msgs := Function.update s.2.msgs msg (some { m with stage })
      sending := Function.update s.2.sending m.sender (some (.delivered msg)) } := by
    simp only [Kern.deliver, Kern.modify, hm, Option.map_some]
  rw [hdeliver]
  refine h.of_step m.sender msg (Or.inr (by simp [hload, SendPhase.msg])) (by simp [hm]) ?_ ?_
    (fun _ hne => Or.inr (hget _ _ fun _ => hne)) (fun _ hne => Or.inr (hget _ _ fun _ => hne))
    (fun _ hne => Or.inr (hget _ _ fun _ => hne)) ?_ ?_ ?_ ?_ ?_ ?_ ?_ ?_
  · intro u hu
    exact ⟨hget _ _ (by simp [Table.OfMessages]), by simp [hu]⟩
  · exact fun msg' hne => Function.update_of_ne hne _ _
  · intro send hsend hz
    rw [hget _ _ (by simp [Table.OfMessages])] at hsend
    have hkey := h.sends _ send hsend hz
    simpa [hload, SendPhase.msg] using hkey
  · intro p msg' hp hmsg'
    obtain rfl : .delivered msg = p := by simpa using hp
    obtain rfl := Option.some.inj hmsg'
    exact ⟨{ m with stage }, by simp, rfl, hstage⟩
  · intro m' hm' hst' _
    obtain rfl : { m with stage } = m' := by simpa using hm'
    exact absurd hst' hstage
  · intro u msg' hu
    obtain ⟨m', hm', hst'⟩ := h.stored u msg' hu
    have hne : msg' ≠ msg := by
      rintro rfl
      rw [hm] at hm'
      exact hst' (Option.some.inj hm' ▸ hst)
    exact ⟨m', by simpa [hne] using hm', hst'⟩
  · exact fun _ => h.nonnull msg (by simp [hm])
  · intro hne
    obtain ⟨hq, hp⟩ := hpend hne
    obtain ⟨m', hm', -, -, hsend⟩ := h.pending msg hp
    obtain rfl := Option.some.inj (hm.symm.trans hm')
    refine ⟨{ m with stage }, by simp, hq, by simp [hf], ?_⟩
    rwa [hget _ _ (by simp [Table.OfMessages])]
  · intro hne
    refine ⟨{ m with stage }, by simp, (hqueue hne).resolve_right fun hq => ?_, hf⟩
    obtain ⟨m', hm', hst', -⟩ := h.queued msg hq
    obtain rfl := Option.some.inj (hm.symm.trans hm')
    simp [hst] at hst'
  · intro hne
    obtain ⟨m', hm', hst', -⟩ := h.direct msg (hdir ▸ hne)
    obtain rfl := Option.some.inj (hm.symm.trans hm')
    simp [hst] at hst'

theorem kept_msgInsert (h : Kept K s) {msg : UInt64} {m : Msg T} (ret : Int32) (now : UInt64)
    (fails : Bool) (hm : s.2.msgs msg = some m) (hst : m.stage = .loaded) (hf : m.freed = false) :
    Kept K (step K s (.msgInsert msg ret now fails)) := by
  by_cases hret : ret = 0
  · subst hret
    obtain ⟨hget, hpend, hdir⟩ :=
      get_run_mqMsgInsertExit (h.nonnull msg (by simp [hm])) now fails s.1
    simp only [step, if_true]
    exact kept_deliver h hm hst hf (by decide) hget (fun hne => absurd hpend hne)
      (fun _ => Or.inl rfl) hdir
  · simp only [step, run_mqMsgInsertExit_untracked now fails (Or.inl hret), if_neg hret]
    exact h

theorem kept_handOver (h : Kept K s) {msg : UInt64} {m : Msg T} (hm : s.2.msgs msg = some m)
    (hst : m.stage = .loaded) (hf : m.freed = false) : Kept K (step K s (.handOver msg)) :=
  kept_deliver h hm hst hf (by decide) (fun _ _ _ => rfl) (fun hne => ⟨by decide, hne⟩) Or.inr rfl

/-- The exit of a send before it loaded a message. -/
theorem kept_sendExit_entered (h : Kept K s) {t : T} (ret : Int32) (fails : Bool)
    (hent : s.2.sending t = some .entered) : Kept K (step K s (.sendExit t ret fails)) := by
  obtain ⟨hrun, hgone⟩ : (∀ (m : Table) key, (m = .activeSends → key ≠ (K.task t).pidTgid) →
      (run (mqSendExit (K.task t) ret fails) s.1).get m key = s.1.get m key) ∧
      (run (mqSendExit (K.task t) ret fails) s.1).get .activeSends (K.task t).pidTgid = none := by
    cases hsend : s.1.get .activeSends (K.task t).pidTgid with
    | none =>
        rw [run_mqSendExit_untracked ret fails hsend]
        exact ⟨fun _ _ _ => rfl, hsend⟩
    | some send =>
        have hz : send.msgKey = 0 := by
          by_contra hz
          simpa [hent, SendPhase.msg] using h.sends t send hsend hz
        rw [run_mqSendExit_settled ret fails hsend (Or.inl hz)]
        exact ⟨fun m key hne => State.get_erase_of_ne _ hne, State.get_erase_self _ _ _⟩
  have hzero : s.2.msgs 0 = none := by
    by_contra hne
    exact h.nonnull 0 hne rfl
  obtain ⟨hp, hq, hd⟩ := h.none_of_unknown hzero
  have hexit : s.2.exit t = { s.2 with sending := Function.update s.2.sending t none } := by
    simp only [Kern.exit, hent, Option.bind_some, SendPhase.msg]
  simp only [step, hexit]
  refine h.of_step t 0 (Or.inr (by simp [hent, SendPhase.msg])) (by simp [hzero]) ?_ (fun _ _ => rfl)
    (fun msg _ => Or.inr (hrun _ _ nofun)) (fun msg _ => Or.inr (hrun _ _ nofun))
    (fun msg _ => Or.inr (hrun _ _ nofun)) ?_ (by simp) (by simp [hzero]) h.stored (by simp [hzero])
    (fun hne => absurd ((hrun .pendingMessages 0 nofun).trans hp) hne)
    (fun hne => absurd ((hrun .queuedMessages 0 nofun).trans hq) hne)
    (fun hne => absurd ((hrun .directMessages 0 nofun).trans hd) hne)
  · intro u hut
    exact ⟨hrun _ _ fun _ => K.pidTgid_ne hut, by simp [hut]⟩
  · intro send hsend
    simp [hgone] at hsend

/-- The exit of a send with a message takes the record out of `pending_messages`. -/
theorem get_run_mqSendExit (cur : Task) (σ : State) {msg : UInt64} (hmsg : msg ≠ 0)
    (hkey : ∀ send, σ.get .activeSends cur.pidTgid = some send →
      send.msgKey = 0 ∨ send.msgKey = msg)
    (hpend : σ.get .pendingMessages msg ≠ none → ∃ send,
      σ.get .activeSends cur.pidTgid = some send ∧ send.msgKey = msg)
    (ret : Int32) (fails : Bool) :
    (∀ (m : Table) key, (m = .activeSends → key ≠ cur.pidTgid) → (m.OfMessages → key ≠ msg) →
        (run (mqSendExit cur ret fails) σ).get m key = σ.get m key) ∧
      (run (mqSendExit cur ret fails) σ).get .activeSends cur.pidTgid = none ∧
      (run (mqSendExit cur ret fails) σ).get .pendingMessages msg = none ∧
      (run (mqSendExit cur ret fails) σ).get .queuedMessages msg = σ.get .queuedMessages msg ∧
      ((run (mqSendExit cur ret fails) σ).get .directMessages msg = σ.get .directMessages msg ∨
        ret = 0 ∧ σ.get .pendingMessages msg ≠ none) := by
  cases hsend : σ.get .activeSends cur.pidTgid with
  | none =>
      have hnone : σ.get .pendingMessages msg = none := by
        by_contra hne
        obtain ⟨send, hs, -⟩ := hpend hne
        simp [hsend] at hs
      rw [run_mqSendExit_untracked ret fails hsend]
      exact ⟨fun _ _ _ _ => rfl, hsend, hnone, rfl, Or.inl rfl⟩
  | some send =>
      cases hp : σ.get .pendingMessages msg with
      | none =>
          have hset : send.msgKey = 0 ∨ σ.get .pendingMessages send.msgKey = none := by
            rcases hkey send hsend with hz | rfl
            · exact Or.inl hz
            · exact Or.inr hp
          rw [run_mqSendExit_settled ret fails hsend hset]
          refine ⟨fun m key hne _ => State.get_erase_of_ne _ hne, State.get_erase_self _ _ _, ?_, ?_,
            Or.inl ?_⟩
          · simpa [State.get_erase_of_ne] using hp
          · simp [State.get_erase_of_ne]
          · simp [State.get_erase_of_ne]
      | some pending =>
          obtain ⟨send', hs', hk⟩ := hpend (by simp [hp])
          obtain rfl := Option.some.inj (hsend.symm.trans hs')
          subst hk
          rw [run_mqSendExit ret fails hsend hmsg hp]
          refine ⟨fun m key h1 h2 => ?_, State.get_erase_self _ _ _, ?_, ?_, ?_⟩
          · rw [State.get_erase_of_ne _ h1,
              State.get_erase_of_ne _ fun hm => h2 (by simp [hm, Table.OfMessages])]
            split_ifs
            · rfl
            · exact State.get_put_of_ne _ _ fun hm => h2 (by simp [hm, Table.OfMessages])
            · rfl
          · simp [State.get_erase_of_ne]
          · split_ifs <;> simp [State.get_erase_of_ne, State.get_put_of_ne]
          · by_cases hret : ret = 0
            · exact Or.inr ⟨hret, by simp⟩
            · exact Or.inl (by simp [State.get_erase_of_ne, hret])

theorem kept_sendExit (h : Kept K s) {t : T} {p : SendPhase} {msg : UInt64} {ret : Int32}
    (fails : Bool) (hp : s.2.sending t = some p) (hpmsg : p.msg = some msg)
    (hnot : p ≠ .loaded msg) (hret : ret = 0 → p = .delivered msg) :
    Kept K (step K s (.sendExit t ret fails)) := by
  obtain ⟨m, hm, hmt, hof⟩ := h.phases t p msg hp hpmsg
  have hmsg : msg ≠ 0 := h.nonnull msg (by simp [hm])
  obtain ⟨hget, hgone, hpend, hqueue, hdir⟩ := get_run_mqSendExit (K.task t) s.1
    hmsg (fun send hsend => by
      by_cases hz : send.msgKey = 0
      · exact Or.inl hz
      · have hkey := h.sends t send hsend hz
        rw [hp, Option.bind_some, hpmsg] at hkey
        exact Or.inr (Option.some.inj hkey).symm)
    (fun hne => by
      obtain ⟨m', hm', -, -, hsend⟩ := h.pending msg hne
      obtain rfl := Option.some.inj (hm.symm.trans hm')
      rwa [hmt] at hsend) ret fails
  have hexit : s.2.exit t = { s.2 with
      msgs := Function.update s.2.msgs msg (some m.passExit)
      sending := Function.update s.2.sending t none } := by
    simp only [Kern.exit, Kern.modify, hp, Option.bind_some, hpmsg, hm, Option.map_some]
  have hfields := m.passExit_fields
  simp only [step, hexit]
  refine h.of_step t msg (Or.inr (by simp [hp, hpmsg])) (by simp [hm, hmt]) ?_ ?_
    (fun _ hne => Or.inr (hget _ _ nofun fun _ => hne))
    (fun _ hne => Or.inr (hget _ _ nofun fun _ => hne))
    (fun _ hne => Or.inr (hget _ _ nofun fun _ => hne)) ?_ (by simp) ?_ ?_ (fun _ => hmsg)
    (fun hne => absurd hpend hne) ?_ ?_
  · intro u hut
    exact ⟨hget _ _ (fun _ => K.pidTgid_ne hut) (by simp [Table.OfMessages]), by simp [hut]⟩
  · exact fun msg' hne => Function.update_of_ne hne _ _
  · intro send hsend
    simp [hgone] at hsend
  · -- a message that is still loading is not the one of a send that exits
    intro m' hm' hst hf
    obtain rfl : m.passExit = m' := by simpa using hm'
    rw [hfields.2.1] at hst
    rw [hfields.2.2.2] at hf
    have hload := h.loading msg m hm hst hf
    rw [hmt, hp] at hload
    exact absurd (Option.some.inj hload) hnot
  · intro u msg' hu
    obtain ⟨m', hm', hst⟩ := h.stored u msg' hu
    by_cases hne : msg' = msg
    · subst hne
      obtain rfl := Option.some.inj (hm.symm.trans hm')
      exact ⟨m.passExit, by simp, by rwa [hfields.2.1]⟩
    · exact ⟨m', by simpa [hne] using hm', hst⟩
  · intro hne
    obtain ⟨m', hm', hst, hf⟩ := h.queued msg (hqueue ▸ hne)
    obtain rfl := Option.some.inj (hm.symm.trans hm')
    exact ⟨m.passExit, by simp, by rwa [hfields.2.1], by rwa [hfields.2.2.2]⟩
  · intro hne
    rcases hdir with hsame | ⟨rfl, hwas⟩
    · obtain ⟨m', hm', hst, hf, -⟩ := h.direct msg (hsame ▸ hne)
      obtain rfl := Option.some.inj (hm.symm.trans hm')
      exact ⟨m.passExit, by simp, by rwa [hfields.2.1], by rwa [hfields.2.2.2], hpend⟩
    · -- the record was pending, and the send was not freed by a failure
      obtain rfl := hret rfl
      obtain ⟨m', hm', hst, hf, -⟩ := h.pending msg hwas
      obtain rfl := Option.some.inj (hm.symm.trans hm')
      have hhanded : m.stage = .handed := by
        cases hs : m.stage with
        | loaded => exact absurd hs hof
        | queued => exact absurd hs hst
        | handed => rfl
      have hfree : m.freed = false := by
        by_contra hfreed
        have := hf (by simpa using hfreed)
        simp [hmt, hp] at this
      exact ⟨m.passExit, by simp, by rwa [hfields.2.1], by rwa [hfields.2.2.2], hpend⟩

omit [DecidableEq T] in
/-- What a consuming probe leaves of the records of a known message. -/
theorem get_consume (h : Kept K s) {msg : UInt64} {m : Msg T} (hm : s.2.msgs msg = some m)
    (c : Ctrl) (t : T) (countUnmatched : Bool) (x : ConsumeArgs) :
    (∀ (tbl : Table) key, ¬ tbl.OfMessages ∨ key ≠ msg →
        (run (consumeMessage c (K.task t) msg countUnmatched x) s.1).get tbl key =
          s.1.get tbl key) ∧
      (run (consumeMessage c (K.task t) msg countUnmatched x) s.1).get .queuedMessages msg = none ∧
      (run (consumeMessage c (K.task t) msg countUnmatched x) s.1).get .directMessages msg = none ∧
      ((run (consumeMessage c (K.task t) msg countUnmatched x) s.1).get .pendingMessages msg ≠ none →
        s.1.get .pendingMessages msg ≠ none ∧
          s.1.get .activeReceives (K.task t).pidTgid = none) := by
  have hget := get_run_consumeMessage c (K.task t) s.1 countUnmatched x
    (h.nonnull msg (by simp [hm]))
  have htbl : ∀ tbl, takes s.1 (K.task t) msg = some tbl → tbl.OfMessages := by
    intro tbl ht
    unfold takes at ht
    split_ifs at ht
    all_goals
      obtain rfl := Option.some.inj ht
      simp [Table.OfMessages]
  refine ⟨?_, ?_, ?_, ?_⟩
  · intro tbl key hne
    rw [hget, if_neg]
    rintro ⟨ht, rfl⟩
    exact hne.elim (fun hn => hn (htbl tbl ht)) fun hn => hn rfl
  · rw [hget]
    cases hq : s.1.get .queuedMessages msg with
    | none => simp
    | some queued => simp [takes, hq]
  · rw [hget]
    cases hd : s.1.get .directMessages msg with
    | none => simp
    | some direct =>
        -- the message was handed over, so it is not queued
        have hq : s.1.get .queuedMessages msg = none := by
          by_contra hne
          obtain ⟨m', hm', hst, -⟩ := h.direct msg (by simp [hd])
          obtain ⟨m'', hm'', hst', -⟩ := h.queued msg hne
          obtain rfl := Option.some.inj (hm'.symm.trans hm'')
          simp [hst] at hst'
        simp [takes, hq, hd]
  · intro hne
    rw [hget] at hne
    have hp : s.1.get .pendingMessages msg ≠ none := by
      split_ifs at hne
      · exact absurd rfl hne
      · exact hne
    refine ⟨hp, ?_⟩
    by_contra hrec
    -- neither queued nor direct, and recorded: the record is taken
    have hq : s.1.get .queuedMessages msg = none := by
      by_contra hq
      obtain ⟨m', hm', hst, -⟩ := h.pending msg hp
      obtain ⟨m'', hm'', hst', -⟩ := h.queued msg hq
      obtain rfl := Option.some.inj (hm'.symm.trans hm'')
      exact hst hst'
    have hd : s.1.get .directMessages msg = none := by
      by_contra hd
      obtain ⟨-, -, -, -, hnone⟩ := h.direct msg hd
      exact hp hnone
    have ht : takes s.1 (K.task t) msg = some .pendingMessages := by
      simp [takes, hq, hd, Option.isSome_iff_ne_none, hp, hrec]
    simp [ht] at hne

omit [DecidableEq T] in
/-- A consuming probe together with a change of the message that keeps its sender and
its stage; `hleft` says what becomes of a record that stays in `pending_messages`. -/
theorem kept_consume (h : Kept K s) {t : T} {msg : UInt64} {m : Msg T} (m' : Msg T) (c : Ctrl)
    (countUnmatched : Bool) (x : ConsumeArgs) {g : Kern T} (hm : s.2.msgs msg = some m)
    (hsender : m'.sender = m.sender) (hstage : m'.stage = m.stage)
    (hmsgs : g.msgs = Function.update s.2.msgs msg (some m'))
    (hsending : ∀ u, u ≠ m.sender → g.sending u = s.2.sending u)
    (hown : g.sending m.sender = s.2.sending m.sender ∨
      s.2.sending m.sender = some (.loaded msg) ∧ g.sending m.sender = some (.failed msg))
    (hfreed : m.stage = .loaded → m'.freed = true → g.sending m.sender ≠ some (.loaded msg))
    (hkept : m.stage = .loaded → m'.freed = false →
      m.freed = false ∧ g.sending m.sender = s.2.sending m.sender)
    (hstored : ∀ u msg', g.receiving u = some (.stored msg') → ∃ m,
      s.2.msgs msg' = some m ∧ m.stage ≠ .loaded)
    (hleft : s.1.get .pendingMessages msg ≠ none →
      s.1.get .activeReceives (K.task t).pidTgid = none → m'.freed = true →
      g.sending m.sender = some (.failed msg)) :
    Kept K (run (consumeMessage c (K.task t) msg countUnmatched x) s.1, g) := by
  obtain ⟨hget, hqueue, hdir, hpend⟩ := get_consume h hm c t countUnmatched x
  have hsends : ∀ u, (run (consumeMessage c (K.task t) msg countUnmatched x) s.1).get .activeSends
      (K.task u).pidTgid = s.1.get .activeSends (K.task u).pidTgid :=
    fun u => hget _ _ (Or.inl (by simp [Table.OfMessages]))
  refine h.of_step m.sender msg ?_ (by simp [hm]) (fun u hu => ⟨hsends u, hsending u hu⟩) ?_
    (fun _ hne => Or.inr (hget _ _ (Or.inr hne))) (fun _ hne => Or.inr (hget _ _ (Or.inr hne)))
    (fun _ hne => Or.inr (hget _ _ (Or.inr hne))) ?_ ?_ ?_ ?_ ?_ ?_
    (fun hne => absurd hqueue hne) (fun hne => absurd hdir hne)
  · rcases hown with hsame | ⟨hload, -⟩
    · exact Or.inl ⟨hsends _, hsame⟩
    · exact Or.inr (by simp [hload, SendPhase.msg])
  · intro msg' hne
    simp [hmsgs, hne]
  · intro send hsend hz
    have hkey := h.sends _ send ((hsends _).symm.trans hsend) hz
    rcases hown with hsame | ⟨hload, hfail⟩
    · simpa [hsame] using hkey
    · simpa [hload, hfail, SendPhase.msg] using hkey
  · intro p msg' hp hmsg'
    by_cases hne : msg' = msg
    · subst hne
      refine ⟨m', by simp [hmsgs], hsender, ?_⟩
      rcases hown with hsame | ⟨-, hfail⟩
      · obtain ⟨m'', hm'', -, hof⟩ := h.phases _ p msg' (hsame ▸ hp) hmsg'
        obtain rfl := Option.some.inj (hm.symm.trans hm'')
        cases p with
        | entered => exact hof
        | loaded q =>
            obtain rfl := Option.some.inj hmsg'
            refine ⟨hstage.trans hof.1, ?_⟩
            by_contra hf
            exact hfreed hof.1 (by simpa using hf) hp
        | delivered q => exact fun hst => hof (hstage.symm.trans hst)
        | failed q => trivial
      · obtain rfl := Option.some.inj (hfail.symm.trans hp)
        trivial
    · rcases hown with hsame | ⟨-, hfail⟩
      · obtain ⟨m'', hm'', hs'', hof⟩ := h.phases _ p msg' (hsame ▸ hp) hmsg'
        exact ⟨m'', by simpa [hmsgs, hne] using hm'', hs'', hof⟩
      · obtain rfl := Option.some.inj (hfail.symm.trans hp)
        exact absurd (Option.some.inj hmsg').symm hne
  · intro m'' hm'' hst hf
    obtain rfl : m' = m'' := by simpa [hmsgs] using hm''
    rw [hstage] at hst
    obtain ⟨hmf, hsame⟩ := hkept hst hf
    rw [hsender]
    exact hsame.trans (h.loading msg m hm hst hmf)
  · intro u msg' hu
    obtain ⟨m'', hm'', hst⟩ := hstored u msg' hu
    by_cases hne : msg' = msg
    · subst hne
      obtain rfl := Option.some.inj (hm.symm.trans hm'')
      exact ⟨m', by simp [hmsgs], by rwa [hstage]⟩
    · exact ⟨m'', by simpa [hmsgs, hne] using hm'', hst⟩
  · exact fun _ => h.nonnull msg (by simp [hm])
  · -- the record stays when the thread is not a recorded receiver
    intro hne
    obtain ⟨hwas, hrec⟩ := hpend hne
    obtain ⟨m'', hm'', hst, hf, hsend⟩ := h.pending msg hwas
    obtain rfl := Option.some.inj (hm.symm.trans hm'')
    refine ⟨m', by simp [hmsgs], by rwa [hstage], ?_, ?_⟩
    · rw [hsender]
      exact hleft hwas hrec
    · rw [hsender]
      exact hsends _ ▸ hsend

theorem kept_storeMsg (h : Kept K s) {t : T} {msg : UInt64} {m : Msg T} (c : Ctrl)
    (x : ConsumeArgs) (hm : s.2.msgs msg = some m) (hst : m.stage ≠ .loaded)
    (hf : m.freed = false) : Kept K (step K s (.storeMsg t msg c x)) := by
  simp only [step, Kern.take, Kern.modify, hm, Option.map_some, mqStoreMsgEnter]
  refine kept_consume h (m := m) { m with takenBy := some t } c true x hm rfl rfl rfl
    (fun _ _ => rfl) (Or.inl rfl) (fun hl => absurd hl hst) (fun hl => absurd hl hst) ?_ ?_
  · intro u msg' hu
    by_cases hut : u = t
    · subst hut
      obtain rfl : msg = msg' := by simpa using hu
      exact ⟨m, hm, hst⟩
    · exact h.stored u msg' (by simpa [hut] using hu)
  · intro _ _ hfreed
    simp [hf] at hfreed

omit [DecidableEq T] in
/-- A message that is freed by its receiver or with its queue. -/
theorem kept_freeMsg_delivered (h : Kept K s) {t : T} {msg : UInt64} {m : Msg T} (c : Ctrl)
    (x : ConsumeArgs) {g : Kern T} (hm : s.2.msgs msg = some m) (hst : m.stage ≠ .loaded)
    (hrec : m.stage = .handed → s.1.get .pendingMessages msg ≠ none →
      s.1.get .activeReceives (K.task t).pidTgid ≠ none)
    (hmsgs : g.msgs = Function.update s.2.msgs msg (some { m with freed := true }))
    (hsending : g.sending = s.2.sending)
    (hstored : ∀ u msg', g.receiving u = some (.stored msg') →
      s.2.receiving u = some (.stored msg')) :
    Kept K (run (mqFreeMsgEnter c (K.task t) msg x) s.1, g) := by
  refine kept_consume h (m := m) { m with freed := true } c false x hm rfl rfl hmsgs
    (fun u _ => congrFun hsending u) (Or.inl (congrFun hsending _)) (fun hl => absurd hl hst)
    (fun hl => absurd hl hst) (fun u msg' hu => h.stored u msg' (hstored u msg' hu)) ?_
  intro hp hnone _
  obtain ⟨m', hm', hq, -⟩ := h.pending msg hp
  obtain rfl := Option.some.inj (hm.symm.trans hm')
  cases hs : m.stage with
  | loaded => exact absurd hs hst
  | queued => exact absurd hs hq
  | handed => exact absurd hnone (hrec hs hp)

theorem kept_freeMsg (h : Kept K s) {t : T} {msg : UInt64} {why : FreeBy} {c : Ctrl}
    {x : ConsumeArgs} (ha : (traffic K).Allowed s (.freeMsg t msg why c x))
    (hr : RecordedFree K s (.freeMsg t msg why c x)) :
    Kept K (step K s (.freeMsg t msg why c x)) := by
  cases why with
  | receiver =>
      obtain ⟨m, hm, hst⟩ : ∃ m, s.2.msgs msg = some m ∧ m.stage ≠ .loaded := by
        have ha' : s.2.receiving t = some (.stored msg) ∨
            s.2.receiving t = some .waiting ∧ s.2.Available msg = true := by
          simpa [traffic, Kern.Allows] using ha
        rcases ha' with hstored | ⟨-, havail⟩
        · exact h.stored t msg hstored
        · obtain ⟨m, hm, -, hst, -⟩ : ∃ m, s.2.msgs msg = some m ∧ m.freed = false ∧
              m.stage ≠ .loaded ∧ m.takenBy = none := by
            simpa [Kern.Available, Kern.live, Option.any_eq_true] using havail
          exact ⟨m, hm, hst⟩
      have hrec : m.stage = .handed → s.1.get .pendingMessages msg ≠ none →
          s.1.get .activeReceives (K.task t).pidTgid ≠ none := by
        simpa only [RecordedFree, hm, Option.any_some, decide_eq_true_eq,
          Option.isSome_iff_ne_none] using hr
      refine kept_freeMsg_delivered h c x hm hst hrec ?_ rfl ?_
      · simp [Kern.free, Kern.modify, hm]
      · intro u msg' hu
        by_cases hut : u = t
        · subst hut
          simp [Kern.free] at hu
        · simpa [Kern.free, hut] using hu
  | sender =>
      have hload : s.2.sending t = some (.loaded msg) := by
        simpa [traffic, Kern.Allows] using ha
      obtain ⟨m, hm, rfl, hst, hf⟩ := h.phases t _ msg hload rfl
      simp only [step, Kern.free, Kern.modify, hm, Option.map_some, mqFreeMsgEnter]
      refine kept_consume h (m := m) { m with freed := true } c false x hm rfl rfl rfl
        (fun u hu => by simp [hu]) (Or.inr ⟨hload, by simp⟩) (by simp) nofun h.stored (by simp)
  | destroyer =>
      obtain ⟨-, m, hm, -, hq⟩ : s.2.Available msg = true ∧ ∃ m, s.2.msgs msg = some m ∧
          m.freed = false ∧ m.stage = .queued := by
        simpa [traffic, Kern.Allows, Kern.live, Option.any_eq_true] using ha
      refine kept_freeMsg_delivered h c x hm (by simp [hq]) (by simp [hq]) ?_ rfl fun _ _ hu => hu
      simp [Kern.free, Kern.modify, hm]

theorem kept_recvEnter (h : Kept K s) (t : T) (c : Ctrl) (a : RecvArgs) :
    Kept K (step K s (.recvEnter t c a)) := by
  have hget : ∀ (m : Table) key, m ≠ .activeReceives →
      (run (mqRecvEnter c (K.task t) a) s.1).get m key = s.1.get m key := by
    intro m key hne
    rw [run_mqRecvEnter]
    split_ifs
    · rfl
    · rfl
    · exact State.get_put_of_ne _ _ fun hm => absurd hm hne
  refine h.of_frame rfl rfl (fun key => hget _ _ (by decide)) ?_ ?_
  · rintro m key (rfl | rfl | rfl) <;> exact Or.inr (hget _ _ (by decide))
  · intro u msg hu
    by_cases hut : u = t
    · subst hut
      simp [step] at hu
    · exact h.stored u msg (by simpa [step, hut] using hu)

theorem kept_recvExit (h : Kept K s) (t : T) : Kept K (step K s (.recvExit t)) := by
  have hget : ∀ (m : Table) key, m ≠ .activeReceives →
      (run (mqRecvExit (K.task t)) s.1).get m key = s.1.get m key := fun m key hne =>
    State.get_erase_of_ne _ fun hm => absurd hm hne
  refine h.of_frame rfl rfl (fun key => hget _ _ (by decide)) ?_ ?_
  · rintro m key (rfl | rfl | rfl) <;> exact Or.inr (hget _ _ (by decide))
  · intro u msg hu
    by_cases hut : u = t
    · subst hut
      simp [step] at hu
    · exact h.stored u msg (by simpa [step, hut] using hu)

theorem kept_evict (h : Kept K s) {m : Table} (hm : m.OfMessages) (key : UInt64) :
    Kept K (step K s (.evict m key)) := by
  refine h.of_frame rfl rfl ?_ ?_ h.stored
  · intro key'
    rcases hm with rfl | rfl | rfl <;> simp [step, State.get_erase_of_ne]
  · intro m' key' _
    by_cases hk : m' = m → key' ≠ key
    · exact Or.inr (State.get_erase_of_ne _ hk)
    · obtain ⟨rfl, rfl⟩ : m' = m ∧ key' = key := by simpa using hk
      exact Or.inl (State.get_erase_self _ _ _)

theorem kept_step {e : Step T} (h : Kept K s) (ha : (traffic K).Allowed s e) (hn : NoReuse s e)
    (hr : RecordedFree K s e) : Kept K (step K s e) := by
  cases e with
  | sendEnter t c a =>
      obtain ⟨hidle, -⟩ : s.2.sending t = none ∧ s.2.receiving t = none := by
        simpa [traffic, Kern.Allows] using ha
      exact kept_sendEnter h c a hidle
  | loadMsg t ret fails =>
      cases hv : validMsgPtr ret with
      | false =>
          simp only [step, run_mqLoadMsgExit_untracked fails (Or.inl hv), hv, Bool.false_eq_true,
            if_false]
          exact h
      | true =>
          obtain ⟨hent, -⟩ : s.2.sending t = some .entered ∧
              s.2.live ret (fun _ => true) = false := by
            simpa [traffic, Kern.Allows, hv] using ha
          exact kept_loadMsg h fails hent hv (Option.isNone_iff_eq_none.mp hn)
  | msgInsert msg ret now fails =>
      obtain ⟨m, hm, hf, hst⟩ : ∃ m, s.2.msgs msg = some m ∧ m.freed = false ∧
          m.stage = .loaded := by
        simpa [traffic, Kern.Allows, Kern.live, Option.any_eq_true] using ha
      exact kept_msgInsert h ret now fails hm hst hf
  | handOver msg =>
      obtain ⟨m, hm, hf, hst⟩ : ∃ m, s.2.msgs msg = some m ∧ m.freed = false ∧
          m.stage = .loaded := by
        simpa [traffic, Kern.Allows, Kern.live, Option.any_eq_true] using ha
      exact kept_handOver h hm hst hf
  | sendExit t ret fails =>
      cases hp : s.2.sending t with
      | none => simp [traffic, Kern.Allows, hp] at ha
      | some p =>
          cases p with
          | entered => exact kept_sendExit_entered h ret fails hp
          | loaded msg => simp [traffic, Kern.Allows, hp] at ha
          | delivered msg => exact kept_sendExit h fails hp rfl nofun fun _ => rfl
          | failed msg =>
              have hret : ret ≠ 0 := by simpa [traffic, Kern.Allows, hp] using ha
              exact kept_sendExit h fails hp rfl nofun fun hz => absurd hz hret
  | recvEnter t c a => exact kept_recvEnter h t c a
  | storeMsg t msg c x =>
      obtain ⟨-, m, hm, hf, hst, -⟩ : s.2.receiving t = some .waiting ∧
          ∃ m, s.2.msgs msg = some m ∧ m.freed = false ∧ m.stage ≠ .loaded ∧
            m.takenBy = none := by
        simpa [traffic, Kern.Allows, Kern.Available, Kern.live, Option.any_eq_true] using ha
      exact kept_storeMsg h c x hm hst hf
  | freeMsg t msg why c x => exact kept_freeMsg h ha hr
  | recvExit t => exact kept_recvExit h t
  | evict m key =>
      have hm : (m = .pendingMessages ∨ m = .queuedMessages) ∨ m = .directMessages := by
        simpa [traffic, Kern.Allows] using ha
      exact kept_evict h (or_assoc.mp hm) key

end Steps

/-! ## Runs -/

/-- Once a message is freed and its send has exited, no map has a record of it. -/
def Clean (s : State × Kern T) : Prop :=
  ∀ msg m, s.2.msgs msg = some m → m.freed = true →
    (s.2.sending m.sender).bind SendPhase.msg ≠ some msg →
    s.1.get .pendingMessages msg = none ∧ s.1.get .queuedMessages msg = none ∧
      s.1.get .directMessages msg = none

theorem Kept.clean {K : Kernel T} {s : State × Kern T} (h : Kept K s) : Clean s := by
  intro msg m hm hf hexit
  refine ⟨?_, ?_, ?_⟩
  · by_contra hp
    obtain ⟨m', hm', hbind⟩ := h.sender_of_pending hp
    obtain rfl := Option.some.inj (hm.symm.trans hm')
    exact hexit hbind
  · by_contra hq
    obtain ⟨m', hm', -, hf'⟩ := h.queued msg hq
    obtain rfl := Option.some.inj (hm.symm.trans hm')
    simp [hf] at hf'
  · by_contra hd
    obtain ⟨m', hm', -, hf', -⟩ := h.direct msg hd
    obtain rfl := Option.some.inj (hm.symm.trans hm')
    simp [hf] at hf'

/-- Whatever fails or is evicted: as long as every receiver that frees a directly
handed over message before the exit of its send is recorded, nothing stays behind. -/
theorem nothing_stays_behind [DecidableEq T] (K : Kernel T) {es : List (Step T)}
    (hv : (((traffic K).restrict NoReuse).restrict (RecordedFree K)).Valid es) :
    Clean ((traffic K).run es) := by
  suffices h : Kept K ((traffic K).run es) from h.clean
  refine Machine.invariant_restrict (M := (traffic K).restrict NoReuse) (I := Kept K) ?_ ?_ hv
  · exact ⟨nofun, nofun, nofun, nofun, fun msg hmsg => absurd rfl hmsg,
      fun msg hp => absurd (State.get_start _ _) hp, fun msg hq => absurd (State.get_start _ _) hq,
      fun msg hd => absurd (State.get_start _ _) hd⟩
  · rintro s e h ⟨ha, hn⟩ hr
    exact kept_step h ha hn hr

instance (s : State × Kern T) (e : Step T) : Decidable (NoReuse s e) :=
  match e with
  | .loadMsg _ ret _ => inferInstanceAs (Decidable ((s.2.msgs ret).isNone = true))
  | .sendEnter .. | .msgInsert .. | .handOver .. | .sendExit .. | .recvEnter .. | .storeMsg ..
  | .freeMsg .. | .recvExit .. | .evict .. => inferInstanceAs (Decidable True)

instance (K : Kernel T) (s : State × Kern T) (e : Step T) : Decidable (RecordedFree K s e) :=
  match e with
  | .freeMsg t msg .receiver _ _ =>
      inferInstanceAs (Decidable ((s.2.msgs msg).any (·.stage = .handed) = true →
        (s.1.get .pendingMessages msg).isSome = true →
        (s.1.get .activeReceives (K.task t).pidTgid).isSome = true))
  | .freeMsg _ _ .sender _ _ | .freeMsg _ _ .destroyer _ _ => inferInstanceAs (Decidable True)
  | .sendEnter .. | .loadMsg .. | .msgInsert .. | .handOver .. | .sendExit .. | .recvEnter ..
  | .storeMsg .. | .recvExit .. | .evict .. => inferInstanceAs (Decidable True)

/-- A receiver that is not recorded and gets the message after the send has exited,
and a send that fails after its message was loaded. -/
theorem unrecorded_receiver_after_the_exit :
    let c : Ctrl := ⟨true, 0, 0, 0, 0⟩
    let a : SendArgs := ⟨3, 8, 0, Vector.replicate _ 0, false⟩
    let x : ConsumeArgs := ⟨100, true⟩
    let es : List (Step (Fin 2)) :=
      [.recvEnter 1 c ⟨4, Vector.replicate _ 0, true⟩, .sendEnter 0 c a, .loadMsg 0 64 false,
        .handOver 64, .sendExit 0 0 false, .storeMsg 1 64 c x, .freeMsg 1 64 .receiver c x,
        .recvExit 1, .sendEnter 1 c a, .loadMsg 1 128 false, .freeMsg 1 128 .sender c x,
        .sendExit 1 (-11) false]
    Clean ((traffic Kernel.two).run es) ∧
      ∀ t, ((traffic Kernel.two).run es).2.sending t = none := by
  intro c a x es
  exact ⟨nothing_stays_behind Kernel.two (by decide +kernel), by decide +kernel⟩

/-- The receiver is not recorded and is done with the message before the send
exits: the exit moves the record to `direct_messages`, where it stays. -/
theorem unrecorded_receiver_before_the_exit :
    let c : Ctrl := ⟨true, 0, 0, 0, 0⟩
    let a : SendArgs := ⟨3, 8, 0, Vector.replicate _ 0, false⟩
    let x : ConsumeArgs := ⟨100, true⟩
    let es : List (Step (Fin 2)) :=
      [.recvEnter 1 c ⟨4, Vector.replicate _ 0, true⟩, .sendEnter 0 c a, .loadMsg 0 64 false,
        .handOver 64, .storeMsg 1 64 c x, .freeMsg 1 64 .receiver c x, .sendExit 0 0 false]
    ((traffic Kernel.two).restrict NoReuse).Valid es ∧
      (((traffic Kernel.two).run es).1.get .directMessages 64).isSome = true ∧
      ¬ Clean ((traffic Kernel.two).run es) := by
  intro c a x es
  have hstale : (((traffic Kernel.two).run es).1.get .directMessages 64).isSome = true := by
    decide +kernel
  refine ⟨by decide +kernel, hstale, fun h => ?_⟩
  obtain ⟨m, hm, hf⟩ : ∃ m, ((traffic Kernel.two).run es).2.msgs 64 = some m ∧ m.freed = true :=
    ⟨_, rfl, rfl⟩
  have hidle : ∀ t, ((traffic Kernel.two).run es).2.sending t = none := by decide +kernel
  rw [(h 64 m hm hf (by simp [hidle])).2.2] at hstale
  cases hstale

end EbpfToolbox.Ipc.Msgqueue
