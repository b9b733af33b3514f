import EbpfToolbox.Ipc.Traffic

/-!
# How deliveries are classified

Collection is on for every process, nothing fails and nothing is evicted; every
send succeeds and every receive stores its message before it frees it. An address
may be given out again while the send that used it before has not exited yet.

`home` says which map holds the record of a message. A message that is loaded at an
address while an earlier send at that address exits has its record moved to
`direct_messages` by that exit, and `msg_insert` does not find it any more.
-/

namespace EbpfToolbox.Ipc.Msgqueue

open Common Lib

variable {T : Type}

/-- Collection is on for all processes, and every thread is visible. -/
structure Collecting (K : Kernel T) (c : Ctrl) : Prop where
  enable : c.enable = true
  targetPid : c.targetPid = 0
  visible : ∀ t, currentTgid c (K.task t) ≠ 0

/-- Constant settings, successful calls and insertions, no eviction, and a store
before every free. -/
def Ideal (c : Ctrl) (s : State × Kern T) : Step T → Prop
  | .sendEnter _ c' a => c' = c ∧ a.fails = false
  | .loadMsg _ ret fails => validMsgPtr ret = true ∧ fails = false
  | .msgInsert _ ret _ fails => ret = 0 ∧ fails = false
  | .handOver _ => True
  | .sendExit _ ret fails => ret = 0 ∧ fails = false
  | .recvEnter _ c' a => c' = c ∧ a.fails = false
  | .storeMsg _ _ c' _ => c' = c
  | .freeMsg t msg why c' _ =>
      c' = c ∧ why = .receiver ∧ s.2.receiving t = some (.stored msg)
  | .recvExit _ => True
  | .evict _ _ => False

/-! ## Where the record of a message is -/

def Msg.home (m : Msg T) : Option Table :=
  if m.freed || m.takenBy.isSome then none
  else if m.exitRan then some .directMessages
  else if m.stage = .queued then some .queuedMessages
  else some .pendingMessages

def home (m : Option (Msg T)) : Option Table := m.bind Msg.home

/-- Did the message go through the queue with its record? -/
def Msg.viaQueue (m : Msg T) : Bool := m.stage = .queued && !m.exitRan

/-- The maps follow the kernel, and the statistics count the consumed messages by
the map their record was in. -/
structure Followed (K : Kernel T) (s : State × Kern T) : Prop where
  sends : ∀ t p, s.2.sending t = some p → ∃ send,
    s.1.get .activeSends (K.task t).pidTgid = some send ∧
      ∀ msg, p.msg = some msg → send.msgKey = msg
  receives : ∀ t, s.2.receiving t ≠ none → s.1.get .activeReceives (K.task t).pidTgid ≠ none
  loading : ∀ msg m, s.2.msgs msg = some m → m.stage = .loaded → m.freed = false →
    s.2.sending m.sender = some (.loaded msg) ∧ m.takenBy = none
  stored : ∀ t msg, s.2.receiving t = some (.stored msg) → ∃ m,
    s.2.msgs msg = some m ∧ m.takenBy = some t ∧ m.freed = false
  nonnull : ∀ msg, s.2.msgs msg ≠ none → msg ≠ 0
  home : ∀ msg (m : Table), m.OfMessages →
    ((s.1.get m msg).isSome = true ↔ home (s.2.msgs msg) = some m)
  counted : s.1.deliveries =
    (s.2.consumed.countP Msg.viaQueue, s.2.consumed.countP (!Msg.viaQueue ·), 0)
  delivered : ∀ m ∈ s.2.consumed, m.stage ≠ .loaded

theorem ofMessages_of_home {m : Option (Msg T)} {tbl : Table} (h : home m = some tbl) :
    tbl.OfMessages := by
  obtain ⟨m, -, hm⟩ := Option.bind_eq_some_iff.mp h
  unfold Msg.home at hm
  split_ifs at hm
  all_goals
    obtain rfl := Option.some.inj hm
    simp [Table.OfMessages]

/-- An exit probe moves a record from `pending_messages` to `direct_messages` and
touches no other. -/
theorem Msg.home_passExit (m : Msg T) :
    m.passExit.home = if m.home = some .pendingMessages then some .directMessages else m.home := by
  rcases m with ⟨sender, stage, takenBy, freed, exitRan⟩
  cases stage <;> cases takenBy <;> cases freed <;> cases exitRan <;>
    simp [Msg.passExit, Msg.home]

namespace Followed

variable {K : Kernel T} {c : Ctrl} {s s' : State × Kern T}

theorem get_eq_none (h : Followed K s) {msg : UInt64} {m : Table} (hm : m.OfMessages)
    (hne : Msgqueue.home (s.2.msgs msg) ≠ some m) : s.1.get m msg = none := by
  cases hg : s.1.get m msg with
  | none => rfl
  | some v => exact absurd ((h.home msg m hm).mp (by simp [hg])) hne

/-- A consuming probe of a recorded receiver takes the record from its home. -/
theorem takes_eq (h : Followed K s) {t : T} (hr : s.2.receiving t ≠ none) (msg : UInt64) :
    takes s.1 (K.task t) msg = Msgqueue.home (s.2.msgs msg) := by
  have hrec := Option.isSome_iff_ne_none.mpr (h.receives t hr)
  have hq := h.home msg .queuedMessages (by simp [Table.OfMessages])
  have hd := h.home msg .directMessages (by simp [Table.OfMessages])
  have hp := h.home msg .pendingMessages (by simp [Table.OfMessages])
  unfold takes
  cases hh : Msgqueue.home (s.2.msgs msg) with
  | none => simp_all
  | some m => rcases ofMessages_of_home hh with rfl | rfl | rfl <;> simp_all

/-- A step that leaves the messages alone. -/
theorem of_threads (h : Followed K s)
    (hget : ∀ (m : Table) key, m.OfMessages → s'.1.get m key = s.1.get m key)
    (hdel : s'.1.deliveries = s.1.deliveries) (hmsgs : s'.2.msgs = s.2.msgs)
    (hcons : s'.2.consumed = s.2.consumed)
    (sends : ∀ t p, s'.2.sending t = some p → ∃ send,
      s'.1.get .activeSends (K.task t).pidTgid = some send ∧
        ∀ msg, p.msg = some msg → send.msgKey = msg)
    (receives : ∀ t, s'.2.receiving t ≠ none →
      s'.1.get .activeReceives (K.task t).pidTgid ≠ none)
    (loading : ∀ t msg, s.2.sending t = some (.loaded msg) →
      s'.2.sending t = some (.loaded msg))
    (stored : ∀ t msg, s'.2.receiving t = some (.stored msg) →
      s.2.receiving t = some (.stored msg)) : Followed K s' := by
  refine ⟨sends, receives, ?_, ?_, ?_, ?_, ?_, ?_⟩
  · intro msg m hm hst hf
    rw [hmsgs] at hm
    obtain ⟨hload, htaken⟩ := h.loading msg m hm hst hf
    exact ⟨loading _ _ hload, htaken⟩
  · intro t msg hr
    rw [hmsgs]
    exact h.stored t msg (stored t msg hr)
  · rw [hmsgs]
    exact h.nonnull
  · intro msg m hm
    rw [hget m msg hm, hmsgs]
    exact h.home msg m hm
  · rw [hdel, hcons]
    exact h.counted
  · rw [hcons]
    exact h.delivered

/-- A step that turns the message at `a` into `m'`. -/
theorem of_message [DecidableEq T] (h : Followed K s) {a : UInt64} (m' : Msg T) (ha : a ≠ 0)
    (hmsgs : s'.2.msgs = Function.update s.2.msgs a (some m'))
    (hget : ∀ (m : Table) key, m.OfMessages → key ≠ a → s'.1.get m key = s.1.get m key)
    (hhome : ∀ m : Table, m.OfMessages → ((s'.1.get m a).isSome = true ↔ m'.home = some m))
    (sends : ∀ t p, s'.2.sending t = some p → ∃ send,
      s'.1.get .activeSends (K.task t).pidTgid = some send ∧
        ∀ msg, p.msg = some msg → send.msgKey = msg)
    (receives : ∀ t, s'.2.receiving t ≠ none →
      s'.1.get .activeReceives (K.task t).pidTgid ≠ none)
    (loading : m'.stage = .loaded → m'.freed = false →
      s'.2.sending m'.sender = some (.loaded a) ∧ m'.takenBy = none)
    (others : ∀ t msg, msg ≠ a → s.2.sending t = some (.loaded msg) →
      s'.2.sending t = some (.loaded msg))
    (stored : ∀ t msg, s'.2.receiving t = some (.stored msg) →
      msg ≠ a ∧ s.2.receiving t = some (.stored msg) ∨
        msg = a ∧ m'.takenBy = some t ∧ m'.freed = false)
    (counted : s'.1.deliveries =
      (s'.2.consumed.countP Msg.viaQueue, s'.2.consumed.countP (!Msg.viaQueue ·), 0))
    (delivered : ∀ m ∈ s'.2.consumed, m.stage ≠ .loaded) : Followed K s' := by
  refine ⟨sends, receives, ?_, ?_, ?_, ?_, counted, delivered⟩
  · intro msg m hm hst hf
    rw [hmsgs] at hm
    by_cases hmsg : msg = a
    · subst hmsg
      obtain rfl : m' = m := by simpa using hm
      exact loading hst hf
    · rw [Function.update_of_ne hmsg] at hm
      obtain ⟨hload, htaken⟩ := h.loading msg m hm hst hf
      exact ⟨others _ _ hmsg hload, htaken⟩
  · intro t msg hr
    rw [hmsgs]
    rcases stored t msg hr with ⟨hmsg, hr⟩ | ⟨rfl, htaken, hf⟩
    · rw [Function.update_of_ne hmsg]
      exact h.stored t msg hr
    · exact ⟨m', by simp, htaken, hf⟩
  · intro msg hmsg
    rw [hmsgs] at hmsg
    by_cases hma : msg = a
    · rwa [hma]
    · rw [Function.update_of_ne hma] at hmsg
      exact h.nonnull msg hmsg
  · intro msg m hm
    rw [hmsgs]
    by_cases hmsg : msg = a
    · subst hmsg
      simpa [Msgqueue.home] using hhome m hm
    · rw [Function.update_of_ne hmsg, hget m msg hm hmsg]
      exact h.home msg m hm

end Followed

/-! ## Steps -/

section Steps

variable [DecidableEq T] {K : Kernel T} {c : Ctrl} {s : State × Kern T}

theorem followed_sendEnter (hc : Collecting K c) (h : Followed K s) {t : T} {a : SendArgs}
    (hidle : s.2.sending t = none) (hok : a.fails = false) :
    Followed K (step K s (.sendEnter t c a)) := by
  have hrun := run_mqSendEnter c (K.task t) s.1 a
  rw [if_neg (by simp [hc.enable, hc.visible t]), if_neg (by simp [hok])] at hrun
  simp only [step, hrun]
  refine h.of_threads ?_ rfl rfl rfl ?_ ?_ ?_ ?_
  · rintro m key (rfl | rfl | rfl) <;> simp [State.get_put_of_ne]
  · intro u p hp
    by_cases hut : u = t
    · subst hut
      obtain rfl : .entered = p := by simpa using hp
      exact ⟨_, State.get_put_self _ _ _ _, nofun⟩
    · simp only [Function.update_of_ne hut] at hp
      rw [State.get_put_of_ne _ _ fun _ => K.pidTgid_ne hut]
      exact h.sends u p hp
  · intro u hu
    simpa [State.get_put_of_ne] using h.receives u hu
  · intro u msg hu
    have hut : u ≠ t := by
      rintro rfl
      simp [hidle] at hu
    simpa [hut] using hu
  · exact fun u msg hu => hu

theorem followed_recvEnter (hc : Collecting K c) (h : Followed K s) {t : T} {a : RecvArgs}
    (hok : a.fails = false) : Followed K (step K s (.recvEnter t c a)) := by
  have hrun := run_mqRecvEnter c (K.task t) s.1 a
  rw [if_neg (by simp [hc.enable, hc.visible t]), if_neg (by simp [hok])] at hrun
  simp only [step, hrun]
  refine h.of_threads ?_ rfl rfl rfl ?_ ?_ (fun u msg hu => hu) ?_
  · rintro m key (rfl | rfl | rfl) <;> simp [State.get_put_of_ne]
  · intro u p hp
    simpa [State.get_put_of_ne] using h.sends u p hp
  · intro u hu
    by_cases hut : u = t
    · subst hut
      simp
    · simp only [Function.update_of_ne hut] at hu
      rw [State.get_put_of_ne _ _ fun _ => K.pidTgid_ne hut]
      exact h.receives u hu
  · intro u msg hu
    by_cases hut : u = t
    · subst hut
      simp at hu
    · simpa [hut] using hu

theorem followed_recvExit (h : Followed K s) (t : T) : Followed K (step K s (.recvExit t)) := by
  simp only [step, run_mqRecvExit]
  refine h.of_threads ?_ rfl rfl rfl ?_ ?_ (fun u msg hu => hu) ?_
  · rintro m key (rfl | rfl | rfl) <;> simp [State.get_erase_of_ne]
  · intro u p hp
    simpa [State.get_erase_of_ne] using h.sends u p hp
  · intro u hu
    have hut : u ≠ t := by
      rintro rfl
      simp at hu
    simp only [Function.update_of_ne hut] at hu
    rw [State.get_erase_of_ne _ fun _ => K.pidTgid_ne hut]
    exact h.receives u hu
  · intro u msg hu
    by_cases hut : u = t
    · subst hut
      simp at hu
    · simpa [hut] using hu

theorem followed_loadMsg (h : Followed K s) {t : T} {ret : UInt64}
    (hent : s.2.sending t = some .entered) (hv : validMsgPtr ret = true)
    (hfree : s.2.live ret (fun _ => true) = false) :
    Followed K (step K s (.loadMsg t ret false)) := by
  obtain ⟨send, hsend, -⟩ := h.sends t _ hent
  have hrun := run_mqLoadMsgExit false hv hsend
  simp only [Bool.false_eq_true, if_false] at hrun
  -- no map has a record of the message that was there before
  have hold : Msgqueue.home (s.2.msgs ret) = none := by
    cases hm : s.2.msgs ret with
    | none => rfl
    | some m =>
        have hf : m.freed = true := by simpa [Kern.live, hm] using hfree
        simp [home, Msg.home, hf]
  have hnone : ∀ m : Table, m.OfMessages → s.1.get m ret = none :=
    fun m hm => h.get_eq_none hm (by simp [hold])
  simp only [step, hrun, hv, if_true]
  refine h.of_message (a := ret) (Msg.new t) ?_ rfl ?_ ?_ ?_ ?_ ?_ ?_ ?_ h.counted h.delivered
  · rintro rfl
    simp [validMsgPtr] at hv
  · rintro m key (rfl | rfl | rfl) hkey <;> simp [State.get_put_of_ne, hkey]
  · rintro m (rfl | rfl | rfl)
    · simp [State.get_put_of_ne, Msg.new, Msg.home]
    · simpa [State.get_put_of_ne, Msg.new, Msg.home] using hnone .queuedMessages (by
        simp [Table.OfMessages])
    · simpa [State.get_put_of_ne, Msg.new, Msg.home] using hnone .directMessages (by
        simp [Table.OfMessages])
  · intro u p hp
    by_cases hut : u = t
    · subst hut
      obtain rfl : .loaded ret = p := by simpa [Kern.load] using hp
      exact ⟨_, State.get_put_self _ _ _ _, fun msg hmsg => Option.some.inj hmsg⟩
    · simp only [Kern.load, Function.update_of_ne hut] at hp
      simpa [State.get_put_of_ne, K.pidTgid_ne hut] using h.sends u p hp
  · intro u hu
    simpa [State.get_put_of_ne] using h.receives u hu
  · intro _ _
    simp [Kern.load, Msg.new]
  · intro u msg hmsg hu
    have hut : u ≠ t := by
      rintro rfl
      simp [hent] at hu
    simpa [Kern.load, hut] using hu
  · intro u msg hu
    refine Or.inl ⟨?_, hu⟩
    rintro rfl
    obtain ⟨m, hm, -, hf⟩ := h.stored u msg hu
    simp [Kern.live, hm, hf] at hfree

/-- A loaded message is inserted or handed over; only its record may move. -/
theorem followed_deliver (h : Followed K s) {σ : State} {msg : UInt64} {m : Msg T}
    (hm : s.2.msgs msg = some m) (hst : m.stage = .loaded) (hf : m.freed = false) {stage : Stage}
    (hstage : stage ≠ .loaded)
    (hget : ∀ (tbl : Table) key, (tbl.OfMessages → key ≠ msg) → σ.get tbl key = s.1.get tbl key)
    (hhome : ∀ tbl : Table, tbl.OfMessages →
      ((σ.get tbl msg).isSome = true ↔ Msg.home { m with stage } = some tbl))
    (hdel : σ.deliveries = s.1.deliveries) : Followed K (σ, s.2.deliver msg stage) := by
  obtain ⟨hload, htaken⟩ := h.loading msg m hm hst hf
  have hdeliver : s.2.deliver msg stage = { s.2 with
      msgs := Function.update s.2.msgs msg (some { m with stage })
      sending := Function.update s.2.sending m.sender (some (.delivered msg)) } := by
    simp only [Kern.deliver, Kern.modify, hm, Option.map_some]
  rw [hdeliver]
  refine h.of_message (a := msg) { m with stage } (h.nonnull msg (by simp [hm])) rfl
    (fun tbl key _ hkey => hget tbl key fun _ => hkey) hhome ?_ ?_ ?_ ?_ ?_ ?_ h.delivered
  · intro u p hp
    rw [hget .activeSends _ (by simp [Table.OfMessages])]
    by_cases hu : u = m.sender
    · subst hu
      obtain rfl : .delivered msg = p := by simpa using hp
      obtain ⟨send, hsend, hkey⟩ := h.sends _ _ hload
      exact ⟨send, hsend, fun msg' hmsg' => hkey msg' hmsg'⟩
    · simp only [Function.update_of_ne hu] at hp
      exact h.sends u p hp
  · intro u hu
    rw [hget .activeReceives _ (by simp [Table.OfMessages])]
    exact h.receives u hu
  · exact fun hl => absurd hl hstage
  · intro u msg' hne hu
    have hus : u ≠ m.sender := by
      rintro rfl
      exact hne (by simpa [hu] using hload)
    simpa [hus] using hu
  · intro u msg' hu
    refine Or.inl ⟨?_, hu⟩
    rintro rfl
    obtain ⟨m', hm', htaken', -⟩ := h.stored u msg' hu
    rw [hm] at hm'
    simp [← Option.some.inj hm', htaken] at htaken'
  · simpa [hdel] using h.counted

theorem followed_handOver (h : Followed K s) {msg : UInt64} {m : Msg T}
    (hm : s.2.msgs msg = some m) (hst : m.stage = .loaded) (hf : m.freed = false) :
    Followed K (step K s (.handOver msg)) := by
  refine followed_deliver h hm hst hf (by decide) (fun _ _ _ => rfl) ?_ rfl
  intro tbl htbl
  rw [h.home msg tbl htbl, hm]
  simp [home, Msg.home, hst]

theorem followed_msgInsert (h : Followed K s) {msg : UInt64} {m : Msg T}
    (hm : s.2.msgs msg = some m) (hst : m.stage = .loaded) (hf : m.freed = false) (now : UInt64) :
    Followed K (step K s (.msgInsert msg 0 now false)) := by
  obtain ⟨-, htaken⟩ := h.loading msg m hm hst hf
  have hp := h.home msg .pendingMessages (by simp [Table.OfMessages])
  have hd := h.home msg .directMessages (by simp [Table.OfMessages])
  cases hx : m.exitRan with
  | true =>
      -- an earlier send took the record away
      have hnone : s.1.get .pendingMessages msg = none := by
        simpa [hm, home, Msg.home, hf, htaken, hx] using hp
      simp only [step, run_mqMsgInsertExit_untracked now false (Or.inr hnone), if_true]
      refine followed_deliver h hm hst hf (by decide) (fun _ _ _ => rfl) ?_ rfl
      intro tbl htbl
      rw [h.home msg tbl htbl, hm]
      simp [home, Msg.home, hx]
  | false =>
      obtain ⟨pending, hpend⟩ : ∃ pending, s.1.get .pendingMessages msg = some pending := by
        rw [← Option.isSome_iff_exists, hp]
        simp [hm, home, Msg.home, hf, htaken, hx, hst]
      have hrun := run_mqMsgInsertExit now false (h.nonnull msg (by simp [hm])) hpend
      simp only [Bool.false_eq_true, if_false] at hrun
      simp only [step, hrun, if_true]
      refine followed_deliver h hm hst hf (by decide) ?_ ?_ rfl
      · intro tbl key hkey
        by_cases htbl : tbl.OfMessages
        · rw [State.get_erase_of_ne _ fun _ => hkey htbl, State.get_put_of_ne _ _ fun _ => hkey htbl]
        · have h1 : tbl ≠ .pendingMessages := fun he => htbl (by simp [he, Table.OfMessages])
          have h2 : tbl ≠ .queuedMessages := fun he => htbl (by simp [he, Table.OfMessages])
          rw [State.get_erase_of_ne _ fun he => absurd he h1,
            State.get_put_of_ne _ _ fun he => absurd he h2]
      · rintro tbl (rfl | rfl | rfl)
        · simp [Msg.home, hf, htaken, hx]
        · simp [State.get_erase_of_ne, Msg.home, hf, htaken, hx]
        · have hnone : s.1.get .directMessages msg = none := by
            simpa [hm, home, Msg.home, hf, htaken, hx, hst] using hd
          simp [State.get_erase_of_ne, State.get_put_of_ne, Msg.home, hf, htaken, hx, hnone]

/-- The exit of thread `t`, whatever lives at the address of its message by now. -/
theorem followed_exit (h : Followed K s) {σ : State} {t : T} {msg : UInt64} {m : Msg T}
    (hdel : s.2.sending t = some (.delivered msg)) (hm : s.2.msgs msg = some m)
    (hget : ∀ (tbl : Table) key, tbl.OfMessages → key ≠ msg → σ.get tbl key = s.1.get tbl key)
    (hhome : ∀ tbl : Table, tbl.OfMessages →
      ((σ.get tbl msg).isSome = true ↔ m.passExit.home = some tbl))
    (hsends : ∀ u, u ≠ t → σ.get .activeSends (K.task u).pidTgid =
      s.1.get .activeSends (K.task u).pidTgid)
    (hrecvs : ∀ key, σ.get .activeReceives key = s.1.get .activeReceives key)
    (hcnt : σ.deliveries = s.1.deliveries) : Followed K (σ, s.2.exit t) := by
  have hexit : s.2.exit t = { s.2 with
      msgs := Function.update s.2.msgs msg (some m.passExit)
      sending := Function.update s.2.sending t none } := by
    simp only [Kern.exit, Kern.modify, hdel, Option.bind_some, SendPhase.msg, hm, Option.map_some]
  -- a thread that is loading its message is not the one that exits
  have hothers : ∀ u msg', s.2.sending u = some (.loaded msg') →
      Function.update s.2.sending t none u = some (.loaded msg') := by
    intro u msg' hu
    have hut : u ≠ t := by
      rintro rfl
      simp [hdel] at hu
    simpa [hut] using hu
  obtain ⟨hsender, hstage, htakenBy, hfreed⟩ := m.passExit_fields
  rw [hexit]
  refine h.of_message m.passExit (h.nonnull msg (by simp [hm])) rfl hget hhome ?_ ?_ ?_
    (fun u msg' _ hu => hothers u msg' hu) ?_ (hcnt.trans h.counted) h.delivered
  · intro u p hp
    have hut : u ≠ t := by
      rintro rfl
      simp at hp
    obtain ⟨send, hsend, hkey⟩ := h.sends u p (by simpa [hut] using hp)
    exact ⟨send, (hsends u hut).trans hsend, hkey⟩
  · intro u hu
    rw [hrecvs]
    exact h.receives u hu
  · rw [hsender, hstage, htakenBy, hfreed]
    intro hst hf
    obtain ⟨hload, htaken⟩ := h.loading msg m hm hst hf
    exact ⟨hothers _ _ hload, htaken⟩
  · intro u msg' hu
    rw [htakenBy, hfreed]
    by_cases hmsg : msg' = msg
    · obtain ⟨m', hm', htaken, hf⟩ := h.stored u msg' hu
      rw [hmsg, hm] at hm'
      obtain rfl := Option.some.inj hm'
      exact Or.inr ⟨hmsg, htaken, hf⟩
    · exact Or.inl ⟨hmsg, hu⟩

theorem followed_sendExit_unknown (h : Followed K s) {t : T} {msg : UInt64}
    (hdel : s.2.sending t = some (.delivered msg)) (hm : s.2.msgs msg = none) :
    Followed K (step K s (.sendExit t 0 false)) := by
  obtain ⟨send, hsend, hkey⟩ := h.sends t _ hdel
  obtain rfl := hkey msg rfl
  have hnone : s.1.get .pendingMessages send.msgKey = none :=
    h.get_eq_none (by simp [Table.OfMessages]) (by simp [hm, home])
  have hexit : s.2.exit t = { s.2 with sending := Function.update s.2.sending t none } := by
    simp [Kern.exit, Kern.modify, hdel, SendPhase.msg, hm]
  simp only [step, hexit, run_mqSendExit_settled 0 false hsend (Or.inr hnone)]
  refine h.of_threads ?_ rfl rfl rfl ?_ ?_ ?_ (fun _ _ hu => hu)
  · rintro m key (rfl | rfl | rfl) <;> simp [State.get_erase_of_ne]
  · intro u p hp
    have hut : u ≠ t := by
      rintro rfl
      simp at hp
    simpa [State.get_erase_of_ne, K.pidTgid_ne hut] using h.sends u p (by simpa [hut] using hp)
  · intro u hu
    simpa [State.get_erase_of_ne] using h.receives u hu
  · intro u msg hu
    have hut : u ≠ t := by
      rintro rfl
      simp [hdel] at hu
    simpa [hut] using hu

theorem followed_sendExit (h : Followed K s) {t : T} {msg : UInt64} {m : Msg T}
    (hdel : s.2.sending t = some (.delivered msg)) (hm : s.2.msgs msg = some m) :
    Followed K (step K s (.sendExit t 0 false)) := by
  obtain ⟨send, hsend, hkey⟩ := h.sends t _ hdel
  obtain rfl := hkey msg rfl
  have hnonnull := h.nonnull send.msgKey (by simp [hm])
  have hhome : ∀ tbl : Table, tbl.OfMessages →
      ((s.1.get tbl send.msgKey).isSome = true ↔ m.home = some tbl) := by
    intro tbl htbl
    rw [h.home _ tbl htbl, hm]
    rfl
  have hpending := hhome .pendingMessages (by simp [Table.OfMessages])
  simp only [step]
  cases hpend : s.1.get .pendingMessages send.msgKey with
  | none =>
      -- the record has left `pending_messages`: only the send context goes
      have hne : m.home ≠ some .pendingMessages := by
        rw [Ne, ← hpending, hpend]
        simp
      rw [run_mqSendExit_settled 0 false hsend (Or.inr hpend)]
      refine followed_exit h hdel hm ?_ ?_ ?_ ?_ rfl
      · rintro tbl key (rfl | rfl | rfl) _ <;> simp [State.get_erase_of_ne]
      · intro tbl htbl
        rw [m.home_passExit, if_neg hne, ← hhome tbl htbl]
        rcases htbl with rfl | rfl | rfl <;> simp [State.get_erase_of_ne]
      · intro u hut
        simp [State.get_erase_of_ne, K.pidTgid_ne hut]
      · simp [State.get_erase_of_ne]
  | some pending =>
      -- the record moves to `direct_messages`, also when it is not the send's own
      have hhere : m.home = some .pendingMessages := by
        rw [← hpending, hpend]
        rfl
      have hrun := run_mqSendExit 0 false hsend hnonnull hpend
      simp only [if_true, Bool.false_eq_true, if_false] at hrun
      rw [hrun]
      refine followed_exit h hdel hm ?_ ?_ ?_ ?_ rfl
      · rintro tbl key (rfl | rfl | rfl) hkey <;>
          simp [State.get_erase_of_ne, State.get_put_of_ne, hkey]
      · have hq := (hhome .queuedMessages (by simp [Table.OfMessages])).not
        rw [m.home_passExit, if_pos hhere]
        rintro tbl (rfl | rfl | rfl)
        · simp [State.get_erase_of_ne]
        · simpa [State.get_erase_of_ne, State.get_put_of_ne, hhere] using hq
        · simp [State.get_erase_of_ne]
      · intro u hut
        simp [State.get_erase_of_ne, State.get_put_of_ne, K.pidTgid_ne hut]
      · simp [State.get_erase_of_ne, State.get_put_of_ne]

omit [DecidableEq T] in
/-- The entries of threads survive a consuming probe. -/
theorem get_consume_thread (h : Followed K s) {t : T} (hr : s.2.receiving t ≠ none)
    {msg : UInt64} (hmsg : msg ≠ 0) (countUnmatched : Bool) (x : ConsumeArgs) {tbl : Table}
    (htbl : ¬ tbl.OfMessages) (key : UInt64) :
    (run (consumeMessage c (K.task t) msg countUnmatched x) s.1).get tbl key =
      s.1.get tbl key := by
  rw [get_run_consumeMessage c (K.task t) s.1 countUnmatched x hmsg, h.takes_eq hr, if_neg]
  rintro ⟨hhome, -⟩
  exact htbl (ofMessages_of_home hhome)

theorem followed_storeMsg (hc : Collecting K c) (h : Followed K s) {t : T} {msg : UInt64}
    (x : ConsumeArgs) {m : Msg T} (hr : s.2.receiving t = some .waiting)
    (hm : s.2.msgs msg = some m) (hf : m.freed = false) (htaken : m.takenBy = none)
    (hst : m.stage ≠ .loaded) : Followed K (step K s (.storeMsg t msg c x)) := by
  have hrec : s.2.receiving t ≠ none := by simp [hr]
  have hmsg : msg ≠ 0 := h.nonnull msg (by simp [hm])
  have htakes : takes s.1 (K.task t) msg = m.home := by
    rw [h.takes_eq hrec, hm]
    rfl
  have hgets := get_run_consumeMessage c (K.task t) s.1 true x hmsg
  rw [htakes] at hgets
  have hdel := run_consumeMessage_deliveries true x hmsg hc.enable hc.targetPid (h.receives t hrec)
  rw [htakes] at hdel
  simp only [step, Kern.take, Kern.modify, hm, Option.map_some, Option.toList_some,
    mqStoreMsgEnter]
  refine h.of_message (a := msg) { m with takenBy := some t } hmsg rfl ?_ ?_ ?_ ?_ ?_ ?_
    ?_ ?_ ?_
  · intro tbl key _ hkey
    rw [hgets, if_neg fun hand => hkey hand.2]
  · intro tbl htbl
    have hhome : ((s.1.get tbl msg).isSome = true ↔ m.home = some tbl) := by
      rw [h.home msg tbl htbl, hm]
      rfl
    have hgone : Msg.home { m with takenBy := some t } = none := by simp [Msg.home]
    rw [hgets, hgone]
    by_cases heq : m.home = some tbl
    · simp [heq]
    · rw [if_neg fun hand => heq hand.1, hhome]
      simp [heq]
  · intro u p hp
    rw [get_consume_thread h hrec hmsg true x (by simp [Table.OfMessages])]
    exact h.sends u p hp
  · intro u hu
    rw [get_consume_thread h hrec hmsg true x (by simp [Table.OfMessages])]
    by_cases hut : u = t
    · subst hut
      exact h.receives u hrec
    · exact h.receives u (by simpa [hut] using hu)
  · exact fun hl => absurd hl hst
  · exact fun u msg' _ hu => hu
  · intro u msg' hu
    by_cases hut : u = t
    · subst hut
      obtain rfl : msg = msg' := by simpa using hu
      exact Or.inr ⟨rfl, rfl, hf⟩
    · simp only [Function.update_of_ne hut] at hu
      refine Or.inl ⟨?_, hu⟩
      rintro rfl
      obtain ⟨m', hm', htaken', -⟩ := h.stored u msg' hu
      rw [hm] at hm'
      simp [← Option.some.inj hm', htaken] at htaken'
  · rw [hdel, h.counted, List.countP_append, List.countP_append]
    have hadd : delivered true m.home = (if m.viaQueue then (1, 0, 0) else (0, 1, 0)) := by
      cases hx : m.exitRan <;> cases hs : m.stage <;>
        simp_all [Msg.home, Msg.viaQueue, delivered]
    rw [hadd]
    cases hv : m.viaQueue <;> simp [hv]
  · intro m' hm'
    rcases List.mem_append.mp hm' with hm' | hm'
    · exact h.delivered m' hm'
    · rwa [List.mem_singleton.mp hm']

/-- After the store there is nothing left for the free to find. -/
theorem followed_freeMsg (hc : Collecting K c) (h : Followed K s) {t : T} {msg : UInt64}
    (x : ConsumeArgs) (hr : s.2.receiving t = some (.stored msg)) :
    Followed K (step K s (.freeMsg t msg .receiver c x)) := by
  obtain ⟨m, hm, htaken, hf⟩ := h.stored t msg hr
  have hrec : s.2.receiving t ≠ none := by simp [hr]
  have hmsg : msg ≠ 0 := h.nonnull msg (by simp [hm])
  have hhome : ∀ tbl : Table, tbl.OfMessages → s.1.get tbl msg = none := fun tbl htbl =>
    h.get_eq_none htbl (by simp [hm, home, Msg.home, htaken])
  have htakes : takes s.1 (K.task t) msg = none := by
    rw [h.takes_eq hrec, hm]
    simp [home, Msg.home, htaken]
  have hget : ∀ tbl key, (run (consumeMessage c (K.task t) msg false x) s.1).get tbl key =
      s.1.get tbl key := by
    intro tbl key
    rw [get_run_consumeMessage c _ _ false x hmsg, if_neg (by simp [htakes])]
  have hdel := run_consumeMessage_deliveries false x hmsg hc.enable hc.targetPid
    (h.receives t hrec)
  rw [htakes] at hdel
  simp only [step, Kern.free, Kern.modify, hm, Option.map_some, mqFreeMsgEnter]
  refine h.of_message (a := msg) { m with freed := true } hmsg rfl
    (fun tbl key _ _ => hget tbl key) ?_ ?_ ?_ nofun (fun u msg' _ hu => hu) ?_ ?_ h.delivered
  · intro tbl htbl
    simp [hget, hhome tbl htbl, Msg.home]
  · intro u p hp
    rw [hget]
    exact h.sends u p hp
  · intro u hu
    rw [hget]
    by_cases hut : u = t
    · subst hut
      exact h.receives u hrec
    · exact h.receives u (by simpa [hut] using hu)
  · intro u msg' hu
    by_cases hut : u = t
    · subst hut
      simp at hu
    · simp only [Function.update_of_ne hut] at hu
      refine Or.inl ⟨?_, hu⟩
      rintro rfl
      obtain ⟨m', hm', htaken', -⟩ := h.stored u msg' hu
      rw [hm] at hm'
      obtain rfl := Option.some.inj hm'
      exact hut (Option.some.inj (htaken'.symm.trans htaken))
  · rw [hdel, h.counted]
    simp [delivered]

theorem followed_step (hc : Collecting K c) {e : Step T} (h : Followed K s)
    (ha : (traffic K).Allowed s e) (hi : Ideal c s e) : Followed K (step K s e) := by
  cases e with
  | sendEnter t c' a =>
      rcases hi with ⟨rfl, hok⟩
      obtain ⟨hidle, -⟩ : s.2.sending t = none ∧ s.2.receiving t = none := by
        simpa [traffic, Kern.Allows] using ha
      exact followed_sendEnter hc h hidle hok
  | loadMsg t ret fails =>
      rcases hi with ⟨hv, rfl⟩
      obtain ⟨hent, hfree⟩ : s.2.sending t = some .entered ∧
          s.2.live ret (fun _ => true) = false := by
        simpa [traffic, Kern.Allows, hv] using ha
      exact followed_loadMsg h hent hv hfree
  | msgInsert msg ret now fails =>
      rcases hi with ⟨rfl, rfl⟩
      obtain ⟨m, hm, hf, hst⟩ : ∃ m, s.2.msgs msg = some m ∧ m.freed = false ∧
          m.stage = .loaded := by
        simpa [traffic, Kern.Allows, Kern.live, Option.any_eq_true] using ha
      exact followed_msgInsert h hm hst hf now
  | handOver msg =>
      obtain ⟨m, hm, hf, hst⟩ : ∃ m, s.2.msgs msg = some m ∧ m.freed = false ∧
          m.stage = .loaded := by
        simpa [traffic, Kern.Allows, Kern.live, Option.any_eq_true] using ha
      exact followed_handOver h hm hst hf
  | sendExit t ret fails =>
      rcases hi with ⟨rfl, rfl⟩
      cases hp : s.2.sending t with
      | none => simp [traffic, Kern.Allows, hp] at ha
      | some p =>
          cases p with
          | delivered msg =>
              cases hm : s.2.msgs msg with
              | none => exact followed_sendExit_unknown h hp hm
              | some m => exact followed_sendExit h hp hm
          | entered => simp [traffic, Kern.Allows, hp] at ha
          | loaded msg => simp [traffic, Kern.Allows, hp] at ha
          | failed msg => simp [traffic, Kern.Allows, hp] at ha
  | recvEnter t c' a =>
      rcases hi with ⟨rfl, hok⟩
      exact followed_recvEnter hc h hok
  | storeMsg t msg c' x =>
      obtain rfl := hi
      obtain ⟨hr, m, hm, hf, hst, htaken⟩ : s.2.receiving t = some .waiting ∧
          ∃ m, s.2.msgs msg = some m ∧ m.freed = false ∧ m.stage ≠ .loaded ∧
            m.takenBy = none := by
        simpa [traffic, Kern.Allows, Kern.Available, Kern.live, Option.any_eq_true] using ha
      exact followed_storeMsg hc h x hr hm hf htaken hst
  | freeMsg t msg why c' x =>
      rcases hi with ⟨rfl, rfl, hr⟩
      exact followed_freeMsg hc h x hr
  | recvExit t => exact followed_recvExit h t
  | evict m key => exact hi.elim

theorem followed_run (hc : Collecting K c) {es : List (Step T)}
    (hv : ((traffic K).restrict (Ideal c)).Valid es) : Followed K ((traffic K).run es) := by
  refine Machine.invariant_restrict (I := Followed K) ?_ ?_ hv
  · refine ⟨nofun, fun t ht => absurd rfl ht, nofun, nofun, fun msg hmsg => absurd rfl hmsg, ?_,
      rfl, nofun⟩
    intro msg m _
    simp [traffic, Kern.start, home]
  · intro s e h ha hi
    exact followed_step hc h ha hi

end Steps

/-! ## Runs -/

/-- The statistics count consumed messages by how they were delivered. -/
structure Classified (s : State × Kern T) : Prop where
  queued : s.1.counters .queuedCount = s.2.consumed.countP (·.stage = .queued)
  direct : s.1.counters .directCount = s.2.consumed.countP (·.stage = .handed)
  unmatched : s.1.counters .unmatchedCount = 0

/-- The message was inserted after the exit probe of an earlier send at its
address had run. -/
def Msg.overtaken (m : Msg T) : Bool := m.stage = .queued && m.exitRan

theorem countP_stages {l : List (Msg T)} (h : ∀ m ∈ l, m.stage ≠ .loaded) :
    l.countP (·.stage = .queued) = l.countP Msg.viaQueue + l.countP Msg.overtaken ∧
      l.countP (!Msg.viaQueue ·) = l.countP (·.stage = .handed) + l.countP Msg.overtaken := by
  induction l with
  | nil => exact ⟨rfl, rfl⟩
  | cons m l ih =>
      obtain ⟨hq, hd⟩ := ih fun m' hm' => h m' (List.mem_cons_of_mem _ hm')
      have hm := h m (List.mem_cons_self ..)
      simp only [List.countP_cons, hq, hd]
      cases hs : m.stage with
      | loaded => exact absurd hs hm
      | queued => cases hx : m.exitRan <;> simp [Msg.viaQueue, Msg.overtaken, hs, hx] <;> omega
      | handed => simp [Msg.viaQueue, Msg.overtaken, hs]; omega

/-- The counts are those of the deliveries exactly when no consumed message was
overtaken on its way into the queue. -/
theorem classified_iff_none_overtaken [DecidableEq T] (K : Kernel T) {c : Ctrl}
    (hc : Collecting K c) {es : List (Step T)}
    (hv : ((traffic K).restrict (Ideal c)).Valid es) :
    Classified ((traffic K).run es) ↔
      ∀ m ∈ ((traffic K).run es).2.consumed, m.overtaken = false := by
  have h := followed_run hc hv
  generalize (traffic K).run es = s at h ⊢
  obtain ⟨hqueued, hdirect⟩ := countP_stages h.delivered
  have hcounted := h.counted
  simp only [State.deliveries, Prod.mk.injEq] at hcounted
  rcases hcounted with ⟨hq, hd, hu⟩
  have hzero : (∀ m ∈ s.2.consumed, m.overtaken = false) ↔ s.2.consumed.countP Msg.overtaken = 0 := by
    simp [List.countP_eq_zero]
  rw [hzero]
  constructor
  · intro hcl
    have hvia := hq.symm.trans hcl.queued
    omega
  · intro hnone
    exact ⟨hq.trans (by omega), hd.trans (by omega), hu⟩

instance [DecidableEq T] (c : Ctrl) (s : State × Kern T) (e : Step T) : Decidable (Ideal c s e) :=
  match e with
  | .sendEnter _ c' a => inferInstanceAs (Decidable (c' = c ∧ a.fails = false))
  | .loadMsg _ ret fails => inferInstanceAs (Decidable (validMsgPtr ret = true ∧ fails = false))
  | .msgInsert _ ret _ fails => inferInstanceAs (Decidable (ret = 0 ∧ fails = false))
  | .sendExit _ ret fails => inferInstanceAs (Decidable (ret = 0 ∧ fails = false))
  | .recvEnter _ c' a => inferInstanceAs (Decidable (c' = c ∧ a.fails = false))
  | .storeMsg _ _ c' _ => inferInstanceAs (Decidable (c' = c))
  | .freeMsg t msg why c' _ =>
      inferInstanceAs (Decidable (c' = c ∧ why = .receiver ∧ s.2.receiving t = some (.stored msg)))
  | .handOver .. | .recvExit .. => inferInstanceAs (Decidable True)
  | .evict .. => inferInstanceAs (Decidable False)

/-- Two direct deliveries at one address, the second message loaded before the
first send exits: still two direct deliveries. -/
theorem reused_address_of_handed_messages :
    let c : Ctrl := ⟨true, 0, 0, 0, 0⟩
    let a : SendArgs := ⟨3, 8, 0, Vector.replicate _ 0, false⟩
    let r : RecvArgs := ⟨4, Vector.replicate _ 0, false⟩
    let x : ConsumeArgs := ⟨100, true⟩
    let es : List (Step (Fin 2)) :=
      [.recvEnter 1 c r, .sendEnter 0 c a, .loadMsg 0 64 false, .handOver 64,
        .storeMsg 1 64 c x, .freeMsg 1 64 .receiver c x, .recvExit 1,
        .sendEnter 1 c a, .loadMsg 1 64 false, .sendExit 0 0 false,
        .recvEnter 0 c r, .handOver 64, .storeMsg 0 64 c x]
    ((traffic Kernel.two).run es).1.deliveries = (0, 2, 0) ∧
      Classified ((traffic Kernel.two).run es) := by
  intro c a r x es
  refine ⟨by decide +kernel, (classified_iff_none_overtaken Kernel.two (c := c) ?_ ?_).mpr ?_⟩
  · exact ⟨rfl, rfl, by decide +kernel⟩
  · decide +kernel
  · decide +kernel

/-- The same reuse, but the second message finds no receiver and is inserted: the
exit of the first send has moved its record, so it is counted as direct. -/
theorem reused_address_of_inserted_message :
    let c : Ctrl := ⟨true, 0, 0, 0, 0⟩
    let a : SendArgs := ⟨3, 8, 0, Vector.replicate _ 0, false⟩
    let r : RecvArgs := ⟨4, Vector.replicate _ 0, false⟩
    let x : ConsumeArgs := ⟨100, true⟩
    let es : List (Step (Fin 2)) :=
      [.recvEnter 1 c r, .sendEnter 0 c a, .loadMsg 0 64 false, .handOver 64,
        .storeMsg 1 64 c x, .freeMsg 1 64 .receiver c x, .recvExit 1,
        .sendEnter 1 c a, .loadMsg 1 64 false, .sendExit 0 0 false,
        .msgInsert 64 0 50 false, .sendExit 1 0 false,
        .recvEnter 0 c r, .storeMsg 0 64 c x]
    Collecting Kernel.two c ∧ ((traffic Kernel.two).restrict (Ideal c)).Valid es ∧
      ((traffic Kernel.two).run es).1.deliveries = (0, 2, 0) ∧
      ((traffic Kernel.two).run es).2.consumed.map (·.stage) = [.handed, .queued] ∧
      ¬ Classified ((traffic Kernel.two).run es) := by
  intro c a r x es
  refine ⟨⟨rfl, rfl, by decide +kernel⟩, by decide +kernel, by decide +kernel, by decide +kernel,
    fun h => ?_⟩
  exact absurd h.queued (by decide +kernel)

end EbpfToolbox.Ipc.Msgqueue
