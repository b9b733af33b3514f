import EbpfToolbox.Lib.Shards
import EbpfToolbox.Net.TcpAttribution

/-!
# The events of one socket

The probes touch `sess_map` only at the socket they were called for, so the monitor
is one automaton per socket, and the ring buffer is a shuffle of what these emit.
The events of a socket fall into sessions, one for each connect that was stored:
at most one HANDSHAKE, any number of RETRANSMITs and at most one CLOSE, after which
there is nothing until the next connect. This holds whatever is inserted, evicted
or dropped.
-/

namespace EbpfToolbox.Net.TcpMonitor

open Common Lib

variable {n : ℕ}

/-! ## One automaton per socket -/

/-- Every order of the probes, with failing insertions and evictions. -/
def monitor (n : ℕ) (ctrl : Ctrl) : Machine (State n) (Probe n) where
  init := State.start n
  step s p := p.run ctrl s
  Allowed _ _ := True

/-- What the probes do at one socket. -/
def socket (ctrl : Ctrl) : Shard TcpSess (Probe n) Event where
  next old p := p.session ctrl old
  emit old p := p.event ctrl old

@[simp] theorem socket_next (ctrl : Ctrl) (old : Option TcpSess) (p : Probe n) :
    (socket ctrl).next old p = p.session ctrl old := rfl

@[simp] theorem socket_emit (ctrl : Ctrl) (old : Option TcpSess) (p : Probe n) :
    (socket ctrl).emit old p = p.event ctrl old := rfl

/-- The map and the ring buffer are those of the automata. -/
theorem monitor_run (ctrl : Ctrl) (ps : List (Probe n)) :
    let s := (monitor n ctrl).run ps
    let t := ((socket ctrl).product Probe.sk).run ps
    (∀ sk, s.sessMap.get sk = t.1 sk) ∧ s.rb = t.2.map Prod.snd := by
  have hv : (monitor n ctrl).Valid ps := by
    induction ps using List.reverseRecOn with
    | nil => exact trivial
    | append_singleton ps p ih => exact (Machine.valid_snoc _ ps p).mpr ⟨ih, trivial⟩
  refine Machine.simulation (M := monitor n ctrl) (N := (socket ctrl).product Probe.sk)
    (R := fun s t => (∀ sk, s.sessMap.get sk = t.1 sk) ∧ s.rb = t.2.map Prod.snd) ?_ ?_ hv
  · exact ⟨fun sk => BpfMap.get_empty sk, rfl⟩
  · rintro s t p ⟨hsess, hrb⟩ -
    have hdo := p.run_does ctrl s
    refine ⟨fun sk => ?_, ?_⟩
    · simp only [monitor, Shard.product, socket]
      by_cases hk : sk = p.sk
      · subst hk
        rw [Function.update_self, hdo.get_sk, hsess]
      · rw [Function.update_of_ne hk, hdo.get_of_ne hk, hsess]
    · simp only [monitor, Shard.product, socket]
      rw [hdo.rb, hrb, hsess, List.map_append, List.map_map]
      simp [Function.comp_def]

/-! ## Sessions -/

/-- The connect that a probe stores, if any. -/
def stored (ctrl : Ctrl) : Probe n → Option Conn
  | .connect _ cur _ a =>
      if recorded ctrl cur && !a.updateFails then some (connOf ctrl cur a) else none
  | _ => none

/-- The events of one stored connect. -/
structure SessionStory (conn : Conn) (es : List Event) : Prop where
  owner : ∀ e ∈ es, e.BelongsTo (some conn)
  handshake : es.countP (fun e => e.type = .handshake) ≤ 1
  close : ∀ e ∈ es.dropLast, e.type ≠ .close

/-- The session is the one of `conn`, and what it has emitted so far. -/
structure Open (sess : TcpSess) (conn : Conn) (es : List Event) : Prop where
  of : sess.Of conn
  story : SessionStory conn es
  running : ∀ e ∈ es, e.type ≠ .close
  fresh : sess.handshakeReported = false → ∀ e ∈ es, e.type ≠ .handshake

theorem SessionStory.nil (conn : Conn) : SessionStory conn [] :=
  ⟨fun _ h => absurd h List.not_mem_nil, Nat.zero_le _, fun _ h => absurd h List.not_mem_nil⟩

/-- One more event of a session that is still open. -/
theorem Open.snoc {sess : TcpSess} {conn : Conn} {es : List Event} (h : Open sess conn es)
    {e : Event} (he : e.BelongsTo (some conn))
    (hnew : e.type = .handshake → sess.handshakeReported = false) :
    SessionStory conn (es ++ [e]) := by
  refine ⟨?_, ?_, ?_⟩
  · intro e' he'
    rcases List.mem_append.mp he' with he' | he'
    · exact h.story.owner e' he'
    · rwa [List.mem_singleton.mp he']
  · rw [List.countP_append, List.countP_singleton]
    by_cases hty : e.type = .handshake
    · have hzero : es.countP (fun e => e.type = .handshake) = 0 :=
        List.countP_eq_zero.mpr fun e' he' => by simpa using h.fresh (hnew hty) e' he'
      simp [hzero, hty]
    · simpa [hty] using h.story.handshake
  · rw [List.dropLast_concat]
    exact h.running

/-- A session that changes without an event. -/
theorem Open.silent {sess sess' : TcpSess} {conn : Conn} {es : List Event}
    (h : Open sess conn es) (hof : sess'.Of conn)
    (hrep : sess'.handshakeReported = false → sess.handshakeReported = false) :
    Open sess' conn es :=
  ⟨hof, h.story, h.running, fun hf => h.fresh (hrep hf)⟩

theorem Open.emits {sess sess' : TcpSess} {conn : Conn} {es : List Event}
    (h : Open sess conn es) (hof : sess'.Of conn) {e : Event} (he : e.BelongsTo (some conn))
    (hnew : e.type = .handshake → sess.handshakeReported = false) (hclose : e.type ≠ .close)
    (hrep : sess'.handshakeReported = false →
      sess.handshakeReported = false ∧ e.type ≠ .handshake) :
    Open sess' conn (es ++ [e]) := by
  refine ⟨hof, h.snoc he hnew, ?_, fun hf => ?_⟩
  · rw [List.forall_mem_append, List.forall_mem_singleton]
    exact ⟨h.running, hclose⟩
  · rw [List.forall_mem_append, List.forall_mem_singleton]
    exact ⟨h.fresh (hrep hf).1, (hrep hf).2⟩

theorem settled_reported (ctrl : Ctrl) (sess : TcpSess) (x : EventArgs n) :
    (settled ctrl sess x).handshakeReported = true := by
  simp only [settled]
  split_ifs
  · rfl
  · simp

/-- A probe that stores no connect continues the session it finds or ends it. -/
theorem Open.step {ctrl : Ctrl} {sess : TcpSess} {conn : Conn} {es : List Event}
    (h : Open sess conn es) {p : Probe n} (hp : stored ctrl p = none) :
    SessionStory conn (es ++ (p.event ctrl (some sess)).toList) ∧
      ∀ sess', p.session ctrl (some sess) = some sess' →
        Open sess' conn (es ++ (p.event ctrl (some sess)).toList) := by
  have howner : ∀ e, p.event ctrl (some sess) = some e → e.BelongsTo (some conn) := by
    intro e he
    obtain ⟨_, hold, hbelongs⟩ := event_of he
    exact hbelongs conn (Option.some.inj hold ▸ h.of)
  cases p with
  | connect family cur sk a =>
      have hrej : (recorded ctrl cur && !a.updateFails) = false := by
        simpa [stored] using hp
      have hsame : (Probe.connect family cur sk a).session ctrl (some sess) = some sess := by
        simp only [Probe.session, hrej, Bool.false_eq_true, if_false]
      simp only [Probe.event, Option.toList_none, List.append_nil, hsame]
      exact ⟨h.story, fun sess' hs => Option.some.inj hs ▸ h⟩
  | connectExit family sk sock ret =>
      simp only [Probe.event, Option.toList_none, List.append_nil, Probe.session]
      refine ⟨h.story, fun sess' hs => ?_⟩
      split_ifs at hs
      obtain rfl := Option.some.inj hs
      exact h.silent (h.of.saveSock sock) (by simp)
  | finishConnect sk x =>
      simp only [Probe.session, Option.map_some, Option.some.injEq]
      cases hset : settles ctrl sess with
      | false =>
          have hev : (Probe.finishConnect sk x).event ctrl (some sess) = none := by
            simp [Probe.event, hset]
          rw [hev, Option.toList_none, List.append_nil]
          exact ⟨h.story, fun sess' hs => hs ▸ h⟩
      | true =>
          have hfresh : sess.handshakeReported = false := by
            simpa using (Bool.and_eq_true_iff.mp hset).2
          cases hev : (Probe.finishConnect sk x).event ctrl (some sess) with
          | none =>
              rw [Option.toList_none, List.append_nil]
              refine ⟨h.story, ?_⟩
              rintro sess' rfl
              exact h.silent (h.of.settled ctrl x) fun _ => hfresh
          | some e =>
              have hty : e.type ≠ .close := by
                obtain ⟨_, he⟩ := Option.ite_none_right_eq_some.mp hev
                rw [← Option.some.inj he]
                exact EventType.noConfusion
              refine ⟨h.snoc (howner e hev) fun _ => hfresh, ?_⟩
              rintro sess' rfl
              refine h.emits (h.of.settled ctrl x) (howner e hev) (fun _ => hfresh) hty fun hf => ?_
              simp [settled_reported] at hf
  | retransmit sk x =>
      simp only [Probe.session, Option.map_some, Option.some.injEq]
      have hof : (if sessionAllowed ctrl sess then retransmitted sess else sess).Of conn := by
        split_ifs <;> exact h.of
      have hrep : (if sessionAllowed ctrl sess then retransmitted sess else
          sess).handshakeReported = sess.handshakeReported := by
        split_ifs <;> rfl
      cases hev : (Probe.retransmit sk x).event ctrl (some sess) with
      | none =>
          rw [Option.toList_none, List.append_nil]
          refine ⟨h.story, ?_⟩
          rintro sess' rfl
          exact h.silent hof fun hf => hrep.symm.trans hf
      | some e =>
          have hty : e.type = .retransmit := by
            obtain ⟨_, he⟩ := Option.ite_none_right_eq_some.mp hev
            rw [← Option.some.inj he]
            simp only [retransmitEvent, fillSock, fillProcess]
            split_ifs <;> rfl
          refine ⟨h.snoc (howner e hev) (by simp [hty]), ?_⟩
          rintro sess' rfl
          exact h.emits hof (howner e hev) (by simp [hty]) (by simp [hty])
            fun hf => ⟨hrep.symm.trans hf, by simp [hty]⟩
  | close sk x =>
      refine ⟨?_, fun sess' hs => by simp [Probe.session] at hs⟩
      cases hev : (Probe.close sk x).event ctrl (some sess) with
      | none =>
          rw [Option.toList_none, List.append_nil]
          exact h.story
      | some e =>
          refine h.snoc (howner e hev) fun hty => ?_
          obtain ⟨_, he⟩ := Option.ite_none_right_eq_some.mp hev
          rw [← Option.some.inj he] at hty
          cases hty
  | evict sk =>
      simp only [Probe.event, Option.toList_none, List.append_nil, Probe.session]
      exact ⟨h.story, fun sess' hs => by cases hs⟩

/-! ## Runs of one socket -/

/-- The events so far are one story for each stored connect, and a live session
belongs to the last of them. -/
def Told (ctrl : Ctrl) (ps : List (Probe n)) : Prop :=
  ∃ stories, List.Forall₂ SessionStory (ps.filterMap (stored ctrl)) stories ∧
    (socket ctrl).story ps = stories.flatten ∧
    ∀ sess, (socket ctrl).value ps = some sess → ∃ conns conn earlier last,
      ps.filterMap (stored ctrl) = conns ++ [conn] ∧ stories = earlier ++ [last] ∧
        Open sess conn last

theorem forall₂_snoc {α β : Type} {R : α → β → Prop} {as : List α} {bs : List β} {a : α} {b : β}
    (h : List.Forall₂ R as bs) (hab : R a b) : List.Forall₂ R (as ++ [a]) (bs ++ [b]) :=
  List.rel_append h (List.Forall₂.cons hab List.Forall₂.nil)

/-- The last pair of two related lists is replaced. -/
theorem forall₂_replace_last {α β : Type} {R : α → β → Prop} {as : List α} {bs : List β} {a : α}
    {b b' : β} (h : List.Forall₂ R (as ++ [a]) (bs ++ [b])) (hab : R a b') :
    List.Forall₂ R (as ++ [a]) (bs ++ [b']) := by
  have hlen : as.length = bs.length := by simpa using h.length_eq
  have htake := List.forall₂_take as.length h
  rw [List.take_left, hlen, List.take_left] at htake
  exact forall₂_snoc htake hab

/-- Without a session nothing is emitted and no session appears, except by a connect. -/
theorem idle_step {ctrl : Ctrl} {p : Probe n} (hp : stored ctrl p = none) :
    p.session ctrl none = none ∧ p.event ctrl none = none := by
  cases p with
  | connect family cur sk a =>
      have hrej : (recorded ctrl cur && !a.updateFails) = false := by
        simpa [stored] using hp
      simp only [Probe.session, hrej, Bool.false_eq_true, if_false, Probe.event, and_self]
  | connectExit family sk sock ret => simp [Probe.session, Probe.event]
  | finishConnect sk x => exact ⟨rfl, rfl⟩
  | retransmit sk x => exact ⟨rfl, rfl⟩
  | close sk x => exact ⟨rfl, rfl⟩
  | evict sk => exact ⟨rfl, rfl⟩

/-- A stored connect begins a session, whatever was there. -/
theorem stored_step {ctrl : Ctrl} {p : Probe n} {conn : Conn} (hp : stored ctrl p = some conn)
    (old : Option TcpSess) :
    (∃ sess, p.session ctrl old = some sess ∧ Open sess conn []) ∧ p.event ctrl old = none := by
  cases p with
  | connect family cur sk a =>
      obtain ⟨hrec, hconn⟩ := Option.ite_none_right_eq_some.mp hp
      refine ⟨⟨newSess (appCurrentPidTgidNs cur ctrl.pidNsDev ctrl.pidNsIno) a, ?_, ?_⟩, rfl⟩
      · simp only [Probe.session, hrec, if_true]
      · rw [← Option.some.inj hconn]
        refine ⟨⟨rfl, rfl, rfl, rfl⟩, SessionStory.nil _, ?_, ?_⟩
        · exact fun e he => absurd he List.not_mem_nil
        · exact fun _ e he => absurd he List.not_mem_nil
  | connectExit family sk sock ret => cases hp
  | finishConnect sk x => cases hp
  | retransmit sk x => cases hp
  | close sk x => cases hp
  | evict sk => cases hp

theorem told (ctrl : Ctrl) (ps : List (Probe n)) : Told ctrl ps := by
  induction ps using List.reverseRecOn with
  | nil => exact ⟨[], List.Forall₂.nil, rfl, fun sess hs => by cases hs⟩
  | append_singleton ps p ih =>
      obtain ⟨stories, hall, hstory, hopen⟩ := ih
      unfold Told
      rw [Shard.story_snoc, Shard.value_snoc, List.filterMap_append, hstory, socket_next,
        socket_emit]
      generalize (socket ctrl).value ps = old at hopen ⊢
      cases hp : stored ctrl p with
      | some conn =>
          obtain ⟨⟨sess, hsess, hnew⟩, hev⟩ := stored_step hp old
          have hone : [p].filterMap (stored ctrl) = [conn] := by simp [hp]
          rw [hsess, hev, hone]
          refine ⟨stories ++ [[]], forall₂_snoc hall (SessionStory.nil conn), by simp, ?_⟩
          intro sess' hs
          exact ⟨_, conn, stories, [], rfl, rfl, Option.some.inj hs ▸ hnew⟩
      | none =>
          have hnone : [p].filterMap (stored ctrl) = [] := by simp [hp]
          rw [hnone, List.append_nil]
          cases old with
          | none =>
              obtain ⟨hsess, hev⟩ := idle_step hp
              rw [hsess, hev, Option.toList_none, List.append_nil]
              exact ⟨stories, hall, rfl, fun sess hs => by cases hs⟩
          | some sess =>
              obtain ⟨conns, conn, earlier, last, hconns, rfl, h⟩ := hopen sess rfl
              obtain ⟨hlast, hnext⟩ := h.step hp
              rw [hconns] at hall ⊢
              refine ⟨earlier ++ [last ++ (p.event ctrl (some sess)).toList],
                forall₂_replace_last hall hlast, by simp, fun sess' hs => ?_⟩
              exact ⟨conns, conn, earlier, _, rfl, rfl, hnext sess' hs⟩

/-! ## Runs of all sockets -/

end EbpfToolbox.Net.TcpMonitor
