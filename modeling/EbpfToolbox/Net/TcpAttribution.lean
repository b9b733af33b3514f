import EbpfToolbox.Lib.Machine
import EbpfToolbox.Net.TcpMonitor

/-!
# Whose connection an event belongs to

`sess_map` should name, for every socket, the thread that made the last connect
on it. A connect that `record_connect` filters out leaves the map as it is, so a
session of an earlier connect on the same socket survives it and the events that
follow carry the earlier process and the earlier start. Outside that one branch
the attribution is right in every run.
-/

namespace EbpfToolbox.Net.TcpMonitor

open Common Lib

variable {n : ℕ}

/-- A connect call: who made it, and when it was entered. -/
structure Conn where
  tgid : UInt32
  tid : UInt32
  comm : Comm
  entryTs : UInt64

def connOf (ctrl : Ctrl) (cur : Task) (a : ConnectArgs n) : Conn :=
  let pidTgid := appCurrentPidTgidNs cur ctrl.pidNsDev ctrl.pidNsIno
  ⟨tgidOf pidTgid, tidOf pidTgid, a.comm, a.now⟩

/-- The time at which the probe runs, where it reads the clock. -/
def Probe.now : Probe n → UInt64
  | .connect _ _ _ a => a.now
  | .finishConnect _ x => x.now
  | .retransmit _ x => x.now
  | .close _ x => x.now
  | .connectExit .. => 0
  | .evict _ => 0

/-- An event with the last connect on its socket and the time of the probe that made it. -/
structure Emission where
  event : Event
  conn : Option Conn
  now : UInt64

/-- `last sk` is the most recent connect on the socket in its current lifetime,
which `tcp_close` ends; `log` has every event with what it should be about. -/
structure History where
  last : UInt64 → Option Conn
  log : List Emission

def History.step (ctrl : Ctrl) (s s' : State n) (h : History) (p : Probe n) : History where
  last := match p with
    | .connect _ cur sk a => Function.update h.last sk (some (connOf ctrl cur a))
    | .close sk _ => Function.update h.last sk none
    | _ => h.last
  log := h.log ++ (submitted s s').map fun e => ⟨e, h.last p.sk, p.now⟩

/-- Every order of the probes, without failing insertions and evictions. -/
def attributed (n : ℕ) (ctrl : Ctrl) : Machine (State n × History) (Probe n) where
  init := (State.start n, ⟨fun _ => none, []⟩)
  step s p := (p.run ctrl s.1, s.2.step ctrl s.1 (p.run ctrl s.1) p)
  Allowed _ p := match p with
    | .connect _ _ _ a => a.updateFails = false
    | .evict _ => False
    | _ => True

/-- The event names the thread of the connect, and its latency is counted from
the entry of that connect; an event of a lifetime without a connect belongs to none. -/
def Event.BelongsTo (e : Event) : Option Conn → Prop
  | none => False
  | some conn => e.tgid = conn.tgid ∧ e.tid = conn.tid ∧ e.comm = conn.comm ∧
      (e.type ≠ .retransmit → e.latencyNs = e.tsNs - conn.entryTs)

/-- There was a connect, the event names its thread, and the latency of a handshake or a
close runs from the entry of that connect to the probe. -/
def Emission.Right (m : Emission) : Prop :=
  ∃ conn, m.conn = some conn ∧ m.event.tgid = conn.tgid ∧ m.event.tid = conn.tid ∧
    m.event.comm = conn.comm ∧ m.event.tsNs = m.now ∧
    (m.event.type ≠ .retransmit → m.event.latencyNs = m.now - conn.entryTs)

/-- The event log is complete and every event belongs to the last connect. -/
structure Attributed (s : State n × History) : Prop where
  complete : s.2.log.map Emission.event = s.1.rb
  right : ∀ m ∈ s.2.log, m.Right

/-- The branch that goes wrong is not taken: a connect that the filter rejects
finds no session at its socket. -/
def Unmixed (ctrl : Ctrl) (s : State n × History) : Probe n → Prop
  | .connect _ cur sk _ => recorded ctrl cur = true ∨ s.1.sessMap.get sk = none
  | _ => True

/-! ## Sessions of the last connect -/

/-- The session carries the thread and the entry time of the connect. -/
def TcpSess.Of (sess : TcpSess) (conn : Conn) : Prop :=
  sess.tgid = conn.tgid ∧ sess.tid = conn.tid ∧ sess.comm = conn.comm ∧
    sess.startTs = conn.entryTs

/-- Every stored session is of the last connect on its socket. -/
def OfLast (s : State n × History) : Prop :=
  ∀ sk sess, s.1.sessMap.get sk = some sess → ∃ conn, s.2.last sk = some conn ∧ sess.Of conn

theorem TcpSess.Of.saveSock {sess : TcpSess} {conn : Conn} (h : sess.Of conn) (sock : Sock) :
    (saveSock sess sock).Of conn := by
  rcases h with ⟨h1, h2, h3, h4⟩
  exact ⟨by simpa using h1, by simpa using h2, by simpa using h3, by simpa using h4⟩

theorem TcpSess.Of.settled {sess : TcpSess} {conn : Conn} (h : sess.Of conn) (ctrl : Ctrl)
    (x : EventArgs n) : (settled ctrl sess x).Of conn := by
  have hrep : ({ sess with handshakeReported := true } : TcpSess).Of conn := h
  simp only [TcpMonitor.settled]
  split_ifs
  · exact hrep
  · exact hrep.saveSock x.sock

/-- An event is filled from the session the probe found. -/
theorem event_of {ctrl : Ctrl} {p : Probe n} {old : Option TcpSess} {e : Event}
    (he : p.event ctrl old = some e) :
    ∃ sess, old = some sess ∧ ∀ conn, sess.Of conn → e.BelongsTo (some conn) := by
  cases p with
  | finishConnect sk x =>
      obtain ⟨sess, hold, he⟩ := Option.bind_eq_some_iff.mp he
      obtain ⟨_, he⟩ := Option.ite_none_right_eq_some.mp he
      refine ⟨sess, hold, fun conn hconn => ?_⟩
      obtain ⟨h1, h2, h3, h4⟩ := hconn.settled ctrl x
      rw [← Option.some.inj he]
      exact ⟨h1, h2, h3, fun _ => congrArg (x.now - ·) h4⟩
  | retransmit sk x =>
      obtain ⟨sess, hold, he⟩ := Option.bind_eq_some_iff.mp he
      obtain ⟨_, he⟩ := Option.ite_none_right_eq_some.mp he
      refine ⟨sess, hold, fun conn hconn => ?_⟩
      rcases hconn with ⟨h1, h2, h3, h4⟩
      rw [← Option.some.inj he]
      simp only [retransmitEvent, fillSock, fillProcess, retransmitted]
      split_ifs <;> exact ⟨h1, h2, h3, fun hne => absurd rfl hne⟩
  | close sk x =>
      obtain ⟨sess, hold, he⟩ := Option.bind_eq_some_iff.mp he
      obtain ⟨_, he⟩ := Option.ite_none_right_eq_some.mp he
      refine ⟨sess, hold, fun conn hconn => ?_⟩
      rcases hconn with ⟨h1, h2, h3, h4⟩
      rw [← Option.some.inj he]
      exact ⟨h1, h2, h3, fun _ => congrArg (x.now - ·) h4⟩
  | connect family cur sk a => cases he
  | connectExit family sk sock ret => cases he
  | evict sk => cases he

/-- An event carries the time of its probe. -/
theorem event_tsNs {ctrl : Ctrl} {p : Probe n} {old : Option TcpSess} {e : Event}
    (he : p.event ctrl old = some e) : e.tsNs = p.now := by
  cases p with
  | finishConnect sk x =>
      obtain ⟨sess, -, he⟩ := Option.bind_eq_some_iff.mp he
      obtain ⟨_, he⟩ := Option.ite_none_right_eq_some.mp he
      rw [← Option.some.inj he]
      rfl
  | retransmit sk x =>
      obtain ⟨sess, -, he⟩ := Option.bind_eq_some_iff.mp he
      obtain ⟨_, he⟩ := Option.ite_none_right_eq_some.mp he
      rw [← Option.some.inj he]
      simp only [retransmitEvent, fillSock]
      split_ifs <;> rfl
  | close sk x =>
      obtain ⟨sess, -, he⟩ := Option.bind_eq_some_iff.mp he
      obtain ⟨_, he⟩ := Option.ite_none_right_eq_some.mp he
      rw [← Option.some.inj he]
      rfl
  | connect family cur sk a => cases he
  | connectExit family sk sock ret => cases he
  | evict sk => cases he

theorem ofLast_step {ctrl : Ctrl} {s : State n × History} {p : Probe n} (h : OfLast s)
    (ha : (attributed n ctrl).Allowed s p) (hc : Unmixed ctrl s p) :
    OfLast ((attributed n ctrl).step s p) := by
  have hdo := p.run_does ctrl s.1
  intro sk sess hsess
  -- a probe changes the session of its own socket only
  by_cases hsk : sk = p.sk
  · subst hsk
    have hnew := hdo.get_sk.symm.trans hsess
    cases p with
    | connect family cur sk a =>
        refine ⟨connOf ctrl cur a, by simp [attributed, History.step, Probe.sk], ?_⟩
        simp only [Probe.session, show a.updateFails = false from ha, Bool.not_false,
          Bool.and_true] at hnew
        split_ifs at hnew with hrec
        · rw [← Option.some.inj hnew]
          exact ⟨rfl, rfl, rfl, rfl⟩
        · -- rejected: the old session would have stayed, but there was none
          have hnone : s.1.sessMap.get sk = none := hc.resolve_left hrec
          exact absurd (hnone.symm.trans hnew) (by simp)
    | close sk x => cases hnew
    | evict sk => cases hnew
    | connectExit family sk sock ret =>
        simp only [Probe.session] at hnew
        split_ifs at hnew
        obtain ⟨sess', hold, rfl⟩ := Option.map_eq_some_iff.mp hnew
        obtain ⟨conn, hlast, hof⟩ := h sk sess' hold
        exact ⟨conn, hlast, hof.saveSock sock⟩
    | finishConnect sk x =>
        obtain ⟨sess', hold, rfl⟩ := Option.map_eq_some_iff.mp hnew
        obtain ⟨conn, hlast, hof⟩ := h sk sess' hold
        refine ⟨conn, hlast, ?_⟩
        split_ifs
        · exact hof.settled ctrl x
        · exact hof
    | retransmit sk x =>
        obtain ⟨sess', hold, rfl⟩ := Option.map_eq_some_iff.mp hnew
        obtain ⟨conn, hlast, hof⟩ := h sk sess' hold
        refine ⟨conn, hlast, ?_⟩
        split_ifs <;> exact hof
  · obtain ⟨conn, hlast, hof⟩ := h sk sess ((hdo.get_of_ne hsk).symm.trans hsess)
    refine ⟨conn, ?_, hof⟩
    cases p with
    | connect family cur sk' a =>
        simpa [attributed, History.step, Function.update_of_ne (show sk ≠ sk' from hsk)] using hlast
    | close sk' x =>
        simpa [attributed, History.step, Function.update_of_ne (show sk ≠ sk' from hsk)] using hlast
    | connectExit family sk' sock ret => exact hlast
    | finishConnect sk' x => exact hlast
    | retransmit sk' x => exact hlast
    | evict sk' => exact hlast

theorem Attributed.step {ctrl : Ctrl} {s : State n × History} (h : Attributed s)
    (hlast : OfLast s) (p : Probe n) : Attributed ((attributed n ctrl).step s p) := by
  have hsub := submitted_run ctrl s.1 p
  constructor
  · have hrb := (p.run_does ctrl s.1).rb
    simp only [attributed, History.step, List.map_append, h.complete, List.map_map, hrb, hsub]
    exact congrArg _ (List.map_id _)
  · intro m hm
    simp only [attributed, History.step, List.mem_append, List.mem_map] at hm
    rcases hm with hm | ⟨e, he, rfl⟩
    · exact h.right m hm
    · rw [hsub, Option.mem_toList] at he
      obtain ⟨sess, hold, hbel⟩ := event_of he
      obtain ⟨conn, hconn, hof⟩ := hlast p.sk sess hold
      obtain ⟨htgid, htid, hcomm, hlatency⟩ := hbel conn hof
      have hts := event_tsNs he
      rw [hts] at hlatency
      exact ⟨conn, hconn, htgid, htid, hcomm, hts, hlatency⟩

/-! ## Runs -/

instance (ctrl : Ctrl) (s : State n × History) (p : Probe n) :
    Decidable ((attributed n ctrl).Allowed s p) :=
  match p with
  | .connect _ _ _ a => inferInstanceAs (Decidable (a.updateFails = false))
  | .evict _ => inferInstanceAs (Decidable False)
  | .connectExit .. | .finishConnect .. | .retransmit .. | .close .. =>
      inferInstanceAs (Decidable True)

/-- In every run in which no filtered connect meets a live session, every event
belongs to the most recent connect on its socket. -/
theorem events_belong_to_the_last_connect (ctrl : Ctrl) {ps : List (Probe n)}
    (hv : ((attributed n ctrl).restrict (Unmixed ctrl)).Valid ps) :
    Attributed ((attributed n ctrl).run ps) := by
  suffices h : OfLast ((attributed n ctrl).run ps) ∧ Attributed ((attributed n ctrl).run ps) from
    h.2
  refine Machine.invariant_restrict (I := fun s => OfLast s ∧ Attributed s) ?_ ?_ hv
  · refine ⟨?_, rfl, ?_⟩
    · intro sk sess hsess
      simp [attributed, State.start] at hsess
    · intro m hm
      simp [attributed] at hm
  · rintro s p ⟨hlast, hatt⟩ ha hc
    exact ⟨ofLast_step hlast ha hc, hatt.step hlast p⟩

/-- Two processes connect one after the other on the same socket, both recorded. -/
theorem second_recorded_connect_is_attributed :
    let sock : Sock := ⟨2, 40000, 80, 1, 2, Vector.replicate _ 0, Vector.replicate _ 0, 1⟩
    let ctrl : Ctrl := ⟨true, 0, 0, 0, 0⟩
    let ps : List (Probe 1) :=
      [.connect .v4 ⟨packPidTgid 7 7, fun _ _ => none⟩ 64 ⟨0, 10, Vector.replicate _ 0, false⟩,
        .connectExit .v4 64 sock 0,
        .connect .v4 ⟨packPidTgid 8 8, fun _ _ => none⟩ 64 ⟨0, 50, Vector.replicate _ 0, false⟩,
        .connectExit .v4 64 sock 0, .finishConnect 64 ⟨0, 60, sock, true⟩]
    ((attributed 1 ctrl).run ps).1.rb.map (·.tgid) = [8] ∧
      Attributed ((attributed 1 ctrl).run ps) := by
  intro sock ctrl ps
  refine ⟨by decide +kernel, events_belong_to_the_last_connect ctrl ?_⟩
  refine ⟨⟨rfl, Or.inl (by decide +kernel)⟩, ⟨trivial, trivial⟩,
    ⟨rfl, Or.inl (by decide +kernel)⟩, ⟨trivial, trivial⟩, ⟨trivial, trivial⟩, trivial⟩

/-- The branch that goes wrong: process 7 is the target, its asynchronous connect
fails without a probe, process 8 shares the descriptor and connects again. The
handshake is reported as one of process 7, with the latency from its connect. -/
theorem filtered_connect_keeps_the_old_session :
    let sock : Sock := ⟨2, 40000, 80, 1, 2, Vector.replicate _ 0, Vector.replicate _ 0, 1⟩
    let ctrl : Ctrl := ⟨true, 0, 7, 0, 0⟩
    let ps : List (Probe 1) :=
      [.connect .v4 ⟨packPidTgid 7 7, fun _ _ => none⟩ 64 ⟨0, 10, Vector.replicate _ 0, false⟩,
        .connectExit .v4 64 sock 0,
        .connect .v4 ⟨packPidTgid 8 8, fun _ _ => none⟩ 64 ⟨0, 50, Vector.replicate _ 0, false⟩,
        .connectExit .v4 64 sock 0, .finishConnect 64 ⟨0, 60, sock, true⟩]
    (attributed 1 ctrl).Valid ps ∧
      ((attributed 1 ctrl).run ps).1.rb.map (fun e => (e.tgid, e.latencyNs)) = [(7, 50)] ∧
      ¬ Attributed ((attributed 1 ctrl).run ps) := by
  intro sock ctrl ps
  refine ⟨by decide +kernel, by decide +kernel, fun h => ?_⟩
  have hall : ∀ m ∈ ((attributed 1 ctrl).run ps).2.log,
      m.conn.map (m.now - ·.entryTs) = some m.event.latencyNs := by
    intro m hm
    have htype : ∀ m ∈ ((attributed 1 ctrl).run ps).2.log, m.event.type ≠ .retransmit := by
      decide +kernel
    obtain ⟨conn, hconn, -, -, -, -, hlatency⟩ := h.right m hm
    rw [hconn, hlatency (htype m hm), Option.map_some]
  revert hall
  decide +kernel

end EbpfToolbox.Net.TcpMonitor
