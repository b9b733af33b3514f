import EbpfToolbox.Common.PidNamespace
import EbpfToolbox.Lib.BpfMap
import EbpfToolbox.Lib.PerCpu
import EbpfToolbox.Net.Inet

/-!
# net/tcp_monitor

`net/tcp_monitor/tcp_monitor.bpf.c`. A connect stores a session under the socket
address; the handshake, retransmit and close probes run in other contexts and
find the connecting process through that session.

The probes are translated one by one. The second half says what a probe does in
one sentence each: what becomes of the session of its socket
(`Probe.session`), which event it submits (`Probe.event`) and how it moves the
counters. Every result about runs rests on these three.
-/

namespace EbpfToolbox.Net.TcpMonitor

open Common Lib

/-- `struct TcpMonitor_ctrl`. -/
structure Ctrl where
  enable : Bool
  minLatencyNs : UInt64
  targetPid : Int32
  pidNsDev : UInt64
  pidNsIno : UInt64

/-- The fields of `struct sock` that the probes read; `dport` is in network
byte order. -/
structure Sock where
  family : UInt16
  num : UInt16
  dport : UInt16
  rcvSaddr : UInt32
  daddr : UInt32
  v6RcvSaddr : Addr6
  v6Daddr : Addr6
  state : UInt8

/-- `struct tcp_sess`; a fresh one is zeroed. -/
structure TcpSess where
  startTs : UInt64 := 0
  tgid : UInt32 := 0
  tid : UInt32 := 0
  retransCnt : UInt32 := 0
  handshakeReported : Bool := false
  sport : UInt16 := 0
  dport : UInt16 := 0
  af : Int32 := 0
  saddrV4 : UInt32 := 0
  daddrV4 : UInt32 := 0
  saddrV6 : Addr6 := Vector.replicate _ 0
  daddrV6 : Addr6 := Vector.replicate _ 0
  comm : Comm := Vector.replicate _ 0

/-- `TCP_EV_HANDSHAKE`, `TCP_EV_RETRANSMIT`, `TCP_EV_CLOSE`. -/
inductive EventType : Type where
  | handshake
  | retransmit
  | close
deriving DecidableEq, Repr

/-- `struct TcpMonitor_event`; the probes zero it before they fill it. -/
structure Event where
  type : EventType
  tsNs : UInt64 := 0
  latencyNs : UInt64 := 0
  retransCnt : UInt32 := 0
  tgid : UInt32 := 0
  tid : UInt32 := 0
  sport : UInt16 := 0
  dport : UInt16 := 0
  saddrV4 : UInt32 := 0
  daddrV4 : UInt32 := 0
  af : Int32 := 0
  state : UInt32 := 0
  comm : Comm := Vector.replicate _ 0
  saddrV6 : Addr6 := Vector.replicate _ 0
  daddrV6 : Addr6 := Vector.replicate _ 0

/-- `struct TcpMonitor_stats`. -/
structure Stats where
  connectAttempted : ℕ := 0
  hsCount : ℕ := 0
  hsTotalNs : UInt64 := 0
  hsMaxNs : UInt64 := 0
  rtCount : ℕ := 0
  clCount : ℕ := 0
  clTotalNs : UInt64 := 0
  clMaxNs : UInt64 := 0
  filteredLatency : ℕ := 0
  ringbufDropped : ℕ := 0
  mapUpdateFailed : ℕ := 0
  untrackedEvents : ℕ := 0
  hsMaxSport : UInt16 := 0
  hsMaxDport : UInt16 := 0
  hsMaxAf : Int32 := 0
  hsMaxSaddr : UInt32 := 0
  hsMaxDaddr : UInt32 := 0
  hsMaxSaddrV6 : Addr6 := Vector.replicate _ 0
  hsMaxDaddrV6 : Addr6 := Vector.replicate _ 0
  hsMaxComm : Comm := Vector.replicate _ 0

/-- `sess_map`, `stats_map` and what was submitted to `rb`. -/
structure State (n : ℕ) where
  sessMap : BpfMap UInt64 TcpSess
  stats : PerCpu n Stats
  rb : List Event

def State.start (n : ℕ) : State n := ⟨∅, fun _ => {}, []⟩

variable {n : ℕ}

def State.bump (s : State n) (cpu : Fin n) (f : Stats → Stats) : State n :=
  { s with stats := s.stats.modify cpu f }

/-! ## Helpers of the probes -/

def sessionAllowed (ctrl : Ctrl) (sess : TcpSess) : Bool :=
  if ctrl.enable = false then false
  else decide (ctrl.targetPid = 0 ∨ ctrl.targetPid.toUInt32 = sess.tgid)

def fillSock (event : Event) (sk : Sock) : Event :=
  let event :=
    { event with
      af := sk.family.toUInt32.toInt32, sport := sk.num, dport := bpfNtohs sk.dport }
  if sk.family = afInet then
    { event with
      saddrV4 := sk.rcvSaddr, daddrV4 := sk.daddr
      saddrV6 := Vector.replicate _ 0, daddrV6 := Vector.replicate _ 0 }
  else if sk.family = afInet6 then
    { event with
      saddrV4 := 0, daddrV4 := 0, saddrV6 := sk.v6RcvSaddr, daddrV6 := sk.v6Daddr }
  else event

def fillProcess (event : Event) (sess : TcpSess) : Event :=
  { event with tgid := sess.tgid, tid := sess.tid, comm := sess.comm }

def saveSock (sess : TcpSess) (sk : Sock) : TcpSess :=
  let sess :=
    { sess with
      af := sk.family.toUInt32.toInt32, sport := sk.num, dport := bpfNtohs sk.dport }
  if sk.family = afInet then { sess with saddrV4 := sk.rcvSaddr, daddrV4 := sk.daddr }
  else if sk.family = afInet6 then { sess with saddrV6 := sk.v6RcvSaddr, daddrV6 := sk.v6Daddr }
  else sess

def fillSavedSock (event : Event) (sess : TcpSess) : Event :=
  { event with
    af := sess.af, sport := sess.sport, dport := sess.dport
    saddrV4 := sess.saddrV4, daddrV4 := sess.daddrV4
    saddrV6 := sess.saddrV6, daddrV6 := sess.daddrV6 }

/-! ## The probes -/

/-- What `record_connect` sees besides the task. -/
structure ConnectArgs (n : ℕ) where
  cpu : Fin n
  now : UInt64
  comm : Comm
  updateFails : Bool

/-- What the three event probes see; `reserved` says whether the ring buffer had room. -/
structure EventArgs (n : ℕ) where
  cpu : Fin n
  now : UInt64
  sock : Sock
  reserved : Bool

/-- The session a connect creates. -/
def newSess (pidTgid : UInt64) (a : ConnectArgs n) : TcpSess :=
  { tgid := tgidOf pidTgid, tid := tidOf pidTgid, startTs := a.now, comm := a.comm }

def recordConnect (ctrl : Ctrl) (cur : Task) (sk : UInt64) (a : ConnectArgs n) (s : State n) :
    State n :=
  if ctrl.enable = false then s
  else
    let pidTgid := appCurrentPidTgidNs cur ctrl.pidNsDev ctrl.pidNsIno
    if pidTgid = 0 then s
    else if ctrl.targetPid ≠ 0 ∧ ctrl.targetPid.toUInt32 ≠ tgidOf pidTgid then s
    else
      let s := s.bump a.cpu fun st => { st with connectAttempted := st.connectAttempted + 1 }
      if a.updateFails then
        s.bump a.cpu fun st => { st with mapUpdateFailed := st.mapUpdateFailed + 1 }
      else { s with sessMap := s.sessMap.update sk (newSess pidTgid a) }

def fentryTcpV4Connect (ctrl : Ctrl) (cur : Task) (sk : UInt64) (a : ConnectArgs n)
    (s : State n) : State n :=
  recordConnect ctrl cur sk a s

def fentryTcpV6Connect (ctrl : Ctrl) (cur : Task) (sk : UInt64) (a : ConnectArgs n)
    (s : State n) : State n :=
  recordConnect ctrl cur sk a s

def finishConnectCall (sk : UInt64) (sock : Sock) (ret : Int32) (s : State n) : State n :=
  if ret < 0 then { s with sessMap := s.sessMap.delete sk }
  else { s with sessMap := s.sessMap.modify sk fun sess => saveSock sess sock }

def fexitTcpV4Connect (sk : UInt64) (sock : Sock) (ret : Int32) (s : State n) : State n :=
  finishConnectCall sk sock ret s

def fexitTcpV6Connect (sk : UInt64) (sock : Sock) (ret : Int32) (s : State n) : State n :=
  finishConnectCall sk sock ret s

/-- The aggregate update of a reported handshake. -/
def Stats.handshake (st : Stats) (sess : TcpSess) (latencyNs : UInt64) : Stats :=
  let st := { st with hsCount := st.hsCount + 1, hsTotalNs := st.hsTotalNs + latencyNs }
  if st.hsMaxNs < latencyNs then
    { st with
      hsMaxNs := latencyNs, hsMaxSport := sess.sport, hsMaxDport := sess.dport
      hsMaxAf := sess.af, hsMaxSaddr := sess.saddrV4, hsMaxDaddr := sess.daddrV4
      hsMaxSaddrV6 := sess.saddrV6, hsMaxDaddrV6 := sess.daddrV6, hsMaxComm := sess.comm }
  else st

def handshakeEvent (sess : TcpSess) (x : EventArgs n) : Event :=
  let event : Event :=
    { type := .handshake, tsNs := x.now, latencyNs := x.now - sess.startTs
      state := x.sock.state.toUInt32 }
  fillSavedSock (fillProcess event sess) sess

/-- `trace_tcp_finish_connect` with a session that is not yet settled. -/
def settleHandshake (ctrl : Ctrl) (sk : UInt64) (sess : TcpSess) (x : EventArgs n)
    (s : State n) : State n :=
  let latencyNs := x.now - sess.startTs
  let sess := { sess with handshakeReported := true }
  let s := { s with sessMap := s.sessMap.update sk sess }
  if ctrl.minLatencyNs ≠ 0 ∧ latencyNs < ctrl.minLatencyNs then
    s.bump x.cpu fun st => { st with filteredLatency := st.filteredLatency + 1 }
  else
    let sess := saveSock sess x.sock
    let s := { s with sessMap := s.sessMap.update sk sess }
    let s := s.bump x.cpu fun st => st.handshake sess latencyNs
    if x.reserved = false then
      s.bump x.cpu fun st => { st with ringbufDropped := st.ringbufDropped + 1 }
    else { s with rb := s.rb ++ [handshakeEvent sess x] }

/-- The common prologue of the handshake and retransmit probes when no session is found. -/
def untracked (ctrl : Ctrl) (cpu : Fin n) (s : State n) : State n :=
  if ctrl.targetPid = 0 then
    s.bump cpu fun st => { st with untrackedEvents := st.untrackedEvents + 1 }
  else s

def traceTcpFinishConnect (ctrl : Ctrl) (sk : UInt64) (x : EventArgs n) (s : State n) : State n :=
  if ctrl.enable = false then s
  else
    match s.sessMap.get sk with
    | none => untracked ctrl x.cpu s
    | some sess =>
        if sessionAllowed ctrl sess = false ∨ sess.handshakeReported = true then s
        else settleHandshake ctrl sk sess x s

def retransmitEvent (sess : TcpSess) (x : EventArgs n) : Event :=
  let event : Event :=
    { type := .retransmit, tsNs := x.now, state := x.sock.state.toUInt32
      retransCnt := sess.retransCnt }
  fillSock (fillProcess event sess) x.sock

def traceTcpRetransmit (ctrl : Ctrl) (sk : UInt64) (x : EventArgs n) (s : State n) : State n :=
  if ctrl.enable = false then s
  else
    match s.sessMap.get sk with
    | none => untracked ctrl x.cpu s
    | some sess =>
        if sessionAllowed ctrl sess = false then s
        else
          let sess := { sess with retransCnt := sess.retransCnt + 1 }
          let s := { s with sessMap := s.sessMap.update sk sess }
          let s := s.bump x.cpu fun st => { st with rtCount := st.rtCount + 1 }
          if x.reserved = false then
            s.bump x.cpu fun st => { st with ringbufDropped := st.ringbufDropped + 1 }
          else { s with rb := s.rb ++ [retransmitEvent sess x] }

def closeEvent (snapshot : TcpSess) (x : EventArgs n) : Event :=
  let event : Event :=
    { type := .close, tsNs := x.now, latencyNs := x.now - snapshot.startTs
      state := x.sock.state.toUInt32, retransCnt := snapshot.retransCnt }
  fillSavedSock (fillProcess event snapshot) snapshot

def Stats.closed (st : Stats) (lifetimeNs : UInt64) : Stats :=
  { st with
    clCount := st.clCount + 1
    clTotalNs := st.clTotalNs + lifetimeNs
    clMaxNs := if st.clMaxNs < lifetimeNs then lifetimeNs else st.clMaxNs }

def traceTcpClose (ctrl : Ctrl) (sk : UInt64) (x : EventArgs n) (s : State n) : State n :=
  match s.sessMap.get sk with
  | none => s
  | some snapshot =>
      -- deleted whether or not an event follows, so that the address can be reused
      let s := { s with sessMap := s.sessMap.delete sk }
      if sessionAllowed ctrl snapshot = false then s
      else
        let s := s.bump x.cpu fun st => st.closed (x.now - snapshot.startTs)
        if x.reserved = false then
          s.bump x.cpu fun st => { st with ringbufDropped := st.ringbufDropped + 1 }
        else { s with rb := s.rb ++ [closeEvent snapshot x] }

/-! ## One step of the system -/

/-- The probes with what they see, and an eviction of `sess_map`. -/
inductive Probe (n : ℕ) : Type where
  | connect (family : Family) (cur : Task) (sk : UInt64) (a : ConnectArgs n)
  | connectExit (family : Family) (sk : UInt64) (sock : Sock) (ret : Int32)
  | finishConnect (sk : UInt64) (x : EventArgs n)
  | retransmit (sk : UInt64) (x : EventArgs n)
  | close (sk : UInt64) (x : EventArgs n)
  | evict (sk : UInt64)

namespace Probe

def run (ctrl : Ctrl) (s : State n) : Probe n → State n
  | connect .v4 cur sk a => fentryTcpV4Connect ctrl cur sk a s
  | connect .v6 cur sk a => fentryTcpV6Connect ctrl cur sk a s
  | connectExit .v4 sk sock ret => fexitTcpV4Connect sk sock ret s
  | connectExit .v6 sk sock ret => fexitTcpV6Connect sk sock ret s
  | finishConnect sk x => traceTcpFinishConnect ctrl sk x s
  | retransmit sk x => traceTcpRetransmit ctrl sk x s
  | close sk x => traceTcpClose ctrl sk x s
  | evict sk => { s with sessMap := s.sessMap.delete sk }

/-- The socket a probe is about. -/
def sk : Probe n → UInt64
  | connect _ _ sk _ => sk
  | connectExit _ sk _ _ => sk
  | finishConnect sk _ => sk
  | retransmit sk _ => sk
  | close sk _ => sk
  | evict sk => sk

end Probe

/-! ## What a probe does -/

/-- Does `record_connect` get past its filters? -/
def recorded (ctrl : Ctrl) (cur : Task) : Bool :=
  let pidTgid := appCurrentPidTgidNs cur ctrl.pidNsDev ctrl.pidNsIno
  decide (ctrl.enable = true ∧ pidTgid ≠ 0 ∧
    ¬(ctrl.targetPid ≠ 0 ∧ ctrl.targetPid.toUInt32 ≠ tgidOf pidTgid))

/-- Is the handshake latency below the threshold? -/
def below (ctrl : Ctrl) (sess : TcpSess) (x : EventArgs n) : Bool :=
  decide (ctrl.minLatencyNs ≠ 0 ∧ x.now - sess.startTs < ctrl.minLatencyNs)

/-- Does `trace_tcp_finish_connect` settle this session? -/
def settles (ctrl : Ctrl) (sess : TcpSess) : Bool :=
  sessionAllowed ctrl sess && !sess.handshakeReported

/-- The session after its handshake was settled. -/
def settled (ctrl : Ctrl) (sess : TcpSess) (x : EventArgs n) : TcpSess :=
  let sess' := { sess with handshakeReported := true }
  if below ctrl sess x then sess' else saveSock sess' x.sock

def retransmitted (sess : TcpSess) : TcpSess := { sess with retransCnt := sess.retransCnt + 1 }

namespace Probe

/-- What becomes of the session of the probe's socket. -/
def session (ctrl : Ctrl) (old : Option TcpSess) : Probe n → Option TcpSess
  | connect _ cur _ a =>
      if recorded ctrl cur && !a.updateFails then
        some (newSess (appCurrentPidTgidNs cur ctrl.pidNsDev ctrl.pidNsIno) a)
      else old
  | connectExit _ _ sock ret => if ret < 0 then none else old.map fun sess => saveSock sess sock
  | finishConnect _ x =>
      old.map fun sess => if settles ctrl sess then settled ctrl sess x else sess
  | retransmit _ _ =>
      old.map fun sess => if sessionAllowed ctrl sess then retransmitted sess else sess
  | close _ _ => none
  | evict _ => none

/-- The event the probe submits, given the session it finds. -/
def event (ctrl : Ctrl) (old : Option TcpSess) : Probe n → Option Event
  | finishConnect _ x =>
      old.bind fun sess =>
        if settles ctrl sess && !below ctrl sess x && x.reserved then
          some (handshakeEvent (settled ctrl sess x) x)
        else none
  | retransmit _ x =>
      old.bind fun sess =>
        if sessionAllowed ctrl sess && x.reserved then
          some (retransmitEvent (retransmitted sess) x)
        else none
  | close _ x =>
      old.bind fun sess =>
        if sessionAllowed ctrl sess && x.reserved then some (closeEvent sess x) else none
  | _ => none

/-- How much the probe adds to `connect_attempted`. -/
def attempts (ctrl : Ctrl) : Probe n → ℕ
  | connect _ cur _ _ => if recorded ctrl cur then 1 else 0
  | _ => 0

/-- How much the probe adds to `hs_count + filtered_latency`. -/
def settlements (ctrl : Ctrl) (old : Option TcpSess) : Probe n → ℕ
  | finishConnect _ _ => old.elim 0 fun sess => if settles ctrl sess then 1 else 0
  | _ => 0

/-- How much the probe adds to `cl_count`. -/
def closures (ctrl : Ctrl) (old : Option TcpSess) : Probe n → ℕ
  | close _ _ => old.elim 0 fun sess => if sessionAllowed ctrl sess then 1 else 0
  | _ => 0

end Probe

/-- `hs_count + filtered_latency`: the handshakes that were settled. -/
def Stats.settledCount (st : Stats) : ℕ := st.hsCount + st.filteredLatency

/-- The effect of one probe on the session of its socket, the events and the counters. -/
structure Probe.Does (ctrl : Ctrl) (p : Probe n) (s s' : State n) : Prop where
  sess : ∀ k, s'.sessMap.get k =
    if k = p.sk then p.session ctrl (s.sessMap.get k) else s.sessMap.get k
  rb : s'.rb = s.rb ++ (p.event ctrl (s.sessMap.get p.sk)).toList
  attempted : s'.stats.total (·.connectAttempted) =
    s.stats.total (·.connectAttempted) + p.attempts ctrl
  settled : s'.stats.total (·.settledCount) =
    s.stats.total (·.settledCount) + p.settlements ctrl (s.sessMap.get p.sk)
  closed : s'.stats.total (·.clCount) =
    s.stats.total (·.clCount) + p.closures ctrl (s.sessMap.get p.sk)

namespace Probe

variable {ctrl : Ctrl} {p : Probe n} {s s' : State n}

theorem Does.get_sk (h : p.Does ctrl s s') :
    s'.sessMap.get p.sk = p.session ctrl (s.sessMap.get p.sk) :=
  (h.sess p.sk).trans (if_pos rfl)

theorem Does.get_of_ne (h : p.Does ctrl s s') {k : UInt64} (hk : k ≠ p.sk) :
    s'.sessMap.get k = s.sessMap.get k :=
  (h.sess k).trans (if_neg hk)

/-- One update of one CPU's statistics, with what it adds. -/
theorem does_of_modify {cpu : Fin n} {g : Stats → Stats}
    (hsess : ∀ k, s'.sessMap.get k =
      if k = p.sk then p.session ctrl (s.sessMap.get k) else s.sessMap.get k)
    (hrb : s'.rb = s.rb ++ (p.event ctrl (s.sessMap.get p.sk)).toList)
    (hstats : s'.stats = s.stats.modify cpu g)
    (hg : ∀ st, (g st).connectAttempted = st.connectAttempted + p.attempts ctrl ∧
      (g st).settledCount = st.settledCount + p.settlements ctrl (s.sessMap.get p.sk) ∧
      (g st).clCount = st.clCount + p.closures ctrl (s.sessMap.get p.sk)) :
    p.Does ctrl s s' := by
  obtain ⟨h1, h2, h3⟩ := hg (s.stats cpu)
  refine ⟨hsess, hrb, ?_, ?_, ?_⟩
  · rw [hstats]
    exact PerCpu.total_modify_add _ _ _ _ h1
  · rw [hstats]
    exact PerCpu.total_modify_add _ _ _ _ h2
  · rw [hstats]
    exact PerCpu.total_modify_add _ _ _ _ h3

/-- A probe that leaves the statistics alone. -/
theorem does_of_stats_eq
    (hsess : ∀ k, s'.sessMap.get k =
      if k = p.sk then p.session ctrl (s.sessMap.get k) else s.sessMap.get k)
    (hrb : s'.rb = s.rb ++ (p.event ctrl (s.sessMap.get p.sk)).toList)
    (hstats : s'.stats = s.stats) (hatt : p.attempts ctrl = 0)
    (hset : p.settlements ctrl (s.sessMap.get p.sk) = 0)
    (hcl : p.closures ctrl (s.sessMap.get p.sk) = 0) : p.Does ctrl s s' := by
  refine ⟨hsess, hrb, ?_, ?_, ?_⟩
  · rw [hstats, hatt, Nat.add_zero]
  · rw [hstats, hset, Nat.add_zero]
  · rw [hstats, hcl, Nat.add_zero]

/-- The session part for a probe that does nothing to its session. -/
theorem sess_same (h : p.session ctrl (s.sessMap.get p.sk) = s.sessMap.get p.sk) (k : UInt64) :
    s.sessMap.get k = if k = p.sk then p.session ctrl (s.sessMap.get k) else s.sessMap.get k := by
  by_cases hk : k = p.sk
  · rw [if_pos hk, hk, h]
  · rw [if_neg hk]

theorem sess_update {sess : TcpSess} (h : p.session ctrl (s.sessMap.get p.sk) = some sess)
    (k : UInt64) : (s.sessMap.update p.sk sess).get k =
      if k = p.sk then p.session ctrl (s.sessMap.get k) else s.sessMap.get k := by
  rw [BpfMap.get_update]
  by_cases hk : k = p.sk
  · rw [if_pos hk, if_pos hk, hk, h]
  · rw [if_neg hk, if_neg hk]

theorem sess_delete (h : p.session ctrl (s.sessMap.get p.sk) = none) (k : UInt64) :
    (s.sessMap.delete p.sk).get k =
      if k = p.sk then p.session ctrl (s.sessMap.get k) else s.sessMap.get k := by
  rw [BpfMap.get_delete]
  by_cases hk : k = p.sk
  · rw [if_pos hk, if_pos hk, hk, h]
  · rw [if_neg hk, if_neg hk]

end Probe

theorem recordConnect_of_recorded {ctrl : Ctrl} {cur : Task} (h : recorded ctrl cur = true)
    (sk : UInt64) (a : ConnectArgs n) (s : State n) :
    recordConnect ctrl cur sk a s =
      let s := s.bump a.cpu fun st => { st with connectAttempted := st.connectAttempted + 1 }
      if a.updateFails then
        s.bump a.cpu fun st => { st with mapUpdateFailed := st.mapUpdateFailed + 1 }
      else
        { s with
          sessMap := s.sessMap.update sk
            (newSess (appCurrentPidTgidNs cur ctrl.pidNsDev ctrl.pidNsIno) a) } := by
  obtain ⟨hen, hv, htarget⟩ := of_decide_eq_true h
  simp only [recordConnect, hen, Bool.true_eq_false, if_false, if_neg hv, if_neg htarget]

theorem recordConnect_of_rejected {ctrl : Ctrl} {cur : Task} (h : recorded ctrl cur = false)
    (sk : UInt64) (a : ConnectArgs n) (s : State n) : recordConnect ctrl cur sk a s = s := by
  have hnot := of_decide_eq_false h
  simp only [recordConnect]
  by_cases hen : ctrl.enable = false
  · rw [if_pos hen]
  · rw [if_neg hen]
    by_cases hv : appCurrentPidTgidNs cur ctrl.pidNsDev ctrl.pidNsIno = 0
    · rw [if_pos hv]
    · rw [if_neg hv, if_pos]
      by_contra htarget
      exact hnot ⟨by simpa using hen, hv, htarget⟩

theorem recordConnect_does (ctrl : Ctrl) (family : Family) (cur : Task) (sk : UInt64)
    (a : ConnectArgs n) (s : State n) :
    (Probe.connect family cur sk a).Does ctrl s (recordConnect ctrl cur sk a s) := by
  cases hr : recorded ctrl cur with
  | false =>
      rw [recordConnect_of_rejected hr]
      refine Probe.does_of_stats_eq (Probe.sess_same ?_) ?_ rfl ?_ rfl rfl
      · simp [Probe.session, hr]
      · simp [Probe.event]
      · simp [Probe.attempts, hr]
  | true =>
      rw [recordConnect_of_recorded hr]
      cases hu : a.updateFails with
      | true =>
          refine Probe.does_of_modify (Probe.sess_same ?_) ?_ (PerCpu.modify_modify _ _ _ _) ?_
          · simp [Probe.session, hu]
          · simp [Probe.event, State.bump]
          · intro st
            simp [Probe.attempts, Probe.settlements, Probe.closures, hr, Stats.settledCount]
      | false =>
          refine Probe.does_of_modify (g := fun st =>
            { st with connectAttempted := st.connectAttempted + 1 })
            (Probe.sess_update (p := .connect family cur sk a) ?_) ?_ rfl ?_
          · simp [Probe.session, hu, hr]
          · simp [Probe.event, State.bump]
          · intro st
            simp [Probe.attempts, Probe.settlements, Probe.closures, hr, Stats.settledCount]

theorem finishConnectCall_does (ctrl : Ctrl) (family : Family) (sk : UInt64) (sock : Sock)
    (ret : Int32) (s : State n) :
    (Probe.connectExit family sk sock ret).Does ctrl s (finishConnectCall sk sock ret s) := by
  unfold finishConnectCall
  split_ifs with hret
  · refine Probe.does_of_stats_eq (Probe.sess_delete (p := .connectExit family sk sock ret) ?_)
      ?_ rfl rfl rfl rfl
    · simp [Probe.session, hret]
    · simp [Probe.event]
  · refine Probe.does_of_stats_eq ?_ ?_ rfl rfl rfl rfl
    · intro k
      rw [BpfMap.get_modify]
      simp only [Probe.session, Probe.sk, if_neg hret]
      by_cases hk : k = sk
      · rw [if_pos hk, if_pos hk, hk]
      · rw [if_neg hk, if_neg hk]
    · simp [Probe.event]

theorem untracked_does {ctrl : Ctrl} {p : Probe n} {s : State n} (cpu : Fin n)
    (hsess : p.session ctrl (s.sessMap.get p.sk) = s.sessMap.get p.sk)
    (hev : p.event ctrl (s.sessMap.get p.sk) = none) (hatt : p.attempts ctrl = 0)
    (hset : p.settlements ctrl (s.sessMap.get p.sk) = 0)
    (hcl : p.closures ctrl (s.sessMap.get p.sk) = 0) :
    p.Does ctrl s (untracked ctrl cpu s) := by
  unfold untracked
  split_ifs
  · refine Probe.does_of_modify (Probe.sess_same hsess) ?_ rfl ?_
    · simp [hev, State.bump]
    · intro st
      rw [hatt, hset, hcl]
      exact ⟨rfl, rfl, rfl⟩
  · refine Probe.does_of_stats_eq (Probe.sess_same hsess) ?_ rfl hatt hset hcl
    simp [hev]

/-- `save_sock` writes only the addresses. -/
@[simp] theorem saveSock_frame (sess : TcpSess) (sock : Sock) :
    (saveSock sess sock).startTs = sess.startTs ∧ (saveSock sess sock).tgid = sess.tgid ∧
      (saveSock sess sock).tid = sess.tid ∧ (saveSock sess sock).comm = sess.comm ∧
      (saveSock sess sock).retransCnt = sess.retransCnt ∧
      (saveSock sess sock).handshakeReported = sess.handshakeReported := by
  simp only [saveSock]
  split_ifs <;> exact ⟨rfl, rfl, rfl, rfl, rfl, rfl⟩

@[simp] theorem Stats.handshake_counters (st : Stats) (sess : TcpSess) (latencyNs : UInt64) :
    (st.handshake sess latencyNs).connectAttempted = st.connectAttempted ∧
      (st.handshake sess latencyNs).settledCount = st.settledCount + 1 ∧
      (st.handshake sess latencyNs).clCount = st.clCount := by
  simp only [Stats.handshake, Stats.settledCount]
  split_ifs <;> refine ⟨rfl, ?_, rfl⟩ <;> simp only <;> omega

theorem settleHandshake_does {ctrl : Ctrl} {sk : UInt64} {sess : TcpSess} {s : State n}
    (hg : s.sessMap.get sk = some sess) (hset : settles ctrl sess = true) (x : EventArgs n) :
    (Probe.finishConnect sk x).Does ctrl s (settleHandshake ctrl sk sess x s) := by
  have hcount : (Probe.finishConnect sk x).settlements ctrl (s.sessMap.get sk) = 1 := by
    simp [Probe.settlements, hg, hset]
  simp only [settleHandshake]
  by_cases hb : ctrl.minLatencyNs ≠ 0 ∧ x.now - sess.startTs < ctrl.minLatencyNs
  · -- too fast to report: the session is settled without its addresses
    have hbelow : below ctrl sess x = true := decide_eq_true hb
    rw [if_pos hb]
    refine Probe.does_of_modify (Probe.sess_update (p := .finishConnect sk x) ?_) ?_ rfl ?_
    · simp [Probe.session, Probe.sk, hg, hset, settled, hbelow]
    · simp [Probe.event, Probe.sk, State.bump, hg, hset, hbelow]
    · intro st
      refine ⟨rfl, ?_, rfl⟩
      simp only [Probe.sk, hcount, Stats.settledCount]
      omega
  · have hbelow : below ctrl sess x = false := decide_eq_false hb
    rw [if_neg hb]
    have hsess : ∀ k, ((s.sessMap.update sk { sess with handshakeReported := true }).update sk
        (saveSock { sess with handshakeReported := true } x.sock)).get k =
        if k = sk then (Probe.finishConnect sk x).session ctrl (s.sessMap.get k)
        else s.sessMap.get k := by
      intro k
      rw [BpfMap.get_update, BpfMap.get_update]
      by_cases hk : k = sk
      · rw [if_pos hk, if_pos hk, hk, hg]
        simp [Probe.session, hset, settled, hbelow]
      · rw [if_neg hk, if_neg hk, if_neg hk]
    by_cases hr : x.reserved = false
    · rw [if_pos hr]
      refine Probe.does_of_modify hsess ?_ (PerCpu.modify_modify _ _ _ _) ?_
      · simp [Probe.event, Probe.sk, State.bump, hg, hr]
      · intro st
        obtain ⟨h1, h2, h3⟩ := Stats.handshake_counters st
          (saveSock { sess with handshakeReported := true } x.sock) (x.now - sess.startTs)
        refine ⟨h1, ?_, h3⟩
        simp only [Probe.sk, hcount]
        exact h2
    · rw [if_neg hr]
      refine Probe.does_of_modify hsess ?_ rfl ?_
      · simp [Probe.event, Probe.sk, State.bump, hg, hset, hbelow, hr, settled]
      · intro st
        obtain ⟨h1, h2, h3⟩ := Stats.handshake_counters st
          (saveSock { sess with handshakeReported := true } x.sock) (x.now - sess.startTs)
        refine ⟨h1, ?_, h3⟩
        simp only [Probe.sk, hcount]
        exact h2

theorem traceTcpFinishConnect_does (ctrl : Ctrl) (sk : UInt64) (x : EventArgs n) (s : State n) :
    (Probe.finishConnect sk x).Does ctrl s (traceTcpFinishConnect ctrl sk x s) := by
  -- a session that is not settled stays as it is, and nothing is counted
  have hidle : ∀ sess, s.sessMap.get sk = some sess → settles ctrl sess = false →
      (Probe.finishConnect sk x).Does ctrl s s := fun sess hg hset => by
    refine Probe.does_of_stats_eq (Probe.sess_same ?_) ?_ rfl rfl ?_ rfl
    · simp [Probe.session, Probe.sk, hg, hset]
    · simp [Probe.event, Probe.sk, hg, hset]
    · simp [Probe.settlements, Probe.sk, hg, hset]
  unfold traceTcpFinishConnect
  cases hg : s.sessMap.get sk with
  | none =>
      have hnone : (Probe.finishConnect sk x).Does ctrl s s := by
        refine Probe.does_of_stats_eq (Probe.sess_same ?_) ?_ rfl rfl ?_ rfl
        · simp [Probe.session, Probe.sk, hg]
        · simp [Probe.event, Probe.sk, hg]
        · simp [Probe.settlements, Probe.sk, hg]
      split_ifs
      · exact hnone
      · refine untracked_does x.cpu ?_ ?_ rfl ?_ rfl
        · simp [Probe.session, Probe.sk, hg]
        · simp [Probe.event, Probe.sk, hg]
        · simp [Probe.settlements, Probe.sk, hg]
  | some sess =>
      simp only
      split_ifs with hen hskip
      · exact hidle sess hg (by simp [settles, sessionAllowed, hen])
      · apply hidle sess hg
        rcases hskip with hall | hrep
        · simp [settles, hall]
        · simp [settles, hrep]
      · refine settleHandshake_does hg ?_ x
        rw [not_or] at hskip
        simpa [settles] using hskip

theorem traceTcpRetransmit_does (ctrl : Ctrl) (sk : UInt64) (x : EventArgs n) (s : State n) :
    (Probe.retransmit sk x).Does ctrl s (traceTcpRetransmit ctrl sk x s) := by
  unfold traceTcpRetransmit
  cases hg : s.sessMap.get sk with
  | none =>
      have hsess : (Probe.retransmit sk x).session ctrl (s.sessMap.get sk) =
          s.sessMap.get sk := by
        simp [Probe.session, hg]
      have hev : (Probe.retransmit sk x).event ctrl (s.sessMap.get sk) = none := by
        simp [Probe.event, hg]
      simp only
      split_ifs
      · refine Probe.does_of_stats_eq (Probe.sess_same hsess) ?_ rfl rfl rfl rfl
        simp [Probe.sk, hev]
      · exact untracked_does x.cpu hsess hev rfl rfl rfl
  | some sess =>
      simp only
      cases hall : sessionAllowed ctrl sess with
      | false =>
          simp only [if_true, ite_self]
          refine Probe.does_of_stats_eq (Probe.sess_same ?_) ?_ rfl rfl rfl rfl
          · simp [Probe.session, Probe.sk, hg, hall]
          · simp [Probe.event, Probe.sk, hg, hall]
      | true =>
          have hen : ctrl.enable ≠ false := fun hen => by
            simp [sessionAllowed, hen] at hall
          simp only [if_neg hen, Bool.true_eq_false, if_false]
          have hsess : (Probe.retransmit sk x).session ctrl (s.sessMap.get sk) =
              some { sess with retransCnt := sess.retransCnt + 1 } := by
            simp [Probe.session, hg, hall, retransmitted]
          split_ifs with hr
          · refine Probe.does_of_modify (Probe.sess_update (p := .retransmit sk x) hsess) ?_
              (PerCpu.modify_modify _ _ _ _) ?_
            · simp [Probe.event, Probe.sk, State.bump, hg, hr]
            · exact fun _ => ⟨rfl, rfl, rfl⟩
          · refine Probe.does_of_modify (Probe.sess_update (p := .retransmit sk x) hsess) ?_ rfl ?_
            · simp [Probe.event, Probe.sk, State.bump, hg, hall, hr, retransmitted]
            · exact fun _ => ⟨rfl, rfl, rfl⟩

theorem traceTcpClose_does (ctrl : Ctrl) (sk : UInt64) (x : EventArgs n) (s : State n) :
    (Probe.close sk x).Does ctrl s (traceTcpClose ctrl sk x s) := by
  unfold traceTcpClose
  cases hg : s.sessMap.get sk with
  | none =>
      refine Probe.does_of_stats_eq (Probe.sess_same ?_) ?_ rfl rfl rfl ?_
      · simp [Probe.session, Probe.sk, hg]
      · simp [Probe.event, Probe.sk, hg]
      · simp [Probe.closures, Probe.sk, hg]
  | some snapshot =>
      simp only
      cases hall : sessionAllowed ctrl snapshot with
      | false =>
          simp only [if_true]
          refine Probe.does_of_stats_eq (Probe.sess_delete (p := .close sk x) rfl) ?_ rfl rfl rfl ?_
          · simp [Probe.event, Probe.sk, hg, hall]
          · simp [Probe.closures, Probe.sk, hg, hall]
      | true =>
          have hcount : (Probe.close sk x).closures ctrl (s.sessMap.get sk) = 1 := by
            simp [Probe.closures, hg, hall]
          simp only [Bool.true_eq_false, if_false]
          split_ifs with hr
          · refine Probe.does_of_modify (Probe.sess_delete (p := .close sk x) rfl) ?_
              (PerCpu.modify_modify _ _ _ _) ?_
            · simp [Probe.event, Probe.sk, State.bump, hg, hr]
            · intro st
              simp only [Probe.sk, hcount]
              exact ⟨rfl, rfl, rfl⟩
          · refine Probe.does_of_modify (Probe.sess_delete (p := .close sk x) rfl) ?_ rfl ?_
            · simp [Probe.event, Probe.sk, State.bump, hg, hall, hr]
            · intro st
              simp only [Probe.sk, hcount]
              exact ⟨rfl, rfl, rfl⟩

/-- Every probe does what `session`, `event` and the three counts say. -/
theorem Probe.run_does (ctrl : Ctrl) (s : State n) (p : Probe n) :
    p.Does ctrl s (p.run ctrl s) := by
  cases p with
  | connect family cur sk a => cases family <;> exact recordConnect_does ctrl _ cur sk a s
  | connectExit family sk sock ret =>
      cases family <;> exact finishConnectCall_does ctrl _ sk sock ret s
  | finishConnect sk x => exact traceTcpFinishConnect_does ctrl sk x s
  | retransmit sk x => exact traceTcpRetransmit_does ctrl sk x s
  | close sk x => exact traceTcpClose_does ctrl sk x s
  | evict sk =>
      refine Probe.does_of_stats_eq (Probe.sess_delete (p := .evict sk) rfl) ?_ rfl rfl rfl rfl
      simp [Probe.event, Probe.run]

/-- The events submitted between two states. -/
def submitted (s s' : State n) : List Event := s'.rb.drop s.rb.length

theorem submitted_run (ctrl : Ctrl) (s : State n) (p : Probe n) :
    submitted s (p.run ctrl s) = (p.event ctrl (s.sessMap.get p.sk)).toList := by
  rw [submitted, (p.run_does ctrl s).rb, List.drop_left]

end EbpfToolbox.Net.TcpMonitor
