import EbpfToolbox.Common.PidNamespace
import EbpfToolbox.Lib.BpfMap
import EbpfToolbox.Lib.PerCpu
import EbpfToolbox.Net.Inet

/-!
# net/udp_monitor

`net/udp_monitor/udp_monitor.bpf.c`. `udpv6_sendmsg` calls `udp_sendmsg` for an
IPv4-mapped destination, so the entry probe keeps a nesting depth per thread in
`depth_map` and stores a context in `start_map` for the outermost call only; the
return probe settles the call when the depth is back at one. `udp_send_skb` and
`udp_v6_send_skb` overwrite the addresses of the context on the way.

The counters are natural numbers here; the totals of times and bytes are 64-bit words.
-/

namespace EbpfToolbox.Net.UdpMonitor

open Common Lib

/-- `struct UdpMonitor_ctrl`. -/
structure Ctrl where
  enable : Bool
  minLatencyNs : UInt64
  targetPid : Int32
  pidNsDev : UInt64
  pidNsIno : UInt64

/-- `enum UdpTupleSource`. -/
inductive TupleSource : Type where
  | socket
  | msg
  | flow
deriving DecidableEq, Repr

/-- `struct udp_start`; a fresh one is zeroed. -/
structure UdpStart where
  startTs : UInt64 := 0
  len : UInt64 := 0
  tgid : UInt32 := 0
  pid : Int32 := 0
  sport : UInt16 := 0
  dport : UInt16 := 0
  saddrV4 : UInt32 := 0
  daddrV4 : UInt32 := 0
  af : UInt16 := 0
  comm : Comm := Vector.replicate _ 0
  saddrV6 : Addr6 := Vector.replicate _ 0
  daddrV6 : Addr6 := Vector.replicate _ 0
  tupleSource : TupleSource := .socket

/-- `struct UdpMonitor_event`, without its padding. -/
structure Event where
  tsNs : UInt64
  latencyNs : UInt64
  len : UInt64
  pid : Int32
  tgid : UInt32
  result : Int32
  sport : UInt16
  dport : UInt16
  saddrV4 : UInt32
  daddrV4 : UInt32
  af : UInt16
  tupleSource : TupleSource
  comm : Comm
  saddrV6 : Addr6
  daddrV6 : Addr6

/-- `struct UdpMonitor_stats`. -/
structure Stats where
  attempted : ℕ := 0
  count : ℕ := 0
  failed : ℕ := 0
  totalNs : UInt64 := 0
  maxNs : UInt64 := 0
  totalBytes : UInt64 := 0
  filteredPid : ℕ := 0
  filteredLatency : ℕ := 0
  ringbufDropped : ℕ := 0
  mapUpdateFailed : ℕ := 0
  lookupMissed : ℕ := 0
  nestedCalls : ℕ := 0
  flowTuple : ℕ := 0
  fallbackTuple : ℕ := 0
  maxPid : UInt32 := 0
  maxTid : UInt32 := 0
  maxComm : Comm := Vector.replicate _ 0

/-- `start_map`, `depth_map`, `stats_map` and what was submitted to `rb`. -/
structure State (n : ℕ) where
  startMap : BpfMap UInt64 UdpStart
  depthMap : BpfMap UInt64 UInt32
  stats : PerCpu n Stats
  rb : List Event

def State.start (n : ℕ) : State n := ⟨∅, ∅, fun _ => {}, []⟩

variable {n : ℕ}

def State.bump (s : State n) (cpu : Fin n) (f : Stats → Stats) : State n :=
  { s with stats := s.stats.modify cpu f }

/-! ## What the probes read -/

/-- The fields of `struct sock` and `struct inet_sock` that the entry probe reads. -/
structure Sock where
  family : UInt16
  num : UInt16
  dport : UInt16
  inetSaddr : UInt32
  daddr : UInt32
  v6RcvSaddr : Addr6
  v6Daddr : Addr6

/-- `msg->msg_name` when it is not null. The three reads of the kernel memory
behind it can each fail. -/
structure MsgName where
  len : Int32
  family : Option UInt16
  sin : Option (UInt16 × UInt32)
  sin6 : Option (UInt16 × Addr6)

structure SendArgs (n : ℕ) where
  cpu : Fin n
  now : UInt64
  comm : Comm
  sock : Sock
  len : UInt64
  name : Option MsgName
  depthFails : Bool
  startFails : Bool

structure ReturnArgs (n : ℕ) where
  cpu : Fin n
  now : UInt64
  retval : Int32
  reserved : Bool

/-- A flow and the header of the `skb`: `none` for a null flow, and a header of
`none` when it cannot be read or has another version. -/
structure FlowArgs (α : Type) where
  flow : Option (α × α × UInt16 × UInt16)
  header : Option (α × α)

/-! ## The probes -/

/-- `sizeof(struct sockaddr)`, `sizeof(struct sockaddr_in)` and
`sizeof(struct sockaddr_in6)`. -/
def sockaddrSize : Int32 := 16

def sockaddrInSize : Int32 := 16

def sockaddrIn6Size : Int32 := 28

/-- The destination from `msg_name`, when there is a usable one. -/
def readMsgName (v : UdpStart) (name : Option MsgName) : Option UdpStart :=
  match name with
  | none => none
  | some dst =>
      if dst.len < sockaddrSize then none
      else
        match dst.family with
        | none => none
        | some family =>
            if family = afInet ∧ sockaddrInSize ≤ dst.len then
              dst.sin.map fun sin =>
                { v with
                  af := afInet, dport := bpfNtohs sin.1, daddrV4 := sin.2, tupleSource := .msg }
            else if family = afInet6 ∧ sockaddrIn6Size ≤ dst.len then
              dst.sin6.map fun sin6 =>
                { v with
                  af := afInet6, dport := bpfNtohs sin6.1, daddrV6 := sin6.2, tupleSource := .msg }
            else none

/-- The context of an outermost call. -/
def mkStart (visible : UInt64) (a : SendArgs n) : UdpStart :=
  let v : UdpStart :=
    { startTs := a.now, len := a.len, pid := (tidOf visible).toInt32, tgid := tgidOf visible
      af := a.sock.family, sport := a.sock.num, comm := a.comm }
  let v := if v.af = afInet then { v with saddrV4 := a.sock.inetSaddr }
    else { v with saddrV6 := a.sock.v6RcvSaddr }
  match readMsgName v a.name with
  | some v => v
  | none =>
      let v := { v with dport := bpfNtohs a.sock.dport, tupleSource := .socket }
      if v.af = afInet then { v with daddrV4 := a.sock.daddr }
      else { v with daddrV6 := a.sock.v6Daddr }

/-- `record_udp_send` behind its filters. -/
def recordUnfiltered (cur : Task) (visible : UInt64) (a : SendArgs n) (s : State n) : State n :=
  let key := cur.pidTgid
  match s.depthMap.get key with
  | some depth =>
      let s := { s with depthMap := s.depthMap.update key (depth + 1) }
      s.bump a.cpu fun st => { st with nestedCalls := st.nestedCalls + 1 }
  | none =>
      if a.depthFails then
        s.bump a.cpu fun st => { st with mapUpdateFailed := st.mapUpdateFailed + 1 }
      else
        let s := { s with depthMap := s.depthMap.update key 1 }
        if a.startFails then
          -- a depth left behind would turn every later send of the thread into a nested one
          let s := { s with depthMap := s.depthMap.delete key }
          s.bump a.cpu fun st => { st with mapUpdateFailed := st.mapUpdateFailed + 1 }
        else
          let s := { s with startMap := s.startMap.update key (mkStart visible a) }
          s.bump a.cpu fun st => { st with attempted := st.attempted + 1 }

def recordUdpSend (c : Ctrl) (cur : Task) (a : SendArgs n) (s : State n) : State n :=
  if c.enable = false then s
  else
    let visible := appCurrentPidTgidNs cur c.pidNsDev c.pidNsIno
    if visible = 0 then s.bump a.cpu fun st => { st with filteredPid := st.filteredPid + 1 }
    else if c.targetPid ≠ 0 ∧ c.targetPid.toUInt32 ≠ tgidOf visible then
      s.bump a.cpu fun st => { st with filteredPid := st.filteredPid + 1 }
    else recordUnfiltered cur visible a s

def traceUdpSendmsg (c : Ctrl) (cur : Task) (a : SendArgs n) (s : State n) : State n :=
  recordUdpSend c cur a s

def traceUdpv6Sendmsg (c : Ctrl) (cur : Task) (a : SendArgs n) (s : State n) : State n :=
  recordUdpSend c cur a s

/-- What `trace_udp_send_skb` writes into the context. -/
def rewriteV4 (x : FlowArgs UInt32) (v : UdpStart) : UdpStart :=
  match x.flow with
  | none => v
  | some (saddr, daddr, sport, dport) =>
      let addr := x.header.getD (saddr, daddr)
      { v with
        af := afInet, saddrV4 := addr.1, daddrV4 := addr.2
        sport := bpfNtohs sport, dport := bpfNtohs dport, tupleSource := .flow }

/-- What `trace_udp_v6_send_skb` writes into the context. -/
def rewriteV6 (x : FlowArgs Addr6) (v : UdpStart) : UdpStart :=
  match x.flow with
  | none => v
  | some (saddr, daddr, sport, dport) =>
      let addr := x.header.getD (saddr, daddr)
      { v with
        af := afInet6, saddrV6 := addr.1, daddrV6 := addr.2
        sport := bpfNtohs sport, dport := bpfNtohs dport, tupleSource := .flow }

def traceUdpSendSkb (cur : Task) (x : FlowArgs UInt32) (s : State n) : State n :=
  { s with startMap := s.startMap.modify cur.pidTgid (rewriteV4 x) }

def traceUdpV6SendSkb (cur : Task) (x : FlowArgs Addr6) (s : State n) : State n :=
  { s with startMap := s.startMap.modify cur.pidTgid (rewriteV6 x) }

def Stats.sent (st : Stats) (snapshot : UdpStart) (lat : UInt64) (retval : Int32) : Stats :=
  { st with
    count := st.count + 1
    totalNs := st.totalNs + lat
    totalBytes := st.totalBytes + retval.toInt64.toUInt64
    flowTuple := if snapshot.tupleSource = .flow then st.flowTuple + 1 else st.flowTuple
    fallbackTuple :=
      if snapshot.tupleSource = .flow then st.fallbackTuple else st.fallbackTuple + 1
    maxNs := if st.maxNs < lat then lat else st.maxNs
    maxPid := if st.maxNs < lat then snapshot.tgid else st.maxPid
    maxTid := if st.maxNs < lat then snapshot.pid.toUInt32 else st.maxTid
    maxComm := if st.maxNs < lat then snapshot.comm else st.maxComm }

def mkEvent (snapshot : UdpStart) (x : ReturnArgs n) : Event where
  tsNs := x.now
  latencyNs := x.now - snapshot.startTs
  len := x.retval.toInt64.toUInt64
  pid := snapshot.pid
  tgid := snapshot.tgid
  result := x.retval
  sport := snapshot.sport
  dport := snapshot.dport
  saddrV4 := snapshot.saddrV4
  daddrV4 := snapshot.daddrV4
  af := snapshot.af
  tupleSource := snapshot.tupleSource
  comm := snapshot.comm
  saddrV6 := snapshot.saddrV6
  daddrV6 := snapshot.daddrV6

/-- `finish_udp_send` once it holds the snapshot and collection is on. -/
def settle (c : Ctrl) (snapshot : UdpStart) (x : ReturnArgs n) (s : State n) : State n :=
  let lat := x.now - snapshot.startTs
  if x.retval < 0 then s.bump x.cpu fun st => { st with failed := st.failed + 1 }
  else
    let s := s.bump x.cpu fun st => st.sent snapshot lat x.retval
    if c.minLatencyNs ≠ 0 ∧ lat < c.minLatencyNs then
      s.bump x.cpu fun st => { st with filteredLatency := st.filteredLatency + 1 }
    else if x.reserved = false then
      s.bump x.cpu fun st => { st with ringbufDropped := st.ringbufDropped + 1 }
    else { s with rb := s.rb ++ [mkEvent snapshot x] }

/-- `lookup_missed` is counted only while collection is on. -/
def missed (c : Ctrl) (cpu : Fin n) (s : State n) : State n :=
  if c.enable = true then s.bump cpu fun st => { st with lookupMissed := st.lookupMissed + 1 }
  else s

/-- `finish_udp_send` for the outermost call. -/
def finishOutermost (c : Ctrl) (key : UInt64) (x : ReturnArgs n) (s : State n) : State n :=
  let s := { s with depthMap := s.depthMap.delete key }
  match s.startMap.get key with
  | none => missed c x.cpu s
  | some v =>
      if v.startTs = 0 then missed c x.cpu s
      else
        let s := { s with startMap := s.startMap.delete key }
        if c.enable = false then s else settle c v x s

def finishUdpSend (c : Ctrl) (cur : Task) (x : ReturnArgs n) (s : State n) : State n :=
  let key := cur.pidTgid
  match s.depthMap.get key with
  | none => missed c x.cpu s
  | some depth =>
      if 1 < depth then { s with depthMap := s.depthMap.update key (depth - 1) }
      else finishOutermost c key x s

def retUdpSendmsg (c : Ctrl) (cur : Task) (x : ReturnArgs n) (s : State n) : State n :=
  finishUdpSend c cur x s

def retUdpv6Sendmsg (c : Ctrl) (cur : Task) (x : ReturnArgs n) (s : State n) : State n :=
  finishUdpSend c cur x s

end EbpfToolbox.Net.UdpMonitor
