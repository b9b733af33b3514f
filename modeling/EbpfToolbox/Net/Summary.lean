import EbpfToolbox.Lib.Peak
import EbpfToolbox.Net.TcpMonitor
import EbpfToolbox.Net.UdpMonitor
import Mathlib.Data.UInt

/-!
# The summaries of tcp_monitor and udp_monitor

`print_stats` in `net/tcp_monitor/user.c` and `net/udp_monitor/user.c`. The probes
write the statistics of the CPU they run on; at the end user space visits every
possible CPU, adds the counters up and keeps the largest of the maxima with the
fields that belong to it. The counters of a `Stats` are natural numbers, its sums
64-bit words; a `Summary` holds words only, and `read` is what the map holds of a counter.
-/

namespace EbpfToolbox.Net

open Common Lib

/-! ## tcp_monitor -/

namespace TcpMonitor

variable {n : ℕ}

/-- `struct TcpMonitor_stats` in user space; a fresh one is zeroed. -/
structure Summary where
  connectAttempted : UInt64 := 0
  hsCount : UInt64 := 0
  hsTotalNs : UInt64 := 0
  hsMaxNs : UInt64 := 0
  rtCount : UInt64 := 0
  clCount : UInt64 := 0
  clTotalNs : UInt64 := 0
  clMaxNs : UInt64 := 0
  filteredLatency : UInt64 := 0
  ringbufDropped : UInt64 := 0
  mapUpdateFailed : UInt64 := 0
  untrackedEvents : UInt64 := 0
  hsMaxSport : UInt16 := 0
  hsMaxDport : UInt16 := 0
  hsMaxAf : Int32 := 0
  hsMaxSaddr : UInt32 := 0
  hsMaxDaddr : UInt32 := 0
  hsMaxSaddrV6 : Addr6 := Vector.replicate _ 0
  hsMaxDaddrV6 : Addr6 := Vector.replicate _ 0
  hsMaxComm : Comm := Vector.replicate _ 0

def Stats.read (st : Stats) : Summary where
  connectAttempted := .ofNat st.connectAttempted
  hsCount := .ofNat st.hsCount
  hsTotalNs := st.hsTotalNs
  hsMaxNs := st.hsMaxNs
  rtCount := .ofNat st.rtCount
  clCount := .ofNat st.clCount
  clTotalNs := st.clTotalNs
  clMaxNs := st.clMaxNs
  filteredLatency := .ofNat st.filteredLatency
  ringbufDropped := .ofNat st.ringbufDropped
  mapUpdateFailed := .ofNat st.mapUpdateFailed
  untrackedEvents := .ofNat st.untrackedEvents
  hsMaxSport := st.hsMaxSport
  hsMaxDport := st.hsMaxDport
  hsMaxAf := st.hsMaxAf
  hsMaxSaddr := st.hsMaxSaddr
  hsMaxDaddr := st.hsMaxDaddr
  hsMaxSaddrV6 := st.hsMaxSaddrV6
  hsMaxDaddrV6 := st.hsMaxDaddrV6
  hsMaxComm := st.hsMaxComm

/-- The body of the loop over the CPUs. -/
def Summary.addCpu (s v : Summary) : Summary :=
  let s : Summary :=
    { s with
      connectAttempted := s.connectAttempted + v.connectAttempted
      hsCount := s.hsCount + v.hsCount
      hsTotalNs := s.hsTotalNs + v.hsTotalNs
      rtCount := s.rtCount + v.rtCount
      clCount := s.clCount + v.clCount
      clTotalNs := s.clTotalNs + v.clTotalNs
      clMaxNs := if s.clMaxNs < v.clMaxNs then v.clMaxNs else s.clMaxNs
      filteredLatency := s.filteredLatency + v.filteredLatency
      ringbufDropped := s.ringbufDropped + v.ringbufDropped
      mapUpdateFailed := s.mapUpdateFailed + v.mapUpdateFailed
      untrackedEvents := s.untrackedEvents + v.untrackedEvents }
  -- the four-tuple and the name follow the CPU that holds the maximum
  if s.hsMaxNs < v.hsMaxNs then
    { s with
      hsMaxNs := v.hsMaxNs, hsMaxSport := v.hsMaxSport, hsMaxDport := v.hsMaxDport
      hsMaxAf := v.hsMaxAf, hsMaxSaddr := v.hsMaxSaddr, hsMaxDaddr := v.hsMaxDaddr
      hsMaxSaddrV6 := v.hsMaxSaddrV6, hsMaxDaddrV6 := v.hsMaxDaddrV6, hsMaxComm := v.hsMaxComm }
  else s

def mergeCpus (stats : PerCpu n Stats) : Summary :=
  (List.finRange n).foldl (fun s cpu => s.addCpu (stats cpu).read) {}

/-- `print_stats`: nothing is printed when nothing was counted. -/
def printStats (stats : PerCpu n Stats) : Option Summary :=
  let s := mergeCpus stats
  if s.connectAttempted = 0 ∧ s.hsCount = 0 ∧ s.rtCount = 0 ∧ s.clCount = 0 then none else some s

/-! ### Samples -/

/-- A settled handshake: its session and its latency. -/
structure Sample where
  sess : TcpSess
  latencyNs : UInt64

/-- The statistics update of `trace_tcp_finish_connect`. -/
def Stats.sample (st : Stats) (x : Sample) : Stats := st.handshake x.sess x.latencyNs

/-- What the probes leave on each CPU. -/
def aggregate (samples : List (Fin n × Sample)) : PerCpu n Stats := spread Stats.sample {} samples

/-- One aggregator for all samples. -/
def sequential (samples : List Sample) : Stats := samples.foldl Stats.sample {}

/-- The fields that go with the maximum. -/
structure MaxFields where
  sport : UInt16
  dport : UInt16
  af : Int32
  saddr : UInt32
  daddr : UInt32
  saddrV6 : Addr6
  daddrV6 : Addr6
  comm : Comm
deriving DecidableEq

def Sample.peak (x : Sample) : Peak UInt64 MaxFields :=
  ⟨x.latencyNs, x.sess.sport, x.sess.dport, x.sess.af, x.sess.saddrV4, x.sess.daddrV4,
    x.sess.saddrV6, x.sess.daddrV6, x.sess.comm⟩

def Summary.peak (s : Summary) : Peak UInt64 MaxFields :=
  ⟨s.hsMaxNs, s.hsMaxSport, s.hsMaxDport, s.hsMaxAf, s.hsMaxSaddr, s.hsMaxDaddr, s.hsMaxSaddrV6,
    s.hsMaxDaddrV6, s.hsMaxComm⟩

theorem peak_sample (st : Stats) (x : Sample) :
    (st.sample x).read.peak = st.read.peak.note x.peak := by
  by_cases h : st.hsMaxNs < x.latencyNs
  · rw [Peak.note, if_pos (show st.read.peak.value < x.peak.value from h)]
    simp only [Stats.sample, Stats.handshake, if_pos h]
    rfl
  · rw [Peak.note, if_neg (show ¬st.read.peak.value < x.peak.value from h)]
    simp only [Stats.sample, Stats.handshake, if_neg h]
    rfl

/-- Everything that `print_stats` adds up. -/
def Summary.counters (s : Summary) :
    UInt64 × UInt64 × UInt64 × UInt64 × UInt64 × UInt64 × UInt64 × UInt64 × UInt64 × UInt64 :=
  (s.connectAttempted, s.hsCount, s.hsTotalNs, s.rtCount, s.clCount, s.clTotalNs,
    s.filteredLatency, s.ringbufDropped, s.mapUpdateFailed, s.untrackedEvents)

/-- A summary consists of its counters and the two maxima. -/
theorem Summary.eq_of_parts {s s' : Summary} (hcounters : s.counters = s'.counters)
    (hclose : s.clMaxNs = s'.clMaxNs) (hpeak : s.peak = s'.peak) : s = s' := by
  cases s
  cases s'
  simp only [Summary.counters, Prod.mk.injEq] at hcounters
  simp only [Summary.peak, Peak.mk.injEq, MaxFields.mk.injEq] at hpeak
  simp only at hclose
  simp only [hclose, hcounters, hpeak]

/-- A handshake counts one and adds its latency. -/
theorem counters_sample (st : Stats) (x : Sample) :
    (st.sample x).read.counters =
      st.read.counters + (0, 1, x.latencyNs, 0, 0, 0, 0, 0, 0, 0) := by
  have hcount : UInt64.ofNat (st.hsCount + 1) = UInt64.ofNat st.hsCount + 1 := UInt64.ofNat_add _ _
  simp only [Stats.sample, Stats.handshake]
  split_ifs <;> simp [Stats.read, Summary.counters, hcount]

theorem clMaxNs_sample (st : Stats) (x : Sample) : (st.sample x).clMaxNs = st.clMaxNs := by
  simp only [Stats.sample, Stats.handshake]
  split_ifs <;> rfl

theorem peak_addCpu (s v : Summary) : (s.addCpu v).peak = s.peak.note v.peak := by
  by_cases h : s.hsMaxNs < v.hsMaxNs
  · rw [Peak.note, if_pos (show s.peak.value < v.peak.value from h)]
    simp only [Summary.addCpu, if_pos h]
    rfl
  · rw [Peak.note, if_neg (show ¬s.peak.value < v.peak.value from h)]
    simp only [Summary.addCpu, if_neg h]
    rfl

theorem counters_addCpu (s v : Summary) : (s.addCpu v).counters = s.counters + v.counters := by
  simp only [Summary.addCpu]
  split_ifs <;> rfl

theorem clMaxNs_addCpu (s v : Summary) :
    (s.addCpu v).clMaxNs = if s.clMaxNs < v.clMaxNs then v.clMaxNs else s.clMaxNs := by
  by_cases hpeak : s.hsMaxNs < v.hsMaxNs
  · simp only [Summary.addCpu, if_pos hpeak]
  · simp only [Summary.addCpu, if_neg hpeak]

/-- The merged summary: sums and a peak. -/
theorem mergeCpus_parts (stats : PerCpu n Stats) :
    (mergeCpus stats).counters = stats.total (·.read.counters) ∧
      (mergeCpus stats).peak = (List.finRange n).foldl (fun p c => p.note (stats c).read.peak)
        ({} : Stats).read.peak := by
  constructor
  · exact PerCpu.foldl_merge_eq_total (fun s st => s.addCpu (Stats.read st)) {} Summary.counters rfl
      (fun s st => counters_addCpu s st.read) stats
  · exact (List.foldl_hom Summary.peak fun s c => (peak_addCpu s _).symm).symm

/-- No handshake sets the longest lifetime. -/
theorem clMaxNs_mergeCpus (samples : List (Fin n × Sample)) :
    (mergeCpus (aggregate samples)).clMaxNs = 0 := by
  have hcpu : ∀ cpu, (aggregate samples cpu).clMaxNs = 0 :=
    spread_unmoved Stats.clMaxNs clMaxNs_sample samples
  unfold mergeCpus
  induction List.finRange n using List.reverseRecOn with
  | nil => rfl
  | append_singleton cpus cpu ih =>
      rw [List.foldl_append, List.foldl_cons, List.foldl_nil]
      have hread : (aggregate samples cpu).read.clMaxNs = 0 := hcpu cpu
      rw [clMaxNs_addCpu, ih, hread]
      rfl

theorem peak_mergeCpus (samples : List (Fin n × Sample)) :
    Peak.Of ({} : Stats).read.peak {q | ∃ x ∈ samples.map Prod.snd, x.peak = q}
      (mergeCpus (aggregate samples)).peak := by
  rw [(mergeCpus_parts (aggregate samples)).2]
  exact peak_merged (fun st : Stats => st.read.peak) peak_sample {} samples

/-- The merged summary of samples on any CPUs against one sequential aggregator. -/
structure Merges (samples : List (Fin n × Sample)) (s : Summary) : Prop where
  count : s.hsCount = (sequential (samples.map Prod.snd)).read.hsCount
  total : s.hsTotalNs = (sequential (samples.map Prod.snd)).read.hsTotalNs
  maximum : s.hsMaxNs = (samples.map fun x => x.2.latencyNs).foldl max 0
  attached : 0 < s.hsMaxNs → ∃ x ∈ samples, s.peak = x.2.peak

/-- Every counter is that of the sequential aggregator, also the ones no handshake moves. -/
theorem counters_mergeCpus (samples : List (Fin n × Sample)) :
    (mergeCpus (aggregate samples)).counters =
      (sequential (samples.map Prod.snd)).read.counters := by
  rw [(mergeCpus_parts (aggregate samples)).1]
  exact total_spread (fun st : Stats => st.read.counters) rfl counters_sample samples

theorem merges (samples : List (Fin n × Sample)) :
    Merges samples (mergeCpus (aggregate samples)) := by
  have hcounters := counters_mergeCpus samples
  have hof := peak_mergeCpus samples
  refine ⟨congrArg (·.2.1) hcounters, congrArg (·.2.2.1) hcounters, ?_, ?_⟩
  · have hmax := value_eq_foldl_max hof
    rwa [List.map_map] at hmax
  · intro hpos
    rcases hof.mem with hstart | ⟨_, x, hx, hpeak⟩
    · rw [show (mergeCpus (aggregate samples)).hsMaxNs = 0 from congrArg Peak.value hstart] at hpos
      exact absurd hpos (by decide)
    · obtain ⟨y, hy, rfl⟩ := List.mem_map.mp hx
      exact ⟨y, hy, hpeak.symm⟩

/-- The same samples on other CPUs: the same printed summary, unless two samples tie
for the maximum with different fields. -/
theorem printed_from_any_cpus {m : ℕ} (samples : List (Fin n × Sample))
    (samples' : List (Fin m × Sample)) (h : samples.map Prod.snd = samples'.map Prod.snd)
    (htie : ∀ x ∈ samples, ∀ y ∈ samples,
      x.2.latencyNs = (mergeCpus (aggregate samples)).hsMaxNs →
      y.2.latencyNs = (mergeCpus (aggregate samples)).hsMaxNs → x.2.peak = y.2.peak) :
    printStats (aggregate samples) = printStats (aggregate samples') := by
  have hcounters : (mergeCpus (aggregate samples)).counters =
      (mergeCpus (aggregate samples')).counters := by
    rw [counters_mergeCpus, counters_mergeCpus, h]
  have hclose : (mergeCpus (aggregate samples)).clMaxNs =
      (mergeCpus (aggregate samples')).clMaxNs := by
    rw [clMaxNs_mergeCpus, clMaxNs_mergeCpus]
  have hpeak : (mergeCpus (aggregate samples)).peak = (mergeCpus (aggregate samples')).peak := by
    refine (peak_mergeCpus samples).unique (h ▸ peak_mergeCpus samples') ?_
    rintro _ ⟨_, hx, rfl⟩ _ ⟨_, hy, rfl⟩ hxmax hymax
    obtain ⟨x, hxmem, rfl⟩ := List.mem_map.mp hx
    obtain ⟨y, hymem, rfl⟩ := List.mem_map.mp hy
    exact htie x hxmem y hymem hxmax hymax
  simp only [printStats, Summary.eq_of_parts hcounters hclose hpeak]

end TcpMonitor

/-! ## udp_monitor -/

namespace UdpMonitor

variable {n : ℕ}

/-- `struct UdpMonitor_stats` in user space; a fresh one is zeroed. -/
structure Summary where
  attempted : UInt64 := 0
  count : UInt64 := 0
  failed : UInt64 := 0
  totalNs : UInt64 := 0
  maxNs : UInt64 := 0
  totalBytes : UInt64 := 0
  filteredPid : UInt64 := 0
  filteredLatency : UInt64 := 0
  ringbufDropped : UInt64 := 0
  mapUpdateFailed : UInt64 := 0
  lookupMissed : UInt64 := 0
  nestedCalls : UInt64 := 0
  flowTuple : UInt64 := 0
  fallbackTuple : UInt64 := 0
  maxPid : UInt32 := 0
  maxTid : UInt32 := 0
  maxComm : Comm := Vector.replicate _ 0

def Stats.read (st : Stats) : Summary where
  attempted := .ofNat st.attempted
  count := .ofNat st.count
  failed := .ofNat st.failed
  totalNs := st.totalNs
  maxNs := st.maxNs
  totalBytes := st.totalBytes
  filteredPid := .ofNat st.filteredPid
  filteredLatency := .ofNat st.filteredLatency
  ringbufDropped := .ofNat st.ringbufDropped
  mapUpdateFailed := .ofNat st.mapUpdateFailed
  lookupMissed := .ofNat st.lookupMissed
  nestedCalls := .ofNat st.nestedCalls
  flowTuple := .ofNat st.flowTuple
  fallbackTuple := .ofNat st.fallbackTuple
  maxPid := st.maxPid
  maxTid := st.maxTid
  maxComm := st.maxComm

/-- The body of the loop over the CPUs. -/
def Summary.addCpu (s v : Summary) : Summary :=
  let s : Summary :=
    { s with
      attempted := s.attempted + v.attempted
      count := s.count + v.count
      failed := s.failed + v.failed
      totalNs := s.totalNs + v.totalNs
      totalBytes := s.totalBytes + v.totalBytes
      filteredPid := s.filteredPid + v.filteredPid
      filteredLatency := s.filteredLatency + v.filteredLatency
      ringbufDropped := s.ringbufDropped + v.ringbufDropped
      mapUpdateFailed := s.mapUpdateFailed + v.mapUpdateFailed
      lookupMissed := s.lookupMissed + v.lookupMissed
      nestedCalls := s.nestedCalls + v.nestedCalls
      flowTuple := s.flowTuple + v.flowTuple
      fallbackTuple := s.fallbackTuple + v.fallbackTuple }
  if s.maxNs < v.maxNs then
    { s with maxNs := v.maxNs, maxPid := v.maxPid, maxTid := v.maxTid, maxComm := v.maxComm }
  else s

def mergeCpus (stats : PerCpu n Stats) : Summary :=
  (List.finRange n).foldl (fun s cpu => s.addCpu (stats cpu).read) {}

/-- `print_stats`: nothing is printed when nothing was counted. -/
def printStats (stats : PerCpu n Stats) : Option Summary :=
  let s := mergeCpus stats
  if s.attempted = 0 ∧ s.count = 0 ∧ s.failed = 0 then none else some s

/-! ### Samples -/

/-- A send that returned: its context, its latency and the bytes it returned. -/
structure Sample where
  snapshot : UdpStart
  lat : UInt64
  retval : Int32

/-- The statistics update of `finish_udp_send`. -/
def Stats.sample (st : Stats) (x : Sample) : Stats := st.sent x.snapshot x.lat x.retval

def aggregate (samples : List (Fin n × Sample)) : PerCpu n Stats := spread Stats.sample {} samples

def sequential (samples : List Sample) : Stats := samples.foldl Stats.sample {}

/-- The fields that go with the maximum. -/
structure MaxFields where
  pid : UInt32
  tid : UInt32
  comm : Comm
deriving DecidableEq

def Sample.peak (x : Sample) : Peak UInt64 MaxFields :=
  ⟨x.lat, x.snapshot.tgid, x.snapshot.pid.toUInt32, x.snapshot.comm⟩

def Summary.peak (s : Summary) : Peak UInt64 MaxFields := ⟨s.maxNs, s.maxPid, s.maxTid, s.maxComm⟩

theorem peak_sample (st : Stats) (x : Sample) :
    (st.sample x).read.peak = st.read.peak.note x.peak := by
  by_cases h : st.maxNs < x.lat
  · rw [Peak.note, if_pos (show st.read.peak.value < x.peak.value from h)]
    simp only [Stats.sample, Stats.sent, if_pos h]
    rfl
  · rw [Peak.note, if_neg (show ¬st.read.peak.value < x.peak.value from h)]
    simp only [Stats.sample, Stats.sent, if_neg h]
    rfl

/-- Everything that `print_stats` adds up. -/
def Summary.counters (s : Summary) :
    UInt64 × UInt64 × UInt64 × UInt64 × UInt64 × UInt64 × UInt64 × UInt64 × UInt64 × UInt64 ×
      UInt64 × UInt64 × UInt64 :=
  (s.attempted, s.count, s.failed, s.totalNs, s.totalBytes, s.filteredPid, s.filteredLatency,
    s.ringbufDropped, s.mapUpdateFailed, s.lookupMissed, s.nestedCalls, s.flowTuple,
    s.fallbackTuple)

/-- The counters that a send moves. -/
def Summary.sends (s : Summary) : UInt64 × UInt64 × UInt64 × UInt64 × UInt64 :=
  (s.count, s.totalNs, s.totalBytes, s.flowTuple, s.fallbackTuple)

/-- A summary consists of its counters and the maximum. -/
theorem Summary.eq_of_parts {s s' : Summary} (hcounters : s.counters = s'.counters)
    (hpeak : s.peak = s'.peak) : s = s' := by
  cases s
  cases s'
  simp only [Summary.counters, Prod.mk.injEq] at hcounters
  simp only [Summary.peak, Peak.mk.injEq, MaxFields.mk.injEq] at hpeak
  simp only [hcounters, hpeak]

/-- What a send adds to each counter. -/
def Sample.counters (x : Sample) :
    UInt64 × UInt64 × UInt64 × UInt64 × UInt64 × UInt64 × UInt64 × UInt64 × UInt64 × UInt64 ×
      UInt64 × UInt64 × UInt64 :=
  (0, 1, 0, x.lat, x.retval.toInt64.toUInt64, 0, 0, 0, 0, 0, 0,
    if x.snapshot.tupleSource = .flow then 1 else 0,
    if x.snapshot.tupleSource = .flow then 0 else 1)

theorem counters_sample (st : Stats) (x : Sample) :
    (st.sample x).read.counters = st.read.counters + x.counters := by
  have hsucc : ∀ k : ℕ, UInt64.ofNat (k + 1) = UInt64.ofNat k + 1 := fun k => UInt64.ofNat_add _ _
  by_cases hflow : x.snapshot.tupleSource = .flow <;>
    simp [Stats.sample, Stats.sent, Stats.read, Summary.counters, Sample.counters, hsucc, hflow]

theorem peak_addCpu (s v : Summary) : (s.addCpu v).peak = s.peak.note v.peak := by
  by_cases h : s.maxNs < v.maxNs
  · rw [Peak.note, if_pos (show s.peak.value < v.peak.value from h)]
    simp only [Summary.addCpu, if_pos h]
    rfl
  · rw [Peak.note, if_neg (show ¬s.peak.value < v.peak.value from h)]
    simp only [Summary.addCpu, if_neg h]
    rfl

theorem counters_addCpu (s v : Summary) : (s.addCpu v).counters = s.counters + v.counters := by
  simp only [Summary.addCpu]
  split_ifs <;> rfl

theorem mergeCpus_parts (stats : PerCpu n Stats) :
    (mergeCpus stats).counters = stats.total (·.read.counters) ∧
      (mergeCpus stats).peak = (List.finRange n).foldl (fun p c => p.note (stats c).read.peak)
        ({} : Stats).read.peak := by
  constructor
  · exact PerCpu.foldl_merge_eq_total (fun s st => s.addCpu (Stats.read st)) {} Summary.counters rfl
      (fun s st => counters_addCpu s st.read) stats
  · exact (List.foldl_hom Summary.peak fun s c => (peak_addCpu s _).symm).symm

theorem peak_mergeCpus (samples : List (Fin n × Sample)) :
    Peak.Of ({} : Stats).read.peak {q | ∃ x ∈ samples.map Prod.snd, x.peak = q}
      (mergeCpus (aggregate samples)).peak := by
  rw [(mergeCpus_parts (aggregate samples)).2]
  exact peak_merged (fun st : Stats => st.read.peak) peak_sample {} samples

/-- The merged summary of samples on any CPUs against one sequential aggregator. -/
structure Merges (samples : List (Fin n × Sample)) (s : Summary) : Prop where
  sends : s.sends = (sequential (samples.map Prod.snd)).read.sends
  maximum : s.maxNs = (samples.map fun x => x.2.lat).foldl max 0
  attached : 0 < s.maxNs → ∃ x ∈ samples, s.peak = x.2.peak

/-- Every counter is that of the sequential aggregator, also the ones no send moves. -/
theorem counters_mergeCpus (samples : List (Fin n × Sample)) :
    (mergeCpus (aggregate samples)).counters =
      (sequential (samples.map Prod.snd)).read.counters := by
  rw [(mergeCpus_parts (aggregate samples)).1]
  exact total_spread (fun st : Stats => st.read.counters) rfl counters_sample samples

theorem sends_of_counters {s s' : Summary} (h : s.counters = s'.counters) : s.sends = s'.sends := by
  simp only [Summary.counters, Prod.mk.injEq] at h
  simp only [Summary.sends, h]

theorem merges (samples : List (Fin n × Sample)) :
    Merges samples (mergeCpus (aggregate samples)) := by
  have hof := peak_mergeCpus samples
  refine ⟨sends_of_counters (counters_mergeCpus samples), ?_, ?_⟩
  · have hmax := value_eq_foldl_max hof
    rwa [List.map_map] at hmax
  · intro hpos
    rcases hof.mem with hstart | ⟨_, x, hx, hpeak⟩
    · rw [show (mergeCpus (aggregate samples)).maxNs = 0 from congrArg Peak.value hstart] at hpos
      exact absurd hpos (by decide)
    · obtain ⟨y, hy, rfl⟩ := List.mem_map.mp hx
      exact ⟨y, hy, hpeak.symm⟩

/-- The same samples on other CPUs: the same printed summary, unless two samples tie
for the maximum with different fields. -/
theorem printed_from_any_cpus {m : ℕ} (samples : List (Fin n × Sample))
    (samples' : List (Fin m × Sample)) (h : samples.map Prod.snd = samples'.map Prod.snd)
    (htie : ∀ x ∈ samples, ∀ y ∈ samples, x.2.lat = (mergeCpus (aggregate samples)).maxNs →
      y.2.lat = (mergeCpus (aggregate samples)).maxNs → x.2.peak = y.2.peak) :
    printStats (aggregate samples) = printStats (aggregate samples') := by
  have hcounters : (mergeCpus (aggregate samples)).counters =
      (mergeCpus (aggregate samples')).counters := by
    rw [counters_mergeCpus, counters_mergeCpus, h]
  have hpeak : (mergeCpus (aggregate samples)).peak = (mergeCpus (aggregate samples')).peak := by
    refine (peak_mergeCpus samples).unique (h ▸ peak_mergeCpus samples') ?_
    rintro _ ⟨_, hx, rfl⟩ _ ⟨_, hy, rfl⟩ hxmax hymax
    obtain ⟨x, hxmem, rfl⟩ := List.mem_map.mp hx
    obtain ⟨y, hymem, rfl⟩ := List.mem_map.mp hy
    exact htie x hxmem y hymem hxmax hymax
  simp only [printStats, Summary.eq_of_parts hcounters hpeak]

end UdpMonitor

/-! ## Both -/

/-- Aggregation per CPU and merging at the end is aggregation in one place: every counter
and every total agrees modulo `2 ^ 64`, the maximum is the largest sample and its fields
come from one sample, and nothing that is printed depends on the CPUs, ties apart. -/
theorem per_cpu_aggregation_is_global :
    (∀ (n : ℕ) (samples : List (Fin n × TcpMonitor.Sample)),
      TcpMonitor.Merges samples (TcpMonitor.mergeCpus (TcpMonitor.aggregate samples))) ∧
    (∀ (n : ℕ) (samples : List (Fin n × UdpMonitor.Sample)),
      UdpMonitor.Merges samples (UdpMonitor.mergeCpus (UdpMonitor.aggregate samples))) ∧
    (∀ (n m : ℕ) (samples : List (Fin n × TcpMonitor.Sample))
      (samples' : List (Fin m × TcpMonitor.Sample)),
      samples.map Prod.snd = samples'.map Prod.snd →
      (∀ x ∈ samples, ∀ y ∈ samples,
        x.2.latencyNs = (TcpMonitor.mergeCpus (TcpMonitor.aggregate samples)).hsMaxNs →
        y.2.latencyNs = (TcpMonitor.mergeCpus (TcpMonitor.aggregate samples)).hsMaxNs →
          x.2.peak = y.2.peak) →
      TcpMonitor.printStats (TcpMonitor.aggregate samples) =
        TcpMonitor.printStats (TcpMonitor.aggregate samples')) ∧
    (∀ (n m : ℕ) (samples : List (Fin n × UdpMonitor.Sample))
      (samples' : List (Fin m × UdpMonitor.Sample)),
      samples.map Prod.snd = samples'.map Prod.snd →
      (∀ x ∈ samples, ∀ y ∈ samples,
        x.2.lat = (UdpMonitor.mergeCpus (UdpMonitor.aggregate samples)).maxNs →
        y.2.lat = (UdpMonitor.mergeCpus (UdpMonitor.aggregate samples)).maxNs →
          x.2.peak = y.2.peak) →
      UdpMonitor.printStats (UdpMonitor.aggregate samples) =
        UdpMonitor.printStats (UdpMonitor.aggregate samples')) := by
  refine ⟨?_, ?_, ?_, ?_⟩
  · exact fun _ samples => TcpMonitor.merges samples
  · exact fun _ samples => UdpMonitor.merges samples
  · exact fun _ _ samples samples' h htie =>
      TcpMonitor.printed_from_any_cpus samples samples' h htie
  · exact fun _ _ samples samples' h htie =>
      UdpMonitor.printed_from_any_cpus samples samples' h htie

/-- Two samples on two CPUs and the same two on one CPU. -/
theorem two_cpus_print_what_one_prints :
    let tcp : List (Fin 2 × TcpMonitor.Sample) :=
      [(0, ⟨{ sport := 80, af := 2 }, 30⟩), (1, ⟨{ sport := 443, af := 10 }, 70⟩)]
    let tcp' : List (Fin 1 × TcpMonitor.Sample) := tcp.map fun x => (0, x.2)
    let udp : List (Fin 2 × UdpMonitor.Sample) :=
      [(1, ⟨{ tgid := 7, pid := 8, tupleSource := .flow }, 90, 5⟩),
        (0, ⟨{ tgid := 9, pid := 9 }, 20, 6⟩)]
    let udp' : List (Fin 1 × UdpMonitor.Sample) := udp.map fun x => (0, x.2)
    ((TcpMonitor.mergeCpus (TcpMonitor.aggregate tcp)).hsMaxSport = 443 ∧
      TcpMonitor.Merges tcp (TcpMonitor.mergeCpus (TcpMonitor.aggregate tcp)) ∧
      TcpMonitor.printStats (TcpMonitor.aggregate tcp) =
        TcpMonitor.printStats (TcpMonitor.aggregate tcp')) ∧
    ((UdpMonitor.mergeCpus (UdpMonitor.aggregate udp)).maxPid = 7 ∧
      (UdpMonitor.mergeCpus (UdpMonitor.aggregate udp)).flowTuple = 1 ∧
      UdpMonitor.Merges udp (UdpMonitor.mergeCpus (UdpMonitor.aggregate udp)) ∧
      UdpMonitor.printStats (UdpMonitor.aggregate udp) =
        UdpMonitor.printStats (UdpMonitor.aggregate udp')) := by
  intro tcp tcp' udp udp'
  rcases per_cpu_aggregation_is_global with ⟨htcp, hudp, htcp', hudp'⟩
  refine ⟨⟨by decide +kernel, htcp 2 tcp, ?_⟩, ⟨by decide +kernel, by decide +kernel, hudp 2 udp, ?_⟩⟩
  · apply htcp' 2 1 tcp tcp' rfl
    decide +kernel
  · apply hudp' 2 1 udp udp' rfl
    decide +kernel

end EbpfToolbox.Net
