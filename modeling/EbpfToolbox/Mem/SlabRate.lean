import EbpfToolbox.Common.PidNamespace
import EbpfToolbox.Lib.BpfMap
import EbpfToolbox.Lib.Interleave
import EbpfToolbox.Lib.PerCpu
import Mathlib.Data.UInt

/-!
# mem/slab_rate

`mem/slab_rate/slab_rate.bpf.c`: four tracepoint handlers count successful slab
allocations in the per-CPU hash `slab_entries`, under a key of size, kind and cache
name. The handlers run on all CPUs at once; the map lookups, the insertion and each of
the stores are single calls of a `Program`, so that two CPUs can meet the same new key, and
user space can look, between any two of them.

The last section proves that no allocation gets lost on the way: every event that was
seen is counted once, under a key or under the reason why it was not.
-/

namespace EbpfToolbox.Mem.SlabRate

open Common Lib

/-! ## Data -/

/-- `SLAB_RATE_MAX_ENTRIES`. -/
def slabRateMaxEntries : ℕ := 1024

/-- `CACHE_NAME_SIZE`. -/
def cacheNameSize : ℕ := 48

/-- `enum SlabRate_kind`. -/
inductive Kind : Type where
  | namedCache
  | kmalloc
  | cacheSize
deriving DecidableEq, Repr

/-- `struct SlabRate_key`; its padding is zero everywhere. -/
structure Key where
  allocSize : UInt64
  kind : Kind
  name : Vector Int8 cacheNameSize := Vector.replicate _ 0
deriving DecidableEq

/-- `struct SlabRate_ctrl`. -/
structure Ctrl where
  enable : Bool
  targetPid : Int32
  pidNsDev : UInt64
  pidNsIno : UInt64

/-- `struct SlabRate_info`. -/
structure Info where
  count : ℕ := 0
  allocatedBytes : UInt64 := 0

/-- The fields of `struct SlabRate_stats`. -/
inductive Counter : Type where
  | eventsSeen
  | allocFailed
  | filteredPid
  | mapUpdateFailed
  | nameReadFailed
  | sizeFallback
deriving DecidableEq, Repr

/-- `slab_entries` and `stats_map`. -/
structure State (n : ℕ) where
  slabEntries : BpfMap Key (PerCpu n Info)
  stats : PerCpu n (Counter → ℕ)

def State.start (n : ℕ) : State n := ⟨∅, fun _ _ => 0⟩

/-! ## Calls -/

/-- The steps of a handler that other CPUs can come between. -/
inductive Call : Type where
  | count (x : Counter)
  | lookup (key : Key)
  | insert (key : Key)
  | addCount (key : Key)
  | addBytes (key : Key) (bytes : UInt64)

/-- `bpf_map_lookup_elem` says whether there is a value; nobody looks at the result of
`bpf_map_update_elem`. -/
@[reducible] def Call.Ret : Call → Type
  | .lookup _ => Bool
  | _ => Unit

variable {n : ℕ}

/-- `bpf_map_update_elem` with a zero value and `BPF_NOEXIST`. -/
def State.insertNoexist (s : State n) (key : Key) : State n :=
  if (s.slabEntries.get key).isSome ∨ slabRateMaxEntries ≤ s.slabEntries.size then s
  else { s with slabEntries := s.slabEntries.update key fun _ => {} }

/-- `info->count++`. -/
def Info.addCount (info : Info) : Info := { info with count := info.count + 1 }

/-- `info->allocated_bytes += bytes`. -/
def Info.addBytes (info : Info) (bytes : UInt64) : Info :=
  { info with allocatedBytes := info.allocatedBytes + bytes }

/-- A call on CPU `cpu`. Every increment goes to its own copy. -/
def Call.run (cpu : Fin n) (s : State n) : (c : Call) → c.Ret × State n
  | .count x =>
      ((), { s with stats := s.stats.modify cpu fun st => Function.update st x (st x + 1) })
  | .lookup key => ((s.slabEntries.get key).isSome, s)
  | .insert key => ((), s.insertNoexist key)
  | .addCount key =>
      ((), { s with slabEntries := s.slabEntries.modify key fun v => v.modify cpu Info.addCount })
  | .addBytes key bytes =>
      ((), { s with
        slabEntries := s.slabEntries.modify key fun v => v.modify cpu (·.addBytes bytes) })

abbrev Prog (α : Type) : Type := Program Call Call.Ret α

def bump (x : Counter) : Prog Unit := .lift (Call.count x)

def lookupElem (key : Key) : Prog Bool := .lift (Call.lookup key)

def updateElem (key : Key) : Prog Unit := .lift (Call.insert key)

def addCount (key : Key) : Prog Unit := .lift (Call.addCount key)

def addBytes (key : Key) (bytes : UInt64) : Prog Unit := .lift (Call.addBytes key bytes)

/-- The last two statements of `account_alloc`. -/
def increment (key : Key) (bytes : UInt64) : Prog Unit := do
  addCount key
  addBytes key bytes

/-! ## The handlers -/

def pidMatches (c : Ctrl) (cur : Task) : Prog Bool :=
  if c.targetPid = 0 then pure true
  else
    let pidTgid := appCurrentPidTgidNs cur c.pidNsDev c.pidNsIno
    if pidTgid = 0 ∨ tgidOf pidTgid ≠ c.targetPid.toUInt32 then do
      bump .filteredPid
      pure false
    else pure true

def accountAlloc (key : Key) (bytes : UInt64) : Prog Unit := do
  let info ← lookupElem key
  if info then increment key bytes
  else
    updateElem key
    -- another CPU may have inserted the key in between
    let info ← lookupElem key
    if info then increment key bytes
    else bump .mapUpdateFailed

def accountCacheSize (bytes : UInt64) : Prog Unit := do
  bump .sizeFallback
  accountAlloc ⟨bytes, .cacheSize, Vector.replicate _ 0⟩ bytes

/-- What all handlers do before they account for an allocation. -/
def observe (c : Ctrl) (cur : Task) (ptr : UInt64) (account : Prog Unit) : Prog Unit :=
  if c.enable = false then pure ()
  else do
    bump .eventsSeen
    if ptr = 0 then bump .allocFailed
    else
      let ok ← pidMatches c cur
      if ok then account else pure ()

/-- The fields of `struct kmem_cache` that are read; a failed read gives zero. -/
structure KmemCache where
  size : UInt32
  name : ReadStr

/-- `struct bpf_raw_tracepoint_args`, and what is behind `args[2]` if that is a cache. -/
structure RawTracepointArgs where
  args : ℕ → UInt64
  cachep : KmemCache

/-- The fields of `struct trace_event_raw_kmalloc` that are read. -/
structure TraceEventRawKmalloc where
  ptr : UInt64
  bytesAlloc : UInt64

/-- `bpf_probe_read_kernel_str`: the length with the NUL, or an error. -/
def readKernelStrLen (size : ℕ) : ReadStr → ℤ
  | none => -14
  | some bytes => min (bytes.length + 1) size

def accountNamedCache (cachep : KmemCache) : Prog Unit :=
  if readKernelStrLen cacheNameSize cachep.name ≤ 1 then bump .nameReadFailed
  else
    let key : Key := ⟨cachep.size.toUInt64, .namedCache, copyStr _ (cachep.name.getD [])⟩
    accountAlloc key key.allocSize

/-- `accounted`: the field exists, the tracepoint has the layout of a new kernel. -/
def handleKmemCacheAlloc (c : Ctrl) (accounted : Bool) (cur : Task) (ctx : RawTracepointArgs) :
    Prog Unit :=
  observe c cur (ctx.args 1)
    (if accounted = false then accountCacheSize (ctx.args 3) else accountNamedCache ctx.cachep)

def handleKmemCacheAllocNode (c : Ctrl) (cur : Task) (ctx : RawTracepointArgs) : Prog Unit :=
  observe c cur (ctx.args 1) (accountCacheSize (ctx.args 3))

def handleKmalloc (c : Ctrl) (cur : Task) (ctx : TraceEventRawKmalloc) : Prog Unit :=
  let key : Key := ⟨ctx.bytesAlloc, .kmalloc, Vector.replicate _ 0⟩
  observe c cur ctx.ptr (accountAlloc key key.allocSize)

def handleKmallocNode (c : Ctrl) (cur : Task) (ctx : RawTracepointArgs) : Prog Unit :=
  let key : Key := ⟨ctx.args 3, .kmalloc, Vector.replicate _ 0⟩
  observe c cur (ctx.args 1) (accountAlloc key key.allocSize)

/-- An allocation event, with the task it happens in. -/
inductive Alloc : Type where
  | kmemCacheAlloc (cur : Task) (ctx : RawTracepointArgs)
  | kmemCacheAllocNode (cur : Task) (ctx : RawTracepointArgs)
  | kmalloc (cur : Task) (ctx : TraceEventRawKmalloc)
  | kmallocNode (cur : Task) (ctx : RawTracepointArgs)

def Alloc.handle (c : Ctrl) (accounted : Bool) : Alloc → Prog Unit
  | .kmemCacheAlloc cur ctx => handleKmemCacheAlloc c accounted cur ctx
  | .kmemCacheAllocNode cur ctx => handleKmemCacheAllocNode c cur ctx
  | .kmalloc cur ctx => handleKmalloc c cur ctx
  | .kmallocNode cur ctx => handleKmallocNode c cur ctx

/-- The handlers on `n` CPUs, in any interleaving. -/
def slabRate (n : ℕ) (c : Ctrl) (accounted : Bool) :
    Machine (State n × (Fin n → Prog Unit)) (Turn n Alloc) :=
  interleaved Call.run (Alloc.handle c accounted) (State.start n)

instance (c : Ctrl) (accounted : Bool) (s : State n × (Fin n → Prog Unit)) (e : Turn n Alloc) :
    Decidable ((slabRate n c accounted).Allowed s e) :=
  inferInstanceAs (Decidable ((interleaved _ _ _).Allowed s e))

/-! ## What a handler owes -/

/-- `owing`: the event is counted in `events_seen` and nowhere else yet. `found key`: the
same, and a lookup found `key`. `counted key`: it is counted there, without its bytes. -/
inductive Phase : Type where
  | idle
  | owing
  | found (key : Key)
  | counted (key : Key)

def Phase.debt : Phase → ℕ
  | .idle | .counted _ => 0
  | .owing | .found _ => 1

/-- The entry that the handler has a pointer to. -/
def Phase.entry : Phase → Option Key
  | .idle | .owing => none
  | .found key | .counted key => some key

/-- The allocations of `key` whose bytes are still to come. -/
def Phase.pending : Phase → Key → ℕ
  | .counted key', key => if key' = key then 1 else 0
  | _, _ => 0

/-- An event is counted once as seen and once as settled; only a key that was found is
incremented, its count first and then its bytes, by its own size. -/
def protocol : Protocol Call Call.Ret Phase where
  idle := .idle
  Permits g c := match g, c with
    | .idle, .count x => x = .eventsSeen
    | .owing, .count x => x ≠ .eventsSeen
    | .owing, .lookup _ | .owing, .insert _ => True
    | .found key, .addCount key' => key' = key
    | .counted key, .addBytes key' bytes => key' = key ∧ bytes = key.allocSize
    | _, _ => False
  next g c r := match c with
    | .count .eventsSeen | .count .sizeFallback => .owing
    | .count _ | .addBytes _ _ => .idle
    | .addCount key => .counted key
    | .lookup key => if r = true then .found key else g
    | .insert _ => g

theorem accountAlloc_follows {key : Key} {bytes : UInt64} (h : bytes = key.allocSize) :
    (accountAlloc key bytes).Follows protocol .owing := by
  have hadd : (increment key bytes).Follows protocol (.found key) :=
    ⟨rfl, fun _ => ⟨⟨rfl, h⟩, fun _ => rfl⟩⟩
  refine ⟨trivial, fun info => ?_⟩
  cases info with
  | true => exact hadd
  | false =>
      refine ⟨trivial, fun _ => ⟨trivial, fun info => ?_⟩⟩
      cases info with
      | true => exact hadd
      | false => exact ⟨nofun, fun _ => rfl⟩

theorem accountCacheSize_follows (bytes : UInt64) :
    (accountCacheSize bytes).Follows protocol .owing :=
  ⟨nofun, fun _ => accountAlloc_follows rfl⟩

theorem accountNamedCache_follows (cachep : KmemCache) :
    (accountNamedCache cachep).Follows protocol .owing := by
  unfold accountNamedCache
  split_ifs
  · exact ⟨nofun, fun _ => rfl⟩
  · exact accountAlloc_follows rfl

theorem observe_follows (c : Ctrl) (cur : Task) (ptr : UInt64) {account : Prog Unit}
    (h : account.Follows protocol .owing) : (observe c cur ptr account).Follows protocol .idle := by
  unfold observe
  split_ifs
  · rfl
  · exact ⟨rfl, fun _ => ⟨nofun, fun _ => rfl⟩⟩
  refine ⟨rfl, fun _ => ?_⟩
  simp only [pidMatches]
  split_ifs
  · exact h
  · exact ⟨nofun, fun _ => rfl⟩
  · exact h

theorem handle_follows (c : Ctrl) (accounted : Bool) (e : Alloc) :
    (e.handle c accounted).Follows protocol .idle := by
  cases e with
  | kmemCacheAlloc cur ctx =>
      apply observe_follows
      split_ifs
      · exact accountCacheSize_follows _
      · exact accountNamedCache_follows _
  | kmemCacheAllocNode cur ctx => exact observe_follows _ _ _ (accountCacheSize_follows _)
  | kmalloc cur ctx => exact observe_follows _ _ _ (accountAlloc_follows rfl)
  | kmallocNode cur ctx => exact observe_follows _ _ _ (accountAlloc_follows rfl)

/-! ## Conservation -/

/-- The sum over all CPUs of one counter. -/
def State.counted (s : State n) (x : Counter) : ℕ := s.stats.total (· x)

/-- The events that were settled without an allocation being counted. -/
def State.settled (s : State n) : ℕ :=
  s.counted .allocFailed + s.counted .filteredPid + s.counted .nameReadFailed +
    s.counted .mapUpdateFailed

/-- The sum of `count` over all keys and CPUs. -/
def State.allocations (s : State n) : ℕ := s.slabEntries.weight fun v => v.total Info.count

/-- Every event that was seen is counted once, and the bytes of a key fit its count. -/
def Balanced (s : State n) : Prop :=
  s.counted .eventsSeen = s.settled + s.allocations ∧
    ∀ key v, s.slabEntries.get key = some v →
      v.total Info.allocatedBytes = .ofNat (v.total Info.count) * key.allocSize

/-- One copy of an entry: the bytes fit its count, but for `pending` allocations. -/
def Info.Booked (info : Info) (key : Key) (pending : ℕ) : Prop :=
  ∃ k, info.count = k + pending ∧ info.allocatedBytes = .ofNat k * key.allocSize

/-- The balance while handlers are under way. -/
structure Accounts (s : State n) (gs : Fin n → Phase) : Prop where
  balance : s.counted .eventsSeen = s.settled + s.allocations + PerCpu.total Phase.debt gs
  found : ∀ i, ∀ key ∈ (gs i).entry, (s.slabEntries.get key).isSome = true
  bytes : ∀ key v, s.slabEntries.get key = some v →
    ∀ cpu, (v cpu).Booked key ((gs cpu).pending key)

/-- CPU `i` goes on to phase `g`. -/
theorem Accounts.found_update {s : State n} {gs : Fin n → Phase} (h : Accounts s gs) {i : Fin n}
    {g : Phase} (hg : ∀ key ∈ g.entry, (s.slabEntries.get key).isSome = true) :
    ∀ j, ∀ key ∈ (Function.update gs i g j).entry, (s.slabEntries.get key).isSome = true :=
  (Function.forall_update_iff gs fun _ g => ∀ key ∈ g.entry,
    (s.slabEntries.get key).isSome = true).mpr ⟨hg, fun j _ => h.found j⟩

/-- A step of CPU `i` that is not about bytes. -/
theorem Accounts.bytes_update {s : State n} {gs : Fin n → Phase} (h : Accounts s gs) {i : Fin n}
    {g : Phase} (hold : (gs i).pending = fun _ => 0) (hnew : g.pending = fun _ => 0) (key : Key)
    (v : PerCpu n Info) (hv : s.slabEntries.get key = some v) (cpu : Fin n) :
    (v cpu).Booked key ((Function.update gs i g cpu).pending key) := by
  by_cases hcpu : cpu = i
  · subst hcpu
    have hbooked := h.bytes key v hv cpu
    rw [hold] at hbooked
    rwa [Function.update_self, hnew]
  · rw [Function.update_of_ne hcpu]
    exact h.bytes key v hv cpu

/-- No bytes are owed before the count has moved. -/
theorem pending_of_permits {g : Phase} {c : Call} (h : protocol.Permits g c)
    (hc : ∀ key bytes, c ≠ .addBytes key bytes) : g.pending = fun _ => 0 := by
  cases g with
  | counted key =>
      cases c with
      | addBytes key' bytes => exact absurd rfl (hc key' bytes)
      | _ => exact h.elim
  | _ => rfl

theorem counted_count (s : State n) (i : Fin n) (x y : Counter) :
    (Call.run i s (.count x)).2.counted y = s.counted y + if y = x then 1 else 0 := by
  apply PerCpu.total_modify_add
  by_cases h : y = x
  · subst h
    simp
  · simp [h]

/-- Counters and phases move; the entries stay. -/
theorem Accounts.count {s : State n} {gs : Fin n → Phase} (h : Accounts s gs) (i : Fin n)
    {x : Counter} (hx : protocol.Permits (gs i) (.count x)) :
    Accounts (Call.run i s (.count x)).2
      (Function.update gs i (protocol.next (gs i) (.count x) ())) := by
  have hdebt := PerCpu.total_update Phase.debt gs i (protocol.next (gs i) (.count x) ())
  have hbalance := h.balance
  refine ⟨?_, ?_, h.bytes_update (pending_of_permits hx nofun) ?_⟩
  · have hentries : (Call.run i s (.count x)).2.allocations = s.allocations := rfl
    simp only [State.settled, counted_count, hentries] at hbalance ⊢
    cases hg : gs i with
    | idle =>
        rw [hg] at hx hdebt
        obtain rfl : x = .eventsSeen := hx
        simp only [protocol, Phase.debt] at hdebt
        simp only [protocol, reduceCtorEq, if_true, if_false]
        omega
    | owing =>
        rw [hg] at hx hdebt
        cases x with
        | eventsSeen => exact absurd rfl hx
        | _ =>
            simp only [protocol, Phase.debt] at hdebt
            simp only [protocol, reduceCtorEq, if_true, if_false]
            omega
    | found key =>
        rw [hg] at hx
        exact hx.elim
    | counted key =>
        rw [hg] at hx
        exact hx.elim
  · apply h.found_update
    intro key hkey
    cases x <;> cases hkey
  · cases x <;> rfl

theorem Accounts.lookup {s : State n} {gs : Fin n → Phase} (h : Accounts s gs) (i : Fin n)
    {key : Key} (hpermits : protocol.Permits (gs i) (.lookup key)) :
    Accounts s (Function.update gs i
      (protocol.next (gs i) (.lookup key) (s.slabEntries.get key).isSome)) := by
  have howing : gs i = .owing := by
    cases hg : gs i with
    | owing => rfl
    | _ => rw [hg] at hpermits; exact hpermits.elim
  have hdebt := PerCpu.total_update Phase.debt gs i
    (protocol.next (gs i) (.lookup key) (s.slabEntries.get key).isSome)
  refine ⟨?_, ?_, h.bytes_update (pending_of_permits hpermits nofun) ?_⟩
  · have hsame : (protocol.next (gs i) (.lookup key) (s.slabEntries.get key).isSome).debt =
        (gs i).debt := by
      rw [howing]
      simp only [protocol]
      split_ifs <;> rfl
    rw [hsame] at hdebt
    rw [h.balance, Nat.add_right_cancel hdebt]
  · apply h.found_update
    intro key' hkey
    rw [howing] at hkey
    simp only [protocol] at hkey
    split_ifs at hkey with hfound
    · obtain rfl := Option.some.inj hkey
      exact hfound
    · cases hkey
  · rw [howing]
    simp only [protocol]
    split_ifs <;> rfl

theorem insertNoexist_eq (s : State n) (key : Key) :
    s.insertNoexist key = s ∨ s.slabEntries.get key = none ∧
      s.insertNoexist key = { s with slabEntries := s.slabEntries.update key fun _ => {} } := by
  unfold State.insertNoexist
  split_ifs with h
  · exact .inl rfl
  · rw [not_or] at h
    exact .inr ⟨by simpa using h.1, rfl⟩

/-- A new key starts with zeros, whoever inserts it. -/
theorem Accounts.insert {s : State n} {gs : Fin n → Phase} (h : Accounts s gs) (key : Key) :
    Accounts (s.insertNoexist key) gs := by
  rcases insertNoexist_eq s key with hsame | ⟨hnone, hnew⟩
  · rw [hsame]
    exact h
  have hzero : PerCpu.total Info.count (fun _ : Fin n => ({} : Info)) = 0 :=
    PerCpu.total_const_zero _ _ rfl
  rw [hnew]
  refine ⟨?_, ?_, ?_⟩
  · have hweight := BpfMap.weight_congr (fun v : PerCpu n Info => v.total Info.count)
      fun a (ha : a ≠ key) => BpfMap.get_update_of_ne s.slabEntries (fun _ => {}) ha
    rw [hnone, BpfMap.get_update_self] at hweight
    simp only [Option.elim, hzero, add_zero] at hweight
    have hentries : State.allocations
        { s with slabEntries := s.slabEntries.update key fun _ => {} } = s.allocations := hweight
    rw [hentries]
    exact h.balance
  · intro i key' hi
    simp only [BpfMap.get_update]
    split_ifs
    · rfl
    · exact h.found i key' hi
  · intro key' v hv cpu
    simp only [BpfMap.get_update] at hv
    split_ifs at hv with hk
    · obtain rfl := Option.some.inj hv
      -- nobody has a pointer to an entry that was not there
      have hpending : (gs cpu).pending key' = 0 := by
        cases hg : gs cpu with
        | counted key'' =>
            have hne : key'' ≠ key' := by
              rintro rfl
              have hsome := h.found cpu key'' (by rw [hg]; rfl)
              rw [hk, hnone] at hsome
              cases hsome
            simp [Phase.pending, hne]
        | _ => rfl
      exact ⟨0, by simp [hpending], by simp⟩
    · exact h.bytes key' v hv cpu

/-! ### The two stores -/

/-- `f` rewrites one copy of one entry, and the phase moves with it. -/
theorem Accounts.bytes_modify {s : State n} {gs : Fin n → Phase} (h : Accounts s gs) {i : Fin n}
    {key : Key} {f : Info → Info} {g : Phase}
    (hself : ∀ info : Info, info.Booked key ((gs i).pending key) →
      (f info).Booked key (g.pending key))
    (hother : ∀ key', key' ≠ key → g.pending key' = (gs i).pending key') (key' : Key)
    (w : PerCpu n Info)
    (hw : (s.slabEntries.modify key fun v => v.modify i f).get key' = some w) (cpu : Fin n) :
    (w cpu).Booked key' ((Function.update gs i g cpu).pending key') := by
  rw [BpfMap.get_modify] at hw
  by_cases hk : key' = key
  · subst hk
    rw [if_pos rfl] at hw
    obtain ⟨v, hv, rfl⟩ := Option.map_eq_some_iff.mp hw
    by_cases hcpu : cpu = i
    · subst hcpu
      rw [PerCpu.modify_self, Function.update_self]
      exact hself _ (h.bytes key' v hv cpu)
    · rw [PerCpu.modify_of_ne _ _ hcpu, Function.update_of_ne hcpu]
      exact h.bytes key' v hv cpu
  · rw [if_neg hk] at hw
    have hbooked := h.bytes key' w hw cpu
    by_cases hcpu : cpu = i
    · subst hcpu
      rwa [Function.update_self, hother key' hk]
    · rwa [Function.update_of_ne hcpu]

/-- No entry goes away. -/
theorem Accounts.found_modify {s : State n} {gs : Fin n → Phase} (h : Accounts s gs) {i : Fin n}
    (key : Key) (f : PerCpu n Info → PerCpu n Info) {g : Phase}
    (hg : ∀ key ∈ g.entry, (s.slabEntries.get key).isSome = true) (j : Fin n) (key' : Key)
    (hkey : key' ∈ (Function.update gs i g j).entry) :
    ((s.slabEntries.modify key f).get key').isSome = true := by
  have hsome := h.found_update (i := i) hg j key' hkey
  rw [BpfMap.get_modify]
  split_ifs with hk
  · subst hk
    simpa using hsome
  · exact hsome

theorem Accounts.addCount {s : State n} {gs : Fin n → Phase} (h : Accounts s gs) (i : Fin n)
    {key : Key} (hfound : gs i = .found key) :
    Accounts (Call.run i s (.addCount key)).2 (Function.update gs i (.counted key)) := by
  have hsome := h.found i key (by rw [hfound]; rfl)
  obtain ⟨v, hv⟩ := Option.isSome_iff_exists.mp hsome
  have hcount : (v.modify i Info.addCount).total Info.count = v.total Info.count + 1 :=
    PerCpu.total_modify_add _ _ _ _ rfl
  refine ⟨?_, h.found_modify key _ ?_, h.bytes_modify ?_ ?_⟩
  · have hget : ∀ k, (Call.run i s (.addCount key)).2.slabEntries.get k =
        if k = key then some (v.modify i Info.addCount) else s.slabEntries.get k := by
      intro k
      simp only [Call.run, BpfMap.get_modify, hv, Option.map_some]
    have hweight := BpfMap.weight_congr (fun v : PerCpu n Info => v.total Info.count)
      fun a (ha : a ≠ key) => (hget a).trans (if_neg ha)
    rw [hv, hget, if_pos rfl] at hweight
    simp only [Option.elim, hcount] at hweight
    have hentries : (Call.run i s (.addCount key)).2.allocations = s.allocations + 1 := by
      unfold State.allocations
      omega
    have hdebt := PerCpu.total_update Phase.debt gs i (.counted key)
    rw [hfound] at hdebt
    simp only [Phase.debt] at hdebt
    have hbalance := h.balance
    change s.counted .eventsSeen = s.settled + _ + _
    rw [hentries]
    omega
  · intro key' hkey
    obtain rfl := Option.some.inj hkey
    exact hsome
  · rw [hfound]
    rintro info ⟨k, hk, hbytes⟩
    exact ⟨k, by simpa [Info.addCount, Phase.pending] using hk, hbytes⟩
  · intro key' hne
    rw [hfound]
    exact if_neg hne.symm

theorem Accounts.addBytes {s : State n} {gs : Fin n → Phase} (h : Accounts s gs) (i : Fin n)
    {key : Key} (hcounted : gs i = .counted key) :
    Accounts (Call.run i s (.addBytes key key.allocSize)).2 (Function.update gs i .idle) := by
  have hsome := h.found i key (by rw [hcounted]; rfl)
  obtain ⟨v, hv⟩ := Option.isSome_iff_exists.mp hsome
  refine ⟨?_, h.found_modify key _ ?_, h.bytes_modify ?_ ?_⟩
  · have hsame : (v.modify i (·.addBytes key.allocSize)).total Info.count = v.total Info.count :=
      (PerCpu.total_modify_add Info.count _ _ _ (d := 0) rfl).trans (add_zero _)
    have hget : ∀ k, (Call.run i s (.addBytes key key.allocSize)).2.slabEntries.get k =
        if k = key then some (v.modify i (·.addBytes key.allocSize))
        else s.slabEntries.get k := by
      intro k
      simp only [Call.run, BpfMap.get_modify, hv, Option.map_some]
    have hweight := BpfMap.weight_congr (fun v : PerCpu n Info => v.total Info.count)
      fun a (ha : a ≠ key) => (hget a).trans (if_neg ha)
    rw [hv, hget, if_pos rfl] at hweight
    simp only [Option.elim, hsame] at hweight
    have hentries : (Call.run i s (.addBytes key key.allocSize)).2.allocations =
        s.allocations := by
      unfold State.allocations
      omega
    have hdebt := PerCpu.total_update Phase.debt gs i .idle
    rw [hcounted] at hdebt
    simp only [Phase.debt] at hdebt
    have hbalance := h.balance
    change s.counted .eventsSeen = s.settled + _ + _
    rw [hentries]
    omega
  · exact fun key' hkey => by cases hkey
  · rw [hcounted]
    rintro info ⟨k, hk, hbytes⟩
    refine ⟨k + 1, by simpa [Info.addBytes, Phase.pending] using hk, ?_⟩
    simp only [Info.addBytes, hbytes, UInt64.ofNat_add, add_mul]
    simp
  · intro key' hne
    rw [hcounted]
    exact (if_neg hne.symm).symm

theorem Accounts.call {s : State n} {gs : Fin n → Phase} (h : Accounts s gs) (i : Fin n)
    {c : Call} (hpermits : protocol.Permits (gs i) c) :
    Accounts (Call.run i s c).2
      (Function.update gs i (protocol.next (gs i) c (Call.run i s c).1)) := by
  cases c with
  | count x => exact h.count i hpermits
  | lookup key => exact h.lookup i hpermits
  | insert key =>
      simp only [protocol, Call.run, Function.update_eq_self]
      exact h.insert key
  | addCount key =>
      cases hg : gs i with
      | found key' =>
          rw [hg] at hpermits
          obtain rfl := hpermits
          exact h.addCount i hg
      | _ => rw [hg] at hpermits; exact hpermits.elim
  | addBytes key bytes =>
      cases hg : gs i with
      | counted key' =>
          rw [hg] at hpermits
          rcases hpermits with ⟨rfl, rfl⟩
          exact h.addBytes i hg
      | _ => rw [hg] at hpermits; exact hpermits.elim

/-! ### Runs -/

theorem ofNat_sum (f : Fin n → ℕ) (is : Finset (Fin n)) :
    UInt64.ofNat (∑ i ∈ is, f i) = ∑ i ∈ is, UInt64.ofNat (f i) := by
  induction is using Finset.induction_on with
  | empty => rfl
  | insert i is hi ih => rw [Finset.sum_insert hi, Finset.sum_insert hi, UInt64.ofNat_add, ih]

/-- When no bytes are owed, those of all copies fit the count of all copies. -/
theorem total_allocatedBytes {v : PerCpu n Info} {key : Key} (h : ∀ cpu, (v cpu).Booked key 0) :
    v.total Info.allocatedBytes = .ofNat (v.total Info.count) * key.allocSize := by
  have hcopy : ∀ cpu, (v cpu).allocatedBytes = .ofNat (v cpu).count * key.allocSize := by
    intro cpu
    rcases h cpu with ⟨k, hk, hbytes⟩
    rw [hbytes, hk, add_zero]
  calc v.total Info.allocatedBytes
      = ∑ cpu, UInt64.ofNat (v cpu).count * key.allocSize :=
        Finset.sum_congr rfl fun cpu _ => hcopy cpu
    _ = (∑ cpu, UInt64.ofNat (v cpu).count) * key.allocSize := (Finset.sum_mul _ _ _).symm
    _ = .ofNat (v.total Info.count) * key.allocSize := by rw [PerCpu.total, ofNat_sum]

theorem accounts_run (c : Ctrl) (accounted : Bool) {es : List (Turn n Alloc)}
    (hv : (slabRate n c accounted).Valid es) :
    Phased protocol Accounts ((slabRate n c accounted).run es) := by
  refine interleaved_invariant protocol Accounts ?_ (handle_follows c accounted) ?_ hv
  · refine ⟨?_, nofun, by simp [State.start]⟩
    have hcounted : ∀ x, (State.start n).counted x = 0 := fun x => PerCpu.total_const_zero _ _ rfl
    have hdebt : PerCpu.total Phase.debt (fun _ : Fin n => protocol.idle) = 0 :=
      PerCpu.total_const_zero _ _ rfl
    simp only [State.settled, hcounted, hdebt]
    rfl
  · exact fun s gs i c h hpermits => h.call i hpermits

/-- Whenever no handler is under way, no event is lost or counted twice. -/
theorem allocation_events_are_conserved (c : Ctrl) (accounted : Bool) (es : List (Turn n Alloc))
    (hv : (slabRate n c accounted).Valid es)
    (hdone : ∀ i, (((slabRate n c accounted).run es).2 i).isDone = true) :
    Balanced ((slabRate n c accounted).run es).1 := by
  have h := (accounts_run c accounted hv).of_all_done hdone
  have hdebt : PerCpu.total Phase.debt (fun _ : Fin n => protocol.idle) = 0 :=
    PerCpu.total_const_zero _ _ rfl
  exact ⟨by rw [h.balance, hdebt, add_zero], fun key v hv => total_allocatedBytes (h.bytes key v hv)⟩

/-- A `kmalloc` of 64 bytes. -/
def kmalloc64 : Alloc := .kmalloc ⟨0, fun _ _ => none⟩ ⟨0x1000, 64⟩

/-- Two CPUs meet the key for the first time, and make their calls in turn. -/
def firstSightRace : List (Turn 2 Alloc) :=
  let cpu0 : Fin 2 := ⟨0, Nat.two_pos⟩
  let cpu1 : Fin 2 := ⟨1, Nat.one_lt_two⟩
  [.begin cpu0 kmalloc64, .begin cpu1 kmalloc64] ++
    (List.replicate 6 [.call cpu0, .call cpu1]).flatten

theorem first_sight_race_is_conserved :
    Balanced ((slabRate 2 ⟨true, 0, 0, 0⟩ true).run firstSightRace).1 ∧
      ((slabRate 2 ⟨true, 0, 0, 0⟩ true).run firstSightRace).1.counted .eventsSeen = 2 ∧
      ((slabRate 2 ⟨true, 0, 0, 0⟩ true).run firstSightRace).1.allocations = 2 :=
  ⟨allocation_events_are_conserved ⟨true, 0, 0, 0⟩ true firstSightRace (by decide +kernel)
    (by decide +kernel), by decide +kernel, by decide +kernel⟩

end EbpfToolbox.Mem.SlabRate
