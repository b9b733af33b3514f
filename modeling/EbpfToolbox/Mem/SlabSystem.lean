import EbpfToolbox.Mem.SlabWindows
import Mathlib.Algebra.Order.BigOperators.Group.Finset

/-!
# slab_rate from the allocation to the printed window

The handlers count on all CPUs while user space scans the map for its next window. A
scan takes a while: keys come and counts move under it, and the copies of one key are
read word by word. `system` puts both sides into one machine. A scan remembers what the
map held when it began; each word it reads is one that its cell held since then.

Nothing is lost between the two sides. What the windows of a key add up to lies between
what was counted when the last scan began and what is counted now, and when nothing was
allocated in between, every event that was seen is printed in some window or counted as
a failure.
-/

namespace EbpfToolbox.Mem.SlabRate

open Common Lib

variable {n : ℕ}

/-- The contents of `slab_entries`. -/
abbrev Entries (n : ℕ) : Type := BpfMap Key (PerCpu n Info)

/-! ## The two sides together -/

/-- A scan under way: what the map held when it began, and what was read so far. -/
structure Scan (n : ℕ) where
  base : Entries n
  read : List (Key × PerCpu n Total)

/-- What `collect_samples` sees when the iteration ends with `last`. -/
def Scan.iteration (scan : Scan n) (last : Errno) : Iteration n :=
  ⟨scan.read.map fun e => (e.1, .ok e.2), last⟩

/-- The handlers, the buffers with the windows printed so far, the scan under way, and
what the map held when the last scan that was printed began. -/
structure System (n : ℕ) where
  kernel : State n × (Fin n → Prog Unit)
  user : Buffers × List Window
  scan : Option (Scan n)
  scanned : Entries n

def System.entries (s : System n) : Entries n := s.kernel.1.slabEntries

inductive Event (n : ℕ) : Type where
  | handler (e : Turn n Alloc)
  | beginScan
  | lookup (key : Key) (values : PerCpu n Total)
  | endScan (last : Errno) (intervalNs : UInt64)

/-- The words read from one copy lie between two states of it. -/
def Between (lo hi : Info) (t : Total) : Prop :=
  lo.count ≤ t.count.toNat ∧ t.count.toNat ≤ hi.count ∧
    lo.allocatedBytes ≤ t.allocatedBytes ∧ t.allocatedBytes ≤ hi.allocatedBytes

/-- The copy of one CPU, zero while there is no entry. -/
def copyOf (m : Entries n) (key : Key) (cpu : Fin n) : Info := (m.get key).elim {} fun v => v cpu

def System.step (c : Ctrl) (accounted : Bool) (s : System n) : Event n → System n
  | .handler e => { s with kernel := (slabRate n c accounted).step s.kernel e }
  | .beginScan => { s with scan := some ⟨s.entries, []⟩ }
  | .lookup key values =>
      { s with scan := s.scan.map fun scan => { scan with read := scan.read ++ [(key, values)] } }
  | .endScan last intervalNs =>
      match s.scan with
      | none => s
      | some scan =>
          let user := (windows n).step s.user (scan.iteration last, intervalNs)
          { s with
            user := user
            scan := none
            scanned := if user.2.length = s.user.2.length then s.scanned else scan.base }

/-- `bpf_map_get_next_key` visits no key twice, and the lookup finds an entry, since
none is ever deleted. -/
def Scan.MayRead (scan : Scan n) (m : Entries n) (key : Key) (values : PerCpu n Total) : Prop :=
  key ∉ scan.read.map Prod.fst ∧ (m.get key).isSome = true ∧
    ∀ cpu, Between (copyOf scan.base key cpu) (copyOf m key cpu) (values cpu)

/-- Before it says `ENOENT`, every key was visited that was there at the beginning. -/
def Scan.MayEnd (scan : Scan n) (last : Errno) : Prop :=
  last = enoent → ∀ key ∈ scan.base.keys, key ∈ scan.read.map Prod.fst

def system (n : ℕ) (c : Ctrl) (accounted : Bool) : Machine (System n) (Event n) where
  init := ⟨(slabRate n c accounted).init, (windows n).init, none, ∅⟩
  step := System.step c accounted
  Allowed s e := match e with
    | .handler e => (slabRate n c accounted).Allowed s.kernel e
    | .beginScan => s.scan.isNone = true
    | .lookup key values => ∃ scan ∈ s.scan, scan.MayRead s.entries key values
    | .endScan last _ => ∃ scan ∈ s.scan, scan.MayEnd last

instance (lo hi : Info) (t : Total) : Decidable (Between lo hi t) :=
  inferInstanceAs (Decidable (_ ∧ _))

instance (scan : Scan n) (m : Entries n) (key : Key) (values : PerCpu n Total) :
    Decidable (scan.MayRead m key values) :=
  inferInstanceAs (Decidable (_ ∧ _))

instance (scan : Scan n) (last : Errno) : Decidable (scan.MayEnd last) :=
  inferInstanceAs (Decidable (_ → _))

instance (c : Ctrl) (accounted : Bool) (s : System n) (e : Event n) :
    Decidable ((system n c accounted).Allowed s e) :=
  match e with
  | .handler e => inferInstanceAs (Decidable ((slabRate n c accounted).Allowed s.kernel e))
  | .beginScan => inferInstanceAs (Decidable (s.scan.isNone = true))
  | .lookup key values =>
      inferInstanceAs (Decidable (∃ scan ∈ s.scan, scan.MayRead s.entries key values))
  | .endScan last _ => inferInstanceAs (Decidable (∃ scan ∈ s.scan, scan.MayEnd last))

/-! ## Counts only grow -/

/-- No entry is gone and no count went down. -/
def Below (m m' : Entries n) : Prop :=
  ∀ key v, m.get key = some v → ∃ v', m'.get key = some v' ∧ ∀ cpu, (v cpu).count ≤ (v' cpu).count

theorem Below.refl (m : Entries n) : Below m m := fun _ v hv => ⟨v, hv, fun _ => le_rfl⟩

theorem Below.trans {m m' m'' : Entries n} (h : Below m m') (h' : Below m' m'') : Below m m'' := by
  intro key v hv
  obtain ⟨v', hv', hle⟩ := h key v hv
  obtain ⟨v'', hv'', hle'⟩ := h' key v' hv'
  exact ⟨v'', hv'', fun cpu => (hle cpu).trans (hle' cpu)⟩

/-- One copy of one entry is rewritten. -/
theorem copy_modify {m : Entries n} {i cpu : Fin n} {key key' : Key} {f : Info → Info}
    {v v' : PerCpu n Info} (hv : m.get key' = some v)
    (hv' : (m.modify key fun v => v.modify i f).get key' = some v') :
    v' cpu = if key' = key ∧ cpu = i then f (v cpu) else v cpu := by
  rw [BpfMap.get_modify] at hv'
  by_cases hk : key' = key
  · subst hk
    rw [if_pos rfl, hv, Option.map_some, Option.some.injEq] at hv'
    rw [← hv']
    by_cases hcpu : cpu = i
    · subst hcpu
      rw [PerCpu.modify_self, if_pos ⟨rfl, rfl⟩]
    · rw [PerCpu.modify_of_ne _ _ hcpu, if_neg fun h => hcpu h.2]
  · rw [if_neg hk, hv, Option.some.injEq] at hv'
    rw [hv', if_neg fun h => hk h.1]

theorem below_modify (m : Entries n) (i : Fin n) (key : Key) {f : Info → Info}
    (hf : ∀ info, info.count ≤ (f info).count) :
    Below m (m.modify key fun v => v.modify i f) := by
  intro key' v hv
  have hsome : ((m.modify key fun v => v.modify i f).get key').isSome = true := by
    rw [BpfMap.get_modify]
    split_ifs with hk
    · simp [← hk, hv]
    · simp [hv]
  obtain ⟨v', hv'⟩ := Option.isSome_iff_exists.mp hsome
  refine ⟨v', hv', fun cpu => ?_⟩
  rw [copy_modify hv hv']
  split_ifs
  · exact hf _
  · exact le_rfl

theorem below_call (i : Fin n) (s : State n) (call : Call) :
    Below s.slabEntries (Call.run i s call).2.slabEntries := by
  cases call with
  | count x => exact Below.refl _
  | lookup key => exact Below.refl _
  | insert key =>
      rcases insertNoexist_eq s key with hsame | ⟨hnone, hnew⟩
      · simp only [Call.run, hsame]
        exact Below.refl _
      · simp only [Call.run, hnew]
        intro key' v hv
        have hne : key' ≠ key := by
          rintro rfl
          rw [hnone] at hv
          cases hv
        exact ⟨v, (BpfMap.get_update_of_ne _ _ hne).trans hv, fun _ => le_rfl⟩
  | addCount key => exact below_modify _ i key fun _ => Nat.le_succ _
  | addBytes key bytes => exact below_modify _ i key fun _ => le_rfl

theorem below_handler (c : Ctrl) (accounted : Bool) (s : State n × (Fin n → Prog Unit))
    (e : Turn n Alloc) :
    Below s.1.slabEntries ((slabRate n c accounted).step s e).1.slabEntries := by
  cases e with
  | begin i e => exact Below.refl _
  | call i =>
      simp only [slabRate, interleaved]
      cases s.2 i with
      | pure a => exact Below.refl _
      | call call k => exact below_call i s.1 call

/-! ## Totals that fit 64 bits -/

/-- The number of allocations of a key that are counted in the map. -/
def countIn (m : Entries n) (key : Key) : ℕ := (m.get key).elim 0 fun v => v.total Info.count

/-- No total of a key has wrapped. -/
def Fits (m : Entries n) : Prop :=
  ∀ key ∈ m.keys, countIn m key < 2 ^ 64 ∧ countIn m key * key.allocSize.toNat < 2 ^ 64

instance (m : Entries n) : Decidable (Fits m) := inferInstanceAs (Decidable (∀ _ ∈ _, _))

theorem Fits.get {m : Entries n} (h : Fits m) {key : Key} {v : PerCpu n Info}
    (hv : m.get key = some v) :
    v.total Info.count < 2 ^ 64 ∧ v.total Info.count * key.allocSize.toNat < 2 ^ 64 := by
  have hkey := h key ((BpfMap.mem_keys_iff m key).mpr (by rw [hv]; rfl))
  simpa only [countIn, hv, Option.elim_some] using hkey

theorem total_le_total {v v' : PerCpu n Info} (h : ∀ cpu, (v cpu).count ≤ (v' cpu).count) :
    v.total Info.count ≤ v'.total Info.count :=
  Finset.sum_le_sum fun cpu _ => h cpu

theorem Fits.below {m m' : Entries n} (h : Fits m') (hb : Below m m') : Fits m := by
  intro key hkey
  obtain ⟨v, hv⟩ := Option.isSome_iff_exists.mp ((BpfMap.mem_keys_iff m key).mp hkey)
  obtain ⟨v', hv', hle⟩ := hb key v hv
  obtain ⟨hcount, hbytes⟩ := h.get hv'
  have htotal := total_le_total hle
  simp only [countIn, hv, Option.elim_some]
  exact ⟨htotal.trans_lt hcount, (Nat.mul_le_mul_right _ htotal).trans_lt hbytes⟩

/-- The bytes of every copy fit its count, but for at most one allocation on the way. -/
def Booked (m : Entries n) : Prop :=
  ∀ key v, m.get key = some v → ∀ cpu, ∃ pending, (v cpu).Booked key pending

theorem Accounts.booked {s : State n} {gs : Fin n → Phase} (h : Accounts s gs) :
    Booked s.slabEntries :=
  fun key v hv cpu => ⟨_, h.bytes key v hv cpu⟩

/-- The bytes of an entry, as a number. -/
def bytesOf (v : PerCpu n Info) : ℕ := v.total fun info => info.allocatedBytes.toNat

theorem bytesOf_le {v v' : PerCpu n Info}
    (h : ∀ cpu, (v cpu).allocatedBytes ≤ (v' cpu).allocatedBytes) : bytesOf v ≤ bytesOf v' := by
  unfold bytesOf PerCpu.total
  exact Finset.sum_le_sum fun cpu _ => UInt64.le_iff_toNat_le.mp (h cpu)

theorem Info.Booked.toNat_le {info : Info} {key : Key} {pending : ℕ} (h : info.Booked key pending) :
    info.allocatedBytes.toNat ≤ info.count * key.allocSize.toNat := by
  rcases h with ⟨k, hk, hbytes⟩
  rw [hbytes, UInt64.toNat_mul, UInt64.toNat_ofNat']
  calc k % 2 ^ 64 * key.allocSize.toNat % 2 ^ 64
      ≤ k % 2 ^ 64 * key.allocSize.toNat := Nat.mod_le _ _
    _ ≤ info.count * key.allocSize.toNat :=
        Nat.mul_le_mul_right _ ((Nat.mod_le _ _).trans (by omega))

theorem bytesOf_lt {m : Entries n} (hb : Booked m) (hf : Fits m) {key : Key} {v : PerCpu n Info}
    (hv : m.get key = some v) : bytesOf v < 2 ^ 64 := by
  refine lt_of_le_of_lt ?_ (hf.get hv).2
  rw [bytesOf, PerCpu.total, PerCpu.total, Finset.sum_mul]
  refine Finset.sum_le_sum fun cpu _ => ?_
  obtain ⟨pending, hbooked⟩ := hb key v hv cpu
  exact hbooked.toNat_le

/-- A sum of words that does not wrap. -/
theorem toNat_sum {f : Fin n → UInt64} (h : ∑ i, (f i).toNat < 2 ^ 64) :
    (∑ i, f i).toNat = ∑ i, (f i).toNat := by
  have hcast : ∑ i, f i = UInt64.ofNat (∑ i, (f i).toNat) := by
    rw [ofNat_sum]
    exact Finset.sum_congr rfl fun i _ => UInt64.ofNat_toNat.symm
  rw [hcast, UInt64.toNat_ofNat_of_lt' h]

theorem mergeCpus_eq (values : PerCpu n Total) :
    (mergeCpus values).count = ∑ cpu, (values cpu).count ∧
      (mergeCpus values).allocatedBytes = ∑ cpu, (values cpu).allocatedBytes := by
  constructor
  · exact PerCpu.foldl_merge_eq_total (fun (t v : Total) => ⟨t.count + v.count,
      t.allocatedBytes + v.allocatedBytes⟩) {} Total.count rfl (fun _ _ => rfl) values
  · exact PerCpu.foldl_merge_eq_total (fun (t v : Total) => ⟨t.count + v.count,
      t.allocatedBytes + v.allocatedBytes⟩) {} Total.allocatedBytes rfl (fun _ _ => rfl) values

/-- The merged total of what was read lies between the merged bounds. -/
theorem merged_between {lo v : PerCpu n Info} {values : PerCpu n Total}
    (h : ∀ cpu, Between (lo cpu) (v cpu) (values cpu)) (hcount : v.total Info.count < 2 ^ 64)
    (hbytes : bytesOf v < 2 ^ 64) :
    lo.total Info.count ≤ (mergeCpus values).count.toNat ∧
      (mergeCpus values).count.toNat ≤ v.total Info.count ∧
      bytesOf lo ≤ (mergeCpus values).allocatedBytes.toNat ∧
      (mergeCpus values).allocatedBytes.toNat ≤ bytesOf v := by
  have hle : ∑ cpu, (values cpu).count.toNat ≤ v.total Info.count :=
    Finset.sum_le_sum fun cpu _ => (h cpu).2.1
  have hle' : ∑ cpu, (values cpu).allocatedBytes.toNat ≤ bytesOf v :=
    Finset.sum_le_sum fun cpu _ => UInt64.le_iff_toNat_le.mp (h cpu).2.2.2
  rw [(mergeCpus_eq values).1, (mergeCpus_eq values).2, toNat_sum (hle.trans_lt hcount),
    toNat_sum (hle'.trans_lt hbytes)]
  have hge : bytesOf lo ≤ ∑ cpu, (values cpu).allocatedBytes.toNat := by
    unfold bytesOf PerCpu.total
    exact Finset.sum_le_sum fun cpu _ => UInt64.le_iff_toNat_le.mp (h cpu).2.2.1
  exact ⟨Finset.sum_le_sum fun cpu _ => (h cpu).1, hle, hge, hle'⟩

/-! ## Bytes only grow -/

/-- No entry is gone, and neither its counts nor its bytes went down. -/
def Grown (m m' : Entries n) : Prop :=
  ∀ key v, m.get key = some v → ∃ v', m'.get key = some v' ∧
    ∀ cpu, (v cpu).count ≤ (v' cpu).count ∧ (v cpu).allocatedBytes ≤ (v' cpu).allocatedBytes

theorem Grown.refl (m : Entries n) : Grown m m :=
  fun _ v hv => ⟨v, hv, fun _ => ⟨le_rfl, UInt64.le_refl _⟩⟩

theorem Grown.trans {m m' m'' : Entries n} (h : Grown m m') (h' : Grown m' m'') : Grown m m'' := by
  intro key v hv
  obtain ⟨v', hv', hle⟩ := h key v hv
  obtain ⟨v'', hv'', hle'⟩ := h' key v' hv'
  exact ⟨v'', hv'', fun cpu => ⟨(hle cpu).1.trans (hle' cpu).1,
    UInt64.le_trans (hle cpu).2 (hle' cpu).2⟩⟩

theorem Grown.of_below {m m' : Entries n} (h : Below m m')
    (hbytes : ∀ key v v', m.get key = some v → m'.get key = some v' →
      ∀ cpu, (v cpu).allocatedBytes ≤ (v' cpu).allocatedBytes) : Grown m m' := by
  intro key v hv
  obtain ⟨v', hv', hle⟩ := h key v hv
  exact ⟨v', hv', fun cpu => ⟨hle cpu, hbytes key v v' hv hv' cpu⟩⟩

/-- The bytes that are still to come do not wrap. -/
theorem Info.Booked.le_addBytes {info : Info} {key : Key} (h : info.Booked key 1)
    (hfits : info.count * key.allocSize.toNat < 2 ^ 64) :
    info.allocatedBytes ≤ (info.addBytes key.allocSize).allocatedBytes := by
  have hle := h.toNat_le
  rcases h with ⟨k, hk, hbytes⟩
  have hbelow : info.allocatedBytes.toNat ≤ k * key.allocSize.toNat := by
    rw [hbytes, UInt64.toNat_mul, UInt64.toNat_ofNat']
    exact (Nat.mod_le _ _).trans (Nat.mul_le_mul_right _ (Nat.mod_le _ _))
  have hsum : info.allocatedBytes.toNat + key.allocSize.toNat < 2 ^ 64 := by
    rw [hk, Nat.add_mul, Nat.one_mul] at hfits
    omega
  rw [UInt64.le_iff_toNat_le, Info.addBytes, UInt64.toNat_add, Nat.mod_eq_of_lt hsum]
  exact Nat.le_add_right _ _

theorem count_le_total (v : PerCpu n Info) (cpu : Fin n) : (v cpu).count ≤ v.total Info.count :=
  Finset.single_le_sum (f := fun cpu => (v cpu).count) (fun _ _ => Nat.zero_le _)
    (Finset.mem_univ cpu)

/-- A call that the phase of its CPU permits. -/
theorem grown_call {s : State n} {gs : Fin n → Phase} (h : Accounts s gs) (hf : Fits s.slabEntries)
    (i : Fin n) {call : Call} (hpermits : protocol.Permits (gs i) call) :
    Grown s.slabEntries (Call.run i s call).2.slabEntries := by
  refine .of_below (below_call i s call) fun key v v' hv hv' cpu => ?_
  cases call with
  | count x =>
      obtain rfl := Option.some.inj (hv.symm.trans hv')
      exact UInt64.le_refl _
  | lookup key =>
      obtain rfl := Option.some.inj (hv.symm.trans hv')
      exact UInt64.le_refl _
  | insert key₀ =>
      rcases insertNoexist_eq s key₀ with hsame | ⟨hnone, hnew⟩
      · simp only [Call.run, hsame, hv, Option.some.injEq] at hv'
        rw [hv']
        exact UInt64.le_refl _
      · have hne : key ≠ key₀ := by
          rintro rfl
          rw [hnone] at hv
          cases hv
        simp only [Call.run, hnew, BpfMap.get_update_of_ne _ _ hne, hv, Option.some.injEq] at hv'
        rw [hv']
        exact UInt64.le_refl _
  | addCount key₀ =>
      rw [copy_modify hv hv']
      split_ifs <;> exact UInt64.le_refl _
  | addBytes key₀ bytes =>
      rw [copy_modify hv hv']
      split_ifs with hcopy
      · obtain ⟨rfl, rfl⟩ := hcopy
        have hbooked := h.bytes key v hv cpu
        cases hg : gs cpu with
        | counted key' =>
            rw [hg] at hpermits hbooked
            obtain ⟨rfl, rfl⟩ := hpermits
            rw [show (Phase.counted key).pending key = 1 from if_pos rfl] at hbooked
            refine hbooked.le_addBytes (lt_of_le_of_lt ?_ (hf.get hv).2)
            exact Nat.mul_le_mul_right _ (count_le_total v cpu)
        | _ =>
            rw [hg] at hpermits
            exact hpermits.elim
      · exact UInt64.le_refl _

theorem grown_handler {c : Ctrl} {accounted : Bool} {s : State n × (Fin n → Prog Unit)}
    (h : Phased protocol Accounts s) (hf : Fits s.1.slabEntries) (e : Turn n Alloc) :
    Grown s.1.slabEntries ((slabRate n c accounted).step s e).1.slabEntries := by
  obtain ⟨gs, haccounts, hfollows⟩ := h
  cases e with
  | begin i e => exact .refl _
  | call i =>
      have hi := hfollows i
      simp only [slabRate, interleaved]
      cases hp : s.2 i with
      | pure a => exact .refl _
      | call call k =>
          rw [hp] at hi
          exact grown_call haccounts hf i hi.1

/-! ## A scan against the map -/

/-- Every sample is one the map has caught up with. -/
def Covers (m : Entries n) (samples : List Sample) : Prop :=
  ∀ sample ∈ samples, ∃ v, m.get sample.key = some v ∧
    sample.total.count.toNat ≤ v.total Info.count ∧
    sample.total.allocatedBytes.toNat ≤ bytesOf v

theorem Covers.grown {m m' : Entries n} {samples : List Sample} (h : Covers m samples)
    (hg : Grown m m') : Covers m' samples := by
  intro sample hmem
  obtain ⟨v, hv, hcount, hbytes⟩ := h sample hmem
  obtain ⟨v', hv', hle⟩ := hg _ v hv
  exact ⟨v', hv', hcount.trans (total_le_total fun cpu => (hle cpu).1),
    hbytes.trans (bytesOf_le fun cpu => (hle cpu).2)⟩

/-- A scan under way over the map `m`, after the snapshot `old`. -/
structure Scanning (m : Entries n) (old : List Sample) (scan : Scan n) : Prop where
  base : Grown scan.base m
  old : Covers scan.base old
  nodup : (scan.read.map Prod.fst).Nodup
  read : ∀ e ∈ scan.read, ∃ v, m.get e.1 = some v ∧
    ∀ cpu, Between (copyOf scan.base e.1 cpu) (v cpu) (e.2 cpu)

/-- The map grows under the scan. -/
theorem Scanning.grown {m m' : Entries n} {old : List Sample} {scan : Scan n}
    (h : Scanning m old scan) (hg : Grown m m') : Scanning m' old scan := by
  refine ⟨h.base.trans hg, h.old, h.nodup, fun e he => ?_⟩
  obtain ⟨v, hv, hread⟩ := h.read e he
  obtain ⟨v', hv', hle⟩ := hg _ v hv
  refine ⟨v', hv', fun cpu => ?_⟩
  obtain ⟨hcount, hcount', hbytes, hbytes'⟩ := hread cpu
  exact ⟨hcount, hcount'.trans (hle cpu).1, hbytes, UInt64.le_trans hbytes' (hle cpu).2⟩

theorem total_copyOf (m : Entries n) (key : Key) :
    PerCpu.total Info.count (copyOf m key) = countIn m key := by
  unfold countIn
  cases hv : m.get key with
  | none => simp [PerCpu.total, copyOf, hv]
  | some v => simp [PerCpu.total, copyOf, hv]

theorem Scanning.lookup {m : Entries n} {old : List Sample} {scan : Scan n} {key : Key}
    {values : PerCpu n Total} (h : Scanning m old scan) (hmay : scan.MayRead m key values) :
    Scanning m old { scan with read := scan.read ++ [(key, values)] } := by
  obtain ⟨hnew, hkey, hread⟩ := hmay
  refine ⟨h.base, h.old, ?_, ?_⟩
  · rw [List.map_append, List.map_singleton]
    exact List.nodup_append'.mpr ⟨h.nodup, List.nodup_singleton _, by simpa using hnew⟩
  · rw [List.forall_mem_append, List.forall_mem_singleton]
    refine ⟨h.read, ?_⟩
    obtain ⟨v, hv⟩ := Option.isSome_iff_exists.mp hkey
    have hcopy : ∀ cpu, copyOf m key cpu = v cpu := fun cpu => by simp [copyOf, hv]
    exact ⟨v, hv, fun cpu => hcopy cpu ▸ hread cpu⟩

/-! ## The end of a scan -/

theorem snapshot_iteration (scan : Scan n) (last : Errno) :
    (scan.iteration last).snapshot = scan.read.map fun e => ⟨e.1, mergeCpus e.2⟩ := by
  simp only [Iteration.snapshot, Scan.iteration, snapshotOf]
  rw [List.filterMap_map, ← List.filterMap_eq_map]
  rfl

theorem totalIn_of_mem {samples : List Sample} (h : (samples.map Sample.key).Nodup)
    {sample : Sample} (hmem : sample ∈ samples) : totalIn samples sample.key = sample.total := by
  have hfilter := filter_key_eq_find h sample.key
  have hin : sample ∈ samples.filter fun s => s.key = sample.key := by simp [hmem]
  rw [hfilter, Option.mem_toList] at hin
  simp [totalIn, Option.mem_def.mp hin]

/-- The snapshot of a scan that saw every key it began with: it follows the snapshot
before it, the map covers it, and it covers what the scan began with. -/
theorem Scanning.finish {m : Entries n} {old : List Sample} {scan : Scan n}
    (h : Scanning m old scan) (hb : Booked m) (hf : Fits m)
    (hall : ∀ key ∈ scan.base.keys, key ∈ scan.read.map Prod.fst)
    {new : List Sample} (hnew : new = scan.read.map fun e => ⟨e.1, mergeCpus e.2⟩) :
    Grows old new ∧ Covers m new ∧ ∀ key, countIn scan.base key ≤ (totalIn new key).count.toNat := by
  have hkeys : new.map Sample.key = scan.read.map Prod.fst := by
    rw [hnew, List.map_map]
    rfl
  have hnodup : (new.map Sample.key).Nodup := hkeys ▸ h.nodup
  -- what the merged total of a key that was read is bounded by
  have hmerged : ∀ key, (scan.base.get key).isSome = true →
      key ∈ new.map Sample.key ∧ countIn scan.base key ≤ (totalIn new key).count.toNat ∧
        bytesOf (copyOf scan.base key) ≤ (totalIn new key).allocatedBytes.toNat := by
    intro key hkey
    obtain ⟨e, he, rfl⟩ := List.mem_map.mp (hall key ((BpfMap.mem_keys_iff _ key).mpr hkey))
    obtain ⟨v, hv, hread⟩ := h.read e he
    obtain ⟨hcount, -, hbytes, -⟩ := merged_between hread (hf.get hv).1 (bytesOf_lt hb hf hv)
    have hmem : (⟨e.1, mergeCpus e.2⟩ : Sample) ∈ new := by
      rw [hnew]
      exact List.mem_map_of_mem he
    have htotal : totalIn new e.1 = mergeCpus e.2 := totalIn_of_mem hnodup hmem
    rw [total_copyOf] at hcount
    rw [htotal]
    exact ⟨List.mem_map_of_mem hmem, hcount, hbytes⟩
  refine ⟨⟨hnodup, ?_⟩, ?_, ?_⟩
  · intro sample hsample
    obtain ⟨v, hv, hcount, hbytes⟩ := h.old sample hsample
    obtain ⟨hmem, hge, hge'⟩ := hmerged sample.key (by simp [hv])
    have hcountIn : countIn scan.base sample.key = v.total Info.count := by simp [countIn, hv]
    have hcopy : copyOf scan.base sample.key = v := funext fun cpu => by simp [copyOf, hv]
    rw [hcountIn] at hge
    rw [hcopy] at hge'
    exact ⟨hmem, UInt64.le_iff_toNat_le.mpr (hcount.trans hge),
      UInt64.le_iff_toNat_le.mpr (hbytes.trans hge')⟩
  · intro sample hsample
    rw [hnew] at hsample
    obtain ⟨e, he, rfl⟩ := List.mem_map.mp hsample
    obtain ⟨v, hv, hread⟩ := h.read e he
    obtain ⟨-, hcount, -, hbytes⟩ := merged_between hread (hf.get hv).1 (bytesOf_lt hb hf hv)
    exact ⟨v, hv, hcount, hbytes⟩
  · intro key
    cases hkey : scan.base.get key with
    | none => simp [countIn, hkey]
    | some v => exact (hmerged key (by simp [hkey])).2.1

/-- A scan that counts as complete ended with `ENOENT`. -/
theorem last_of_rows {b : Buffers} {it : Iteration n} {intervalNs : UInt64}
    (h : (printInterval b it intervalNs).rows.isSome = true) : it.last = enoent := by
  have hloop : ∀ (entries : List (Key × Except Errno (PerCpu n Total)))
      (samples : Vector Sample slabRateMaxEntries) (count m : ℕ)
      (samples' : Vector Sample slabRateMaxEntries),
      collectLoop it.last entries samples count = (.ok m, samples') → it.last = enoent := by
    intro entries
    induction entries with
    | nil =>
        intro samples count m samples' hok
        by_contra hlast
        simp [collectLoop, hlast] at hok
    | cons e rest ih =>
        intro samples count m samples' hok
        rcases e with ⟨key, errno | values⟩
        · simp only [collectLoop] at hok
          split_ifs at hok
          · cases hok
          · exact ih _ _ _ _ hok
        · simp only [collectLoop] at hok
          split_ifs at hok
          · cases hok
          · exact ih _ _ _ _ hok
  unfold printInterval at h
  split_ifs at h
  · cases h
  rcases hcollect : collectSamples it b.current with ⟨err | count, current⟩
  · simp [hcollect] at h
  · exact hloop _ _ _ _ _ hcollect

/-! ## The invariant -/

/-- The windows telescope, and the snapshot they add up to lies between what the map
held when its scan began and what it holds now. -/
structure Watched (s : System n) : Prop where
  summed : Summed s.user
  covers : Covers s.entries s.user.1.snapshot
  scanned : ∀ key, countIn s.scanned key ≤ (totalIn s.user.1.snapshot key).count.toNat
  scan : ∀ scan, s.scan = some scan → Scanning s.entries s.user.1.snapshot scan

/-- A window that is printed, one that fails, and one of no length. -/
theorem windows_step_cases (u : Buffers × List Window) (it : Iteration n) (intervalNs : UInt64) :
    ((windows n).step u (it, intervalNs)).1.snapshot = u.1.snapshot ∧
        ((windows n).step u (it, intervalNs)).2 = u.2 ∧
        (printInterval u.1 it intervalNs).rows.isSome = false ∨
      ((windows n).step u (it, intervalNs)).1.snapshot = it.snapshot ∧
        ((windows n).step u (it, intervalNs)).2.length = u.2.length + 1 ∧ it.last = enoent := by
  rcases printInterval_cases u.1 it intervalNs with hskip | ⟨err, current, -, herr⟩ | ⟨b', hb', hok⟩
  · refine Or.inl ⟨?_, ?_, by rw [hskip]; rfl⟩
    · simp only [windows, hskip]
    · simp only [windows, hskip]
  · refine Or.inl ⟨?_, ?_, by rw [herr]; rfl⟩
    · simp only [windows, herr]
      rfl
    · simp only [windows, herr]
  · refine Or.inr ⟨?_, ?_, last_of_rows (by rw [hok]; rfl)⟩
    · simp only [windows, hok, hb']
    · simp only [windows, hok, List.length_append, List.length_singleton]

theorem Watched.endScan {c : Ctrl} {accounted : Bool} {s : System n} {scan : Scan n}
    (h : Watched s) (hb : Booked s.entries) (hf : Fits s.entries) (hscan : s.scan = some scan)
    (last : Errno) (intervalNs : UInt64) (hmay : scan.MayEnd last) :
    Watched (s.step c accounted (.endScan last intervalNs)) := by
  have hfinish := fun hlast : last = enoent =>
    (h.scan scan hscan).finish hb hf (hmay hlast) (snapshot_iteration scan last)
  have hsummed : Summed ((windows n).step s.user (scan.iteration last, intervalNs)) :=
    h.summed.step fun hrows => (hfinish (last_of_rows hrows)).1
  simp only [System.step, hscan]
  rcases windows_step_cases s.user (scan.iteration last) intervalNs with
    ⟨hsame, hwindows, -⟩ | ⟨hnew, hlen, hlast⟩
  · refine ⟨hsummed, ?_, fun key => ?_, fun _ hno => by cases hno⟩
    · show Covers s.entries _
      rw [hsame]
      exact h.covers
    · rw [hsame, hwindows, if_pos rfl]
      exact h.scanned key
  · obtain ⟨-, hcovers, hbase⟩ := hfinish hlast
    refine ⟨hsummed, ?_, fun key => ?_, fun _ hno => by cases hno⟩
    · show Covers s.entries _
      rw [hnew]
      exact hcovers
    · rw [hnew, hlen, if_neg (Nat.succ_ne_self _)]
      exact hbase key

theorem Watched.step {c : Ctrl} {accounted : Bool} {s : System n} {e : Event n} (h : Watched s)
    (hb : Booked s.entries) (hf : Fits s.entries)
    (hg : Grown s.entries (s.step c accounted e).entries)
    (ha : (system n c accounted).Allowed s e) :
    Watched (s.step c accounted e) := by
  cases e with
  | handler e =>
      exact ⟨h.summed, h.covers.grown hg, h.scanned, fun scan hscan => (h.scan scan hscan).grown hg⟩
  | beginScan =>
      refine ⟨h.summed, h.covers, h.scanned, fun scan hscan => ?_⟩
      obtain rfl := Option.some.inj hscan
      exact ⟨Grown.refl _, h.covers, List.nodup_nil, fun e he => absurd he List.not_mem_nil⟩
  | lookup key values =>
      obtain ⟨scan, hscan, hmay⟩ := ha
      replace hscan : s.scan = some scan := hscan
      refine ⟨h.summed, h.covers, h.scanned, fun scan' hscan' => ?_⟩
      simp only [System.step, hscan, Option.map_some] at hscan'
      obtain rfl := Option.some.inj hscan'
      exact (h.scan scan hscan).lookup hmay
  | endScan last intervalNs =>
      obtain ⟨scan, hscan, hmay⟩ := ha
      exact h.endScan hb hf hscan last intervalNs hmay

/-! ## Runs -/

def Event.turn : Event n → Option (Turn n Alloc)
  | .handler e => some e
  | _ => none

/-- The handlers do not notice that they are watched. -/
theorem kernel_run {c : Ctrl} {accounted : Bool} {es : List (Event n)}
    (hv : (system n c accounted).Valid es) :
    ((system n c accounted).run es).kernel =
        (slabRate n c accounted).run (es.filterMap Event.turn) ∧
      (slabRate n c accounted).Valid (es.filterMap Event.turn) := by
  induction es using List.reverseRecOn with
  | nil => exact ⟨rfl, trivial⟩
  | append_singleton es e ih =>
      rw [Machine.valid_snoc] at hv
      obtain ⟨hkernel, hvalid⟩ := ih hv.1
      rw [Machine.run_snoc, List.filterMap_append]
      cases e with
      | handler e =>
          have hturn : [Event.handler e].filterMap Event.turn = [e] := rfl
          rw [hturn, Machine.run_snoc, Machine.valid_snoc, ← hkernel]
          exact ⟨rfl, hvalid, hv.2⟩
      | beginScan =>
          rw [show [Event.beginScan].filterMap Event.turn = ([] : List (Turn n Alloc)) from rfl,
            List.append_nil]
          exact ⟨hkernel, hvalid⟩
      | lookup key values =>
          rw [show [Event.lookup key values].filterMap Event.turn = [] from rfl, List.append_nil]
          exact ⟨hkernel, hvalid⟩
      | endScan last intervalNs =>
          rw [show [Event.endScan last intervalNs].filterMap Event.turn =
            ([] : List (Turn n Alloc)) from rfl, List.append_nil]
          refine ⟨?_, hvalid⟩
          rw [← hkernel]
          simp only [system, System.step]
          split <;> rfl

theorem below_step (c : Ctrl) (accounted : Bool) (s : System n) (e : Event n) :
    Below s.entries (s.step c accounted e).entries := by
  cases e with
  | handler e => exact below_handler c accounted s.kernel e
  | beginScan => exact Below.refl _
  | lookup key values => exact Below.refl _
  | endScan last intervalNs =>
      simp only [System.step]
      cases s.scan with
      | none => exact Below.refl _
      | some scan => exact Below.refl _

theorem grown_step {c : Ctrl} {accounted : Bool} {s : System n}
    (h : Phased protocol Accounts s.kernel) (hf : Fits s.entries) (e : Event n) :
    Grown s.entries (s.step c accounted e).entries := by
  cases e with
  | handler e => exact grown_handler h hf e
  | beginScan => exact .refl _
  | lookup key values => exact .refl _
  | endScan last intervalNs =>
      simp only [System.step]
      cases s.scan with
      | none => exact .refl _
      | some scan => exact .refl _

theorem phased_run {c : Ctrl} {accounted : Bool} {es : List (Event n)}
    (hv : (system n c accounted).Valid es) :
    Phased protocol Accounts ((system n c accounted).run es).kernel := by
  obtain ⟨hkernel, hvalid⟩ := kernel_run hv
  rw [hkernel]
  exact accounts_run c accounted hvalid

theorem watched_run {c : Ctrl} {accounted : Bool} {es : List (Event n)}
    (hv : (system n c accounted).Valid es) (hf : Fits ((system n c accounted).run es).entries) :
    Watched ((system n c accounted).run es) := by
  induction es using List.reverseRecOn with
  | nil =>
      refine ⟨⟨nofun, nofun, fun _ => rfl, fun _ => rfl⟩, ?_, fun key => ?_, fun _ hno => by cases hno⟩
      · intro sample hs
        simp [Machine.run, system, windows, Buffers.start, Buffers.snapshot] at hs
      · simp [Machine.run, system, countIn]
  | append_singleton es e ih =>
      rw [Machine.valid_snoc] at hv
      rw [Machine.run_snoc] at hf ⊢
      have hbefore : Fits ((system n c accounted).run es).entries :=
        hf.below (below_step c accounted _ e)
      have hphased := phased_run hv.1
      obtain ⟨gs, haccounts, -⟩ := id hphased
      exact (ih hv.1 hbefore).step haccounts.booked hbefore (grown_step hphased hbefore e) hv.2

theorem Watched.sum_le {s : System n} (h : Watched s) (key : Key) :
    sumOf Row.countDelta s.user.2 key ≤ countIn s.entries key := by
  rw [h.summed.counts key, totalIn]
  cases hfind : s.user.1.snapshot.find? fun sample => sample.key = key with
  | none => exact Nat.zero_le _
  | some sample =>
      obtain rfl : sample.key = key := by simpa using List.find?_some hfind
      obtain ⟨v, hv, hcount, -⟩ := h.covers sample (List.mem_of_find?_eq_some hfind)
      simpa [countIn, hv] using hcount

/-- Two CPUs meet a new key; a scan runs between the two stores of the second one, and
another one when both are done. -/
def scannedRace : List (Event 2) :=
  let copies : UInt64 → PerCpu 2 Total := fun bytes =>
    fun cpu => if cpu.val = 0 then ⟨1, 64⟩ else ⟨1, bytes⟩
  let cpu1 : Fin 2 := ⟨1, Nat.one_lt_two⟩
  (firstSightRace.dropLast.map .handler) ++
    [.beginScan, .lookup (kmallocKey 64) (copies 0), .endScan enoent 1000,
      .handler (.call cpu1), .beginScan, .lookup (kmallocKey 64) (copies 64),
      .endScan enoent 1000]

end EbpfToolbox.Mem.SlabRate
