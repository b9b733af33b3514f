import EbpfToolbox.Lib.Buffer
import EbpfToolbox.Mem.SlabRate
import Mathlib.Data.PNat.Basic

/-!
# The windows of mem/slab_rate

The user space side, `mem/slab_rate/user.c`. The kernel keeps running totals; each
window collects a snapshot of them, subtracts the previous snapshot and prints a row for
every key whose count grew. The deltas of one key must add up to its total again.

For counts they do. For bytes they do as long as the bytes of a key move only in windows
in which its count moves: a row with a count delta of zero is dropped with its bytes, and
the snapshot that follows forgets them. `account_alloc` adds to the count first and to
the bytes second, so a snapshot can come between the two.

Rates, sorting and printing are left out; `rows` are the rows that are handed to `qsort`.
-/

namespace EbpfToolbox.Mem.SlabRate

open Lib

/-! ## Collecting a snapshot -/

/-- `struct SlabRate_info` as user space reads it. -/
structure Total where
  count : UInt64 := 0
  allocatedBytes : UInt64 := 0
deriving DecidableEq

/-- `struct slab_sample`. -/
structure Sample where
  key : Key
  total : Total
deriving DecidableEq

/-- `struct slab_row`, without its rates. -/
structure Row where
  key : Key
  countDelta : UInt64
  bytesDelta : UInt64
deriving DecidableEq

/-- The `errno` of a call that failed. -/
abbrev Errno : Type := ℕ+

def enoent : Errno := ⟨2, Nat.succ_pos 1⟩

def e2big : Errno := ⟨7, Nat.succ_pos 6⟩

/-- What the system calls of one iteration over `slab_entries` answer: the keys in order,
each with its values on all CPUs or the `errno` of the lookup, and the `errno` with which
`bpf_map_get_next_key` ends it. -/
structure Iteration (n : ℕ) where
  entries : List (Key × Except Errno (PerCpu n Total))
  last : Errno

variable {n : ℕ}

def mergeCpus (values : PerCpu n Total) : Total :=
  (List.finRange n).foldl
    (fun t cpu => ⟨t.count + (values cpu).count, t.allocatedBytes + (values cpu).allocatedBytes⟩) {}

/-- The loop of `collect_samples`. The samples are written whatever it returns. -/
def collectLoop (last : Errno) : List (Key × Except Errno (PerCpu n Total)) →
    Vector Sample slabRateMaxEntries → ℕ → Except ℤ ℕ × Vector Sample slabRateMaxEntries
  | [], samples, count => (if last ≠ enoent then .error (-(last : ℕ)) else .ok count, samples)
  | (key, .ok values) :: rest, samples, count =>
      let total := mergeCpus values
      if slabRateMaxEntries ≤ count then (.error (-(e2big : ℕ)), samples)
      else collectLoop last rest (Buffer.store samples count ⟨key, total⟩) (count + 1)
  | (_, .error errno) :: rest, samples, count =>
      if errno ≠ enoent then (.error (-(errno : ℕ)), samples)
      else collectLoop last rest samples count

def collectSamples (it : Iteration n) (samples : Vector Sample slabRateMaxEntries) :
    Except ℤ ℕ × Vector Sample slabRateMaxEntries :=
  collectLoop it.last it.entries samples 0

/-! ## A window -/

def findPrevious (previous : Vector Sample slabRateMaxEntries) (previousCount : ℕ) (key : Key) :
    Option Total :=
  ((Buffer.used previous previousCount).find? fun sample => sample.key = key).map Sample.total

structure Buffers where
  previous : Vector Sample slabRateMaxEntries
  previousCount : ℕ
  current : Vector Sample slabRateMaxEntries
  rows : Vector Row slabRateMaxEntries

/-- `calloc`. -/
def Buffers.start : Buffers :=
  let key : Key := ⟨0, .namedCache, Vector.replicate _ 0⟩
  ⟨Vector.replicate _ ⟨key, {}⟩, 0, Vector.replicate _ ⟨key, {}⟩, Vector.replicate _ ⟨key, 0, 0⟩⟩

/-- One turn of the loop that fills `rows`. -/
def rowStep (b : Buffers) (acc : Vector Row slabRateMaxEntries × ℕ) (sample : Sample) :
    Vector Row slabRateMaxEntries × ℕ :=
  let old := (findPrevious b.previous b.previousCount sample.key).getD {}
  if sample.total.count < old.count ∨ sample.total.allocatedBytes < old.allocatedBytes then acc
  else
    let row : Row := ⟨sample.key, sample.total.count - old.count,
      sample.total.allocatedBytes - old.allocatedBytes⟩
    -- the row is written before it is known whether it stays
    let rows := Buffer.store acc.1 acc.2 row
    if row.countDelta = 0 then (rows, acc.2) else (rows, acc.2 + 1)

/-- What `print_interval` returns, the rows it has built if it came so far, and the arrays. -/
structure Printed where
  ret : ℤ
  rows : Option (List Row)
  buffers : Buffers

def printInterval (b : Buffers) (it : Iteration n) (intervalNs : UInt64) : Printed :=
  if intervalNs = 0 then ⟨0, none, b⟩
  else
    match collectSamples it b.current with
    | (.error err, current) => ⟨err, none, { b with current := current }⟩
    | (.ok currentCount, current) =>
        let built := (Buffer.used current currentCount).foldl (rowStep b) (b.rows, 0)
        ⟨0, some (Buffer.used built.1 built.2),
          { previous := Buffer.copyFrom b.previous current currentCount
            previousCount := currentCount
            current := current
            rows := built.1 }⟩

/-! ## Snapshots -/

/-- The samples of an iteration, in its order. -/
def snapshotOf (entries : List (Key × Except Errno (PerCpu n Total))) : List Sample :=
  entries.filterMap fun e => e.2.toOption.map fun values => ⟨e.1, mergeCpus values⟩

def Iteration.snapshot (it : Iteration n) : List Sample := snapshotOf it.entries

def Buffers.snapshot (b : Buffers) : List Sample := Buffer.used b.previous b.previousCount

/-- The total of a key, zero when the snapshot does not have it. -/
def totalIn (snapshot : List Sample) (key : Key) : Total :=
  ((snapshot.find? fun sample => sample.key = key).map Sample.total).getD {}

theorem collectLoop_ok {last : Errno} {entries : List (Key × Except Errno (PerCpu n Total))}
    {samples samples' : Vector Sample slabRateMaxEntries} {count m : ℕ}
    (hcount : count ≤ slabRateMaxEntries)
    (h : collectLoop last entries samples count = (.ok m, samples')) :
    Buffer.used samples' m = Buffer.used samples count ++ snapshotOf entries ∧
      m = count + (snapshotOf entries).length ∧ m ≤ slabRateMaxEntries := by
  induction entries generalizing samples count with
  | nil =>
      simp only [collectLoop] at h
      split_ifs at h
      · cases h
      · obtain ⟨hm, rfl⟩ := Prod.mk.inj h
        obtain rfl := Except.ok.inj hm
        simpa [snapshotOf] using hcount
  | cons e rest ih =>
      rcases e with ⟨key, errno | values⟩
      · simp only [collectLoop] at h
        split_ifs at h
        · cases h
        · exact ih hcount h
      · simp only [collectLoop] at h
        split_ifs at h with hfull
        · cases h
        have hlt : count < slabRateMaxEntries := Nat.lt_of_not_le hfull
        obtain ⟨hused, hm, hle⟩ := ih hlt h
        rw [Buffer.used_succ_store _ _ hlt, List.append_assoc] at hused
        refine ⟨hused, ?_, hle⟩
        simp only [snapshotOf, List.filterMap_cons, Except.toOption, Option.map_some,
          List.length_cons] at hm ⊢
        omega

theorem collectLoop_error {last : Errno} {entries : List (Key × Except Errno (PerCpu n Total))}
    {samples samples' : Vector Sample slabRateMaxEntries} {count : ℕ} {err : ℤ}
    (h : collectLoop last entries samples count = (.error err, samples')) : err ≠ 0 := by
  induction entries generalizing samples count with
  | nil =>
      simp only [collectLoop] at h
      split_ifs at h
      · obtain rfl := Except.error.inj (Prod.mk.inj h).1
        simp
      · cases h
  | cons e rest ih =>
      rcases e with ⟨key, errno | values⟩
      · simp only [collectLoop] at h
        split_ifs at h
        · obtain rfl := Except.error.inj (Prod.mk.inj h).1
          simp
        · exact ih h
      · simp only [collectLoop] at h
        split_ifs at h
        · obtain rfl := Except.error.inj (Prod.mk.inj h).1
          simp
        · exact ih h

/-- The row for a sample, if it gets one. -/
def rowOf (old : List Sample) (sample : Sample) : Option Row :=
  let total := totalIn old sample.key
  if sample.total.count < total.count ∨ sample.total.allocatedBytes < total.allocatedBytes ∨
      sample.total.count - total.count = 0 then none
  else some ⟨sample.key, sample.total.count - total.count,
    sample.total.allocatedBytes - total.allocatedBytes⟩

theorem rowStep_used (b : Buffers) {acc : Vector Row slabRateMaxEntries × ℕ} (sample : Sample)
    (hroom : acc.2 < slabRateMaxEntries) :
    Buffer.used (rowStep b acc sample).1 (rowStep b acc sample).2 =
        Buffer.used acc.1 acc.2 ++ (rowOf b.snapshot sample).toList ∧
      (rowStep b acc sample).2 ≤ acc.2 + 1 := by
  have hold : (findPrevious b.previous b.previousCount sample.key).getD {} =
      totalIn b.snapshot sample.key := rfl
  simp only [rowStep, rowOf, hold]
  by_cases hdown : sample.total.count < (totalIn b.snapshot sample.key).count ∨
      sample.total.allocatedBytes < (totalIn b.snapshot sample.key).allocatedBytes
  · rw [if_pos hdown, if_pos (or_assoc.mp (.inl hdown))]
    simp
  rw [if_neg hdown]
  by_cases hzero : sample.total.count - (totalIn b.snapshot sample.key).count = 0
  · rw [if_pos hzero, if_pos (.inr (.inr hzero))]
    simp [Buffer.used_store]
  · rw [if_neg hzero, if_neg (by tauto)]
    simp [Buffer.used_succ_store _ _ hroom]

theorem buildRows_used {b : Buffers} {samples : List Sample}
    {acc : Vector Row slabRateMaxEntries × ℕ}
    (hroom : acc.2 + samples.length ≤ slabRateMaxEntries) :
    Buffer.used (samples.foldl (rowStep b) acc).1 (samples.foldl (rowStep b) acc).2 =
      Buffer.used acc.1 acc.2 ++ samples.filterMap (rowOf b.snapshot) := by
  induction samples generalizing acc with
  | nil => simp
  | cons sample rest ih =>
      rw [List.length_cons] at hroom
      obtain ⟨hused, hcount⟩ := rowStep_used b sample
        (show acc.2 < slabRateMaxEntries by omega)
      rw [List.foldl_cons, ih (by omega), hused, List.append_assoc]
      congr 1
      rw [List.filterMap_cons]
      cases rowOf b.snapshot sample with
      | none => rfl
      | some row => rfl

/-- The three ways a call ends. -/
theorem printInterval_cases (b : Buffers) (it : Iteration n) (intervalNs : UInt64) :
    (printInterval b it intervalNs = ⟨0, none, b⟩) ∨
    (∃ err current, err ≠ 0 ∧
      printInterval b it intervalNs = ⟨err, none, { b with current := current }⟩) ∨
    ∃ b', b'.snapshot = it.snapshot ∧
      printInterval b it intervalNs = ⟨0, some (it.snapshot.filterMap (rowOf b.snapshot)), b'⟩ := by
  unfold printInterval
  by_cases hns : intervalNs = 0
  · exact .inl (by rw [if_pos hns])
  rw [if_neg hns]
  refine .inr ?_
  rcases hcollect : collectSamples it b.current with ⟨err | count, current⟩
  · exact .inl ⟨err, current, collectLoop_error hcollect, rfl⟩
  · obtain ⟨hused, hcount, hle⟩ := collectLoop_ok (Nat.zero_le _) hcollect
    rw [Buffer.used_zero, List.nil_append] at hused
    have hrows : Buffer.used ((Buffer.used current count).foldl (rowStep b) (b.rows, 0)).1
        ((Buffer.used current count).foldl (rowStep b) (b.rows, 0)).2 =
          it.snapshot.filterMap (rowOf b.snapshot) := by
      have hroom : (b.rows, 0).2 + (Buffer.used current count).length ≤ slabRateMaxEntries := by
        rw [hused]
        exact (Nat.le_of_eq hcount.symm).trans hle
      rw [buildRows_used hroom, hused, Buffer.used_zero, List.nil_append]
      rfl
    refine .inr ⟨⟨Buffer.copyFrom b.previous current count, count, current,
      ((Buffer.used current count).foldl (rowStep b) (b.rows, 0)).1⟩, ?_, ?_⟩
    · exact (Buffer.used_copyFrom b.previous current count).trans hused
    · simp only [hrows]

/-! ## One window -/

/-- A later snapshot: every key once, no key is gone and no total went down. -/
def Grows (old new : List Sample) : Prop :=
  (new.map Sample.key).Nodup ∧ ∀ sample ∈ old, sample.key ∈ new.map Sample.key ∧
    sample.total.count ≤ (totalIn new sample.key).count ∧
    sample.total.allocatedBytes ≤ (totalIn new sample.key).allocatedBytes

instance (old new : List Sample) : Decidable (Grows old new) :=
  inferInstanceAs (Decidable (_ ∧ _))

theorem Grows.total_le {old new : List Sample} (h : Grows old new) (key : Key) :
    (totalIn old key).count ≤ (totalIn new key).count ∧
      (totalIn old key).allocatedBytes ≤ (totalIn new key).allocatedBytes := by
  rw [totalIn]
  cases hfind : old.find? fun sample => sample.key = key with
  | none => exact ⟨UInt64.zero_le, UInt64.zero_le⟩
  | some sample =>
      obtain rfl : sample.key = key := by simpa using List.find?_some hfind
      exact (h.2 sample (List.mem_of_find?_eq_some hfind)).2

/-- With every key once, the rows of a key come from the sample that a lookup finds. -/
theorem filter_key_eq_find {samples : List Sample} (h : (samples.map Sample.key).Nodup)
    (key : Key) :
    samples.filter (fun sample => sample.key = key) =
      (samples.find? fun sample => sample.key = key).toList := by
  induction samples with
  | nil => rfl
  | cons sample rest ih =>
      rw [List.map_cons, List.nodup_cons] at h
      by_cases hkey : sample.key = key
      · have hrest : rest.filter (fun sample => sample.key = key) = [] := by
          rw [List.filter_eq_nil_iff]
          intro other hother
          have hne : other.key ≠ sample.key := fun heq =>
            h.1 (heq ▸ List.mem_map_of_mem hother)
          simpa [hkey] using hne
        simp [hkey, hrest]
      · simp [hkey, ih h.2]

theorem rowOf_key {old : List Sample} {sample : Sample} {row : Row}
    (h : rowOf old sample = some row) : row.key = sample.key := by
  simp only [rowOf] at h
  split_ifs at h
  obtain rfl := Option.some.inj h
  rfl

/-- The rows of a key, in one window. -/
theorem rows_of_key {old new : List Sample} (h : (new.map Sample.key).Nodup) (key : Key) :
    (new.filterMap (rowOf old)).filter (fun row => row.key = key) =
      (new.find? fun sample => sample.key = key).toList.filterMap (rowOf old) := by
  rw [← filter_key_eq_find h, List.filter_filterMap, List.filterMap_filter]
  apply List.filterMap_congr
  intro sample _
  cases hrow : rowOf old sample with
  | none => simp
  | some row => simp [Option.filter, rowOf_key hrow]

/-- The sum of one delta over the rows of a key. -/
def deltaOf (f : Row → UInt64) (rows : List Row) (key : Key) : ℕ :=
  ((rows.filter fun row => row.key = key).map fun row => (f row).toNat).sum

/-- The bytes that a window drops, because no count came with them. -/
def lostBytes (old new : List Sample) (key : Key) : ℕ :=
  if (totalIn old key).count = (totalIn new key).count then
    (totalIn new key).allocatedBytes.toNat - (totalIn old key).allocatedBytes.toNat
  else 0

theorem toNat_sub_add_of_le {a b : UInt64} (h : a ≤ b) : (b - a).toNat + a.toNat = b.toNat := by
  rw [UInt64.toNat_sub_of_le _ _ h]
  exact Nat.sub_add_cancel (UInt64.le_iff_toNat_le.mp h)

/-- A later snapshot passes the checks against wraparound. -/
theorem Grows.rowOf_eq {old new : List Sample} (h : Grows old new) {key : Key} {sample : Sample}
    (hfind : (new.find? fun sample => sample.key = key) = some sample) :
    rowOf old sample =
      if (totalIn old key).count = (totalIn new key).count then none
      else some ⟨key, (totalIn new key).count - (totalIn old key).count,
        (totalIn new key).allocatedBytes - (totalIn old key).allocatedBytes⟩ := by
  obtain rfl : sample.key = key := by simpa using List.find?_some hfind
  have hnew : totalIn new sample.key = sample.total := by rw [totalIn, hfind]; rfl
  obtain ⟨hcount, hbytes⟩ := h.total_le sample.key
  rw [hnew] at hcount hbytes ⊢
  simp only [rowOf]
  by_cases heq : (totalIn old sample.key).count = sample.total.count
  · rw [if_pos heq, if_pos (.inr (.inr (sub_eq_zero.mpr heq.symm)))]
  · rw [if_neg heq, if_neg]
    rw [not_or, not_or]
    exact ⟨UInt64.not_lt.mpr hcount, UInt64.not_lt.mpr hbytes,
      fun hzero => heq (sub_eq_zero.mp hzero).symm⟩

theorem totalIn_of_find_none {samples : List Sample} {key : Key}
    (h : (samples.find? fun sample => sample.key = key) = none) : totalIn samples key = {} := by
  rw [totalIn, h]
  rfl

/-- What the rows of one window say about a key. -/
theorem window_deltas {old new : List Sample} (h : Grows old new) (key : Key) :
    deltaOf Row.countDelta (new.filterMap (rowOf old)) key + (totalIn old key).count.toNat =
        (totalIn new key).count.toNat ∧
      deltaOf Row.bytesDelta (new.filterMap (rowOf old)) key + lostBytes old new key +
        (totalIn old key).allocatedBytes.toNat = (totalIn new key).allocatedBytes.toNat := by
  obtain ⟨hcount, hbytes⟩ := h.total_le key
  have hcount' := UInt64.le_iff_toNat_le.mp hcount
  have hbytes' := UInt64.le_iff_toNat_le.mp hbytes
  unfold deltaOf lostBytes
  rw [rows_of_key h.1]
  cases hfind : new.find? fun sample => sample.key = key with
  | none =>
      rw [totalIn_of_find_none hfind] at hcount' hbytes' ⊢
      have hzero : (totalIn old key).count = 0 := UInt64.toNat_inj.mp (Nat.le_zero.mp hcount')
      have hzero' : (totalIn old key).allocatedBytes.toNat = 0 := Nat.le_zero.mp hbytes'
      simp [hzero, hzero']
  | some sample =>
      rw [Option.toList_some, List.filterMap_cons, List.filterMap_nil, h.rowOf_eq hfind]
      by_cases heq : (totalIn old key).count = (totalIn new key).count
      · rw [if_pos heq, if_pos heq, heq]
        simp only [List.map_nil, List.sum_nil]
        omega
      · rw [if_neg heq, if_neg heq]
        simp only [List.map_cons, List.map_nil, List.sum_cons, List.sum_nil, add_zero]
        exact ⟨toNat_sub_add_of_le hcount, toNat_sub_add_of_le hbytes⟩

/-! ## All windows -/

/-- A window that was printed: the snapshots before and after, and its rows. -/
structure Window where
  old : List Sample
  new : List Sample
  rows : List Row

/-- Every key has at most one row, and it has one exactly when its count grew. -/
def Window.Exact (w : Window) : Prop :=
  (w.rows.map Row.key).Nodup ∧
    ∀ key, key ∈ w.rows.map Row.key ↔ (totalIn w.old key).count < (totalIn w.new key).count

theorem Grows.exact {old new : List Sample} (h : Grows old new) :
    Window.Exact ⟨old, new, new.filterMap (rowOf old)⟩ := by
  have hkeys : (new.filterMap (rowOf old)).map Row.key =
      new.filterMap fun sample => (rowOf old sample).map fun _ => sample.key := by
    rw [List.map_filterMap]
    apply List.filterMap_congr
    intro sample _
    cases hrow : rowOf old sample with
    | none => rfl
    | some row => exact congrArg some (rowOf_key hrow)
  constructor
  · rw [hkeys]
    refine List.Nodup.sublist ?_ h.1
    clear hkeys h
    induction new with
    | nil => exact .slnil
    | cons sample rest ih =>
        rw [List.filterMap_cons, List.map_cons]
        cases rowOf old sample with
        | none => exact ih.cons _
        | some row => exact ih.cons_cons _
  · intro key
    have hmem : key ∈ (new.filterMap (rowOf old)).map Row.key ↔
        (new.filterMap (rowOf old)).filter (fun row => row.key = key) ≠ [] := by
      rw [List.mem_map, Ne, List.filter_eq_nil_iff]
      simp only [decide_eq_true_eq, not_forall, not_not, exists_prop]
    have hle := (h.total_le key).1
    rw [hmem, rows_of_key h.1]
    cases hfind : new.find? fun sample => sample.key = key with
    | none =>
        rw [totalIn_of_find_none hfind]
        simp
    | some sample =>
        rw [Option.toList_some, List.filterMap_cons, List.filterMap_nil, h.rowOf_eq hfind]
        by_cases heq : (totalIn old key).count = (totalIn new key).count
        · simp [heq]
        · simpa [heq] using UInt64.lt_of_le_of_ne hle heq

/-- The sum of one delta over all windows. -/
def sumOf (f : Row → UInt64) (ws : List Window) (key : Key) : ℕ :=
  (ws.map fun w => deltaOf f w.rows key).sum

/-- The calls of `print_interval` from the start, with the windows they printed. -/
def windows (n : ℕ) : Machine (Buffers × List Window) (Iteration n × UInt64) where
  init := (Buffers.start, [])
  step s e :=
    let p := printInterval s.1 e.1 e.2
    (p.buffers, match p.rows with
      | none => s.2
      | some rows => s.2 ++ [⟨s.1.snapshot, e.1.snapshot, rows⟩])
  Allowed s e :=
    (printInterval s.1 e.1 e.2).rows.isSome = true → Grows s.1.snapshot e.1.snapshot

instance (n : ℕ) (s : Buffers × List Window) (e : Iteration n × UInt64) :
    Decidable ((windows n).Allowed s e) :=
  inferInstanceAs (Decidable (_ → _))

/-- Did the bytes of the key move only together with its count? -/
def Window.BytesFollowCount (w : Window) (key : Key) : Prop :=
  (totalIn w.old key).count = (totalIn w.new key).count →
    (totalIn w.old key).allocatedBytes = (totalIn w.new key).allocatedBytes

/-- The deltas of all windows add up to the totals of the last snapshot. -/
def Telescopes (s : Buffers × List Window) : Prop :=
  (∀ w ∈ s.2, w.Exact) ∧ ∀ key,
    sumOf Row.countDelta s.2 key = (totalIn s.1.snapshot key).count.toNat ∧
      (sumOf Row.bytesDelta s.2 key = (totalIn s.1.snapshot key).allocatedBytes.toNat ↔
        ∀ w ∈ s.2, w.BytesFollowCount key)

/-- The invariant of the windows: what is missing from the sum was lost on the way. -/
structure Summed (s : Buffers × List Window) : Prop where
  grows : ∀ w ∈ s.2, Grows w.old w.new
  exact : ∀ w ∈ s.2, w.Exact
  counts : ∀ key, sumOf Row.countDelta s.2 key = (totalIn s.1.snapshot key).count.toNat
  bytes : ∀ key, sumOf Row.bytesDelta s.2 key + (s.2.map fun w => lostBytes w.old w.new key).sum =
    (totalIn s.1.snapshot key).allocatedBytes.toNat

theorem Summed.step {s : Buffers × List Window} {e : Iteration n × UInt64} (h : Summed s)
    (ha : (windows n).Allowed s e) : Summed ((windows n).step s e) := by
  rcases printInterval_cases s.1 e.1 e.2 with hskip | ⟨err, current, -, herr⟩ | ⟨b', hb', hok⟩
  · simp only [windows, hskip]
    exact h
  · simp only [windows, herr]
    exact { h with }
  have hgrows : Grows s.1.snapshot e.1.snapshot := ha (by rw [hok]; rfl)
  simp only [windows, hok]
  refine ⟨?_, ?_, ?_, ?_⟩
  · intro w hw
    rcases List.mem_append.mp hw with hw | hw
    · exact h.grows w hw
    · obtain rfl := List.mem_singleton.mp hw
      exact hgrows
  · intro w hw
    rcases List.mem_append.mp hw with hw | hw
    · exact h.exact w hw
    · obtain rfl := List.mem_singleton.mp hw
      exact hgrows.exact
  · intro key
    have hsum := h.counts key
    have hwindow := (window_deltas hgrows key).1
    simp only [sumOf, hb', List.map_append, List.map_cons, List.map_nil, List.sum_append,
      List.sum_cons, List.sum_nil] at hsum ⊢
    omega
  · intro key
    have hsum := h.bytes key
    have hwindow := (window_deltas hgrows key).2
    simp only [sumOf, hb', List.map_append, List.map_cons, List.map_nil, List.sum_append,
      List.sum_cons, List.sum_nil] at hsum ⊢
    omega

theorem summed_run {es : List (Iteration n × UInt64)} (hv : (windows n).Valid es) :
    Summed ((windows n).run es) := by
  refine Machine.invariant (M := windows n) (I := Summed) ?_ ?_ hv
  · exact ⟨nofun, nofun, fun _ => rfl, fun _ => rfl⟩
  · exact fun s e h ha => h.step ha

theorem lostBytes_eq_zero_iff {w : Window} (h : Grows w.old w.new) (key : Key) :
    lostBytes w.old w.new key = 0 ↔ w.BytesFollowCount key := by
  have hle := UInt64.le_iff_toNat_le.mp (h.total_le key).2
  unfold lostBytes Window.BytesFollowCount
  split_ifs with heq
  · rw [forall_prop_of_true heq, ← UInt64.toNat_inj]
    omega
  · exact ⟨fun _ hcount => absurd hcount heq, fun _ => rfl⟩

theorem Summed.telescopes {s : Buffers × List Window} (h : Summed s) : Telescopes s := by
  refine ⟨h.exact, fun key => ⟨h.counts key, ?_⟩⟩
  have hlost : (s.2.map fun w => lostBytes w.old w.new key).sum = 0 ↔
      ∀ w ∈ s.2, w.BytesFollowCount key := by
    rw [List.sum_eq_zero_iff_forall_eq_nat]
    constructor
    · intro hzero w hw
      exact (lostBytes_eq_zero_iff (h.grows w hw) key).mp (hzero _ (List.mem_map_of_mem hw))
    · intro hall x hx
      obtain ⟨w, hw, rfl⟩ := List.mem_map.mp hx
      exact (lostBytes_eq_zero_iff (h.grows w hw) key).mpr (hall w hw)
  rw [← hlost, ← h.bytes key]
  omega

/-- The windows telescope, and a call that fails leaves the previous snapshot alone. -/
theorem slab_windows_telescope :
    (∀ es : List (Iteration n × UInt64), (windows n).Valid es → Telescopes ((windows n).run es)) ∧
      ∀ (b : Buffers) (it : Iteration n) (intervalNs : UInt64),
        (printInterval b it intervalNs).ret ≠ 0 →
          (printInterval b it intervalNs).buffers.previous = b.previous ∧
            (printInterval b it intervalNs).buffers.previousCount = b.previousCount := by
  refine ⟨fun es hv => (summed_run hv).telescopes, ?_⟩
  intro b it intervalNs hret
  rcases printInterval_cases b it intervalNs with hskip | ⟨err, current, -, herr⟩ | ⟨b', -, hok⟩
  · rw [hskip]
    exact ⟨rfl, rfl⟩
  · rw [herr]
    exact ⟨rfl, rfl⟩
  · rw [hok] at hret
    exact absurd rfl hret

def kmallocKey (size : UInt64) : Key := ⟨size, .kmalloc, Vector.replicate _ 0⟩

/-- An iteration over one CPU's values that finds everything. -/
def scan (samples : List Sample) : Iteration 1 :=
  ⟨samples.map fun sample => (sample.key, .ok fun _ => sample.total), enoent⟩

/-- Two windows: 64-byte objects in both, 128-byte objects in the second. -/
def busyWindows : List (Iteration 1 × UInt64) :=
  [(scan [⟨kmallocKey 64, 2, 128⟩], 1000),
   (scan [⟨kmallocKey 128, 1, 128⟩, ⟨kmallocKey 64, 5, 320⟩], 1000)]

theorem busy_windows_telescope :
    Telescopes ((windows 1).run busyWindows) ∧
      sumOf Row.countDelta ((windows 1).run busyWindows).2 (kmallocKey 64) = 5 ∧
      sumOf Row.bytesDelta ((windows 1).run busyWindows).2 (kmallocKey 64) = 320 :=
  ⟨slab_windows_telescope.1 busyWindows (by decide +kernel), by decide +kernel, by decide +kernel⟩

/-- The first snapshot comes between the two increments of `account_alloc`; nothing is
allocated after that. -/
def tornWindows : List (Iteration 1 × UInt64) :=
  [(scan [⟨kmallocKey 64, 1, 0⟩], 1000), (scan [⟨kmallocKey 64, 1, 64⟩], 1000)]

theorem torn_snapshot_loses_bytes :
    (windows 1).Valid tornWindows ∧ ((windows 1).run tornWindows).2.length = 2 ∧
      sumOf Row.bytesDelta ((windows 1).run tornWindows).2 (kmallocKey 64) = 0 ∧
      totalIn ((windows 1).run tornWindows).1.snapshot (kmallocKey 64) = ⟨1, 64⟩ := by
  decide +kernel

end EbpfToolbox.Mem.SlabRate
