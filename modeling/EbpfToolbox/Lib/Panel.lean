import EbpfToolbox.Lib.BpfMap
import EbpfToolbox.Lib.Machine
import EbpfToolbox.Lib.Peak
import Mathlib.Data.UInt

/-!
# The summary of a run

A module measures calls. Every CPU counts the calls that end on it, adds their times up and
keeps the longest one with its data. Some calls are reported, the others are withheld. At the
end user space goes over the CPUs and makes one record of theirs.

A `Board` names the parts of the state that take part. `Tells xs` says that the statistics
are those of the calls `xs`; a step keeps it when it books a call exactly where `xs` gets one
more. `merged` reads the record that user space makes.
-/

namespace EbpfToolbox.Lib

/-- The statistics of every CPU, the reports, and what a record and a report say of calls. -/
structure Board (n : ℕ) (S σ E β : Type) where
  stats : S → PerCpu n σ
  rb : S → List E
  count : σ → ℕ
  total : σ → UInt64
  peak : σ → Peak UInt64 β
  withheld : σ → ℕ
  call : E → Peak UInt64 β

namespace Board

variable {n : ℕ} {S σ E β : Type} (B : Board n S σ E β)

/-- A record without a call. -/
structure Blank (z : σ) : Prop where
  count : B.count z = 0
  total : B.total z = 0
  peak : (B.peak z).value = 0
  withheld : B.withheld z = 0

/-- The update books the call `q`, and `w` withheld ones. -/
structure Books (q : Peak UInt64 β) (w : ℕ) (f : σ → σ) : Prop where
  count : ∀ st, B.count (f st) = B.count st + 1
  total : ∀ st, B.total (f st) = B.total st + q.value
  peak : ∀ st, B.peak (f st) = (B.peak st).note q
  withheld : ∀ st, B.withheld (f st) = B.withheld st + w

/-- The update books no call; `w` calls that are booked elsewhere are withheld. -/
structure Marks (w : ℕ) (f : σ → σ) : Prop where
  count : ∀ st, B.count (f st) = B.count st
  total : ∀ st, B.total (f st) = B.total st
  peak : ∀ st, B.peak (f st) = B.peak st
  withheld : ∀ st, B.withheld (f st) = B.withheld st + w

/-- The record of two records. -/
structure Merges (merge : σ → σ → σ) : Prop where
  count : ∀ s v, B.count (merge s v) = B.count s + B.count v
  total : ∀ s v, B.total (merge s v) = B.total s + B.total v
  peak : ∀ s v, B.peak (merge s v) = (B.peak s).note (B.peak v)
  withheld : ∀ s v, B.withheld (merge s v) = B.withheld s + B.withheld v

/-- The calls were `xs`, on these CPUs. -/
structure Tells (z : σ) (xs : List (Fin n × Peak UInt64 β)) (s : S) : Prop where
  count : (B.stats s).total B.count = xs.length
  total : (B.stats s).total B.total = (xs.map (·.2.value)).sum
  peaks : ∀ c, Peak.Of (B.peak z) {q | (c, q) ∈ xs} (B.peak (B.stats s c))
  reported : ((B.rb s).map B.call).Sublist (xs.map Prod.snd)
  withheld : xs.length = (B.rb s).length + (B.stats s).total B.withheld

/-- What the record `m` says of the calls, given the reports. -/
structure Panel (calls : List (Peak UInt64 β)) (rb : List E) (m : σ) : Prop where
  count : B.count m = calls.length
  total : B.total m = (calls.map (·.value)).sum
  maximum : (B.peak m).value = (calls.map (·.value)).foldl max 0
  attached : 0 < (B.peak m).value → B.peak m ∈ calls
  reported : (rb.map B.call).Sublist calls
  withheld : calls.length = rb.length + B.withheld m

variable {B} {z : σ} {xs : List (Fin n × Peak UInt64 β)} {s s' : S} {c : Fin n} {f : σ → σ}
  {q : Peak UInt64 β} {e : E} {w : ℕ}

theorem Books.mark {f g : σ → σ} {w' : ℕ} (hf : B.Books q w f) (hg : B.Marks w' g) :
    B.Books q (w + w') fun st => g (f st) where
  count st := by rw [hg.count, hf.count]
  total st := by rw [hg.total, hf.total]
  peak st := by rw [hg.peak, hf.peak]
  withheld st := by rw [hg.withheld, hf.withheld, add_assoc]

theorem Tells.start (hz : B.Blank z) (hstats : B.stats s = fun _ => z) (hrb : B.rb s = []) :
    B.Tells z [] s where
  count := by rw [hstats, PerCpu.total_const_zero _ _ hz.count, List.length_nil]
  total := by rw [hstats, PerCpu.total_const_zero _ _ hz.total, List.map_nil, List.sum_nil]
  peaks c := by
    have hempty : {q | (c, q) ∈ ([] : List (Fin n × Peak UInt64 β))} = ∅ := by simp
    rw [hempty, hstats]
    exact Peak.Of.empty _
  reported := by rw [hrb, List.map_nil, List.map_nil]
  withheld := by
    rw [hstats, hrb, PerCpu.total_const_zero _ _ hz.withheld, List.length_nil, List.length_nil,
      add_zero]

theorem Tells.frame (h : B.Tells z xs s) (hstats : B.stats s' = B.stats s)
    (hrb : B.rb s' = B.rb s) : B.Tells z xs s' where
  count := by rw [hstats, h.count]
  total := by rw [hstats, h.total]
  peaks c := by
    rw [hstats]
    exact h.peaks c
  reported := by
    rw [hrb]
    exact h.reported
  withheld := by rw [hstats, hrb, h.withheld]

theorem Tells.ignore (h : B.Tells z xs s) (hf : B.Marks 0 f)
    (hstats : B.stats s' = (B.stats s).modify c f) (hrb : B.rb s' = B.rb s) :
    B.Tells z xs s' where
  count := by
    rw [hstats, PerCpu.total_modify_add B.count _ c f ((hf.count _).trans (add_zero _).symm),
      h.count, add_zero]
  total := by
    rw [hstats, PerCpu.total_modify_add B.total _ c f ((hf.total _).trans (add_zero _).symm),
      h.total, add_zero]
  peaks d := by
    rw [hstats]
    by_cases hd : d = c
    · subst hd
      rw [PerCpu.modify_self, hf.peak]
      exact h.peaks d
    · rw [PerCpu.modify_of_ne _ _ hd]
      exact h.peaks d
  reported := by
    rw [hrb]
    exact h.reported
  withheld := by
    rw [hstats, hrb, h.withheld,
      PerCpu.total_modify_add B.withheld _ c f (hf.withheld _), add_zero]

/-- The peaks when CPU `c` booked one more call. -/
theorem Tells.peaks_book (h : B.Tells z xs s) (hf : B.Books q w f)
    (hstats : B.stats s' = (B.stats s).modify c f) (d : Fin n) :
    Peak.Of (B.peak z) {p | (d, p) ∈ xs ++ [(c, q)]} (B.peak (B.stats s' d)) := by
  rw [hstats]
  by_cases hd : d = c
  · have hset : {p | (d, p) ∈ xs ++ [(c, q)]} = insert q {p | (d, p) ∈ xs} := by
      ext p
      simp [hd, or_comm]
    rw [hset, hd, PerCpu.modify_self, hf.peak]
    exact (h.peaks c).note q
  · have hset : {p | (d, p) ∈ xs ++ [(c, q)]} = {p | (d, p) ∈ xs} := by
      ext p
      simp [hd]
    rw [hset, PerCpu.modify_of_ne _ _ hd]
    exact h.peaks d

/-- A call that is reported. -/
theorem Tells.report (h : B.Tells z xs s) (hf : B.Books q 0 f)
    (hstats : B.stats s' = (B.stats s).modify c f) (hrb : B.rb s' = B.rb s ++ [e])
    (he : B.call e = q) : B.Tells z (xs ++ [(c, q)]) s' where
  count := by
    rw [hstats, PerCpu.total_modify_add B.count _ c f (hf.count _), h.count, List.length_append,
      List.length_singleton]
  total := by
    rw [hstats, PerCpu.total_modify_add B.total _ c f (hf.total _), h.total]
    simp
  peaks := h.peaks_book hf hstats
  reported := by
    rw [hrb, List.map_append, List.map_append, List.map_singleton, List.map_singleton, he]
    exact h.reported.append (List.Sublist.refl _)
  withheld := by
    have hw := PerCpu.total_modify_add B.withheld (B.stats s) c f (hf.withheld _)
    have hsplit := h.withheld
    rw [hstats, hrb, hw, List.length_append, List.length_append, List.length_singleton,
      List.length_singleton]
    omega

/-- The same, when another counter is moved after that. -/
theorem Tells.report_marked (h : B.Tells z xs s) (hf : B.Books q 0 f) {g : σ → σ}
    (hg : B.Marks 0 g) (hstats : B.stats s' = ((B.stats s).modify c f).modify c g)
    (hrb : B.rb s' = B.rb s ++ [e]) (he : B.call e = q) : B.Tells z (xs ++ [(c, q)]) s' :=
  h.report (hf.mark hg) (hstats.trans (PerCpu.modify_modify _ _ _ _)) hrb he

/-- A call that is booked and then withheld. -/
theorem Tells.withhold (h : B.Tells z xs s) (hf : B.Books q 0 f) {g : σ → σ} (hg : B.Marks 1 g)
    (hstats : B.stats s' = ((B.stats s).modify c f).modify c g) (hrb : B.rb s' = B.rb s) :
    B.Tells z (xs ++ [(c, q)]) s' := by
  rw [PerCpu.modify_modify] at hstats
  have hfg := hf.mark hg
  constructor
  · rw [hstats, PerCpu.total_modify_add B.count _ c _ (hfg.count _), h.count, List.length_append,
      List.length_singleton]
  · rw [hstats, PerCpu.total_modify_add B.total _ c _ (hfg.total _), h.total]
    simp
  · exact h.peaks_book hfg hstats
  · rw [hrb, List.map_append]
    exact h.reported.trans (List.sublist_append_left _ _)
  · have hw := PerCpu.total_modify_add B.withheld (B.stats s) c (fun st => g (f st))
      (hfg.withheld _)
    have hsplit := h.withheld
    rw [hstats, hrb, hw, List.length_append, List.length_singleton]
    omega

theorem Tells.ite {p : Prop} [Decidable p] (h : p → B.Tells z xs s) (h' : ¬p → B.Tells z xs s') :
    B.Tells z xs (if p then s else s') := by
  split_ifs with hp
  · exact h hp
  · exact h' hp

/-- The loop over the CPUs at the end. -/
theorem Tells.merged (h : B.Tells z xs s) (hz : B.Blank z) {merge : σ → σ → σ}
    (hm : B.Merges merge) :
    B.Panel (xs.map Prod.snd) (B.rb s)
      ((List.finRange n).foldl (fun m c => merge m (B.stats s c)) z) := by
  have hpeak : B.peak ((List.finRange n).foldl (fun m c => merge m (B.stats s c)) z) =
      (List.finRange n).foldl (fun p c => p.note (B.peak (B.stats s c))) (B.peak z) :=
    (List.foldl_hom B.peak fun m c => (hm.peak m _).symm).symm
  have hset : {q | ∃ c ∈ List.finRange n, q ∈ {q | (c, q) ∈ xs}} =
      {q | ∃ x ∈ xs.map Prod.snd, id x = q} := by
    ext q
    simp
  have hof := Peak.Of.foldl h.peaks (List.finRange n)
  rw [hset, ← hpeak] at hof
  have hmax := value_eq_foldl_max hof
  rw [hz.peak] at hmax
  constructor
  · rw [PerCpu.foldl_merge_eq_total merge z B.count hz.count hm.count, h.count, List.length_map]
  · rw [PerCpu.foldl_merge_eq_total merge z B.total hz.total hm.total, h.total, List.map_map]
    rfl
  · exact hmax
  · intro hpos
    rcases hof.mem with hstart | ⟨-, q, hq, rfl⟩
    · rw [hstart, hz.peak] at hpos
      exact absurd hpos (by decide)
    · exact hq
  · exact h.reported
  · rw [PerCpu.foldl_merge_eq_total merge z B.withheld hz.withheld hm.withheld, List.length_map,
      h.withheld]

/-- Without withheld calls the calls are the reports. -/
theorem Panel.calls_eq {calls : List (Peak UInt64 β)} {rb : List E} {m : σ}
    (h : B.Panel calls rb m) (hw : B.withheld m = 0) : rb.map B.call = calls := by
  apply h.reported.eq_of_length
  rw [List.length_map, h.withheld, hw, add_zero]

variable (B) in
/-- What user space prints in the end: nothing when there was no call, or else a record that
says what they were. -/
def Shows (calls : List (Peak UInt64 β)) (rb : List E) : Option σ → Prop
  | none => calls = []
  | some m => B.Panel calls rb m

theorem Panel.shows {calls : List (Peak UInt64 β)} {rb : List E} {m : σ} {p : Prop} [Decidable p]
    (h : B.Panel calls rb m) (hp : p → calls = []) :
    B.Shows calls rb (if p then none else some m) := by
  split_ifs with hc
  · exact hp hc
  · exact h

end Board

/-! ## Contexts of calls -/

/-- The contexts in the map are `P`, and before the first attempt there is neither a context
nor a call that is over. -/
structure Attempted {K V X : Type} [DecidableEq K] (P : K → V → Prop) (m : BpfMap K V)
    (attempts : ℕ) (xs : List X) : Prop where
  contexts : m.Holds P
  first : attempts = 0 → (∀ k, m.get k = none) ∧ xs = []

namespace Attempted

variable {K V X : Type} [DecidableEq K] {P : K → V → Prop} {m : BpfMap K V} {k : K} {v : V}
  {a a' : ℕ} {xs : List X}

theorem start : Attempted P (∅ : BpfMap K V) 0 ([] : List X) :=
  ⟨BpfMap.holds_empty, fun _ => ⟨BpfMap.get_empty, rfl⟩⟩

/-- A call begins, whether or not its context is stored. -/
theorem attempt {m' : BpfMap K V} (hm : m'.Holds P) (ha : a' = a + 1) : Attempted P m' a' xs :=
  ⟨hm, fun hzero => by omega⟩

theorem delete (h : Attempted P m a xs) (k : K) : Attempted P (m.delete k) a xs := by
  refine ⟨h.contexts.delete k, fun hzero => ⟨fun k' => ?_, (h.first hzero).2⟩⟩
  rw [BpfMap.get_delete, (h.first hzero).1, ite_self]

/-- A call that has a context was attempted. -/
theorem finish (h : Attempted P m a xs) (hk : m.get k = some v) (ys : List X) :
    Attempted P (m.delete k) a ys := by
  refine ⟨h.contexts.delete k, fun hzero => ?_⟩
  have hnone := (h.first hzero).1 k
  rw [hk] at hnone
  cases hnone

end Attempted

end EbpfToolbox.Lib
