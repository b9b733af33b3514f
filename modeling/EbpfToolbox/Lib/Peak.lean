import EbpfToolbox.Lib.PerCpu
import Mathlib.Data.List.Induction
import Mathlib.Data.Set.Insert

/-!
# Running maxima

A `Peak` is the largest value seen so far together with the data of the sample it
came from. A sample replaces it only when its value is strictly larger, so value
and data always belong together. `Of p₀ S p` says what a peak `p` that started at
`p₀` knows of the samples `S`; peaks of parts combine to the peak of the whole.

The last section spreads a sequence of samples over CPUs, each of which
aggregates its own, and puts the sums and the peaks of the CPUs together again.
-/

namespace EbpfToolbox.Lib

structure Peak (α β : Type) where
  value : α
  data : β
deriving DecidableEq

namespace Peak

variable {α β : Type} [LE α] [LT α] [DecidableLT α]

def note (p q : Peak α β) : Peak α β := if p.value < q.value then q else p

omit [LE α] in
theorem note_of_lt {p q : Peak α β} (h : p.value < q.value) : p.note q = q := if_pos h

omit [LE α] in
theorem note_of_not_lt {p q : Peak α β} (h : ¬p.value < q.value) : p.note q = p := if_neg h

omit [LE α] in
/-- A record that takes the place of another one when its value is larger. -/
theorem note_ite {γ : Type} (f : γ → Peak α β) {c : Prop} [Decidable c] {p q : Peak α β} {a b : γ}
    (hc : c ↔ p.value < q.value) (ha : f a = q) (hb : f b = p) :
    f (if c then a else b) = p.note q := by
  split_ifs with h
  · rw [ha, note_of_lt (hc.mp h)]
  · rw [hb, note_of_not_lt (mt hc.mpr h)]

/-- `p` bounds the samples, and it is one of them unless it is still the start. -/
structure Of (p₀ : Peak α β) (S : Set (Peak α β)) (p : Peak α β) : Prop where
  le : ∀ q ∈ S, q.value ≤ p.value
  mem : p = p₀ ∨ p₀.value < p.value ∧ p ∈ S

variable [Std.IsLinearOrder α] [Std.LawfulOrderLT α] {p₀ p q : Peak α β} {S S' : Set (Peak α β)}

omit [DecidableLT α] [Std.IsLinearOrder α] [Std.LawfulOrderLT α] in
theorem Of.empty (p₀ : Peak α β) : Of p₀ ∅ p₀ :=
  ⟨fun _ h => absurd h (Set.notMem_empty _), Or.inl rfl⟩

omit [DecidableLT α] in
theorem Of.start_le (h : Of p₀ S p) : p₀.value ≤ p.value := by
  rcases h.mem with rfl | ⟨hlt, _⟩
  · exact Std.le_refl _
  · exact Std.le_of_lt hlt

/-- Peaks of two parts. -/
theorem Of.merge (h : Of p₀ S p) (h' : Of p₀ S' q) : Of p₀ (S ∪ S') (p.note q) := by
  unfold note
  split_ifs with hlt
  · have hle : p.value ≤ q.value := Std.le_of_lt hlt
    refine ⟨?_, ?_⟩
    · rintro r (hr | hr)
      · exact Std.le_trans (h.le r hr) hle
      · exact h'.le r hr
    · rcases h'.mem with rfl | ⟨hpos, hq⟩
      · exact absurd hlt (Std.not_lt.mpr h.start_le)
      · exact Or.inr ⟨hpos, Or.inr hq⟩
  · have hle : q.value ≤ p.value := Std.not_lt.mp hlt
    refine ⟨?_, h.mem.imp_right fun hp => ⟨hp.1, Or.inl hp.2⟩⟩
    rintro r (hr | hr)
    · exact h.le r hr
    · exact Std.le_trans (h'.le r hr) hle

/-- One more sample. -/
theorem Of.note (h : Of p₀ S p) (q : Peak α β) : Of p₀ (insert q S) (p.note q) := by
  unfold Peak.note
  split_ifs with hlt
  · refine ⟨?_, Or.inr ⟨Std.lt_of_le_of_lt h.start_le hlt, Set.mem_insert q S⟩⟩
    rintro r (rfl | hr)
    · exact Std.le_refl _
    · exact Std.le_trans (h.le r hr) (Std.le_of_lt hlt)
  · refine ⟨?_, h.mem.imp_right fun hp => ⟨hp.1, Set.mem_insert_of_mem q hp.2⟩⟩
    rintro r (rfl | hr)
    · exact Std.not_lt.mp hlt
    · exact h.le r hr

omit [DecidableLT α] in
/-- The largest value is determined by the samples; only ties leave a choice. -/
theorem Of.value_unique (h : Of p₀ S p) (h' : Of p₀ S q) : p.value = q.value := by
  have hle : ∀ {p q : Peak α β}, Of p₀ S p → Of p₀ S q → p.value ≤ q.value := by
    intro p q hp hq
    rcases hp.mem with rfl | ⟨_, hmem⟩
    · exact hq.start_le
    · exact hq.le p hmem
  exact Std.le_antisymm (hle h h') (hle h' h)

omit [DecidableLT α] in
/-- Without a tie at the top the peak itself is determined. -/
theorem Of.unique (h : Of p₀ S p) (h' : Of p₀ S q)
    (htie : ∀ a ∈ S, ∀ b ∈ S, a.value = p.value → b.value = p.value → a = b) : p = q := by
  have hval := h.value_unique h'
  rcases h.mem with rfl | ⟨hp, hpS⟩
  · rcases h'.mem with rfl | ⟨hq, _⟩
    · rfl
    · exact absurd (hval ▸ hq) Std.lt_irrefl
  · rcases h'.mem with rfl | ⟨_, hqS⟩
    · exact absurd (hval ▸ hp) Std.lt_irrefl
    · exact htie p hpS q hqS rfl hval.symm

/-- The peaks of the parts, folded one after the other. -/
theorem Of.foldl {ι : Type} {part : ι → Set (Peak α β)} {peak : ι → Peak α β}
    (h : ∀ i, Of p₀ (part i) (peak i)) (is : List ι) :
    Of p₀ {q | ∃ i ∈ is, q ∈ part i} (is.foldl (fun p i => p.note (peak i)) p₀) := by
  induction is using List.reverseRecOn with
  | nil =>
      have hempty : {q | ∃ i ∈ ([] : List ι), q ∈ part i} = ∅ := by simp
      rw [hempty]
      exact Of.empty p₀
  | append_singleton is i ih =>
      have hsplit : {q | ∃ j ∈ is ++ [i], q ∈ part j} = {q | ∃ j ∈ is, q ∈ part j} ∪ part i := by
        ext q
        simp [or_and_right, exists_or]
      rw [hsplit, List.foldl_append]
      exact ih.merge (h i)

end Peak

/-! ## Samples on many CPUs -/

variable {n : ℕ} {α β σ X M : Type}

/-- Every CPU aggregates the samples that fall on it. -/
def spread (step : σ → X → σ) (s₀ : σ) (xs : List (Fin n × X)) : PerCpu n σ :=
  xs.foldl (fun s x => s.modify x.1 fun st => step st x.2) fun _ => s₀

section Spread

variable {step : σ → X → σ} {s₀ : σ}

theorem spread_snoc (xs : List (Fin n × X)) (x : Fin n × X) :
    spread step s₀ (xs ++ [x]) = (spread step s₀ xs).modify x.1 fun st => step st x.2 := by
  simp [spread]

/-- A counter that every sample moves by `d`, added up over the CPUs, is the counter
of one aggregator for all samples. -/
theorem total_spread [AddCommMonoid M] (f : σ → M) {d : X → M} (h0 : f s₀ = 0)
    (hf : ∀ st x, f (step st x) = f st + d x) (xs : List (Fin n × X)) :
    PerCpu.total f (spread step s₀ xs) = f ((xs.map Prod.snd).foldl step s₀) := by
  induction xs using List.reverseRecOn with
  | nil => exact (PerCpu.total_const_zero f s₀ h0).trans h0.symm
  | append_singleton xs x ih =>
      rw [spread_snoc, PerCpu.total_modify_add f _ x.1 _ (hf _ x.2), ih, List.map_append,
        List.foldl_append]
      exact (hf _ x.2).symm

/-- What no sample moves stays at its start. -/
theorem spread_unmoved {γ : Type} (f : σ → γ) (hf : ∀ st x, f (step st x) = f st)
    (xs : List (Fin n × X)) (c : Fin n) : f (spread step s₀ xs c) = f s₀ := by
  induction xs using List.reverseRecOn with
  | nil => rfl
  | append_singleton xs x ih =>
      rw [spread_snoc]
      by_cases hc : c = x.1
      · rw [← hc, PerCpu.modify_self, hf, ih]
      · rw [PerCpu.modify_of_ne _ _ hc, ih]

variable [LE α] [LT α] [DecidableLT α] [Std.IsLinearOrder α] [Std.LawfulOrderLT α]
  (peak : σ → Peak α β) {sample : X → Peak α β}

/-- The peak of a CPU is about the samples of that CPU. -/
theorem peak_spread (hp : ∀ st x, peak (step st x) = (peak st).note (sample x)) (s₀ : σ)
    (xs : List (Fin n × X)) (c : Fin n) :
    Peak.Of (peak s₀) {q | ∃ x ∈ xs, x.1 = c ∧ sample x.2 = q} (peak (spread step s₀ xs c)) := by
  induction xs using List.reverseRecOn with
  | nil =>
      have hempty : {q | ∃ x ∈ ([] : List (Fin n × X)), x.1 = c ∧ sample x.2 = q} = ∅ := by simp
      rw [hempty]
      exact Peak.Of.empty _
  | append_singleton xs x ih =>
      rw [spread_snoc]
      by_cases hc : c = x.1
      · have hset : {q | ∃ y ∈ xs ++ [x], y.1 = c ∧ sample y.2 = q} =
            insert (sample x.2) {q | ∃ y ∈ xs, y.1 = c ∧ sample y.2 = q} := by
          ext q
          simp [hc, or_and_right, exists_or, eq_comm, or_comm]
        rw [hset, ← hc, PerCpu.modify_self, hp]
        exact ih.note _
      · have hset : {q | ∃ y ∈ xs ++ [x], y.1 = c ∧ sample y.2 = q} =
            {q | ∃ y ∈ xs, y.1 = c ∧ sample y.2 = q} := by
          ext q
          simp [or_and_right, exists_or, Ne.symm hc]
        rw [hset, PerCpu.modify_of_ne _ _ hc]
        exact ih

theorem peak_foldl (hp : ∀ st x, peak (step st x) = (peak st).note (sample x)) (s₀ : σ)
    (xs : List X) :
    Peak.Of (peak s₀) {q | ∃ x ∈ xs, sample x = q} (peak (xs.foldl step s₀)) := by
  induction xs using List.reverseRecOn with
  | nil =>
      have hempty : {q | ∃ x ∈ ([] : List X), sample x = q} = ∅ := by simp
      rw [hempty]
      exact Peak.Of.empty _
  | append_singleton xs x ih =>
      have hset : {q | ∃ y ∈ xs ++ [x], sample y = q} =
          insert (sample x) {q | ∃ y ∈ xs, sample y = q} := by
        ext q
        simp [or_and_right, exists_or, eq_comm, or_comm]
      rw [hset, List.foldl_append, List.foldl_cons, List.foldl_nil, hp]
      exact ih.note _

/-- The peaks of all CPUs make up the peak of all samples. -/
theorem peak_merged (hp : ∀ st x, peak (step st x) = (peak st).note (sample x)) (s₀ : σ)
    (xs : List (Fin n × X)) :
    Peak.Of (peak s₀) {q | ∃ x ∈ xs.map Prod.snd, sample x = q}
      ((List.finRange n).foldl (fun p c => p.note (peak (spread step s₀ xs c))) (peak s₀)) := by
  have hall := Peak.Of.foldl (fun c => peak_spread peak hp s₀ xs c) (List.finRange n)
  have hset : {q | ∃ c ∈ List.finRange n, q ∈ {q | ∃ x ∈ xs, x.1 = c ∧ sample x.2 = q}} =
      {q | ∃ x ∈ xs.map Prod.snd, sample x = q} := by
    ext q
    constructor
    · rintro ⟨c, _, x, hx, _, rfl⟩
      exact ⟨x.2, List.mem_map_of_mem hx, rfl⟩
    · rintro ⟨y, hy, rfl⟩
      obtain ⟨x, hx, rfl⟩ := List.mem_map.mp hy
      exact ⟨x.1, List.mem_finRange _, x, hx, rfl, rfl⟩
  rwa [hset] at hall

end Spread

/-! ## Words -/

/-- Noting a sample takes the maximum of the two words. -/
theorem note_value {β : Type} (p q : Peak UInt64 β) : (p.note q).value = max p.value q.value := by
  change _ = if p.value ≤ q.value then q.value else p.value
  unfold Peak.note
  grind

/-- The value of a peak is the largest sample. -/
theorem value_eq_foldl_max {β X : Type} {sample : X → Peak UInt64 β} {p₀ p : Peak UInt64 β}
    {xs : List X} (h : Peak.Of p₀ {q | ∃ x ∈ xs, sample x = q} p) :
    p.value = (xs.map fun x => (sample x).value).foldl max p₀.value := by
  have hseq : Peak.Of p₀ {q | ∃ x ∈ xs, sample x = q} (xs.foldl (fun p x => p.note (sample x)) p₀) :=
    peak_foldl id (fun _ _ => rfl) p₀ xs
  refine (h.value_unique hseq).trans ?_
  rw [List.foldl_map]
  exact (List.foldl_hom Peak.value fun p x => (note_value p _).symm).symm

end EbpfToolbox.Lib
