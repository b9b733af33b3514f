import Mathlib.Data.Finmap
import Mathlib.Algebra.BigOperators.Group.Finset.Basic
import Mathlib.Tactic.Linarith

/-!
# Hash maps shared by probes

A BPF hash map is a finite map. `update` is the successful
`bpf_map_update_elem(.., BPF_ANY)`, `delete` is `bpf_map_delete_elem`; an
insertion that fails leaves the map as it is, and an eviction by an LRU map is
a `delete` that no program asked for.

`Holds P m` is the invariant that every entry satisfies `P`; the operations keep it when they
write such entries only. `weight f m` sums `f` over the stored values. Sizes and counts are
weights, and `weight_congr` says how an operation at one key moves every one of them.
-/

namespace EbpfToolbox.Lib

/-- A BPF hash map with keys `K` and values `V`. -/
abbrev BpfMap (K V : Type) : Type := Finmap fun _ : K => V

namespace BpfMap

variable {K V : Type} [DecidableEq K]

def get (m : BpfMap K V) (k : K) : Option V := Finmap.lookup k m

def update (m : BpfMap K V) (k : K) (v : V) : BpfMap K V := Finmap.insert k v m

def delete (m : BpfMap K V) (k : K) : BpfMap K V := Finmap.erase k m

/-- Overwrite the value at `k` in place, as a write through the pointer that
`bpf_map_lookup_elem` returned; nothing happens when there is no value. -/
def modify (m : BpfMap K V) (k : K) (f : V → V) : BpfMap K V :=
  match m.get k with
  | some v => m.update k (f v)
  | none => m

@[simp] theorem get_empty (k : K) : (∅ : BpfMap K V).get k = none :=
  Finmap.lookup_empty k

@[simp] theorem get_update_self (m : BpfMap K V) (k : K) (v : V) :
    (m.update k v).get k = some v :=
  Finmap.lookup_insert m

theorem get_update_of_ne (m : BpfMap K V) {k k' : K} (v : V) (h : k' ≠ k) :
    (m.update k v).get k' = m.get k' :=
  Finmap.lookup_insert_of_ne m h

theorem get_update (m : BpfMap K V) (k k' : K) (v : V) :
    (m.update k v).get k' = if k' = k then some v else m.get k' := by
  by_cases h : k' = k
  · subst h
    simp
  · rw [get_update_of_ne m v h, if_neg h]

@[simp] theorem get_delete_self (m : BpfMap K V) (k : K) : (m.delete k).get k = none :=
  Finmap.lookup_erase k m

theorem get_delete_of_ne (m : BpfMap K V) {k k' : K} (h : k' ≠ k) :
    (m.delete k).get k' = m.get k' :=
  Finmap.lookup_erase_ne h

theorem get_delete (m : BpfMap K V) (k k' : K) :
    (m.delete k).get k' = if k' = k then none else m.get k' := by
  by_cases h : k' = k
  · subst h
    simp
  · rw [get_delete_of_ne m h, if_neg h]

theorem get_modify (m : BpfMap K V) (k k' : K) (f : V → V) :
    (m.modify k f).get k' = if k' = k then (m.get k).map f else m.get k' := by
  unfold modify
  cases hk : m.get k with
  | none =>
      by_cases h : k' = k
      · subst h
        simp [hk]
      · simp [h]
  | some v => simp [get_update]

theorem ext_get {m m' : BpfMap K V} (h : ∀ k, m.get k = m'.get k) : m = m' := Finmap.ext_lookup h

omit [DecidableEq K] in
/-- Every value through `f`. -/
def map {W : Type} (f : V → W) (m : BpfMap K V) : BpfMap K W where
  entries := m.entries.map fun p => ⟨p.1, f p.2⟩
  nodupKeys := by
    have hkeys : (m.entries.map fun p => (⟨p.1, f p.2⟩ : Σ _ : K, W)).keys = m.entries.keys :=
      Multiset.map_map _ _ _
    exact Multiset.nodup_keys.mp (hkeys ▸ m.nodupKeys.nodup_keys)

@[simp] theorem get_map {W : Type} (f : V → W) (m : BpfMap K V) (k : K) :
    (m.map f).get k = (m.get k).map f := by
  induction m using Finmap.induction_on with
  | H a => exact List.dlookup_map₂ (l := a.entries) (f := fun _ => f) k

theorem mem_keys_iff (m : BpfMap K V) (k : K) : k ∈ m.keys ↔ (m.get k).isSome :=
  Finmap.mem_keys.trans Finmap.lookup_isSome.symm

/-! ## Invariants of the entries -/

/-- Every entry satisfies `P`. -/
def Holds (P : K → V → Prop) (m : BpfMap K V) : Prop := ∀ k v, m.get k = some v → P k v

section Holds

variable {P : K → V → Prop} {m : BpfMap K V}

theorem holds_empty : Holds P (∅ : BpfMap K V) := by
  intro k v hv
  simp at hv

theorem Holds.update (h : m.Holds P) {k : K} {v : V} (hv : P k v) : (m.update k v).Holds P := by
  intro k' v' hv'
  by_cases hk : k' = k
  · subst hk
    rw [get_update_self] at hv'
    exact Option.some.inj hv' ▸ hv
  · rw [get_update_of_ne m v hk] at hv'
    exact h k' v' hv'

theorem Holds.delete (h : m.Holds P) (k : K) : (m.delete k).Holds P := by
  intro k' v hv
  by_cases hk : k' = k
  · subst hk
    simp at hv
  · rw [get_delete_of_ne m hk] at hv
    exact h k' v hv

theorem Holds.modify (h : m.Holds P) {k : K} {f : V → V} (hf : ∀ v, P k v → P k (f v)) :
    (m.modify k f).Holds P := by
  unfold BpfMap.modify
  cases hk : m.get k with
  | none => exact h
  | some v => exact h.update (hf v (h k v hk))

end Holds

/-! ## Weights -/

/-- The sum of `f` over the values stored in the map. -/
def weight (f : V → ℕ) (m : BpfMap K V) : ℕ := ∑ k ∈ m.keys, (m.get k).elim 0 f

/-- The number of entries. -/
def size (m : BpfMap K V) : ℕ := m.weight fun _ => 1

@[simp] theorem weight_empty (f : V → ℕ) : (∅ : BpfMap K V).weight f = 0 := rfl

private theorem weight_split (f : V → ℕ) (m : BpfMap K V) (k : K) :
    m.weight f = (m.get k).elim 0 f + ∑ a ∈ m.keys.erase k, (m.get a).elim 0 f := by
  by_cases h : k ∈ m.keys
  · exact (Finset.add_sum_erase _ (fun a => (m.get a).elim 0 f) h).symm
  · have hnone : m.get k = none := by
      simpa [mem_keys_iff] using h
    rw [weight, Finset.erase_eq_of_notMem h, hnone]
    simp

theorem le_weight (f : V → ℕ) {m : BpfMap K V} {k : K} {v : V} (hk : m.get k = some v) :
    f v ≤ m.weight f := by
  rw [weight_split f m k, hk]
  exact Nat.le_add_right _ _

/-- Two maps that differ at most at `k` differ in weight by what they hold there. -/
theorem weight_congr (f : V → ℕ) {m m' : BpfMap K V} {k : K}
    (h : ∀ a, a ≠ k → m'.get a = m.get a) :
    m'.weight f + (m.get k).elim 0 f = m.weight f + (m'.get k).elim 0 f := by
  have herase : m'.keys.erase k = m.keys.erase k := by
    ext a
    simp only [Finset.mem_erase, mem_keys_iff]
    exact and_congr_right fun ha => by rw [h a ha]
  have hsum : ∑ a ∈ m'.keys.erase k, (m'.get a).elim 0 f =
      ∑ a ∈ m'.keys.erase k, (m.get a).elim 0 f :=
    Finset.sum_congr rfl fun a ha => by rw [h a (Finset.ne_of_mem_erase ha)]
  rw [weight_split f m' k, weight_split f m k, hsum, herase]
  omega

theorem size_update_le (m : BpfMap K V) (k : K) (v : V) : (m.update k v).size ≤ m.size + 1 := by
  have h := weight_congr (fun _ => 1) fun a (ha : a ≠ k) => get_update_of_ne m v ha
  rw [get_update_self] at h
  exact le_of_add_le_left h.le

theorem size_delete (m : BpfMap K V) (k : K) :
    (m.delete k).size + (m.get k).elim 0 (fun _ => 1) = m.size := by
  have h := weight_congr (fun _ => 1) fun a (ha : a ≠ k) => get_delete_of_ne m ha
  rwa [get_delete_self] at h

end BpfMap

end EbpfToolbox.Lib
