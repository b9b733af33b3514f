import Mathlib.Algebra.BigOperators.Fin
import Mathlib.Tactic.Linarith

/-!
# Per-CPU arrays

`BPF_MAP_TYPE_PERCPU_ARRAY` with one entry: every possible CPU owns a copy,
a probe reads and writes only the copy of the CPU it runs on, and user space
adds the copies up. `total f` is that sum for one counter `f` of the copies.
-/

namespace EbpfToolbox.Lib

/-- One copy of `α` for each of the `n` possible CPUs. -/
abbrev PerCpu (n : ℕ) (α : Type) : Type := Fin n → α

namespace PerCpu

variable {n : ℕ} {α β M : Type} [AddCommMonoid M]

/-- A probe on CPU `c` rewrites its own copy. Irreducible, so that unification
meets the word `modify` and not the function behind it. -/
@[irreducible] def modify (s : PerCpu n α) (c : Fin n) (g : α → α) : PerCpu n α :=
  Function.update s c (g (s c))

@[simp] theorem modify_self (s : PerCpu n α) (c : Fin n) (g : α → α) :
    s.modify c g c = g (s c) := by
  simp [modify]

theorem modify_of_ne (s : PerCpu n α) {c d : Fin n} (g : α → α) (h : d ≠ c) :
    s.modify c g d = s d := by
  simp [modify, h]

theorem modify_modify (s : PerCpu n α) (c : Fin n) (f g : α → α) :
    (s.modify c f).modify c g = s.modify c fun a => g (f a) := by
  simp [modify]

/-- What `g` shows of every copy. -/
def map (g : α → β) (s : PerCpu n α) : PerCpu n β := fun c => g (s c)

/-- An update that works on what `g` keeps. -/
theorem map_modify {g : α → β} {f : α → α} {f' : β → β} (h : ∀ a, g (f a) = f' (g a))
    (s : PerCpu n α) (c : Fin n) : (s.modify c f).map g = (s.map g).modify c f' := by
  funext d
  by_cases hd : d = c
  · subst hd
    simp only [map, modify_self]
    exact h (s d)
  · simp only [map, modify_of_ne _ _ hd]

/-- An update that `g` does not show. -/
theorem map_modify_of_hidden {g : α → β} {f : α → α} (h : ∀ a, g (f a) = g a) (s : PerCpu n α)
    (c : Fin n) : (s.modify c f).map g = s.map g := by
  funext d
  by_cases hd : d = c
  · subst hd
    simp only [map, modify_self]
    exact h (s d)
  · simp only [map, modify_of_ne _ _ hd]

/-- The sum of the counter `f` over all CPUs. -/
def total (f : α → M) (s : PerCpu n α) : M := ∑ c, f (s c)

private theorem total_split (f : α → M) (s : PerCpu n α) (c : Fin n) :
    total f s = f (s c) + ∑ i ∈ Finset.univ.erase c, f (s i) :=
  (Finset.add_sum_erase Finset.univ (fun i => f (s i)) (Finset.mem_univ c)).symm

private theorem rest_congr (f : α → M) {s s' : PerCpu n α} {c : Fin n}
    (h : ∀ i, i ≠ c → s' i = s i) :
    ∑ i ∈ Finset.univ.erase c, f (s' i) = ∑ i ∈ Finset.univ.erase c, f (s i) :=
  Finset.sum_congr rfl fun i hi => by rw [h i (Finset.ne_of_mem_erase hi)]

/-- A step that moves the counter of the running CPU by `d` moves the sum by `d`. -/
theorem total_modify_add (f : α → M) (s : PerCpu n α) (c : Fin n) (g : α → α) {d : M}
    (h : f (g (s c)) = f (s c) + d) : total f (s.modify c g) = total f s + d := by
  rw [total_split f s c, total_split f (s.modify c g) c, modify_self, h,
    rest_congr f fun i hi => modify_of_ne s g hi, add_right_comm]

/-- One copy is replaced. -/
theorem total_update (f : α → M) (s : PerCpu n α) (c : Fin n) (a : α) :
    total f (Function.update s c a) + f (s c) = total f s + f a := by
  rw [total_split f s c, total_split f (Function.update s c a) c, Function.update_self,
    rest_congr f fun i hi => Function.update_of_ne hi a s]
  ac_rfl

theorem total_add (f g : α → M) (s : PerCpu n α) :
    total (fun a => f a + g a) s = total f s + total g s :=
  Finset.sum_add_distrib

/-- User space visits the copies one after the other and adds a counter up. -/
theorem foldl_merge_eq_total {τ : Type} (merge : τ → α → τ) (t₀ : τ) (g : τ → M) {f : α → M}
    (h0 : g t₀ = 0) (h : ∀ t a, g (merge t a) = g t + f a) (s : PerCpu n α) :
    g ((List.finRange n).foldl (fun t c => merge t (s c)) t₀) = total f s := by
  have hom : (List.finRange n).foldl (fun a c => a + f (s c)) (g t₀) =
      g ((List.finRange n).foldl (fun t c => merge t (s c)) t₀) :=
    List.foldl_hom g fun t c => (h t (s c)).symm
  rw [← hom, h0, total, Fin.sum_univ_def, List.sum_eq_foldl, List.foldl_map]

@[simp] theorem total_const_zero (f : α → M) (a : α) (h : f a = 0) :
    total f (fun _ : Fin n => a) = 0 := by
  simp [total, h]

end PerCpu

end EbpfToolbox.Lib
