import Mathlib.Data.Vector.Basic

/-!
# Arrays that are filled from the front

A C array of fixed capacity with a count of the entries in use. `used v k` is the list of
these entries; a store at index `k` followed by `k++` appends to it, and a store without
the increment does not show.
-/

namespace EbpfToolbox.Lib

namespace Buffer

variable {α : Type} {cap : ℕ}

/-- The first `k` entries. -/
def used (v : Vector α cap) (k : ℕ) : List α := v.toList.take k

/-- `v[k] = x`. -/
def store (v : Vector α cap) (k : ℕ) (x : α) : Vector α cap := v.setIfInBounds k x

/-- `memcpy` of the first `k` entries of `src`. -/
def copyFrom (v src : Vector α cap) (k : ℕ) : Vector α cap :=
  Vector.ofFn fun i => if i.val < k then src.get i else v.get i

@[simp] theorem used_zero (v : Vector α cap) : used v 0 = [] := rfl

theorem getElem?_used (v : Vector α cap) (k i : ℕ) :
    (used v k)[i]? = if i < k then v[i]? else none := by
  rw [used, List.getElem?_take, Vector.getElem?_toList]

theorem used_succ_store (v : Vector α cap) {k : ℕ} (x : α) (h : k < cap) :
    used (store v k x) (k + 1) = used v k ++ [x] := by
  have hlen : (used v k).length = k := by
    rw [used, List.length_take, Vector.length_toList]
    omega
  apply List.ext_getElem?
  intro i
  rw [getElem?_used, List.getElem?_append, hlen, getElem?_used, store,
    Vector.getElem?_setIfInBounds]
  rcases lt_trichotomy i k with hi | rfl | hi
  · rw [if_pos (by omega), if_neg (by omega), if_pos hi, if_pos hi]
  · simp [h]
  · rw [if_neg (by omega), if_neg (by omega), List.getElem?_eq_none (by simp; omega)]

theorem used_store (v : Vector α cap) (k : ℕ) (x : α) : used (store v k x) k = used v k := by
  apply List.ext_getElem?
  intro i
  rw [getElem?_used, getElem?_used, store, Vector.getElem?_setIfInBounds]
  split_ifs
  · omega
  · omega
  · rfl
  · rfl

theorem used_copyFrom (v src : Vector α cap) (k : ℕ) : used (copyFrom v src k) k = used src k := by
  apply List.ext_getElem?
  intro i
  rw [getElem?_used, getElem?_used, copyFrom, Vector.getElem?_ofFn]
  split_ifs with hk hcap
  · exact (Vector.getElem?_eq_getElem hcap).symm
  · exact (Vector.getElem?_eq_none (by omega)).symm
  · rfl

end Buffer

end EbpfToolbox.Lib
