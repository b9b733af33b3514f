import EbpfToolbox.Lib.Machine
import Mathlib.Logic.Function.Basic

/-!
# Keyed state, one key at a time

Many monitors keep a map and touch it only at the key of the event they handle. A
`Shard` is what such a monitor does at one key: how an event changes the value
there and what it emits. The `product` runs one copy per key, and `product_run`
says that the copies do not notice each other: the value and the outputs at a key
are those of the events of that key alone.
-/

namespace EbpfToolbox.Lib

/-- Events `E` change an optional value `V` and emit outputs `O`. -/
structure Shard (V E O : Type) where
  next : Option V → E → Option V
  emit : Option V → E → Option O

namespace Shard

variable {K V E O : Type} (A : Shard V E O)

/-- The value after a sequence of events. -/
def value (es : List E) : Option V := es.foldl A.next none

/-- The outputs of a sequence of events that meets the value `v`. -/
def storyFrom : Option V → List E → List O
  | _, [] => []
  | v, e :: es => (A.emit v e).toList ++ storyFrom (A.next v e) es

def story (es : List E) : List O := A.storyFrom none es

theorem storyFrom_append (v : Option V) (es fs : List E) :
    A.storyFrom v (es ++ fs) = A.storyFrom v es ++ A.storyFrom (es.foldl A.next v) fs := by
  induction es generalizing v with
  | nil => rfl
  | cons e es ih =>
      rw [List.cons_append, storyFrom, storyFrom, ih, List.append_assoc]
      rfl

@[simp] theorem value_snoc (es : List E) (e : E) :
    A.value (es ++ [e]) = A.next (A.value es) e := by
  simp [value]

@[simp] theorem story_snoc (es : List E) (e : E) :
    A.story (es ++ [e]) = A.story es ++ (A.emit (A.value es) e).toList := by
  simp [story, storyFrom_append, storyFrom, value]

variable [DecidableEq K]

/-- One copy per key. The outputs are tagged with the key they come from. -/
def product (key : E → K) : Machine ((K → Option V) × List (K × O)) E where
  init := (fun _ => none, [])
  step s e :=
    (Function.update s.1 (key e) (A.next (s.1 (key e)) e),
      s.2 ++ (A.emit (s.1 (key e)) e).toList.map fun o => (key e, o))
  Allowed _ _ := True

/-- The outputs with one tag. -/
def outputs (k : K) (log : List (K × O)) : List O :=
  (log.filter fun o => o.1 = k).map Prod.snd

theorem outputs_append (k : K) (log log' : List (K × O)) :
    outputs k (log ++ log') = outputs k log ++ outputs k log' := by
  simp [outputs]

theorem outputs_tagged (k k' : K) (o : Option O) :
    outputs k (o.toList.map fun o => (k', o)) = if k' = k then o.toList else [] := by
  cases o with
  | none => simp [outputs]
  | some o => by_cases h : k' = k <;> simp [outputs, h]

/-- The copies are independent. -/
theorem product_run (key : E → K) (es : List E) (k : K) :
    ((A.product key).run es).1 k = A.value (es.filter fun e => key e = k) ∧
      outputs k ((A.product key).run es).2 = A.story (es.filter fun e => key e = k) := by
  induction es using List.reverseRecOn with
  | nil => exact ⟨rfl, rfl⟩
  | append_singleton es e ih =>
      obtain ⟨hvalue, hstory⟩ := ih
      rw [Machine.run_snoc, List.filter_append]
      generalize (A.product key).run es = s at hvalue hstory
      simp only [product, outputs_append, outputs_tagged]
      by_cases hk : key e = k
      · have hown : [e].filter (fun e => key e = k) = [e] := by simp [hk]
        subst hk
        rw [hown, value_snoc, story_snoc, ← hvalue, ← hstory, Function.update_self, if_pos rfl]
        exact ⟨rfl, rfl⟩
      · have hother : [e].filter (fun e => key e = k) = [] := by simp [hk]
        rw [hother, List.append_nil, Function.update_of_ne (Ne.symm hk), if_neg hk,
          List.append_nil]
        exact ⟨hvalue, hstory⟩

/-- When all events have one key, so have all outputs. -/
theorem outputs_run_of_key {key : E → K} {es : List E} {k : K} (h : ∀ e ∈ es, key e = k) :
    outputs k ((A.product key).run es).2 = ((A.product key).run es).2.map Prod.snd := by
  induction es using List.reverseRecOn with
  | nil => rfl
  | append_singleton es e ih =>
      rw [List.forall_mem_append, List.forall_mem_singleton] at h
      have hinit := ih h.1
      rw [Machine.run_snoc]
      generalize (A.product key).run es = s at hinit
      simp only [product, outputs_append, outputs_tagged, if_pos h.2, List.map_append, hinit]
      simp [Function.comp_def]

end Shard

end EbpfToolbox.Lib
