import Mathlib.Data.List.Induction

/-!
# Guarded machines and their runs

A `Machine` is an initial state, a total step function and a guard that says
which labels may fire where. A run is a list of labels, oldest first; it is
`Valid` when every label is allowed in the state it fires in. Prefixes of valid
runs are valid, so a statement about the last state of every valid run is a
statement about every point of every run.

`restrict` adds a condition to the guard: the runs of the restricted machine
are the runs of the original one whose steps all meet the condition.
-/

namespace EbpfToolbox.Lib

universe u v

structure Machine (σ : Type u) (ε : Type v) where
  init : σ
  step : σ → ε → σ
  Allowed : σ → ε → Prop

namespace Machine

variable {σ : Type u} {ε : Type v} (M : Machine σ ε)

def runFrom (s : σ) (es : List ε) : σ := es.foldl M.step s

def run (es : List ε) : σ := M.runFrom M.init es

def ValidFrom : σ → List ε → Prop
  | _, [] => True
  | s, e :: es => M.Allowed s e ∧ ValidFrom (M.step s e) es

def Valid (es : List ε) : Prop := M.ValidFrom M.init es

instance decidableValidFrom [∀ s e, Decidable (M.Allowed s e)] :
    ∀ s es, Decidable (M.ValidFrom s es)
  | _, [] => inferInstanceAs (Decidable True)
  | s, e :: es =>
      have := decidableValidFrom (M.step s e) es
      inferInstanceAs (Decidable (M.Allowed s e ∧ M.ValidFrom (M.step s e) es))

instance [∀ s e, Decidable (M.Allowed s e)] (es : List ε) : Decidable (M.Valid es) :=
  inferInstanceAs (Decidable (M.ValidFrom M.init es))

@[simp] theorem runFrom_nil (s : σ) : M.runFrom s [] = s := rfl

@[simp] theorem runFrom_cons (s : σ) (e : ε) (es : List ε) :
    M.runFrom s (e :: es) = M.runFrom (M.step s e) es := rfl

theorem runFrom_append (s : σ) (es fs : List ε) :
    M.runFrom s (es ++ fs) = M.runFrom (M.runFrom s es) fs := by
  simp [runFrom]

theorem run_snoc (es : List ε) (e : ε) : M.run (es ++ [e]) = M.step (M.run es) e := by
  simp [run, runFrom_append]

theorem validFrom_append (s : σ) (es fs : List ε) :
    M.ValidFrom s (es ++ fs) ↔ M.ValidFrom s es ∧ M.ValidFrom (M.runFrom s es) fs := by
  induction es generalizing s with
  | nil => simp [ValidFrom]
  | cons e es ih => simp [ValidFrom, ih, and_assoc]

theorem valid_snoc (es : List ε) (e : ε) :
    M.Valid (es ++ [e]) ↔ M.Valid es ∧ M.Allowed (M.run es) e := by
  simp [Valid, validFrom_append, ValidFrom, run]

variable {M}

/-- Every step of a valid run was allowed where it fired. -/
theorem allowed_at {es pre : List ε} {e : ε} (hv : M.Valid es) (hpre : pre ++ [e] <+: es) :
    M.Allowed (M.run pre) e := by
  rcases hpre with ⟨post, rfl⟩
  exact ((M.valid_snoc pre e).1 ((M.validFrom_append M.init (pre ++ [e]) post).1 hv).1).2

/-- The run rule: what holds at the start and is kept by every allowed step
holds at the end of every valid run. -/
theorem invariant {I : σ → Prop} (h0 : I M.init)
    (hstep : ∀ s e, I s → M.Allowed s e → I (M.step s e)) {es : List ε}
    (hv : M.Valid es) : I (M.run es) := by
  induction es using List.reverseRecOn with
  | nil => exact h0
  | append_singleton es e ih =>
      rw [valid_snoc] at hv
      rw [run_snoc]
      exact hstep _ _ (ih hv.1) hv.2

/-- The run rule for what every step keeps, allowed or not. -/
theorem invariant_of_any {I : σ → Prop} (h0 : I M.init) (hstep : ∀ s e, I s → I (M.step s e))
    (es : List ε) : I (M.run es) := by
  induction es using List.reverseRecOn with
  | nil => exact h0
  | append_singleton es e ih =>
      rw [run_snoc]
      exact hstep _ _ ih

variable (M) in
/-- The same machine, with `C` added to the guard. -/
def restrict (C : σ → ε → Prop) : Machine σ ε where
  init := M.init
  step := M.step
  Allowed s e := M.Allowed s e ∧ C s e

/-- The run rule for runs whose steps all meet `C`. -/
theorem invariant_restrict {C : σ → ε → Prop} {I : σ → Prop} (h0 : I M.init)
    (hstep : ∀ s e, I s → M.Allowed s e → C s e → I (M.step s e)) {es : List ε}
    (hv : (M.restrict C).Valid es) : I (M.run es) :=
  invariant (M := M.restrict C) h0 (fun s e h ha => hstep s e h ha.1 ha.2) hv

instance (C : σ → ε → Prop) [∀ s e, Decidable (M.Allowed s e)] [∀ s e, Decidable (C s e)]
    (s : σ) (e : ε) : Decidable ((M.restrict C).Allowed s e) :=
  inferInstanceAs (Decidable (M.Allowed s e ∧ C s e))

/-! ## What the steps of a run yield -/

section Collect

variable {X : Type*} (f : σ → ε → Option X)

variable (M) in
/-- What `f` sees at each step, given the state before it. -/
def collect (es : List ε) : List X :=
  (es.foldl (fun p e => (M.step p.1 e, p.2 ++ (f p.1 e).toList)) (M.init, [])).2

theorem collect_snoc (es : List ε) (e : ε) :
    M.collect f (es ++ [e]) = M.collect f es ++ (f (M.run es) e).toList := by
  have hrun : (es.foldl (fun p e => (M.step p.1 e, p.2 ++ (f p.1 e).toList)) (M.init, [])).1 =
      M.run es := by
    induction es using List.reverseRecOn with
    | nil => rfl
    | append_singleton es e ih =>
        rw [run_snoc, ← ih, List.foldl_append]
        rfl
  rw [collect, List.foldl_append, List.foldl_cons, List.foldl_nil, hrun]
  rfl

/-- The run rule for a relation between what was collected and the state. -/
theorem collect_invariant {R : List X → σ → Prop} (h0 : R [] M.init)
    (hstep : ∀ xs s e, R xs s → R (xs ++ (f s e).toList) (M.step s e)) (es : List ε) :
    R (M.collect f es) (M.run es) := by
  induction es using List.reverseRecOn with
  | nil => exact h0
  | append_singleton es e ih =>
      rw [collect_snoc, run_snoc]
      exact hstep _ _ _ ih

end Collect

/-! ## Two runs -/

variable (M) in
/-- `view` forgets a part of the state and `low` a part of the label. The machine
`Erases` that part when what is left after a step is computed from what was left
before it. -/
def Erases (view : σ → σ) (low : ε → ε) : Prop :=
  ∀ s e, view (M.step s e) = view (M.step (view s) (low e))

variable {view : σ → σ} {low : ε → ε}

theorem Erases.runFrom_eq (h : M.Erases view low) {es es' : List ε}
    (he : es.map low = es'.map low) {s s' : σ} (hs : view s = view s') :
    view (M.runFrom s es) = view (M.runFrom s' es') := by
  induction es generalizing es' s s' with
  | nil =>
      obtain rfl : es' = [] := by simpa using he.symm
      exact hs
  | cons e es ih =>
      cases es' with
      | nil => simp at he
      | cons e' es' =>
          obtain ⟨hhead, htail⟩ := List.cons.inj he
          apply ih htail
          calc view (M.step s e) = view (M.step (view s) (low e)) := h s e
            _ = view (M.step (view s') (low e')) := by rw [hs, hhead]
            _ = view (M.step s' e') := (h s' e').symm

/-- Two runs that differ only in what is erased look the same at every point. -/
theorem Erases.run_take_eq (h : M.Erases view low) {es es' : List ε}
    (he : es.map low = es'.map low) (k : ℕ) :
    view (M.run (es.take k)) = view (M.run (es'.take k)) := by
  apply h.runFrom_eq _ rfl
  rw [List.map_take, List.map_take, he]

/-! ## Simulation -/

/-- The run rule for two machines that take the same labels: a relation that every
step of the first keeps, when the second follows, relates the ends of every run. -/
theorem simulation {τ : Type*} {N : Machine τ ε} {R : σ → τ → Prop} (h0 : R M.init N.init)
    (hstep : ∀ s t e, R s t → M.Allowed s e → R (M.step s e) (N.step t e)) {es : List ε}
    (hv : M.Valid es) : R (M.run es) (N.run es) := by
  induction es using List.reverseRecOn with
  | nil => exact h0
  | append_singleton es e ih =>
      rw [valid_snoc] at hv
      rw [run_snoc, run_snoc]
      exact hstep _ _ _ (ih hv.1) hv.2

end Machine

end EbpfToolbox.Lib
