import Mathlib.Data.Nat.Notation

/-!
# Programs of atomic calls

A `Program` is a tree of calls on a shared state: each node makes one call and
goes on with what the call returned. The same text has two meanings. `exec` runs
it to its end without interruption; `advance` makes a single call, so that the
calls of several programs can be interleaved.

`Ensures` is a third meaning, for calls whose answers are not computed from a state but
given by the outside: whatever admissible answers come, the program ends within a number
of calls and in a state with the postcondition.
-/

namespace EbpfToolbox.Lib

/-- Calls `C`, where call `c` returns a value of type `R c`. -/
inductive Program (C : Type) (R : C → Type) (α : Type) : Type where
  | pure (a : α)
  | call (c : C) (k : R c → Program C R α)

namespace Program

variable {C : Type} {R : C → Type} {S α β : Type}

def bind : Program C R α → (α → Program C R β) → Program C R β
  | pure a, f => f a
  | call c k, f => call c fun r => (k r).bind f

instance : Monad (Program C R) where
  pure := Program.pure
  bind := Program.bind

/-- The program that makes one call and returns its result. -/
def lift (c : C) : Program C R (R c) := call c pure

variable (h : S → (c : C) → R c × S)

def exec : Program C R α → S → α × S
  | pure a, s => (a, s)
  | call c k, s => exec (k (h s c).1) (h s c).2

/-- One call; a finished program stays as it is. -/
def advance : Program C R α → S → Program C R α × S
  | pure a, s => (pure a, s)
  | call c k, s => (k (h s c).1, (h s c).2)

/-- The call a program makes next. -/
def next : Program C R α → Option C
  | pure _ => none
  | call c _ => some c

def isDone (p : Program C R α) : Bool := p.next.isNone

@[simp] theorem exec_pure (a : α) (s : S) :
    (Pure.pure a : Program C R α).exec h s = (a, s) := rfl

@[simp] theorem exec_bind (p : Program C R α) (f : α → Program C R β) (s : S) :
    (p >>= f).exec h s = (f (p.exec h s).1).exec h (p.exec h s).2 := by
  induction p generalizing s with
  | pure a => rfl
  | call c k ih => exact ih _ _

/-- If no single call sees what `view` forgets, no program does. -/
theorem exec_view {view : S → S}
    (hcall : ∀ s c, (h (view s) c).1 = (h s c).1 ∧ view (h (view s) c).2 = view (h s c).2)
    (p : Program C R α) {s s' : S} (hs : view s = view s') :
    (p.exec h s).1 = (p.exec h s').1 ∧ view (p.exec h s).2 = view (p.exec h s').2 := by
  induction p generalizing s s' with
  | pure a => exact ⟨rfl, hs⟩
  | call c k ih =>
      obtain ⟨hval, hview⟩ := hcall s c
      obtain ⟨hval', hview'⟩ := hcall s' c
      rw [hs] at hval hview
      simp only [exec, ← hval, ← hval']
      exact ih _ (hview.symm.trans hview')

/-! ## Pre- and postconditions -/

/-- Within `b` calls, and whatever answers come that meet `Ans` in the state they are asked
in: no call is a fault (`step` gives `none`), and `post` holds at the end. -/
def Ensures (Ans : S → (c : C) → R c → Prop) (step : S → (c : C) → R c → Option S)
    (post : α → S → Prop) : Program C R α → ℕ → S → Prop
  | pure a, _, s => post a s
  | call _ _, 0, _ => False
  | call c k, b + 1, s =>
      ∀ r, Ans s c r → ∃ s', step s c r = some s' ∧ (k r).Ensures Ans step post b s'

section Ensures

variable {Ans : S → (c : C) → R c → Prop} {step : S → (c : C) → R c → Option S}

theorem Ensures.mono {post post' : α → S → Prop} {p : Program C R α} {b b' : ℕ} {s : S}
    (hp : p.Ensures Ans step post b s) (hpost : ∀ a s, post a s → post' a s) (hb : b ≤ b') :
    p.Ensures Ans step post' b' s := by
  induction p generalizing b b' s with
  | pure a => exact hpost a s hp
  | call c k ih =>
      cases b with
      | zero => exact hp.elim
      | succ b =>
          obtain ⟨b', rfl⟩ : ∃ d, b' = d + 1 := ⟨b' - 1, by omega⟩
          intro r hr
          rcases hp r hr with ⟨s', hs', hk⟩
          exact ⟨s', hs', ih r hk (by omega)⟩

/-- The rule of sequential composition. -/
theorem Ensures.bind {post : β → S → Prop} {p : Program C R α} {f : α → Program C R β}
    {b b' : ℕ} {s : S}
    (hp : p.Ensures Ans step (fun a s => (f a).Ensures Ans step post b' s) b s) :
    (p >>= f).Ensures Ans step post (b + b') s := by
  induction p generalizing b s with
  | pure a => exact Ensures.mono hp (fun _ _ h => h) (Nat.le_add_left _ _)
  | call c k ih =>
      cases b with
      | zero => exact hp.elim
      | succ b =>
          rw [Nat.add_right_comm]
          intro r hr
          rcases hp r hr with ⟨s', hs', hk⟩
          exact ⟨s', hs', ih r hk⟩

end Ensures

end Program

end EbpfToolbox.Lib
