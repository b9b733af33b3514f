import EbpfToolbox.Lib.Machine
import EbpfToolbox.Lib.Program
import Mathlib.Logic.Function.Basic

/-!
# Interleaved programs

`n` threads work on one shared state. Each runs one program after the other, and the
calls of different threads come in any order. The machine `interleaved` has all of
these runs; in the machine `parallel` every thread has one program, begun at the start.

To reason about it, give every thread a ghost phase: what it has promised and not yet
done. A `Protocol` says which calls a phase permits and how the answer moves the
phase; `Follows` is the check of one program against it, done once and without the
other threads. `interleaved_invariant` and `parallel_invariant` put the threads
together: an invariant of the shared state and all phases that every permitted call
keeps holds throughout.

For an invariant of the shared state alone no phases are needed. A program `Relies` on
what the answers promise when it makes good calls only as long as the answers keep the
promise; `interleaved_relies` asks this of the programs that the run really begins.

When no two programs overlap the interleaving does not show: by `serial_run` the state is
that of the programs run to their ends one after the other.
-/

namespace EbpfToolbox.Lib

variable {n : ℕ} {C : Type} {R : C → Type} {S E G : Type}

/-- Thread `i` begins the program for `e`, or makes its next call. -/
inductive Turn (n : ℕ) (E : Type) : Type where
  | begin (i : Fin n) (e : E)
  | call (i : Fin n)

/-- All interleavings. A thread begins a program when it is done with the last one. -/
def interleaved (h : Fin n → S → (c : C) → R c × S) (prog : E → Program C R Unit) (s₀ : S) :
    Machine (S × (Fin n → Program C R Unit)) (Turn n E) where
  init := (s₀, fun _ => .pure ())
  step s e := match e with
    | .begin i e => (s.1, Function.update s.2 i (prog e))
    | .call i =>
        (((s.2 i).advance (h i) s.1).2, Function.update s.2 i ((s.2 i).advance (h i) s.1).1)
  Allowed s e := match e with
    | .begin i _ => (s.2 i).isDone = true
    | .call _ => True

instance (h : Fin n → S → (c : C) → R c × S) (prog : E → Program C R Unit) (s₀ : S)
    (s : S × (Fin n → Program C R Unit)) (e : Turn n E) :
    Decidable ((interleaved h prog s₀).Allowed s e) :=
  match e with
  | .begin i _ => inferInstanceAs (Decidable ((s.2 i).isDone = true))
  | .call _ => inferInstanceAs (Decidable True)

/-- Phases `G`: the calls a phase permits, and the phase after the answer. -/
structure Protocol (C : Type) (R : C → Type) (G : Type) where
  idle : G
  Permits : G → C → Prop
  next : G → (c : C) → R c → G

/-- Whatever the answers are, the program makes permitted calls only and ends idle. -/
def Program.Follows (P : Protocol C R G) : Program C R Unit → G → Prop
  | .pure _, g => g = P.idle
  | .call c k, g => P.Permits g c ∧ ∀ r, (k r).Follows P (P.next g c r)

theorem Program.Follows.idle_of_isDone {P : Protocol C R G} {p : Program C R Unit} {g : G}
    (hp : p.Follows P g) (hdone : p.isDone = true) : g = P.idle := by
  cases p with
  | pure a => exact hp
  | call c k => cases hdone

theorem Program.Follows.ite {P : Protocol C R G} {c : Prop} [Decidable c]
    {p q : Program C R Unit} {g : G} (hp : p.Follows P g) (hq : q.Follows P g) :
    (if c then p else q).Follows P g := by
  split_ifs
  · exact hp
  · exact hq

/-- One program after the other. -/
theorem Program.Follows.bind {P : Protocol C R G} {p : Program C R Unit} {g : G}
    (hp : p.Follows P g) {f : Unit → Program C R Unit} (hf : (f ()).Follows P P.idle) :
    (p >>= f).Follows P g := by
  induction p generalizing g with
  | pure a =>
      obtain rfl : g = P.idle := hp
      exact hf
  | call c k ih => exact ⟨hp.1, fun r => ih r (hp.2 r)⟩

/-- A state together with phases that every thread's program follows. -/
def Phased (P : Protocol C R G) (I : S → (Fin n → G) → Prop)
    (s : S × (Fin n → Program C R Unit)) : Prop :=
  ∃ gs, I s.1 gs ∧ ∀ i, (s.2 i).Follows P (gs i)

theorem Phased.of_all_done {P : Protocol C R G} {I : S → (Fin n → G) → Prop}
    {s : S × (Fin n → Program C R Unit)} (h : Phased P I s)
    (hdone : ∀ i, (s.2 i).isDone = true) : I s.1 fun _ => P.idle := by
  rcases h with ⟨gs, hI, hfollows⟩
  have hidle : gs = fun _ => P.idle := funext fun i => (hfollows i).idle_of_isDone (hdone i)
  rwa [hidle] at hI

/-- Thread `i` makes its next call. -/
def turn (h : Fin n → S → (c : C) → R c × S) (s : S × (Fin n → Program C R Unit)) (i : Fin n) :
    S × (Fin n → Program C R Unit) :=
  (((s.2 i).advance (h i) s.1).2, Function.update s.2 i ((s.2 i).advance (h i) s.1).1)

/-- A call that the protocol permits keeps the phases in step with the programs. -/
theorem Phased.turn {h : Fin n → S → (c : C) → R c × S} {P : Protocol C R G}
    {I : S → (Fin n → G) → Prop}
    (hcall : ∀ s gs i c, I s gs → P.Permits (gs i) c →
      I (h i s c).2 (Function.update gs i (P.next (gs i) c (h i s c).1)))
    {s : S × (Fin n → Program C R Unit)} (hs : Phased P I s) (i : Fin n) :
    Phased P I (turn h s i) := by
  rcases hs with ⟨gs, hI, hfollows⟩
  have hi := hfollows i
  cases hp : s.2 i with
  | pure a =>
      have hstay : Lib.turn h s i = s := by
        simp only [Lib.turn, hp, Program.advance]
        rw [← hp, Function.update_eq_self]
      rw [hstay]
      exact ⟨gs, hI, hfollows⟩
  | call c k =>
      rw [hp] at hi
      rcases hi with ⟨hpermits, hk⟩
      refine ⟨Function.update gs i (P.next (gs i) c (h i s.1 c).1), ?_, fun j => ?_⟩
      · simp only [Lib.turn, hp, Program.advance]
        exact hcall s.1 gs i c hI hpermits
      · simp only [Lib.turn, hp, Program.advance]
        by_cases hj : j = i
        · subst hj
          simp only [Function.update_self]
          exact hk _
        · simp only [Function.update_of_ne hj]
          exact hfollows j

/-- The rule for interleaved programs. -/
theorem interleaved_invariant {h : Fin n → S → (c : C) → R c × S} {prog : E → Program C R Unit}
    {s₀ : S} (P : Protocol C R G) (I : S → (Fin n → G) → Prop) (h0 : I s₀ fun _ => P.idle)
    (hprog : ∀ e, (prog e).Follows P P.idle)
    (hcall : ∀ s gs i c, I s gs → P.Permits (gs i) c →
      I (h i s c).2 (Function.update gs i (P.next (gs i) c (h i s c).1)))
    {es : List (Turn n E)} (hv : (interleaved h prog s₀).Valid es) :
    Phased P I ((interleaved h prog s₀).run es) := by
  refine Machine.invariant (M := interleaved h prog s₀) (I := Phased P I) ?_ ?_ hv
  · exact ⟨fun _ => P.idle, h0, fun _ => rfl⟩
  intro s e hs ha
  cases e with
  | begin i e =>
      -- a thread that begins was idle, so the phases stay as they are
      rcases hs with ⟨gs, hI, hfollows⟩
      have hidle : gs i = P.idle := (hfollows i).idle_of_isDone ha
      refine ⟨gs, hI, fun j => ?_⟩
      by_cases hj : j = i
      · subst hj
        simp only [interleaved, Function.update_self, hidle]
        exact hprog e
      · simp only [interleaved, Function.update_of_ne hj]
        exact hfollows j
  | call i => exact hs.turn hcall i

/-! ## Promises about the answers -/

/-- While the answers are as promised in `Ans`, the program makes `Ok` calls only. -/
def Program.Relies (Ok : C → Prop) (Ans : (c : C) → R c → Prop) : Program C R Unit → Prop
  | .pure _ => True
  | .call c k => Ok c ∧ ∀ r, Ans c r → (k r).Relies Ok Ans

/-- A state with the invariant `J`, and threads that rely on no more than it promises. -/
def Relying (J : S → Prop) (Ok : C → Prop) (Ans : (c : C) → R c → Prop)
    (s : S × (Fin n → Program C R Unit)) : Prop :=
  J s.1 ∧ ∀ i, (s.2 i).Relies Ok Ans

theorem Relying.turn {h : Fin n → S → (c : C) → R c × S} {J : S → Prop} {Ok : C → Prop}
    {Ans : (c : C) → R c → Prop}
    (hcall : ∀ s i c, J s → Ok c → Ans c (h i s c).1 ∧ J (h i s c).2)
    {s : S × (Fin n → Program C R Unit)} (hs : Relying J Ok Ans s) (i : Fin n) :
    Relying J Ok Ans (turn h s i) := by
  rcases hs with ⟨hJ, hall⟩
  have hi := hall i
  cases hp : s.2 i with
  | pure a =>
      have hstay : Lib.turn h s i = s := by
        simp only [Lib.turn, hp, Program.advance]
        rw [← hp, Function.update_eq_self]
      rw [hstay]
      exact ⟨hJ, hall⟩
  | call c k =>
      rw [hp] at hi
      rcases hcall s.1 i c hJ hi.1 with ⟨hans, hJ'⟩
      simp only [Relying, Lib.turn, hp, Program.advance]
      refine ⟨hJ', fun j => ?_⟩
      by_cases hj : j = i
      · subst hj
        simp only [Function.update_self]
        exact hi.2 _ hans
      · simp only [Function.update_of_ne hj]
        exact hall j

/-- The rule for an invariant that good calls keep and that makes the answers good. -/
theorem interleaved_relies {h : Fin n → S → (c : C) → R c × S} {prog : E → Program C R Unit}
    {s₀ : S} {Ok : C → Prop} {Ans : (c : C) → R c → Prop} (J : S → Prop) (h0 : J s₀)
    (hcall : ∀ s i c, J s → Ok c → Ans c (h i s c).1 ∧ J (h i s c).2) {es : List (Turn n E)}
    (hprog : ∀ i e, .begin i e ∈ es → (prog e).Relies Ok Ans) :
    Relying J Ok Ans ((interleaved h prog s₀).run es) := by
  induction es using List.reverseRecOn with
  | nil => exact ⟨h0, fun _ => trivial⟩
  | append_singleton es e ih =>
      have hs := ih fun i e he => hprog i e (List.mem_append_left _ he)
      rw [Machine.run_snoc]
      cases e with
      | begin i e =>
          refine ⟨hs.1, fun j => ?_⟩
          by_cases hj : j = i
          · subst hj
            simp only [interleaved, Function.update_self]
            exact hprog j e (by simp)
          · simp only [interleaved, Function.update_of_ne hj]
            exact hs.2 j
      | call i => exact hs.turn hcall i

/-! ## Programs that do not overlap -/

/-- A program is begun only when none is under way. -/
def Alone (s : S × (Fin n → Program C R Unit)) : Turn n E → Prop
  | .begin _ _ => ∀ i, (s.2 i).isDone = true
  | .call _ => True

instance (s : S × (Fin n → Program C R Unit)) (e : Turn n E) : Decidable (Alone s e) :=
  match e with
  | .begin _ _ => inferInstanceAs (Decidable (∀ _, _))
  | .call _ => inferInstanceAs (Decidable True)

theorem Program.exec_of_isDone {p : Program C R Unit} (hp : p.isDone = true)
    (h : S → (c : C) → R c × S) (s : S) : (p.exec h s).2 = s := by
  cases p with
  | pure a => rfl
  | call c k => cases hp

theorem Program.exec_advance (p : Program C R Unit) (h : S → (c : C) → R c × S) (s : S) :
    (p.advance h s).1.exec h (p.advance h s).2 = p.exec h s := by
  cases p with
  | pure a => rfl
  | call c k => rfl

/-- At most one program is under way, and `J` holds once it is run to its end. -/
def Ending (h : Fin n → S → (c : C) → R c × S) (J : S → Prop)
    (s : S × (Fin n → Program C R Unit)) : Prop :=
  ((∀ i, (s.2 i).isDone = true) ∧ J s.1) ∨
    ∃ i, (∀ j, j ≠ i → (s.2 j).isDone = true) ∧ J ((s.2 i).exec (h i) s.1).2

theorem Ending.settle {h : Fin n → S → (c : C) → R c × S} {J : S → Prop}
    {s : S × (Fin n → Program C R Unit)} (hs : Ending h J s)
    (hdone : ∀ i, (s.2 i).isDone = true) : J s.1 := by
  rcases hs with ⟨-, hJ⟩ | ⟨i, -, hJ⟩
  · exact hJ
  · rwa [Program.exec_of_isDone (hdone i)] at hJ

theorem Ending.turn {h : Fin n → S → (c : C) → R c × S} {J : S → Prop}
    {s : S × (Fin n → Program C R Unit)} (hs : Ending h J s) (i : Fin n) :
    Ending h J (turn h s i) := by
  by_cases hi : (s.2 i).isDone = true
  · -- nothing to do for `i`
    have hstay : Lib.turn h s i = s := by
      cases hp : s.2 i with
      | pure a =>
          simp only [Lib.turn, hp, Program.advance]
          rw [← hp, Function.update_eq_self]
      | call c k =>
          rw [hp] at hi
          cases hi
    rwa [hstay]
  · rcases hs with ⟨hall, -⟩ | ⟨k, hothers, hJ⟩
    · exact absurd (hall i) hi
    · obtain rfl : i = k := by
        by_contra hik
        exact hi (hothers i hik)
      refine Or.inr ⟨i, fun j hj => ?_, ?_⟩
      · simp only [Lib.turn, Function.update_of_ne hj]
        exact hothers j hj
      · simp only [Lib.turn, Function.update_self, Program.exec_advance]
        exact hJ

/-- The programs that were begun, and by whom. -/
def begun (es : List (Turn n E)) : List (Fin n × E) :=
  es.filterMap fun
    | .begin i e => some (i, e)
    | .call _ => none

theorem begun_snoc (es : List (Turn n E)) (e : Turn n E) :
    begun (es ++ [e]) = begun es ++ begun [e] :=
  List.filterMap_append

/-- The rule for programs that do not overlap. -/
theorem serial_run {h : Fin n → S → (c : C) → R c × S} {prog : E → Program C R Unit} {s₀ : S}
    {es : List (Turn n E)} (hv : ((interleaved h prog s₀).restrict Alone).Valid es)
    (hdone : ∀ i, (((interleaved h prog s₀).run es).2 i).isDone = true) :
    ((interleaved h prog s₀).run es).1 =
      (begun es).foldl (fun s p => ((prog p.2).exec (h p.1) s).2) s₀ := by
  suffices hending : Ending h (· = (begun es).foldl (fun s p => ((prog p.2).exec (h p.1) s).2) s₀)
      ((interleaved h prog s₀).run es) from hending.settle hdone
  clear hdone
  induction es using List.reverseRecOn with
  | nil => exact Or.inl ⟨fun _ => rfl, rfl⟩
  | append_singleton es e ih =>
      rw [Machine.valid_snoc] at hv
      have hs := ih hv.1
      rw [Machine.run_snoc, begun_snoc, List.foldl_append]
      cases e with
      | begin i e =>
          have halone : ∀ j, (((interleaved h prog s₀).run es).2 j).isDone = true := hv.2.2
          have hstate := hs.settle halone
          generalize (interleaved h prog s₀).run es = s at hstate halone
          refine Or.inr ⟨i, fun j hj => ?_, ?_⟩
          · simp only [interleaved, Function.update_of_ne hj]
            exact halone j
          · simp only [interleaved, Function.update_self, hstate]
            rfl
      | call i => exact hs.turn i

/-! ## One program per thread -/

/-- All interleavings of one program per thread; a label names the thread whose turn it is. -/
def parallel (h : Fin n → S → (c : C) → R c × S) (prog : Fin n → Program C R Unit) (s₀ : S) :
    Machine (S × (Fin n → Program C R Unit)) (Fin n) where
  init := (s₀, prog)
  step := turn h
  Allowed _ _ := True

/-- The rule for one program per thread, thread `i` starting in phase `g₀ i`. -/
theorem parallel_invariant {h : Fin n → S → (c : C) → R c × S} {prog : Fin n → Program C R Unit}
    {s₀ : S} (P : Protocol C R G) (I : S → (Fin n → G) → Prop) (g₀ : Fin n → G) (h0 : I s₀ g₀)
    (hprog : ∀ i, (prog i).Follows P (g₀ i))
    (hcall : ∀ s gs i c, I s gs → P.Permits (gs i) c →
      I (h i s c).2 (Function.update gs i (P.next (gs i) c (h i s c).1)))
    (es : List (Fin n)) : Phased P I ((parallel h prog s₀).run es) :=
  Machine.invariant_of_any (M := parallel h prog s₀) (I := Phased P I) ⟨g₀, h0, hprog⟩
    (fun _ i hs => hs.turn hcall i) es

/-- The program makes at most `k` calls, whatever they answer. -/
def Program.Within : Program C R Unit → ℕ → Prop
  | .pure _, _ => True
  | .call _ f, k => 0 < k ∧ ∀ r, (f r).Within (k - 1)

theorem Program.Within.advance {k : ℕ} {p : Program C R Unit} (hp : p.Within k)
    (h : S → (c : C) → R c × S) (s : S) : (p.advance h s).1.Within (k - 1) := by
  cases p with
  | pure a => exact trivial
  | call c f => exact hp.2 _

theorem Program.Within.isDone {p : Program C R Unit} (hp : p.Within 0) : p.isDone = true := by
  cases p with
  | pure a => rfl
  | call c f => exact absurd hp.1 (Nat.lt_irrefl 0)

/-- A thread is done after as many turns as its program can make calls. -/
theorem parallel_isDone {h : Fin n → S → (c : C) → R c × S} {prog : Fin n → Program C R Unit}
    {s₀ : S} {k : ℕ} (hprog : ∀ i, (prog i).Within k) (es : List (Fin n)) (i : Fin n)
    (hk : k ≤ es.count i) : (((parallel h prog s₀).run es).2 i).isDone = true := by
  have hwithin : (((parallel h prog s₀).run es).2 i).Within (k - es.count i) := by
    clear hk
    induction es using List.reverseRecOn with
    | nil => exact hprog i
    | append_singleton es j ih =>
        rw [Machine.run_snoc, List.count_append, ← Nat.sub_sub]
        show ((turn h _ j).2 i).Within _
        by_cases hj : i = j
        · subst hj
          simp only [turn, Function.update_self, List.count_singleton_self]
          exact ih.advance _ _
        · simp only [turn, Function.update_of_ne hj]
          simpa [List.count_singleton, Ne.symm hj] using ih
  rw [Nat.sub_eq_zero_of_le hk] at hwithin
  exact hwithin.isDone

end EbpfToolbox.Lib
