import EbpfToolbox.Ipc.Msgqueue
import EbpfToolbox.Lib.Interleave
import Mathlib.Data.Fintype.Card
import Mathlib.Order.Bounds.Defs

/-!
# Concurrent updates of the maximum

`stats_update_max` reads the cell, gives up when its candidate is not larger and swaps
it in otherwise; a lost swap is tried again, 16 times at most. Here any number of calls
interleave, with each read and each swap as one step.

A swap is lost only to a call that has just won one, and a call wins at most once. So
among 16 calls nobody loses 16 times.
-/

namespace EbpfToolbox.Ipc.Msgqueue

open EbpfToolbox.Lib

/-! ## The phases of one call -/

/-- Where a call stands: before a read or before a swap, with the tries left after this
one, or returned. -/
inductive MaxPhase where
  | returned
  | loading (candidate : UInt64) (tries : ℕ)
  | swapping (candidate old : UInt64) (tries : ℕ)
deriving DecidableEq

/-- The phase of a call with `tries` tries left. -/
def MaxPhase.attempt (candidate : UInt64) : ℕ → MaxPhase
  | 0 => .returned
  | tries + 1 => .loading candidate tries

def maxProtocol : Protocol Helper Helper.Result MaxPhase where
  idle := .returned
  Permits g c := match g, c with
    | .loading _ _, .loadMax => True
    | .swapping candidate old _, .casMax old' new => old' = old ∧ new = candidate
    | _, _ => False
  next g c := match g, c with
    | .loading candidate tries, .loadMax => fun old : UInt64 =>
        if candidate ≤ old then .returned else .swapping candidate old tries
    | .swapping candidate old tries, .casMax _ _ => fun seen : UInt64 =>
        if seen = old then .returned else .attempt candidate tries
    | g, _ => fun _ => g

theorem statsUpdateMax_follows (candidate : UInt64) (tries : ℕ) :
    (statsUpdateMax candidate tries).Follows maxProtocol (.attempt candidate tries) := by
  induction tries with
  | zero => exact rfl
  | succ tries ih =>
      refine ⟨trivial, fun old : UInt64 => ?_⟩
      show (if candidate ≤ old then (pure () : Prog Unit) else
          casMax old candidate >>= fun seen =>
            if seen = old then pure () else statsUpdateMax candidate tries).Follows maxProtocol
        (if candidate ≤ old then .returned else .swapping candidate old tries)
      by_cases hle : candidate ≤ old
      · rw [if_pos hle, if_pos hle]
        exact rfl
      · rw [if_neg hle, if_neg hle]
        refine ⟨⟨rfl, rfl⟩, fun seen : UInt64 => ?_⟩
        show (if seen = old then (pure () : Prog Unit)
            else statsUpdateMax candidate tries).Follows maxProtocol
          (if seen = old then .returned else .attempt candidate tries)
        by_cases hseen : seen = old
        · rw [if_pos hseen, if_pos hseen]
          exact rfl
        · rw [if_neg hseen, if_neg hseen]
          exact ih

/-- A call makes a read and a swap for each of its tries at most. -/
theorem statsUpdateMax_within (candidate : UInt64) (tries : ℕ) :
    (statsUpdateMax candidate tries).Within (2 * tries) := by
  induction tries with
  | zero => exact trivial
  | succ tries ih =>
      refine ⟨by omega, fun old : UInt64 => ?_⟩
      show (if candidate ≤ old then (pure () : Prog Unit) else
          casMax old candidate >>= fun seen =>
            if seen = old then pure () else statsUpdateMax candidate tries).Within _
      by_cases hle : candidate ≤ old
      · rw [if_pos hle]
        exact trivial
      · rw [if_neg hle]
        refine ⟨by omega, fun seen : UInt64 => ?_⟩
        show (if seen = old then (pure () : Prog Unit)
            else statsUpdateMax candidate tries).Within _
        by_cases hseen : seen = old
        · rw [if_pos hseen]
          exact trivial
        · rw [if_neg hseen]
          exact ih

/-! ## All calls together -/

variable {n : ℕ}

/-- The calls that have not returned. -/
def running (gs : Fin n → MaxPhase) : Finset (Fin n) := Finset.univ.filter (gs · ≠ .returned)

theorem running_update_returned {gs : Fin n → MaxPhase} {i : Fin n} (hi : gs i ≠ .returned) :
    (running (Function.update gs i .returned)).card + 1 = (running gs).card := by
  have herase : running (Function.update gs i .returned) = (running gs).erase i := by
    ext j
    by_cases hj : j = i
    · simp [running, hj]
    · simp [running, hj]
  rw [herase]
  exact Finset.card_erase_add_one (by simp [running, hi])

theorem running_update {gs : Fin n → MaxPhase} {i : Fin n} (hi : gs i ≠ .returned) {g : MaxPhase}
    (hg : g ≠ .returned) : running (Function.update gs i g) = running gs := by
  ext j
  by_cases hj : j = i
  · simp [running, hj, hi, hg]
  · simp [running, hj]

/-- The phase is one of a call with this candidate. -/
def MaxPhase.Of (candidate : UInt64) : MaxPhase → Prop
  | .returned => True
  | .loading c tries => c = candidate ∧ tries < 16
  | .swapping c old tries => c = candidate ∧ old < c ∧ tries < 16

/-- The swaps a call has lost, with the one it is about to lose when the cell is no longer
what it has read. -/
def MaxPhase.lost (cell : UInt64) : MaxPhase → ℕ
  | .returned => 0
  | .loading _ tries => 15 - tries
  | .swapping _ old tries => if old = cell then 15 - tries else 16 - tries

theorem MaxPhase.lost_le (g : MaxPhase) (cell cell' : UInt64) : g.lost cell' ≤ g.lost cell + 1 := by
  cases g with
  | returned => exact Nat.zero_le _
  | loading c tries => exact Nat.le_succ _
  | swapping c old tries =>
      simp only [MaxPhase.lost]
      split_ifs <;> omega

/-- With `init` the first value of the cell: nobody has lost more swaps than there are
calls that have won one. -/
structure MaxInv (init : UInt64) (candidate : Fin n → UInt64) (s : State)
    (gs : Fin n → MaxPhase) : Prop where
  cell : s.queuedMaxNs = init ∨ ∃ i, s.queuedMaxNs = candidate i
  own : ∀ i, (gs i).Of (candidate i)
  wins : ∃ wins, wins + (running gs).card ≤ n ∧ ∀ i, (gs i).lost s.queuedMaxNs ≤ wins
  returned : n ≤ 16 → ∀ i, gs i = .returned → candidate i ≤ s.queuedMaxNs

namespace MaxInv

variable {init : UInt64} {candidate : Fin n → UInt64} {s : State} {gs : Fin n → MaxPhase}
  {i : Fin n}

/-- One call moves to `g`; the cell does not change. -/
theorem of_same_cell (h : MaxInv init candidate s gs) (hi : gs i ≠ .returned) {g : MaxPhase}
    (hown : g.Of (candidate i))
    (hlost : ∀ wins, (gs i).lost s.queuedMaxNs ≤ wins → g.lost s.queuedMaxNs ≤ wins)
    (hreturned : n ≤ 16 → g = .returned → candidate i ≤ s.queuedMaxNs) :
    MaxInv init candidate s (Function.update gs i g) where
  cell := h.cell
  own j := by
    by_cases hj : j = i
    · subst hj
      rwa [Function.update_self]
    · rw [Function.update_of_ne hj]
      exact h.own j
  wins := by
    obtain ⟨wins, hcard, hle⟩ := h.wins
    refine ⟨wins, ?_, fun j => ?_⟩
    · by_cases hg : g = .returned
      · have hcard' := running_update_returned hi
        rw [hg]
        omega
      · rwa [running_update hi hg]
    · by_cases hj : j = i
      · subst hj
        rw [Function.update_self]
        exact hlost wins (hle j)
      · rw [Function.update_of_ne hj]
        exact hle j
  returned hn j hret := by
    by_cases hj : j = i
    · subst hj
      rw [Function.update_self] at hret
      exact hreturned hn hret
    · rw [Function.update_of_ne hj] at hret
      exact h.returned hn j hret

/-- One call swaps its candidate in and returns. -/
theorem win (h : MaxInv init candidate s gs) (hi : gs i ≠ .returned)
    (hlt : s.queuedMaxNs < candidate i) :
    MaxInv init candidate { s with queuedMaxNs := candidate i }
      (Function.update gs i .returned) where
  cell := Or.inr ⟨i, rfl⟩
  own j := by
    by_cases hj : j = i
    · subst hj
      rw [Function.update_self]
      exact trivial
    · rw [Function.update_of_ne hj]
      exact h.own j
  wins := by
    obtain ⟨wins, hcard, hle⟩ := h.wins
    have hcard' := running_update_returned hi
    refine ⟨wins + 1, by omega, fun j => ?_⟩
    by_cases hj : j = i
    · subst hj
      rw [Function.update_self]
      exact Nat.zero_le _
    · rw [Function.update_of_ne hj]
      exact ((gs j).lost_le s.queuedMaxNs (candidate i)).trans (Nat.succ_le_succ (hle j))
  returned hn j hret := by
    by_cases hj : j = i
    · subst hj
      exact UInt64.le_rfl
    · rw [Function.update_of_ne hj] at hret
      exact UInt64.le_trans (h.returned hn j hret) (UInt64.le_of_lt hlt)

/-- A call that loses its last swap has lost 16, and so many others have won. -/
theorem not_last (h : MaxInv init candidate s gs) (hn : n ≤ 16) {c old : UInt64}
    (hi : gs i = .swapping c old 0) : s.queuedMaxNs = old := by
  by_contra hne
  obtain ⟨wins, hcard, hle⟩ := h.wins
  have hlost := hle i
  rw [hi, MaxPhase.lost, if_neg (Ne.symm hne)] at hlost
  have hrunning : 0 < (running gs).card :=
    Finset.card_pos.2 ⟨i, by simp [running, hi]⟩
  omega

/-- A permitted call keeps the invariant. -/
theorem step (h : MaxInv init candidate s gs) {c : Helper} (hc : maxProtocol.Permits (gs i) c) :
    MaxInv init candidate (Helper.run s c).2
      (Function.update gs i (maxProtocol.next (gs i) c (Helper.run s c).1)) := by
  have hown := h.own i
  cases hg : gs i with
  | returned =>
      rw [hg] at hc
      exact absurd hc (by cases c <;> exact id)
  | loading cand tries =>
      rw [hg] at hc hown
      have hrun : gs i ≠ .returned := by simp [hg]
      cases c with
      | loadMax =>
          show MaxInv init candidate s (Function.update gs i
            (if cand ≤ s.queuedMaxNs then .returned else .swapping cand s.queuedMaxNs tries))
          rcases hown with ⟨rfl, htries⟩
          split_ifs with hle
          · exact h.of_same_cell hrun trivial (fun _ _ => Nat.zero_le _) fun _ _ => hle
          · refine h.of_same_cell hrun ⟨rfl, UInt64.not_le.1 hle, htries⟩ ?_ ?_
            · intro wins hw
              simpa [hg, MaxPhase.lost] using hw
            · exact fun _ hret => by cases hret
      | _ => exact absurd hc id
  | swapping cand old tries =>
      rw [hg] at hc hown
      have hrun : gs i ≠ .returned := by simp [hg]
      cases c with
      | casMax old' new =>
          rcases hc with ⟨rfl, rfl⟩
          rcases hown with ⟨rfl, hlt, htries⟩
          show MaxInv init candidate
            (if s.queuedMaxNs = old' then { s with queuedMaxNs := candidate i } else s)
            (Function.update gs i
              (if s.queuedMaxNs = old' then .returned else .attempt (candidate i) tries))
          split_ifs with hcell
          · exact h.win hrun (hcell ▸ hlt)
          · cases tries with
            | zero =>
                refine h.of_same_cell hrun trivial (fun _ _ => Nat.zero_le _) fun hn _ => ?_
                exact absurd (h.not_last hn hg) hcell
            | succ tries =>
                refine h.of_same_cell hrun ⟨rfl, by omega⟩ ?_ ?_
                · intro wins hw
                  rw [hg, MaxPhase.lost, if_neg (Ne.symm hcell)] at hw
                  simp only [MaxPhase.attempt, MaxPhase.lost]
                  omega
                · exact fun _ hret => by cases hret
      | _ => exact absurd hc id

/-- No permitted call makes the cell smaller. -/
theorem cell_le (h : MaxInv init candidate s gs) {c : Helper}
    (hc : maxProtocol.Permits (gs i) c) : s.queuedMaxNs ≤ (Helper.run s c).2.queuedMaxNs := by
  have hown := h.own i
  cases hg : gs i with
  | returned =>
      rw [hg] at hc
      exact absurd hc (by cases c <;> exact id)
  | loading cand tries =>
      rw [hg] at hc
      cases c with
      | loadMax => exact UInt64.le_rfl
      | _ => exact absurd hc id
  | swapping cand old tries =>
      rw [hg] at hc hown
      cases c with
      | casMax old' new =>
          rcases hc with ⟨rfl, rfl⟩
          show s.queuedMaxNs ≤
            (if s.queuedMaxNs = old' then { s with queuedMaxNs := new } else s).queuedMaxNs
          split_ifs with hcell
          · exact UInt64.le_of_lt (hcell ▸ hown.2.1)
          · exact UInt64.le_rfl
      | _ => exact absurd hc id

end MaxInv

/-! ## The calls as a machine -/

/-- `n` concurrent calls of `stats_update_max` on one cell, a step being one read or one
swap of one call. -/
def maxCalls (s₀ : State) (candidate : Fin n → UInt64) :
    Machine (State × (Fin n → Prog Unit)) (Fin n) :=
  parallel (fun _ => Helper.run) (fun i => statsUpdateMax (candidate i) 16) s₀

variable (s₀ : State) (candidate : Fin n → UInt64)

/-- The cell after the steps `es`. -/
def cellAfter (es : List (Fin n)) : UInt64 := ((maxCalls s₀ candidate).run es).1.queuedMaxNs

/-- Every call has returned after the steps `es`. -/
def AllReturned (es : List (Fin n)) : Prop :=
  ∀ i, (((maxCalls s₀ candidate).run es).2 i).isDone = true

theorem maxCalls_inv (es : List (Fin n)) :
    Phased maxProtocol (MaxInv s₀.queuedMaxNs candidate) ((maxCalls s₀ candidate).run es) := by
  refine parallel_invariant maxProtocol (MaxInv s₀.queuedMaxNs candidate)
    (fun i => .loading (candidate i) 15) ?_ ?_ ?_ es
  · refine ⟨Or.inl rfl, fun i => ⟨rfl, by omega⟩, ⟨0, ?_, fun i => Nat.le_refl 0⟩, ?_⟩
    · simpa using Finset.card_le_univ (running fun i => MaxPhase.loading (candidate i) 15)
    · exact fun _ i hret => by cases hret
  · exact fun i => statsUpdateMax_follows (candidate i) 16
  · exact fun s gs i c h hc => h.step hc

theorem cellAfter_snoc (es : List (Fin n)) (i : Fin n) :
    cellAfter s₀ candidate es ≤ cellAfter s₀ candidate (es ++ [i]) := by
  obtain ⟨gs, hinv, hfollows⟩ := maxCalls_inv s₀ candidate es
  have hi := hfollows i
  unfold cellAfter
  rw [Machine.run_snoc]
  show _ ≤ ((((maxCalls s₀ candidate).run es).2 i).advance Helper.run _).2.queuedMaxNs
  cases hp : ((maxCalls s₀ candidate).run es).2 i with
  | pure a => exact UInt64.le_rfl
  | call c k =>
      rw [hp] at hi
      exact hinv.cell_le hi.1

theorem cellAfter_append (es fs : List (Fin n)) :
    cellAfter s₀ candidate es ≤ cellAfter s₀ candidate (es ++ fs) := by
  induction fs using List.reverseRecOn with
  | nil => simp
  | append_singleton fs i ih =>
      rw [← List.append_assoc]
      exact UInt64.le_trans ih (cellAfter_snoc s₀ candidate (es ++ fs) i)

/-- **Concurrent maximum.** In every interleaving of any number of calls the cell never
decreases and holds its first value or a candidate. Every call returns, after 32 steps of
its own at the latest; and when 16 calls or fewer have all returned, the cell is the
largest of its first value and all candidates. -/
theorem statsUpdateMax_concurrent :
    (∀ es fs, cellAfter s₀ candidate es ≤ cellAfter s₀ candidate (es ++ fs)) ∧
    (∀ es, cellAfter s₀ candidate es ∈ insert s₀.queuedMaxNs (Set.range candidate)) ∧
    (∀ es : List (Fin n), (∀ i, 32 ≤ es.count i) → AllReturned s₀ candidate es) ∧
    (n ≤ 16 → ∀ es, AllReturned s₀ candidate es →
      IsGreatest (insert s₀.queuedMaxNs (Set.range candidate)) (cellAfter s₀ candidate es)) := by
  have hmem : ∀ es, cellAfter s₀ candidate es ∈ insert s₀.queuedMaxNs (Set.range candidate) := by
    intro es
    obtain ⟨gs, hinv, -⟩ := maxCalls_inv s₀ candidate es
    rcases hinv.cell with h | ⟨i, h⟩
    · exact Or.inl h
    · exact Or.inr ⟨i, h.symm⟩
  refine ⟨cellAfter_append s₀ candidate, hmem, ?_, ?_⟩
  · intro es hcount i
    exact parallel_isDone (fun i => statsUpdateMax_within (candidate i) 16) es i (hcount i)
  · intro hn es hdone
    have hinv := (maxCalls_inv s₀ candidate es).of_all_done hdone
    refine ⟨hmem es, ?_⟩
    rintro v (rfl | ⟨i, rfl⟩)
    · exact cellAfter_append s₀ candidate [] es
    · exact hinv.returned hn i rfl

end EbpfToolbox.Ipc.Msgqueue
