import EbpfToolbox.Lib.Machine
import EbpfToolbox.Lib.BpfMap
import EbpfToolbox.Lib.PerCpu
import Mathlib.Data.Finset.Card

/-!
# Tracking calls with an entry probe and an exit probe

Threads enter and leave a call; an entry probe stores a context under the
thread's key, an exit probe looks the context up and removes it. This file has

* `Schedule`: which thread is inside which call and which calls are over. It
  knows nothing of any probe; it is the ground truth a tracker is compared with.
* `scheduled`: a probe system run along a schedule in which every thread
  alternates between entry and exit.
* `Tracker`: the abstract probe pair. It counts attempted calls and missed
  lookups and logs every call it could match.

The three results about every run are `accounting` (each attempted call is
matched, missed or still running), `table_idle` (a thread outside a call has no
context) and `log_eq_matched` (without evictions the log is the schedule's own
list of calls, filtered). `Tracker.refines` carries them to a concrete pair of
probes: it is enough to show one step of the code.
-/

namespace EbpfToolbox.Lib

/-- `enter t a`: thread `t` starts a call, with the inputs `a` of its entry
probe. `leave t x`: it returns, with the inputs `x` of its exit probe.
`evict k`: an LRU map drops the entry of `k`. -/
inductive CallLabel (T A X K : Type) : Type where
  | enter (t : T) (a : A)
  | leave (t : T) (x : X)
  | evict (k : K)

namespace CallLabel

variable {T A X K : Type}

/-- Is the label an entry or exit of thread `t`? -/
def isOf [DecidableEq T] (t : T) : CallLabel T A X K → Bool
  | enter u _ => decide (u = t)
  | leave u _ => decide (u = t)
  | evict _ => false

def isEvict : CallLabel T A X K → Bool
  | evict _ => true
  | _ => false

end CallLabel

/-- `busy t` is the entry of the call thread `t` is inside of, `inside` the
threads inside a call, `calls` the finished calls in the order of their exits. -/
structure Schedule (T A X : Type) where
  busy : T → Option A
  inside : Finset T
  calls : List (T × A × X)

namespace Schedule

variable {T A X K : Type} [DecidableEq T]

def start : Schedule T A X := ⟨fun _ => none, ∅, []⟩

def step (s : Schedule T A X) : CallLabel T A X K → Schedule T A X
  | .enter t a => { s with busy := Function.update s.busy t (some a), inside := insert t s.inside }
  | .leave t x =>
      { busy := Function.update s.busy t none
        inside := s.inside.erase t
        calls := match s.busy t with
          | some a => s.calls ++ [(t, a, x)]
          | none => s.calls }
  | .evict _ => s

/-- Every thread alternates: it enters when it is outside, leaves when inside. -/
def Allowed (s : Schedule T A X) : CallLabel T A X K → Prop
  | .enter t _ => s.busy t = none
  | .leave t _ => (s.busy t).isSome
  | .evict _ => True

instance (s : Schedule T A X) (l : CallLabel T A X K) : Decidable (s.Allowed l) :=
  match l with
  | .enter t _ => decidable_of_iff ((s.busy t).isNone = true) (by simp [Allowed])
  | .leave t _ => inferInstanceAs (Decidable ((s.busy t).isSome = true))
  | .evict _ => inferInstanceAs (Decidable True)

/-- `inside` is the set of threads that `busy` says are inside. -/
def Tight (s : Schedule T A X) : Prop := ∀ t, t ∈ s.inside ↔ (s.busy t).isSome

omit [DecidableEq T] in
theorem start_tight : (start : Schedule T A X).Tight := by
  intro t
  simp [start]

theorem Tight.step {s : Schedule T A X} (h : s.Tight) (l : CallLabel T A X K) :
    (s.step l).Tight := by
  intro t
  cases l with
  | enter u a =>
      by_cases htu : t = u
      · subst htu
        simp [Schedule.step]
      · simpa [Schedule.step, htu] using h t
  | leave u x =>
      by_cases htu : t = u
      · subst htu
        simp [Schedule.step]
      · simpa [Schedule.step, htu] using h t
  | evict k => exact h t

/-! ## One thread's part of a schedule -/

/-- `s'` shows exactly what thread `t` did in `s`. -/
structure Shows (t : T) (s s' : Schedule T A X) : Prop where
  busy : s.busy t = s'.busy t
  calls : s.calls.filter (fun c => decide (c.1 = t)) = s'.calls

theorem Shows.step_own {t : T} {s s' : Schedule T A X} (h : Shows t s s')
    {l : CallLabel T A X K} (hl : l.isOf t = true) : Shows t (s.step l) (s'.step l) := by
  cases l with
  | enter u a =>
      obtain rfl : u = t := of_decide_eq_true hl
      exact ⟨by simp [step], h.calls⟩
  | leave u x =>
      obtain rfl : u = t := of_decide_eq_true hl
      refine ⟨by simp [step], ?_⟩
      simp only [step, ← h.busy]
      cases s.busy u with
      | none => exact h.calls
      | some a => simp [List.filter_append, h.calls]
  | evict k => exact absurd hl (by simp [CallLabel.isOf])

theorem Shows.step_other {t : T} {s s' : Schedule T A X} (h : Shows t s s')
    {l : CallLabel T A X K} (hl : l.isOf t = false) : Shows t (s.step l) s' := by
  cases l with
  | enter u a =>
      have hne : t ≠ u := fun e => of_decide_eq_false hl e.symm
      exact ⟨by simpa [step, hne] using h.busy, h.calls⟩
  | leave u x =>
      have hne : t ≠ u := fun e => of_decide_eq_false hl e.symm
      refine ⟨by simpa [step, hne] using h.busy, ?_⟩
      simp only [step]
      cases s.busy u with
      | none => exact h.calls
      | some a => simpa [List.filter_append, hne.symm] using h.calls
  | evict k => exact h

theorem shows_filter (t : T) (es : List (CallLabel T A X K)) :
    Shows t (es.foldl step (start (A := A) (X := X))) ((es.filter (·.isOf t)).foldl step start) := by
  induction es using List.reverseRecOn with
  | nil => exact ⟨rfl, rfl⟩
  | append_singleton es l ih =>
      rw [List.filter_append, List.foldl_append, List.foldl_append]
      cases hl : l.isOf t with
      | true => simpa [hl] using ih.step_own hl
      | false => simpa [hl] using ih.step_other hl

/-- What a thread does is its own part of the schedule: the calls of `t` are
the calls of the schedule in which only `t` moves. -/
theorem calls_of_thread (t : T) (es : List (CallLabel T A X K)) :
    (es.foldl step (start (A := A) (X := X))).calls.filter (fun c => decide (c.1 = t)) =
      ((es.filter (·.isOf t)).foldl step start).calls :=
  (shows_filter t es).calls

theorem Shows.allowed {t : T} {s s' : Schedule T A X} (h : Shows t s s')
    {l : CallLabel T A X K} (hl : l.isOf t = true) (ha : s.Allowed l) : s'.Allowed l := by
  cases l with
  | enter u a =>
      obtain rfl : u = t := of_decide_eq_true hl
      exact h.busy.symm.trans ha
  | leave u x =>
      obtain rfl : u = t := of_decide_eq_true hl
      simpa only [Allowed, ← h.busy] using ha
  | evict k => trivial

end Schedule

/-! ## Probes along a schedule -/

/-- The probes `step` over the code state `σ`, run along a schedule. -/
def scheduled {σ T A X K : Type} [DecidableEq T] (init : σ)
    (step : σ → CallLabel T A X K → σ) :
    Machine (σ × Schedule T A X) (CallLabel T A X K) where
  init := (init, Schedule.start)
  step s l := (step s.1 l, s.2.step l)
  Allowed s l := s.2.Allowed l

section Scheduled

variable {σ T A X K : Type} [DecidableEq T] {init : σ} {step : σ → CallLabel T A X K → σ}

instance (s : σ × Schedule T A X) (l : CallLabel T A X K) :
    Decidable ((scheduled init step).Allowed s l) :=
  inferInstanceAs (Decidable (s.2.Allowed l))

/-- The schedule of a run does not depend on the code that is run along it. -/
theorem scheduled_run_snd (es : List (CallLabel T A X K)) :
    ((scheduled init step).run es).2 = es.foldl Schedule.step Schedule.start := by
  induction es using List.reverseRecOn with
  | nil => rfl
  | append_singleton es l ih =>
      rw [Machine.run_snoc, List.foldl_append, ← ih]
      rfl

/-- One thread's part of a valid run is a valid run. -/
theorem scheduled_valid_filter (t : T) {es : List (CallLabel T A X K)}
    (hv : (scheduled init step).Valid es) :
    (scheduled init step).Valid (es.filter (·.isOf t)) := by
  induction es using List.reverseRecOn with
  | nil => trivial
  | append_singleton es l ih =>
      rw [Machine.valid_snoc] at hv
      rw [List.filter_append]
      cases hl : l.isOf t with
      | true =>
          rw [List.filter_cons_of_pos hl, List.filter_nil, Machine.valid_snoc]
          refine ⟨ih hv.1, ?_⟩
          have hal : ((scheduled init step).run es).2.Allowed l := hv.2
          show ((scheduled init step).run _).2.Allowed l
          rw [scheduled_run_snd] at hal ⊢
          exact (Schedule.shows_filter t es).allowed hl hal
      | false => simpa [hl] using ih hv.1

end Scheduled

/-! ## The abstract probe pair -/

/-- The parameters of a tracker: the filter (fixed for a run), the key of a
thread, which threads have a key at all, the context an entry captures and
whether its insertion succeeds. -/
structure Tracker (T A X K C : Type) where
  passes : T → Bool
  key : T → K
  Keyed : T → Prop
  ctx : T → A → C
  stored : A → Bool
  keyed_of_passes : ∀ t, passes t = true → Keyed t
  key_inj : ∀ t u, Keyed t → Keyed u → key t = key u → t = u

namespace Tracker

variable {T A X K C : Type} [DecidableEq T] [DecidableEq K]

/-- The context table, the two counters and the matched calls, oldest first. -/
structure State (T X K C : Type) where
  table : BpfMap K C
  attempted : ℕ
  missed : ℕ
  log : List (T × C × X)

def State.start : State T X K C := ⟨∅, 0, 0, []⟩

variable (P : Tracker T A X K C)

def step (s : State T X K C) : CallLabel T A X K → State T X K C
  | .enter t a =>
      if P.passes t then
        { s with
          attempted := s.attempted + 1
          table := if P.stored a then s.table.update (P.key t) (P.ctx t a) else s.table }
      else s
  | .leave t x =>
      if P.passes t then
        match s.table.get (P.key t) with
        | some c => { s with table := s.table.delete (P.key t), log := s.log ++ [(t, c, x)] }
        | none => { s with missed := s.missed + 1 }
      else s
  | .evict k => { s with table := s.table.delete k }

section StepLemmas

variable {P} {s : State T X K C} {t : T} {a : A} {x : X}

omit [DecidableEq T]

theorem step_enter_of_passes (hp : P.passes t = true) :
    P.step s (.enter t a) =
      { s with
        attempted := s.attempted + 1
        table := if P.stored a then s.table.update (P.key t) (P.ctx t a) else s.table } :=
  if_pos hp

theorem step_enter_of_rejected (hp : P.passes t = false) : P.step s (.enter t a) = s := by
  simp [step, hp]

theorem step_leave_of_found {c : C} (hp : P.passes t = true)
    (hc : s.table.get (P.key t) = some c) :
    P.step s (.leave t x) =
      { s with table := s.table.delete (P.key t), log := s.log ++ [(t, c, x)] } := by
  simp [step, hp, hc]

theorem step_leave_of_missed (hp : P.passes t = true) (hc : s.table.get (P.key t) = none) :
    P.step s (.leave t x) = { s with missed := s.missed + 1 } := by
  simp [step, hp, hc]

theorem step_leave_of_rejected (hp : P.passes t = false) : P.step s (.leave t x) = s := by
  simp [step, hp]

end StepLemmas

/-- The tracker along a schedule. -/
def machine : Machine (State T X K C × Schedule T A X) (CallLabel T A X K) :=
  scheduled State.start P.step

/-! ### Each attempted call is matched, missed or still running -/

private theorem card_insert_passing (s : Finset T) (p : T → Bool) {t : T} (h : t ∉ s) :
    ((insert t s).filter fun u => p u = true).card =
      (s.filter fun u => p u = true).card + if p t then 1 else 0 := by
  rw [Finset.filter_insert]
  by_cases hp : p t = true
  · rw [if_pos hp, if_pos hp, Finset.card_insert_of_notMem]
    exact fun hm => h (Finset.mem_of_mem_filter t hm)
  · rw [if_neg hp, if_neg hp, Nat.add_zero]

private theorem card_erase_passing (s : Finset T) (p : T → Bool) {t : T} (h : t ∈ s) :
    ((s.erase t).filter fun u => p u = true).card + (if p t then 1 else 0) =
      (s.filter fun u => p u = true).card := by
  have := card_insert_passing (s.erase t) p (Finset.notMem_erase t s)
  rw [Finset.insert_erase h] at this
  exact this.symm

/-- The threads inside a call that passed the filter. -/
def insideAttempted (sch : Schedule T A X) : ℕ :=
  (sch.inside.filter fun t => P.passes t = true).card

/-- The accounting identity at one state. -/
def Accounted (s : State T X K C × Schedule T A X) : Prop :=
  s.1.attempted = s.1.log.length + s.1.missed + P.insideAttempted s.2

theorem accounted_step {s : State T X K C} {sch : Schedule T A X} {l : CallLabel T A X K}
    (ht : sch.Tight) (h : P.Accounted (s, sch)) (hl : sch.Allowed l) :
    P.Accounted (P.step s l, sch.step l) := by
  cases l with
  | enter t a =>
      have hout : t ∉ sch.inside := by
        rw [ht t, show sch.busy t = none from hl]
        simp
      have hcard := card_insert_passing sch.inside P.passes hout
      simp only [Accounted, step, Schedule.step, insideAttempted] at h ⊢
      rw [hcard]
      by_cases hp : P.passes t = true
      · simp only [hp, if_true]
        omega
      · simp only [hp]
        simpa using h
  | leave t x =>
      have hcard := card_erase_passing sch.inside P.passes ((ht t).mpr hl)
      simp only [Accounted, step, Schedule.step, insideAttempted] at h ⊢
      by_cases hp : P.passes t = true
      · simp only [hp, if_true] at hcard ⊢
        cases s.table.get (P.key t) with
        | none => simp only; omega
        | some c => simp only [List.length_append, List.length_singleton]; omega
      · simp only [hp, Bool.false_eq_true, if_false, Nat.add_zero] at hcard ⊢
        omega
  | evict k => exact h

theorem accounting {es : List (CallLabel T A X K)} (hv : P.machine.Valid es) :
    P.Accounted (P.machine.run es) := by
  refine (Machine.invariant (I := fun s => s.2.Tight ∧ P.Accounted s) ?_ ?_ hv).2
  · exact ⟨Schedule.start_tight, rfl⟩
  · rintro ⟨s, sch⟩ l ⟨ht, h⟩ hl
    exact ⟨ht.step l, P.accounted_step ht h hl⟩

/-! ### A context belongs to a call that is running -/

/-- Whatever a keyed thread finds in the table is the context of the call it is
inside of. -/
def OwnContexts (s : State T X K C × Schedule T A X) : Prop :=
  ∀ t, P.Keyed t → ∀ c, s.1.table.get (P.key t) = some c →
    P.passes t = true ∧ ∃ a, s.2.busy t = some a ∧ P.stored a = true ∧ c = P.ctx t a

theorem ownContexts_step {s : State T X K C} {sch : Schedule T A X} {l : CallLabel T A X K}
    (h : P.OwnContexts (s, sch)) (hl : sch.Allowed l) :
    P.OwnContexts (P.step s l, sch.step l) := by
  intro u hu c hc
  have hother : ∀ t, u ≠ t → P.passes t = true → P.key u ≠ P.key t := fun t hne hp he =>
    hne (P.key_inj u t hu (P.keyed_of_passes t hp) he)
  cases l with
  | enter t a =>
      by_cases hut : u = t
      · subst hut
        -- the thread was outside, so the only context it can find is the new one
        have hold : s.table.get (P.key u) = none := by
          cases hg : s.table.get (P.key u) with
          | none => rfl
          | some c' =>
              obtain ⟨_, a', ha', _⟩ := h u hu c' hg
              rw [show sch.busy u = none from hl] at ha'
              cases ha'
        simp only [step] at hc
        split_ifs at hc with hp hst
        · rw [BpfMap.get_update_self] at hc
          exact ⟨hp, a, by simp [Schedule.step], hst, (Option.some.inj hc).symm⟩
        · exact absurd (hold.symm.trans hc) (by simp)
        · exact absurd (hold.symm.trans hc) (by simp)
      · have hold : s.table.get (P.key u) = some c := by
          simp only [step] at hc
          split_ifs at hc with hp hst
          · rwa [BpfMap.get_update_of_ne _ _ (hother t hut hp)] at hc
          · exact hc
          · exact hc
        simpa [Schedule.step, hut] using h u hu c hold
  | leave t x =>
      by_cases hut : u = t
      · subst hut
        simp only [step] at hc
        split_ifs at hc with hp
        · cases hg : s.table.get (P.key u) with
          | none => simp [hg] at hc
          | some c' => simp [hg] at hc
        · exact absurd (h u hu c hc).1 hp
      · have hold : s.table.get (P.key u) = some c := by
          simp only [step] at hc
          split_ifs at hc with hp
          · cases hg : s.table.get (P.key t) with
            | none => simpa [hg] using hc
            | some c' => simpa [hg, BpfMap.get_delete_of_ne _ (hother t hut hp)] using hc
          · exact hc
        simpa [Schedule.step, hut] using h u hu c hold
  | evict k =>
      simp only [step, BpfMap.get_delete] at hc
      split_ifs at hc
      exact h u hu c hc

theorem ownContexts {es : List (CallLabel T A X K)} (hv : P.machine.Valid es) :
    P.OwnContexts (P.machine.run es) :=
  Machine.invariant (fun _ _ _ hc => by simp [machine, scheduled, State.start] at hc)
    (fun _ _ h hl => P.ownContexts_step h hl) hv

omit [DecidableEq T] in
/-- A thread outside a call has no context in the table. -/
theorem table_idle {s : State T X K C × Schedule T A X} (h : P.OwnContexts s) {t : T}
    (hk : P.Keyed t) (hb : s.2.busy t = none) : s.1.table.get (P.key t) = none := by
  cases hg : s.1.table.get (P.key t) with
  | none => rfl
  | some c =>
      obtain ⟨_, a, ha, _⟩ := h t hk c hg
      rw [hb] at ha
      cases ha

omit [DecidableEq T] in
/-- A thread that the filter rejects has no context in the table. -/
theorem table_rejected {s : State T X K C × Schedule T A X} (h : P.OwnContexts s) {t : T}
    (hk : P.Keyed t) (hp : P.passes t = false) : s.1.table.get (P.key t) = none := by
  cases hg : s.1.table.get (P.key t) with
  | none => rfl
  | some c => exact absurd (h t hk c hg).1 (by simp [hp])

/-! ### Without evictions the log is the schedule's list of calls, filtered -/

/-- What the tracker logs of one call. -/
def matched (call : T × A × X) : Option (T × C × X) :=
  if P.passes call.1 && P.stored call.2.1 then some (call.1, P.ctx call.1 call.2.1, call.2.2)
  else none

/-- Every call that passes and was stored has its context in the table, and the
log is what was matched of the finished calls. -/
structure Exact (s : State T X K C × Schedule T A X) : Prop where
  table : ∀ t a, P.passes t = true → s.2.busy t = some a → P.stored a = true →
    s.1.table.get (P.key t) = some (P.ctx t a)
  log : s.1.log = s.2.calls.filterMap P.matched

theorem exact_step {s : State T X K C} {sch : Schedule T A X} {l : CallLabel T A X K}
    (hown : P.OwnContexts (s, sch)) (h : P.Exact (s, sch)) (hl : sch.Allowed l)
    (hev : l.isEvict = false) : P.Exact (P.step s l, sch.step l) := by
  -- threads that pass have keys of their own
  have hother : ∀ u t, u ≠ t → P.passes u = true → P.passes t = true → P.key u ≠ P.key t :=
    fun u t hne hpu hp he =>
      hne (P.key_inj u t (P.keyed_of_passes u hpu) (P.keyed_of_passes t hp) he)
  cases l with
  | enter t a =>
      refine ⟨fun u b hpu hb hst => ?_, ?_⟩
      · simp only [step, Schedule.step] at hb ⊢
        by_cases hut : u = t
        · subst hut
          rw [Function.update_self] at hb
          cases hb
          simp [hpu, hst]
        · rw [Function.update_of_ne hut] at hb
          have hold := h.table u b hpu hb hst
          split_ifs with hp hs'
          · simpa [BpfMap.get_update_of_ne _ _ (hother u t hut hpu hp)] using hold
          · exact hold
          · exact hold
      · simp only [step]
        split_ifs <;> exact h.log
  | leave t x =>
      obtain ⟨a, ha⟩ := Option.isSome_iff_exists.mp hl
      refine ⟨fun u b hpu hb hst => ?_, ?_⟩
      · simp only [step, Schedule.step] at hb ⊢
        by_cases hut : u = t
        · subst hut
          rw [Function.update_self] at hb
          cases hb
        · rw [Function.update_of_ne hut] at hb
          have hold := h.table u b hpu hb hst
          split_ifs with hp
          · cases hg : s.table.get (P.key t) with
            | none => exact hold
            | some c => simpa [BpfMap.get_delete_of_ne _ (hother u t hut hpu hp)] using hold
          · exact hold
      · simp only [step, Schedule.step, ha, List.filterMap_append]
        rw [← h.log]
        by_cases hp : P.passes t = true
        · by_cases hst : P.stored a = true
          · simp [hp, h.table t a hp ha hst, matched, hst]
          · -- nothing was stored at the entry, and nobody else writes under this key
            have hnone : s.table.get (P.key t) = none := by
              cases hg : s.table.get (P.key t) with
              | none => rfl
              | some c =>
                  obtain ⟨_, b, hb, hsb, _⟩ := hown t (P.keyed_of_passes t hp) c hg
                  rw [ha] at hb
                  cases hb
                  exact absurd hsb hst
            simp [hp, hnone, matched, hst]
        · simp [hp, matched]
  | evict k => cases hev

theorem log_eq_matched {es : List (CallLabel T A X K)} (hv : P.machine.Valid es)
    (hev : ∀ l ∈ es, l.isEvict = false) :
    (P.machine.run es).1.log = (P.machine.run es).2.calls.filterMap P.matched := by
  suffices h : P.OwnContexts (P.machine.run es) ∧ P.Exact (P.machine.run es) from h.2.log
  induction es using List.reverseRecOn with
  | nil =>
      refine ⟨P.ownContexts trivial, ⟨?_, rfl⟩⟩
      intro t a _ hb
      cases hb
  | append_singleton es l ih =>
      rw [Machine.valid_snoc] at hv
      obtain ⟨hown, hex⟩ := ih hv.1 fun l hm => hev l (List.mem_append_left _ hm)
      rw [Machine.run_snoc]
      exact ⟨P.ownContexts_step hown hv.2,
        P.exact_step hown hex hv.2 (hev l (List.mem_append_right _ (by simp)))⟩

/-! ### Carrying the results to a pair of probes -/

/-- If one step of the code keeps the relation `R` to the tracker, every run of
the code is related to the tracker's run along the same schedule. -/
theorem refines {σ : Type} {init : σ} {f : σ → CallLabel T A X K → σ}
    {R : σ → State T X K C → Prop} (h0 : R init State.start)
    (hstep : ∀ s ts sch l, R s ts → P.OwnContexts (ts, sch) → sch.Allowed l →
      R (f s l) (P.step ts l))
    {es : List (CallLabel T A X K)} (hv : (scheduled init f).Valid es) :
    P.machine.Valid es ∧ R ((scheduled init f).run es).1 (P.machine.run es).1 ∧
      ((scheduled init f).run es).2 = (P.machine.run es).2 := by
  induction es using List.reverseRecOn with
  | nil => exact ⟨trivial, h0, rfl⟩
  | append_singleton es l ih =>
      rw [Machine.valid_snoc] at hv
      obtain ⟨hvt, hR, hsch⟩ := ih hv.1
      have hl : (P.machine.run es).2.Allowed l := hsch ▸ hv.2
      rw [Machine.valid_snoc, Machine.run_snoc, Machine.run_snoc]
      refine ⟨⟨hvt, hl⟩, hstep _ _ _ l hR (P.ownContexts hvt) hl, ?_⟩
      exact congrArg (fun s => Schedule.step s l) hsch

end Tracker

/-! ## What becomes of a matched call

A matched call is dropped silently when it is below a threshold, dropped with a
count when the ring buffer is full, or submitted as an event. `View` reads the
corresponding counters off a probe pair's state; `Agrees` says that they are
the ones the tracker's log gives. -/

inductive Outcome (E : Type) : Type where
  | below
  | dropped
  | submitted (e : E)

namespace Outcome

variable {E : Type}

def event : Outcome E → Option E
  | submitted e => some e
  | _ => none

def isBelow : Outcome E → Bool
  | below => true
  | _ => false

def isDropped : Outcome E → Bool
  | dropped => true
  | _ => false

/-- Every outcome falls in exactly one of the three buckets. -/
theorem length_eq_buckets (os : List (Outcome E)) :
    os.length = (os.filterMap event).length + os.countP isBelow + os.countP isDropped := by
  induction os with
  | nil => rfl
  | cons o os ih =>
      cases o with
      | below =>
          simp only [List.length_cons, List.filterMap_cons, List.countP_cons, event, isBelow,
            isDropped, if_true, Bool.false_eq_true, if_false]
          omega
      | dropped =>
          simp only [List.length_cons, List.filterMap_cons, List.countP_cons, event, isBelow,
            isDropped, if_true, Bool.false_eq_true, if_false]
          omega
      | submitted e =>
          simp only [List.length_cons, List.filterMap_cons, List.countP_cons, event, isBelow,
            isDropped, Bool.false_eq_true, if_false]
          omega

end Outcome

namespace Tracker

variable {T A X K C E σ S : Type} {n : ℕ} [DecidableEq T] [DecidableEq K]

/-- How the table, the events and the counters of a probe pair are read off a
state of the code: the counters are per CPU, in a statistics record `S`. -/
structure View (n : ℕ) (σ S K C E : Type) where
  table : σ → BpfMap K C
  rb : σ → List E
  stats : σ → PerCpu n S
  attempted : S → ℕ
  missed : S → ℕ
  completed : S → ℕ
  below : S → ℕ
  dropped : S → ℕ

/-- What one probe adds to the counters. -/
structure Delta where
  attempted : ℕ := 0
  missed : ℕ := 0
  completed : ℕ := 0
  below : ℕ := 0
  dropped : ℕ := 0

/-- The update `g` of the statistics adds `d` to the counters. -/
def View.Adds (V : View n σ S K C E) (g : S → S) (d : Delta) : Prop :=
  ∀ st, V.attempted (g st) = V.attempted st + d.attempted ∧
    V.missed (g st) = V.missed st + d.missed ∧
    V.completed (g st) = V.completed st + d.completed ∧
    V.below (g st) = V.below st + d.below ∧
    V.dropped (g st) = V.dropped st + d.dropped

/-- The code state shows what the tracker's table, counters and log say. -/
structure Agrees (V : View n σ S K C E) (outcome : T × C × X → Outcome E) (s : σ)
    (ts : State T X K C) : Prop where
  table : V.table s = ts.table
  attempted : (V.stats s).total V.attempted = ts.attempted
  missed : (V.stats s).total V.missed = ts.missed
  completed : (V.stats s).total V.completed = ts.log.length
  below : (V.stats s).total V.below = (ts.log.map outcome).countP Outcome.isBelow
  dropped : (V.stats s).total V.dropped = (ts.log.map outcome).countP Outcome.isDropped
  rb : V.rb s = (ts.log.map outcome).filterMap Outcome.event

namespace Agrees

variable {V : View n σ S K C E} {outcome : T × C × X → Outcome E} {s s' : σ}
  {ts ts' : State T X K C} {cpu : Fin n} {g : S → S}

omit [DecidableEq T] [DecidableEq K] in
/-- One probe on one CPU: the counters move by `d`, the tracker by the same. -/
theorem move (h : Agrees V outcome s ts) {d : Delta}
    (hstats : V.stats s' = (V.stats s).modify cpu g) (hg : V.Adds g d)
    (htable : V.table s' = ts'.table)
    (hrb : V.rb s' = (ts'.log.map outcome).filterMap Outcome.event)
    (hatt : ts'.attempted = ts.attempted + d.attempted)
    (hmiss : ts'.missed = ts.missed + d.missed)
    (hcomp : ts'.log.length = ts.log.length + d.completed)
    (hbelow : (ts'.log.map outcome).countP Outcome.isBelow =
      (ts.log.map outcome).countP Outcome.isBelow + d.below)
    (hdrop : (ts'.log.map outcome).countP Outcome.isDropped =
      (ts.log.map outcome).countP Outcome.isDropped + d.dropped) :
    Agrees V outcome s' ts' := by
  obtain ⟨h1, h2, h3, h4, h5⟩ := hg (V.stats s cpu)
  refine ⟨htable, ?_, ?_, ?_, ?_, ?_, hrb⟩
  · rw [hstats, PerCpu.total_modify_add _ _ _ _ h1, h.attempted, hatt]
  · rw [hstats, PerCpu.total_modify_add _ _ _ _ h2, h.missed, hmiss]
  · rw [hstats, PerCpu.total_modify_add _ _ _ _ h3, h.completed, hcomp]
  · rw [hstats, PerCpu.total_modify_add _ _ _ _ h4, h.below, hbelow]
  · rw [hstats, PerCpu.total_modify_add _ _ _ _ h5, h.dropped, hdrop]

omit [DecidableEq T] [DecidableEq K] in
/-- A counter update that sorts no call leaves the agreement alone. -/
theorem quiet (h : Agrees V outcome s ts) (hstats : V.stats s' = (V.stats s).modify cpu g)
    (htable : V.table s' = V.table s) (hrb : V.rb s' = V.rb s)
    (hg : V.Adds g {}) :
    Agrees V outcome s' ts :=
  h.move hstats hg (htable.trans h.table) (hrb.trans h.rb) rfl rfl rfl rfl rfl

omit [DecidableEq T] [DecidableEq K] in
/-- An entry that passes the filter: one more attempt and a new table. -/
theorem attempt (h : Agrees V outcome s ts) (hstats : V.stats s' = (V.stats s).modify cpu g)
    (hrb : V.rb s' = V.rb s)
    (hg : V.Adds g { attempted := 1 }) :
    Agrees V outcome s' { ts with attempted := ts.attempted + 1, table := V.table s' } :=
  h.move hstats hg rfl (hrb.trans h.rb) rfl rfl rfl rfl rfl

omit [DecidableEq T] [DecidableEq K] in
/-- An exit that passes the filter and finds no context. -/
theorem miss (h : Agrees V outcome s ts) (hstats : V.stats s' = (V.stats s).modify cpu g)
    (htable : V.table s' = V.table s) (hrb : V.rb s' = V.rb s)
    (hg : V.Adds g { missed := 1 }) :
    Agrees V outcome s' { ts with missed := ts.missed + 1 } :=
  h.move hstats hg (htable.trans h.table) (hrb.trans h.rb) rfl rfl rfl rfl rfl

omit [DecidableEq T] [DecidableEq K] in
/-- An exit that finds its context: the call falls in the bucket of its outcome. -/
theorem leave (h : Agrees V outcome s ts) {c : T × C × X} {o : Outcome E}
    (ho : outcome c = o) (hstats : V.stats s' = (V.stats s).modify cpu g)
    (hrb : V.rb s' = V.rb s ++ o.event.toList)
    (hg : V.Adds g
      { completed := 1
        below := if o.isBelow then 1 else 0
        dropped := if o.isDropped then 1 else 0 }) :
    Agrees V outcome s' { ts with table := V.table s', log := ts.log ++ [c] } := by
  subst ho
  refine h.move hstats hg rfl ?_ rfl rfl ?_ ?_ ?_
  · rw [hrb, h.rb, List.map_append, List.filterMap_append]
    cases ho : (outcome c).event with
    | none => simp [ho]
    | some e => simp [ho]
  · simp
  · simp [List.countP_append, List.countP_singleton]
  · simp [List.countP_append, List.countP_singleton]

end Agrees

variable (P : Tracker T A X K C)

/-- The accounting identities of a probe pair whose every step agrees with the
tracker, at every point of every run; and the table entry of a thread is gone
once it has left its call. -/
theorem accounting_of_agrees {V : View n σ S K C E} {outcome : T × C × X → Outcome E}
    {init : σ} {f : σ → CallLabel T A X K → σ}
    (h0 : Agrees V outcome init (State.start : State T X K C))
    (hstep : ∀ s ts sch l, Agrees V outcome s ts → P.OwnContexts (ts, sch) → sch.Allowed l →
      Agrees V outcome (f s l) (P.step ts l))
    {es : List (CallLabel T A X K)} (hv : (scheduled init f).Valid es) :
    let s := (scheduled init f).run es
    let total := fun count => (V.stats s.1).total count
    total V.attempted = total V.completed + total V.missed + P.insideAttempted s.2 ∧
      total V.completed = (V.rb s.1).length + total V.below + total V.dropped ∧
      ∀ t, P.Keyed t → s.2.busy t = none → (V.table s.1).get (P.key t) = none := by
  obtain ⟨hvt, hR, hsch⟩ := P.refines h0 hstep hv
  have hacc : P.Accounted (P.machine.run es) := P.accounting hvt
  refine ⟨?_, ?_, ?_⟩
  · simp only [hR.attempted, hR.completed, hR.missed, hsch]
    exact hacc
  · simp only [hR.completed, hR.rb, hR.below, hR.dropped]
    rw [← Outcome.length_eq_buckets, List.length_map]
  · intro t hk hb
    rw [hR.table]
    exact P.table_idle (P.ownContexts hvt) hk (hsch ▸ hb)

/-- What a probe pair reports of one call of the schedule. -/
def report (outcome : T × C × X → Outcome E) (call : T × A × X) : Option E :=
  (P.matched call).bind fun c => (outcome c).event

/-- Without evictions the ring buffer holds the reports of the schedule's own
calls, one for each call that has one, in the order of the exits. -/
theorem rb_eq_reports {V : View n σ S K C E} {outcome : T × C × X → Outcome E} {init : σ}
    {f : σ → CallLabel T A X K → σ}
    (h0 : Agrees V outcome init (State.start : State T X K C))
    (hstep : ∀ s ts sch l, Agrees V outcome s ts → P.OwnContexts (ts, sch) → sch.Allowed l →
      Agrees V outcome (f s l) (P.step ts l))
    {es : List (CallLabel T A X K)} (hv : (scheduled init f).Valid es)
    (hev : ∀ l ∈ es, l.isEvict = false) :
    V.rb ((scheduled init f).run es).1 =
      ((scheduled init f).run es).2.calls.filterMap (P.report outcome) := by
  obtain ⟨hvt, hR, hsch⟩ := P.refines h0 hstep hv
  rw [hR.rb, P.log_eq_matched hvt hev, hsch, List.filterMap_map, List.filterMap_filterMap]
  rfl

/-- Independence: the events of a thread, picked out by `own`, are the events of
the run in which only that thread moves. -/
theorem rb_of_thread {V : View n σ S K C E} {outcome : T × C × X → Outcome E} {init : σ}
    {f : σ → CallLabel T A X K → σ}
    (h0 : Agrees V outcome init (State.start : State T X K C))
    (hstep : ∀ s ts sch l, Agrees V outcome s ts → P.OwnContexts (ts, sch) → sch.Allowed l →
      Agrees V outcome (f s l) (P.step ts l))
    {es : List (CallLabel T A X K)} (hv : (scheduled init f).Valid es)
    (hev : ∀ l ∈ es, l.isEvict = false) {t : T} {own : E → Bool}
    (hown : ∀ call e, P.report outcome call = some e → (own e = true ↔ call.1 = t)) :
    (V.rb ((scheduled init f).run es).1).filter own =
      V.rb ((scheduled init f).run (es.filter (·.isOf t))).1 := by
  have hev' : ∀ l ∈ es.filter (·.isOf t), l.isEvict = false := fun l hl =>
    hev l (List.mem_of_mem_filter hl)
  rw [P.rb_eq_reports h0 hstep hv hev,
    P.rb_eq_reports h0 hstep (scheduled_valid_filter t hv) hev', scheduled_run_snd,
    scheduled_run_snd, ← Schedule.calls_of_thread, List.filter_filterMap, List.filterMap_filter]
  refine List.filterMap_congr fun call _ => ?_
  cases he : P.report outcome call with
  | none => simp
  | some e =>
      by_cases hc : call.1 = t
      · simp [Option.filter, (hown call e he).mpr hc, hc]
      · have hne : own e = false := by
          rw [Bool.eq_false_iff]
          exact fun ho => hc ((hown call e he).mp ho)
        simp [Option.filter, hne, hc]

end Tracker

end EbpfToolbox.Lib
