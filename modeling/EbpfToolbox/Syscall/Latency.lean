import EbpfToolbox.Syscall.Syscall

/-!
# The latency threshold of syscall

`trace_enter` and `trace_exit` keep both times in whole microseconds, and the exit scales
the difference back to nanoseconds for the comparison with `min_latency_ns`. The latency
that is compared is off by the difference of what was cut from the two times, and an entry
in the first microsecond of the clock looks like an empty slot.
-/

namespace EbpfToolbox.Syscall

open Common Lib

variable {n : ℕ} {T : Type}

/-- The CPU the step runs on. -/
def Step.cpu : Step T n → Fin n
  | .enter _ a => a.cpu
  | .leave _ x => x.cpu

variable [DecidableEq T]

/-! ## The slot between entry and exit -/

theorem step_slot_of_ne (K : Kernel T) (s : State n × Trace T n) {e : Step T n} {c : Fin n}
    (hc : e.cpu ≠ c) : (step K s e).1.enterMap c = s.1.enterMap c := by
  cases e with
  | enter t a =>
      simp only [step, traceEnter]
      split_ifs
      · rfl
      · exact PerCpu.modify_of_ne _ _ (Ne.symm hc)
  | leave t x =>
      simp only [step, traceExit]
      split_ifs
      · rfl
      · rfl
      all_goals exact PerCpu.modify_of_ne _ _ (Ne.symm hc)

/-- Steps on other CPUs leave the slot alone. -/
theorem runFrom_slot (K : Kernel T) (s : State n × Trace T n) {es : List (Step T n)} {c : Fin n}
    (hc : ∀ e ∈ es, e.cpu ≠ c) : ((calls n K).runFrom s es).1.enterMap c = s.1.enterMap c := by
  induction es generalizing s with
  | nil => rfl
  | cons e es ih =>
      rw [Machine.runFrom_cons, ih _ fun e' he' => hc e' (List.mem_cons_of_mem e he')]
      exact step_slot_of_ne K s (hc e List.mem_cons_self)

/-! ## When an exit submits an event -/

omit [DecidableEq T] in
/-- With collection on, the PID filter passed and room in the ring buffer. -/
theorem traceExit_submits_iff {pidTgid : UInt64} {x : ExitArgs n} {s : State n}
    (hen : x.ctrl.enable = true) (hres : x.reserved = true)
    (hpid : x.ctrl.targetPid = 0 ∨ (tgidOf pidTgid).toInt32 = x.ctrl.targetPid) :
    (∃ e, (traceExit pidTgid x s).rb = s.rb ++ [e]) ↔
      (s.enterMap x.cpu).startTs ≠ 0 ∧ (x.ctrl.minLatencyNs = 0 ∨
        x.ctrl.minLatencyNs ≤ (x.now / 1000 - (s.enterMap x.cpu).startTs) * 1000) := by
  have hpidPass : ¬(x.ctrl.targetPid ≠ 0 ∧
      (mkEvent pidTgid (s.enterMap x.cpu) x).pid ≠ x.ctrl.targetPid) := by
    rintro ⟨h0, hne⟩
    exact hpid.elim h0 hne
  have hnone : ¬∃ e, s.rb = s.rb ++ [e] := by
    rintro ⟨e, he⟩
    simp at he
  simp only [traceExit, hen, hres, Bool.true_eq_false, if_false]
  by_cases hts : (s.enterMap x.cpu).startTs = 0
  · simp only [hts, if_true, ne_eq, not_true, false_and, iff_false]
    exact hnone
  · rw [if_neg hts]
    by_cases hfil : filtered x.ctrl (mkEvent pidTgid (s.enterMap x.cpu) x)
    · rw [if_pos hfil]
      obtain ⟨hm, hlt⟩ := hfil.resolve_left hpidPass
      apply iff_of_false hnone
      rintro ⟨-, h | h⟩
      · exact hm h
      · exact UInt64.not_le.2 hlt h
    · rw [if_neg hfil]
      refine iff_of_true ⟨_, rfl⟩ ⟨hts, ?_⟩
      by_cases hm : x.ctrl.minLatencyNs = 0
      · exact Or.inl hm
      · exact Or.inr (UInt64.not_lt.1 fun hlt => hfil (Or.inr ⟨hm, hlt⟩))

/-- The comparison in whole microseconds, without wrapping. -/
theorem scaled_delay_toNat {t₀ t₁ : UInt64} (h : t₀ ≤ t₁) :
    ((t₁ / 1000 - t₀ / 1000) * 1000).toNat = (t₁.toNat / 1000 - t₀.toNat / 1000) * 1000 := by
  have hle : t₀.toNat / 1000 ≤ t₁.toNat / 1000 :=
    Nat.div_le_div_right (UInt64.le_iff_toNat_le.1 h)
  have hsub : (t₁ / 1000 - t₀ / 1000).toNat = t₁.toNat / 1000 - t₀.toNat / 1000 := by
    rw [UInt64.toNat_sub_of_le]
    · rfl
    · exact UInt64.le_iff_toNat_le.2 hle
  have hsize : t₁.toNat < 2 ^ 64 := t₁.toNat_lt
  rw [UInt64.toNat_mul, hsub, show (1000 : UInt64).toNat = 1000 from rfl]
  exact Nat.mod_eq_of_lt (by omega)

/-! ## One call on one CPU -/

/-- Thread `t` enters a call with `a` and leaves it with `x` on the same CPU; the steps `mid`
in between are on other CPUs. Collection is on, the PID filter passes and there is room in
the ring buffer. -/
structure OneCall (K : Kernel T) (t : T) (a : EnterArgs n) (mid : List (Step T n))
    (x : ExitArgs n) : Prop where
  enterOn : a.ctrl.enable = true
  exitOn : x.ctrl.enable = true
  sameCpu : a.cpu = x.cpu
  others : ∀ e ∈ mid, e.cpu ≠ x.cpu
  ordered : a.now ≤ x.now
  pid : x.ctrl.targetPid = 0 ∨ (tgidOf (K.task t).pidTgid).toInt32 = x.ctrl.targetPid
  room : x.reserved = true

/-- The exit of the call submits an event. -/
def Submits (K : Kernel T) (s : State n × Trace T n) (t : T) (a : EnterArgs n)
    (mid : List (Step T n)) (x : ExitArgs n) : Prop :=
  let s' := (calls n K).runFrom s (.enter t a :: mid)
  ∃ e, (step K s' (.leave t x)).1.rb = s'.1.rb ++ [e]

/-- What decides is the latency between the two times in whole microseconds. -/
theorem OneCall.submits_iff {K : Kernel T} {t : T} {a : EnterArgs n} {mid : List (Step T n)}
    {x : ExitArgs n} (h : OneCall K t a mid x) (s : State n × Trace T n) :
    Submits K s t a mid x ↔ 1000 ≤ a.now.toNat ∧
      x.ctrl.minLatencyNs.toNat ≤ (x.now.toNat / 1000 - a.now.toNat / 1000) * 1000 := by
  have hslot : (((calls n K).runFrom s (.enter t a :: mid)).1.enterMap x.cpu).startTs =
      a.now / 1000 := by
    rw [Machine.runFrom_cons, runFrom_slot K _ h.others, ← h.sameCpu]
    show ((traceEnter a s.1).enterMap a.cpu).startTs = _
    simp [traceEnter, h.enterOn]
  have hzero : a.now / 1000 ≠ 0 ↔ 1000 ≤ a.now.toNat := by
    rw [ne_eq, ← UInt64.toNat_inj, UInt64.toNat_div]
    show ¬a.now.toNat / 1000 = 0 ↔ _
    omega
  unfold Submits
  simp only [step]
  rw [traceExit_submits_iff h.exitOn h.room h.pid, hslot, hzero]
  refine and_congr_right fun _ => ?_
  rw [UInt64.le_iff_toNat_le, scaled_delay_toNat h.ordered, ← UInt64.toNat_inj]
  show x.ctrl.minLatencyNs.toNat = 0 ∨ _ ↔ _
  omega

/-- An event is submitted exactly for a latency of at least `m`, or when `m` is 0. -/
def ThresholdMet (submitted : Prop) (t₀ t₁ m : UInt64) : Prop :=
  submitted ↔ m = 0 ∨ m ≤ t₁ - t₀

theorem thresholdMet_iff {submitted : Prop} {t₀ t₁ m : UInt64} (h : t₀ ≤ t₁) :
    ThresholdMet submitted t₀ t₁ m ↔ (submitted ↔ m.toNat ≤ t₁.toNat - t₀.toNat) := by
  unfold ThresholdMet
  rw [UInt64.le_iff_toNat_le, UInt64.toNat_sub_of_le _ _ h, ← UInt64.toNat_inj]
  show (submitted ↔ m.toNat = 0 ∨ _) ↔ _
  have hzero : (m.toNat = 0 ∨ m.toNat ≤ t₁.toNat - t₀.toNat) ↔
      m.toNat ≤ t₁.toNat - t₀.toNat := by
    omega
  rw [hzero]

/-- The threshold is on the same side of the latency and of what is left of it when both
times are cut to microseconds, and the entry is not in the first microsecond unless the
latency is below the threshold anyway. -/
def ThresholdAligned (t₀ t₁ m : ℕ) : Prop :=
  (1000 ≤ t₀ ∧ m ≤ t₁ - t₀ ∧ m + t₁ % 1000 ≤ t₁ - t₀ + t₀ % 1000) ∨
    (t₁ - t₀ < m ∧ (t₀ < 1000 ∨ t₁ - t₀ + t₀ % 1000 < m + t₁ % 1000))

instance (t₀ t₁ m : ℕ) : Decidable (ThresholdAligned t₀ t₁ m) :=
  inferInstanceAs (Decidable (_ ∨ _))

/-- In every state and around every activity of the other CPUs, a call is judged by its
latency in nanoseconds exactly when the threshold is aligned with its two times. -/
theorem threshold_met_iff_aligned (K : Kernel T) (s : State n × Trace T n) {t : T}
    {a : EnterArgs n} {mid : List (Step T n)} {x : ExitArgs n} (h : OneCall K t a mid x) :
    ThresholdMet (Submits K s t a mid x) a.now x.now x.ctrl.minLatencyNs ↔
      ThresholdAligned a.now.toNat x.now.toNat x.ctrl.minLatencyNs.toNat := by
  have hle : a.now.toNat ≤ x.now.toNat := UInt64.le_iff_toNat_le.1 h.ordered
  rw [thresholdMet_iff h.ordered, h.submits_iff s]
  unfold ThresholdAligned
  constructor
  · intro hiff
    by_cases hm : x.ctrl.minLatencyNs.toNat ≤ x.now.toNat - a.now.toNat
    · have hsub := hiff.2 hm
      left
      omega
    · have hsub := fun hs => hm (hiff.1 hs)
      right
      omega
  · rintro (⟨ht, hm, hcut⟩ | ⟨hm, hcut⟩)
    · exact iff_of_true ⟨ht, by omega⟩ hm
    · exact iff_of_false (fun hs => by omega) (by omega)

/-- A call of the first thread on the first CPU, from `t₀` to `t₁`, with the threshold `m`. -/
def callEnter (t₀ m : UInt64) : EnterArgs 1 := ⟨⟨true, m, 0⟩, ⟨0, Nat.one_pos⟩, t₀, 0⟩

def callExit (t₁ m : UInt64) : ExitArgs 1 :=
  ⟨⟨true, m, 0⟩, ⟨0, Nat.one_pos⟩, t₁, Vector.replicate _ 0, true⟩

theorem oneCall_example {t₀ t₁ m : UInt64} (h : t₀ ≤ t₁) :
    OneCall Kernel.two ⟨0, Nat.two_pos⟩ (callEnter t₀ m) [] (callExit t₁ m) :=
  ⟨rfl, rfl, rfl, by simp, h, Or.inl rfl, rfl⟩

/-- A call of 5000 ns that starts on a whole microsecond, against a threshold of 4000 ns. -/
theorem threshold_met_at_whole_microseconds :
    ThresholdMet (Submits Kernel.two (State.start 1, Trace.start _ 1) ⟨0, Nat.two_pos⟩
      (callEnter 2000 4000) [] (callExit 7000 4000)) 2000 7000 4000 :=
  (threshold_met_iff_aligned Kernel.two _ (oneCall_example (by decide +kernel))).2
    (by decide +kernel)

/-- 1999 ns from 2000 to 3999 are one microsecond to the code, and the event is missed
under a threshold of 1500 ns; 1001 ns from 1999 to 3000 are two, and the event is submitted. -/
theorem threshold_missed_between_microseconds :
    OneCall Kernel.two ⟨0, Nat.two_pos⟩ (callEnter 2000 1500) [] (callExit 3999 1500) ∧
      ¬ThresholdMet (Submits Kernel.two (State.start 1, Trace.start _ 1) ⟨0, Nat.two_pos⟩
        (callEnter 2000 1500) [] (callExit 3999 1500)) 2000 3999 1500 ∧
      ¬ThresholdMet (Submits Kernel.two (State.start 1, Trace.start _ 1) ⟨0, Nat.two_pos⟩
        (callEnter 1999 1500) [] (callExit 3000 1500)) 1999 3000 1500 := by
  have hlong : OneCall Kernel.two ⟨0, Nat.two_pos⟩ (callEnter 2000 1500) [] (callExit 3999 1500) :=
    oneCall_example (by decide +kernel)
  have hshort : OneCall Kernel.two ⟨0, Nat.two_pos⟩ (callEnter 1999 1500) [] (callExit 3000 1500) :=
    oneCall_example (by decide +kernel)
  refine ⟨hlong, ?_, ?_⟩
  · rw [thresholdMet_iff (by decide +kernel), hlong.submits_iff]
    decide +kernel
  · rw [thresholdMet_iff (by decide +kernel), hshort.submits_iff]
    decide +kernel

end EbpfToolbox.Syscall
