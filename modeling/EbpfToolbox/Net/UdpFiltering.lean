import EbpfToolbox.Net.UdpSettlement

/-!
# Filtered UDP sends and lost contexts

`record_udp_send` counts a call of a rejected thread as `filtered_pid` and stores
nothing. `finish_udp_send` does not repeat the filter: it finds no depth entry
for such a thread and counts `lookup_missed`, the counter for entries that were
lost. Runs without failing insertions and without evictions tell the two apart:
every missed lookup is the return of a rejected call.
-/

namespace EbpfToolbox.Net.UdpMonitor

open Common Lib

variable {n : ℕ} {T : Type}

/-- The step is an entry of a thread that the filter rejects. -/
def rejectedEntry (c : Ctrl) (K : Kernel T) : Step T n → Bool
  | .enter _ t _ => !unfiltered c (K.task t)
  | _ => false

/-- The step is a return of a thread that the filter rejects. -/
def rejectedReturn (c : Ctrl) (K : Kernel T) : Step T n → Bool
  | .leave t _ => !unfiltered c (K.task t)
  | _ => false

/-- `filtered_pid` and `lookup_missed`, summed over the CPUs. -/
def State.rejects (s : State n) : ℕ × ℕ :=
  (s.stats.total (·.filteredPid), s.stats.total (·.lookupMissed))

theorem rejects_modify {s s' : State n} {cpu : Fin n} {f : Stats → Stats}
    (hstats : s'.stats = s.stats.modify cpu f) {i j : ℕ}
    (hf : ∀ st, (f st).filteredPid = st.filteredPid + i ∧
      (f st).lookupMissed = st.lookupMissed + j) : s'.rejects = s.rejects + (i, j) := by
  simp only [State.rejects, hstats]
  rw [PerCpu.total_modify_add _ _ _ _ (hf _).1, PerCpu.total_modify_add _ _ _ _ (hf _).2]
  rfl

/-- An update of other counters. -/
theorem rejects_quiet {s s' : State n} {cpu : Fin n} {f : Stats → Stats}
    (hstats : s'.stats = s.stats.modify cpu f)
    (hf : ∀ st, (f st).filteredPid = st.filteredPid ∧ (f st).lookupMissed = st.lookupMissed) :
    s'.rejects = s.rejects :=
  rejects_modify hstats (i := 0) (j := 0) hf

/-! ## Steps -/

theorem rejects_recordUnfiltered (cur : Task) (visible : UInt64) (a : SendArgs n) (s : State n) :
    (recordUnfiltered cur visible a s).rejects = s.rejects := by
  simp only [recordUnfiltered]
  cases s.depthMap.get cur.pidTgid with
  | some depth =>
      refine rejects_quiet rfl ?_
      exact fun _ => ⟨rfl, rfl⟩
  | none =>
      simp only
      split_ifs
      · refine rejects_quiet rfl ?_
        exact fun _ => ⟨rfl, rfl⟩
      · refine rejects_quiet rfl ?_
        exact fun _ => ⟨rfl, rfl⟩
      · refine rejects_quiet rfl ?_
        exact fun _ => ⟨rfl, rfl⟩

theorem rejects_settle (c : Ctrl) (v : UdpStart) (x : ReturnArgs n) (s : State n) :
    (settle c v x s).rejects = s.rejects := by
  simp only [settle]
  split_ifs
  · refine rejects_quiet rfl ?_
    exact fun _ => ⟨rfl, rfl⟩
  · refine rejects_quiet (PerCpu.modify_modify _ _ _ _) ?_
    exact fun _ => ⟨rfl, rfl⟩
  · refine rejects_quiet (PerCpu.modify_modify _ _ _ _) ?_
    exact fun _ => ⟨rfl, rfl⟩
  · refine rejects_quiet rfl ?_
    exact fun _ => ⟨rfl, rfl⟩

/-- The return of an unfiltered thread finds its depth and its context. -/
theorem rejects_leave_unfiltered {c : Ctrl} (hen : c.enable = true) {cur : Task} {s : State n}
    {call : ActiveCall} {rest : List ActiveCall} (ht : TrackedAt c cur s (call :: rest))
    (h : AnchoredAt cur s (call :: rest)) (x : ReturnArgs n) :
    (finishUdpSend c cur x s).rejects = s.rejects := by
  have hg := depth_of_anchored ht h (by simp)
  rcases h with h | ⟨inner, o, v, hl, -, hv, -⟩
  · cases h
  have hnz : v.startTs ≠ 0 := (ht.start v hv).2
  simp only [finishUdpSend, hg]
  split_ifs
  · rfl
  · simp only [finishOutermost, hv, if_neg hnz, hen, Bool.true_eq_false, if_false]
    exact rejects_settle c v x _

variable [DecidableEq T] {c : Ctrl} {K : Kernel T} {s : State n × Calls T}

/-- One step counts a rejected entry as filtered and a rejected return as missed. -/
theorem rejects_step (hen : c.enable = true) {e : Step T n} (ht : Tracked c K s)
    (h : Anchored c K s) (ha : (sends n c K).Allowed s e) :
    (step c K s e).1.rejects = s.1.rejects +
      ((if rejectedEntry c K e then 1 else 0), (if rejectedReturn c K e then 1 else 0)) := by
  cases e with
  | enter family t a =>
      cases hu : unfiltered c (K.task t) with
      | false =>
          simp only [step, entryProbe_of_filtered hen hu, rejectedEntry, rejectedReturn, hu]
          refine rejects_modify rfl ?_
          exact fun _ => ⟨rfl, rfl⟩
      | true =>
          simp only [step, entryProbe_of_unfiltered hen hu, rejectedEntry, rejectedReturn, hu]
          exact rejects_recordUnfiltered _ _ a s.1
  | leave t x =>
      obtain ⟨call, rest, hst⟩ : ∃ call rest, s.2.stack t = call :: rest :=
        List.ne_nil_iff_exists_cons.mp (List.isEmpty_eq_false_iff.mp ha)
      have htt := ht t
      rw [hst] at htt
      simp only [step, hst, returnProbe_eq]
      cases hu : unfiltered c (K.task t) with
      | false =>
          -- nothing was stored for the thread, and the probe does not ask why
          have hg : s.1.depthMap.get (K.task t).pidTgid = none := by
            simp [htt.depth, htt.filtered hu]
          simp only [finishUdpSend, hg, missed, hen, if_true, rejectedEntry, rejectedReturn, hu]
          refine rejects_modify rfl ?_
          exact fun _ => ⟨rfl, rfl⟩
      | true =>
          have hanc := h t hu
          rw [hst] at hanc
          rw [rejects_leave_unfiltered hen htt hanc]
          simp [rejectedEntry, rejectedReturn, hu]
  | sendSkb t x => rfl
  | sendSkbV6 t x => rfl
  | evict key => rfl

/-! ## Runs -/

theorem rejects_run (hen : c.enable = true) {es : List (Step T n)}
    (hv : ((sends n c K).restrict InRange).Valid es) (hok : ∀ e ∈ es, e.succeeds = true) :
    ((sends n c K).run es).1.rejects =
      (es.countP (rejectedEntry c K), es.countP (rejectedReturn c K)) := by
  induction es using List.reverseRecOn with
  | nil =>
      exact Prod.ext (PerCpu.total_const_zero _ _ rfl) (PerCpu.total_const_zero _ _ rfl)
  | append_singleton es e ih =>
      rw [Machine.valid_snoc] at hv
      have hok' : ∀ e ∈ es, e.succeeds = true := fun e he => hok e (List.mem_append_left _ he)
      obtain ⟨htracked, hset⟩ := tracked_run hen hv.1
      rw [Machine.run_snoc]
      refine (rejects_step hen htracked (hset hok').1 hv.2.1).trans ?_
      rw [ih hv.1 hok', List.countP_append, List.countP_append, List.countP_singleton,
        List.countP_singleton]
      rfl

/-- `lookup_missed` stays at 0 and `filtered_pid` counts the rejected entries
exactly when no call of a rejected thread returns. -/
theorem rejected_calls_are_not_missed_iff (c : Ctrl) (K : Kernel T) (hen : c.enable = true)
    {es : List (Step T n)} (hv : ((sends n c K).restrict InRange).Valid es)
    (hok : ∀ e ∈ es, e.succeeds = true) :
    (((sends n c K).run es).1.stats.total (·.lookupMissed) = 0 ∧
        ((sends n c K).run es).1.stats.total (·.filteredPid) = es.countP (rejectedEntry c K)) ↔
      ∀ e ∈ es, rejectedReturn c K e = false := by
  obtain ⟨hfiltered, hmissed⟩ := Prod.mk.inj (rejects_run hen hv hok)
  rw [hmissed, hfiltered, List.countP_eq_zero]
  simp

/-- Process 1 is selected; a send of process 2 has been entered and is still running. -/
theorem running_rejected_call_is_filtered :
    let c : Ctrl := ⟨true, 0, 1, 0, 0⟩
    let sock : Sock := ⟨afInet, 40000, 53, 1, 2, Vector.replicate _ 0, Vector.replicate _ 0⟩
    let es : List (Step (Fin 2) 1) :=
      [.enter .v4 0 ⟨0, 10, Vector.replicate _ 0, sock, 5, none, false, false⟩,
        .enter .v4 1 ⟨0, 20, Vector.replicate _ 0, sock, 5, none, false, false⟩,
        .leave 0 ⟨0, 30, 5, true⟩]
    let s := (sends 1 c Kernel.two).run es
    es.countP (rejectedEntry c Kernel.two) = 1 ∧ s.1.stats.total (·.lookupMissed) = 0 ∧
      s.1.stats.total (·.filteredPid) = es.countP (rejectedEntry c Kernel.two) := by
  intro c sock es s
  have hv : ((sends 1 c Kernel.two).restrict InRange).Valid es := by decide +kernel
  have hiff := rejected_calls_are_not_missed_iff c Kernel.two rfl hv (by decide +kernel)
  exact ⟨by decide +kernel, hiff.mpr (by decide +kernel)⟩

/-- The call of process 2 returns and is counted a second time, as a lost context. -/
theorem returned_rejected_call_is_missed :
    let c : Ctrl := ⟨true, 0, 1, 0, 0⟩
    let sock : Sock := ⟨afInet, 40000, 53, 1, 2, Vector.replicate _ 0, Vector.replicate _ 0⟩
    let es : List (Step (Fin 2) 1) :=
      [.enter .v4 1 ⟨0, 20, Vector.replicate _ 0, sock, 5, none, false, false⟩,
        .leave 1 ⟨0, 30, 5, true⟩]
    let s := (sends 1 c Kernel.two).run es
    ((sends 1 c Kernel.two).restrict InRange).Valid es ∧ (∀ e ∈ es, e.succeeds = true) ∧
      s.1.stats.total (·.filteredPid) = 1 ∧ s.1.stats.total (·.lookupMissed) = 1 ∧
      ¬ s.1.stats.total (·.lookupMissed) = 0 := by
  intro c sock es s
  decide +kernel

end EbpfToolbox.Net.UdpMonitor
