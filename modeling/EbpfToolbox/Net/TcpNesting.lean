import EbpfToolbox.Lib.Machine
import EbpfToolbox.Net.TcpMonitor

/-!
# Application connects and the connect functions

An application connect enters `tcp_v4_connect` or `tcp_v6_connect`, and
`tcp_v6_connect` calls `tcp_v4_connect` on the same socket when the destination
is an IPv4-mapped address. Both functions carry the probes, and unlike
udp_monitor this module has no depth map: the inner call is recorded as a
connect of its own and its session overwrites the outer one.
-/

namespace EbpfToolbox.Net.TcpMonitor

open Common Lib

variable {n : ℕ}

/-- Where an application connect stands: before, inside or after the call of
`tcp_v4_connect` by `tcp_v6_connect`. -/
inductive Phase : Type where
  | outer
  | inner
  | after
deriving DecidableEq, Repr

/-- An application connect that has not returned; it holds the socket lock. -/
structure AppCall where
  family : Family
  cur : Task
  entryTs : UInt64
  phase : Phase

/-- `enter`: an application connect enters its connect function. `nest`,
`unnest`: `tcp_v6_connect` enters and leaves `tcp_v4_connect`. `leave`: the
outermost function returns. `other`: any probe that is not of a connect function. -/
inductive AppStep (n : ℕ) : Type where
  | enter (family : Family) (cur : Task) (sk : UInt64) (a : ConnectArgs n)
  | nest (sk : UInt64) (a : ConnectArgs n)
  | unnest (sk : UInt64) (sock : Sock) (ret : Int32)
  | leave (sk : UInt64) (sock : Sock) (ret : Int32)
  | other (p : Probe n)

def AppStep.isNest : AppStep n → Bool
  | nest _ _ => true
  | _ => false

/-- The application connects: those running, how many there were, and for every
socket the entry time of the outermost function of the connect that stored the
session. -/
structure Calls where
  active : UInt64 → Option AppCall
  connects : ℕ
  outermost : UInt64 → Option UInt64

def Calls.start : Calls := ⟨fun _ => none, 0, fun _ => none⟩

/-- The application connect `call` stores its session at `sk`, unless the insertion fails. -/
def Calls.store (g : Calls) (sk : UInt64) (call : AppCall) (a : ConnectArgs n) : Calls :=
  { g with
    active := Function.update g.active sk (some call)
    outermost := if a.updateFails then g.outermost
      else Function.update g.outermost sk (some call.entryTs) }

def appStep (ctrl : Ctrl) (s : State n × Calls) : AppStep n → State n × Calls
  | .enter family cur sk a =>
      (Probe.run ctrl s.1 (.connect family cur sk a),
        { s.2.store sk ⟨family, cur, a.now, .outer⟩ a with connects := s.2.connects + 1 })
  | .nest sk a =>
      match s.2.active sk with
      | some call =>
          (Probe.run ctrl s.1 (.connect .v4 call.cur sk a),
            s.2.store sk { call with phase := .inner } a)
      | none => s
  | .unnest sk sock ret =>
      match s.2.active sk with
      | some call =>
          (Probe.run ctrl s.1 (.connectExit .v4 sk sock ret),
            { s.2 with active := Function.update s.2.active sk (some { call with phase := .after }) })
      | none => s
  | .leave sk sock ret =>
      match s.2.active sk with
      | some call =>
          (Probe.run ctrl s.1 (.connectExit call.family sk sock ret),
            { s.2 with active := Function.update s.2.active sk none })
      | none => s
  | .other p => (Probe.run ctrl s.1 p, s.2)

/-- What the kernel allows: one connect at a time on a socket, by threads that
the filter lets through, and at most one nested call, inside `tcp_v6_connect`. -/
def appAllowed (ctrl : Ctrl) (s : State n × Calls) : AppStep n → Prop
  | .enter _ cur sk _ => (s.2.active sk).isNone ∧ recorded ctrl cur = true
  | .nest sk _ => (s.2.active sk).any fun call => call.family = .v6 && call.phase = .outer
  | .unnest sk _ _ => (s.2.active sk).any fun call => call.phase = .inner
  | .leave sk _ _ => (s.2.active sk).any fun call => call.phase ≠ .inner
  | .other p => match p with
    | .connect .. => False
    | .connectExit .. => False
    | _ => True

def applications (n : ℕ) (ctrl : Ctrl) : Machine (State n × Calls) (AppStep n) where
  init := (State.start n, Calls.start)
  step := appStep ctrl
  Allowed := appAllowed ctrl

instance (ctrl : Ctrl) (s : State n × Calls) (e : AppStep n) :
    Decidable ((applications n ctrl).Allowed s e) :=
  match e with
  | .enter _ cur sk _ =>
      inferInstanceAs (Decidable ((s.2.active sk).isNone ∧ recorded ctrl cur = true))
  | .nest .. | .unnest .. | .leave .. => inferInstanceAs (Decidable (_ = true))
  | .other (.connect ..) | .other (.connectExit ..) => inferInstanceAs (Decidable False)
  | .other (.finishConnect ..) | .other (.retransmit ..) | .other (.close ..)
  | .other (.evict ..) => inferInstanceAs (Decidable True)

/-- One application connect counts once, and a session starts with the outermost function. -/
def CountsOnce (s : State n × Calls) : Prop :=
  s.1.stats.total (·.connectAttempted) = s.2.connects ∧
    ∀ sk sess, s.1.sessMap.get sk = some sess → s.2.outermost sk = some sess.startTs

/-! ## What each step adds -/

/-- The threads of the running connects pass the filter. -/
def CallersRecorded (ctrl : Ctrl) (s : State n × Calls) : Prop :=
  ∀ sk call, s.2.active sk = some call → recorded ctrl call.cur = true

theorem callersRecorded_update {ctrl : Ctrl} {s s' : State n × Calls} {sk : UInt64}
    {new : Option AppCall} (h : CallersRecorded ctrl s)
    (hs : s'.2.active = Function.update s.2.active sk new)
    (hnew : ∀ call, new = some call → recorded ctrl call.cur = true) :
    CallersRecorded ctrl s' := by
  intro k call hk
  rw [hs] at hk
  by_cases hks : k = sk
  · subst hks
    rw [Function.update_self] at hk
    exact hnew call hk
  · rw [Function.update_of_ne hks] at hk
    exact h k call hk

theorem callersRecorded_step {ctrl : Ctrl} {s : State n × Calls} {e : AppStep n}
    (h : CallersRecorded ctrl s) (ha : appAllowed ctrl s e) :
    CallersRecorded ctrl (appStep ctrl s e) := by
  cases e with
  | enter family cur sk a =>
      refine callersRecorded_update h rfl fun call hcall => ?_
      rw [← Option.some.inj hcall]
      exact ha.2
  | nest sk a =>
      simp only [appStep]
      cases hc : s.2.active sk with
      | none => exact h
      | some call =>
          refine callersRecorded_update h rfl fun call' hcall => ?_
          rw [← Option.some.inj hcall]
          exact h sk call hc
  | unnest sk sock ret =>
      simp only [appStep]
      cases hc : s.2.active sk with
      | none => exact h
      | some call =>
          refine callersRecorded_update h rfl fun call' hcall => ?_
          rw [← Option.some.inj hcall]
          exact h sk call hc
  | leave sk sock ret =>
      simp only [appStep]
      cases hc : s.2.active sk with
      | none => exact h
      | some call => exact callersRecorded_update h rfl fun _ hcall => nomatch hcall
  | other p => exact h

/-- `connect_attempted` moves with the application connects and with the nested calls. -/
theorem attempted_step {ctrl : Ctrl} {s : State n × Calls} {e : AppStep n}
    (h : CallersRecorded ctrl s) (ha : appAllowed ctrl s e) :
    (appStep ctrl s e).1.stats.total (·.connectAttempted) + s.2.connects =
      s.1.stats.total (·.connectAttempted) + (appStep ctrl s e).2.connects +
        if e.isNest then 1 else 0 := by
  cases e with
  | enter family cur sk a =>
      have hdo := (Probe.connect family cur sk a).run_does ctrl s.1
      have hatt := hdo.attempted
      simp only [Probe.attempts, ha.2, if_true] at hatt
      simp only [appStep, AppStep.isNest, hatt, Bool.false_eq_true, if_false]
      omega
  | nest sk a =>
      -- the inner function runs the same probe: it counts, but it is no connect of its own
      obtain ⟨call, hc, _⟩ := (Option.any_eq_true _ _).mp ha
      have hdo := (Probe.connect .v4 call.cur sk a).run_does ctrl s.1
      have hatt := hdo.attempted
      simp only [Probe.attempts, h sk call hc, if_true] at hatt
      simp only [appStep, AppStep.isNest, hc, hatt, Calls.store, if_true]
      omega
  | unnest sk sock ret =>
      obtain ⟨call, hc, _⟩ := (Option.any_eq_true _ _).mp ha
      have hatt := ((Probe.connectExit .v4 sk sock ret).run_does ctrl s.1).attempted
      simp only [appStep, AppStep.isNest, hc, hatt, Probe.attempts, Bool.false_eq_true, if_false]
      omega
  | leave sk sock ret =>
      obtain ⟨call, hc, _⟩ := (Option.any_eq_true _ _).mp ha
      have hatt := ((Probe.connectExit call.family sk sock ret).run_does ctrl s.1).attempted
      simp only [appStep, AppStep.isNest, hc, hatt, Probe.attempts, Bool.false_eq_true, if_false]
      omega
  | other p =>
      have hatt := (p.run_does ctrl s.1).attempted
      have hzero : p.attempts ctrl = 0 := by
        cases p with
        | connect => exact ha.elim
        | connectExit => rfl
        | finishConnect => rfl
        | retransmit => rfl
        | close => rfl
        | evict => rfl
      simp only [appStep, AppStep.isNest, hatt, hzero, Bool.false_eq_true, if_false]
      omega

/-- Only a connect gives a session a new start. -/
theorem session_startTs {ctrl : Ctrl} {p : Probe n} {old : Option TcpSess} {sess : TcpSess}
    (hp : p.attempts ctrl = 0) (hs : p.session ctrl old = some sess) :
    ∃ sess', old = some sess' ∧ sess.startTs = sess'.startTs := by
  cases p with
  | connect family cur sk a =>
      cases hr : recorded ctrl cur with
      | true => simp [Probe.attempts, hr] at hp
      | false => exact ⟨sess, by simpa [Probe.session, hr] using hs, rfl⟩
  | connectExit family sk sock ret =>
      simp only [Probe.session] at hs
      split_ifs at hs
      obtain ⟨sess', hold, rfl⟩ := Option.map_eq_some_iff.mp hs
      exact ⟨sess', hold, by simp⟩
  | finishConnect sk x =>
      obtain ⟨sess', hold, rfl⟩ := Option.map_eq_some_iff.mp hs
      refine ⟨sess', hold, ?_⟩
      simp only [settled]
      split_ifs <;> simp
  | retransmit sk x =>
      obtain ⟨sess', hold, rfl⟩ := Option.map_eq_some_iff.mp hs
      refine ⟨sess', hold, ?_⟩
      split_ifs <;> rfl
  | close sk x => cases hs
  | evict sk => cases hs

/-- Every session starts with the outermost function of its application connect. -/
def StartsOutermost (s : State n × Calls) : Prop :=
  ∀ sk sess, s.1.sessMap.get sk = some sess → s.2.outermost sk = some sess.startTs

theorem startsOutermost_of_keeps (ctrl : Ctrl) {s s' : State n × Calls} {p : Probe n}
    (h : StartsOutermost s) (hp : p.attempts ctrl = 0) (hs : s'.1 = p.run ctrl s.1)
    (hout : s'.2.outermost = s.2.outermost) : StartsOutermost s' := by
  have hdo := p.run_does ctrl s.1
  intro sk sess hsess
  rw [hs] at hsess
  rw [hout]
  by_cases hk : sk = p.sk
  · subst hk
    obtain ⟨sess', hold, hts⟩ := session_startTs hp (hdo.get_sk.symm.trans hsess)
    rw [hts]
    exact h p.sk sess' hold
  · exact h sk sess ((hdo.get_of_ne hk).symm.trans hsess)

theorem startsOutermost_enter {ctrl : Ctrl} {s : State n × Calls} (h : StartsOutermost s)
    {family : Family} {cur : Task} {sk : UInt64} {a : ConnectArgs n}
    (hr : recorded ctrl cur = true) :
    StartsOutermost (appStep ctrl s (.enter family cur sk a)) := by
  have hdo := (Probe.connect family cur sk a).run_does ctrl s.1
  intro k sess hsess
  by_cases hk : k = sk
  · subst hk
    have hnew := hdo.get_sk.symm.trans hsess
    simp only [Probe.session, hr, Bool.true_and] at hnew
    cases hu : a.updateFails with
    | true =>
        simp only [hu, Bool.not_true, Bool.false_eq_true, if_false] at hnew
        simpa only [appStep, Calls.store, hu, if_true] using h k sess hnew
    | false =>
        simp only [hu, Bool.not_false, if_true] at hnew
        rw [← Option.some.inj hnew]
        simp [appStep, Calls.store, hu, newSess]
  · have hold := h k sess ((hdo.get_of_ne hk).symm.trans hsess)
    simp only [appStep, Calls.store]
    split_ifs
    · exact hold
    · rw [Function.update_of_ne hk]
      exact hold

theorem startsOutermost_step {ctrl : Ctrl} {s : State n × Calls} {e : AppStep n}
    (h : StartsOutermost s) (ha : appAllowed ctrl s e) (hn : e.isNest = false) :
    StartsOutermost (appStep ctrl s e) := by
  cases e with
  | enter family cur sk a => exact startsOutermost_enter h ha.2
  | nest sk a => cases hn
  | unnest sk sock ret =>
      simp only [appStep]
      cases s.2.active sk with
      | none => exact h
      | some call =>
          exact startsOutermost_of_keeps ctrl (p := .connectExit .v4 sk sock ret) h
            rfl rfl rfl
  | leave sk sock ret =>
      simp only [appStep]
      cases s.2.active sk with
      | none => exact h
      | some call =>
          exact startsOutermost_of_keeps ctrl
            (p := .connectExit call.family sk sock ret) h rfl rfl rfl
  | other p =>
      refine startsOutermost_of_keeps ctrl (p := p) h ?_ rfl rfl
      cases p with
      | connect => exact ha.elim
      | connectExit => rfl
      | finishConnect => rfl
      | retransmit => rfl
      | close => rfl
      | evict => rfl

/-! ## Runs -/

/-- `connect_attempted` is the application connects and the nested calls together. -/
theorem attempted_eq_connects_add_nested {ctrl : Ctrl} {es : List (AppStep n)}
    (hv : (applications n ctrl).Valid es) :
    CallersRecorded ctrl ((applications n ctrl).run es) ∧
      ((applications n ctrl).run es).1.stats.total (·.connectAttempted) =
        ((applications n ctrl).run es).2.connects + es.countP AppStep.isNest := by
  induction es using List.reverseRecOn with
  | nil =>
      refine ⟨?_, ?_⟩
      · intro sk call hc
        simp [Machine.run, applications, Calls.start] at hc
      · simp [Machine.run, applications, State.start, Calls.start]
  | append_singleton es e ih =>
      rw [Machine.valid_snoc] at hv
      obtain ⟨hrec, hatt⟩ := ih hv.1
      rw [Machine.run_snoc, List.countP_append, List.countP_singleton]
      refine ⟨callersRecorded_step hrec hv.2, ?_⟩
      have hstep := attempted_step hrec hv.2
      simp only [applications] at hatt hstep ⊢
      omega

theorem startsOutermost_run {ctrl : Ctrl} {es : List (AppStep n)}
    (hv : (applications n ctrl).Valid es) (hn : ∀ e ∈ es, e.isNest = false) :
    StartsOutermost ((applications n ctrl).run es) := by
  induction es using List.reverseRecOn with
  | nil =>
      intro sk sess hsess
      simp [Machine.run, applications, State.start] at hsess
  | append_singleton es e ih =>
      rw [Machine.valid_snoc] at hv
      rw [Machine.run_snoc]
      have hold := ih hv.1 fun e he => hn e (List.mem_append_left _ he)
      exact startsOutermost_step hold hv.2 (hn e (List.mem_append_right _ (by simp)))

/-- One application connect counts once and its session starts with the
outermost function exactly in the runs without a nested call. -/
theorem counts_once_iff_no_nested_connect (ctrl : Ctrl) {es : List (AppStep n)}
    (hv : (applications n ctrl).Valid es) :
    CountsOnce ((applications n ctrl).run es) ↔ ∀ e ∈ es, e.isNest = false := by
  obtain ⟨_, hatt⟩ := attempted_eq_connects_add_nested hv
  constructor
  · rintro ⟨hcount, _⟩ e he
    have hzero : es.countP AppStep.isNest = 0 := by omega
    exact Bool.eq_false_iff.mpr (List.countP_eq_zero.mp hzero e he)
  · intro hn
    have hzero : es.countP AppStep.isNest = 0 :=
      List.countP_eq_zero.mpr fun e he => Bool.eq_false_iff.mp (hn e he)
    exact ⟨by omega, startsOutermost_run hv hn⟩

/-- An IPv4 connect and a plain IPv6 connect on another socket count two. -/
theorem plain_connects_count_once :
    let sock : Sock := ⟨2, 40000, 80, 1, 2, Vector.replicate _ 0, Vector.replicate _ 0, 1⟩
    let task : Task := ⟨packPidTgid 7 7, fun _ _ => none⟩
    let es : List (AppStep 1) :=
      [.enter .v4 task 64 ⟨0, 10, Vector.replicate _ 0, false⟩, .leave 64 sock 0,
        .enter .v6 task 128 ⟨0, 20, Vector.replicate _ 0, false⟩, .leave 128 sock 0]
    ((applications 1 ⟨true, 0, 0, 0, 0⟩).run es).1.stats.total (·.connectAttempted) = 2 ∧
      CountsOnce ((applications 1 ⟨true, 0, 0, 0, 0⟩).run es) := by
  intro sock task es
  refine ⟨by decide +kernel, ?_⟩
  exact (counts_once_iff_no_nested_connect ⟨true, 0, 0, 0, 0⟩ (by decide +kernel)).mpr
    (by decide +kernel)

/-- An IPv4-mapped connect counts two, and its session starts with the inner function. -/
theorem mapped_connect_counts_twice :
    let sock : Sock := ⟨10, 40000, 80, 1, 2, Vector.replicate _ 0, Vector.replicate _ 0, 1⟩
    let task : Task := ⟨packPidTgid 7 7, fun _ _ => none⟩
    let es : List (AppStep 1) :=
      [.enter .v6 task 64 ⟨0, 10, Vector.replicate _ 0, false⟩,
        .nest 64 ⟨0, 20, Vector.replicate _ 0, false⟩, .unnest 64 sock 0, .leave 64 sock 0]
    let s := (applications 1 ⟨true, 0, 0, 0, 0⟩).run es
    (applications 1 ⟨true, 0, 0, 0, 0⟩).Valid es ∧
      s.1.stats.total (·.connectAttempted) = 2 ∧ s.2.connects = 1 ∧
      (s.1.sessMap.get 64).map (·.startTs) = some 20 ∧ ¬ CountsOnce s := by
  intro sock task es s
  have hatt : s.1.stats.total (·.connectAttempted) = 2 := by decide +kernel
  have hcon : s.2.connects = 1 := by decide +kernel
  refine ⟨by decide +kernel, hatt, hcon, by decide +kernel, fun h => ?_⟩
  have heq := h.1
  omega

end EbpfToolbox.Net.TcpMonitor
