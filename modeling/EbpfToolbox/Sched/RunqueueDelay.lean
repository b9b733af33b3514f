import EbpfToolbox.Sched.ContextSwitch
import Mathlib.Data.Rat.Cast.Order
import Mathlib.Tactic.NormNum

/-!
# What the reported delay covers

`sched/context_switch` reports the time from the last recorded wakeup of a task to
the switch that puts it on a CPU. Tasks sleep, wait or run; the kernel also emits
`sched_wakeup` for a task that has not left its CPU yet, and `record_wakeup` does
not look whether the task is running. Such a record survives until the task comes
back to a CPU, and the reported delay then includes the time it went on running.

The machine `scheduler` keeps, next to the state of the probes, the status of every
task and the periods it was running. `Fresh` says that no switch uses a record that
was written while its task was running.
-/

namespace EbpfToolbox.Sched.ContextSwitch

open Common Lib

variable {n : ℕ} {T : Type}

/-! ## Tasks -/

/-- What stays the same about a task: its address and its PIDs in all namespaces. -/
structure Identity where
  addr : UInt64
  threadPid : Option Pid
  groupLeader : Option (Option Pid)

/-- What may be different every time a probe looks at it. -/
structure Look where
  prio : Int32
  comm : Comm
  state : Int32

def Identity.ptr (i : Identity) (l : Look) : TaskPtr where
  addr := i.addr
  task := ⟨i.threadPid, i.groupLeader, l.prio, l.comm⟩
  state := l.state

/-- The filters see the PIDs only. -/
def Identity.wakes (c : Ctrl) (i : Identity) : Bool :=
  ContextSwitch.wakes c ⟨i.threadPid, i.groupLeader, 0, Vector.replicate _ 0⟩

def Identity.switches (c : Ctrl) (i : Identity) : Bool :=
  ContextSwitch.switches c ⟨i.threadPid, i.groupLeader, 0, Vector.replicate _ 0⟩

/-- Tasks do not share their `task_struct`. -/
structure Tasks (T : Type) where
  id : T → Identity
  addr_injective : ∀ t t', (id t).addr = (id t').addr → t = t'

instance : CoeFun (Tasks T) fun _ => T → Identity := ⟨Tasks.id⟩

/-! ## The scheduler -/

inductive Status (n : ℕ) : Type where
  | sleeping
  | runnable
  | running (cpu : Fin n)
deriving DecidableEq

def Status.isRunning : Status n → Bool
  | .running _ => true
  | _ => false

/-- A period in which a task was running, from its switch-in to its switch-out. -/
structure Period (T : Type) where
  task : T
  on : UInt64
  off : UInt64

/-- `hit t`: the last recorded wakeup of `t` came while it was running. `reported` are
the events with the task they are about. -/
structure Timeline (T : Type) (n : ℕ) where
  status : T → Status n
  since : T → UInt64
  periods : List (Period T)
  clock : UInt64
  hit : T → Bool
  reported : List (T × Event)

/-- Is the task on a CPU at the instant `τ`? -/
def Timeline.RunningAt (g : Timeline T n) (t : T) (τ : ℚ) : Prop :=
  (∃ p ∈ g.periods, p.task = t ∧ (p.on.toNat : ℚ) ≤ τ ∧ τ < p.off.toNat) ∨
    (g.status t).isRunning = true ∧ ((g.since t).toNat : ℚ) ≤ τ

inductive Step (T : Type) (n : ℕ) : Type where
  | wakeup (isNew : Bool) (t : T) (l : Look) (cpu : Fin n) (now : UInt64) (fails : Bool)
  | switch (cpu : Fin n) (now : UInt64) (preempt : Bool) (prev next : T) (prevLook nextLook : Look)
      (prevSleeps : Bool) (reserved : Option Slot)
  | exit (t : T)
  | evict (key : UInt64)

variable [DecidableEq T]

def Timeline.wake (g : Timeline T n) (t : T) (now : UInt64) (recorded : Bool) : Timeline T n :=
  { g with
    status := if g.status t = .sleeping then Function.update g.status t .runnable else g.status
    clock := now
    hit := if recorded then Function.update g.hit t (g.status t).isRunning else g.hit }

def Timeline.switch (g : Timeline T n) (cpu : Fin n) (now : UInt64) (prev next : T) (prevSleeps : Bool)
    (events : List Event) : Timeline T n :=
  { g with
    status := Function.update
      (Function.update g.status prev (if prevSleeps then .sleeping else .runnable)) next
      (.running cpu)
    since := Function.update g.since next now
    periods := g.periods ++ [⟨prev, g.since prev, now⟩]
    clock := now
    reported := g.reported ++ events.map fun e => (next, e) }

def schedStep (c : Ctrl) (K : Tasks T) (s : State n × Timeline T n) :
    Step T n → State n × Timeline T n
  | .wakeup isNew t l cpu now fails =>
      let x : WakeupArgs n := ⟨cpu, now, (K t).ptr l, fails⟩
      (if isNew then traceSchedWakeupNew c x s.1 else traceSchedWakeup c x s.1,
        s.2.wake t now ((K t).wakes c && !fails))
  | .switch cpu now preempt prev next prevLook nextLook prevSleeps reserved =>
      let s' := traceSchedSwitch c
        ⟨cpu, now, preempt, (K prev).ptr prevLook, (K next).ptr nextLook, reserved⟩ s.1
      (s', s.2.switch cpu now prev next prevSleeps (s'.rb.drop s.1.rb.length))
  | .exit t => (traceSchedProcessExit (K t).addr s.1, s.2)
  | .evict key => ({ s.1 with wakeupMap := s.1.wakeupMap.delete key }, s.2)

/-- Time does not run backwards; a switch takes a running task off its CPU and puts a
runnable one there. Wakeups come at any time. -/
def scheduler (c : Ctrl) (K : Tasks T) (status : T → Status n) :
    Machine (State n × Timeline T n) (Step T n) where
  init := (State.start n, ⟨status, fun _ => 0, [], 0, fun _ => false, []⟩)
  step := schedStep c K
  Allowed s e := match e with
    | .wakeup _ _ _ _ now _ => s.2.clock ≤ now
    | .switch cpu now _ prev next _ _ _ _ =>
        s.2.clock ≤ now ∧ s.2.status prev = .running cpu ∧ s.2.status next = .runnable
    | _ => True

instance (c : Ctrl) (K : Tasks T) (status : T → Status n) (s : State n × Timeline T n)
    (e : Step T n) : Decidable ((scheduler c K status).Allowed s e) :=
  match e with
  | .wakeup _ _ _ _ now _ => inferInstanceAs (Decidable (s.2.clock ≤ now))
  | .switch cpu now _ prev next _ _ _ _ => inferInstanceAs (Decidable
      (s.2.clock ≤ now ∧ s.2.status prev = .running cpu ∧ s.2.status next = .runnable))
  | .exit _ | .evict _ => inferInstanceAs (Decidable True)

/-- The task that is switched in has no record that was written while it was running. -/
def Fresh (K : Tasks T) (s : State n × Timeline T n) : Step T n → Prop
  | .switch _ _ _ _ next _ _ _ _ =>
      s.2.hit next = true → s.1.wakeupMap.get (K next).addr = none
  | _ => True

instance (K : Tasks T) (s : State n × Timeline T n) (e : Step T n) : Decidable (Fresh K s e) :=
  match e with
  | .switch _ _ _ _ next _ _ _ _ => inferInstanceAs (Decidable
      (s.2.hit next = true → s.1.wakeupMap.get (K next).addr = none))
  | .wakeup .. | .exit _ | .evict _ => inferInstanceAs (Decidable True)

/-- Every event is about a time in which its task was waiting. -/
def CoversWaiting (s : State n × Timeline T n) : Prop :=
  s.1.rb = s.2.reported.map Prod.snd ∧
    ∀ r ∈ s.2.reported, ∀ τ : ℚ, ((r.2.tsNs - r.2.delayNs).toNat : ℚ) < τ → τ < r.2.tsNs.toNat →
      ¬ s.2.RunningAt r.1 τ

/-! ## The invariant -/

/-- Where the periods of a task lie: before the record it has, before the start of an
event about it or after its end. -/
structure Waits (c : Ctrl) (K : Tasks T) (s : State n × Timeline T n) : Prop where
  rb : s.1.rb = s.2.reported.map Prod.snd
  since : ∀ t, s.2.since t ≤ s.2.clock
  past : ∀ p ∈ s.2.periods, p.off ≤ s.2.clock
  record : ∀ t r, (K t).switches c = true → s.1.wakeupMap.get (K t).addr = some r →
    s.2.hit t = false →
      (s.2.status t).isRunning = false ∧ ∀ p ∈ s.2.periods, p.task = t → p.off ≤ r.tsNs
  ended : ∀ r ∈ s.2.reported, r.2.tsNs ≤ s.2.clock
  apart : ∀ r ∈ s.2.reported, ∀ p ∈ s.2.periods, p.task = r.1 →
    p.off ≤ r.2.tsNs - r.2.delayNs ∨ r.2.tsNs ≤ p.on
  resumed : ∀ r ∈ s.2.reported, (s.2.status r.1).isRunning = true → r.2.tsNs ≤ s.2.since r.1

theorem Waits.start (c : Ctrl) (K : Tasks T) (status : T → Status n) :
    Waits c K (scheduler c K status).init where
  rb := rfl
  since := fun _ => UInt64.le_rfl
  past := by simp [scheduler]
  record := by simp [scheduler, State.start]
  ended := by simp [scheduler]
  apart := by simp [scheduler]
  resumed := by simp [scheduler]

omit [DecidableEq T] in
/-- Forgetting records does no harm. -/
theorem Waits.forget {c : Ctrl} {K : Tasks T} {s : State n × Timeline T n} (h : Waits c K s)
    (k : UInt64) : Waits c K ({ s.1 with wakeupMap := s.1.wakeupMap.delete k }, s.2) := by
  refine { h with record := ?_ }
  intro t r hsw hget hhit
  simp only [BpfMap.get_delete] at hget
  split_ifs at hget
  exact h.record t r hsw hget hhit

theorem Timeline.isRunning_wake (g : Timeline T n) (t u : T) (now : UInt64) (recorded : Bool) :
    ((g.wake t now recorded).status u).isRunning = (g.status u).isRunning := by
  simp only [Timeline.wake]
  split_ifs with hsleep
  · by_cases hu : u = t
    · subst hu
      simp [hsleep, Status.isRunning]
    · simp [hu]
  · rfl

theorem Waits.recordWakeup {c : Ctrl} {K : Tasks T} {s : State n × Timeline T n} (h : Waits c K s)
    (t : T) (l : Look) (cpu : Fin n) {now : UInt64} (hnow : s.2.clock ≤ now) (fails : Bool) :
    Waits c K (recordWakeup c ⟨cpu, now, (K t).ptr l, fails⟩ s.1,
      s.2.wake t now ((K t).wakes c && !fails)) where
  rb := (recordWakeup_rb ..).trans h.rb
  since := fun u => UInt64.le_trans (h.since u) hnow
  past := fun p hp => UInt64.le_trans (h.past p hp) hnow
  ended := fun r hr => UInt64.le_trans (h.ended r hr) hnow
  apart := h.apart
  resumed := by
    intro r hr hrun
    rw [Timeline.isRunning_wake] at hrun
    exact h.resumed r hr hrun
  record := by
    intro u r hsw hget hhit
    rw [Timeline.isRunning_wake]
    rw [recordWakeup_get] at hget
    change (if ((K t).wakes c && !fails) = true ∧ (K u).addr = (K t).addr then _ else _) = _ at hget
    split_ifs at hget with hnew
    · -- the record is new: all periods of the task are over, unless it is running
      obtain rfl : u = t := K.addr_injective _ _ hnew.2
      obtain rfl := Option.some.inj hget
      simp only [Timeline.wake, hnew.1, if_true, Function.update_self] at hhit
      exact ⟨hhit, fun p hp _ => UInt64.le_trans (h.past p hp) hnow⟩
    · have hold : s.2.hit u = false := by
        simp only [Timeline.wake] at hhit
        split_ifs at hhit with hrec
        · have hne : u ≠ t := fun hut => hnew ⟨hrec, by rw [hut]⟩
          rwa [Function.update_of_ne hne] at hhit
        · exact hhit
      exact h.record u r hsw hget hold

section Switch

variable {g : Timeline T n} {cpu : Fin n} {now : UInt64} {prev next : T} {prevSleeps : Bool}
  {events : List Event}

/-- Only the task that is switched in begins to run. -/
theorem Timeline.isRunning_of_switch {t : T} (ht : t ≠ next)
    (hrun : ((g.switch cpu now prev next prevSleeps events).status t).isRunning = true) :
    (g.status t).isRunning = true := by
  simp only [Timeline.switch, Function.update_of_ne ht] at hrun
  by_cases htp : t = prev
  · subst htp
    simp only [Function.update_self] at hrun
    split_ifs at hrun <;> simp [Status.isRunning] at hrun
  · rwa [Function.update_of_ne htp] at hrun

theorem Timeline.mem_periods_switch {p : Period T}
    (hp : p ∈ (g.switch cpu now prev next prevSleeps events).periods) :
    p ∈ g.periods ∨ p = ⟨prev, g.since prev, now⟩ := by
  simpa [Timeline.switch] using hp

theorem Timeline.mem_reported_switch {r : T × Event}
    (hr : r ∈ (g.switch cpu now prev next prevSleeps events).reported) :
    r ∈ g.reported ∨ ∃ e ∈ events, r = (next, e) := by
  rcases List.mem_append.mp hr with hr | hr
  · exact .inl hr
  · obtain ⟨e, he, rfl⟩ := List.mem_map.mp hr
    exact .inr ⟨e, he, rfl⟩

variable {c : Ctrl} {K : Tasks T} {s : State n × Timeline T n}

theorem Waits.ended_switch (h : Waits c K s) (hnow : s.2.clock ≤ now)
    (hevents : ∀ e ∈ events, e.tsNs = now) {r : T × Event}
    (hr : r ∈ (s.2.switch cpu now prev next prevSleeps events).reported) : r.2.tsNs ≤ now := by
  rcases Timeline.mem_reported_switch hr with hr | ⟨e, he, rfl⟩
  · exact UInt64.le_trans (h.ended r hr) hnow
  · exact UInt64.le_of_eq (hevents e he)

/-- A record that survives the switch belongs to a task that does not take part in it. -/
theorem Waits.record_switch (h : Waits c K s) (hprev : s.2.status prev = .running cpu) {t : T}
    {r : WakeupInfo} (hsw : (K t).switches c = true)
    (hr : s.1.wakeupMap.get (K t).addr = some r) (hhit : s.2.hit t = false) (ht : t ≠ next) :
    ((s.2.switch cpu now prev next prevSleeps events).status t).isRunning = false ∧
      ∀ p ∈ (s.2.switch cpu now prev next prevSleeps events).periods, p.task = t →
        p.off ≤ r.tsNs := by
  obtain ⟨hoff, hper⟩ := h.record t r hsw hr hhit
  constructor
  · by_contra hrun
    have hran := Timeline.isRunning_of_switch ht (by simpa using hrun)
    rw [hoff] at hran
    cases hran
  · rintro p hp rfl
    rcases Timeline.mem_periods_switch hp with hp | rfl
    · exact hper p hp rfl
    · -- the task that leaves the CPU was running, so it has no such record
      rw [hprev] at hoff
      cases hoff

/-- The period that ends now began after the events about its task; the events of this
switch are about the time before it. -/
theorem Waits.apart_switch (h : Waits c K s) (hprev : s.2.status prev = .running cpu)
    (hne : prev ≠ next)
    (hevents : ∀ e ∈ events, ∀ p ∈ s.2.periods, p.task = next → p.off ≤ e.tsNs - e.delayNs)
    {r : T × Event} (hr : r ∈ (s.2.switch cpu now prev next prevSleeps events).reported)
    {p : Period T} (hp : p ∈ (s.2.switch cpu now prev next prevSleeps events).periods)
    (hpt : p.task = r.1) : p.off ≤ r.2.tsNs - r.2.delayNs ∨ r.2.tsNs ≤ p.on := by
  rcases Timeline.mem_reported_switch hr with hr | ⟨e, he, rfl⟩
  · rcases Timeline.mem_periods_switch hp with hp | rfl
    · exact h.apart r hr p hp hpt
    · have hresumed := h.resumed r hr
      rw [← hpt, hprev] at hresumed
      exact .inr (hresumed rfl)
  · rcases Timeline.mem_periods_switch hp with hp | rfl
    · exact .inl (hevents e he p hp hpt)
    · exact absurd hpt hne

theorem Waits.resumed_switch (h : Waits c K s) (hnow : s.2.clock ≤ now)
    (hevents : ∀ e ∈ events, e.tsNs = now) {r : T × Event}
    (hr : r ∈ (s.2.switch cpu now prev next prevSleeps events).reported)
    (hrun : ((s.2.switch cpu now prev next prevSleeps events).status r.1).isRunning = true) :
    r.2.tsNs ≤ (s.2.switch cpu now prev next prevSleeps events).since r.1 := by
  by_cases hrn : r.1 = next
  · have hsince : (s.2.switch cpu now prev next prevSleeps events).since r.1 = now := by
      simp [Timeline.switch, hrn]
    rw [hsince]
    exact h.ended_switch hnow hevents hr
  · have hsince : (s.2.switch cpu now prev next prevSleeps events).since r.1 = s.2.since r.1 := by
      simp [Timeline.switch, hrn]
    rw [hsince]
    rcases Timeline.mem_reported_switch hr with hr | ⟨e, he, rfl⟩
    · exact h.resumed r hr (Timeline.isRunning_of_switch hrn hrun)
    · exact absurd rfl hrn

/-- The switch with the events it submits. -/
theorem Waits.switch (h : Waits c K s) {s' : State n} (hnow : s.2.clock ≤ now)
    (hprev : s.2.status prev = .running cpu) (hnext : s.2.status next = .runnable)
    (hrb : s'.rb = s.1.rb ++ events)
    (hget : ∀ t r, (K t).switches c = true → s'.wakeupMap.get (K t).addr = some r →
      t ≠ next ∧ s.1.wakeupMap.get (K t).addr = some r)
    (hevents : ∀ e ∈ events, e.tsNs = now ∧
      ∀ p ∈ s.2.periods, p.task = next → p.off ≤ e.tsNs - e.delayNs) :
    Waits c K (s', s.2.switch cpu now prev next prevSleeps events) where
  rb := by simp [Timeline.switch, hrb, h.rb]
  since := by
    intro t
    by_cases ht : t = next
    · simp [Timeline.switch, ht]
    · simpa [Timeline.switch, ht] using UInt64.le_trans (h.since t) hnow
  past := by
    intro p hp
    rcases Timeline.mem_periods_switch hp with hp | rfl
    · exact UInt64.le_trans (h.past p hp) hnow
    · exact UInt64.le_rfl
  record := by
    intro t r hsw hr hhit
    obtain ⟨ht, hr⟩ := hget t r hsw hr
    exact h.record_switch hprev hsw hr hhit ht
  ended := fun r hr => h.ended_switch hnow (fun e he => (hevents e he).1) hr
  apart := by
    intro r hr p hp hpt
    have hne : prev ≠ next := by
      rintro rfl
      rw [hprev] at hnext
      cases hnext
    exact h.apart_switch hprev hne (fun e he => (hevents e he).2) hr hp hpt
  resumed := fun r hr hrun => h.resumed_switch hnow (fun e he => (hevents e he).1) hr hrun

end Switch

theorem Waits.step {c : Ctrl} {K : Tasks T} {status : T → Status n} {s : State n × Timeline T n}
    {e : Step T n} (h : Waits c K s) (ha : (scheduler c K status).Allowed s e)
    (hf : Fresh K s e) : Waits c K (schedStep c K s e) := by
  cases e with
  | wakeup isNew t l cpu now fails =>
      simp only [schedStep, traceSchedWakeup, traceSchedWakeupNew, ite_self]
      exact h.recordWakeup t l cpu ha fails
  | exit t => exact h.forget _
  | evict key => exact h.forget key
  | switch cpu now preempt prev next prevLook nextLook prevSleeps reserved =>
      rcases ha with ⟨hnow, hprev, hnext⟩
      simp only [schedStep]
      generalize hx : (⟨cpu, now, preempt, (K prev).ptr prevLook, (K next).ptr nextLook, reserved⟩ :
        SwitchArgs n) = x
      have haddr : x.next.addr = (K next).addr := by rw [← hx]; rfl
      have hpass : switches c x.next.task = (K next).switches c := by rw [← hx]; rfl
      have hget : ∀ t r, (K t).switches c = true →
          (traceSchedSwitch c x s.1).wakeupMap.get (K t).addr = some r →
            t ≠ next ∧ s.1.wakeupMap.get (K t).addr = some r := by
        intro t r hsw hr
        rw [traceSchedSwitch_get, haddr, hpass] at hr
        split_ifs at hr with htaken
        refine ⟨?_, hr⟩
        rintro rfl
        exact htaken ⟨hsw, rfl⟩
      rcases traceSchedSwitch_rb c x s.1 with hrb | ⟨info, slot, hsw, hinfo, hrb⟩
      · rw [hrb, List.drop_length]
        exact h.switch hnow hprev hnext (by rw [hrb, List.append_nil]) hget (by simp)
      · rw [hrb, List.drop_left]
        apply h.switch hnow hprev hnext hrb hget
        intro e he
        obtain rfl := List.mem_singleton.mp he
        rw [haddr] at hinfo
        have hhit : s.2.hit next = false := by
          by_contra hhit
          have hnone := hf (by simpa using hhit)
          rw [hinfo] at hnone
          cases hnone
        rw [mkEvent_start]
        exact ⟨by rw [← hx]; rfl, (h.record next info (hpass ▸ hsw) hinfo hhit).2⟩

omit [DecidableEq T] in
theorem Waits.coversWaiting {c : Ctrl} {K : Tasks T} {s : State n × Timeline T n}
    (h : Waits c K s) : CoversWaiting s := by
  refine ⟨h.rb, ?_⟩
  rintro r hr τ hstart hend (⟨p, hp, hpt, hon, hoff⟩ | ⟨hrun, hsince⟩)
  · rcases h.apart r hr p hp hpt with hbefore | hafter
    · have hle : (p.off.toNat : ℚ) ≤ (r.2.tsNs - r.2.delayNs).toNat :=
        Nat.cast_le.mpr (UInt64.le_iff_toNat_le.mp hbefore)
      exact lt_irrefl τ (hoff.trans_le (hle.trans hstart.le))
    · have hle : (r.2.tsNs.toNat : ℚ) ≤ p.on.toNat :=
        Nat.cast_le.mpr (UInt64.le_iff_toNat_le.mp hafter)
      exact lt_irrefl τ (hend.trans_le (hle.trans hon))
  · have hle : (r.2.tsNs.toNat : ℚ) ≤ (s.2.since r.1).toNat :=
      Nat.cast_le.mpr (UInt64.le_iff_toNat_le.mp (h.resumed r hr hrun))
    exact lt_irrefl τ (hend.trans_le (hle.trans hsince))

/-- As long as no switch uses a record of a wakeup that came while its task was running,
every reported delay lies in a time in which the task was on no CPU. -/
theorem delay_covers_only_waiting (c : Ctrl) (K : Tasks T) (status : T → Status n)
    (es : List (Step T n)) (hv : ((scheduler c K status).restrict (Fresh K)).Valid es) :
    CoversWaiting ((scheduler c K status).run es) := by
  have hwaits : Waits c K ((scheduler c K status).run es) := by
    refine Machine.invariant_restrict (M := scheduler c K status) (I := Waits c K) ?_ ?_ hv
    · exact Waits.start c K status
    · exact fun s e h ha hf => h.step ha hf
  exact hwaits.coversWaiting

/-! ## A wakeup that hits a running task -/

/-- Process `nr` of namespace 100, at address `nr`. -/
def process (nr : UInt8) : Identity where
  addr := nr.toUInt64
  threadPid := some ⟨0, [⟨nr.toUInt32.toInt32, some 100⟩]⟩
  groupLeader := some (some ⟨0, [⟨nr.toUInt32.toInt32, some 100⟩]⟩)

def twoTasks : Tasks Bool where
  id := fun t => process (if t then 2 else 1)
  addr_injective := by decide

/-- Collection is on, for all processes of namespace 100. -/
def allOf100 : Ctrl := ⟨true, 0, 0, 4, 100⟩

def plainLook : Look := ⟨120, Vector.replicate _ 0, 0⟩

def cpu0 : Fin 1 := ⟨0, Nat.one_pos⟩

/-- The first task is running, the second one sleeps. -/
def firstRuns : Bool → Status 1 := fun t => if t then .sleeping else .running cpu0

/-- The second task wakes up, waits from 10 to 40, and gets the CPU. -/
def waitsForTheCpu : List (Step Bool 1) :=
  [.wakeup false true plainLook cpu0 10 false,
   .switch cpu0 40 true false true plainLook plainLook false (some .zero)]

theorem waiting_delay_is_covered :
    CoversWaiting ((scheduler allOf100 twoTasks firstRuns).run waitsForTheCpu) ∧
      ((scheduler allOf100 twoTasks firstRuns).run waitsForTheCpu).1.rb.map
        (fun e => (e.nextPid, e.tsNs, e.delayNs)) = [(2, 40, 30)] :=
  ⟨delay_covers_only_waiting allOf100 twoTasks firstRuns waitsForTheCpu (by decide +kernel),
    by decide +kernel⟩

/-- The first task is woken at 10 while it is running; it is preempted at 50 and comes back
at 60. -/
def hitWhileRunning : List (Step Bool 1) :=
  [.wakeup false false plainLook cpu0 10 false,
   .wakeup false true plainLook cpu0 20 false,
   .switch cpu0 50 true false true plainLook plainLook false (some .zero),
   .switch cpu0 60 false true false plainLook plainLook true (some .zero)]

/-- The last event claims a delay of 50 for a task that was running until 50. -/
theorem delay_covers_running_time :
    (scheduler allOf100 twoTasks firstRuns).Valid hitWhileRunning ∧
      ((scheduler allOf100 twoTasks firstRuns).run hitWhileRunning).1.rb.map
        (fun e => (e.nextPid, e.tsNs, e.delayNs)) = [(2, 50, 30), (1, 60, 50)] ∧
      ¬ CoversWaiting ((scheduler allOf100 twoTasks firstRuns).run hitWhileRunning) := by
  refine ⟨by decide +kernel, by decide +kernel, ?_⟩
  rintro ⟨-, h⟩
  have hevent : ∃ r ∈ ((scheduler allOf100 twoTasks firstRuns).run hitWhileRunning).2.reported,
      r.1 = false ∧ r.2.tsNs = 60 ∧ r.2.delayNs = 50 := by
    decide +kernel
  have hperiod : ∃ p ∈ ((scheduler allOf100 twoTasks firstRuns).run hitWhileRunning).2.periods,
      p.task = false ∧ p.on = 0 ∧ p.off = 50 := by
    decide +kernel
  rcases hevent with ⟨r, hr, htask, hts, hdelay⟩
  rcases hperiod with ⟨p, hp, hpt, hon, hoff⟩
  refine h r hr 20 ?_ ?_ (.inl ⟨p, hp, hpt.trans htask.symm, ?_, ?_⟩)
  · rw [hts, hdelay]
    exact_mod_cast (show (60 - 50 : UInt64).toNat < 20 by decide)
  · rw [hts]
    exact_mod_cast (show 20 < (60 : UInt64).toNat by decide)
  · rw [hon]
    norm_num
  · rw [hoff]
    exact_mod_cast (show 20 < (50 : UInt64).toNat by decide)

end EbpfToolbox.Sched.ContextSwitch
