import EbpfToolbox.Sched.ContextSwitch

/-!
# Reuse of a `task_struct`

The records of `sched/context_switch` are keyed by the address of the task, and the
kernel gives the `task_struct` of a dead task to a new one. `sched_process_exit`
removes the record, but a wakeup may still come after it. Nothing in the code looks
whether a record belongs to the task that is switched in: what keeps the two apart
is that a new task has its `sched_wakeup_new` before its first switch-in, and that
this wakeup overwrites whatever is there.

The machine `lifetimes` runs the probes and remembers, for every address, the task
that lives there and the wakeup that wrote last.
-/

namespace EbpfToolbox.Sched.ContextSwitch

open Common Lib

variable {n : ℕ} {L : Type}

/-! ## Lifetimes of tasks -/

/-- The lifetimes of a run, each at its address and in its process; `initial` are those
that began before the run. -/
structure Lifetimes (L : Type) where
  addr : L → UInt64
  groupLeader : L → Option (Option Pid)
  initial : UInt64 → Option L
  addr_initial : ∀ a l, initial a = some l → addr l = a

/-- What may change during a lifetime. -/
structure Guise where
  threadPid : Option Pid
  prio : Int32
  comm : Comm
  state : Int32

def Lifetimes.ptr (F : Lifetimes L) (l : L) (k : Guise) : TaskPtr where
  addr := F.addr l
  task := ⟨k.threadPid, F.groupLeader l, k.prio, k.comm⟩
  state := k.state

/-- The filter of `record_wakeup` sees the process only. -/
def Lifetimes.wakes (F : Lifetimes L) (c : Ctrl) (l : L) : Bool :=
  ContextSwitch.wakes c ⟨none, F.groupLeader l, 0, Vector.replicate _ 0⟩

inductive LifeStep (L : Type) (n : ℕ) : Type where
  | wakeup (isNew : Bool) (l : L) (k : Guise) (cpu : Fin n) (now : UInt64)
  | switch (cpu : Fin n) (now : UInt64) (preempt : Bool) (prev : TaskPtr) (next : L) (k : Guise)
      (reserved : Option Slot)
  | exit (addr : UInt64)
  | evict (key : UInt64)

/-- The probe that a step fires. No insertion fails. -/
def Lifetimes.fires (F : Lifetimes L) : LifeStep L n → Probe n
  | .wakeup true l k cpu now => .wakeupNew ⟨cpu, now, F.ptr l k, false⟩
  | .wakeup false l k cpu now => .wakeup ⟨cpu, now, F.ptr l k, false⟩
  | .switch cpu now preempt prev next k reserved =>
      .switch ⟨cpu, now, preempt, prev, F.ptr next k, reserved⟩
  | .exit addr => .exit addr
  | .evict key => .evict key

/-! ## The machine -/

/-- A wakeup that was recorded. -/
structure Source (L : Type) where
  life : L
  tsNs : UInt64
  cpu : Int32

/-- An event, with the lifetime it is about and the wakeup its record came from. -/
structure Report (L : Type) where
  life : L
  source : Option (Source L)
  event : Event

/-- `owner`: who lives at an address. `begun` and `woken`: the lifetimes that have begun,
and those that had their `sched_wakeup_new`. `source`: the last recorded wakeup under an
address. -/
structure History (L : Type) where
  owner : UInt64 → Option L
  begun : L → Bool
  woken : L → Bool
  source : UInt64 → Option (Source L)
  reported : List (Report L)

variable [DecidableEq L]

def History.start (F : Lifetimes L) : History L where
  owner := F.initial
  begun := fun l => F.initial (F.addr l) = some l
  woken := fun l => F.initial (F.addr l) = some l
  source := fun _ => none
  reported := []

def History.step (F : Lifetimes L) (c : Ctrl) (g : History L) (events : List Event) :
    LifeStep L n → History L
  | .wakeup isNew l _ cpu now =>
      { g with
        owner := Function.update g.owner (F.addr l) (some l)
        begun := Function.update g.begun l true
        woken := Function.update g.woken l (g.woken l || isNew)
        source := if F.wakes c l then
            Function.update g.source (F.addr l) (some ⟨l, now, smpProcessorId cpu⟩)
          else g.source }
  | .switch _ _ _ _ next _ _ =>
      { g with reported := g.reported ++ events.map fun e => ⟨next, g.source (F.addr next), e⟩ }
  | .exit _ | .evict _ => g

def lifeStep (F : Lifetimes L) (c : Ctrl) (s : State n × History L) (e : LifeStep L n) :
    State n × History L :=
  let s' := probe c s.1 (F.fires e)
  (s', s.2.step F c (s'.rb.drop s.1.rb.length) e)

/-- A lifetime that begins takes its address over for good; it is not switched in before
its `sched_wakeup_new`. -/
def lifetimes (F : Lifetimes L) (c : Ctrl) : Machine (State n × History L) (LifeStep L n) where
  init := (State.start n, History.start F)
  step := lifeStep F c
  Allowed s e := match e with
    | .wakeup _ l _ _ _ => s.2.owner (F.addr l) = some l ∨ s.2.begun l = false
    | .switch _ _ _ _ next _ _ =>
        s.2.owner (F.addr next) = some next ∧ s.2.woken next = true
    | .exit _ | .evict _ => True

instance (F : Lifetimes L) (c : Ctrl) (s : State n × History L) (e : LifeStep L n) :
    Decidable ((lifetimes F c).Allowed s e) :=
  match e with
  | .wakeup _ l _ _ _ =>
      inferInstanceAs (Decidable (s.2.owner (F.addr l) = some l ∨ s.2.begun l = false))
  | .switch _ _ _ _ next _ _ => inferInstanceAs (Decidable
      (s.2.owner (F.addr next) = some next ∧ s.2.woken next = true))
  | .exit _ | .evict _ => inferInstanceAs (Decidable True)

/-- The event starts with a wakeup of the lifetime it is about. -/
def Report.Own (r : Report L) : Prop :=
  ∃ w, r.source = some w ∧ w.life = r.life ∧ w.tsNs = r.event.tsNs - r.event.delayNs ∧
    w.cpu = r.event.wakeupCpu

/-- Every event that was submitted is in the log, and starts in its own lifetime. -/
def StartsInOwnLifetime (s : State n × History L) : Prop :=
  s.1.rb = s.2.reported.map Report.event ∧ ∀ r ∈ s.2.reported, r.Own

/-! ## The invariant -/

/-- The record under an address was written by the last recorded wakeup there; once the
owner is awake, that wakeup is one of its own. -/
structure Owned (F : Lifetimes L) (c : Ctrl) (s : State n × History L) : Prop where
  addr : ∀ a l, s.2.owner a = some l → F.addr l = a
  source : ∀ a r, s.1.wakeupMap.get a = some r →
    ∃ w, s.2.source a = some w ∧ w.tsNs = r.tsNs ∧ w.cpu = r.wakeupCpu
  own : ∀ a l r w, s.2.owner a = some l → s.2.woken l = true → F.wakes c l = true →
    s.1.wakeupMap.get a = some r → s.2.source a = some w → w.life = l
  reports : StartsInOwnLifetime s

theorem Owned.start (F : Lifetimes L) (c : Ctrl) :
    Owned F c ((State.start n, History.start F) : State n × History L) where
  addr := F.addr_initial
  source := by simp [State.start]
  own := by simp [State.start]
  reports := ⟨rfl, by simp [History.start]⟩

omit [DecidableEq L] in
theorem Owned.forget {F : Lifetimes L} {c : Ctrl} {s : State n × History L} (h : Owned F c s)
    (k : UInt64) : Owned F c ({ s.1 with wakeupMap := s.1.wakeupMap.delete k }, s.2) := by
  refine { h with source := ?_, own := ?_ }
  · intro a r hget
    simp only [BpfMap.get_delete] at hget
    split_ifs at hget
    exact h.source a r hget
  · intro a l r w howner hwoken hwakes hget
    simp only [BpfMap.get_delete] at hget
    split_ifs at hget
    exact h.own a l r w howner hwoken hwakes hget

omit [DecidableEq L] in
theorem Lifetimes.recordWakeup_get (F : Lifetimes L) (c : Ctrl) (l : L) (k : Guise) (cpu : Fin n)
    (now : UInt64) (s : State n) (a : UInt64) :
    (recordWakeup c ⟨cpu, now, F.ptr l k, false⟩ s).wakeupMap.get a =
      if F.wakes c l = true ∧ a = F.addr l then some ⟨now, smpProcessorId cpu⟩
      else s.wakeupMap.get a := by
  rw [ContextSwitch.recordWakeup_get]
  simp only [Bool.not_false, Bool.and_true]
  rfl

theorem History.source_wakeup_of_ne (F : Lifetimes L) (c : Ctrl) (g : History L)
    (events : List Event) (isNew : Bool) (l : L) (k : Guise) (cpu : Fin n) (now : UInt64)
    {a : UInt64} (ha : a ≠ F.addr l) :
    (g.step F c events (.wakeup isNew l k cpu now)).source a = g.source a := by
  simp only [History.step]
  split_ifs
  · rw [Function.update_of_ne ha]
  · rfl

/-- A recorded wakeup overwrites what an earlier owner of the address left there. -/
theorem Owned.recordWakeup {F : Lifetimes L} {c : Ctrl} {s : State n × History L}
    (h : Owned F c s) (isNew : Bool) (l : L) (k : Guise) (cpu : Fin n) (now : UInt64)
    (events : List Event) :
    Owned F c (recordWakeup c ⟨cpu, now, F.ptr l k, false⟩ s.1,
      s.2.step F c events (.wakeup isNew l k cpu now)) := by
  have hget := F.recordWakeup_get c l k cpu now s.1
  have hother : ∀ a, a ≠ F.addr l →
      (s.2.step F c events (.wakeup isNew l k cpu now)).source a = s.2.source a :=
    fun a ha => History.source_wakeup_of_ne F c s.2 events isNew l k cpu now ha
  refine ⟨?_, ?_, ?_, ?_⟩
  · intro a l' howner
    by_cases ha : a = F.addr l
    · subst ha
      simp only [History.step, Function.update_self, Option.some.injEq] at howner
      rw [howner]
    · simp only [History.step, Function.update_of_ne ha] at howner
      exact h.addr a l' howner
  · intro a r hr
    rw [hget] at hr
    split_ifs at hr with hnew
    · rcases hnew with ⟨hwakes, rfl⟩
      obtain rfl := Option.some.inj hr
      refine ⟨⟨l, now, smpProcessorId cpu⟩, ?_, rfl, rfl⟩
      simp only [History.step, hwakes, if_true, Function.update_self]
    · obtain ⟨w, hw, hts, hcpu⟩ := h.source a r hr
      by_cases ha : a = F.addr l
      · -- filtered: neither the record nor its source changes
        have hwakes : ¬F.wakes c l = true := fun hwakes => hnew ⟨hwakes, ha⟩
        exact ⟨w, by simpa only [History.step, if_neg hwakes] using hw, hts, hcpu⟩
      · exact ⟨w, (hother a ha).trans hw, hts, hcpu⟩
  · intro a l' r w howner hwoken hwakes hr hw
    by_cases ha : a = F.addr l
    · subst ha
      simp only [History.step, Function.update_self, Option.some.injEq] at howner
      subst howner
      simp only [History.step, hwakes, if_true, Function.update_self, Option.some.injEq] at hw
      rw [← hw]
    · simp only [History.step, Function.update_of_ne ha] at howner
      have hne : l' ≠ l := fun hl => ha (by rw [← h.addr a l' howner, hl])
      simp only [History.step, Function.update_of_ne hne] at hwoken
      rw [hget, if_neg fun hnew => ha hnew.2] at hr
      rw [hother a ha] at hw
      exact h.own a l' r w howner hwoken hwakes hr hw
  · exact ⟨(recordWakeup_rb ..).trans h.reports.1, h.reports.2⟩

omit [DecidableEq L] in
theorem Owned.switch {F : Lifetimes L} {c : Ctrl} {s : State n × History L} (h : Owned F c s)
    {x : SwitchArgs n} {next : L} {k : Guise} (hx : x.next = F.ptr next k)
    (howner : s.2.owner (F.addr next) = some next) (hwoken : s.2.woken next = true) :
    Owned F c (traceSchedSwitch c x s.1,
      { s.2 with
        reported := s.2.reported ++ ((traceSchedSwitch c x s.1).rb.drop s.1.rb.length).map
          (⟨next, s.2.source (F.addr next), ·⟩) }) := by
  have hget : ∀ a r, (traceSchedSwitch c x s.1).wakeupMap.get a = some r →
      s.1.wakeupMap.get a = some r := by
    intro a r hr
    rw [traceSchedSwitch_get] at hr
    split_ifs at hr
    exact hr
  refine ⟨h.addr, fun a r hr => h.source a r (hget a r hr), ?_, ?_⟩
  · exact fun a l r w hl hw hk hr => h.own a l r w hl hw hk (hget a r hr)
  rcases traceSchedSwitch_rb c x s.1 with hrb | ⟨info, slot, hsw, hinfo, hrb⟩
  · rw [hrb, List.drop_length]
    simpa [StartsInOwnLifetime, hrb] using h.reports
  · rw [hrb, List.drop_left]
    constructor
    · rw [hrb, h.reports.1]
      simp
    · intro r hr
      rcases List.mem_append.mp hr with hr | hr
      · exact h.reports.2 r hr
      · obtain ⟨e, he, rfl⟩ := List.mem_map.mp hr
        obtain rfl := List.mem_singleton.mp he
        -- the filters of the two probes agree on the process
        have hwakes : F.wakes c next = true := by
          rw [hx] at hsw
          exact (Bool.and_eq_true_iff.mp hsw).1
        have haddr : x.next.addr = F.addr next := by rw [hx]; rfl
        rw [haddr] at hinfo
        obtain ⟨w, hw, hts, hcpu⟩ := h.source _ _ hinfo
        refine ⟨w, hw, h.own _ _ _ _ howner hwoken hwakes hinfo hw, ?_, hcpu⟩
        rw [hts]
        exact (mkEvent_start c info x slot).symm

theorem Owned.step {F : Lifetimes L} {c : Ctrl} {s : State n × History L} {e : LifeStep L n}
    (h : Owned F c s) (ha : (lifetimes F c).Allowed s e) : Owned F c (lifeStep F c s e) := by
  cases e with
  | wakeup isNew l k cpu now =>
      cases isNew with
      | true => exact h.recordWakeup true l k cpu now _
      | false => exact h.recordWakeup false l k cpu now _
  | switch cpu now preempt prev next k reserved => exact h.switch rfl ha.1 ha.2
  | exit addr => exact h.forget addr
  | evict key => exact h.forget key

theorem owned_run (F : Lifetimes L) (c : Ctrl) {es : List (LifeStep L n)}
    (hv : (lifetimes F c).Valid es) : Owned F c ((lifetimes F c).run es) := by
  refine Machine.invariant (M := lifetimes F c) (I := Owned F c) ?_ ?_ hv
  · exact Owned.start F c
  · exact fun s e h ha => h.step ha

/-- No record is used twice, whatever the probes do; and an event never starts with the
wakeup of another task that had the same address. -/
theorem wakeup_records_are_used_once_by_their_task (c : Ctrl) :
    (∀ es : List (Probe n), UsedOnce ((probes n c).run es)) ∧
      ∀ (F : Lifetimes L) (es : List (LifeStep L n)), (lifetimes F c).Valid es →
        StartsInOwnLifetime ((lifetimes F c).run es) :=
  ⟨usedOnce_run c, fun F _ hv => (owned_run F c hv).reports⟩

/-- Two processes of namespace 100, one after the other at address 7. -/
def shared : Lifetimes Bool where
  addr := fun _ => 7
  groupLeader := fun l => some (some ⟨0, [⟨if l then 12 else 11, some 100⟩]⟩)
  initial := fun _ => none
  addr_initial := by simp

def guise (tid : Int32) : Guise := ⟨some ⟨0, [⟨tid, some 100⟩]⟩, 120, Vector.replicate _ 0, 0⟩

def idle : TaskPtr := ⟨0, ⟨none, none, 0, Vector.replicate _ 0⟩, 0⟩

/-- Process 11 exits at address 7, and is woken once more; process 12 begins there. -/
def reuse : List (LifeStep Bool 2) :=
  let cpu0 : Fin 2 := ⟨0, Nat.two_pos⟩
  let cpu1 : Fin 2 := ⟨1, Nat.one_lt_two⟩
  [.wakeup true false (guise 11) cpu0 5, .switch cpu0 8 false idle false (guise 11) (some .zero),
   .exit 7, .wakeup false false (guise 11) cpu0 20, .wakeup true true (guise 12) cpu1 30,
   .switch cpu0 45 false idle true (guise 12) (some .zero)]

theorem reused_address_keeps_tasks_apart :
    StartsInOwnLifetime ((lifetimes shared ⟨true, 0, 0, 4, 100⟩).run reuse) ∧
      ((lifetimes shared ⟨true, 0, 0, 4, 100⟩).run reuse).1.rb.map
        (fun e => (e.nextTgid, e.tsNs, e.delayNs, e.wakeupCpu)) =
          [(11, 8, 3, 0), (12, 45, 15, 1)] :=
  ⟨(wakeup_records_are_used_once_by_their_task _).2 shared reuse (by decide +kernel),
    by decide +kernel⟩

end EbpfToolbox.Sched.ContextSwitch
