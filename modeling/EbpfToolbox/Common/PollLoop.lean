import EbpfToolbox.Common.Cli
import EbpfToolbox.Lib.Machine
import Mathlib.Logic.Function.Basic

/-!
# The main loops of the modules

The second half of every `*_run` function in the `user.c` files, the exit flags of
`common/cli.c` and `run_module_thread` of `common/main.c`. A module waits for events until
`app_should_exit()`; each selected module has a thread of its own, and all of them share
the flags.

The loops around `ring_buffer__poll` end on `-EINTR` with the return value 0. The one of
`slab_rate` looks at the flags again and goes on.
-/

namespace EbpfToolbox.Common

open Lib

/-! ## The exit flags -/

/-- `g_signal_exit_requested` and `g_thread_exit_requested`. -/
structure ExitFlags where
  signal : Bool := false
  thread : Bool := false
deriving DecidableEq

def appShouldExit (f : ExitFlags) : Bool := f.signal || f.thread

def appSignalHandler (f : ExitFlags) : ExitFlags := { f with signal := true }

def appRequestExit (f : ExitFlags) : ExitFlags := { f with thread := true }

/-! ## The loops -/

/-- `-EINTR`. -/
def negEintr : Int32 := -4

/-- The expression after the last `return`: `err < 0 ? -err : 0` or `err < 0 ? -err : err`. -/
inductive ReturnExpr where
  | orZero
  | orErr
deriving DecidableEq

def ReturnExpr.eval : ReturnExpr → Int32 → Int32
  | .orZero, err => if err < 0 then -err else 0
  | .orErr, err => if err < 0 then -err else err

/-- What a loop does after its wait, with the value `err` has then: back to the head, a
second look at the flags, or out of the loop. -/
inductive Next where
  | again (err : Int32)
  | recheck (err : Int32)
  | leave (err : Int32)

/-- The loop around `ring_buffer__poll`, and the one around `poll` that prints the window. -/
inductive PollLoop where
  | ringbuf (ret : ReturnExpr)
  | window
deriving DecidableEq

def PollLoop.ret : PollLoop → ReturnExpr
  | .ringbuf ret => ret
  | .window => .orErr

/-- The result of the wait is a count or a negated `errno`. -/
def PollLoop.onWait : PollLoop → (err result : Int32) → Next
  | .ringbuf _, _, result =>
      if result = negEintr then .leave 0
      else if result < 0 then .leave result
      else .again result
  | .window, err, result =>
      if result < 0 ∧ result ≠ negEintr then .leave result else .recheck err

def contextSwitchRun : PollLoop := .ringbuf .orZero

def preemptRun : PollLoop := .ringbuf .orZero

def mutexlockRun : PollLoop := .ringbuf .orZero

def msgqueueRun : PollLoop := .ringbuf .orZero

def syscallRun : PollLoop := .ringbuf .orZero

def openRun : PollLoop := .ringbuf .orZero

def readRun : PollLoop := .ringbuf .orZero

def writeRun : PollLoop := .ringbuf .orZero

def blockIoRun : PollLoop := .ringbuf .orZero

def drSnoopRun : PollLoop := .ringbuf .orErr

def oomKillerRun : PollLoop := .ringbuf .orZero

def slabRateRun : PollLoop := .window

def tcpMonitorRun : PollLoop := .ringbuf .orZero

def udpMonitorRun : PollLoop := .ringbuf .orZero

/-- The column `run` of the module table. -/
def AppMode.run : AppMode → Option PollLoop
  | .unset => none
  | .contextSwitch => some contextSwitchRun
  | .preempt => some preemptRun
  | .syscall => some syscallRun
  | .tcpMonitor => some tcpMonitorRun
  | .msgqueue => some msgqueueRun
  | .mutexlock => some mutexlockRun
  | .fsOpen => some openRun
  | .fsRead => some readRun
  | .fsWrite => some writeRun
  | .blockIo => some blockIoRun
  | .drSnoop => some drSnoopRun
  | .oomKiller => some oomKillerRun
  | .slabRate => some slabRateRun
  | .udpMonitor => some udpMonitorRun

theorem run_isSome : ∀ row ∈ moduleTable, row.mode.run.isSome = true := by
  decide +kernel

/-! ## The threads of the program -/

/-- Where the thread of a module stands. It has `returned` from the loop and `finished` when
`run_module_thread` is done; `asked` keeps what `app_should_exit()` was at the return. -/
inductive Pc where
  | head (err : Int32)
  | waiting (err : Int32)
  | recheck (err : Int32)
  | printing (err : Int32)
  | returned (result : Int32) (asked : Bool)
  | finished (result : Int32) (asked : Bool)
deriving DecidableEq

/-- The result of the loop, and whether an exit was requested before it. -/
def Pc.outcome : Pc → Option (Int32 × Bool)
  | .returned result asked => some (result, asked)
  | .finished result asked => some (result, asked)
  | _ => none

variable {n : ℕ}

structure Threads (n : ℕ) where
  flags : ExitFlags
  pc : Fin n → Pc

/-- A signal handler runs, some thread calls `app_request_exit`, or the thread of module `i`
looks at the flags, gets the result of its wait, gets the result of `print_interval`, or
leaves `run_module_thread`. -/
inductive LoopStep (n : ℕ) where
  | signal
  | requestExit
  | check (i : Fin n)
  | wait (i : Fin n) (result : Int32)
  | print (i : Fin n) (result : Int32)
  | finish (i : Fin n)

def PollLoop.leave (L : PollLoop) (f : ExitFlags) (err : Int32) : Pc :=
  .returned (L.ret.eval err) (appShouldExit f)

/-- The look at the flags, at the head of the loop and in the body of `slab_rate_run`. -/
def PollLoop.check (L : PollLoop) (f : ExitFlags) : Pc → Pc
  | .head err => if appShouldExit f then L.leave f err else .waiting err
  | .recheck err => if appShouldExit f then L.leave f err else .printing err
  | pc => pc

def PollLoop.wait (L : PollLoop) (f : ExitFlags) (result : Int32) : Pc → Pc
  | .waiting err =>
      match L.onWait err result with
      | .again err => .head err
      | .recheck err => .recheck err
      | .leave err => L.leave f err
  | pc => pc

/-- `err = print_interval(..)`, in the loop of `slab_rate_run` only. -/
def PollLoop.print (L : PollLoop) (f : ExitFlags) (result : Int32) (pc : Pc) : Pc :=
  match L, pc with
  | .window, .printing _ => if result ≠ 0 then L.leave f result else .head result
  | _, pc => pc

/-- The end of `run_module_thread`. -/
def Pc.finish : Pc → Pc
  | .returned result asked => .finished result asked
  | pc => pc

def Pc.failed : Pc → Bool
  | .returned result _ => result ≠ 0
  | _ => false

def Threads.step (loops : Fin n → PollLoop) (s : Threads n) : LoopStep n → Threads n
  | .signal => { s with flags := appSignalHandler s.flags }
  | .requestExit => { s with flags := appRequestExit s.flags }
  | .check i => { s with pc := Function.update s.pc i ((loops i).check s.flags (s.pc i)) }
  | .wait i result =>
      { s with pc := Function.update s.pc i ((loops i).wait s.flags result (s.pc i)) }
  | .print i result =>
      { s with pc := Function.update s.pc i ((loops i).print s.flags result (s.pc i)) }
  | .finish i =>
      { flags := if (s.pc i).failed then appRequestExit s.flags else s.flags
        pc := Function.update s.pc i (s.pc i).finish }

/-- All runs of the selected modules, each at the head of its loop with `err` 0. -/
def program (loops : Fin n → PollLoop) : Machine (Threads n) (LoopStep n) where
  init := ⟨{}, fun _ => .head 0⟩
  step := Threads.step loops
  Allowed s e := match e with
    | .signal => True
    | .requestExit => True
    | .check i => ∃ err, s.pc i = .head err ∨ s.pc i = .recheck err
    | .wait i _ => ∃ err, s.pc i = .waiting err
    | .print i _ => ∃ err, s.pc i = .printing err
    | .finish i => ∃ result asked, s.pc i = .returned result asked

/-- A module that has returned 0 was asked to. -/
def StopsOnRequest (s : Threads n) : Prop :=
  ∀ i asked, (s.pc i).outcome = some (0, asked) → asked = true

/-- A module whose thread is finished does not leave the others running. -/
def NoSilentStop (s : Threads n) : Prop :=
  ∀ i result asked, s.pc i = .finished result asked → appShouldExit s.flags = true

/-- A wait for the ring buffer is interrupted only after an exit request. -/
def InterruptedOnRequest (loops : Fin n → PollLoop) (s : Threads n) : LoopStep n → Prop
  | .wait i result => ∀ ret, loops i = .ringbuf ret → result = negEintr →
      appShouldExit s.flags = true
  | _ => True

/-! ## One step -/

variable {loops : Fin n → PollLoop} {s : Threads n}

/-- An exit request is never taken back. -/
theorem shouldExit_step (loops : Fin n → PollLoop) {s : Threads n} (e : LoopStep n)
    (h : appShouldExit s.flags = true) : appShouldExit (s.step loops e).flags = true := by
  have hor : s.flags.signal = true ∨ s.flags.thread = true := by
    simpa [appShouldExit] using h
  cases e with
  | signal => simp [Threads.step, appShouldExit, appSignalHandler]
  | requestExit => simp [Threads.step, appShouldExit, appRequestExit]
  | check i => exact h
  | wait i result => exact h
  | print i result => exact h
  | finish i =>
      simp only [Threads.step]
      split_ifs
      · simp [appShouldExit, appRequestExit]
      · exact h

/-! ## When a thread leaves its loop -/

theorem eval_ne_zero_of_neg (ret : ReturnExpr) {err : Int32} (h : err < 0) : ret.eval err ≠ 0 := by
  have hneg : -err ≠ 0 := by
    intro hzero
    have herr : err = 0 := by simpa using congrArg Neg.neg hzero
    subst herr
    exact absurd h (by decide)
  cases ret with
  | orZero => simpa [ReturnExpr.eval, h] using hneg
  | orErr => simpa [ReturnExpr.eval, h] using hneg

theorem orErr_eval_ne_zero {err : Int32} (h : err ≠ 0) : ReturnExpr.orErr.eval err ≠ 0 := by
  by_cases hneg : err < 0
  · exact eval_ne_zero_of_neg .orErr hneg
  · simpa [ReturnExpr.eval, hneg] using h

/-- What the loop does to its thread. It is left after an exit request, with an error, or
when the wait was `interrupted`. -/
inductive PollLoop.Moves (L : PollLoop) (f : ExitFlags) (interrupted : Prop) (pc : Pc) : Pc → Prop
  | stays : Moves L f interrupted pc pc
  | goesOn {pc' : Pc} (hpc : pc.outcome = none) (hpc' : pc'.outcome = none) :
      Moves L f interrupted pc pc'
  | leaves {err : Int32} (hpc : pc.outcome = none)
      (hwhy : appShouldExit f = true ∨ L.ret.eval err ≠ 0 ∨ interrupted) :
      Moves L f interrupted pc (L.leave f err)

theorem PollLoop.Moves.mono {L : PollLoop} {f : ExitFlags} {p q : Prop} {pc pc' : Pc}
    (h : L.Moves f p pc pc') (hpq : p → q) : L.Moves f q pc pc' := by
  cases h with
  | stays => exact .stays
  | goesOn hpc hpc' => exact .goesOn hpc hpc'
  | leaves hpc hwhy => exact .leaves hpc (hwhy.imp_right (Or.imp_right hpq))

theorem check_moves (L : PollLoop) (f : ExitFlags) (interrupted : Prop) (pc : Pc) :
    L.Moves f interrupted pc (L.check f pc) := by
  cases pc with
  | head err =>
      simp only [PollLoop.check]
      split_ifs with hexit
      · exact .leaves rfl (Or.inl hexit)
      · exact .goesOn rfl rfl
  | recheck err =>
      simp only [PollLoop.check]
      split_ifs with hexit
      · exact .leaves rfl (Or.inl hexit)
      · exact .goesOn rfl rfl
  | _ => exact .stays

/-- The wait: an error is returned as such, so an interruption is all that can be taken for
success. -/
theorem wait_moves (L : PollLoop) (f : ExitFlags) (result : Int32) (pc : Pc) :
    L.Moves f (result = negEintr ∧ ∃ ret, L = .ringbuf ret) pc (L.wait f result pc) := by
  cases pc with
  | waiting err =>
      cases L with
      | ringbuf ret =>
          simp only [PollLoop.wait, PollLoop.onWait]
          by_cases hintr : result = negEintr
          · rw [if_pos hintr]
            exact .leaves rfl (Or.inr (Or.inr ⟨hintr, ret, rfl⟩))
          · rw [if_neg hintr]
            by_cases hneg : result < 0
            · rw [if_pos hneg]
              exact .leaves rfl (Or.inr (Or.inl (eval_ne_zero_of_neg ret hneg)))
            · rw [if_neg hneg]
              exact .goesOn rfl rfl
      | window =>
          simp only [PollLoop.wait, PollLoop.onWait]
          by_cases hfail : result < 0 ∧ result ≠ negEintr
          · rw [if_pos hfail]
            exact .leaves rfl (Or.inr (Or.inl (eval_ne_zero_of_neg _ hfail.1)))
          · rw [if_neg hfail]
            exact .goesOn rfl rfl
  | _ => exact .stays

theorem print_moves (L : PollLoop) (f : ExitFlags) (interrupted : Prop) (result : Int32) (pc : Pc) :
    L.Moves f interrupted pc (L.print f result pc) := by
  cases L with
  | ringbuf ret => exact .stays
  | window =>
      cases pc with
      | printing err =>
          simp only [PollLoop.print]
          split_ifs with hres
          · exact .leaves rfl (Or.inr (Or.inl (orErr_eval_ne_zero hres)))
          · exact .goesOn rfl rfl
      | _ => exact .stays

/-- Module `i` reads a ring buffer and its wait is interrupted. -/
def Interrupts (loops : Fin n → PollLoop) (i : Fin n) (e : LoopStep n) : Prop :=
  e = .wait i negEintr ∧ ∃ ret, loops i = .ringbuf ret

/-- What a step does to the thread of module `i`: a move in its loop, or the end of
`run_module_thread`. -/
theorem step_pc_cases (loops : Fin n → PollLoop) (s : Threads n) (e : LoopStep n) (i : Fin n) :
    (loops i).Moves s.flags (Interrupts loops i e) (s.pc i) ((s.step loops e).pc i) ∨
      (e = .finish i ∧ (s.step loops e).pc i = (s.pc i).finish) := by
  -- a step of another thread leaves this one where it is
  have hother : ∀ j pc, i ≠ j → (loops i).Moves s.flags (Interrupts loops i e) (s.pc i)
      (Function.update s.pc j pc i) := by
    intro j pc hij
    rw [Function.update_of_ne hij]
    exact .stays
  cases e with
  | signal => exact Or.inl .stays
  | requestExit => exact Or.inl .stays
  | check j =>
      left
      rcases eq_or_ne i j with rfl | hij
      · simp only [Threads.step, Function.update_self]
        exact check_moves (loops i) s.flags _ (s.pc i)
      · exact hother j _ hij
  | wait j result =>
      left
      rcases eq_or_ne i j with rfl | hij
      · simp only [Threads.step, Function.update_self]
        refine (wait_moves (loops i) s.flags result (s.pc i)).mono ?_
        rintro ⟨rfl, hloop⟩
        exact ⟨rfl, hloop⟩
      · exact hother j _ hij
  | print j result =>
      left
      rcases eq_or_ne i j with rfl | hij
      · simp only [Threads.step, Function.update_self]
        exact print_moves (loops i) s.flags _ result (s.pc i)
      · exact hother j _ hij
  | finish j =>
      rcases eq_or_ne i j with rfl | hij
      · right
        exact ⟨rfl, by simp [Threads.step]⟩
      · exact Or.inl (hother j _ hij)

theorem finish_outcome (pc : Pc) : pc.finish.outcome = pc.outcome := by
  cases pc <;> rfl

/-- The result of a thread stays. -/
theorem outcome_step (loops : Fin n → PollLoop) {s : Threads n} (e : LoopStep n) {i : Fin n}
    {o : Int32 × Bool} (h : (s.pc i).outcome = some o) :
    ((s.step loops e).pc i).outcome = some o := by
  rcases step_pc_cases loops s e i with hmoves | ⟨-, heq⟩
  · generalize (s.step loops e).pc i = pc' at hmoves ⊢
    cases hmoves with
    | stays => exact h
    | goesOn hpc hpc' => simp [hpc] at h
    | leaves hpc hwhy => simp [hpc] at h
  · rw [heq, finish_outcome, h]

/-- A step that meets the condition keeps every thread from returning 0 unasked. -/
theorem stopsOnRequest_step {e : LoopStep n} (h : StopsOnRequest s)
    (hreq : InterruptedOnRequest loops s e) : StopsOnRequest (s.step loops e) := by
  intro i asked
  rcases step_pc_cases loops s e i with hmoves | ⟨-, heq⟩
  · generalize (s.step loops e).pc i = pc' at hmoves ⊢
    cases hmoves with
    | stays => exact h i asked
    | goesOn hpc hpc' => simp [hpc']
    | leaves hpc hwhy =>
        intro hout
        obtain ⟨hres, rfl⟩ := Prod.mk.inj (Option.some.inj hout)
        rcases hwhy with hexit | herr | ⟨rfl, ret, hloop⟩
        · exact hexit
        · exact absurd hres herr
        · exact hreq ret hloop rfl
  · rw [heq, finish_outcome]
    exact h i asked

/-- A step that does not meet it ends a loop with 0, and no request has come. -/
theorem not_stopsOnRequest_step {e : LoopStep n} (ha : (program loops).Allowed s e)
    (hreq : ¬InterruptedOnRequest loops s e) : ¬StopsOnRequest (s.step loops e) := by
  cases e with
  | wait i result =>
      simp only [InterruptedOnRequest, not_forall] at hreq
      rcases hreq with ⟨ret, hloop, rfl, hexit⟩
      rcases ha with ⟨err, hpc⟩
      intro h
      have hout : ((s.step loops (.wait i negEintr)).pc i).outcome =
          some (0, appShouldExit s.flags) := by
        simp only [Threads.step, Function.update_self, hpc, hloop]
        cases ret <;> rfl
      exact hexit (h i _ hout)
  | _ => exact absurd trivial hreq

/-! ## Runs -/

/-- A run stops its modules on request exactly when its waits are interrupted on request. -/
theorem stopsOnRequest_iff_valid {es : List (LoopStep n)} (hv : (program loops).Valid es) :
    StopsOnRequest ((program loops).run es) ↔
      ((program loops).restrict (InterruptedOnRequest loops)).Valid es := by
  constructor
  · intro h
    induction es using List.reverseRecOn with
    | nil => exact trivial
    | append_singleton es e ih =>
        rw [Machine.valid_snoc] at hv ⊢
        rw [Machine.run_snoc] at h
        -- a module that has returned 0 unasked stays so
        have hbefore : StopsOnRequest ((program loops).run es) :=
          fun i asked hout => h i asked (outcome_step loops e hout)
        refine ⟨ih hv.1 hbefore, hv.2, ?_⟩
        by_contra hreq
        exact not_stopsOnRequest_step hv.2 hreq h
  · intro hvalid
    refine Machine.invariant_restrict (I := StopsOnRequest) ?_ ?_ hvalid
    · intro i asked hout
      cases hout
    · exact fun s e h _ hreq => stopsOnRequest_step h hreq

/-- What a thread leaves behind: the request it has followed, or, when it has failed and is
finished, its own. -/
def Pc.Requested (f : ExitFlags) : Pc → Prop
  | .returned _ asked => asked = true → appShouldExit f = true
  | .finished result asked => asked = true ∨ result ≠ 0 → appShouldExit f = true
  | _ => True

theorem PollLoop.Moves.requested {L : PollLoop} {f : ExitFlags} {interrupted : Prop} {pc pc' : Pc}
    (hmoves : L.Moves f interrupted pc pc') (h : pc.Requested f) : pc'.Requested f := by
  cases hmoves with
  | stays => exact h
  | goesOn hpc hpc' =>
      cases pc' with
      | returned result asked => cases hpc'
      | finished result asked => cases hpc'
      | _ => exact trivial
  | leaves hpc hwhy => exact id

theorem Pc.Requested.mono {f f' : ExitFlags} {pc : Pc} (h : pc.Requested f)
    (hf : appShouldExit f = true → appShouldExit f' = true) : pc.Requested f' := by
  cases pc with
  | returned result asked => exact fun hasked => hf (h hasked)
  | finished result asked => exact fun hend => hf (h hend)
  | _ => exact trivial

theorem requested_step (h : ∀ i, (s.pc i).Requested s.flags) (e : LoopStep n) (i : Fin n) :
    ((s.step loops e).pc i).Requested (s.step loops e).flags := by
  have hmono := shouldExit_step loops (s := s) e
  rcases step_pc_cases loops s e i with hmoves | ⟨rfl, heq⟩
  · exact (hmoves.requested (h i)).mono hmono
  · rw [heq]
    have hi := h i
    cases hpc : s.pc i with
    | returned result asked =>
        rw [hpc] at hi
        rintro (hasked | hfailed)
        · exact hmono (hi hasked)
        · simp [Threads.step, hpc, Pc.failed, hfailed, appShouldExit, appRequestExit]
    | finished result asked =>
        rw [hpc] at hi
        exact hi.mono hmono
    | _ => exact trivial

/-- **Modules stop on request.** In every run, no module has returned 0 unasked exactly when
no wait for the ring buffer was interrupted before an exit request; and then a module whose
thread is finished does not leave the others running. -/
theorem modules_stop_on_request (loops : Fin n → PollLoop) {es : List (LoopStep n)}
    (hv : (program loops).Valid es) :
    (StopsOnRequest ((program loops).run es) ↔
      ((program loops).restrict (InterruptedOnRequest loops)).Valid es) ∧
    (((program loops).restrict (InterruptedOnRequest loops)).Valid es →
      NoSilentStop ((program loops).run es)) := by
  have hiff := stopsOnRequest_iff_valid hv
  refine ⟨hiff, fun hvalid i result asked hpc => ?_⟩
  have hreq : ∀ i, (((program loops).run es).pc i).Requested ((program loops).run es).flags :=
    Machine.invariant_of_any (M := program loops)
      (I := fun s => ∀ i, (s.pc i).Requested s.flags) (fun _ => trivial)
      (fun _ e h => requested_step h e) es
  have hi := hreq i
  rw [hpc] at hi
  by_cases hres : result = 0
  · subst hres
    exact hi (Or.inl (hiff.2 hvalid i asked (by rw [hpc]; rfl)))
  · exact hi (Or.inr hres)

/-- `-m msgqueue,tcp_monitor`. -/
def twoModules (i : Fin 2) : PollLoop := if i.val = 0 then msgqueueRun else tcpMonitorRun

/-- Both are stopped by a signal whose handler runs before the poll returns. -/
theorem modules_stop_on_signal :
    let i : Fin 2 := ⟨0, Nat.two_pos⟩
    let es : List (LoopStep 2) := [.check i, .wait i 3, .check i, .signal, .wait i negEintr]
    StopsOnRequest ((program twoModules).run es) := by
  intro i es
  have hv : (program twoModules).Valid es := by
    refine ⟨⟨0, Or.inl rfl⟩, ⟨0, rfl⟩, ⟨3, Or.inl ?_⟩, trivial, ⟨3, ?_⟩, trivial⟩
    · decide +kernel
    · decide +kernel
  refine (modules_stop_on_request twoModules hv).1.2 ?_
  refine ⟨⟨⟨0, Or.inl rfl⟩, trivial⟩, ⟨⟨0, rfl⟩, ?_⟩, ⟨⟨3, Or.inl ?_⟩, trivial⟩, ⟨trivial, trivial⟩,
    ⟨⟨3, ?_⟩, ?_⟩, trivial⟩
  · intro ret _ hintr
    exact absurd hintr (by decide)
  · decide +kernel
  · decide +kernel
  · intro ret _ _
    rfl

/-- A stop and continue signal interrupts the poll of `msgqueue`: the module returns 0, its
thread is finished, no exit was requested and `tcp_monitor` goes on waiting. -/
theorem interrupted_module_stops_unasked :
    let i : Fin 2 := ⟨0, Nat.two_pos⟩
    let j : Fin 2 := ⟨1, Nat.one_lt_two⟩
    let es : List (LoopStep 2) := [.check i, .check j, .wait i negEintr, .finish i]
    (program twoModules).Valid es ∧ ¬StopsOnRequest ((program twoModules).run es) ∧
      ((program twoModules).run es).pc j = .waiting 0 ∧
      appShouldExit ((program twoModules).run es).flags = false := by
  intro i j es
  refine ⟨?_, ?_, by decide +kernel, by decide +kernel⟩
  · refine ⟨⟨0, Or.inl rfl⟩, ⟨0, Or.inl ?_⟩, ⟨0, ?_⟩, ⟨0, false, ?_⟩, trivial⟩
    · decide +kernel
    · decide +kernel
    · decide +kernel
  · intro h
    have hasked := h i false (by decide +kernel)
    cases hasked

/-- `slab_rate` needs no condition: an interrupted wait is followed by another look at the
flags. -/
theorem slabRate_stops_on_request {es : List (LoopStep n)}
    (hv : (program fun _ : Fin n => slabRateRun).Valid es) :
    StopsOnRequest ((program fun _ : Fin n => slabRateRun).run es) := by
  refine Machine.invariant (M := program _) (I := StopsOnRequest) ?_ ?_ hv
  · intro i asked hout
    cases hout
  · intro s e h _
    apply stopsOnRequest_step h
    cases e with
    | wait i result =>
        intro ret hloop
        cases hloop
    | _ => exact trivial

/-- `dr_snoop` alone returns the value of its last poll: an orderly stop after a poll that
has delivered events ends with their number, which `run_module_thread` takes for a failure. -/
theorem drSnoop_returns_last_count {i : Fin n} (hloop : loops i = drSnoopRun) {count : Int32}
    (hpc : s.pc i = .head count) (hpos : 0 < count) (hexit : appShouldExit s.flags = true) :
    let s' := (s.step loops (.check i)).step loops (.finish i)
    s'.pc i = .finished count true ∧ s'.flags.thread = true := by
  have hneg : ¬count < 0 := by
    intro hlt
    have h1 := Int32.lt_iff_toInt_lt.1 hpos
    have h2 := Int32.lt_iff_toInt_lt.1 hlt
    omega
  have hne : count ≠ 0 := by
    rintro rfl
    exact absurd hpos (by decide)
  have hret : (drSnoopRun.leave s.flags count) = .returned count true := by
    simp [PollLoop.leave, PollLoop.ret, drSnoopRun, ReturnExpr.eval, hneg, hexit]
  constructor
  · simp [Threads.step, hpc, hloop, PollLoop.check, hexit, hret, Pc.finish]
  · simp [Threads.step, hpc, hloop, PollLoop.check, hexit, hret, Pc.failed, hne, appRequestExit]

end EbpfToolbox.Common
