import EbpfToolbox.Common.RunModule
import EbpfToolbox.Lib.PerCpu
import Mathlib.Algebra.Order.BigOperators.Group.Finset

/-!
# From start to exit

`main` of `common/main.c` with `run_module_thread` and the `*_run` functions of the
selected modules: one thread per module, or a direct call when there is only one. A signal
may come at any time, every library call may fail, `pthread_create` too, and the threads
take their steps in any order.

Three things hold in every such run. No module uses or frees what it does not hold, and
everything is released when `main` returns. `main` returns only when every thread that
was created is done, and its exit code is 0 exactly when all modules were set up and
returned 0. And once an exit is requested the program ends: only a bounded number of
steps is left, and as long as `main` has not returned one of them can be taken.
-/

namespace EbpfToolbox.Common

open Lib

/-! ## One module -/

/-- Where a module stands: not started, in its set-up, in its loop, behind it with the
result to return, returned, or with its thread gone. -/
inductive RunPc where
  | notStarted
  | setup (p : RunProg Setup)
  | looping (pc : Pc)
  | closing (p : RunProg Unit) (result : Int32)
  | returned (result : Int32)
  | finished (result : Int32)

/-- `holdings` is `none` after a fault; `entered`: the loop was reached. -/
structure ModuleState where
  pc : RunPc := .notStarted
  holdings : Option Holdings := some .start
  entered : Bool := false

/-- An answer for every call. -/
abbrev World : Type := (c : LibCall) → c.Ret

def afterClosing : RunProg Unit → Int32 → RunPc
  | .pure _, result => .returned result
  | p, result => .closing p result

/-- The set-up is over and leads into the loop. -/
def enters : RunProg Setup → Bool
  | .pure .entered => true
  | _ => false

namespace RunFn

def afterSetup (F : RunFn) : RunProg Setup → RunPc
  | .pure .entered => .looping (.head 0)
  | .pure (.cleanup err) => afterClosing F.cleanup (F.loop.ret.eval err)
  | .pure (.returned result) => .returned result
  | p => .setup p

def afterLoop (F : RunFn) : Pc → RunPc
  | .returned result _ => afterClosing F.close result
  | pc => .looping pc

/-- `poll(NULL, 0, ms)` of `slab_rate` waits on nothing. -/
def waitEffect (F : RunFn) (w : World) (σ : Holdings) : Option Holdings :=
  match F.loop with
  | .ringbuf _ => LibCall.effect σ .poll (w .poll)
  | .window => some σ

/-- The next step of the thread. -/
def call (F : RunFn) (f : ExitFlags) (w : World) (m : ModuleState) : ModuleState :=
  match m.pc with
  | .setup (.call c k) =>
      { pc := F.afterSetup (k (w c))
        holdings := m.holdings.bind fun σ => c.effect σ (w c)
        entered := enters (k (w c)) }
  | .looping (.head err) => { m with pc := F.afterLoop (F.loop.check f (.head err)) }
  | .looping (.recheck err) => { m with pc := F.afterLoop (F.loop.check f (.recheck err)) }
  | .looping (.waiting err) =>
      { m with
        pc := F.afterLoop (F.loop.wait f (w .poll) (.waiting err))
        holdings := m.holdings.bind (F.waitEffect w) }
  | .looping (.printing err) =>
      { m with
        pc := F.afterLoop (F.loop.print f (w .printInterval) (.printing err))
        holdings := m.holdings.bind fun σ => LibCall.effect σ .printInterval (w .printInterval) }
  | .closing (.call c k) result =>
      { m with
        pc := afterClosing (k (w c)) result
        holdings := m.holdings.bind fun σ => c.effect σ (w c) }
  | .returned result => { m with pc := .finished result }
  | _ => m

def begin (F : RunFn) : ModuleState where
  pc := F.afterSetup F.setup
  entered := enters F.setup

end RunFn

/-- The value of `thread->result`, 0 before the module has returned. -/
def RunPc.result : RunPc → Int32
  | .returned result | .finished result => result
  | _ => 0

/-- `run_module_thread` asks the others to stop when its module has failed. -/
def RunPc.asks : RunPc → Bool
  | .returned result => result ≠ 0
  | _ => false

def RunPc.isFinished : RunPc → Bool
  | .finished _ => true
  | _ => false

def RunPc.isReturned : RunPc → Bool
  | .returned _ => true
  | _ => false

def RunPc.isStarted : RunPc → Bool
  | .notStarted => false
  | _ => true

/-! ## The program -/

/-- Where `main` stands: before the first thread, creating thread `i`, waiting for thread `j`
after the creation of thread `created` has failed, waiting for thread `i` with the error so
far, in the only module, or returned. -/
inductive MainPc where
  | starting
  | creating (i : ℕ)
  | abandoning (created j : ℕ)
  | joining (i : ℕ) (err : Int32)
  | running
  | done (code : Int32)
deriving DecidableEq

def exitCode (err : Int32) : Int32 := if err ≠ 0 then 1 else 0

namespace MainPc

/-- The second loop of `main`, from thread `i` on. -/
def joinFrom (n i : ℕ) (err : Int32) : MainPc :=
  if i < n then .joining i err else .done (exitCode err)

/-- The first loop, from thread `i` on. -/
def createFrom (n i : ℕ) : MainPc := if i < n then .creating i else joinFrom n 0 0

def abandonFrom (created j : ℕ) : MainPc := if j < created then .abandoning created j else .done 1

def isDone : MainPc → Bool
  | .done _ => true
  | _ => false

end MainPc

structure System (n : ℕ) where
  flags : ExitFlags := {}
  main : MainPc := .starting
  modules : Fin n → ModuleState := fun _ => {}

/-- `main` parses the arguments and installs the handlers, creates a thread, or gets one
back; a signal handler runs; the thread of module `i` takes its next step. -/
inductive SysStep (n : ℕ) where
  | start (parse handlers : Int32)
  | signal
  | create (rc : Int32)
  | join
  | call (i : Fin n) (w : World)

variable {n : ℕ}

namespace System

/-- What `p` says of module `i`. -/
def holdsAt (s : System n) (i : ℕ) (p : RunPc → Bool) : Bool :=
  if h : i < n then p (s.modules ⟨i, h⟩).pc else false

def resultAt (s : System n) (i : ℕ) : Int32 :=
  if h : i < n then (s.modules ⟨i, h⟩).pc.result else 0

/-- The modules when thread `i` has been created. -/
def startAt (fns : Fin n → RunFn) (s : System n) (i : ℕ) : Fin n → ModuleState :=
  fun j => if j.val = i then (fns j).begin else s.modules j

def step (fns : Fin n → RunFn) (s : System n) : SysStep n → System n
  | .start parse handlers =>
      if parse ≠ 0 then { s with main := .done 1 }
      else if handlers ≠ 0 then { s with main := .done 1 }
      else if n = 1 then { s with main := .running, modules := fun i => (fns i).begin }
      else { s with main := .createFrom n 0 }
  | .signal => { s with flags := appSignalHandler s.flags }
  | .create rc =>
      match s.main with
      | .creating i =>
          if rc ≠ 0 then
            { s with flags := appRequestExit s.flags, main := .abandonFrom i 0 }
          else
            { s with main := .createFrom n (i + 1), modules := s.startAt fns i }
      | _ => s
  | .join =>
      match s.main with
      | .joining i err =>
          { s with main := .joinFrom n (i + 1) (if err = 0 then s.resultAt i else err) }
      | .abandoning created j => { s with main := .abandonFrom created (j + 1) }
      | .running => { s with main := .done (exitCode (s.resultAt 0)) }
      | _ => s
  | .call i w =>
      { s with
        flags := if (s.modules i).pc.asks then appRequestExit s.flags else s.flags
        modules := Function.update s.modules i ((fns i).call s.flags w (s.modules i)) }

end System

/-- The thread of a module goes on until it is gone. The only module is called by `main`,
which goes on itself when it has returned. -/
def RunPc.Runs (n : ℕ) (pc : RunPc) : Prop :=
  pc.isStarted = true ∧ pc.isFinished = false ∧ (n = 1 → pc.isReturned = false)

def lifecycle (fns : Fin n → RunFn) : Machine (System n) (SysStep n) where
  init := {}
  step := System.step fns
  Allowed s e := match e with
    | .start _ _ => s.main = .starting
    | .signal => s.main ≠ .starting ∧ s.main.isDone = false
    | .create _ => ∃ i, s.main = .creating i
    | .join => match s.main with
        | .joining i _ => s.holdsAt i RunPc.isFinished = true
        | .abandoning _ j => s.holdsAt j RunPc.isFinished = true
        | .running => s.holdsAt 0 RunPc.isReturned = true
        | _ => False
    | .call i w => (s.modules i).pc.Runs n ∧ s.main.isDone = false ∧
        ∀ σ, (s.modules i).holdings = some σ → ∀ c, Documented σ c (w c)

/-! ## What one module keeps -/

/-- The steps of a loop that an exit request leaves it. -/
def Pc.cost : Pc → ℕ
  | .head _ | .recheck _ => 1
  | _ => 2

/-- Only the loop of `slab_rate` has a second look at the flags. -/
def Pc.Fits : PollLoop → Pc → Prop
  | _, .head _ | _, .waiting _ => True
  | .window, .recheck _ | .window, .printing _ => True
  | _, _ => False

/-- No fault, and what is held now will be released. A module that did not reach its loop
will not return 0. Once an exit is requested, at most `b` steps are left. -/
def RunFn.Ok (F : RunFn) (m : ModuleState) (b : ℕ) : Prop :=
  ∃ σ, m.holdings = some σ ∧ match m.pc with
    | .notStarted => σ = .start ∧ m.entered = false ∧ 27 ≤ b
    | .setup p => p.isDone = false ∧
        ∃ k, p.Ensures Documented LibCall.effect F.After k σ ∧ k + 13 ≤ b
    | .looping pc => m.entered = true ∧ F.After .entered σ ∧ pc.Fits F.loop ∧ pc.cost + 12 ≤ b
    | .closing p result => (m.entered = true ∨ result ≠ 0) ∧ p.isDone = false ∧
        ∃ k, Releases p k σ ∧ k + 1 ≤ b
    | .returned result => (m.entered = true ∨ result ≠ 0) ∧ σ.Released ∧ 1 ≤ b
    | .finished result => (m.entered = true ∨ result ≠ 0) ∧ σ.Released

section Module

variable {F : RunFn} {m : ModuleState} {σ : Holdings} {b : ℕ}

theorem ok_afterClosing {p : RunProg Unit} {result : Int32} {k : ℕ} {entered : Bool}
    (hp : Releases p k σ) (hresult : entered = true ∨ result ≠ 0) (hk : k + 1 ≤ b) :
    F.Ok ⟨afterClosing p result, some σ, entered⟩ b := by
  refine ⟨σ, rfl, ?_⟩
  cases p with
  | pure a => exact ⟨hresult, hp, by omega⟩
  | call c g => exact ⟨hresult, rfl, k, hp, hk⟩

theorem ok_afterSetup {p : RunProg Setup} {k : ℕ}
    (hp : p.Ensures Documented LibCall.effect F.After k σ) (hk : k + 13 ≤ b) :
    F.Ok ⟨F.afterSetup p, some σ, enters p⟩ b := by
  cases p with
  | pure outcome =>
      cases outcome with
      | entered => exact ⟨σ, rfl, rfl, hp, trivial, show 1 + 12 ≤ b by omega⟩
      | cleanup err => exact ok_afterClosing hp.2 (.inr hp.1) (by omega)
      | returned result => exact ⟨σ, rfl, .inr hp.1, hp.2, by omega⟩
  | call c g => exact ⟨σ, rfl, rfl, k, hp, hk⟩

theorem ok_begin (hF : F.Sound) : F.Ok F.begin 27 := ok_afterSetup hF le_rfl

/-- The loop goes on, or what follows it begins. -/
theorem ok_afterLoop (hσ : F.After .entered σ) {pc : Pc}
    (hpc : pc.Fits F.loop ∧ pc.cost + 12 ≤ b ∨
      ∃ result asked, pc = .returned result asked ∧ 12 ≤ b) :
    F.Ok ⟨F.afterLoop pc, some σ, true⟩ b := by
  rcases hpc with ⟨hfits, hcost⟩ | ⟨result, asked, rfl, hb⟩
  · have hloop : F.afterLoop pc = .looping pc := by
      cases pc with
      | returned result asked => cases hl : F.loop <;> rw [hl] at hfits <;> exact hfits.elim
      | _ => rfl
    rw [hloop]
    exact ⟨σ, rfl, rfl, hσ, hfits, hcost⟩
  · exact ok_afterClosing hσ.2 (.inl rfl) hb

theorem RunFn.Ok.mono {b' : ℕ} (h : F.Ok m b) (hb : b ≤ b') : F.Ok m b' := by
  rcases m with ⟨pc, holdings, entered⟩
  rcases h with ⟨σ, hσ, h⟩
  refine ⟨σ, hσ, ?_⟩
  cases pc with
  | notStarted => exact ⟨h.1, h.2.1, h.2.2.trans hb⟩
  | setup p =>
      rcases h with ⟨hdone, k, hp, hk⟩
      exact ⟨hdone, k, hp, hk.trans hb⟩
  | looping pc => exact ⟨h.1, h.2.1, h.2.2.1, h.2.2.2.trans hb⟩
  | closing p result =>
      rcases h with ⟨hent, hdone, k, hp, hk⟩
      exact ⟨hent, hdone, k, hp, hk.trans hb⟩
  | returned result => exact ⟨h.1, h.2.1, h.2.2.trans hb⟩
  | finished result => exact h

/-- A look at the flags: without a request the loop goes on. -/
theorem check_fits {L : PollLoop} {f : ExitFlags} {pc : Pc} (hfits : pc.Fits L) (hb : 14 ≤ b) :
    (L.check f pc).Fits L ∧ (L.check f pc).cost + 12 ≤ b ∨
      ∃ result asked, L.check f pc = .returned result asked ∧ 12 ≤ b := by
  cases pc with
  | head err =>
      simp only [PollLoop.check]
      split_ifs
      · exact .inr ⟨_, _, rfl, by omega⟩
      · exact .inl ⟨trivial, hb⟩
  | recheck err =>
      simp only [PollLoop.check]
      split_ifs
      · exact .inr ⟨_, _, rfl, by omega⟩
      · cases L with
        | ringbuf ret => exact hfits.elim
        | window => exact .inl ⟨trivial, hb⟩
  | waiting err => exact .inl ⟨trivial, hb⟩
  | printing err => exact .inl ⟨hfits, hb⟩
  | returned result asked => cases L <;> exact hfits.elim
  | finished result asked => cases L <;> exact hfits.elim

theorem check_leaves {L : PollLoop} {f : ExitFlags} {pc : Pc} (hexit : appShouldExit f = true)
    (hpc : pc.cost = 1) : ∃ result asked, L.check f pc = .returned result asked := by
  cases pc with
  | head err => exact ⟨_, _, if_pos hexit⟩
  | recheck err => exact ⟨_, _, if_pos hexit⟩
  | _ => cases hpc

/-- A wait and a print lead to a look at the flags, or out of the loop. -/
theorem wait_fits (L : PollLoop) (f : ExitFlags) (result err : Int32) (hb : 13 ≤ b) :
    (L.wait f result (.waiting err)).Fits L ∧ (L.wait f result (.waiting err)).cost + 12 ≤ b ∨
      ∃ result' asked, L.wait f result (.waiting err) = .returned result' asked ∧ 12 ≤ b := by
  cases L with
  | ringbuf ret =>
      simp only [PollLoop.wait, PollLoop.onWait]
      by_cases hintr : result = negEintr
      · rw [if_pos hintr]
        exact .inr ⟨_, _, rfl, by omega⟩
      · rw [if_neg hintr]
        by_cases hneg : result < 0
        · rw [if_pos hneg]
          exact .inr ⟨_, _, rfl, by omega⟩
        · rw [if_neg hneg]
          exact .inl ⟨trivial, hb⟩
  | window =>
      simp only [PollLoop.wait, PollLoop.onWait]
      by_cases hfail : result < 0 ∧ result ≠ negEintr
      · rw [if_pos hfail]
        exact .inr ⟨_, _, rfl, by omega⟩
      · rw [if_neg hfail]
        exact .inl ⟨trivial, hb⟩

theorem print_fits {L : PollLoop} {err : Int32} (hfits : (Pc.printing err).Fits L) (f : ExitFlags)
    (result : Int32) (hb : 13 ≤ b) :
    (L.print f result (.printing err)).Fits L ∧ (L.print f result (.printing err)).cost + 12 ≤ b ∨
      ∃ result' asked, L.print f result (.printing err) = .returned result' asked ∧ 12 ≤ b := by
  cases L with
  | ringbuf ret => exact hfits.elim
  | window =>
      simp only [PollLoop.print]
      split_ifs
      · exact .inr ⟨_, _, rfl, by omega⟩
      · exact .inl ⟨trivial, hb⟩

theorem waitEffect_of_entered (w : World) (hσ : F.After .entered σ) :
    F.waitEffect w σ = some σ := by
  unfold RunFn.waitEffect
  cases hloop : F.loop with
  | window => rfl
  | ringbuf ret =>
      have huse := hσ.1
      rw [hloop] at huse
      exact huse

theorem printEffect_of_entered {err : Int32} (hfits : (Pc.printing err).Fits F.loop)
    (hσ : F.After .entered σ) (r : Int32) : LibCall.effect σ .printInterval r = some σ := by
  have huse := hσ.1
  cases hloop : F.loop with
  | ringbuf ret =>
      rw [hloop] at hfits
      exact hfits.elim
  | window =>
      rw [hloop] at huse
      exact huse

/-- A step of the thread. After an exit request it uses up one of the steps that are left. -/
theorem RunFn.Ok.call {b' : ℕ} {f : ExitFlags} {w : World} (h : F.Ok m b)
    (hw : ∀ σ, m.holdings = some σ → ∀ c, Documented σ c (w c)) (hstarted : m.pc.isStarted = true)
    (hrunning : m.pc.isFinished = false) (hb : b ≤ b' + 1)
    (hexit : appShouldExit f = true ∨ 14 ≤ b') : 0 < b ∧ F.Ok (F.call f w m) b' := by
  rcases m with ⟨pc, holdings, entered⟩
  rcases h with ⟨σ, rfl, h⟩
  cases pc with
  | notStarted => cases hstarted
  | finished result => cases hrunning
  | returned result =>
      rcases h with ⟨hent, hrel, hone⟩
      exact ⟨hone, σ, rfl, hent, hrel⟩
  | setup p =>
      rcases h with ⟨hdone, k, hp, hk⟩
      cases p with
      | pure outcome => cases hdone
      | call c g =>
          cases k with
          | zero => exact hp.elim
          | succ k =>
              rcases hp (w c) (hw σ rfl c) with ⟨σ', hσ', hg⟩
              refine ⟨by omega, ?_⟩
              simp only [RunFn.call, Option.bind_some, hσ']
              exact ok_afterSetup hg (by omega)
  | closing p result =>
      rcases h with ⟨hent, hdone, k, hp, hk⟩
      cases p with
      | pure a => cases hdone
      | call c g =>
          cases k with
          | zero => exact hp.elim
          | succ k =>
              rcases hp (w c) (hw σ rfl c) with ⟨σ', hσ', hg⟩
              refine ⟨by omega, ?_⟩
              simp only [RunFn.call, Option.bind_some, hσ']
              exact ok_afterClosing hg hent (by omega)
  | looping pc =>
      rcases h with ⟨hent, hσ, hfits, hcost⟩
      obtain rfl : entered = true := hent
      -- at a look at the flags the request is seen, or there is none
      have hcheck : pc.cost = 1 → F.Ok ⟨F.afterLoop (F.loop.check f pc), some σ, true⟩ b' := by
        intro hone
        apply ok_afterLoop hσ
        rcases hexit with hexit | hfree
        · rcases check_leaves (L := F.loop) hexit hone with ⟨result, asked, hleave⟩
          exact .inr ⟨result, asked, hleave, by omega⟩
        · exact check_fits hfits hfree
      have hpos : 0 < b := by omega
      cases pc with
      | head err => exact ⟨hpos, hcheck rfl⟩
      | recheck err => exact ⟨hpos, hcheck rfl⟩
      | waiting err =>
          refine ⟨hpos, ?_⟩
          simp only [RunFn.call, Option.bind_some, waitEffect_of_entered w hσ]
          apply ok_afterLoop hσ
          exact wait_fits F.loop f _ err (by simp only [Pc.cost] at hcost; omega)
      | printing err =>
          refine ⟨hpos, ?_⟩
          simp only [RunFn.call, Option.bind_some, printEffect_of_entered hfits hσ]
          apply ok_afterLoop hσ
          exact print_fits hfits f _ (by simp only [Pc.cost] at hcost; omega)
      | returned result asked => cases hl : F.loop <;> rw [hl] at hfits <;> exact hfits.elim
      | finished result asked => cases hl : F.loop <;> rw [hl] at hfits <;> exact hfits.elim

/-! ## Threads -/

theorem afterClosing_pc (p : RunProg Unit) (result : Int32) :
    (afterClosing p result).isStarted = true ∧ (afterClosing p result).isFinished = false := by
  cases p <;> exact ⟨rfl, rfl⟩

theorem afterSetup_pc (F : RunFn) (p : RunProg Setup) :
    (F.afterSetup p).isStarted = true ∧ (F.afterSetup p).isFinished = false := by
  cases p with
  | pure outcome =>
      cases outcome with
      | entered => exact ⟨rfl, rfl⟩
      | cleanup err => exact afterClosing_pc _ _
      | returned result => exact ⟨rfl, rfl⟩
  | call c g => exact ⟨rfl, rfl⟩

theorem afterLoop_pc (F : RunFn) (pc : Pc) :
    (F.afterLoop pc).isStarted = true ∧ (F.afterLoop pc).isFinished = false := by
  cases pc with
  | returned result asked => exact afterClosing_pc _ _
  | _ => exact ⟨rfl, rfl⟩

/-- A thread stays started, and it is gone only after the module has returned. -/
theorem call_pc (F : RunFn) (f : ExitFlags) (w : World) (m : ModuleState)
    (h : m.pc.isStarted = true) :
    (F.call f w m).pc.isStarted = true ∧
      ((F.call f w m).pc.isFinished = true → m.pc.isReturned = true ∨ m.pc.isFinished = true) ∧
      ∀ result, (F.call f w m).pc = .finished result →
        m.pc = .returned result ∨ m.pc = .finished result := by
  have hmoved : ∀ pc : RunPc, pc.isStarted = true ∧ pc.isFinished = false →
      pc.isStarted = true ∧
        (pc.isFinished = true → m.pc.isReturned = true ∨ m.pc.isFinished = true) ∧
        ∀ result, pc = .finished result → m.pc = .returned result ∨ m.pc = .finished result := by
    rintro pc ⟨hs, hf⟩
    refine ⟨hs, fun h => absurd h (by rw [hf]; decide), ?_⟩
    rintro result rfl
    cases hf
  rcases m with ⟨pc, holdings, entered⟩
  cases pc with
  | notStarted => cases h
  | setup p =>
      cases p with
      | pure outcome => exact hmoved _ ⟨rfl, rfl⟩
      | call c g => exact hmoved _ (afterSetup_pc F _)
  | closing p result =>
      cases p with
      | pure a => exact hmoved _ ⟨rfl, rfl⟩
      | call c g => exact hmoved _ (afterClosing_pc _ _)
  | looping pc =>
      cases pc with
      | head err => exact hmoved _ (afterLoop_pc F _)
      | recheck err => exact hmoved _ (afterLoop_pc F _)
      | waiting err => exact hmoved _ (afterLoop_pc F _)
      | printing err => exact hmoved _ (afterLoop_pc F _)
      | returned result asked => exact hmoved _ ⟨rfl, rfl⟩
      | finished result asked => exact hmoved _ ⟨rfl, rfl⟩
  | returned result =>
      refine ⟨rfl, fun _ => .inl rfl, fun result' hr => .inl ?_⟩
      cases hr
      rfl
  | finished result => exact ⟨rfl, fun _ => .inr rfl, fun result' hr => .inr hr⟩

end Module

/-! ## What the program keeps -/

namespace System

/-- The steps of `main` that are left. -/
def mainCost (n : ℕ) : MainPc → ℕ
  | .starting => 2 * n + 2
  | .creating i => 2 * n - i
  | .abandoning created j => created - j
  | .joining i _ => n - i
  | .running => 1
  | .done _ => 0

variable (s : System n)

/-- The threads below `k` were created. -/
def Created (k : ℕ) : Prop := ∀ i, (s.modules i).pc.isStarted = true ↔ i.val < k

/-- The threads below `j` are gone. -/
def Joined (j : ℕ) : Prop := ∀ i, i.val < j → (s.modules i).pc.isFinished = true

/-- Which threads there are, by the place where `main` is. -/
def Stage : MainPc → Prop
  | .starting => s.Created 0
  | .creating k => k < n ∧ n ≠ 1 ∧ s.Created k
  | .abandoning k j => j < k ∧ k < n ∧ n ≠ 1 ∧ s.Created k ∧ s.Joined j
  | .joining j err => j < n ∧ n ≠ 1 ∧ s.Created n ∧ s.Joined j ∧
      (err = 0 ↔ ∀ i, i.val < j → (s.modules i).pc.result = 0)
  | .running => n = 1 ∧ s.Created n ∧ ∀ i, (s.modules i).pc.isFinished = false
  | .done code => (code = 0 ∨ code = 1) ∧
      (∀ i, (s.modules i).pc.isStarted = true →
        (s.modules i).pc.isFinished = true ∨ (s.modules i).pc.isReturned = true) ∧
      (code = 0 ↔ ∀ i, (s.modules i).pc.isStarted = true ∧ (s.modules i).pc.result = 0)

end System

namespace System

variable {s : System n}

theorem exitCode_eq_zero {err : Int32} : exitCode err = 0 ↔ err = 0 := by
  unfold exitCode
  split_ifs with h
  · simpa using h
  · simpa using h

theorem exitCode_cases (err : Int32) : exitCode err = 0 ∨ exitCode err = 1 := by
  unfold exitCode
  split_ifs
  · exact .inr rfl
  · exact .inl rfl

/-- `main` gives up before all modules were started. -/
theorem stage_done_one {k : ℕ} (hk : k < n) (hcreated : s.Created k) (hjoined : s.Joined k) :
    s.Stage (.done 1) := by
  refine ⟨.inr rfl, fun i hi => .inl (hjoined i ((hcreated i).mp hi)), ?_⟩
  constructor
  · intro h
    exact absurd h (by decide)
  · intro h
    exact absurd ((hcreated ⟨k, hk⟩).mp (h ⟨k, hk⟩).1) (Nat.lt_irrefl k)

theorem stage_joinFrom {j : ℕ} {err : Int32} (hj : j ≤ n) (hn : n ≠ 1) (hcreated : s.Created n)
    (hjoined : s.Joined j) (herr : err = 0 ↔ ∀ i, i.val < j → (s.modules i).pc.result = 0) :
    s.Stage (.joinFrom n j err) := by
  unfold MainPc.joinFrom
  split_ifs with hlt
  · exact ⟨hlt, hn, hcreated, hjoined, herr⟩
  · obtain rfl : j = n := by omega
    refine ⟨exitCode_cases err, fun i _ => .inl (hjoined i i.isLt), ?_⟩
    rw [exitCode_eq_zero, herr]
    constructor
    · exact fun h i => ⟨(hcreated i).mpr i.isLt, h i i.isLt⟩
    · exact fun h i _ => (h i).2

theorem stage_createFrom {k : ℕ} (hpos : 0 < n) (hk : k ≤ n) (hn : n ≠ 1)
    (hcreated : s.Created k) : s.Stage (.createFrom n k) := by
  unfold MainPc.createFrom
  split_ifs with hlt
  · exact ⟨hlt, hn, hcreated⟩
  · obtain rfl : k = n := by omega
    refine stage_joinFrom (Nat.zero_le k) hn hcreated ?_ ?_
    · exact fun i hi => absurd hi (Nat.not_lt_zero _)
    · exact ⟨fun _ i hi => absurd hi (Nat.not_lt_zero _), fun _ => rfl⟩

theorem stage_abandonFrom {k j : ℕ} (hj : j ≤ k) (hk : k < n) (hn : n ≠ 1)
    (hcreated : s.Created k) (hjoined : s.Joined j) : s.Stage (.abandonFrom k j) := by
  unfold MainPc.abandonFrom
  split_ifs with hlt
  · exact ⟨hlt, hk, hn, hcreated, hjoined⟩
  · obtain rfl : j = k := by omega
    exact stage_done_one hk hcreated hjoined

theorem joined_succ {j : ℕ} (hjoined : s.Joined j)
    (hj : s.holdsAt j RunPc.isFinished = true) : s.Joined (j + 1) := by
  intro i hi
  by_cases hij : i.val = j
  · subst hij
    simpa [holdsAt, i.isLt] using hj
  · exact hjoined i (by omega)

theorem mainCost_joinFrom (j : ℕ) (err : Int32) : mainCost n (.joinFrom n j err) ≤ n - j := by
  unfold MainPc.joinFrom
  split_ifs
  · exact le_rfl
  · exact Nat.zero_le _

theorem mainCost_createFrom {k : ℕ} (hk : k ≤ n) : mainCost n (.createFrom n k) ≤ 2 * n - k := by
  unfold MainPc.createFrom
  split_ifs with h
  · exact le_rfl
  · have hjoin := mainCost_joinFrom (n := n) 0 0
    omega

theorem mainCost_abandonFrom (k j : ℕ) : mainCost n (.abandonFrom k j) ≤ k - j := by
  unfold MainPc.abandonFrom
  split_ifs
  · exact le_rfl
  · exact Nat.zero_le _

end System

/-- `b i`: the steps that are left for module `i` once an exit is requested. -/
structure SysInv (fns : Fin n → RunFn) (s : System n) (b : Fin n → ℕ) : Prop where
  ok : ∀ i, (fns i).Ok (s.modules i) (b i)
  bound : ∀ i, b i ≤ 27
  stage : s.Stage s.main
  asked : ∀ i result, (s.modules i).pc = .finished result → result ≠ 0 →
    appShouldExit s.flags = true

namespace SysInv

variable {fns : Fin n → RunFn} {s : System n} {b : Fin n → ℕ}

/-- `main` goes on and the threads stay as they are. -/
theorem main_step (h : SysInv fns s b) {flags : ExitFlags} {main : MainPc}
    (hflags : appShouldExit s.flags = true → appShouldExit flags = true)
    (hstage : s.Stage main) : SysInv fns { s with flags := flags, main := main } b where
  ok := h.ok
  bound := h.bound
  stage := by
    cases main <;> exact hstage
  asked i result hpc hne := hflags (h.asked i result hpc hne)

theorem join_step (h : SysInv fns s b) (hv : (lifecycle fns).Allowed s .join) :
    SysInv fns (s.step fns .join) b ∧
      System.mainCost n (s.step fns .join).main + 1 ≤ System.mainCost n s.main := by
  have hstage := h.stage
  cases hm : s.main with
  | joining j err =>
      rw [hm] at hstage
      rcases hstage with ⟨hj, hn, hcreated, hjoined, herr⟩
      simp only [lifecycle, hm] at hv
      have hresult : s.resultAt j = (s.modules ⟨j, hj⟩).pc.result := by simp [System.resultAt, hj]
      simp only [System.step, hm]
      have hjoined' := System.joined_succ hjoined hv
      refine ⟨h.main_step id (System.stage_joinFrom hj hn hcreated hjoined' ?_), ?_⟩
      · rw [hresult]
        by_cases hzero : err = 0
        · rw [if_pos hzero]
          constructor
          · intro hj0 i hi
            by_cases hij : i.val = j
            · subst hij
              exact hj0
            · exact herr.mp hzero i (by omega)
          · exact fun hall => hall ⟨j, hj⟩ (Nat.lt_succ_self j)
        · rw [if_neg hzero]
          exact ⟨fun h0 => absurd h0 hzero,
            fun hall => absurd (herr.mpr fun i hi => hall i (by omega)) hzero⟩
      · have hcost := System.mainCost_joinFrom (n := n) (j + 1)
          (if err = 0 then s.resultAt j else err)
        show System.mainCost n _ + 1 ≤ n - j
        omega
  | abandoning k j =>
      rw [hm] at hstage
      rcases hstage with ⟨hj, hk, hn, hcreated, hjoined⟩
      simp only [lifecycle, hm] at hv
      simp only [System.step, hm]
      refine ⟨h.main_step id
        (System.stage_abandonFrom hj hk hn hcreated (System.joined_succ hjoined hv)), ?_⟩
      have hcost := System.mainCost_abandonFrom (n := n) k (j + 1)
      show System.mainCost n _ + 1 ≤ k - j
      omega
  | running =>
      rw [hm] at hstage
      rcases hstage with ⟨rfl, hcreated, hrunning⟩
      simp only [lifecycle, hm] at hv
      simp only [System.step, hm]
      refine ⟨h.main_step id ⟨System.exitCode_cases _, fun i _ => .inr ?_, ?_⟩, le_rfl⟩
      · rw [Subsingleton.elim i ⟨0, Nat.one_pos⟩]
        simpa [System.holdsAt] using hv
      · rw [System.exitCode_eq_zero]
        constructor
        · intro h0 i
          refine ⟨(hcreated i).mpr i.isLt, ?_⟩
          rw [Subsingleton.elim i ⟨0, Nat.one_pos⟩]
          simpa [System.resultAt] using h0
        · intro hall
          simpa [System.resultAt] using (hall ⟨0, Nat.one_pos⟩).2
  | starting => simp [lifecycle, hm] at hv
  | creating k => simp [lifecycle, hm] at hv
  | done code => simp [lifecycle, hm] at hv

/-- A module that was not started is started. -/
theorem ok_start (h : SysInv fns s b) (hfns : ∀ i, (fns i).Sound) {i : Fin n}
    (hi : (s.modules i).pc.isStarted = false) : (fns i).Ok (fns i).begin (b i) := by
  have hbegin := ok_begin (hfns i)
  rcases h.ok i with ⟨σ, -, hpc⟩
  cases hm : (s.modules i).pc with
  | notStarted =>
      rw [hm] at hpc
      exact hbegin.mono hpc.2.2
  | _ =>
      rw [hm] at hi
      cases hi

theorem create_step (h : SysInv fns s b) (hfns : ∀ i, (fns i).Sound) {rc : Int32} {k : ℕ}
    (hm : s.main = .creating k) :
    SysInv fns (s.step fns (.create rc)) b ∧
      System.mainCost n (s.step fns (.create rc)).main + 1 ≤ System.mainCost n s.main := by
  have hstage := h.stage
  rw [hm] at hstage
  rcases hstage with ⟨hk, hn, hcreated⟩
  simp only [System.step, hm]
  by_cases hrc : rc = 0
  · rw [if_neg (by simpa using hrc)]
    constructor
    · refine ⟨fun i => ?_, h.bound, ?_, fun i result hpc hne => ?_⟩
      · simp only [System.startAt]
        split_ifs with hik
        · apply h.ok_start hfns
          have hnot : ¬ (s.modules i).pc.isStarted = true := by
            rw [hcreated i]
            omega
          simpa using hnot
        · exact h.ok i
      · have hcreated' : System.Created { s with modules := s.startAt fns k } (k + 1) := by
          intro i
          simp only [System.startAt]
          split_ifs with hik
          · exact ⟨fun _ => by omega, fun _ => (afterSetup_pc (fns i) (fns i).setup).1⟩
          · rw [hcreated i]
            omega
        have hstage := System.stage_createFrom (by omega : 0 < n) hk hn hcreated'
        cases hpc : MainPc.createFrom n (k + 1) <;> rw [hpc] at hstage <;> exact hstage
      · simp only [System.startAt] at hpc
        split_ifs at hpc with hik
        · have hfin := (afterSetup_pc (fns i) (fns i).setup).2
          rw [show (fns i).afterSetup (fns i).setup = .finished result from hpc] at hfin
          cases hfin
        · exact h.asked i result hpc hne
    · have hcost := System.mainCost_createFrom (n := n) (k := k + 1) hk
      show System.mainCost n (.createFrom n (k + 1)) + 1 ≤ 2 * n - k
      omega
  · rw [if_pos hrc]
    constructor
    · refine h.main_step (fun _ => by simp [appShouldExit, appRequestExit])
        (System.stage_abandonFrom (Nat.zero_le k) hk hn hcreated ?_)
      exact fun i hi => absurd hi (Nat.not_lt_zero _)
    · have hcost := System.mainCost_abandonFrom (n := n) k 0
      show System.mainCost n (.abandonFrom k 0) + 1 ≤ 2 * n - k
      omega

theorem start_step (h : SysInv fns s b) (hfns : ∀ i, (fns i).Sound) (hpos : 0 < n)
    (parse handlers : Int32) (hm : s.main = .starting) :
    SysInv fns (s.step fns (.start parse handlers)) b ∧
      System.mainCost n (s.step fns (.start parse handlers)).main + 1 ≤
        System.mainCost n s.main := by
  have hcreated := h.stage
  rw [hm] at hcreated
  have hcost : System.mainCost n s.main = 2 * n + 2 := by rw [hm]; rfl
  have hnone : ∀ i, (s.modules i).pc.isStarted = false := by
    intro i
    have hnot : ¬ (s.modules i).pc.isStarted = true := by
      rw [hcreated i]
      omega
    simpa using hnot
  have hfail : s.Stage (.done 1) :=
    System.stage_done_one hpos hcreated fun i hi => absurd hi (Nat.not_lt_zero _)
  simp only [System.step]
  split_ifs with hparse hhandlers hone
  · exact ⟨h.main_step id hfail, by rw [hcost]; exact Nat.succ_le_succ (Nat.zero_le _)⟩
  · exact ⟨h.main_step id hfail, by rw [hcost]; exact Nat.succ_le_succ (Nat.zero_le _)⟩
  · subst hone
    refine ⟨⟨fun i => h.ok_start hfns (hnone i), h.bound, ⟨rfl, fun i => ?_, fun i => ?_⟩, ?_⟩, ?_⟩
    · exact ⟨fun _ => i.isLt, fun _ => (afterSetup_pc (fns i) (fns i).setup).1⟩
    · exact (afterSetup_pc (fns i) (fns i).setup).2
    · intro i result hpc _
      have hfin := (afterSetup_pc (fns i) (fns i).setup).2
      rw [show (fns i).afterSetup (fns i).setup = .finished result from hpc] at hfin
      cases hfin
    · rw [hcost]
      show 1 + 1 ≤ 2 * 1 + 2
      decide
  · refine ⟨h.main_step id (System.stage_createFrom hpos (Nat.zero_le n) hone hcreated), ?_⟩
    have hcreate := System.mainCost_createFrom (n := n) (Nat.zero_le n)
    show System.mainCost n (.createFrom n 0) + 1 ≤ _
    omega

/-- A step of one thread does not change what `main` relies on. -/
theorem stage_call (h : SysInv fns s b) {i : Fin n} {w : World} (hrun : (s.modules i).pc.Runs n)
    (hdone : s.main.isDone = false) : (s.step fns (.call i w)).Stage s.main := by
  rcases hrun with ⟨hstarted, hrunning, hone⟩
  have hcall := call_pc (fns i) s.flags w (s.modules i) hstarted
  have hmod : ∀ j, (s.step fns (.call i w)).modules j =
      if j = i then (fns i).call s.flags w (s.modules i) else s.modules j := by
    intro j
    simp only [System.step, Function.update_apply]
  have hcreated : ∀ k, s.Created k → (s.step fns (.call i w)).Created k := by
    intro k hk j
    rw [hmod]
    split_ifs with hj
    · subst hj
      rw [← hk j, hstarted]
      exact iff_of_true hcall.1 rfl
    · exact hk j
  -- a thread that is gone is not the one that takes the step
  have hgone : ∀ j, (s.modules j).pc.isFinished = true →
      (s.step fns (.call i w)).modules j = s.modules j := by
    intro j hj
    rw [hmod, if_neg]
    rintro rfl
    rw [hrunning] at hj
    cases hj
  have hjoined : ∀ k, s.Joined k → (s.step fns (.call i w)).Joined k := by
    intro k hk j hj
    rw [hgone j (hk j hj)]
    exact hk j hj
  have hstage := h.stage
  cases hm : s.main with
  | starting =>
      rw [hm] at hstage
      exact hcreated 0 hstage
  | creating k =>
      rw [hm] at hstage
      exact ⟨hstage.1, hstage.2.1, hcreated k hstage.2.2⟩
  | abandoning k j =>
      rw [hm] at hstage
      rcases hstage with ⟨hj, hk, hn, hc, hjo⟩
      exact ⟨hj, hk, hn, hcreated k hc, hjoined j hjo⟩
  | joining j err =>
      rw [hm] at hstage
      rcases hstage with ⟨hj, hn, hc, hjo, herr⟩
      refine ⟨hj, hn, hcreated n hc, hjoined j hjo, herr.trans ?_⟩
      refine forall_congr' fun k => imp_congr_right fun hk => ?_
      rw [hgone k (hjo k hk)]
  | running =>
      rw [hm] at hstage
      rcases hstage with ⟨hn, hc, hfin⟩
      refine ⟨hn, hcreated n hc, fun j => ?_⟩
      rw [hmod]
      split_ifs
      · by_contra hnot
        rcases hcall.2.1 (by simpa using hnot) with hret | hf
        · rw [hone hn] at hret
          cases hret
        · rw [hrunning] at hf
          cases hf
      · exact hfin j
  | done code =>
      rw [hm] at hdone
      cases hdone

theorem call_step (h : SysInv fns s b) {i : Fin n} {w : World}
    (hv : (lifecycle fns).Allowed s (.call i w)) :
    0 < b i ∧ ∀ b', b i ≤ b' + 1 → appShouldExit s.flags = true ∨ 14 ≤ b' → b' ≤ 27 →
      SysInv fns (s.step fns (.call i w)) (Function.update b i b') := by
  rcases hv with ⟨hrun, hdone, hw⟩
  rcases hrun with ⟨hstarted, hrunning, hone⟩
  have hok : ∀ b', b i ≤ b' + 1 → appShouldExit s.flags = true ∨ 14 ≤ b' →
      0 < b i ∧ (fns i).Ok ((fns i).call s.flags w (s.modules i)) b' :=
    fun b' => (h.ok i).call hw hstarted hrunning
  have hbound := h.bound i
  refine ⟨(hok 27 (by omega) (.inr (by omega))).1, fun b' hb hexit hb' => ?_⟩
  constructor
  · intro j
    simp only [System.step]
    by_cases hj : j = i
    · subst hj
      simp only [Function.update_self]
      exact (hok b' hb hexit).2
    · simp only [Function.update_of_ne hj]
      exact h.ok j
  · exact (Function.forall_update_iff b fun _ k => k ≤ 27).mpr ⟨hb', fun j _ => h.bound j⟩
  · exact h.stage_call ⟨hstarted, hrunning, hone⟩ hdone
  · intro j result hpc hne
    have hmono : appShouldExit s.flags = true →
        appShouldExit (s.step fns (.call i w)).flags = true := by
      intro hex
      simp only [System.step]
      split_ifs
      · simp [appShouldExit, appRequestExit]
      · exact hex
    simp only [System.step] at hpc
    by_cases hj : j = i
    · subst hj
      rw [Function.update_self] at hpc
      rcases (call_pc (fns j) s.flags w (s.modules j) hstarted).2.2 result hpc with hret | hfin
      · simp [System.step, hret, RunPc.asks, hne, appShouldExit, appRequestExit]
      · exact hmono (h.asked j result hfin hne)
    · rw [Function.update_of_ne hj] at hpc
      exact hmono (h.asked j result hpc hne)

end SysInv

/-! ## Runs -/

def SysStep.isSignal : SysStep n → Bool
  | .signal => true
  | _ => false

section Runs

variable {fns : Fin n → RunFn} {s : System n} {b : Fin n → ℕ}

/-- The steps that are left after an exit request, signals apart. -/
def System.left (s : System n) (b : Fin n → ℕ) : ℕ := PerCpu.total id b + System.mainCost n s.main

theorem SysInv.step (h : SysInv fns s b) (hfns : ∀ i, (fns i).Sound) (hpos : 0 < n) {e : SysStep n}
    (hv : (lifecycle fns).Allowed s e) :
    ∃ b', SysInv fns (s.step fns e) b' ∧ (appShouldExit s.flags = true →
      (s.step fns e).left b' + (if e.isSignal then 0 else 1) ≤ s.left b) := by
  -- a step of `main` leaves the modules what they have
  have hmain : ∀ s' : System n, SysInv fns s' b ∧
      System.mainCost n s'.main + 1 ≤ System.mainCost n s.main →
      ∃ b', SysInv fns s' b' ∧ (appShouldExit s.flags = true → s'.left b' + 1 ≤ s.left b) := by
    rintro s' ⟨hs', hcost⟩
    refine ⟨b, hs', fun _ => ?_⟩
    unfold System.left
    omega
  cases e with
  | start parse handlers => exact hmain _ (h.start_step hfns hpos parse handlers hv)
  | create rc =>
      rcases hv with ⟨k, hk⟩
      exact hmain _ (h.create_step hfns hk)
  | join => exact hmain _ (h.join_step hv)
  | signal =>
      refine ⟨b, h.main_step ?_ h.stage, fun _ => le_rfl⟩
      intro _
      simp [appShouldExit, appSignalHandler]
  | call i w =>
      rcases h.call_step hv with ⟨hi, hstep⟩
      have hbound := h.bound i
      by_cases hexit : appShouldExit s.flags = true
      · refine ⟨_, hstep (b i - 1) (by omega) (.inl hexit) (by omega), fun _ => ?_⟩
        have htotal := PerCpu.total_update id b i (b i - 1)
        show PerCpu.total id (Function.update b i (b i - 1)) + System.mainCost n s.main + 1 ≤
          PerCpu.total id b + System.mainCost n s.main
        simp only [id_eq] at htotal
        omega
      · exact ⟨_, hstep 27 (by omega) (.inr (by omega)) le_rfl, fun hex => absurd hex hexit⟩

theorem sysInv_init (fns : Fin n → RunFn) : SysInv fns (lifecycle fns).init fun _ => 27 where
  ok _ := ⟨.start, rfl, rfl, rfl, le_rfl⟩
  bound _ := le_rfl
  stage _ := iff_of_false nofun (Nat.not_lt_zero _)
  asked _ _ hpc := by cases hpc

theorem sysInv_run (hfns : ∀ i, (fns i).Sound) (hpos : 0 < n) {es : List (SysStep n)}
    (hv : (lifecycle fns).Valid es) : ∃ b, SysInv fns ((lifecycle fns).run es) b := by
  refine Machine.invariant (M := lifecycle fns) (I := fun s => ∃ b, SysInv fns s b)
    ⟨_, sysInv_init fns⟩ ?_ hv
  rintro s e ⟨b, h⟩ ha
  rcases h.step hfns hpos ha with ⟨b', hb', -⟩
  exact ⟨b', hb'⟩

theorem System.shouldExit_step (e : SysStep n) (h : appShouldExit s.flags = true) :
    appShouldExit (s.step fns e).flags = true := by
  cases e with
  | start parse handlers =>
      simp only [System.step]
      split_ifs <;> exact h
  | signal => simp [System.step, appShouldExit, appSignalHandler]
  | create rc =>
      simp only [System.step]
      split
      · split_ifs
        · simp [appShouldExit, appRequestExit]
        · exact h
      · exact h
  | join =>
      simp only [System.step]
      split <;> exact h
  | call i w =>
      simp only [System.step]
      split_ifs
      · simp [appShouldExit, appRequestExit]
      · exact h

/-- After an exit request the steps that are left bound the run. -/
theorem SysInv.steps_le (hfns : ∀ i, (fns i).Sound) (hpos : 0 < n) (h : SysInv fns s b)
    (hexit : appShouldExit s.flags = true) {es : List (SysStep n)}
    (hv : (lifecycle fns).ValidFrom s es) :
    es.countP (fun e => !e.isSignal) ≤ s.left b := by
  induction es generalizing s b with
  | nil => exact Nat.zero_le _
  | cons e es ih =>
      rcases h.step hfns hpos hv.1 with ⟨b', hb', hleft⟩
      have hrest := ih hb' (System.shouldExit_step e hexit) hv.2
      have hstep := hleft hexit
      rw [List.countP_cons]
      cases hsig : e.isSignal with
      | true =>
          simp only [hsig, if_true] at hstep
          simp only [Bool.not_true, Bool.false_eq_true, if_false]
          omega
      | false =>
          simp only [hsig, Bool.false_eq_true, if_false] at hstep
          simp only [Bool.not_false, if_true]
          omega

theorem SysInv.left_le (h : SysInv fns s b) : s.left b ≤ 29 * n + 2 := by
  have hb : PerCpu.total id b ≤ 27 * n := by
    calc PerCpu.total id b ≤ ∑ _i : Fin n, 27 := Finset.sum_le_sum fun i _ => h.bound i
      _ = 27 * n := by simp [Nat.mul_comm]
  have hmain : System.mainCost n s.main ≤ 2 * n + 2 := by
    have hstage := h.stage
    cases hm : s.main with
    | abandoning k j =>
        rw [hm] at hstage
        have hk := hstage.2.1
        show k - j ≤ _
        omega
    | _ =>
        simp only [System.mainCost]
        omega
  unfold System.left
  omega

/-- A library in which nothing fails and nothing happens; the globals are as given. -/
def World.quiet (gSkel : Bool) (gNcpus : Int32) : World
  | .calloc _ | .openAndLoad | .openSkeleton | .ringBufferNew => true
  | .setGSkel _ | .setGNcpus _ | .sumCpus | .release _ => ()
  | .gSkelThere => gSkel
  | .gNcpus => gNcpus
  | .numPossibleCpus => (1 : Int32)
  | .getPidNamespace | .load | .updateCtrl | .attach | .tracepointExists => (0 : Int32)
  | .attachRawTracepoint _ | .poll | .printInterval | .lookupStats _ _ => (0 : Int32)

theorem World.quiet_documented (σ : Holdings) (c : LibCall) :
    Documented σ c (World.quiet σ.gSkel σ.gNcpus c) := by
  cases c <;> first | exact trivial | exact Int32.le_refl 0 | rfl

/-- What the thread of a module needs to take a step. -/
theorem SysInv.call_allowed (h : SysInv fns s b) (hdone : s.main.isDone = false) {i : Fin n}
    (hrun : (s.modules i).pc.Runs n) :
    ∃ e : SysStep n, e.isSignal = false ∧ (lifecycle fns).Allowed s e := by
  rcases h.ok i with ⟨σ, hσ, -⟩
  refine ⟨.call i (World.quiet σ.gSkel σ.gNcpus), rfl, hrun, hdone, fun σ' hσ' => ?_⟩
  obtain rfl := Option.some.inj (hσ.symm.trans hσ')
  exact World.quiet_documented σ

/-- The thread that `main` waits for is gone, or it can take a step. -/
theorem SysInv.progress_at (h : SysInv fns s b) (hdone : s.main.isDone = false) {j : ℕ}
    (hj : j < n) (hn : n ≠ 1)
    (hcreated : (s.modules ⟨j, hj⟩).pc.isStarted = true) :
    s.holdsAt j RunPc.isFinished = true ∨
      ∃ e : SysStep n, e.isSignal = false ∧ (lifecycle fns).Allowed s e := by
  by_cases hfin : (s.modules ⟨j, hj⟩).pc.isFinished = true
  · left
    simpa [System.holdsAt, hj] using hfin
  · right
    exact h.call_allowed hdone ⟨hcreated, by simpa using hfin, fun hone => absurd hone hn⟩

/-- As long as `main` has not returned, somebody can take a step. -/
theorem SysInv.progress (h : SysInv fns s b) (hdone : s.main.isDone = false) :
    ∃ e : SysStep n, e.isSignal = false ∧ (lifecycle fns).Allowed s e := by
  have hstage := h.stage
  cases hm : s.main with
  | starting => exact ⟨.start 0 0, rfl, hm⟩
  | creating k => exact ⟨.create 0, rfl, k, hm⟩
  | abandoning k j =>
      rw [hm] at hstage
      rcases hstage with ⟨hj, hk, hn, hc, -⟩
      rcases h.progress_at hdone (hj.trans hk) hn ((hc ⟨j, hj.trans hk⟩).mpr hj) with
        hfin | hstep
      · refine ⟨.join, rfl, ?_⟩
        simpa [lifecycle, hm] using hfin
      · exact hstep
  | joining j err =>
      rw [hm] at hstage
      rcases hstage with ⟨hj, hn, hc, -, -⟩
      rcases h.progress_at hdone hj hn ((hc ⟨j, hj⟩).mpr hj) with hfin | hstep
      · refine ⟨.join, rfl, ?_⟩
        simpa [lifecycle, hm] using hfin
      · exact hstep
  | running =>
      rw [hm] at hstage
      rcases hstage with ⟨rfl, hc, hfin⟩
      by_cases hret : (s.modules ⟨0, Nat.one_pos⟩).pc.isReturned = true
      · refine ⟨.join, rfl, ?_⟩
        simpa [lifecycle, hm, System.holdsAt] using hret
      · exact h.call_allowed hdone ⟨(hc _).mpr Nat.one_pos, hfin _, fun _ => by simpa using hret⟩
  | done code =>
      rw [hm] at hdone
      cases hdone

/-! ## The results -/

/-- The modules come from the table. -/
def FromTable (fns : Fin n → RunFn) : Prop := ∀ i, ∃ mode : AppMode, mode.fn = some (fns i)

theorem FromTable.sound (h : FromTable fns) (i : Fin n) : (fns i).Sound := by
  rcases h i with ⟨mode, hmode⟩
  exact sound_of_mode hmode

/-- The module is over: nothing is held, and it has not failed in its set-up unnoticed. -/
theorem RunFn.Ok.over {F : RunFn} {m : ModuleState} {k : ℕ} (h : F.Ok m k)
    (hover : m.pc.isStarted = true → m.pc.isFinished = true ∨ m.pc.isReturned = true) :
    (∃ σ, m.holdings = some σ ∧ σ.Released) ∧
      (m.pc.isStarted = true → m.pc.result = 0 → m.entered = true) := by
  rcases m with ⟨pc, holdings, entered⟩
  rcases h with ⟨σ, hσ, h⟩
  cases pc with
  | notStarted =>
      obtain rfl : σ = .start := h.1
      exact ⟨⟨_, hσ, released_start⟩, nofun⟩
  | returned result => exact ⟨⟨σ, hσ, h.2.1⟩, fun _ hzero => h.1.resolve_right (absurd hzero)⟩
  | finished result => exact ⟨⟨σ, hσ, h.2⟩, fun _ hzero => h.1.resolve_right (absurd hzero)⟩
  | _ => rcases hover rfl with hf | hr <;> contradiction

end Runs

/-- **Nothing is leaked and nothing is freed twice.** At no point of a run has a module
made a faulty call, and when `main` has returned nothing is held any more. -/
theorem resources_are_released (fns : Fin n → RunFn) (hfns : FromTable fns) (hpos : 0 < n)
    (es : List (SysStep n)) (hv : (lifecycle fns).Valid es) :
    (∀ i, (((lifecycle fns).run es).modules i).holdings ≠ none) ∧
      (((lifecycle fns).run es).main.isDone = true →
        ∀ i, ∃ σ, (((lifecycle fns).run es).modules i).holdings = some σ ∧ σ.Released) := by
  rcases sysInv_run hfns.sound hpos hv with ⟨b, h⟩
  constructor
  · intro i
    rcases h.ok i with ⟨σ, hσ, -⟩
    rw [hσ]
    exact nofun
  · intro hdone i
    have hstage := h.stage
    cases hm : ((lifecycle fns).run es).main with
    | done code =>
        rw [hm] at hstage
        exact ((h.ok i).over (hstage.2.1 i)).1
    | _ =>
        rw [hm] at hdone
        cases hdone

/-! ### Two modules -/

/-- `open` is thread 0 and `oom_killer` thread 1. -/
def openAndOomKiller (i : Fin 2) : RunFn := if i.val = 0 then openFn else oomKillerFn

theorem openAndOomKiller_fromTable : FromTable openAndOomKiller := by
  intro i
  unfold openAndOomKiller
  split_ifs
  · exact ⟨.fsOpen, rfl⟩
  · exact ⟨.oomKiller, rfl⟩

/-- The thread of module `i` can take a step in a library that knows its globals. -/
def System.ready (s : System 2) (i : Fin 2) (gSkel : Bool) : Bool :=
  (s.modules i).pc.isStarted && !(s.modules i).pc.isFinished && !s.main.isDone &&
    (s.modules i).holdings.any fun σ => σ.gSkel == gSkel && σ.gNcpus == 0

theorem ready_allowed {s : System 2} {i : Fin 2} {gSkel : Bool} {w : World}
    (h : s.ready i gSkel = true)
    (hw : ∀ σ : Holdings, σ.gSkel = gSkel → σ.gNcpus = 0 → ∀ c, Documented σ c (w c)) :
    (lifecycle openAndOomKiller).Allowed s (.call i w) := by
  simp only [System.ready, Bool.and_eq_true, Bool.not_eq_true'] at h
  rcases h with ⟨⟨⟨hstarted, hrunning⟩, hdone⟩, hglobals⟩
  refine ⟨⟨hstarted, hrunning, fun h => absurd h (by decide)⟩, hdone, fun σ hσ => ?_⟩
  rw [hσ] at hglobals
  simp only [Option.any_some, Bool.and_eq_true, beq_iff_eq] at hglobals
  exact hw σ hglobals.1 hglobals.2

theorem ready_quiet {s : System 2} {i : Fin 2} {gSkel : Bool} (h : s.ready i gSkel = true) :
    (lifecycle openAndOomKiller).Allowed s (.call i (World.quiet gSkel 0)) := by
  apply ready_allowed h
  rintro σ rfl hncpus
  rw [← hncpus]
  exact World.quiet_documented σ

/-- The ring buffer cannot be created. -/
def World.noRingBuffer : World
  | .ringBufferNew => false
  | c => World.quiet false 0 c

theorem ready_noRingBuffer {s : System 2} {i : Fin 2} (h : s.ready i false = true) :
    (lifecycle openAndOomKiller).Allowed s (.call i World.noRingBuffer) := by
  apply ready_allowed h
  rintro σ hg hncpus c
  have hquiet := World.quiet_documented σ c
  rw [hg, hncpus] at hquiet
  cases c <;> exact hquiet

/-- `k` steps of thread 0. -/
def openSteps (k : ℕ) (gSkel : Bool) : List (SysStep 2) :=
  List.replicate k (.call ⟨0, Nat.two_pos⟩ (World.quiet gSkel 0))

/-- Both threads are created, and `open` reaches its loop. -/
def openEntered : List (SysStep 2) :=
  [.start 0 0, .create 0, .create 0] ++ openSteps 3 false ++ openSteps 3 true

/-- `open` sees the request, prints its summary and cleans up. -/
def openLeaves : List (SysStep 2) := openSteps 8 true ++ openSteps 3 false

/-- `oom_killer` gets its skeleton and no ring buffer, gives the skeleton back and requests
an exit. -/
def failedSetup : List (SysStep 2) :=
  openEntered ++ List.replicate 6 (.call ⟨1, Nat.one_lt_two⟩ World.noRingBuffer) ++ openLeaves ++
    [.join, .join]

theorem failed_setup_releases_what_both_held :
    ((lifecycle openAndOomKiller).run failedSetup).main = .done 1 ∧
      (∃ σ, (((lifecycle openAndOomKiller).run failedSetup).modules ⟨0, Nat.two_pos⟩).holdings =
        some σ ∧ σ.Released ∧ σ.ptr .values = .dangling) ∧
      ∃ σ, (((lifecycle openAndOomKiller).run failedSetup).modules ⟨1, Nat.one_lt_two⟩).holdings =
        some σ ∧ σ.Released ∧ σ.ptr .skeleton = .dangling := by
  have hv : (lifecycle openAndOomKiller).Valid failedSetup :=
    ⟨rfl, ⟨0, rfl⟩, ⟨1, rfl⟩,
      ready_quiet rfl, ready_quiet rfl, ready_quiet rfl, ready_quiet rfl, ready_quiet rfl,
      ready_quiet rfl,
      ready_noRingBuffer rfl, ready_noRingBuffer rfl, ready_noRingBuffer rfl,
      ready_noRingBuffer rfl, ready_noRingBuffer rfl, ready_noRingBuffer rfl,
      ready_quiet rfl, ready_quiet rfl, ready_quiet rfl, ready_quiet rfl, ready_quiet rfl,
      ready_quiet rfl, ready_quiet rfl, ready_quiet rfl, ready_quiet rfl, ready_quiet rfl,
      ready_quiet rfl, rfl, rfl, trivial⟩
  have h := resources_are_released openAndOomKiller openAndOomKiller_fromTable Nat.two_pos
    failedSetup hv
  refine ⟨rfl, ?_, ?_⟩
  · rcases h.2 rfl ⟨0, Nat.two_pos⟩ with ⟨σ, hσ, hrel⟩
    refine ⟨σ, hσ, hrel, ?_⟩
    obtain rfl := Option.some.inj hσ
    rfl
  · rcases h.2 rfl ⟨1, Nat.one_lt_two⟩ with ⟨σ, hσ, hrel⟩
    refine ⟨σ, hσ, hrel, ?_⟩
    obtain rfl := Option.some.inj hσ
    rfl

/-- **The exit code.** When `main` returns, every thread that was created is over; the code
is 0 exactly when every module was started and has returned 0, and then each of them has
reached its loop. -/
theorem exit_code_is_truthful (fns : Fin n → RunFn) (hfns : FromTable fns) (hpos : 0 < n)
    (es : List (SysStep n)) (hv : (lifecycle fns).Valid es) (code : Int32)
    (hdone : ((lifecycle fns).run es).main = .done code) :
    (code = 0 ∨ code = 1) ∧
      (∀ i, (((lifecycle fns).run es).modules i).pc.isStarted = true →
        (((lifecycle fns).run es).modules i).pc.isFinished = true ∨
          (((lifecycle fns).run es).modules i).pc.isReturned = true) ∧
      (code = 0 ↔ ∀ i, (((lifecycle fns).run es).modules i).pc.isStarted = true ∧
        (((lifecycle fns).run es).modules i).pc.result = 0) ∧
      (code = 0 → ∀ i, (((lifecycle fns).run es).modules i).entered = true) := by
  rcases sysInv_run hfns.sound hpos hv with ⟨b, h⟩
  have hstage := h.stage
  rw [hdone] at hstage
  rcases hstage with ⟨hcode, hover, hzero⟩
  refine ⟨hcode, hover, hzero, fun h0 i => ?_⟩
  have hi := hzero.mp h0 i
  exact ((h.ok i).over (hover i)).2 hi.1 hi.2

/-- Both modules reach their loops, a signal comes, and both clean up. -/
def orderlyStop : List (SysStep 2) :=
  openEntered ++ List.replicate 4 (.call ⟨1, Nat.one_lt_two⟩ (World.quiet false 0)) ++ [.signal] ++
    openLeaves ++ List.replicate 4 (.call ⟨1, Nat.one_lt_two⟩ (World.quiet false 0)) ++
    [.join, .join]

theorem orderly_stop_exits_with_zero :
    ((lifecycle openAndOomKiller).run orderlyStop).main = .done 0 ∧
      ∀ i, (((lifecycle openAndOomKiller).run orderlyStop).modules i).entered = true := by
  have hv : (lifecycle openAndOomKiller).Valid orderlyStop :=
    ⟨rfl, ⟨0, rfl⟩, ⟨1, rfl⟩,
      ready_quiet rfl, ready_quiet rfl, ready_quiet rfl, ready_quiet rfl, ready_quiet rfl,
      ready_quiet rfl,
      ready_quiet rfl, ready_quiet rfl, ready_quiet rfl, ready_quiet rfl, ⟨nofun, rfl⟩,
      ready_quiet rfl, ready_quiet rfl, ready_quiet rfl, ready_quiet rfl, ready_quiet rfl,
      ready_quiet rfl, ready_quiet rfl, ready_quiet rfl, ready_quiet rfl, ready_quiet rfl,
      ready_quiet rfl,
      ready_quiet rfl, ready_quiet rfl, ready_quiet rfl, ready_quiet rfl, rfl, rfl, trivial⟩
  have h := exit_code_is_truthful openAndOomKiller openAndOomKiller_fromTable Nat.two_pos
    orderlyStop hv 0 rfl
  exact ⟨rfl, h.2.2.2 rfl⟩

/-- **Shutdown.** A module that fails requests an exit. After a request at most `29 n + 2`
steps are left besides signals, and until `main` has returned there is one to take. -/
theorem exit_request_ends_the_program (fns : Fin n → RunFn) (hfns : FromTable fns) (hpos : 0 < n)
    (es : List (SysStep n)) (hv : (lifecycle fns).Valid es) :
    (∀ i result, (((lifecycle fns).run es).modules i).pc = .finished result → result ≠ 0 →
      appShouldExit ((lifecycle fns).run es).flags = true) ∧
      (((lifecycle fns).run es).main.isDone = false →
        ∃ e : SysStep n, e.isSignal = false ∧
          (lifecycle fns).Allowed ((lifecycle fns).run es) e) ∧
      (appShouldExit ((lifecycle fns).run es).flags = true → ∀ fs,
        (lifecycle fns).ValidFrom ((lifecycle fns).run es) fs →
          fs.countP (fun e => !e.isSignal) ≤ 29 * n + 2) := by
  rcases sysInv_run hfns.sound hpos hv with ⟨b, h⟩
  refine ⟨h.asked, h.progress, fun hexit fs hfs => ?_⟩
  exact (h.steps_le hfns.sound hpos hexit hfs).trans h.left_le

/-- A signal comes when only the first thread has been created. -/
theorem early_signal_ends_the_program :
    (lifecycle openAndOomKiller).ValidFrom
        ((lifecycle openAndOomKiller).run [.start 0 0, .create 0, .signal])
        (openSteps 1 false ++ [.create 0]) ∧
      (∃ e : SysStep 2, e.isSignal = false ∧ (lifecycle openAndOomKiller).Allowed
        ((lifecycle openAndOomKiller).run [.start 0 0, .create 0, .signal]) e) ∧
      (openSteps 1 false ++ [SysStep.create 0]).countP (fun e : SysStep 2 => !e.isSignal) ≤ 60 := by
  have hv : (lifecycle openAndOomKiller).Valid [.start 0 0, .create 0, .signal] :=
    ⟨rfl, ⟨0, rfl⟩, ⟨nofun, rfl⟩, trivial⟩
  have h := exit_request_ends_the_program openAndOomKiller openAndOomKiller_fromTable Nat.two_pos
    _ hv
  have hnext : (lifecycle openAndOomKiller).ValidFrom
      ((lifecycle openAndOomKiller).run [.start 0 0, .create 0, .signal])
      (openSteps 1 false ++ [.create 0]) :=
    ⟨ready_quiet rfl, ⟨1, rfl⟩, trivial⟩
  exact ⟨hnext, h.2.1 rfl, h.2.2 rfl _ hnext⟩

end EbpfToolbox.Common
