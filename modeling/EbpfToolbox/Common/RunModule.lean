import EbpfToolbox.Common.PollLoop
import EbpfToolbox.Lib.Program

/-!
# What a module acquires and releases

The first and the last part of every `*_run` function in the `user.c` files: the calls
that set a module up, each with its own way out when it fails, the `print_stats` behind the
loop with its buffer, and the clean-up that all later failures share with the regular end.
The calls go to libbpf and the C library; any of them may fail. Output is left out.

A call that uses an object which is not there, frees one twice, or takes the skeleton away
from something that still depends on it, is a fault. No module has one, and whichever call
fails, nothing that was acquired is kept.
-/

namespace EbpfToolbox.Common

open Lib

/-! ## Objects and calls -/

/-- The pointer variables of a `*_run` function, and the buffer of `print_stats`. -/
inductive Handle where
  | skeleton
  | ringBuffer
  | cacheNodeLink
  | kmallocNodeLink
  | previous
  | current
  | rows
  | percpuValues
  | values
deriving DecidableEq, Repr

/-- What a pointer variable holds. -/
inductive Ptr where
  | null
  | live
  | dangling
deriving DecidableEq, Repr

/-- The pointers of a module and its global variables; `gSkel`: `g_skel` has a copy of the
skeleton's pointer. -/
structure Holdings where
  ptr : Handle → Ptr
  gSkel : Bool
  gNcpus : Int32

def Holdings.start : Holdings := ⟨fun _ => .null, false, 0⟩

/-- The calls of a `*_run` function, and its accesses to the global variables. -/
inductive LibCall where
  | getPidNamespace
  | numPossibleCpus
  | calloc (h : Handle)
  | openAndLoad
  | openSkeleton
  | load
  | updateCtrl
  | ringBufferNew
  | attach
  | tracepointExists
  | attachRawTracepoint (link : Handle)
  | setGSkel (there : Bool)
  /-- The test of `g_skel`. -/
  | gSkelThere
  | setGNcpus (ncpus : Int32)
  | gNcpus
  | poll
  | printInterval
  /-- The lookup in `stats_map`, of `g_skel` or of `skel`, into `buffer` or into a record on
  the stack. -/
  | lookupStats (viaGSkel : Bool) (buffer : List Handle)
  /-- The loop over the copies of the CPUs. -/
  | sumCpus
  /-- `ring_buffer__free`, `*_bpf__destroy`, `bpf_link__destroy` and `free`. -/
  | release (h : Handle)

/-- A pointer that is not null, an error number, or nothing. -/
@[reducible] def LibCall.Ret : LibCall → Type
  | .calloc _ | .openAndLoad | .openSkeleton | .ringBufferNew | .gSkelThere => Bool
  | .setGSkel _ | .setGNcpus _ | .sumCpus | .release _ => Unit
  | _ => Int32

namespace Holdings

def uses (σ : Holdings) (hs : List Handle) : Option Holdings :=
  if hs.all (fun h => σ.ptr h = .live) then some σ else none

/-- Overwriting the only pointer to a live object would lose it. -/
def acquire (σ : Holdings) (h : Handle) : Option Holdings :=
  if σ.ptr h = .live then none else some { σ with ptr := Function.update σ.ptr h .live }

/-- The ring buffer reads a map of the skeleton, and the links belong to its programs. -/
def dependents : Handle → List Handle
  | .skeleton => [.ringBuffer, .cacheNodeLink, .kmallocNodeLink]
  | _ => []

/-- All these functions accept a null pointer. -/
def release (σ : Holdings) (h : Handle) : Option Holdings :=
  match σ.ptr h with
  | .null => some σ
  | .dangling => none
  | .live =>
      if (dependents h).any (fun d => σ.ptr d = .live) || (h = .skeleton && σ.gSkel) then none
      else some { σ with ptr := Function.update σ.ptr h .dangling }

end Holdings

/-- The state after the call and its answer; `none` is a fault. -/
def LibCall.effect (σ : Holdings) : (c : LibCall) → c.Ret → Option Holdings
  | .getPidNamespace, _ | .numPossibleCpus, _ | .tracepointExists, _ => some σ
  | .calloc h, ok => if ok then σ.acquire h else some σ
  | .openAndLoad, ok | .openSkeleton, ok => if ok then σ.acquire .skeleton else some σ
  | .gSkelThere, _ | .gNcpus, _ => some σ
  | .load, _ | .updateCtrl, _ | .attach, _ => σ.uses [.skeleton]
  | .ringBufferNew, ok =>
      (σ.uses [.skeleton]).bind fun σ => if ok then σ.acquire .ringBuffer else some σ
  | .attachRawTracepoint link, err =>
      (σ.uses [.skeleton]).bind fun σ => if err = 0 then σ.acquire link else some σ
  | .setGSkel there, _ => some { σ with gSkel := there }
  | .setGNcpus ncpus, _ => some { σ with gNcpus := ncpus }
  | .poll, _ => σ.uses [.skeleton, .ringBuffer]
  | .printInterval, _ => σ.uses [.skeleton, .previous, .current, .rows, .percpuValues]
  -- a null `g_skel` would be followed
  | .lookupStats viaGSkel buffer, _ =>
      if viaGSkel && !σ.gSkel then none else σ.uses (.skeleton :: buffer)
  | .sumCpus, _ => σ.uses [.values]
  | .release h, _ => σ.release h

abbrev RunProg (α : Type) : Type := Program LibCall LibCall.Ret α

def appGetPidNamespace : RunProg Int32 := .lift LibCall.getPidNamespace

def libbpfNumPossibleCpus : RunProg Int32 := .lift LibCall.numPossibleCpus

def calloc (h : Handle) : RunProg Bool := .lift (LibCall.calloc h)

def openAndLoad : RunProg Bool := .lift LibCall.openAndLoad

def openSkeleton : RunProg Bool := .lift LibCall.openSkeleton

def load : RunProg Int32 := .lift LibCall.load

def updateCtrl : RunProg Int32 := .lift LibCall.updateCtrl

def ringBufferNew : RunProg Bool := .lift LibCall.ringBufferNew

def attach : RunProg Int32 := .lift LibCall.attach

def kmemTracepointExists : RunProg Int32 := .lift LibCall.tracepointExists

def attachRawTracepoint (link : Handle) : RunProg Int32 := .lift (LibCall.attachRawTracepoint link)

def setGSkel (there : Bool) : RunProg Unit := .lift (LibCall.setGSkel there)

def gSkelThere : RunProg Bool := .lift LibCall.gSkelThere

def setGNcpus (ncpus : Int32) : RunProg Unit := .lift (LibCall.setGNcpus ncpus)

def gNcpus : RunProg Int32 := .lift LibCall.gNcpus

def lookupStats (viaGSkel : Bool) (buffer : List Handle) : RunProg Int32 :=
  .lift (LibCall.lookupStats viaGSkel buffer)

def sumCpus : RunProg Unit := .lift LibCall.sumCpus

def release (h : Handle) : RunProg Unit := .lift (LibCall.release h)

/-- One after the other. -/
def releaseAll : List Handle → RunProg Unit
  | [] => pure ()
  | h :: hs => do
      release h
      releaseAll hs

/-! ## Setting up -/

/-- Where the set-up leads: into the loop, to the label `cleanup`, or straight out. -/
inductive Setup where
  | entered
  | cleanup (err : Int32)
  | returned (result : Int32)
deriving DecidableEq

/-- `-ENOMEM`. -/
def negEnomem : Int32 := -12

/-- `-EINVAL`. -/
def negEinval : Int32 := -22

/-- `-ENOENT`. -/
def negEnoent : Int32 := -2

/-- From the update of `ctrl_map` on. The modules differ in what they take for a failed
update: any value that is not 0, or a negative one. -/
def attachRingbuf (updateFailed : Int32 → Bool) : RunProg Setup := do
  let err ← updateCtrl
  if updateFailed err then pure (.cleanup err)
  else
    let rb ← ringBufferNew
    if rb then
      let err ← attach
      if err ≠ 0 then pure (.cleanup err) else pure .entered
    else pure (.cleanup negEnomem)

def loadAndAttach (updateFailed : Int32 → Bool) : RunProg Setup := do
  let skel ← openAndLoad
  if skel then
    setGSkel true
    attachRingbuf updateFailed
  else pure (.returned 1)

def withPidNamespace (rest : RunProg Setup) : RunProg Setup := do
  let err ← appGetPidNamespace
  if err ≠ 0 then pure (.returned 1) else rest

def isNegative (err : Int32) : Bool := err < 0

def isNonzero (err : Int32) : Bool := err ≠ 0

/-! ## print_stats -/

/-- From the allocation on; the summary itself is printed when the buffer is gone. -/
def sumStats (viaGSkel : Bool) : RunProg Unit := do
  let values ← calloc .values
  if values then
    let err ← lookupStats viaGSkel [.values]
    if err ≠ 0 then release .values
    else
      sumCpus
      release .values
  else pure ()

/-- In `block_io`, `msgqueue`, `preempt` and `syscall`, where all CPUs share one record. -/
def printSharedStats : RunProg Unit := do
  let there ← gSkelThere
  if there then
    let _err ← lookupStats true []
    pure ()
  else pure ()

/-- In the modules with a record for each CPU. -/
def printPercpuStats : RunProg Unit := do
  let there ← gSkelThere
  if there then
    let ncpus ← libbpfNumPossibleCpus
    if ncpus ≤ 0 then pure () else sumStats true
  else pure ()

/-- `udp_monitor` has kept the number of CPUs. -/
def printUdpStats : RunProg Unit := do
  let there ← gSkelThere
  if there then
    let ncpus ← gNcpus
    if ncpus ≤ 0 then pure () else sumStats true
  else pure ()

/-! ## The functions -/

/-- A `*_run` function. `close` is what follows the loop, `cleanup` the part of it behind
the label. -/
structure RunFn where
  setup : RunProg Setup
  loop : PollLoop
  close : RunProg Unit
  cleanup : RunProg Unit

/-- The end of most modules. -/
def ringbufCleanup : RunProg Unit := do
  setGSkel false
  releaseAll [.ringBuffer, .skeleton]

def ringbufModule (setup : RunProg Setup) (printStats : RunProg Unit) (loop : PollLoop) :
    RunFn where
  setup := setup
  loop := loop
  close := do
    printStats
    ringbufCleanup
  cleanup := ringbufCleanup

def contextSwitchFn : RunFn :=
  ringbufModule (withPidNamespace (loadAndAttach isNegative)) printPercpuStats contextSwitchRun

def preemptFn : RunFn := ringbufModule (loadAndAttach isNegative) printSharedStats preemptRun

def mutexlockFn : RunFn :=
  ringbufModule (withPidNamespace (loadAndAttach isNegative)) printPercpuStats mutexlockRun

/-- The only module that returns the error number of `app_get_pid_namespace`. -/
def msgqueueFn : RunFn :=
  ringbufModule (do
    let err ← appGetPidNamespace
    if err ≠ 0 then pure (.returned (-err))
    else loadAndAttach isNonzero) printSharedStats msgqueueRun

def syscallFn : RunFn := ringbufModule (loadAndAttach isNegative) printSharedStats syscallRun

def openFn : RunFn :=
  ringbufModule (withPidNamespace (loadAndAttach isNegative)) printPercpuStats openRun

def readFn : RunFn :=
  ringbufModule (withPidNamespace (loadAndAttach isNonzero)) printPercpuStats readRun

def writeFn : RunFn :=
  ringbufModule (withPidNamespace (loadAndAttach isNonzero)) printPercpuStats writeRun

def blockIoFn : RunFn := ringbufModule (loadAndAttach isNegative) printSharedStats blockIoRun

def drSnoopFn : RunFn :=
  ringbufModule (withPidNamespace (loadAndAttach isNonzero)) printPercpuStats drSnoopRun

/-- Without `g_skel` and without a summary. -/
def oomKillerFn : RunFn where
  setup := do
    let skel ← openAndLoad
    if skel then attachRingbuf isNegative else pure (.returned 1)
  loop := oomKillerRun
  close := releaseAll [.ringBuffer, .skeleton]
  cleanup := releaseAll [.ringBuffer, .skeleton]

def tcpMonitorFn : RunFn :=
  ringbufModule (withPidNamespace (loadAndAttach isNegative)) printPercpuStats tcpMonitorRun

/-- The namespace is read when the skeleton is already there. -/
def udpMonitorFn : RunFn :=
  ringbufModule (do
    let ncpus ← libbpfNumPossibleCpus
    setGNcpus ncpus
    if ncpus ≤ 0 then pure (.returned 1)
    else
      let skel ← openAndLoad
      if skel then
        setGSkel true
        let err ← appGetPidNamespace
        if err ≠ 0 then pure (.cleanup err) else attachRingbuf isNegative
      else pure (.returned 1)) printUdpStats udpMonitorRun

/-! ### slab_rate -/

/-- `attach_optional_raw_tracepoint`: a tracepoint that does not exist is no error. -/
def attachOptionalRawTracepoint (link : Handle) : RunProg Int32 := do
  let available ← kmemTracepointExists
  if available = 0 then pure 0
  else
    let err ← attachRawTracepoint link
    if err = 0 then pure 0
    else if err = negEnoent then pure 0 else pure err

def attachSlabLinks : RunProg Setup := do
  let err ← attachOptionalRawTracepoint .cacheNodeLink
  if err ≠ 0 then pure (.cleanup err)
  else
    let err ← attachOptionalRawTracepoint .kmallocNodeLink
    if err ≠ 0 then pure (.cleanup err) else pure .entered

def loadSlabRate : RunProg Setup := do
  let skel ← openSkeleton
  if skel then
    let err ← load
    if err ≠ 0 then pure (.cleanup err)
    else
      let err ← updateCtrl
      if err ≠ 0 then pure (.cleanup err)
      else
        let err ← attach
        if err ≠ 0 then pure (.cleanup err) else attachSlabLinks
  else pure (.cleanup negEinval)

/-- All four buffers are requested before one of them is looked at. -/
def slabRateSetup : RunProg Setup := do
  let err ← appGetPidNamespace
  if err ≠ 0 then pure (.returned 1)
  else
    let ncpus ← libbpfNumPossibleCpus
    if ncpus ≤ 0 then pure (.returned 1)
    else
      let previous ← calloc .previous
      let current ← calloc .current
      let rows ← calloc .rows
      let percpuValues ← calloc .percpuValues
      if previous && current && rows && percpuValues then loadSlabRate
      else pure (.cleanup negEnomem)

def slabRateCleanup : RunProg Unit :=
  releaseAll
    [.kmallocNodeLink, .cacheNodeLink, .skeleton, .percpuValues, .rows, .current, .previous]

def slabRateFn : RunFn where
  setup := slabRateSetup
  loop := slabRateRun
  -- `print_stats(skel, ncpus)` tests neither
  close := do
    sumStats false
    slabRateCleanup
  cleanup := slabRateCleanup

/-- The column `run` of the module table, with the whole functions. -/
def AppMode.fn : AppMode → Option RunFn
  | .unset => none
  | .contextSwitch => some contextSwitchFn
  | .preempt => some preemptFn
  | .syscall => some syscallFn
  | .tcpMonitor => some tcpMonitorFn
  | .msgqueue => some msgqueueFn
  | .mutexlock => some mutexlockFn
  | .fsOpen => some openFn
  | .fsRead => some readFn
  | .fsWrite => some writeFn
  | .blockIo => some blockIoFn
  | .drSnoop => some drSnoopFn
  | .oomKiller => some oomKillerFn
  | .slabRate => some slabRateFn
  | .udpMonitor => some udpMonitorFn

/-! ## Every way out releases what was acquired -/

/-- The error numbers of libbpf and of `app_get_pid_namespace` are 0 or negative, and a
global variable is what was last written to it. -/
def Documented (σ : Holdings) : (c : LibCall) → c.Ret → Prop
  | .getPidNamespace, r | .load, r | .updateCtrl, r | .attach, r => r ≤ 0
  | .attachRawTracepoint _, r => r ≤ 0
  | .gSkelThere, there => there = σ.gSkel
  | .gNcpus, ncpus => ncpus = σ.gNcpus
  | _, _ => True

/-- Nothing is held any more. -/
def Holdings.Released (σ : Holdings) : Prop := ∀ h, σ.ptr h ≠ .live

/-- The objects that the loop works on. -/
def PollLoop.needs : PollLoop → List Handle
  | .ringbuf _ => [.skeleton, .ringBuffer]
  | .window => [.skeleton, .previous, .current, .rows, .percpuValues]

/-- No answer leads to a fault, and nothing is held when the program ends, after `b` calls
at most. -/
def Releases (p : RunProg Unit) (b : ℕ) (σ : Holdings) : Prop :=
  p.Ensures Documented LibCall.effect (fun _ σ' => σ'.Released) b σ

/-- What holds when the set-up is over. A module that did not get into its loop says so. -/
def RunFn.After (F : RunFn) : Setup → Holdings → Prop
  | .entered, σ => σ.uses F.loop.needs = some σ ∧ Releases F.close 11 σ
  | .cleanup err, σ => F.loop.ret.eval err ≠ 0 ∧ Releases F.cleanup 7 σ
  | .returned result, σ => result ≠ 0 ∧ σ.Released

def RunFn.Sound (F : RunFn) : Prop := F.setup.Ensures Documented LibCall.effect F.After 14 .start

theorem isNegative_nonzero {err : Int32} (h : isNegative err = true) : err ≠ 0 := by
  rintro rfl
  exact absurd h (by decide)

theorem isNonzero_nonzero {err : Int32} (h : isNonzero err = true) : err ≠ 0 := by
  simpa [isNonzero] using h

/-- The return expressions do not hide an error. -/
theorem eval_ne_zero (ret : ReturnExpr) {err : Int32} (hle : err ≤ 0) (hne : err ≠ 0) :
    ret.eval err ≠ 0 := by
  apply eval_ne_zero_of_neg
  rw [Int32.lt_iff_toInt_lt]
  rw [Int32.le_iff_toInt_le] at hle
  have hne' : err.toInt ≠ (0 : Int32).toInt := fun h => hne (Int32.toInt.inj h)
  omega

/-- A pointer that is not dangling can be released when nothing depends on it. -/
theorem release_of_free {σ : Holdings} {h : Handle} (hptr : σ.ptr h ≠ .dangling)
    (hdep : ∀ d ∈ Holdings.dependents h, σ.ptr d ≠ .live)
    (hg : h = .skeleton → σ.gSkel = false) :
    ∃ σ', σ.release h = some σ' ∧ σ'.ptr h ≠ .live ∧ (∀ h', h' ≠ h → σ'.ptr h' = σ.ptr h') ∧
      σ'.gSkel = σ.gSkel := by
  unfold Holdings.release
  cases hp : σ.ptr h with
  | null => exact ⟨σ, rfl, by rw [hp]; exact nofun, fun _ _ => rfl, rfl⟩
  | dangling => exact absurd hp hptr
  | live =>
      have hany : (Holdings.dependents h).any (fun d => σ.ptr d = .live) = false := by
        simpa using hdep
      have hfree : (decide (h = .skeleton) && σ.gSkel) = false := by
        simpa using hg
      simp only [hany, hfree, Bool.or_false, Bool.false_eq_true, if_false]
      refine ⟨_, rfl, ?_, ?_, rfl⟩
      · simp
      · intro h' hne
        simp [hne]

/-- The order of the list: nothing is released before what depends on it. -/
def DependentsFirst (hs : List Handle) : Prop :=
  hs.Pairwise fun a b => a ≠ b ∧ b ∉ Holdings.dependents a

instance (hs : List Handle) : Decidable (DependentsFirst hs) :=
  inferInstanceAs (Decidable (hs.Pairwise _))

theorem releases_releaseAll {hs : List Handle} (horder : DependentsFirst hs) {σ : Holdings}
    (hptr : ∀ h, σ.ptr h ≠ .dangling ∨ h ∉ hs) (hrest : ∀ h, h ∉ hs → σ.ptr h ≠ .live)
    (hg : σ.gSkel = false) : Releases (releaseAll hs) hs.length σ := by
  induction hs generalizing σ with
  | nil => exact fun h => hrest h List.not_mem_nil
  | cons h hs ih =>
      rcases List.pairwise_cons.mp horder with ⟨hhead, htail⟩
      intro _ _
      -- what depends on `h` is neither `h` nor released later
      have hdep : ∀ d ∈ Holdings.dependents h, σ.ptr d ≠ .live := by
        intro d hd
        apply hrest
        rw [List.mem_cons, not_or]
        refine ⟨?_, fun hmem => (hhead d hmem).2 hd⟩
        rintro rfl
        cases d <;> simp [Holdings.dependents] at hd
      have hhere : σ.ptr h ≠ .dangling := (hptr h).resolve_right fun hn => hn List.mem_cons_self
      rcases release_of_free hhere hdep (fun _ => hg) with ⟨σ', hσ', hself, hother, hg'⟩
      refine ⟨σ', hσ', ih htail (fun h' => ?_) (fun h' hn => ?_) (hg'.trans hg)⟩
      · by_cases hmem : h' ∈ hs
        · have hne : h' ≠ h := fun he => (hhead h' hmem).1 he.symm
          left
          rw [hother h' hne]
          exact (hptr h').resolve_right fun hn => hn (List.mem_cons_of_mem _ hmem)
        · exact .inr hmem
      · by_cases hne : h' = h
        · rw [hne]
          exact hself
        · rw [hother h' hne]
          exact hrest h' (by simp [hne, hn])

/-- No pointer is dangling, and only those of `hs` may be live. -/
def Holdings.Within (hs : List Handle) (σ : Holdings) : Prop :=
  ∀ h, σ.ptr h = .null ∨ σ.ptr h = .live ∧ h ∈ hs

theorem Holdings.Within.ne_dangling {hs : List Handle} {σ : Holdings} (h : σ.Within hs)
    (k : Handle) : σ.ptr k ≠ .dangling := by
  rcases h k with hnull | ⟨hlive, -⟩
  · rw [hnull]
    exact nofun
  · rw [hlive]
    exact nofun

theorem Holdings.Within.eq_null {hs : List Handle} {σ : Holdings} (h : σ.Within hs) {k : Handle}
    (hk : k ∉ hs) : σ.ptr k = .null :=
  (h k).resolve_right fun hlive => hk hlive.2

/-- What `print_stats` leaves behind: at most the dangling pointer to its buffer. -/
structure Holdings.Kept (σ σ' : Holdings) : Prop where
  ptr : ∀ h, h ≠ .values → σ'.ptr h = σ.ptr h
  values : σ'.ptr .values ≠ .live
  gSkel : σ'.gSkel = σ.gSkel

theorem Holdings.Kept.refl {σ : Holdings} (hnull : σ.ptr .values = .null) : σ.Kept σ where
  ptr _ _ := rfl
  values := by
    rw [hnull]
    exact nofun
  gSkel := rfl

theorem Holdings.Within.releases {hs : List Handle} {σ σ' : Holdings} (h : σ.Within hs)
    (horder : DependentsFirst hs) (hvalues : .values ∉ hs) (hg : σ.gSkel = false)
    (hkept : σ.Kept σ') : Releases (releaseAll hs) hs.length σ' := by
  refine releases_releaseAll horder (fun k => ?_) (fun k hk => ?_) (hkept.gSkel.trans hg)
  · by_cases hk : k = .values
    · right
      rwa [hk]
    · left
      rw [hkept.ptr k hk]
      exact h.ne_dangling k
  · by_cases hv : k = .values
    · rw [hv]
      exact hkept.values
    · rw [hkept.ptr k hv, h.eq_null hk]
      exact nofun

theorem within_start (hs : List Handle) : Holdings.start.Within hs := fun _ => .inl rfl

theorem released_start : Holdings.start.Released := fun _ => nofun

/-- A pointer variable gets the result of an allocation. -/
theorem acquire_of_null {σ : Holdings} {h : Handle} (hnull : σ.ptr h = .null) :
    ∃ σ', σ.acquire h = some σ' ∧ σ'.ptr = Function.update σ.ptr h .live ∧ σ'.gSkel = σ.gSkel :=
  ⟨_, if_neg (by rw [hnull]; exact nofun), rfl, rfl⟩

theorem Holdings.Within.acquire {hs : List Handle} {σ : Holdings} (hσ : σ.Within hs) {h : Handle}
    (hmem : h ∈ hs) (hnull : σ.ptr h = .null) :
    ∃ σ', σ.acquire h = some σ' ∧ σ'.Within hs ∧ σ'.ptr = Function.update σ.ptr h .live ∧
      σ'.gSkel = σ.gSkel := by
  rcases acquire_of_null hnull with ⟨σ', hacq, hptr, hg⟩
  refine ⟨σ', hacq, fun k => ?_, hptr, hg⟩
  rw [hptr]
  by_cases hk : k = h
  · subst hk
    right
    simp [hmem]
  · simpa [hk] using hσ k

theorem uses_of_live {σ : Holdings} {hs : List Handle} (h : ∀ k ∈ hs, σ.ptr k = .live) :
    σ.uses hs = some σ := by
  apply if_pos
  simpa using h

/-! ### print_stats -/

/-- Whatever fails, the buffer is not held when `print_stats` returns, and nothing else has
changed. -/
def Prints (p : RunProg Unit) : Prop :=
  ∀ σ : Holdings, σ.gSkel = true → σ.ptr .skeleton = .live → σ.ptr .values = .null →
    p.Ensures Documented LibCall.effect (fun _ => σ.Kept) 6 σ

theorem release_values_ensures {σ σ' : Holdings} (hsame : ∀ h, h ≠ .values → σ'.ptr h = σ.ptr h)
    (hlive : σ'.ptr .values = .live) (hg : σ'.gSkel = σ.gSkel) :
    (release .values).Ensures Documented LibCall.effect (fun _ => σ.Kept) 1 σ' := by
  intro _ _
  have hptr : σ'.ptr .values ≠ .dangling := by
    rw [hlive]
    exact nofun
  have hdep : ∀ d ∈ Holdings.dependents .values, σ'.ptr d ≠ .live :=
    fun d hd => absurd hd List.not_mem_nil
  rcases release_of_free hptr hdep (fun h => absurd h (by decide)) with
    ⟨τ, hτ, hvalues, hother, hgτ⟩
  exact ⟨τ, hτ, fun h hne => (hother h hne).trans (hsame h hne), hvalues, hgτ.trans hg⟩

theorem sumStats_ensures {σ : Holdings} {viaGSkel : Bool} (hvia : viaGSkel = true → σ.gSkel = true)
    (hskel : σ.ptr .skeleton = .live) (hnull : σ.ptr .values = .null) :
    (sumStats viaGSkel).Ensures Documented LibCall.effect (fun _ => σ.Kept) 4 σ := by
  intro values _
  cases values with
  | false => exact ⟨σ, rfl, .refl hnull⟩
  | true =>
      rcases acquire_of_null hnull with ⟨σ', hacq, hptr, hg⟩
      have hlive : σ'.ptr .values = .live := by simp [hptr]
      have hsame : ∀ h, h ≠ .values → σ'.ptr h = σ.ptr h := fun h hne => by simp [hptr, hne]
      have hfree := release_values_ensures hsame hlive hg
      -- the lookup finds the skeleton and the buffer
      have hlookup : (if viaGSkel && !σ'.gSkel then none else σ'.uses [.skeleton, .values]) =
          some σ' := by
        rw [if_neg]
        · apply uses_of_live
          simp [hlive, hsame, hskel]
        · rw [hg]
          simpa using hvia
      refine ⟨σ', hacq, fun (err : Int32) _ => ⟨σ', hlookup, ?_⟩⟩
      show Program.Ensures _ _ _ (if err ≠ 0 then release .values else do
        sumCpus
        release .values) 2 σ'
      split_ifs
      · exact hfree.mono (fun _ _ h => h) (by decide)
      · exact fun _ _ => ⟨σ', uses_of_live (by simpa using hlive), hfree⟩

/-- `g_skel` is tested first. -/
theorem prints_behind_gSkel {rest : RunProg Unit}
    (hrest : ∀ σ : Holdings, σ.gSkel = true → σ.ptr .skeleton = .live → σ.ptr .values = .null →
      rest.Ensures Documented LibCall.effect (fun _ => σ.Kept) 5 σ) :
    Prints (gSkelThere >>= fun there => if there then rest else pure ()) := by
  intro σ hg hskel hnull there (hthere : there = σ.gSkel)
  subst hthere
  refine ⟨σ, rfl, ?_⟩
  show Program.Ensures _ _ _ (if σ.gSkel then rest else pure ()) 5 σ
  rw [if_pos hg]
  exact hrest σ hg hskel hnull

theorem printSharedStats_prints : Prints printSharedStats := by
  apply prints_behind_gSkel
  intro σ hg hskel hnull err _
  refine ⟨σ, ?_, .refl hnull⟩
  simp only [LibCall.effect, hg, Bool.not_true, Bool.and_false, Bool.false_eq_true, if_false]
  exact uses_of_live (by simpa using hskel)

theorem sumStats_if_ensures {σ : Holdings} (ncpus : Int32) (hg : σ.gSkel = true)
    (hskel : σ.ptr .skeleton = .live) (hnull : σ.ptr .values = .null) :
    (if ncpus ≤ 0 then pure () else sumStats true).Ensures Documented LibCall.effect
      (fun _ => σ.Kept) 4 σ := by
  split_ifs
  · exact .refl hnull
  · exact sumStats_ensures (fun _ => hg) hskel hnull

theorem printPercpuStats_prints : Prints printPercpuStats := by
  apply prints_behind_gSkel
  exact fun σ hg hskel hnull ncpus _ => ⟨σ, rfl, sumStats_if_ensures ncpus hg hskel hnull⟩

theorem printUdpStats_prints : Prints printUdpStats := by
  apply prints_behind_gSkel
  exact fun σ hg hskel hnull ncpus _ => ⟨σ, rfl, sumStats_if_ensures ncpus hg hskel hnull⟩

/-! ### The modules with a ring buffer -/

def ringbufHandles : List Handle := [.ringBuffer, .skeleton]

theorem releases_ringbufCleanup {σ σ' : Holdings} (h : σ.Within ringbufHandles)
    (hkept : σ.Kept σ') : Releases ringbufCleanup 5 σ' := by
  intro _ _
  refine ⟨_, rfl, ?_⟩
  have hwithin : Holdings.Within ringbufHandles { σ with gSkel := false } := h
  have hkept' : Holdings.Kept { σ with gSkel := false } { σ' with gSkel := false } :=
    ⟨hkept.ptr, hkept.values, rfl⟩
  exact (hwithin.releases (by decide) (by decide) rfl hkept').mono (fun _ _ h => h) (by decide)

section Ringbuf

variable {post : Setup → Holdings → Prop} {gSkel : Bool} {updateFailed : Int32 → Bool}
  (hcleanup : ∀ σ err, σ.Within ringbufHandles → σ.gSkel = gSkel → err ≤ 0 → err ≠ 0 →
    post (.cleanup err) σ)
  (hentered : ∀ σ, σ.Within ringbufHandles → σ.gSkel = gSkel → σ.ptr .skeleton = .live →
    σ.ptr .ringBuffer = .live → post .entered σ)
  (hfailed : ∀ err, updateFailed err = true → err ≠ 0)
include hcleanup hentered hfailed

theorem attachRingbuf_ensures {σ : Holdings} (hσ : σ.Within ringbufHandles) (hg : σ.gSkel = gSkel)
    (hskel : σ.ptr .skeleton = .live) (hrb : σ.ptr .ringBuffer = .null) :
    (attachRingbuf updateFailed).Ensures Documented LibCall.effect post 3 σ := by
  have huse : σ.uses [.skeleton] = some σ := uses_of_live (by simpa using hskel)
  refine fun (err : Int32) herr => ⟨σ, huse, ?_⟩
  show Program.Ensures _ _ _ (if updateFailed err then pure (Setup.cleanup err) else _) 2 σ
  split_ifs with hupd
  · exact hcleanup σ err hσ hg herr (hfailed err hupd)
  intro rb _
  cases rb with
  | false => exact ⟨σ, by simp [LibCall.effect, huse],
      hcleanup σ negEnomem hσ hg (by decide) (by decide)⟩
  | true =>
      rcases hσ.acquire List.mem_cons_self hrb with ⟨σ', hacq, hσ', hptr, hg'⟩
      have hskel' : σ'.ptr .skeleton = .live := by simp [hptr, hskel]
      have hrb' : σ'.ptr .ringBuffer = .live := by simp [hptr]
      refine ⟨σ', by simp [LibCall.effect, huse, hacq], fun (err : Int32) herr =>
        ⟨σ', uses_of_live (by simpa using hskel'), ?_⟩⟩
      show Program.Ensures _ _ _ (if err ≠ 0 then pure (Setup.cleanup err) else pure .entered) 0 σ'
      split_ifs with hatt
      · exact hcleanup σ' err hσ' (hg'.trans hg) herr hatt
      · exact hentered σ' hσ' (hg'.trans hg) hskel' hrb'

end Ringbuf

/-- What the set-up of a module with a ring buffer may rely on at its end. -/
theorem ringbufModule_after (setup : RunProg Setup) {printStats : RunProg Unit}
    (hprint : Prints printStats) (ret : ReturnExpr) :
    (∀ σ err, σ.Within ringbufHandles → σ.gSkel = true → err ≤ 0 → err ≠ 0 →
      (ringbufModule setup printStats (.ringbuf ret)).After (.cleanup err) σ) ∧
    ∀ σ, σ.Within ringbufHandles → σ.gSkel = true → σ.ptr .skeleton = .live →
      σ.ptr .ringBuffer = .live →
        (ringbufModule setup printStats (.ringbuf ret)).After .entered σ := by
  have hvalues : ∀ σ : Holdings, σ.Within ringbufHandles → σ.ptr .values = .null :=
    fun σ hσ => hσ.eq_null (by decide)
  constructor
  · intro σ err hσ _ hle hne
    exact ⟨eval_ne_zero ret hle hne, (releases_ringbufCleanup hσ (.refl (hvalues σ hσ))).mono
      (fun _ _ h => h) (by decide)⟩
  · intro σ hσ hg hskel hrb
    refine ⟨uses_of_live (by simp [ringbufModule, PollLoop.needs, hskel, hrb]), ?_⟩
    show Program.Ensures _ _ _ _ (6 + 5) σ
    apply Program.Ensures.bind
    exact (hprint σ hg hskel (hvalues σ hσ)).mono
      (fun _ _ hkept => releases_ringbufCleanup hσ hkept) le_rfl

section Form

variable {printStats : RunProg Unit} (hprint : Prints printStats)
include hprint

theorem loadAndAttach_ensures (setup : RunProg Setup) (ret : ReturnExpr)
    {updateFailed : Int32 → Bool} (hfailed : ∀ err, updateFailed err = true → err ≠ 0) :
    (loadAndAttach updateFailed).Ensures Documented LibCall.effect
      (ringbufModule setup printStats (.ringbuf ret)).After 5 .start := by
  rcases ringbufModule_after setup hprint ret with ⟨hcleanup, hentered⟩
  intro skel _
  cases skel with
  | false => exact ⟨.start, rfl, by decide, released_start⟩
  | true =>
      rcases (within_start ringbufHandles).acquire (h := .skeleton) (by decide) rfl with
        ⟨σ, hacq, hσ, hptr, -⟩
      refine ⟨σ, hacq, fun _ _ => ⟨{ σ with gSkel := true }, rfl, ?_⟩⟩
      have hσ' : Holdings.Within ringbufHandles { σ with gSkel := true } := hσ
      refine attachRingbuf_ensures hcleanup hentered hfailed hσ' rfl ?_ ?_
      · simp [hptr]
      · simp [hptr, Holdings.start]

end Form

theorem withPidNamespace_ensures {post : Setup → Holdings → Prop} {rest : RunProg Setup} {b : ℕ}
    {σ : Holdings} (hfail : post (.returned 1) σ)
    (hrest : rest.Ensures Documented LibCall.effect post b σ) :
    (withPidNamespace rest).Ensures Documented LibCall.effect post (b + 1) σ := by
  intro (err : Int32) _
  refine ⟨σ, rfl, ?_⟩
  show Program.Ensures _ _ _ (if err ≠ 0 then pure (Setup.returned 1) else rest) b σ
  split_ifs
  · exact hfail
  · exact hrest

/-- A module of the usual form. -/
theorem sound_loadAndAttach {updateFailed : Int32 → Bool} (ret : ReturnExpr)
    (hfailed : ∀ err, updateFailed err = true → err ≠ 0) :
    (ringbufModule (loadAndAttach updateFailed) printSharedStats (.ringbuf ret)).Sound :=
  (loadAndAttach_ensures printSharedStats_prints _ ret hfailed).mono (fun _ _ h => h) (by decide)

theorem sound_withPidNamespace {updateFailed : Int32 → Bool} (ret : ReturnExpr)
    (hfailed : ∀ err, updateFailed err = true → err ≠ 0) :
    (ringbufModule (withPidNamespace (loadAndAttach updateFailed)) printPercpuStats
      (.ringbuf ret)).Sound :=
  (withPidNamespace_ensures ⟨by decide, released_start⟩
    (loadAndAttach_ensures printPercpuStats_prints _ ret hfailed)).mono (fun _ _ h => h) (by decide)

theorem neg_ne_zero_of_ne {err : Int32} (h : err ≠ 0) : -err ≠ 0 := by
  intro hneg
  exact h (by simpa using congrArg Neg.neg hneg)

theorem msgqueueFn_sound : msgqueueFn.Sound := by
  intro (err : Int32) _
  refine ⟨.start, rfl, ?_⟩
  show Program.Ensures _ _ msgqueueFn.After
    (if err ≠ 0 then pure (Setup.returned (-err)) else loadAndAttach isNonzero) 13 .start
  split_ifs with herr
  · exact ⟨neg_ne_zero_of_ne herr, released_start⟩
  · exact (loadAndAttach_ensures printSharedStats_prints _ _ fun _ => isNonzero_nonzero).mono
      (fun _ _ h => h) (by decide)

theorem oomKillerFn_sound : oomKillerFn.Sound := by
  have hrelease : ∀ σ : Holdings, σ.Within ringbufHandles → σ.gSkel = false →
      Releases (releaseAll ringbufHandles) 7 σ :=
    fun σ hσ hg => (hσ.releases (by decide) (by decide) hg (.refl (hσ.eq_null (by decide)))).mono
      (fun _ _ h => h) (by decide)
  intro skel _
  cases skel with
  | false => exact ⟨.start, rfl, by decide, released_start⟩
  | true =>
      rcases (within_start ringbufHandles).acquire (h := .skeleton) (by decide) rfl with
        ⟨σ, hacq, hσ, hptr, hg⟩
      refine ⟨σ, hacq, Program.Ensures.mono (b := 3) ?_ (fun _ _ h => h) (by decide)⟩
      have hg' : σ.gSkel = false := hg
      refine attachRingbuf_ensures ?_ ?_ (fun _ => isNegative_nonzero) hσ hg' ?_ ?_
      · exact fun σ err hσ hg hle hne => ⟨eval_ne_zero _ hle hne, hrelease σ hσ hg⟩
      · intro σ hσ hg hskel hrb
        refine ⟨uses_of_live ?_, (hrelease σ hσ hg).mono (fun _ _ h => h) (by decide)⟩
        simp [oomKillerFn, oomKillerRun, PollLoop.needs, hskel, hrb]
      · simp [hptr]
      · simp [hptr, Holdings.start]

theorem udpMonitorFn_sound : udpMonitorFn.Sound := by
  rcases ringbufModule_after udpMonitorFn.setup printUdpStats_prints .orZero with
    ⟨hcleanup, hentered⟩
  refine fun (ncpus : Int32) _ => ⟨.start, rfl, fun _ _ => ⟨{ Holdings.start with gNcpus := ncpus },
    rfl, ?_⟩⟩
  show Program.Ensures _ _ udpMonitorFn.After
    (if ncpus ≤ 0 then pure (Setup.returned 1) else _) 12 _
  have hstart : Holdings.Within ringbufHandles { Holdings.start with gNcpus := ncpus } :=
    within_start _
  split_ifs
  · exact ⟨by decide, released_start⟩
  intro skel _
  cases skel with
  | false => exact ⟨_, rfl, by decide, released_start⟩
  | true =>
      rcases hstart.acquire (h := .skeleton) (by decide) rfl with ⟨σ, hacq, hσ, hptr, -⟩
      refine ⟨σ, hacq, fun _ _ => ⟨{ σ with gSkel := true }, rfl, fun (err : Int32) herr =>
        ⟨{ σ with gSkel := true }, rfl, ?_⟩⟩⟩
      show Program.Ensures _ _ udpMonitorFn.After
        (if err ≠ 0 then pure (Setup.cleanup err) else attachRingbuf isNegative) 9 _
      have hσ' : Holdings.Within ringbufHandles { σ with gSkel := true } := hσ
      split_ifs with hns
      · exact hcleanup _ err hσ' rfl herr hns
      · refine (attachRingbuf_ensures hcleanup hentered (fun _ => isNegative_nonzero) hσ' rfl ?_
          ?_).mono (fun _ _ h => h) (by decide)
        · simp [hptr]
        · simp [hptr, Holdings.start]

/-! ### slab_rate -/

def slabHandles : List Handle :=
  [.kmallocNodeLink, .cacheNodeLink, .skeleton, .percpuValues, .rows, .current, .previous]

theorem releases_slabRateCleanup {σ σ' : Holdings} (h : σ.Within slabHandles)
    (hg : σ.gSkel = false) (hkept : σ.Kept σ') : Releases slabRateCleanup 7 σ' :=
  h.releases (by decide) (by decide) hg hkept

/-- Some of the buffers are there. -/
structure SlabHoldings (σ : Holdings) : Prop where
  within : σ.Within slabHandles
  gSkel : σ.gSkel = false

theorem SlabHoldings.values {σ : Holdings} (h : SlabHoldings σ) : σ.ptr .values = .null :=
  h.within.eq_null (by decide)

theorem SlabHoldings.cleanup {σ : Holdings} (h : SlabHoldings σ) {err : Int32} (hle : err ≤ 0)
    (hne : err ≠ 0) : slabRateFn.After (.cleanup err) σ :=
  ⟨eval_ne_zero _ hle hne, releases_slabRateCleanup h.within h.gSkel (.refl h.values)⟩

theorem SlabHoldings.entered {σ : Holdings} (h : SlabHoldings σ)
    (hlive : ∀ k ∈ slabRateRun.needs, σ.ptr k = .live) : slabRateFn.After .entered σ := by
  refine ⟨uses_of_live hlive, ?_⟩
  show Program.Ensures _ _ _ _ (4 + 7) σ
  apply Program.Ensures.bind
  have hskel := hlive _ List.mem_cons_self
  exact (sumStats_ensures (fun h => absurd h (by decide)) hskel h.values).mono
    (fun _ _ hkept => releases_slabRateCleanup h.within h.gSkel hkept) le_rfl

theorem SlabHoldings.acquire {σ : Holdings} (hσ : SlabHoldings σ) {h : Handle}
    (hmem : h ∈ slabHandles) (hnull : σ.ptr h = .null) :
    ∃ σ', σ.acquire h = some σ' ∧ SlabHoldings σ' ∧ σ'.ptr = Function.update σ.ptr h .live := by
  rcases hσ.within.acquire hmem hnull with ⟨σ', hacq, hwithin, hptr, hg⟩
  exact ⟨σ', hacq, ⟨hwithin, hg.trans hσ.gSkel⟩, hptr⟩

/-- The link is there, or it is not needed, or the error is passed on. -/
theorem attachOptionalRawTracepoint_ensures {σ : Holdings} (hσ : SlabHoldings σ) {link : Handle}
    (hmem : link ∈ slabHandles) (hnull : σ.ptr link = .null) (hskel : σ.ptr .skeleton = .live) :
    (attachOptionalRawTracepoint link).Ensures Documented LibCall.effect
      (fun err σ' => SlabHoldings σ' ∧ err ≤ 0 ∧ ∀ h, h ≠ link → σ'.ptr h = σ.ptr h) 2 σ := by
  intro (available : Int32) _
  refine ⟨σ, rfl, ?_⟩
  show Program.Ensures _ _ _ (if available = 0 then pure (0 : Int32) else _) 1 σ
  split_ifs
  · exact ⟨hσ, by decide, fun _ _ => rfl⟩
  have huse : σ.uses [.skeleton] = some σ := uses_of_live (by simpa using hskel)
  intro (err : Int32) herr
  by_cases hok : err = 0
  · rcases hσ.acquire hmem hnull with ⟨σ', hacq, hσ', hptr⟩
    refine ⟨σ', by simp [LibCall.effect, huse, hok, hacq], ?_⟩
    show Program.Ensures _ _ _ (if err = 0 then pure (0 : Int32) else _) 0 σ'
    rw [if_pos hok]
    refine ⟨hσ', by decide, fun h hne => ?_⟩
    simp [hptr, hne]
  · refine ⟨σ, by simp [LibCall.effect, huse, hok], ?_⟩
    show Program.Ensures _ _ _ (if err = 0 then pure (0 : Int32) else
      if err = negEnoent then pure 0 else pure err) 0 σ
    rw [if_neg hok]
    split_ifs
    · exact ⟨hσ, by decide, fun _ _ => rfl⟩
    · exact ⟨hσ, herr, fun _ _ => rfl⟩

/-- The buffers are there, and nothing else is. -/
structure SlabBuffers (σ : Holdings) : Prop where
  holdings : SlabHoldings σ
  previous : σ.ptr .previous = .live
  current : σ.ptr .current = .live
  rows : σ.ptr .rows = .live
  percpuValues : σ.ptr .percpuValues = .live

theorem attachSlabLinks_ensures {σ : Holdings} (hσ : SlabBuffers σ)
    (hskel : σ.ptr .skeleton = .live) (hcache : σ.ptr .cacheNodeLink = .null)
    (hkmalloc : σ.ptr .kmallocNodeLink = .null) :
    attachSlabLinks.Ensures Documented LibCall.effect slabRateFn.After 4 σ := by
  unfold attachSlabLinks
  show Program.Ensures _ _ _ _ (2 + 2) σ
  refine Program.Ensures.bind ((attachOptionalRawTracepoint_ensures hσ.holdings (by decide)
    hcache hskel).mono ?_ le_rfl)
  rintro err σ₁ ⟨hσ₁, hle, hsame⟩
  split_ifs with herr
  · exact hσ₁.cleanup hle herr
  show Program.Ensures _ _ _ _ (2 + 0) σ₁
  refine Program.Ensures.bind ((attachOptionalRawTracepoint_ensures hσ₁ (by decide)
    ((hsame _ (by decide)).trans hkmalloc) ((hsame _ (by decide)).trans hskel)).mono ?_ le_rfl)
  rintro err σ₂ ⟨hσ₂, hle, hsame'⟩
  split_ifs with herr
  · exact hσ₂.cleanup hle herr
  · apply hσ₂.entered
    simp only [slabRateRun, PollLoop.needs, List.mem_cons, List.not_mem_nil, or_false]
    rintro k (rfl | rfl | rfl | rfl | rfl)
    · rw [hsame' _ (by decide), hsame _ (by decide), hskel]
    · rw [hsame' _ (by decide), hsame _ (by decide), hσ.previous]
    · rw [hsame' _ (by decide), hsame _ (by decide), hσ.current]
    · rw [hsame' _ (by decide), hsame _ (by decide), hσ.rows]
    · rw [hsame' _ (by decide), hsame _ (by decide), hσ.percpuValues]

theorem loadSlabRate_ensures {σ : Holdings} (hσ : SlabBuffers σ) (hskel : σ.ptr .skeleton = .null)
    (hcache : σ.ptr .cacheNodeLink = .null) (hkmalloc : σ.ptr .kmallocNodeLink = .null) :
    loadSlabRate.Ensures Documented LibCall.effect slabRateFn.After 8 σ := by
  intro skel _
  cases skel with
  | false => exact ⟨σ, rfl, hσ.holdings.cleanup (by decide) (by decide)⟩
  | true =>
      rcases hσ.holdings.acquire (h := .skeleton) (by decide) hskel with ⟨σ', hacq, hσ', hptr⟩
      have hlive : σ'.ptr .skeleton = .live := by simp [hptr]
      have huse : σ'.uses [.skeleton] = some σ' := uses_of_live (by simpa using hlive)
      have hother : ∀ h, h ≠ .skeleton → σ'.ptr h = σ.ptr h := fun h hne => by simp [hptr, hne]
      have hbuffers : SlabBuffers σ' :=
        ⟨hσ', (hother _ (by decide)).trans hσ.previous, (hother _ (by decide)).trans hσ.current,
          (hother _ (by decide)).trans hσ.rows, (hother _ (by decide)).trans hσ.percpuValues⟩
      refine ⟨σ', hacq, fun (err : Int32) herr => ⟨σ', huse, ?_⟩⟩
      show Program.Ensures _ _ _ (if err ≠ 0 then pure (Setup.cleanup err) else _) 6 σ'
      split_ifs with hload
      · exact hσ'.cleanup herr hload
      refine fun (err : Int32) herr => ⟨σ', huse, ?_⟩
      show Program.Ensures _ _ _ (if err ≠ 0 then pure (Setup.cleanup err) else _) 5 σ'
      split_ifs with hupd
      · exact hσ'.cleanup herr hupd
      refine fun (err : Int32) herr => ⟨σ', huse, ?_⟩
      show Program.Ensures _ _ _
        (if err ≠ 0 then pure (Setup.cleanup err) else attachSlabLinks) 4 σ'
      split_ifs with hatt
      · exact hσ'.cleanup herr hatt
      · exact attachSlabLinks_ensures hbuffers hlive ((hother _ (by decide)).trans hcache)
          ((hother _ (by decide)).trans hkmalloc)

/-- A buffer is there or not; the other pointers stay. -/
theorem calloc_effect {σ : Holdings} (hσ : SlabHoldings σ) {h : Handle} (hmem : h ∈ slabHandles)
    (hnull : σ.ptr h = .null) (ok : Bool) :
    ∃ σ', LibCall.effect σ (.calloc h) ok = some σ' ∧ SlabHoldings σ' ∧
      σ'.ptr = Function.update σ.ptr h (if ok then .live else .null) := by
  cases ok with
  | true => exact hσ.acquire hmem hnull
  | false =>
      refine ⟨σ, rfl, hσ, ?_⟩
      rw [if_neg (by decide), ← hnull, Function.update_eq_self]

theorem slabRateFn_sound : slabRateFn.Sound := by
  have hstart : SlabHoldings .start := ⟨within_start _, rfl⟩
  intro (err : Int32) _
  refine ⟨.start, rfl, ?_⟩
  show Program.Ensures _ _ slabRateFn.After
    (if err ≠ 0 then pure (Setup.returned 1) else _) 13 .start
  split_ifs
  · exact ⟨by decide, released_start⟩
  refine fun (ncpus : Int32) _ => ⟨.start, rfl, ?_⟩
  show Program.Ensures _ _ slabRateFn.After
    (if ncpus ≤ 0 then pure (Setup.returned 1) else _) 12 .start
  split_ifs
  · exact ⟨by decide, released_start⟩
  intro previous _
  rcases calloc_effect hstart (h := .previous) (by decide) rfl previous with ⟨σ₁, he₁, h₁, hp₁⟩
  refine ⟨σ₁, he₁, fun current _ => ?_⟩
  rcases calloc_effect h₁ (h := .current) (by decide) (by simp [hp₁, Holdings.start]) current with
    ⟨σ₂, he₂, h₂, hp₂⟩
  refine ⟨σ₂, he₂, fun rows _ => ?_⟩
  rcases calloc_effect h₂ (h := .rows) (by decide) (by simp [hp₂, hp₁, Holdings.start]) rows with
    ⟨σ₃, he₃, h₃, hp₃⟩
  refine ⟨σ₃, he₃, fun percpuValues _ => ?_⟩
  rcases calloc_effect h₃ (h := .percpuValues) (by decide)
    (by simp [hp₃, hp₂, hp₁, Holdings.start]) percpuValues with ⟨σ₄, he₄, h₄, hp₄⟩
  refine ⟨σ₄, he₄, ?_⟩
  show Program.Ensures _ _ slabRateFn.After
    (if previous && current && rows && percpuValues then loadSlabRate
      else pure (Setup.cleanup negEnomem)) 8 σ₄
  split_ifs with hall
  · simp only [Bool.and_eq_true] at hall
    obtain ⟨⟨⟨rfl, rfl⟩, rfl⟩, rfl⟩ := hall
    refine loadSlabRate_ensures ⟨h₄, ?_, ?_, ?_, ?_⟩ ?_ ?_ ?_ <;>
      simp [hp₄, hp₃, hp₂, hp₁, Holdings.start]
  · exact h₄.cleanup (by decide) (by decide)

/-- **Every module releases what it acquired.** Whichever calls fail. -/
theorem sound_of_mode {mode : AppMode} {F : RunFn} (h : mode.fn = some F) : F.Sound := by
  have hneg : ∀ err, isNegative err = true → err ≠ 0 := fun _ => isNegative_nonzero
  have hne : ∀ err, isNonzero err = true → err ≠ 0 := fun _ => isNonzero_nonzero
  cases mode with
  | unset => cases h
  | contextSwitch => obtain rfl := Option.some.inj h; exact sound_withPidNamespace .orZero hneg
  | preempt => obtain rfl := Option.some.inj h; exact sound_loadAndAttach .orZero hneg
  | syscall => obtain rfl := Option.some.inj h; exact sound_loadAndAttach .orZero hneg
  | tcpMonitor => obtain rfl := Option.some.inj h; exact sound_withPidNamespace .orZero hneg
  | msgqueue => obtain rfl := Option.some.inj h; exact msgqueueFn_sound
  | mutexlock => obtain rfl := Option.some.inj h; exact sound_withPidNamespace .orZero hneg
  | fsOpen => obtain rfl := Option.some.inj h; exact sound_withPidNamespace .orZero hneg
  | fsRead => obtain rfl := Option.some.inj h; exact sound_withPidNamespace .orZero hne
  | fsWrite => obtain rfl := Option.some.inj h; exact sound_withPidNamespace .orZero hne
  | blockIo => obtain rfl := Option.some.inj h; exact sound_loadAndAttach .orZero hneg
  | drSnoop => obtain rfl := Option.some.inj h; exact sound_withPidNamespace .orErr hne
  | oomKiller => obtain rfl := Option.some.inj h; exact oomKillerFn_sound
  | slabRate => obtain rfl := Option.some.inj h; exact slabRateFn_sound
  | udpMonitor => obtain rfl := Option.some.inj h; exact udpMonitorFn_sound

end EbpfToolbox.Common
