import EbpfToolbox.Fs.Open
import EbpfToolbox.Fs.ReadWrite
import EbpfToolbox.Lock.Mutexlock
import EbpfToolbox.Mem.DrSnoop

/-!
# Entry/exit accounting

The four modules that join an entry and an exit probe through a context map keep
the same books: every attempted call ends in exactly one bucket, whatever the
interleaving and whatever fails on the way.
-/

namespace EbpfToolbox

open Common Lib Fs Lock Mem

/-- The counters of mutexlock, dr_snoop, fs/open and fs/read account for every
attempted call at every point of every run, and no context outlives its call. -/
theorem entry_exit_accounting {T : Type} [DecidableEq T] (K : Kernel T) (n : ℕ) :
    (∀ ctrl : Mutexlock.Ctrl, ctrl.enable = true → ∀ es,
      (Mutexlock.machine n ctrl K).Valid es →
        Mutexlock.Accounted ctrl K ((Mutexlock.machine n ctrl K).run es)) ∧
    (∀ ctrl : DrSnoop.Ctrl, ctrl.enable = true → ∀ es,
      (DrSnoop.machine n ctrl K).Valid es →
        DrSnoop.Accounted ctrl K ((DrSnoop.machine n ctrl K).run es)) ∧
    (∀ ctrl : Open.Ctrl, ctrl.enable = true → ∀ es,
      (Open.machine n ctrl K).Valid es →
        Open.Accounted ctrl K ((Open.machine n ctrl K).run es)) ∧
    (∀ ctrl : ReadWrite.Ctrl, ctrl.enable = true → ∀ es,
      (ReadWrite.readMachine n ctrl K).Valid es →
        ReadWrite.Accounted ctrl K ((ReadWrite.readMachine n ctrl K).run es)) := by
  refine ⟨?_, ?_, ?_, ?_⟩
  · intro ctrl hen es hv
    exact Mutexlock.accounted K hen hv
  · intro ctrl hen es hv
    exact DrSnoop.accounted K hen hv
  · intro ctrl hen es hv
    exact Open.accounted K hen hv
  · intro ctrl hen es hv
    rw [ReadWrite.readMachine_eq] at hv ⊢
    exact ReadWrite.accounted K hen hv

/-- One thread's context is evicted while the other is still inside its call:
a missed lookup and a running call make up the two attempts. -/
theorem accounting_with_eviction :
    let mutexRun : List
        (CallLabel (Fin 2) (Mutexlock.EntryArgs 2) (Mutexlock.ExitArgs 2) UInt64) :=
      [.enter 0 ⟨0, 10, 64, 120, Vector.replicate _ 0, 0, ⟨none, none, 0, Vector.replicate _ 0⟩,
          false⟩,
        .enter 1 ⟨1, 20, 64, 120, Vector.replicate _ 0, 1, ⟨none, none, 0, Vector.replicate _ 0⟩,
          false⟩,
        .evict (packPidTgid 1 1), .leave 0 ⟨1, 30, true⟩]
    let reclaimRun : List
        (CallLabel (Fin 2) (DrSnoop.BeginArgs 2) (DrSnoop.EndArgs 2) UInt64) :=
      [.enter 0 ⟨0, 10, Vector.replicate _ 0, false⟩, .enter 1 ⟨1, 20, Vector.replicate _ 0, false⟩,
        .evict (packPidTgid 1 1), .leave 0 ⟨1, 30, 4, true⟩]
    let openRun : List (CallLabel (Fin 2) (Open.EntryArgs 2) (Open.ExitArgs 2) UInt32) :=
      [.enter 0 ⟨0, 10, 3, 0, none, true⟩, .enter 1 ⟨1, 20, 4, 1, none, false⟩,
        .leave 0 ⟨1, 30, 5, Vector.replicate _ 0, true⟩]
    let readRun : List
        (CallLabel (Fin 2) (ReadWrite.EntryArgs 2) (ReadWrite.ExitArgs 2) UInt32) :=
      [.enter 0 ⟨0, 10, 3, 64, Vector.replicate _ 0, none, true⟩,
        .enter 1 ⟨1, 20, 4, 128, Vector.replicate _ 0, none, false⟩, .leave 0 ⟨1, 30, 64, true⟩]
    (((Mutexlock.machine 2 ⟨true, 0, 0, 0, 0⟩ Kernel.two).run mutexRun).1.stats.total
        (·.lookupMissed) = 1 ∧
      Mutexlock.Accounted ⟨true, 0, 0, 0, 0⟩ Kernel.two
        ((Mutexlock.machine 2 ⟨true, 0, 0, 0, 0⟩ Kernel.two).run mutexRun)) ∧
    DrSnoop.Accounted ⟨true, 0, 0, 0, 0⟩ Kernel.two
      ((DrSnoop.machine 2 ⟨true, 0, 0, 0, 0⟩ Kernel.two).run reclaimRun) ∧
    Open.Accounted ⟨true, 0, 0, 0, 0⟩ Kernel.two
      ((Open.machine 2 ⟨true, 0, 0, 0, 0⟩ Kernel.two).run openRun) ∧
    ReadWrite.Accounted ⟨true, 0, 0, 0, 0, 0⟩ Kernel.two
      ((ReadWrite.readMachine 2 ⟨true, 0, 0, 0, 0, 0⟩ Kernel.two).run readRun) := by
  intro mutexRun reclaimRun openRun readRun
  obtain ⟨hmutex, hreclaim, hopen, hread⟩ := entry_exit_accounting Kernel.two 2
  refine ⟨⟨by decide +kernel, ?_⟩, ?_, ?_, ?_⟩
  · exact hmutex ⟨true, 0, 0, 0, 0⟩ rfl mutexRun (by decide +kernel)
  · exact hreclaim ⟨true, 0, 0, 0, 0⟩ rfl reclaimRun (by decide +kernel)
  · exact hopen ⟨true, 0, 0, 0, 0⟩ rfl openRun (by decide +kernel)
  · exact hread ⟨true, 0, 0, 0, 0, 0⟩ rfl readRun (by decide +kernel)

end EbpfToolbox
