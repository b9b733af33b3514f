import EbpfToolbox.Common.PidNamespace
import Mathlib.Data.List.Nodup

/-!
# The two ways to translate a PID

`app_current_pid_tgid_ns` asks the kernel helper, which knows the current task in
its own, innermost namespace only. `app_task_tid_ns` and `app_task_tgid_ns` walk
the levels of the task's `struct pid` and find it in every namespace above it as
well. The two agree in the task's own namespace and in the namespaces that do not
see it; in a proper ancestor the first says 0 and the second a PID.
-/

namespace EbpfToolbox.Common

/-- A task at one level: the inode number of the namespace and the task's TID and TGID
there. -/
structure NsLevel where
  inum : UInt32
  tid : Int32
  tgid : Int32
deriving DecidableEq, Repr

/-- A task with its levels below its own namespace, the initial one first, and its own
level. Namespaces have different inode numbers, none of them 0, and a task has
non-zero PIDs in all of them. -/
structure NsTask where
  above : List NsLevel
  own : NsLevel
  depth : above.length ≤ 32
  inums : ((above ++ [own]).map NsLevel.inum).Nodup
  inum_ne_zero : ∀ l ∈ above ++ [own], l.inum ≠ 0
  tid_ne_zero : ∀ l ∈ above ++ [own], l.tid ≠ 0

namespace NsTask

def levels (t : NsTask) : List NsLevel := t.above ++ [t.own]

/-- `task->thread_pid`. -/
def threadPid (t : NsTask) : Pid :=
  ⟨.ofNat t.above.length, t.levels.map fun l => ⟨l.tid, some l.inum⟩⟩

/-- `task->group_leader->thread_pid`: a thread and its leader share their namespaces. -/
def leaderPid (t : NsTask) : Pid :=
  ⟨.ofNat t.above.length, t.levels.map fun l => ⟨l.tgid, some l.inum⟩⟩

def taskStruct (t : NsTask) (prio : Int32) (comm : Comm) : TaskStruct where
  threadPid := some t.threadPid
  groupLeader := some (some t.leaderPid)
  prio := prio
  comm := comm

/-- The task as current: `bpf_get_ns_current_pid_tgid` succeeds in its own namespace
only. `nsDev` is the device of the namespace file system. -/
def current (t : NsTask) (nsDev pidTgid : UInt64) : Task where
  pidTgid := pidTgid
  nsPidTgid dev ino :=
    if dev = nsDev ∧ ino = t.own.inum.toUInt64 then some ⟨t.own.tid.toUInt32, t.own.tgid.toUInt32⟩
    else none

end NsTask

/-! ## The level search -/

theorem appPidNrLoop_eq_find (f : NsLevel → Int32) (levels : List NsLevel) (level : UInt32)
    (hlevel : levels.length = level.toNat + 1) (ino : UInt64) (fuel i : ℕ)
    (hfuel : levels.length ≤ i + fuel) :
    appPidNrLoop ⟨level, levels.map fun l => ⟨f l, some l.inum⟩⟩ ino fuel i =
      ((levels.drop i).find? fun l => l.inum.toUInt64 = ino).elim 0 f := by
  induction fuel generalizing i with
  | zero =>
      rw [List.drop_eq_nil_of_le (by omega)]
      rfl
  | succ fuel ih =>
      by_cases hi : i < levels.length
      · have hle : ¬level.toNat < i := by omega
        have hget : (levels.map fun l => (⟨f l, some l.inum⟩ : Upid)).getD i Upid.zero =
            ⟨f levels[i], some levels[i].inum⟩ := by
          simp [hi]
        rw [List.drop_eq_getElem_cons hi, List.find?_cons]
        simp only [appPidNrLoop, if_neg hle, hget]
        by_cases hino : levels[i].inum.toUInt64 = ino
        · simp [hino]
        · simp only [hino, if_false, decide_false]
          exact ih (i + 1) (by omega)
      · have hgt : level.toNat < i := by omega
        rw [List.drop_eq_nil_of_le (by omega)]
        simp only [appPidNrLoop, if_pos hgt]
        rfl

/-- The search over all levels of a task. -/
theorem appPidNrInNs_eq_find (t : NsTask) (f : NsLevel → Int32) {ino : UInt64} (hino : ino ≠ 0) :
    appPidNrInNs (some ⟨.ofNat t.above.length, t.levels.map fun l => ⟨f l, some l.inum⟩⟩) ino =
      (t.levels.find? fun l => l.inum.toUInt64 = ino).elim 0 f := by
  have hdepth := t.depth
  have hlevel : (UInt32.ofNat t.above.length).toNat = t.above.length :=
    UInt32.toNat_ofNat_of_lt' (by unfold UInt32.size; omega)
  have hlen : t.levels.length = t.above.length + 1 := by simp [NsTask.levels]
  simp only [appPidNrInNs, if_neg hino]
  rw [if_neg (by rw [hlevel]; unfold appPidnsLevelCount; omega)]
  exact appPidNrLoop_eq_find f t.levels _ (by rw [hlevel, hlen]) ino appPidnsLevelCount 0
    (by unfold appPidnsLevelCount; omega)

/-! ## Agreement -/

/-- Both translations of the task into the namespace `inum`. -/
def NsTask.TranslationsAgree (t : NsTask) (nsDev pidTgid : UInt64) (prio : Int32) (comm : Comm)
    (inum : UInt32) : Prop :=
  appCurrentPidTgidNs (t.current nsDev pidTgid) nsDev inum.toUInt64 =
    packPidTgid (appTaskTgidNs (some (t.taskStruct prio comm)) inum.toUInt64).toUInt32
      (appTaskTidNs (some (t.taskStruct prio comm)) inum.toUInt64).toUInt32

theorem NsTask.own_inum_ne (t : NsTask) {l : NsLevel} (hl : l ∈ t.above) : t.own.inum ≠ l.inum := by
  have hnodup := t.inums
  rw [List.map_append, List.nodup_append] at hnodup
  exact fun h => hnodup.2.2 _ (List.mem_map_of_mem hl) _ (by simp) h.symm

/-- The task path finds the level of `inum`. -/
theorem NsTask.task_path (t : NsTask) (prio : Int32) (comm : Comm) {inum : UInt32}
    (h : inum ≠ 0) :
    appTaskTidNs (some (t.taskStruct prio comm)) inum.toUInt64 =
        (t.levels.find? fun l => l.inum = inum).elim 0 NsLevel.tid ∧
      appTaskTgidNs (some (t.taskStruct prio comm)) inum.toUInt64 =
        (t.levels.find? fun l => l.inum = inum).elim 0 NsLevel.tgid := by
  have hino : inum.toUInt64 ≠ 0 := fun hz => h (UInt32.toUInt64_inj.mp (hz.trans rfl))
  have hfind : (t.levels.find? fun l => l.inum.toUInt64 = inum.toUInt64) =
      t.levels.find? fun l => l.inum = inum := by
    simp only [UInt32.toUInt64_inj]
  exact ⟨hfind ▸ appPidNrInNs_eq_find t NsLevel.tid hino,
    hfind ▸ appPidNrInNs_eq_find t NsLevel.tgid hino⟩

/-- The current path knows the task's own namespace only. -/
theorem NsTask.current_path (t : NsTask) (nsDev pidTgid : UInt64) {inum : UInt32} (h : inum ≠ 0) :
    appCurrentPidTgidNs (t.current nsDev pidTgid) nsDev inum.toUInt64 =
      if inum = t.own.inum then packPidTgid t.own.tgid.toUInt32 t.own.tid.toUInt32 else 0 := by
  have hino : inum.toUInt64 ≠ 0 := fun hz => h (UInt32.toUInt64_inj.mp (hz.trans rfl))
  simp only [appCurrentPidTgidNs, if_neg hino, NsTask.current, true_and, UInt32.toUInt64_inj]
  split_ifs <;> rfl

/-- The two paths agree exactly in the namespaces that are no proper ancestors of the
task's own. -/
theorem translations_agree_iff (t : NsTask) (nsDev pidTgid : UInt64) (prio : Int32) (comm : Comm)
    {inum : UInt32} (h : inum ≠ 0) :
    t.TranslationsAgree nsDev pidTgid prio comm inum ↔ ∀ l ∈ t.above, l.inum ≠ inum := by
  obtain ⟨htid, htgid⟩ := t.task_path prio comm h
  unfold NsTask.TranslationsAgree
  rw [t.current_path nsDev pidTgid h, htid, htgid]
  constructor
  · rintro hagree l hl rfl
    -- an ancestor: the helper fails, the walk finds a level with a PID
    rw [if_neg fun hown => t.own_inum_ne hl hown.symm] at hagree
    cases hfind : t.levels.find? fun m => decide (m.inum = l.inum) with
    | none =>
        have hmem : l ∈ t.levels := List.mem_append_left _ hl
        simpa using List.find?_eq_none.mp hfind l hmem
    | some m =>
        rw [hfind] at hagree
        have htid : tidOf (packPidTgid m.tgid.toUInt32 m.tid.toUInt32) = tidOf 0 :=
          congrArg tidOf hagree.symm
        rw [tidOf_pack] at htid
        exact t.tid_ne_zero m (List.mem_of_find?_eq_some hfind) (congrArg UInt32.toInt32 htid)
  · intro habove
    have hnone : t.above.find? (fun l => decide (l.inum = inum)) = none := by
      simpa using habove
    rw [NsTask.levels, List.find?_append, hnone, Option.none_or]
    by_cases hown : inum = t.own.inum
    · simp [hown]
    · simp [hown, Ne.symm hown]
      rfl

/-- Process 1 of a container that the host, namespace 100, knows as 1234. -/
def contained : NsTask where
  above := [⟨100, 1234, 1234⟩]
  own := ⟨200, 1, 1⟩
  depth := by decide
  inums := by decide
  inum_ne_zero := by decide
  tid_ne_zero := by decide

theorem contained_agrees_in_its_namespace :
    contained.TranslationsAgree 4 (packPidTgid 1234 1234) 120 (Vector.replicate _ 0) 200 ∧
      appCurrentPidTgidNs (contained.current 4 (packPidTgid 1234 1234)) 4 200 = packPidTgid 1 1 :=
  ⟨(translations_agree_iff contained 4 _ 120 _ (by decide)).mpr (by decide), by decide +kernel⟩

/-- A tool that runs on the host does not see the current process, but it does see it as
the owner of a lock. -/
theorem contained_disagrees_on_the_host :
    appCurrentPidTgidNs (contained.current 4 (packPidTgid 1234 1234)) 4 100 = 0 ∧
      appTaskTidNs (some (contained.taskStruct 120 (Vector.replicate _ 0))) 100 = 1234 ∧
      appTaskTgidNs (some (contained.taskStruct 120 (Vector.replicate _ 0))) 100 = 1234 ∧
      ¬ contained.TranslationsAgree 4 (packPidTgid 1234 1234) 120 (Vector.replicate _ 0) 100 := by
  unfold NsTask.TranslationsAgree
  decide +kernel

end EbpfToolbox.Common
