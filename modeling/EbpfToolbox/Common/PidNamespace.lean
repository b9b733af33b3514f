import Mathlib.Data.Vector.Basic
import Mathlib.Logic.Function.Basic

/-!
# Tasks and PID namespaces

The model of `common/types.h` and `common/pid_namespace.bpf.h`. A `Task` is the
current task as the helpers `bpf_get_current_pid_tgid` and
`bpf_get_ns_current_pid_tgid` report it; `app_current_pid_tgid_ns` is the only
way the probes look at it. The second half follows a `struct pid` through its
namespace levels, as `app_task_tid_ns` and `app_task_tgid_ns` do for a task
that is not the current one.

`Kernel` collects what the kernel promises about the numbers of its threads;
the promise is a field of the structure, so every run below is over threads
that keep it.
-/

namespace EbpfToolbox.Common

/-- `TASK_COMM_LEN`. -/
def taskCommLen : ℕ := 16

/-- A task name, `bpf_s8_t comm[TASK_COMM_LEN]`. -/
abbrev Comm : Type := Vector Int8 taskCommLen

/-- A string behind a pointer, without its NUL: `none` when it cannot be read. -/
abbrev ReadStr : Type := Option (List Int8)

/-- What `bpf_probe_read_kernel_str` and `bpf_probe_read_user_str` leave in a
zeroed buffer of `n` bytes: at most `n - 1` bytes, then NUL. -/
def copyStr (n : ℕ) (bytes : List Int8) : Vector Int8 n :=
  Vector.ofFn fun i => if i.val + 1 < n then bytes.getD i.val 0 else 0

/-- A task name: no NUL inside, and room for one in `TASK_COMM_LEN` bytes. -/
structure TaskName where
  bytes : List Int8
  nonzero : ∀ b ∈ bytes, b ≠ 0
  short : bytes.length < taskCommLen

/-- `bpf_probe_read_kernel_str` stops after the NUL: behind it the buffer keeps what an
earlier read left there. -/
def readStrInto (buf : Comm) (name : TaskName) : Comm where
  toArray := (name.bytes ++ 0 :: buf.toList.drop (name.bytes.length + 1)).toArray
  size_toArray := by
    have hshort := name.short
    simp only [List.size_toArray, List.length_append, List.length_cons, List.length_drop,
      Vector.length_toList]
    omega

/-- The name as a C string. -/
def cString (buf : Comm) : List Int8 := buf.toList.takeWhile (· ≠ 0)

@[simp] theorem cString_readStrInto (buf : Comm) (name : TaskName) :
    cString (readStrInto buf name) = name.bytes := by
  have hname : ∀ b ∈ name.bytes, decide (b ≠ 0) = true := fun b hb => by
    simpa using name.nonzero b hb
  change (name.bytes ++ 0 :: _).takeWhile _ = _
  rw [List.takeWhile_append_of_pos hname]
  simp

/-- What `bpf_probe_read_kernel_str` takes from the `comm` of a task. -/
def nameOf (comm : Comm) : TaskName where
  bytes := (comm.toList.take (taskCommLen - 1)).takeWhile (· ≠ 0)
  nonzero b hb := by simpa using List.all_eq_true.mp List.all_takeWhile b hb
  short := by
    have htake := (List.takeWhile_sublist (fun b : Int8 => decide (b ≠ 0))
      (l := comm.toList.take (taskCommLen - 1))).length_le
    rw [List.length_take] at htake
    have hlen : taskCommLen - 1 < taskCommLen := by decide
    omega

/-- `struct bpf_pidns_info`. -/
structure PidnsInfo where
  pid : UInt32
  tgid : UInt32
deriving DecidableEq, Repr

/-- A `pid_tgid` value: TGID in the high 32 bits, TID in the low 32 bits. -/
def packPidTgid (tgid pid : UInt32) : UInt64 := (tgid.toUInt64 <<< 32) ||| pid.toUInt64

/-- `(bpf_u32_t)(pid_tgid >> 32)`. -/
def tgidOf (pidTgid : UInt64) : UInt32 := (pidTgid >>> 32).toUInt32

/-- `(bpf_u32_t)pid_tgid`. -/
def tidOf (pidTgid : UInt64) : UInt32 := pidTgid.toUInt32

@[simp] theorem tidOf_pack (tgid pid : UInt32) : tidOf (packPidTgid tgid pid) = pid := by
  apply UInt32.toBitVec_inj.mp
  ext i hi
  simp [packPidTgid, tidOf]

@[simp] theorem tgidOf_pack (tgid pid : UInt32) : tgidOf (packPidTgid tgid pid) = tgid := by
  apply UInt32.toBitVec_inj.mp
  ext i hi
  simp [packPidTgid, tgidOf]
  grind

/-- The current task. `nsPidTgid dev ino` is `bpf_get_ns_current_pid_tgid`, with
`none` for a negative return value. -/
structure Task where
  pidTgid : UInt64
  nsPidTgid : UInt64 → UInt64 → Option PidnsInfo

/-- `app_current_pid_tgid_ns`. -/
def appCurrentPidTgidNs (cur : Task) (dev ino : UInt64) : UInt64 :=
  -- `ino = 0`: no namespace was chosen, the initial one is used
  if ino = 0 then cur.pidTgid
  else
    match cur.nsPidTgid dev ino with
    | none => 0
    | some info => packPidTgid info.tgid info.pid

/-! ## The level search in a `struct pid` -/

/-- `struct upid`: `ns` is the inode number of the namespace, `none` for a null
pointer. -/
structure Upid where
  nr : Int32
  ns : Option UInt32
deriving DecidableEq, Repr

/-- A zeroed `struct upid`, which is also what a failed `bpf_core_read` leaves. -/
def Upid.zero : Upid := ⟨0, none⟩

/-- `struct pid`, with `numbers[0 .. level]`. -/
structure Pid where
  level : UInt32
  numbers : List Upid
deriving DecidableEq, Repr

/-- `APP_PIDNS_LEVEL_COUNT`. -/
def appPidnsLevelCount : ℕ := 33

/-- The unrolled loop of `app_pid_nr_in_ns` from index `i`, `fuel` rounds left. -/
def appPidNrLoop (pid : Pid) (ino : UInt64) : ℕ → ℕ → Int32
  | 0, _ => 0
  | fuel + 1, i =>
      if pid.level.toNat < i then 0
      else
        let upid := pid.numbers.getD i Upid.zero
        match upid.ns with
        | none => appPidNrLoop pid ino fuel (i + 1)
        | some inum =>
            if inum.toUInt64 = ino then upid.nr
            else appPidNrLoop pid ino fuel (i + 1)

/-- `app_pid_nr_in_ns`. -/
def appPidNrInNs (pid : Option Pid) (ino : UInt64) : Int32 :=
  match pid with
  | none => 0
  | some pid =>
      if ino = 0 then 0
      else if appPidnsLevelCount ≤ pid.level.toNat then 0
      else appPidNrLoop pid ino appPidnsLevelCount 0

/-- The part of a `task_struct` that the probes read: its own `thread_pid`, the
`thread_pid` of its group leader (`none`: no leader), its priority and name. A
task that cannot be read gives zeros. -/
structure TaskStruct where
  threadPid : Option Pid
  groupLeader : Option (Option Pid)
  prio : Int32
  comm : Comm

/-- `app_task_tid_ns`. -/
def appTaskTidNs (task : Option TaskStruct) (ino : UInt64) : Int32 :=
  match task with
  | none => 0
  | some task => appPidNrInNs task.threadPid ino

/-- `app_task_tgid_ns`. -/
def appTaskTgidNs (task : Option TaskStruct) (ino : UInt64) : Int32 :=
  match task with
  | none => 0
  | some task =>
      match task.groupLeader with
      | none => 0
      | some leaderPid => appPidNrInNs leaderPid ino

/-! ## What the kernel promises about thread numbers -/

/-- The threads of a run. Two threads that are alive together have different
TIDs, in the initial namespace and in every namespace that sees both; and PID 0
is the idle task, whose TGID and TID are both 0. -/
structure Kernel (T : Type) where
  task : T → Task
  tid_inj : Function.Injective fun t => tidOf (task t).pidTgid
  tgid_zero : ∀ t, tgidOf (task t).pidTgid = 0 → (task t).pidTgid = 0
  ns_tid_inj : ∀ dev ino t u a b, (task t).nsPidTgid dev ino = some a →
    (task u).nsPidTgid dev ino = some b → a.pid = b.pid → t = u
  ns_tgid_ne_zero : ∀ dev ino t a, (task t).nsPidTgid dev ino = some a → a.tgid ≠ 0

namespace Kernel

variable {T : Type} (K : Kernel T)

/-- The `pid_tgid` of `t` in the namespace `(dev, ino)`, 0 when it is not visible there. -/
def visible (dev ino : UInt64) (t : T) : UInt64 := appCurrentPidTgidNs (K.task t) dev ino

theorem pidTgid_inj {t u : T} (h : (K.task t).pidTgid = (K.task u).pidTgid) : t = u :=
  K.tid_inj (congrArg tidOf h)

theorem pidTgid_ne {t u : T} (h : t ≠ u) : (K.task t).pidTgid ≠ (K.task u).pidTgid :=
  fun he => h (K.pidTgid_inj he)

/-- Visible threads have different visible TIDs. -/
theorem visible_tid_inj {dev ino : UInt64} {t u : T} (ht : K.visible dev ino t ≠ 0)
    (hu : K.visible dev ino u ≠ 0)
    (h : tidOf (K.visible dev ino t) = tidOf (K.visible dev ino u)) : t = u := by
  unfold visible appCurrentPidTgidNs at *
  by_cases hino : ino = 0
  · simp only [hino, if_true] at h
    exact K.tid_inj h
  · simp only [hino, if_false] at ht hu h
    cases hta : (K.task t).nsPidTgid dev ino with
    | none => simp [hta] at ht
    | some a =>
        cases hub : (K.task u).nsPidTgid dev ino with
        | none => simp [hub] at hu
        | some b =>
            simp only [hta, hub, tidOf_pack] at h
            exact K.ns_tid_inj dev ino t u a b hta hub h

theorem visible_inj {dev ino : UInt64} {t u : T} (ht : K.visible dev ino t ≠ 0)
    (h : K.visible dev ino t = K.visible dev ino u) : t = u :=
  K.visible_tid_inj ht (h ▸ ht) (congrArg tidOf h)

/-- A visible thread has a non-zero visible TGID. -/
theorem visible_tgid_ne_zero {dev ino : UInt64} {t : T} (ht : K.visible dev ino t ≠ 0) :
    tgidOf (K.visible dev ino t) ≠ 0 := by
  unfold visible appCurrentPidTgidNs at *
  by_cases hino : ino = 0
  · simp only [hino, if_true] at ht ⊢
    exact fun h => ht (K.tgid_zero t h)
  · simp only [hino, if_false] at ht ⊢
    cases hta : (K.task t).nsPidTgid dev ino with
    | none => simp [hta] at ht
    | some a => simpa using K.ns_tgid_ne_zero dev ino t a hta

/-- The same for the signed `pid` the probes compare. -/
theorem visible_pid_ne_zero {dev ino : UInt64} {t : T} (ht : K.visible dev ino t ≠ 0) :
    (tgidOf (K.visible dev ino t)).toInt32 ≠ 0 :=
  fun h => K.visible_tgid_ne_zero ht (congrArg Int32.toUInt32 h)

/-- Two single-threaded processes of the initial namespace, with PIDs 1 and 2. -/
def two : Kernel (Fin 2) where
  task t := ⟨if t = 0 then packPidTgid 1 1 else packPidTgid 2 2, fun _ _ => none⟩
  tid_inj := show ∀ t u : Fin 2, _ → t = u by decide +kernel
  tgid_zero := by decide +kernel
  ns_tid_inj _ _ _ _ _ _ h := by cases h
  ns_tgid_ne_zero _ _ _ _ h := by cases h

end Kernel

end EbpfToolbox.Common
