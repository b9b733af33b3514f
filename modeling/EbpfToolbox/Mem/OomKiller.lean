import EbpfToolbox.Common.PidNamespace

/-!
# mem/oom_killer

`mem/oom_killer/oom_killer.bpf.c`: one kprobe on `oom_kill_process`. The event names the
task that is killed and the task in whose context the kernel chose it. The module has no
filter of its own: `oom_killer_run` takes the target process and the least delay, and hands
neither to the kernel.
-/

namespace EbpfToolbox.Mem.OomKiller

open Common

/-- `struct OomKiller_ctrl`. -/
structure Ctrl where
  enable : Bool

/-- `struct OomKiller_event`. -/
structure Event where
  triggeredPid : UInt32
  oomkillPid : UInt32
  memPages : UInt32
  comm : Comm

/-- The fields of a `struct task_struct` that are read; `totalVm` is `none` for a kernel
thread, which has no `mm`. -/
structure TaskFields where
  pid : Int32
  totalVm : Option UInt64
  comm : Comm

/-- What the kprobe sees: the chosen task, the current one and whether there is room. -/
structure KillArgs where
  chosen : TaskFields
  current : TaskFields
  reserved : Bool

def mkEvent (x : KillArgs) : Event where
  triggeredPid := x.current.pid.toUInt32
  oomkillPid := x.chosen.pid.toUInt32
  memPages := (x.current.totalVm.getD 0).toUInt32
  comm := x.chosen.comm

/-- `oom_kill_process`; the module keeps nothing but what it submitted to `rb`. -/
def oomKillProcess (c : Ctrl) (x : KillArgs) (rb : List Event) : List Event :=
  if c.enable = false then rb
  else if x.reserved = false then rb
  else rb ++ [mkEvent x]

end EbpfToolbox.Mem.OomKiller
