import EbpfToolbox.Fs.Open
import EbpfToolbox.Fs.ReadWrite

/-!
# What the fs modules report of one call

`Open.perCall` and `ReadWrite.perCall` say what should be reported of a single
call, from the inputs of its own entry and its own exit and nothing else; the path of a
`read` or `write` is the name of the file open under the descriptor of the call. The
maps of these modules are plain hash maps, so nothing is evicted. Then the ring
buffer holds the reports of the calls, in the order in which the calls return,
and picking out one thread's events gives what that thread reports alone.
-/

namespace EbpfToolbox.Fs

open Common Lib

variable {T : Type} {n : ℕ}

/-- The report of one `openat` call of thread `t`, entered with `a` and left with `x`. -/
def Open.perCall (ctrl : Open.Ctrl) (K : Kernel T)
    (call : T × Open.EntryArgs n × Open.ExitArgs n) : Option Open.Event :=
  let t := call.1
  let a := call.2.1
  let x := call.2.2
  let latencyNs := x.now - a.now
  if Open.passes ctrl K t = true ∧ a.updateFails = false ∧
      ¬(ctrl.minDelayNs ≠ 0 ∧ latencyNs < ctrl.minDelayNs) ∧ x.reserved = true then
    some
      { pid := (tgidOf (K.visible ctrl.pidNsDev ctrl.pidNsIno t)).toInt32
        tid := (tidOf (K.visible ctrl.pidNsDev ctrl.pidNsIno t)).toInt32
        dirfd := a.arg0.toUInt32.toInt32
        fd := if 0 ≤ x.ret then x.ret.toInt32 else -1
        ret := x.ret
        flags := a.arg2
        timestampNs := x.now
        latencyNs := latencyNs
        pathName := copyStr Open.fsOpenPathSize (a.path.getD Open.readError)
        comm := x.comm }
  else none

/-- The file that is open under `fd`. -/
def ReadWrite.openFile (files : ReadWrite.Files) (fd : Int32) : Option ReadWrite.File :=
  files.bind fun fdt =>
    if 0 ≤ fd ∧ fd.toUInt32 < fdt.maxFds then fdt.fd.bind fun slots => slots fd.toUInt32.toNat
    else none

/-- Its last path component, where there is one that can be read. -/
def ReadWrite.File.name (file : ReadWrite.File) : ReadStr :=
  file.dName.bind fun dName => if dName.len = 0 then none else dName.name.join

/-- The report of one `read` or `write` call. -/
def ReadWrite.perCall (ctrl : ReadWrite.Ctrl) (K : Kernel T)
    (call : T × ReadWrite.EntryArgs n × ReadWrite.ExitArgs n) : Option ReadWrite.Event :=
  let t := call.1
  let a := call.2.1
  let x := call.2.2
  let latencyNs := x.now - a.now
  let fd := a.arg0.toUInt32.toInt32
  if ReadWrite.passes ctrl K t = true ∧ a.updateFails = false ∧
      ¬(ctrl.minDelayNs ≠ 0 ∧ latencyNs < ctrl.minDelayNs) ∧ x.reserved = true then
    some
      { pid := (tgidOf (K.visible ctrl.pidNsDev ctrl.pidNsIno t)).toInt32
        tid := (tidOf (K.visible ctrl.pidNsDev ctrl.pidNsIno t)).toInt32
        fd := fd
        requestedCount := a.arg2
        bytes := x.ret
        timestampNs := x.now
        latencyNs := latencyNs
        pathName := ((ReadWrite.openFile a.files fd).bind ReadWrite.File.name).elim
          (Vector.replicate _ 0) (copyStr ReadWrite.pathSize)
        comm := a.comm }
  else none

/-! ## The tracker reports per call -/

theorem Open.report_eq_perCall (ctrl : Open.Ctrl) (K : Kernel T)
    (call : T × Open.EntryArgs n × Open.ExitArgs n) :
    (Open.tracker n ctrl K).report (Open.outcome ctrl) call = Open.perCall ctrl K call := by
  rcases call with ⟨t, a, x⟩
  simp only [Tracker.report, Tracker.matched, Open.tracker, Open.perCall]
  by_cases hp : Open.passes ctrl K t = true
  · by_cases hu : a.updateFails = false
    · by_cases hd : ctrl.minDelayNs ≠ 0 ∧ x.now - a.now < ctrl.minDelayNs
      · simp [Open.outcome, Open.entryData, hp, hu, hd, Outcome.event]
      · by_cases hr : x.reserved = false
        · simp [Open.outcome, Open.entryData, hp, hu, hd, hr, Outcome.event]
        · simp [Open.outcome, Open.entryData, hp, hu, hd, hr, Outcome.event, Open.mkEvent]
    · simp [hu]
  · simp [hp]

/-- `fill_name_from_fd` finds the file and copies its name. -/
theorem ReadWrite.fillNameFromFd_eq (files : ReadWrite.Files) (fd : Int32) :
    ReadWrite.fillNameFromFd files fd =
      ((ReadWrite.openFile files fd).bind ReadWrite.File.name).map (copyStr ReadWrite.pathSize) := by
  cases files with
  | none => simp [ReadWrite.fillNameFromFd, ReadWrite.openFile]
  | some fdt =>
      simp only [ReadWrite.fillNameFromFd, ReadWrite.openFile, Option.bind_some]
      by_cases hneg : fd < 0
      · rw [if_pos hneg, if_neg fun h => Int32.not_le.mpr hneg h.1]
        rfl
      by_cases hmax : fdt.maxFds ≤ fd.toUInt32
      · rw [if_neg hneg, if_pos hmax, if_neg fun h => UInt32.not_lt.mpr hmax h.2]
        rfl
      rw [if_neg hneg, if_neg hmax, if_pos ⟨Int32.not_lt.mp hneg, UInt32.not_le.mp hmax⟩]
      cases fdt.fd with
      | none => rfl
      | some slots =>
          simp only [Option.bind_some]
          cases slots fd.toUInt32.toNat with
          | none => rfl
          | some file =>
              rcases file with ⟨_ | ⟨_ | name, len⟩⟩
              · rfl
              · simp [ReadWrite.File.name]
              · simp only [Option.bind_some, ReadWrite.File.name, Option.join_some]
                split_ifs <;> rfl

theorem ReadWrite.fillNameFromFd_getD (files : ReadWrite.Files) (fd : Int32) :
    (ReadWrite.fillNameFromFd files fd).getD (Vector.replicate _ 0) =
      ((ReadWrite.openFile files fd).bind ReadWrite.File.name).elim (Vector.replicate _ 0)
        (copyStr ReadWrite.pathSize) := by
  rw [ReadWrite.fillNameFromFd_eq]
  cases (ReadWrite.openFile files fd).bind ReadWrite.File.name <;> rfl

theorem ReadWrite.report_eq_perCall (ctrl : ReadWrite.Ctrl) (K : Kernel T)
    (call : T × ReadWrite.EntryArgs n × ReadWrite.ExitArgs n) :
    (ReadWrite.tracker n ctrl K).report (ReadWrite.outcome ctrl) call =
      ReadWrite.perCall ctrl K call := by
  rcases call with ⟨t, a, x⟩
  simp only [Tracker.report, Tracker.matched, ReadWrite.tracker, ReadWrite.perCall]
  by_cases hp : ReadWrite.passes ctrl K t = true
  · by_cases hu : a.updateFails = false
    · by_cases hd : ctrl.minDelayNs ≠ 0 ∧ x.now - a.now < ctrl.minDelayNs
      · simp [ReadWrite.outcome, ReadWrite.entryData, hp, hu, hd, Outcome.event]
      · by_cases hr : x.reserved = false
        · simp [ReadWrite.outcome, ReadWrite.entryData, hp, hu, hd, hr, Outcome.event]
        · simp [ReadWrite.outcome, ReadWrite.entryData, ReadWrite.fillNameFromFd_getD, hp, hu, hd, hr,
            Outcome.event, ReadWrite.mkEvent]
    · simp [hu]
  · simp [hp]

/-- The `tid` of a report names the thread, among the visible ones. -/
theorem toInt32_tidOf_inj {K : Kernel T} {dev ino : UInt64} {t u : T}
    (ht : K.visible dev ino t ≠ 0) (hu : K.visible dev ino u ≠ 0)
    (h : (tidOf (K.visible dev ino u)).toInt32 = (tidOf (K.visible dev ino t)).toInt32) :
    u = t :=
  K.visible_tid_inj hu ht (by simpa using congrArg Int32.toUInt32 h)

theorem Open.perCall_tid {ctrl : Open.Ctrl} {K : Kernel T} {t : T}
    (ht : K.visible ctrl.pidNsDev ctrl.pidNsIno t ≠ 0)
    (call : T × Open.EntryArgs n × Open.ExitArgs n) (e : Open.Event)
    (he : Open.perCall ctrl K call = some e) :
    decide (e.tid = (tidOf (K.visible ctrl.pidNsDev ctrl.pidNsIno t)).toInt32) = true ↔
      call.1 = t := by
  obtain ⟨hc, he⟩ := Option.ite_none_right_eq_some.mp he
  obtain rfl := Option.some.inj he
  have hu := (of_decide_eq_true hc.1).1
  rw [decide_eq_true_eq]
  constructor
  · exact toInt32_tidOf_inj ht hu
  · rintro rfl
    rfl

theorem ReadWrite.perCall_tid {ctrl : ReadWrite.Ctrl} {K : Kernel T} {t : T}
    (ht : K.visible ctrl.pidNsDev ctrl.pidNsIno t ≠ 0)
    (call : T × ReadWrite.EntryArgs n × ReadWrite.ExitArgs n) (e : ReadWrite.Event)
    (he : ReadWrite.perCall ctrl K call = some e) :
    decide (e.tid = (tidOf (K.visible ctrl.pidNsDev ctrl.pidNsIno t)).toInt32) = true ↔
      call.1 = t := by
  obtain ⟨hc, he⟩ := Option.ite_none_right_eq_some.mp he
  obtain rfl := Option.some.inj he
  have hu := (of_decide_eq_true hc.1).1
  rw [decide_eq_true_eq]
  constructor
  · exact toInt32_tidOf_inj ht hu
  · rintro rfl
    rfl

/-! ## Runs -/

variable [DecidableEq T]

theorem Open.rb_eq_perCall {ctrl : Open.Ctrl} (K : Kernel T) (hen : ctrl.enable = true)
    {es : List (CallLabel T (Open.EntryArgs n) (Open.ExitArgs n) UInt32)}
    (hv : (Open.machine n ctrl K).Valid es) (hev : ∀ l ∈ es, l.isEvict = false) :
    ((Open.machine n ctrl K).run es).1.rb =
      ((Open.machine n ctrl K).run es).2.calls.filterMap (Open.perCall ctrl K) := by
  have h := (Open.tracker n ctrl K).rb_eq_reports (Open.start_agrees ctrl)
    (Open.probe_agrees K hen) hv hev
  rwa [funext (Open.report_eq_perCall ctrl K)] at h

theorem Open.rb_of_thread {ctrl : Open.Ctrl} (K : Kernel T) (hen : ctrl.enable = true)
    {es : List (CallLabel T (Open.EntryArgs n) (Open.ExitArgs n) UInt32)}
    (hv : (Open.machine n ctrl K).Valid es) (hev : ∀ l ∈ es, l.isEvict = false) {t : T}
    (ht : K.visible ctrl.pidNsDev ctrl.pidNsIno t ≠ 0) :
    ((Open.machine n ctrl K).run es).1.rb.filter (fun e =>
        decide (e.tid = (tidOf (K.visible ctrl.pidNsDev ctrl.pidNsIno t)).toInt32)) =
      ((Open.machine n ctrl K).run (es.filter (·.isOf t))).1.rb := by
  refine (Open.tracker n ctrl K).rb_of_thread (Open.start_agrees ctrl)
    (Open.probe_agrees K hen) hv hev fun call e he => ?_
  rw [Open.report_eq_perCall] at he
  exact Open.perCall_tid ht call e he

theorem ReadWrite.rb_eq_perCall {ctrl : ReadWrite.Ctrl} (K : Kernel T) (hen : ctrl.enable = true)
    {es : List (CallLabel T (ReadWrite.EntryArgs n) (ReadWrite.ExitArgs n) UInt32)}
    (hv : (ReadWrite.machine n ctrl K).Valid es) (hev : ∀ l ∈ es, l.isEvict = false) :
    ((ReadWrite.machine n ctrl K).run es).1.rb =
      ((ReadWrite.machine n ctrl K).run es).2.calls.filterMap (ReadWrite.perCall ctrl K) := by
  have h := (ReadWrite.tracker n ctrl K).rb_eq_reports (ReadWrite.start_agrees ctrl)
    (ReadWrite.probe_agrees K hen) hv hev
  rwa [funext (ReadWrite.report_eq_perCall ctrl K)] at h

theorem ReadWrite.rb_of_thread {ctrl : ReadWrite.Ctrl} (K : Kernel T) (hen : ctrl.enable = true)
    {es : List (CallLabel T (ReadWrite.EntryArgs n) (ReadWrite.ExitArgs n) UInt32)}
    (hv : (ReadWrite.machine n ctrl K).Valid es) (hev : ∀ l ∈ es, l.isEvict = false) {t : T}
    (ht : K.visible ctrl.pidNsDev ctrl.pidNsIno t ≠ 0) :
    ((ReadWrite.machine n ctrl K).run es).1.rb.filter (fun e =>
        decide (e.tid = (tidOf (K.visible ctrl.pidNsDev ctrl.pidNsIno t)).toInt32)) =
      ((ReadWrite.machine n ctrl K).run (es.filter (·.isOf t))).1.rb := by
  refine (ReadWrite.tracker n ctrl K).rb_of_thread (ReadWrite.start_agrees ctrl)
    (ReadWrite.probe_agrees K hen) hv hev fun call e he => ?_
  rw [ReadWrite.report_eq_perCall] at he
  exact ReadWrite.perCall_tid ht call e he

/-- fs/open, fs/read and fs/write refine per-call reporting. In every run the
events are the reports of the finished calls, in the order of the exits; and the
events that carry a visible thread's TID are those of the run in which the other
threads do nothing. -/
theorem events_are_the_reports_of_the_calls (K : Kernel T) (n : ℕ) :
    (∀ ctrl : Open.Ctrl, ctrl.enable = true → ∀ es, (Open.machine n ctrl K).Valid es →
      (∀ l ∈ es, l.isEvict = false) →
      ((Open.machine n ctrl K).run es).1.rb =
          ((Open.machine n ctrl K).run es).2.calls.filterMap (Open.perCall ctrl K) ∧
        ∀ t, K.visible ctrl.pidNsDev ctrl.pidNsIno t ≠ 0 →
          ((Open.machine n ctrl K).run es).1.rb.filter (fun e =>
              decide (e.tid = (tidOf (K.visible ctrl.pidNsDev ctrl.pidNsIno t)).toInt32)) =
            ((Open.machine n ctrl K).run (es.filter (·.isOf t))).1.rb) ∧
    (∀ ctrl : ReadWrite.Ctrl, ctrl.enable = true → ∀ es,
      (ReadWrite.readMachine n ctrl K).Valid es → (∀ l ∈ es, l.isEvict = false) →
      ((ReadWrite.readMachine n ctrl K).run es).1.rb =
          ((ReadWrite.readMachine n ctrl K).run es).2.calls.filterMap
            (ReadWrite.perCall ctrl K) ∧
        ∀ t, K.visible ctrl.pidNsDev ctrl.pidNsIno t ≠ 0 →
          ((ReadWrite.readMachine n ctrl K).run es).1.rb.filter (fun e =>
              decide (e.tid = (tidOf (K.visible ctrl.pidNsDev ctrl.pidNsIno t)).toInt32)) =
            ((ReadWrite.readMachine n ctrl K).run (es.filter (·.isOf t))).1.rb) ∧
    (∀ ctrl : ReadWrite.Ctrl, ctrl.enable = true → ∀ es,
      (ReadWrite.writeMachine n ctrl K).Valid es → (∀ l ∈ es, l.isEvict = false) →
      ((ReadWrite.writeMachine n ctrl K).run es).1.rb =
          ((ReadWrite.writeMachine n ctrl K).run es).2.calls.filterMap
            (ReadWrite.perCall ctrl K) ∧
        ∀ t, K.visible ctrl.pidNsDev ctrl.pidNsIno t ≠ 0 →
          ((ReadWrite.writeMachine n ctrl K).run es).1.rb.filter (fun e =>
              decide (e.tid = (tidOf (K.visible ctrl.pidNsDev ctrl.pidNsIno t)).toInt32)) =
            ((ReadWrite.writeMachine n ctrl K).run (es.filter (·.isOf t))).1.rb) := by
  refine ⟨?_, ?_, ?_⟩
  · intro ctrl hen es hv hev
    exact ⟨Open.rb_eq_perCall K hen hv hev, fun t ht => Open.rb_of_thread K hen hv hev ht⟩
  · intro ctrl hen es hv hev
    rw [ReadWrite.readMachine_eq] at hv ⊢
    exact ⟨ReadWrite.rb_eq_perCall K hen hv hev,
      fun t ht => ReadWrite.rb_of_thread K hen hv hev ht⟩
  · intro ctrl hen es hv hev
    rw [ReadWrite.writeMachine_eq] at hv ⊢
    exact ⟨ReadWrite.rb_eq_perCall K hen hv hev,
      fun t ht => ReadWrite.rb_of_thread K hen hv hev ht⟩

/-- Two overlapping calls in each module: both are reported. -/
theorem events_of_two_overlapping_calls :
    let openCtrl : Open.Ctrl := ⟨true, 0, 0, 0, 0⟩
    let openRun : List (CallLabel (Fin 2) (Open.EntryArgs 2) (Open.ExitArgs 2) UInt32) :=
      [.enter 0 ⟨0, 10, 3, 0, some [47], false⟩, .enter 1 ⟨1, 20, 4, 1, none, false⟩,
        .leave 0 ⟨1, 30, 5, Vector.replicate _ 0, true⟩,
        .leave 1 ⟨0, 50, -2, Vector.replicate _ 0, true⟩]
    let rwCtrl : ReadWrite.Ctrl := ⟨true, 0, 0, 0, 0, 0⟩
    let rwRun : List (CallLabel (Fin 2) (ReadWrite.EntryArgs 2) (ReadWrite.ExitArgs 2) UInt32) :=
      [.enter 0 ⟨0, 10, 3, 64, Vector.replicate _ 0, none, false⟩,
        .enter 1 ⟨1, 20, 4, 128, Vector.replicate _ 0, none, false⟩,
        .leave 0 ⟨1, 30, 64, true⟩, .leave 1 ⟨0, 50, 7, true⟩]
    ((Open.machine 2 openCtrl Kernel.two).run openRun).1.rb.length = 2 ∧
      ((Open.machine 2 openCtrl Kernel.two).run openRun).1.rb =
        ((Open.machine 2 openCtrl Kernel.two).run openRun).2.calls.filterMap
          (Open.perCall openCtrl Kernel.two) ∧
      ((ReadWrite.readMachine 2 rwCtrl Kernel.two).run rwRun).1.rb =
        ((ReadWrite.readMachine 2 rwCtrl Kernel.two).run rwRun).2.calls.filterMap
          (ReadWrite.perCall rwCtrl Kernel.two) ∧
      ((ReadWrite.writeMachine 2 rwCtrl Kernel.two).run rwRun).1.rb.filter (fun e =>
          decide (e.tid = (tidOf (Kernel.two.visible 0 0 1)).toInt32)) =
        ((ReadWrite.writeMachine 2 rwCtrl Kernel.two).run (rwRun.filter (·.isOf 1))).1.rb := by
  intro openCtrl openRun rwCtrl rwRun
  obtain ⟨hopen, hread, hwrite⟩ := events_are_the_reports_of_the_calls Kernel.two 2
  refine ⟨by decide +kernel, ?_, ?_, ?_⟩
  · exact (hopen openCtrl rfl openRun (by decide +kernel) (by decide +kernel)).1
  · exact (hread rwCtrl rfl rwRun (by decide +kernel) (by decide +kernel)).1
  · exact (hwrite rwCtrl rfl rwRun (by decide +kernel) (by decide +kernel)).2 1 (by decide +kernel)

end EbpfToolbox.Fs
