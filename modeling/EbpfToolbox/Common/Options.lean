import EbpfToolbox.Common.Selection

/-!
# A whole command line

`app_parse_args` reads the options one after the other into one `struct app_options`. The
numbers of `-e`, `-p` and `-d` replace what an earlier occurrence wrote, so the last one
counts; the names of `-m` add up.
-/

namespace EbpfToolbox.Common

open Lib Lib.CString

/-- The argument of the last occurrence of an option. -/
def lastArg (key : OptKey) (argv : List (OptKey × CString)) : Option CString :=
  argv.foldl (fun last a => if a.1 = key then some a.2 else last) none

/-- The arguments of all occurrences. -/
def argsOf (key : OptKey) (argv : List (OptKey × CString)) : List CString :=
  argv.filterMap fun a => if a.1 = key then some a.2 else none

@[simp] theorem lastArg_nil (key : OptKey) : lastArg key [] = none := rfl

@[simp] theorem lastArg_snoc (key : OptKey) (argv : List (OptKey × CString))
    (a : OptKey × CString) :
    lastArg key (argv ++ [a]) = if a.1 = key then some a.2 else lastArg key argv := by
  rw [lastArg, List.foldl_append]
  rfl

@[simp] theorem argsOf_snoc (key : OptKey) (argv : List (OptKey × CString))
    (a : OptKey × CString) :
    argsOf key (argv ++ [a]) = argsOf key argv ++ if a.1 = key then [a.2] else [] := by
  rw [argsOf, List.filterMap_append]
  congr 1
  split_ifs with h
  · simp [h]
  · simp [h]

/-! ## What the numbers mean -/

/-- `-e`: one is on, zero is off. -/
def ReadsEnable (s : CString) (on : Bool) : Prop :=
  ∃ x : Numeral, x.text = s ∧ (x.value = 0 ∨ x.value = 1) ∧ (on = true ↔ x.value = 1)

/-- `-p`: a number that fits a `pid_t`. -/
def ReadsPid (s : CString) (pid : Int32) : Prop :=
  ∃ x : Numeral, x.text = s ∧ 0 ≤ x.value ∧ x.value = pid.toInt

/-- `-d`: a number of nanoseconds, unless a minus sign hides behind white space. -/
def ReadsDelay (s : CString) (ns : UInt64) : Prop :=
  ¬SpacedMinus s → ∃ x : Numeral, x.text = s ∧ x.magnitude = ns.toNat

theorem parseEnable_reads {s : CString} {v : Int64}
    (h : parseLongArg (bytes "enable") s 0 1 = .ok v) : ReadsEnable s (v = 1) := by
  obtain ⟨x, hx, hval, hmin, hmax⟩ := (parseLongArg_eq_ok_iff _ _ _ _ _).1 h
  have hzero : (0 : Int64).toInt = 0 := by decide
  have hone : (1 : Int64).toInt = 1 := by decide
  rw [hzero] at hmin
  rw [hone] at hmax
  refine ⟨x, hx, by omega, ?_⟩
  rw [decide_eq_true_eq, ← Int64.toInt_inj, ← hval, hone]

theorem parsePid_reads {s : CString} {v : Int64}
    (h : parseLongArg (bytes "pid") s 0 2147483647 = .ok v) : ReadsPid s v.toInt32 := by
  obtain ⟨x, hx, hval, hmin, hmax⟩ := (parseLongArg_eq_ok_iff _ _ _ _ _).1 h
  have hzero : (0 : Int64).toInt = 0 := by decide
  have hlast : (2147483647 : Int64).toInt = 2147483647 := by decide
  rw [hzero] at hmin
  rw [hlast] at hmax
  refine ⟨x, hx, hmin, ?_⟩
  have hfits : x.value.bmod (2 ^ 32) = x.value := Int.bmod_eq_of_le (by omega) (by omega)
  rw [Int64.toInt_toInt32, ← hval, hfits]

theorem parseDelay_reads {s : CString} {ns : UInt64}
    (h : parseU64Arg (bytes "delay") s = .ok ns) : ReadsDelay s ns := by
  intro hminus
  obtain ⟨x, hx, -, -, hval⟩ := ((numbersExact_iff (bytes "delay") s).2 hminus).u64 ns h
  exact ⟨x, hx, hval.symm⟩

/-! ## What the options say -/

/-- The last argument was read to `v`; without one `v` is the default. -/
def Decides {α : Type} (last : Option CString) (default : α) (Reads : CString → α → Prop) (v : α) :
    Prop :=
  match last with
  | none => v = default
  | some s => Reads s v

/-- The options are those of the command line. -/
structure Says (argv : List (OptKey × CString)) (o : AppOptions) : Prop where
  enable : Decides (lastArg .enable argv) true ReadsEnable o.enable
  pid : Decides (lastArg .pid argv) 0 ReadsPid o.targetPid
  delay : Decides (lastArg .delay argv) 0 ReadsDelay o.minDelayNs
  modes : ∀ row ∈ moduleTable,
    o.modeMask &&& row.mode.bit ≠ 0 ↔ Named (argsOf .mode argv) row.name

theorem named_nil (name : CString) : ¬Named [] name := by
  rintro ⟨arg, harg, -⟩
  cases harg

theorem named_append {args args' : List CString} {name : CString} :
    Named (args ++ args') name ↔ Named args name ∨ Named args' name := by
  simp [Named, or_and_right, exists_or]

theorem says_nil : Says [] {} where
  enable := rfl
  pid := rfl
  delay := rfl
  modes row _ := by
    have hzero : ({} : AppOptions).modeMask &&& row.mode.bit = 0 := UInt64.zero_and
    simpa [hzero, argsOf] using named_nil row.name

/-- An option that only sets its own field. -/
theorem Says.modes_snoc {argv : List (OptKey × CString)} {opts o : AppOptions} (h : Says argv opts)
    {a : OptKey × CString} (ha : a.1 ≠ .mode) (hmask : o.modeMask = opts.modeMask) :
    ∀ row ∈ moduleTable,
      o.modeMask &&& row.mode.bit ≠ 0 ↔ Named (argsOf .mode (argv ++ [a])) row.name := by
  intro row hrow
  rw [argsOf_snoc, if_neg ha, List.append_nil, hmask]
  exact h.modes row hrow

theorem Says.parseModes {argv : List (OptKey × CString)} {opts o : AppOptions}
    (h : Says argv opts) {arg : CString} (hok : parseModes opts arg = .ok o) :
    Says (argv ++ [(.mode, arg)]) o := by
  obtain ⟨-, rfl, -⟩ := parseModes_eq_ok_iff.1 hok
  have hkeep : ∀ rows : List ModuleEntry, (rows.foldl addRow opts).enable = opts.enable ∧
      (rows.foldl addRow opts).targetPid = opts.targetPid ∧
      (rows.foldl addRow opts).minDelayNs = opts.minDelayNs := by
    intro rows
    induction rows using List.reverseRecOn with
    | nil => exact ⟨rfl, rfl, rfl⟩
    | append_singleton rows row ih => simpa [List.foldl_append, addRow] using ih
  obtain ⟨henable, hpid, hdelay⟩ := hkeep (namedRows (tokens 44 arg))
  refine ⟨?_, ?_, ?_, fun row hrow => ?_⟩
  · rw [lastArg_snoc, henable]
    exact h.enable
  · rw [lastArg_snoc, hpid]
    exact h.pid
  · rw [lastArg_snoc, hdelay]
    exact h.delay
  · rw [argsOf_snoc, if_pos rfl, named_append, ← h.modes row hrow, ne_eq,
      foldl_addRow_bit (namedRows_subset _) opts hrow]
    have hnamed : row ∈ namedRows (tokens 44 arg) ↔ Named [arg] row.name := by
      have hrows : row ∈ rowsOf [arg] ↔ row ∈ moduleTable ∧ Named [arg] row.name := mem_rowsOf_iff
      simpa [rowsOf, hrow] using hrows
    rw [← hnamed]
    tauto

theorem Says.parseOpt {argv : List (OptKey × CString)} {opts o : AppOptions} (h : Says argv opts)
    {a : OptKey × CString} (hok : parseOpt opts a.1 a.2 = .ok o) : Says (argv ++ [a]) o := by
  obtain ⟨key, arg⟩ := a
  cases key with
  | mode => exact h.parseModes hok
  | timeout =>
      obtain ⟨ms, -, hms⟩ := bind_eq_ok_iff.1 hok
      obtain rfl := Except.ok.inj hms
      exact ⟨by simpa using h.enable, by simpa using h.pid, by simpa using h.delay,
        h.modes_snoc (by simp) rfl⟩
  | enable =>
      obtain ⟨on, hon, ho⟩ := bind_eq_ok_iff.1 hok
      obtain rfl := Except.ok.inj ho
      refine ⟨?_, by simpa using h.pid, by simpa using h.delay, h.modes_snoc (by simp) rfl⟩
      simpa [Decides] using parseEnable_reads hon
  | pid =>
      obtain ⟨pid, hpid, ho⟩ := bind_eq_ok_iff.1 hok
      obtain rfl := Except.ok.inj ho
      refine ⟨by simpa using h.enable, ?_, by simpa using h.delay, h.modes_snoc (by simp) rfl⟩
      simpa [Decides] using parsePid_reads hpid
  | delay =>
      obtain ⟨ns, hns, ho⟩ := bind_eq_ok_iff.1 hok
      obtain rfl := Except.ok.inj ho
      refine ⟨by simpa using h.enable, by simpa using h.pid, ?_, h.modes_snoc (by simp) rfl⟩
      simpa [Decides] using parseDelay_reads hns

/-- The loop of `argp_parse`: the last number of an option counts, the names add up. -/
theorem says_of_foldlM {argv : List (OptKey × CString)} {o : AppOptions}
    (h : argv.foldlM (fun opts a => parseOpt opts a.1 a.2) {} = .ok o) : Says argv o := by
  induction argv using List.reverseRecOn generalizing o with
  | nil =>
      obtain rfl := Except.ok.inj h
      exact says_nil
  | append_singleton argv a ih =>
      rw [List.foldlM_append] at h
      obtain ⟨opts, hopts, hlast⟩ := bind_eq_ok_iff.1 h
      rw [List.foldlM_cons] at hlast
      obtain ⟨o', ho', hend⟩ := bind_eq_ok_iff.1 hlast
      obtain rfl := Except.ok.inj hend
      exact (ih hopts).parseOpt ho'

theorem says_of_ok {argv : List (OptKey × CString)} {o : AppOptions}
    (h : appParseArgs argv = .ok o) : Says argv o := by
  obtain ⟨o', ho', hend⟩ := bind_eq_ok_iff.1 h
  split_ifs at hend
  obtain rfl := Except.ok.inj hend
  exact says_of_foldlM ho'

/-- `main` starts the rows of the table with a set bit. -/
theorem mem_startedModules_iff {o : AppOptions} {row : ModuleEntry} :
    some row ∈ startedModules o ↔ row ∈ moduleTable ∧ o.modeMask &&& row.mode.bit ≠ 0 := by
  have hloop := selectModules_loop (fun row => o.modeMask &&& row.mode.bit = 0) moduleTable
    (Vector.replicate moduleCount none) 0 (by simp [moduleCount])
  rw [startedModules, selectModules, hloop.1, Buffer.used_zero, List.nil_append]
  simp

end EbpfToolbox.Common
