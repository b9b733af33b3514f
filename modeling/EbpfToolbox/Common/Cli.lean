import EbpfToolbox.Lib.CString

/-!
# The command line

`common/cli.c` with the module table of `common/registry.h`. Every option takes an
argument, so the argument pointer is never null. `argp_error` prints its message and
terminates the program.
-/

namespace EbpfToolbox.Common

open Lib Lib.CString

/-- `enum app_mode`. -/
inductive AppMode where
  | unset
  | contextSwitch
  | preempt
  | syscall
  | tcpMonitor
  | msgqueue
  | mutexlock
  | fsOpen
  | fsRead
  | fsWrite
  | blockIo
  | drSnoop
  | oomKiller
  | slabRate
  | udpMonitor
deriving DecidableEq

def AppMode.toNat : AppMode → ℕ
  | .unset => 0
  | .contextSwitch => 1
  | .preempt => 2
  | .syscall => 3
  | .tcpMonitor => 4
  | .msgqueue => 5
  | .mutexlock => 6
  | .fsOpen => 7
  | .fsRead => 8
  | .fsWrite => 9
  | .blockIo => 10
  | .drSnoop => 11
  | .oomKiller => 12
  | .slabRate => 13
  | .udpMonitor => 14

/-- `1ULL << mode`. -/
def AppMode.bit (mode : AppMode) : UInt64 := 1 <<< UInt64.ofNat mode.toNat

/-- `struct module_entry`, less the `run` function. -/
structure ModuleEntry where
  name : CString
  mode : AppMode
deriving DecidableEq

/-- `MODULE_TABLE`. -/
def moduleTable : List ModuleEntry :=
  [⟨bytes "context", .contextSwitch⟩, ⟨bytes "preempt", .preempt⟩,
    ⟨bytes "mutexlock", .mutexlock⟩, ⟨bytes "msgqueue", .msgqueue⟩, ⟨bytes "syscall", .syscall⟩,
    ⟨bytes "fs_open", .fsOpen⟩, ⟨bytes "fs_read", .fsRead⟩, ⟨bytes "fs_write", .fsWrite⟩,
    ⟨bytes "block_io", .blockIo⟩, ⟨bytes "dr_snoop", .drSnoop⟩,
    ⟨bytes "oom_killer", .oomKiller⟩, ⟨bytes "slab_rate", .slabRate⟩,
    ⟨bytes "tcp_monitor", .tcpMonitor⟩, ⟨bytes "udp_monitor", .udpMonitor⟩]

/-- `MODULE_COUNT`. -/
def moduleCount : ℕ := moduleTable.length

/-- `build_mode_str`; the buffer has 512 bytes. -/
def buildModeStr : CString :=
  moduleTable.zipIdx.foldl
    (fun modes (m, i) =>
      let modes := if 0 < i then modes ++ bytes "|" else modes
      modes ++ m.name.take (511 - modes.length)) []

def findByName (name : CString) : Option ModuleEntry := moduleTable.find? fun m => m.name = name

/-- `struct app_options`. -/
structure AppOptions where
  mode : AppMode := .unset
  modeMask : UInt64 := 0
  pollTimeoutMs : Int32 := 100
  enable : Bool := true
  targetPid : Int32 := 0
  minDelayNs : UInt64 := 0
deriving DecidableEq

/-- How parsing fails: `argp_error` terminates the program, or `app_parse_args` returns
`-EINVAL`. -/
inductive ParseFailure where
  | argpError (msg : CString)
  | einval
deriving DecidableEq

abbrev Parsed (α : Type) : Type := Except ParseFailure α

def argpError {α : Type} (msg : CString) : Parsed α := .error (.argpError msg)

/-- `%ld`. -/
def ld (n : Int64) : CString := bytes (toString n.toInt)

def parseLongArg (name arg : CString) (min max : Int64) : Parsed Int64 :=
  let r := strtol arg
  if r.erange = true ∨ r.rest = arg ∨ r.rest ≠ [] ∨ r.value < min ∨ max < r.value then
    argpError (bytes "invalid " ++ name ++ bytes ": " ++ arg ++ bytes " (" ++ ld min ++
      bytes "-" ++ ld max ++ bytes ")")
  else .ok r.value

/-- The message of both checks of `parse_u64_arg`. -/
def invalidUnsigned (name arg : CString) : CString :=
  bytes "invalid " ++ name ++ bytes ": " ++ arg ++ bytes " (must be an unsigned integer)"

def parseU64Arg (name arg : CString) : Parsed UInt64 :=
  -- only the first byte is looked at
  if arg.head? = some 45 then argpError (invalidUnsigned name arg)
  else
    let r := strtoull arg
    if r.erange = true ∨ r.rest = arg ∨ r.rest ≠ [] then argpError (invalidUnsigned name arg)
    else .ok r.value

/-- The keys of `g_options`. -/
inductive OptKey where
  | mode
  | timeout
  | enable
  | pid
  | delay
deriving DecidableEq

/-- The body of the loop over the names of a `-m` argument. -/
def addMode (opts : AppOptions) (name : CString) : Parsed AppOptions :=
  match findByName name with
  | none =>
      argpError (bytes "invalid mode: " ++ name ++ bytes " (已支持: " ++ buildModeStr ++ bytes ")")
  | some m =>
      if 64 ≤ m.mode.toNat then argpError (bytes "mode id is too large: " ++ name)
      else
        .ok { opts with
          modeMask := opts.modeMask ||| m.mode.bit
          mode := if opts.mode = .unset then m.mode else opts.mode }

/-- The case `'m'` of `parse_opt`. -/
def parseModes (opts : AppOptions) (arg : CString) : Parsed AppOptions :=
  if 512 ≤ arg.length then
    argpError (bytes "invalid mode list (已支持: " ++ buildModeStr ++ bytes ")")
  else do
    let opts ← (tokens 44 arg).foldlM addMode opts
    if opts.modeMask = 0 then argpError (bytes "empty mode list") else .ok opts

def parseOpt (opts : AppOptions) (key : OptKey) (arg : CString) : Parsed AppOptions :=
  match key with
  | .mode => parseModes opts arg
  | .timeout => do
      let ms ← parseLongArg (bytes "timeout") arg 1 60000
      .ok { opts with pollTimeoutMs := ms.toInt32 }
  | .enable => do
      let on ← parseLongArg (bytes "enable") arg 0 1
      .ok { opts with enable := on = 1 }
  | .pid => do
      let pid ← parseLongArg (bytes "pid") arg 0 2147483647
      .ok { opts with targetPid := pid.toInt32 }
  | .delay => do
      let ns ← parseU64Arg (bytes "delay") arg
      .ok { opts with minDelayNs := ns }

/-- `app_parse_args` on the options in the order of the command line. -/
def appParseArgs (argv : List (OptKey × CString)) : Parsed AppOptions := do
  let opts ← argv.foldlM (fun opts a => parseOpt opts a.1 a.2) {}
  if opts.mode = .unset ∨ opts.modeMask = 0 then .error .einval else .ok opts

/-! ## Numeric options -/

theorem parseLongArg_eq_ok_iff (name s : CString) (min max v : Int64) :
    parseLongArg name s min max = .ok v ↔
      ∃ x : Numeral, x.text = s ∧ x.value = v.toInt ∧ min.toInt ≤ x.value ∧
        x.value ≤ max.toInt := by
  have hok : parseLongArg name s min max = .ok v ↔
      ((strtol s).Whole s ∧ (strtol s).value = v) ∧ min ≤ v ∧ v ≤ max := by
    unfold parseLongArg Strto.Whole
    by_cases hbad : (strtol s).erange = true ∨ (strtol s).rest = s ∨ (strtol s).rest ≠ [] ∨
        (strtol s).value < min ∨ max < (strtol s).value
    · simp only [if_pos hbad, argpError, reduceCtorEq, false_iff]
      rintro ⟨⟨⟨herange, hne, hnil⟩, rfl⟩, hmin, hmax⟩
      rcases hbad with h | h | h | h | h
      · rw [herange] at h
        cases h
      · exact hne h
      · exact h hnil
      · exact absurd hmin (Int64.not_le.2 h)
      · exact absurd hmax (Int64.not_le.2 h)
    · simp only [if_neg hbad, Except.ok.injEq]
      simp only [not_or, Bool.not_eq_true, not_not, Int64.not_lt] at hbad
      rcases hbad with ⟨herange, hne, hnil, hmin, hmax⟩
      constructor
      · rintro rfl
        exact ⟨⟨⟨herange, hne, hnil⟩, rfl⟩, hmin, hmax⟩
      · exact fun h => h.1.2
  rw [hok, strtol_whole_iff, Int64.le_iff_toInt_le, Int64.le_iff_toInt_le]
  constructor
  · rintro ⟨⟨x, hx, hv⟩, hmin, hmax⟩
    exact ⟨x, hx, hv, hv ▸ hmin, hv ▸ hmax⟩
  · rintro ⟨x, hx, hv, hmin, hmax⟩
    exact ⟨⟨x, hx, hv⟩, hv ▸ hmin, hv ▸ hmax⟩

theorem parseU64Arg_eq_ok_iff (name s : CString) (v : UInt64) :
    parseU64Arg name s = .ok v ↔
      s.head? ≠ some 45 ∧ ∃ x : Numeral, x.text = s ∧ x.magnitude < 2 ^ 64 ∧
        v = if x.sign = .minus then -.ofNat x.magnitude else .ofNat x.magnitude := by
  rw [← strtoull_whole_iff]
  unfold parseU64Arg Strto.Whole
  by_cases hminus : s.head? = some 45
  · simp [hminus, argpError]
  · rw [if_neg hminus]
    by_cases hbad : (strtoull s).erange = true ∨ (strtoull s).rest = s ∨ (strtoull s).rest ≠ []
    · simp only [if_pos hbad, argpError, reduceCtorEq, false_iff]
      rintro ⟨-, ⟨herange, hne, hnil⟩, -⟩
      rcases hbad with h | h | h
      · rw [herange] at h
        cases h
      · exact hne h
      · exact h hnil
    · simp only [if_neg hbad, Except.ok.injEq]
      simp only [not_or, Bool.not_eq_true, not_not] at hbad
      exact ⟨fun hv => ⟨hminus, hbad, hv⟩, fun h => h.2.2⟩

/-- The two parsers on the argument `s`: what `parse_u64_arg` accepts has no minus sign and
is below `2 ^ 64`, every such number is accepted, and `parse_long_arg` accepts exactly the
numbers between its bounds. -/
structure NumbersExact (name s : CString) : Prop where
  u64 : ∀ v, parseU64Arg name s = .ok v → ∃ x : Numeral, x.text = s ∧ x.sign ≠ .minus ∧
    x.magnitude < 2 ^ 64 ∧ v.toNat = x.magnitude
  u64_accepts : ∀ x : Numeral, x.text = s → x.sign ≠ .minus → x.magnitude < 2 ^ 64 →
    parseU64Arg name s = .ok (.ofNat x.magnitude)
  long : ∀ min max v, parseLongArg name s min max = .ok v ↔ ∃ x : Numeral, x.text = s ∧
    x.value = v.toInt ∧ min.toInt ≤ x.value ∧ x.value ≤ max.toInt

/-- White space, then a minus sign, then a number below `2 ^ 64`. -/
def SpacedMinus (s : CString) : Prop :=
  ∃ x : Numeral, x.text = s ∧ x.space ≠ [] ∧ x.sign = .minus ∧ x.magnitude < 2 ^ 64

/-- The check of the first byte misses a minus sign behind white space, and nothing else. -/
theorem numbersExact_iff (name s : CString) : NumbersExact name s ↔ ¬SpacedMinus s := by
  constructor
  · rintro h ⟨x, rfl, hspace, hminus, hlt⟩
    have hhead : x.text.head? ≠ some 45 := fun hh => hspace (x.head?_eq_minus_iff.1 hh).1
    obtain ⟨y, hy, hsign, -⟩ := h.u64 _
      ((parseU64Arg_eq_ok_iff name x.text _).2 ⟨hhead, x, rfl, hlt, rfl⟩)
    have hscan : scan y.text = scan x.text := by rw [hy]
    rw [scan_numeral, scan_numeral] at hscan
    exact hsign ((congrArg Prod.fst hscan).trans hminus)
  · intro h
    refine ⟨?_, ?_, parseLongArg_eq_ok_iff name s⟩
    · intro v hv
      obtain ⟨hhead, x, hx, hlt, hval⟩ := (parseU64Arg_eq_ok_iff name s v).1 hv
      have hsign : x.sign ≠ .minus := by
        intro hminus
        have hspace : x.space ≠ [] := by
          intro hnil
          exact hhead (hx ▸ x.head?_eq_minus_iff.2 ⟨hnil, hminus⟩)
        exact h ⟨x, hx, hspace, hminus, hlt⟩
      refine ⟨x, hx, hsign, hlt, ?_⟩
      rw [hval, if_neg hsign]
      exact UInt64.toNat_ofNat_of_lt' hlt
    · intro x hx hsign hlt
      refine (parseU64Arg_eq_ok_iff name s _).2 ⟨?_, x, hx, hlt, by rw [if_neg hsign]⟩
      intro hhead
      exact hsign (x.head?_eq_minus_iff.1 (hx ▸ hhead)).2

/-- `-d " -1"` sets the threshold to the largest number there is. -/
theorem spaced_minus_one_is_accepted :
    parseU64Arg (bytes "delay") (bytes " -1") = .ok 18446744073709551615 ∧
      ¬NumbersExact (bytes "delay") (bytes " -1") := by
  have hok : parseU64Arg (bytes "delay") (bytes " -1") = .ok 18446744073709551615 := by
    decide +kernel
  refine ⟨hok, fun h => ?_⟩
  obtain ⟨x, hx, hsign, -⟩ := h.u64 _ hok
  have hscan : (scan (bytes " -1")).1 = .minus := by decide +kernel
  rw [← hx, scan_numeral] at hscan
  exact hsign hscan

end EbpfToolbox.Common
