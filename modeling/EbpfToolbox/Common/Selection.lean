import EbpfToolbox.Common.Cli
import EbpfToolbox.Lib.Buffer

/-!
# Which modules are started

The `-m` options collect a bit per named module, and `main` turns the bits back into rows
of the module table. Between the two the names only matter as a set.
-/

namespace EbpfToolbox.Common

open Lib Lib.CString

/-- The loop of `main` over the table: the rows whose bit is set go to `threads`, from the
front, and `count` is their number. -/
def selectModules (opts : AppOptions) : Vector (Option ModuleEntry) moduleCount × ℕ :=
  moduleTable.foldl
    (fun s row =>
      if opts.modeMask &&& row.mode.bit = 0 then s
      else (Buffer.store s.1 s.2 (some row), s.2 + 1))
    (Vector.replicate moduleCount none, 0)

/-- The `module` pointers of `threads[0 .. count - 1]`. -/
def startedModules (opts : AppOptions) : List (Option ModuleEntry) :=
  Buffer.used (selectModules opts).1 (selectModules opts).2

/-- The name stands in one of the arguments, between commas. -/
def Named (args : List CString) (name : CString) : Prop := ∃ arg ∈ args, IsPiece 44 arg name

theorem named_iff {args : List CString} {name : CString} :
    Named args name ↔ name ∈ args.flatMap (tokens 44) := by
  simp only [Named, List.mem_flatMap, mem_tokens_iff]

instance (args : List CString) (name : CString) : Decidable (Named args name) :=
  decidable_of_iff _ named_iff.symm

/-! ## The table -/

theorem findByName_row : ∀ row ∈ moduleTable, findByName row.name = some row := by
  decide +kernel

theorem bit_and_bit : ∀ row ∈ moduleTable, ∀ row' ∈ moduleTable,
    (row.mode.bit &&& row'.mode.bit = 0 ↔ row ≠ row') := by
  decide +kernel

theorem mode_in_range : ∀ row ∈ moduleTable, row.mode ≠ .unset ∧ row.mode.toNat < 64 := by
  decide +kernel

theorem moduleTable_nodup : moduleTable.Nodup := by
  decide +kernel

theorem findByName_eq_some_iff {name : CString} {row : ModuleEntry} :
    findByName name = some row ↔ row ∈ moduleTable ∧ row.name = name := by
  constructor
  · intro h
    exact ⟨List.mem_of_find?_eq_some h, by simpa using List.find?_some h⟩
  · rintro ⟨hrow, rfl⟩
    exact findByName_row row hrow

/-- The name of a row of the table. -/
def IsModuleName (name : CString) : Prop := ∃ row ∈ moduleTable, row.name = name

/-! ## What the options add up to -/

/-- A named module, added to the options. -/
def addRow (opts : AppOptions) (row : ModuleEntry) : AppOptions :=
  { opts with
    modeMask := opts.modeMask ||| row.mode.bit
    mode := if opts.mode = .unset then row.mode else opts.mode }

theorem addMode_eq_ok_iff {opts o : AppOptions} {name : CString} :
    addMode opts name = .ok o ↔ ∃ row, findByName name = some row ∧ o = addRow opts row := by
  unfold addMode
  cases hfind : findByName name with
  | none => simp [argpError]
  | some row =>
      have hlt := (mode_in_range row (findByName_eq_some_iff.1 hfind).1).2
      simp only [if_neg (Nat.not_le.2 hlt), Except.ok.injEq, Option.some.injEq, exists_eq_left']
      exact eq_comm

/-- The rows that the names of an argument list stand for, in order, with repetitions. -/
def namedRows (names : List CString) : List ModuleEntry := names.filterMap findByName

theorem bind_eq_ok_iff {α β : Type} {x : Parsed α} {f : α → Parsed β} {b : β} :
    x >>= f = .ok b ↔ ∃ a, x = .ok a ∧ f a = .ok b := by
  cases x with
  | error e => simp [Bind.bind, Except.bind]
  | ok a => simp [Bind.bind, Except.bind]

theorem foldlM_addMode_eq_ok_iff {opts o : AppOptions} {names : List CString} :
    names.foldlM addMode opts = .ok o ↔
      (∀ name ∈ names, IsModuleName name) ∧ o = (namedRows names).foldl addRow opts := by
  induction names generalizing opts with
  | nil =>
      simp only [List.foldlM_nil, List.not_mem_nil, false_imp_iff, implies_true, true_and]
      exact ⟨fun h => (Except.ok.inj h).symm, fun h => congrArg Except.ok h.symm⟩
  | cons name names ih =>
      rw [List.foldlM_cons, List.forall_mem_cons, bind_eq_ok_iff]
      simp only [addMode_eq_ok_iff, ih]
      constructor
      · rintro ⟨o', ⟨row, hfind, rfl⟩, hnames, rfl⟩
        refine ⟨⟨⟨row, findByName_eq_some_iff.1 hfind⟩, hnames⟩, ?_⟩
        rw [namedRows, namedRows, List.filterMap_cons, hfind]
        rfl
      · rintro ⟨⟨⟨row, hrow⟩, hnames⟩, rfl⟩
        have hfind := findByName_eq_some_iff.2 hrow
        refine ⟨_, ⟨row, hfind, rfl⟩, hnames, ?_⟩
        rw [namedRows, namedRows, List.filterMap_cons, hfind]
        rfl

/-- The argument list is short enough and names modules only. -/
def ValidArg (arg : CString) : Prop :=
  arg.length < 512 ∧ ∀ name, IsPiece 44 arg name → IsModuleName name

theorem parseModes_eq_ok_iff {opts o : AppOptions} {arg : CString} :
    parseModes opts arg = .ok o ↔
      ValidArg arg ∧ o = (namedRows (tokens 44 arg)).foldl addRow opts ∧ o.modeMask ≠ 0 := by
  unfold parseModes ValidArg
  by_cases hlen : 512 ≤ arg.length
  · simp [hlen, argpError, Nat.not_lt.2 hlen]
  · rw [if_neg hlen, bind_eq_ok_iff]
    simp only [foldlM_addMode_eq_ok_iff, mem_tokens_iff, Nat.lt_of_not_le hlen, true_and]
    constructor
    · rintro ⟨o', ⟨hnames, rfl⟩, hmask⟩
      split_ifs at hmask with hzero
      · cases hmask
      · obtain rfl := Except.ok.inj hmask
        exact ⟨hnames, rfl, hzero⟩
    · rintro ⟨hnames, rfl, hmask⟩
      exact ⟨_, ⟨hnames, rfl⟩, by rw [if_neg hmask]⟩

theorem namedRows_subset (names : List CString) : ∀ row ∈ namedRows names, row ∈ moduleTable := by
  intro row hrow
  obtain ⟨name, -, hfind⟩ := List.mem_filterMap.1 hrow
  exact (findByName_eq_some_iff.1 hfind).1

theorem or_and_eq_zero_iff (x y z : UInt64) : (x ||| y) &&& z = 0 ↔ x &&& z = 0 ∧ y &&& z = 0 := by
  have hdistrib : (x ||| y) &&& z = (x &&& z) ||| (y &&& z) := by
    apply UInt64.toBitVec_inj.1
    ext i hi
    simp [Bool.and_or_distrib_right]
  rw [hdistrib, UInt64.or_eq_zero_iff]

/-- A bit is set by the row it belongs to. -/
theorem foldl_addRow_bit {rows : List ModuleEntry} (hrows : ∀ row ∈ rows, row ∈ moduleTable)
    (opts : AppOptions) {row : ModuleEntry} (hrow : row ∈ moduleTable) :
    (rows.foldl addRow opts).modeMask &&& row.mode.bit = 0 ↔
      opts.modeMask &&& row.mode.bit = 0 ∧ row ∉ rows := by
  induction rows generalizing opts with
  | nil => simp
  | cons r rows ih =>
      obtain ⟨hr, hrest⟩ := List.forall_mem_cons.1 hrows
      have hbit := bit_and_bit r hr row hrow
      rw [List.foldl_cons, ih hrest, List.mem_cons, not_or, ← and_assoc]
      have hor : (addRow opts r).modeMask &&& row.mode.bit = 0 ↔
          opts.modeMask &&& row.mode.bit = 0 ∧ r ≠ row := by
        rw [← hbit]
        exact or_and_eq_zero_iff _ _ _
      rw [hor, ne_comm]

theorem foldl_addRow_mask_ne_zero {rows : List ModuleEntry}
    (hrows : ∀ row ∈ rows, row ∈ moduleTable) (opts : AppOptions) :
    (rows.foldl addRow opts).modeMask ≠ 0 ↔ opts.modeMask ≠ 0 ∨ rows ≠ [] := by
  induction rows generalizing opts with
  | nil => simp
  | cons r rows ih =>
      obtain ⟨hr, hrest⟩ := List.forall_mem_cons.1 hrows
      have hbit : r.mode.bit ≠ 0 := by
        intro hzero
        exact (bit_and_bit r hr r hr).1 (by rw [hzero]; rfl) rfl
      rw [List.foldl_cons, ih hrest]
      simp [addRow, hbit]

/-- The mode is set once, by the first row. -/
theorem foldl_addRow_mode {rows : List ModuleEntry} {opts : AppOptions}
    (hmode : opts.mode ≠ .unset) : (rows.foldl addRow opts).mode = opts.mode := by
  induction rows generalizing opts with
  | nil => rfl
  | cons r rows ih =>
      have hkeep : (addRow opts r).mode = opts.mode := by simp [addRow, hmode]
      rw [List.foldl_cons, ih (hkeep ▸ hmode), hkeep]

/-! ## All -m options together -/

/-- The rows that the arguments name, in order, with repetitions. -/
def rowsOf (args : List CString) : List ModuleEntry := namedRows (args.flatMap (tokens 44))

theorem mem_rowsOf_iff {args : List CString} {row : ModuleEntry} :
    row ∈ rowsOf args ↔ row ∈ moduleTable ∧ Named args row.name := by
  simp only [rowsOf, namedRows, List.mem_filterMap, findByName_eq_some_iff, named_iff]
  constructor
  · rintro ⟨name, hname, hrow, rfl⟩
    exact ⟨hrow, hname⟩
  · rintro ⟨hrow, hname⟩
    exact ⟨row.name, hname, hrow, rfl⟩

theorem foldl_rowsOf_cons (arg : CString) (args : List CString) (opts : AppOptions) :
    (rowsOf (arg :: args)).foldl addRow opts =
      (rowsOf args).foldl addRow ((namedRows (tokens 44 arg)).foldl addRow opts) := by
  rw [rowsOf, rowsOf, List.flatMap_cons, namedRows, List.filterMap_append, List.foldl_append]
  rfl

/-- Once a module is named, an argument is accepted when it is valid. -/
theorem foldlM_parseModes_eq_ok_iff {args : List CString} {opts o : AppOptions}
    (hmask : opts.modeMask ≠ 0) :
    args.foldlM parseModes opts = .ok o ↔
      (∀ arg ∈ args, ValidArg arg) ∧ o = (rowsOf args).foldl addRow opts := by
  induction args generalizing opts with
  | nil =>
      simp only [List.foldlM_nil, List.not_mem_nil, false_imp_iff, implies_true, true_and]
      exact ⟨fun h => (Except.ok.inj h).symm, fun h => congrArg Except.ok h.symm⟩
  | cons arg args ih =>
      have hkeep : ((namedRows (tokens 44 arg)).foldl addRow opts).modeMask ≠ 0 :=
        (foldl_addRow_mask_ne_zero (namedRows_subset _) opts).2 (Or.inl hmask)
      rw [List.foldlM_cons, List.forall_mem_cons, bind_eq_ok_iff, foldl_rowsOf_cons]
      simp only [parseModes_eq_ok_iff]
      constructor
      · rintro ⟨o', ⟨hvalid, rfl, -⟩, hrest⟩
        obtain ⟨hargs, rfl⟩ := (ih hkeep).1 hrest
        exact ⟨⟨hvalid, hargs⟩, rfl⟩
      · rintro ⟨⟨hvalid, hargs⟩, rfl⟩
        exact ⟨_, ⟨hvalid, rfl, hkeep⟩, (ih hkeep).2 ⟨hargs, rfl⟩⟩

/-- The command line with these `-m` options only. -/
def modeArgs (args : List CString) : List (OptKey × CString) := args.map fun arg => (.mode, arg)

/-- The first name of a valid argument gives the first row, and the mode. -/
theorem exists_first_row {first : CString} {name : CString} {names : List CString}
    (hvalid : ValidArg first) (htokens : tokens 44 first = name :: names) (rest : List CString) :
    ∃ row ∈ moduleTable, row.name = name ∧ namedRows (tokens 44 first) = row :: namedRows names ∧
      ((rowsOf (first :: rest)).foldl addRow {}).mode = row.mode := by
  have hpiece : IsPiece 44 first name := by
    rw [← mem_tokens_iff, htokens]
    exact List.mem_cons_self
  obtain ⟨row, hrow, hname⟩ := hvalid.2 name hpiece
  have hrows : namedRows (tokens 44 first) = row :: namedRows names := by
    rw [htokens, namedRows, List.filterMap_cons, findByName_eq_some_iff.2 ⟨hrow, hname⟩]
    rfl
  refine ⟨row, hrow, hname, hrows, ?_⟩
  have hmode : (addRow {} row).mode = row.mode := rfl
  have hne := (mode_in_range row hrow).1
  rw [foldl_rowsOf_cons, hrows, List.foldl_cons, foldl_addRow_mode, foldl_addRow_mode]
  · exact hmode
  · rwa [hmode]
  · rw [foldl_addRow_mode]
    · rwa [hmode]
    · rwa [hmode]

theorem appParseArgs_eq_ok_iff {first : CString} {rest : List CString} {o : AppOptions} :
    appParseArgs (modeArgs (first :: rest)) = .ok o ↔
      (∀ arg ∈ first :: rest, ValidArg arg) ∧ tokens 44 first ≠ [] ∧
        o = (rowsOf (first :: rest)).foldl addRow {} := by
  have hfold : ∀ args opts, (modeArgs args).foldlM (fun opts a => parseOpt opts a.1 a.2) opts =
      args.foldlM parseModes opts := by
    intro args opts
    rw [modeArgs, List.foldlM_map]
    rfl
  have hmask : ((namedRows (tokens 44 first)).foldl addRow {}).modeMask ≠ 0 ↔
      namedRows (tokens 44 first) ≠ [] := by
    rw [foldl_addRow_mask_ne_zero (namedRows_subset _)]
    simp
  unfold appParseArgs
  rw [bind_eq_ok_iff, hfold, List.foldlM_cons]
  simp only [bind_eq_ok_iff, parseModes_eq_ok_iff]
  constructor
  · rintro ⟨o', ⟨o'', ⟨hvalid, rfl, hne⟩, hrest⟩, hend⟩
    obtain ⟨hargs, rfl⟩ := (foldlM_parseModes_eq_ok_iff hne).1 hrest
    have htokens : tokens 44 first ≠ [] := by
      intro hnil
      rw [hnil] at hmask
      exact hmask.1 (hnil ▸ hne) rfl
    rw [← foldl_rowsOf_cons] at hend
    split_ifs at hend
    exact ⟨List.forall_mem_cons.2 ⟨hvalid, hargs⟩, htokens, (Except.ok.inj hend).symm⟩
  · rintro ⟨hvalid, hne, rfl⟩
    obtain ⟨hfirst, hargs⟩ := List.forall_mem_cons.1 hvalid
    obtain ⟨name, names, htokens⟩ := List.exists_cons_of_ne_nil hne
    obtain ⟨row, hrow, -, hrows, hmode⟩ := exists_first_row hfirst htokens rest
    have hne' := hmask.2 (by simp [hrows])
    refine ⟨_, ⟨_, ⟨hfirst, rfl, hne'⟩, (foldlM_parseModes_eq_ok_iff hne').2 ⟨hargs, rfl⟩⟩, ?_⟩
    rw [← foldl_rowsOf_cons, if_neg]
    rintro (hunset | hzero)
    · exact (mode_in_range row hrow).1 (hmode.symm.trans hunset)
    · rw [foldl_rowsOf_cons] at hzero
      exact (foldl_addRow_mask_ne_zero (namedRows_subset _) _).2 (Or.inl hne') hzero

/-! ## Back from the bits to the rows -/

/-- The loop of `main` keeps the rows with a set bit; the stores stay inside the array. -/
theorem selectModules_loop (test : ModuleEntry → Prop) [DecidablePred test]
    (rows : List ModuleEntry) (v : Vector (Option ModuleEntry) moduleCount) (k : ℕ)
    (hroom : k + rows.length ≤ moduleCount) :
    let s := rows.foldl (fun s row => if test row then s
      else (Buffer.store s.1 s.2 (some row), s.2 + 1)) (v, k)
    Buffer.used s.1 s.2 = Buffer.used v k ++ (rows.filter (¬test ·)).map some ∧
      s.2 ≤ k + rows.length := by
  induction rows generalizing v k with
  | nil => simp
  | cons row rows ih =>
      rw [List.length_cons] at hroom
      simp only [List.foldl_cons]
      by_cases htest : test row
      · rw [if_pos htest]
        obtain ⟨hused, hle⟩ := ih v k (by omega)
        refine ⟨?_, by rw [List.length_cons]; omega⟩
        rw [hused, List.filter_cons_of_neg (by simpa using htest)]
      · rw [if_neg htest]
        obtain ⟨hused, hle⟩ := ih (Buffer.store v k (some row)) (k + 1) (by omega)
        refine ⟨?_, by rw [List.length_cons]; omega⟩
        rw [hused, Buffer.used_succ_store v (some row) (by omega),
          List.filter_cons_of_pos (by simpa using htest)]
        simp

/-- `main` starts the rows that the arguments name, in the order of the table. -/
theorem startedModules_eq (args : List CString) :
    startedModules ((rowsOf args).foldl addRow {}) =
        (moduleTable.filter fun row => Named args row.name).map some ∧
      (selectModules ((rowsOf args).foldl addRow {})).2 ≤ moduleCount := by
  set opts := (rowsOf args).foldl addRow {} with hopts
  have hloop := selectModules_loop (fun row => opts.modeMask &&& row.mode.bit = 0) moduleTable
    (Vector.replicate moduleCount none) 0 (by simp [moduleCount])
  have hlen : 0 + moduleTable.length = moduleCount := Nat.zero_add _
  refine ⟨?_, Nat.le_trans hloop.2 (Nat.le_of_eq hlen)⟩
  rw [startedModules, selectModules, hloop.1, Buffer.used_zero, List.nil_append]
  congr 1
  apply List.filter_congr
  intro row hrow
  have hbit := foldl_addRow_bit (namedRows_subset (args.flatMap (tokens 44))) {} hrow
  simp only [decide_eq_decide]
  rw [hopts, rowsOf, hbit, ← rowsOf, mem_rowsOf_iff]
  simp [hrow]

/-! ## Selection -/

/-- **Module selection.** A non-empty sequence of `-m` arguments is accepted exactly when
every argument has less than 512 bytes and names modules only, and the first one names at
least one. Then the mode is the one of the first name, and `main` starts the named modules,
each once, in the order of the table. What is started depends on the set of names alone. -/
theorem module_selection (first : CString) (rest : List CString) :
    ((∃ o, appParseArgs (modeArgs (first :: rest)) = .ok o) ↔
      (∀ arg ∈ first :: rest, arg.length < 512) ∧
      (∀ arg ∈ first :: rest, ∀ name, IsPiece 44 arg name → IsModuleName name) ∧
      ∃ name, IsPiece 44 first name ∧ IsModuleName name) ∧
    (∀ o, appParseArgs (modeArgs (first :: rest)) = .ok o →
      (∀ name, IsFirstPiece 44 first name →
        ∃ row ∈ moduleTable, row.name = name ∧ o.mode = row.mode) ∧
      startedModules o =
        (moduleTable.filter fun row => Named (first :: rest) row.name).map some ∧
      (startedModules o).Nodup ∧ (selectModules o).2 ≤ moduleCount ∧
      ∀ first' rest' o', appParseArgs (modeArgs (first' :: rest')) = .ok o' →
        (∀ name, Named (first :: rest) name ↔ Named (first' :: rest') name) →
        startedModules o' = startedModules o) := by
  refine ⟨?_, fun o hok => ?_⟩
  · simp only [appParseArgs_eq_ok_iff, ValidArg]
    constructor
    · rintro ⟨o, hvalid, hne, -⟩
      obtain ⟨name, names, htokens⟩ := List.exists_cons_of_ne_nil hne
      have hpiece : IsPiece 44 first name := by
        rw [← mem_tokens_iff, htokens]
        exact List.mem_cons_self
      refine ⟨fun arg harg => (hvalid arg harg).1, fun arg harg => (hvalid arg harg).2,
        name, hpiece, ?_⟩
      exact (hvalid first List.mem_cons_self).2 name hpiece
    · rintro ⟨hlen, hnames, name, hpiece, -⟩
      refine ⟨_, fun arg harg => ⟨hlen arg harg, hnames arg harg⟩, ?_, rfl⟩
      exact List.ne_nil_of_mem (mem_tokens_iff.2 hpiece)
  · obtain ⟨hvalid, hne, rfl⟩ := appParseArgs_eq_ok_iff.1 hok
    obtain ⟨hstarted, hcount⟩ := startedModules_eq (first :: rest)
    refine ⟨?_, hstarted, ?_, hcount, ?_⟩
    · intro name hname
      obtain ⟨names, htokens⟩ := List.head?_eq_some_iff.1 (head?_tokens hname)
      obtain ⟨row, hrow, hrowName, -, hmode⟩ :=
        exists_first_row (hvalid first List.mem_cons_self) htokens rest
      exact ⟨row, hrow, hrowName, hmode⟩
    · rw [hstarted]
      exact (moduleTable_nodup.filter _).map (Option.some_injective _)
    · intro first' rest' o' hok' hsame
      obtain ⟨-, -, rfl⟩ := appParseArgs_eq_ok_iff.1 hok'
      rw [hstarted, (startedModules_eq (first' :: rest')).1]
      simp only [hsame]

example : (appParseArgs (modeArgs [bytes ",udp_monitor,,context", bytes "context"])).toOption.map
    (fun o => (o.mode, (startedModules o).map (Option.map (·.mode)))) =
      some (.udpMonitor, [some .contextSwitch, some .udpMonitor]) := by
  decide +kernel

end EbpfToolbox.Common
