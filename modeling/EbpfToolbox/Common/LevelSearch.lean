import EbpfToolbox.Common.PidNamespace
import EbpfToolbox.Lib.Program

/-!
# What the level search finds and what it reads

`app_pid_nr_in_ns` walks `numbers[0 .. level]` of a `struct pid`. Here the function
is written once more, as a program whose calls are its reads of the object: the
result is the one of `appPidNrInNs`, and the log holds the indices it has touched.
-/

namespace EbpfToolbox.Common

open EbpfToolbox.Lib

/-- `numbers[i]`. -/
def Pid.entry (pid : Pid) (i : ℕ) : Upid := pid.numbers.getD i Upid.zero

/-- The entry belongs to the namespace with inode number `ino`. -/
def Upid.InNs (upid : Upid) (ino : UInt64) : Prop := upid.ns.map UInt32.toUInt64 = some ino

instance (upid : Upid) (ino : UInt64) : Decidable (upid.InNs ino) :=
  inferInstanceAs (Decidable (_ = _))

/-- The non-null namespaces of `numbers[0 .. level]` have different inode numbers. -/
def Pid.DistinctNs (pid : Pid) : Prop :=
  ∀ i ≤ pid.level.toNat, ∀ j ≤ pid.level.toNat,
    (pid.entry i).ns ≠ none → (pid.entry i).ns = (pid.entry j).ns → i = j

instance (pid : Pid) : Decidable pid.DistinctNs :=
  inferInstanceAs (Decidable (∀ i ≤ pid.level.toNat, ∀ j ≤ pid.level.toNat,
    (pid.entry i).ns ≠ none → (pid.entry i).ns = (pid.entry j).ns → i = j))

theorem Pid.DistinctNs.eq {pid : Pid} (h : pid.DistinctNs) {i j : ℕ} {ino : UInt64}
    (hi : i ≤ pid.level.toNat) (hj : j ≤ pid.level.toNat) (hin : (pid.entry i).InNs ino)
    (hjn : (pid.entry j).InNs ino) : i = j := by
  have hne : (pid.entry i).ns ≠ none := by
    intro hnone
    simp [Upid.InNs, hnone] at hin
  have hinj : Function.Injective (Option.map UInt32.toUInt64) :=
    Option.map_injective fun a b hab => by simpa using congrArg UInt64.toUInt32 hab
  exact h i hi j hj hne (hinj (hin.trans hjn.symm))

/-! ## The search as a program of reads -/

/-- A read of the `struct pid`. -/
inductive PidRead where
  | level
  | number (i : ℕ)

def PidRead.Result : PidRead → Type
  | .level => UInt32
  | .number _ => Upid

/-- The reads against `pid`; the log keeps the indices into `numbers`. -/
def Pid.read (pid : Pid) (log : List ℕ) : (c : PidRead) → c.Result × List ℕ
  | .level => (pid.level, log)
  | .number i => (pid.entry i, log ++ [i])

/-- The unrolled loop from index `i`, `fuel` rounds left. -/
def searchLoop (level : UInt32) (ino : UInt64) :
    ℕ → ℕ → Program PidRead PidRead.Result Int32
  | 0, _ => pure 0
  | fuel + 1, i =>
      if level.toNat < i then pure 0
      else .call (.number i) fun upid : Upid =>
        match upid.ns with
        | none => searchLoop level ino fuel (i + 1)
        | some inum =>
            if inum.toUInt64 = ino then pure upid.nr
            else searchLoop level ino fuel (i + 1)

/-- `app_pid_nr_in_ns` with its reads, for a non-null `pid`. -/
def search (ino : UInt64) : Program PidRead PidRead.Result Int32 :=
  if ino = 0 then pure 0
  else .call .level fun level : UInt32 =>
    if appPidnsLevelCount ≤ level.toNat then pure 0
    else searchLoop level ino appPidnsLevelCount 0

/-- The indices into `numbers` that `app_pid_nr_in_ns` reads, in order. -/
def Pid.indicesRead (pid : Pid) (ino : UInt64) : List ℕ := ((search ino).exec pid.read []).2

/-! One round of the loop, in the function and in the program. -/

theorem appPidNrLoop_succ (pid : Pid) (ino : UInt64) (fuel i : ℕ) :
    appPidNrLoop pid ino (fuel + 1) i =
      if pid.level.toNat < i then 0
      else if (pid.entry i).InNs ino then (pid.entry i).nr
      else appPidNrLoop pid ino fuel (i + 1) := by
  show (if pid.level.toNat < i then 0
    else match (pid.entry i).ns with
      | none => appPidNrLoop pid ino fuel (i + 1)
      | some inum =>
          if inum.toUInt64 = ino then (pid.entry i).nr else appPidNrLoop pid ino fuel (i + 1)) = _
  cases hns : (pid.entry i).ns with
  | none => simp [Upid.InNs, hns]
  | some inum => simp [Upid.InNs, hns]

theorem exec_searchLoop_succ (pid : Pid) (ino : UInt64) (fuel i : ℕ) (log : List ℕ) :
    (searchLoop pid.level ino (fuel + 1) i).exec pid.read log =
      if pid.level.toNat < i then (0, log)
      else if (pid.entry i).InNs ino then ((pid.entry i).nr, log ++ [i])
      else (searchLoop pid.level ino fuel (i + 1)).exec pid.read (log ++ [i]) := by
  rw [searchLoop]
  by_cases hlevel : pid.level.toNat < i
  · rw [if_pos hlevel, if_pos hlevel]
    rfl
  · rw [if_neg hlevel, if_neg hlevel]
    simp only [Program.exec, Pid.read]
    cases hns : (pid.entry i).ns with
    | none => simp [Upid.InNs, hns]
    | some inum => by_cases hino : inum.toUInt64 = ino <;> simp [Upid.InNs, hns, hino]

theorem exec_searchLoop (pid : Pid) (ino : UInt64) (fuel i : ℕ) (log : List ℕ) :
    ((searchLoop pid.level ino fuel i).exec pid.read log).1 = appPidNrLoop pid ino fuel i := by
  induction fuel generalizing i log with
  | zero => rfl
  | succ fuel ih =>
      rw [exec_searchLoop_succ, appPidNrLoop_succ]
      split_ifs with hlevel hin
      · rfl
      · rfl
      · exact ih (i + 1) (log ++ [i])

theorem exec_search_eq (pid : Pid) (ino : UInt64) (log : List ℕ) :
    (search ino).exec pid.read log =
      if ino = 0 ∨ appPidnsLevelCount ≤ pid.level.toNat then (0, log)
      else (searchLoop pid.level ino appPidnsLevelCount 0).exec pid.read log := by
  unfold search
  by_cases hino : ino = 0
  · simp [hino]
  · rw [if_neg hino]
    show (if appPidnsLevelCount ≤ pid.level.toNat then pure 0
      else searchLoop pid.level ino appPidnsLevelCount 0 :
      Program PidRead PidRead.Result Int32).exec pid.read log = _
    by_cases hlevel : appPidnsLevelCount ≤ pid.level.toNat
    · simp [hlevel]
    · simp [hino, hlevel]

/-- The program returns what `appPidNrInNs` does. -/
theorem exec_search (pid : Pid) (ino : UInt64) :
    ((search ino).exec pid.read []).1 = appPidNrInNs (some pid) ino := by
  rw [exec_search_eq]
  unfold appPidNrInNs
  by_cases hino : ino = 0
  · simp [hino]
  · by_cases hlevel : appPidnsLevelCount ≤ pid.level.toNat
    · simp [hlevel]
    · simp only [hino, hlevel, or_self, if_false]
      exact exec_searchLoop pid ino _ _ _

/-! ## Where the search stops -/

/-- A search with enough rounds left stops at the first entry of the namespace, or after
`numbers[level]` when there is none. -/
theorem exec_searchLoop_cases (pid : Pid) (ino : UInt64) (fuel i : ℕ) (log : List ℕ)
    (hi : i ≤ pid.level.toNat + 1) (hfuel : pid.level.toNat < i + fuel) :
    (∃ k, i ≤ k ∧ k ≤ pid.level.toNat ∧ (pid.entry k).InNs ino ∧
      (searchLoop pid.level ino fuel i).exec pid.read log =
        ((pid.entry k).nr, log ++ List.range' i (k + 1 - i))) ∨
    ((∀ k, i ≤ k → k ≤ pid.level.toNat → ¬(pid.entry k).InNs ino) ∧
      (searchLoop pid.level ino fuel i).exec pid.read log =
        (0, log ++ List.range' i (pid.level.toNat + 1 - i))) := by
  induction fuel generalizing i log with
  | zero =>
      have hend : pid.level.toNat + 1 - i = 0 := by omega
      refine Or.inr ⟨fun k hk hkl => by omega, ?_⟩
      rw [hend]
      simp [searchLoop]
  | succ fuel ih =>
      rw [exec_searchLoop_succ]
      by_cases hlevel : pid.level.toNat < i
      · have hend : pid.level.toNat + 1 - i = 0 := by omega
        refine Or.inr ⟨fun k hk hkl => by omega, ?_⟩
        simp [hlevel, hend]
      · rw [if_neg hlevel]
        have happend : ∀ k, i < k →
            log ++ [i] ++ List.range' (i + 1) (k - (i + 1)) = log ++ List.range' i (k - i) := by
          intro k hk
          have hsucc : k - i = (k - (i + 1)) + 1 := by omega
          rw [hsucc, List.range'_succ, List.append_assoc]
          rfl
        by_cases hin : (pid.entry i).InNs ino
        · refine Or.inl ⟨i, le_rfl, by omega, hin, ?_⟩
          simp [hin]
        · rw [if_neg hin]
          rcases ih (i + 1) (log ++ [i]) (by omega) (by omega) with
            ⟨k, hik, hkl, hkin, hexec⟩ | ⟨hnone, hexec⟩
          · refine Or.inl ⟨k, by omega, hkl, hkin, ?_⟩
            rw [hexec, happend (k + 1) (by omega)]
          · refine Or.inr ⟨?_, ?_⟩
            · intro k hik hkl
              rcases Nat.eq_or_lt_of_le hik with rfl | hlt
              · exact hin
              · exact hnone k hlt hkl
            · rw [hexec, happend (pid.level.toNat + 1) (by omega)]

/-- The whole function: nothing is read when it gives up at once, otherwise it stops at the
first entry of the namespace or after `numbers[level]`. -/
theorem exec_search_cases (pid : Pid) (ino : UInt64) :
    ((ino = 0 ∨ 32 < pid.level.toNat) ∧ (search ino).exec pid.read [] = (0, [])) ∨
    (∃ k ≤ pid.level.toNat, ino ≠ 0 ∧ pid.level.toNat ≤ 32 ∧ (pid.entry k).InNs ino ∧
      (search ino).exec pid.read [] = ((pid.entry k).nr, List.range (k + 1))) ∨
    ((∀ k ≤ pid.level.toNat, ¬(pid.entry k).InNs ino) ∧
      (search ino).exec pid.read [] = (0, List.range (pid.level.toNat + 1))) := by
  rw [exec_search_eq]
  by_cases hgiveUp : ino = 0 ∨ appPidnsLevelCount ≤ pid.level.toNat
  · rw [if_pos hgiveUp]
    exact Or.inl ⟨hgiveUp, rfl⟩
  · rw [if_neg hgiveUp]
    obtain ⟨hino, hlevel⟩ := not_or.1 hgiveUp
    have hle : pid.level.toNat ≤ 32 := Nat.le_of_not_lt hlevel
    rcases exec_searchLoop_cases pid ino appPidnsLevelCount 0 [] (by omega)
      (by unfold appPidnsLevelCount; omega) with ⟨k, -, hkl, hkin, hexec⟩ | ⟨hnone, hexec⟩
    · refine Or.inr (Or.inl ⟨k, hkl, hino, hle, hkin, ?_⟩)
      simpa [List.range_eq_range'] using hexec
    · refine Or.inr (Or.inr ⟨fun k hkl => hnone k k.zero_le hkl, ?_⟩)
      simpa [List.range_eq_range'] using hexec

/-- **The level search.** When the namespaces of the levels have different inode numbers,
`app_pid_nr_in_ns` returns the PID of the one entry of the namespace, for every depth up to
32, and 0 when there is none, no namespace is given or the object is nested too deep. It
reads entries up to `numbers[level]` only, and all of them before it answers that there is
none. -/
theorem appPidNrInNs_searches_all_levels (pid : Pid) (hns : pid.DistinctNs) (ino : UInt64) :
    (∀ i ≤ pid.level.toNat, ino ≠ 0 → pid.level.toNat ≤ 32 → (pid.entry i).InNs ino →
      (∀ j ≤ pid.level.toNat, (pid.entry j).InNs ino → j = i) ∧
      appPidNrInNs (some pid) ino = (pid.entry i).nr) ∧
    (¬(ino ≠ 0 ∧ pid.level.toNat ≤ 32 ∧ ∃ i ≤ pid.level.toNat, (pid.entry i).InNs ino) →
      appPidNrInNs (some pid) ino = 0) ∧
    ((search ino).exec pid.read []).1 = appPidNrInNs (some pid) ino ∧
    (∀ i ∈ pid.indicesRead ino, i ≤ pid.level.toNat) ∧
    (ino ≠ 0 → pid.level.toNat ≤ 32 → (∀ i ≤ pid.level.toNat, ¬(pid.entry i).InNs ino) →
      pid.indicesRead ino = List.range (pid.level.toNat + 1)) := by
  have hunique : ∀ i ≤ pid.level.toNat, (pid.entry i).InNs ino →
      ∀ j ≤ pid.level.toNat, (pid.entry j).InNs ino → j = i :=
    fun i hi hin j hj hjn => hns.eq hj hi hjn hin
  have hresult := exec_search pid ino
  unfold Pid.indicesRead
  rcases exec_search_cases pid ino with ⟨hgiveUp, hexec⟩ | ⟨k, hk, hino, hlevel, hkin, hexec⟩ |
    ⟨hnone, hexec⟩
  · rw [hexec] at hresult ⊢
    refine ⟨?_, fun _ => hresult.symm, hresult, by simp, ?_⟩
    · intro i _ hino hlevel
      rcases hgiveUp with h | h
      · exact absurd h hino
      · omega
    · intro hino hlevel
      rcases hgiveUp with h | h
      · exact absurd h hino
      · omega
  · rw [hexec] at hresult ⊢
    refine ⟨?_, ?_, hresult, ?_, ?_⟩
    · intro i hi _ _ hin
      obtain rfl := hunique i hi hin k hk hkin
      exact ⟨hunique k hi hin, hresult.symm⟩
    · exact fun h => absurd ⟨hino, hlevel, k, hk, hkin⟩ h
    · intro i hi
      have hik : i < k + 1 := List.mem_range.1 hi
      omega
    · exact fun _ _ hnone => absurd hkin (hnone k hk)
  · rw [hexec] at hresult ⊢
    refine ⟨?_, fun _ => hresult.symm, hresult, ?_, fun _ _ _ => rfl⟩
    · exact fun i hi _ _ hin => absurd hin (hnone i hi)
    · intro i hi
      have hil : i < pid.level.toNat + 1 := List.mem_range.1 hi
      omega

/-- A `struct pid` nested as deep as the kernel allows, with a namespace at every level but
the initial one: inode number `100 + i` and PID `i` at level `i`. -/
def deepestPid : Pid where
  level := 32
  numbers := Upid.zero :: (List.range' 1 32).map fun i => ⟨.ofNat i, some (.ofNat (100 + i))⟩

/-- The innermost level, 32, is found. -/
theorem deepestPid_innermost : deepestPid.DistinctNs ∧ appPidNrInNs (some deepestPid) 132 = 32 := by
  have hns : deepestPid.DistinctNs := by decide +kernel
  refine ⟨hns, ?_⟩
  exact ((appPidNrInNs_searches_all_levels deepestPid hns 132).1 32 (by decide +kernel)
    (by decide +kernel) (by decide +kernel) (by decide +kernel)).2

end EbpfToolbox.Common
