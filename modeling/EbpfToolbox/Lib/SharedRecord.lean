import EbpfToolbox.Lib.Interleave
import EbpfToolbox.Lib.PerCpu
import Mathlib.Data.Multiset.MapFold
import Mathlib.Data.UInt

/-!
# A record of statistics without synchronisation

A number of CPUs report events and keep one shared record of them: how many there were,
the sum of their delays, the greatest delay and data about the event that had it. Every
update of the record is a load and a store of its own, with nothing to keep the CPUs
apart, so that updates get lost and the data can come from different events.

The interleavings of programs that `update` the record between other calls show how far
this goes. `Sound` is their invariant. The count and the sum are treated by one argument,
`Summing`: the value in a cell, and each value that some CPU has loaded and not written
back yet, is what a part of the reported events adds up to, and the events of CPUs that
have still to store are not in the part.
-/

namespace EbpfToolbox.Lib

/-! ## Sums with lost updates -/

section Summing

variable {X A : Type} [AddCommMonoid A] {w : X → A} {all : List X} {Q : Multiset X} {v : A}

/-- `v` adds up a part of `all` that leaves `Q` out. -/
def Booked (w : X → A) (all : List X) (Q : Multiset X) (v : A) : Prop :=
  ∃ S : Multiset X, S + Q ≤ ↑all ∧ v = (S.map w).sum

theorem Booked.report (h : Booked w all Q v) (x : X) : Booked w (all ++ [x]) (Q + {x}) v := by
  obtain ⟨S, hS, rfl⟩ := h
  refine ⟨S, ?_, rfl⟩
  rw [← add_assoc, ← Multiset.coe_add, Multiset.coe_singleton]
  exact add_le_add_left hS {x}

theorem Booked.release {x : X} (h : Booked w all (Q + {x}) v) : Booked w all Q v := by
  obtain ⟨S, hS, rfl⟩ := h
  refine ⟨S, le_trans ?_ hS, rfl⟩
  rw [← add_assoc]
  exact Multiset.le_add_right _ _

theorem Booked.add {x : X} (h : Booked w all (Q + {x}) v) : Booked w all Q (v + w x) := by
  obtain ⟨S, hS, rfl⟩ := h
  refine ⟨S + {x}, ?_, by simp⟩
  rwa [add_assoc, add_comm {x} Q]

variable {n : ℕ} {pending : Fin n → Multiset X} {loaded : Fin n → Option A} {i : Fin n}

/-- The cell and the values that were loaded from it. -/
structure Summing (w : X → A) (all : List X) (pending : Fin n → Multiset X)
    (loaded : Fin n → Option A) (v : A) : Prop where
  cell : Booked w all (PerCpu.total id pending) v
  loads : ∀ i, ∀ c ∈ loaded i, Booked w all (PerCpu.total id pending) c

/-- A step of CPU `i` that concerns neither the cell nor what `i` has loaded. -/
theorem Summing.stay (h : Summing w all pending loaded v) {q : Multiset X} {l : Option A}
    (hq : pending i = q) (hl : loaded i = l) :
    Summing w all (Function.update pending i q) (Function.update loaded i l) v := by
  subst hq hl
  rwa [Function.update_eq_self, Function.update_eq_self]

theorem Summing.report (h : Summing w all pending loaded v) (x : X) (hq : pending i = 0) :
    Summing w (all ++ [x]) (Function.update pending i {x}) (Function.update loaded i none) v := by
  have htotal : PerCpu.total id (Function.update pending i {x}) =
      PerCpu.total id pending + {x} := by
    simpa [hq] using PerCpu.total_update id pending i {x}
  constructor
  · rw [htotal]
    exact h.cell.report x
  · rw [htotal, Function.forall_update_iff loaded fun _ l => ∀ c ∈ l, Booked w _ _ c]
    constructor
    · simp
    · exact fun j _ c hc => (h.loads j c hc).report x

theorem Summing.load (h : Summing w all pending loaded v) {q : Multiset X}
    (hq : pending i = q) :
    Summing w all (Function.update pending i q) (Function.update loaded i (some v)) v := by
  subst hq
  rw [Function.update_eq_self]
  refine ⟨h.cell, ?_⟩
  rw [Function.forall_update_iff loaded fun _ l => ∀ c ∈ l, Booked w _ _ c]
  constructor
  · intro c hc
    obtain rfl : v = c := by simpa using hc
    exact h.cell
  · exact fun j _ => h.loads j

/-- What was loaded may be old by now. The store puts it back all the same. -/
theorem Summing.store (h : Summing w all pending loaded v) {x : X} {c : A}
    (hq : pending i = {x}) (hc : loaded i = some c) :
    Summing w all (Function.update pending i 0) (Function.update loaded i none) (c + w x) := by
  have htotal : PerCpu.total id pending =
      PerCpu.total id (Function.update pending i 0) + {x} := by
    simpa [hq] using (PerCpu.total_update id pending i 0).symm
  have hloads : ∀ j, ∀ c ∈ loaded j,
      Booked w all (PerCpu.total id (Function.update pending i 0) + {x}) c := by
    rw [← htotal]
    exact h.loads
  refine ⟨(hloads i c hc).add, ?_⟩
  rw [Function.forall_update_iff loaded fun _ l => ∀ c ∈ l, Booked w _ _ c]
  constructor
  · simp
  · exact fun j _ c' hc' => (hloads j c' hc').release

end Summing

/-! ## The record -/

variable {X F O W : Type} {V : F → Type} {Ans : O → Type}

/-- The cells `F` describe the event of the maximum. They are written in the order of
`fields`. -/
structure Layout (X : Type) (V : F → Type) where
  delay : X → UInt64
  data : X → (f : F) → V f
  fields : List F
  complete : ∀ f, f ∈ fields

structure Record (V : F → Type) where
  count : ℕ
  total : UInt64
  max : UInt64
  data : (f : F) → V f

/-- The record, the events reported so far, and the rest of the state. -/
structure Books (X : Type) (V : F → Type) (W : Type) where
  record : Record V
  reported : List X
  rest : W

/-- Report an event, one access to the record, or a call `O` that is about the rest. -/
inductive Access (X : Type) (V : F → Type) (O : Type) : Type where
  | other (o : O)
  | report (x : X)
  | loadCount
  | storeCount (c : ℕ)
  | loadTotal
  | storeTotal (t : UInt64)
  | loadMax
  | storeMax (m : UInt64)
  | store (f : F) (v : V f)

namespace Access

def Ret (Ans : O → Type) : Access X V O → Type
  | .other o => Ans o
  | .loadCount => ℕ
  | .loadTotal => UInt64
  | .loadMax => UInt64
  | _ => Unit

def run [DecidableEq F] (h : W → (o : O) → Ans o × W) (s : Books X V W) :
    (c : Access X V O) → c.Ret Ans × Books X V W
  | .other o => ((h s.rest o).1, { s with rest := (h s.rest o).2 })
  | .report x => ((), { s with reported := s.reported ++ [x] })
  | .loadCount => (s.record.count, s)
  | .storeCount c => ((), { s with record.count := c })
  | .loadTotal => (s.record.total, s)
  | .storeTotal t => ((), { s with record.total := t })
  | .loadMax => (s.record.max, s)
  | .storeMax m => ((), { s with record.max := m })
  | .store f v => ((), { s with record.data := Function.update s.record.data f v })

end Access

namespace Layout

variable (L : Layout X V)

/-- Write the data of an event, cell by cell. -/
def writeFields (L : Layout X V) (x : X) : List F → Program (Access X V O) (Access.Ret Ans) Unit
  | [] => .pure ()
  | f :: fs => .call (.store f (L.data x f)) fun _ => writeFields L x fs

/-- What is left to do when the maximum was `m`. -/
def raise (x : X) (m : UInt64) : Program (Access X V O) (Access.Ret Ans) Unit :=
  if m < L.delay x then
    .call (.storeMax (L.delay x)) fun _ => L.writeFields x L.fields
  else .pure ()

/-- Report an event and enter it in the record. -/
def update (x : X) : Program (Access X V O) (Access.Ret Ans) Unit :=
  .call (.report x) fun _ =>
  .call .loadCount fun c : ℕ =>
  .call (.storeCount (c + 1)) fun _ =>
  .call .loadTotal fun t : UInt64 =>
  .call (.storeTotal (t + L.delay x)) fun _ =>
  .call .loadMax fun m : UInt64 => L.raise x m

/-! ## Updates that run alone -/

/-- What `update` does to the record when nothing comes between. -/
def enter (r : Record V) (x : X) : Record V where
  count := r.count + 1
  total := r.total + L.delay x
  max := if r.max < L.delay x then L.delay x else r.max
  data := if r.max < L.delay x then L.data x else r.data

section Exec

variable [DecidableEq F]

variable (h : W → (o : O) → Ans o × W)

theorem exec_writeFields (x : X) (fs : List F) (s : Books X V W) :
    ((L.writeFields x fs).exec (Access.run h) s).2 =
      { s with record.data := fun f => if f ∈ fs then L.data x f else s.record.data f } := by
  induction fs generalizing s with
  | nil => simp [writeFields, Program.exec]
  | cons g fs ih =>
      show ((L.writeFields x fs).exec (Access.run h)
        (Access.run h s (.store g (L.data x g))).2).2 = _
      rw [ih]
      simp only [Access.run]
      congr 2
      funext f
      by_cases hg : f = g
      · subst hg
        simp
      · simp [hg]

theorem exec_update (x : X) (s : Books X V W) :
    ((L.update x).exec (Access.run h) s).2 =
      ⟨L.enter s.record x, s.reported ++ [x], s.rest⟩ := by
  simp only [update, raise, Program.exec, Access.run]
  split_ifs with hm
  · simp [Program.exec, exec_writeFields, Access.run, enter, hm, L.complete]
  · simp [Program.exec, enter, hm]

end Exec

/-! ## Where a CPU is in its update -/

/-- `counting` and `adding` hold what was loaded; `writing` the cells still to write. -/
inductive Phase (X F : Type) : Type where
  | idle
  | reported (x : X)
  | counting (x : X) (c : ℕ)
  | counted (x : X)
  | adding (x : X) (t : UInt64)
  | added (x : X)
  | raising (x : X)
  | writing (x : X) (f : F) (fs : List F)

namespace Phase

def write (x : X) : List F → Phase X F
  | [] => .idle
  | f :: fs => .writing x f fs

/-- The event of an update that has not stored the count yet. -/
def uncounted : Phase X F → Multiset X
  | .reported x => {x}
  | .counting x _ => {x}
  | _ => 0

/-- The event of an update that has not stored the sum yet. -/
def unadded : Phase X F → Multiset X
  | .reported x => {x}
  | .counting x _ => {x}
  | .counted x => {x}
  | .adding x _ => {x}
  | _ => 0

def loadedCount : Phase X F → Option ℕ
  | .counting _ c => some c
  | _ => none

def loadedTotal : Phase X F → Option UInt64
  | .adding _ t => some t
  | _ => none

/-- The event of an update that may still write the maximum. -/
def unraised : Phase X F → Option X
  | .reported x => some x
  | .counting x _ => some x
  | .counted x => some x
  | .adding x _ => some x
  | .added x => some x
  | .raising x => some x
  | _ => none

/-- The event of an update. -/
def event : Phase X F → Option X
  | .writing x _ _ => some x
  | g => g.unraised

end Phase

/-- The phase after a load of the maximum. -/
def compared (x : X) (m : UInt64) : Phase X F := if m < L.delay x then .raising x else .idle

def protocol : Protocol (Access X V O) (Access.Ret Ans) (Phase X F) where
  idle := .idle
  Permits g call := match g with
    | .idle => (∃ o, call = .other o) ∨ ∃ x, call = .report x
    | .reported _ => call = .loadCount
    | .counting _ c => call = .storeCount (c + 1)
    | .counted _ => call = .loadTotal
    | .adding x t => call = .storeTotal (t + L.delay x)
    | .added _ => call = .loadMax
    | .raising x => call = .storeMax (L.delay x) ∧ L.delay x ≠ 0
    | .writing x f _ => call = .store f (L.data x f)
  next
    | .reported x, .loadCount, (c : ℕ) => .counting x c
    | .counting x _, .storeCount _, _ => .counted x
    | .counted x, .loadTotal, (t : UInt64) => .adding x t
    | .adding x _, .storeTotal _, _ => .added x
    | .added x, .loadMax, (m : UInt64) => L.compared x m
    | .raising x, .storeMax _, _ => .write x L.fields
    | .writing x _ fs, .store _ _, _ => .write x fs
    | _, .report x, _ => .reported x
    | g, _, _ => g

theorem other_follows {o : O} {k : Ans o → Program (Access X V O) (Access.Ret Ans) Unit}
    (hk : ∀ r, (k r).Follows L.protocol .idle) :
    (Program.call (.other o) k : Program (Access X V O) (Access.Ret Ans) Unit).Follows
      L.protocol .idle :=
  ⟨Or.inl ⟨o, rfl⟩, hk⟩

theorem writeFields_follows (x : X) (fs : List F) :
    (L.writeFields x fs : Program (Access X V O) (Access.Ret Ans) Unit).Follows L.protocol
      (.write x fs) := by
  induction fs with
  | nil => rfl
  | cons f fs ih => exact ⟨rfl, fun _ => ih⟩

theorem raise_follows (x : X) (m : UInt64) :
    (L.raise x m : Program (Access X V O) (Access.Ret Ans) Unit).Follows L.protocol
      (L.compared x m) := by
  by_cases hm : m < L.delay x
  · rw [raise, compared, if_pos hm, if_pos hm]
    have hne : L.delay x ≠ 0 := fun h0 => UInt64.not_lt_zero (h0 ▸ hm)
    exact ⟨⟨rfl, hne⟩, fun _ => L.writeFields_follows x L.fields⟩
  · rw [raise, compared, if_neg hm, if_neg hm]
    rfl

theorem update_follows (x : X) :
    (L.update x : Program (Access X V O) (Access.Ret Ans) Unit).Follows L.protocol .idle :=
  ⟨Or.inr ⟨x, rfl⟩, fun _ => ⟨rfl, fun _ => ⟨rfl, fun _ => ⟨rfl, fun _ => ⟨rfl, fun _ =>
    ⟨rfl, L.raise_follows x⟩⟩⟩⟩⟩⟩

/-! ## The invariant -/

section Sound

variable {n : ℕ} {d₀ : (f : F) → V f} {s s' : Books X V W} {gs : Fin n → Phase X F} {i : Fin n}
  {g : Phase X F} {x : X}

/-- Count and sum. While the count is zero every event is still to be counted. -/
structure Sums (s : Books X V W) (gs : Fin n → Phase X F) : Prop where
  count : Summing (fun _ => 1) s.reported (Phase.uncounted ∘ gs) (Phase.loadedCount ∘ gs)
    s.record.count
  total : Summing L.delay s.reported (Phase.unadded ∘ gs) (Phase.loadedTotal ∘ gs) s.record.total
  uncounted : s.record.count = 0 → ↑s.reported = PerCpu.total id (Phase.uncounted ∘ gs)

/-- Maximum and data; `d₀` is in the cells at the start. While the maximum is zero every
event with a delay is still to be compared. -/
structure Peaks (d₀ : (f : F) → V f) (s : Books X V W) (gs : Fin n → Phase X F) : Prop where
  events : ∀ i, ∀ x ∈ (gs i).event, x ∈ s.reported
  max : s.record.max = 0 ∨ ∃ x ∈ s.reported, s.record.max = L.delay x
  data : ∀ f, s.record.data f = d₀ f ∨ ∃ x ∈ s.reported, s.record.data f = L.data x f
  unraised : s.record.max = 0 →
    ∀ x ∈ s.reported, L.delay x ≠ 0 → ∃ i, (gs i).unraised = some x

/-- What the interleavings of `update` keep. -/
structure Sound (d₀ : (f : F) → V f) (s : Books X V W) (gs : Fin n → Phase X F) : Prop where
  sums : L.Sums s gs
  peaks : L.Peaks d₀ s gs

/-- Before the first event. -/
def blank (d₀ : (f : F) → V f) (w : W) : Books X V W := ⟨⟨0, 0, 0, d₀⟩, [], w⟩

variable {L}

theorem sound_blank (w : W) : L.Sound d₀ (blank d₀ w) fun _ : Fin n => .idle where
  sums := by
    refine ⟨⟨⟨0, ?_, rfl⟩, ?_⟩, ⟨⟨0, ?_, rfl⟩, ?_⟩, ?_⟩
    · simp [blank, Phase.uncounted, PerCpu.total]
    · simp [Phase.loadedCount]
    · simp [blank, Phase.unadded, PerCpu.total]
    · simp [Phase.loadedTotal]
    · simp [blank, Phase.uncounted, PerCpu.total]
  peaks := by
    refine ⟨?_, Or.inl rfl, fun _ => Or.inl rfl, ?_⟩
    · simp [Phase.event, Phase.unraised]
    · simp [blank]

/-! ### Count and sum -/

private theorem comp_update_eq {B : Type} {f : Phase X F → B} (hg : f (gs i) = f g) :
    f ∘ Function.update gs i g = f ∘ gs := by
  rw [Function.comp_update, ← hg]
  exact Function.update_eq_self i _

theorem Sums.congr (h : L.Sums s gs) (hreported : s'.reported = s.reported)
    (hcount : s'.record.count = s.record.count) (htotal : s'.record.total = s.record.total) :
    L.Sums s' gs := by
  constructor
  · rw [hreported, hcount]
    exact h.count
  · rw [hreported, htotal]
    exact h.total
  · rw [hreported, hcount]
    exact h.uncounted

/-- A step that concerns neither of them. -/
theorem Sums.stay (h : L.Sums s gs) (hcount : (gs i).uncounted = g.uncounted)
    (htotal : (gs i).unadded = g.unadded) (hc : (gs i).loadedCount = g.loadedCount)
    (ht : (gs i).loadedTotal = g.loadedTotal) : L.Sums s (Function.update gs i g) := by
  constructor
  · rw [comp_update_eq hcount, comp_update_eq hc]
    exact h.count
  · rw [comp_update_eq htotal, comp_update_eq ht]
    exact h.total
  · rw [comp_update_eq hcount]
    exact h.uncounted

theorem Sums.report (h : L.Sums s gs) (hi : gs i = .idle) (x : X) :
    L.Sums { s with reported := s.reported ++ [x] } (Function.update gs i (.reported x)) := by
  constructor
  · rw [Function.comp_update, Function.comp_update]
    exact h.count.report x (by simp [hi, Phase.uncounted])
  · rw [Function.comp_update, Function.comp_update]
    exact h.total.report x (by simp [hi, Phase.unadded])
  · intro h0
    have htotal := PerCpu.total_update id (Phase.uncounted ∘ gs) i {x}
    rw [Function.comp_update, ← Multiset.coe_add, h.uncounted h0]
    simpa [hi, Phase.uncounted] using htotal.symm

theorem Sums.loadCount (h : L.Sums s gs) (hi : gs i = .reported x) :
    L.Sums s (Function.update gs i (.counting x s.record.count)) := by
  constructor
  · rw [Function.comp_update, Function.comp_update]
    exact h.count.load (by simp [hi, Phase.uncounted])
  · rw [comp_update_eq (by simp [hi, Phase.unadded]),
      comp_update_eq (by simp [hi, Phase.loadedTotal])]
    exact h.total
  · rw [comp_update_eq (by simp [hi, Phase.uncounted])]
    exact h.uncounted

theorem Sums.storeCount (h : L.Sums s gs) {c : ℕ} (hi : gs i = .counting x c) :
    L.Sums { s with record.count := c + 1 } (Function.update gs i (.counted x)) := by
  constructor
  · rw [Function.comp_update, Function.comp_update]
    exact h.count.store (x := x) (by simp [hi, Phase.uncounted]) (by simp [hi, Phase.loadedCount])
  · rw [comp_update_eq (by simp [hi, Phase.unadded]),
      comp_update_eq (by simp [hi, Phase.loadedTotal])]
    exact h.total
  · exact fun h0 => absurd h0 (Nat.succ_ne_zero c)

theorem Sums.loadTotal (h : L.Sums s gs) (hi : gs i = .counted x) :
    L.Sums s (Function.update gs i (.adding x s.record.total)) := by
  constructor
  · rw [comp_update_eq (by simp [hi, Phase.uncounted]),
      comp_update_eq (by simp [hi, Phase.loadedCount])]
    exact h.count
  · rw [Function.comp_update, Function.comp_update]
    exact h.total.load (by simp [hi, Phase.unadded])
  · rw [comp_update_eq (by simp [hi, Phase.uncounted])]
    exact h.uncounted

theorem Sums.storeTotal (h : L.Sums s gs) {t : UInt64} (hi : gs i = .adding x t) :
    L.Sums { s with record.total := t + L.delay x } (Function.update gs i (.added x)) := by
  constructor
  · rw [comp_update_eq (by simp [hi, Phase.uncounted]),
      comp_update_eq (by simp [hi, Phase.loadedCount])]
    exact h.count
  · rw [Function.comp_update, Function.comp_update]
    exact h.total.store (by simp [hi, Phase.unadded]) (by simp [hi, Phase.loadedTotal])
  · rw [comp_update_eq (by simp [hi, Phase.uncounted])]
    exact h.uncounted

/-! ### Maximum and data -/

theorem Peaks.congr (h : L.Peaks d₀ s gs) (hreported : s'.reported = s.reported)
    (hmax : s'.record.max = s.record.max) (hdata : s'.record.data = s.record.data) :
    L.Peaks d₀ s' gs := by
  constructor
  · rw [hreported]
    exact h.events
  · rw [hreported, hmax]
    exact h.max
  · rw [hreported, hdata]
    exact h.data
  · rw [hreported, hmax]
    exact h.unraised

theorem Peaks.events_update (h : L.Peaks d₀ s gs) (hg : ∀ x ∈ g.event, x ∈ s.reported) :
    ∀ j, ∀ x ∈ (Function.update gs i g j).event, x ∈ s.reported := by
  rw [Function.forall_update_iff gs fun _ g => ∀ x ∈ g.event, x ∈ s.reported]
  exact ⟨hg, fun j _ => h.events j⟩

theorem exists_unraised_update (hx : ∃ j, (gs j).unraised = some x)
    (hg : (gs i).unraised = some x → g.unraised = some x) :
    ∃ j, (Function.update gs i g j).unraised = some x := by
  obtain ⟨j, hj⟩ := hx
  by_cases hji : j = i
  · subst hji
    exact ⟨j, by rw [Function.update_self, hg hj]⟩
  · exact ⟨j, by rw [Function.update_of_ne hji, hj]⟩

/-- A step before the maximum is loaded, or a load that finds it too small. -/
theorem Peaks.stay (h : L.Peaks d₀ s gs) (hevent : g.event = (gs i).event)
    (hunraised : g.unraised = (gs i).unraised) : L.Peaks d₀ s (Function.update gs i g) where
  events := h.events_update (by rw [hevent]; exact h.events i)
  max := h.max
  data := h.data
  unraised h0 y hy hne := by
    refine exists_unraised_update (h.unraised h0 y hy hne) ?_
    rw [hunraised]
    exact id

theorem Peaks.report (h : L.Peaks d₀ s gs) (hi : gs i = .idle) (x : X) :
    L.Peaks d₀ { s with reported := s.reported ++ [x] }
      (Function.update gs i (.reported x)) where
  events := by
    rw [Function.forall_update_iff gs fun _ g => ∀ y ∈ g.event, y ∈ s.reported ++ [x]]
    constructor
    · simp [Phase.event, Phase.unraised]
    · exact fun j _ y hy => List.mem_append_left _ (h.events j y hy)
  max := h.max.imp_right fun ⟨y, hy, hmax⟩ => ⟨y, List.mem_append_left _ hy, hmax⟩
  data f := (h.data f).imp_right fun ⟨y, hy, hdata⟩ => ⟨y, List.mem_append_left _ hy, hdata⟩
  unraised h0 y hy hne := by
    rcases List.mem_append.mp hy with hy | hy
    · refine exists_unraised_update (h.unraised h0 y hy hne) ?_
      simp [hi, Phase.unraised]
    · obtain rfl : y = x := List.mem_singleton.mp hy
      exact ⟨i, by simp [Phase.unraised]⟩

/-- Only an event without a delay goes away while the maximum is zero. -/
theorem Peaks.loadMax (h : L.Peaks d₀ s gs) (hi : gs i = .added x) :
    L.Peaks d₀ s (Function.update gs i (L.compared x s.record.max)) := by
  by_cases hm : s.record.max < L.delay x
  · rw [compared, if_pos hm]
    exact h.stay (by simp [hi, Phase.event, Phase.unraised]) (by simp [hi, Phase.unraised])
  · rw [compared, if_neg hm]
    refine ⟨h.events_update (by simp [Phase.event, Phase.unraised]), h.max, h.data, ?_⟩
    intro h0 y hy hne
    refine exists_unraised_update (h.unraised h0 y hy hne) ?_
    intro hxy
    obtain rfl : x = y := by simpa [hi, Phase.unraised] using hxy
    rw [h0] at hm
    exact absurd (UInt64.pos_iff_ne_zero.mpr hne) hm

theorem event_write (x : X) (fs : List F) : ∀ y ∈ (Phase.write x fs).event, y = x := by
  cases fs with
  | nil => simp [Phase.write, Phase.event, Phase.unraised]
  | cons f fs => simp [Phase.write, Phase.event, eq_comm]

/-- Only a CPU with a positive delay gets here. -/
theorem Peaks.storeMax (h : L.Peaks d₀ s gs) (hi : gs i = .raising x) (hx : L.delay x ≠ 0) :
    L.Peaks d₀ { s with record.max := L.delay x } (Function.update gs i (.write x L.fields)) := by
  have hmem : x ∈ s.reported := h.events i x (by simp [hi, Phase.event, Phase.unraised])
  refine ⟨h.events_update ?_, Or.inr ⟨x, hmem, rfl⟩, h.data, fun h0 => absurd h0 hx⟩
  intro y hy
  rwa [event_write x L.fields y hy]

theorem Peaks.store [DecidableEq F] (h : L.Peaks d₀ s gs) {f : F} {fs : List F}
    (hi : gs i = .writing x f fs) :
    L.Peaks d₀ { s with record.data := Function.update s.record.data f (L.data x f) }
      (Function.update gs i (.write x fs)) := by
  have hmem : x ∈ s.reported := h.events i x (by simp [hi, Phase.event])
  refine ⟨h.events_update ?_, h.max, ?_, ?_⟩
  · intro y hy
    rwa [event_write x fs y hy]
  · intro f'
    by_cases hf : f' = f
    · subst hf
      exact Or.inr ⟨x, hmem, Function.update_self _ _ _⟩
    · simp only [Function.update_of_ne hf]
      exact h.data f'
  · intro h0 y hy hne
    refine exists_unraised_update (h.unraised h0 y hy hne) ?_
    simp [hi, Phase.unraised]

/-! ### All calls -/

theorem sums_write (x : X) (fs : List F) :
    (Phase.write x fs).uncounted = 0 ∧ (Phase.write x fs).unadded = 0 ∧
      (Phase.write x fs).loadedCount = none ∧ (Phase.write x fs).loadedTotal = none := by
  cases fs with
  | nil => exact ⟨rfl, rfl, rfl, rfl⟩
  | cons f fs => exact ⟨rfl, rfl, rfl, rfl⟩

theorem Sums.write (h : L.Sums s gs) (hi : (gs i).uncounted = 0 ∧ (gs i).unadded = 0 ∧
    (gs i).loadedCount = none ∧ (gs i).loadedTotal = none) (fs : List F) :
    L.Sums s (Function.update gs i (.write x fs)) := by
  obtain ⟨hcount, htotal, hc, ht⟩ := sums_write x fs
  apply h.stay
  · rw [hi.1, hcount]
  · rw [hi.2.1, htotal]
  · rw [hi.2.2.1, hc]
  · rw [hi.2.2.2, ht]

theorem Sums.loadMax (h : L.Sums s gs) (hi : gs i = .added x) (m : UInt64) :
    L.Sums s (Function.update gs i (L.compared x m)) := by
  by_cases hm : m < L.delay x
  · rw [compared, if_pos hm]
    apply h.stay <;> rw [hi] <;> rfl
  · rw [compared, if_neg hm]
    apply h.stay <;> rw [hi] <;> rfl

theorem sound_call [DecidableEq F] (handle : W → (o : O) → Ans o × W) (h : L.Sound d₀ s gs)
    {call : Access X V O} (hp : Protocol.Permits (R := Access.Ret Ans) L.protocol (gs i) call) :
    L.Sound d₀ (Access.run handle s call).2 (Function.update gs i
      (L.protocol.next (gs i) call (Access.run handle s call).1)) := by
  cases hi : gs i with
  | idle =>
      rw [hi] at hp
      rcases hp with ⟨o, rfl⟩ | ⟨x, rfl⟩
      · have hstay : Function.update gs i .idle = gs := by rw [← hi, Function.update_eq_self]
        refine ⟨?_, ?_⟩
        · exact (hstay.symm ▸ h.sums).congr rfl rfl rfl
        · exact (hstay.symm ▸ h.peaks).congr rfl rfl rfl
      · exact ⟨h.sums.report hi x, h.peaks.report hi x⟩
  | reported x =>
      rw [hi] at hp
      obtain rfl : call = .loadCount := hp
      refine ⟨h.sums.loadCount hi, h.peaks.stay ?_ ?_⟩ <;> rw [hi] <;> rfl
  | counting x c =>
      rw [hi] at hp
      obtain rfl : call = .storeCount (c + 1) := hp
      refine ⟨h.sums.storeCount hi, (h.peaks.stay ?_ ?_).congr rfl rfl rfl⟩ <;> rw [hi] <;> rfl
  | counted x =>
      rw [hi] at hp
      obtain rfl : call = .loadTotal := hp
      refine ⟨h.sums.loadTotal hi, h.peaks.stay ?_ ?_⟩ <;> rw [hi] <;> rfl
  | adding x t =>
      rw [hi] at hp
      obtain rfl : call = .storeTotal (t + L.delay x) := hp
      refine ⟨h.sums.storeTotal hi, (h.peaks.stay ?_ ?_).congr rfl rfl rfl⟩ <;> rw [hi] <;> rfl
  | added x =>
      rw [hi] at hp
      obtain rfl : call = .loadMax := hp
      exact ⟨h.sums.loadMax hi _, h.peaks.loadMax hi⟩
  | raising x =>
      rw [hi] at hp
      obtain ⟨rfl, hx⟩ := hp
      refine ⟨(h.sums.write ?_ L.fields).congr rfl rfl rfl, h.peaks.storeMax hi hx⟩
      rw [hi]
      exact ⟨rfl, rfl, rfl, rfl⟩
  | writing x f fs =>
      rw [hi] at hp
      obtain rfl : call = .store f (L.data x f) := hp
      refine ⟨(h.sums.write ?_ fs).congr rfl rfl rfl, h.peaks.store hi⟩
      rw [hi]
      exact ⟨rfl, rfl, rfl, rfl⟩

end Sound

/-! ## Runs -/

section Runs

variable [DecidableEq F] {n : ℕ} {d₀ : (f : F) → V f} {E : Type}

/-- What can be relied on in spite of the races. -/
structure Plausible (d₀ : (f : F) → V f) (s : Books X V W) : Prop where
  count_le : s.record.count ≤ s.reported.length
  total_eq : ∃ S : Multiset X, S ≤ ↑s.reported ∧ s.record.total = (S.map L.delay).sum
  max_eq : s.record.max = 0 ∨ ∃ x ∈ s.reported, s.record.max = L.delay x
  data_eq : ∀ f, s.record.data f = d₀ f ∨ ∃ x ∈ s.reported, s.record.data f = L.data x f

variable {L} {handle : Fin n → W → (o : O) → Ans o × W}
  {prog : E → Program (Access X V O) (Access.Ret Ans) Unit} {w : W} {es : List (Turn n E)}

omit [DecidableEq F] in
theorem Sound.credible {s : Books X V W} {gs : Fin n → Phase X F} (h : L.Sound d₀ s gs) :
    L.Plausible d₀ s := by
  refine ⟨?_, ?_, h.peaks.max, h.peaks.data⟩
  · obtain ⟨S, hS, hcount⟩ := h.sums.count.cell
    have hcard := Multiset.card_le_card ((Multiset.le_add_right _ _).trans hS)
    simpa [hcount] using hcard
  · obtain ⟨S, hS, htotal⟩ := h.sums.total.cell
    exact ⟨S, (Multiset.le_add_right _ _).trans hS, htotal⟩

/-- The rule for programs that keep to the protocol. -/
theorem interleaved_sound (hprog : ∀ e, (prog e).Follows L.protocol .idle)
    (hv : (interleaved (fun i => Access.run (handle i)) prog (blank d₀ w)).Valid es) :
    Phased L.protocol (L.Sound d₀)
      ((interleaved (fun i => Access.run (handle i)) prog (blank d₀ w)).run es) :=
  interleaved_invariant L.protocol (L.Sound d₀) (sound_blank w) hprog
    (fun _ _ i _ h hp => sound_call (handle i) h hp) hv

omit [DecidableEq F] in
/-- The record says "nothing" only when there is nothing to say. -/
theorem Sound.blank_iff {s : Books X V W} (h : L.Sound d₀ s fun _ : Fin n => .idle) :
    (s.record.count = 0 ↔ s.reported = []) ∧
      (s.record.max = 0 ↔ ∀ x ∈ s.reported, L.delay x = 0) := by
  constructor
  · constructor
    · intro h0
      simpa [Phase.uncounted, PerCpu.total] using h.sums.uncounted h0
    · intro hnil
      have hle := h.credible.count_le
      rw [hnil] at hle
      exact Nat.le_zero.mp hle
  · constructor
    · intro h0 x hx
      by_contra hne
      obtain ⟨i, hi⟩ := h.peaks.unraised h0 x hx hne
      simp [Phase.unraised] at hi
    · intro hall
      rcases h.peaks.max with hmax | ⟨x, hx, hmax⟩
      · exact hmax
      · rw [hmax, hall x hx]

end Runs

end Layout

end EbpfToolbox.Lib
