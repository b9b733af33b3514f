import EbpfToolbox.Lib.Printing
import EbpfToolbox.Net.Inet
import Mathlib.Tactic.IntervalCases

/-!
# inet_ntop

The text of an address as glibc has it: the first of the longest runs of zero groups is
printed as `::` when it has two groups or more, and the last 32 bits are a dotted quad in
`::a.b.c.d` and `::ffff:a.b.c.d` only.

A text is a list of pieces with colons between them. The `Shape` of an address says which
pieces these are. The pieces determine the shape and the shape determines the address, so
two addresses never have the same text.
-/

namespace EbpfToolbox.Net

open Lib Lib.CString

/-! ## inet_ntop -/

/-- A group of two bytes. -/
def group (hi lo : UInt8) : ℕ := 256 * hi.toNat + lo.toNat

def words (a : Addr6) : List ℕ :=
  [group a[0] a[1], group a[2] a[3], group a[4] a[5], group a[6] a[7], group a[8] a[9],
    group a[10] a[11], group a[12] a[13], group a[14] a[15]]

/-- The end of the run `cur`: it is kept when it is longer than `best`. Runs are pairs of a
base and a length. -/
def endRun (best cur : Option (ℕ × ℕ)) : Option (ℕ × ℕ) :=
  match best, cur with
  | best, none => best
  | none, some cur => some cur
  | some best, some cur => if best.2 < cur.2 then some cur else some best

/-- The loop that looks for the longest run of zero groups. -/
def findRun (best cur : Option (ℕ × ℕ)) (i : ℕ) : List Bool → Option (ℕ × ℕ)
  | [] => endRun best cur
  | true :: zeros =>
      match cur with
      | none => findRun best (some (i, 1)) (i + 1) zeros
      | some (base, len) => findRun best (some (base, len + 1)) (i + 1) zeros
  | false :: zeros => findRun (endRun best cur) none (i + 1) zeros

def bestRun (zeros : List Bool) : Option (ℕ × ℕ) :=
  (findRun none none 0 zeros).filter fun run => 2 ≤ run.2

def hexGroups (ws : List ℕ) : CString := join 58 (ws.map (digits 16))

def inetNtop4 (bs : List UInt8) : CString := join 46 (bs.map fun b => digits 10 b.toNat)

def lastFour (a : Addr6) : List UInt8 := [a[12], a[13], a[14], a[15]]

def inetNtop6 (a : Addr6) : CString :=
  match bestRun ((words a).map (· == 0)) with
  | none => hexGroups (words a)
  | some (base, len) =>
      if base = 0 ∧ len = 6 then bytes "::" ++ inetNtop4 (lastFour a)
      else if base = 0 ∧ len = 5 ∧ (words a).getD 5 0 = 0xffff then
        bytes "::ffff:" ++ inetNtop4 (lastFour a)
      else hexGroups ((words a).take base) ++ bytes "::" ++ hexGroups ((words a).drop (base + len))

/-! ## Groups -/

theorem group_lt (hi lo : UInt8) : group hi lo < 16 ^ 4 := by
  have h := hi.toNat_lt
  have l := lo.toNat_lt
  unfold group
  omega

theorem group_inj {hi lo hi' lo' : UInt8} (h : group hi lo = group hi' lo') :
    hi = hi' ∧ lo = lo' := by
  have l := lo.toNat_lt
  have l' := lo'.toNat_lt
  unfold group at h
  exact ⟨UInt8.toNat_inj.1 (by omega), UInt8.toNat_inj.1 (by omega)⟩

theorem words_lt (a : Addr6) : ∀ w ∈ words a, w < 16 ^ 4 := by
  intro w hw
  simp only [words, List.mem_cons, List.not_mem_nil, or_false] at hw
  rcases hw with rfl | rfl | rfl | rfl | rfl | rfl | rfl | rfl <;> exact group_lt _ _

theorem words_injective {a b : Addr6} (h : words a = words b) : a = b := by
  simp only [words, List.cons.injEq, and_true] at h
  rcases h with ⟨h₀, h₁, h₂, h₃, h₄, h₅, h₆, h₇⟩
  have g₀ := group_inj h₀
  have g₁ := group_inj h₁
  have g₂ := group_inj h₂
  have g₃ := group_inj h₃
  have g₄ := group_inj h₄
  have g₅ := group_inj h₅
  have g₆ := group_inj h₆
  have g₇ := group_inj h₇
  apply Vector.ext
  intro i hi
  interval_cases i
  · exact g₀.1
  · exact g₀.2
  · exact g₁.1
  · exact g₁.2
  · exact g₂.1
  · exact g₂.2
  · exact g₃.1
  · exact g₃.2
  · exact g₄.1
  · exact g₄.2
  · exact g₅.1
  · exact g₅.2
  · exact g₆.1
  · exact g₆.2
  · exact g₇.1
  · exact g₇.2

theorem toList_eq (a : Addr6) : a.toList = [a[0], a[1], a[2], a[3], a[4], a[5], a[6], a[7], a[8],
    a[9], a[10], a[11], a[12], a[13], a[14], a[15]] := by
  apply List.ext_getElem
  · exact Vector.length_toList
  · intro i hi _
    rw [Vector.length_toList] at hi
    interval_cases i <;> exact Vector.getElem_toList _

/-! ## The longest run -/

theorem bestRun_spec : ∀ z₀ z₁ z₂ z₃ z₄ z₅ z₆ z₇ : Bool,
    ∀ run ∈ bestRun [z₀, z₁, z₂, z₃, z₄, z₅, z₆, z₇],
      2 ≤ run.2 ∧ run.1 + run.2 ≤ 8 ∧
        (([z₀, z₁, z₂, z₃, z₄, z₅, z₆, z₇].drop run.1).take run.2).all id = true := by
  decide +kernel

variable {a : Addr6} {base len : ℕ}

/-- The run of an address: what is before it, its zeros, and what is after it. -/
theorem words_of_bestRun (h : bestRun ((words a).map (· == 0)) = some (base, len)) :
    2 ≤ len ∧ base + len ≤ 8 ∧ words a =
      (words a).take base ++ (List.replicate len 0 ++ (words a).drop (base + len)) := by
  obtain ⟨hlen, hend, hall⟩ := bestRun_spec _ _ _ _ _ _ _ _ (base, len) h
  refine ⟨hlen, hend, ?_⟩
  have hmid : ((words a).drop base).take len = List.replicate len 0 := by
    apply List.eq_replicate_iff.2
    refine ⟨?_, ?_⟩
    · rw [List.length_take, List.length_drop]
      show min len (8 - base) = len
      omega
    · intro w hw
      have hall' : ((((words a).drop base).take len).map (· == 0)).all id = true := by
        rw [List.map_take, List.map_drop]
        exact hall
      have hz := List.all_eq_true.1 hall' (w == 0) (List.mem_map_of_mem hw)
      simpa using hz
  calc words a = (words a).take base ++ (words a).drop base := (List.take_append_drop _ _).symm
    _ = (words a).take base ++ (((words a).drop base).take len ++ ((words a).drop base).drop len) :=
        by rw [List.take_append_drop len]
    _ = _ := by rw [hmid, List.drop_drop]

/-! ## Shapes -/

/-- How an address is written: with a quad behind `::` and the groups `ws`, with all its
groups, or with a run left out between `pre` and `post`. -/
inductive Shape : Type where
  | quad (ws : List ℕ) (b₀ b₁ b₂ b₃ : UInt8)
  | plain (ws : List ℕ)
  | run (pre post : List ℕ)

def shape (a : Addr6) : Shape :=
  match bestRun ((words a).map (· == 0)) with
  | none => .plain (words a)
  | some (base, len) =>
      if base = 0 ∧ len = 6 then .quad [] a[12] a[13] a[14] a[15]
      else if base = 0 ∧ len = 5 ∧ (words a).getD 5 0 = 0xffff then
        .quad [0xffff] a[12] a[13] a[14] a[15]
      else .run ((words a).take base) ((words a).drop (base + len))

/-- The pieces of the groups on one side of a run; none leave an empty piece. -/
def padded : List ℕ → List CString
  | [] => [[]]
  | w :: ws => (w :: ws).map (digits 16)

def Shape.pieces : Shape → List CString
  | .quad ws b₀ b₁ b₂ b₃ => [] :: [] :: (ws.map (digits 16) ++ [inetNtop4 [b₀, b₁, b₂, b₃]])
  | .plain ws => ws.map (digits 16)
  | .run pre post => padded pre ++ [] :: padded post

/-- The groups that a shape stands for. -/
def Shape.words : Shape → List ℕ
  | .quad ws b₀ b₁ b₂ b₃ => List.replicate (6 - ws.length) 0 ++ (ws ++ [group b₀ b₁, group b₂ b₃])
  | .plain ws => ws
  | .run pre post => pre ++ (List.replicate (8 - (pre.length + post.length)) 0 ++ post)

theorem join_padded (ws : List ℕ) : join 58 (padded ws) = hexGroups ws := by
  cases ws with
  | nil => rfl
  | cons w ws => rfl

theorem padded_ne_nil (ws : List ℕ) : padded ws ≠ [] := by
  cases ws with
  | nil => exact List.cons_ne_nil _ _
  | cons w ws => exact List.cons_ne_nil _ _

/-- An address is written as its shape says. -/
theorem inetNtop6_eq_join (a : Addr6) : inetNtop6 a = join 58 (shape a).pieces := by
  have hcolons : bytes "::" = [58, 58] := by decide +kernel
  have hffff : bytes "::ffff:" = 58 :: 58 :: (digits 16 0xffff ++ [58]) := by decide +kernel
  unfold inetNtop6 shape
  cases bestRun ((words a).map (· == 0)) with
  | none => rfl
  | some run =>
      rcases run with ⟨base, len⟩
      show (if _ then _ else if _ then _ else _) =
        join 58 (Shape.pieces (if _ then _ else if _ then _ else _))
      split_ifs with hsix hfive
      · simp [Shape.pieces, join, hcolons, lastFour]
      · simp [Shape.pieces, join, hffff, lastFour]
      · have hpost : join 58 ([] :: padded ((words a).drop (base + len))) =
            58 :: hexGroups ((words a).drop (base + len)) := by
          rw [← List.singleton_append, join_append 58 (List.cons_ne_nil _ _) (padded_ne_nil _),
            join_padded]
          rfl
        rw [Shape.pieces, join_append 58 (padded_ne_nil _) (List.cons_ne_nil _ _), hpost,
          join_padded, hcolons]
        simp

/-- The groups of an address are those of its shape. -/
theorem words_shape (a : Addr6) : (shape a).words = words a := by
  unfold shape
  cases hrun : bestRun ((words a).map (· == 0)) with
  | none => rfl
  | some run =>
      rcases run with ⟨base, len⟩
      obtain ⟨hlen, hend, hwords⟩ := words_of_bestRun hrun
      show Shape.words (if _ then _ else if _ then _ else _) = _
      split_ifs with hsix hfive
      · rcases hsix with ⟨rfl, rfl⟩
        exact hwords.symm
      · rcases hfive with ⟨rfl, rfl, hones⟩
        have hdrop : (words a).drop 5 = 0xffff :: (words a).drop 6 := by
          rw [← hones]
          rfl
        rw [hdrop] at hwords
        exact hwords.symm
      · have hlength : 8 - (((words a).take base).length +
            ((words a).drop (base + len)).length) = len := by
          rw [List.length_take, List.length_drop]
          show 8 - (min base 8 + (8 - (base + len))) = len
          omega
        rw [Shape.words, hlength]
        exact hwords.symm

/-! ## Reading a text back -/

theorem dot_notMem_hexDigits (w : ℕ) : 46 ∉ digits 16 w :=
  (notMem_digits (by decide) (by decide)).1

theorem colon_notMem_hexDigits (w : ℕ) : 58 ∉ digits 16 w :=
  (notMem_digits (by decide) (by decide)).2.1

theorem nil_notMem_hex (ws : List ℕ) : [] ∉ ws.map (digits 16) := by
  intro h
  obtain ⟨w, -, hw⟩ := List.mem_map.1 h
  exact digits_ne_nil 16 w hw

theorem hex_injective {ws vs : List ℕ} (h : ws.map (digits 16) = vs.map (digits 16)) : ws = vs :=
  (List.map_injective_iff.2 (digits_injective (by decide) (by decide))) h

theorem inetNtop4_injective {bs cs : List UInt8} (hbs : bs ≠ []) (hcs : cs ≠ [])
    (h : inetNtop4 bs = inetNtop4 cs) : bs = cs := by
  have hdot : ∀ ds : List UInt8, ∀ p ∈ ds.map (fun b => digits 10 b.toNat), 46 ∉ p := by
    intro ds p hp
    obtain ⟨b, -, rfl⟩ := List.mem_map.1 hp
    exact (notMem_digits (by decide) (by decide)).1
  have hpieces := join_inj (by simpa using hbs) (by simpa using hcs) (hdot bs) (hdot cs) h
  refine List.map_injective_iff.2 ?_ hpieces
  intro b c hbc
  exact UInt8.toNat_inj.1 (digits_injective (by decide) (by decide) hbc)

theorem colon_notMem_inetNtop4 (bs : List UInt8) : 58 ∉ inetNtop4 bs := by
  apply notMem_join (by decide)
  intro p hp
  obtain ⟨b, -, rfl⟩ := List.mem_map.1 hp
  exact (notMem_digits (by decide) (by decide)).2.1

theorem padded_injective {ws vs : List ℕ} (h : padded ws = padded vs) : ws = vs := by
  cases ws with
  | nil =>
      cases vs with
      | nil => rfl
      | cons v vs =>
          exact absurd (show [] ∈ padded (v :: vs) by rw [← h]; exact List.mem_cons_self)
            (nil_notMem_hex (v :: vs))
  | cons w ws =>
      cases vs with
      | nil =>
          exact absurd (show [] ∈ padded (w :: ws) by rw [h]; exact List.mem_cons_self)
            (nil_notMem_hex (w :: ws))
      | cons v vs => exact hex_injective h

theorem mem_padded {ws : List ℕ} {p : CString} (h : p ∈ padded ws) :
    p = [] ∨ ∃ w, p = digits 16 w := by
  cases ws with
  | nil => exact Or.inl (List.mem_singleton.1 h)
  | cons w ws =>
      obtain ⟨v, -, rfl⟩ := List.mem_map.1 h
      exact Or.inr ⟨v, rfl⟩

/-- A piece is empty, a group or a quad, and a quad is a piece of the first shape only. -/
theorem Shape.mem_pieces {s : Shape} {p : CString} (h : p ∈ s.pieces) :
    p = [] ∨ (∃ w, p = digits 16 w) ∨
      ∃ ws b₀ b₁ b₂ b₃, s = .quad ws b₀ b₁ b₂ b₃ ∧ p = inetNtop4 [b₀, b₁, b₂, b₃] := by
  cases s with
  | quad ws b₀ b₁ b₂ b₃ =>
      simp only [Shape.pieces, List.mem_cons, List.mem_append, List.mem_map, List.not_mem_nil,
        or_false] at h
      rcases h with rfl | rfl | ⟨w, -, rfl⟩ | rfl
      · exact Or.inl rfl
      · exact Or.inl rfl
      · exact Or.inr (Or.inl ⟨w, rfl⟩)
      · exact Or.inr (Or.inr ⟨ws, b₀, b₁, b₂, b₃, rfl, rfl⟩)
  | plain ws =>
      obtain ⟨w, -, rfl⟩ := List.mem_map.1 h
      exact Or.inr (Or.inl ⟨w, rfl⟩)
  | run pre post =>
      simp only [Shape.pieces, List.mem_append, List.mem_cons] at h
      rcases h with h | rfl | h
      · exact (mem_padded h).imp_right Or.inl
      · exact Or.inl rfl
      · exact (mem_padded h).imp_right Or.inl

theorem Shape.colon_notMem (s : Shape) : ∀ p ∈ s.pieces, 58 ∉ p := by
  intro p hp
  rcases Shape.mem_pieces hp with rfl | ⟨w, rfl⟩ | ⟨ws, b₀, b₁, b₂, b₃, -, rfl⟩
  · exact List.not_mem_nil
  · exact colon_notMem_hexDigits w
  · exact colon_notMem_inetNtop4 _

/-- Only a quad has a dot in it. -/
theorem Shape.quad_of_dot {s : Shape} {p : CString} (h : p ∈ s.pieces) (hdot : 46 ∈ p) :
    ∃ ws b₀ b₁ b₂ b₃, s = .quad ws b₀ b₁ b₂ b₃ := by
  rcases Shape.mem_pieces h with rfl | ⟨w, rfl⟩ | ⟨ws, b₀, b₁, b₂, b₃, hs, -⟩
  · exact absurd hdot List.not_mem_nil
  · exact absurd hdot (dot_notMem_hexDigits w)
  · exact ⟨ws, b₀, b₁, b₂, b₃, hs⟩

theorem Shape.pieces_ne_run (ws pre post : List ℕ) (b₀ b₁ b₂ b₃ : UInt8) :
    (Shape.quad ws b₀ b₁ b₂ b₃).pieces ≠ (Shape.run pre post).pieces := by
  intro h
  have hlast : inetNtop4 [b₀, b₁, b₂, b₃] ∈ (Shape.run pre post).pieces := by
    rw [← h]
    simp [Shape.pieces]
  obtain ⟨_, _, _, _, _, hs⟩ := Shape.quad_of_dot hlast (by simp [inetNtop4, join])
  cases hs

theorem Shape.pieces_plain_ne (ws : List ℕ) {s : Shape} (hs : [] ∈ s.pieces) :
    (Shape.plain ws).pieces ≠ s.pieces := by
  intro h
  rw [← h] at hs
  exact nil_notMem_hex ws hs

/-- A run is cut at the first empty piece, or at the second when nothing is before it. -/
theorem Shape.pieces_run_inj {pre post pre' post' : List ℕ}
    (h : (Shape.run pre post).pieces = (Shape.run pre' post').pieces) :
    pre = pre' ∧ post = post' := by
  cases pre with
  | nil =>
      cases pre' with
      | nil =>
          obtain ⟨-, hrest⟩ := List.cons.inj h
          exact ⟨rfl, padded_injective (List.cons.inj hrest).2⟩
      | cons w ws => exact absurd (List.cons.inj h).1.symm (digits_ne_nil 16 w)
  | cons w ws =>
      cases pre' with
      | nil => exact absurd (List.cons.inj h).1 (digits_ne_nil 16 w)
      | cons v vs =>
          obtain ⟨hpre, hpost⟩ := append_sep_inj (nil_notMem_hex (w :: ws))
            (nil_notMem_hex (v :: vs)) h
          exact ⟨hex_injective hpre, padded_injective hpost⟩

/-- The pieces determine the shape. -/
theorem Shape.pieces_injective {s t : Shape} (h : s.pieces = t.pieces) : s = t := by
  have hquad : ∀ ws b₀ b₁ b₂ b₃, [] ∈ (Shape.quad ws b₀ b₁ b₂ b₃).pieces :=
    fun _ _ _ _ _ => List.mem_cons_self
  have hrun : ∀ pre post, [] ∈ (Shape.run pre post).pieces :=
    fun pre _ => List.mem_append_right (padded pre) List.mem_cons_self
  cases s with
  | quad ws b₀ b₁ b₂ b₃ =>
      cases t with
      | quad vs c₀ c₁ c₂ c₃ =>
          obtain ⟨-, hrest⟩ := List.cons.inj h
          obtain ⟨hgroups, hlast⟩ := List.append_inj' (List.cons.inj hrest).2 rfl
          have hbytes := inetNtop4_injective (List.cons_ne_nil _ _) (List.cons_ne_nil _ _)
            (List.cons.inj hlast).1
          simp only [List.cons.injEq, and_true] at hbytes
          rcases hbytes with ⟨rfl, rfl, rfl, rfl⟩
          rw [hex_injective hgroups]
      | plain vs => exact absurd h.symm (pieces_plain_ne vs (hquad ws b₀ b₁ b₂ b₃))
      | run pre post => exact absurd h (pieces_ne_run ws pre post b₀ b₁ b₂ b₃)
  | plain ws =>
      cases t with
      | quad vs c₀ c₁ c₂ c₃ => exact absurd h (pieces_plain_ne ws (hquad vs c₀ c₁ c₂ c₃))
      | plain vs => rw [hex_injective h]
      | run pre post => exact absurd h (pieces_plain_ne ws (hrun pre post))
  | run pre post =>
      cases t with
      | quad vs c₀ c₁ c₂ c₃ => exact absurd h.symm (pieces_ne_run vs pre post c₀ c₁ c₂ c₃)
      | plain vs => exact absurd h.symm (pieces_plain_ne vs (hrun pre post))
      | run pre' post' =>
          obtain ⟨rfl, rfl⟩ := pieces_run_inj h
          rfl

theorem pieces_shape_ne_nil (a : Addr6) : (shape a).pieces ≠ [] := by
  intro h
  have hwords := words_shape a
  cases hs : shape a with
  | quad ws b₀ b₁ b₂ b₃ =>
      rw [hs] at h
      exact List.cons_ne_nil _ _ h
  | plain ws =>
      rw [hs] at h hwords
      have hnil : ws = [] := List.map_eq_nil_iff.1 h
      rw [hnil] at hwords
      exact List.cons_ne_nil _ _ hwords.symm
  | run pre post =>
      rw [hs] at h
      exact List.cons_ne_nil _ _ (List.append_eq_nil_iff.1 h).2

/-- Two addresses never have the same text. -/
theorem inetNtop6_injective : Function.Injective inetNtop6 := by
  intro a b h
  rw [inetNtop6_eq_join, inetNtop6_eq_join] at h
  have hpieces := join_inj (pieces_shape_ne_nil a) (pieces_shape_ne_nil b) (shape a).colon_notMem
    (shape b).colon_notMem h
  apply words_injective
  rw [← words_shape a, ← words_shape b, Shape.pieces_injective hpieces]

theorem bracket_notMem_inetNtop6 (a : Addr6) : 91 ∉ inetNtop6 a := by
  rw [inetNtop6_eq_join]
  apply notMem_join (by decide)
  intro p hp
  rcases Shape.mem_pieces hp with rfl | ⟨w, rfl⟩ | ⟨ws, b₀, b₁, b₂, b₃, -, rfl⟩
  · exact List.not_mem_nil
  · exact (notMem_digits (by decide) (by decide)).2.2
  · apply notMem_join (by decide)
    intro q hq
    obtain ⟨b, -, rfl⟩ := List.mem_map.1 hq
    exact (notMem_digits (by decide) (by decide)).2.2

/-! ## The length of a text -/

theorem length_hexGroups_le {ws : List ℕ} (h : ∀ w ∈ ws, w < 16 ^ 4) :
    (hexGroups ws).length ≤ 5 * ws.length - 1 := by
  cases ws with
  | nil => exact Nat.zero_le _
  | cons w ws =>
      have hpieces : ∀ p ∈ (w :: ws).map (digits 16), p.length ≤ 4 := by
        intro p hp
        obtain ⟨v, hv, rfl⟩ := List.mem_map.1 hp
        exact length_digits_le (by decide) (by decide) (h v hv)
      have hjoin := length_join_lt 58 (List.cons_ne_nil _ _) hpieces
      rw [← List.map_cons, List.length_map] at hjoin
      exact Nat.le_sub_one_of_lt hjoin

theorem length_inetNtop4_le (b₀ b₁ b₂ b₃ : UInt8) : (inetNtop4 [b₀, b₁, b₂, b₃]).length ≤ 15 := by
  have hpieces : ∀ p ∈ [b₀, b₁, b₂, b₃].map (fun b => digits 10 b.toNat), p.length ≤ 3 := by
    intro p hp
    obtain ⟨b, -, rfl⟩ := List.mem_map.1 hp
    have hb := b.toNat_lt
    exact length_digits_le (by decide) (by decide) (by omega)
  exact Nat.le_of_lt_succ (length_join_lt 46 (List.cons_ne_nil _ _) hpieces)

theorem length_inetNtop6_le (a : Addr6) : (inetNtop6 a).length ≤ 39 := by
  have hquad := length_inetNtop4_le a[12] a[13] a[14] a[15]
  unfold inetNtop6
  cases hrun : bestRun ((words a).map (· == 0)) with
  | none => exact length_hexGroups_le (words_lt a)
  | some run =>
      rcases run with ⟨base, len⟩
      obtain ⟨hlen, hend, -⟩ := words_of_bestRun hrun
      show List.length (if _ then _ else if _ then _ else _) ≤ 39
      split_ifs with hsix hfive
      · rw [List.length_append, show (bytes "::").length = 2 by decide +kernel]
        exact le_trans (Nat.add_le_add_left hquad 2) (by decide)
      · rw [List.length_append, show (bytes "::ffff:").length = 7 by decide +kernel]
        exact le_trans (Nat.add_le_add_left hquad 7) (by decide)
      · have hpre := length_hexGroups_le fun w hw => words_lt a w (List.mem_of_mem_take (i := base) hw)
        have hpost := length_hexGroups_le fun w hw =>
          words_lt a w (List.mem_of_mem_drop (i := base + len) hw)
        rw [List.length_take, show (words a).length = 8 from rfl] at hpre
        rw [List.length_drop, show (words a).length = 8 from rfl] at hpost
        rw [List.length_append, List.length_append,
          show (bytes "::").length = 2 by decide +kernel]
        omega

end EbpfToolbox.Net
