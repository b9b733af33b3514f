import EbpfToolbox.Net.InetNtop

/-!
# Endpoints as text

`fmt_addr` of `net/tcp_monitor/user.c` prints an endpoint. It takes an address for a mapped
one when its text starts with `::ffff:`. A run of two, three or four zero groups in front of
a group `ffff` gives that text as well, and the endpoint is then printed without its
brackets and without its first groups.
-/

namespace EbpfToolbox.Net

open Lib Lib.CString

/-! ## fmt_addr -/

/-- The bytes of a `uint32_t` in memory, on a little-endian machine. -/
def bytesOf32 (v : UInt32) : List UInt8 :=
  [v.toUInt8, (v >>> 8).toUInt8, (v >>> 16).toUInt8, (v >>> 24).toUInt8]

/-- What `fmt_addr` prints when nothing is cut off. -/
def fmtText (af : UInt16) (v4 : UInt32) (v6 : Addr6) (port : UInt16) : CString :=
  if af = afInet then inetNtop4 (bytesOf32 v4) ++ bytes ":" ++ leftFive port.toNat
  else if af = afInet6 then
    let ip := inetNtop6 v6
    if ip.take 7 = bytes "::ffff:" then ip.drop 7 ++ bytes ":" ++ leftFive port.toNat
    else bytes "[" ++ ip ++ bytes "]:" ++ leftFive port.toNat
  else bytes "?:" ++ leftFive port.toNat

/-- `fmt_addr` with a buffer of `len` bytes; `snprintf` leaves room for the final zero. -/
def fmtAddr (len : ℕ) (af : UInt16) (v4 : UInt32) (v6 : Addr6) (port : UInt16) : CString :=
  (fmtText af v4 v6 port).take (len - 1)

/-! ## Mapped addresses -/

/-- 80 zero bits followed by 16 one bits. -/
def Mapped (a : Addr6) : Prop := a.toList.take 12 = [0, 0, 0, 0, 0, 0, 0, 0, 0, 0, 255, 255]

instance (a : Addr6) : Decidable (Mapped a) := inferInstanceAs (Decidable (_ = _))

/-- The endpoint as it is meant: in brackets, unless the address is a mapped one. -/
def endpoint (a : Addr6) (port : UInt16) : CString :=
  if Mapped a then inetNtop4 (lastFour a) ++ bytes ":" ++ leftFive port.toNat
  else bytes "[" ++ inetNtop6 a ++ bytes "]:" ++ leftFive port.toNat

/-- The first `k` groups are zero, the next one is not, and no later run of zero groups is
longer. -/
def LeadingRun (zeros : List Bool) (k : ℕ) : Prop :=
  (∀ i < k, zeros.getD i false = true) ∧ zeros.getD k false = false ∧
    ∀ base < 8, k < base → base + k < 8 → ∃ i < k + 1, zeros.getD (base + i) false = false

instance (zeros : List Bool) (k : ℕ) : Decidable (LeadingRun zeros k) :=
  inferInstanceAs (Decidable ((∀ i < k, zeros.getD i false = true) ∧ zeros.getD k false = false ∧
    ∀ base < 8, k < base → base + k < 8 → ∃ i < k + 1, zeros.getD (base + i) false = false))

/-- The address starts with the run that is left out, of two to four groups, and a group
`ffff`. -/
def Misread (a : Addr6) : Prop :=
  ∃ k < 5, 2 ≤ k ∧ LeadingRun ((words a).map (· == 0)) k ∧ (words a).getD k 0 = 0xffff

instance (a : Addr6) : Decidable (Misread a) :=
  inferInstanceAs (Decidable (∃ k < 5, 2 ≤ k ∧ LeadingRun ((words a).map (· == 0)) k ∧
    (words a).getD k 0 = 0xffff))

variable {a : Addr6} {base len : ℕ}

/-! ## Runs in front -/

/-- A mapped address in groups. -/
theorem mapped_iff (a : Addr6) : Mapped a ↔ (words a).take 6 = [0, 0, 0, 0, 0, 0xffff] := by
  have hzero : ∀ hi lo : UInt8, group hi lo = 0 ↔ hi = 0 ∧ lo = 0 :=
    fun hi lo => ⟨fun h => group_inj (h.trans (show 0 = group 0 0 from rfl)),
      fun h => by rw [h.1, h.2]; rfl⟩
  have hones : ∀ hi lo : UInt8, group hi lo = 0xffff ↔ hi = 255 ∧ lo = 255 :=
    fun hi lo => ⟨fun h => group_inj (h.trans (show 0xffff = group 255 255 from rfl)),
      fun h => by rw [h.1, h.2]; rfl⟩
  unfold Mapped
  rw [toList_eq]
  simp only [words, List.take_succ_cons, List.take_zero, List.cons.injEq, hzero, hones, and_true,
    and_assoc]

theorem bestRun_of_five : ∀ z₆ z₇ : Bool,
    bestRun [true, true, true, true, true, false, z₆, z₇] = some (0, 5) := by
  decide +kernel

theorem bestRun_at_zero : ∀ z₀ z₁ z₂ z₃ z₄ z₅ z₆ z₇ : Bool, ∀ k < 5, 2 ≤ k →
    (bestRun [z₀, z₁, z₂, z₃, z₄, z₅, z₆, z₇] = some (0, k) ↔
      LeadingRun [z₀, z₁, z₂, z₃, z₄, z₅, z₆, z₇] k) := by
  decide +kernel

/-- A mapped address has its run of five groups in front. -/
theorem bestRun_of_mapped (h : Mapped a) : bestRun ((words a).map (· == 0)) = some (0, 5) := by
  have hwords := (mapped_iff a).1 h
  simp only [words, List.take_succ_cons, List.take_zero, List.cons.injEq, and_true] at hwords
  rcases hwords with ⟨h₀, h₁, h₂, h₃, h₄, h₅⟩
  simp only [words, List.map_cons, List.map_nil, h₀, h₁, h₂, h₃, h₄, h₅]
  exact bestRun_of_five _ _

theorem mapped_of_bestRun (h : bestRun ((words a).map (· == 0)) = some (0, 5))
    (hones : (words a).getD 5 0 = 0xffff) : Mapped a := by
  obtain ⟨-, -, hwords⟩ := words_of_bestRun h
  rw [mapped_iff]
  have hdrop : (words a).drop 5 = 0xffff :: (words a).drop 6 := by
    rw [← hones]
    rfl
  rw [hwords, hdrop]
  rfl

/-! ## The test on the text -/

/-- Shapes whose text starts with `::ffff:`. -/
def Shape.Prefixed : Shape → Prop
  | .quad ws _ _ _ _ => ∃ vs, ws = 0xffff :: vs
  | .plain _ => False
  | .run pre post => pre = [] ∧ ∃ w vs, post = 0xffff :: w :: vs

theorem padded_eq_cons {ws : List ℕ} {p : CString} {ps : List CString}
    (h : padded ws = digits 16 0xffff :: p :: ps) : ∃ w vs, ws = 0xffff :: w :: vs := by
  cases ws with
  | nil => cases h
  | cons v vs =>
      obtain ⟨hv, hvs⟩ := List.cons.inj h
      rw [digits_injective (by decide) (by decide) hv]
      cases vs with
      | nil => cases hvs
      | cons w vs => exact ⟨w, vs, rfl⟩

theorem Shape.prefixed_iff (s : Shape) :
    (∃ p ps, s.pieces = [[], [], digits 16 0xffff] ++ p :: ps) ↔ s.Prefixed := by
  cases s with
  | quad ws b₀ b₁ b₂ b₃ =>
      constructor
      · rintro ⟨p, ps, h⟩
        cases ws with
        | nil =>
            have hlen := congrArg List.length h
            simp [Shape.pieces] at hlen
        | cons w vs =>
            have hw := (List.cons.inj (List.cons.inj (List.cons.inj h).2).2).1
            exact ⟨vs, by rw [digits_injective (by decide) (by decide) hw]⟩
      · rintro ⟨vs, rfl⟩
        cases vs with
        | nil => exact ⟨_, _, rfl⟩
        | cons v vs => exact ⟨_, _, rfl⟩
  | plain ws =>
      refine iff_of_false ?_ id
      rintro ⟨p, ps, h⟩
      exact nil_notMem_hex ws (show [] ∈ (Shape.plain ws).pieces by rw [h]; exact List.mem_cons_self)
  | run pre post =>
      constructor
      · rintro ⟨p, ps, h⟩
        cases pre with
        | nil => exact ⟨rfl, padded_eq_cons (List.cons.inj (List.cons.inj h).2).2⟩
        | cons w ws => exact absurd (List.cons.inj h).1 (digits_ne_nil 16 w)
      · rintro ⟨rfl, w, vs, rfl⟩
        exact ⟨_, _, rfl⟩

/-- The test of `fmt_addr` reads the shape of the address. -/
theorem take_inetNtop6_iff_prefixed (a : Addr6) :
    (inetNtop6 a).take 7 = bytes "::ffff:" ↔ (shape a).Prefixed := by
  have htext : bytes "::ffff:" = join 58 [[], [], digits 16 0xffff] ++ [58] := by decide +kernel
  have hseps : ∀ q ∈ [[], [], digits 16 0xffff], 58 ∉ q := by decide +kernel
  rw [← Shape.prefixed_iff, inetNtop6_eq_join,
    ← join_prefix_iff (List.cons_ne_nil _ _) hseps (shape a).colon_notMem, ← htext,
    List.prefix_iff_eq_take, show (bytes "::ffff:").length = 7 by decide +kernel]
  exact eq_comm

/-- Mapped and misread addresses have their run in front, and a group `ffff` behind it. -/
theorem bestRun_of_mapped_or_misread (h : Mapped a ∨ Misread a) :
    ∃ k < 6, 2 ≤ k ∧ bestRun ((words a).map (· == 0)) = some (0, k) ∧
      (words a).getD k 0 = 0xffff := by
  rcases h with h | ⟨k, hk, hk2, hlead, hones⟩
  · have hwords := congrArg (fun l => l.getD 5 0) ((mapped_iff a).1 h)
    exact ⟨5, by decide, by decide, bestRun_of_mapped h, hwords⟩
  · exact ⟨k, by omega, hk2, (bestRun_at_zero _ _ _ _ _ _ _ _ k hk hk2).2 hlead, hones⟩

/-- Behind a run of `len` groups in front stands a group `ffff` and another one. -/
theorem drop_words_iff (hlen : len < 7) :
    (∃ w vs, (words a).drop len = 0xffff :: w :: vs) ↔ (words a).getD len 0 = 0xffff := by
  have hlt : len + 1 < (words a).length := Nat.succ_lt_succ hlen
  rw [List.drop_eq_getElem_cons (Nat.lt_of_succ_lt hlt), List.drop_eq_getElem_cons hlt,
    List.getD_eq_getElem?_getD, List.getElem?_eq_getElem (Nat.lt_of_succ_lt hlt), Option.getD_some]
  constructor
  · rintro ⟨w, vs, h⟩
    exact (List.cons.inj h).1
  · intro h
    exact ⟨_, _, by rw [h]⟩

theorem bestRun_unique {run : ℕ × ℕ} (h : bestRun ((words a).map (· == 0)) = some (base, len))
    (h' : bestRun ((words a).map (· == 0)) = some run) : base = run.1 ∧ len = run.2 := by
  rw [h] at h'
  obtain rfl := Option.some.inj h'
  exact ⟨rfl, rfl⟩

/-- A run that is left out with no quad behind it: it has to be the first one, and shorter
than five groups, since five groups in front of a group `ffff` make a quad. -/
theorem run_prefixed_iff (hrun : bestRun ((words a).map (· == 0)) = some (base, len))
    (hsix : ¬ (base = 0 ∧ len = 6))
    (hfive : ¬ (base = 0 ∧ len = 5 ∧ (words a).getD 5 0 = 0xffff)) :
    (Shape.run ((words a).take base) ((words a).drop (base + len))).Prefixed ↔
      Mapped a ∨ Misread a := by
  obtain ⟨hlen, -, -⟩ := words_of_bestRun hrun
  constructor
  · rintro ⟨htake, w, vs, hdrop⟩
    have hbase : base = 0 := by
      have hl := congrArg List.length htake
      rw [List.length_take] at hl
      change min base 8 = 0 at hl
      omega
    subst hbase
    rw [Nat.zero_add] at hdrop
    have hl := congrArg List.length hdrop
    rw [List.length_drop] at hl
    change 8 - len = vs.length + 1 + 1 at hl
    have hones := (drop_words_iff (by omega)).1 ⟨w, vs, hdrop⟩
    have hlt : len < 5 := by
      by_contra hge
      have hcases : len = 5 ∨ len = 6 := by omega
      rcases hcases with rfl | rfl
      · exact hfive ⟨rfl, rfl, hones⟩
      · exact hsix ⟨rfl, rfl⟩
    exact Or.inr ⟨len, hlt, hlen, (bestRun_at_zero _ _ _ _ _ _ _ _ len hlt hlen).1 hrun, hones⟩
  · intro h
    obtain ⟨k, hk, -, hkrun, hones⟩ := bestRun_of_mapped_or_misread h
    obtain ⟨rfl, rfl⟩ := bestRun_unique hrun hkrun
    refine ⟨rfl, ?_⟩
    rw [Nat.zero_add]
    exact (drop_words_iff (by omega)).2 hones

theorem prefixed_iff_mapped_or_misread (a : Addr6) :
    (shape a).Prefixed ↔ Mapped a ∨ Misread a := by
  unfold shape
  cases hrun : bestRun ((words a).map (· == 0)) with
  | none =>
      apply iff_of_false id
      intro h
      obtain ⟨k, -, -, hk, -⟩ := bestRun_of_mapped_or_misread h
      rw [hk] at hrun
      cases hrun
  | some run =>
      rcases run with ⟨base, len⟩
      show Shape.Prefixed (if _ then _ else if _ then _ else _) ↔ _
      split_ifs with hsix hfive
      · -- six zero groups: the quad follows at once
        refine iff_of_false ?_ ?_
        · rintro ⟨vs, h⟩
          cases h
        · intro h
          obtain ⟨k, hk, -, hkrun, -⟩ := bestRun_of_mapped_or_misread h
          have hsame := (bestRun_unique hrun hkrun).2
          omega
      · rcases hfive with ⟨rfl, rfl, hones⟩
        exact iff_of_true ⟨[], rfl⟩ (Or.inl (mapped_of_bestRun hrun hones))
      · exact run_prefixed_iff hrun hsix hfive

/-- The test of `fmt_addr` finds the mapped addresses and the misread ones. -/
theorem take_inetNtop6_iff (a : Addr6) :
    (inetNtop6 a).take 7 = bytes "::ffff:" ↔ Mapped a ∨ Misread a :=
  (take_inetNtop6_iff_prefixed a).trans (prefixed_iff_mapped_or_misread a)

/-! ## The text of an endpoint -/

theorem length_leftFive (port : UInt16) : (leftFive port.toNat).length = 5 := by
  have hport := port.toNat_lt
  have hdigits := length_digits_le (by decide : 1 < 10) (by decide : 0 < 5)
    (show port.toNat < 10 ^ 5 by omega)
  rw [leftFive, List.length_append, List.length_replicate]
  omega

/-- The longest endpoint fits in the 48 bytes that `handle_event` has for it. -/
theorem length_fmtText_le (v4 : UInt32) (v6 : Addr6) (port : UInt16) :
    (fmtText afInet6 v4 v6 port).length ≤ 47 := by
  have hip := length_inetNtop6_le v6
  have hport := length_leftFive port
  have hcolon : (bytes ":").length = 1 := by decide +kernel
  have hopen : (bytes "[").length = 1 := by decide +kernel
  have hclose : (bytes "]:").length = 2 := by decide +kernel
  rw [fmtText, if_neg (by decide), if_pos rfl]
  show List.length (if _ then _ else _) ≤ 47
  split_ifs with hprefix
  · rw [List.length_append, List.length_append, List.length_drop]
    omega
  · rw [List.length_append, List.length_append, List.length_append]
    omega

theorem fmtAddr_eq_fmtText (v4 : UInt32) (v6 : Addr6) (port : UInt16) (h : 48 ≤ len) :
    fmtAddr len afInet6 v4 v6 port = fmtText afInet6 v4 v6 port := by
  have hlen := length_fmtText_le v4 v6 port
  exact List.take_of_length_le (by omega)

theorem fmtText_unbracketed (v4 : UInt32) (port : UInt16)
    (h : (inetNtop6 a).take 7 = bytes "::ffff:") :
    fmtText afInet6 v4 a port = (inetNtop6 a).drop 7 ++ bytes ":" ++ leftFive port.toNat := by
  rw [fmtText, if_neg (by decide), if_pos rfl]
  exact if_pos h

theorem fmtText_bracketed (v4 : UInt32) (port : UInt16)
    (h : (inetNtop6 a).take 7 ≠ bytes "::ffff:") :
    fmtText afInet6 v4 a port =
      bytes "[" ++ inetNtop6 a ++ bytes "]:" ++ leftFive port.toNat := by
  rw [fmtText, if_neg (by decide), if_pos rfl]
  exact if_neg h

/-- A mapped address is written as `::ffff:` and its quad. -/
theorem inetNtop6_of_mapped (h : Mapped a) :
    inetNtop6 a = bytes "::ffff:" ++ inetNtop4 (lastFour a) := by
  have hones := congrArg (fun l => l.getD 5 0) ((mapped_iff a).1 h)
  rw [inetNtop6, bestRun_of_mapped h]
  show (if _ then _ else if _ then _ else _) = _
  rw [if_neg (by decide), if_pos ⟨rfl, rfl, hones⟩]

/-- An address that is both would have two runs in front. -/
theorem not_mapped_of_misread (h : Misread a) : ¬ Mapped a := by
  intro hm
  rcases h with ⟨k, hk, hk2, hlead, -⟩
  have hrun := (bestRun_at_zero _ _ _ _ _ _ _ _ k hk hk2).2 hlead
  have hfive := (bestRun_unique (bestRun_of_mapped hm) hrun).2
  omega

/-- An endpoint without brackets is never one with brackets. -/
theorem unbracketed_ne (b : Addr6) (port : UInt16) (ip sep t : CString) :
    (inetNtop6 b).drop 7 ++ bytes ":" ++ leftFive port.toNat ≠ bytes "[" ++ ip ++ sep ++ t := by
  intro h
  have hmem : 91 ∈ (inetNtop6 b).drop 7 ++ bytes ":" ++ leftFive port.toNat := by
    rw [h]
    exact List.mem_append_left t (List.mem_append_left sep (List.mem_append_left ip
      (by decide +kernel)))
  simp only [List.mem_append, leftFive, List.mem_replicate] at hmem
  rcases hmem with (hmem | hmem) | hmem | ⟨-, hmem⟩
  · exact bracket_notMem_inetNtop6 b (List.mem_of_mem_drop hmem)
  · revert hmem
    decide +kernel
  · exact (notMem_digits (by decide) (by decide)).2.2 hmem
  · exact absurd hmem (by decide)

theorem fmtText_eq_endpoint_iff (v4 : UInt32) (v6 : Addr6) (port : UInt16) :
    fmtText afInet6 v4 v6 port = endpoint v6 port ↔ ¬ Misread v6 := by
  by_cases hm : Mapped v6
  · have hip := inetNtop6_of_mapped hm
    refine iff_of_true ?_ (fun hmis => not_mapped_of_misread hmis hm)
    rw [fmtText_unbracketed v4 port ((take_inetNtop6_iff v6).2 (Or.inl hm)), endpoint, if_pos hm, hip,
      List.drop_left' (by decide +kernel)]
  · rw [endpoint, if_neg hm]
    by_cases hmis : Misread v6
    · refine iff_of_false ?_ (not_not_intro hmis)
      rw [fmtText_unbracketed v4 port ((take_inetNtop6_iff v6).2 (Or.inr hmis))]
      exact unbracketed_ne v6 port _ _ _
    · refine iff_of_true ?_ hmis
      exact fmtText_bracketed v4 port
        fun h => ((take_inetNtop6_iff v6).1 h).elim hm hmis

/-- The text gives the address back, whether it is read right or not. -/
theorem fmtText_inj {v4 v4' : UInt32} {v6 v6' : Addr6} {port : UInt16}
    (h : fmtText afInet6 v4 v6 port = fmtText afInet6 v4' v6' port) : v6 = v6' := by
  apply inetNtop6_injective
  by_cases hp : (inetNtop6 v6).take 7 = bytes "::ffff:"
  · rw [fmtText_unbracketed v4 port hp] at h
    by_cases hp' : (inetNtop6 v6').take 7 = bytes "::ffff:"
    · rw [fmtText_unbracketed v4' port hp'] at h
      have hdrop := List.append_cancel_right (List.append_cancel_right h)
      rw [← List.take_append_drop 7 (inetNtop6 v6), ← List.take_append_drop 7 (inetNtop6 v6'), hp,
        hp', hdrop]
    · rw [fmtText_bracketed v4' port hp'] at h
      exact absurd h (unbracketed_ne v6 port _ _ _)
  · rw [fmtText_bracketed v4 port hp] at h
    by_cases hp' : (inetNtop6 v6').take 7 = bytes "::ffff:"
    · rw [fmtText_unbracketed v4' port hp'] at h
      exact absurd h.symm (unbracketed_ne v6' port _ _ _)
    · rw [fmtText_bracketed v4' port hp'] at h
      exact List.append_cancel_left (List.append_cancel_right (List.append_cancel_right h))

/-- With 48 bytes or more an endpoint is printed as it is meant exactly when its address is
not misread, and no other address is ever printed with the same text. -/
theorem fmtAddr_is_endpoint_iff (h : 48 ≤ len) (v4 : UInt32) (v6 : Addr6) (port : UInt16) :
    (fmtAddr len afInet6 v4 v6 port = endpoint v6 port ↔ ¬ Misread v6) ∧
      ∀ v4' v6', fmtAddr len afInet6 v4' v6' port = fmtAddr len afInet6 v4 v6 port → v6' = v6 := by
  constructor
  · rw [fmtAddr_eq_fmtText v4 v6 port h]
    exact fmtText_eq_endpoint_iff v4 v6 port
  · intro v4' v6' htext
    rw [fmtAddr_eq_fmtText v4' v6' port h, fmtAddr_eq_fmtText v4 v6 port h] at htext
    exact fmtText_inj htext

/-- `2001:db8::1`, port 443. -/
theorem fmtAddr_is_endpoint_documentation :
    let v6 : Addr6 := #v[0x20, 0x01, 0x0d, 0xb8, 0, 0, 0, 0, 0, 0, 0, 0, 0, 0, 0, 1]
    endpoint v6 443 = bytes "[2001:db8::1]:443  " ∧
      fmtAddr 48 afInet6 0 v6 443 = bytes "[2001:db8::1]:443  " := by
  intro v6
  have hmeant : endpoint v6 443 = bytes "[2001:db8::1]:443  " := by decide +kernel
  have hread : ¬ Misread v6 := by decide +kernel
  exact ⟨hmeant, ((fmtAddr_is_endpoint_iff (by decide) 0 v6 443).1.2 hread).trans hmeant⟩

/-- `0:0:0:0:ffff:0:0:1` is no mapped address. Its text is `::ffff:0:0:1`, and the endpoint
loses its brackets and its first groups. -/
theorem fmtAddr_misreads_leading_run :
    let v6 : Addr6 := #v[0, 0, 0, 0, 0, 0, 0, 0, 0xff, 0xff, 0, 0, 0, 0, 0, 1]
    ¬ Mapped v6 ∧ endpoint v6 80 = bytes "[::ffff:0:0:1]:80   " ∧
      fmtAddr 48 afInet6 0 v6 80 = bytes "0:0:1:80   " ∧
      ¬ ∃ n, ∀ len ≥ n, ∀ (a : Addr6) (port : UInt16),
        fmtAddr len afInet6 0 a port = endpoint a port := by
  intro v6
  have hmeant : endpoint v6 80 = bytes "[::ffff:0:0:1]:80   " := by decide +kernel
  have hprinted : fmtAddr 48 afInet6 0 v6 80 = bytes "0:0:1:80   " := by decide +kernel
  refine ⟨by decide +kernel, hmeant, hprinted, ?_⟩
  rintro ⟨n, hall⟩
  -- a larger buffer changes nothing
  have hlarge : fmtAddr (n + 48) afInet6 0 v6 80 = fmtAddr 48 afInet6 0 v6 80 := by
    rw [fmtAddr_eq_fmtText 0 v6 80 (Nat.le_add_left 48 n), fmtAddr_eq_fmtText 0 v6 80 le_rfl]
  have hsame := (hlarge.trans hprinted).symm.trans
    ((hall (n + 48) (Nat.le_add_right n 48) v6 80).trans hmeant)
  revert hsame
  decide +kernel

end EbpfToolbox.Net
