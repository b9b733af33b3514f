import EbpfToolbox.Lib.CString
import Mathlib.Data.List.Basic

/-!
# Numbers and lists as text

`digits` prints a number as `%u` and `%x` do, and `join` puts a separator between pieces.
Both can be read back: the text determines the number, and the pieces as long as none of
them has the separator in it.
-/

namespace EbpfToolbox.Lib.CString

/-! ## Numbers -/

/-- The digit for a value below 16, in lower case. -/
def digitByte (d : ℕ) : UInt8 := d.digitChar.toUInt8

/-- `%u` for base 10, `%x` for base 16. -/
def digits (base n : ℕ) : CString := (Nat.toDigits base n).map Char.toUInt8

/-- `%-5u`. -/
def leftFive (n : ℕ) : CString := digits 10 n ++ List.replicate (5 - (digits 10 n).length) 32

theorem digitByte_inj : ∀ d < 16, ∀ d' < 16, digitByte d = digitByte d' → d = d' := by
  decide +kernel

theorem digitByte_ne : ∀ d < 16, digitByte d ≠ 46 ∧ digitByte d ≠ 58 ∧ digitByte d ≠ 91 := by
  decide +kernel

variable {b : ℕ}

theorem digits_of_lt {n : ℕ} (h : n < b) : digits b n = [digitByte n] := by
  simp [digits, digitByte, Nat.toDigits_of_lt_base h]

theorem digits_of_le {n : ℕ} (hb : 1 < b) (h : b ≤ n) :
    digits b n = digits b (n / b) ++ [digitByte (n % b)] := by
  simp [digits, digitByte, Nat.toDigits_of_base_le hb h]

theorem digits_ne_nil (b n : ℕ) : digits b n ≠ [] := by
  simp [digits]

theorem mem_digits {n : ℕ} (hb : 1 < b) {c : UInt8} (hc : c ∈ digits b n) :
    ∃ d < b, c = digitByte d := by
  induction n using Nat.strongRecOn with
  | ind n ih =>
      rcases Nat.lt_or_ge n b with hn | hn
      · rw [digits_of_lt hn, List.mem_singleton] at hc
        exact ⟨n, hn, hc⟩
      · rw [digits_of_le hb hn, List.mem_append, List.mem_singleton] at hc
        rcases hc with hc | hc
        · exact ih (n / b) (Nat.div_lt_self (by omega) hb) hc
        · exact ⟨n % b, Nat.mod_lt n (by omega), hc⟩

/-- The text of a number has neither a dot nor a colon nor a bracket. -/
theorem notMem_digits {n : ℕ} (hb : 1 < b) (hb' : b ≤ 16) :
    46 ∉ digits b n ∧ 58 ∉ digits b n ∧ 91 ∉ digits b n := by
  have hne : ∀ c ∈ digits b n, c ≠ 46 ∧ c ≠ 58 ∧ c ≠ 91 := by
    intro c hc
    obtain ⟨d, hd, rfl⟩ := mem_digits hb hc
    exact digitByte_ne d (by omega)
  exact ⟨fun h => (hne _ h).1 rfl, fun h => (hne _ h).2.1 rfl, fun h => (hne _ h).2.2 rfl⟩

theorem digits_injective (hb : 1 < b) (hb' : b ≤ 16) : Function.Injective (digits b) := by
  intro n
  induction n using Nat.strongRecOn with
  | ind n ih =>
      intro m h
      have hpos : ∀ k, 0 < (digits b k).length := fun k => List.length_pos_of_ne_nil (digits_ne_nil b k)
      rcases Nat.lt_or_ge n b with hn | hn
      · rcases Nat.lt_or_ge m b with hm | hm
        · rw [digits_of_lt hn, digits_of_lt hm] at h
          exact digitByte_inj n (by omega) m (by omega) (List.cons.inj h).1
        · rw [digits_of_lt hn, digits_of_le hb hm] at h
          have hlen := congrArg List.length h
          have := hpos (m / b)
          simp only [List.length_append, List.length_singleton] at hlen
          omega
      · rcases Nat.lt_or_ge m b with hm | hm
        · rw [digits_of_le hb hn, digits_of_lt hm] at h
          have hlen := congrArg List.length h
          have := hpos (n / b)
          simp only [List.length_append, List.length_singleton] at hlen
          omega
        · rw [digits_of_le hb hn, digits_of_le hb hm] at h
          obtain ⟨hquot, hrem⟩ := List.append_inj' h rfl
          have hdiv : n / b = m / b := ih (n / b) (Nat.div_lt_self (by omega) hb) hquot
          have hmod : n % b = m % b := by
            have hn' := Nat.mod_lt n (show 0 < b by omega)
            have hm' := Nat.mod_lt m (show 0 < b by omega)
            exact digitByte_inj _ (by omega) _ (by omega) (List.cons.inj hrem).1
          rw [← Nat.div_add_mod n b, ← Nat.div_add_mod m b, hdiv, hmod]

theorem length_digits_le {n k : ℕ} (hb : 1 < b) (hk : 0 < k) (h : n < b ^ k) :
    (digits b n).length ≤ k := by
  simpa [digits] using (Nat.length_toDigits_le_iff hb hk).2 h

/-! ## Joined pieces -/

/-- The pieces with `sep` between them. -/
def join (sep : UInt8) : List CString → CString
  | [] => []
  | [p] => p
  | p :: q :: ps => p ++ sep :: join sep (q :: ps)

theorem notMem_join {sep c : UInt8} (hne : c ≠ sep) :
    ∀ {ps : List CString}, (∀ p ∈ ps, c ∉ p) → c ∉ join sep ps
  | [], _ => by simp [join]
  | [p], h => by simpa [join] using h p
  | p :: q :: ps, h => by
      have hrest : c ∉ join sep (q :: ps) :=
        notMem_join hne fun r hr => h r (List.mem_cons_of_mem p hr)
      simp only [join, List.mem_append, List.mem_cons, not_or]
      exact ⟨h p List.mem_cons_self, hne, hrest⟩

/-- A list is cut at the first place of `sep` in one way. -/
theorem append_sep_inj {α : Type} {sep : α} {r r' : List α} : ∀ {p q : List α}, sep ∉ p → sep ∉ q →
    p ++ sep :: r = q ++ sep :: r' → p = q ∧ r = r'
  | [], [], _, _, h => ⟨rfl, (List.cons.inj h).2⟩
  | [], c :: q, _, hq, h => by
      have hc : sep = c := (List.cons.inj h).1
      exact absurd (hc ▸ List.mem_cons_self) hq
  | c :: p, [], hp, _, h => by
      have hc : c = sep := (List.cons.inj h).1
      exact absurd (hc ▸ List.mem_cons_self) hp
  | c :: p, d :: q, hp, hq, h => by
      obtain ⟨hcd, hrest⟩ := List.cons.inj h
      obtain ⟨hpq, hr⟩ := append_sep_inj (fun hm => hp (List.mem_cons_of_mem c hm))
        (fun hm => hq (List.mem_cons_of_mem d hm)) hrest
      exact ⟨by rw [hcd, hpq], hr⟩

/-- The pieces can be read back. -/
theorem join_inj {sep : UInt8} : ∀ {ps qs : List CString}, ps ≠ [] → qs ≠ [] →
    (∀ p ∈ ps, sep ∉ p) → (∀ q ∈ qs, sep ∉ q) → join sep ps = join sep qs → ps = qs
  | [], _, hps, _, _, _, _ => absurd rfl hps
  | _, [], _, hqs, _, _, _ => absurd rfl hqs
  | [p], [q], _, _, _, _, h => congrArg (fun r => [r]) h
  | [p], q :: q' :: qs, _, _, hp, _, h => by
      have hmem : sep ∈ join sep [p] := by
        rw [h]
        simp [join]
      exact absurd hmem (hp p List.mem_cons_self)
  | p :: p' :: ps, [q], _, _, _, hq, h => by
      have hmem : sep ∈ join sep [q] := by
        rw [← h]
        simp [join]
      exact absurd hmem (hq q List.mem_cons_self)
  | p :: p' :: ps, q :: q' :: qs, _, _, hp, hq, h => by
      obtain ⟨hpq, hrest⟩ := append_sep_inj (hp p List.mem_cons_self) (hq q List.mem_cons_self) h
      have ih := join_inj (List.cons_ne_nil p' ps) (List.cons_ne_nil q' qs)
        (fun r hr => hp r (List.mem_cons_of_mem p hr)) (fun r hr => hq r (List.mem_cons_of_mem q hr))
        hrest
      rw [hpq, ih]

theorem join_append (sep : UInt8) : ∀ {ps qs : List CString}, ps ≠ [] → qs ≠ [] →
    join sep (ps ++ qs) = join sep ps ++ sep :: join sep qs
  | [], _, hps, _ => absurd rfl hps
  | [p], q :: qs, _, _ => rfl
  | [_], [], _, hqs => absurd rfl hqs
  | p :: p' :: ps, qs, _, hqs => by
      have ih := join_append sep (List.cons_ne_nil p' ps) hqs
      simp only [List.cons_append] at ih ⊢
      simp [join, ih]

/-- A text starts with the pieces `qs`, each closed by a separator, when its pieces do and
there is one more. -/
theorem join_prefix_iff {sep : UInt8} : ∀ {qs ps : List CString}, qs ≠ [] →
    (∀ q ∈ qs, sep ∉ q) → (∀ p ∈ ps, sep ∉ p) →
      (join sep qs ++ [sep] <+: join sep ps ↔ ∃ p ps', ps = qs ++ p :: ps')
  | [], _, hqs, _, _ => absurd rfl hqs
  | q :: qs, [], _, _, _ => by
      refine iff_of_false ?_ ?_
      · intro h
        have hnil := List.prefix_nil.1 h
        simp at hnil
      · rintro ⟨p, ps', h⟩
        simp at h
  | q :: qs, [p], _, _, hp => by
      refine iff_of_false ?_ ?_
      · intro h
        have hmem : sep ∈ join sep [p] := h.subset (by simp)
        exact hp p List.mem_cons_self hmem
      · rintro ⟨p', ps', h⟩
        have hlen := congrArg List.length h
        simp at hlen
  | [q], p :: p' :: ps, _, hq, hp => by
      constructor
      · rintro ⟨t, ht⟩
        have hcut : q ++ sep :: t = p ++ sep :: join sep (p' :: ps) := by simpa [join] using ht
        obtain ⟨rfl, -⟩ := append_sep_inj (hq q List.mem_cons_self) (hp p List.mem_cons_self) hcut
        exact ⟨p', ps, rfl⟩
      · rintro ⟨r, ps', h⟩
        obtain ⟨rfl, -⟩ := List.cons.inj h
        exact ⟨join sep (p' :: ps), by simp [join]⟩
  | q :: q' :: qs, p :: p' :: ps, _, hq, hp => by
      have ih := join_prefix_iff (List.cons_ne_nil q' qs)
        (fun r hr => hq r (List.mem_cons_of_mem q hr))
        (fun r hr => hp r (List.mem_cons_of_mem p hr))
      constructor
      · rintro ⟨t, ht⟩
        have hcut : q ++ sep :: (join sep (q' :: qs) ++ [sep] ++ t) =
            p ++ sep :: join sep (p' :: ps) := by simpa [join] using ht
        obtain ⟨rfl, hrest⟩ := append_sep_inj (hq q List.mem_cons_self) (hp p List.mem_cons_self)
          hcut
        obtain ⟨r, ps', h⟩ := ih.1 ⟨t, hrest⟩
        exact ⟨r, ps', by rw [h]; rfl⟩
      · rintro ⟨r, ps', h⟩
        obtain ⟨rfl, hrest⟩ := List.cons.inj h
        obtain ⟨t, ht⟩ := ih.2 ⟨r, ps', hrest⟩
        exact ⟨t, by simp [join, ← ht]⟩

theorem length_join_lt (sep : UInt8) {k : ℕ} : ∀ {ps : List CString}, ps ≠ [] →
    (∀ p ∈ ps, p.length ≤ k) → (join sep ps).length < (k + 1) * ps.length
  | [], hps, _ => absurd rfl hps
  | [p], _, h => by
      have hp := h p List.mem_cons_self
      simp only [join, List.length_singleton]
      omega
  | p :: q :: ps, _, h => by
      have hp := h p List.mem_cons_self
      have ih := length_join_lt sep (List.cons_ne_nil q ps)
        fun r hr => h r (List.mem_cons_of_mem p hr)
      have hmul : (k + 1) * (p :: q :: ps).length = (k + 1) * (q :: ps).length + (k + 1) := rfl
      simp only [join, List.length_append, List.length_cons] at ih hmul ⊢
      omega

end EbpfToolbox.Lib.CString
