import Mathlib.Data.List.TakeWhile
import Mathlib.Data.UInt

/-!
# C strings

A C string is the list of its bytes before the terminating zero. `strtol` and `strtoull`
are the functions of the C library for base 10 in the C locale, with the rest of the
string in place of the end pointer and a flag in place of `ERANGE`; `strtokR` is one call
of `strtok_r`.

What the number functions read is a `Numeral`: white space, a sign and digits. What
`strtok_r` finds are the `IsPiece`s of the string, between its delimiters.
-/

namespace EbpfToolbox.Lib

abbrev CString : Type := List UInt8

/-- A string literal. -/
def bytes (s : String) : CString := s.toUTF8.toList

namespace CString

/-! ## Numerals -/

def isSpace (b : UInt8) : Bool := b = 32 || (9 ≤ b && b ≤ 13)

def isDigit (b : UInt8) : Bool := 48 ≤ b && b ≤ 57

def decimal (ds : CString) : ℕ := ds.foldl (fun n b => 10 * n + (b.toNat - 48)) 0

inductive Sign where
  | none
  | plus
  | minus
deriving DecidableEq

def Sign.text : Sign → CString
  | .none => []
  | .plus => [43]
  | .minus => [45]

/-- Optional white space, an optional sign and at least one digit. -/
structure Numeral where
  space : CString
  sign : Sign
  digits : CString
  space_all : ∀ b ∈ space, isSpace b = true
  digits_all : ∀ b ∈ digits, isDigit b = true
  digits_ne : digits ≠ []

namespace Numeral

def text (x : Numeral) : CString := x.space ++ (x.sign.text ++ x.digits)

def magnitude (x : Numeral) : ℕ := decimal x.digits

def value (x : Numeral) : ℤ := if x.sign = .minus then -x.magnitude else x.magnitude

end Numeral

/-- The sign at the front, and what follows it. -/
def takeSign : CString → Sign × CString
  | [] => (.none, [])
  | b :: s => if b = 43 then (.plus, s) else if b = 45 then (.minus, s) else (.none, b :: s)

/-- Sign, digits and rest of a string. -/
def scan (s : CString) : Sign × CString × CString :=
  let t := takeSign (s.dropWhile isSpace)
  (t.1, t.2.takeWhile isDigit, t.2.dropWhile isDigit)

theorem takeSign_text (s : CString) : (takeSign s).1.text ++ (takeSign s).2 = s := by
  cases s with
  | nil => rfl
  | cons b s =>
      simp only [takeSign]
      split_ifs with hplus hminus
      · rw [hplus]
        rfl
      · rw [hminus]
        rfl
      · rfl

theorem takeSign_append {g : Sign} {ds : CString} (hds : ∀ b ∈ ds, isDigit b = true)
    (hne : ds ≠ []) : takeSign (g.text ++ ds) = (g, ds) := by
  cases g with
  | plus => rfl
  | minus => rfl
  | none =>
      obtain ⟨b, ds, rfl⟩ := List.exists_cons_of_ne_nil hne
      have hb := hds b List.mem_cons_self
      have hplus : b ≠ 43 := by
        rintro rfl
        exact absurd hb (by decide)
      have hminus : b ≠ 45 := by
        rintro rfl
        exact absurd hb (by decide)
      simp [Sign.text, takeSign, hplus, hminus]

theorem isSpace_eq_false_of_head {g : Sign} {ds : CString} (hds : ∀ b ∈ ds, isDigit b = true)
    {b : UInt8} {s : CString} (h : g.text ++ ds = b :: s) : isSpace b = false := by
  cases g with
  | plus =>
      obtain ⟨rfl, -⟩ := List.cons.inj h
      decide
  | minus =>
      obtain ⟨rfl, -⟩ := List.cons.inj h
      decide
  | none =>
      have hb : isDigit b = true := hds b (by rw [show ds = b :: s from h]; exact List.mem_cons_self)
      have hbounds : 48 ≤ b ∧ b ≤ 57 := by simpa [isDigit] using hb
      have hlow : 48 ≤ b.toNat := UInt8.le_iff_toNat_le.1 hbounds.1
      simp only [isSpace, Bool.or_eq_false_iff, Bool.and_eq_false_iff, decide_eq_false_iff_not]
      refine ⟨?_, Or.inr ?_⟩
      · rintro rfl
        exact absurd hlow (by decide)
      · intro hle
        have hhigh : b.toNat ≤ 13 := UInt8.le_iff_toNat_le.1 hle
        omega

/-- A numeral is read to its end. -/
theorem scan_numeral (x : Numeral) : scan x.text = (x.sign, x.digits, []) := by
  have hdrop : x.text.dropWhile isSpace = x.sign.text ++ x.digits := by
    unfold Numeral.text
    rw [List.dropWhile_append_of_pos x.space_all]
    cases h : x.sign.text ++ x.digits with
    | nil => rfl
    | cons b s => rw [List.dropWhile_cons_of_neg (by simp [isSpace_eq_false_of_head x.digits_all h])]
  simp only [scan, hdrop, takeSign_append x.digits_all x.digits_ne]
  rw [List.takeWhile_eq_self_iff.2 x.digits_all, List.dropWhile_eq_nil_iff.2 x.digits_all]

/-- What is read to its end is a numeral. -/
theorem exists_numeral {s : CString} (hne : (scan s).2.1 ≠ []) (hrest : (scan s).2.2 = []) :
    ∃ x : Numeral, x.text = s ∧ x.sign = (scan s).1 ∧ x.digits = (scan s).2.1 := by
  have hdigits : (scan s).2.1 = (takeSign (s.dropWhile isSpace)).2 := by
    have happend := List.takeWhile_append_dropWhile
      (p := isDigit) (l := (takeSign (s.dropWhile isSpace)).2)
    rw [show (takeSign (s.dropWhile isSpace)).2.dropWhile isDigit = [] from hrest,
      List.append_nil] at happend
    exact happend
  refine ⟨⟨s.takeWhile isSpace, (scan s).1, (scan s).2.1, ?_, ?_, hne⟩, ?_, rfl, rfl⟩
  · exact fun b hb => List.mem_takeWhile_imp hb
  · exact fun b hb => List.mem_takeWhile_imp hb
  · show s.takeWhile isSpace ++ ((takeSign (s.dropWhile isSpace)).1.text ++ (scan s).2.1) = s
    rw [hdigits, takeSign_text, List.takeWhile_append_dropWhile]

/-! ## strtol and strtoull -/

/-- The value, the string from the end pointer on, and whether `errno` is `ERANGE`. -/
structure Strto (α : Type) where
  value : α
  rest : CString
  erange : Bool

/-- The whole string was a number in range: it has been read to its end, which is not its
start. -/
def Strto.Whole {α : Type} (r : Strto α) (s : CString) : Prop :=
  r.erange = false ∧ r.rest ≠ s ∧ r.rest = []

/-- Without digits nothing is converted and the end pointer is the start. -/
def strtol (s : CString) : Strto Int64 :=
  let (sign, digits, rest) := scan s
  if digits = [] then ⟨0, s, false⟩
  else
    let n : ℤ := if sign = .minus then -decimal digits else decimal digits
    if n < -2 ^ 63 then ⟨Int64.minValue, rest, true⟩
    else if 2 ^ 63 ≤ n then ⟨Int64.maxValue, rest, true⟩
    else ⟨.ofInt n, rest, false⟩

/-- A minus sign negates the value modulo `2 ^ 64`. -/
def strtoull (s : CString) : Strto UInt64 :=
  let (sign, digits, rest) := scan s
  if digits = [] then ⟨0, s, false⟩
  else
    let n := decimal digits
    if 2 ^ 64 ≤ n then ⟨.ofNat (2 ^ 64 - 1), rest, true⟩
    else ⟨if sign = .minus then -.ofNat n else .ofNat n, rest, false⟩

theorem Numeral.text_ne_nil (x : Numeral) : x.text ≠ [] := by
  simp [Numeral.text, x.digits_ne]

/-- A numeral starts with a minus sign when that is its sign and no white space precedes it. -/
theorem Numeral.head?_eq_minus_iff (x : Numeral) :
    x.text.head? = some 45 ↔ x.space = [] ∧ x.sign = .minus := by
  unfold Numeral.text
  cases hspace : x.space with
  | cons b space =>
      have hb : isSpace b = true := x.space_all b (by rw [hspace]; exact List.mem_cons_self)
      have hne : b ≠ 45 := by
        rintro rfl
        exact absurd hb (by decide)
      simp [hne]
  | nil =>
      cases hsign : x.sign with
      | plus => simp [Sign.text]
      | minus => simp [Sign.text]
      | none =>
          obtain ⟨b, digits, hdigits⟩ := List.exists_cons_of_ne_nil x.digits_ne
          have hb : isDigit b = true := x.digits_all b (by rw [hdigits]; exact List.mem_cons_self)
          have hne : b ≠ 45 := by
            rintro rfl
            exact absurd hb (by decide)
          simp [Sign.text, hdigits, hne]

theorem strtol_numeral (x : Numeral) :
    strtol x.text = if x.value < -2 ^ 63 then ⟨Int64.minValue, [], true⟩
      else if 2 ^ 63 ≤ x.value then ⟨Int64.maxValue, [], true⟩ else ⟨.ofInt x.value, [], false⟩ := by
  simp only [strtol, scan_numeral, if_neg x.digits_ne]
  rfl

theorem strtoull_numeral (x : Numeral) :
    strtoull x.text = if 2 ^ 64 ≤ x.magnitude then ⟨.ofNat (2 ^ 64 - 1), [], true⟩
      else ⟨if x.sign = .minus then -.ofNat x.magnitude else .ofNat x.magnitude, [], false⟩ := by
  simp only [strtoull, scan_numeral, if_neg x.digits_ne]
  rfl

theorem strtol_rest (s : CString) :
    (strtol s).rest = if (scan s).2.1 = [] then s else (scan s).2.2 := by
  simp only [strtol]
  split_ifs <;> rfl

theorem strtoull_rest (s : CString) :
    (strtoull s).rest = if (scan s).2.1 = [] then s else (scan s).2.2 := by
  simp only [strtoull]
  split_ifs <;> rfl

/-- A string that was read to its end, and not from its end, is a numeral. -/
theorem numeral_of_rest {s r : CString} (hr : r = if (scan s).2.1 = [] then s else (scan s).2.2)
    (hne : r ≠ s) (hnil : r = []) : ∃ x : Numeral, x.text = s := by
  by_cases hdigits : (scan s).2.1 = []
  · rw [if_pos hdigits] at hr
    exact absurd hr hne
  · rw [if_neg hdigits] at hr
    obtain ⟨x, hx, -⟩ := exists_numeral hdigits (hr.symm.trans hnil)
    exact ⟨x, hx⟩

/-- `strtol` takes the whole string for `v` exactly when it is a numeral of this value. -/
theorem strtol_whole_iff (s : CString) (v : Int64) :
    (strtol s).Whole s ∧ (strtol s).value = v ↔ ∃ x : Numeral, x.text = s ∧ x.value = v.toInt := by
  constructor
  · rintro ⟨⟨herange, hne, hnil⟩, hv⟩
    obtain ⟨x, rfl⟩ := numeral_of_rest (strtol_rest s) hne hnil
    refine ⟨x, rfl, ?_⟩
    rw [strtol_numeral] at herange hv
    -- the two clamped values come with `ERANGE`
    split_ifs at herange hv with hlow hhigh
    rw [← hv, Int64.toInt_ofInt_of_le (by omega) (by omega)]
  · rintro ⟨x, rfl, hv⟩
    have hlow := v.le_toInt
    have hhigh := v.toInt_lt
    rw [strtol_numeral, if_neg (by omega), if_neg (by omega), hv]
    exact ⟨⟨rfl, x.text_ne_nil.symm, rfl⟩, by simp⟩

/-- `strtoull` takes the whole string for `v` exactly when it is a numeral below `2 ^ 64`,
and `v` is that number or, after a minus sign, its negation modulo `2 ^ 64`. -/
theorem strtoull_whole_iff (s : CString) (v : UInt64) :
    (strtoull s).Whole s ∧ (strtoull s).value = v ↔
      ∃ x : Numeral, x.text = s ∧ x.magnitude < 2 ^ 64 ∧
        v = if x.sign = .minus then -.ofNat x.magnitude else .ofNat x.magnitude := by
  constructor
  · rintro ⟨⟨herange, hne, hnil⟩, hv⟩
    obtain ⟨x, rfl⟩ := numeral_of_rest (strtoull_rest s) hne hnil
    refine ⟨x, rfl, ?_⟩
    rw [strtoull_numeral] at herange hv
    by_cases hlarge : 2 ^ 64 ≤ x.magnitude
    · rw [if_pos hlarge] at herange
      cases herange
    · rw [if_neg hlarge] at hv
      exact ⟨Nat.lt_of_not_le hlarge, hv.symm⟩
  · rintro ⟨x, rfl, hlt, hv⟩
    rw [strtoull_numeral, if_neg (by omega)]
    exact ⟨⟨rfl, x.text_ne_nil.symm, rfl⟩, hv.symm⟩

/-! ## strtok_r -/

/-- One call of `strtok_r`, on the string or on what the last call has saved: the token and
what is saved for the next call. -/
def strtokR (delim : UInt8) (s : CString) : Option (CString × CString) :=
  match s.dropWhile (· = delim) with
  | [] => none
  | b :: s => some (b :: s.takeWhile (· ≠ delim), (s.dropWhile (· ≠ delim)).drop 1)

/-- The tokens that `fuel` calls of `strtok_r` find. -/
def strtokLoop (delim : UInt8) : ℕ → CString → List CString
  | 0, _ => []
  | fuel + 1, s =>
      match strtokR delim s with
      | none => []
      | some (token, save) => token :: strtokLoop delim fuel save

/-- All tokens of `s`; every one takes a byte, so the length of `s` bounds the calls. -/
def tokens (delim : UInt8) (s : CString) : List CString := strtokLoop delim s.length s

/-- `p` is a non-empty part of `s` without delimiters, and it cannot be made longer. -/
def IsPiece (delim : UInt8) (s p : CString) : Prop :=
  p ≠ [] ∧ delim ∉ p ∧ ∃ a b, s = a ++ (p ++ b) ∧
    (a = [] ∨ ∃ a', a = a' ++ [delim]) ∧ (b = [] ∨ ∃ b', b = delim :: b')

/-- `p` is the first such part of `s`. -/
def IsFirstPiece (delim : UInt8) (s p : CString) : Prop :=
  p ≠ [] ∧ delim ∉ p ∧ ∃ a b, s = a ++ (p ++ b) ∧ (∀ c ∈ a, c = delim) ∧
    (b = [] ∨ ∃ b', b = delim :: b')

variable {delim : UInt8} {s p : CString}

theorem strtokR_cases (delim : UInt8) (s : CString) :
    (strtokR delim s = none ∧ ∀ c ∈ s, c = delim) ∨
    ∃ lead token b save, strtokR delim s = some (token, save) ∧ s = lead ++ (token ++ b) ∧
      (∀ c ∈ lead, c = delim) ∧ token ≠ [] ∧ delim ∉ token ∧
      (b = [] ∧ save = [] ∨ b = delim :: save) := by
  have hlead : ∀ c ∈ s.takeWhile (· = delim), c = delim := by
    intro c hc
    simpa using List.mem_takeWhile_imp hc
  have hsplit : s = s.takeWhile (· = delim) ++ s.dropWhile (· = delim) :=
    List.takeWhile_append_dropWhile.symm
  unfold strtokR
  cases hd : s.dropWhile (· = delim) with
  | nil =>
      rw [hd, List.append_nil] at hsplit
      exact Or.inl ⟨rfl, hsplit ▸ hlead⟩
  | cons c t =>
      have hc : c ≠ delim := by
        have hhead := List.head?_dropWhile_not (fun c => decide (c = delim)) s
        simpa [hd] using hhead
      refine Or.inr ⟨_, _, t.dropWhile (· ≠ delim), _, rfl, ?_, hlead, by simp, ?_, ?_⟩
      · rw [List.cons_append, List.takeWhile_append_dropWhile, ← hd]
        exact hsplit
      · rw [List.mem_cons]
        rintro (h | h)
        · exact hc h.symm
        · simpa using List.mem_takeWhile_imp h
      · cases hrest : t.dropWhile (· ≠ delim) with
        | nil => exact Or.inl ⟨rfl, rfl⟩
        | cons d u =>
            have hhead := List.head?_dropWhile_not (fun c => decide (c ≠ delim)) t
            rw [hrest] at hhead
            obtain rfl : d = delim := by simpa using hhead
            exact Or.inr rfl

theorem not_isPiece_of_all (hs : ∀ c ∈ s, c = delim) : ¬IsPiece delim s p := by
  rintro ⟨hne, hfree, a, b, rfl, -⟩
  obtain ⟨c, p, rfl⟩ := List.exists_cons_of_ne_nil hne
  have hc : c = delim := hs c (by simp)
  exact hfree (by simp [hc])

/-- A string without delimiters is its own only piece. -/
theorem isPiece_of_free (hne : s ≠ []) (hs : delim ∉ s) : IsPiece delim s p ↔ p = s := by
  constructor
  · rintro ⟨-, -, a, b, rfl, ha, hb⟩
    rcases ha with rfl | ⟨a', rfl⟩
    · rcases hb with rfl | ⟨b', rfl⟩
      · simp
      · exact absurd (by simp) hs
    · exact absurd (by simp) hs
  · rintro rfl
    exact ⟨hne, hs, [], [], by simp, Or.inl rfl, Or.inl rfl⟩

/-- A delimiter separates the pieces on its two sides. -/
theorem isPiece_append (u w : CString) :
    IsPiece delim (u ++ delim :: w) p ↔ IsPiece delim u p ∨ IsPiece delim w p := by
  constructor
  · rintro ⟨hne, hfree, a, b, hsplit, ha, hb⟩
    rcases List.append_eq_append_iff.1 hsplit with ⟨c, rfl, hc⟩ | ⟨c, rfl, hc⟩
    · -- the delimiter is at or before the start of `p`
      cases c with
      | nil =>
          obtain ⟨d, p, rfl⟩ := List.exists_cons_of_ne_nil hne
          obtain ⟨rfl, -⟩ := List.cons.inj hc
          exact absurd List.mem_cons_self hfree
      | cons d c =>
          obtain ⟨rfl, rfl⟩ := List.cons.inj hc
          refine Or.inr ⟨hne, hfree, c, b, rfl, ?_, hb⟩
          rcases ha with ha | ⟨a', ha⟩
          · simp at ha
          · rcases List.eq_nil_or_concat' c with rfl | ⟨c', e, rfl⟩
            · exact Or.inl rfl
            · have hend : (u ++ delim :: c') ++ [e] = a' ++ [delim] := by simpa using ha
              obtain ⟨-, he⟩ := List.append_inj' hend rfl
              exact Or.inr ⟨c', by rw [he]⟩
    · -- `p` starts before the delimiter
      rcases List.append_eq_append_iff.1 hc with ⟨d, rfl, hd⟩ | ⟨d, rfl, hd⟩
      · refine Or.inl ⟨hne, hfree, a, d, by simp, ha, ?_⟩
        cases d with
        | nil => exact Or.inl rfl
        | cons e d =>
            rcases hb with hb | ⟨b', hb⟩
            · simp [hb] at hd
            · rw [hb] at hd
              obtain ⟨rfl, -⟩ := List.cons.inj hd
              exact Or.inr ⟨d, rfl⟩
      · cases d with
        | nil => exact Or.inl ⟨by simpa using hne, by simpa using hfree, a, [], by simp, ha, Or.inl rfl⟩
        | cons e d =>
            obtain ⟨rfl, -⟩ := List.cons.inj hd
            exact absurd (by simp) hfree
  · rintro (⟨hne, hfree, a, b, rfl, ha, hb⟩ | ⟨hne, hfree, a, b, rfl, ha, hb⟩)
    · refine ⟨hne, hfree, a, b ++ delim :: w, by simp, ha, Or.inr ?_⟩
      rcases hb with rfl | ⟨b', rfl⟩
      · exact ⟨w, rfl⟩
      · exact ⟨b' ++ delim :: w, rfl⟩
    · refine ⟨hne, hfree, u ++ delim :: a, b, by simp, Or.inr ?_, hb⟩
      rcases ha with rfl | ⟨a', rfl⟩
      · exact ⟨u, rfl⟩
      · exact ⟨u ++ delim :: a', by simp⟩

theorem mem_strtokLoop_iff {fuel : ℕ} (hfuel : s.length ≤ fuel) :
    p ∈ strtokLoop delim fuel s ↔ IsPiece delim s p := by
  induction fuel generalizing s with
  | zero =>
      obtain rfl : s = [] := List.length_eq_zero_iff.1 (Nat.le_zero.1 hfuel)
      simp only [strtokLoop, List.not_mem_nil, false_iff]
      exact not_isPiece_of_all (by simp)
  | succ fuel ih =>
      unfold strtokLoop
      rcases strtokR_cases delim s with ⟨hcall, hall⟩ |
        ⟨lead, token, b, save, hcall, rfl, hlead, hne, hfree, hb⟩
      · simp only [hcall, List.not_mem_nil, false_iff]
        exact not_isPiece_of_all hall
      · have hpos : 0 < token.length := List.length_pos_of_ne_nil hne
        have hsave : save.length ≤ fuel := by
          rcases hb with ⟨rfl, rfl⟩ | rfl
          · simp
          · simp only [List.length_append, List.length_cons] at hfuel
            omega
        -- the delimiters in front do not count
        have hskip : ∀ t, IsPiece delim (lead ++ t) p ↔ IsPiece delim t p := by
          intro t
          clear hcall hfuel
          induction lead with
          | nil => rfl
          | cons c lead ihlead =>
              obtain rfl : c = delim := hlead c List.mem_cons_self
              have hnil : ¬IsPiece c [] p := not_isPiece_of_all (by simp)
              rw [List.cons_append, ← List.nil_append (c :: (lead ++ t)), isPiece_append,
                ihlead fun d hd => hlead d (List.mem_cons_of_mem _ hd)]
              exact or_iff_right hnil
        simp only [hcall, List.mem_cons]
        rw [ih hsave, hskip]
        rcases hb with ⟨rfl, rfl⟩ | rfl
        · rw [List.append_nil, isPiece_of_free hne hfree]
          exact or_iff_left (not_isPiece_of_all (by simp))
        · rw [isPiece_append, isPiece_of_free hne hfree]

/-- `strtok_r` finds exactly the pieces of the string. -/
theorem mem_tokens_iff : p ∈ tokens delim s ↔ IsPiece delim s p := mem_strtokLoop_iff le_rfl

/-- The first token is the first piece. -/
theorem head?_tokens (h : IsFirstPiece delim s p) : (tokens delim s).head? = some p := by
  rcases h with ⟨hne, hfree, a, b, rfl, ha, hb⟩
  obtain ⟨c, p, rfl⟩ := List.exists_cons_of_ne_nil hne
  have hc : c ≠ delim := fun h => hfree (by simp [h])
  have hp : ∀ d ∈ p, (decide (d ≠ delim)) = true := by
    intro d hd
    have hne : d ≠ delim := fun h => hfree (by simp [← h, hd])
    simpa using hne
  have hlead : (a ++ (c :: p ++ b)).dropWhile (· = delim) = c :: (p ++ b) := by
    rw [List.dropWhile_append_of_pos (by simpa using ha)]
    exact List.dropWhile_cons_of_neg (by simpa using hc)
  have htoken : (p ++ b).takeWhile (· ≠ delim) = p := by
    rw [List.takeWhile_append_of_pos hp]
    rcases hb with rfl | ⟨b', rfl⟩
    · simp
    · simp
  have hlen : (a ++ (c :: p ++ b)).length = a.length + p.length + b.length + 1 := by
    simp
    omega
  simp only [tokens, hlen, strtokLoop, strtokR, hlead, htoken, List.head?_cons]

end CString

end EbpfToolbox.Lib
