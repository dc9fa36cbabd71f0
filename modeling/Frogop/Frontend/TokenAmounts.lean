import Frogop.Lib.Numeral
import Mathlib.Tactic.Linarith
import Mathlib.Tactic.Positivity
import Mathlib.Tactic.Ring

/-!
# Token amounts

The write panel asks `Number` whether a string is a number, and then reads the digits on either side
of the point apart, with `BigInt`. A sign in front of the point does not reach the digits behind it,
and an exponent behind more than 18 digits is cut off.
-/

namespace Frogop.Frontend.TokenAmounts

open Numeral

/-- `10 ** decimals` is exact up to 22 decimals. -/
def parseBigIntTokens (value : String) (decimals : ℕ) : Option ℤ :=
  let trimmed := trim value.toList
  if trimmed = [] ∨ isNaN trimmed then none
  else do
    let parts := trimmed.splitOn '.'
    let whole := parts[0]?.getD []
    let frac := parts[1]?.getD []
    let fracPadded := (frac.take decimals).rightpad decimals '0'
    -- `catch`: `null` when one of the two throws
    let wholeUnits ← bigInt whole
    let fracUnits ← bigInt fracPadded
    return wholeUnits * 10 ^ decimals + fracUnits

def formatTokenAmount (amount : ℤ) (decimals : ℕ) : String :=
  let divisor : ℤ := 10 ^ decimals
  let whole := amount.tdiv divisor
  let fraction := amount.tmod divisor
  let fractionStr := ((toString fraction).toList.leftpad decimals '0').take 4
  toString whole ++ "." ++ String.ofList fractionStr

/-- What comes back is the number that the string denotes, in units of `10 ^ -18` and rounded toward
zero. -/
def Exact (s : String) : Prop :=
  ∀ n, parseBigIntTokens s 18 = some n → ∃ x, Denotes s.toList x ∧ n = truncate (x * 10 ^ 18)

/-- `BigInt` reads both parts: no sign stands alone, and no exponent is left in the second part. -/
def Accepted (d : Decimal) : Prop :=
  (d.sign = .none ∨ d.whole.chars ≠ []) ∧ (d.exponent = none ∨ 18 ≤ d.places.chars.length)

instance (d : Decimal) : Decidable (Accepted d) := inferInstanceAs (Decidable (_ ∧ _))

/-- Both slips cancel out: one and the fraction, divided by `shift`, round to one less the
fraction. -/
def Coincides (kept : ℕ) (rest shift : ℚ) : Prop :=
  (shift - 1) * (10 ^ 18 : ℕ) ≤ (shift + 1) * kept + rest ∧
    (shift + 1) * kept + rest < (shift - 1) * (10 ^ 18 : ℕ) + shift

/-- Sign and exponent make no difference, or none together. -/
def ReadsRight (d : Decimal) : Prop :=
  let kept := (d.places.head 18).value
  let rest := (d.places.tail 18).fractional
  let e := Exponent.value d.exponent
  e = 0 ∧ (d.sign ≠ .minus ∨ kept = 0) ∨ d.whole.value = 0 ∧ kept = 0 ∧ rest * 10 ^ e < 1 ∨
    d.sign = .minus ∧ e < 0 ∧ d.whole.value = 1 ∧ Coincides kept rest (10 ^ (-e))

section

variable {w f q N : ℕ} {r p : ℚ} {e : ℤ} {s : String} {cs : List Char} {d : Decimal}

/-! ### Units and exponents -/

lemma ten_zpow_pos (e : ℤ) : (0 : ℚ) < 10 ^ e := zpow_pos (by norm_num) e

lemma ten_le_zpow (h : 0 < e) : (10 : ℚ) ≤ 10 ^ e := by
  calc (10 : ℚ) = 10 ^ (1 : ℤ) := (zpow_one _).symm
    _ ≤ 10 ^ e := zpow_le_zpow_right₀ (by norm_num) h

/-- A positive exponent makes a number ten times as large. -/
lemma ten_mul_le (h : 0 < e) {x : ℚ} (hx : 0 ≤ x) : 10 * x ≤ x * 10 ^ e := by
  rw [mul_comm]
  exact mul_le_mul_of_nonneg_left (ten_le_zpow h) hx

/-- A negative one makes it a tenth at most. -/
lemma mul_zpow_le (h : e < 0) {x : ℚ} (hx : 0 ≤ x) : 10 * (x * 10 ^ e) ≤ x := by
  have hten := ten_mul_le (neg_pos.mpr h) (mul_nonneg hx (ten_zpow_pos e).le)
  rwa [mul_assoc x, ← zpow_add₀ (by norm_num), add_neg_cancel, zpow_zero, mul_one] at hten

/-- Only what is less than one unit before and after can be moved without a change. -/
lemma floor_mul_zpow_eq_iff (h0 : 0 ≤ r) (h1 : r < 1) :
    ⌊((q : ℚ) + r) * 10 ^ e⌋ = (q : ℤ) ↔ e = 0 ∨ q = 0 ∧ r * 10 ^ e < 1 := by
  have hpos := ten_zpow_pos e
  have hx : 0 ≤ (q : ℚ) + r := add_nonneg (Nat.cast_nonneg q) h0
  rcases eq_or_ne e 0 with rfl | hne
  · simp [Int.floor_eq_iff, h0, h1]
  · rw [Int.floor_eq_iff, Int.cast_natCast, or_iff_right hne]
    rcases Nat.eq_zero_or_pos q with rfl | hq
    · simp [mul_nonneg h0 hpos.le]
    · have hone : (1 : ℚ) ≤ q := Nat.one_le_cast.mpr hq
      constructor
      · rintro ⟨hle, hlt⟩
        rcases lt_or_gt_of_ne hne with hneg | hpositive
        · have htenth := mul_zpow_le hneg hx
          linarith
        · have hten := ten_mul_le hpositive hx
          linarith
      · rintro ⟨rfl, -⟩
        cases hq

/-- Two units and more are too far from a tenth of them. -/
lemma eq_one_of_sub_mul_le (hf : f < N) (h1 : r < 1) (hw : 0 < w) (hp : 10 ≤ p)
    (h : (w * N - f : ℚ) * p ≤ w * N + f + r) : w = 1 := by
  by_contra hne
  have hfN : (f : ℚ) + 1 ≤ N := by exact_mod_cast hf
  have htwo : (2 : ℚ) ≤ w := by exact_mod_cast Nat.lt_of_le_of_ne hw (Ne.symm hne)
  have hN : (0 : ℚ) ≤ N := Nat.cast_nonneg N
  have hunits : 2 * (N * (p - 1)) ≤ w * (N * (p - 1)) :=
    mul_le_mul_of_nonneg_right htwo (mul_nonneg hN (by linarith))
  have hfraction : (f + 1 : ℚ) * (p + 1) ≤ N * (p + 1) :=
    mul_le_mul_of_nonneg_right hfN (by linarith)
  have hlarge : (N : ℚ) * 3 ≤ N * p := mul_le_mul_of_nonneg_left (by linarith) hN
  linarith

/-- A fraction that is subtracted needs an exponent that makes up for it. -/
lemma floor_mul_zpow_eq_sub_iff_of_pos (hf : f < N) (hpos : 0 < f) (h0 : 0 ≤ r) (h1 : r < 1) :
    ⌊(((w * N + f : ℕ) : ℚ) + r) * 10 ^ e⌋ = (w * N : ℤ) - f ↔
      e < 0 ∧ w = 1 ∧ ((10 : ℚ) ^ (-e) - 1) * N ≤ (10 ^ (-e) + 1) * f + r ∧
        ((10 : ℚ) ^ (-e) + 1) * f + r < (10 ^ (-e) - 1) * N + 10 ^ (-e) := by
  have hfone : (1 : ℚ) ≤ f := by exact_mod_cast hpos
  have hwN : (0 : ℚ) ≤ w * N := by positivity
  have hx : 0 ≤ (w * N + f : ℚ) + r := by positivity
  rw [Int.floor_eq_iff]
  push_cast
  rcases lt_or_ge e 0 with hneg | hge
  · have hinv : (10 : ℚ) ^ e = (10 ^ (-e))⁻¹ := by rw [zpow_neg, inv_inv]
    have hten := ten_le_zpow (neg_pos.mpr hneg)
    rw [hinv, ← div_eq_mul_inv, le_div_iff₀ (ten_zpow_pos _), div_lt_iff₀ (ten_zpow_pos _)]
    constructor
    · rintro ⟨hle, hlt⟩
      have hw : 0 < w := by
        rcases Nat.eq_zero_or_pos w with rfl | hw
        · have hright : ((0 : ℕ) * N - f + 1 : ℚ) * 10 ^ (-e) ≤ 0 := by
            apply mul_nonpos_of_nonpos_of_nonneg _ (ten_zpow_pos _).le
            rw [Nat.cast_zero, zero_mul]
            linarith
          linarith
        · exact hw
      obtain rfl := eq_one_of_sub_mul_le hf h1 hw hten hle
      push_cast at hle hlt
      exact ⟨hneg, rfl, by linarith, by linarith⟩
    · rintro ⟨-, rfl, hle, hlt⟩
      push_cast
      exact ⟨by linarith, by linarith⟩
  -- The scaled number is not below the one it comes from.
  · have hscale : (w * N + f : ℚ) + r ≤ (w * N + f + r) * 10 ^ e :=
      le_mul_of_one_le_right hx (one_le_zpow₀ (by norm_num) hge)
    constructor
    · rintro ⟨-, hlt⟩
      linarith
    · rintro ⟨hneg, -⟩
      exact absurd hneg (not_lt.mpr hge)

/-- Where a fraction `f` is subtracted instead of added, in units `N` of the whole number `w`. -/
lemma floor_mul_zpow_eq_sub_iff (hf : f < N) (h0 : 0 ≤ r) (h1 : r < 1) :
    ⌊(((w * N + f : ℕ) : ℚ) + r) * 10 ^ e⌋ = (w * N : ℤ) - f ↔ e = 0 ∧ f = 0 ∨
      w = 0 ∧ f = 0 ∧ r * 10 ^ e < 1 ∨
      e < 0 ∧ w = 1 ∧ ((10 : ℚ) ^ (-e) - 1) * N ≤ (10 ^ (-e) + 1) * f + r ∧
        ((10 : ℚ) ^ (-e) + 1) * f + r < (10 ^ (-e) - 1) * N + 10 ^ (-e) := by
  rcases Nat.eq_zero_or_pos f with rfl | hpos
  -- There is nothing to subtract.
  · have hunits : w * N = 0 ↔ w = 0 := by rw [Nat.mul_eq_zero, or_iff_left hf.ne']
    have hlate : e < 0 → r < ((10 : ℚ) ^ (-e) - 1) * N := by
      intro hneg
      have hten := ten_le_zpow (neg_pos.mpr hneg)
      have hone : (1 : ℚ) ≤ N := by exact_mod_cast hf
      calc r < (10 - 1) * 1 := by linarith
        _ ≤ (10 ^ (-e) - 1) * N := mul_le_mul (by linarith) hone (by norm_num) (by linarith)
    rw [Nat.cast_zero, sub_zero, add_zero, ← Nat.cast_mul, floor_mul_zpow_eq_iff h0 h1, hunits]
    constructor
    · rintro (he | ⟨hw, hlt⟩)
      · exact Or.inl ⟨he, rfl⟩
      · exact Or.inr (Or.inl ⟨hw, rfl, hlt⟩)
    · rintro (⟨he, -⟩ | ⟨hw, -, hlt⟩ | ⟨hneg, -, hle, -⟩)
      · exact Or.inl he
      · exact Or.inr ⟨hw, hlt⟩
      · rw [Nat.cast_zero, mul_zero, zero_add] at hle
        exact absurd hle (not_le.mpr (hlate hneg))
  · rw [floor_mul_zpow_eq_sub_iff_of_pos hf hpos h0 h1]
    simp [hpos.ne']

/-! ### The two parts -/

lemma point_notMem_sign (sign : Sign) : '.' ∉ sign.text := by
  cases sign <;> decide

lemma point_notMem_digits (digits : Digits) : '.' ∉ digits.chars := by
  intro hmem
  cases digits.isDigit _ hmem

lemma point_notMem_exponent (e : Option Exponent) : '.' ∉ Exponent.text e := by
  cases e with
  | none => simp [Exponent.text]
  | some e =>
    intro hmem
    rw [Exponent.text, List.mem_cons, List.mem_append] at hmem
    rcases hmem with hletter | hsign | hdigit
    · rcases e.isLetter with he | he
      · rw [he] at hletter
        cases hletter
      · rw [he] at hletter
        cases hletter
    · exact point_notMem_sign _ hsign
    · exact point_notMem_digits _ hdigit

lemma point_notMem_nonDecimal (n : NonDecimal) : '.' ∉ (Literal.nonDecimal n).text := by
  intro hmem
  rw [Literal.text, List.mem_cons, List.mem_cons] at hmem
  rcases hmem with hzero | hletter | hdigit
  · cases hzero
  · have hbase := n.isBase
    rw [← hletter] at hbase
    cases hbase
  · exact absurd (n.isDigit _ hdigit) (not_lt.mpr (n.base_le.trans (by decide)))

/-- What `split` makes of a decimal literal. -/
lemma splitOn_text (d : Decimal) : d.text.splitOn '.' = match d.fraction with
    | none => [d.text]
    | some digits => [d.sign.text ++ d.whole.chars, digits.chars ++ Exponent.text d.exponent] := by
  have hwhole : '.' ∉ d.sign.text ++ d.whole.chars := by
    rw [List.mem_append, not_or]
    exact ⟨point_notMem_sign _, point_notMem_digits _⟩
  cases hfraction : d.fraction with
  | none =>
    apply List.splitOn_eq_singleton
    rw [Decimal.text, Decimal.unsigned, hfraction, Decimal.fractionText, List.nil_append,
      ← List.append_assoc, List.mem_append, not_or]
    exact ⟨hwhole, point_notMem_exponent _⟩
  | some digits =>
    have hfrac : '.' ∉ digits.chars ++ Exponent.text d.exponent := by
      rw [List.mem_append, not_or]
      exact ⟨point_notMem_digits _, point_notMem_exponent _⟩
    have htext : d.text
        = d.sign.text ++ d.whole.chars ++ '.' :: (digits.chars ++ Exponent.text d.exponent) := by
      simp [Decimal.text, Decimal.unsigned, hfraction, Decimal.fractionText]
    rw [htext, List.splitOn_append_cons_self_of_not_mem hwhole, List.splitOn_eq_singleton hfrac]

lemma bigInt_whole (sign : Sign) (digits : Digits) : bigInt (sign.text ++ digits.chars)
    = if sign = .none ∨ digits.chars ≠ [] then some (sign.unit * digits.value) else none := by
  by_cases hnil : digits.chars = []
  · have hzero : digits.value = 0 := by simp [Digits.value, hnil]
    rw [hnil, List.append_nil, bigInt_sign, hzero]
    simp
  · rw [bigInt_integer sign hnil, if_pos (Or.inr hnil)]

lemma letter_mem (e : Exponent) (h : e.letter ∈ cs) : 'e' ∈ cs ∨ 'E' ∈ cs := by
  rcases e.isLetter with he | he
  · exact Or.inl (he ▸ h)
  · exact Or.inr (he ▸ h)

/-- Digits up to the place where the string is cut, or an exponent that `BigInt` does not read. -/
lemma bigInt_frac (digits : Digits) (e : Option Exponent) :
    bigInt (((digits.chars ++ Exponent.text e).take 18).rightpad 18 '0')
      = if e = none ∨ 18 ≤ digits.chars.length then some ((digits.head 18).value : ℤ)
        else none := by
  split_ifs with hdigits
  · have hchars : ((digits.chars ++ Exponent.text e).take 18).rightpad 18 '0'
        = (digits.head 18).chars := by
      rcases hdigits with rfl | hlen
      · rw [Exponent.text, List.append_nil]
        rfl
      · rw [List.take_append_of_le_length hlen]
        rfl
    have hne : (digits.head 18).chars ≠ [] := by
      apply List.ne_nil_of_length_pos
      simp [Digits.head]
    rw [hchars]
    simpa [Sign.text, Sign.unit] using bigInt_integer .none hne
  · rw [not_or, not_le] at hdigits
    obtain ⟨hexponent, hlen⟩ := hdigits
    obtain ⟨e, rfl⟩ := Option.ne_none_iff_exists'.mp hexponent
    apply bigInt_eq_none
    · intro c hc
      rw [List.rightpad, List.mem_append, List.mem_replicate] at hc
      rcases hc with htake | ⟨-, rfl⟩
      · rcases List.mem_append.mp (List.mem_of_mem_take htake) with hdigit | hmem
        · exact Or.inl (digits.isDigit c hdigit)
        · exact isDecimal_of_mem_exponent hmem
      · exact Or.inl rfl
    · obtain ⟨k, hk⟩ := Nat.exists_eq_succ_of_ne_zero (Nat.sub_ne_zero_of_lt hlen)
      have hletter : e.letter
          ∈ ((digits.chars ++ Exponent.text (some e)).take 18).rightpad 18 '0' := by
        rw [List.rightpad, List.take_append, hk, Exponent.text, List.take_succ_cons]
        simp
      exact letter_mem e hletter

/-- A literal is no `NaN`, so its two parts are read. -/
lemma parseBigIntTokens_literal {literal : Literal} (htext : literal.text = trim s.toList) :
    parseBigIntTokens s 18 = (do
      let parts := literal.text.splitOn '.'
      let wholeUnits ← bigInt (parts[0]?.getD [])
      let fracUnits ← bigInt (((parts[1]?.getD []).take 18).rightpad 18 '0')
      return wholeUnits * 10 ^ 18 + fracUnits) := by
  have hparse : parse (trim s.toList) = some literal := parse_eq_some_iff.mpr htext
  have hne : trim s.toList ≠ [] := by
    intro hnil
    rw [hnil] at hparse
    cases hparse
  have hguard : ¬ (trim s.toList = [] ∨ isNaN (trim s.toList) = true) := by
    simp [isNaN, trim_trim, hparse, hne]
  rw [parseBigIntTokens, htext]
  simp only [if_neg hguard]

/-- What is read is a literal. -/
lemma exists_literal {n : ℤ} (h : parseBigIntTokens s 18 = some n) :
    ∃ literal : Literal, literal.text = trim s.toList := by
  by_contra hnone
  have hparse : parse (trim s.toList) = none := by
    apply Option.eq_none_iff_forall_ne_some.mpr
    intro literal hparse
    exact hnone ⟨literal, parse_eq_some_iff.mp hparse⟩
  have hguard : trim s.toList = [] ∨ isNaN (trim s.toList) = true := by
    rw [isNaN, trim_trim, hparse]
    by_cases hnil : trim s.toList = []
    · exact Or.inl hnil
    · exact Or.inr (by simp [hnil])
  rw [parseBigIntTokens] at h
  simp only [if_pos hguard] at h
  cases h

/-- What the code makes of a decimal literal. -/
lemma parseBigIntTokens_decimal (htext : d.text = trim s.toList) : parseBigIntTokens s 18
    = if Accepted d then
        some (d.sign.unit * d.whole.value * 10 ^ 18 + (d.places.head 18).value)
      else none := by
  have hliteral : (Literal.decimal d).text = trim s.toList := htext
  rw [parseBigIntTokens_literal hliteral, Literal.text]
  simp only [splitOn_text]
  cases hfraction : d.fraction with
  | none =>
    have hplaces : d.places = ⟨[], by simp⟩ := by rw [Decimal.places, hfraction]; rfl
    have hwhole : d.whole.chars ≠ [] := by
      rcases d.nonempty with hwhole | ⟨digits, hmem, -⟩
      · exact hwhole
      · rw [hfraction] at hmem
        cases hmem
    have hfrac := bigInt_frac ⟨[], by simp⟩ none
    simp only [Exponent.text, List.append_nil, true_or, if_true] at hfrac
    simp only [List.getElem?_cons_zero, List.getElem?_cons_succ, List.getElem?_nil,
      Option.getD_some, Option.getD_none, hfrac]
    by_cases hexponent : d.exponent = none
    · have hsame : d.text = d.sign.text ++ d.whole.chars := by
        simp [Decimal.text, Decimal.unsigned, hfraction, hexponent, Decimal.fractionText,
          Exponent.text]
      rw [hsame, bigInt_whole, if_pos (Or.inr hwhole), if_pos ⟨Or.inr hwhole, Or.inl hexponent⟩,
        hplaces]
      rfl
    · have hnone : bigInt d.text = none := by
        obtain ⟨e, he⟩ := Option.ne_none_iff_exists'.mp hexponent
        apply bigInt_eq_none fun c hc => d.isDecimal_of_mem hc
        apply letter_mem e
        simp [Decimal.text, Decimal.unsigned, he, Exponent.text]
      have hrejected : ¬ Accepted d := by
        rintro ⟨-, hnil | hlen⟩
        · exact hexponent hnil
        · rw [hplaces] at hlen
          cases hlen
      rw [hnone, if_neg hrejected]
      rfl
  | some digits =>
    have hplaces : d.places = digits := by rw [Decimal.places, hfraction]; rfl
    simp only [List.getElem?_cons_zero, List.getElem?_cons_succ, Option.getD_some, bigInt_whole,
      bigInt_frac, hplaces]
    by_cases hwhole : d.sign = .none ∨ d.whole.chars ≠ []
    · by_cases hfrac : d.exponent = none ∨ 18 ≤ digits.chars.length
      · have haccepted : Accepted d := ⟨hwhole, by rwa [hplaces]⟩
        rw [if_pos hwhole, if_pos hfrac, if_pos haccepted]
        rfl
      · have hrejected : ¬ Accepted d := fun h => hfrac (hplaces ▸ h.2)
        rw [if_pos hwhole, if_neg hfrac, if_neg hrejected]
        rfl
    · have hrejected : ¬ Accepted d := fun h => hwhole h.1
      rw [if_neg hwhole, if_neg hrejected]
      rfl

/-- `BigInt` reads the other bases as `Number` does. -/
lemma parseBigIntTokens_nonDecimal {n : NonDecimal}
    (htext : (Literal.nonDecimal n).text = trim s.toList) :
    parseBigIntTokens s 18 = some ((n.value : ℤ) * 10 ^ 18) := by
  have htrim : trim (Literal.nonDecimal n).text = (Literal.nonDecimal n).text := by
    rw [htext, trim_trim]
  have hwhole : bigInt (Literal.nonDecimal n).text = some (n.value : ℤ) := by
    rw [bigInt, htrim, if_neg (by simp [Literal.text]), parse_eq_some_iff.mpr rfl]
  have hfrac : bigInt ((([] : List Char).take 18).rightpad 18 '0') = some 0 := rfl
  rw [parseBigIntTokens_literal htext, List.splitOn_eq_singleton (point_notMem_nonDecimal n)]
  simp only [List.getElem?_cons_zero, List.getElem?_cons_succ, List.getElem?_nil, Option.getD_some,
    Option.getD_none, hwhole, hfrac]
  exact congrArg some (add_zero _)

lemma parseBigIntTokens_infinity {sign : Sign}
    (htext : (Literal.infinity sign).text = trim s.toList) : parseBigIntTokens s 18 = none := by
  rw [parseBigIntTokens_literal htext]
  cases sign <;> rfl

/-! ### The value -/

/-- The value in units of `10 ^ -18`, before and after the exponent. -/
lemma value_mul_pow (d : Decimal) : d.value * 10 ^ 18 = d.sign.unit *
    ((((d.whole.value * 10 ^ 18 + (d.places.head 18).value : ℕ) : ℚ)
      + (d.places.tail 18).fractional) * 10 ^ Exponent.value d.exponent) := by
  have hplaces := d.places.fractional_mul_pow 18
  calc d.value * 10 ^ 18 = d.sign.unit * ((d.whole.value * 10 ^ 18
        + d.places.fractional * 10 ^ 18) * 10 ^ Exponent.value d.exponent) := by
        rw [Decimal.value]
        ring
    _ = _ := by
        rw [hplaces]
        push_cast
        ring

lemma value_head_lt (digits : Digits) : (digits.head 18).value < 10 ^ 18 := by
  have hlt := (digits.head 18).value_lt
  have hlen : (digits.head 18).chars.length = 18 := by
    simp [Digits.head]
  rwa [hlen] at hlt

/-- Reading the parts apart gives the value exactly where `ReadsRight` says. -/
lemma units_eq_truncate_iff (d : Decimal) :
    d.sign.unit * d.whole.value * 10 ^ 18 + (d.places.head 18).value = truncate (d.value * 10 ^ 18)
      ↔ ReadsRight d := by
  have h0 := (d.places.tail 18).fractional_nonneg
  have h1 := (d.places.tail 18).fractional_lt_one
  have hx : 0 ≤ (((d.whole.value * 10 ^ 18 + (d.places.head 18).value : ℕ) : ℚ)
      + (d.places.tail 18).fractional) * 10 ^ Exponent.value d.exponent :=
    mul_nonneg (add_nonneg (Nat.cast_nonneg _) h0) (ten_zpow_pos _).le
  rw [value_mul_pow, truncate_unit_mul _ hx]
  by_cases hsign : d.sign = .minus
  · have hsub := floor_mul_zpow_eq_sub_iff (w := d.whole.value) (e := Exponent.value d.exponent)
      (value_head_lt d.places) h0 h1
    have hflip : ∀ n : ℤ, d.sign.unit * d.whole.value * 10 ^ 18 + (d.places.head 18).value
        = d.sign.unit * n ↔ n = d.whole.value * (10 ^ 18 : ℕ) - (d.places.head 18).value := by
      intro n
      rw [hsign, Sign.unit]
      push_cast
      constructor
      · intro h
        linarith
      · intro h
        linarith
    rw [hflip, hsub]
    simp [ReadsRight, Coincides, hsign]
  · have hunit : d.sign.unit = 1 := by
      cases hd : d.sign with
      | minus => exact absurd hd hsign
      | none => rfl
      | plus => rfl
    have hadd := floor_mul_zpow_eq_iff (q := d.whole.value * 10 ^ 18 + (d.places.head 18).value)
      (e := Exponent.value d.exponent) h0 h1
    have hflip : ∀ n : ℤ, d.sign.unit * d.whole.value * 10 ^ 18 + (d.places.head 18).value
        = d.sign.unit * n ↔ n = (d.whole.value * 10 ^ 18 + (d.places.head 18).value : ℕ) := by
      intro n
      rw [hunit, one_mul, one_mul, eq_comm]
      push_cast
      exact Iff.rfl
    rw [hflip, hadd]
    simp [ReadsRight, hsign, and_assoc]

lemma exact_iff (s : String) :
    Exact s ↔ ∀ d : Decimal, d.text = trim s.toList → Accepted d → ReadsRight d := by
  constructor
  · intro hexact d htext haccepted
    have hdenotes : Denotes s.toList d.value := Or.inr ⟨.decimal d, htext, rfl⟩
    have hparse := parseBigIntTokens_decimal htext
    rw [if_pos haccepted] at hparse
    obtain ⟨x, hx, hvalue⟩ := hexact _ hparse
    rw [hx.unique hdenotes] at hvalue
    exact (units_eq_truncate_iff d).mp hvalue
  · intro h n hn
    obtain ⟨literal, htext⟩ := exists_literal hn
    cases literal with
    | infinity sign =>
      rw [parseBigIntTokens_infinity htext] at hn
      cases hn
    | nonDecimal m =>
      rw [parseBigIntTokens_nonDecimal htext] at hn
      cases hn
      refine ⟨m.value, Or.inr ⟨.nonDecimal m, htext, rfl⟩, ?_⟩
      have hcast : (m.value : ℚ) * 10 ^ 18 = ((m.value * 10 ^ 18 : ℕ) : ℚ) := by push_cast; rfl
      rw [hcast, truncate_natCast]
      push_cast
      rfl
    | decimal d =>
      rw [parseBigIntTokens_decimal htext] at hn
      split_ifs at hn with haccepted
      cases hn
      exact ⟨d.value, Or.inr ⟨.decimal d, htext, rfl⟩,
        (units_eq_truncate_iff d).mpr (h d htext haccepted)⟩

-- `-1.818181818181818182e-1` is right by accident.
example : Coincides 818181818181818182 0 10 := by
  norm_num [Coincides]

/-! ### Amounts that are shown -/

/-- The literal that is shown for `n` units of the fourth place. -/
def shown (n : ℕ) : Decimal where
  sign := .none
  whole := .ofNat (n / 10 ^ 4)
  fraction := some (((Digits.ofNat (n % 10 ^ 4 * 10 ^ 14)).leftpad 18).take 4)
  exponent := none
  nonempty := Or.inl Nat.toDigits_ne_nil

lemma toList_formatTokenAmount (n : ℕ) :
    (formatTokenAmount (n * 10 ^ 14) 18).toList = (shown n).text := by
  have hwhole : ((n : ℤ) * 10 ^ 14).tdiv (10 ^ 18) = ((n / 10 ^ 4 : ℕ) : ℤ) := by
    rw [Int.tdiv_eq_ediv_of_nonneg (by positivity)]
    omega
  have hfraction : ((n : ℤ) * 10 ^ 14).tmod (10 ^ 18) = ((n % 10 ^ 4 * 10 ^ 14 : ℕ) : ℤ) := by
    rw [Int.tmod_eq_emod_of_nonneg (by positivity)]
    omega
  have htext : ∀ m : ℕ, (toString (m : ℤ)).toList = Nat.toDigits 10 m := by
    intro m
    exact Nat.toList_repr
  simp only [formatTokenAmount, hwhole, hfraction, String.toList_append, htext,
    String.toList_ofList]
  simp [Decimal.text, Decimal.unsigned, shown, Sign.text, Decimal.fractionText, Exponent.text,
    Digits.ofNat, Digits.take, Digits.leftpad]

lemma value_places_shown (n : ℕ) : ((shown n).places.head 18).value = n % 10 ^ 4 * 10 ^ 14 := by
  have hlen : ((Digits.ofNat (n % 10 ^ 4 * 10 ^ 14)).leftpad 18).chars.length = 18 := by
    have hdigits : (Nat.toDigits 10 (n % 10 ^ 4 * 10 ^ 14)).length ≤ 18 :=
      (Nat.length_toDigits_le_iff (by decide) (by decide)).mpr (by omega)
    rw [Digits.leftpad, List.length_leftpad]
    exact max_eq_left hdigits
  have hplaces : (shown n).places.chars.length = 4 := by
    change ((Digits.leftpad _ 18).chars.take 4).length = 4
    rw [List.length_take, hlen]
    rfl
  have hvalue : (shown n).places.value = n % 10 ^ 4 := by
    change (Digits.take _ 4).value = _
    rw [Digits.value_take, hlen, Digits.value_leftpad, Digits.value_ofNat]
    exact Nat.mul_div_cancel _ (by positivity)
  rw [Digits.value_head_of_length_le _ (hplaces.le.trans (by decide)), hplaces, hvalue, mul_comm]

lemma parseBigIntTokens_formatTokenAmount_natCast (n : ℕ) :
    parseBigIntTokens (formatTokenAmount (n * 10 ^ 14) 18) 18 = some (n * 10 ^ 14 : ℤ) := by
  have htext : (shown n).text = trim (formatTokenAmount (n * 10 ^ 14) 18).toList := by
    rw [toList_formatTokenAmount, trim_of_isDecimal fun c hc => (shown n).isDecimal_of_mem hc]
  have haccepted : Accepted (shown n) := ⟨Or.inl rfl, Or.inl rfl⟩
  rw [parseBigIntTokens_decimal htext, if_pos haccepted, value_places_shown]
  have hwhole : (shown n).whole.value = n / 10 ^ 4 := Digits.value_ofNat _
  have hunit : (shown n).sign.unit = 1 := rfl
  rw [hwhole, hunit, Option.some.injEq]
  omega

/-- An amount with four places at most is read back as it was. -/
lemma parseBigIntTokens_formatTokenAmount {v : ℤ} (hv : 0 ≤ v) (hdvd : 10 ^ 14 ∣ v) :
    parseBigIntTokens (formatTokenAmount v 18) 18 = some v := by
  obtain ⟨k, hk⟩ := hdvd
  obtain ⟨n, hn⟩ := Int.eq_ofNat_of_zero_le (show 0 ≤ k by omega)
  rw [hk, hn, mul_comm]
  exact parseBigIntTokens_formatTokenAmount_natCast n

end

/-- The result is exact unless the literal loses its sign or its exponent, and amounts with four
places come back as they were shown. -/
theorem parseBigIntTokens_exact_iff (s : String) :
    (Exact s ↔ ∀ d : Decimal, d.text = trim s.toList → Accepted d → ReadsRight d) ∧
      ∀ v : ℤ, 0 ≤ v → 10 ^ 14 ∣ v → parseBigIntTokens (formatTokenAmount v 18) 18 = some v := by
  refine ⟨exact_iff s, ?_⟩
  intro v hv hdvd
  exact parseBigIntTokens_formatTokenAmount hv hdvd

/-- `-0.5` becomes a half, and an exponent behind 18 digits is not there. -/
theorem not_exact_negative_half :
    (parseBigIntTokens "-0.5" 18 = some (5 * 10 ^ 17) ∧ ¬ Exact "-0.5") ∧
      parseBigIntTokens "1.000000000000000000e5" 18 = some (10 ^ 18) ∧
      ¬ Exact "1.000000000000000000e5" := by
  refine ⟨⟨by decide, ?_⟩, by decide, ?_⟩
  · intro hexact
    have hright := (exact_iff _).mp hexact ⟨.minus, .ofNat 0, some (.ofNat 5), none,
      Or.inl (by decide)⟩ (by decide) (by decide)
    rcases hright with ⟨-, hplus | hnone⟩ | ⟨-, hnone, -⟩ | ⟨-, hexponent, -⟩
    · exact hplus rfl
    · revert hnone
      decide
    · revert hnone
      decide
    · revert hexponent
      decide
  · intro hexact
    have hright := (exact_iff _).mp hexact ⟨.none, .ofNat 1, some ((Digits.ofNat 0).head 18),
      some ⟨'e', .none, .ofNat 5, Or.inl rfl, by decide⟩, Or.inl (by decide)⟩ (by decide)
      (by decide)
    rcases hright with ⟨hzero, -⟩ | ⟨hzero, -⟩ | ⟨hminus, -⟩
    · revert hzero
      decide
    · revert hzero
      decide
    · cases hminus

end Frogop.Frontend.TokenAmounts
