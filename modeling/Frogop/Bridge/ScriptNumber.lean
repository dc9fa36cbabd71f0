import Frogop.Bridge.EscrowScript

/-!
# Script numbers

`encodeScriptNumber` on machine integers. The magnitude of the least `i64` is no `i64`, but the
casts get it right: every `i64` has an encoding of its own, and none has a shorter one
(`encodeScriptNumber_minimal`).
-/

namespace Frogop.Bridge

open Script

lemma toNat_shiftRight_eight (a : UInt64) : (a >>> 8).toNat = a.toNat / 256 := by
  rw [UInt64.toNat_shiftRight]
  exact Nat.shiftRight_eq_div_pow a.toNat 8

namespace I64

/-- The `while` loop: `result`, and the bytes of `absValue` pushed to it. -/
def pushBytes (absValue : UInt64) (result : List UInt8) : List UInt8 :=
  if 0 < absValue then pushBytes (absValue >>> 8) (result ++ [(absValue &&& 0xff).toUInt8])
  else result
termination_by absValue.toNat
decreasing_by
  rename_i hpos
  rw [toNat_shiftRight_eight]
  exact Nat.div_lt_self (UInt64.lt_iff_toNat_lt.mp hpos) (by decide)

def encodeScriptNumber (value : Int64) : List UInt8 :=
  if value = 0 then []
  else
    let negative : Bool := value < 0
    let absValue := if negative then (-value).toUInt64 else value.toUInt64
    let result := pushBytes absValue []
    match result.getLast? with
    | none => []
    | some last =>
      if last &&& 0x80 ≠ 0 then result ++ [if negative then 0x80 else 0x00]
      else if negative then result.dropLast ++ [last ||| 0x80]
      else result

end I64

section

variable {fuel n : ℕ} {init : List UInt8} {last : UInt8} {v : Int64} {value : ℤ}

/-! ### Casts -/

/-- An `i64` by the bits it consists of. -/
lemma toInt_eq (v : Int64) : v.toInt = if v.toBitVec.toNat < 2 ^ 63 then (v.toBitVec.toNat : ℤ)
    else v.toBitVec.toNat - 2 ^ 64 := by
  have hbits : v.toInt = v.toBitVec.toInt := rfl
  rw [hbits, BitVec.toInt_eq_toNat_cond]
  split_ifs <;> omega

lemma natAbs_toInt_lt (v : Int64) : v.toInt.natAbs < 2 ^ 64 := by
  have hle := v.le_toInt
  have hlt := v.toInt_lt
  omega

/-- `u64(-value)`, where `-value` wraps around for the least `i64`. -/
lemma toNat_toUInt64_neg (h : v.toInt < 0) : (-v).toUInt64.toNat = v.toInt.natAbs := by
  have hlt := v.toBitVec.isLt
  rw [← Int64.toNat_toBitVec, Int64.toBitVec_neg, BitVec.toNat_neg]
  rw [toInt_eq] at h ⊢
  split_ifs at h ⊢
  · omega
  · omega

lemma toNat_toUInt64 (h : ¬ v.toInt < 0) : v.toUInt64.toNat = v.toInt.natAbs := by
  have hlt := v.toBitVec.isLt
  rw [← Int64.toNat_toBitVec]
  rw [toInt_eq] at h ⊢
  split_ifs at h ⊢
  · omega
  · omega

lemma toUInt8_and_mask (a : UInt64) : (a &&& 0xff).toUInt8 = UInt8.ofNat (a.toNat % 256) := by
  apply UInt8.toNat_inj.mp
  rw [UInt64.toNat_toUInt8, UInt64.toNat_and, UInt8.toNat_ofNat']
  exact congrArg (· % 2 ^ 8) (Nat.and_two_pow_sub_one_eq_mod a.toNat 8)

/-! ### The loop -/

/-- The loop pushes the bytes of the magnitude. -/
lemma pushBytes_eq {absValue : UInt64} (h : absValue.toNat < 256 ^ fuel) (result : List UInt8) :
    I64.pushBytes absValue result = result ++ magnitudeBytes fuel absValue.toNat := by
  induction fuel generalizing absValue result with
  | zero =>
    have hzero : absValue = 0 := UInt64.toNat_inj.mp (Nat.lt_one_iff.mp h)
    rw [I64.pushBytes, hzero, if_neg (by decide)]
    exact (List.append_nil _).symm
  | succ fuel ih =>
    rw [I64.pushBytes, magnitudeBytes]
    by_cases hpos : 0 < absValue
    · have hne : absValue.toNat ≠ 0 := (UInt64.lt_iff_toNat_lt.mp hpos).ne'
      have hrest : (absValue >>> 8).toNat < 256 ^ fuel := by
        rw [toNat_shiftRight_eight]
        apply Nat.div_lt_of_lt_mul
        rwa [← Nat.pow_succ']
      rw [if_pos hpos, if_neg hne, ih hrest, toNat_shiftRight_eight, toUInt8_and_mask]
      simp
    · have hzero : absValue.toNat = 0 := by
        rw [UInt64.lt_iff_toNat_lt] at hpos
        exact Nat.eq_zero_of_not_pos hpos
      rw [if_neg hpos, if_pos hzero, List.append_nil]

/-- The loop on the magnitude of `v`, whichever cast reads it. -/
lemma pushBytes_absValue (v : Int64) :
    I64.pushBytes (if decide (v < 0) then (-v).toUInt64 else v.toUInt64) []
      = magnitudeBytes 8 v.toInt.natAbs := by
  have hbytes : ∀ a : UInt64, I64.pushBytes a [] = magnitudeBytes 8 a.toNat := by
    intro a
    have hlt : a.toNat < 256 ^ 8 := a.toNat_lt
    rw [pushBytes_eq hlt, List.nil_append]
  rw [hbytes]
  by_cases hneg : v.toInt < 0
  · have hlt : v < 0 := Int64.lt_iff_toInt_lt.mpr hneg
    rw [if_pos (decide_eq_true hlt), toNat_toUInt64_neg hneg]
  · have hge : ¬ v < 0 := mt Int64.lt_iff_toInt_lt.mp hneg
    rw [decide_eq_false hge, if_neg Bool.false_ne_true, toNat_toUInt64 hneg]

/-- The machine computes what the integers say. -/
lemma encodeScriptNumber_eq (v : Int64) :
    I64.encodeScriptNumber v = encodeScriptNumber v.toInt := by
  by_cases hzero : v = 0
  · rw [hzero]
    rfl
  · have hneg : v < 0 ↔ v.toInt < 0 := Int64.lt_iff_toInt_lt
    rw [I64.encodeScriptNumber, if_neg hzero]
    simp only [pushBytes_absValue]
    rcases List.eq_nil_or_concat' (magnitudeBytes 8 v.toInt.natAbs) with hnil | ⟨init, last, hlast⟩
    · rw [encodeScriptNumber_nil hnil, hnil]
      rfl
    · rw [encodeScriptNumber_append_singleton hlast, hlast]
      simp [hneg]

/-! ### The last byte -/

/-- The loop ends with a byte that is not zero. -/
lemma last_ne_zero (h : n < 256 ^ fuel) (hlast : magnitudeBytes fuel n = init ++ [last]) :
    last ≠ 0 := by
  induction fuel generalizing n init with
  | zero => simp [magnitudeBytes] at hlast
  | succ fuel ih =>
    have hrest : n / 256 < 256 ^ fuel := by
      apply Nat.div_lt_of_lt_mul
      rwa [← Nat.pow_succ']
    rw [magnitudeBytes] at hlast
    split_ifs at hlast with hzero
    · simp at hlast
    · rcases init with _ | ⟨first, init⟩
      · rw [List.nil_append, List.cons.injEq] at hlast
        obtain ⟨rfl, hnil⟩ := hlast
        have hquot := magnitude_magnitudeBytes hrest
        rw [hnil, magnitude_nil] at hquot
        intro hbyte
        have hdigit := congrArg UInt8.toNat hbyte
        rw [UInt8.toNat_ofNat_of_lt' (Nat.mod_lt _ (by decide))] at hdigit
        have hdigit : n % 256 = 0 := hdigit
        omega
      · rw [List.cons_append, List.cons.injEq] at hlast
        exact ih hrest hlast.2

lemma minimal_of_sign {sign : UInt8} (h : last &&& 0x80 ≠ 0) :
    MinimalNumber (init ++ [last] ++ [sign]) := by
  intro b _ _
  rw [List.dropLast_concat]
  exact ⟨last, by simp, h⟩

lemma minimal_of_mask_ne_zero (h : last &&& 0x7f ≠ 0) : MinimalNumber (init ++ [last]) := by
  intro b hb hmask
  rw [List.getLast?_concat, Option.mem_some_iff] at hb
  rw [← hb] at hmask
  exact absurd hmask h

/-- There is no byte that could be left out. -/
lemma minimal_encodeScriptNumber (h : value.natAbs < 2 ^ 64) :
    MinimalNumber (encodeScriptNumber value) := by
  rcases List.eq_nil_or_concat' (magnitudeBytes 8 value.natAbs) with hnil | ⟨init, last, hlast⟩
  · rw [encodeScriptNumber_nil hnil]
    intro b hb
    cases hb
  · have hne := last_ne_zero h hlast
    rw [encodeScriptNumber_append_singleton hlast]
    split_ifs with hbit hneg hneg
    -- The byte of the sign follows one that uses the top bit.
    · exact minimal_of_sign hbit
    · exact minimal_of_sign hbit
    -- The last byte of the magnitude is still there.
    · apply minimal_of_mask_ne_zero
      rwa [(sign_bit (not_not.mp hbit)).2]
    · apply minimal_of_mask_ne_zero
      intro hmask
      apply hne
      apply UInt8.toNat_inj.mp
      rw [← hmask, toNat_and_mask, Nat.mod_eq_of_lt (and_sign_eq_zero.mp (not_not.mp hbit))]

end

/-- Every `i64` is encoded, in at most nine bytes and in no more than any other bytes of this value
need; no two have one encoding. -/
theorem encodeScriptNumber_minimal :
    (∀ v : Int64, decodeNumber (I64.encodeScriptNumber v) = v.toInt ∧
      MinimalNumber (I64.encodeScriptNumber v) ∧ (I64.encodeScriptNumber v).length ≤ 9 ∧
      ∀ bytes, decodeNumber bytes = v.toInt →
        (I64.encodeScriptNumber v).length ≤ bytes.length) ∧
    Function.Injective I64.encodeScriptNumber := by
  have hvalue : ∀ v : Int64, decodeNumber (I64.encodeScriptNumber v) = v.toInt := by
    intro v
    rw [encodeScriptNumber_eq]
    exact decodeNumber_encodeScriptNumber (natAbs_toInt_lt v)
  have hminimal : ∀ v : Int64, MinimalNumber (I64.encodeScriptNumber v) := by
    intro v
    rw [encodeScriptNumber_eq]
    exact minimal_encodeScriptNumber (natAbs_toInt_lt v)
  refine ⟨?_, ?_⟩
  · intro v
    refine ⟨hvalue v, hminimal v, ?_, ?_⟩
    · rw [encodeScriptNumber_eq]
      exact length_encodeScriptNumber_le _
    · intro bytes hbytes
      exact (hminimal v).length_le (hbytes.trans (hvalue v).symm)
  · intro v v' hsame
    apply Int64.toInt_inj.mp
    rw [← hvalue v, ← hvalue v', hsame]

end Frogop.Bridge
