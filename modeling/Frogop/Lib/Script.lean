import Mathlib.Data.Nat.Digits.Lemmas
import Mathlib.Tactic.Common

/-!
# Bitcoin scripts

A script is a sequence of pushes and opcodes: a byte up to `0x4b` pushes that many bytes, the next
three opcodes push as many as a little-endian length says, and the others stand for themselves.
Numbers on the stack are little-endian with the sign in the top bit of the last byte.
-/

namespace Script

/-! ### Numbers -/

/-- The number that bytes spell, least significant first. -/
def magnitude (bytes : List UInt8) : ℕ := Nat.ofDigits 256 (bytes.map UInt8.toNat)

/-- The value of a script number; no bytes stand for zero. -/
def decodeNumber (bytes : List UInt8) : ℤ :=
  match bytes.getLast? with
  | none => 0
  | some last =>
    if last &&& 0x80 = 0 then magnitude bytes
    else -(magnitude (bytes.dropLast ++ [last &&& 0x7f]) : ℤ)

variable {bytes rest data : List UInt8} {b opcode : UInt8} {k : ℕ}

@[simp] lemma magnitude_nil : magnitude [] = 0 := rfl

@[simp] lemma magnitude_cons : magnitude (b :: bytes) = b.toNat + 256 * magnitude bytes :=
  Nat.ofDigits_cons

/-- A zero byte at the end adds nothing. -/
lemma magnitude_append_zero : magnitude (bytes ++ [0]) = magnitude bytes := by
  induction bytes with
  | nil => rfl
  | cons b bytes ih => rw [List.cons_append, magnitude_cons, ih, magnitude_cons]

@[simp] lemma decodeNumber_nil : decodeNumber [] = 0 := rfl

lemma decodeNumber_append_singleton (bytes : List UInt8) (b : UInt8) :
    decodeNumber (bytes ++ [b]) = if b &&& 0x80 = 0 then (magnitude (bytes ++ [b]) : ℤ)
      else -(magnitude (bytes ++ [b &&& 0x7f]) : ℤ) := by
  simp [decodeNumber]

/-- Setting the sign bit of a byte that does not use it, and masking it out again. -/
lemma sign_bit (h : b &&& 0x80 = 0) : (b ||| 0x80) &&& 0x80 ≠ 0 ∧ (b ||| 0x80) &&& 0x7f = b := by
  have hall : ∀ n < 256, UInt8.ofNat n &&& 0x80 = 0 → (UInt8.ofNat n ||| 0x80) &&& 0x80 ≠ 0 ∧
      (UInt8.ofNat n ||| 0x80) &&& 0x7f = UInt8.ofNat n := by
    decide +kernel
  have hb := hall b.toNat b.toNat_lt
  rw [UInt8.ofNat_toNat] at hb
  exact hb h

lemma and_sign_eq_zero : b &&& 0x80 = 0 ↔ b.toNat < 128 := by
  have hall : ∀ n < 256, UInt8.ofNat n &&& 0x80 = 0 ↔ (UInt8.ofNat n).toNat < 128 := by
    decide +kernel
  have hb := hall b.toNat b.toNat_lt
  rwa [UInt8.ofNat_toNat] at hb

/-- What is left of a byte without its sign bit. -/
lemma toNat_and_mask (b : UInt8) : (b &&& 0x7f).toNat = b.toNat % 128 := by
  rw [UInt8.toNat_and]
  exact Nat.and_two_pow_sub_one_eq_mod b.toNat 7

/-! ### Shortest numbers -/

/-- The last byte holds no more than the sign only where the byte before it uses the place of the
sign. -/
def MinimalNumber (bytes : List UInt8) : Prop :=
  ∀ last ∈ bytes.getLast?, last &&& 0x7f = 0 → ∃ b ∈ bytes.dropLast.getLast?, b &&& 0x80 ≠ 0

lemma magnitude_lt (bytes : List UInt8) : magnitude bytes < 256 ^ bytes.length := by
  induction bytes with
  | nil => simp
  | cons b bytes ih =>
    have hb := b.toNat_lt
    rw [magnitude_cons, List.length_cons, Nat.pow_succ]
    omega

lemma magnitude_append_singleton (bytes : List UInt8) (b : UInt8) :
    magnitude (bytes ++ [b]) = magnitude bytes + 256 ^ bytes.length * b.toNat := by
  simp [magnitude, Nat.ofDigits_append]

lemma natAbs_decodeNumber (bytes : List UInt8) (b : UInt8) :
    (decodeNumber (bytes ++ [b])).natAbs
      = magnitude bytes + 256 ^ bytes.length * (b &&& 0x7f).toNat := by
  rw [decodeNumber_append_singleton]
  split_ifs with hsign
  · have hmask : (b &&& 0x7f).toNat = b.toNat := by
      rw [toNat_and_mask, Nat.mod_eq_of_lt (and_sign_eq_zero.mp hsign)]
    rw [Int.natAbs_natCast, magnitude_append_singleton, hmask]
  · rw [Int.natAbs_neg, Int.natAbs_natCast, magnitude_append_singleton]

lemma natAbs_decodeNumber_lt (bytes : List UInt8) (b : UInt8) :
    (decodeNumber (bytes ++ [b])).natAbs < 128 * 256 ^ bytes.length := by
  have hlow := magnitude_lt bytes
  have hhigh : (b &&& 0x7f).toNat ≤ 127 := by
    rw [toNat_and_mask]
    omega
  have hprod := Nat.mul_le_mul_left (256 ^ bytes.length) hhigh
  rw [natAbs_decodeNumber]
  omega

/-- A minimal number does not fit into fewer bytes. -/
lemma MinimalNumber.le_natAbs (h : MinimalNumber (bytes ++ [b])) {m : ℕ} (hm : m < bytes.length) :
    128 * 256 ^ m ≤ (decodeNumber (bytes ++ [b])).natAbs := by
  have hpow : 256 * 256 ^ m ≤ 256 ^ bytes.length := by
    rw [← Nat.pow_succ']
    exact Nat.pow_le_pow_right (by decide) hm
  rw [natAbs_decodeNumber]
  by_cases hlast : b &&& 0x7f = 0
  · obtain ⟨prev, hprev, hsign⟩ := h b (by simp) hlast
    rw [List.dropLast_concat] at hprev
    obtain ⟨init, rfl⟩ := List.getLast?_eq_some_iff.mp hprev
    have hbyte : 128 ≤ prev.toNat := not_lt.mp (mt and_sign_eq_zero.mpr hsign)
    have hprod := Nat.mul_le_mul_left (256 ^ init.length) hbyte
    rw [List.length_append, List.length_singleton, Nat.pow_succ] at hpow
    rw [magnitude_append_singleton]
    omega
  · have hbyte : 1 ≤ (b &&& 0x7f).toNat := by
      apply Nat.one_le_iff_ne_zero.mpr
      intro hzero
      exact hlast (UInt8.toNat_inj.mp hzero)
    have hprod := Nat.mul_le_mul_left (256 ^ bytes.length) hbyte
    omega

/-- Only no bytes at all are a minimal zero. -/
lemma MinimalNumber.decodeNumber_ne_zero (h : MinimalNumber (bytes ++ [b])) :
    decodeNumber (bytes ++ [b]) ≠ 0 := by
  intro hzero
  have hvalue := natAbs_decodeNumber bytes b
  rw [hzero, Int.natAbs_zero] at hvalue
  rcases List.eq_nil_or_concat' bytes with rfl | ⟨init, prev, rfl⟩
  · have hlast : b &&& 0x7f = 0 := by
      apply UInt8.toNat_inj.mp
      simpa using hvalue.symm
    obtain ⟨prev, hprev, -⟩ := h b (by simp) hlast
    cases hprev
  · have hle := h.le_natAbs (m := 0) (by simp)
    rw [hzero] at hle
    cases hle

/-- Nothing shorter has the value of a minimal number. -/
lemma MinimalNumber.length_le {bytes' : List UInt8} (h : MinimalNumber bytes)
    (heq : decodeNumber bytes' = decodeNumber bytes) : bytes.length ≤ bytes'.length := by
  rcases List.eq_nil_or_concat' bytes with rfl | ⟨init, last, rfl⟩
  · exact Nat.zero_le _
  · by_contra hshort
    rw [not_le, List.length_append, List.length_singleton, Nat.lt_succ_iff] at hshort
    rcases List.eq_nil_or_concat' bytes' with rfl | ⟨init', last', rfl⟩
    · exact h.decodeNumber_ne_zero heq.symm
    · rw [List.length_append, List.length_singleton] at hshort
      have hle := h.le_natAbs hshort
      rw [← heq] at hle
      exact absurd (natAbs_decodeNumber_lt init' last') (not_lt.mpr hle)

/-! ### Parsing -/

inductive Item
  | push (data : List UInt8)
  | op (opcode : UInt8)
  deriving DecidableEq, Repr

/-- Push the next `n` bytes. -/
def takeData (n : ℕ) (bytes : List UInt8) : Option (Item × List UInt8) :=
  if n ≤ bytes.length then some (.push (bytes.take n), bytes.drop n) else none

/-- Push as many bytes as the next `k` bytes say. -/
def takeSized (k : ℕ) (bytes : List UInt8) : Option (Item × List UInt8) :=
  if k ≤ bytes.length then takeData (magnitude (bytes.take k)) (bytes.drop k) else none

/-- The first item of a script, and what follows it. -/
def next : List UInt8 → Option (Item × List UInt8)
  | [] => none
  | opcode :: bytes =>
    if opcode.toNat ≤ 0x4b then takeData opcode.toNat bytes
    -- OP_PUSHDATA1, OP_PUSHDATA2 and OP_PUSHDATA4
    else if opcode = 0x4c then takeSized 1 bytes
    else if opcode = 0x4d then takeSized 2 bytes
    else if opcode = 0x4e then takeSized 4 bytes
    else some (.op opcode, bytes)

lemma length_le_of_takeData {n : ℕ} {item : Item} (h : takeData n bytes = some (item, rest)) :
    rest.length ≤ bytes.length := by
  rw [takeData] at h
  split_ifs at h
  cases h
  exact (List.drop_sublist _ _).length_le

lemma length_le_of_takeSized {item : Item} (h : takeSized k bytes = some (item, rest)) :
    rest.length ≤ bytes.length := by
  rw [takeSized] at h
  split_ifs at h
  exact (length_le_of_takeData h).trans (List.drop_sublist _ _).length_le

lemma length_lt_of_next {item : Item} (h : next bytes = some (item, rest)) :
    rest.length < bytes.length := by
  cases bytes with
  | nil => cases h
  | cons opcode bytes =>
    rw [List.length_cons, Nat.lt_succ_iff]
    simp only [next] at h
    split_ifs at h
    · exact length_le_of_takeData h
    · exact length_le_of_takeSized h
    · exact length_le_of_takeSized h
    · exact length_le_of_takeSized h
    · cases h
      exact le_rfl

/-- The items of a script; `none` when a push reaches past the end. -/
def parse (bytes : List UInt8) : Option (List Item) :=
  if bytes = [] then some []
  else
    match _h : next bytes with
    | none => none
    | some (item, rest) => (parse rest).map (item :: ·)
termination_by bytes.length
decreasing_by exact length_lt_of_next _h

@[simp] lemma parse_nil : parse [] = some [] := by
  rw [parse, if_pos rfl]

lemma parse_of_next {item : Item} (h : next bytes = some (item, rest)) :
    parse bytes = (parse rest).map (item :: ·) := by
  have hne : bytes ≠ [] := by
    rintro rfl
    cases h
  rw [parse, if_neg hne]
  split
  · rename_i hnone
    rw [h] at hnone
    cases hnone
  · rename_i item' rest' hsome
    rw [h] at hsome
    cases hsome
    rfl

/-- An opcode that pushes nothing stands for itself. -/
lemma parse_op (h : 0x4e < opcode.toNat) :
    parse (opcode :: rest) = (parse rest).map (.op opcode :: ·) := by
  have hne : ∀ m : UInt8, m.toNat ≤ 0x4e → opcode ≠ m := by
    rintro m hm rfl
    exact absurd h (not_lt.mpr hm)
  apply parse_of_next
  rw [next, if_neg (by omega), if_neg (hne _ (by decide)), if_neg (hne _ (by decide)),
    if_neg (hne _ (by decide))]

/-- The length of up to 75 bytes, then the bytes. -/
lemma parse_push (h : data.length ≤ 0x4b) :
    parse (UInt8.ofNat data.length :: data ++ rest) = (parse rest).map (.push data :: ·) := by
  have hlen : (UInt8.ofNat data.length).toNat = data.length :=
    UInt8.toNat_ofNat_of_lt' (h.trans_lt (by decide))
  apply parse_of_next
  rw [List.cons_append, next, hlen, if_pos h, takeData, if_pos (by simp), List.take_left,
    List.drop_left]

end Script
