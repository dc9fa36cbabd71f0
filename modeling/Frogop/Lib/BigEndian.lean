import Mathlib.Algebra.Order.Ring.Nat
import Mathlib.Tactic.Common
import Mathlib.Tactic.Ring

/-!
# Fixed-width big-endian numbers

`beBytes k n` is `n` written on `k` bytes, most significant first; digits that do not fit are
dropped. `ofBytes` reads any byte string back as a number.
-/

namespace BigEndian

/-- `n` on `k` bytes: the byte at distance `i` from the end is `n >> 8 * i`. -/
def beBytes : ℕ → ℕ → List UInt8
  | 0, _ => []
  | k + 1, n => UInt8.ofNat (n / 256 ^ k % 256) :: beBytes k n

/-- The number a byte string spells. -/
def ofBytes : List UInt8 → ℕ
  | [] => 0
  | b :: bs => b.toNat * 256 ^ bs.length + ofBytes bs

@[simp] lemma length_beBytes (k n : ℕ) : (beBytes k n).length = k := by
  induction k with
  | zero => rfl
  | succ k ih => rw [beBytes, List.length_cons, ih]

/-- Reading back what was written keeps the digits that fitted. -/
lemma ofBytes_beBytes (k n : ℕ) : ofBytes (beBytes k n) = n % 256 ^ k := by
  induction k with
  | zero => simp [beBytes, ofBytes, Nat.mod_one]
  | succ k ih =>
    have hdigit : (UInt8.ofNat (n / 256 ^ k % 256)).toNat = n / 256 ^ k % 256 :=
      UInt8.toNat_ofNat_of_lt' (Nat.mod_lt _ (by decide))
    calc ofBytes (beBytes (k + 1) n)
        = n / 256 ^ k % 256 * 256 ^ k + n % 256 ^ k := by
          rw [beBytes, ofBytes, ih, hdigit, length_beBytes]
      _ = n % (256 ^ k * 256) := by rw [Nat.mod_mul, Nat.mul_comm, Nat.add_comm]
      _ = n % 256 ^ (k + 1) := by rw [Nat.pow_succ]

lemma ofBytes_beBytes_of_lt {k n : ℕ} (hn : n < 256 ^ k) : ofBytes (beBytes k n) = n := by
  rw [ofBytes_beBytes, Nat.mod_eq_of_lt hn]

/-- Numbers that fit are told apart by their bytes. -/
lemma beBytes_inj {k m n : ℕ} (hm : m < 256 ^ k) (hn : n < 256 ^ k)
    (h : beBytes k m = beBytes k n) : m = n := by
  rw [← ofBytes_beBytes_of_lt hm, h, ofBytes_beBytes_of_lt hn]

/-- Reading byte by byte, each shifts what was read before. -/
lemma ofBytes_append_singleton (bs : List UInt8) (b : UInt8) :
    ofBytes (bs ++ [b]) = ofBytes bs * 256 + b.toNat := by
  induction bs with
  | nil => simp [ofBytes]
  | cons b' bs ih =>
    rw [List.cons_append, ofBytes, ih, ofBytes, List.length_append, List.length_singleton,
      Nat.pow_succ]
    ring

lemma ofBytes_lt (bs : List UInt8) : ofBytes bs < 256 ^ bs.length := by
  induction bs with
  | nil => decide
  | cons b bs ih =>
    have hbyte : b.toNat ≤ 255 := Nat.le_of_lt_succ b.toNat_lt
    have hdigit : b.toNat * 256 ^ bs.length ≤ 255 * 256 ^ bs.length := Nat.mul_le_mul_right _ hbyte
    rw [ofBytes, List.length_cons, Nat.pow_succ]
    omega

/-- Bytes of one length are told apart by their number. -/
lemma ofBytes_inj {bs bs' : List UInt8} (hlen : bs.length = bs'.length)
    (h : ofBytes bs = ofBytes bs') : bs = bs' := by
  induction bs generalizing bs' with
  | nil => exact (List.eq_nil_of_length_eq_zero hlen.symm).symm
  | cons b bs ih =>
    cases bs' with
    | nil => simp at hlen
    | cons b' bs' =>
      have hlen : bs.length = bs'.length := by simpa using hlen
      have hlt := ofBytes_lt bs
      have hlt' := ofBytes_lt bs'
      simp only [ofBytes, hlen] at h hlt
      have hb : b.toNat = b'.toNat := by
        have hdiv := congrArg (· / 256 ^ bs'.length) h
        simpa [Nat.mul_add_div, Nat.mul_comm _ (256 ^ _), Nat.div_eq_of_lt hlt,
          Nat.div_eq_of_lt hlt'] using hdiv
      rw [UInt8.toNat_inj.mp hb, ih hlen (by rw [hb] at h; omega)]

end BigEndian
