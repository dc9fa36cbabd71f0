import Frogop.Lib.BigEndian
import Frogop.Lib.Outcome

/-!
# Words of the OPNet runtime

Addresses, hashes and storage words are 32 bytes. A `u256` or `u64` of the contracts is a natural
number: `SafeMath` fails where the `u256` would overflow, and a plain `+` on `u64` wraps.
-/

namespace Frogop

open Outcome

/-- 32 bytes: an address, a hash, a storage key or a storage word. -/
abbrev Bytes32 := {b : List UInt8 // b.length = 32}

abbrev Address := Bytes32

namespace Bytes32

def zero : Bytes32 := ⟨List.replicate 32 0, by simp⟩

/-- `u256.toUint8Array(true)`. -/
def ofNat (n : ℕ) : Bytes32 := ⟨BigEndian.beBytes 32 n, by simp⟩

/-- `u256.fromUint8ArrayBE`. -/
def toNat (b : Bytes32) : ℕ := BigEndian.ofBytes b.val

@[simp] lemma length_val (b : Bytes32) : b.val.length = 32 := b.property

end Bytes32

/-- `Address.zero()`. -/
abbrev Address.zero : Address := Bytes32.zero

/-- Why a token refused a transfer. -/
inductive TokenError
  | refused
  | insufficientAllowance
  | insufficientBalance
  deriving DecidableEq, Repr

/-- Why a call reverted. -/
inductive Revert
  /-- `throw new Revert(message)` -/
  | revert (message : String)
  /-- A token call failed; the contract reverts with `message`. -/
  | token (message : String) (cause : TokenError)
  | safeMath
  /-- A write past the capacity of a `BytesWriter`. -/
  | writerFull
  /-- A read past the end of a `Calldata`. -/
  | outOfCalldata
  deriving DecidableEq, Repr

def u256Size : ℕ := 2 ^ 256

def u64Size : ℕ := 2 ^ 64

/-- `a + b` on `u64`. -/
def u64Add (a b : ℕ) : ℕ := (a + b) % u64Size

lemma u64Add_lt (a b : ℕ) : u64Add a b < u64Size := Nat.mod_lt _ (by decide)

lemma u64Add_of_lt {a b : ℕ} (h : a + b < u64Size) : u64Add a b = a + b := Nat.mod_eq_of_lt h

/-! ### SafeMath -/

namespace SafeMath

def add (a b : ℕ) : Except Revert ℕ :=
  if a + b < u256Size then .ok (a + b) else .error .safeMath

def sub (a b : ℕ) : Except Revert ℕ :=
  if b ≤ a then .ok (a - b) else .error .safeMath

def mul (a b : ℕ) : Except Revert ℕ :=
  if a * b < u256Size then .ok (a * b) else .error .safeMath

def div (a b : ℕ) : Except Revert ℕ :=
  if b = 0 then .error .safeMath else .ok (a / b)

variable {a b c : ℕ}

@[simp] lemma add_eq_ok : add a b = .ok c ↔ a + b < u256Size ∧ a + b = c := by
  rw [add]
  split_ifs with h <;> simp [h]

@[simp] lemma sub_eq_ok : sub a b = .ok c ↔ b ≤ a ∧ a - b = c := by
  rw [sub]
  split_ifs with h <;> simp [h]

@[simp] lemma mul_eq_ok : mul a b = .ok c ↔ a * b < u256Size ∧ a * b = c := by
  rw [mul]
  split_ifs with h <;> simp [h]

@[simp] lemma div_eq_ok : div a b = .ok c ↔ b ≠ 0 ∧ a / b = c := by
  rw [div]
  split_ifs with h <;> simp [h]

variable {P : Revert → Prop}

@[simp] lemma failsOnly_add : FailsOnly P (add a b) ↔ (u256Size ≤ a + b → P .safeMath) := by
  rw [add]
  split_ifs with h <;> simp <;> omega

@[simp] lemma failsOnly_sub : FailsOnly P (sub a b) ↔ (a < b → P .safeMath) := by
  rw [sub]
  split_ifs with h <;> simp <;> omega

@[simp] lemma failsOnly_mul : FailsOnly P (mul a b) ↔ (u256Size ≤ a * b → P .safeMath) := by
  rw [mul]
  split_ifs with h <;> simp <;> omega

@[simp] lemma failsOnly_div : FailsOnly P (div a b) ↔ (b = 0 → P .safeMath) := by
  rw [div]
  split_ifs with h <;> simp [h]

end SafeMath

end Frogop
