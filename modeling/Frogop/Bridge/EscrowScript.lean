import Frogop.Bridge.Recognition
import Frogop.Lib.Script

/-!
# The escrow script

`escrowScript` parses into the script of its docstring, with the number that `encodeScriptNumber`
wrote for the block. `i64(cltvBlock)` is the block itself below `2 ^ 63` only: from there on the
script asks for a negative block (`escrowScript_faithful`). No two triples have one script.
-/

namespace Frogop.Bridge

open Outcome Script

section

variable {env : Env} {buyerPub writerPub buyerPub' writerPub' : List UInt8} {fuel n m : ℕ}
  {value : ℤ}

/-! ### Numbers -/

lemma length_magnitudeBytes_le (fuel n : ℕ) : (magnitudeBytes fuel n).length ≤ fuel := by
  induction fuel generalizing n with
  | zero => exact le_rfl
  | succ fuel ih =>
    rw [magnitudeBytes]
    split_ifs with hzero
    · exact Nat.zero_le _
    · exact Nat.succ_le_succ (ih _)

/-- With one round of the loop for each byte nothing of the number is lost. -/
lemma magnitude_magnitudeBytes (h : n < 256 ^ fuel) : magnitude (magnitudeBytes fuel n) = n := by
  induction fuel generalizing n with
  | zero => exact (Nat.lt_one_iff.mp h).symm
  | succ fuel ih =>
    rw [magnitudeBytes]
    split_ifs with hzero
    · exact hzero.symm
    · have hdigit : (UInt8.ofNat (n % 256)).toNat = n % 256 :=
        UInt8.toNat_ofNat_of_lt' (Nat.mod_lt _ (by decide))
      have hrest : n / 256 < 256 ^ fuel := by
        rw [Nat.pow_succ] at h
        exact Nat.div_lt_of_lt_mul (by rwa [Nat.mul_comm])
      rw [magnitude_cons, ih hrest, hdigit, Nat.mod_add_div]

/-- The encoding of a number by the last byte of its magnitude. -/
lemma encodeScriptNumber_append_singleton {init : List UInt8} {last : UInt8}
    (h : magnitudeBytes 8 value.natAbs = init ++ [last]) : encodeScriptNumber value
      = if last &&& 0x80 ≠ 0 then init ++ [last] ++ [if value < 0 then 0x80 else 0x00]
        else if value < 0 then init ++ [last ||| 0x80] else init ++ [last] := by
  simp [encodeScriptNumber, h]

lemma encodeScriptNumber_nil (h : magnitudeBytes 8 value.natAbs = []) :
    encodeScriptNumber value = [] := by
  simp [encodeScriptNumber, h]

/-- Reading a number back. -/
lemma decodeNumber_encodeScriptNumber (h : value.natAbs < 2 ^ 64) :
    decodeNumber (encodeScriptNumber value) = value := by
  have hmag : magnitude (magnitudeBytes 8 value.natAbs) = value.natAbs :=
    magnitude_magnitudeBytes h
  rcases List.eq_nil_or_concat' (magnitudeBytes 8 value.natAbs) with hnil | ⟨init, last, hlast⟩
  · rw [hnil, magnitude_nil] at hmag
    rw [encodeScriptNumber_nil hnil, decodeNumber_nil]
    omega
  · rw [hlast] at hmag
    rw [encodeScriptNumber_append_singleton hlast]
    split_ifs with hbit hneg hneg
    -- The top bit is in use: the sign gets a byte of its own.
    · rw [decodeNumber_append_singleton, if_neg (by decide)]
      change -(magnitude (init ++ [last] ++ [0]) : ℤ) = value
      rw [magnitude_append_zero, hmag]
      omega
    · rw [decodeNumber_append_singleton, if_pos (by decide), magnitude_append_zero, hmag]
      omega
    -- The top bit is free: the sign goes there.
    · obtain ⟨hset, hmask⟩ := sign_bit (not_not.mp hbit)
      rw [decodeNumber_append_singleton, if_neg hset, hmask, hmag]
      omega
    · rw [decodeNumber_append_singleton, if_pos (not_not.mp hbit), hmag]
      omega

lemma length_encodeScriptNumber_le (value : ℤ) : (encodeScriptNumber value).length ≤ 9 := by
  have hlen := length_magnitudeBytes_le 8 value.natAbs
  rcases List.eq_nil_or_concat' (magnitudeBytes 8 value.natAbs) with hnil | ⟨init, last, hlast⟩
  · rw [encodeScriptNumber_nil hnil]
    exact Nat.zero_le 9
  · rw [hlast, List.length_append, List.length_singleton] at hlen
    rw [encodeScriptNumber_append_singleton hlast]
    split_ifs <;> simp only [List.length_append, List.length_singleton] <;> omega

/-- `i64` keeps apart what `u64` does. -/
lemma toI64_inj (hn : n < u64Size) (hm : m < u64Size) (h : toI64 n = toI64 m) : n = m := by
  rw [toI64, toI64] at h
  rw [u64Size] at hn hm
  split_ifs at h <;> omega

lemma toI64_natAbs_lt (hn : n < u64Size) : (toI64 n).natAbs < 2 ^ 64 := by
  rw [u64Size] at hn
  rw [toI64]
  split_ifs <;> omega

lemma toI64_eq_iff (hn : n < u64Size) : toI64 n = n ↔ n < 2 ^ 63 := by
  rw [u64Size] at hn
  rw [toI64]
  split_ifs <;> omega

/-! ### The script -/

/-- `OP_IF <buyerPub> OP_CHECKSIG OP_ELSE <n> OP_CHECKLOCKTIMEVERIFY OP_DROP <writerPub> OP_CHECKSIG
OP_ENDIF` -/
def escrowItems (buyerPub number writerPub : List UInt8) : List Item :=
  [.op 0x63, .push buyerPub, .op 0xac, .op 0x67, .push number, .op 0xb1, .op 0x75, .push writerPub,
    .op 0xac, .op 0x68]

lemma escrowItems_inj {number number' : List UInt8} :
    escrowItems buyerPub number writerPub = escrowItems buyerPub' number' writerPub' ↔
      buyerPub = buyerPub' ∧ number = number' ∧ writerPub = writerPub' := by
  simp [escrowItems]

lemma parse_escrowScript (hbuyer : buyerPub.length = 33) (hwriter : writerPub.length = 33) (n : ℕ) :
    parse (escrowScript buyerPub writerPub n)
      = some (escrowItems buyerPub (encodeScriptNumber (toI64 n)) writerPub) := by
  have hbytes : escrowScript buyerPub writerPub n
      = 0x63 :: (push buyerPub ++ (0xac :: 0x67 :: (push (encodeScriptNumber (toI64 n)) ++
        (0xb1 :: 0x75 :: (push writerPub ++ [0xac, 0x68]))))) := by
    simp [escrowScript]
  have hnumber := length_encodeScriptNumber_le (toI64 n)
  rw [hbytes, parse_op (by decide), push, parse_push (by omega), parse_op (by decide),
    parse_op (by decide), push, parse_push (by omega), parse_op (by decide), parse_op (by decide),
    push, parse_push (by omega), parse_op (by decide), parse_op (by decide), parse_nil]
  rfl

/-- The script says what it was built from. -/
lemma escrowScript_eq_iff (hbuyer : buyerPub.length = 33) (hwriter : writerPub.length = 33)
    (hbuyer' : buyerPub'.length = 33) (hwriter' : writerPub'.length = 33) (hn : n < u64Size)
    (hm : m < u64Size) : escrowScript buyerPub writerPub n = escrowScript buyerPub' writerPub' m ↔
      buyerPub = buyerPub' ∧ writerPub = writerPub' ∧ n = m := by
  constructor
  · intro h
    have hparse := congrArg parse h
    rw [parse_escrowScript hbuyer hwriter, parse_escrowScript hbuyer' hwriter'] at hparse
    rw [Option.some.injEq, escrowItems_inj] at hparse
    obtain ⟨hb, hnumber, hw⟩ := hparse
    have hvalue := congrArg decodeNumber hnumber
    rw [decodeNumber_encodeScriptNumber (toI64_natAbs_lt hn),
      decodeNumber_encodeScriptNumber (toI64_natAbs_lt hm)] at hvalue
    exact ⟨hb, hw, toI64_inj hn hm hvalue⟩
  · rintro ⟨rfl, rfl, rfl⟩
    rfl

/-- The calldata of the three arguments. -/
def escrowCalldata (buyerPub writerPub : List UInt8) (cltvBlock : ℕ) : List UInt8 :=
  buyerPub ++ (writerPub ++ Field.encode (.u64 cltvBlock))

lemma generateEscrowScriptHash_calldata (hbuyer : buyerPub.length = 33)
    (hwriter : writerPub.length = 33) (hn : n < u64Size) (hpos : 0 < n) :
    generateEscrowScriptHash env (escrowCalldata buyerPub writerPub n)
      = .ok (env.sha256 (escrowScript buyerPub writerPub n)) := by
  have hcalldata : escrowCalldata buyerPub writerPub n
      = buyerPub ++ (writerPub ++ (Field.encode (.u64 n) ++ [])) := by
    rw [escrowCalldata, List.append_nil]
  rw [hcalldata, generateEscrowScriptHash_eq, escrowArguments_encode hbuyer hwriter hn, ok_bind]
  dsimp only
  rw [require_of hpos.ne', ok_bind, require_of hbuyer, ok_bind, require_of hwriter]
  rfl

/-- `scriptSize`: the capacity of the writer. -/
def scriptSize (buyerPubLen cltvLen writerPubLen : ℕ) : ℕ :=
  1 + (1 + buyerPubLen) + 1 + 1 + (1 + cltvLen) + 1 + 1 + (1 + writerPubLen) + 1 + 1

/-- The writes fill the writer to the last byte. -/
lemma length_escrowScript (buyerPub writerPub : List UInt8) (n : ℕ) :
    (escrowScript buyerPub writerPub n).length
      = scriptSize buyerPub.length (encodeScriptNumber (toI64 n)).length writerPub.length := by
  simp only [escrowScript, push, scriptSize, List.length_append, List.length_cons, List.length_nil]
  omega

end

/-- Every accepted call hashes a script that is the one of the docstring, with the block as its
number, exactly when the block is below `2 ^ 63`. Different calls never hash one script. -/
theorem escrowScript_faithful (env : Env) (buyerPub writerPub : List UInt8) (cltvBlock : ℕ)
    (hbuyer : buyerPub.length = 33) (hwriter : writerPub.length = 33) (hpos : 0 < cltvBlock)
    (hsize : cltvBlock < u64Size) :
    generateEscrowScriptHash env (escrowCalldata buyerPub writerPub cltvBlock)
        = .ok (env.sha256 (escrowScript buyerPub writerPub cltvBlock)) ∧
      (escrowScript buyerPub writerPub cltvBlock).length = scriptSize buyerPub.length
        (encodeScriptNumber (toI64 cltvBlock)).length writerPub.length ∧
      ((∃ number, parse (escrowScript buyerPub writerPub cltvBlock)
          = some (escrowItems buyerPub number writerPub) ∧ decodeNumber number = cltvBlock) ↔
        cltvBlock < 2 ^ 63) ∧
      ∀ buyerPub' writerPub' cltvBlock', buyerPub'.length = 33 → writerPub'.length = 33 →
        cltvBlock' < u64Size →
        escrowScript buyerPub writerPub cltvBlock = escrowScript buyerPub' writerPub' cltvBlock' →
        buyerPub = buyerPub' ∧ writerPub = writerPub' ∧ cltvBlock = cltvBlock' := by
  refine ⟨generateEscrowScriptHash_calldata hbuyer hwriter hsize hpos,
    length_escrowScript _ _ _, ?_, ?_⟩
  · have hvalue := decodeNumber_encodeScriptNumber (toI64_natAbs_lt hsize)
    rw [← toI64_eq_iff hsize]
    constructor
    · rintro ⟨number, hparse, hnumber⟩
      rw [parse_escrowScript hbuyer hwriter, Option.some.injEq, escrowItems_inj] at hparse
      rw [← hnumber, ← hparse.2.1, hvalue]
    · intro hsame
      exact ⟨_, parse_escrowScript hbuyer hwriter _, hvalue.trans hsame⟩
  · intro buyerPub' writerPub' cltvBlock' hbuyer' hwriter' hsize' hsame
    exact (escrowScript_eq_iff hbuyer hwriter hbuyer' hwriter' hsize hsize').mp hsame

namespace Testnet

def writerPub : List UInt8 := 0x02 :: List.replicate 32 0x11

def buyerPub : List UInt8 := 0x03 :: List.replicate 32 0x22

end Testnet

/-- Block 1144 is asked for as such. -/
theorem escrowScript_faithful_low :
    ∃ number, parse (escrowScript Testnet.buyerPub Testnet.writerPub 1144)
      = some (escrowItems Testnet.buyerPub number Testnet.writerPub) ∧ decodeNumber number = 1144 :=
  (escrowScript_faithful Testnet.env Testnet.buyerPub Testnet.writerPub 1144 rfl rfl (by decide)
    (by decide)).2.2.1.mpr (by decide)

/-- Block `2 ^ 63` is accepted, and the script asks for a negative block. -/
theorem escrowScript_negative :
    generateEscrowScriptHash Testnet.env
        (escrowCalldata Testnet.buyerPub Testnet.writerPub (2 ^ 63))
      = .ok (Testnet.env.sha256 (escrowScript Testnet.buyerPub Testnet.writerPub (2 ^ 63))) ∧
    ¬ ∃ number, parse (escrowScript Testnet.buyerPub Testnet.writerPub (2 ^ 63))
        = some (escrowItems Testnet.buyerPub number Testnet.writerPub) ∧
      decodeNumber number = (2 ^ 63 : ℕ) := by
  refine ⟨generateEscrowScriptHash_calldata rfl rfl (by decide) (by decide), ?_⟩
  rintro ⟨number, hparse, hnumber⟩
  rw [parse_escrowScript rfl rfl, Option.some.injEq, escrowItems_inj] at hparse
  rw [← hparse.2.1] at hnumber
  exact absurd hnumber (by decide)

end Frogop.Bridge
