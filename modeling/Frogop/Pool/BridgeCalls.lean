import Frogop.Bridge.Outputs
import Frogop.Pool.Accounts

/-!
# Calls of the pools to the bridge

Every query writes its arguments to a writer of fixed size, calls the bridge, and reverts when the
bridge does. Only `getBtcPrice` and `verifyBtcOutput` write to the bridge's storage.
-/

namespace Frogop

open Outcome

variable {σ : Type}

/-- `if (!result.success) throw new Revert(message)` -/
def orRevert {α : Type} (message : String) : Except Revert α → Except Revert α
  | .ok a => .ok a
  | .error _ => .error (.revert message)

namespace World

def queryBtcPrice (w : World σ) (env : Env) (tx : Tx) (token : Address) :
    Except Revert (ℕ × World σ) := do
  let calldata ← env.callData 36 [.address token]
  let (price, bridge) ← orRevert "Bridge getBtcPrice failed"
    (Bridge.getBtcPrice env tx calldata w.bridge)
  return (price.toNat, { w with bridge := bridge })

def queryVerifyBtcOutput (w : World σ) (env : Env) (tx : Tx) (expectedHash : Bytes32)
    (expectedAmount : ℕ) : Except Revert (Bool × World σ) := do
  let calldata ← env.callData 44 [.bytes expectedHash.val, .u64 expectedAmount]
  let (verified, bridge) ← orRevert "Bridge verifyBtcOutput failed"
    (Bridge.verifyBtcOutput env tx.outputs calldata w.bridge)
  return (verified, { w with bridge := bridge })

end World

def queryCsvScriptHash (env : Env) (pubkey : List UInt8) (csvBlocks : ℕ) :
    Except Revert Bytes32 := do
  let calldata ← env.callData 45 [.bytes pubkey, .u64 csvBlocks]
  orRevert "Bridge generateCsvScriptHash failed" (Bridge.generateCsvScriptHash env calldata)

def queryEscrowScriptHash (env : Env) (buyerPub writerPub : List UInt8) (cltvBlock : ℕ) :
    Except Revert Bytes32 := do
  let calldata ← env.callData 78 [.bytes buyerPub, .bytes writerPub, .u64 cltvBlock]
  orRevert "Bridge generateEscrowScriptHash failed" (Bridge.generateEscrowScriptHash env calldata)

variable {α : Type} {message : String} {x : Except Revert α} {a : α} {P : Revert → Prop}

@[simp] lemma orRevert_eq_ok : orRevert message x = .ok a ↔ x = .ok a := by
  cases x <;> simp [orRevert]

@[simp] lemma failsOnly_orRevert :
    FailsOnly P (orRevert message x) ↔ ((∃ e, x = .error e) → P (.revert message)) := by
  cases x <;> simp [orRevert]

@[simp] lemma callData_eq_ok {env : Env} {capacity : ℕ} {fields : List Field}
    {calldata : List UInt8} : env.callData capacity fields = .ok calldata ↔
      (env.writers = .growing ∨ 4 + fieldsWidth fields ≤ capacity) ∧
        buffer (capacity - 4) fields = calldata := by
  simp [Env.callData]

@[simp] lemma failsOnly_callData {env : Env} {capacity : ℕ} {fields : List Field} :
    FailsOnly P (env.callData capacity fields) ↔
      (env.writers ≠ .growing → capacity < 4 + fieldsWidth fields → P .writerFull) := by
  simp [Env.callData]

/-! ### Verifying an output -/

section

variable {env : Env} {tx : Tx} {w w' : World σ} {hash : Bytes32} {amount : ℕ} {verified : Bool}
  {output : TxOutput}

/-- A query is the scan of the outputs of the transaction. -/
lemma queryVerifyBtcOutput_eq (hamount : amount < u64Size) :
    w.queryVerifyBtcOutput env tx hash amount =
      .ok ((Bridge.scanOutputs env hash.val amount tx.outputs w.bridge).1,
        { w with bridge := (Bridge.scanOutputs env hash.val amount tx.outputs w.bridge).2 }) := by
  have hfits : env.callData 44 [.bytes hash.val, .u64 amount]
      = .ok (buffer 40 [.bytes hash.val, .u64 amount]) :=
    callData_eq_ok.mpr ⟨.inr (by simp [Field.width, hash.property]), rfl⟩
  simp only [World.queryVerifyBtcOutput, hfits, ok_bind,
    Bridge.verifyBtcOutput_eq hash.property hamount, orRevert, pure_eq]

/-- A query only writes to the bridge. -/
lemma queryVerifyBtcOutput_ok (h : w.queryVerifyBtcOutput env tx hash amount = .ok (verified, w')) :
    ∃ bridge, w' = { w with bridge := bridge } := by
  simp only [World.queryVerifyBtcOutput, bind_eq_ok, pure_eq, Except.ok.injEq, Prod.mk.injEq,
    Prod.exists] at h
  obtain ⟨_, -, _, bridge, -, -, rfl⟩ := h
  exact ⟨bridge, rfl⟩

/-- An output that pays is verified. -/
lemma queryVerifyBtcOutput_of_pays (hamount : amount < u64Size) (hmem : output ∈ tx.outputs)
    (hpays : Bridge.Pays env w.bridge hash.val amount output) :
    ∃ bridge,
      w.queryVerifyBtcOutput env tx hash amount = .ok (true, { w with bridge := bridge }) := by
  rw [queryVerifyBtcOutput_eq hamount, Bridge.scanOutputs_of_pays hash.property hmem hpays]
  exact ⟨_, rfl⟩

/-- Verifying an amount of satoshis never fails. -/
lemma failsOnly_queryVerifyBtcOutput (hamount : amount < u64Size) :
    FailsOnly P (w.queryVerifyBtcOutput env tx hash amount) := by
  rw [queryVerifyBtcOutput_eq hamount]
  exact failsOnly_ok _

end

/-! ### Script hashes -/

section

variable {env : Env} {pubkey buyerPub writerPub : List UInt8} {n : ℕ} {hash : Bytes32}

/-- The arguments are read back as they were written. -/
lemma queryCsvScriptHash_eq (hlen : pubkey.length = 33) (hpos : n ≠ 0) (hfits : n ≤ 65535) :
    queryCsvScriptHash env pubkey n = .ok (env.sha256 (env.csvTimelock pubkey n)) := by
  have hsize : n < u64Size := hfits.trans_lt (by decide)
  have hbuffer : buffer 41 [.bytes pubkey, .u64 n] = pubkey ++ (Field.encode (.u64 n) ++ []) := by
    simp [buffer, Field.encode, Field.width, hlen]
  have hcalldata : env.callData 45 [.bytes pubkey, .u64 n]
      = .ok (buffer 41 [.bytes pubkey, .u64 n]) :=
    callData_eq_ok.mpr ⟨.inr (by simp [Field.width, hlen]), rfl⟩
  rw [queryCsvScriptHash, hcalldata, ok_bind, hbuffer, Bridge.generateCsvScriptHash_eq,
    Bridge.csvArguments_encode hlen hsize, ok_bind]
  dsimp only
  rw [require_of hpos, ok_bind, require_of hfits]
  rfl

/-- A zero timelock is refused; otherwise the answer is the hash of the escrow script. -/
lemma queryEscrowScriptHash_eq (hbuyer : buyerPub.length = 33) (hwriter : writerPub.length = 33)
    (hsize : n < u64Size) : queryEscrowScriptHash env buyerPub writerPub n = .ok hash ↔
      n ≠ 0 ∧ env.sha256 (Bridge.escrowScript buyerPub writerPub n) = hash := by
  have hbuffer : buffer 74 [.bytes buyerPub, .bytes writerPub, .u64 n]
      = buyerPub ++ (writerPub ++ (Field.encode (.u64 n) ++ [])) := by
    simp [buffer, Field.encode, Field.width, hbuyer, hwriter]
  have hcalldata : env.callData 78 [.bytes buyerPub, .bytes writerPub, .u64 n]
      = .ok (buffer 74 [.bytes buyerPub, .bytes writerPub, .u64 n]) :=
    callData_eq_ok.mpr ⟨.inr (by simp [Field.width, hbuyer, hwriter]), rfl⟩
  rw [queryEscrowScriptHash, hcalldata, ok_bind, hbuffer, Bridge.generateEscrowScriptHash_eq,
    Bridge.escrowArguments_encode hbuyer hwriter hsize, ok_bind, orRevert_eq_ok]
  dsimp only
  rw [require_of hbuyer, require_of hwriter]
  simp only [bind_eq_ok, require_eq_ok, ok_bind, pure_eq, Except.ok.injEq, exists_const]

end

end Frogop
