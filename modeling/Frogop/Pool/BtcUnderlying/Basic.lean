import Frogop.Pool.BridgeCalls
import Frogop.Pool.OptionsPool.Basic

/-!
# `OptionsPoolBtcUnderlying`: BTC underlying, OP20 quote

The collateral of a CALL is bitcoin, sent to an escrow script when the option is written; that of
a PUT is held by the pool. Premium and the strike of a CALL are paid in the premium token.
-/

namespace Frogop.BtcUnderlying

open Outcome

/-! ### Storage -/

/-- What the type-2 pool stores beyond the base contract, for every option. -/
structure Storage where
  /-- Extended slot 7. -/
  btcCollateral : ℕ → ℕ
  /-- Extended slot 8. -/
  escrowHash : ℕ → Bytes32

abbrev State := World Storage

def setBtcCollateral (w : State) (optionId amount : ℕ) : State :=
  { w with
    own := { w.own with btcCollateral := Function.update w.own.btcCollateral optionId amount } }

def setEscrowHash (w : State) (optionId : ℕ) (hash : Bytes32) : State :=
  { w with own := { w.own with escrowHash := Function.update w.own.escrowHash optionId hash } }

def onDeployment (underlying premiumToken feeRecipient : Address) (gracePeriod : ℕ)
    (bridgeAddr : Address) : Except Revert (PoolStorage × Storage) := do
  let pool ← Frogop.onDeployment underlying premiumToken feeRecipient gracePeriod
  require (bridgeAddr ≠ Address.zero) (.revert "Bridge address cannot be zero")
  return (pool, ⟨fun _ => 0, fun _ => Bytes32.zero⟩)

/-! ### Methods -/

/-- The buyer of the escrow script while there is none. -/
def placeholderBuyer : List UInt8 := 0x02 :: List.replicate 32 0x00

/-- The CALL branch of `writeOptionBtc`: the transaction pays the collateral into the escrow. -/
def writeCall (env : Env) (tx : Tx) (strikePrice expiryBlock underlyingAmount premium : ℕ)
    (w : State) : Except Revert (Reply Storage) := do
  require (underlyingAmount < u64Size) (.revert "Underlying amount overflows u64")
  let writerPubkey ← w.pool.registeredPubkey tx.sender
  require (writerPubkey.length = 33) (.revert "Invalid writer pubkey length")
  let cltvBlock := u64Add expiryBlock w.pool.gracePeriod
  let escrowHash ← queryEscrowScriptHash env placeholderBuyer writerPubkey cltvBlock
  let (verified, w) ← w.queryVerifyBtcOutput env tx escrowHash underlyingAmount
  require (verified = true) (.revert "BTC collateral output not found")
  let option := newOption tx .CALL strikePrice expiryBlock underlyingAmount premium
  let (optionId, w) ← w.addOption option
  let w := setEscrowHash (setBtcCollateral w optionId underlyingAmount) optionId escrowHash
  let w ← w.emit env .optionWrittenBtc 232
    (OptionsPool.writtenFields (option optionId) ++ [.bytes escrowHash.val])
  w.respond env 32 [.u256 optionId]

/-- The PUT branch of `writeOptionBtc`. -/
def writePut (env : Env) (tx : Tx) (strikePrice expiryBlock underlyingAmount premium : ℕ)
    (w : State) : Except Revert (Reply Storage) := do
  let option := newOption tx .PUT strikePrice expiryBlock underlyingAmount premium
  let (optionId, w) ← w.addOption option
  let collateral ← strikeValue strikePrice underlyingAmount
  let w ← w.transferFrom env w.pool.premiumToken tx.sender env.contractAddress collateral
  let w ← w.emit env .optionWritten 200 (OptionsPool.writtenFields (option optionId))
  w.respond env 32 [.u256 optionId]

def writeOptionBtc (env : Env) (tx : Tx)
    (optionType strikePrice expiryBlock underlyingAmount premium : ℕ) (w : State) :
    Except Revert (Reply Storage) := do
  let optionType ← OptionsPool.checkType optionType
  OptionsPool.checkTerms tx strikePrice expiryBlock underlyingAmount premium
  match optionType with
  | .CALL => writeCall env tx strikePrice expiryBlock underlyingAmount premium w
  | .PUT => writePut env tx strikePrice expiryBlock underlyingAmount premium w

def buyOption (env : Env) (tx : Tx) (optionId : ℕ) : State → Except Revert (Reply Storage) :=
  OptionsPool.buyOption env tx optionId

/-- The CALL branch of `exercise`: the buyer pays the strike value, and the bitcoin in the escrow
is announced as claimable. -/
def exerciseCall (env : Env) (tx : Tx) (option : OptionRecord) (value : ℕ) (w : State) :
    Except Revert (ℕ × State) := do
  let exerciseFee ← ceilBps value exerciseFeeBps
  let writerReceives ← SafeMath.sub value exerciseFee
  let w ← w.transferFrom env w.pool.premiumToken tx.sender option.writer writerReceives
  let w ← w.transferFrom env w.pool.premiumToken tx.sender w.pool.feeRecipient exerciseFee
  let escrowHash := w.own.escrowHash option.id
  let btcAmount := w.own.btcCollateral option.id
  let w ← w.emit env .btcClaimable 128
    [.u256 option.id, .address option.buyer, .u256 btcAmount, .bytes escrowHash.val]
  return (exerciseFee, w)

/-- The PUT branch of `exercise`: the transaction pays the underlying in bitcoin, the buyer takes
the strike value. -/
def exercisePut (env : Env) (tx : Tx) (option : OptionRecord) (value : ℕ) (w : State) :
    Except Revert (ℕ × State) := do
  let writerPubkey ← w.pool.registeredPubkey option.writer
  require (writerPubkey.length = 33) (.revert "Invalid writer pubkey length")
  require (option.underlyingAmount < u64Size) (.revert "Underlying amount overflows u64")
  let csvHash ← queryCsvScriptHash env writerPubkey 6
  let (verified, w) ← w.queryVerifyBtcOutput env tx csvHash option.underlyingAmount
  require (verified = true) (.revert "BTC underlying payment not found")
  let exerciseFee ← ceilBps value exerciseFeeBps
  let buyerReceives ← SafeMath.sub value exerciseFee
  let w ← w.transfer env w.pool.premiumToken tx.sender buyerReceives
  let w ← w.transfer env w.pool.premiumToken w.pool.feeRecipient exerciseFee
  return (exerciseFee, w)

def exchange (env : Env) (tx : Tx) (option : OptionRecord) (value : ℕ) (w : State) :
    Except Revert (ℕ × State) :=
  match option.optionType with
  | .CALL => exerciseCall env tx option value w
  | .PUT => exercisePut env tx option value w

def exercise (env : Env) (tx : Tx) (optionId : ℕ) (w : State) : Except Revert (Reply Storage) := do
  require (w.pool.options.existsAt optionId) (.revert "Option not found")
  let option := w.option optionId
  require (option.status = .PURCHASED) (.revert "Not purchased")
  require (tx.sender = option.buyer) (.revert "Not buyer")
  require (option.expiryBlock ≤ tx.block) (.revert "Not yet expired")
  require (tx.block < w.pool.graceEnd option) (.revert "Grace period ended")
  let value ← strikeValue option.strikePrice option.underlyingAmount
  let w := w.setStatus optionId .EXERCISED
  let (exerciseFee, w) ← exchange env tx option value w
  let w ← w.emit env .optionExercised 193 (OptionsPool.exercisedFields option value exerciseFee)
  w.respond env 1 [.boolean true]

/-- What the events of a CALL that ends without exercise say of the escrow. -/
def escrowFields (w : State) (o : OptionRecord) : List Field :=
  [.u256 o.id, .address o.writer, .u256 (w.own.btcCollateral o.id),
    .bytes (w.own.escrowHash o.id).val]

def cancelOption (env : Env) (tx : Tx) (optionId : ℕ) (w : State) :
    Except Revert (Reply Storage) := do
  require (w.pool.options.existsAt optionId) (.revert "Option not found")
  let option := w.option optionId
  require (tx.sender = option.writer) (.revert "Not writer")
  require (option.status = .OPEN) (.revert "Not open")
  let w := w.setStatus optionId .CANCELLED
  match option.optionType with
  | .CALL => do
    let w ← w.emit env .optionCancelled 128 (escrowFields w option)
    w.respond env 1 [.boolean true]
  | .PUT => do
    let collateral ← strikeValue option.strikePrice option.underlyingAmount
    let fee ← cancelFee tx.block option collateral
    let returnAmount ← SafeMath.sub collateral fee
    let w ← w.transfer env w.pool.premiumToken option.writer returnAmount
    let w ← w.payFee env w.pool.premiumToken fee
    let w ← w.emit env .optionCancelled 128
      [.u256 optionId, .address option.writer, .u256 returnAmount, .u256 fee]
    w.respond env 1 [.boolean true]

def settle (env : Env) (tx : Tx) (optionId : ℕ) (w : State) : Except Revert (Reply Storage) := do
  require (w.pool.options.existsAt optionId) (.revert "Option not found")
  let option := w.option optionId
  require (option.status = .PURCHASED) (.revert "Not purchased")
  require (w.pool.graceEnd option ≤ tx.block) (.revert "Grace period not ended")
  let w := w.setStatus optionId .EXPIRED
  match option.optionType with
  | .CALL => do
    let w ← w.emit env .optionExpired 128 (escrowFields w option)
    w.respond env 1 [.boolean true]
  | .PUT => do
    let collateral ← strikeValue option.strikePrice option.underlyingAmount
    let w ← w.transfer env w.pool.premiumToken option.writer collateral
    let w ← w.emit env .optionExpired 100
      [.u256 optionId, .address option.writer, .u256 collateral]
    w.respond env 1 [.boolean true]

/-! ### The contract -/

inductive Call
  | writeOptionBtc (optionType strikePrice expiryBlock underlyingAmount premium : ℕ)
  | buyOption (optionId : ℕ)
  | exercise (optionId : ℕ)
  | cancelOption (optionId : ℕ)
  | settle (optionId : ℕ)
  | getOption (optionId : ℕ)
  | updateFeeRecipient (newRecipient : Address)
  | registerBtcPubkey (calldata : List UInt8)

def exec (env : Env) (tx : Tx) : Call → State → Except Revert (Reply Storage)
  | .writeOptionBtc t s e a p => BtcUnderlying.writeOptionBtc env tx t s e a p
  | .buyOption i => BtcUnderlying.buyOption env tx i
  | .exercise i => BtcUnderlying.exercise env tx i
  | .cancelOption i => BtcUnderlying.cancelOption env tx i
  | .settle i => BtcUnderlying.settle env tx i
  | .getOption i => Frogop.getOption env i
  | .updateFeeRecipient newRecipient => Frogop.updateFeeRecipient env tx newRecipient
  | .registerBtcPubkey data => Frogop.registerBtcPubkey env tx data

/-! ### Options written and sold -/

namespace Testnet

def writerPub : List UInt8 := 0x02 :: List.replicate 32 0x11

def buyerPub : List UInt8 := 0x03 :: List.replicate 32 0x22

/-- The hash of the escrow script of a CALL that expires at block 1000, as it is written. -/
def escrowHash : Bytes32 :=
  Bytes32.ofNat 0x94b1741dcbde1ce3b6fa726243f241da406c925b5887fc80424183a76767300b

/-- SHA-256 of what is hashed below: two escrow scripts, and the key of a consumed output. -/
def sha256 (bytes : List UInt8) : Bytes32 :=
  if bytes = Bridge.escrowScript placeholderBuyer writerPub 1144 then escrowHash
  else if bytes = Bridge.escrowScript buyerPub writerPub 1144 then
    Bytes32.ofNat 0xc90485f4d469a119661712eaa1f508562b91d6e379d981f579dcb46f630ca197
  else if bytes = buffer 42 [.u16 3, .bytes escrowHash.val, .u64 4] then
    Bytes32.ofNat 0x9e23b8c41ec7218cad975b87975969cc3973337345b031e595e657c2f0127a52
  else Bytes32.zero

def env : Env := Frogop.Testnet.env .growing sha256

def world : State := Frogop.Testnet.world ⟨fun _ => 0, fun _ => Bytes32.zero⟩

/-- Account 10 writes a CALL on four satoshis, account 11 registers a key and buys it. -/
def selling (strikePrice : ℕ) (buyerPub : List UInt8) : List (Tx × Call) :=
  [(Frogop.Testnet.tx 10 100, .registerBtcPubkey writerPub),
    (Frogop.Testnet.tx 11 100, .registerBtcPubkey buyerPub),
    ({ Frogop.Testnet.tx 10 100 with
        outputs := [⟨some (0x00 :: 0x20 :: escrowHash.val), 4⟩] },
      .writeOptionBtc 0 strikePrice 1000 4 100),
    (Frogop.Testnet.tx 11 101, .buyOption 0)]

lemma selling_fromAccount (s : ℕ) (key : List UInt8) :
    ∀ q ∈ selling s key, q.1.FromAccount env := by
  simp only [selling, List.forall_mem_cons, List.not_mem_nil, false_imp_iff, implies_true, and_true]
  decide

def sold (strikePrice : ℕ) : State :=
  Frogop.Testnet.after (exec env) world (selling strikePrice buyerPub)

/-- The CALL exercised at its expiry. -/
def exercising (buyerPub : List UInt8) : List (Tx × Call) :=
  selling (10 ^ 18) buyerPub ++ [(Frogop.Testnet.tx 11 1000, .exercise 0)]

def exercised (buyerPub : List UInt8) : State :=
  Frogop.Testnet.after (exec env) world (exercising buyerPub)

lemma exercising_fromAccount (key : List UInt8) :
    ∀ q ∈ exercising key, q.1.FromAccount env := by
  simp only [exercising, List.forall_mem_append, List.forall_mem_singleton]
  exact ⟨selling_fromAccount _ key, by decide⟩

/-- Account 10 writes a PUT on four satoshis without registering a key, account 11 buys it. -/
def sellingPut : List (Tx × Call) :=
  [(Frogop.Testnet.tx 10 100, .writeOptionBtc 1 (10 ^ 18) 1000 4 100),
    (Frogop.Testnet.tx 11 101, .buyOption 0)]

lemma sellingPut_fromAccount : ∀ q ∈ sellingPut, q.1.FromAccount env := by
  simp only [sellingPut, List.forall_mem_cons, List.not_mem_nil, false_imp_iff, implies_true,
    and_true]
  decide

end Testnet

end Frogop.BtcUnderlying
