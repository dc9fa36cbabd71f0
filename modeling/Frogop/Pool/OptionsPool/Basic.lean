import Frogop.Pool.Execution

/-!
# `OptionsPool`: OP20/OP20 options

The state-changing methods of the type-0 pool, in the order of the source.
-/

namespace Frogop.OptionsPool

open Outcome

variable {σ : Type}

/-- The checks on the arguments that creating an option makes in every pool. -/
def checkTerms (tx : Tx) (strikePrice expiryBlock underlyingAmount premium : ℕ) :
    Except Revert Unit := do
  require (¬ (strikePrice = 0 ∨ underlyingAmount = 0 ∨ premium = 0))
    (.revert "Values must be > 0")
  require (tx.block < expiryBlock) (.revert "Expiry in past")
  require (expiryBlock ≤ u64Add tx.block maxExpiryBlocks) (.revert "Expiry too far")

/-- `optionType` as a `u8` of the calldata. -/
def checkType (optionType : ℕ) : Except Revert OptionType :=
  match OptionType.ofU8 optionType with
  | some optionType => .ok optionType
  | none => .error (.revert "Invalid option type")

/-- The writes of the `OptionWritten` event. -/
def writtenFields (o : OptionRecord) : List Field :=
  [.u256 o.id, .address o.writer, .u8 o.optionType.toU8, .u256 o.strikePrice,
    .u256 o.underlyingAmount, .u256 o.premium, .u64 o.expiryBlock]

def writeOption (env : Env) (tx : Tx)
    (optionType strikePrice expiryBlock underlyingAmount premium : ℕ) (w : World σ) :
    Except Revert (Reply σ) := do
  let optionType ← checkType optionType
  checkTerms tx strikePrice expiryBlock underlyingAmount premium
  let collateralToken := w.pool.collateralToken optionType
  let collateral ← collateralAmount optionType strikePrice underlyingAmount
  let option := newOption tx optionType strikePrice expiryBlock underlyingAmount premium
  let (optionId, w) ← w.addOption option
  let w ← w.transferFrom env collateralToken tx.sender env.contractAddress collateral
  let w ← w.emit env .optionWritten 200 (writtenFields (option optionId))
  w.respond env 32 [.u256 optionId]

def cancelOption (env : Env) (tx : Tx) (optionId : ℕ) (w : World σ) :
    Except Revert (Reply σ) := do
  require (w.pool.options.existsAt optionId) (.revert "Option not found")
  let option := w.option optionId
  require (tx.sender = option.writer) (.revert "Not writer")
  require (option.status = .OPEN) (.revert "Not open")
  let collateralToken := w.pool.collateralToken option.optionType
  let collateral ← option.collateral
  let fee ← cancelFee tx.block option collateral
  let returnAmount ← SafeMath.sub collateral fee
  let w := w.setStatus optionId .CANCELLED
  let w ← w.transfer env collateralToken option.writer returnAmount
  let w ← w.payFee env collateralToken fee
  let w ← w.emit env .optionCancelled 128
    [.u256 optionId, .address option.writer, .u256 returnAmount, .u256 fee]
  w.respond env 1 [.boolean true]

def buyOption (env : Env) (tx : Tx) (optionId : ℕ) (w : World σ) :
    Except Revert (Reply σ) := do
  require (w.pool.options.existsAt optionId) (.revert "Option not found")
  let option := w.option optionId
  require (option.status = .OPEN) (.revert "Not open")
  require (tx.block < option.expiryBlock) (.revert "Already expired")
  require (tx.sender ≠ option.writer) (.revert "Writer cannot buy own option")
  let buyFee ← ceilBps option.premium buyFeeBps
  let writerAmount ← SafeMath.sub option.premium buyFee
  let w := (w.setBuyer optionId tx.sender).setStatus optionId .PURCHASED
  let w ← w.transferFrom env w.pool.premiumToken tx.sender option.writer writerAmount
  let w ← w.transferFrom env w.pool.premiumToken tx.sender w.pool.feeRecipient buyFee
  let w ← w.emit env .optionPurchased 168
    [.u256 optionId, .address tx.sender, .address option.writer, .u256 option.premium,
      .u256 writerAmount, .u64 tx.block]
  w.respond env 1 [.boolean true]

/-- The writes of the `OptionExercised` event. -/
def exercisedFields (o : OptionRecord) (value fee : ℕ) : List Field :=
  [.u256 o.id, .address o.buyer, .address o.writer, .u8 o.optionType.toU8,
    .u256 o.underlyingAmount, .u256 value, .u256 fee]

/-- The CALL branch of `exercise`: the buyer pays the strike value and takes the underlying. -/
def exerciseCall (env : Env) (tx : Tx) (option : OptionRecord) (value : ℕ) (w : World σ) :
    Except Revert (ℕ × World σ) := do
  let exerciseFee ← ceilBps option.underlyingAmount exerciseFeeBps
  let buyerReceives ← SafeMath.sub option.underlyingAmount exerciseFee
  let w ← w.transferFrom env w.pool.premiumToken tx.sender option.writer value
  let w ← w.transfer env w.pool.underlying tx.sender buyerReceives
  let w ← w.transfer env w.pool.underlying w.pool.feeRecipient exerciseFee
  return (exerciseFee, w)

/-- The PUT branch of `exercise`: the buyer pays the underlying and takes the strike value. -/
def exercisePut (env : Env) (tx : Tx) (option : OptionRecord) (value : ℕ) (w : World σ) :
    Except Revert (ℕ × World σ) := do
  let exerciseFee ← ceilBps value exerciseFeeBps
  let buyerReceives ← SafeMath.sub value exerciseFee
  let w ← w.transferFrom env w.pool.underlying tx.sender option.writer option.underlyingAmount
  let w ← w.transfer env w.pool.premiumToken tx.sender buyerReceives
  let w ← w.transfer env w.pool.premiumToken w.pool.feeRecipient exerciseFee
  return (exerciseFee, w)

def exchange (env : Env) (tx : Tx) (option : OptionRecord) (value : ℕ) (w : World σ) :
    Except Revert (ℕ × World σ) :=
  match option.optionType with
  | .CALL => exerciseCall env tx option value w
  | .PUT => exercisePut env tx option value w

def exercise (env : Env) (tx : Tx) (optionId : ℕ) (w : World σ) :
    Except Revert (Reply σ) := do
  require (w.pool.options.existsAt optionId) (.revert "Option not found")
  let option := w.option optionId
  require (option.status = .PURCHASED) (.revert "Not purchased")
  require (tx.sender = option.buyer) (.revert "Not buyer")
  require (option.expiryBlock ≤ tx.block) (.revert "Not yet expired")
  require (tx.block < w.pool.graceEnd option) (.revert "Grace period ended")
  let value ← strikeValue option.strikePrice option.underlyingAmount
  let w := w.setStatus optionId .EXERCISED
  let (exerciseFee, w) ← exchange env tx option value w
  let w ← w.emit env .optionExercised 193 (exercisedFields option value exerciseFee)
  w.respond env 1 [.boolean true]

def settle (env : Env) (tx : Tx) (optionId : ℕ) (w : World σ) : Except Revert (Reply σ) := do
  require (w.pool.options.existsAt optionId) (.revert "Option not found")
  let option := w.option optionId
  require (option.status = .PURCHASED) (.revert "Not purchased")
  require (w.pool.graceEnd option ≤ tx.block) (.revert "Grace period not ended")
  let collateralToken := w.pool.collateralToken option.optionType
  let collateral ← option.collateral
  let w := w.setStatus optionId .EXPIRED
  let w ← w.transfer env collateralToken option.writer collateral
  let w ← w.emit env .optionExpired 100
    [.u256 optionId, .address option.writer, .u256 collateral]
  w.respond env 1 [.boolean true]

def transferOption (env : Env) (tx : Tx) (optionId : ℕ) (newBuyer : Address) (w : World σ) :
    Except Revert (Reply σ) := do
  require (w.pool.options.existsAt optionId) (.revert "Option not found")
  let option := w.option optionId
  require (option.status = .PURCHASED) (.revert "Not purchased")
  require (tx.sender = option.buyer) (.revert "Not buyer")
  require (newBuyer ≠ Address.zero) (.revert "Invalid recipient")
  require (newBuyer ≠ option.buyer) (.revert "Already owner")
  require (tx.block < w.pool.graceEnd option) (.revert "Grace period ended")
  let w := w.setBuyer optionId newBuyer
  let w ← w.emit env .optionTransferred 96
    [.u256 optionId, .address option.buyer, .address newBuyer]
  w.respond env 1 [.boolean true]

/-- Take what the new collateral needs beyond the refund, or give back what it leaves over. -/
def settleDifference (env : Env) (caller token : Address) (newCollateral refund : ℕ)
    (w : World σ) : Except Revert (World σ) :=
  if refund < newCollateral then do
    let topUp ← SafeMath.sub newCollateral refund
    w.transferFrom env token caller env.contractAddress topUp
  else if newCollateral < refund then do
    let surplus ← SafeMath.sub refund newCollateral
    w.transfer env token caller surplus
  else pure w

def rollOption (env : Env) (tx : Tx) (optionId newStrikePrice newExpiryBlock newPremium : ℕ)
    (w : World σ) : Except Revert (Reply σ) := do
  require (w.pool.options.existsAt optionId) (.revert "Option not found")
  let option := w.option optionId
  require (tx.sender = option.writer) (.revert "Not writer")
  require (option.status = .OPEN) (.revert "Not open")
  require (¬ (newStrikePrice = 0 ∨ newPremium = 0)) (.revert "Values must be > 0")
  require (tx.block < newExpiryBlock) (.revert "Expiry in past")
  require (newExpiryBlock ≤ u64Add tx.block maxExpiryBlocks) (.revert "Expiry too far")
  let collateralToken := w.pool.collateralToken option.optionType
  let oldCollateral ← option.collateral
  let newCollateral ←
    collateralAmount option.optionType newStrikePrice option.underlyingAmount
  let fee ← cancelFee tx.block option oldCollateral
  let w := w.setStatus optionId .CANCELLED
  let w ← w.payFee env collateralToken fee
  let refundAfterFee ← SafeMath.sub oldCollateral fee
  let w ← settleDifference env tx.sender collateralToken newCollateral refundAfterFee w
  let newOption := newOption tx option.optionType newStrikePrice newExpiryBlock
    option.underlyingAmount newPremium
  let (newOptionId, w) ← w.addOption newOption
  let returnAmount ← SafeMath.sub oldCollateral fee
  let w ← w.emit env .optionCancelled 128
    [.u256 optionId, .address tx.sender, .u256 returnAmount, .u256 fee]
  let w ← w.emit env .optionWritten 200 (writtenFields (newOption newOptionId))
  let w ← w.emit env .optionRolled 228
    [.u256 optionId, .u256 newOptionId, .address tx.sender, .u256 newStrikePrice,
      .u64 newExpiryBlock, .u256 newPremium]
  w.respond env 32 [.u256 newOptionId]

/-! ### Batches -/

/-- The count and duplicate checks of a batch; the ids it is about. -/
def batchIds (count id0 id1 id2 id3 id4 : ℕ) : Except Revert (List ℕ) := do
  require (count ≠ 0) (.revert "Empty batch")
  require (count ≤ maxBatchSize) (.revert "Batch too large")
  let ids := [id0, id1, id2, id3, id4].take count
  require ids.Nodup (.revert "Duplicate ID in batch")
  return ids

/-- The body of the loop in `batchCancel`. -/
def batchCancelStep (env : Env) (tx : Tx) (w : World σ) (optionId : ℕ) :
    Except Revert (World σ) := do
  require (w.pool.options.existsAt optionId) (.revert "Option not found")
  let option := w.option optionId
  require (tx.sender = option.writer) (.revert "Not writer")
  require (option.status = .OPEN) (.revert "Not open")
  let collateralToken := w.pool.collateralToken option.optionType
  let collateral ← option.collateral
  let fee ← cancelFee tx.block option collateral
  let returnAmount ← SafeMath.sub collateral fee
  let w := w.setStatus optionId .CANCELLED
  let w ← w.transfer env collateralToken option.writer returnAmount
  let w ← w.payFee env collateralToken fee
  w.emit env .optionCancelled 128
    [.u256 optionId, .address option.writer, .u256 returnAmount, .u256 fee]

def batchCancel (env : Env) (tx : Tx) (count id0 id1 id2 id3 id4 : ℕ) (w : World σ) :
    Except Revert (Reply σ) := do
  let ids ← batchIds count id0 id1 id2 id3 id4
  let w ← ids.foldlM (batchCancelStep env tx) w
  w.respond env 1 [.boolean true]

/-- The body of the loop in `batchSettle`; an id that cannot be settled is skipped. -/
def batchSettleStep (env : Env) (tx : Tx) (acc : ℕ × World σ) (optionId : ℕ) :
    Except Revert (ℕ × World σ) :=
  let (settledCount, w) := acc
  let option := w.option optionId
  if ¬ w.pool.options.existsAt optionId then pure acc
  else if option.status ≠ .PURCHASED then pure acc
  else if tx.block < w.pool.graceEnd option then pure acc
  else do
    let collateralToken := w.pool.collateralToken option.optionType
    let collateral ← option.collateral
    let w := w.setStatus optionId .EXPIRED
    let w ← w.transfer env collateralToken option.writer collateral
    let w ← w.emit env .optionExpired 100
      [.u256 optionId, .address option.writer, .u256 collateral]
    let settledCount ← SafeMath.add settledCount 1
    pure (settledCount, w)

def batchSettle (env : Env) (tx : Tx) (count id0 id1 id2 id3 id4 : ℕ) (w : World σ) :
    Except Revert (Reply σ) := do
  let ids ← batchIds count id0 id1 id2 id3 id4
  let (settledCount, w) ← ids.foldlM (batchSettleStep env tx) (0, w)
  w.respond env 32 [.u256 settledCount]

/-! ### The contract -/

/-- The type-0 pool has no storage beyond the base contract's. -/
abbrev State := World Unit

inductive Call
  | writeOption (optionType strikePrice expiryBlock underlyingAmount premium : ℕ)
  | cancelOption (optionId : ℕ)
  | buyOption (optionId : ℕ)
  | exercise (optionId : ℕ)
  | settle (optionId : ℕ)
  | transferOption (optionId : ℕ) (newBuyer : Address)
  | rollOption (optionId newStrikePrice newExpiryBlock newPremium : ℕ)
  | batchCancel (count id0 id1 id2 id3 id4 : ℕ)
  | batchSettle (count id0 id1 id2 id3 id4 : ℕ)
  | updateFeeRecipient (newRecipient : Address)
  | registerBtcPubkey (calldata : List UInt8)

def exec (env : Env) (tx : Tx) : Call → State → Except Revert (Reply Unit)
  | .writeOption t s e a p => OptionsPool.writeOption env tx t s e a p
  | .cancelOption i => OptionsPool.cancelOption env tx i
  | .buyOption i => OptionsPool.buyOption env tx i
  | .exercise i => OptionsPool.exercise env tx i
  | .settle i => OptionsPool.settle env tx i
  | .transferOption i newBuyer => OptionsPool.transferOption env tx i newBuyer
  | .rollOption i s e p => OptionsPool.rollOption env tx i s e p
  | .batchCancel n a b c d e => OptionsPool.batchCancel env tx n a b c d e
  | .batchSettle n a b c d e => OptionsPool.batchSettle env tx n a b c d e
  | .updateFeeRecipient newRecipient => Frogop.updateFeeRecipient env tx newRecipient
  | .registerBtcPubkey data => Frogop.registerBtcPubkey env tx data

/-! ### An option written and sold -/

namespace Testnet

def env : Env := Frogop.Testnet.env .fixed fun _ => Bytes32.zero

/-- Account 10 writes a CALL that expires at block 1000. -/
def written (strikePrice underlyingAmount premium : ℕ) : State :=
  Testnet.next (exec env) (Testnet.world ()) (Testnet.tx 10 100)
    (.writeOption 0 strikePrice 1000 underlyingAmount premium)

/-- Account 11 buys it. -/
def sold (strikePrice underlyingAmount premium : ℕ) : State :=
  Testnet.next (exec env) (written strikePrice underlyingAmount premium)
    (Testnet.tx 11 101) (.buyOption 0)

/-- The two calls as a run, when they go through. -/
lemma run_sold (others : Ledger → Ledger → Prop) {s a p : ℕ}
    (hwrite : (exec env (Testnet.tx 10 100) (.writeOption 0 s 1000 a p)
      (Testnet.world ())).map Prod.fst = .ok [.u256 0])
    (hbuy : (exec env (Testnet.tx 11 101) (.buyOption 0) (written s a p)).map Prod.fst
      = .ok [.boolean true]) :
    Lts.Run (Step env others (exec env)) (Testnet.world ())
      [(.call (Testnet.tx 11 101) (.buyOption 0) [.boolean true], sold s a p),
        (.call (Testnet.tx 10 100) (.writeOption 0 s 1000 a p) [.u256 0], written s a p)]
      (sold s a p) := by
  refine (Lts.Run.nil.cons (.call ?_ (Testnet.exec_next hwrite))).cons
    (.call ?_ (Testnet.exec_next hbuy))
  · exact ⟨by decide, by decide⟩
  · exact ⟨by decide, by decide⟩

end Testnet

end Frogop.OptionsPool
