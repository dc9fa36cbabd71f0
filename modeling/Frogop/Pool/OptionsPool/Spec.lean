import Frogop.Pool.Accounts
import Frogop.Pool.OptionsPool.Basic

/-!
# What each method of `OptionsPool` does

One inversion lemma per method: the guards a successful call passed, the amounts it computed, the
token calls it made and the world it left. Of writing and buying the converse is stated too.
-/

namespace Frogop.OptionsPool

open Outcome World

variable {σ : Type} {env : Env} {tx : Tx} {w w' : World σ} {r : Response}

/-- Only the ledgers and the event log of a world are replaced. -/
abbrev leaves (w : World σ) (ledger : Ledger) (events : List Event) : World σ :=
  { w with ledger := ledger, events := w.events ++ events }

@[simp] lemma checkType_eq_ok {n : ℕ} {t : OptionType} :
    checkType n = .ok t ↔ OptionType.ofU8 n = some t := by
  rw [checkType]
  cases OptionType.ofU8 n <;> simp

@[simp] lemma checkTerms_eq_ok {strikePrice expiryBlock underlyingAmount premium : ℕ} {u : Unit} :
    checkTerms tx strikePrice expiryBlock underlyingAmount premium = .ok u ↔
      (0 < strikePrice ∧ 0 < underlyingAmount ∧ 0 < premium) ∧ tx.block < expiryBlock ∧
        expiryBlock ≤ u64Add tx.block maxExpiryBlocks := by
  simp [checkTerms, Nat.pos_iff_ne_zero]

lemma writeOption_ok {optionType strikePrice expiryBlock underlyingAmount premium : ℕ}
    (h : writeOption env tx optionType strikePrice expiryBlock underlyingAmount premium w
      = .ok (r, w')) :
    ∃ t collateral l,
      OptionType.ofU8 optionType = some t ∧
      (0 < strikePrice ∧ 0 < underlyingAmount ∧ 0 < premium) ∧
      tx.block < expiryBlock ∧ expiryBlock ≤ u64Add tx.block maxExpiryBlocks ∧
      collateralAmount t strikePrice underlyingAmount = .ok collateral ∧
      w.ledger.transferFrom (w.pool.collateralToken t) env.contractAddress tx.sender
        env.contractAddress collateral = .ok l ∧
      w.pool.nextId + 1 < u256Size ∧
      r = [.u256 w.pool.nextId] ∧
      w' = leaves
        { w with
          pool :=
            { w.pool with
              nextId := w.pool.nextId + 1
              options := w.pool.options.set w.pool.nextId
                (newOption tx t strikePrice expiryBlock underlyingAmount premium
                  w.pool.nextId) } }
        l
        [⟨.optionWritten, 200, writtenFields
          (newOption tx t strikePrice expiryBlock underlyingAmount premium w.pool.nextId)⟩] := by
  simp only [writeOption, bind_eq_ok, checkType_eq_ok, checkTerms_eq_ok, addOption_eq_ok,
    transferFrom_eq_ok, emit_eq_ok, respond_eq_ok, Prod.mk.injEq] at h
  obtain ⟨t, ht, -, ⟨hpos, hpast, hfar⟩, collateral, hcoll, _, ⟨hnext, rfl⟩, _, ⟨l, hl, rfl⟩, _,
    ⟨-, rfl⟩, -, rfl, rfl⟩ := h
  exact ⟨t, collateral, l, ht, hpos, hpast, hfar, hcoll, hl, hnext, rfl, rfl⟩

/-- Writing goes through when its terms are valid and its collateral can be paid. -/
lemma writeOption_succeeds {optionType strikePrice expiryBlock underlyingAmount premium : ℕ}
    {t : OptionType} {collateral : ℕ} {l : Ledger} (ht : OptionType.ofU8 optionType = some t)
    (hpos : 0 < strikePrice ∧ 0 < underlyingAmount ∧ 0 < premium) (hpast : tx.block < expiryBlock)
    (hfar : expiryBlock ≤ u64Add tx.block maxExpiryBlocks)
    (hcoll : collateralAmount t strikePrice underlyingAmount = .ok collateral)
    (hl : w.ledger.transferFrom (w.pool.collateralToken t) env.contractAddress tx.sender
      env.contractAddress collateral = .ok l) (hnext : w.pool.nextId + 1 < u256Size) :
    ∃ w', writeOption env tx optionType strikePrice expiryBlock underlyingAmount premium w
      = .ok ([.u256 w.pool.nextId], w') := by
  simp only [writeOption, bind_eq_ok, checkType_eq_ok, checkTerms_eq_ok, addOption_eq_ok,
    transferFrom_eq_ok, emit_eq_ok, respond_eq_ok, Prod.mk.injEq, Prod.exists]
  refine ⟨_, t, ht, (), ⟨hpos, hpast, hfar⟩, collateral, hcoll, _, _, ⟨hnext, rfl, rfl⟩, _,
    ⟨l, hl, rfl⟩, _, ⟨.inr ?_, rfl⟩, .inr ?_, rfl, rfl⟩
  · simp [writtenFields, Field.width]
  · simp [Field.width]

lemma cancelOption_ok {optionId : ℕ} (h : cancelOption env tx optionId w = .ok (r, w')) :
    ∃ collateral fee l₁ l₂,
      w.pool.options.existsAt optionId ∧
      tx.sender = (w.option optionId).writer ∧ (w.option optionId).status = .OPEN ∧
      (w.option optionId).collateral = .ok collateral ∧
      cancelFee tx.block (w.option optionId) collateral = .ok fee ∧ fee ≤ collateral ∧
      w.ledger.transferFrom (w.pool.collateralToken (w.option optionId).optionType)
        env.contractAddress env.contractAddress (w.option optionId).writer (collateral - fee)
        = .ok l₁ ∧
      PaysFee env l₁ (w.pool.collateralToken (w.option optionId).optionType)
        w.pool.feeRecipient fee l₂ ∧
      r = [.boolean true] ∧
      w' = leaves (w.setStatus optionId .CANCELLED) l₂
        [⟨.optionCancelled, 128, [.u256 optionId, .address (w.option optionId).writer,
          .u256 (collateral - fee), .u256 fee]⟩] := by
  simp only [cancelOption, bind_eq_ok, require_eq_ok, SafeMath.sub_eq_ok, transfer_eq_ok,
    payFee_eq_ok, emit_eq_ok, respond_eq_ok, Prod.mk.injEq] at h
  obtain ⟨-, hex, -, hwriter, -, hopen, collateral, hcoll, fee, hfee, _, ⟨hle, rfl⟩, _,
    ⟨l₁, hl₁, rfl⟩, _, ⟨l₂, hl₂, rfl⟩, _, ⟨-, rfl⟩, -, rfl, rfl⟩ := h
  exact ⟨collateral, fee, l₁, l₂, hex, hwriter, hopen, hcoll, hfee, hle, hl₁, hl₂, rfl, rfl⟩

lemma buyOption_ok {optionId : ℕ} (h : buyOption env tx optionId w = .ok (r, w')) :
    ∃ buyFee l₁ l₂,
      w.pool.options.existsAt optionId ∧ (w.option optionId).status = .OPEN ∧
      tx.block < (w.option optionId).expiryBlock ∧ tx.sender ≠ (w.option optionId).writer ∧
      ceilBps (w.option optionId).premium buyFeeBps = .ok buyFee ∧
      buyFee ≤ (w.option optionId).premium ∧
      w.ledger.transferFrom w.pool.premiumToken env.contractAddress tx.sender
        (w.option optionId).writer ((w.option optionId).premium - buyFee) = .ok l₁ ∧
      l₁.transferFrom w.pool.premiumToken env.contractAddress tx.sender w.pool.feeRecipient buyFee
        = .ok l₂ ∧
      r = [.boolean true] ∧
      w' = leaves ((w.setBuyer optionId tx.sender).setStatus optionId .PURCHASED) l₂
        [⟨.optionPurchased, 168, [.u256 optionId, .address tx.sender,
          .address (w.option optionId).writer, .u256 (w.option optionId).premium,
          .u256 ((w.option optionId).premium - buyFee), .u64 tx.block]⟩] := by
  simp only [buyOption, bind_eq_ok, require_eq_ok, SafeMath.sub_eq_ok, transferFrom_eq_ok,
    emit_eq_ok, respond_eq_ok, Prod.mk.injEq] at h
  obtain ⟨-, hex, -, hopen, -, hblock, -, hne, buyFee, hfee, _, ⟨hle, rfl⟩, _, ⟨l₁, hl₁, rfl⟩, _,
    ⟨l₂, hl₂, rfl⟩, _, ⟨-, rfl⟩, -, rfl, rfl⟩ := h
  exact ⟨buyFee, l₁, l₂, hex, hopen, hblock, hne, hfee, hle, hl₁, hl₂, rfl, rfl⟩

/-- Buying goes through when its fee can be computed and its two payments made. -/
lemma buyOption_succeeds {optionId fee : ℕ} {l₁ l₂ : Ledger}
    (hex : w.pool.options.existsAt optionId) (hopen : (w.option optionId).status = .OPEN)
    (hblock : tx.block < (w.option optionId).expiryBlock)
    (hwriter : tx.sender ≠ (w.option optionId).writer)
    (hfee : ceilBps (w.option optionId).premium buyFeeBps = .ok fee)
    (hle : fee ≤ (w.option optionId).premium)
    (hl₁ : w.ledger.transferFrom w.pool.premiumToken env.contractAddress tx.sender
      (w.option optionId).writer ((w.option optionId).premium - fee) = .ok l₁)
    (hl₂ : l₁.transferFrom w.pool.premiumToken env.contractAddress tx.sender
      w.pool.feeRecipient fee = .ok l₂) :
    ∃ w', buyOption env tx optionId w = .ok ([.boolean true], w') := by
  simp only [buyOption, bind_eq_ok, require_eq_ok, SafeMath.sub_eq_ok, transferFrom_eq_ok,
    emit_eq_ok, respond_eq_ok]
  exact ⟨_, (), hex, (), hopen, (), hblock, (), hwriter, fee, hfee, _, ⟨hle, rfl⟩, _,
    ⟨l₁, hl₁, rfl⟩, _, ⟨l₂, hl₂, rfl⟩, _, ⟨.inr (by simp [Field.width]), rfl⟩, .inr (by decide),
    rfl⟩

/-- What the buyer hands over on exercise: the strike value for a CALL, the underlying for a PUT. -/
def exercisePrice (o : OptionRecord) (value : ℕ) : ℕ :=
  match o.optionType with
  | .CALL => value
  | .PUT => o.underlyingAmount

/-- The token the exercise price is paid in: the one that is not the collateral. -/
def priceToken (p : PoolStorage) : OptionType → Address
  | .CALL => p.premiumToken
  | .PUT => p.underlying

/-- The price is paid to the writer, the collateral less the fee to the buyer. -/
lemma exchange_ok {option : OptionRecord} {value fee : ℕ}
    (hvalue : strikeValue option.strikePrice option.underlyingAmount = .ok value)
    (h : exchange env tx option value w = .ok (fee, w')) :
    ∃ collateral l₁ l₂ l₃,
      option.collateral = .ok collateral ∧
      ceilBps collateral exerciseFeeBps = .ok fee ∧ fee ≤ collateral ∧
      w.ledger.transferFrom (priceToken w.pool option.optionType) env.contractAddress tx.sender
        option.writer (exercisePrice option value) = .ok l₁ ∧
      l₁.transferFrom (w.pool.collateralToken option.optionType) env.contractAddress
        env.contractAddress tx.sender (collateral - fee) = .ok l₂ ∧
      l₂.transferFrom (w.pool.collateralToken option.optionType) env.contractAddress
        env.contractAddress w.pool.feeRecipient fee = .ok l₃ ∧
      w' = { w with ledger := l₃ } := by
  cases htype : option.optionType with
  | CALL =>
    simp only [exchange, htype, exerciseCall, bind_eq_ok, SafeMath.sub_eq_ok, transferFrom_eq_ok,
      transfer_eq_ok, pure_eq, Except.ok.injEq, Prod.mk.injEq] at h
    obtain ⟨_, hfee, _, ⟨hle, rfl⟩, _, ⟨l₁, hl₁, rfl⟩, _, ⟨l₂, hl₂, rfl⟩, _, ⟨l₃, hl₃, rfl⟩, rfl,
      rfl⟩ := h
    refine ⟨_, l₁, l₂, l₃, ?_, hfee, hle, ?_, hl₂, hl₃, rfl⟩
    · simp only [OptionRecord.collateral, htype, collateralAmount]
    · simpa only [exercisePrice, priceToken, htype] using hl₁
  | PUT =>
    simp only [exchange, htype, exercisePut, bind_eq_ok, SafeMath.sub_eq_ok, transferFrom_eq_ok,
      transfer_eq_ok, pure_eq, Except.ok.injEq, Prod.mk.injEq] at h
    obtain ⟨_, hfee, _, ⟨hle, rfl⟩, _, ⟨l₁, hl₁, rfl⟩, _, ⟨l₂, hl₂, rfl⟩, _, ⟨l₃, hl₃, rfl⟩, rfl,
      rfl⟩ := h
    refine ⟨_, l₁, l₂, l₃, ?_, hfee, hle, ?_, hl₂, hl₃, rfl⟩
    · simpa only [OptionRecord.collateral, htype, collateralAmount] using hvalue
    · simpa only [exercisePrice, priceToken, htype] using hl₁

/-- An exchange goes through when its amounts can be computed and its three payments made. -/
lemma exchange_of {option : OptionRecord} {value collateral fee : ℕ} {l₁ l₂ l₃ : Ledger}
    (hvalue : strikeValue option.strikePrice option.underlyingAmount = .ok value)
    (hcoll : option.collateral = .ok collateral)
    (hfee : ceilBps collateral exerciseFeeBps = .ok fee) (hle : fee ≤ collateral)
    (hl₁ : w.ledger.transferFrom (priceToken w.pool option.optionType) env.contractAddress
      tx.sender option.writer (exercisePrice option value) = .ok l₁)
    (hl₂ : l₁.transferFrom (w.pool.collateralToken option.optionType) env.contractAddress
      env.contractAddress tx.sender (collateral - fee) = .ok l₂)
    (hl₃ : l₂.transferFrom (w.pool.collateralToken option.optionType) env.contractAddress
      env.contractAddress w.pool.feeRecipient fee = .ok l₃) :
    exchange env tx option value w = .ok (fee, { w with ledger := l₃ }) := by
  cases htype : option.optionType with
  | CALL =>
    simp only [OptionRecord.collateral, htype, collateralAmount, Except.ok.injEq, exercisePrice,
      priceToken] at hcoll hl₁ hl₂ hl₃
    subst hcoll
    simp only [exchange, htype, exerciseCall, bind_eq_ok, SafeMath.sub_eq_ok, transferFrom_eq_ok,
      transfer_eq_ok]
    exact ⟨_, hfee, _, ⟨hle, rfl⟩, _, ⟨l₁, hl₁, rfl⟩, _, ⟨l₂, hl₂, rfl⟩, _, ⟨l₃, hl₃, rfl⟩, rfl⟩
  | PUT =>
    simp only [OptionRecord.collateral, htype, collateralAmount, hvalue, Except.ok.injEq,
      exercisePrice, priceToken] at hcoll hl₁ hl₂ hl₃
    subst hcoll
    simp only [exchange, htype, exercisePut, bind_eq_ok, SafeMath.sub_eq_ok, transferFrom_eq_ok,
      transfer_eq_ok]
    exact ⟨_, hfee, _, ⟨hle, rfl⟩, _, ⟨l₁, hl₁, rfl⟩, _, ⟨l₂, hl₂, rfl⟩, _, ⟨l₃, hl₃, rfl⟩, rfl⟩

lemma exercise_ok {optionId : ℕ} (h : exercise env tx optionId w = .ok (r, w')) :
    ∃ value collateral fee l₁ l₂ l₃,
      w.pool.options.existsAt optionId ∧ (w.option optionId).status = .PURCHASED ∧
      tx.sender = (w.option optionId).buyer ∧ (w.option optionId).expiryBlock ≤ tx.block ∧
      tx.block < w.pool.graceEnd (w.option optionId) ∧
      strikeValue (w.option optionId).strikePrice (w.option optionId).underlyingAmount
        = .ok value ∧
      (w.option optionId).collateral = .ok collateral ∧
      ceilBps collateral exerciseFeeBps = .ok fee ∧ fee ≤ collateral ∧
      w.ledger.transferFrom (priceToken w.pool (w.option optionId).optionType)
        env.contractAddress tx.sender (w.option optionId).writer
        (exercisePrice (w.option optionId) value) = .ok l₁ ∧
      l₁.transferFrom (w.pool.collateralToken (w.option optionId).optionType)
        env.contractAddress env.contractAddress tx.sender (collateral - fee) = .ok l₂ ∧
      l₂.transferFrom (w.pool.collateralToken (w.option optionId).optionType)
        env.contractAddress env.contractAddress w.pool.feeRecipient fee = .ok l₃ ∧
      r = [.boolean true] ∧
      w' = leaves (w.setStatus optionId .EXERCISED) l₃
        [⟨.optionExercised, 193, exercisedFields (w.option optionId) value fee⟩] := by
  simp only [exercise, bind_eq_ok, require_eq_ok, emit_eq_ok, respond_eq_ok, Prod.exists,
    Prod.mk.injEq] at h
  obtain ⟨-, hex, -, hpurchased, -, hbuyer, -, hexpiry, -, hgrace, value, hvalue, fee, w₃, hpay,
    _, ⟨-, rfl⟩, -, rfl, rfl⟩ := h
  obtain ⟨collateral, l₁, l₂, l₃, hcoll, hfee, hle, hl₁, hl₂, hl₃, rfl⟩ := exchange_ok hvalue hpay
  exact ⟨value, collateral, fee, l₁, l₂, l₃, hex, hpurchased, hbuyer, hexpiry, hgrace, hvalue,
    hcoll, hfee, hle, hl₁, hl₂, hl₃, rfl, rfl⟩

lemma settle_ok {optionId : ℕ} (h : settle env tx optionId w = .ok (r, w')) :
    ∃ collateral l,
      w.pool.options.existsAt optionId ∧ (w.option optionId).status = .PURCHASED ∧
      w.pool.graceEnd (w.option optionId) ≤ tx.block ∧
      (w.option optionId).collateral = .ok collateral ∧
      w.ledger.transferFrom (w.pool.collateralToken (w.option optionId).optionType)
        env.contractAddress env.contractAddress (w.option optionId).writer collateral = .ok l ∧
      r = [.boolean true] ∧
      w' = leaves (w.setStatus optionId .EXPIRED) l
        [⟨.optionExpired, 100, [.u256 optionId, .address (w.option optionId).writer,
          .u256 collateral]⟩] := by
  simp only [settle, bind_eq_ok, require_eq_ok, transfer_eq_ok, emit_eq_ok, respond_eq_ok,
    Prod.mk.injEq] at h
  obtain ⟨-, hex, -, hpurchased, -, hgrace, collateral, hcoll, _, ⟨l, hl, rfl⟩, _, ⟨-, rfl⟩, -,
    rfl, rfl⟩ := h
  exact ⟨collateral, l, hex, hpurchased, hgrace, hcoll, hl, rfl, rfl⟩

lemma transferOption_ok {optionId : ℕ} {newBuyer : Address}
    (h : transferOption env tx optionId newBuyer w = .ok (r, w')) :
    w.pool.options.existsAt optionId ∧ (w.option optionId).status = .PURCHASED ∧
      tx.sender = (w.option optionId).buyer ∧ newBuyer ≠ Address.zero ∧
      newBuyer ≠ (w.option optionId).buyer ∧ tx.block < w.pool.graceEnd (w.option optionId) ∧
      r = [.boolean true] ∧
      w' = leaves (w.setBuyer optionId newBuyer) w.ledger
        [⟨.optionTransferred, 96, [.u256 optionId, .address (w.option optionId).buyer,
          .address newBuyer]⟩] := by
  simp only [transferOption, bind_eq_ok, require_eq_ok, emit_eq_ok, respond_eq_ok,
    Prod.mk.injEq] at h
  obtain ⟨-, hex, -, hpurchased, -, hbuyer, -, hzero, -, hnew, -, hgrace, _, ⟨-, rfl⟩, -, rfl,
    rfl⟩ := h
  exact ⟨hex, hpurchased, hbuyer, hzero, hnew, hgrace, rfl, rfl⟩

/-! ### Rolling -/

/-- The ledger after the caller topped the collateral up, or got back what was left over. -/
def SettlesDifference (env : Env) (l : Ledger) (caller token : Address)
    (newCollateral refund : ℕ) (l' : Ledger) : Prop :=
  (refund < newCollateral →
    l.transferFrom token env.contractAddress caller env.contractAddress (newCollateral - refund)
      = .ok l') ∧
  (newCollateral < refund →
    l.transferFrom token env.contractAddress env.contractAddress caller (refund - newCollateral)
      = .ok l') ∧
  (newCollateral = refund → l = l')

@[simp] lemma settleDifference_eq_ok {caller token : Address} {newCollateral refund : ℕ} :
    settleDifference env caller token newCollateral refund w = .ok w' ↔
      ∃ l, SettlesDifference env w.ledger caller token newCollateral refund l ∧
        { w with ledger := l } = w' := by
  unfold settleDifference SettlesDifference
  rcases lt_trichotomy refund newCollateral with hlt | rfl | hlt
  · simp [hlt, hlt.le, hlt.not_gt, hlt.ne']
  · simp
  · simp [hlt, hlt.le, hlt.not_gt, hlt.ne]

lemma rollOption_ok {optionId newStrikePrice newExpiryBlock newPremium : ℕ}
    (h : rollOption env tx optionId newStrikePrice newExpiryBlock newPremium w = .ok (r, w')) :
    ∃ oldCollateral newCollateral fee l₁ l₂,
      w.pool.options.existsAt optionId ∧
      tx.sender = (w.option optionId).writer ∧ (w.option optionId).status = .OPEN ∧
      (0 < newStrikePrice ∧ 0 < newPremium) ∧
      tx.block < newExpiryBlock ∧ newExpiryBlock ≤ u64Add tx.block maxExpiryBlocks ∧
      (w.option optionId).collateral = .ok oldCollateral ∧
      collateralAmount (w.option optionId).optionType newStrikePrice
        (w.option optionId).underlyingAmount = .ok newCollateral ∧
      cancelFee tx.block (w.option optionId) oldCollateral = .ok fee ∧ fee ≤ oldCollateral ∧
      PaysFee env w.ledger (w.pool.collateralToken (w.option optionId).optionType)
        w.pool.feeRecipient fee l₁ ∧
      SettlesDifference env l₁ tx.sender
        (w.pool.collateralToken (w.option optionId).optionType) newCollateral
        (oldCollateral - fee) l₂ ∧
      w.pool.nextId + 1 < u256Size ∧
      r = [.u256 w.pool.nextId] ∧
      w' = leaves
        { w with
          pool :=
            { w.pool with
              nextId := w.pool.nextId + 1
              options := (w.pool.options.setStatus optionId .CANCELLED).set w.pool.nextId
                (newOption tx (w.option optionId).optionType newStrikePrice newExpiryBlock
                  (w.option optionId).underlyingAmount newPremium w.pool.nextId) } }
        l₂
        [⟨.optionCancelled, 128, [.u256 optionId, .address tx.sender,
            .u256 (oldCollateral - fee), .u256 fee]⟩,
          ⟨.optionWritten, 200, writtenFields
            (newOption tx (w.option optionId).optionType newStrikePrice newExpiryBlock
              (w.option optionId).underlyingAmount newPremium w.pool.nextId)⟩,
          ⟨.optionRolled, 228, [.u256 optionId, .u256 w.pool.nextId, .address tx.sender,
            .u256 newStrikePrice, .u64 newExpiryBlock, .u256 newPremium]⟩] := by
  simp only [rollOption, bind_eq_ok, require_eq_ok, payFee_eq_ok, SafeMath.sub_eq_ok,
    settleDifference_eq_ok, addOption_eq_ok, emit_eq_ok, respond_eq_ok, Prod.exists,
    Prod.mk.injEq, not_or, ← Nat.pos_iff_ne_zero] at h
  obtain ⟨-, hex, -, hwriter, -, hopen, -, hpos, -, hpast, -, hfar, old, hold, new, hnew, fee,
    hfee, _, ⟨l₁, hl₁, rfl⟩, _, ⟨hle, rfl⟩, _, ⟨l₂, hl₂, rfl⟩, _, _, ⟨hnext, rfl, rfl⟩, _,
    ⟨-, rfl⟩, _, ⟨-, rfl⟩, _, ⟨-, rfl⟩, _, ⟨-, rfl⟩, -, rfl, rfl⟩ := h
  refine ⟨old, new, fee, l₁, l₂, hex, hwriter, hopen, hpos, hpast, hfar, hold, hnew, hfee, hle,
    hl₁, hl₂, hnext, rfl, ?_⟩
  simp [leaves, setStatus, withOptions]

/-! ### Batches -/

/-- The loop of `batchCancel` runs the body of `cancelOption`. -/
lemma cancelOption_eq (optionId : ℕ) (w : World σ) :
    cancelOption env tx optionId w
      = batchCancelStep env tx w optionId >>= fun w => w.respond env 1 [.boolean true] := by
  simp only [cancelOption, batchCancelStep, bind_assoc]

/-- An iteration of `batchCancel` goes through when `cancelOption` does, with the same effect. -/
lemma batchCancelStep_ok {optionId : ℕ} (h : batchCancelStep env tx w optionId = .ok w') :
    cancelOption env tx optionId w = .ok ([.boolean true], w') := by
  rw [cancelOption_eq, h, ok_bind, respond_eq_ok]
  exact ⟨.inr (by decide), rfl⟩

lemma batchIds_ok {count id0 id1 id2 id3 id4 : ℕ} {ids : List ℕ}
    (h : batchIds count id0 id1 id2 id3 id4 = .ok ids) :
    0 < count ∧ count ≤ maxBatchSize ∧ ids = [id0, id1, id2, id3, id4].take count ∧
      ids.Nodup := by
  simp only [batchIds, bind_eq_ok, require_eq_ok, pure_eq, Except.ok.injEq] at h
  obtain ⟨-, hne, -, hle, -, hnodup, rfl⟩ := h
  exact ⟨Nat.pos_of_ne_zero hne, hle, rfl, hnodup⟩

lemma batchCancel_ok {count id0 id1 id2 id3 id4 : ℕ}
    (h : batchCancel env tx count id0 id1 id2 id3 id4 w = .ok (r, w')) :
    ∃ ids, batchIds count id0 id1 id2 id3 id4 = .ok ids ∧
      ids.foldlM (batchCancelStep env tx) w = .ok w' ∧ r = [.boolean true] := by
  simp only [batchCancel, bind_eq_ok, respond_eq_ok, Prod.mk.injEq] at h
  obtain ⟨ids, hids, _, hloop, -, rfl, rfl⟩ := h
  exact ⟨ids, hids, hloop, rfl⟩

/-- An iteration of `batchSettle` either skips the id or does what `settle` does. -/
lemma batchSettleStep_ok {optionId n n' : ℕ}
    (h : batchSettleStep env tx (n, w) optionId = .ok (n', w')) :
    (n' = n ∧ w' = w) ∨
      n' = n + 1 ∧ settle env tx optionId w = .ok ([.boolean true], w') := by
  simp only [batchSettleStep] at h
  by_cases hskip : w.pool.options.existsAt optionId ∧ (w.option optionId).status = .PURCHASED ∧
      w.pool.graceEnd (w.option optionId) ≤ tx.block
  · obtain ⟨hex, hstatus, hgrace⟩ := hskip
    rw [if_neg (not_not.mpr hex), if_neg (not_not.mpr hstatus), if_neg (not_lt.mpr hgrace)] at h
    simp only [bind_eq_ok, SafeMath.add_eq_ok, pure_eq, Except.ok.injEq, Prod.mk.injEq] at h
    obtain ⟨collateral, hcoll, w₁, hw₁, w₂, hw₂, _, ⟨-, rfl⟩, rfl, rfl⟩ := h
    refine .inr ⟨rfl, ?_⟩
    have hresp : w₂.respond env 1 [.boolean true] = .ok ([.boolean true], w₂) :=
      respond_eq_ok.mpr ⟨.inr (by decide), rfl⟩
    simp only [settle, bind_eq_ok, require_eq_ok]
    exact ⟨(), hex, (), hstatus, (), hgrace, collateral, hcoll, w₁, hw₁, w₂, hw₂, hresp⟩
  · refine .inl ?_
    split_ifs at h with hex hstatus hgrace
    · cases h
      exact ⟨rfl, rfl⟩
    · cases h
      exact ⟨rfl, rfl⟩
    · exact absurd ⟨hex, not_not.mp hstatus, not_lt.mp hgrace⟩ hskip
    · cases h
      exact ⟨rfl, rfl⟩

lemma batchSettle_ok {count id0 id1 id2 id3 id4 : ℕ}
    (h : batchSettle env tx count id0 id1 id2 id3 id4 w = .ok (r, w')) :
    ∃ ids n, batchIds count id0 id1 id2 id3 id4 = .ok ids ∧
      ids.foldlM (batchSettleStep env tx) (0, w) = .ok (n, w') ∧ r = [.u256 n] := by
  simp only [batchSettle, bind_eq_ok, Prod.exists, respond_eq_ok, Prod.mk.injEq] at h
  obtain ⟨ids, hids, n, _, hloop, -, rfl, rfl⟩ := h
  exact ⟨ids, n, hids, hloop, rfl⟩

end Frogop.OptionsPool
