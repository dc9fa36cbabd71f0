import Frogop.Pool.BtcUnderlying.Basic
import Frogop.Pool.OptionsPool.Spec

/-!
# What each method of `OptionsPoolBtcUnderlying` does

Inversion lemmas for the methods of the type-2 pool. On a PUT, `cancelOption` and `settle` are the
methods of the type-0 pool; on a CALL they only announce the escrow.
-/

namespace Frogop.BtcUnderlying

open Outcome World

variable {env : Env} {tx : Tx} {w w' : State} {r : Response} {i s e a p value fee : ℕ}
  {o : OptionRecord}

/-! ### Writing -/

lemma writeCall_ok (h : writeCall env tx s e a p w = .ok (r, w')) :
    ∃ writerPubkey escrowHash,
      a < u64Size ∧ w.pool.registeredPubkey tx.sender = .ok writerPubkey ∧
      writerPubkey.length = 33 ∧
      queryEscrowScriptHash env placeholderBuyer writerPubkey (u64Add e w.pool.gracePeriod)
        = .ok escrowHash ∧
      r = [.u256 w.pool.nextId] ∧
      w'.pool = { w.pool with
        nextId := w.pool.nextId + 1
        options := w.pool.options.set w.pool.nextId (newOption tx .CALL s e a p w.pool.nextId) } ∧
      w'.own = ⟨Function.update w.own.btcCollateral w.pool.nextId a,
        Function.update w.own.escrowHash w.pool.nextId escrowHash⟩ ∧
      w'.ledger = w.ledger ∧
      ∃ events, w'.events = w.events ++ events := by
  simp only [writeCall, bind_eq_ok, require_eq_ok, Prod.exists, addOption_eq_ok, emit_eq_ok,
    respond_eq_ok, Prod.mk.injEq] at h
  obtain ⟨-, hfits, pubkey, hpubkey, -, hlen, hash, hhash, verified, w₁, hverify, -, -, _, _,
    ⟨-, rfl, rfl⟩, _, ⟨-, rfl⟩, -, rfl, rfl⟩ := h
  obtain ⟨bridge, rfl⟩ := queryVerifyBtcOutput_ok hverify
  exact ⟨pubkey, hash, hfits, hpubkey, hlen, hhash, rfl, rfl, rfl, rfl, _, rfl⟩

lemma writePut_ok (h : writePut env tx s e a p w = .ok (r, w')) :
    ∃ collateral,
      strikeValue s a = .ok collateral ∧
      w.ledger.transferFrom w.pool.premiumToken env.contractAddress tx.sender env.contractAddress
        collateral = .ok w'.ledger ∧
      r = [.u256 w.pool.nextId] ∧
      w'.pool = { w.pool with
        nextId := w.pool.nextId + 1
        options := w.pool.options.set w.pool.nextId (newOption tx .PUT s e a p w.pool.nextId) } ∧
      w'.own = w.own ∧
      ∃ events, w'.events = w.events ++ events := by
  simp only [writePut, bind_eq_ok, Prod.exists, addOption_eq_ok, transferFrom_eq_ok, emit_eq_ok,
    respond_eq_ok, Prod.mk.injEq] at h
  obtain ⟨_, _, ⟨-, rfl, rfl⟩, collateral, hcoll, _, ⟨l, hl, rfl⟩, _, ⟨-, rfl⟩, -, rfl, rfl⟩ := h
  exact ⟨collateral, hcoll, hl, rfl, rfl, rfl, _, rfl⟩

lemma writeOptionBtc_ok {t : ℕ} (h : writeOptionBtc env tx t s e a p w = .ok (r, w')) :
    (0 < s ∧ 0 < a ∧ 0 < p) ∧ tx.block < e ∧ e ≤ u64Add tx.block maxExpiryBlocks ∧
      (writeCall env tx s e a p w = .ok (r, w') ∨ writePut env tx s e a p w = .ok (r, w')) := by
  simp only [writeOptionBtc, bind_eq_ok, OptionsPool.checkType_eq_ok,
    OptionsPool.checkTerms_eq_ok] at h
  obtain ⟨ty, -, -, ⟨hpos, hpast, hfar⟩, h⟩ := h
  refine ⟨hpos, hpast, hfar, ?_⟩
  cases ty with
  | CALL => exact .inl h
  | PUT => exact .inr h

/-! ### Exercising -/

/-- The event that announces the escrow of an exercised CALL. -/
def claimEvent (w : State) (o : OptionRecord) : Event :=
  ⟨.btcClaimable, 128, [.u256 o.id, .address o.buyer, .u256 (w.own.btcCollateral o.id),
    .bytes (w.own.escrowHash o.id).val]⟩

lemma exerciseCall_ok (h : exerciseCall env tx o value w = .ok (fee, w')) :
    ∃ l₁, ceilBps value exerciseFeeBps = .ok fee ∧ fee ≤ value ∧
      w.ledger.transferFrom w.pool.premiumToken env.contractAddress tx.sender o.writer (value - fee)
        = .ok l₁ ∧
      l₁.transferFrom w.pool.premiumToken env.contractAddress tx.sender w.pool.feeRecipient fee
        = .ok w'.ledger ∧
      w' = { w with ledger := w'.ledger, events := w.events ++ [claimEvent w o] } := by
  simp only [exerciseCall, bind_eq_ok, SafeMath.sub_eq_ok, transferFrom_eq_ok, emit_eq_ok, pure_eq,
    Except.ok.injEq, Prod.mk.injEq] at h
  obtain ⟨_, hfee, _, ⟨hle, rfl⟩, _, ⟨l₁, hl₁, rfl⟩, _, ⟨l₂, hl₂, rfl⟩, _, ⟨-, rfl⟩, rfl, rfl⟩ := h
  exact ⟨l₁, hfee, hle, hl₁, hl₂, rfl⟩

lemma exercisePut_ok (h : exercisePut env tx o value w = .ok (fee, w')) :
    ∃ l₁, fee ≤ value ∧
      w.ledger.transferFrom w.pool.premiumToken env.contractAddress env.contractAddress tx.sender
        (value - fee) = .ok l₁ ∧
      l₁.transferFrom w.pool.premiumToken env.contractAddress env.contractAddress
        w.pool.feeRecipient fee = .ok w'.ledger ∧
      w'.pool = w.pool ∧ w'.own = w.own ∧ w'.events = w.events := by
  simp only [exercisePut, bind_eq_ok, require_eq_ok, Prod.exists, SafeMath.sub_eq_ok,
    transfer_eq_ok, pure_eq, Except.ok.injEq, Prod.mk.injEq] at h
  obtain ⟨_, -, -, -, -, -, _, -, _, w₁, hverify, -, -, _, -, _, ⟨hle, rfl⟩, _, ⟨l₁, hl₁, rfl⟩, _,
    ⟨l₂, hl₂, rfl⟩, rfl, rfl⟩ := h
  obtain ⟨bridge, rfl⟩ := queryVerifyBtcOutput_ok hverify
  exact ⟨l₁, hle, hl₁, hl₂, rfl, rfl, rfl⟩

/-- An exchange moves tokens, and announces the escrow of a CALL. -/
lemma exchange_frame (h : exchange env tx o value w = .ok (fee, w')) :
    w'.pool = w.pool ∧ w'.own = w.own ∧ (∃ events, w'.events = w.events ++ events) ∧
      (o.optionType = .CALL → claimEvent w o ∈ w'.events) := by
  cases htype : o.optionType with
  | CALL =>
    simp only [exchange, htype] at h
    obtain ⟨_, -, -, -, -, hw'⟩ := exerciseCall_ok h
    rw [hw']
    exact ⟨rfl, rfl, ⟨_, rfl⟩, fun _ => List.mem_append_right _ List.mem_cons_self⟩
  | PUT =>
    simp only [exchange, htype] at h
    obtain ⟨_, -, -, -, hpool, hown, hevents⟩ := exercisePut_ok h
    exact ⟨hpool, hown, ⟨[], by rw [hevents, List.append_nil]⟩, fun htype => by cases htype⟩

lemma exercise_ok (h : exercise env tx i w = .ok (r, w')) :
    ∃ value fee w₁,
      w.pool.options.existsAt i ∧ (w.option i).status = .PURCHASED ∧
      tx.sender = (w.option i).buyer ∧ (w.option i).expiryBlock ≤ tx.block ∧
      tx.block < w.pool.graceEnd (w.option i) ∧
      strikeValue (w.option i).strikePrice (w.option i).underlyingAmount = .ok value ∧
      exchange env tx (w.option i) value (w.setStatus i .EXERCISED) = .ok (fee, w₁) ∧
      w'.pool = { w.pool with options := w.pool.options.setStatus i .EXERCISED } ∧
      w'.own = w.own ∧ w'.ledger = w₁.ledger ∧
      (∃ events, w'.events = w.events ++ events) ∧
      ((w.option i).optionType = .CALL → claimEvent w (w.option i) ∈ w'.events) := by
  simp only [exercise, bind_eq_ok, require_eq_ok, emit_eq_ok, respond_eq_ok, Prod.exists,
    Prod.mk.injEq] at h
  obtain ⟨-, hex, -, hbought, -, hbuyer, -, hexpiry, -, hgrace, value, hvalue, fee, w₁, hpay, _,
    ⟨-, rfl⟩, -, rfl, rfl⟩ := h
  obtain ⟨hpool, hown, ⟨events, hevents⟩, hclaim⟩ := exchange_frame hpay
  exact ⟨value, fee, w₁, hex, hbought, hbuyer, hexpiry, hgrace, hvalue, hpay, hpool, hown, rfl,
    ⟨_, (congrArg (· ++ _) hevents).trans (List.append_assoc _ _ _)⟩,
    fun htype => List.mem_append_left _ (hclaim htype)⟩

/-! ### Cancelling and settling -/

lemma cancelOption_put (htype : (w.option i).optionType = .PUT) :
    cancelOption env tx i w = OptionsPool.cancelOption env tx i w := by
  simp only [cancelOption, OptionsPool.cancelOption, OptionRecord.collateral, collateralAmount,
    htype, PoolStorage.collateralToken]
  refine bind_congr fun _ _ => bind_congr fun _ _ => bind_congr fun _ _ => ?_
  refine bind_congr fun collateral _ => bind_congr fun fee _ => bind_congr fun back _ => ?_
  refine bind_congr fun w₁ hw₁ => ?_
  obtain ⟨l, -, rfl⟩ := transfer_eq_ok.mp hw₁
  rfl

lemma settle_put (htype : (w.option i).optionType = .PUT) :
    settle env tx i w = OptionsPool.settle env tx i w := by
  simp only [settle, OptionsPool.settle, OptionRecord.collateral, collateralAmount, htype,
    PoolStorage.collateralToken]
  rfl

lemma cancelOption_call (htype : (w.option i).optionType = .CALL)
    (h : cancelOption env tx i w = .ok (r, w')) :
    w.pool.options.existsAt i ∧ tx.sender = (w.option i).writer ∧ (w.option i).status = .OPEN ∧
      w' = OptionsPool.leaves (w.setStatus i .CANCELLED) w.ledger
        [⟨.optionCancelled, 128, escrowFields w (w.option i)⟩] := by
  simp only [cancelOption, htype, bind_eq_ok, require_eq_ok, emit_eq_ok, respond_eq_ok,
    Prod.mk.injEq] at h
  obtain ⟨-, hex, -, hwriter, -, hopen, _, ⟨-, rfl⟩, -, rfl, rfl⟩ := h
  exact ⟨hex, hwriter, hopen, rfl⟩

lemma settle_call (htype : (w.option i).optionType = .CALL)
    (h : settle env tx i w = .ok (r, w')) :
    w.pool.options.existsAt i ∧ (w.option i).status = .PURCHASED ∧
      w.pool.graceEnd (w.option i) ≤ tx.block ∧
      w' = OptionsPool.leaves (w.setStatus i .EXPIRED) w.ledger
        [⟨.optionExpired, 128, escrowFields w (w.option i)⟩] := by
  simp only [settle, htype, bind_eq_ok, require_eq_ok, emit_eq_ok, respond_eq_ok,
    Prod.mk.injEq] at h
  obtain ⟨-, hex, -, hbought, -, hgrace, _, ⟨-, rfl⟩, -, rfl, rfl⟩ := h
  exact ⟨hex, hbought, hgrace, rfl⟩

end Frogop.BtcUnderlying
