import Frogop.Indexer.OptionsPool
import Frogop.Pool.BtcUnderlying.Lifecycle

/-!
# The rows of a type-2 pool

The collateral of a CALL is bitcoin in an escrow, so writing, taking back and settling a CALL pay no
tokens. When a CALL is taken back, `OptionCancelled` carries the escrow hash where the decoder reads
the fee: the fee rows are exact but for these.
-/

namespace Frogop.BtcUnderlying

open Outcome World Indexer

/-! ### The payments of the type-2 pool -/

def writeOptionPayments (env : Env) (tx : Tx) (p : PoolStorage) (strikePrice underlyingAmount : ℕ) :
    OptionType → List Payment
  | .CALL => []
  | .PUT => writePayments env tx p .PUT strikePrice underlyingAmount

/-- For a CALL the buyer pays the strike value, less the fee to the writer. -/
def exercisePayments (env : Env) (tx : Tx) (p : PoolStorage) (o : OptionRecord) : List Payment :=
  match o.optionType with
  | .CALL =>
    let value := amountOf (strikeValue o.strikePrice o.underlyingAmount)
    let fee := amountOf (ceilBps value exerciseFeeBps)
    [⟨p.premiumToken, tx.sender, o.writer, value - fee, none⟩,
      ⟨p.premiumToken, tx.sender, p.feeRecipient, fee, some (o.id, .EXERCISE)⟩]
  | .PUT => collateralPayments env tx p o

def payments (env : Env) (tx : Tx) : Call → State → List Payment
  | .writeOptionBtc t s _ a _, w =>
    ((OptionType.ofU8 t).map (writeOptionPayments env tx w.pool s a)).getD []
  | .buyOption i, w => buyPayments tx w.pool (w.option i)
  | .exercise i, w => exercisePayments env tx w.pool (w.option i)
  | .cancelOption i, w =>
    match (w.option i).optionType with
    | .CALL => []
    | .PUT => cancelPayments env tx w.pool (w.option i)
  | .settle i, w =>
    match (w.option i).optionType with
    | .CALL => []
    | .PUT => settlePayments env w.pool (w.option i)
  | .getOption _, _ | .updateFeeRecipient _, _ | .registerBtcPubkey _, _ => []

/-- The fees that the indexer reads: for a CALL that is taken back, the escrow hash. -/
def readFees (env : Env) (tx : Tx) (c : Call) (w : State) : List Fee :=
  match c with
  | .cancelOption i =>
    match (w.option i).optionType with
    | .CALL => recorded i .CANCEL (w.own.escrowHash i).toNat
    | .PUT => feesOf (cancelPayments env tx w.pool (w.option i))
  | c => feesOf (payments env tx c w)

section

variable {env : Env} {others : Ledger → Ledger → Prop} {tx : Tx} {c : Call} {w w' : State}
  {r : Response} {i t s e a p value fee : ℕ} {o o' : OptionRecord} {tracking : Tracking}
  {pool : String}

/-! ### Writing -/

lemma writeCall_reflects (h : writeCall env tx s e a p w = .ok (r, w')) :
    Reflects env tracking pool w w' [] [] := by
  simp only [writeCall, bind_eq_ok, Prod.exists, addOption_eq_ok, emit_eq_ok, respond_eq_ok,
    Prod.mk.injEq] at h
  obtain ⟨-, -, pubkey, -, -, -, hash, -, verified, w₁, hverify, -, -, _, _, ⟨hlt, rfl, rfl⟩, _,
    ⟨-, rfl⟩, -, -, rfl⟩ := h
  obtain ⟨bridge, rfl⟩ := queryVerifyBtcOutput_ok hverify
  exact ⟨⟨_, rfl, .written rfl rfl rfl fun _ _ => decode_writtenBtc⟩, .nil, fun _ => hlt.le⟩

lemma writePut_reflects (h : writePut env tx s e a p w = .ok (r, w')) :
    Reflects env tracking pool w w' (writePayments env tx w.pool .PUT s a) [] := by
  simp only [writePut, bind_eq_ok, Prod.exists, addOption_eq_ok, transferFrom_eq_ok, emit_eq_ok,
    respond_eq_ok, Prod.mk.injEq] at h
  obtain ⟨_, _, ⟨hlt, rfl, rfl⟩, collateral, hcoll, _, ⟨l, hl, rfl⟩, _, ⟨-, rfl⟩, -, -, rfl⟩ := h
  refine ⟨⟨_, rfl, .written rfl rfl rfl fun _ _ => decode_written⟩, ?_, fun _ => hlt.le⟩
  have hamount : collateralAmount .PUT s a = .ok collateral := hcoll
  rw [writePayments, hamount]
  exact .one hl

lemma writeOptionBtc_reflects (h : writeOptionBtc env tx t s e a p w = .ok (r, w')) :
    Reflects env tracking pool w w'
      (((OptionType.ofU8 t).map (writeOptionPayments env tx w.pool s a)).getD []) [] := by
  simp only [writeOptionBtc, bind_eq_ok, OptionsPool.checkType_eq_ok] at h
  obtain ⟨ty, ht, -, -, h⟩ := h
  rw [ht, Option.map_some, Option.getD_some]
  cases ty with
  | CALL => exact writeCall_reflects h
  | PUT => exact writePut_reflects h

/-! ### Exercising -/

lemma feesOf_exercisePayments (hvalue : strikeValue o.strikePrice o.underlyingAmount = .ok value)
    (hfee : ceilBps value exerciseFeeBps = .ok fee) :
    feesOf (exercisePayments env tx w.pool o) = recorded o.id .EXERCISE fee := by
  cases htype : o.optionType with
  | CALL =>
    simp only [exercisePayments, htype]
    rw [feesOf_plain, feesOf_charged, hvalue, amountOf, hfee, amountOf]
  | PUT =>
    have hcoll : o.collateral = .ok value := by
      simpa only [OptionRecord.collateral, htype, collateralAmount] using hvalue
    simp only [exercisePayments, htype]
    exact feesOf_collateralPayments hcoll hfee

/-- An exchange announces nothing but the escrow. -/
lemma exchange_pays (hvalue : strikeValue o.strikePrice o.underlyingAmount = .ok value)
    (h : exchange env tx o value w = .ok (fee, w')) :
    ceilBps value exerciseFeeBps = .ok fee ∧
      Pays env.contractAddress w.ledger (exercisePayments env tx w.pool o) w'.ledger ∧
      ∃ events, w'.events = w.events ++ events ∧ ∀ e ∈ events, EventName.Silent e.name := by
  cases htype : o.optionType with
  | CALL =>
    simp only [exchange, htype] at h
    obtain ⟨l₁, hfee, -, hl₁, hl₂, hw'⟩ := exerciseCall_ok h
    refine ⟨hfee, ?_, [claimEvent w o], by rw [hw'], ?_⟩
    · simp only [exercisePayments, htype]
      rw [hvalue, amountOf, hfee, amountOf]
      exact .cons hl₁ (.one hl₂)
    · simp [claimEvent, EventName.Silent]
  | PUT =>
    have hcoll : o.collateral = .ok value := by
      simpa only [OptionRecord.collateral, htype, collateralAmount] using hvalue
    have htoken : w.pool.collateralToken o.optionType = w.pool.premiumToken := by
      rw [htype]
      rfl
    simp only [exchange, htype] at h
    obtain ⟨-, -, -, -, -, -, hevents⟩ := exercisePut_ok h
    simp only [exercisePut, bind_eq_ok, Prod.exists, SafeMath.sub_eq_ok, transfer_eq_ok, pure_eq,
      Except.ok.injEq, Prod.mk.injEq] at h
    obtain ⟨_, -, -, -, -, -, _, -, _, w₁, hverify, -, -, _, hfee, _, ⟨-, rfl⟩, _,
      ⟨l₁, hl₁, rfl⟩, _, ⟨l₂, hl₂, rfl⟩, rfl, rfl⟩ := h
    obtain ⟨bridge, rfl⟩ := queryVerifyBtcOutput_ok hverify
    rw [← htoken] at hl₁ hl₂
    refine ⟨hfee, ?_, [], by rw [List.append_nil], by simp⟩
    simp only [exercisePayments, htype]
    exact pays_collateral hcoll hfee hl₁ hl₂

lemma exercise_reflects (hi : i < w.pool.nextId) (h : exercise env tx i w = .ok (r, w')) :
    Reflects env tracking pool w w' (exercisePayments env tx w.pool (w.option i))
      (feesOf (exercisePayments env tx w.pool (w.option i))) := by
  obtain ⟨_, _, _, -, -, -, -, -, -, -, hpool, -⟩ := exercise_ok h
  simp only [exercise, bind_eq_ok, emit_eq_ok, respond_eq_ok, Prod.exists, Prod.mk.injEq] at h
  obtain ⟨-, -, -, -, -, -, -, -, -, -, value, hvalue, fee, w₁, hpay, _, ⟨-, rfl⟩, -, -, rfl⟩ := h
  obtain ⟨hfee, hpays, events, hevents, hquiet⟩ := exchange_pays hvalue hpay
  refine ⟨⟨_, (congrArg (· ++ _) hevents).trans (List.append_assoc _ _ _), ?_⟩, hpays, ?_⟩
  · rw [hpool, feesOf_exercisePayments hvalue hfee, option_id]
    have hannounced : Follows tracking pool w.pool events w.pool [] := .quiet hquiet rfl rfl rfl
    apply hannounced.trans
    refine .status hi OptionStorage.get_setStatus (keepBuyer _) fun blockNumber txId => ?_
    rw [decode_exercised, Nat.mod_eq_of_lt (ceilBps_lt hfee)]
    rfl
  · rw [hpool]
    exact id

/-! ### Cancelling and settling -/

lemma cancelOption_reflects (hinv : TableInv w.pool) (h : cancelOption env tx i w = .ok (r, w')) :
    Reflects env tracking pool w w' (payments env tx (.cancelOption i) w)
      (readFees env tx (.cancelOption i) w) := by
  cases htype : (w.option i).optionType with
  | CALL =>
    obtain ⟨hex, -, -, rfl⟩ := cancelOption_call htype h
    simp only [payments, readFees, htype]
    refine ⟨⟨_, rfl, ?_⟩, .nil, id⟩
    refine .status ((hinv i).mp hex) OptionStorage.get_setStatus (keepBuyer _)
      fun blockNumber txId => ?_
    exact decode_escrow_cancelled
  | PUT =>
    rw [cancelOption_put htype] at h
    obtain ⟨hex, -, -, -⟩ := OptionsPool.cancelOption_update h
    simp only [payments, readFees, htype]
    exact Indexer.cancelOption_reflects ((hinv i).mp hex) h

lemma settle_reflects (hinv : TableInv w.pool) (h : settle env tx i w = .ok (r, w')) :
    Reflects env tracking pool w w' (payments env tx (.settle i) w) [] := by
  cases htype : (w.option i).optionType with
  | CALL =>
    obtain ⟨hex, -, -, rfl⟩ := settle_call htype h
    simp only [payments, htype]
    refine ⟨⟨_, rfl, ?_⟩, .nil, id⟩
    refine .unpaid ((hinv i).mp hex) OptionStorage.get_setStatus (keepBuyer _)
      fun blockNumber txId => ?_
    exact decode_expired
  | PUT =>
    rw [settle_put htype] at h
    obtain ⟨hex, -, -, -⟩ := OptionsPool.settle_update h
    simp only [payments, htype]
    exact Indexer.settle_reflects ((hinv i).mp hex) h

/-! ### Every call -/

lemma exec_reflects (hinv : TableInv w.pool) (htx : tx.FromAccount env)
    (h : exec env tx c w = .ok (r, w')) :
    Reflects env tracking pool w w' (payments env tx c w) (readFees env tx c w) := by
  cases c with
  | writeOptionBtc t s e a p =>
    have hnone : readFees env tx (.writeOptionBtc t s e a p) w = [] := by
      simp only [readFees, payments]
      cases OptionType.ofU8 t with
      | none => rfl
      | some ty => cases ty <;> rfl
    rw [hnone]
    exact writeOptionBtc_reflects h
  | buyOption i =>
    obtain ⟨_, _, _, hex, -⟩ := OptionsPool.buyOption_ok h
    exact buyOption_reflects ((hinv i).mp hex) htx h
  | exercise i =>
    obtain ⟨_, _, _, hex, -⟩ := exercise_ok h
    exact exercise_reflects ((hinv i).mp hex) h
  | cancelOption i => exact cancelOption_reflects hinv h
  | settle i =>
    have hnone : readFees env tx (.settle i) w = [] := by
      simp only [readFees, payments]
      cases (w.option i).optionType <;> rfl
    rw [hnone]
    exact settle_reflects hinv h
  | getOption i =>
    obtain rfl := getOption_ok h
    exact .refl
  | updateFeeRecipient newRecipient => exact updateFeeRecipient_reflects h
  | registerBtcPubkey data => exact registerBtcPubkey_reflects h

lemma reflected (env : Env) (tracking : Tracking) (pool : String) :
    Reflected env tracking pool (exec env) (fun w => TableInv w.pool) (payments env)
    (readFees env) :=
  fun _ _ _ _ _ hinv htx h => exec_reflects hinv htx h

/-- An option has no buyer before its purchase, nor when it was taken back. -/
lemma Transition.unsold {q : PoolStorage} (ht : Transition q tx c o o') (htx : tx.FromAccount env)
    (ho : o.buyer = Address.zero ↔ Unsold o) : o'.buyer = Address.zero ↔ Unsold o' := by
  rw [Unsold] at ho ⊢
  cases ht with
  | stays => exact ho
  | bought => simp [htx.ne_zero]
  | cancelled _ hopen => simpa [hopen] using ho
  | exercised _ hbought | settled _ hbought => simpa [hbought] using ho

variable {w₀ : State} {h : Lts.History State (Label Call)}

lemma table_of_run (hdep : Deployed w₀) (hrun : Lts.Run (Step env others (exec env)) w₀ h w) :
    TableInv w.pool := (lifeInv_of_run hdep hrun).table

lemma unsold_of_run (hdep : Deployed w₀) (hrun : Lts.Run (Step env others (exec env)) w₀ h w) :
    ∀ i < w.pool.nextId, (w.option i).buyer = Address.zero ↔ Unsold (w.option i) := by
  refine options_of_run (P := fun o => o.buyer = Address.zero ↔ Unsold o) hdep.base hrun
    fun h v tx c r v' hrun htx hexec => ?_
  exact (exec_advance (table_of_run hdep hrun) hexec).keeps (fun o o' ht ho => ht.unsold htx ho)
    fun o ho => ho.buyer_iff

end

end Frogop.BtcUnderlying
