import Frogop.Indexer.OptionsPool
import Frogop.Pool.BtcQuote.Reservation

/-!
# The rows of a type-1 pool

The events of the reservations set the status of an option to `RESERVED` and back, and name its
buyer when a reservation is executed. Nothing is paid in tokens for a reservation, and the price of
a CALL is paid in bitcoin.
-/

namespace Frogop.BtcQuote

open Outcome World Indexer

/-! ### The payments of the type-1 pool -/

/-- Only the price of a PUT is paid in tokens. -/
def exercisePayments (env : Env) (tx : Tx) (p : PoolStorage) (o : OptionRecord) : List Payment :=
  match o.optionType with
  | .CALL => collateralPayments env tx p o
  | .PUT => OptionsPool.exercisePayments env tx p o

def payments (env : Env) (tx : Tx) : Call → State → List Payment
  | .writeOption t s _ a _, w =>
    ((OptionType.ofU8 t).map (writePayments env tx w.pool · s a)).getD []
  | .exercise i, w => exercisePayments env tx w.pool (w.option i)
  | .cancelOption i, w => cancelPayments env tx w.pool (w.option i)
  | .settle i, w => settlePayments env w.pool (w.option i)
  | .reserveOption _, _ | .executeReservation _, _ | .cancelReservation _, _
  | .getReservation _, _ | .getOption _, _ | .updateFeeRecipient _, _
  | .registerBtcPubkey _, _ => []

section

variable {env : Env} {others : Ledger → Ledger → Prop} {tx : Tx} {c : Call} {w w' : State}
  {r : Response} {i n value fee : ℕ} {o o' : OptionRecord} {tracking : Tracking} {pool : String}
  {h : Lts.History State (Label Call)}

/-! ### The events of the reservations -/

lemma reserveOption_emits (h : reserveOption env tx i w = .ok (r, w')) :
    ∃ btcAmount, ∃ csvScriptHash : Bytes32, w'.events = w.events ++ [⟨.optionReserved, 160,
      [.u256 w.own.nextReservationId, .u256 i, .address tx.sender, .u256 btcAmount,
        .bytes csvScriptHash.val, .u64 (u64Add tx.block reservationExpiryBlocks)]⟩] := by
  simp only [reserveOption, bind_eq_ok, Prod.exists, addReservation_eq_ok, emit_eq_ok,
    respond_eq_ok, Prod.mk.injEq] at h
  obtain ⟨-, -, -, -, -, -, -, -, -, -, price, w₁, hprice, amount, -, -, -, hash, -, n, _,
    ⟨-, rfl, rfl⟩, _, ⟨-, rfl⟩, -, -, rfl⟩ := h
  obtain ⟨bridge, rfl⟩ := queryBtcPrice_ok hprice
  exact ⟨amount, hash, rfl⟩

lemma executeReservation_emits (h : executeReservation env tx n w = .ok (r, w')) :
    w'.events = w.events ++ [⟨.reservationExecuted, 96,
      [.u256 n, .u256 (w.own.reservations.get n).optionId,
        .address (w.own.reservations.get n).buyer]⟩] := by
  simp only [executeReservation, bind_eq_ok, Prod.exists, emit_eq_ok, respond_eq_ok,
    Prod.mk.injEq] at h
  obtain ⟨-, -, -, -, -, -, -, -, verified, w₁, hverify, -, -, _, ⟨-, rfl⟩, -, -, rfl⟩ := h
  obtain ⟨bridge, rfl⟩ := queryVerifyBtcOutput_ok hverify
  rfl

lemma cancelReservation_emits (h : cancelReservation env tx n w = .ok (r, w')) :
    w'.events = w.events ++ [⟨.reservationCancelled, 64,
        [.u256 n, .u256 (w.own.reservations.get n).optionId]⟩,
      ⟨.optionRestored, 32, [.u256 (w.own.reservations.get n).optionId]⟩] := by
  simp only [cancelReservation, bind_eq_ok, emit_eq_ok, respond_eq_ok, Prod.mk.injEq] at h
  obtain ⟨-, -, -, -, -, -, _, ⟨-, rfl⟩, _, ⟨-, rfl⟩, -, -, rfl⟩ := h
  exact List.append_assoc _ _ _

/-! ### Reservations are reflected -/

lemma reserveOption_reflects (hi : i < w.pool.nextId)
    (h : reserveOption env tx i w = .ok (r, w')) : Reflects env tracking pool w w' [] [] := by
  obtain ⟨amount, hash, hevents⟩ := reserveOption_emits h
  obtain ⟨_, _, -, -, -, -, -, -, -, -, hpool, -, hledger⟩ := reserveOption_ok h
  refine ⟨⟨_, hevents, ?_⟩, ?_, ?_⟩
  · rw [hpool]
    refine .unpaid hi OptionStorage.get_setStatus (keepBuyer _) fun blockNumber txId => ?_
    exact decode_reserved
  · rw [hledger]
    exact .nil
  · rw [hpool]
    exact id

lemma executeReservation_reflects (hinv : TwoPhase env h w)
    (hexec : executeReservation env tx n w = .ok (r, w')) :
    Reflects env tracking pool w w' [] [] := by
  obtain ⟨hex, hpending, -, -, hpool, -, hledger⟩ := executeReservation_ok hexec
  obtain ⟨hi, hholds⟩ := hinv.live n ⟨hex, hpending⟩
  refine ⟨⟨_, executeReservation_emits hexec, ?_⟩, ?_, ?_⟩
  · rw [hpool]
    exact .executed hi hholds.buyer_ne_zero fun _ _ => decode_executed
  · rw [hledger]
    exact .nil
  · rw [hpool]
    exact id

/-- `OptionRestored` comes with `ReservationCancelled`, and is ignored. -/
lemma cancelReservation_reflects (hinv : TwoPhase env h w)
    (hexec : cancelReservation env tx n w = .ok (r, w')) :
    Reflects env tracking pool w w' [] [] := by
  obtain ⟨hex, hpending, -, -, hpool, -, hledger⟩ := cancelReservation_ok hexec
  obtain ⟨hi, -⟩ := hinv.live n ⟨hex, hpending⟩
  refine ⟨⟨_, cancelReservation_emits hexec, ?_⟩, ?_, ?_⟩
  · rw [hpool]
    have hreleased : Follows tracking pool w.pool
        [⟨.reservationCancelled, 64, [.u256 n, .u256 (w.own.reservations.get n).optionId]⟩]
        { w.pool with
          options := w.pool.options.setStatus (w.own.reservations.get n).optionId .OPEN } [] := by
      refine .unpaid hi OptionStorage.get_setStatus (keepBuyer _) fun blockNumber txId => ?_
      exact decode_released
    refine hreleased.trans (.quiet ?_ rfl rfl rfl)
    simp [EventName.Silent]
  · rw [hledger]
    exact .nil
  · rw [hpool]
    exact id

/-! ### Exercise -/

lemma exchange_pays (hvalue : strikeValue o.strikePrice o.underlyingAmount = .ok value)
    (h : exchange env tx o value w = .ok (fee, w')) :
    ∃ collateral, o.collateral = .ok collateral ∧ ceilBps collateral exerciseFeeBps = .ok fee ∧
      Pays env.contractAddress w.ledger (exercisePayments env tx w.pool o) w'.ledger ∧
      w'.events = w.events := by
  cases htype : o.optionType with
  | CALL =>
    simp only [exchange, htype, exerciseCall, getCsvScriptHashForOption, bind_eq_ok, require_eq_ok,
      pure_eq, Except.ok.injEq, Prod.exists, SafeMath.sub_eq_ok, transfer_eq_ok,
      Prod.mk.injEq] at h
    obtain ⟨_, ⟨-, -, -⟩, -, -, _, w₁, hverify, -, -, _, hfee, _, ⟨-, rfl⟩, _, ⟨l₁, hl₁, rfl⟩, _,
      ⟨l₂, hl₂, rfl⟩, rfl, rfl⟩ := h
    obtain ⟨bridge, rfl⟩ := queryVerifyBtcOutput_ok hverify
    have hcoll : o.collateral = .ok o.underlyingAmount := by
      simp only [OptionRecord.collateral, htype, collateralAmount]
    have htoken : w.pool.collateralToken o.optionType = w.pool.underlying := by
      rw [htype]
      rfl
    rw [← htoken] at hl₁ hl₂
    refine ⟨o.underlyingAmount, hcoll, hfee, ?_, rfl⟩
    rw [exercisePayments, htype]
    exact pays_collateral hcoll hfee hl₁ hl₂
  | PUT =>
    have hput : OptionsPool.exchange env tx o value w = .ok (fee, w') := by
      simpa only [OptionsPool.exchange, exchange, htype] using h
    obtain ⟨collateral, l₁, l₂, l₃, hcoll, hfee, -, hl₁, hl₂, hl₃, rfl⟩ :=
      OptionsPool.exchange_ok hvalue hput
    refine ⟨collateral, hcoll, hfee, ?_, rfl⟩
    rw [exercisePayments, htype]
    refine .cons ?_ (pays_collateral hcoll hfee hl₂ hl₃)
    rw [hvalue]
    exact hl₁

lemma feesOf_exercisePayments {collateral : ℕ} (hcoll : o.collateral = .ok collateral)
    (hfee : ceilBps collateral exerciseFeeBps = .ok fee) :
    feesOf (exercisePayments env tx w.pool o) = recorded o.id .EXERCISE fee := by
  rw [exercisePayments]
  cases o.optionType with
  | CALL => exact feesOf_collateralPayments hcoll hfee
  | PUT => rw [OptionsPool.exercisePayments, feesOf_plain, feesOf_collateralPayments hcoll hfee]

lemma exercise_reflects (hi : i < w.pool.nextId) (h : exercise env tx i w = .ok (r, w')) :
    Reflects env tracking pool w w' (exercisePayments env tx w.pool (w.option i))
      (feesOf (exercisePayments env tx w.pool (w.option i))) := by
  obtain ⟨_, _, _, _, _, -, -, -, -, -, -, -, -, -, -, hpool, -, -⟩ := exercise_ok h
  simp only [exercise, bind_eq_ok, emit_eq_ok, respond_eq_ok, Prod.exists, Prod.mk.injEq] at h
  obtain ⟨-, -, -, -, -, -, -, -, -, -, value, hvalue, fee, w₁, hpay, _, ⟨-, rfl⟩, -, -, rfl⟩ := h
  obtain ⟨collateral, hcoll, hfee, hpays, hevents⟩ := exchange_pays hvalue hpay
  refine ⟨⟨_, congrArg (· ++ _) hevents, ?_⟩, hpays, ?_⟩
  · rw [hpool, feesOf_exercisePayments hcoll hfee, option_id]
    refine .status hi OptionStorage.get_setStatus (keepBuyer _) fun blockNumber txId => ?_
    rw [decode_exercised, Nat.mod_eq_of_lt (ceilBps_lt hfee)]
    rfl
  · rw [hpool]
    exact id

/-! ### Every call -/

lemma exec_reflects (hinv : TwoPhase env h w) (hexec : exec env tx c w = .ok (r, w')) :
    Reflects env tracking pool w w' (payments env tx c w) (feesOf (payments env tx c w)) := by
  have hlt : ∀ {i}, w.pool.options.existsAt i → i < w.pool.nextId := (hinv.table _).mp
  cases c with
  | writeOption t s e a p =>
    have hnone : feesOf (payments env tx (.writeOption t s e a p) w) = [] := by
      rw [payments]
      cases OptionType.ofU8 t <;> rfl
    rw [hnone]
    exact OptionsPool.writeOption_reflects hexec
  | reserveOption i =>
    obtain ⟨_, _, hex, -⟩ := reserveOption_ok hexec
    exact reserveOption_reflects (hlt hex) hexec
  | executeReservation n => exact executeReservation_reflects hinv hexec
  | cancelReservation n => exact cancelReservation_reflects hinv hexec
  | exercise i =>
    obtain ⟨_, _, _, _, _, hex, -⟩ := exercise_ok hexec
    exact exercise_reflects (hlt hex) hexec
  | cancelOption i =>
    obtain ⟨hex, -, -, -⟩ := OptionsPool.cancelOption_update hexec
    exact cancelOption_reflects (hlt hex) hexec
  | settle i =>
    obtain ⟨hex, -, -, -⟩ := OptionsPool.settle_update hexec
    exact settle_reflects (hlt hex) hexec
  | getReservation n =>
    obtain rfl := getReservation_ok hexec
    exact .refl
  | getOption i =>
    obtain rfl := getOption_ok hexec
    exact .refl
  | updateFeeRecipient newRecipient => exact updateFeeRecipient_reflects hexec
  | registerBtcPubkey data => exact registerBtcPubkey_reflects hexec

lemma reflected (env : Env) (tracking : Tracking) (pool : String) :
    Reflected env tracking pool (exec env) (fun w => ∃ h, TwoPhase env h w)
    (payments env) fun tx c w => feesOf (payments env tx c w) :=
  fun _ _ _ _ _ ⟨_, hinv⟩ _ hexec => exec_reflects hinv hexec

/-- An option has no buyer before its purchase, nor when it was taken back. -/
lemma Transition.unsold (ht : Transition w tx c o o') (hinv : TwoPhase env h w)
    (ho : o.buyer = Address.zero ↔ Unsold o) : o'.buyer = Address.zero ↔ Unsold o' := by
  rw [Unsold] at ho ⊢
  cases ht with
  | stays => exact ho
  | reserved _ hopen | cancelled _ hopen => simpa [hopen] using ho
  | executed n _ hlive => simpa using (hinv.live n hlive).2.buyer_ne_zero
  | released n _ _ _ hreserved => simpa [hreserved] using ho
  | exercised _ hbought | settled _ hbought => simpa [hbought] using ho

lemma unsold_of_run {w₀ : State} (hdep : Deployed w₀)
    (hrun : Lts.Run (Step env others (exec env)) w₀ h w) :
    ∀ i < w.pool.nextId, (w.option i).buyer = Address.zero ↔ Unsold (w.option i) := by
  refine options_of_run (P := fun o => o.buyer = Address.zero ↔ Unsold o) hdep.base hrun
    fun h v tx c r v' hrun htx hexec => ?_
  have hinv := twoPhase_of_run hdep hrun
  exact (exec_advance hinv.table hinv.reserves hexec).keeps (fun o o' ht ho => ht.unsold hinv ho)
    fun o ho => ho.buyer_iff

end

end Frogop.BtcQuote
