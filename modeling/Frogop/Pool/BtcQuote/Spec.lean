import Frogop.Pool.BtcQuote.Basic
import Frogop.Pool.OptionsPool.Spec

/-!
# What each method of `OptionsPoolBtcQuote` does

Inversion lemmas for the methods that the type-1 pool has of its own; `writeOption`,
`cancelOption` and `settle` are those of the type-0 pool.
-/

namespace Frogop.BtcQuote

open Outcome World

variable {env : Env} {tx : Tx} {w w' : State} {r : Response} {i n : ℕ}

/-- A price query only writes to the bridge. -/
lemma queryBtcPrice_ok {token : Address} {price : ℕ}
    (h : w.queryBtcPrice env tx token = .ok (price, w')) :
    ∃ bridge, w' = { w with bridge := bridge } := by
  simp only [World.queryBtcPrice, bind_eq_ok, pure_eq, Except.ok.injEq, Prod.mk.injEq,
    Prod.exists] at h
  obtain ⟨_, -, _, bridge, -, -, rfl⟩ := h
  exact ⟨bridge, rfl⟩

@[simp] lemma btcPremium_eq_ok {premium btcPrice amount : ℕ} :
    btcPremium premium btcPrice = .ok amount ↔
      premium * btcPrice < u256Size ∧ premium * btcPrice / precision = amount ∧ amount ≠ 0 ∧
        amount < u64Size := by
  simp only [btcPremium, bind_eq_ok, SafeMath.mul_eq_ok, SafeMath.div_eq_ok, require_eq_ok, pure_eq,
    Except.ok.injEq]
  constructor
  · rintro ⟨_, ⟨hmul, rfl⟩, _, ⟨-, rfl⟩, -, hpos, -, hfits, rfl⟩
    exact ⟨hmul, rfl, hpos, hfits⟩
  · rintro ⟨hmul, rfl, hpos, hfits⟩
    exact ⟨_, ⟨hmul, rfl⟩, _, ⟨by decide, rfl⟩, (), hpos, (), hfits, rfl⟩

@[simp] lemma addReservation_eq_ok {reservation : ℕ → Reservation} {added : ℕ × State} :
    addReservation w reservation = .ok added ↔
      w.own.nextReservationId + 1 < u256Size ∧
        (w.own.nextReservationId,
          { w with
            own :=
              { w.own with
                nextReservationId := w.own.nextReservationId + 1
                reservations := w.own.reservations.set w.own.nextReservationId
                  (reservation w.own.nextReservationId) } })
          = added := by
  simp only [addReservation, bind_eq_ok, SafeMath.add_eq_ok, pure_eq, Except.ok.injEq]
  constructor
  · rintro ⟨_, ⟨hlt, rfl⟩, h⟩
    exact ⟨hlt, h⟩
  · rintro ⟨hlt, h⟩
    exact ⟨_, ⟨hlt, rfl⟩, h⟩

/-- The reservation a successful `reserveOption` stores. -/
def newReservation (tx : Tx) (optionId btcAmount : ℕ) (csvScriptHash : Bytes32)
    (reservationId : ℕ) : Reservation where
  id := reservationId
  optionId := optionId
  buyer := tx.sender
  btcAmount := btcAmount
  csvScriptHash := csvScriptHash
  expiryBlock := u64Add tx.block reservationExpiryBlocks
  status := .PENDING

lemma reserveOption_ok (h : reserveOption env tx i w = .ok (r, w')) :
    ∃ btcAmount csvScriptHash,
      w.pool.options.existsAt i ∧ (w.option i).status = .OPEN ∧
      tx.block < (w.option i).expiryBlock ∧
      u64Add tx.block reservationExpiryBlocks < (w.option i).expiryBlock ∧
      tx.sender ≠ (w.option i).writer ∧ 0 < btcAmount ∧ btcAmount < u64Size ∧
      r = [.u256 w.own.nextReservationId] ∧
      w'.pool = { w.pool with options := w.pool.options.setStatus i .RESERVED } ∧
      w'.own = { w.own with
        nextReservationId := w.own.nextReservationId + 1
        reservations := w.own.reservations.set w.own.nextReservationId
          (newReservation tx i btcAmount csvScriptHash w.own.nextReservationId) } ∧
      w'.ledger = w.ledger := by
  simp only [reserveOption, bind_eq_ok, require_eq_ok, Prod.exists, btcPremium_eq_ok,
    addReservation_eq_ok, emit_eq_ok, respond_eq_ok, Prod.mk.injEq] at h
  obtain ⟨-, hex, -, hopen, -, hblock, -, hwindow, -, hwriter, price, w₁, hprice, amount,
    ⟨-, -, hpos, hfits⟩, pubkey, -, hash, -, n, _, ⟨-, rfl, rfl⟩, _, ⟨-, rfl⟩, -, rfl, rfl⟩ := h
  obtain ⟨bridge, rfl⟩ := queryBtcPrice_ok hprice
  exact ⟨amount, hash, hex, hopen, hblock, hwindow, hwriter, Nat.pos_of_ne_zero hpos, hfits, rfl,
    rfl, rfl, rfl⟩

lemma executeReservation_ok (h : executeReservation env tx n w = .ok (r, w')) :
    w.own.reservations.existsAt n ∧ (w.own.reservations.get n).status = .PENDING ∧
      tx.block < (w.own.reservations.get n).expiryBlock ∧
      r = [.boolean true] ∧
      w'.pool = { w.pool with
        options := (w.pool.options.setBuyer (w.own.reservations.get n).optionId
          (w.own.reservations.get n).buyer).setStatus (w.own.reservations.get n).optionId
            .PURCHASED } ∧
      w'.own = { w.own with
        reservations := w.own.reservations.setStatus n .EXECUTED
        csvScriptHash := Function.update w.own.csvScriptHash (w.own.reservations.get n).optionId
          (w.own.reservations.get n).csvScriptHash } ∧
      w'.ledger = w.ledger := by
  simp only [executeReservation, bind_eq_ok, require_eq_ok, Prod.exists, emit_eq_ok, respond_eq_ok,
    Prod.mk.injEq] at h
  obtain ⟨-, hex, -, hpending, -, hblock, -, -, verified, w₁, hverify, -, -, _, ⟨-, rfl⟩, -, rfl,
    rfl⟩ := h
  obtain ⟨bridge, rfl⟩ := queryVerifyBtcOutput_ok hverify
  exact ⟨hex, hpending, hblock, rfl, rfl, rfl, rfl⟩

lemma cancelReservation_ok (h : cancelReservation env tx n w = .ok (r, w')) :
    w.own.reservations.existsAt n ∧ (w.own.reservations.get n).status = .PENDING ∧
      (w.own.reservations.get n).expiryBlock ≤ tx.block ∧
      r = [.boolean true] ∧
      w'.pool = { w.pool with
        options := w.pool.options.setStatus (w.own.reservations.get n).optionId .OPEN } ∧
      w'.own = { w.own with reservations := w.own.reservations.clear n } ∧
      w'.ledger = w.ledger := by
  simp only [cancelReservation, bind_eq_ok, require_eq_ok, emit_eq_ok, respond_eq_ok,
    Prod.mk.injEq] at h
  obtain ⟨-, hex, -, hpending, -, hblock, _, ⟨-, rfl⟩, _, ⟨-, rfl⟩, -, rfl, rfl⟩ := h
  exact ⟨hex, hpending, hblock, rfl, rfl, rfl, rfl⟩

/-- The price of a PUT is paid to the writer, that of a CALL in bitcoin; then the collateral less
the fee goes to the buyer. -/
lemma exchange_ok {option : OptionRecord} {value fee : ℕ}
    (hvalue : strikeValue option.strikePrice option.underlyingAmount = .ok value)
    (h : exchange env tx option value w = .ok (fee, w')) :
    ∃ collateral l₁ l₂ l₃, option.collateral = .ok collateral ∧ fee ≤ collateral ∧
      (l₁ = w.ledger ∨ w.ledger.transferFrom w.pool.underlying env.contractAddress tx.sender
        option.writer option.underlyingAmount = .ok l₁) ∧
      l₁.transferFrom (w.pool.collateralToken option.optionType) env.contractAddress
        env.contractAddress tx.sender (collateral - fee) = .ok l₂ ∧
      l₂.transferFrom (w.pool.collateralToken option.optionType) env.contractAddress
        env.contractAddress w.pool.feeRecipient fee = .ok l₃ ∧
      w'.pool = w.pool ∧ w'.own = w.own ∧ w'.ledger = l₃ := by
  cases htype : option.optionType with
  | CALL =>
    simp only [exchange, htype, exerciseCall, getCsvScriptHashForOption, bind_eq_ok, require_eq_ok,
      pure_eq, Except.ok.injEq, Prod.exists, SafeMath.sub_eq_ok, transfer_eq_ok,
      Prod.mk.injEq] at h
    obtain ⟨_, ⟨-, -, -⟩, -, -, _, w₁, hverify, -, -, _, -, _, ⟨hle, rfl⟩, _, ⟨l₂, hl₂, rfl⟩, _,
      ⟨l₃, hl₃, rfl⟩, rfl, rfl⟩ := h
    obtain ⟨bridge, rfl⟩ := queryVerifyBtcOutput_ok hverify
    refine ⟨option.underlyingAmount, w.ledger, l₂, l₃, ?_, hle, .inl rfl, hl₂, hl₃, rfl, rfl, rfl⟩
    simp only [OptionRecord.collateral, htype, collateralAmount]
  | PUT =>
    have hput : OptionsPool.exchange env tx option value w = .ok (fee, w') := by
      simpa only [OptionsPool.exchange, exchange, htype] using h
    obtain ⟨collateral, l₁, l₂, l₃, hcoll, -, hle, hl₁, hl₂, hl₃, rfl⟩ :=
      OptionsPool.exchange_ok hvalue hput
    rw [htype] at hl₁ hl₂ hl₃
    simp only [OptionsPool.exercisePrice, OptionsPool.priceToken, htype] at hl₁
    exact ⟨collateral, l₁, l₂, l₃, hcoll, hle, .inr hl₁, hl₂, hl₃, rfl, rfl, rfl⟩

lemma exercise_ok (h : exercise env tx i w = .ok (r, w')) :
    ∃ collateral fee l₁ l₂ l₃,
      w.pool.options.existsAt i ∧ (w.option i).status = .PURCHASED ∧
      tx.sender = (w.option i).buyer ∧ (w.option i).expiryBlock ≤ tx.block ∧
      tx.block < w.pool.graceEnd (w.option i) ∧
      (w.option i).collateral = .ok collateral ∧ fee ≤ collateral ∧
      (l₁ = w.ledger ∨ w.ledger.transferFrom w.pool.underlying env.contractAddress tx.sender
        (w.option i).writer (w.option i).underlyingAmount = .ok l₁) ∧
      l₁.transferFrom (w.pool.collateralToken (w.option i).optionType) env.contractAddress
        env.contractAddress tx.sender (collateral - fee) = .ok l₂ ∧
      l₂.transferFrom (w.pool.collateralToken (w.option i).optionType) env.contractAddress
        env.contractAddress w.pool.feeRecipient fee = .ok l₃ ∧
      w'.pool = { w.pool with options := w.pool.options.setStatus i .EXERCISED } ∧
      w'.own = w.own ∧ w'.ledger = l₃ := by
  simp only [exercise, bind_eq_ok, require_eq_ok, emit_eq_ok, respond_eq_ok, Prod.exists,
    Prod.mk.injEq] at h
  obtain ⟨-, hex, -, hbought, -, hbuyer, -, hexpiry, -, hgrace, value, hvalue, fee, w₃, hpay,
    _, ⟨-, rfl⟩, -, rfl, rfl⟩ := h
  obtain ⟨collateral, l₁, l₂, l₃, hcoll, hle, hl₁, hl₂, hl₃, hpool, hext, hledger⟩ :=
    exchange_ok hvalue hpay
  exact ⟨collateral, fee, l₁, l₂, l₃, hex, hbought, hbuyer, hexpiry, hgrace, hcoll, hle, hl₁, hl₂,
    hl₃, hpool, hext, hledger⟩

/-- A view leaves the world alone. -/
lemma getReservation_ok (h : getReservation env n w = .ok (r, w')) : w' = w := by
  simp only [getReservation, bind_eq_ok, require_eq_ok, respond_eq_ok, Prod.mk.injEq] at h
  obtain ⟨-, -, -, -, rfl⟩ := h
  rfl

end Frogop.BtcQuote
