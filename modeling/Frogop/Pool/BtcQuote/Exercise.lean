import Frogop.Pool.BtcQuote.Solvency
import Frogop.Pool.Exercise
import Frogop.Pool.OptionsPool.Arithmetic

/-!
# Exercising a sold option of `OptionsPoolBtcQuote`

The strike of a CALL is paid in satoshis, a `u64`; writing the CALL does not look at it. `Payable`
says for which sold options the exercise is decided by the payment alone.
-/

namespace Frogop.BtcQuote

open Outcome Custody World

abbrev PaymentError : Revert → Prop := Frogop.PaymentError "BTC strike payment not found"

/-- The payment for an exercise, and tokens that let the collateral through. -/
structure CanPay (env : Env) (tx : Tx) (w : State) (o : OptionRecord) : Prop where
  bitcoin : o.optionType = .CALL → ∃ output ∈ tx.outputs,
    Bridge.Pays env w.bridge (w.own.csvScriptHash o.id).val
      (o.strikePrice * o.underlyingAmount / precision) output
  underlying : o.optionType = .PUT →
    o.underlyingAmount ≤ w.ledger.balanceOf w.pool.underlying tx.sender ∧
      o.underlyingAmount ≤ w.ledger.allowance w.pool.underlying tx.sender env.contractAddress ∧
      w.ledger.refuses w.pool.underlying tx.sender o.writer = false
  delivers : w.ledger.refuses (w.pool.collateralToken o.optionType) env.contractAddress tx.sender
    = false
  collects : w.ledger.refuses (w.pool.collateralToken o.optionType) env.contractAddress
    w.pool.feeRecipient = false

/-- The buyer of the option can exercise it at every block of the grace period. -/
abbrev Exercisable (env : Env) (w : State) (i : ℕ) : Prop :=
  Frogop.Exercisable (exercise env) "BTC strike payment not found" (CanPay env · w) env w i

/-- The end of the grace period is a block number, and the strike of a CALL an amount of
satoshis. -/
def Payable (p : PoolStorage) (o : OptionRecord) : Prop :=
  o.expiryBlock + p.gracePeriod < u64Size ∧
    (o.optionType = .CALL → o.strikePrice * o.underlyingAmount / precision < u64Size)

/-- What writing and selling guarantee of an option. -/
structure Sellable (env : Env) (o : OptionRecord) : Prop where
  strike : 0 < o.strikePrice
  collateral : ∃ collateral, o.collateral = .ok collateral
  expiry : o.expiryBlock < u64Size
  buyer : o.status = .PURCHASED → o.buyer ≠ env.contractAddress ∧ o.buyer ≠ Address.zero

section

variable {env : Env} {tx : Tx} {c : Call} {w w' : State} {r : Response} {i value collateral : ℕ}
  {o o' : OptionRecord}

/-! ### Numbers -/

/-- The numbers of a payable option can be computed with. -/
lemma Payable.fits (hpay : Payable w.pool o) (ho : Sellable env o) :
    ∃ collateral, o.collateral = .ok collateral ∧ collateral * 100 + 9999 < u256Size ∧
      strikeValue o.strikePrice o.underlyingAmount
        = .ok (o.strikePrice * o.underlyingAmount / precision) := by
  obtain ⟨collateral, hcoll⟩ := ho.collateral
  cases htype : o.optionType with
  | CALL =>
    have hproduct : o.strikePrice * o.underlyingAmount < u64Size * precision :=
      (Nat.div_lt_iff_lt_mul (by decide)).mp (hpay.2 htype)
    have hamount : o.underlyingAmount ≤ o.strikePrice * o.underlyingAmount :=
      Nat.le_mul_of_pos_left _ ho.strike
    have hcollateral : collateral = o.underlyingAmount := by
      rw [OptionRecord.collateral_eq hcoll, OptionRecord.lockedAmount, htype]
    have hsize : u64Size * precision * 100 + 9999 < u256Size := by decide
    refine ⟨collateral, hcoll, by omega, strikeValue_eq_ok.mpr ⟨by omega, rfl⟩⟩
  | PUT =>
    refine ⟨collateral, hcoll, OptionsPool.put_collateral_fits htype hcoll, ?_⟩
    simp only [OptionRecord.collateral, collateralAmount, htype, strikeValue_eq_ok] at hcoll
    exact strikeValue_eq_ok.mpr ⟨hcoll.1, rfl⟩

/-- The stored hash is never empty. -/
lemma getCsvScriptHashForOption_eq :
    getCsvScriptHashForOption w i = .ok (w.own.csvScriptHash i) := by
  have hlen : (w.own.csvScriptHash i).val.length ≠ 0 := by
    rw [(w.own.csvScriptHash i).property]
    decide
  rw [getCsvScriptHashForOption, require_of hlen]
  rfl

/-! ### Exchanging -/

lemma exerciseCall_fails (hvalue : value < u64Size)
    (hfits : o.underlyingAmount * 100 + 9999 < u256Size) :
    FailsOnly PaymentError (exerciseCall env tx o value w) := by
  obtain ⟨fee, hfee, hle⟩ := exerciseFee_of_fits hfits
  rw [exerciseCall, getCsvScriptHashForOption_eq, ok_bind, require_of hvalue, ok_bind]
  refine .seq (failsOnly_queryVerifyBtcOutput hvalue) fun verified _ => ?_
  refine .guard (.inl rfl) fun _ => ?_
  simp [hfee, SafeMath.sub_eq_ok.mpr ⟨hle, rfl⟩, Frogop.PaymentError]

lemma exerciseCall_succeeds {output : TxOutput} (hvalue : value < u64Size)
    (hfits : o.underlyingAmount * 100 + 9999 < u256Size) (hmem : output ∈ tx.outputs)
    (hpays : Bridge.Pays env w.bridge (w.own.csvScriptHash o.id).val value output)
    (hdelivers : w.ledger.refuses w.pool.underlying env.contractAddress tx.sender = false)
    (hcollects : w.ledger.refuses w.pool.underlying env.contractAddress w.pool.feeRecipient = false)
    (hheld : o.underlyingAmount ≤ w.ledger.heldBy env.contractAddress w.pool.underlying) :
    ∃ paid, exerciseCall env tx o value w = .ok paid := by
  obtain ⟨bridge, hverified⟩ := queryVerifyBtcOutput_of_pays (w := w) hvalue hmem hpays
  obtain ⟨fee, hfee, hle⟩ := exerciseFee_of_fits hfits
  obtain ⟨l₁, l₂, hl₁, hl₂⟩ := deliver_succeeds hdelivers hcollects
    ((Nat.sub_add_cancel hle).le.trans hheld)
  rw [exerciseCall, getCsvScriptHashForOption_eq, ok_bind, require_of hvalue, ok_bind, hverified,
    ok_bind]
  simp only [bind_eq_ok, require_eq_ok, SafeMath.sub_eq_ok, transfer_eq_ok]
  exact ⟨_, (), trivial, fee, hfee, _, ⟨hle, rfl⟩, _, ⟨l₁, hl₁, rfl⟩, _, ⟨l₂, hl₂, rfl⟩, rfl⟩

lemma exchange_fails (hpay : Payable w.pool o) (ho : Sellable env o)
    (hvalue : strikeValue o.strikePrice o.underlyingAmount = .ok value) :
    FailsOnly PaymentError (exchange env tx o value w) := by
  obtain ⟨collateral, hcoll, hfits, -⟩ := hpay.fits ho
  rw [exchange]
  cases htype : o.optionType with
  | CALL =>
    obtain ⟨-, rfl⟩ := strikeValue_eq_ok.mp hvalue
    rw [OptionRecord.collateral_eq hcoll, OptionRecord.lockedAmount, htype] at hfits
    exact exerciseCall_fails (hpay.2 htype) hfits
  | PUT =>
    have hput : FailsOnly PaymentError (OptionsPool.exchange env tx o value w) :=
      OptionsPool.failsOnly_exchange (fun m cause => .inr ⟨m, cause, rfl⟩) hcoll hvalue
        (exerciseFee_room hfits)
    rwa [OptionsPool.exchange, htype] at hput

lemma exchange_succeeds (hpay : Payable w.pool o) (ho : Sellable env o)
    (hvalue : strikeValue o.strikePrice o.underlyingAmount = .ok value)
    (htx : tx.FromAccount env) (hcan : CanPay env tx w o)
    (hheld : o.lockedAmount
      ≤ w.ledger.heldBy env.contractAddress (w.pool.collateralToken o.optionType)) :
    ∃ paid, exchange env tx o value w = .ok paid := by
  obtain ⟨collateral, hcoll, hfits, -⟩ := hpay.fits ho
  have hdelivers := hcan.delivers
  have hcollects := hcan.collects
  cases htype : o.optionType with
  | CALL =>
    obtain ⟨-, rfl⟩ := strikeValue_eq_ok.mp hvalue
    obtain ⟨output, hmem, hpays⟩ := hcan.bitcoin htype
    rw [OptionRecord.collateral_eq hcoll, OptionRecord.lockedAmount, htype] at hfits
    rw [OptionRecord.lockedAmount, htype] at hheld
    rw [htype] at hdelivers hcollects
    simp only [exchange, htype]
    exact exerciseCall_succeeds (hpay.2 htype) hfits hmem hpays hdelivers hcollects hheld
  | PUT =>
    rw [← OptionRecord.collateral_eq hcoll] at hheld
    obtain ⟨hbalance, hallowance, hwilling⟩ := hcan.underlying htype
    have hput : OptionsPool.CanPay env tx w o (OptionsPool.exercisePrice o value) := by
      refine ⟨?_, ?_, ?_, hdelivers, hcollects⟩ <;>
        simpa only [OptionsPool.exercisePrice, OptionsPool.priceToken, htype]
    obtain ⟨paid, hpaid⟩ := OptionsPool.exchange_succeeds hcoll hvalue (exerciseFee_room hfits)
      htx hput hheld
    refine ⟨paid, ?_⟩
    simpa only [OptionsPool.exchange, exchange, htype] using hpaid

/-! ### Exercising -/

/-- After its guards an exercise is the exchange and the event. -/
lemma exercise_eq (hex : w.pool.options.existsAt i) (hbought : (w.option i).status = .PURCHASED)
    (hbuyer : tx.sender = (w.option i).buyer) (hexpiry : (w.option i).expiryBlock ≤ tx.block)
    (hgrace : tx.block < w.pool.graceEnd (w.option i))
    (hvalue : strikeValue (w.option i).strikePrice (w.option i).underlyingAmount = .ok value) :
    exercise env tx i w = exchange env tx (w.option i) value (w.setStatus i .EXERCISED) >>=
      afterExchange env (w.option i) value := by
  simp only [exercise, require_of hex, require_of hbought, require_of hbuyer, require_of hexpiry,
    require_of hgrace, ok_bind, hvalue]
  rfl

/-- An option that cannot be paid for cannot be exercised at its expiry. -/
lemma exercise_stuck (tx : Tx) (hbuyer : tx.sender = (w.option i).buyer)
    (hexpiry : tx.block = (w.option i).expiryBlock) (hblock : (w.option i).expiryBlock < u64Size)
    (hgrace : w.pool.gracePeriod ≤ maxGracePeriodBlocks)
    (hex : w.pool.options.existsAt i) (hbought : (w.option i).status = .PURCHASED)
    (hfails : FailsOnly PaymentError (exercise env tx i w)) : Payable w.pool (w.option i) := by
  have hwindow : tx.block < w.pool.graceEnd (w.option i) := by
    by_contra hout
    simp only [exercise, require_of hex, require_of hbought, require_of hbuyer,
      require_of hexpiry.ge, require_of_not hout, ok_bind, error_bind, failsOnly_error] at hfails
    simp [Frogop.PaymentError] at hfails
  refine ⟨PoolStorage.graceEnd_noWrap hgrace hblock (hexpiry ▸ hwindow), fun htype => ?_⟩
  have hproduct : (w.option i).strikePrice * (w.option i).underlyingAmount < u256Size := by
    by_contra hover
    have herror : strikeValue (w.option i).strikePrice (w.option i).underlyingAmount
        = .error .safeMath := by
      rw [strikeValue, SafeMath.mul, if_neg hover, error_bind]
    simp only [exercise, require_of hex, require_of hbought, require_of hbuyer,
      require_of hexpiry.ge, require_of hwindow, ok_bind, herror, error_bind,
      failsOnly_error] at hfails
    simp [Frogop.PaymentError] at hfails
  by_contra hlarge
  rw [exercise_eq hex hbought hbuyer hexpiry.ge hwindow (strikeValue_eq_ok.mpr ⟨hproduct, rfl⟩)]
    at hfails
  simp only [exchange, htype, exerciseCall, getCsvScriptHashForOption_eq, ok_bind,
    require_of_not hlarge, error_bind, failsOnly_error] at hfails
  simp [Frogop.PaymentError] at hfails

/-! ### Runs -/

lemma sellable_of_fresh {n : ℕ} (h : OptionsPool.Fresh tx n o) : Sellable env o := by
  obtain ⟨t, s, e, a, p, collateral, rfl, hs, -, -, hfar, hcoll⟩ := h
  exact ⟨hs, ⟨collateral, hcoll⟩, hfar.trans_lt (u64Add_lt _ _), by simp [newOption]⟩

/-- The buyer of a sold option is the account that reserved it. -/
lemma Transition.sellable {h : Lts.History State (Label Call)} (hinv : TwoPhase env h w)
    (ht : Transition w tx c o o') (ho : Sellable env o) : Sellable env o' := by
  have hterms := ht.sameTerms
  refine ⟨hterms.strikePrice ▸ ho.strike, ?_, hterms.expiryBlock ▸ ho.expiry, ?_⟩
  · rw [hterms.collateral]
    exact ho.collateral
  · cases ht with
    | stays => exact ho.buyer
    | executed n hc hlive =>
      obtain ⟨-, hholds⟩ := hinv.live n hlive
      exact fun _ => ⟨hholds.buyer_ne_pool, hholds.buyer_ne_zero⟩
    | _ => simp

lemma sellable_of_run {others : Ledger → Ledger → Prop} {w₀ : State}
    {h : Lts.History State (Label Call)} (hdep : Deployed w₀)
    (hrun : Lts.Run (Step env others (exec env)) w₀ h w) :
    (minGracePeriodBlocks ≤ w.pool.gracePeriod ∧ w.pool.gracePeriod ≤ maxGracePeriodBlocks) ∧
      ∀ i < w.pool.nextId, Sellable env (w.option i) := by
  refine hrun.induct (I := fun _ w =>
    (minGracePeriodBlocks ≤ w.pool.gracePeriod ∧ w.pool.gracePeriod ≤ maxGracePeriodBlocks) ∧
      ∀ i < w.pool.nextId, Sellable env (w.option i)) ?_ ?_
  · obtain ⟨hnext, -, -, hmin, hmax, -⟩ := hdep.base.spec
    exact ⟨⟨hmin, hmax⟩, fun i hi => by omega⟩
  · intro h v l u hrun hv hstep
    obtain ⟨hgrace, hoptions⟩ := hv
    have hinv := twoPhase_of_run hdep hrun
    cases hstep with
    | call htx hexec =>
      have hadv := exec_advance hinv.table hinv.reserves hexec
      rw [hadv.gracePeriod]
      exact ⟨hgrace, hadv.keeps (fun _ _ ht ho => ht.sellable hinv ho)
        (fun _ ho => sellable_of_fresh ho) hoptions⟩
    | reverted => exact ⟨hgrace, hoptions⟩
    | elsewhere => exact ⟨hgrace, hoptions⟩

/-- A sold option can be exercised by its buyer in every block of the grace period exactly when it
is payable. -/
theorem exercisable_iff {w₀ : State} {h : Lts.History State (Label Call)}
    (hgrow : env.writers = .growing) (hdep : Deployed w₀)
    (hrun : Lts.Run (Step env (Ledger.GrowsAt env.contractAddress) (exec env)) w₀ h w)
    (hi : i < w.pool.nextId) (hbought : (w.option i).status = .PURCHASED) :
    Exercisable env w i ↔ Payable w.pool (w.option i) := by
  obtain ⟨⟨hmin, hmax⟩, hoptions⟩ := sellable_of_run hdep hrun
  have ho := hoptions i hi
  have hex : w.pool.options.existsAt i := ((twoPhase_of_run hdep hrun).table i).mpr hi
  constructor
  · intro hexercise
    obtain ⟨hpool, hzero⟩ := ho.buyer hbought
    have hgrace : 0 < w.pool.gracePeriod := Nat.lt_of_lt_of_le (by decide) hmin
    obtain ⟨tx, hbuyer, hblock, hfails⟩ := hexercise.at_expiry hpool hzero hgrace
    exact exercise_stuck tx hbuyer hblock ho.expiry hmax hex hbought hfails
  · intro hpay
    obtain ⟨collateral, hcoll, -, hvalue⟩ := hpay.fits ho
    have hheld := (covered_of_run hdep hrun).lockedAmount_le hi (isLive_of_purchased _ hbought)
    exact exercisable_of_exchange hgrow (u64Add_of_lt hpay.1)
      (fun tx hbuyer hexpiry hgrace => exercise_eq hex hbought hbuyer hexpiry hgrace hvalue)
      (fun tx => exchange_fails hpay ho hvalue)
      fun tx htx hcan => exchange_succeeds (w := w.setStatus i .EXERCISED) hpay ho hvalue htx
        ⟨hcan.bitcoin, hcan.underlying, hcan.delivers, hcan.collects⟩ hheld

theorem exercisable_sold : Exercisable Testnet.env (Testnet.sold (10 ^ 18) 4) 1 := by
  obtain ⟨h, hrun⟩ := Testnet.run_sold (Ledger.GrowsAt Testnet.env.contractAddress)
    (s := 10 ^ 18) (a := 4) rfl
  have hiff := exercisable_iff rfl Testnet.deployed hrun (i := 1) (by decide) rfl
  exact hiff.mpr ⟨by decide, fun _ => by decide⟩

/-- A CALL with a strike of `2 ^ 64` satoshis is accepted and sold, and then every exercise is
refused, whatever the transaction pays. -/
theorem sold_call_unpayable :
    ∃ h w, Lts.Run (Step Testnet.env (Ledger.GrowsAt Testnet.env.contractAddress)
        (exec Testnet.env)) Testnet.world h w ∧
      Deployed Testnet.world ∧ 1 < w.pool.nextId ∧ (w.option 1).status = .PURCHASED ∧
      (w.option 1).expiryBlock = 1000 ∧ w.pool.gracePeriod = 144 ∧
      ∀ tx, tx.sender = (w.option 1).buyer → 1000 ≤ tx.block → tx.block < 1144 →
        exercise Testnet.env tx 1 w = .error (.revert "Strike value overflows u64") := by
  obtain ⟨h, hrun⟩ := Testnet.run_sold (Ledger.GrowsAt Testnet.env.contractAddress)
    (s := 2 ^ 64) (a := 10 ^ 18) rfl
  refine ⟨h, _, hrun, Testnet.deployed, by decide, rfl, rfl, rfl, ?_⟩
  intro tx hbuyer hexpiry hgrace
  have hvalue : strikeValue (2 ^ 64) (10 ^ 18) = .ok (2 ^ 64) := rfl
  rw [exercise_eq (by decide) rfl hbuyer hexpiry hgrace hvalue]
  rfl

end

end Frogop.BtcQuote
