import Frogop.Pool.BtcUnderlying.Solvency
import Frogop.Pool.Exercise

/-!
# Exercising a sold option of `OptionsPoolBtcUnderlying`

Writing a CALL checks the amount and the writer's key and leaves the strike value alone; writing a
PUT does the opposite. `Payable` says for which sold options that leaves nothing but the payment
to decide the exercise.
-/

namespace Frogop.BtcUnderlying

open Outcome Custody World

abbrev PaymentError : Revert → Prop := Frogop.PaymentError "BTC underlying payment not found"

/-- Who pays the strike value of an option, in premium tokens. -/
def payer (env : Env) (tx : Tx) (o : OptionRecord) : Address :=
  match o.optionType with
  | .CALL => tx.sender
  | .PUT => env.contractAddress

/-- Who gets what the fee leaves of it. -/
def payee (tx : Tx) (o : OptionRecord) : Address :=
  match o.optionType with
  | .CALL => o.writer
  | .PUT => tx.sender

/-- The payment for an exercise, and a premium token that lets it through. -/
structure CanPay (env : Env) (tx : Tx) (w : State) (o : OptionRecord) : Prop where
  tokens : o.optionType = .CALL →
    o.strikePrice * o.underlyingAmount / precision
      ≤ w.ledger.balanceOf w.pool.premiumToken tx.sender ∧
    o.strikePrice * o.underlyingAmount / precision
      ≤ w.ledger.allowance w.pool.premiumToken tx.sender env.contractAddress
  bitcoin : o.optionType = .PUT → ∃ writerPub, w.pool.registeredPubkey o.writer = .ok writerPub ∧
    ∃ output ∈ tx.outputs, Bridge.Pays env w.bridge
      (env.sha256 (env.csvTimelock writerPub 6)).val o.underlyingAmount output
  delivers : w.ledger.refuses w.pool.premiumToken (payer env tx o) (payee tx o) = false
  collects : w.ledger.refuses w.pool.premiumToken (payer env tx o) w.pool.feeRecipient = false

/-- The buyer of the option can exercise it at every block of the grace period. -/
abbrev Exercisable (env : Env) (w : State) (i : ℕ) : Prop :=
  Frogop.Exercisable (exercise env) "BTC underlying payment not found" (CanPay env · w) env w i

/-- The writer's key is registered, and can be read. -/
def HasKey (p : PoolStorage) (writer : Address) : Prop :=
  ∃ writerPub, p.registeredPubkey writer = .ok writerPub ∧ writerPub.length = 33

/-- The end of the grace period is a block number; the strike value of a CALL can be computed; the
writer of a PUT has a key, and its amount is one of satoshis. -/
structure Payable (p : PoolStorage) (o : OptionRecord) : Prop where
  graceEnd : o.expiryBlock + p.gracePeriod < u64Size
  value : o.optionType = .CALL → o.strikePrice * o.underlyingAmount < u256Size
  key : o.optionType = .PUT → HasKey p o.writer
  amount : o.optionType = .PUT → o.underlyingAmount < u64Size

section

variable {env : Env} {tx : Tx} {w : State} {i value : ℕ} {o : OptionRecord}

/-- The strike value of a PUT was computed when it was written. -/
lemma Sellable.value_fits (ho : Sellable env o) (htype : o.optionType = .PUT) :
    o.strikePrice * o.underlyingAmount < u256Size := by
  obtain ⟨collateral, hcoll⟩ := ho.collateral
  simp only [OptionRecord.collateral, collateralAmount, htype, strikeValue_eq_ok] at hcoll
  exact hcoll.1

lemma Payable.value_fits (hpay : Payable w.pool o) (ho : Sellable env o) :
    o.strikePrice * o.underlyingAmount < u256Size := by
  cases htype : o.optionType with
  | CALL => exact hpay.value htype
  | PUT => exact ho.value_fits htype

/-! ### Exchanging -/

lemma exerciseCall_fails (hgrow : env.writers = .growing) (hfits : value * 100 + 9999 < u256Size) :
    FailsOnly PaymentError (exerciseCall env tx o value w) := by
  obtain ⟨fee, hfee, hle⟩ := exerciseFee_of_fits hfits
  simp [exerciseCall, hfee, SafeMath.sub_eq_ok.mpr ⟨hle, rfl⟩, Frogop.PaymentError, hgrow]

lemma exercisePut_fails (hkey : HasKey w.pool o.writer) (hamount : o.underlyingAmount < u64Size)
    (hfits : value * 100 + 9999 < u256Size) :
    FailsOnly PaymentError (exercisePut env tx o value w) := by
  obtain ⟨writerPub, hpubkey, hlen⟩ := hkey
  obtain ⟨fee, hfee, hle⟩ := exerciseFee_of_fits hfits
  rw [exercisePut, hpubkey, ok_bind, require_of hlen, ok_bind, require_of hamount, ok_bind,
    queryCsvScriptHash_eq hlen (by decide) (by decide), ok_bind]
  refine .seq (failsOnly_queryVerifyBtcOutput hamount) fun verified _ => ?_
  refine .guard (.inl rfl) fun _ => ?_
  simp [hfee, SafeMath.sub_eq_ok.mpr ⟨hle, rfl⟩, Frogop.PaymentError]

lemma exchange_fails (hgrow : env.writers = .growing) (hpay : Payable w.pool o)
    (hvalue : strikeValue o.strikePrice o.underlyingAmount = .ok value) :
    FailsOnly PaymentError (exchange env tx o value w) := by
  have hfits := strikeValue_fits hvalue
  rw [exchange]
  cases htype : o.optionType with
  | CALL => exact exerciseCall_fails hgrow hfits
  | PUT => exact exercisePut_fails (hpay.key htype) (hpay.amount htype) hfits

/-- The strike value is paid in two parts. -/
lemma pays_value {src dst : Address} {fee : ℕ} (hle : fee ≤ value)
    (hdelivers : w.ledger.refuses w.pool.premiumToken src dst = false)
    (hcollects : w.ledger.refuses w.pool.premiumToken src w.pool.feeRecipient = false)
    (hallow : src = env.contractAddress ∨
      value ≤ w.ledger.allowance w.pool.premiumToken src env.contractAddress)
    (hbal : value ≤ w.ledger.balanceOf w.pool.premiumToken src) :
    ∃ l₁ l₂, w.ledger.transferFrom w.pool.premiumToken env.contractAddress src dst (value - fee)
        = .ok l₁ ∧
      l₁.transferFrom w.pool.premiumToken env.contractAddress src w.pool.feeRecipient fee
        = .ok l₂ := by
  apply Ledger.transferFrom_twice hdelivers hcollects
  · rwa [Nat.sub_add_cancel hle]
  · rwa [Nat.sub_add_cancel hle]

lemma exerciseCall_succeeds (hgrow : env.writers = .growing)
    (hfits : value * 100 + 9999 < u256Size)
    (hdelivers : w.ledger.refuses w.pool.premiumToken tx.sender o.writer = false)
    (hcollects : w.ledger.refuses w.pool.premiumToken tx.sender w.pool.feeRecipient = false)
    (hallow : value ≤ w.ledger.allowance w.pool.premiumToken tx.sender env.contractAddress)
    (hbal : value ≤ w.ledger.balanceOf w.pool.premiumToken tx.sender) :
    ∃ paid, exerciseCall env tx o value w = .ok paid := by
  obtain ⟨fee, hfee, hle⟩ := exerciseFee_of_fits hfits
  obtain ⟨l₁, l₂, hl₁, hl₂⟩ := pays_value hle hdelivers hcollects (.inr hallow) hbal
  simp only [exerciseCall, bind_eq_ok, SafeMath.sub_eq_ok, transferFrom_eq_ok, emit_eq_ok]
  exact ⟨_, fee, hfee, _, ⟨hle, rfl⟩, _, ⟨l₁, hl₁, rfl⟩, _, ⟨l₂, hl₂, rfl⟩, _,
    ⟨.inl hgrow, rfl⟩, rfl⟩

lemma exercisePut_succeeds {writerPub : List UInt8} {output : TxOutput}
    (hfits : value * 100 + 9999 < u256Size)
    (hpubkey : w.pool.registeredPubkey o.writer = .ok writerPub) (hlen : writerPub.length = 33)
    (hamount : o.underlyingAmount < u64Size) (hmem : output ∈ tx.outputs)
    (hpays : Bridge.Pays env w.bridge (env.sha256 (env.csvTimelock writerPub 6)).val
      o.underlyingAmount output)
    (hdelivers : w.ledger.refuses w.pool.premiumToken env.contractAddress tx.sender = false)
    (hcollects : w.ledger.refuses w.pool.premiumToken env.contractAddress w.pool.feeRecipient
      = false)
    (hheld : value ≤ w.ledger.heldBy env.contractAddress w.pool.premiumToken) :
    ∃ paid, exercisePut env tx o value w = .ok paid := by
  obtain ⟨bridge, hverified⟩ := queryVerifyBtcOutput_of_pays (w := w) hamount hmem hpays
  obtain ⟨fee, hfee, hle⟩ := exerciseFee_of_fits hfits
  obtain ⟨l₁, l₂, hl₁, hl₂⟩ := pays_value hle hdelivers hcollects (.inl rfl) hheld
  rw [exercisePut, hpubkey, ok_bind, require_of hlen, ok_bind, require_of hamount, ok_bind,
    queryCsvScriptHash_eq hlen (by decide) (by decide), ok_bind, hverified, ok_bind]
  simp only [bind_eq_ok, require_eq_ok, SafeMath.sub_eq_ok, transfer_eq_ok]
  exact ⟨_, (), trivial, fee, hfee, _, ⟨hle, rfl⟩, _, ⟨l₁, hl₁, rfl⟩, _, ⟨l₂, hl₂, rfl⟩, rfl⟩

lemma exchange_succeeds (hgrow : env.writers = .growing) (hpay : Payable w.pool o)
    (hvalue : strikeValue o.strikePrice o.underlyingAmount = .ok value)
    (hcan : CanPay env tx w o)
    (hheld : o.optionType = .PUT →
      value ≤ w.ledger.heldBy env.contractAddress w.pool.premiumToken) :
    ∃ paid, exchange env tx o value w = .ok paid := by
  have hfits := strikeValue_fits hvalue
  have hdelivers := hcan.delivers
  have hcollects := hcan.collects
  rw [exchange]
  cases htype : o.optionType with
  | CALL =>
    obtain ⟨-, rfl⟩ := strikeValue_eq_ok.mp hvalue
    obtain ⟨hbal, hallow⟩ := hcan.tokens htype
    simp only [payer, payee, htype] at hdelivers hcollects
    exact exerciseCall_succeeds hgrow hfits hdelivers hcollects hallow hbal
  | PUT =>
    obtain ⟨writerPub, hpubkey, output, hmem, hpays⟩ := hcan.bitcoin htype
    obtain ⟨pubkey, hread, hlen⟩ := hpay.key htype
    obtain rfl : pubkey = writerPub := Except.ok.inj (hread.symm.trans hpubkey)
    simp only [payer, payee, htype] at hdelivers hcollects
    exact exercisePut_succeeds hfits hread hlen (hpay.amount htype) hmem hpays hdelivers hcollects
      (hheld htype)

/-! ### Exercising -/

/-- After its guards an exercise is the exchange and the event. -/
lemma exercise_eq (hex : w.pool.options.existsAt i) (hbought : (w.option i).status = .PURCHASED)
    (hbuyer : tx.sender = (w.option i).buyer) (hexpiry : (w.option i).expiryBlock ≤ tx.block)
    (hgrace : tx.block < w.pool.graceEnd (w.option i))
    (hvalue : strikeValue (w.option i).strikePrice (w.option i).underlyingAmount = .ok value) :
    exercise env tx i w = exchange env tx (w.option i) value (w.setStatus i .EXERCISED) >>=
      afterExchange env (w.option i) value := by
  simp only [exercise, require_of hex, require_of hbought, require_of hbuyer, require_of hexpiry,
    require_of hgrace, ok_bind, hvalue]
  rfl

/-- A PUT whose exchange can only fail for the payment has a key to pay to and an amount to pay. -/
lemma put_of_fails (hfails : FailsOnly PaymentError (exercisePut env tx o value w)) :
    HasKey w.pool o.writer ∧ o.underlyingAmount < u64Size := by
  by_cases hkey : HasKey w.pool o.writer
  · refine ⟨hkey, ?_⟩
    obtain ⟨writerPub, hpubkey, hlen⟩ := hkey
    by_contra hlarge
    rw [exercisePut, hpubkey, ok_bind, require_of hlen, ok_bind, require_of_not hlarge, error_bind,
      failsOnly_error] at hfails
    simp [Frogop.PaymentError] at hfails
  · exfalso
    by_cases hslot : ∃ b ∈ w.pool.pubkeys o.writer, b ≠ 0
    · have hpubkey : w.pool.registeredPubkey o.writer
          = .ok ((w.pool.pubkeys o.writer).take 33) := by
        rw [PoolStorage.registeredPubkey, require_of hslot]
        rfl
      have hlen : ¬ ((w.pool.pubkeys o.writer).take 33).length = 33 :=
        fun hlen => hkey ⟨_, hpubkey, hlen⟩
      rw [exercisePut, hpubkey, ok_bind, require_of_not hlen, error_bind, failsOnly_error] at hfails
      simp [Frogop.PaymentError] at hfails
    · rw [exercisePut, PoolStorage.registeredPubkey, require_of_not hslot, error_bind, error_bind,
        failsOnly_error] at hfails
      simp [Frogop.PaymentError] at hfails

/-- An option that is not payable cannot be exercised at its expiry. -/
lemma payable_of_fails (tx : Tx) (hbuyer : tx.sender = (w.option i).buyer)
    (hexpiry : tx.block = (w.option i).expiryBlock) (ho : Sellable env (w.option i))
    (hgrace : w.pool.gracePeriod ≤ maxGracePeriodBlocks) (hex : w.pool.options.existsAt i)
    (hbought : (w.option i).status = .PURCHASED)
    (hfails : FailsOnly PaymentError (exercise env tx i w)) : Payable w.pool (w.option i) := by
  have hwindow : tx.block < w.pool.graceEnd (w.option i) := by
    by_contra hout
    simp only [exercise, require_of hex, require_of hbought, require_of hbuyer,
      require_of hexpiry.ge, require_of_not hout, ok_bind, error_bind, failsOnly_error] at hfails
    simp [Frogop.PaymentError] at hfails
  have hproduct : (w.option i).strikePrice * (w.option i).underlyingAmount < u256Size := by
    by_contra hover
    have herror : strikeValue (w.option i).strikePrice (w.option i).underlyingAmount
        = .error .safeMath := by
      rw [strikeValue, SafeMath.mul, if_neg hover, error_bind]
    simp only [exercise, require_of hex, require_of hbought, require_of hbuyer,
      require_of hexpiry.ge, require_of hwindow, ok_bind, herror, error_bind,
      failsOnly_error] at hfails
    simp [Frogop.PaymentError] at hfails
  have hput : (w.option i).optionType = .PUT →
      HasKey w.pool (w.option i).writer ∧ (w.option i).underlyingAmount < u64Size := by
    intro htype
    obtain ⟨value, hvalue⟩ : ∃ value, strikeValue (w.option i).strikePrice
        (w.option i).underlyingAmount = .ok value := ⟨_, strikeValue_eq_ok.mpr ⟨hproduct, rfl⟩⟩
    rw [exercise_eq hex hbought hbuyer hexpiry.ge hwindow hvalue, failsOnly_bind] at hfails
    obtain ⟨hpay, -⟩ := hfails
    rw [exchange, htype] at hpay
    have hkey := put_of_fails hpay
    exact hkey
  exact ⟨PoolStorage.graceEnd_noWrap hgrace ho.expiry (hexpiry ▸ hwindow), fun _ => hproduct,
    fun htype => (hput htype).1, fun htype => (hput htype).2⟩

/-- A sold option can be exercised by its buyer in every block of the grace period exactly when it
is payable. -/
theorem sold_exercisable_iff {w₀ : State} {h : Lts.History State (Label Call)}
    (hgrow : env.writers = .growing) (hdep : Deployed w₀)
    (hrun : Lts.Run (Step env (Ledger.GrowsAt env.contractAddress) (exec env)) w₀ h w)
    (hi : i < w.pool.nextId) (hbought : (w.option i).status = .PURCHASED) :
    Exercisable env w i ↔ Payable w.pool (w.option i) := by
  have hinv := lifeInv_of_run hdep hrun
  have ho := hinv.options i hi
  have hex : w.pool.options.existsAt i := (hinv.table i).mpr hi
  constructor
  · intro hexercise
    obtain ⟨hpool, hzero⟩ := ho.buyer hbought
    have hgrace : 0 < w.pool.gracePeriod := Nat.lt_of_lt_of_le (by decide) hinv.graceMin
    obtain ⟨tx, hbuyer, hblock, hfails⟩ := hexercise.at_expiry hpool hzero hgrace
    exact payable_of_fails tx hbuyer hblock ho hinv.graceMax hex hbought hfails
  · intro hpay
    have hvalue := strikeValue_eq_ok.mpr ⟨hpay.value_fits ho, rfl⟩
    have hpay' : Payable (w.setStatus i .EXERCISED).pool (w.option i) :=
      ⟨hpay.graceEnd, hpay.value, hpay.key, hpay.amount⟩
    have hheld : (w.option i).optionType = .PUT →
        (w.option i).strikePrice * (w.option i).underlyingAmount / precision
          ≤ w.ledger.heldBy env.contractAddress w.pool.premiumToken := by
      intro htype
      have hlocked := (covered_of_run hdep hrun).lockedAmount_le hi
        (isLive_of_put htype (.inr hbought))
      rwa [OptionRecord.lockedAmount, htype] at hlocked
    exact exercisable_of_exchange hgrow (u64Add_of_lt hpay.graceEnd)
      (fun tx hbuyer hexpiry hgrace => exercise_eq hex hbought hbuyer hexpiry hgrace hvalue)
      (fun tx => exchange_fails hgrow hpay' hvalue)
      fun tx _ hcan => exchange_succeeds (w := w.setStatus i .EXERCISED) hgrow hpay' hvalue
        ⟨hcan.tokens, hcan.bitcoin, hcan.delivers, hcan.collects⟩ hheld

set_option maxRecDepth 2000 in
theorem call_exercisable : Exercisable Testnet.env (Testnet.sold (10 ^ 18)) 0 := by
  have hrun := Frogop.Testnet.run_after (Ledger.GrowsAt Testnet.env.contractAddress)
    (Testnet.selling_fromAccount (10 ^ 18) Testnet.buyerPub)
    (by rfl : (replay (exec Testnet.env) Testnet.world _).isOk = true)
  have hiff := sold_exercisable_iff rfl Testnet.deployed hrun (by decide : 0 < _) rfl
  exact hiff.mpr ⟨by decide, fun _ => by decide, by rintro ⟨⟩, by rintro ⟨⟩⟩

set_option maxRecDepth 2000 in
/-- Two sold options that cannot be exercised: a PUT whose writer never registered a key, in all of
its grace period, and a CALL whose strike value overflows before the division, although the buyer
has it. -/
theorem sold_unexercisable :
    (∃ h w, Lts.Run (Step Testnet.env (Ledger.GrowsAt Testnet.env.contractAddress)
        (exec Testnet.env)) Testnet.world h w ∧
      Deployed Testnet.world ∧ 0 < w.pool.nextId ∧ (w.option 0).optionType = .PUT ∧
      (w.option 0).status = .PURCHASED ∧ (w.option 0).expiryBlock = 1000 ∧
      w.pool.gracePeriod = 144 ∧
      ∀ tx, tx.sender = (w.option 0).buyer → 1000 ≤ tx.block → tx.block < 1144 →
        exercise Testnet.env tx 0 w = .error (.revert "No pubkey registered")) ∧
    ∃ h w, Lts.Run (Step Testnet.env (Ledger.GrowsAt Testnet.env.contractAddress)
        (exec Testnet.env)) Testnet.world h w ∧
      Deployed Testnet.world ∧ 0 < w.pool.nextId ∧ (w.option 0).optionType = .CALL ∧
      (w.option 0).status = .PURCHASED ∧ (w.option 0).buyer = Frogop.Testnet.account 11 ∧
      (w.option 0).expiryBlock = 1000 ∧ w.pool.gracePeriod = 144 ∧
      CanPay Testnet.env (Frogop.Testnet.tx 11 1000) w (w.option 0) ∧
      exercise Testnet.env (Frogop.Testnet.tx 11 1000) 0 w = .error .safeMath := by
  constructor
  · have hrun := Frogop.Testnet.run_after (Ledger.GrowsAt Testnet.env.contractAddress)
      Testnet.sellingPut_fromAccount
      (by rfl : (replay (exec Testnet.env) Testnet.world _).isOk = true)
    refine ⟨_, _, hrun, Testnet.deployed, by decide, rfl, rfl, rfl, rfl, ?_⟩
    intro tx hbuyer hexpiry hgrace
    have hvalue : strikeValue (10 ^ 18) 4 = .ok 4 := rfl
    rw [exercise_eq (by decide) rfl hbuyer hexpiry hgrace hvalue]
    rfl
  · have hrun := Frogop.Testnet.run_after (Ledger.GrowsAt Testnet.env.contractAddress)
      (Testnet.selling_fromAccount (2 ^ 254) Testnet.buyerPub)
      (by rfl : (replay (exec Testnet.env) Testnet.world _).isOk = true)
    refine ⟨_, _, hrun, Testnet.deployed, by decide, rfl, rfl, rfl, rfl, rfl, ?_, rfl⟩
    exact ⟨fun _ => ⟨by decide, by decide⟩, by rintro ⟨⟩, rfl, rfl⟩

end

end Frogop.BtcUnderlying
