import Frogop.Frontend.PoolService
import Frogop.Pool.OptionsPool.Roll

/-!
# The amounts of `RollModal` and `ExerciseModal`

Before a writer rolls an option, and before a buyer exercises one, the front end shows what will be
paid. It computes the amounts by itself, in `bigint`; `modals_charge` says that the contract then
charges the same.
-/

namespace Frogop.Frontend

open Outcome World OptionsPool
open Ledger (entry)
open PoolService (optionData)

/-- The fees of `PoolInfo`. -/
structure PoolInfo where
  cancelFeeBps : ℤ
  exerciseFeeBps : ℤ

/-- `(strike * amount) / 10n ** 18n`; the division of `bigint` truncates. -/
def fixedProduct (strike amount : ℤ) : ℤ := (strike * amount).tdiv (10 ^ 18)

/-- `feeBps > 0n ? (amount * feeBps + 9999n) / 10000n : 0n` -/
def ceilFee (amount feeBps : ℤ) : ℤ :=
  if 0 < feeBps then (amount * feeBps + 9999).tdiv 10000 else 0

/-- What `RollModal` computes from. -/
structure RollModal where
  option : OptionData
  poolInfo : PoolInfo
  currentBlock : Option ℤ
  parsedStrike : ℤ

namespace RollModal

variable (m : RollModal)

def isCall : Bool := m.option.optionType == 0

def oldCollateral : ℤ :=
  if m.isCall then m.option.underlyingAmount
  else fixedProduct m.option.strikePrice m.option.underlyingAmount

def newCollateral : ℤ :=
  if m.isCall then m.option.underlyingAmount
  else fixedProduct m.parsedStrike m.option.underlyingAmount

def isExpired : Bool := m.currentBlock.any fun block => decide (m.option.expiryBlock ≤ block)

def feeBps : ℤ := if m.isExpired then 0 else m.poolInfo.cancelFeeBps

def cancelFee : ℤ := ceilFee m.oldCollateral m.feeBps

def refundAfterFee : ℤ := m.oldCollateral - m.cancelFee

def netDelta : ℤ := m.newCollateral - m.refundAfterFee

def isTopUp : Bool := decide (0 < m.netDelta)

def isSurplus : Bool := decide (m.netDelta < 0)

end RollModal

/-- What `ExerciseModal` computes from. -/
structure ExerciseModal where
  option : OptionData
  poolInfo : PoolInfo

namespace ExerciseModal

variable (m : ExerciseModal)

def isCall : Bool := m.option.optionType == 0

def strikeValue : ℤ := fixedProduct m.option.strikePrice m.option.underlyingAmount

def feeBase : ℤ := if m.isCall then m.option.underlyingAmount else m.strikeValue

def exerciseFee : ℤ := ceilFee m.feeBase m.poolInfo.exerciseFeeBps

def payAmount : ℤ := if m.isCall then m.strikeValue else m.option.underlyingAmount

def receiveAmount : ℤ := m.feeBase - m.exerciseFee

end ExerciseModal

/-! ### The formulas on natural numbers -/

@[simp] lemma fixedProduct_natCast (strike amount : ℕ) :
    fixedProduct strike amount = (strike * amount / precision : ℕ) := by
  exact (Int.ofNat_tdiv (strike * amount) precision).symm

@[simp] lemma ceilFee_natCast {bps : ℕ} (amount : ℕ) (h : 0 < bps) :
    ceilFee amount bps = ((amount * bps + 9999) / 10000 : ℕ) := by
  rw [ceilFee, if_pos (by exact_mod_cast h)]
  exact (Int.ofNat_tdiv (amount * bps + 9999) 10000).symm

@[simp] lemma ceilFee_zero (amount : ℤ) : ceilFee amount 0 = 0 := if_neg (lt_irrefl 0)

/-- A fee is at most what it is taken from. -/
lemma ceilFee_le {amount : ℤ} (hamount : 0 ≤ amount) {bps : ℕ} (hbps : bps ≤ 10000) :
    0 ≤ ceilFee amount bps ∧ ceilFee amount bps ≤ amount := by
  lift amount to ℕ using hamount
  rcases Nat.eq_zero_or_pos bps with rfl | hpos
  · simp
  · rw [ceilFee_natCast amount hpos]
    exact ⟨Int.natCast_nonneg _, Int.ofNat_le.mpr (fee_le hbps)⟩

/-! ### Both sides of the collateral -/

section

variable {o : OptionRecord} {poolInfo : PoolInfo} {block : Option ℤ}
  {parsedStrike : ℤ} {strike collateral value fee : ℕ}

/-- The modals tell a CALL from a PUT by the type byte. -/
lemma optionData_isCall (o : OptionRecord) :
    ((optionData o).optionType == 0) = decide (o.optionType = .CALL) := by
  cases htype : o.optionType <;> simp [optionData, OptionType.toU8, htype]

/-- Both collaterals of `RollModal` and the fee base of `ExerciseModal` are computed so. -/
lemma collateral_eq (h : collateralAmount o.optionType strike o.underlyingAmount = .ok collateral) :
    (if (optionData o).optionType == 0 then ((optionData o).underlyingAmount : ℤ)
      else fixedProduct strike (optionData o).underlyingAmount) = collateral := by
  rw [optionData_isCall]
  cases htype : o.optionType with
  | CALL =>
    simp only [collateralAmount, htype, Except.ok.injEq] at h
    simp [optionData, h]
  | PUT =>
    simp only [collateralAmount, htype, strikeValue_eq_ok] at h
    simp [optionData, ← h.2]

lemma oldCollateral_eq (h : o.collateral = .ok collateral) :
    RollModal.oldCollateral ⟨optionData o, poolInfo, block, parsedStrike⟩ = collateral :=
  collateral_eq h

lemma newCollateral_eq
    (h : collateralAmount o.optionType strike o.underlyingAmount = .ok collateral) :
    RollModal.newCollateral ⟨optionData o, poolInfo, block, strike⟩ = collateral :=
  collateral_eq h

lemma feeBase_eq (h : o.collateral = .ok collateral) :
    ExerciseModal.feeBase ⟨optionData o, poolInfo⟩ = collateral :=
  collateral_eq h

lemma collateral_nonneg (o : OptionRecord) (strike : ℕ) :
    0 ≤ (if (optionData o).optionType == 0 then ((optionData o).underlyingAmount : ℤ)
      else fixedProduct strike (optionData o).underlyingAmount) := by
  split_ifs
  · exact Int.natCast_nonneg _
  · exact (fixedProduct_natCast _ _).symm ▸ Int.natCast_nonneg _

lemma cancelFee_eq (hbps : poolInfo.cancelFeeBps = cancelFeeBps)
    (hcoll : o.collateral = .ok collateral) {b : ℕ}
    (hfee : Frogop.cancelFee b o collateral = .ok fee) :
    RollModal.cancelFee ⟨optionData o, poolInfo, some (b : ℤ), parsedStrike⟩ = fee := by
  rw [RollModal.cancelFee, oldCollateral_eq hcoll]
  rw [Frogop.cancelFee] at hfee
  by_cases hexpired : o.expiryBlock ≤ b
  · rw [if_pos hexpired] at hfee
    cases hfee
    simp [RollModal.feeBps, RollModal.isExpired, optionData, hexpired]
  · rw [if_neg hexpired, ceilBps_eq_ok] at hfee
    have hcancel : RollModal.feeBps ⟨optionData o, poolInfo, some (b : ℤ), parsedStrike⟩
        = (cancelFeeBps : ℕ) := by
      simp [RollModal.feeBps, RollModal.isExpired, optionData, hexpired, hbps]
    rw [hcancel, ceilFee_natCast collateral (by decide), hfee.2]

lemma strikeValue_eq (h : Frogop.strikeValue o.strikePrice o.underlyingAmount = .ok value) :
    ExerciseModal.strikeValue ⟨optionData o, poolInfo⟩ = value := by
  rw [strikeValue_eq_ok] at h
  simp [ExerciseModal.strikeValue, optionData, ← h.2]

lemma payAmount_eq (h : Frogop.strikeValue o.strikePrice o.underlyingAmount = .ok value) :
    ExerciseModal.payAmount ⟨optionData o, poolInfo⟩ = exercisePrice o value := by
  simp only [ExerciseModal.payAmount, ExerciseModal.isCall, optionData_isCall, strikeValue_eq h]
  cases htype : o.optionType <;> simp [exercisePrice, htype, optionData]

lemma exerciseFee_eq (hbps : poolInfo.exerciseFeeBps = exerciseFeeBps)
    (hcoll : o.collateral = .ok collateral)
    (hfee : ceilBps collateral exerciseFeeBps = .ok fee) :
    ExerciseModal.exerciseFee ⟨optionData o, poolInfo⟩ = fee := by
  rw [ceilBps_eq_ok] at hfee
  rw [ExerciseModal.exerciseFee, feeBase_eq hcoll]
  dsimp only
  rw [hbps, ceilFee_natCast collateral (by decide), hfee.2]

/-- Whatever the option, and whether or not it can be exercised, the fee fits. -/
lemma exerciseFee_le (hbps : poolInfo.exerciseFeeBps = exerciseFeeBps) :
    0 ≤ ExerciseModal.exerciseFee ⟨optionData o, poolInfo⟩ ∧
      ExerciseModal.exerciseFee ⟨optionData o, poolInfo⟩
        ≤ ExerciseModal.feeBase ⟨optionData o, poolInfo⟩ := by
  have hbase : 0 ≤ ExerciseModal.feeBase ⟨optionData o, poolInfo⟩ :=
    collateral_nonneg o o.strikePrice
  rw [ExerciseModal.exerciseFee]
  dsimp only
  rw [hbps]
  exact ceilFee_le hbase (by decide)

/-- Nor does it matter when, or for which strike, the option would be rolled. -/
lemma cancelFee_le (hbps : poolInfo.cancelFeeBps = cancelFeeBps) :
    0 ≤ RollModal.cancelFee ⟨optionData o, poolInfo, block, parsedStrike⟩ ∧
      RollModal.cancelFee ⟨optionData o, poolInfo, block, parsedStrike⟩
        ≤ RollModal.oldCollateral ⟨optionData o, poolInfo, block, parsedStrike⟩ := by
  have hold : 0 ≤ RollModal.oldCollateral ⟨optionData o, poolInfo, block, parsedStrike⟩ :=
    collateral_nonneg o o.strikePrice
  rw [RollModal.cancelFee, RollModal.feeBps]
  split_ifs
  · simpa using hold
  · dsimp only
    rw [hbps]
    exact ceilFee_le hold (by decide)

end

/-! ### What the contract charges -/

section

variable {σ : Type} {env : Env} {w : World σ} {caller writer token price : Address} {l' : Ledger}

/-- `amount` in the books of account `a` for `token`; a negative amount is a debit. -/
def signedEntry (token a : Address) (amount : ℤ) (t b : Address) : ℤ :=
  if t = token ∧ b = a then amount else 0

/-- The payments of a roll are those the modal shows, and they are all that moves. -/
structure RollModal.Charged (env : Env) (w : World σ) (caller token : Address) (m : RollModal)
    (l' : Ledger) : Prop where
  fee_nonneg : 0 ≤ m.cancelFee
  payments : ∃ l, PaysFee env w.ledger token w.pool.feeRecipient m.cancelFee.toNat l ∧
    (m.isTopUp → l.transferFrom token env.contractAddress caller env.contractAddress
      m.netDelta.toNat = .ok l') ∧
    (m.isSurplus → l.transferFrom token env.contractAddress env.contractAddress caller
      (-m.netDelta).toNat = .ok l') ∧
    (m.isTopUp = false → m.isSurplus = false → l = l')
  balances : ∀ t a, (l'.balanceOf t a : ℤ) = w.ledger.balanceOf t a
    - signedEntry token caller m.netDelta t a
    + signedEntry token w.pool.feeRecipient m.cancelFee t a
    + signedEntry token env.contractAddress (m.netDelta - m.cancelFee) t a

/-- The payments of an exercise are those the modal shows, and they are all that moves. -/
structure ExerciseModal.Charged (env : Env) (w : World σ) (caller writer price token : Address)
    (m : ExerciseModal) (l' : Ledger) : Prop where
  nonneg : 0 ≤ m.payAmount ∧ 0 ≤ m.receiveAmount ∧ 0 ≤ m.exerciseFee
  payments : ∃ l₁ l₂,
    w.ledger.transferFrom price env.contractAddress caller writer m.payAmount.toNat = .ok l₁ ∧
    l₁.transferFrom token env.contractAddress env.contractAddress caller m.receiveAmount.toNat
      = .ok l₂ ∧
    l₂.transferFrom token env.contractAddress env.contractAddress w.pool.feeRecipient
      m.exerciseFee.toNat = .ok l'
  balances : ∀ t a, (l'.balanceOf t a : ℤ) = w.ledger.balanceOf t a
    - signedEntry price caller m.payAmount t a + signedEntry price writer m.payAmount t a
    - signedEntry token env.contractAddress m.feeBase t a
    + signedEntry token caller m.receiveAmount t a
    + signedEntry token w.pool.feeRecipient m.exerciseFee t a

lemma entry_natCast (token a t b : Address) (amount : ℕ) :
    (entry token a amount t b : ℤ) = signedEntry token a amount t b := by
  rw [entry, signedEntry]
  split_ifs <;> rfl

lemma signedEntry_sub (token a t b : Address) (m n : ℤ) :
    signedEntry token a (m - n) t b = signedEntry token a m t b - signedEntry token a n t b := by
  unfold signedEntry
  split_ifs <;> simp

lemma rollModal_charged {m : RollModal} {m₁ : Ledger} {fee old new : ℕ} (hle : fee ≤ old)
    (hfee : m.cancelFee = fee) (hold : m.oldCollateral = old) (hnew : m.newCollateral = new)
    (hnet : Net env w.ledger token caller w.pool.feeRecipient fee (old - fee) new m₁ l') :
    m.Charged env w caller token l' := by
  have hdelta : m.netDelta = new - (old - fee : ℕ) := by
    rw [RollModal.netDelta, RollModal.refundAfterFee, hfee, hold, hnew, Nat.cast_sub hle]
  obtain ⟨htaken, hgiven, hkept⟩ := hnet.settled
  refine ⟨hfee ▸ Int.natCast_nonneg fee, ⟨m₁, ?_, fun htop => ?_, fun hsurplus => ?_,
    fun hnot hnot' => ?_⟩, fun t a => ?_⟩
  · rw [hfee, Int.toNat_natCast]
    exact hnet.paid
  · rw [RollModal.isTopUp, decide_eq_true_eq] at htop
    have hamount : m.netDelta.toNat = new - (old - fee) := by omega
    rw [hamount]
    exact htaken (by omega)
  · rw [RollModal.isSurplus, decide_eq_true_eq] at hsurplus
    have hamount : (-m.netDelta).toNat = old - fee - new := by omega
    rw [hamount]
    exact hgiven (by omega)
  · rw [RollModal.isTopUp, decide_eq_false_iff_not] at hnot
    rw [RollModal.isSurplus, decide_eq_false_iff_not] at hnot'
    exact hkept (by omega)
  · have hpaid := congrArg (Nat.cast (R := ℤ)) (hnet.paid.entries t a)
    have hsettled := congrArg (Nat.cast (R := ℤ)) (hnet.settled.entries t a)
    push_cast at hpaid hsettled
    simp only [entry_natCast] at hpaid hsettled
    rw [hfee, hdelta]
    simp only [signedEntry_sub]
    omega

lemma exerciseModal_charged {m : ExerciseModal} {l₁ l₂ : Ledger} {pay fee collateral : ℕ}
    (hle : fee ≤ collateral) (hpay : m.payAmount = pay) (hfee : m.exerciseFee = fee)
    (hbase : m.feeBase = collateral)
    (hl₁ : w.ledger.transferFrom price env.contractAddress caller writer pay = .ok l₁)
    (hl₂ : l₁.transferFrom token env.contractAddress env.contractAddress caller
      (collateral - fee) = .ok l₂)
    (hl₃ : l₂.transferFrom token env.contractAddress env.contractAddress w.pool.feeRecipient fee
      = .ok l') : m.Charged env w caller writer price token l' := by
  have hreceive : m.receiveAmount = (collateral - fee : ℕ) := by
    rw [ExerciseModal.receiveAmount, hbase, hfee, Nat.cast_sub hle]
  refine ⟨⟨?_, ?_, ?_⟩, ⟨l₁, l₂, ?_, ?_, ?_⟩, fun t a => ?_⟩
  · exact hpay ▸ Int.natCast_nonneg pay
  · exact hreceive ▸ Int.natCast_nonneg _
  · exact hfee ▸ Int.natCast_nonneg fee
  · rw [hpay, Int.toNat_natCast]
    exact hl₁
  · rw [hreceive, Int.toNat_natCast]
    exact hl₂
  · rw [hfee, Int.toNat_natCast]
    exact hl₃
  · have hpaid := congrArg (Nat.cast (R := ℤ)) (Ledger.transferFrom_entries hl₁ t a)
    have hgiven := congrArg (Nat.cast (R := ℤ)) (Ledger.transferFrom_entries hl₂ t a)
    have hcharged := congrArg (Nat.cast (R := ℤ)) (Ledger.transferFrom_entries hl₃ t a)
    push_cast at hpaid hgiven hcharged
    simp only [entry_natCast, Nat.cast_sub hle, signedEntry_sub] at hpaid hgiven hcharged
    rw [hpay, hfee, hbase, hreceive]
    simp only [Nat.cast_sub hle, signedEntry_sub]
    omega

end

/-- When the contract goes through with a roll or an exercise, it moves exactly the amounts that the
modal showed, be it a CALL or a PUT, before or after the expiry block. No fee exceeds what it is
taken from. -/
theorem modals_charge {σ : Type} (env : Env) (tx : Tx) (w : World σ) (optionId : ℕ)
    (poolInfo : PoolInfo) (hcancel : poolInfo.cancelFeeBps = cancelFeeBps)
    (hexercise : poolInfo.exerciseFeeBps = exerciseFeeBps) :
    (∀ (newStrike newExpiry newPremium : ℕ) (r : Response) (w' : World σ),
      rollOption env tx optionId newStrike newExpiry newPremium w = .ok (r, w') →
      RollModal.Charged env w (w.option optionId).writer
        (w.pool.collateralToken (w.option optionId).optionType)
        ⟨optionData (w.option optionId), poolInfo, some (tx.block : ℤ), newStrike⟩ w'.ledger) ∧
    (∀ (r : Response) (w' : World σ), exercise env tx optionId w = .ok (r, w') →
      ExerciseModal.Charged env w (w.option optionId).buyer (w.option optionId).writer
        (priceToken w.pool (w.option optionId).optionType)
        (w.pool.collateralToken (w.option optionId).optionType)
        ⟨optionData (w.option optionId), poolInfo⟩ w'.ledger) ∧
    ∀ (o : OptionRecord) (block : Option ℤ) (parsedStrike : ℤ),
      RollModal.cancelFee ⟨optionData o, poolInfo, block, parsedStrike⟩
        ≤ RollModal.oldCollateral ⟨optionData o, poolInfo, block, parsedStrike⟩ ∧
      ExerciseModal.exerciseFee ⟨optionData o, poolInfo⟩
        ≤ ExerciseModal.feeBase ⟨optionData o, poolInfo⟩ := by
  refine ⟨?_, ?_, ?_⟩
  · intro s e p r w' h
    obtain ⟨old, fee, new, m₁, m₂, hroll, hnet, -, rfl⟩ := rollOption_iff.mp h
    rw [← hroll.writer]
    exact rollModal_charged hroll.fee_le (cancelFee_eq hcancel hroll.oldCollateral hroll.feeOf)
      (oldCollateral_eq hroll.oldCollateral) (newCollateral_eq hroll.newCollateral) hnet
  · intro r w' h
    obtain ⟨value, collateral, fee, l₁, l₂, l₃, -, -, hbuyer, -, -, hvalue, hcoll, hfee, hle, hl₁,
      hl₂, hl₃, -, rfl⟩ := exercise_ok h
    rw [← hbuyer]
    exact exerciseModal_charged hle (payAmount_eq hvalue) (exerciseFee_eq hexercise hcoll hfee)
      (feeBase_eq hcoll) hl₁ hl₂ hl₃
  · intro o block parsedStrike
    exact ⟨(cancelFee_le hcancel).2, (exerciseFee_le hexercise).2⟩

/-- A PUT over 200 rolled to a PUT over 300: the writer pays a fee of 2, and tops the rest up. -/
theorem modals_charge_put : ∃ w' : State,
    rollOption OptionsPool.Testnet.env (Testnet.tx 10 200) 0 (3 * 10 ^ 18) 2000 6
      OptionsPool.Testnet.putWritten = .ok ([.u256 1], w') ∧
    RollModal.Charged OptionsPool.Testnet.env OptionsPool.Testnet.putWritten
      (OptionsPool.Testnet.putWritten.option 0).writer
      (OptionsPool.Testnet.putWritten.pool.collateralToken
        (OptionsPool.Testnet.putWritten.option 0).optionType)
      ⟨optionData (OptionsPool.Testnet.putWritten.option 0), ⟨100, 10⟩, some (200 : ℕ),
        (3 * 10 ^ 18 : ℕ)⟩ w'.ledger ∧
    RollModal.netDelta
      ⟨optionData (OptionsPool.Testnet.putWritten.option 0), ⟨100, 10⟩, some (200 : ℕ),
        (3 * 10 ^ 18 : ℕ)⟩ = 102 := by
  have hroll : exec OptionsPool.Testnet.env (Testnet.tx 10 200) (.rollOption 0 (3 * 10 ^ 18) 2000 6)
      OptionsPool.Testnet.putWritten = .ok ([.u256 1], _) := Testnet.exec_next rfl
  exact ⟨_, hroll, (modals_charge OptionsPool.Testnet.env (Testnet.tx 10 200)
    OptionsPool.Testnet.putWritten 0 ⟨100, 10⟩ rfl rfl).1 _ _ _ _ _ hroll, by decide⟩

end Frogop.Frontend
