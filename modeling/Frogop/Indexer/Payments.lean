import Frogop.Indexer.Mirror
import Frogop.Pool.OptionsPool.Spec

/-!
# The token transfers of a call

What a successful call moves, transfer by transfer, and which of the transfers are fees. The fee
rows of the indexer are compared with these fees.
-/

namespace Frogop

open Outcome World Indexer

/-- A token transfer made by a pool. A fee names the option and the operation it is for. -/
structure Payment where
  token : Address
  payer : Address
  payee : Address
  amount : ℕ
  charge : Option (ℕ × FeeEventType)

/-- The fee that a payment is, unless it is one of nothing. -/
def Payment.fees (p : Payment) : List Fee :=
  match p.charge with
  | some (optionId, eventType) => recorded optionId eventType p.amount
  | none => []

def feesOf (ps : List Payment) : List Fee := ps.flatMap Payment.fees

/-- `self` makes the payments one after the other. -/
inductive Pays (self : Address) : Ledger → List Payment → Ledger → Prop
  | nil {l : Ledger} : Pays self l [] l
  | cons {l l₁ l₂ : Ledger} {p : Payment} {ps : List Payment}
      (h : l.transferFrom p.token self p.payer p.payee p.amount = .ok l₁)
      (hps : Pays self l₁ ps l₂) :
      Pays self l (p :: ps) l₂

/-- A computed amount, `0` where it cannot be computed. -/
def amountOf : Except Revert ℕ → ℕ
  | .ok n => n
  | .error _ => 0

/-! ### What the methods that pools share pay -/

/-- The collateral of a new option. -/
def writePayments (env : Env) (tx : Tx) (p : PoolStorage) (optionType : OptionType)
    (strikePrice underlyingAmount : ℕ) : List Payment :=
  [⟨p.collateralToken optionType, tx.sender, env.contractAddress,
    amountOf (collateralAmount optionType strikePrice underlyingAmount), none⟩]

/-- The fee for taking back or rolling an option; nothing is transferred once it has expired. -/
def cancelFeePayments (env : Env) (tx : Tx) (p : PoolStorage) (o : OptionRecord) : List Payment :=
  let fee := amountOf (cancelFee tx.block o (amountOf o.collateral))
  if 0 < fee then
    [⟨p.collateralToken o.optionType, env.contractAddress, p.feeRecipient, fee,
      some (o.id, .CANCEL)⟩]
  else []

/-- The rest of the collateral goes back to the writer. -/
def cancelPayments (env : Env) (tx : Tx) (p : PoolStorage) (o : OptionRecord) : List Payment :=
  let collateral := amountOf o.collateral
  let fee := amountOf (cancelFee tx.block o collateral)
  ⟨p.collateralToken o.optionType, env.contractAddress, o.writer, collateral - fee, none⟩
    :: cancelFeePayments env tx p o

/-- The premium is paid by the buyer, less the fee to the writer. -/
def buyPayments (tx : Tx) (p : PoolStorage) (o : OptionRecord) : List Payment :=
  let fee := amountOf (ceilBps o.premium buyFeeBps)
  [⟨p.premiumToken, tx.sender, o.writer, o.premium - fee, none⟩,
    ⟨p.premiumToken, tx.sender, p.feeRecipient, fee, some (o.id, .BUY)⟩]

/-- The collateral is paid to the buyer, less the fee. -/
def collateralPayments (env : Env) (tx : Tx) (p : PoolStorage) (o : OptionRecord) : List Payment :=
  let collateral := amountOf o.collateral
  let fee := amountOf (ceilBps collateral exerciseFeeBps)
  [⟨p.collateralToken o.optionType, env.contractAddress, tx.sender, collateral - fee, none⟩,
    ⟨p.collateralToken o.optionType, env.contractAddress, p.feeRecipient, fee,
      some (o.id, .EXERCISE)⟩]

/-- All of the collateral goes back to the writer. -/
def settlePayments (env : Env) (p : PoolStorage) (o : OptionRecord) : List Payment :=
  [⟨p.collateralToken o.optionType, env.contractAddress, o.writer, amountOf o.collateral, none⟩]

section

variable {env : Env} {tx : Tx} {p : PoolStorage} {o : OptionRecord} {self token src dst : Address}
  {l l₁ l₂ : Ledger} {ps ps' : List Payment} {amount fee collateral : ℕ}

@[simp] lemma feesOf_nil : feesOf [] = [] := rfl

@[simp] lemma feesOf_append : feesOf (ps ++ ps') = feesOf ps ++ feesOf ps' := List.flatMap_append

@[simp] lemma feesOf_plain : feesOf (⟨token, src, dst, amount, none⟩ :: ps) = feesOf ps := rfl

@[simp] lemma feesOf_charged {optionId : ℕ} {eventType : FeeEventType} :
    feesOf [⟨token, src, dst, amount, some (optionId, eventType)⟩]
      = recorded optionId eventType amount := List.append_nil _

lemma Pays.one {charge : Option (ℕ × FeeEventType)}
    (h : l.transferFrom token self src dst amount = .ok l₁) :
    Pays self l [⟨token, src, dst, amount, charge⟩] l₁ := .cons h .nil

lemma Pays.append (h : Pays self l ps l₁) (h' : Pays self l₁ ps' l₂) :
    Pays self l (ps ++ ps') l₂ := by
  induction h with
  | nil => exact h'
  | cons hfirst _ ih => exact .cons hfirst (ih h')

/-! ### Their fees -/

lemma feesOf_cancelFeePayments (hcoll : o.collateral = .ok collateral)
    (hfee : cancelFee tx.block o collateral = .ok fee) :
    feesOf (cancelFeePayments env tx p o) = recorded o.id .CANCEL fee := by
  rw [cancelFeePayments, hcoll, amountOf, hfee, amountOf]
  rcases Nat.eq_zero_or_pos fee with rfl | hpos
  · rfl
  · rw [if_pos hpos, feesOf_charged]

lemma feesOf_cancelPayments (hcoll : o.collateral = .ok collateral)
    (hfee : cancelFee tx.block o collateral = .ok fee) :
    feesOf (cancelPayments env tx p o) = recorded o.id .CANCEL fee := by
  rw [cancelPayments, feesOf_plain, feesOf_cancelFeePayments hcoll hfee]

lemma feesOf_buyPayments (hfee : ceilBps o.premium buyFeeBps = .ok fee) :
    feesOf (buyPayments tx p o) = recorded o.id .BUY fee := by
  rw [buyPayments, feesOf_plain, feesOf_charged, hfee]
  rfl

lemma feesOf_collateralPayments (hcoll : o.collateral = .ok collateral)
    (hfee : ceilBps collateral exerciseFeeBps = .ok fee) :
    feesOf (collateralPayments env tx p o) = recorded o.id .EXERCISE fee := by
  rw [collateralPayments, feesOf_plain, feesOf_charged, hcoll, amountOf, hfee]
  rfl

/-! ### That they are made -/

lemma pays_cancelFee (hcoll : o.collateral = .ok collateral)
    (hfee : cancelFee tx.block o collateral = .ok fee)
    (h : PaysFee env l (p.collateralToken o.optionType) p.feeRecipient fee l₁) :
    Pays env.contractAddress l (cancelFeePayments env tx p o) l₁ := by
  rw [cancelFeePayments, hcoll, amountOf, hfee, amountOf]
  rcases Nat.eq_zero_or_pos fee with rfl | hpos
  · rw [h.2 rfl]
    exact .nil
  · rw [if_pos hpos]
    exact .one (h.1 hpos)

lemma pays_cancel (hcoll : o.collateral = .ok collateral)
    (hfee : cancelFee tx.block o collateral = .ok fee)
    (hback : l.transferFrom (p.collateralToken o.optionType) env.contractAddress
      env.contractAddress o.writer (collateral - fee) = .ok l₁)
    (h : PaysFee env l₁ (p.collateralToken o.optionType) p.feeRecipient fee l₂) :
    Pays env.contractAddress l (cancelPayments env tx p o) l₂ := by
  refine .cons ?_ (pays_cancelFee hcoll hfee h)
  rw [hcoll, amountOf, hfee, amountOf]
  exact hback

lemma pays_buy (hfee : ceilBps o.premium buyFeeBps = .ok fee)
    (h₁ : l.transferFrom p.premiumToken self tx.sender o.writer (o.premium - fee) = .ok l₁)
    (h₂ : l₁.transferFrom p.premiumToken self tx.sender p.feeRecipient fee = .ok l₂) :
    Pays self l (buyPayments tx p o) l₂ := by
  rw [buyPayments, hfee]
  exact .cons h₁ (.one h₂)

lemma pays_collateral (hcoll : o.collateral = .ok collateral)
    (hfee : ceilBps collateral exerciseFeeBps = .ok fee)
    (h₁ : l.transferFrom (p.collateralToken o.optionType) env.contractAddress env.contractAddress
      tx.sender (collateral - fee) = .ok l₁)
    (h₂ : l₁.transferFrom (p.collateralToken o.optionType) env.contractAddress env.contractAddress
      p.feeRecipient fee = .ok l₂) :
    Pays env.contractAddress l (collateralPayments env tx p o) l₂ := by
  rw [collateralPayments, hcoll, amountOf, hfee]
  exact .cons h₁ (.one h₂)

end

/-! ### The payments of a run -/

variable {σ C : Type}

/-- What a step takes from a world, if it is a call. -/
def Label.ofCall {A : Type} (f : Tx → C → World σ → List A) (w : World σ) : Label C → List A
  | .call tx c _ => f tx c w
  | .reverted _ _ _ | .elsewhere => []

/-- A call makes the payments that `payments` lists for it. -/
def Label.Pays (env : Env) (payments : Tx → C → World σ → List Payment) (w : World σ)
    (l : Label C) (w' : World σ) : Prop :=
  match l with
  | .call tx c _ => Frogop.Pays env.contractAddress w.ledger (payments tx c w) w'.ledger
  | .reverted _ _ _ | .elsewhere => True

/-- The payments that the calls of a run make, in their order. -/
def paymentsAlong (payments : Tx → C → World σ → List Payment) (w₀ : World σ)
    (h : Lts.History (World σ) (Label C)) : List Payment :=
  Lts.collect (Label.ofCall payments) w₀ h

end Frogop
