import Frogop.Pool.Table
import Mathlib.Algebra.Group.Pi.Lemmas

/-!
# What a pool owes

A pool is the custodian of the collateral of its live options. `debt` is what it owes of each
token; `isLive` says for which options, and differs between the pools. An operation that opens,
rewrites or finishes an option is accounted for by the flow of tokens it makes.
-/

namespace Frogop

open Outcome Custody

/-- The collateral of an option, in units of its collateral token. -/
def OptionRecord.lockedAmount (o : OptionRecord) : ℕ :=
  match o.optionType with
  | .CALL => o.underlyingAmount
  | .PUT => o.strikePrice * o.underlyingAmount / precision

/-- What is owed of each token for one option. -/
def locked (isLive : OptionRecord → Bool) (p : PoolStorage) (o : OptionRecord) : Address → ℕ :=
  if isLive o then Pi.single (p.collateralToken o.optionType) o.lockedAmount else 0

/-- What a pool owes of each token. -/
def debt (isLive : OptionRecord → Bool) (p : PoolStorage) : Address → ℕ :=
  total (locked isLive p) p.nextId p.options.get

/-- What the pool owes is covered by its balances. -/
def Covered {σ : Type} (isLive : OptionRecord → Bool) (env : Env) (w : World σ) : Prop :=
  ∀ token, debt isLive w.pool token ≤ w.ledger.heldBy env.contractAddress token

/-- No payout of the pool goes to the pool itself. -/
structure PaysOut (env : Env) (p : PoolStorage) : Prop where
  feeRecipient : p.feeRecipient ≠ env.contractAddress
  writer : ∀ i < p.nextId, (p.options.get i).writer ≠ env.contractAddress

variable {isLive : OptionRecord → Bool} {p : PoolStorage} {o o' : OptionRecord} {s : OptionStorage}
  {i collateral : ℕ} {exact : Prop} {held held' inn out : Address → ℕ} {token : Address}

lemma OptionRecord.collateral_eq (h : o.collateral = .ok collateral) :
    collateral = o.lockedAmount := by
  cases htype : o.optionType with
  | CALL =>
    simp only [OptionRecord.collateral, collateralAmount, htype, Except.ok.injEq] at h
    rw [OptionRecord.lockedAmount, htype, h]
  | PUT =>
    simp only [OptionRecord.collateral, collateralAmount, htype, strikeValue_eq_ok] at h
    rw [OptionRecord.lockedAmount, htype, h.2]

lemma locked_of_live (h : isLive o = true) :
    locked isLive p o = Pi.single (p.collateralToken o.optionType) o.lockedAmount := if_pos h

lemma locked_of_dead (h : isLive o = false) : locked isLive p o = 0 :=
  if_neg (by rw [h]; exact Bool.false_ne_true)

lemma locked_apply : locked isLive p o token =
    if isLive o ∧ token = p.collateralToken o.optionType then o.lockedAmount else 0 := by
  cases h : isLive o with
  | false => rw [locked_of_dead h]; simp
  | true => simp [locked_of_live h, Pi.single_apply]

/-! ### Operations on one option -/

/-- An operation that rewrites one option changes the debt by what is owed for that option. -/
lemma debt_update (isLive : OptionRecord → Bool) (token : Address) (hi : i < p.nextId)
    (hget : s.get = Function.update p.options.get i o') :
    debt isLive { p with options := s } token + locked isLive p (p.options.get i) token
      = debt isLive p token + locked isLive p o' token := by
  rw [debt]
  rw [hget]
  exact total_set hi o'

/-- A new option adds what is owed for it. -/
lemma debt_set (isLive : OptionRecord → Bool) (p : PoolStorage) (o : OptionRecord)
    (token : Address) :
    debt isLive { p with nextId := p.nextId + 1, options := p.options.set p.nextId o }
      token = debt isLive p token + locked isLive p { o with id := p.nextId } token := by
  rw [debt]
  rw [OptionStorage.get_set]
  exact total_open _

/-- Finishing an option pays its collateral out. -/
lemma kept_of_release (hi : i < p.nextId)
    (hget : s.get = Function.update p.options.get i o') (hlive : isLive (p.options.get i) = true)
    (hdead : isLive o' = false) (hcoll : (p.options.get i).collateral = .ok collateral)
    (hflow : Flow exact held held' 0
      (Pi.single (p.collateralToken (p.options.get i).optionType) collateral)) :
    Kept exact held (debt isLive p) held' (debt isLive { p with options := s }) := by
  refine hflow.kept fun token => ?_
  have hdebt := debt_update isLive token hi hget
  rw [locked_of_dead hdead, locked_of_live hlive] at hdebt
  rw [OptionRecord.collateral_eq hcoll]
  exact hdebt

/-- Passing an option on leaves its collateral where it is. -/
lemma kept_of_pass (hi : i < p.nextId)
    (hget : s.get = Function.update p.options.get i o')
    (hlive : isLive (p.options.get i) = isLive o')
    (hterms : (p.options.get i).SameTerms o') (hflow : Flow exact held held' 0 0) :
    Kept exact held (debt isLive p) held' (debt isLive { p with options := s }) := by
  refine hflow.kept fun token => ?_
  have hdebt := debt_update isLive token hi hget
  have hsame : locked isLive p o' token = locked isLive p (p.options.get i) token := by
    simp only [locked, hlive, OptionRecord.lockedAmount, hterms.optionType, hterms.strikePrice,
      hterms.underlyingAmount]
  rw [hsame] at hdebt
  exact congrArg (· + 0) (Nat.add_right_cancel hdebt)

/-- Opening an option takes its collateral in. -/
lemma kept_of_open (hlive : isLive { o with id := p.nextId } = true)
    (hcoll : o.collateral = .ok collateral)
    (hflow : Flow exact held held' (Pi.single (p.collateralToken o.optionType) collateral) 0) :
    Kept exact held (debt isLive p) held'
      (debt isLive { p with nextId := p.nextId + 1, options := p.options.set p.nextId o }) := by
  refine hflow.kept fun token => ?_
  rw [debt_set, locked_of_live hlive, OptionRecord.collateral_eq hcoll]
  rfl

/-- Opening an option nothing is owed for. -/
lemma kept_of_open_dead (hdead : isLive { o with id := p.nextId } = false)
    (hflow : Flow exact held held' 0 0) :
    Kept exact held (debt isLive p) held'
      (debt isLive { p with nextId := p.nextId + 1, options := p.options.set p.nextId o }) := by
  refine hflow.kept fun token => ?_
  rw [debt_set, locked_of_dead hdead]
  rfl

/-- Replacing an option by a new one of its type takes in or gives out the difference. -/
lemma kept_of_replace {old new a b : ℕ} (hi : i < p.nextId)
    (hget : s.get = Function.update p.options.get i o') (hlive : isLive (p.options.get i) = true)
    (hdead : isLive o' = false) (hold : (p.options.get i).collateral = .ok old)
    (hopen : isLive { o with id := p.nextId } = true) (hnew : o.collateral = .ok new)
    (htype : o.optionType = (p.options.get i).optionType)
    (hflow : Flow exact held held'
      (Pi.single (p.collateralToken (p.options.get i).optionType) a)
      (Pi.single (p.collateralToken (p.options.get i).optionType) b))
    (hab : new + b = old + a) :
    Kept exact held (debt isLive p) held'
      (debt isLive { p with nextId := p.nextId + 1, options := s.set p.nextId o }) := by
  refine hflow.kept fun token => ?_
  have hfinish := debt_update isLive token hi hget
  have hstart := debt_set isLive { p with options := s } o token
  rw [locked_of_dead hdead, locked_of_live hlive, ← OptionRecord.collateral_eq hold] at hfinish
  rw [locked_of_live hopen] at hstart
  have hamount : OptionRecord.lockedAmount { o with id := p.nextId } = new :=
    (OptionRecord.collateral_eq hnew).symm
  have htoken : PoolStorage.collateralToken { p with options := s } o.optionType
      = p.collateralToken (p.options.get i).optionType := by
    rw [htype]
    rfl
  simp only [hamount, htoken] at hstart
  rw [hstart]
  simp only [Pi.zero_apply, Pi.single_apply] at hfinish ⊢
  split_ifs at hfinish ⊢ <;> omega

/-! ### Payouts -/

/-- Two payouts of one token make one. -/
lemma flow_pay {a b : ℕ} {held'' : Address → ℕ} (h : Flow exact held held' 0 (Pi.single token a))
    (h' : Flow exact held' held'' 0 (Pi.single token b)) :
    Flow exact held held'' 0 (Pi.single token (a + b)) := by
  have hboth := h.trans h'
  rwa [← Pi.single_add, add_zero] at hboth

/-- Tokens passed between others come on top of any flow. -/
lemma flow_pass {held'' : Address → ℕ} (h : Flow exact held held' 0 0)
    (h' : Flow exact held' held'' inn out) : Flow exact held held'' inn out := by
  have hboth := h.trans h'
  rwa [zero_add, zero_add] at hboth

section Payouts

variable {σ : Type} {env : Env} {w : World σ} {dst : Address} {amount : ℕ}

/-- A live option's collateral is there to be paid. -/
lemma Covered.lockedAmount_le (hcov : Covered isLive env w) (hi : i < w.pool.nextId)
    (hlive : isLive (w.option i) = true) :
    (w.option i).lockedAmount ≤ w.ledger.heldBy env.contractAddress
      (w.pool.collateralToken (w.option i).optionType) := by
  have howed : locked isLive w.pool (w.option i) (w.pool.collateralToken (w.option i).optionType)
      ≤ debt isLive w.pool (w.pool.collateralToken (w.option i).optionType) := owed_le_total hi
  rw [locked_of_live hlive, Pi.single_eq_same] at howed
  exact howed.trans (hcov _)

/-- Any failure but a payout that exceeds the balance. -/
def NoShortfall (e : Revert) : Prop := e ≠ .token "Transfer out failed" .insufficientBalance

@[simp] lemma noShortfall_revert (m : String) : NoShortfall (.revert m) := by
  simp [NoShortfall]

@[simp] lemma noShortfall_safeMath : NoShortfall .safeMath := by simp [NoShortfall]

@[simp] lemma noShortfall_writerFull : NoShortfall .writerFull := by simp [NoShortfall]

@[simp] lemma noShortfall_outOfCalldata : NoShortfall .outOfCalldata := by simp [NoShortfall]

/-- A payout the balance suffices for is never short. -/
lemma transfer_of_le (hle : amount ≤ w.ledger.heldBy env.contractAddress token) :
    FailsOnly NoShortfall (w.transfer env token dst amount) := by
  rw [World.failsOnly_transfer]
  intro cause herror
  rcases Ledger.transferFrom_self_error herror with rfl | ⟨-, hlt⟩
  · simp [NoShortfall]
  · exact absurd hlt (not_lt.mpr hle)

lemma payFee_of_le {fee : ℕ} (hle : fee ≤ w.ledger.heldBy env.contractAddress token) :
    FailsOnly NoShortfall (w.payFee env token fee) :=
  World.failsOnly_payFee.mpr fun _ => transfer_of_le hle

/-- What is left after a payout. -/
lemma transfer_leaves {w' : World σ} (h : w.transfer env token dst amount = .ok w') :
    w.ledger.heldBy env.contractAddress token
      ≤ w'.ledger.heldBy env.contractAddress token + amount := by
  obtain ⟨l, hl, rfl⟩ := World.transfer_eq_ok.mp h
  have hflow := ((Ledger.pay_flow hl).2 token).1
  rwa [Pi.single_eq_same] at hflow

/-- What is left after the fee. -/
lemma payFee_leaves {w' : World σ} {fee : ℕ} (h : w.payFee env token fee = .ok w') :
    w.ledger.heldBy env.contractAddress token
      ≤ w'.ledger.heldBy env.contractAddress token + fee := by
  obtain ⟨l, hl, rfl⟩ := World.payFee_eq_ok.mp h
  have hflow := (hl.flow token).1
  rwa [Pi.single_eq_same] at hflow

/-- Tokens passed between others take nothing from the pool. -/
lemma transferFrom_leaves {w' : World σ} {src : Address} {t : Address}
    (hsrc : src ≠ env.contractAddress) (h : w.transferFrom env token src dst amount = .ok w') :
    w.ledger.heldBy env.contractAddress t ≤ w'.ledger.heldBy env.contractAddress t := by
  obtain ⟨l, hl, rfl⟩ := World.transferFrom_eq_ok.mp h
  exact (Ledger.pass_flow hsrc hl t).1

/-- A payout that leaves room for the fee. -/
lemma noShortfall_payout (w : World σ) (env : Env) (dst : Address) {fee total : ℕ}
    (hle : total ≤ w.ledger.heldBy env.contractAddress token) (hsum : amount + fee ≤ total) :
    FailsOnly NoShortfall (w.transfer env token dst amount) ∧
      ∀ w', w.transfer env token dst amount = .ok w' →
        fee ≤ w'.ledger.heldBy env.contractAddress token := by
  refine ⟨transfer_of_le (by omega), fun w' h => ?_⟩
  have hleft := transfer_leaves h
  omega

/-- The collateral is paid out in two parts, the second to the fee recipient. -/
lemma noShortfall_deliver {α : Type} (tok : PoolStorage → Address) {a b total : ℕ}
    {k : World σ → Except Revert α}
    (hle : total ≤ w.ledger.heldBy env.contractAddress (tok w.pool)) (hsum : a + b ≤ total)
    (hk : ∀ w, FailsOnly NoShortfall (k w)) :
    FailsOnly NoShortfall (do
      let w ← w.transfer env (tok w.pool) dst a
      let w ← w.transfer env (tok w.pool) w.pool.feeRecipient b
      k w) := by
  obtain ⟨hpay, hrest⟩ := noShortfall_payout w env dst hle hsum
  refine .seq hpay fun w₁ hw₁ => .seq (transfer_of_le ?_) fun w₂ _ => hk w₂
  have hleft := hrest w₁ hw₁
  obtain ⟨l, -, rfl⟩ := World.transfer_eq_ok.mp hw₁
  exact hleft

lemma noShortfall_transferFrom {src : Address} :
    FailsOnly NoShortfall (w.transferFrom env token src dst amount) := by
  simp [NoShortfall]

/-- Two payouts one after the other. -/
lemma deliver_succeeds {l : Ledger} {self dst' : Address} {a b : ℕ}
    (hwilling : l.refuses token self dst = false) (hwilling' : l.refuses token self dst' = false)
    (hle : a + b ≤ l.heldBy self token) :
    ∃ l₁ l₂, l.transferFrom token self self dst a = .ok l₁ ∧
      l₁.transferFrom token self self dst' b = .ok l₂ :=
  Ledger.transferFrom_twice hwilling hwilling' (.inl rfl) hle

end Payouts

end Frogop
