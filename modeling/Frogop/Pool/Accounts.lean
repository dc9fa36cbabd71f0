import Frogop.Lib.Custody
import Frogop.Pool.Base
import Mathlib.Algebra.Group.Pi.Basic

/-!
# What the helpers of a pool do

One specification for each helper of the base contract, and what the token calls move in and out
of the pool's own balances.
-/

namespace Frogop

open Outcome Custody

variable {σ : Type} {env : Env} {w w' : World σ}

/-! ### Amounts -/

section

variable {P : Revert → Prop} {t : OptionType} {s a block collateral : ℕ} {o : OptionRecord}

/-- The collateral and the cancellation fee are arithmetic. -/
lemma failsOnly_collateral (hP : P .safeMath) : FailsOnly P (collateralAmount t s a) := by
  unfold collateralAmount
  cases t with
  | CALL => exact failsOnly_ok _
  | PUT => exact failsOnly_strikeValue.mpr fun _ => hP

lemma failsOnly_cancelFee (hP : P .safeMath) : FailsOnly P (cancelFee block o collateral) := by
  rw [cancelFee]
  split_ifs
  · exact failsOnly_ok _
  · exact failsOnly_ceilBps.mpr fun _ => hP

end

/-! ### Writers, events, responses -/

@[simp] lemma fill_eq_ok {capacity used : ℕ} {u : Unit} :
    env.fill capacity used = .ok u ↔ env.writers = .growing ∨ used ≤ capacity := by
  simp [Env.fill]

lemma fill_of_le {capacity used : ℕ} (h : used ≤ capacity) : env.fill capacity used = .ok () :=
  require_of (.inr h) _

@[simp] lemma failsOnly_fill {P : Revert → Prop} {capacity used : ℕ} :
    FailsOnly P (env.fill capacity used) ↔
      (env.writers ≠ .growing → capacity < used → P .writerFull) := by
  simp [Env.fill]

namespace World

@[simp] lemma emit_eq_ok {name : EventName} {capacity : ℕ} {fields : List Field} :
    w.emit env name capacity fields = .ok w' ↔
      (env.writers = .growing ∨ fieldsWidth fields ≤ capacity) ∧
        { w with events := w.events ++ [⟨name, capacity, fields⟩] } = w' := by
  simp [emit]

@[simp] lemma respond_eq_ok {capacity : ℕ} {fields : List Field} {reply : Reply σ} :
    w.respond env capacity fields = .ok reply ↔
      (env.writers = .growing ∨ fieldsWidth fields ≤ capacity) ∧ (fields, w) = reply := by
  simp [respond]

@[simp] lemma failsOnly_emit {P : Revert → Prop} {name : EventName} {capacity : ℕ}
    {fields : List Field} : FailsOnly P (w.emit env name capacity fields) ↔
      (env.writers ≠ .growing → capacity < fieldsWidth fields → P .writerFull) := by
  simp [emit]

@[simp] lemma failsOnly_respond {P : Revert → Prop} {capacity : ℕ} {fields : List Field} :
    FailsOnly P (w.respond env capacity fields) ↔
      (env.writers ≠ .growing → capacity < fieldsWidth fields → P .writerFull) := by
  simp [respond]

@[simp] lemma addOption_eq_ok {option : ℕ → OptionRecord} {added : ℕ × World σ} :
    w.addOption option = .ok added ↔
      w.pool.nextId + 1 < u256Size ∧
        (w.pool.nextId,
          { w with
            pool :=
              { w.pool with
                nextId := w.pool.nextId + 1
                options := w.pool.options.set w.pool.nextId (option w.pool.nextId) } })
          = added := by
  simp only [addOption, bind_eq_ok, SafeMath.add_eq_ok, pure_eq, Except.ok.injEq]
  constructor
  · rintro ⟨_, ⟨hlt, rfl⟩, h⟩
    exact ⟨hlt, h⟩
  · rintro ⟨hlt, h⟩
    exact ⟨_, ⟨hlt, rfl⟩, h⟩

@[simp] lemma failsOnly_addOption {P : Revert → Prop} {option : ℕ → OptionRecord} :
    FailsOnly P (w.addOption option) ↔ (u256Size ≤ w.pool.nextId + 1 → P .safeMath) := by
  simp [addOption]

/-! ### Token calls -/

section Transfers

variable {token src dst : Address} {amount fee : ℕ} {message : String} {e : Revert}

/-- Its calldata always fits the writer, so a token call is decided by the ledger. -/
lemma callTransferFrom_eq : w.callTransferFrom env message token src dst amount =
    match w.ledger.transferFrom token env.contractAddress src dst amount with
    | .ok ledger => .ok { w with ledger := ledger }
    | .error cause => .error (.token message cause) := by
  have hfits : env.fill 100 (4 + fieldsWidth [.address src, .address dst, .u256 amount]) = .ok () :=
    fill_of_le (by simp [Field.width])
  rw [callTransferFrom, hfits]
  rfl

lemma callTransferFrom_eq_ok : w.callTransferFrom env message token src dst amount = .ok w' ↔
    ∃ l, w.ledger.transferFrom token env.contractAddress src dst amount = .ok l ∧
      { w with ledger := l } = w' := by
  rw [callTransferFrom_eq]
  cases w.ledger.transferFrom token env.contractAddress src dst amount <;> simp

@[simp] lemma transferFrom_eq_ok : w.transferFrom env token src dst amount = .ok w' ↔
    ∃ l, w.ledger.transferFrom token env.contractAddress src dst amount = .ok l ∧
      { w with ledger := l } = w' :=
  callTransferFrom_eq_ok

@[simp] lemma transfer_eq_ok : w.transfer env token dst amount = .ok w' ↔
    ∃ l, w.ledger.transferFrom token env.contractAddress env.contractAddress dst amount = .ok l ∧
      { w with ledger := l } = w' :=
  callTransferFrom_eq_ok

/-- The ledger after the fee was paid, if there was one. -/
def PaysFee (env : Env) (l : Ledger) (token feeRecipient : Address) (fee : ℕ) (l' : Ledger) :
    Prop :=
  (0 < fee → l.transferFrom token env.contractAddress env.contractAddress feeRecipient fee
      = .ok l') ∧
    (fee = 0 → l = l')

@[simp] lemma payFee_eq_ok : w.payFee env token fee = .ok w' ↔
    ∃ l, PaysFee env w.ledger token w.pool.feeRecipient fee l ∧ { w with ledger := l } = w' := by
  unfold payFee PaysFee
  split_ifs with hfee
  · simp [hfee, hfee.ne']
  · obtain rfl : fee = 0 := by omega
    simp

lemma failsOnly_callTransferFrom {P : Revert → Prop} :
    FailsOnly P (w.callTransferFrom env message token src dst amount) ↔
      ∀ cause, w.ledger.transferFrom token env.contractAddress src dst amount = .error cause →
        P (.token message cause) := by
  rw [callTransferFrom_eq]
  cases w.ledger.transferFrom token env.contractAddress src dst amount <;> simp

@[simp] lemma failsOnly_transferFrom {P : Revert → Prop} :
    FailsOnly P (w.transferFrom env token src dst amount) ↔
      ∀ cause, w.ledger.transferFrom token env.contractAddress src dst amount = .error cause →
        P (.token "Token transferFrom failed" cause) :=
  failsOnly_callTransferFrom

@[simp] lemma failsOnly_transfer {P : Revert → Prop} :
    FailsOnly P (w.transfer env token dst amount) ↔
      ∀ cause, w.ledger.transferFrom token env.contractAddress env.contractAddress dst amount
        = .error cause → P (.token "Transfer out failed" cause) :=
  failsOnly_callTransferFrom

@[simp] lemma failsOnly_payFee {P : Revert → Prop} :
    FailsOnly P (w.payFee env token fee) ↔
      (0 < fee → FailsOnly P (w.transfer env token w.pool.feeRecipient fee)) := by
  rw [payFee]
  split_ifs with hfee
  · simp only [hfee, true_imp_iff]
  · simp [hfee]

end Transfers

end World

/-! ### Methods of the base contract -/

lemma updateFeeRecipient_ok {tx : Tx} {newAddr : Address} {r : Response}
    (h : updateFeeRecipient env tx newAddr w = .ok (r, w')) :
    tx.sender = w.pool.feeRecipient ∧ newAddr ≠ Address.zero ∧ r = [.boolean true] ∧
      w' = { w with
        pool := { w.pool with feeRecipient := newAddr }
        events := w.events ++
          [⟨.feeRecipientUpdated, 64, [.address tx.sender, .address newAddr]⟩] } := by
  simp only [updateFeeRecipient, bind_eq_ok, require_eq_ok, World.emit_eq_ok, World.respond_eq_ok,
    Prod.mk.injEq] at h
  obtain ⟨-, hcaller, -, hzero, -, -, _, ⟨-, rfl⟩, -, rfl, rfl⟩ := h
  exact ⟨hcaller, hzero, rfl, rfl⟩

lemma getOption_ok {optionId : ℕ} {r : Response} (h : getOption env optionId w = .ok (r, w')) :
    w' = w := by
  simp only [getOption, bind_eq_ok, require_eq_ok, World.respond_eq_ok, Prod.mk.injEq] at h
  obtain ⟨-, -, -, -, rfl⟩ := h
  rfl

/-- An accepted key is 33 bytes with a compressed-key prefix. -/
lemma registerBtcPubkey_ok {tx : Tx} {calldata : List UInt8} {r : Response}
    (h : registerBtcPubkey env tx calldata w = .ok (r, w')) :
    ∃ pubkey, pubkey = calldata.take 33 ∧
      (pubkey.length = 33 ∧ (pubkey.head? = some 0x02 ∨ pubkey.head? = some 0x03)) ∧
      r = [.boolean true] ∧
      w' = { w with
        pool := { w.pool with
          pubkeys := Function.update w.pool.pubkeys tx.sender (env.slot pubkey) } } := by
  simp only [registerBtcPubkey, readBytes, bind_eq_ok, require_eq_ok, pure_eq, Except.ok.injEq,
    World.respond_eq_ok, Prod.exists, Prod.mk.injEq] at h
  obtain ⟨_, _, ⟨-, -, rfl, rfl⟩, -, hlen, -, hprefix, -, rfl, rfl⟩ := h
  exact ⟨_, rfl, ⟨hlen, hprefix⟩, rfl, rfl⟩

/-! ### The pool's own balances -/

/-- What an account holds of each token. -/
def Ledger.heldBy (l : Ledger) (a token : Address) : ℕ := l.balanceOf token a

section Flows

variable {l l' : Ledger} {self token src dst : Address} {amount fee : ℕ}

/-- A payout needs the balance, and moves the amount out. -/
lemma Ledger.pay_flow (h : l.transferFrom token self self dst amount = .ok l') :
    amount ≤ l.heldBy self token ∧
      Flow (dst ≠ self) (l.heldBy self) (l'.heldBy self) 0 (Pi.single token amount) := by
  obtain ⟨hbal, hmove, -⟩ := Ledger.transferFrom_ok h
  refine ⟨hbal, fun t => ?_⟩
  simp only [heldBy, hmove, Pi.zero_apply, Pi.single_apply, Nat.add_zero]
  refine ⟨balanceOf_le_move_src hbal, fun hdst => ?_⟩
  exact (balanceOf_move_src hdst.symm hbal).symm

lemma World.PaysFee.flow (h : World.PaysFee env l token dst fee l') :
    Flow (dst ≠ env.contractAddress) (l.heldBy env.contractAddress)
      (l'.heldBy env.contractAddress) 0 (Pi.single token fee) := by
  rcases Nat.eq_zero_or_pos fee with rfl | hfee
  · rw [h.2 rfl, Pi.single_zero]
    exact .refl
  · exact (Ledger.pay_flow (h.1 hfee)).2

/-- Tokens pulled in from an account. -/
lemma Ledger.pull_flow (hsrc : src ≠ self)
    (h : l.transferFrom token self src self amount = .ok l') :
    Flow True (l.heldBy self) (l'.heldBy self) (Pi.single token amount) 0 := by
  obtain ⟨-, hmove, -⟩ := Ledger.transferFrom_ok h
  intro t
  simp only [heldBy, hmove, Pi.zero_apply, Pi.single_apply, Nat.add_zero]
  rw [balanceOf_move_dst hsrc.symm]
  exact ⟨le_rfl, fun _ => rfl⟩

/-- Tokens one account pays another: the pool can only gain. -/
lemma Ledger.pass_flow (hsrc : src ≠ self)
    (h : l.transferFrom token self src dst amount = .ok l') :
    Flow (dst ≠ self) (l.heldBy self) (l'.heldBy self) 0 0 := by
  obtain ⟨-, hmove, -⟩ := Ledger.transferFrom_ok h
  intro t
  simp only [heldBy, hmove, Pi.zero_apply, Nat.add_zero]
  by_cases hdst : dst = self
  · subst hdst
    rw [balanceOf_move_dst hsrc.symm]
    exact ⟨Nat.le_add_right _ _, fun hne => absurd rfl hne⟩
  · rw [balanceOf_move_other hsrc.symm (Ne.symm hdst)]
    exact ⟨le_rfl, fun _ => rfl⟩

end Flows

end Frogop
