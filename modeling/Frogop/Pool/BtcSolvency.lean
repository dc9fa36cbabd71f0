import Frogop.Pool.BtcQuote.Solvency
import Frogop.Pool.BtcUnderlying.Solvency

/-!
# What the BTC pools hold

In runs that nobody disturbs the balances of both pools are their open books to the last unit: for
the type-1 pool the collateral of its open, reserved and sold options, for the type-2 pool that of
its open and sold PUTs.
-/

namespace Frogop

open Custody

/-- A run of a pool that starts without tokens, in which nobody else moves the pool's tokens and no
fee goes to the pool itself. -/
structure Undisturbed {σ C : Type} (env : Env)
    (exec : Tx → C → World σ → Except Revert (Reply σ)) (w₀ : World σ)
    (h : Lts.History (World σ) (Label C)) (w : World σ) : Prop where
  empty : ∀ token, w₀.ledger.balanceOf token env.contractAddress = 0
  feeRecipient₀ : w₀.pool.feeRecipient ≠ env.contractAddress
  run : Lts.Run (Step env (Ledger.FixedAt env.contractAddress) exec) w₀ h w
  feeRecipient : ∀ p ∈ h, p.2.pool.feeRecipient ≠ env.contractAddress

/-- What a pool that is backed holds of a token. -/
lemma balanceOf_of_backed {σ : Type} {isLive : OptionRecord → Bool} {env : Env} {w : World σ}
    (hb : OptionsPool.Backed isLive env w) (token : Address) :
    w.ledger.balanceOf token env.contractAddress = ∑ i ∈ Finset.range w.pool.nextId,
      if isLive (w.option i) ∧ token = w.pool.collateralToken (w.option i).optionType
        then (w.option i).lockedAmount else 0 := by
  rw [← Ledger.heldBy, hb.held token, debt, total]
  exact Finset.sum_congr rfl fun i _ => locked_apply

/-- The type-1 pool holds the collateral of its open, reserved and sold options. The type-2 pool
holds the strike value of its open and sold PUTs, and no call about a CALL moves its tokens. -/
theorem btcPools_solvent :
    (∀ (env : Env) (w₀ w : BtcQuote.State) (h : Lts.History BtcQuote.State (Label BtcQuote.Call)),
      BtcQuote.Deployed w₀ → Undisturbed env (BtcQuote.exec env) w₀ h w →
      ∀ token, w.ledger.balanceOf token env.contractAddress = ∑ i ∈ Finset.range w.pool.nextId,
        if ((w.option i).status = .OPEN ∨ (w.option i).status = .PURCHASED ∨
              (w.option i).status = .RESERVED) ∧
            token = w.pool.collateralToken (w.option i).optionType
          then (w.option i).lockedAmount else 0) ∧
    ∀ (env : Env) (w₀ w : BtcUnderlying.State)
      (h : Lts.History BtcUnderlying.State (Label BtcUnderlying.Call)),
      BtcUnderlying.Deployed w₀ → Undisturbed env (BtcUnderlying.exec env) w₀ h w →
      (w.ledger.balanceOf w.pool.premiumToken env.contractAddress =
        ∑ i ∈ Finset.range w.pool.nextId,
          if (w.option i).optionType = .PUT ∧
              ((w.option i).status = .OPEN ∨ (w.option i).status = .PURCHASED)
            then (w.option i).strikePrice * (w.option i).underlyingAmount / precision else 0) ∧
      ∀ tx c r w', tx.FromAccount env → BtcUnderlying.OnCall w c →
        BtcUnderlying.exec env tx c w = .ok (r, w') →
        ∀ token, w'.ledger.balanceOf token env.contractAddress
          = w.ledger.balanceOf token env.contractAddress := by
  refine ⟨fun env w₀ w h hdep hrun token => ?_, fun env w₀ w h hdep hrun => ?_⟩
  · have hb := BtcQuote.backed_of_run hdep hrun.empty hrun.feeRecipient₀ hrun.run hrun.feeRecipient
    rw [balanceOf_of_backed hb]
    simp only [BtcQuote.isLive, decide_eq_true_eq]
  · have hb := BtcUnderlying.backed_of_run hdep hrun.empty hrun.feeRecipient₀ hrun.run
      hrun.feeRecipient
    refine ⟨?_, fun tx c r w' htx hc hexec token => ?_⟩
    · rw [balanceOf_of_backed hb]
      refine Finset.sum_congr rfl fun i _ => ?_
      cases htype : (w.option i).optionType with
      | CALL => simp [BtcUnderlying.isLive, htype]
      | PUT =>
        simp only [BtcUnderlying.isLive, htype, true_and, decide_eq_true_eq,
          PoolStorage.collateralToken, and_true, OptionRecord.lockedAmount]
    · have htable := (BtcUnderlying.lifeInv_of_run hdep hrun.run).table
      exact ((BtcUnderlying.onCall_flow htx htable hc hexec token).2 hb.paysOut).symm

/-- Two CALLs on four units are locked in the type-1 pool, and the strike value of a PUT in the
type-2 pool. -/
theorem btcPools_solvent_sold :
    (BtcQuote.Testnet.sold (10 ^ 18) 4).ledger.balanceOf (Testnet.account 2) (Testnet.account 1)
        = 8 ∧
      (Testnet.after (BtcUnderlying.exec BtcUnderlying.Testnet.env) BtcUnderlying.Testnet.world
        BtcUnderlying.Testnet.sellingPut).ledger.balanceOf (Testnet.account 3) (Testnet.account 1)
        = 4 := by
  have hquote : Undisturbed BtcQuote.Testnet.env (BtcQuote.exec BtcQuote.Testnet.env)
      BtcQuote.Testnet.world
      (replayed (BtcQuote.exec BtcQuote.Testnet.env) BtcQuote.Testnet.world
        (BtcQuote.Testnet.selling (10 ^ 18) 4)) (BtcQuote.Testnet.sold (10 ^ 18) 4) :=
    ⟨fun _ => rfl, by decide, Testnet.run_after _ (BtcQuote.Testnet.selling_fromAccount _ _) rfl,
      by decide⟩
  have hunderlying : Undisturbed BtcUnderlying.Testnet.env
      (BtcUnderlying.exec BtcUnderlying.Testnet.env) BtcUnderlying.Testnet.world
      (replayed (BtcUnderlying.exec BtcUnderlying.Testnet.env) BtcUnderlying.Testnet.world
        BtcUnderlying.Testnet.sellingPut)
      (Testnet.after (BtcUnderlying.exec BtcUnderlying.Testnet.env) BtcUnderlying.Testnet.world
        BtcUnderlying.Testnet.sellingPut) :=
    ⟨fun _ => rfl, by decide, Testnet.run_after _ BtcUnderlying.Testnet.sellingPut_fromAccount rfl,
      by decide⟩
  have hsolvent := btcPools_solvent
  exact ⟨(hsolvent.1 _ _ _ _ BtcQuote.Testnet.deployed hquote _).trans rfl,
    (hsolvent.2 _ _ _ _ BtcUnderlying.Testnet.deployed hunderlying).1.trans rfl⟩

end Frogop
