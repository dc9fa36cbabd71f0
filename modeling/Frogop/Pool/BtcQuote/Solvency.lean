import Frogop.Pool.BtcQuote.Reservation
import Frogop.Pool.OptionsPool.Solvency

/-!
# Solvency of `OptionsPoolBtcQuote`

A reserved option keeps its collateral locked; otherwise the pool owes what the type-0 pool owes.
-/

namespace Frogop.BtcQuote

open Outcome Custody World
open OptionsPool (Books Backed)

/-- Collateral is owed until an option is exercised, settled or cancelled. -/
def isLive (o : OptionRecord) : Bool :=
  o.status = .OPEN ∨ o.status = .PURCHASED ∨ o.status = .RESERVED

lemma isLive_of_open (o : OptionRecord) (h : o.status = .OPEN) : isLive o = true := by
  simp [isLive, h]

lemma isLive_of_purchased (o : OptionRecord) (h : o.status = .PURCHASED) : isLive o = true := by
  simp [isLive, h]

lemma isLive_of_reserved (o : OptionRecord) (h : o.status = .RESERVED) : isLive o = true := by
  simp [isLive, h]

section

variable {env : Env} {tx : Tx} {c : Call} {w w' : State} {r : Response} {i : ℕ}

/-- A call about a reservation moves no tokens. -/
lemma kept_of_status {o' : OptionRecord} {s : OptionStorage}
    (hpool : w'.pool = { w.pool with options := s }) (hledger : w'.ledger = w.ledger)
    (hi : i < w.pool.nextId) (hget : s.get = Function.update w.pool.options.get i o')
    (hlive : isLive (w.option i) = isLive o') (hterms : (w.option i).SameTerms o') :
    Books isLive env w w' := by
  show Kept _ _ _ (w'.ledger.heldBy _) (debt isLive w'.pool)
  rw [hpool, hledger]
  exact kept_of_pass hi hget hlive hterms .refl

lemma exercise_kept (htx : tx.FromAccount env) (hi : i < w.pool.nextId)
    (h : exercise env tx i w = .ok (r, w')) : Books isLive env w w' := by
  obtain ⟨collateral, fee, l₁, l₂, l₃, -, hstatus, -, -, -, hcoll, hle, hl₁, hl₂, hl₃, hpool, -,
    hledger⟩ := exercise_ok h
  have hprice : Flow (PaysOut env w.pool) (w.ledger.heldBy env.contractAddress)
      (l₁.heldBy env.contractAddress) 0 0 := by
    rcases hl₁ with rfl | hl₁
    · exact .refl
    · exact (Ledger.pass_flow htx.ne_pool hl₁).weaken fun hp => hp.writer i hi
  have hbuyer := (Ledger.pay_flow hl₂).2.weaken fun _ : PaysOut env w.pool => htx.ne_pool
  have hfee := (Ledger.pay_flow hl₃).2.weaken fun hp : PaysOut env w.pool => hp.feeRecipient
  have hflow := flow_pass hprice (flow_pay hbuyer hfee)
  rw [Nat.sub_add_cancel hle] at hflow
  show Kept _ _ _ (w'.ledger.heldBy _) (debt isLive w'.pool)
  rw [hpool, hledger]
  exact kept_of_release hi OptionStorage.get_setStatus (isLive_of_purchased _ hstatus) (by rfl)
    hcoll hflow

/-- A call changes what the pool holds by as much as it changes what the pool owes. -/
lemma exec_kept (hinv : TableInv w.pool) (hres : Reserves w) (htx : tx.FromAccount env)
    (h : exec env tx c w = .ok (r, w')) : Books isLive env w w' := by
  cases c with
  | writeOption t s e a p => exact OptionsPool.writeOption_kept htx isLive_of_open h
  | reserveOption i =>
    obtain ⟨_, _, hex, hopen, -, -, -, -, -, -, hpool, -, hledger⟩ := reserveOption_ok h
    refine kept_of_status hpool hledger ((hinv i).mp hex) OptionStorage.get_setStatus ?_
      (.update _ _ _)
    rw [isLive_of_open _ hopen, isLive_of_reserved _ rfl]
  | executeReservation n =>
    obtain ⟨hex, hpending, -, -, hpool, -, hledger⟩ := executeReservation_ok h
    obtain ⟨hi, hreserved⟩ := hres n ⟨hex, hpending⟩
    refine kept_of_status hpool hledger hi (get_setBuyer_setStatus _ _ _) ?_
      (.update _ _ _)
    rw [isLive_of_reserved _ hreserved, isLive_of_purchased _ rfl]
  | cancelReservation n =>
    obtain ⟨hex, hpending, -, -, hpool, -, hledger⟩ := cancelReservation_ok h
    obtain ⟨hi, hreserved⟩ := hres n ⟨hex, hpending⟩
    refine kept_of_status hpool hledger hi OptionStorage.get_setStatus ?_
      (.update _ _ _)
    rw [isLive_of_reserved _ hreserved, isLive_of_open _ rfl]
  | exercise i =>
    obtain ⟨_, _, _, _, _, hex, -⟩ := exercise_ok h
    exact exercise_kept htx ((hinv i).mp hex) h
  | cancelOption i =>
    obtain ⟨hex, -⟩ := OptionsPool.cancelOption_update h
    exact OptionsPool.cancelOption_kept (isLive_of_open _) (by rfl) ((hinv i).mp hex) h
  | settle i =>
    obtain ⟨hex, -⟩ := OptionsPool.settle_update h
    exact OptionsPool.settle_kept (isLive_of_purchased _) (by rfl) ((hinv i).mp hex) h
  | getReservation n =>
    rw [getReservation_ok h]
    exact .refl
  | getOption i =>
    rw [getOption_ok h]
    exact .refl
  | updateFeeRecipient newRecipient =>
    obtain ⟨-, -, -, rfl⟩ := updateFeeRecipient_ok h
    exact .refl
  | registerBtcPubkey data =>
    obtain ⟨_, -, -, -, rfl⟩ := registerBtcPubkey_ok h
    exact .refl

end

/-- Whatever others do short of taking the pool's tokens, the pool stays covered. -/
lemma covered_of_run {env : Env} {w₀ w : State} {h : Lts.History State (Label Call)}
    (hdep : Deployed w₀)
    (hrun : Lts.Run (Step env (Ledger.GrowsAt env.contractAddress) (exec env)) w₀ h w) :
    Covered isLive env w := by
  refine OptionsPool.covered_of_books hdep.base hrun fun h v tx c r v' hrun htx hexec => ?_
  have hinv := twoPhase_of_run hdep hrun
  exact exec_kept hinv.table hinv.reserves htx hexec

/-- Without transfers from outside the pool holds exactly what it owes. -/
lemma backed_of_run {env : Env} {w₀ w : State} {h : Lts.History State (Label Call)}
    (hdep : Deployed w₀) (hempty : ∀ token, w₀.ledger.balanceOf token env.contractAddress = 0)
    (hfee₀ : w₀.pool.feeRecipient ≠ env.contractAddress)
    (hrun : Lts.Run (Step env (Ledger.FixedAt env.contractAddress) (exec env)) w₀ h w)
    (hfee : ∀ p ∈ h, p.2.pool.feeRecipient ≠ env.contractAddress) : Backed isLive env w := by
  refine OptionsPool.backed_of_books hdep.base hempty hfee₀ hrun hfee
    fun h v tx c r v' hrun htx hexec => ?_
  have hinv := twoPhase_of_run hdep hrun
  exact ⟨exec_kept hinv.table hinv.reserves htx hexec, _,
    exec_advance hinv.table hinv.reserves hexec, fun _ _ ht => ht.sameTerms⟩

end Frogop.BtcQuote
