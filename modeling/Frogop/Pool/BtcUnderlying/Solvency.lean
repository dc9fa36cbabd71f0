import Frogop.Pool.BtcUnderlying.Lifecycle
import Frogop.Pool.OptionsPool.Solvency

/-!
# Solvency of `OptionsPoolBtcUnderlying`

The pool holds the collateral of its PUTs; the bitcoin of a CALL is not its to hold.
-/

namespace Frogop.BtcUnderlying

open Outcome Custody World
open OptionsPool (Books Backed)

/-- The pool owes the collateral of a PUT until it is exercised, settled or cancelled. -/
def isLive (o : OptionRecord) : Bool :=
  o.optionType = .PUT ∧ (o.status = .OPEN ∨ o.status = .PURCHASED)

lemma isLive_of_call {o : OptionRecord} (htype : o.optionType = .CALL) : isLive o = false := by
  simp [isLive, htype]

lemma isLive_of_put {o : OptionRecord} (htype : o.optionType = .PUT)
    (hstatus : o.status = .OPEN ∨ o.status = .PURCHASED) : isLive o = true := by
  simp [isLive, htype, hstatus]

section

variable {env : Env} {tx : Tx} {c : Call} {w w' : State} {r : Response} {i : ℕ}

lemma writeOptionBtc_kept (htx : tx.FromAccount env) {t s e a p : ℕ}
    (h : writeOptionBtc env tx t s e a p w = .ok (r, w')) : Books isLive env w w' := by
  obtain ⟨-, -, -, hcall | hput⟩ := writeOptionBtc_ok h
  · obtain ⟨_, _, -, -, -, -, -, hpool, -, hledger, -⟩ := writeCall_ok hcall
    show Kept _ _ _ (w'.ledger.heldBy _) (debt isLive w'.pool)
    rw [hpool, hledger]
    exact kept_of_open_dead (isLive_of_call rfl) .refl
  · obtain ⟨collateral, hcoll, hpull, -, hpool, -⟩ := writePut_ok hput
    have hflow := Ledger.pull_flow htx.ne_pool hpull
    show Kept _ _ _ (w'.ledger.heldBy _) (debt isLive w'.pool)
    rw [hpool]
    exact kept_of_open (isLive_of_put rfl (.inl rfl)) hcoll (hflow.weaken fun _ => trivial)

/-- What is owed does not depend on how a CALL ends. -/
lemma kept_of_call {o' : OptionRecord} {s : OptionStorage} {exact : Prop} {p : PoolStorage}
    {held held' : Address → ℕ} (htype : (p.options.get i).optionType = .CALL) (hi : i < p.nextId)
    (hget : s.get = Function.update p.options.get i o') (hterms : (p.options.get i).SameTerms o')
    (hflow : Flow exact held held' 0 0) :
    Kept exact held (debt isLive p) held' (debt isLive { p with options := s }) := by
  refine kept_of_pass hi hget ?_ hterms hflow
  have htype' : o'.optionType = .CALL := hterms.optionType ▸ htype
  exact (isLive_of_call htype).trans (isLive_of_call htype').symm

lemma cancelOption_kept (hi : i < w.pool.nextId) (h : cancelOption env tx i w = .ok (r, w')) :
    Books isLive env w w' := by
  cases htype : (w.option i).optionType with
  | CALL =>
    obtain ⟨-, -, -, rfl⟩ := cancelOption_call htype h
    exact kept_of_call htype hi OptionStorage.get_setStatus
      (.update _ _ _) .refl
  | PUT =>
    rw [cancelOption_put htype] at h
    exact OptionsPool.cancelOption_kept (fun hopen => isLive_of_put htype (.inl hopen))
      (by simp [isLive]) hi h

lemma settle_kept (hi : i < w.pool.nextId) (h : settle env tx i w = .ok (r, w')) :
    Books isLive env w w' := by
  cases htype : (w.option i).optionType with
  | CALL =>
    obtain ⟨-, -, -, rfl⟩ := settle_call htype h
    exact kept_of_call htype hi OptionStorage.get_setStatus
      (.update _ _ _) .refl
  | PUT =>
    rw [settle_put htype] at h
    exact OptionsPool.settle_kept (fun hbought => isLive_of_put htype (.inr hbought))
      (by simp [isLive]) hi h

/-- The strike of a CALL passes the pool by, that of a PUT is the collateral. -/
lemma exercise_kept (htx : tx.FromAccount env) (hi : i < w.pool.nextId)
    (h : exercise env tx i w = .ok (r, w')) : Books isLive env w w' := by
  obtain ⟨value, fee, w₁, -, hbought, -, -, -, hvalue, hpay, hpool, -, hledger, -⟩ := exercise_ok h
  show Kept _ _ _ (w'.ledger.heldBy _) (debt isLive w'.pool)
  rw [hpool, hledger]
  cases htype : (w.option i).optionType with
  | CALL =>
    simp only [exchange, htype] at hpay
    obtain ⟨l₁, -, -, hl₁, hl₂, -⟩ := exerciseCall_ok hpay
    have hwriter := (Ledger.pass_flow htx.ne_pool hl₁).weaken
      fun hp : PaysOut env w.pool => hp.writer i hi
    have hfee := (Ledger.pass_flow htx.ne_pool hl₂).weaken
      fun hp : PaysOut env w.pool => hp.feeRecipient
    exact kept_of_call htype hi OptionStorage.get_setStatus
      (.update _ _ _) (flow_pass hwriter hfee)
  | PUT =>
    simp only [exchange, htype] at hpay
    obtain ⟨l₁, hle, hl₁, hl₂, -⟩ := exercisePut_ok hpay
    have hbuyer := (Ledger.pay_flow hl₁).2.weaken fun _ : PaysOut env w.pool => htx.ne_pool
    have hfee := (Ledger.pay_flow hl₂).2.weaken fun hp : PaysOut env w.pool => hp.feeRecipient
    have hflow := flow_pay hbuyer hfee
    rw [Nat.sub_add_cancel hle] at hflow
    have hcoll : (w.option i).collateral = .ok value := by
      rw [OptionRecord.collateral, htype]
      exact hvalue
    refine kept_of_release hi OptionStorage.get_setStatus (isLive_of_put htype (.inr hbought)) ?_
      hcoll ?_
    · simp [isLive]
    · show Flow _ _ _ _ (Pi.single (w.pool.collateralToken (w.option i).optionType) _)
      rw [htype]
      exact hflow

/-- A call changes what the pool holds by as much as it changes what the pool owes. -/
lemma exec_kept (hinv : TableInv w.pool) (htx : tx.FromAccount env)
    (h : exec env tx c w = .ok (r, w')) : Books isLive env w w' := by
  cases c with
  | writeOptionBtc t s e a p => exact writeOptionBtc_kept htx h
  | buyOption i =>
    obtain ⟨_, _, _, hex, -⟩ := OptionsPool.buyOption_ok h
    refine OptionsPool.buyOption_kept htx (fun hopen => ?_) ((hinv i).mp hex) h
    simp [isLive, hopen]
  | exercise i =>
    obtain ⟨_, _, _, hex, -⟩ := exercise_ok h
    exact exercise_kept htx ((hinv i).mp hex) h
  | cancelOption i =>
    obtain ⟨hex, -⟩ := cancelOption_update h
    exact cancelOption_kept ((hinv i).mp hex) h
  | settle i =>
    obtain ⟨hex, -⟩ := settle_update h
    exact settle_kept ((hinv i).mp hex) h
  | getOption i =>
    rw [getOption_ok h]
    exact .refl
  | updateFeeRecipient newRecipient =>
    obtain ⟨-, -, -, rfl⟩ := updateFeeRecipient_ok h
    exact .refl
  | registerBtcPubkey data =>
    obtain ⟨_, -, -, -, rfl⟩ := registerBtcPubkey_ok h
    exact .refl

end

/-- Whatever others do short of taking the pool's tokens, the pool stays covered. -/
lemma covered_of_run {env : Env} {w₀ w : State} {h : Lts.History State (Label Call)}
    (hdep : Deployed w₀)
    (hrun : Lts.Run (Step env (Ledger.GrowsAt env.contractAddress) (exec env)) w₀ h w) :
    Covered isLive env w := by
  refine OptionsPool.covered_of_books hdep.base hrun fun h v tx c r v' hrun htx hexec => ?_
  exact exec_kept (lifeInv_of_run hdep hrun).table htx hexec

/-! ### CALLs -/

/-- A call that writes a CALL, or is about one. -/
def OnCall (w : State) : Call → Prop
  | .writeOptionBtc t _ _ _ _ => OptionType.ofU8 t = some .CALL
  | .buyOption i | .exercise i | .cancelOption i | .settle i => (w.option i).optionType = .CALL
  | .getOption _ | .updateFeeRecipient _ | .registerBtcPubkey _ => False

section

variable {env : Env} {tx : Tx} {c : Call} {w w' : State} {r : Response} {i : ℕ}

lemma writeOptionBtc_call {t s e a p : ℕ} (htype : OptionType.ofU8 t = some .CALL)
    (h : writeOptionBtc env tx t s e a p w = .ok (r, w')) :
    writeCall env tx s e a p w = .ok (r, w') := by
  have hcheck : OptionsPool.checkType t = .ok .CALL := by rw [OptionsPool.checkType, htype]
  rw [writeOptionBtc, hcheck, ok_bind, bind_eq_ok] at h
  obtain ⟨-, -, h⟩ := h
  exact h

/-- The tokens of a CALL pass the pool by. -/
lemma onCall_flow (htx : tx.FromAccount env) (hinv : TableInv w.pool) (hc : OnCall w c)
    (h : exec env tx c w = .ok (r, w')) :
    Flow (PaysOut env w.pool) (w.ledger.heldBy env.contractAddress)
      (w'.ledger.heldBy env.contractAddress) 0 0 := by
  cases c with
  | writeOptionBtc t s e a p =>
    obtain ⟨_, _, -, -, -, -, -, -, -, hledger, -⟩ := writeCall_ok (writeOptionBtc_call hc h)
    rw [hledger]
    exact .refl
  | buyOption i =>
    obtain ⟨fee, l₁, l₂, hex, -, -, -, -, -, hl₁, hl₂, -, rfl⟩ := OptionsPool.buyOption_ok h
    have hwriter := (Ledger.pass_flow htx.ne_pool hl₁).weaken
      fun hp : PaysOut env w.pool => hp.writer i ((hinv i).mp hex)
    have hfee := (Ledger.pass_flow htx.ne_pool hl₂).weaken
      fun hp : PaysOut env w.pool => hp.feeRecipient
    exact flow_pass hwriter hfee
  | exercise i =>
    obtain ⟨value, fee, w₁, hex, -, -, -, -, -, hpay, -, -, hledger, -⟩ := exercise_ok h
    simp only [OnCall] at hc
    simp only [exchange, hc] at hpay
    obtain ⟨l₁, -, -, hl₁, hl₂, -⟩ := exerciseCall_ok hpay
    have hwriter := (Ledger.pass_flow htx.ne_pool hl₁).weaken
      fun hp : PaysOut env w.pool => hp.writer i ((hinv i).mp hex)
    have hfee := (Ledger.pass_flow htx.ne_pool hl₂).weaken
      fun hp : PaysOut env w.pool => hp.feeRecipient
    rw [hledger]
    exact flow_pass hwriter hfee
  | cancelOption i =>
    obtain ⟨-, -, -, rfl⟩ := cancelOption_call hc h
    exact .refl
  | settle i =>
    obtain ⟨-, -, -, rfl⟩ := settle_call hc h
    exact .refl
  | getOption i => exact hc.elim
  | updateFeeRecipient newRecipient => exact hc.elim
  | registerBtcPubkey data => exact hc.elim

end

/-! ### Runs -/

/-- Without transfers from outside the pool holds exactly what it owes. -/
lemma backed_of_run {env : Env} {w₀ w : State} {h : Lts.History State (Label Call)}
    (hdep : Deployed w₀) (hempty : ∀ token, w₀.ledger.balanceOf token env.contractAddress = 0)
    (hfee₀ : w₀.pool.feeRecipient ≠ env.contractAddress)
    (hrun : Lts.Run (Step env (Ledger.FixedAt env.contractAddress) (exec env)) w₀ h w)
    (hfee : ∀ p ∈ h, p.2.pool.feeRecipient ≠ env.contractAddress) : Backed isLive env w := by
  refine OptionsPool.backed_of_books hdep.base hempty hfee₀ hrun hfee
    fun h v tx c r v' hrun htx hexec => ?_
  have hinv := lifeInv_of_run hdep hrun
  exact ⟨exec_kept hinv.table htx hexec, _, exec_advance hinv.table hexec,
    fun _ _ ht => ht.sameTerms⟩

end Frogop.BtcUnderlying
