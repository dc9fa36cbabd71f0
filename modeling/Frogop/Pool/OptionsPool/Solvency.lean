import Frogop.Pool.OptionsPool.Lifecycle
import Frogop.Pool.Solvency

/-!
# Solvency of `OptionsPool`

The pool holds exactly the collateral of its open and purchased options. Every call keeps the
balance of what is held and what is owed (`exec_kept`), and no payout asks for more than is held.
-/

namespace Frogop.OptionsPool

open Outcome Custody World

/-- Collateral is owed until an option is exercised, settled or cancelled. -/
def isLive (o : OptionRecord) : Bool := o.status = .OPEN ∨ o.status = .PURCHASED

section

variable {σ : Type} {isLive : OptionRecord → Bool} {env : Env} {tx : Tx} {w w' : World σ}
  {r : Response} {i : ℕ}

/-- The books of a pool before and after a call. -/
abbrev Books (isLive : OptionRecord → Bool) (env : Env) (w w' : World σ) : Prop :=
  Kept (PaysOut env w.pool) (w.ledger.heldBy env.contractAddress) (debt isLive w.pool)
    (w'.ledger.heldBy env.contractAddress) (debt isLive w'.pool)

/-- The pool holds what it owes to the last unit, and pays nothing to itself. -/
structure Backed (isLive : OptionRecord → Bool) (env : Env) (w : World σ) : Prop where
  paysOut : PaysOut env w.pool
  held : ∀ token, w.ledger.heldBy env.contractAddress token = debt isLive w.pool token

lemma Backed.of_deployed (hdep : Deployed w)
    (hempty : ∀ token, w.ledger.balanceOf token env.contractAddress = 0)
    (hfee : w.pool.feeRecipient ≠ env.contractAddress) : Backed isLive env w := by
  obtain ⟨hnext, -⟩ := hdep.spec
  refine ⟨⟨hfee, fun i hi => by omega⟩, fun token => ?_⟩
  rw [debt, hnext, total_zero]
  exact hempty token

/-- A call that keeps the books balanced and the writers other than the pool. -/
lemma Backed.call {T : OptionRecord → OptionRecord → Prop} {F : OptionRecord → Prop}
    (hb : Backed isLive env w) (hbooks : Books isLive env w w') (hadv : Advance T F w.pool w'.pool)
    (hT : ∀ o o', T o o' → o.SameTerms o') (hF : ∀ o, F o → o.writer ≠ env.contractAddress)
    (hfee : w'.pool.feeRecipient ≠ env.contractAddress) : Backed isLive env w' := by
  refine ⟨⟨hfee, ?_⟩, hbooks.backs hb.paysOut hb.held⟩
  refine hadv.keeps (P := fun o => o.writer ≠ env.contractAddress) (fun o o' ht ho => ?_) hF
    hb.paysOut.writer
  rw [(hT o o' ht).writer]
  exact ho

/-! ### Runs of any pool -/

section

variable {C : Type} {exec : Tx → C → World σ → Except Revert (Reply σ)} {w₀ : World σ}
  {h : Lts.History (World σ) (Label C)}

/-- Calls that keep the books leave the pool covered, whatever others do short of taking its
tokens. -/
lemma covered_of_books (hdep : Deployed w₀)
    (hrun : Lts.Run (Step env (Ledger.GrowsAt env.contractAddress) exec) w₀ h w)
    (hbooks : ∀ h v tx c r v', Lts.Run (Step env (Ledger.GrowsAt env.contractAddress) exec) w₀ h v →
      tx.FromAccount env → exec tx c v = .ok (r, v') → Books isLive env v v') :
    Covered isLive env w := by
  refine hrun.induct (I := fun _ w => Covered isLive env w) ?_ ?_
  · intro token
    rw [debt, hdep.spec.1, total_zero]
    exact Nat.zero_le _
  · intro h v l u hrun hcov hstep
    cases hstep with
    | call htx hexec => exact (hbooks _ _ _ _ _ _ hrun htx hexec).covers hcov
    | reverted => exact hcov
    | elsewhere bridge hothers => exact fun token => (hcov token).trans (hothers token)

/-- Calls that keep the books leave the pool backed to the last unit, when nobody else moves its
tokens and no fee goes to it. -/
lemma backed_of_books (hdep : Deployed w₀)
    (hempty : ∀ token, w₀.ledger.balanceOf token env.contractAddress = 0)
    (hfee₀ : w₀.pool.feeRecipient ≠ env.contractAddress)
    (hrun : Lts.Run (Step env (Ledger.FixedAt env.contractAddress) exec) w₀ h w)
    (hfee : ∀ p ∈ h, p.2.pool.feeRecipient ≠ env.contractAddress)
    (hcall : ∀ h v tx c r v', Lts.Run (Step env (Ledger.FixedAt env.contractAddress) exec) w₀ h v →
      tx.FromAccount env → exec tx c v = .ok (r, v') → Books isLive env v v' ∧
        ∃ T, Advance T (Fresh tx v.pool.nextId) v.pool v'.pool ∧ ∀ o o', T o o' → o.SameTerms o') :
    Backed isLive env w := by
  refine hrun.induct
    (I := fun h w => (∀ p ∈ h, p.2.pool.feeRecipient ≠ env.contractAddress) → Backed isLive env w)
    (fun _ => .of_deployed hdep hempty hfee₀) ?_ hfee
  intro h v l u hrun hb hstep hfee
  have hv := hb fun p hp => hfee p (List.mem_cons_of_mem _ hp)
  cases hstep with
  | call htx hexec =>
    obtain ⟨hbooks, T, hadv, hT⟩ := hcall _ _ _ _ _ _ hrun htx hexec
    refine hv.call hbooks hadv hT (fun o ho => ?_) (hfee _ List.mem_cons_self)
    rw [ho.writer]
    exact htx.ne_pool
  | reverted => exact hv
  | elsewhere bridge hothers =>
    exact ⟨hv.paysOut, fun token => (hothers token).trans (hv.held token)⟩

end

/-! ### Methods shared by the pools -/

lemma writeOption_kept (htx : tx.FromAccount env) (hopen : ∀ o, o.status = .OPEN → isLive o = true)
    {t s e a p : ℕ} (h : writeOption env tx t s e a p w = .ok (r, w')) :
    Books isLive env w w' := by
  obtain ⟨ty, collateral, l, -, -, -, -, hcoll, hl, -, -, rfl⟩ := writeOption_ok h
  have hflow := Ledger.pull_flow htx.ne_pool hl
  exact kept_of_open (hopen _ rfl) hcoll (hflow.weaken fun _ => trivial)

lemma cancelOption_kept (hopen : (w.option i).status = .OPEN → isLive (w.option i) = true)
    (hdead : isLive { w.option i with status := .CANCELLED } = false) (hi : i < w.pool.nextId)
    (h : cancelOption env tx i w = .ok (r, w')) : Books isLive env w w' := by
  obtain ⟨collateral, fee, l₁, l₂, -, -, hstatus, hcoll, -, hle, hl₁, hl₂, -, rfl⟩ :=
    cancelOption_ok h
  have hreturn := (Ledger.pay_flow hl₁).2.weaken fun hp : PaysOut env w.pool => hp.writer i hi
  have hfee := hl₂.flow.weaken fun hp : PaysOut env w.pool => hp.feeRecipient
  have hflow := flow_pay hreturn hfee
  rw [Nat.sub_add_cancel hle] at hflow
  exact kept_of_release hi OptionStorage.get_setStatus (hopen hstatus) hdead hcoll hflow

lemma settle_kept (hbought : (w.option i).status = .PURCHASED → isLive (w.option i) = true)
    (hdead : isLive { w.option i with status := .EXPIRED } = false) (hi : i < w.pool.nextId)
    (h : settle env tx i w = .ok (r, w')) : Books isLive env w w' := by
  obtain ⟨collateral, l, -, hstatus, -, hcoll, hl, -, rfl⟩ := settle_ok h
  have hflow := (Ledger.pay_flow hl).2.weaken fun hp : PaysOut env w.pool => hp.writer i hi
  exact kept_of_release hi OptionStorage.get_setStatus (hbought hstatus) hdead hcoll hflow

/-- Buying moves the premium past the pool. -/
lemma buyOption_kept (htx : tx.FromAccount env)
    (hlive : (w.option i).status = .OPEN →
      isLive (w.option i) = isLive { w.option i with buyer := tx.sender, status := .PURCHASED })
    (hi : i < w.pool.nextId) (h : buyOption env tx i w = .ok (r, w')) : Books isLive env w w' := by
  obtain ⟨fee, l₁, l₂, -, hstatus, -, -, -, -, hl₁, hl₂, -, rfl⟩ := buyOption_ok h
  have hwriter := (Ledger.pass_flow htx.ne_pool hl₁).weaken
    fun hp : PaysOut env w.pool => hp.writer i hi
  have hfee := (Ledger.pass_flow htx.ne_pool hl₂).weaken
    fun hp : PaysOut env w.pool => hp.feeRecipient
  exact kept_of_pass hi (get_setBuyer_setStatus _ _ _) (hlive hstatus)
    (.update _ _ _) (flow_pass hwriter hfee)

/-! ### Payouts of the shared methods -/

/-- Writing and buying only pull tokens. -/
lemma writeOption_noShortfall {t s e a p : ℕ} :
    FailsOnly NoShortfall (writeOption env tx t s e a p w) := by
  refine .seq (by unfold checkType; split <;> simp) fun ty _ => ?_
  refine .seq (by simp [checkTerms]) fun _ _ => ?_
  refine .seq (failsOnly_collateral (by simp)) fun collateral _ => .seq (by simp) fun added _ => ?_
  refine .seq noShortfall_transferFrom fun w₁ _ => ?_
  simp

lemma buyOption_noShortfall : FailsOnly NoShortfall (buyOption env tx i w) := by
  refine .guard (by simp) fun _ => .guard (by simp) fun _ => .guard (by simp) fun _ => ?_
  refine .guard (by simp) fun _ => .seq (by simp) fun fee _ => .seq (by simp) fun rest _ => ?_
  refine .seq noShortfall_transferFrom fun w₁ _ => .seq noShortfall_transferFrom fun w₂ _ => ?_
  simp

lemma cancelOption_noShortfall (hopen : ∀ o, o.status = .OPEN → isLive o = true)
    (hcov : Covered isLive env w) (hinv : TableInv w.pool) :
    FailsOnly NoShortfall (cancelOption env tx i w) := by
  refine .guard (by simp) fun hex => .guard (by simp) fun _ => .guard (by simp) fun hstatus => ?_
  refine .seq (failsOnly_collateral (by simp)) fun collateral hcoll => ?_
  refine .seq (failsOnly_cancelFee (by simp)) fun fee _ => .seq (by simp) fun back hback => ?_
  obtain ⟨hfee, rfl⟩ := SafeMath.sub_eq_ok.mp hback
  have hheld := hcov.lockedAmount_le ((hinv i).mp hex) (hopen _ hstatus)
  rw [← OptionRecord.collateral_eq hcoll] at hheld
  obtain ⟨hpay, hrest⟩ := noShortfall_payout (w.setStatus i .CANCELLED) env (w.option i).writer
    hheld (Nat.sub_add_cancel hfee).le
  refine .seq hpay fun w₁ hw₁ => .seq (payFee_of_le (hrest w₁ hw₁)) fun w₂ _ => ?_
  simp

lemma settle_noShortfall (hbought : ∀ o, o.status = .PURCHASED → isLive o = true)
    (hcov : Covered isLive env w) (hinv : TableInv w.pool) :
    FailsOnly NoShortfall (settle env tx i w) := by
  refine .guard (by simp) fun hex => .guard (by simp) fun hstatus => .guard (by simp) fun _ => ?_
  refine .seq (failsOnly_collateral (by simp)) fun collateral hcoll => ?_
  have hheld := hcov.lockedAmount_le ((hinv i).mp hex) (hbought _ hstatus)
  rw [← OptionRecord.collateral_eq hcoll] at hheld
  refine .seq (transfer_of_le hheld) fun w₁ _ => ?_
  simp

end

section

variable {env : Env} {tx : Tx} {c : Call} {w v w' : State} {r : Response} {i : ℕ}

lemma isLive_iff {o : OptionRecord} :
    isLive o = true ↔ o.status = .OPEN ∨ o.status = .PURCHASED := decide_eq_true_iff

lemma isLive_of_open (o : OptionRecord) (h : o.status = .OPEN) : isLive o = true := by
  simp [isLive, h]

lemma isLive_of_purchased (o : OptionRecord) (h : o.status = .PURCHASED) : isLive o = true := by
  simp [isLive, h]

/-! ### The type-0 pool -/

lemma exercise_kept (htx : tx.FromAccount env) (hi : i < w.pool.nextId)
    (h : exercise env tx i w = .ok (r, w')) : Books isLive env w w' := by
  obtain ⟨value, collateral, fee, l₁, l₂, l₃, -, hstatus, -, -, -, -, hcoll, -, hle, hl₁, hl₂, hl₃,
    -, rfl⟩ := exercise_ok h
  have hprice := (Ledger.pass_flow htx.ne_pool hl₁).weaken
    fun hp : PaysOut env w.pool => hp.writer i hi
  have hbuyer := (Ledger.pay_flow hl₂).2.weaken fun _ : PaysOut env w.pool => htx.ne_pool
  have hfee := (Ledger.pay_flow hl₃).2.weaken fun hp : PaysOut env w.pool => hp.feeRecipient
  have hflow := flow_pass hprice (flow_pay hbuyer hfee)
  rw [Nat.sub_add_cancel hle] at hflow
  exact kept_of_release hi OptionStorage.get_setStatus (isLive_of_purchased _ hstatus)
    (by rfl) hcoll hflow

lemma transferOption_kept {newBuyer : Address} (hi : i < w.pool.nextId)
    (h : transferOption env tx i newBuyer w = .ok (r, w')) : Books isLive env w w' := by
  obtain ⟨-, -, -, -, -, -, -, rfl⟩ := transferOption_ok h
  exact kept_of_pass hi OptionStorage.get_setBuyer rfl (.update _ _ _) .refl

/-- What rolling takes in and gives out beside the fee. -/
lemma settlesDifference_flow {l l' : Ledger} {token : Address} {new refund : ℕ}
    (htx : tx.FromAccount env) (h : SettlesDifference env l tx.sender token new refund l') :
    Flow True (l.heldBy env.contractAddress) (l'.heldBy env.contractAddress)
      (Pi.single token (new - refund)) (Pi.single token (refund - new)) := by
  rcases lt_trichotomy refund new with hlt | heq | hlt
  · rw [Nat.sub_eq_zero_of_le hlt.le, Pi.single_zero]
    exact Ledger.pull_flow htx.ne_pool (h.1 hlt)
  · rw [h.2.2 heq.symm, heq, Nat.sub_self, Pi.single_zero]
    exact .refl
  · rw [Nat.sub_eq_zero_of_le hlt.le, Pi.single_zero]
    exact (Ledger.pay_flow (h.2.1 hlt)).2.weaken fun _ => htx.ne_pool

/-- Rolling exchanges the old collateral, less the fee, for the new one. -/
lemma rollOption_kept (htx : tx.FromAccount env) (hi : i < w.pool.nextId) {s e p : ℕ}
    (h : rollOption env tx i s e p w = .ok (r, w')) : Books isLive env w w' := by
  obtain ⟨old, new, fee, l₁, l₂, -, -, hstatus, -, -, -, hold, hnew, -, hle, hl₁, hl₂, -, -,
    rfl⟩ := rollOption_ok h
  have hfee := hl₁.flow.weaken fun hp : PaysOut env w.pool => hp.feeRecipient
  have hdiff := (settlesDifference_flow htx hl₂).weaken fun _ : PaysOut env w.pool => trivial
  have hflow := hfee.trans hdiff
  rw [zero_add, ← Pi.single_add] at hflow
  refine kept_of_replace hi OptionStorage.get_setStatus (isLive_of_open _ hstatus)
    (by rfl) hold (isLive_of_open _ rfl) hnew rfl hflow ?_
  omega

/-! ### Batches -/

/-- The books after part of a batch. -/
structure Balanced (env : Env) (w v : State) : Prop where
  table : TableInv v.pool
  paysOut : PaysOut env w.pool → PaysOut env v.pool
  books : Books isLive env w v

lemma Balanced.refl (hinv : TableInv w.pool) : Balanced env w w := ⟨hinv, id, .refl⟩

/-- One more option changes its status. -/
lemma Balanced.step {status : Status} (hv : Balanced env w v) (hbooks : Books isLive env v w')
    (hpool : w'.pool = { v.pool with options := v.pool.options.setStatus i status }) :
    Balanced env w w' := by
  have hwriter : ∀ j, (w'.pool.options.get j).writer = (v.pool.options.get j).writer := by
    intro j
    rw [hpool]
    by_cases hji : j = i
    · subst hji
      rw [OptionStorage.get_setStatus_self]
    · rw [OptionStorage.get_setStatus_of_ne hji]
  refine ⟨fun j => ?_, fun hp => ⟨?_, fun j hj => ?_⟩, hv.books.trans fun token => ?_⟩
  · rw [OptionStorage.existsAt_iff, hwriter, ← OptionStorage.existsAt_iff, hv.table j, hpool]
  · rw [hpool]
    exact (hv.paysOut hp).feeRecipient
  · rw [hpool] at hj
    rw [hwriter]
    exact (hv.paysOut hp).writer j hj
  · exact ⟨(hbooks token).1, fun hp => (hbooks token).2 (hv.paysOut hp)⟩

lemma batchCancelStep_balanced (hv : Balanced env w v)
    (h : batchCancelStep env tx v i = .ok w') : Balanced env w w' := by
  have hcancel := batchCancelStep_ok h
  obtain ⟨hex, -, -, hpool⟩ := cancelOption_update hcancel
  exact hv.step (cancelOption_kept (isLive_of_open _) (by rfl) ((hv.table i).mp hex) hcancel) hpool

lemma batchSettleStep_balanced {n n' : ℕ} (hv : Balanced env w v)
    (h : batchSettleStep env tx (n, v) i = .ok (n', w')) : Balanced env w w' := by
  rcases batchSettleStep_ok h with ⟨-, rfl⟩ | ⟨-, hsettle⟩
  · exact hv
  · obtain ⟨hex, -, -, hpool⟩ := settle_update hsettle
    exact hv.step (settle_kept (isLive_of_purchased _) (by rfl) ((hv.table i).mp hex) hsettle) hpool

/-! ### Every call -/

/-- A call changes what the pool holds by as much as it changes what the pool owes. -/
lemma exec_kept (hinv : TableInv w.pool) (htx : tx.FromAccount env)
    (h : exec env tx c w = .ok (r, w')) : Books isLive env w w' := by
  cases c with
  | writeOption t s e a p => exact writeOption_kept htx isLive_of_open h
  | cancelOption i =>
    obtain ⟨hex, -⟩ := cancelOption_update h
    exact cancelOption_kept (isLive_of_open _) (by rfl) ((hinv i).mp hex) h
  | buyOption i =>
    obtain ⟨_, _, _, hex, -⟩ := buyOption_ok h
    exact buyOption_kept htx (isLive_of_open _) ((hinv i).mp hex) h
  | exercise i =>
    obtain ⟨_, _, _, _, _, _, hex, -⟩ := exercise_ok h
    exact exercise_kept htx ((hinv i).mp hex) h
  | settle i =>
    obtain ⟨hex, -⟩ := settle_update h
    exact settle_kept (isLive_of_purchased _) (by rfl) ((hinv i).mp hex) h
  | transferOption i newBuyer =>
    obtain ⟨hex, -⟩ := transferOption_ok h
    exact transferOption_kept ((hinv i).mp hex) h
  | rollOption i s e p =>
    obtain ⟨_, _, _, _, _, hex, -⟩ := rollOption_ok h
    exact rollOption_kept htx ((hinv i).mp hex) h
  | batchCancel n a b c d e =>
    obtain ⟨ids, -, hloop, -⟩ := batchCancel_ok h
    refine (foldlM_induct (I := Balanced env w) hloop (.refl hinv) ?_).books
    intro v i v' _ hv hstep
    exact batchCancelStep_balanced hv hstep
  | batchSettle n a b c d e =>
    obtain ⟨ids, m, -, hloop, -⟩ := batchSettle_ok h
    refine (foldlM_induct (I := fun acc => Balanced env w acc.2) hloop (.refl hinv) ?_).books
    intro v i v' _ hv hstep
    exact batchSettleStep_balanced hv hstep
  | updateFeeRecipient newRecipient =>
    obtain ⟨-, -, -, rfl⟩ := updateFeeRecipient_ok h
    exact .refl
  | registerBtcPubkey data =>
    obtain ⟨_, -, -, -, rfl⟩ := registerBtcPubkey_ok h
    exact .refl

/-! ### Payouts -/

/-- An exercise pays out no more than the collateral. -/
lemma exchange_noShortfall {o : OptionRecord} {value : ℕ} (htx : tx.FromAccount env)
    (hvalue : strikeValue o.strikePrice o.underlyingAmount = .ok value)
    (hheld : o.lockedAmount
      ≤ w.ledger.heldBy env.contractAddress (w.pool.collateralToken o.optionType)) :
    FailsOnly NoShortfall (exchange env tx o value w) := by
  rw [exchange]
  cases htype : o.optionType with
  | CALL =>
    rw [OptionRecord.lockedAmount, htype] at hheld
    refine .seq (by simp) fun fee _ => .seq (by simp) fun rest hrest => ?_
    obtain ⟨hfee, rfl⟩ := SafeMath.sub_eq_ok.mp hrest
    refine .seq noShortfall_transferFrom fun w₁ hw₁ => ?_
    have hleft := transferFrom_leaves (t := w.pool.underlying) htx.ne_pool hw₁
    obtain ⟨l, -, rfl⟩ := transferFrom_eq_ok.mp hw₁
    exact noShortfall_deliver PoolStorage.underlying (hheld.trans hleft)
      (Nat.sub_add_cancel hfee).le fun _ => failsOnly_ok _
  | PUT =>
    rw [OptionRecord.lockedAmount, htype] at hheld
    obtain ⟨-, rfl⟩ := strikeValue_eq_ok.mp hvalue
    refine .seq (by simp) fun fee _ => .seq (by simp) fun rest hrest => ?_
    obtain ⟨hfee, rfl⟩ := SafeMath.sub_eq_ok.mp hrest
    refine .seq noShortfall_transferFrom fun w₁ hw₁ => ?_
    have hleft := transferFrom_leaves (t := w.pool.premiumToken) htx.ne_pool hw₁
    obtain ⟨l, -, rfl⟩ := transferFrom_eq_ok.mp hw₁
    exact noShortfall_deliver PoolStorage.premiumToken (hheld.trans hleft)
      (Nat.sub_add_cancel hfee).le fun _ => failsOnly_ok _

lemma exercise_noShortfall (hcov : Covered isLive env w) (hinv : TableInv w.pool)
    (htx : tx.FromAccount env) : FailsOnly NoShortfall (exercise env tx i w) := by
  refine .guard (by simp) fun hex => .guard (by simp) fun hstatus => .guard (by simp) fun _ => ?_
  refine .guard (by simp) fun _ => .guard (by simp) fun _ => .seq (by simp) fun value hvalue => ?_
  have hheld := hcov.lockedAmount_le ((hinv i).mp hex) (isLive_of_purchased _ hstatus)
  refine .seq (exchange_noShortfall htx hvalue hheld) fun paid _ => ?_
  simp

/-- Rolling pays out the fee, and at most the rest of the old collateral. -/
lemma settleDifference_noShortfall {token : Address} {new refund : ℕ}
    (hle : refund ≤ w.ledger.heldBy env.contractAddress token) :
    FailsOnly NoShortfall (settleDifference env tx.sender token new refund w) := by
  rw [settleDifference]
  split_ifs with htop hback
  · exact .seq (by simp) fun _ _ => noShortfall_transferFrom
  · refine .seq (by simp) fun surplus hsurplus => ?_
    obtain ⟨-, rfl⟩ := SafeMath.sub_eq_ok.mp hsurplus
    exact transfer_of_le ((Nat.sub_le _ _).trans hle)
  · exact failsOnly_ok _

lemma rollOption_noShortfall (hcov : Covered isLive env w) (hinv : TableInv w.pool) {s e p : ℕ} :
    FailsOnly NoShortfall (rollOption env tx i s e p w) := by
  refine .guard (by simp) fun hex => .guard (by simp) fun _ => .guard (by simp) fun hstatus => ?_
  refine .guard (by simp) fun _ => .guard (by simp) fun _ => .guard (by simp) fun _ => ?_
  refine .seq (failsOnly_collateral (by simp)) fun old hold => ?_
  refine .seq (failsOnly_collateral (by simp)) fun new _ => ?_
  refine .seq (failsOnly_cancelFee (by simp)) fun fee hcancel => ?_
  have hheld := hcov.lockedAmount_le ((hinv i).mp hex) (isLive_of_open _ hstatus)
  rw [← OptionRecord.collateral_eq hold] at hheld
  have hfee : fee ≤ old := cancelFee_le hcancel
  refine .seq (payFee_of_le (hfee.trans hheld)) fun w₁ hw₁ => .seq (by simp) fun refund href => ?_
  obtain ⟨-, rfl⟩ := SafeMath.sub_eq_ok.mp href
  have hleft := payFee_leaves hw₁
  have hrest : old - fee ≤ w₁.ledger.heldBy env.contractAddress
      (w.pool.collateralToken (w.option i).optionType) :=
    Nat.sub_le_iff_le_add.mpr (hheld.trans hleft)
  refine .seq (settleDifference_noShortfall hrest) fun w₂ _ => .seq (by simp) fun added _ => ?_
  simp

/-! Between the iterations of a batch the pool stays covered. -/

lemma Balanced.covered (hv : Balanced env w v) (hcov : Covered isLive env w) :
    Covered isLive env v :=
  hv.books.covers hcov

lemma batchSettleStep_noShortfall {n : ℕ} (hcov : Covered isLive env w) (hinv : TableInv w.pool) :
    FailsOnly NoShortfall (batchSettleStep env tx (n, w) i) := by
  simp only [batchSettleStep]
  split_ifs with hex hstatus hgrace
  · exact failsOnly_ok _
  · exact failsOnly_ok _
  · refine .seq (failsOnly_collateral (by simp)) fun collateral hcoll => ?_
    have hheld := hcov.lockedAmount_le ((hinv i).mp hex)
      (isLive_of_purchased _ (not_not.mp hstatus))
    rw [← OptionRecord.collateral_eq hcoll] at hheld
    refine .seq (transfer_of_le hheld) fun w₁ _ => .seq (by simp) fun w₂ _ => ?_
    simp
  · exact failsOnly_ok _

lemma failsOnly_batchIds {P : Revert → Prop} (hP : ∀ m, P (.revert m)) {n a b c d e : ℕ} :
    FailsOnly P (batchIds n a b c d e) := by
  refine .guard (hP _) fun _ => .guard (hP _) fun _ => .guard (hP _) fun _ => ?_
  exact failsOnly_ok _

lemma batchCancel_noShortfall (hcov : Covered isLive env w) (hinv : TableInv w.pool)
    {n a b c d e : ℕ} : FailsOnly NoShortfall (batchCancel env tx n a b c d e w) := by
  refine .seq (failsOnly_batchIds noShortfall_revert) fun ids _ => .seq ?_ fun w' _ => by simp
  refine failsOnly_foldlM (I := Balanced env w) (.refl hinv) (fun v i _ hv => ?_) ?_
  · have hcancel : FailsOnly NoShortfall (cancelOption env tx i v) :=
      cancelOption_noShortfall isLive_of_open (hv.covered hcov) hv.table
    rw [cancelOption_eq] at hcancel
    exact (failsOnly_bind.mp hcancel).1
  · intro v i v' _ hv hstep
    exact batchCancelStep_balanced hv hstep

lemma batchSettle_noShortfall (hcov : Covered isLive env w) (hinv : TableInv w.pool)
    {n a b c d e : ℕ} : FailsOnly NoShortfall (batchSettle env tx n a b c d e w) := by
  refine .seq (failsOnly_batchIds noShortfall_revert) fun ids _ => .seq ?_ fun w' _ => by simp
  refine failsOnly_foldlM (I := fun acc => Balanced env w acc.2) (.refl hinv)
    (fun v i _ hv => ?_) ?_
  · exact batchSettleStep_noShortfall (hv.covered hcov) hv.table
  · intro v i v' _ hv hstep
    exact batchSettleStep_balanced hv hstep

/-- Every payout is covered by what the pool owes for the option it is about. -/
lemma exec_noShortfall (hcov : Covered isLive env w) (hinv : TableInv w.pool)
    (htx : tx.FromAccount env) : FailsOnly NoShortfall (exec env tx c w) := by
  cases c with
  | writeOption t s e a p => exact writeOption_noShortfall
  | cancelOption i => exact cancelOption_noShortfall isLive_of_open hcov hinv
  | buyOption i => exact buyOption_noShortfall
  | exercise i => exact exercise_noShortfall hcov hinv htx
  | settle i => exact settle_noShortfall isLive_of_purchased hcov hinv
  | transferOption i newBuyer => simp [exec, transferOption]
  | rollOption i s e p => exact rollOption_noShortfall hcov hinv
  | batchCancel n a b c d e => exact batchCancel_noShortfall hcov hinv
  | batchSettle n a b c d e => exact batchSettle_noShortfall hcov hinv
  | updateFeeRecipient newRecipient => simp [exec, updateFeeRecipient]
  | registerBtcPubkey data =>
    simp [exec, registerBtcPubkey, readBytes]

end

/-! ### Runs -/

section

variable {env : Env} {w₀ w : State} {h : Lts.History State (Label Call)}

/-- Whatever others do short of taking the pool's tokens, the pool stays covered. -/
lemma covered_of_run (hdep : Deployed w₀)
    (hrun : Lts.Run (Step env (Ledger.GrowsAt env.contractAddress) (exec env)) w₀ h w) :
    Covered isLive env w :=
  covered_of_books hdep hrun fun _ _ _ _ _ _ hrun htx hexec =>
    exec_kept (table_of_run hdep hrun) htx hexec

/-- Without transfers from outside the pool holds exactly what it owes. -/
lemma backed_of_run (hdep : Deployed w₀)
    (hempty : ∀ token, w₀.ledger.balanceOf token env.contractAddress = 0)
    (hfee₀ : w₀.pool.feeRecipient ≠ env.contractAddress)
    (hrun : Lts.Run (Step env (Ledger.FixedAt env.contractAddress) (exec env)) w₀ h w)
    (hfee : ∀ p ∈ h, p.2.pool.feeRecipient ≠ env.contractAddress) : Backed isLive env w := by
  refine backed_of_books hdep hempty hfee₀ hrun hfee fun h v tx c r v' hrun htx hexec => ?_
  have hinv := table_of_run hdep hrun
  exact ⟨exec_kept hinv htx hexec, _, exec_advance hinv hexec, fun _ _ ht => ht.sameTerms⟩

/-- In every run in which nobody moves the pool's tokens from outside and no fee goes to the pool
itself, the pool holds exactly the collateral of its open and purchased options, and no payout
fails for lack of balance. -/
theorem solvency (hdep : Deployed w₀)
    (hempty : ∀ token, w₀.ledger.balanceOf token env.contractAddress = 0)
    (hfee₀ : w₀.pool.feeRecipient ≠ env.contractAddress)
    (hrun : Lts.Run (Step env (Ledger.FixedAt env.contractAddress) (exec env)) w₀ h w)
    (hfee : ∀ p ∈ h, p.2.pool.feeRecipient ≠ env.contractAddress) :
    (∀ token, w.ledger.balanceOf token env.contractAddress =
      ∑ i ∈ Finset.range w.pool.nextId,
        if ((w.option i).status = .OPEN ∨ (w.option i).status = .PURCHASED) ∧
            token = w.pool.collateralToken (w.option i).optionType
          then (w.option i).lockedAmount else 0) ∧
      ∀ tx c e, tx.FromAccount env → exec env tx c w = .error e →
        e ≠ .token "Transfer out failed" .insufficientBalance := by
  have hb := backed_of_run hdep hempty hfee₀ hrun hfee
  refine ⟨fun token => ?_, fun tx c e htx herror => ?_⟩
  · rw [← Ledger.heldBy, hb.held token, debt, total]
    refine Finset.sum_congr rfl fun i _ => ?_
    simp only [locked_apply, isLive, decide_eq_true_eq]
  · exact exec_noShortfall (fun token => (hb.held token).ge) (table_of_run hdep hrun) htx e herror

/-- The pool holds the four units of the underlying of the one option sold, and nothing else. -/
theorem solvency_sold :
    ((Testnet.sold (10 ^ 18) 4 100).ledger.balanceOf (Testnet.account 2)
        Testnet.env.contractAddress = 4 ∧
      (Testnet.sold (10 ^ 18) 4 100).ledger.balanceOf (Testnet.account 3)
        Testnet.env.contractAddress = 0) ∧
    ∀ tx c e, tx.FromAccount Testnet.env →
      exec Testnet.env tx c (Testnet.sold (10 ^ 18) 4 100) = .error e →
      e ≠ .token "Transfer out failed" .insufficientBalance := by
  have hsolvent := solvency (Testnet.deployed ()) (fun _ => rfl) (by decide)
    (Testnet.run_sold _ (s := 10 ^ 18) (a := 4) (p := 100) rfl rfl) (by
      simp only [List.forall_mem_cons]
      exact ⟨by decide, by decide, by simp⟩)
  exact ⟨⟨(hsolvent.1 _).trans rfl, (hsolvent.1 _).trans rfl⟩, hsolvent.2⟩

end

end Frogop.OptionsPool
