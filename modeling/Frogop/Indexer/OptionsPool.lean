import Frogop.Indexer.Calls

/-!
# The rows of a type-0 pool

Every call of the type-0 pool is reflected, so after any run the option rows mirror the storage of
the pool, and the fee rows are the fees among its payments.
-/

namespace Frogop

namespace OptionsPool

open Outcome World Indexer

/-! ### The payments of the type-0 pool -/

/-- The price goes to the writer, the collateral to the buyer. -/
def exercisePayments (env : Env) (tx : Tx) (p : PoolStorage) (o : OptionRecord) : List Payment :=
  let value := amountOf (strikeValue o.strikePrice o.underlyingAmount)
  ⟨priceToken p o.optionType, tx.sender, o.writer, exercisePrice o value, none⟩
    :: collateralPayments env tx p o

/-- The fee, and what the writer adds to the collateral or gets back of it. -/
def rollPayments (env : Env) (tx : Tx) (p : PoolStorage) (o : OptionRecord)
    (newStrikePrice : ℕ) : List Payment :=
  let token := p.collateralToken o.optionType
  let oldCollateral := amountOf o.collateral
  let refund := oldCollateral - amountOf (cancelFee tx.block o oldCollateral)
  let newCollateral := amountOf (collateralAmount o.optionType newStrikePrice o.underlyingAmount)
  cancelFeePayments env tx p o ++
    if refund < newCollateral then
      [⟨token, tx.sender, env.contractAddress, newCollateral - refund, none⟩]
    else if newCollateral < refund then
      [⟨token, env.contractAddress, tx.sender, refund - newCollateral, none⟩]
    else []

/-- `batchSettle` skips the other ids. -/
def settledPayments (env : Env) (tx : Tx) (p : PoolStorage) (i : ℕ) : List Payment :=
  let o := p.options.get i
  if p.options.existsAt i ∧ o.status = .PURCHASED ∧ p.graceEnd o ≤ tx.block then
    settlePayments env p o
  else []

def payments (env : Env) (tx : Tx) : Call → State → List Payment
  | .writeOption t s _ a _, w =>
    ((OptionType.ofU8 t).map (writePayments env tx w.pool · s a)).getD []
  | .cancelOption i, w => cancelPayments env tx w.pool (w.option i)
  | .buyOption i, w => buyPayments tx w.pool (w.option i)
  | .exercise i, w => exercisePayments env tx w.pool (w.option i)
  | .settle i, w => settlePayments env w.pool (w.option i)
  | .rollOption i s _ _, w => rollPayments env tx w.pool (w.option i) s
  | .batchCancel n a b c d e, w =>
    ([a, b, c, d, e].take n).flatMap fun i => cancelPayments env tx w.pool (w.option i)
  | .batchSettle n a b c d e, w =>
    ([a, b, c, d, e].take n).flatMap (settledPayments env tx w.pool)
  | .transferOption _ _, _ | .updateFeeRecipient _, _ | .registerBtcPubkey _, _ => []

section

variable {σ : Type} {env : Env} {tx : Tx} {w w' : World σ} {r : Response} {i : ℕ}
  {tracking : Tracking} {pool : String}

lemma writeOption_reflects {t s e a p : ℕ} (h : writeOption env tx t s e a p w = .ok (r, w')) :
    Reflects env tracking pool w w'
      (((OptionType.ofU8 t).map (writePayments env tx w.pool · s a)).getD []) [] := by
  obtain ⟨ty, collateral, _, ht, -, -, -, hcoll, hpaid, hids, -, rfl⟩ := writeOption_ok h
  refine ⟨⟨_, rfl, .written rfl rfl rfl fun _ _ => decode_written⟩, ?_, fun _ => hids.le⟩
  rw [ht, Option.map_some, Option.getD_some, writePayments, hcoll]
  exact .one hpaid

lemma exercise_reflects (hi : i < w.pool.nextId) (h : exercise env tx i w = .ok (r, w')) :
    Reflects env tracking pool w w' (exercisePayments env tx w.pool (w.option i))
      (feesOf (exercisePayments env tx w.pool (w.option i))) := by
  obtain ⟨value, collateral, fee, _, _, _, -, -, -, -, -, hvalue, hcoll, hfee, -, hprice, hback,
    hpaid, -, rfl⟩ := exercise_ok h
  refine ⟨⟨_, rfl, ?_⟩, .cons ?_ (pays_collateral hcoll hfee hback hpaid), id⟩
  · rw [exercisePayments, feesOf_plain, feesOf_collateralPayments hcoll hfee, option_id]
    refine .status hi OptionStorage.get_setStatus (keepBuyer _) fun blockNumber txId => ?_
    rw [decode_exercised, Nat.mod_eq_of_lt (ceilBps_lt hfee)]
    rfl
  · rw [hvalue]
    exact hprice

lemma transferOption_reflects {newBuyer : Address} (hi : i < w.pool.nextId)
    (h : transferOption env tx i newBuyer w = .ok (r, w')) :
    Reflects env tracking pool w w' [] [] := by
  obtain ⟨-, -, -, hzero, -, -, -, rfl⟩ := transferOption_ok h
  exact ⟨⟨_, rfl, .transferred hi hzero fun _ _ => decode_transferred⟩, .nil, id⟩

lemma rollOption_reflects {s e p : ℕ} (hi : i < w.pool.nextId)
    (h : rollOption env tx i s e p w = .ok (r, w')) :
    Reflects env tracking pool w w' (rollPayments env tx w.pool (w.option i) s)
      (feesOf (rollPayments env tx w.pool (w.option i) s)) := by
  obtain ⟨collateral, newCollateral, fee, l₁, l₂, -, -, -, -, -, -, hcoll, hnew, hfee, -, hpaid,
    hdiff, hids, -, rfl⟩ := rollOption_ok h
  refine ⟨⟨_, rfl, ?_⟩, ?_, fun _ => hids.le⟩
  · have hcancelled : Follows tracking pool w.pool
        [⟨.optionCancelled, 128, [.u256 i, .address tx.sender, .u256 (collateral - fee),
          .u256 fee]⟩] { w.pool with options := w.pool.options.setStatus i .CANCELLED }
        (recorded i .CANCEL fee) := by
      refine .status hi OptionStorage.get_setStatus (keepBuyer _) fun blockNumber txId => ?_
      rw [decode_cancelled, Nat.mod_eq_of_lt (cancelFee_lt hfee)]
      rfl
    have hfees : feesOf (rollPayments env tx w.pool (w.option i) s)
        = recorded i .CANCEL fee ++ [] := by
      rw [rollPayments, feesOf_append, feesOf_cancelFeePayments hcoll hfee]
      split_ifs <;> rfl
    rw [hfees]
    refine hcancelled.trans (.written_silent rfl rfl rfl (fun _ _ => decode_written) ?_)
    simp [EventName.Silent]
  · apply (pays_cancelFee hcoll hfee hpaid).append
    rw [hcoll, hnew, amountOf, amountOf, hfee, amountOf]
    split_ifs with hmore hless
    · exact .one (hdiff.1 hmore)
    · exact .one (hdiff.2.1 hless)
    · rw [hdiff.2.2 (le_antisymm (not_lt.mp hmore) (not_lt.mp hless))]
      exact .nil

end

section

variable {env : Env} {others : Ledger → Ledger → Prop} {tx : Tx} {c : Call} {w w' : State}
  {r : Response} {i : ℕ} {tracking : Tracking} {pool : String} {ids : List ℕ}

/-! ### Batches -/

/-- What is paid for an option depends on the addresses in the storage and on the option. -/
lemma cancelPayments_congr {p p' : PoolStorage} {s : OptionStorage} {o : OptionRecord}
    (hp : p' = { p with options := s }) :
    cancelPayments env tx p' o = cancelPayments env tx p o := by
  rw [hp]
  rfl

/-- An option that was not among those dealt with. -/
lemma option_setStatus_of_ne {status : Status} {j : ℕ} (hne : j ≠ i)
    (hpool : w'.pool = { w.pool with options := w.pool.options.setStatus i status }) :
    w'.option j = w.option j := by
  rw [World.option, hpool]
  exact OptionStorage.get_setStatus_of_ne hne

lemma batchCancelLoop_reflects (htx : tx.FromAccount env) (hinv : TableInv w.pool)
    (hids : ids.Nodup) (h : ids.foldlM (batchCancelStep env tx) w = .ok w') :
    Reflects env tracking pool w w'
      (ids.flatMap fun i => cancelPayments env tx w.pool (w.option i))
      (feesOf (ids.flatMap fun i => cancelPayments env tx w.pool (w.option i))) := by
  refine cancelLoop_induct (R := fun w ids w' => Reflects env tracking pool w w'
    (ids.flatMap fun i => cancelPayments env tx w.pool (w.option i))
    (feesOf (ids.flatMap fun i => cancelPayments env tx w.pool (w.option i)))) h htx hinv hids
    (fun _ => .refl) fun w w₁ w' i ids hinv hnotin hcancel hfollows => ?_
  obtain ⟨hex, -, -, hpool⟩ := cancelOption_update hcancel
  -- the ids that follow are others, so their options have not changed
  have hsame : ids.flatMap (fun j => cancelPayments env tx w₁.pool (w₁.option j))
      = ids.flatMap fun j => cancelPayments env tx w.pool (w.option j) := by
    refine List.flatMap_congr fun j hj => ?_
    have hne : j ≠ i := fun hji => hnotin (hji ▸ hj)
    rw [option_setStatus_of_ne hne hpool, cancelPayments_congr hpool]
  rw [hsame] at hfollows
  rw [List.flatMap_cons, feesOf_append]
  exact (cancelOption_reflects ((hinv i).mp hex) hcancel).trans hfollows

lemma settledPayments_of_ne {status : Status} {j : ℕ} (hne : j ≠ i)
    (hpool : w'.pool = { w.pool with options := w.pool.options.setStatus i status }) :
    settledPayments env tx w'.pool j = settledPayments env tx w.pool j := by
  have hget : (w.pool.options.setStatus i status).get j = w.pool.options.get j :=
    OptionStorage.get_setStatus_of_ne hne
  rw [hpool]
  simp only [settledPayments, OptionStorage.existsAt_iff, hget]
  rfl

lemma feesOf_settled {p : PoolStorage} :
    feesOf (ids.flatMap (settledPayments env tx p)) = [] := by
  induction ids with
  | nil => rfl
  | cons i ids ih =>
    rw [List.flatMap_cons, feesOf_append, ih, List.append_nil, settledPayments]
    split_ifs <;> rfl

lemma batchSettleLoop_reflects (htx : tx.FromAccount env) {n n' : ℕ} (hinv : TableInv w.pool)
    (hids : ids.Nodup) (h : ids.foldlM (batchSettleStep env tx) (n, w) = .ok (n', w')) :
    Reflects env tracking pool w w' (ids.flatMap (settledPayments env tx w.pool)) [] := by
  refine settleLoop_induct (R := fun w ids w' => Reflects env tracking pool w w'
    (ids.flatMap (settledPayments env tx w.pool)) []) h htx hinv hids (fun _ => .refl) ?_ ?_
  · intro w w' i ids hdue hfollows
    rw [List.flatMap_cons, settledPayments, if_neg hdue, List.nil_append]
    exact hfollows
  · intro w w₁ w' i ids hinv hnotin hsettle hfollows
    obtain ⟨hex, hbought, hgrace, hpool⟩ := settle_update hsettle
    have hsame : ids.flatMap (settledPayments env tx w₁.pool)
        = ids.flatMap (settledPayments env tx w.pool) := by
      refine List.flatMap_congr fun j hj => ?_
      have hne : j ≠ i := fun hji => hnotin (hji ▸ hj)
      exact settledPayments_of_ne hne hpool
    rw [hsame] at hfollows
    rw [List.flatMap_cons, settledPayments, if_pos ⟨hex, hbought, hgrace⟩]
    exact (settle_reflects ((hinv i).mp hex) hsettle).trans hfollows

/-! ### Every call -/

/-- The fees that the indexer reads from the events of a call are the fees among its payments. -/
lemma exec_reflects (hinv : TableInv w.pool) (htx : tx.FromAccount env)
    (h : exec env tx c w = .ok (r, w')) :
    Reflects env tracking pool w w' (payments env tx c w) (feesOf (payments env tx c w)) := by
  cases c with
  | writeOption t s e a p =>
    have hnone : feesOf (payments env tx (.writeOption t s e a p) w) = [] := by
      rw [payments]
      cases OptionType.ofU8 t <;> rfl
    rw [hnone]
    exact writeOption_reflects h
  | cancelOption i =>
    obtain ⟨hex, -, -, -⟩ := cancelOption_update h
    exact cancelOption_reflects ((hinv i).mp hex) h
  | buyOption i =>
    obtain ⟨_, _, _, hex, -⟩ := buyOption_ok h
    exact buyOption_reflects ((hinv i).mp hex) htx h
  | exercise i =>
    obtain ⟨_, _, _, _, _, _, hex, -⟩ := exercise_ok h
    exact exercise_reflects ((hinv i).mp hex) h
  | settle i =>
    obtain ⟨hex, -, -, -⟩ := settle_update h
    exact settle_reflects ((hinv i).mp hex) h
  | transferOption i newBuyer =>
    obtain ⟨hex, -⟩ := transferOption_ok h
    exact transferOption_reflects ((hinv i).mp hex) h
  | rollOption i s e p =>
    obtain ⟨_, _, _, _, _, hex, -⟩ := rollOption_ok h
    exact rollOption_reflects ((hinv i).mp hex) h
  | batchCancel n a b c d e =>
    obtain ⟨ids, hids, hloop, -⟩ := batchCancel_ok h
    obtain ⟨-, -, rfl, hnodup⟩ := batchIds_ok hids
    exact batchCancelLoop_reflects htx hinv hnodup hloop
  | batchSettle n a b c d e =>
    obtain ⟨ids, m, hids, hloop, -⟩ := batchSettle_ok h
    obtain ⟨-, -, rfl, hnodup⟩ := batchIds_ok hids
    have hnone : feesOf (payments env tx (.batchSettle n a b c d e) w) = [] := feesOf_settled
    rw [hnone]
    exact batchSettleLoop_reflects htx hinv hnodup hloop
  | updateFeeRecipient newRecipient => exact updateFeeRecipient_reflects h
  | registerBtcPubkey data => exact registerBtcPubkey_reflects h

/-! ### Every run -/

variable {w₀ : State} {h : Lts.History State (Label Call)} {blocks : List Block} {db : Database}

lemma reflected (env : Env) (tracking : Tracking) (pool : String) :
    Reflected env tracking pool (exec env) (fun w => TableInv w.pool) (payments env)
    fun tx c w => feesOf (payments env tx c w) :=
  fun _ _ _ _ _ hinv htx h => exec_reflects hinv htx h

/-- An option has no buyer before its purchase, nor when it was taken back. -/
lemma Transition.unsold {p : PoolStorage} {o o' : OptionRecord} (ht : Transition p tx c o o')
    (htx : tx.FromAccount env) (ho : o.buyer = Address.zero ↔ Unsold o) :
    o'.buyer = Address.zero ↔ Unsold o' := by
  rw [Unsold] at ho ⊢
  cases ht with
  | stays => exact ho
  | bought => simp [htx.ne_zero]
  | cancelled _ hopen => simpa [hopen] using ho
  | exercised _ hbought | settled _ hbought => simpa [hbought] using ho
  | transferred _ _ hbought _ hzero => simp [hbought, hzero]

lemma unsold_of_run (hdep : Deployed w₀) (hrun : Lts.Run (Step env others (exec env)) w₀ h w) :
    ∀ i < w.pool.nextId, (w.option i).buyer = Address.zero ↔ Unsold (w.option i) := by
  refine options_of_run (P := fun o => o.buyer = Address.zero ↔ Unsold o) hdep hrun
    fun h v tx c r v' hrun htx hexec => ?_
  exact (exec_advance (table_of_run hdep hrun) hexec).keeps (fun o o' ht ho => ht.unsold htx ho)
    fun o ho => ho.buyer_iff

/-- The options table refines the pool, however its events are split into blocks and
transactions. -/
theorem rows_mirror (hdep : Deployed w₀) (hrun : Lts.Run (Step env others (exec env)) w₀ h w)
    (htracked : pool ∈ tracking.trackedPools)
    (hgrace : tracking.poolGracePeriods pool = some w.pool.gracePeriod)
    (hindexable : w.pool.Indexable)
    (hreport : poolEvents pool blocks = w.events.map (Event.reported pool))
    (hempty : db.optionsOf pool = []) :
    Mirrors pool w.pool ((db.batch (decodeBlocks tracking blocks)).optionsOf pool) ∧
      ∀ row ∈ (db.batch (decodeBlocks tracking blocks)).optionsOf pool,
        row.buyer = none ↔ row.Unsold := by
  have hmirrors := (reflected env tracking pool).mirrors (fun _ _ hrun => table_of_run hdep hrun)
    hdep hrun htracked hgrace hindexable hreport hempty
  exact ⟨hmirrors, hmirrors.unsold (unsold_of_run hdep hrun)⟩

/-- An option that was written and bought. -/
theorem rows_mirror_sold :
    Mirrors Indexer.Testnet.pool (Testnet.sold (10 ^ 18) 4 100).pool
      ((Database.empty.batch (decodeBlocks Indexer.Testnet.tracking
        (Indexer.Testnet.blocks (Testnet.sold (10 ^ 18) 4 100)))).optionsOf
          Indexer.Testnet.pool) := by
  refine (rows_mirror (Frogop.Testnet.deployed ())
    (Testnet.run_sold (Ledger.GrowsAt Testnet.env.contractAddress) rfl rfl)
    Indexer.Testnet.pool_tracked rfl ?_ (Indexer.Testnet.poolEvents_blocks _) rfl).1
  intro i hi
  obtain rfl : i = 0 := Nat.lt_one_iff.mp hi
  exact ⟨by decide, by decide, by decide, by decide, by decide⟩

end

end OptionsPool

end Frogop
