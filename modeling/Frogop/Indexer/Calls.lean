import Frogop.Indexer.Payments
import Frogop.Pool.OptionsPool.Lifecycle

/-!
# Calls that the indexer follows

`Reflects` puts together what one call does to the storage, to the event log and to the ledger. The
methods that the pools share are dealt with here for any pool; a pool all of whose calls are
reflected is followed over whole runs.
-/

namespace Frogop

/-- Nobody has bought a new option. -/
lemma OptionsPool.Fresh.buyer_iff {tx : Tx} {n : ℕ} {o : OptionRecord}
    (ho : OptionsPool.Fresh tx n o) : o.buyer = Address.zero ↔ Indexer.Unsold o := by
  simp [Indexer.Unsold, ho.unsold]

namespace Indexer

open Outcome World

/-- A call between two worlds: its events say what happened to the storage, `payments` are the
transfers it made, and `fees` the fees that the indexer reads from the events. -/
structure Reflects {σ : Type} (env : Env) (tracking : Tracking) (pool : String) (w w' : World σ)
    (payments : List Payment) (fees : List Fee) : Prop where
  follows : ∃ events, w'.events = w.events ++ events ∧
    Follows tracking pool w.pool events w'.pool fees
  pays : Pays env.contractAddress w.ledger payments w'.ledger
  ids : w.pool.nextId ≤ u256Size → w'.pool.nextId ≤ u256Size

section

variable {σ : Type} {env : Env} {tx : Tx} {w w' w'' : World σ} {r : Response} {i : ℕ}
  {tracking : Tracking} {pool : String} {ps ps' : List Payment} {fees fees' : List Fee}

lemma Reflects.trans (h : Reflects env tracking pool w w' ps fees)
    (h' : Reflects env tracking pool w' w'' ps' fees') :
    Reflects env tracking pool w w'' (ps ++ ps') (fees ++ fees') := by
  refine ⟨?_, h.pays.append h'.pays, fun hids => h'.ids (h.ids hids)⟩
  obtain ⟨events, hevents, hfollows⟩ := h.follows
  obtain ⟨events', hevents', hfollows'⟩ := h'.follows
  exact ⟨events ++ events', by rw [hevents', hevents, List.append_assoc], hfollows.trans hfollows'⟩

/-- A call that says nothing of the options, leaves them alone and pays nothing. -/
lemma Reflects.quiet {events : List Event} (hevents : w'.events = w.events ++ events)
    (hquiet : ∀ e ∈ events, EventName.Silent e.name) (hoptions : w'.pool.options = w.pool.options)
    (hnext : w'.pool.nextId = w.pool.nextId) (hgrace : w'.pool.gracePeriod = w.pool.gracePeriod)
    (hledger : w'.ledger = w.ledger) : Reflects env tracking pool w w' [] [] := by
  refine ⟨⟨events, hevents, .quiet hquiet hoptions hnext hgrace⟩, ?_, fun hids => ?_⟩
  · rw [hledger]
    exact .nil
  · exact hnext.trans_le hids

lemma Reflects.refl : Reflects env tracking pool w w [] [] :=
  .quiet (List.append_nil _).symm (by simp) rfl rfl rfl rfl

lemma ceilBps_lt {amount bps fee : ℕ} (h : ceilBps amount bps = .ok fee) : fee < u256Size := by
  obtain ⟨hlt, rfl⟩ := ceilBps_eq_ok.mp h
  omega

lemma cancelFee_lt {block collateral fee : ℕ} {o : OptionRecord}
    (h : cancelFee block o collateral = .ok fee) : fee < u256Size := by
  rw [cancelFee] at h
  split_ifs at h
  · cases h
    decide
  · exact ceilBps_lt h

lemma option_id : (w.option i).id = i := rfl

/-! ### Methods that pools share -/

lemma cancelOption_reflects (hi : i < w.pool.nextId)
    (h : OptionsPool.cancelOption env tx i w = .ok (r, w')) :
    Reflects env tracking pool w w' (cancelPayments env tx w.pool (w.option i))
      (feesOf (cancelPayments env tx w.pool (w.option i))) := by
  obtain ⟨collateral, fee, _, _, -, -, -, hcoll, hfee, -, hback, hpaid, -, rfl⟩ :=
    OptionsPool.cancelOption_ok h
  refine ⟨⟨_, rfl, ?_⟩, pays_cancel hcoll hfee hback hpaid, id⟩
  rw [feesOf_cancelPayments hcoll hfee, option_id]
  refine .status hi OptionStorage.get_setStatus (keepBuyer _) fun blockNumber txId => ?_
  rw [decode_cancelled, Nat.mod_eq_of_lt (cancelFee_lt hfee)]
  rfl

lemma settle_reflects (hi : i < w.pool.nextId)
    (h : OptionsPool.settle env tx i w = .ok (r, w')) :
    Reflects env tracking pool w w' (settlePayments env w.pool (w.option i)) [] := by
  obtain ⟨collateral, _, -, -, -, hcoll, hback, -, rfl⟩ := OptionsPool.settle_ok h
  refine ⟨⟨_, rfl, ?_⟩, ?_, id⟩
  · refine .unpaid hi OptionStorage.get_setStatus (keepBuyer _) fun blockNumber txId => ?_
    rw [decode_expired]
    rfl
  · rw [settlePayments, hcoll]
    exact .one hback

lemma buyOption_reflects (hi : i < w.pool.nextId) (htx : tx.FromAccount env)
    (h : OptionsPool.buyOption env tx i w = .ok (r, w')) :
    Reflects env tracking pool w w' (buyPayments tx w.pool (w.option i))
      (feesOf (buyPayments tx w.pool (w.option i))) := by
  obtain ⟨fee, _, _, -, -, -, -, hfee, hle, hpaid, hpaidFee, -, rfl⟩ := OptionsPool.buyOption_ok h
  have hpremium : (w.option i).premium < u256Size := by
    obtain ⟨hlt, -⟩ := ceilBps_eq_ok.mp hfee
    simp only [buyFeeBps] at hlt
    omega
  have hrest : (w.option i).premium - fee < u256Size := (Nat.sub_le _ _).trans_lt hpremium
  have hbuyer : (some (hexString tx.sender.val) <|> buyerColumn (w.option i).buyer)
      = buyerColumn tx.sender := (buyerColumn_of_ne htx.ne_zero).symm
  refine ⟨⟨_, rfl, ?_⟩, pays_buy hfee hpaid hpaidFee, id⟩
  rw [feesOf_buyPayments hfee, option_id]
  refine .status hi (get_setBuyer_setStatus _ _ _) hbuyer fun blockNumber txId => ?_
  -- the fee is what the premium is more than what the writer gets
  rw [decode_purchased, Nat.mod_eq_of_lt hpremium, Nat.mod_eq_of_lt hrest,
    if_pos (Nat.sub_le _ _), Nat.sub_sub_self hle]
  rfl

lemma updateFeeRecipient_reflects {a : Address}
    (h : updateFeeRecipient env tx a w = .ok (r, w')) :
    Reflects env tracking pool w w' [] [] := by
  obtain ⟨-, -, -, rfl⟩ := updateFeeRecipient_ok h
  refine .quiet rfl ?_ rfl rfl rfl rfl
  simp [EventName.Silent]

lemma registerBtcPubkey_reflects {data : List UInt8}
    (h : registerBtcPubkey env tx data w = .ok (r, w')) :
    Reflects env tracking pool w w' [] [] := by
  obtain ⟨_, -, -, -, rfl⟩ := registerBtcPubkey_ok h
  exact .quiet (List.append_nil _).symm (by simp) rfl rfl rfl rfl

end

/-! ### Runs -/

section

variable {σ C : Type} {env : Env} {others : Ledger → Ledger → Prop}
  {exec : Tx → C → World σ → Except Revert (Reply σ)} {I : World σ → Prop}
  {payments : Tx → C → World σ → List Payment} {fees : Tx → C → World σ → List Fee}
  {tracking : Tracking} {pool : String} {w₀ w : World σ} {blocks : List Block} {db : Database}
  {h : Lts.History (World σ) (Label C)}

/-- All calls of a pool that satisfies `I` are reflected. -/
def Reflected (env : Env) (tracking : Tracking) (pool : String)
    (exec : Tx → C → World σ → Except Revert (Reply σ)) (I : World σ → Prop)
    (payments : Tx → C → World σ → List Payment) (fees : Tx → C → World σ → List Fee) : Prop :=
  ∀ tx c w r w', I w → tx.FromAccount env → exec tx c w = .ok (r, w') →
    Reflects env tracking pool w w' (payments tx c w) (fees tx c w)

/-- The events of a run say what happened to the storage, and which fees to record. -/
lemma Reflected.run (hreflected : Reflected env tracking pool exec I payments fees)
    (hI : ∀ h w, Lts.Run (Step env others exec) w₀ h w → I w)
    (hrun : Lts.Run (Step env others exec) w₀ h w) :
    (∃ events, w.events = w₀.events ++ events ∧
      Follows tracking pool w₀.pool events w.pool (Lts.collect (Label.ofCall fees) w₀ h)) ∧
      (w₀.pool.nextId ≤ u256Size → w.pool.nextId ≤ u256Size) := by
  refine hrun.induct (I := fun h w => (∃ events, w.events = w₀.events ++ events ∧
    Follows tracking pool w₀.pool events w.pool (Lts.collect (Label.ofCall fees) w₀ h)) ∧
      (w₀.pool.nextId ≤ u256Size → w.pool.nextId ≤ u256Size)) ?_ ?_
  · exact ⟨⟨[], (List.append_nil _).symm, .quiet (by simp) rfl rfl rfl⟩, id⟩
  · rintro h t l u hrun ⟨⟨events, hevents, hfollows⟩, hids⟩ hstep
    rw [Lts.collect, hrun.last_eq]
    cases hstep with
    | call htx hexec =>
      have hcall := hreflected _ _ _ _ _ (hI h t hrun) htx hexec
      obtain ⟨events', hevents', hfollows'⟩ := hcall.follows
      exact ⟨⟨events ++ events', by rw [hevents', hevents, List.append_assoc],
        hfollows.trans hfollows'⟩, fun h0 => hcall.ids (hids h0)⟩
    | reverted | elsewhere =>
      rw [Label.ofCall, List.append_nil]
      exact ⟨⟨events, hevents, hfollows⟩, hids⟩

/-- A run keeps the grace period, and its ids are `u256`s. -/
lemma Reflected.frame (hreflected : Reflected env tracking pool exec I payments fees)
    (hI : ∀ h w, Lts.Run (Step env others exec) w₀ h w → I w) (hdep : Deployed w₀)
    (hrun : Lts.Run (Step env others exec) w₀ h w) :
    w.pool.gracePeriod = w₀.pool.gracePeriod ∧ w.pool.nextId ≤ u256Size := by
  obtain ⟨⟨_, -, hfollows⟩, hids⟩ := hreflected.run hI hrun
  refine ⟨hfollows.gracePeriod, hids ?_⟩
  rw [hdep.spec.1]
  exact Nat.zero_le _

/-- The payments of a run are made. -/
lemma Reflected.pays (hreflected : Reflected env tracking pool exec I payments fees)
    (hI : ∀ h w, Lts.Run (Step env others exec) w₀ h w → I w)
    (hrun : Lts.Run (Step env others exec) w₀ h w) :
    Lts.Along (Label.Pays env payments) w₀ h := by
  refine hrun.along fun h t l u hrun hstep => ?_
  cases hstep with
  | call htx hexec => exact (hreflected _ _ _ _ _ (hI h t hrun) htx hexec).pays
  | reverted | elsewhere => trivial

/-- The rows of a pool mirror it after every run that is reported to the indexer. -/
lemma Reflected.mirrors (hreflected : Reflected env tracking pool exec I payments fees)
    (hI : ∀ h w, Lts.Run (Step env others exec) w₀ h w → I w) (hdep : Deployed w₀)
    (hrun : Lts.Run (Step env others exec) w₀ h w) (htracked : pool ∈ tracking.trackedPools)
    (hgrace : tracking.poolGracePeriods pool = some w.pool.gracePeriod)
    (hindexable : w.pool.Indexable)
    (hreport : poolEvents pool blocks = w.events.map (Event.reported pool))
    (hempty : db.optionsOf pool = []) :
    Mirrors pool w.pool ((db.batch (decodeBlocks tracking blocks)).optionsOf pool) := by
  obtain ⟨⟨events, hevents, hfollows⟩, -⟩ := hreflected.run hI hrun
  obtain ⟨hnext, -⟩ := hdep.spec
  rw [hdep.events, List.nil_append] at hevents
  rw [hevents] at hreport
  obtain ⟨log, hlog, hstmts⟩ := exists_log htracked hreport
  rw [(batch_rows _).1, hstmts, hempty]
  refine hfollows.mirrors ?_ hindexable log hlog [] ⟨hnext.symm, by simp⟩
  rw [← hfollows.gracePeriod]
  exact hgrace

/-- The fee rows of a pool after every run that is reported to the indexer. -/
lemma Reflected.feeRows (hreflected : Reflected env tracking pool exec I payments fees)
    (hI : ∀ h w, Lts.Run (Step env others exec) w₀ h w → I w) (hdep : Deployed w₀)
    (hrun : Lts.Run (Step env others exec) w₀ h w) (htracked : pool ∈ tracking.trackedPools)
    (hreport : poolEvents pool blocks = w.events.map (Event.reported pool))
    (hempty : db.feesOf pool = []) :
    ((db.batch (decodeBlocks tracking blocks)).feesOf pool).map FeeEventRow.fee
      = (Lts.collect (Label.ofCall fees) w₀ h).map Fee.column := by
  obtain ⟨⟨events, hevents, hfollows⟩, hids⟩ := hreflected.run hI hrun
  obtain ⟨hnext, -⟩ := hdep.spec
  rw [hdep.events, List.nil_append] at hevents
  rw [hevents] at hreport
  obtain ⟨log, hlog, hstmts⟩ := exists_log htracked hreport
  rw [(batch_rows _).2, hstmts, hempty, List.nil_append]
  exact hfollows.fees (hids (hnext.trans_le (Nat.zero_le _))) log hlog

end

/-! ### A pool to index -/

namespace Testnet

/-- The address of the pool of the test network. -/
def pool : String := hexString (Frogop.Testnet.account 1).val

def tracking : Tracking := ⟨[pool], fun _ => none, fun _ => some 144⟩

lemma pool_tracked : pool ∈ tracking.trackedPools := List.mem_singleton.mpr rfl

/-- All events of a world, reported in block 100. -/
def blocks {σ : Type} (w : World σ) : List Block := report pool 100 w.events

lemma poolEvents_blocks {σ : Type} (w : World σ) :
    poolEvents pool (blocks w) = w.events.map (Event.reported pool) :=
  poolEvents_report (by decide)

end Testnet

end Indexer

end Frogop
