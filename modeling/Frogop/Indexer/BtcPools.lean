import Frogop.Indexer.BtcQuote
import Frogop.Indexer.BtcUnderlying

/-!
# The rows of the BTC pools

The options table refines both BTC pools as long as ids and blocks are exact as a `Number`. Beyond
`2 ^ 53` the blocks of a row are rounded.
-/

namespace Frogop

open Indexer

variable {others : Ledger → Ledger → Prop} {tracking : Tracking} {pool : String}
  {blocks : List Block} {db : Database}

/-- The options table refines both BTC pools. -/
theorem btcPools_rows_mirror (htracked : pool ∈ tracking.trackedPools)
    (hempty : db.optionsOf pool = []) :
    (∀ env w₀ h w, BtcQuote.Deployed w₀ → Lts.Run (Step env others (BtcQuote.exec env)) w₀ h w →
      tracking.poolGracePeriods pool = some w.pool.gracePeriod → w.pool.Indexable →
      poolEvents pool blocks = w.events.map (Event.reported pool) →
      Mirrors pool w.pool ((db.batch (decodeBlocks tracking blocks)).optionsOf pool) ∧
        ∀ row ∈ (db.batch (decodeBlocks tracking blocks)).optionsOf pool,
          row.buyer = none ↔ row.Unsold) ∧
    (∀ env w₀ h w, BtcUnderlying.Deployed w₀ →
      Lts.Run (Step env others (BtcUnderlying.exec env)) w₀ h w →
      tracking.poolGracePeriods pool = some w.pool.gracePeriod → w.pool.Indexable →
      poolEvents pool blocks = w.events.map (Event.reported pool) →
      Mirrors pool w.pool ((db.batch (decodeBlocks tracking blocks)).optionsOf pool) ∧
        ∀ row ∈ (db.batch (decodeBlocks tracking blocks)).optionsOf pool,
          row.buyer = none ↔ row.Unsold) := by
  constructor
  · intro env w₀ h w hdep hrun hgrace hindexable hreport
    have hmirrors := (BtcQuote.reflected env tracking pool).mirrors
      (fun h w hrun => ⟨h, BtcQuote.twoPhase_of_run hdep hrun⟩) hdep.base hrun htracked hgrace
      hindexable hreport hempty
    exact ⟨hmirrors, hmirrors.unsold (BtcQuote.unsold_of_run hdep hrun)⟩
  · intro env w₀ h w hdep hrun hgrace hindexable hreport
    have hmirrors := (BtcUnderlying.reflected env tracking pool).mirrors
      (fun _ _ hrun => BtcUnderlying.table_of_run hdep hrun) hdep.base hrun htracked hgrace
      hindexable hreport hempty
    exact ⟨hmirrors, hmirrors.unsold (BtcUnderlying.unsold_of_run hdep hrun)⟩

set_option maxRecDepth 2000 in
/-- An option reserved and sold by the type-1 pool, and one written and sold by the type-2 pool. -/
theorem btcPools_rows_mirror_sold :
    Mirrors Indexer.Testnet.pool (BtcQuote.Testnet.sold (10 ^ 18) 4).pool
      ((Database.empty.batch (decodeBlocks Indexer.Testnet.tracking
        (Indexer.Testnet.blocks (BtcQuote.Testnet.sold (10 ^ 18) 4)))).optionsOf
          Indexer.Testnet.pool) ∧
    Mirrors Indexer.Testnet.pool (BtcUnderlying.Testnet.sold (10 ^ 18)).pool
      ((Database.empty.batch (decodeBlocks Indexer.Testnet.tracking
        (Indexer.Testnet.blocks (BtcUnderlying.Testnet.sold (10 ^ 18))))).optionsOf
          Indexer.Testnet.pool) := by
  constructor
  · obtain ⟨h, hrun⟩ := BtcQuote.Testnet.run_sold
      (Ledger.GrowsAt BtcQuote.Testnet.env.contractAddress) (s := 10 ^ 18) (a := 4) rfl
    refine ((btcPools_rows_mirror Indexer.Testnet.pool_tracked rfl).1 BtcQuote.Testnet.env
      BtcQuote.Testnet.world h (BtcQuote.Testnet.sold (10 ^ 18) 4) BtcQuote.Testnet.deployed hrun
      rfl ?_ (Indexer.Testnet.poolEvents_blocks _)).1
    intro i hi
    rcases Nat.le_one_iff_eq_zero_or_eq_one.mp (Nat.lt_succ_iff.mp hi) with rfl | rfl
    · exact ⟨by decide, by decide, by decide, by decide, by decide⟩
    · exact ⟨by decide, by decide, by decide, by decide, by decide⟩
  · have hrun := Frogop.Testnet.run_after (Ledger.GrowsAt BtcUnderlying.Testnet.env.contractAddress)
      (BtcUnderlying.Testnet.selling_fromAccount (10 ^ 18) BtcUnderlying.Testnet.buyerPub)
      (by rfl : (replay (BtcUnderlying.exec BtcUnderlying.Testnet.env) BtcUnderlying.Testnet.world
        _).isOk = true)
    refine ((btcPools_rows_mirror Indexer.Testnet.pool_tracked rfl).2 BtcUnderlying.Testnet.env
      BtcUnderlying.Testnet.world _ (BtcUnderlying.Testnet.sold (10 ^ 18))
      BtcUnderlying.Testnet.deployed hrun rfl ?_ (Indexer.Testnet.poolEvents_blocks _)).1
    intro i hi
    obtain rfl : i = 0 := Nat.lt_one_iff.mp hi
    exact ⟨by decide, by decide, by decide, by decide, by decide⟩

/-! ### Beyond exact numbers -/

namespace BtcUnderlying.Testnet

/-- Account 10 writes a PUT that expires right after block `2 ^ 53`. -/
def lateWriting : List (Tx × Call) :=
  [(Frogop.Testnet.tx 10 (2 ^ 53), .writeOptionBtc 1 (10 ^ 18) (2 ^ 53 + 1) 4 100)]

def late : State := Frogop.Testnet.after (exec env) world lateWriting

lemma run_late :
    Lts.Run (Step env (Ledger.GrowsAt env.contractAddress) (exec env)) world
      (replayed (exec env) world lateWriting) late := by
  refine Frogop.Testnet.run_after _ ?_ rfl
  simp only [lateWriting, List.forall_mem_singleton]
  decide

lemma late_events : late.events
    = [⟨.optionWritten, 200, OptionsPool.writtenFields (late.option 0)⟩] := rfl

end BtcUnderlying.Testnet

/-- The expiry `2 ^ 53 + 1` is stored as `2 ^ 53`. -/
theorem btcUnderlying_expiry_rounded :
    ∃ h, Lts.Run (Step BtcUnderlying.Testnet.env
        (Ledger.GrowsAt BtcUnderlying.Testnet.env.contractAddress)
        (BtcUnderlying.exec BtcUnderlying.Testnet.env))
        BtcUnderlying.Testnet.world h BtcUnderlying.Testnet.late ∧
      poolEvents Indexer.Testnet.pool (Indexer.Testnet.blocks BtcUnderlying.Testnet.late)
        = BtcUnderlying.Testnet.late.events.map (Event.reported Indexer.Testnet.pool) ∧
      ((Database.empty.batch (decodeBlocks Indexer.Testnet.tracking
          (Indexer.Testnet.blocks BtcUnderlying.Testnet.late))).optionsOf
            Indexer.Testnet.pool).map OptionRow.expiryBlock = [2 ^ 53] ∧
      (BtcUnderlying.Testnet.late.option 0).expiryBlock = 2 ^ 53 + 1 := by
  refine ⟨_, BtcUnderlying.Testnet.run_late, Indexer.Testnet.poolEvents_blocks _, ?_, rfl⟩
  rw [(batch_rows _).1, Indexer.Testnet.blocks, decodeBlocks_report (by decide) (by decide),
    BtcUnderlying.Testnet.late_events, List.flatMap_singleton, decode_written]
  decide

end Frogop
