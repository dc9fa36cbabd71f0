import Frogop.Indexer.Following
import Frogop.Indexer.Queries
import Frogop.Pool.OptionsPool.Title

/-!
# The table of transfers

A row of `option_transfers` is written for every event of an option changing hands, and for nothing
else, so the rows of an option are the hands it went through.
-/

namespace Frogop.Indexer

def Database.transfersOf (db : Database) (pool : String) : List OptionTransferRow :=
  db.optionTransfers.filter fun row => row.poolAddress = pool

/-- The transfer rows a statement adds. -/
def Stmt.transfers : Stmt → List OptionTransferRow
  | insertOptionTransfer row => [row]
  | _ => []

/-- Who gave an option to whom. -/
def OptionTransferRow.hand (row : OptionTransferRow) : String × String :=
  (row.fromAddress, row.toAddress)

section

variable {db db₀ : Database} {stmts : List Stmt} {tracking : Tracking} {pool txId : String}
  {blockNumber i g : ℕ} {events : List Event} {blocks : List Block} {e : Event} {event : TxEvent}
  {chain : ℕ → Option (List RawTx)} {hs : Lts.History Database Attempt}

/-! ### Statements -/

lemma optionTransfers_batch : (db.batch stmts).optionTransfers
    = db.optionTransfers ++ stmts.flatMap Stmt.transfers := by
  induction stmts generalizing db with
  | nil => exact (List.append_nil _).symm
  | cons s stmts ih =>
    have hs : (s.exec db).optionTransfers = db.optionTransfers ++ s.transfers := by
      cases s with
      | insertOption o =>
        rw [Stmt.exec]
        split_ifs <;> exact (List.append_nil _).symm
      | insertOptionTransfer row => rfl
      | _ => exact (List.append_nil _).symm
    rw [List.flatMap_cons, ← List.append_assoc, ← hs]
    exact ih

/-- The rows of a pool come from the statements about it. -/
lemma filter_transfers : (stmts.flatMap Stmt.transfers).filter (fun row => row.poolAddress = pool)
    = (stmts.filter fun s => s.pool? = some pool).flatMap Stmt.transfers := by
  induction stmts with
  | nil => rfl
  | cons s stmts ih =>
    rw [List.flatMap_cons, List.filter_append, ih, List.filter_cons]
    cases s with
    | insertOptionTransfer row => by_cases hrow : row.poolAddress = pool <;>
        simp [Stmt.transfers, Stmt.pool?, hrow]
    | _ => split_ifs <;> simp [Stmt.transfers]

lemma transfersOf_batch : (db.batch stmts).transfersOf pool = db.transfersOf pool
    ++ (stmts.filter fun s => s.pool? = some pool).flatMap Stmt.transfers := by
  rw [Database.transfersOf, optionTransfers_batch, List.filter_append, filter_transfers]
  rfl

lemma transfers_feeStmts {optionId fee : ℕ} {eventType : FeeEventType} :
    (feeStmts pool blockNumber txId optionId eventType fee).flatMap Stmt.transfers = [] := by
  rw [feeStmts]
  split_ifs <;> rfl

/-- Only one event is about a transfer. -/
lemma transfers_decodeEvent (h : e.name ≠ .optionTransferred) :
    (decodeEvent tracking (e.reported pool) blockNumber txId).flatMap Stmt.transfers = [] := by
  rw [decodeEvent_reported]
  split
  · rw [handleWritten]
    split <;> rfl
  · rw [handleCancelled]
    split
    · rfl
    · exact transfers_feeStmts
  · rw [handlePurchased]
    split
    · rfl
    · exact transfers_feeStmts
  · rw [handleExercised]
    split
    · rfl
    · exact transfers_feeStmts
  · rw [handleSettled]
    split <;> rfl
  · exact absurd ‹_› h
  · rw [handleOptionReserved]
    split <;> rfl
  · rw [handleReservationExecuted]
    split <;> rfl
  · rw [handleReservationCancelled]
    split <;> rfl
  · rw [handleWrittenBtc]
    split <;> rfl
  all_goals rfl

/-! ### The rows of an option -/

/-- The events of a pool that tell of transfers are all written by `transferOption`. -/
def Transfers (events : List Event) : Prop :=
  ∀ e ∈ events, e.name = .optionTransferred →
    ∃ i giver taker, i < 2 ^ 53 ∧ e = OptionsPool.transferredEvent i giver taker

lemma transfers_transferredEvent {giver taker : Address} (hi : i < 2 ^ 53) :
    (decodeEvent tracking ((OptionsPool.transferredEvent i giver taker).reported pool) blockNumber
        txId).flatMap Stmt.transfers
      = [⟨pool, i, hexString giver.val, hexString taker.val, blockNumber, txId⟩] := by
  have hsize : i < u256Size := hi.trans (by decide)
  rw [OptionsPool.transferredEvent, decode_transferred, Nat.mod_eq_of_lt hsize, number_of_lt hi]
  rfl

/-- The texts of the accounts between which an option changed hands. -/
def handText (hand : Address × Address) : String × String :=
  (hexString hand.1.val, hexString hand.2.val)

/-- The rows of an option are its hands. -/
lemma map_hand_log {log : List (Entry Event)} (hlog : Transfers (log.map Entry.event)) :
    (((log.flatMap (Entry.stmts tracking pool)).flatMap Stmt.transfers).filter
        fun row => row.optionId = i).map OptionTransferRow.hand
      = (handsOf i (log.map Entry.event)).map handText := by
  induction log with
  | nil => rfl
  | cons entry log ih =>
    have hrest : Transfers (log.map Entry.event) :=
      fun e he => hlog e (List.mem_cons_of_mem _ he)
    rw [List.flatMap_cons, List.flatMap_append, List.filter_append, List.map_append, ih hrest,
      List.map_cons, ← List.singleton_append, handsOf_append, List.map_append]
    refine congrArg (· ++ _) ?_
    by_cases hname : entry.event.name = .optionTransferred
    · obtain ⟨j, giver, taker, hj, heq⟩ := hlog entry.event List.mem_cons_self hname
      rw [Entry.stmts, heq, transfers_transferredEvent hj, OptionsPool.handsOf_transferredEvent]
      by_cases hji : j = i <;> simp [hji, OptionTransferRow.hand, handText]
    · rw [Entry.stmts, transfers_decodeEvent hname, handsOf_eq_nil (by simpa using hname)]
      rfl

/-! ### Their order -/

lemma blockNumber_decodeEvent : ∀ s ∈ decodeEvent tracking event blockNumber txId,
    ∀ row ∈ s.transfers, row.blockNumber = blockNumber := by
  have hfee : ∀ {optionId fee : ℕ} {eventType : FeeEventType} {contract : String},
      ∀ s ∈ feeStmts contract blockNumber txId optionId eventType fee,
        ∀ row ∈ s.transfers, row.blockNumber = blockNumber := by
    intro optionId fee eventType contract
    rw [feeStmts]
    split_ifs <;> simp [Stmt.transfers]
  rw [decodeEvent]
  refine forall_mem_ite ?_ (forall_mem_ite ?_ (forall_mem_ite ?_ (forall_mem_ite ?_
    (forall_mem_ite ?_ (forall_mem_ite ?_ (forall_mem_ite ?_ (forall_mem_ite ?_ (forall_mem_ite ?_
      (forall_mem_ite ?_ (by simp))))))))))
  · rw [handleWritten]
    split <;> simp [Stmt.transfers]
  · rw [handleCancelled]
    split
    · simp
    · exact List.forall_mem_cons.mpr ⟨by simp [Stmt.transfers], hfee⟩
  · rw [handlePurchased]
    split
    · simp
    · exact List.forall_mem_cons.mpr ⟨by simp [Stmt.transfers], hfee⟩
  · rw [handleExercised]
    split
    · simp
    · exact List.forall_mem_cons.mpr ⟨by simp [Stmt.transfers], hfee⟩
  · rw [handleSettled]
    split <;> simp [Stmt.transfers]
  · rw [handleTransferred]
    split <;> simp [Stmt.transfers]
  · rw [handleOptionReserved]
    split <;> simp [Stmt.transfers]
  · rw [handleReservationExecuted]
    split <;> simp [Stmt.transfers]
  · rw [handleReservationCancelled]
    split <;> simp [Stmt.transfers]
  · rw [handleWrittenBtc]
    split <;> simp [Stmt.transfers]

lemma blockNumber_decodeTxEvent : ∀ s ∈ decodeTxEvent tracking event blockNumber txId,
    ∀ row ∈ s.transfers, row.blockNumber = blockNumber := by
  intro s hs
  unfold decodeTxEvent at hs
  dsimp only at hs
  split at hs
  · split_ifs at hs
    · rw [handleSwapExecuted] at hs
      split at hs
      · simp at hs
      · obtain rfl := List.mem_singleton.mp hs
        simp [Stmt.transfers]
    · exact blockNumber_decodeEvent s hs
    · simp at hs
  · split_ifs at hs
    · exact blockNumber_decodeEvent s hs
    · simp at hs

/-- Blocks that are taken in order leave rows in their order. -/
lemma pairwise_transfers (hblocks : blocks.Pairwise fun a b => a.number ≤ b.number) :
    ((decodeBlocks tracking blocks).flatMap Stmt.transfers).Pairwise
      fun a b => a.blockNumber ≤ b.blockNumber := by
  have hnumber : ∀ block, ∀ row ∈ (decodeBlock tracking block.number block.txs).flatMap
      Stmt.transfers, row.blockNumber = (block : Block).number := by
    intro block row hrow
    obtain ⟨s, hs, hrow⟩ := List.mem_flatMap.mp hrow
    simp only [decodeBlock, List.mem_flatMap] at hs
    obtain ⟨tx, -, event, -, hs⟩ := hs
    exact blockNumber_decodeTxEvent s hs row hrow
  rw [decodeBlocks, List.flatMap_assoc, List.pairwise_flatMap]
  refine ⟨fun block _ => ?_, hblocks.imp fun hle a ha b hb => ?_⟩
  · refine List.pairwise_iff_forall_sublist.mpr fun hsub => ?_
    have hmem := hsub.subset
    rw [hnumber block _ (hmem (by simp)), hnumber block _ (hmem (by simp))]
  · rw [hnumber _ a ha, hnumber _ b hb]
    exact hle

/-! ### The rows after runs of the poller -/

lemma pairwise_blocksUpto {n : ℕ} :
    (blocksUpto chain n).Pairwise fun a b => a.number ≤ b.number := by
  rw [blocksUpto, List.pairwise_map]
  exact List.pairwise_le_range'

/-- Runs of the poller that see a pool leave it the transfers of one run over the blocks up to the
cursor. -/
lemma transfersOf_attempted (hrun : Lts.Run Attempted db₀ hs db)
    (hcursor : db₀.getLastIndexedBlock = 0) (hempty : db₀.transfersOf pool = [])
    (hsees : ∀ v ∈ committed db₀ hs, v.Sees chain pool g)
    (hreport : poolEvents pool (blocksUpto chain db.getLastIndexedBlock)
      = events.map (Event.reported pool)) :
    db.transfersOf pool = ((decodeBlocks (.only pool g)
      (blocksUpto chain db.getLastIndexedBlock)).filter
        fun s => s.pool? = some pool).flatMap Stmt.transfers := by
  have hrows : db.transfersOf pool
      = (db₀.batch ((committed db₀ hs).flatMap Visit.stmts)).transfersOf pool :=
    congrArg (List.filter fun row : OptionTransferRow => row.poolAddress = pool)
      (pruned_of_attempted hrun).optionTransfers
  rw [← blocks_committed hrun hcursor] at hreport ⊢
  rw [hrows, transfersOf_batch, hempty, List.nil_append, filter_stmts hsees hreport]

/-- The transfers of an option, in the order in which they were written. -/
def Database.transfersOfOption (db : Database) (pool : String) (i : ℕ) : List OptionTransferRow :=
  (db.transfersOf pool).filter fun row => row.optionId = i

/-- The API lists them block after block. -/
lemma getTransfersByOption_perm {db : D1Database} :
    (db.getTransfersByOption pool i).Perm (db.transfersOfOption pool i) ∧
      (db.getTransfersByOption pool i).Pairwise fun a b => a.blockNumber ≤ b.blockNumber := by
  have hrows : (db.optionTransfers.filter fun row =>
      row.poolAddress = pool ∧ row.optionId = i) = db.transfersOfOption pool i := by
    rw [Database.transfersOfOption, Database.transfersOf, List.filter_filter]
    exact List.filter_congr fun row _ => by simp [and_comm]
  rw [D1Database.getTransfersByOption, hrows]
  exact ⟨db.order.asc_perm _, db.order.asc_sorted _⟩

/-- Rows sorted by their blocks are the same when they are so up to their order, and no two of them
are of one block. -/
lemma eq_of_perm_of_sorted {rows rows' : List OptionTransferRow} (hperm : rows.Perm rows')
    (hsorted : rows.Pairwise fun a b => a.blockNumber ≤ b.blockNumber)
    (hsorted' : rows'.Pairwise fun a b => a.blockNumber ≤ b.blockNumber)
    (hnodup : (rows.map OptionTransferRow.blockNumber).Nodup) : rows = rows' := by
  refine hperm.eq_of_pairwise (fun a b ha hb hab hba => ?_) hsorted hsorted'
  exact List.inj_on_of_nodup_map hnodup ha (hperm.symm.subset hb) (le_antisymm hab hba)

/-- The hands that an option went through, block after block. -/
lemma map_hand_attempted (hrun : Lts.Run Attempted db₀ hs db)
    (hcursor : db₀.getLastIndexedBlock = 0) (hempty : db₀.transfersOf pool = [])
    (hsees : ∀ v ∈ committed db₀ hs, v.Sees chain pool g)
    (hreport : poolEvents pool (blocksUpto chain db.getLastIndexedBlock)
      = events.map (Event.reported pool)) (hevents : Transfers events) :
    ((db.transfersOfOption pool i).Pairwise fun a b => a.blockNumber ≤ b.blockNumber) ∧
      (db.transfersOfOption pool i).map OptionTransferRow.hand
        = (handsOf i events).map handText := by
  have hrows := transfersOf_attempted hrun hcursor hempty hsees hreport
  have hpairwise : (db.transfersOf pool).Pairwise fun a b => a.blockNumber ≤ b.blockNumber := by
    rw [hrows, ← filter_transfers]
    exact (pairwise_transfers pairwise_blocksUpto).filter _
  have htracked : pool ∈ (Tracking.only pool g).trackedPools := List.mem_cons_self
  obtain ⟨log, rfl, hstmts⟩ := exists_log htracked hreport
  refine ⟨hpairwise.filter _, ?_⟩
  rw [Database.transfersOfOption, hrows, hstmts]
  exact map_hand_log hevents

end

end Frogop.Indexer
