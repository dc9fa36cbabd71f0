import Frogop.Indexer.Events

/-!
# Blocks that report a pool

The chain hands the indexer blocks with the events of every contract. A pool is reported when its
own events stand in them, in order, whatever blocks and transactions they are split into. The rows
of the pool then depend on its events alone.
-/

namespace Frogop.Indexer

structure Block where
  number : ℕ
  txs : List BlockTx
  deriving DecidableEq, Repr

/-- The statements of blocks that are decoded in order. -/
def decodeBlocks (tracking : Tracking) (blocks : List Block) : List Stmt :=
  blocks.flatMap fun block => decodeBlock tracking block.number block.txs

/-- The events of one contract, with the block and the transaction they stand in. -/
structure Entry (E : Type) where
  blockNumber : ℕ
  txId : String
  event : E

def Block.entries (block : Block) : List (Entry TxEvent) :=
  block.txs.flatMap fun tx => tx.events.map fun event => ⟨block.number, tx.id, event⟩

/-- The events of a pool, as the decoder gets them. -/
def poolEvents (pool : String) (blocks : List Block) : List TxEvent :=
  ((blocks.flatMap Block.entries).map fun entry => entry.event.normalized).filter
    fun event => event.contractAddress = pool

/-- The events of a pool, all in one transaction. -/
def report (pool : String) (number : ℕ) (events : List Event) : List Block :=
  [⟨number, [⟨"tx", events.map (Event.reported pool)⟩]⟩]

/-- The statements of one event of a pool. -/
def Entry.stmts (tracking : Tracking) (pool : String) (entry : Entry Event) : List Stmt :=
  decodeEvent tracking (entry.event.reported pool) entry.blockNumber entry.txId

section

variable {tracking : Tracking} {pool txId : String} {blockNumber : ℕ} {event : TxEvent}
  {events : List Event} {blocks : List Block} {db : Database} {s : Stmt}

/-! ### Statements are about the contract of their event -/

lemma pool?_of_mem_feeStmts {optionId fee : ℕ} {eventType : FeeEventType} :
    ∀ s ∈ feeStmts pool blockNumber txId optionId eventType fee, s.pool? = some pool := by
  rw [feeStmts]
  split_ifs <;> simp [Stmt.pool?]

/-- What holds of the statements of one handler and of the others behind it. -/
lemma forall_mem_ite {c : Prop} [Decidable c] {stmts others : List Stmt} {P : Stmt → Prop}
    (hcase : ∀ s ∈ stmts, P s) (hrest : ∀ s ∈ others, P s) :
    ∀ s ∈ if c then stmts else others, P s := by
  split_ifs
  · exact hcase
  · exact hrest

lemma pool?_of_mem_decodeEvent :
    ∀ s ∈ decodeEvent tracking event blockNumber txId, s.pool? = some event.contractAddress := by
  rw [decodeEvent]
  refine forall_mem_ite ?_ (forall_mem_ite ?_ (forall_mem_ite ?_ (forall_mem_ite ?_
    (forall_mem_ite ?_ (forall_mem_ite ?_ (forall_mem_ite ?_ (forall_mem_ite ?_ (forall_mem_ite ?_
      (forall_mem_ite ?_ (by simp))))))))))
  · rw [handleWritten]
    split <;> simp [Stmt.pool?, writtenRow]
  · rw [handleCancelled]
    split
    · simp
    · exact List.forall_mem_cons.mpr ⟨rfl, pool?_of_mem_feeStmts⟩
  · rw [handlePurchased]
    split
    · simp
    · exact List.forall_mem_cons.mpr ⟨rfl, pool?_of_mem_feeStmts⟩
  · rw [handleExercised]
    split
    · simp
    · exact List.forall_mem_cons.mpr ⟨rfl, pool?_of_mem_feeStmts⟩
  · rw [handleSettled]
    split <;> simp [Stmt.pool?]
  · rw [handleTransferred]
    split <;> simp [Stmt.pool?]
  · rw [handleOptionReserved]
    split <;> simp [Stmt.pool?]
  · rw [handleReservationExecuted]
    split <;> simp [Stmt.pool?]
  · rw [handleReservationCancelled]
    split <;> simp [Stmt.pool?]
  · rw [handleWrittenBtc]
    split <;> simp [Stmt.pool?, writtenRow]

lemma pool?_handleSwapExecuted {label : String} :
    ∀ s ∈ handleSwapExecuted event blockNumber txId label, s.pool? = none := by
  rw [handleSwapExecuted]
  split <;> simp [Stmt.pool?]

/-- A decoded event is about its own contract or about no pool. -/
lemma pool?_of_mem_decodeTxEvent (h : s ∈ decodeTxEvent tracking event blockNumber txId) :
    s.pool? = none ∨ s.pool? = some event.normalized.contractAddress := by
  unfold decodeTxEvent at h
  dsimp only at h
  split at h
  · split_ifs at h
    · exact .inl (pool?_handleSwapExecuted s h)
    · exact .inr (pool?_of_mem_decodeEvent s h)
    · simp at h
  · split_ifs at h
    · exact .inr (pool?_of_mem_decodeEvent s h)
    · simp at h

lemma type_ne_swapExecuted (e : Event) : (e.reported pool).type ≠ evSwapExecuted := by
  show e.name.type ≠ evSwapExecuted
  cases e.name <;> simp [EventName.type, evSwapExecuted]

/-- The events of a tracked pool go to its handlers. -/
lemma decodeTxEvent_reported (htracked : pool ∈ tracking.trackedPools) {e : Event}
    (h : event.normalized = e.reported pool) :
    decodeTxEvent tracking event blockNumber txId
      = decodeEvent tracking (e.reported pool) blockNumber txId := by
  have hpool : (e.reported pool).contractAddress ∈ tracking.trackedPools := htracked
  have htype : (e.reported pool).type ≠ evSwapExecuted := type_ne_swapExecuted e
  rw [decodeTxEvent, h]
  split <;> simp [hpool, htype]

lemma normalized_reported (hpool : toLowerCase pool = pool) (e : Event) :
    (e.reported pool).normalized = e.reported pool := by
  show { e.reported pool with contractAddress := toLowerCase pool } = e.reported pool
  rw [hpool]
  rfl

/-- A pool whose address is written in lower case is reported under it. -/
lemma poolEvents_report (hpool : toLowerCase pool = pool) :
    poolEvents pool (report pool blockNumber events) = events.map (Event.reported pool) := by
  have hown : ∀ e : Event, (e.reported pool).contractAddress = pool := fun _ => rfl
  simp [poolEvents, report, Block.entries, Function.comp_def, normalized_reported hpool, hown]

/-- The statements of a pool that is reported alone. -/
lemma decodeBlocks_report (hpool : toLowerCase pool = pool)
    (htracked : pool ∈ tracking.trackedPools) :
    decodeBlocks tracking (report pool blockNumber events)
      = events.flatMap fun e => decodeEvent tracking (e.reported pool) blockNumber "tx" := by
  have hdecode : ∀ e : Event, decodeTxEvent tracking (e.reported pool) blockNumber "tx"
      = decodeEvent tracking (e.reported pool) blockNumber "tx" :=
    fun e => decodeTxEvent_reported htracked (normalized_reported hpool e)
  simp [decodeBlocks, report, decodeBlock, List.flatMap_map, hdecode]

/-! ### The rows of a pool -/

lemma filter_decodeTxEvent (htracked : pool ∈ tracking.trackedPools) {e : Event}
    (h : event.normalized = e.reported pool) :
    (decodeTxEvent tracking event blockNumber txId).filter (fun s => s.pool? = some pool)
      = decodeEvent tracking (e.reported pool) blockNumber txId := by
  rw [decodeTxEvent_reported htracked h, List.filter_eq_self]
  intro s hs
  exact decide_eq_true (pool?_of_mem_decodeEvent s hs)

lemma filter_decodeTxEvent_of_ne (h : event.normalized.contractAddress ≠ pool) :
    (decodeTxEvent tracking event blockNumber txId).filter (fun s => s.pool? = some pool)
      = [] := by
  rw [List.filter_eq_nil_iff]
  intro s hs
  rcases pool?_of_mem_decodeTxEvent hs with hnone | hsome
  · simp [hnone]
  · simpa [hsome] using h

lemma decodeBlocks_eq : decodeBlocks tracking blocks
    = (blocks.flatMap Block.entries).flatMap fun entry =>
        decodeTxEvent tracking entry.event entry.blockNumber entry.txId := by
  simp [decodeBlocks, decodeBlock, Block.entries, List.flatMap_assoc, List.flatMap_map]

/-- The statements about a tracked pool are those of its own events. -/
lemma exists_log (htracked : pool ∈ tracking.trackedPools)
    (hreport : poolEvents pool blocks = events.map (Event.reported pool)) :
    ∃ log : List (Entry Event), log.map Entry.event = events ∧
      (decodeBlocks tracking blocks).filter (fun s => s.pool? = some pool)
        = log.flatMap (Entry.stmts tracking pool) := by
  rw [decodeBlocks_eq]
  rw [poolEvents] at hreport
  revert hreport
  generalize blocks.flatMap Block.entries = entries
  intro hreport
  induction entries generalizing events with
  | nil =>
    have hnil : events = [] := List.map_eq_nil_iff.mp hreport.symm
    exact ⟨[], hnil.symm, rfl⟩
  | cons entry entries ih =>
    rw [List.map_cons] at hreport
    rw [List.flatMap_cons, List.filter_append]
    by_cases hown : entry.event.normalized.contractAddress = pool
    · rw [List.filter_cons_of_pos (by simpa using hown)] at hreport
      cases events with
      | nil => simp at hreport
      | cons e events =>
        rw [List.map_cons, List.cons.injEq] at hreport
        obtain ⟨log, hlog, hstmts⟩ := ih hreport.2
        refine ⟨⟨entry.blockNumber, entry.txId, e⟩ :: log, by rw [List.map_cons, hlog], ?_⟩
        rw [filter_decodeTxEvent htracked hreport.1, hstmts, List.flatMap_cons]
        rfl
    · rw [List.filter_cons_of_neg (by simpa using hown)] at hreport
      obtain ⟨log, hlog, hstmts⟩ := ih hreport
      exact ⟨log, hlog, by rw [filter_decodeTxEvent_of_ne hown, hstmts, List.nil_append]⟩

/-- A batch does to the rows of a pool what its statements about the pool do. -/
lemma batch_rows (stmts : List Stmt) :
    (db.batch stmts).optionsOf pool
        = (stmts.filter fun s => s.pool? = some pool).foldl Stmt.onOptions (db.optionsOf pool) ∧
      (db.batch stmts).feesOf pool
        = db.feesOf pool ++ (stmts.filter fun s => s.pool? = some pool).flatMap Stmt.fees := by
  induction stmts generalizing db with
  | nil => exact ⟨rfl, (List.append_nil _).symm⟩
  | cons s stmts ih =>
    obtain ⟨hoptions, hfees⟩ := @ih (s.exec db)
    have hbatch : db.batch (s :: stmts) = (s.exec db).batch stmts := rfl
    rw [hbatch, hoptions, hfees]
    by_cases hown : s.pool? = some pool
    · obtain ⟨hs, hsfees⟩ := exec_of_eq db hown
      rw [List.filter_cons_of_pos (by simpa using hown), List.foldl_cons, List.flatMap_cons, hs,
        hsfees, List.append_assoc]
      exact ⟨rfl, rfl⟩
    · obtain ⟨hs, hsfees⟩ := exec_of_ne db hown
      rw [List.filter_cons_of_neg (by simpa using hown), hs, hsfees]
      exact ⟨rfl, rfl⟩

end

end Frogop.Indexer
