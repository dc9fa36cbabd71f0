import Mathlib.Data.List.Basic
import Mathlib.Tactic.Common

/-!
# The tables of the indexer

The rows that the decoder writes and the statements it returns for them. A `TEXT` column that holds
a decimal string is kept as the number the string spells.
-/

namespace Frogop.Indexer

/-! ### Rows -/

/-! `enum OptionStatus` -/

namespace OptionStatus

def OPEN : ℕ := 0
def PURCHASED : ℕ := 1
def EXERCISED : ℕ := 2
def EXPIRED : ℕ := 3
def CANCELLED : ℕ := 4
def RESERVED : ℕ := 5

end OptionStatus

inductive FeeEventType
  | CANCEL
  | BUY
  | EXERCISE
  deriving DecidableEq, Repr

/-- One row of `options`; `none` is `NULL`. -/
structure OptionRow where
  poolAddress : String
  optionId : ℕ
  writer : String
  buyer : Option String
  optionType : ℕ
  strikePrice : ℕ
  underlyingAmt : ℕ
  premium : ℕ
  expiryBlock : ℕ
  graceEndBlock : ℕ
  status : ℕ
  createdBlock : ℕ
  createdTx : String
  updatedBlock : Option ℕ
  updatedTx : Option String
  deriving DecidableEq, Repr

/-- One row of `fee_events`, without its `AUTOINCREMENT` id. -/
structure FeeEventRow where
  poolAddress : String
  optionId : ℕ
  eventType : FeeEventType
  feeRecipient : String
  token : String
  amount : ℕ
  blockNumber : ℕ
  txId : String
  deriving DecidableEq, Repr

structure OptionTransferRow where
  poolAddress : String
  optionId : ℕ
  fromAddress : String
  toAddress : String
  blockNumber : ℕ
  txId : String
  deriving DecidableEq, Repr

structure SwapEventRow where
  token : String
  blockNumber : ℕ
  txId : String
  buyer : String
  satsIn : ℕ
  tokensOut : ℕ
  fees : ℕ
  deriving DecidableEq, Repr

/-- The tables, each in the order of insertion. -/
structure Database where
  options : List OptionRow
  feeEvents : List FeeEventRow
  optionTransfers : List OptionTransferRow
  swapEvents : List SwapEventRow
  /-- The value under `last_indexed_block` in `indexer_state`. -/
  lastIndexedBlock : Option ℕ
  deriving DecidableEq, Repr

namespace Database

def empty : Database := ⟨[], [], [], [], none⟩

/-- `getLastIndexedBlock` -/
def getLastIndexedBlock (db : Database) : ℕ := db.lastIndexedBlock.getD 0

end Database

/-! ### Statements -/

/-- The prepared statements of the decoder and the poller. -/
inductive Stmt
  /-- `INSERT OR IGNORE INTO options` -/
  | insertOption (o : OptionRow)
  /-- `UPDATE options SET status = ?, buyer = COALESCE(?, buyer), …` -/
  | updateOptionStatus (poolAddress : String) (optionId status : ℕ) (buyer : Option String)
    (updatedBlock : ℕ) (updatedTx : String)
  /-- `UPDATE options SET buyer = ?, …` -/
  | updateOptionBuyer (poolAddress : String) (optionId : ℕ) (newBuyer : String)
    (updatedBlock : ℕ) (updatedTx : String)
  | insertFeeEvent (e : FeeEventRow)
  | insertOptionTransfer (row : OptionTransferRow)
  | insertSwapEvent (row : SwapEventRow)
  /-- `INSERT OR REPLACE INTO indexer_state` -/
  | setLastIndexedBlock (blockNumber : ℕ)
  deriving DecidableEq, Repr

/-- `WHERE pool_address = ? AND option_id = ?` -/
def OptionRow.HasKey (poolAddress : String) (optionId : ℕ) (o : OptionRow) : Prop :=
  o.poolAddress = poolAddress ∧ o.optionId = optionId

instance (poolAddress : String) (optionId : ℕ) (o : OptionRow) :
    Decidable (o.HasKey poolAddress optionId) :=
  inferInstanceAs (Decidable (_ ∧ _))

/-- `UPDATE options SET … WHERE pool_address = ? AND option_id = ?` -/
def updateWhere (poolAddress : String) (optionId : ℕ) (set : OptionRow → OptionRow)
    (options : List OptionRow) : List OptionRow :=
  options.map fun o => if o.HasKey poolAddress optionId then set o else o

namespace Stmt

def exec (db : Database) : Stmt → Database
  | insertOption o =>
    if ∃ o' ∈ db.options, o'.HasKey o.poolAddress o.optionId then db
    else { db with options := db.options ++ [o] }
  | updateOptionStatus poolAddress optionId status buyer updatedBlock updatedTx =>
    { db with
      options := updateWhere poolAddress optionId
        (fun o =>
          { o with
            status := status
            buyer := buyer <|> o.buyer
            updatedBlock := some updatedBlock
            updatedTx := some updatedTx })
        db.options }
  | updateOptionBuyer poolAddress optionId newBuyer updatedBlock updatedTx =>
    { db with
      options := updateWhere poolAddress optionId
        (fun o =>
          { o with
            buyer := some newBuyer
            updatedBlock := some updatedBlock
            updatedTx := some updatedTx })
        db.options }
  | insertFeeEvent e => { db with feeEvents := db.feeEvents ++ [e] }
  | insertOptionTransfer row => { db with optionTransfers := db.optionTransfers ++ [row] }
  | insertSwapEvent row => { db with swapEvents := db.swapEvents ++ [row] }
  | setLastIndexedBlock n => { db with lastIndexedBlock := some n }

end Stmt

/-- `db.batch(stmts)` when it commits. -/
def Database.batch (db : Database) (stmts : List Stmt) : Database := stmts.foldl Stmt.exec db

/-! ### The rows of one pool -/

namespace Database

def optionsOf (db : Database) (pool : String) : List OptionRow :=
  db.options.filter fun o => o.poolAddress = pool

def feesOf (db : Database) (pool : String) : List FeeEventRow :=
  db.feeEvents.filter fun e => e.poolAddress = pool

end Database

namespace Stmt

/-- The pool whose rows a statement writes. -/
def pool? : Stmt → Option String
  | insertOption o => some o.poolAddress
  | updateOptionStatus poolAddress .. => some poolAddress
  | updateOptionBuyer poolAddress .. => some poolAddress
  | insertFeeEvent e => some e.poolAddress
  | insertOptionTransfer row => some row.poolAddress
  | insertSwapEvent _ => none
  | setLastIndexedBlock _ => none

/-- What a statement does to the rows of its pool. -/
def onOptions (rows : List OptionRow) : Stmt → List OptionRow
  | insertOption o => if ∃ o' ∈ rows, o'.optionId = o.optionId then rows else rows ++ [o]
  | updateOptionStatus _ optionId status buyer updatedBlock updatedTx =>
    rows.map fun o =>
      if o.optionId = optionId then
        { o with
          status := status
          buyer := buyer <|> o.buyer
          updatedBlock := some updatedBlock
          updatedTx := some updatedTx }
      else o
  | updateOptionBuyer _ optionId newBuyer updatedBlock updatedTx =>
    rows.map fun o =>
      if o.optionId = optionId then
        { o with
          buyer := some newBuyer
          updatedBlock := some updatedBlock
          updatedTx := some updatedTx }
      else o
  | _ => rows

/-- The fee rows a statement adds. -/
def fees : Stmt → List FeeEventRow
  | insertFeeEvent e => [e]
  | _ => []

end Stmt

section

variable {pool : String} {s : Stmt}

lemma filter_updateWhere {optionId : ℕ} {set : OptionRow → OptionRow} {poolAddress : String}
    (hset : ∀ o, (set o).poolAddress = o.poolAddress) (options : List OptionRow) :
    (updateWhere poolAddress optionId set options).filter (fun o => o.poolAddress = pool)
      = if poolAddress = pool then
          (options.filter fun o => o.poolAddress = pool).map
            fun o => if o.optionId = optionId then set o else o
        else options.filter fun o => o.poolAddress = pool := by
  have hkeep : ∀ o : OptionRow,
      (if o.HasKey poolAddress optionId then set o else o).poolAddress = o.poolAddress := by
    intro o
    split_ifs
    · exact hset o
    · rfl
  induction options with
  | nil => split_ifs <;> rfl
  | cons o options ih =>
    simp only [updateWhere, List.map_cons, List.filter_cons, hkeep] at ih ⊢
    rw [ih]
    by_cases ho : o.poolAddress = pool
    · by_cases hpool : poolAddress = pool
      · simp [ho, hpool, OptionRow.HasKey]
      · have hkey : ¬ o.HasKey poolAddress optionId := fun hkey => hpool (hkey.1.symm.trans ho)
        simp [ho, hpool, hkey]
    · by_cases hpool : poolAddress = pool <;> simp [ho, hpool]

/-- A statement about another pool, or about none, leaves the rows of a pool as they are. -/
lemma exec_of_ne (db : Database) (h : s.pool? ≠ some pool) :
    (s.exec db).optionsOf pool = db.optionsOf pool ∧ (s.exec db).feesOf pool = db.feesOf pool := by
  cases s with
  | insertOption o =>
    have hne : o.poolAddress ≠ pool := fun heq => h (congrArg some heq)
    rw [Stmt.exec]
    split_ifs
    · exact ⟨rfl, rfl⟩
    · simp [Database.optionsOf, Database.feesOf, hne]
  | updateOptionStatus poolAddress optionId =>
    have hne : poolAddress ≠ pool := fun heq => h (congrArg some heq)
    refine ⟨(filter_updateWhere ?_ _).trans (if_neg hne), rfl⟩
    exact fun o => rfl
  | updateOptionBuyer poolAddress optionId =>
    have hne : poolAddress ≠ pool := fun heq => h (congrArg some heq)
    refine ⟨(filter_updateWhere ?_ _).trans (if_neg hne), rfl⟩
    exact fun o => rfl
  | insertFeeEvent e =>
    have hne : e.poolAddress ≠ pool := fun heq => h (congrArg some heq)
    simp [Stmt.exec, Database.optionsOf, Database.feesOf, hne]
  | _ => exact ⟨rfl, rfl⟩

/-- A statement about a pool sees only its rows. -/
lemma exec_of_eq (db : Database) (h : s.pool? = some pool) :
    (s.exec db).optionsOf pool = s.onOptions (db.optionsOf pool) ∧
      (s.exec db).feesOf pool = db.feesOf pool ++ s.fees := by
  cases s with
  | insertOption o =>
    obtain rfl : o.poolAddress = pool := Option.some.inj h
    have hkey : (∃ o' ∈ db.options, o'.HasKey o.poolAddress o.optionId) ↔
        ∃ o' ∈ db.optionsOf o.poolAddress, o'.optionId = o.optionId := by
      simp [Database.optionsOf, OptionRow.HasKey, and_assoc]
    rw [Stmt.exec, Stmt.onOptions]
    simp only [hkey]
    split_ifs with hmem
    · simp [Stmt.fees]
    · simp [Database.optionsOf, Database.feesOf, Stmt.fees]
  | updateOptionStatus poolAddress optionId =>
    obtain rfl : poolAddress = pool := Option.some.inj h
    refine ⟨(filter_updateWhere ?_ _).trans (if_pos rfl), (List.append_nil _).symm⟩
    exact fun o => rfl
  | updateOptionBuyer poolAddress optionId =>
    obtain rfl : poolAddress = pool := Option.some.inj h
    refine ⟨(filter_updateWhere ?_ _).trans (if_pos rfl), (List.append_nil _).symm⟩
    exact fun o => rfl
  | insertFeeEvent e =>
    obtain rfl : e.poolAddress = pool := Option.some.inj h
    simp [Stmt.exec, Stmt.onOptions, Stmt.fees, Database.optionsOf, Database.feesOf]
  | insertOptionTransfer row => exact ⟨rfl, (List.append_nil _).symm⟩
  | insertSwapEvent row => cases h
  | setLastIndexedBlock n => cases h

end

end Frogop.Indexer
