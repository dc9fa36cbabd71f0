import Frogop.Lib.Cursor
import Frogop.Lib.Outcome
import Frogop.Indexer.Feed

/-!
# The poller

A run of `pollNewBlocks` reads the cursor, fetches the blocks after it, and commits their statements
together with the new cursor, or leaves no trace. What the run gets from its environment and from
the RPC is its `Poll`. Runs of the cron job may overlap: between the reading of the cursor and the
commit of one run, others may start and end. Of what a run does after its commit, only the pruning
of old swaps touches the tables of the decoder.
-/

namespace Frogop.Indexer

/-! ### What the RPC answers -/

/-- One event as the RPC has it; a missing field is `none`. -/
structure RawEvent where
  contractAddress : Option String
  type : Option String
  data : Option String

/-- `tx.events`: an array, or arrays keyed by contract address, where `none` is not an array. -/
inductive RawEvents
  | array (events : List RawEvent)
  | keyed (entries : List (String × Option (List RawEvent)))
  | other

structure RawTx where
  id : Option String
  events : RawEvents

/-- `getBlock` throws, does not find the block, or returns it with its `rawTransactions`. -/
inductive BlockReply
  | throws
  | null
  | block (rawTransactions : Option (List RawTx))

inductive RpcError
  | failed

/-! ### One run -/

def RawEvent.toTxEvent (contractAddr : String) (e : RawEvent) : TxEvent where
  contractAddress := e.contractAddress.getD contractAddr
  type := e.type.getD ""
  data := e.data.getD ""

def RawEvents.toTxEvents : RawEvents → List TxEvent
  | array events => events.map (RawEvent.toTxEvent "")
  | keyed entries => entries.flatMap fun entry =>
    (entry.2.getD []).map (RawEvent.toTxEvent entry.1)
  | other => []

def RawTx.toBlockTx (t : RawTx) : BlockTx where
  id := t.id.getD ""
  events := t.events.toTxEvents

def blockTxs (rawTransactions : Option (List RawTx)) : List BlockTx :=
  (rawTransactions.getD []).map RawTx.toBlockTx

def collectBlockStatements (tracking : Tracking) (blockNumber : ℕ) :
    BlockReply → Except RpcError (List Stmt)
  | .throws => .error .failed
  | .null => .ok []
  | .block rawTransactions => .ok (decodeBlock tracking blockNumber (blockTxs rawTransactions))

/-- What a run gets from outside: the pools and tokens it tracks, `parseInt` of
`MAX_BLOCKS_PER_RUN` unless it is `NaN`, the tip of the chain and the blocks. -/
structure Poll where
  tracking : Tracking
  maxBlocks : Option ℕ
  getBlockNumber : Except RpcError ℕ
  getBlock : ℕ → BlockReply

namespace Poll

/-- `parseInt(env.MAX_BLOCKS_PER_RUN, 10) || 20` -/
def maxBlocksPerRun (poll : Poll) : ℕ :=
  match poll.maxBlocks with
  | none | some 0 => 20
  | some n => n

/-- The statements of some blocks, one block after the other. -/
def collectStatements (poll : Poll) (blocks : List ℕ) : Except RpcError (List Stmt) :=
  blocks.foldlM (fun allStmts n => do
    let stmts ← collectBlockStatements poll.tracking n (poll.getBlock n)
    return allStmts ++ stmts) []

/-- The last block of a run that has read `lastIndexed`. -/
def upto (poll : Poll) (lastIndexed : ℕ) : ℕ :=
  match poll.getBlockNumber with
  | .ok latestBlock => min latestBlock (lastIndexed + poll.maxBlocksPerRun)
  | .error _ => lastIndexed

/-- The batch of a run that has read `lastIndexed`; there is none when it is up to date. -/
def prepare (poll : Poll) (lastIndexed : ℕ) : Except RpcError (Option (List Stmt)) := do
  let latestBlock ← poll.getBlockNumber
  if latestBlock ≤ lastIndexed then
    return none
  else
    let upto := min latestBlock (lastIndexed + poll.maxBlocksPerRun)
    let allStmts ← poll.collectStatements (List.range' (lastIndexed + 1) (upto - lastIndexed))
    return some (allStmts ++ [.setLastIndexedBlock upto])

end Poll

/-- `pruneOldData`, of which the tables of the decoder know `stmtPruneOldSwapEvents`. -/
def Database.pruneOldData (db : Database) (currentBlock : ℕ) : Database :=
  { db with swapEvents := db.swapEvents.filter fun row => currentBlock - 26280 ≤ row.blockNumber }

/-- What a run does after its commit: it prunes when it has caught up with the tip. `prunes` says
whether the database lets it. -/
def Poll.postSync (poll : Poll) (lastIndexed : ℕ) (prunes : Bool) (db : Database) : Database :=
  match poll.getBlockNumber with
  | .ok latestBlock =>
    if poll.upto lastIndexed < latestBlock then db
    else if prunes then db.pruneOldData latestBlock else db
  | .error _ => db

/-- The tables after a run that no other run overlaps; `commits` says whether the database takes the
batch. -/
def pollNewBlocks (poll : Poll) (commits prunes : Bool) (db : Database) : Database :=
  match poll.prepare db.getLastIndexedBlock with
  | .ok (some stmts) =>
    if commits then poll.postSync db.getLastIndexedBlock prunes (db.batch stmts) else db
  | .ok none | .error _ => db

/-! ### Runs that overlap -/

/-- A run that has read the cursor. -/
structure Running where
  poll : Poll
  lastIndexed : ℕ

structure PollState where
  db : Database
  running : List Running

inductive PollLabel
  | start (poll : Poll)
  | commit (run : Running)
  | abort (run : Running)
  | prune (currentBlock : ℕ)

inductive PollStep : PollState → PollLabel → PollState → Prop
  | start (db : Database) (rs : List Running) (poll : Poll) :
      PollStep ⟨db, rs⟩ (.start poll) ⟨db, ⟨poll, db.getLastIndexedBlock⟩ :: rs⟩
  | commit {db : Database} {rs rs' : List Running} {run : Running} {stmts : List Stmt}
      (h : run.poll.prepare run.lastIndexed = .ok (some stmts)) :
      PollStep ⟨db, rs ++ run :: rs'⟩ (.commit run) ⟨db.batch stmts, rs ++ rs'⟩
  | abort {db : Database} {rs rs' : List Running} {run : Running} :
      PollStep ⟨db, rs ++ run :: rs'⟩ (.abort run) ⟨db, rs ++ rs'⟩
  /-- A run that has committed and caught up prunes, whichever it is and whenever it comes to it. -/
  | prune (db : Database) (rs : List Running) (currentBlock : ℕ) :
      PollStep ⟨db, rs⟩ (.prune currentBlock) ⟨db.pruneOldData currentBlock, rs⟩

/-! ### What a run takes -/

/-- A block as a run has got it. -/
structure Visit where
  block : ℕ
  tracking : Tracking
  reply : BlockReply

/-- The statements a run commits for a block. -/
def Visit.stmts (v : Visit) : List Stmt :=
  match v.reply with
  | .block rawTransactions => decodeBlock v.tracking v.block (blockTxs rawTransactions)
  | .null | .throws => []

def Poll.visits (poll : Poll) (lastIndexed : ℕ) : List Visit :=
  (List.range' (lastIndexed + 1) (poll.upto lastIndexed - lastIndexed)).map fun n =>
    ⟨n, poll.tracking, poll.getBlock n⟩

def PollLabel.visits : PollLabel → List Visit
  | .commit run => run.poll.visits run.lastIndexed
  | .start _ | .abort _ | .prune _ => []

section

open Outcome

variable {poll : Poll} {lastIndexed : ℕ} {stmts : List Stmt} {db : Database}

lemma Poll.maxBlocksPerRun_pos (poll : Poll) : 0 < poll.maxBlocksPerRun := by
  rw [maxBlocksPerRun]
  rcases poll.maxBlocks with _ | _ | n
  · decide
  · decide
  · exact Nat.succ_pos n

lemma collectBlockStatements_eq_ok {tracking : Tracking} {n : ℕ} {reply : BlockReply} :
    collectBlockStatements tracking n reply = .ok stmts ↔
      reply ≠ .throws ∧ Visit.stmts ⟨n, tracking, reply⟩ = stmts := by
  cases reply <;> simp [collectBlockStatements, Visit.stmts]

/-- The loop goes through when `getBlock` never throws. -/
lemma collectStatements_eq_ok {blocks : List ℕ} :
    poll.collectStatements blocks = .ok stmts ↔
      (∀ n ∈ blocks, poll.getBlock n ≠ .throws) ∧
        blocks.flatMap (fun n => Visit.stmts ⟨n, poll.tracking, poll.getBlock n⟩) = stmts := by
  have hloop : ∀ init : List Stmt, blocks.foldlM (fun allStmts n => do
      let stmts ← collectBlockStatements poll.tracking n (poll.getBlock n)
      return allStmts ++ stmts) init = .ok stmts ↔
        (∀ n ∈ blocks, poll.getBlock n ≠ .throws) ∧
          init ++ blocks.flatMap (fun n => Visit.stmts ⟨n, poll.tracking, poll.getBlock n⟩)
            = stmts := by
    induction blocks with
    | nil => simp
    | cons n blocks ih =>
      intro init
      simp only [List.foldlM_cons, bind_eq_ok, collectBlockStatements_eq_ok, pure_eq,
        Except.ok.injEq, List.forall_mem_cons, List.flatMap_cons]
      constructor
      · rintro ⟨_, ⟨_, ⟨hn, rfl⟩, rfl⟩, hrest⟩
        obtain ⟨hblocks, heq⟩ := (ih _).mp hrest
        exact ⟨⟨hn, hblocks⟩, by rw [← List.append_assoc, heq]⟩
      · rintro ⟨⟨hn, hblocks⟩, heq⟩
        refine ⟨_, ⟨_, ⟨hn, rfl⟩, rfl⟩, (ih _).mpr ⟨hblocks, ?_⟩⟩
        rw [List.append_assoc, heq]
  exact hloop []

/-- A batch covers the blocks after the cursor that was read, and stores the last of them. -/
lemma prepare_ok (h : poll.prepare lastIndexed = .ok (some stmts)) :
    lastIndexed < poll.upto lastIndexed ∧
      (∀ v ∈ poll.visits lastIndexed, v.reply ≠ .throws) ∧
      stmts = (poll.visits lastIndexed).flatMap Visit.stmts
        ++ [.setLastIndexedBlock (poll.upto lastIndexed)] := by
  simp only [Poll.prepare, bind_eq_ok] at h
  obtain ⟨latestBlock, hlatest, h⟩ := h
  split_ifs at h with hle
  · cases h
  · simp only [bind_eq_ok, collectStatements_eq_ok, pure_eq, Except.ok.injEq,
      Option.some.injEq] at h
    obtain ⟨_, ⟨hblocks, rfl⟩, rfl⟩ := h
    have hupto : poll.upto lastIndexed = min latestBlock (lastIndexed + poll.maxBlocksPerRun) := by
      rw [Poll.upto, hlatest]
    have hpos := poll.maxBlocksPerRun_pos
    refine ⟨?_, ?_, ?_⟩
    · rw [hupto]
      omega
    · intro v hv
      obtain ⟨n, hn, rfl⟩ := List.mem_map.mp hv
      rw [hupto] at hn
      exact hblocks n hn
    · rw [Poll.visits, hupto, List.flatMap_map]

/-- A run that is behind the tip and gets an answer for each of its blocks has a batch. -/
lemma prepare_of_answered (hlt : lastIndexed < poll.upto lastIndexed)
    (hanswered : ∀ v ∈ poll.visits lastIndexed, v.reply ≠ .throws) :
    poll.prepare lastIndexed = .ok (some ((poll.visits lastIndexed).flatMap Visit.stmts
      ++ [.setLastIndexedBlock (poll.upto lastIndexed)])) := by
  cases hlatest : poll.getBlockNumber with
  | error e =>
    rw [Poll.upto, hlatest] at hlt
    exact absurd hlt (lt_irrefl _)
  | ok latestBlock =>
    have hupto : poll.upto lastIndexed = min latestBlock (lastIndexed + poll.maxBlocksPerRun) := by
      rw [Poll.upto, hlatest]
    have hbehind : ¬ latestBlock ≤ lastIndexed := by
      rw [hupto] at hlt
      exact not_le.mpr (hlt.trans_le (min_le_left _ _))
    have hblocks := collectStatements_eq_ok.mpr
      ⟨fun n hn => hanswered _ (List.mem_map_of_mem hn), rfl⟩
    rw [hupto] at hblocks
    simp only [Poll.prepare, hlatest, ok_bind, if_neg hbehind, hblocks, pure_eq]
    rw [Poll.visits, hupto, List.flatMap_map]


end

end Frogop.Indexer
