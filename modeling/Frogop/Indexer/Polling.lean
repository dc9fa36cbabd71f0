import Frogop.Indexer.Calls
import Frogop.Indexer.Poller

/-!
# The blocks that are taken

The runs of the poller are readers of the chain under the stored cursor (`PollStep.cursor`), and the
tables are what the batches for the blocks they have taken leave, in the order of the commits
(`pruned_of_run`). Runs that do not overlap commit every block once, in order (`polled_once`), but
a block that the RPC does not find counts as taken.
-/

namespace Frogop.Indexer

/-! ### Readers of the chain -/

/-- What the runs know of the cursor. -/
def PollState.cursor (s : PollState) : Cursor.State where
  cursor := s.db.getLastIndexedBlock
  running := s.running.map Running.lastIndexed

/-- What a step does to the cursor. -/
def PollLabel.cursor : PollLabel → Cursor.Label
  | .start _ => .start
  | .commit run => .commit run.lastIndexed (run.poll.upto run.lastIndexed)
  | .abort run => .abort run.lastIndexed
  | .prune _ => .skip

/-- The blocks that are taken in a history, in the order of the commits. -/
def visits (s : PollState) (h : Lts.History PollState PollLabel) : List Visit :=
  Lts.collect (fun _ l => l.visits) s h

/-- The tables of `db` are those of `full`, without swaps that were pruned. -/
structure Database.PrunedFrom (full db : Database) : Prop where
  options : db.options = full.options
  feeEvents : db.feeEvents = full.feeEvents
  optionTransfers : db.optionTransfers = full.optionTransfers
  swapEvents : db.swapEvents.Sublist full.swapEvents

/-! ### Runs one after the other -/

/-- One run of the cron job, during which no other runs. -/
structure Attempt where
  poll : Poll
  commits : Bool
  prunes : Bool

inductive Attempted : Database → Attempt → Database → Prop
  | attempt (db : Database) (a : Attempt) :
      Attempted db a (pollNewBlocks a.poll a.commits a.prunes db)

namespace Attempt

/-- The blocks that a run commits. -/
def visits (a : Attempt) (db : Database) : List Visit :=
  match a.poll.prepare db.getLastIndexedBlock with
  | .ok (some _) => if a.commits then a.poll.visits db.getLastIndexedBlock else []
  | .ok none | .error _ => []

end Attempt

/-- The blocks that runs commit one after the other. -/
def committed (db : Database) (h : Lts.History Database Attempt) : List Visit :=
  Lts.collect (fun db a => a.visits db) db h

/-- The blocks that the RPC returns are those of the chain; `chain n` are the `rawTransactions` of
block `n`. -/
def Poll.Honest (chain : ℕ → Option (List RawTx)) (poll : Poll) : Prop :=
  ∀ n rawTransactions, poll.getBlock n = .block rawTransactions → rawTransactions = chain n

/-- A block as it is, or not found. -/
def Visit.Honest (chain : ℕ → Option (List RawTx)) (v : Visit) : Prop :=
  v.reply = .block (chain v.block) ∨ v.reply = .null

section

variable {s t : PollState} {h : Lts.History PollState PollLabel} {l : PollLabel}
  {db db₀ : Database} {stmts : List Stmt} {n : ℕ}

/-! ### Batches -/

lemma batch_append (db : Database) (stmts stmts' : List Stmt) :
    db.batch (stmts ++ stmts') = (db.batch stmts).batch stmts' := List.foldl_append

/-- The last statement of a batch stores the cursor. -/
lemma getLastIndexedBlock_batch (db : Database) (stmts : List Stmt) (n : ℕ) :
    (db.batch (stmts ++ [.setLastIndexedBlock n])).getLastIndexedBlock = n := by
  rw [batch_append]
  rfl

namespace Database.PrunedFrom

variable {full db : Database}

lemma refl (db : Database) : db.PrunedFrom db := ⟨rfl, rfl, rfl, List.Sublist.refl _⟩

/-- A statement does not look at the swaps. -/
lemma exec (h : full.PrunedFrom db) (stmt : Stmt) : (stmt.exec full).PrunedFrom (stmt.exec db) := by
  obtain ⟨hoptions, hfees, htransfers, hswaps⟩ := h
  cases stmt with
  | insertOption o =>
    simp only [Stmt.exec, hoptions]
    split_ifs
    · exact ⟨hoptions, hfees, htransfers, hswaps⟩
    · exact ⟨rfl, hfees, htransfers, hswaps⟩
  | updateOptionStatus | updateOptionBuyer =>
    refine ⟨?_, hfees, htransfers, hswaps⟩
    simp only [Stmt.exec, hoptions]
  | insertFeeEvent e => exact ⟨hoptions, congrArg (· ++ [e]) hfees, htransfers, hswaps⟩
  | insertOptionTransfer row => exact ⟨hoptions, hfees, congrArg (· ++ [row]) htransfers, hswaps⟩
  | insertSwapEvent row =>
    exact ⟨hoptions, hfees, htransfers, hswaps.append (List.Sublist.refl _)⟩
  | setLastIndexedBlock n => exact ⟨hoptions, hfees, htransfers, hswaps⟩

lemma batch (h : full.PrunedFrom db) (stmts : List Stmt) :
    (full.batch stmts).PrunedFrom (db.batch stmts) := by
  induction stmts generalizing full db with
  | nil => exact h
  | cons stmt stmts ih => exact ih (h.exec stmt)

lemma setLastIndexedBlock {stmts : List Stmt} (h : full.PrunedFrom (db.batch stmts)) (n : ℕ) :
    full.PrunedFrom (db.batch (stmts ++ [.setLastIndexedBlock n])) := by
  rw [batch_append]
  exact ⟨h.options, h.feeEvents, h.optionTransfers, h.swapEvents⟩

lemma pruneOldData (h : full.PrunedFrom db) (n : ℕ) : full.PrunedFrom (db.pruneOldData n) :=
  ⟨h.options, h.feeEvents, h.optionTransfers, List.filter_sublist.trans h.swapEvents⟩

end Database.PrunedFrom

/-! ### What a step takes -/

lemma PollStep.cursor (hstep : PollStep s l t) : Cursor.Step s.cursor l.cursor t.cursor := by
  cases hstep with
  | start db rs poll => exact .start _ _
  | @commit db rs rs' run stmts h =>
    obtain ⟨hlt, -, rfl⟩ := prepare_ok h
    simp only [PollState.cursor, List.map_append, List.map_cons, getLastIndexedBlock_batch]
    exact .commit hlt
  | @abort db rs rs' run =>
    simp only [PollState.cursor, List.map_append, List.map_cons]
    exact .abort
  | prune => exact .skip _

lemma PollStep.pruned {full : Database} (hstep : PollStep s l t) (h : full.PrunedFrom s.db) :
    (full.batch (l.visits.flatMap Visit.stmts)).PrunedFrom t.db := by
  cases hstep with
  | start | abort => exact h
  | commit hprepare =>
    obtain ⟨-, -, rfl⟩ := prepare_ok hprepare
    exact (h.batch _).setLastIndexedBlock _
  | prune db rs currentBlock => exact h.pruneOldData currentBlock

lemma map_block_visits_label (l : PollLabel) : l.visits.map Visit.block = l.cursor.taken := by
  cases l with
  | start | abort | prune => rfl
  | commit run =>
    simp [PollLabel.visits, Poll.visits, PollLabel.cursor, Cursor.Label.taken, Function.comp_def]

/-! ### What a run leaves -/

/-- The tables are those of one batch for all blocks that were taken. -/
lemma pruned_of_run (hrun : Lts.Run PollStep s h t) :
    (s.db.batch ((visits s h).flatMap Visit.stmts)).PrunedFrom t.db := by
  refine hrun.induct
    (I := fun h t => (s.db.batch ((visits s h).flatMap Visit.stmts)).PrunedFrom t.db) (.refl _) ?_
  intro h t l u _ ih hstep
  have hcons : visits s ((l, u) :: h) = visits s h ++ l.visits := rfl
  rw [hcons, List.flatMap_append, batch_append]
  exact hstep.pruned ih

lemma cursor_of_run (hrun : Lts.Run PollStep s h t) :
    Lts.Run Cursor.Step s.cursor (Lts.mapHistory PollState.cursor PollLabel.cursor h) t.cursor :=
  hrun.map fun _ _ _ => PollStep.cursor

lemma map_block_visits (s : PollState) (h : Lts.History PollState PollLabel) :
    (visits s h).map Visit.block
      = Cursor.taken s.cursor (Lts.mapHistory PollState.cursor PollLabel.cursor h) := by
  rw [Cursor.taken, Lts.collect_map, visits, Lts.map_collect]
  simp only [map_block_visits_label]

/-! ### Runs that do not overlap -/

variable {hs : Lts.History Database Attempt} {a : Attempt} {chain : ℕ → Option (List RawTx)}

/-- An attempt is a run that starts and stops, with or without a commit, and then may prune. -/
lemma Attempt.steps (a : Attempt) (db : Database) :
    ∃ l db', PollStep ⟨db, [⟨a.poll, db.getLastIndexedBlock⟩]⟩ l ⟨db', []⟩ ∧
      l.visits = a.visits db ∧
      Cursor.Fresh (PollState.cursor ⟨db, [⟨a.poll, db.getLastIndexedBlock⟩]⟩) l.cursor ∧
      (pollNewBlocks a.poll a.commits a.prunes db = db' ∨
        ∃ n, pollNewBlocks a.poll a.commits a.prunes db = db'.pruneOldData n) := by
  have habort : PollStep ⟨db, [⟨a.poll, db.getLastIndexedBlock⟩]⟩
      (.abort ⟨a.poll, db.getLastIndexedBlock⟩) ⟨db, []⟩ := @PollStep.abort db [] [] _
  cases hprepare : a.poll.prepare db.getLastIndexedBlock with
  | error e =>
    refine ⟨_, _, habort, ?_, trivial, .inl ?_⟩
    · rw [Attempt.visits, hprepare]
      rfl
    · rw [pollNewBlocks, hprepare]
  | ok batch =>
    cases batch with
    | none =>
      refine ⟨_, _, habort, ?_, trivial, .inl ?_⟩
      · rw [Attempt.visits, hprepare]
        rfl
      · rw [pollNewBlocks, hprepare]
    | some stmts =>
      rw [Attempt.visits, pollNewBlocks, hprepare]
      cases a.commits with
      | false => exact ⟨_, _, habort, rfl, trivial, .inl rfl⟩
      | true =>
        refine ⟨_, _, @PollStep.commit db [] [] _ _ hprepare, rfl, rfl, ?_⟩
        simp only [if_true, Poll.postSync]
        split
        · split_ifs
          · exact .inl rfl
          · exact .inr ⟨_, rfl⟩
          · exact .inl rfl
        · exact .inl rfl

/-- Runs one after the other are runs that never overlap: each commit finds the cursor as its run
has read it. -/
lemma pollRun_of_attempted (hrun : Lts.Run Attempted db₀ hs db) :
    ∃ h, Lts.Run PollStep ⟨db₀, []⟩ h ⟨db, []⟩ ∧ visits ⟨db₀, []⟩ h = committed db₀ hs ∧
      Lts.Along (fun s l _ => Cursor.Fresh (PollState.cursor s) (PollLabel.cursor l))
        ⟨db₀, []⟩ h := by
  refine hrun.induct (I := fun hs db => ∃ h, Lts.Run PollStep ⟨db₀, []⟩ h ⟨db, []⟩ ∧
    visits ⟨db₀, []⟩ h = committed db₀ hs ∧
      Lts.Along (fun s l _ => Cursor.Fresh (PollState.cursor s) (PollLabel.cursor l)) ⟨db₀, []⟩ h)
    ⟨[], .nil, rfl, trivial⟩ ?_
  rintro hs db a db' hrun ⟨h, hpolls, hvisits, hfresh⟩ ⟨⟩
  obtain ⟨l, db', hstep, hl, hlfresh, hprune⟩ := a.steps db
  have hpolls' := (hpolls.cons (.start db [] a.poll)).cons hstep
  have hvisits' : visits ⟨db₀, []⟩ h ++ [] ++ l.visits
      = committed db₀ hs ++ a.visits (Lts.last db₀ hs) := by
    rw [hvisits, hl, hrun.last_eq, List.append_nil]
  rcases hprune with heq | ⟨n, heq⟩
  · rw [heq]
    exact ⟨_, hpolls', hvisits', ⟨hfresh, trivial⟩, hlfresh⟩
  · rw [heq]
    refine ⟨_, hpolls'.cons (.prune db' [] n), ?_, ⟨⟨hfresh, trivial⟩, hlfresh⟩, trivial⟩
    exact (List.append_nil _).trans hvisits'

/-- The blocks that are committed one after the other. -/
lemma map_block_committed (hrun : Lts.Run Attempted db₀ hs db) :
    (committed db₀ hs).map Visit.block
        = List.range' (db₀.getLastIndexedBlock + 1)
            (db.getLastIndexedBlock - db₀.getLastIndexedBlock) ∧
      db₀.getLastIndexedBlock ≤ db.getLastIndexedBlock := by
  obtain ⟨h, hpolls, hvisits, hfresh⟩ := pollRun_of_attempted hrun
  have hmapped := (Lts.along_map (f := PollState.cursor) (g := PollLabel.cursor)
    (fun s l _ => Cursor.Fresh s l) ⟨db₀, []⟩ h).mpr hfresh
  obtain ⟨htaken, hle, -⟩ := Cursor.taken_of_fresh rfl (cursor_of_run hpolls) hmapped
  rw [← hvisits, map_block_visits, htaken]
  exact ⟨rfl, hle⟩

lemma Attempt.visits_honest (hhonest : a.poll.Honest chain) (db : Database) :
    ∀ v ∈ a.visits db, v.Honest chain := by
  intro v hv
  rw [Attempt.visits] at hv
  cases hprepare : a.poll.prepare db.getLastIndexedBlock with
  | error e => simp [hprepare] at hv
  | ok batch =>
    cases batch with
    | none => simp [hprepare] at hv
    | some stmts =>
      simp only [hprepare] at hv
      split_ifs at hv
      · have hanswered := (prepare_ok hprepare).2.1 v hv
        obtain ⟨n, -, rfl⟩ := List.mem_map.mp hv
        cases hreply : a.poll.getBlock n with
        | throws => exact absurd hreply hanswered
        | null => exact .inr rfl
        | block rawTransactions =>
          exact .inl (congrArg BlockReply.block (hhonest n rawTransactions hreply))
      · simp at hv

/-- The statements of a block are those of its events, or none where it was not found. -/
lemma Visit.Honest.stmts_eq {v : Visit} (hv : v.Honest chain) :
    v.reply = .block (chain v.block) ∧
        v.stmts = decodeBlock v.tracking v.block (blockTxs (chain v.block)) ∨
      v.reply = .null ∧ v.stmts = [] := by
  rcases hv with hblock | hnull
  · refine .inl ⟨hblock, ?_⟩
    rw [Visit.stmts, hblock]
  · refine .inr ⟨hnull, ?_⟩
    rw [Visit.stmts, hnull]

/-- A block that was visited once. -/
lemma filter_eq_singleton {vs : List Visit} (hnodup : (vs.map Visit.block).Nodup)
    (hn : n ∈ vs.map Visit.block) : ∃ v, vs.filter (fun v => v.block = n) = [v] ∧ v ∈ vs ∧
      v.block = n := by
  obtain ⟨v, hv, rfl⟩ := List.mem_map.mp hn
  obtain ⟨before, after, rfl⟩ := List.append_of_mem hv
  refine ⟨v, ?_, hv, rfl⟩
  rw [List.map_append, List.map_cons, List.nodup_middle, List.nodup_cons, List.mem_append,
    not_or] at hnodup
  obtain ⟨⟨hbefore, hafter⟩, -⟩ := hnodup
  have hnone : ∀ ws : List Visit, v.block ∉ ws.map Visit.block →
      ws.filter (fun w => w.block = v.block) = [] := by
    intro ws hws
    rw [List.filter_eq_nil_iff]
    intro w hw
    have hne : w.block ≠ v.block := fun heq => hws (heq ▸ List.mem_map_of_mem hw)
    simpa using hne
  rw [List.filter_append, List.filter_cons_of_pos (by simp), hnone before hbefore,
    hnone after hafter, List.nil_append]

end

/-! ### A chain of three blocks -/

namespace Testnet

/-- A block that reports events of the pool, in one transaction. -/
def rawBlock (events : List Event) : Option (List RawTx) :=
  some [⟨some "tx", .array (events.map fun e =>
    ⟨some pool, some e.name.type, some (e.reported pool).data⟩)⟩]

/-- A call on 4 units for a premium of 100, of which the fee is 1. -/
def option : OptionRecord where
  writer := Frogop.Testnet.account 10
  buyer := Frogop.Testnet.account 11
  strikePrice := 10 ^ 18
  underlyingAmount := 4
  premium := 100
  expiryBlock := 3
  createdBlock := 1

def written : Event := ⟨.optionWritten, 200, OptionsPool.writtenFields option⟩

def purchased : Event :=
  ⟨.optionPurchased, 168,
    [.u256 0, .address option.buyer, .address option.writer, .u256 100, .u256 99, .u64 2]⟩

def exercised : Event := ⟨.optionExercised, 193, OptionsPool.exercisedFields option 4 1⟩

/-- The option is written, bought and exercised, each in a block of its own. -/
def chain : ℕ → Option (List RawTx)
  | 1 => rawBlock [written]
  | 2 => rawBlock [purchased]
  | 3 => rawBlock [exercised]
  | _ => none

/-- A poller that finds every block up to a tip. -/
def poll (tip : ℕ) : Poll := ⟨tracking, none, .ok tip, fun n => .block (chain n)⟩

/-- What the blocks are decoded to. -/
def stmts : ℕ → List Stmt
  | 1 => [.insertOption (writtenRow tracking pool 1 "tx" (writtenTexts option))]
  | 2 =>
    .updateOptionStatus pool 0 OptionStatus.PURCHASED (some (hexString option.buyer.val)) 2 "tx"
      :: feeStmts pool 2 "tx" 0 .BUY 1
  | 3 =>
    .updateOptionStatus pool 0 OptionStatus.EXERCISED none 3 "tx"
      :: feeStmts pool 3 "tx" 0 .EXERCISE 1
  | _ => []

lemma decodeBlock_rawBlock {events : List Event} {n : ℕ} :
    decodeBlock tracking n (blockTxs (rawBlock events))
      = events.flatMap fun e => decodeEvent tracking (e.reported pool) n "tx" := by
  have htxs : blockTxs (rawBlock events) = [⟨"tx", events.map (Event.reported pool)⟩] := by
    simp [blockTxs, rawBlock, RawTx.toBlockTx, RawEvents.toTxEvents, RawEvent.toTxEvent,
      Event.reported, Function.comp_def]
  have hreport : decodeBlocks tracking (report pool n events) = _ :=
    decodeBlocks_report (by decide) pool_tracked
  rw [htxs, ← hreport, decodeBlocks, report, List.flatMap_singleton]

lemma decodeBlock_chain (n : ℕ) : decodeBlock tracking n (blockTxs (chain n)) = stmts n := by
  match n with
  | 1 =>
    rw [chain, decodeBlock_rawBlock, List.flatMap_singleton, written, decode_written]
    rfl
  | 2 =>
    rw [chain, decodeBlock_rawBlock, List.flatMap_singleton, purchased, decode_purchased]
    rfl
  | 3 =>
    rw [chain, decodeBlock_rawBlock, List.flatMap_singleton, exercised, decode_exercised]
    rfl
  | 0 | _ + 4 => rfl

lemma prepare_poll {n tip : ℕ} (hn : n < tip) (htip : tip ≤ n + 20) :
    (poll tip).prepare n = .ok (some ((List.range' (n + 1) (tip - n)).flatMap stmts
      ++ [.setLastIndexedBlock tip])) := by
  have hupto : (poll tip).upto n = tip := min_eq_left htip
  have hstmts : ((poll tip).visits n).flatMap Visit.stmts
      = (List.range' (n + 1) (tip - n)).flatMap stmts := by
    rw [Poll.visits, hupto, List.flatMap_map]
    exact List.flatMap_congr fun m _ => decodeBlock_chain m
  rw [prepare_of_answered, hstmts, hupto]
  · rw [hupto]
    exact hn
  · intro v hv
    obtain ⟨m, -, rfl⟩ := List.mem_map.mp hv
    exact BlockReply.noConfusion

/-- The tables after a commit of the blocks after `n`, up to `tip`. -/
def committed (n tip : ℕ) (db : Database) : Database :=
  db.batch ((List.range' (n + 1) (tip - n)).flatMap stmts ++ [.setLastIndexedBlock tip])

lemma cursor_committed {n tip : ℕ} {db : Database} :
    (committed n tip db).getLastIndexedBlock = tip := getLastIndexedBlock_batch ..

lemma pollNewBlocks_poll {n tip : ℕ} {db : Database} (hn : db.getLastIndexedBlock = n)
    (hlt : n < tip) (htip : tip ≤ n + 20) :
    pollNewBlocks (poll tip) true false db = committed n tip db := by
  rw [pollNewBlocks, hn, prepare_poll hlt htip]
  exact ite_self _

end Testnet

section

variable {db db₀ : Database} {hs : Lts.History Database Attempt} {chain : ℕ → Option (List RawTx)}

/-- Runs one after the other, whatever the RPC answers and whether or not the database takes their
batches: the tables are those of one batch for the blocks up to the cursor, each of them once and
in order. A block that the RPC has returned has the statements of its events; one that it has
not found has none, and is not asked for again. -/
theorem polled_once (hrun : Lts.Run Attempted db₀ hs db)
    (hhonest : ∀ p ∈ hs, p.1.poll.Honest chain) :
    (db₀.batch ((committed db₀ hs).flatMap Visit.stmts)).PrunedFrom db ∧
      (committed db₀ hs).map Visit.block
        = List.range' (db₀.getLastIndexedBlock + 1)
            (db.getLastIndexedBlock - db₀.getLastIndexedBlock) ∧
      db₀.getLastIndexedBlock ≤ db.getLastIndexedBlock ∧
      ∀ n, db₀.getLastIndexedBlock < n → n ≤ db.getLastIndexedBlock →
        ∃ v, (committed db₀ hs).filter (fun v => v.block = n) = [v] ∧
          (v.reply = .block (chain n) ∧
              v.stmts = decodeBlock v.tracking n (blockTxs (chain n)) ∨
            v.reply = .null ∧ v.stmts = []) := by
  obtain ⟨h, hpolls, hvisits, -⟩ := pollRun_of_attempted hrun
  obtain ⟨hblocks, hle⟩ := map_block_committed hrun
  refine ⟨?_, hblocks, hle, fun n hbefore hn => ?_⟩
  · rw [← hvisits]
    exact pruned_of_run hpolls
  · have hnodup : ((committed db₀ hs).map Visit.block).Nodup := by
      rw [hblocks]
      exact List.nodup_range'
    have hmem : n ∈ (committed db₀ hs).map Visit.block := by
      rw [hblocks, List.mem_range'_1]
      omega
    obtain ⟨v, hfilter, hv, rfl⟩ := filter_eq_singleton hnodup hmem
    have hhonest' : v.Honest chain := Lts.collect_forall hrun
      (fun db a _ hlabel _ => Attempt.visits_honest (hhonest _ hlabel) db) v hv
    exact ⟨v, hfilter, hhonest'.stmts_eq⟩

end

/-- A block that is found is committed once. -/
theorem polled_once_written :
    ∃ hs db, Lts.Run Attempted Database.empty hs db ∧ db.getLastIndexedBlock = 1 ∧
      ∃ v, (committed Database.empty hs).filter (fun v => v.block = 1) = [v] ∧
        (v.reply = .block (Testnet.chain 1) ∧
            v.stmts = decodeBlock v.tracking 1 (blockTxs (Testnet.chain 1)) ∨
          v.reply = .null ∧ v.stmts = []) := by
  have hrun : Lts.Run Attempted Database.empty _ _ :=
    Lts.Run.nil.cons (.attempt _ ⟨Testnet.poll 1, true, false⟩)
  have hcursor :
      (pollNewBlocks (Testnet.poll 1) true false Database.empty).getLastIndexedBlock = 1 := by
    rw [Testnet.pollNewBlocks_poll rfl (by decide) (by decide)]
    exact Testnet.cursor_committed
  refine ⟨_, _, hrun, hcursor,
    (polled_once hrun fun p hp => ?_).2.2.2 1 (by decide) hcursor.ge⟩
  obtain rfl := List.mem_singleton.mp hp
  exact fun _ _ hblock => (BlockReply.block.inj hblock).symm

/-- A poller that never finds a block, at tip 1. -/
def Testnet.lost : Attempt := ⟨⟨tracking, none, .ok 1, fun _ => .null⟩, true, true⟩

/-- A block that was not found when its run came to it is lost: the cursor has passed it, its option
is not in the tables, and no later run takes it. -/
theorem nullBlock_lost :
    ∃ hs db, Lts.Run Attempted Database.empty hs db ∧
      (∀ p ∈ hs, p.1.poll.Honest Testnet.chain ∧ p.1.poll.tracking = Testnet.tracking) ∧
      db.getLastIndexedBlock = 1 ∧
      decodeBlock Testnet.tracking 1 (blockTxs (Testnet.chain 1))
        = [.insertOption (writtenRow Testnet.tracking Testnet.pool 1 "tx"
            (writtenTexts Testnet.option))] ∧
      db.options = [] ∧
      ∀ hs' db', Lts.Run Attempted db hs' db' → ∀ v ∈ committed db hs', v.block ≠ 1 := by
  refine ⟨_, _, Lts.Run.nil.cons (.attempt _ Testnet.lost), ?_, rfl, Testnet.decodeBlock_chain 1,
    rfl, fun hs' db' hrun v hv => ?_⟩
  · intro p hp
    obtain rfl := List.mem_singleton.mp hp
    exact ⟨fun _ _ hblock => BlockReply.noConfusion hblock, rfl⟩
  · have hmem : v.block ∈ (committed _ hs').map Visit.block := List.mem_map_of_mem hv
    rw [(map_block_committed hrun).1, List.mem_range'_1] at hmem
    have hcursor : (pollNewBlocks Testnet.lost.poll Testnet.lost.commits Testnet.lost.prunes
        Database.empty).getLastIndexedBlock = 1 := rfl
    rw [hcursor] at hmem
    exact (Nat.lt_of_succ_le hmem.1).ne'

end Frogop.Indexer
