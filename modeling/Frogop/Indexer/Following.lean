import Frogop.Indexer.Setup

/-!
# What polling makes of the rows of a pool

The runs of the poller take every block once and in order. Where they find each block and track a
pool with its grace period, the rows of the pool come out as if one run had taken all of the blocks.
-/

namespace Frogop.Indexer

/-- Only one pool is tracked. -/
def Tracking.only (pool : String) (gracePeriod : ℕ) : Tracking :=
  ⟨[pool], fun _ => none, fun _ => some gracePeriod⟩

/-- The block `n` of a chain, as the decoder gets it. -/
def blockOf (chain : ℕ → Option (List RawTx)) (n : ℕ) : Block := ⟨n, blockTxs (chain n)⟩

/-- The first `n` blocks of a chain. -/
def blocksUpto (chain : ℕ → Option (List RawTx)) (n : ℕ) : List Block :=
  (List.range' 1 n).map (blockOf chain)

/-- A block was found, and the pool was tracked with its grace period. -/
structure Visit.Sees (chain : ℕ → Option (List RawTx)) (pool : String) (gracePeriod : ℕ)
    (v : Visit) : Prop where
  reply : v.reply = .block (chain v.block)
  tracked : pool ∈ v.tracking.trackedPools
  gracePeriod : (v.tracking.poolGracePeriods pool).getD defaultGracePeriodBlocks = gracePeriod

section

variable {tracking tracking' : Tracking} {event : TxEvent} {pool txId : String} {n g : ℕ}
  {chain chain' : ℕ → Option (List RawTx)} {vs : List Visit} {events : List Event}
  {db db₀ : Database} {hs : Lts.History Database Attempt}

/-- The decoder needs the grace period of the contract only. -/
lemma decodeEvent_congr
    (h : (tracking.poolGracePeriods event.contractAddress).getD defaultGracePeriodBlocks
      = (tracking'.poolGracePeriods event.contractAddress).getD defaultGracePeriodBlocks) :
    decodeEvent tracking event n txId = decodeEvent tracking' event n txId := by
  simp only [decodeEvent, handleWritten, handleWrittenBtc, writtenRow, h]

/-- What a block says of a pool does not depend on what else is tracked. -/
lemma filter_decodeTxEvent_congr (htracked : pool ∈ tracking.trackedPools)
    (hgrace : (tracking.poolGracePeriods pool).getD defaultGracePeriodBlocks = g)
    (hreported : event.normalized.contractAddress = pool →
      ∃ e : Event, event.normalized = e.reported pool) :
    (decodeTxEvent tracking event n txId).filter (fun s => s.pool? = some pool)
      = (decodeTxEvent (.only pool g) event n txId).filter (fun s => s.pool? = some pool) := by
  by_cases hown : event.normalized.contractAddress = pool
  · obtain ⟨e, he⟩ := hreported hown
    have honly : pool ∈ (Tracking.only pool g).trackedPools := List.mem_cons_self
    rw [filter_decodeTxEvent htracked he, filter_decodeTxEvent honly he]
    exact decodeEvent_congr hgrace
  · rw [filter_decodeTxEvent_of_ne hown, filter_decodeTxEvent_of_ne hown]

/-- The events that are reported of a pool are its own. -/
lemma reported_of_mem {blocks : List Block} {entry : Entry TxEvent}
    (hreport : poolEvents pool blocks = events.map (Event.reported pool))
    (hentry : entry ∈ blocks.flatMap Block.entries)
    (hown : entry.event.normalized.contractAddress = pool) :
    ∃ e : Event, entry.event.normalized = e.reported pool := by
  have hmem : entry.event.normalized ∈ poolEvents pool blocks :=
    List.mem_filter.mpr ⟨List.mem_map_of_mem hentry, by simpa using hown⟩
  rw [hreport] at hmem
  obtain ⟨e, -, he⟩ := List.mem_map.mp hmem
  exact ⟨e, he.symm⟩

lemma filter_decodeBlocks_congr {blocks : List Block} (htracked : pool ∈ tracking.trackedPools)
    (hgrace : (tracking.poolGracePeriods pool).getD defaultGracePeriodBlocks = g)
    (hreported : ∀ entry ∈ blocks.flatMap Block.entries,
      entry.event.normalized.contractAddress = pool →
        ∃ e : Event, entry.event.normalized = e.reported pool) :
    (decodeBlocks tracking blocks).filter (fun s => s.pool? = some pool)
      = (decodeBlocks (.only pool g) blocks).filter (fun s => s.pool? = some pool) := by
  rw [decodeBlocks_eq, decodeBlocks_eq, List.filter_flatMap, List.filter_flatMap]
  exact List.flatMap_congr fun entry hentry =>
    filter_decodeTxEvent_congr htracked hgrace (hreported entry hentry)

lemma Visit.Sees.stmts_eq {v : Visit} (h : v.Sees chain pool g) :
    v.stmts = decodeBlocks v.tracking [blockOf chain v.block] := by
  rw [Visit.stmts, h.reply, decodeBlocks, List.flatMap_singleton]
  rfl

/-- The statements about a pool are those of one run that tracks nothing else. -/
lemma filter_stmts (hsees : ∀ v ∈ vs, v.Sees chain pool g)
    (hreport : poolEvents pool (vs.map fun v => blockOf chain v.block)
      = events.map (Event.reported pool)) :
    (vs.flatMap Visit.stmts).filter (fun s => s.pool? = some pool)
      = (decodeBlocks (.only pool g) (vs.map fun v => blockOf chain v.block)).filter
          (fun s => s.pool? = some pool) := by
  rw [decodeBlocks, List.flatMap_map, List.filter_flatMap, List.filter_flatMap]
  refine List.flatMap_congr fun v hv => ?_
  rw [(hsees v hv).stmts_eq, filter_decodeBlocks_congr (hsees v hv).tracked
    (hsees v hv).gracePeriod, decodeBlocks, List.flatMap_singleton]
  intro entry hentry
  refine reported_of_mem hreport (List.mem_flatMap.mpr ⟨blockOf chain v.block, ?_, ?_⟩)
  · exact List.mem_map_of_mem hv
  · simpa using hentry

/-- The tables are those of one batch for all blocks that were committed. -/
lemma pruned_of_attempted (hrun : Lts.Run Attempted db₀ hs db) :
    (db₀.batch ((committed db₀ hs).flatMap Visit.stmts)).PrunedFrom db := by
  obtain ⟨h, hpolls, hvisits, -⟩ := pollRun_of_attempted hrun
  have hpruned := pruned_of_run hpolls
  rwa [hvisits] at hpruned

/-- The blocks that were committed are those up to the cursor. -/
lemma blocks_committed (hrun : Lts.Run Attempted db₀ hs db)
    (hcursor : db₀.getLastIndexedBlock = 0) :
    (committed db₀ hs).map (fun v => blockOf chain v.block)
      = blocksUpto chain db.getLastIndexedBlock := by
  have htaken := (map_block_committed hrun).1
  rw [hcursor, Nat.sub_zero] at htaken
  rw [blocksUpto, ← htaken, List.map_map]
  rfl

/-- Runs of the poller that see a pool leave it the rows of one run over the blocks up to the
cursor. -/
lemma rows_of_attempted (hrun : Lts.Run Attempted db₀ hs db)
    (hcursor : db₀.getLastIndexedBlock = 0)
    (hsees : ∀ v ∈ committed db₀ hs, v.Sees chain pool g)
    (hreport : poolEvents pool (blocksUpto chain db.getLastIndexedBlock)
      = events.map (Event.reported pool)) :
    db.optionsOf pool = (db₀.batch (decodeBlocks (.only pool g)
      (blocksUpto chain db.getLastIndexedBlock))).optionsOf pool := by
  have hrows : db.optionsOf pool
      = (db₀.batch ((committed db₀ hs).flatMap Visit.stmts)).optionsOf pool :=
    congrArg (List.filter fun o : OptionRow => o.poolAddress = pool)
      (pruned_of_attempted hrun).options
  rw [← blocks_committed hrun hcursor] at hreport ⊢
  rw [hrows, (batch_rows _).1, (batch_rows _).1, filter_stmts hsees hreport]

lemma poolEvents_append (blocks blocks' : List Block) :
    poolEvents pool (blocks ++ blocks') = poolEvents pool blocks ++ poolEvents pool blocks' := by
  simp [poolEvents]

lemma blocksUpto_succ :
    blocksUpto chain (n + 1) = blocksUpto chain n ++ [blockOf chain (n + 1)] := by
  rw [blocksUpto, List.range'_concat, List.map_append, Nat.one_mul, Nat.add_comm 1 n]
  rfl

lemma blocksUpto_congr (h : ∀ k ≤ n, chain' k = chain k) :
    blocksUpto chain' n = blocksUpto chain n := by
  refine List.map_congr_left fun k hk => ?_
  rw [blockOf, h k (Nat.le_of_lt_succ (by simpa [Nat.add_comm] using (List.mem_range'_1.mp hk).2)),
    blockOf]

/-- A block that is taken was answered, and is one up to the tip. -/
lemma Attempt.visits_spec {a : Attempt} {v : Visit} (hv : v ∈ a.visits db) :
    a.commits = true ∧ v.tracking = a.poll.tracking ∧ v.reply = a.poll.getBlock v.block ∧
      v.reply ≠ .throws ∧ ∃ tip, a.poll.getBlockNumber = .ok tip ∧ v.block ≤ tip := by
  rw [Attempt.visits] at hv
  cases hprepare : a.poll.prepare db.getLastIndexedBlock with
  | error e => simp [hprepare] at hv
  | ok batch =>
    cases batch with
    | none => simp [hprepare] at hv
    | some stmts =>
      simp only [hprepare] at hv
      split_ifs at hv with hcommits
      · obtain ⟨hlt, hanswered, -⟩ := prepare_ok hprepare
        have hreply := hanswered v hv
        obtain ⟨n, hn, rfl⟩ := List.mem_map.mp hv
        refine ⟨hcommits, rfl, rfl, hreply, ?_⟩
        cases htip : a.poll.getBlockNumber with
        | error e =>
          rw [Poll.upto, htip] at hlt
          exact absurd hlt (lt_irrefl _)
        | ok tip =>
          have hupto : a.poll.upto db.getLastIndexedBlock ≤ tip := by
            rw [Poll.upto, htip]
            exact min_le_left _ _
          have hrange := List.mem_range'_1.mp hn
          refine ⟨tip, rfl, ?_⟩
          show n ≤ tip
          omega
      · simp at hv

/-- A run to which every block is answered moves the cursor as far as it may. -/
lemma cursor_pollNewBlocks {poll : Poll} {prunes : Bool} {tip : ℕ}
    (htip : poll.getBlockNumber = .ok tip) (hanswered : ∀ k ≤ tip, poll.getBlock k ≠ .throws) :
    (pollNewBlocks poll true prunes db).getLastIndexedBlock
      = max db.getLastIndexedBlock
          (min tip (db.getLastIndexedBlock + poll.maxBlocksPerRun)) := by
  have hupto : poll.upto db.getLastIndexedBlock
      = min tip (db.getLastIndexedBlock + poll.maxBlocksPerRun) := by
    rw [Poll.upto, htip]
  have hpos := poll.maxBlocksPerRun_pos
  by_cases hbehind : db.getLastIndexedBlock < tip
  · have hlt : db.getLastIndexedBlock < poll.upto db.getLastIndexedBlock := by
      rw [hupto, lt_min_iff]
      exact ⟨hbehind, Nat.lt_add_of_pos_right hpos⟩
    have hprepare := prepare_of_answered hlt fun v hv => by
      obtain ⟨k, hk, rfl⟩ := List.mem_map.mp hv
      have hrange := List.mem_range'_1.mp hk
      have hle : poll.upto db.getLastIndexedBlock ≤ tip := hupto.trans_le (min_le_left _ _)
      exact hanswered k (by omega)
    have hcursor : ∀ db' : Database, (poll.postSync db.getLastIndexedBlock prunes
        db').getLastIndexedBlock = db'.getLastIndexedBlock := by
      intro db'
      rw [Poll.postSync, htip]
      dsimp only
      split_ifs <;> rfl
    rw [pollNewBlocks, hprepare]
    dsimp only
    rw [if_pos rfl, hcursor, getLastIndexedBlock_batch, ← hupto, max_eq_right hlt.le]
  · have hprepare : poll.prepare db.getLastIndexedBlock = .ok none := by
      rw [Poll.prepare, htip, Outcome.ok_bind, if_pos (Nat.le_of_not_lt hbehind)]
      rfl
    rw [pollNewBlocks, hprepare]
    exact (max_eq_left ((min_le_left _ _).trans (Nat.le_of_not_lt hbehind))).symm

/-- No run moves the cursor past the tip it was told, unless it is there already. -/
lemma cursor_pollNewBlocks_le {poll : Poll} {commits prunes : Bool} {top : ℕ}
    (htop : ∀ tip, poll.getBlockNumber = .ok tip → tip ≤ top) (db : Database) :
    (pollNewBlocks poll commits prunes db).getLastIndexedBlock
      ≤ max db.getLastIndexedBlock top := by
  have hrun : Lts.Run Attempted db
      [(⟨poll, commits, prunes⟩, pollNewBlocks poll commits prunes db)]
      (pollNewBlocks poll commits prunes db) :=
    Lts.Run.nil.cons (.attempt db ⟨poll, commits, prunes⟩)
  have hblocks := (map_block_committed hrun).1
  by_contra hpast
  rw [not_le, max_lt_iff] at hpast
  have hmem : (pollNewBlocks poll commits prunes db).getLastIndexedBlock
      ∈ List.range' (db.getLastIndexedBlock + 1)
        ((pollNewBlocks poll commits prunes db).getLastIndexedBlock - db.getLastIndexedBlock) := by
    rw [List.mem_range'_1]
    omega
  rw [← hblocks] at hmem
  obtain ⟨v, hv, hblock⟩ := List.mem_map.mp hmem
  obtain ⟨-, -, -, -, tip, htip, hle⟩ := Attempt.visits_spec (a := ⟨poll, commits, prunes⟩) hv
  have htip := htop tip htip
  omega

/-- Blocks that a longer chain shares are seen in it. -/
lemma Visit.Sees.congr {v : Visit} (h : v.Sees chain pool g)
    (hchain : chain' v.block = chain v.block) : v.Sees chain' pool g :=
  ⟨hchain ▸ h.reply, h.tracked, h.gracePeriod⟩

end

end Frogop.Indexer
