import Frogop.Indexer.Following
import Frogop.Market.Solvency
import Mathlib.Data.List.GetD

/-!
# A market and its indexer

The chain mines blocks of the market's transactions, and the cron jobs of the indexer run between
the blocks, against an RPC that may fail but does not lie. The rows of a pool always show the pool
as it was at the block of the cursor.
-/

namespace Frogop

open Indexer

namespace Market

variable {ι : Type} {m : Market ι}

/-- The address of a pool, as the events report it. -/
def hex (m : Market ι) (n : ι) : String := hexString (m.address n).val

/-- A mined block: what the RPC has of it, and the market after it. -/
structure MinedBlock (m : Market ι) where
  rawTransactions : Option (List RawTx)
  state : m.State

/-- The chain from the deployment of the pools on, with the tables of the indexer. -/
structure Site (m : Market ι) where
  genesis : m.State
  mined : List (MinedBlock m)
  store : Store

namespace Site

/-- The market after block `k`. -/
def stateAt (s : Site m) (k : ℕ) : m.State :=
  (s.genesis :: s.mined.map MinedBlock.state).getD k s.genesis

/-- The transactions of block `k`. -/
def chain (s : Site m) (k : ℕ) : Option (List RawTx) :=
  (none :: s.mined.map MinedBlock.rawTransactions).getD k none

def state (s : Site m) : m.State := s.stateAt s.mined.length

end Site

inductive SiteLabel
  | mine
  | cron (c : Cron)

/-- A block that reports what a pool has emitted in it. -/
def Reports (pool : String) (k : ℕ) (rawTransactions : Option (List RawTx))
    (events events' : List Event) : Prop :=
  ∃ new, events' = events ++ new ∧
    poolEvents pool [⟨k, blockTxs rawTransactions⟩] = new.map (Event.reported pool)

/-- What the RPC answers is true: there is no tip that was not mined, no block that was not mined
so, and no grace period that the pool does not have. -/
structure Site.Answers (s : Site m) (c : Cron) : Prop where
  tip : ∀ tip, c.getBlockNumber = .ok tip → tip ≤ s.mined.length
  block : ∀ k raw, k ≤ s.mined.length → c.getBlock k = .block raw → raw = s.chain k
  gracePeriod : ∀ n g, c.call (m.hex n) = .u64 g → g = (s.genesis.pool n).gracePeriod

variable [DecidableEq ι]

inductive SiteStep (m : Market ι) : Site m → SiteLabel → Site m → Prop
  | mine {s : Site m} {h : Lts.History m.State m.Label} {state : m.State}
      {rawTransactions : Option (List RawTx)} (hrun : Lts.Run m.Step s.state h state)
      (hreports : ∀ n, Reports (m.hex n) (s.mined.length + 1) rawTransactions (s.state.events n)
        (state.events n)) :
      SiteStep m s .mine { s with mined := s.mined ++ [⟨rawTransactions, state⟩] }
  | cron {s : Site m} {c : Cron} (hanswers : s.Answers c) :
      SiteStep m s (.cron c) { s with store := c.run s.store }

/-- A job that finds every block, tracks the pool, and looks up its grace period or asks for it with
success. -/
structure Site.ServedBy (s : Site m) (n : ι) (c : Cron) : Prop where
  tracks : c.Tracks (m.hex n)
  selects : c.selects (m.hex n) = true
  finds : c.Answered (m.hex n) ∨
    s.store.pools.getPoolGracePeriod (m.hex n) = (s.genesis.pool n).gracePeriod
  found : ∀ k ≤ s.mined.length, c.getBlock k ≠ .null

/-- The jobs that commit serve a pool. -/
def SiteLabel.Serves (n : ι) (s : Site m) : SiteLabel → Prop
  | .mine => True
  | .cron c => c.commits = true → s.ServedBy n c

section

variable {s s₀ : Site m} {h : Lts.History (Site m) SiteLabel} {n : ι} {k : ℕ} {c : Cron}

omit [DecidableEq ι] in
lemma stateAt_append {b : MinedBlock m} (hk : k ≤ s.mined.length) :
    ({ s with mined := s.mined ++ [b] } : Site m).stateAt k = s.stateAt k := by
  simp only [Site.stateAt, List.map_append, ← List.cons_append]
  rw [List.getD_append]
  simpa [Nat.lt_succ_iff] using hk

omit [DecidableEq ι] in
lemma chain_append {b : MinedBlock m} (hk : k ≤ s.mined.length) :
    ({ s with mined := s.mined ++ [b] } : Site m).chain k = s.chain k := by
  simp only [Site.chain, List.map_append, ← List.cons_append]
  rw [List.getD_append]
  simpa [Nat.lt_succ_iff] using hk

omit [DecidableEq ι] in
lemma stateAt_mined {b : MinedBlock m} :
    ({ s with mined := s.mined ++ [b] } : Site m).stateAt (s.mined.length + 1) = b.state := by
  simp [Site.stateAt]

omit [DecidableEq ι] in
lemma chain_mined {b : MinedBlock m} :
    ({ s with mined := s.mined ++ [b] } : Site m).chain (s.mined.length + 1)
      = b.rawTransactions := by
  simp [Site.chain]

/-- The market has run up to each of its blocks, and they report what its pools have emitted. -/
structure SiteInv (s₀ s : Site m) : Prop where
  genesis : s.genesis = s₀.genesis
  runs : ∀ k ≤ s.mined.length, ∃ h, Lts.Run m.Step s₀.genesis h (s.stateAt k)
  reports : ∀ k ≤ s.mined.length, ∀ n, poolEvents (m.hex n) (blocksUpto s.chain k)
    = ((s.stateAt k).events n).map (Event.reported (m.hex n))

/-- The pools are deployed, and nothing has been mined or indexed. -/
structure Site.Start (s : Site m) : Prop where
  deployed : m.Deployed s.genesis
  mined : s.mined = []
  pools : s.store.pools = []
  cursor : s.store.db.getLastIndexedBlock = 0
  rows : ∀ n, s.store.db.optionsOf (m.hex n) = []

lemma Site.Start.inv (h : s₀.Start) : SiteInv s₀ s₀ where
  genesis := rfl
  runs k hk := by
    rw [h.mined] at hk
    obtain rfl := Nat.le_zero.mp hk
    exact ⟨[], .nil⟩
  reports k hk n := by
    rw [h.mined] at hk
    obtain rfl := Nat.le_zero.mp hk
    have hevents : s₀.genesis.events n = [] := (PoolType.Deployed.base (h.deployed n)).events
    show poolEvents (m.hex n) [] = (s₀.genesis.events n).map _
    rw [hevents]
    rfl

lemma SiteInv.step {s' : Site m} {l : SiteLabel} (hinv : SiteInv s₀ s)
    (hstep : SiteStep m s l s') : SiteInv s₀ s' := by
  cases hstep with
  | cron hanswers => exact ⟨hinv.genesis, hinv.runs, hinv.reports⟩
  | @mine h' state raw hrun hreports =>
    obtain ⟨h, hbefore⟩ := hinv.runs _ le_rfl
    refine ⟨hinv.genesis, fun k hk => ?_, fun k hk n => ?_⟩
    · rw [List.length_append, List.length_singleton, Nat.le_succ_iff] at hk
      rcases hk with hk | rfl
      · rw [stateAt_append hk]
        exact hinv.runs k hk
      · rw [stateAt_mined]
        exact ⟨_, hbefore.trans hrun⟩
    · rw [List.length_append, List.length_singleton, Nat.le_succ_iff] at hk
      have hchain : ∀ j ≤ s.mined.length,
          ({ s with mined := s.mined ++ [⟨raw, state⟩] } : Site m).chain j = s.chain j :=
        fun j hj => chain_append hj
      rcases hk with hk | rfl
      · rw [stateAt_append hk, blocksUpto_congr fun j hj => hchain j (hj.trans hk)]
        exact hinv.reports k hk n
      · obtain ⟨new, hevents, hnew⟩ := hreports n
        rw [stateAt_mined, blocksUpto_succ, poolEvents_append, blocksUpto_congr hchain,
          hinv.reports _ le_rfl n, blockOf, chain_mined, hnew, hevents, List.map_append]
        rfl

/-- The pool was seen in every block that was committed, and the cached grace period is its own. -/
structure Followed (s₀ s : Site m) (n : ι) : Prop where
  taken : ∃ hs, Lts.Run Attempted s₀.store.db hs s.store.db ∧
    ∀ v ∈ committed s₀.store.db hs,
      v.Sees s.chain (m.hex n) (s.genesis.pool n).gracePeriod ∧ v.block ≤ s.mined.length
  cached : s.store.pools.getPoolGracePeriod (m.hex n) = (s.genesis.pool n).gracePeriod ∨
    s.store.pools.getPoolGracePeriod (m.hex n) = defaultGracePeriodBlocks

omit [DecidableEq ι] in
/-- What a job that serves a pool takes, it takes as it is. -/
lemma Site.ServedBy.sees {v : Visit} (hserves : s.ServedBy n c) (hanswers : s.Answers c)
    (hg : (s.genesis.pool n).gracePeriod < 2 ^ 53)
    (hcached : s.store.pools.getPoolGracePeriod (m.hex n) = (s.genesis.pool n).gracePeriod ∨
      s.store.pools.getPoolGracePeriod (m.hex n) = defaultGracePeriodBlocks)
    (hv : v ∈ (⟨c.poll s.store.pools, c.commits, c.prunes⟩ : Attempt).visits s.store.db) :
    v.Sees s.chain (m.hex n) (s.genesis.pool n).gracePeriod ∧ v.block ≤ s.mined.length := by
  obtain ⟨-, htracking, hreply, hthrows, tip, htip, hle⟩ := Attempt.visits_spec hv
  have hmined : v.block ≤ s.mined.length := hle.trans (hanswers.tip tip htip)
  refine ⟨⟨?_, ?_, ?_⟩, hmined⟩
  · cases hblock : c.getBlock v.block with
    | throws => exact absurd (hreply.trans hblock) hthrows
    | null => exact absurd hblock (hserves.found _ hmined)
    | block raw =>
      rw [hreply, ← hanswers.block _ _ hmined hblock]
      exact hblock
  · rw [htracking]
    exact hserves.tracks.resolved
  · rw [htracking]
    exact (tracking_rightOnce hg (hanswers.gracePeriod n) hserves.tracks
      (rightOnce_of_eq_or hcached)).1 ⟨hserves.selects, hserves.finds⟩

omit [DecidableEq ι] in
lemma Site.Start.gracePeriod_lt (h : s₀.Start) (n : ι) :
    (s₀.genesis.pool n).gracePeriod < 2 ^ 53 := by
  have hmax : (s₀.genesis.pool n).gracePeriod ≤ maxGracePeriodBlocks :=
    (PoolType.Deployed.base (h.deployed n)).spec.2.2.2.2.1
  exact hmax.trans_lt (by decide)

lemma Followed.step {s' : Site m} {l : SiteLabel} (hf : Followed s₀ s n)
    (hg : (s.genesis.pool n).gracePeriod < 2 ^ 53) (hserves : l.Serves n s)
    (hstep : SiteStep m s l s') : Followed s₀ s' n := by
  obtain ⟨⟨hs, hrun, hsees⟩, hcached⟩ := hf
  cases hstep with
  | @mine h' state raw hmarket hreports =>
    refine ⟨⟨hs, hrun, fun v hv => ?_⟩, hcached⟩
    obtain ⟨hv, hle⟩ := hsees v hv
    refine ⟨hv.congr (chain_append hle), ?_⟩
    rw [List.length_append]
    exact Nat.le_add_right_of_le hle
  | @cron c hanswers =>
    refine ⟨?_, (run_rightOnce hg (hanswers.gracePeriod n) (rightOnce_of_eq_or hcached)).eq_or⟩
    by_cases hseen : (c.upsertPools c.resolvePoolAddresses s.store.pools).2 = true
    · have hdb : (c.run s.store).db
          = pollNewBlocks (c.poll s.store.pools) c.commits c.prunes s.store.db := by
        simp [Cron.run, hseen]
      have hrun' : Lts.Run Attempted s₀.store.db
          ((⟨c.poll s.store.pools, c.commits, c.prunes⟩, (c.run s.store).db) :: hs)
          (c.run s.store).db := by
        rw [hdb]
        exact hrun.cons (.attempt _ ⟨c.poll s.store.pools, c.commits, c.prunes⟩)
      refine ⟨_, hrun', fun v hv => ?_⟩
      rw [committed, Lts.collect, hrun.last_eq, List.mem_append] at hv
      rcases hv with hv | hv
      · exact hsees v hv
      · have hcommits : c.commits = true := (Attempt.visits_spec hv).1
        exact (hserves hcommits).sees hanswers hg hcached hv
    · have hdb : (c.run s.store).db = s.store.db := by simp [Cron.run, hseen]
      refine ⟨hs, ?_, hsees⟩
      rw [hdb]
      exact hrun

lemma followed_of_run (hstart : s₀.Start) (hrun : Lts.Run m.SiteStep s₀ h s)
    (hserves : Lts.Along (fun s l _ => SiteLabel.Serves n s l) s₀ h) :
    SiteInv s₀ s ∧ Followed s₀ s n := by
  induction hrun with
  | nil =>
    refine ⟨hstart.inv, ⟨[], .nil, fun v hv => absurd hv List.not_mem_nil⟩, .inr ?_⟩
    rw [hstart.pools]
    rfl
  | @cons h s s' l hrun hstep ih =>
    obtain ⟨hbefore, hnow⟩ := hserves
    rw [hrun.last_eq] at hnow
    obtain ⟨hinv, hf⟩ := ih hbefore
    have hg : (s.genesis.pool n).gracePeriod < 2 ^ 53 := by
      rw [hinv.genesis]
      exact hstart.gracePeriod_lt n
    exact ⟨hinv.step hstep, hf.step hg hnow hstep⟩

/-- The cursor never passes the tip: what a job takes, the chain has mined. -/
lemma cursor_le_of_run (hstart : s₀.Start) (hrun : Lts.Run m.SiteStep s₀ h s) :
    s.store.db.getLastIndexedBlock ≤ s.mined.length := by
  refine hrun.invariant (I := fun s => s.store.db.getLastIndexedBlock ≤ s.mined.length) ?_ ?_
  · rw [hstart.cursor]
    exact Nat.zero_le _
  · intro s l s' hle hstep
    cases hstep with
    | mine =>
      rw [List.length_append]
      exact Nat.le_add_right_of_le hle
    | @cron c hanswers =>
      by_cases hseen : (c.upsertPools c.resolvePoolAddresses s.store.pools).2 = true
      · have hdb : (c.run s.store).db
            = pollNewBlocks (c.poll s.store.pools) c.commits c.prunes s.store.db := by
          simp [Cron.run, hseen]
        rw [hdb]
        have htop : ∀ tip, (c.poll s.store.pools).getBlockNumber = .ok tip →
            tip ≤ s.mined.length := hanswers.tip
        exact (cursor_pollNewBlocks_le htop s.store.db).trans (max_le hle le_rfl)
      · have hdb : (c.run s.store).db = s.store.db := by simp [Cron.run, hseen]
        rw [hdb]
        exact hle

/-- The rows of a pool show it as it was at the cursor. -/
lemma Followed.mirrors (hstart : s₀.Start) (hinv : SiteInv s₀ s) (hf : Followed s₀ s n)
    (hle : s.store.db.getLastIndexedBlock ≤ s.mined.length)
    (hindexable : ((s.stateAt s.store.db.getLastIndexedBlock).pool n).Indexable) :
    Mirrors (m.hex n) ((s.stateAt s.store.db.getLastIndexedBlock).pool n)
      (s.store.db.optionsOf (m.hex n)) := by
  obtain ⟨hs, hrun, hsees⟩ := hf.taken
  obtain ⟨h, hmarket⟩ := hinv.runs _ hle
  have hreport := hinv.reports _ hle n
  have hpool := runs_at hstart.deployed hmarket n
  have hgrace : (s.genesis.pool n).gracePeriod
      = ((s.stateAt s.store.db.getLastIndexedBlock).pool n).gracePeriod := by
    rw [hinv.genesis]
    exact (PoolType.gracePeriod_of_run (hstart.deployed n) hpool).symm
  rw [rows_of_attempted hrun hstart.cursor (fun v hv => (hsees v hv).1) hreport]
  exact PoolType.mirrors_of_run (hstart.deployed n) hpool List.mem_cons_self
    (congrArg some hgrace) hindexable hreport (hstart.rows n)

/-- However blocks and jobs follow one another, the cursor stays behind the tip, and the rows of a
pool show it as it was at the block of the cursor, as long as the jobs that commit find their
blocks, resolve the pool and find out its grace period. -/
theorem indexed (hstart : s₀.Start) (hrun : Lts.Run m.SiteStep s₀ h s) :
    s.store.db.getLastIndexedBlock ≤ s.mined.length ∧
      (Lts.Along (fun s l _ => SiteLabel.Serves n s l) s₀ h →
        ((s.stateAt s.store.db.getLastIndexedBlock).pool n).Indexable →
        Mirrors (m.hex n) ((s.stateAt s.store.db.getLastIndexedBlock).pool n)
          (s.store.db.optionsOf (m.hex n))) := by
  have hle := cursor_le_of_run hstart hrun
  refine ⟨hle, fun hserves hindexable => ?_⟩
  obtain ⟨hinv, hf⟩ := followed_of_run hstart hrun hserves
  exact hf.mirrors hstart hinv hle hindexable

/-! ### Catching up -/

/-- The site after a job. -/
def Site.after (s : Site m) (c : Cron) : Site m := { s with store := c.run s.store }

/-- A job in which nothing fails. -/
structure Site.Unfailing (s : Site m) (n : ι) (c : Cron) : Prop extends s.Answers c where
  tracks : c.Tracks (m.hex n)
  selects : c.selects (m.hex n) = true
  answered : c.Answered (m.hex n)
  current : c.getBlockNumber = .ok s.mined.length
  found : ∀ k ≤ s.mined.length, c.getBlock k = .block (s.chain k)
  commits : c.commits = true

omit [DecidableEq ι] in
lemma Site.Unfailing.servedBy (h : s.Unfailing n c) : s.ServedBy n c where
  tracks := h.tracks
  selects := h.selects
  finds := .inl h.answered
  found k hk := by simp [h.found k hk]

omit [DecidableEq ι] in
lemma Site.Unfailing.cursor (h : s.Unfailing n c) :
    (s.after c).store.db.getLastIndexedBlock = max s.store.db.getLastIndexedBlock
      (min s.mined.length (s.store.db.getLastIndexedBlock + Cron.maxBlocksPerRun c)) := by
  have hseen : (c.upsertPools c.resolvePoolAddresses s.store.pools).2 = true :=
    upsertPools_seen.mpr h.tracks.upserts
  have hdb : (s.after c).store.db
      = pollNewBlocks (c.poll s.store.pools) true c.prunes s.store.db := by
    simp [Site.after, Cron.run, hseen, h.commits]
  rw [hdb]
  exact cursor_pollNewBlocks h.current fun k hk => by
    show c.getBlock k ≠ .throws
    simp [h.found k hk]

/-- Some jobs in which nothing fails, and that are allowed to take all the blocks that are left,
bring the cursor to the tip; then the rows of the pool show it as it is, as long as the jobs before
have served it. -/
theorem catches_up {crons : List Cron} (hstart : s₀.Start) (hrun : Lts.Run m.SiteStep s₀ h s)
    (hcrons : ∀ c ∈ crons, s.Unfailing n c)
    (hlimit : s.mined.length
      ≤ s.store.db.getLastIndexedBlock + (crons.map Cron.maxBlocksPerRun).sum) :
    (crons.foldl Site.after s).store.db.getLastIndexedBlock = s.mined.length ∧
      (Lts.Along (fun s l _ => SiteLabel.Serves n s l) s₀ h → (s.state.pool n).Indexable →
        Mirrors (m.hex n) (s.state.pool n)
          ((crons.foldl Site.after s).store.db.optionsOf (m.hex n))) := by
  induction crons generalizing s h with
  | nil =>
    have hle := cursor_le_of_run hstart hrun
    have hcursor : s.store.db.getLastIndexedBlock = s.mined.length :=
      le_antisymm hle (by simpa using hlimit)
    refine ⟨hcursor, fun hserves => ?_⟩
    obtain ⟨hinv, hf⟩ := followed_of_run hstart hrun hserves
    have hmirrors := hf.mirrors hstart hinv hle
    rw [hcursor] at hmirrors
    exact hmirrors
  | cons c crons ih =>
    have hc := hcrons c List.mem_cons_self
    rw [List.foldl_cons]
    have hcrons' : ∀ c' ∈ crons, (s.after c).Unfailing n c' := by
      intro c' hc'
      have h' := hcrons c' (List.mem_cons_of_mem _ hc')
      exact ⟨⟨h'.tip, h'.block, h'.gracePeriod⟩, h'.tracks, h'.selects, h'.answered, h'.current,
        h'.found, h'.commits⟩
    have hlimit' : s.mined.length ≤ (s.after c).store.db.getLastIndexedBlock
        + (crons.map Cron.maxBlocksPerRun).sum := by
      rw [List.map_cons, List.sum_cons] at hlimit
      rw [hc.cursor]
      omega
    obtain ⟨hcursor, hmirrors⟩ := ih (hrun.cons (.cron hc.toAnswers)) hcrons' hlimit'
    refine ⟨hcursor, fun hserves => hmirrors ⟨hserves, ?_⟩⟩
    rw [hrun.last_eq]
    exact fun _ => hc.servedBy

end

namespace Testnet

/-- A transaction with the events of a pool. -/
def rawTx (pool : String) (events : List Event) : RawTx where
  id := some "tx"
  events := .array (events.map fun e =>
    ⟨some pool, some e.name.type, some (e.reported pool).data⟩)

/-- Each pool sees its own transaction. -/
lemma poolEvents_rawTx {pool : PoolType → String} (hlower : ∀ n, toLowerCase (pool n) = pool n)
    (hpool : Function.Injective pool) (events : PoolType → List Event) (n : PoolType) :
    poolEvents (pool n) [⟨1, blockTxs (some ([PoolType.op20, .btcQuote, .btcUnderlying].map
      fun k => rawTx (pool k) (events k)))⟩] = (events n).map (Event.reported (pool n)) := by
  have htx : ∀ k, ((rawTx (pool k) (events k)).toBlockTx.events.map TxEvent.normalized).filter
      (fun event => event.contractAddress = pool n)
        = if k = n then (events n).map (Event.reported (pool n)) else [] := by
    intro k
    have hevents : (rawTx (pool k) (events k)).toBlockTx.events.map TxEvent.normalized
        = (events k).map (Event.reported (pool k)) := by
      simp [rawTx, RawTx.toBlockTx, RawEvents.toTxEvents, RawEvent.toTxEvent, Function.comp_def,
        TxEvent.normalized, hlower, Event.reported]
    rw [hevents]
    split_ifs with hk
    · subst hk
      simp [Event.reported]
    · simp [Event.reported, hpool.ne hk]
  have hraw : poolEvents (pool n) [⟨1, blockTxs (some
      ([PoolType.op20, .btcQuote, .btcUnderlying].map fun k => rawTx (pool k) (events k)))⟩]
      = [PoolType.op20, .btcQuote, .btcUnderlying].flatMap fun k =>
          ((rawTx (pool k) (events k)).toBlockTx.events.map TxEvent.normalized).filter
            fun event => event.contractAddress = pool n := by
    simp [poolEvents, Block.entries, blockTxs, Function.comp_def]
  rw [hraw]
  simp only [htx]
  cases n <;> simp

def raw : Option (List RawTx) :=
  some ([PoolType.op20, .btcQuote, .btcUnderlying].map fun n =>
    rawTx (market.hex n) (written.events n))

lemma toLowerCase_hex (n : PoolType) : toLowerCase (market.hex n) = market.hex n := by
  cases n <;> decide

lemma hex_injective : Function.Injective market.hex := by
  intro n k h
  cases n <;> cases k <;> first | rfl | exact absurd h (by decide)

/-- The market after one block. -/
def site : Site market := ⟨start, [⟨raw, written⟩], ⟨[], Database.empty⟩⟩

lemma site_start : (⟨start, [], ⟨[], Database.empty⟩⟩ : Site market).Start where
  deployed := start_deployed
  mined := rfl
  pools := rfl
  cursor := rfl
  rows _ := rfl

lemma reports_raw (n : PoolType) :
    Reports (market.hex n) 1 raw (start.events n) (written.events n) :=
  ⟨written.events n, rfl, poolEvents_rawTx toLowerCase_hex hex_injective written.events n⟩

lemma site_mined : SiteStep market ⟨start, [], ⟨[], Database.empty⟩⟩ .mine site :=
  SiteStep.mine (s := ⟨start, [], ⟨[], Database.empty⟩⟩) run_written reports_raw

/-- A job for the type-0 pool. -/
def cron : Cron where
  poolAddresses := "opt1pool"
  getPublicKeyInfo _ := .key (market.hex .op20)
  upserts _ := true
  selects _ := true
  call _ := .u64 144
  updates _ := true
  swapLabelMap _ := none
  maxBlocks := none
  getBlockNumber := .ok 1
  getBlock k := .block (site.chain k)
  commits := true
  prunes := false

lemma cron_unfailing : site.Unfailing .op20 cron where
  tip tip h := (Except.ok.inj h).ge
  block k raw _ h := (BlockReply.block.inj h).symm
  gracePeriod n g h := (ViewReply.u64.inj h).symm
  tracks := ⟨fun _ _ => rfl, mem_resolvePoolAddresses.mpr
    ⟨_, Indexer.Testnet.mem_poolList, congrArg some (by decide)⟩⟩
  selects := rfl
  answered := ⟨144, rfl⟩
  current := rfl
  found _ _ := rfl
  commits := rfl

lemma limit : 1 ≤ 0 + ([cron].map Cron.maxBlocksPerRun).sum := by decide

lemma written_indexable : (written.pool .op20).Indexable := by
  intro i hi
  obtain rfl : i = 0 := Nat.lt_one_iff.mp hi
  exact ⟨by decide, by decide, by decide, by decide, by decide⟩

end Testnet

theorem catches_up_written :
    (Testnet.site.after Testnet.cron).store.db.getLastIndexedBlock = 1 ∧
      Mirrors (Testnet.market.hex .op20) (Testnet.written.pool .op20)
        ((Testnet.site.after Testnet.cron).store.db.optionsOf (Testnet.market.hex .op20)) := by
  have hcrons : ∀ c ∈ [Testnet.cron], Testnet.site.Unfailing .op20 c := by
    intro c hc
    obtain rfl := List.mem_singleton.mp hc
    exact Testnet.cron_unfailing
  have hstate : Testnet.site.state = Testnet.written := rfl
  obtain ⟨hcursor, hmirrors⟩ := catches_up (n := .op20) Testnet.site_start
    (Lts.Run.nil.cons Testnet.site_mined) hcrons Testnet.limit
  rw [hstate] at hmirrors
  exact ⟨hcursor, hmirrors ⟨trivial, trivial⟩ Testnet.written_indexable⟩

namespace Testnet

lemma cursor_after : (site.after cron).store.db.getLastIndexedBlock = 1 := cron_unfailing.cursor

lemma state_after : (site.after cron).state = written := rfl

lemma site_indexed : SiteStep market site (.cron cron) (site.after cron) :=
  .cron cron_unfailing.toAnswers

lemma run_indexed : Lts.Run market.SiteStep ⟨start, [], ⟨[], Database.empty⟩⟩
    [(.cron cron, site.after cron), (.mine, site)] (site.after cron) :=
  (Lts.Run.nil.cons site_mined).cons site_indexed

lemma indexed_serves : Lts.Along (fun s l _ => SiteLabel.Serves PoolType.op20 s l)
    (⟨start, [], ⟨[], Database.empty⟩⟩ : Site market)
    [(.cron cron, site.after cron), (.mine, site)] := by
  have hserves : SiteLabel.Serves PoolType.op20 site (.cron cron) :=
    fun _ => cron_unfailing.servedBy
  exact ⟨⟨trivial, trivial⟩, hserves⟩

end Testnet

/-- A block is mined and then indexed. -/
theorem indexed_written :
    (Testnet.site.after Testnet.cron).store.db.getLastIndexedBlock ≤ 1 ∧
      Mirrors (Testnet.market.hex .op20) (Testnet.written.pool .op20)
        ((Testnet.site.after Testnet.cron).store.db.optionsOf (Testnet.market.hex .op20)) := by
  obtain ⟨hle, hmirrors⟩ := indexed (n := .op20) Testnet.site_start Testnet.run_indexed
  rw [Testnet.cursor_after] at hmirrors
  exact ⟨hle, hmirrors Testnet.indexed_serves Testnet.written_indexable⟩

end Market

end Frogop
