import Frogop.Indexer.Polling
import Frogop.Lib.Grouping
import Frogop.Lib.Upsert

/-!
# The setup of a cron job

Before it polls, the job resolves the addresses of the pools, sees to their rows in `pools`, and
finds out their grace periods. A grace period is cached in the row; the value 144, with which rows
are inserted, stands for one that is not known yet, so that the RPC is asked again.
-/

namespace Frogop.Indexer

/-- `getPublicKeyInfo` throws, finds nothing, or returns a key that prints as a text. -/
inductive KeyReply
  | throws
  | null
  | key (text : String)
  deriving DecidableEq, Repr

/-- `call` throws, returns something without a `readU64`, or the integer that is read. -/
inductive ViewReply
  | throws
  | unexpected
  | u64 (n : ℕ)
  deriving DecidableEq, Repr

/-! ### The table of the pools -/

/-- One row of `pools`; the job stores the hex address as `address` and as `address_hex`, and leaves
the columns that are not here empty. -/
structure PoolRow where
  addressHex : String
  gracePeriodBlocks : ℕ
  deriving DecidableEq, Repr

abbrev PoolTable := List PoolRow

namespace PoolTable

/-- `INSERT OR IGNORE INTO pools` -/
def upsertPool (pools : PoolTable) (pool : PoolRow) : PoolTable :=
  Upsert.ignore PoolRow.addressHex pools pool

/-- `UPDATE pools SET grace_period_blocks = ? WHERE address = ?` -/
def updatePoolGracePeriod (pools : PoolTable) (address : String) (gracePeriodBlocks : ℕ) :
    PoolTable :=
  Upsert.update PoolRow.addressHex (fun r => { r with gracePeriodBlocks := gracePeriodBlocks })
    pools address

/-- The grace period in the row of a pool. -/
def cached (pools : PoolTable) (addressHex : String) : Option ℕ :=
  (Upsert.get PoolRow.addressHex pools addressHex).map PoolRow.gracePeriodBlocks

def getPoolGracePeriod (pools : PoolTable) (addressHex : String) : ℕ :=
  (pools.cached addressHex).getD 144

end PoolTable

/-! ### One job -/

/-- What a job gets from its environment, from the RPC and from the database, whose statements go
through where `upserts`, `selects` and `updates` say so. -/
structure Cron where
  poolAddresses : String
  getPublicKeyInfo : String → KeyReply
  upserts : String → Bool
  selects : String → Bool
  call : String → ViewReply
  updates : String → Bool
  swapLabelMap : String → Option String
  maxBlocks : Option ℕ
  getBlockNumber : Except RpcError ℕ
  getBlock : ℕ → BlockReply
  commits : Bool
  prunes : Bool

/-- All tables that the jobs read and write. -/
structure Store where
  pools : PoolTable
  db : Database

/-- `raw.startsWith('0x') ? raw : '0x' + raw` of the text in lower case. -/
def poolHex (text : String) : String :=
  let raw := toLowerCase text
  if "0x".toList <+: raw.toList then raw else "0x" ++ raw

/-- `POOL_ADDRESSES.split(' ').filter(Boolean)` -/
def poolList (poolAddresses : String) : List String :=
  ((poolAddresses.toList.splitOn ' ').map String.ofList).filter (· ≠ "")

/-- The table and the map that the loop over the pools works on. -/
structure Known where
  pools : PoolTable
  poolGracePeriods : String → Option ℕ

namespace Cron

/-- The key of an address, unless the RPC does not have it. -/
def resolved (c : Cron) (addr : String) : Option String :=
  match c.getPublicKeyInfo addr with
  | .key text => some (poolHex text)
  | .null | .throws => none

/-- The `Set` of the addresses that are resolved; the others are left out for this time. -/
def resolvePoolAddresses (c : Cron) : List String :=
  ((poolList c.poolAddresses).filterMap c.resolved).foldl Grouping.add []

/-- The rows of the pools, and whether all of them could be seen to. -/
def upsertPools (c : Cron) : List String → PoolTable → PoolTable × Bool
  | [], pools => (pools, true)
  | hex :: hexes, pools =>
    if c.upserts hex then c.upsertPools hexes (pools.upsertPool ⟨hex, 144⟩) else (pools, false)

/-- The body of the loop over the pools. -/
def findGracePeriod (c : Cron) (k : Known) (hex : String) : Known :=
  if c.selects hex then
    let cached := k.pools.getPoolGracePeriod hex
    if cached ≠ 144 then
      { k with poolGracePeriods := Function.update k.poolGracePeriods hex (some cached) }
    else
      match c.call hex with
      | .u64 n =>
        let gracePeriod := number n
        { pools := if gracePeriod ≠ 144 ∧ c.updates hex then
            k.pools.updatePoolGracePeriod hex gracePeriod else k.pools
          poolGracePeriods := Function.update k.poolGracePeriods hex (some gracePeriod) }
      | .unexpected | .throws => k
  else k

def known (c : Cron) (pools : PoolTable) : Known :=
  c.resolvePoolAddresses.foldl c.findGracePeriod
    ⟨(c.upsertPools c.resolvePoolAddresses pools).1, fun _ => none⟩

def tracking (c : Cron) (pools : PoolTable) : Tracking where
  trackedPools := c.resolvePoolAddresses
  swapLabelMap := c.swapLabelMap
  poolGracePeriods := (c.known pools).poolGracePeriods

def poll (c : Cron) (pools : PoolTable) : Poll where
  tracking := c.tracking pools
  maxBlocks := c.maxBlocks
  getBlockNumber := c.getBlockNumber
  getBlock := c.getBlock

def maxBlocksPerRun (c : Cron) : ℕ := (c.poll []).maxBlocksPerRun

/-- `pollNewBlocks`, with its setup. -/
def run (c : Cron) (s : Store) : Store :=
  let (pools, seen) := c.upsertPools c.resolvePoolAddresses s.pools
  if seen then
    { pools := (c.known s.pools).pools
      db := pollNewBlocks (c.poll s.pools) c.commits c.prunes s.db }
  else { s with pools := pools }

end Cron

/-- Jobs that run one after the other. -/
def CronStep (s : Store) (c : Cron) (s' : Store) : Prop := c.run s = s'

section

variable {c : Cron} {pools : PoolTable} {k : Known} {hex : String} {s₀ s s' : Store}
  {cs : Lts.History Store Cron} {g : ℕ}

/-! ### The pools that are resolved -/

lemma mem_resolvePoolAddresses : hex ∈ c.resolvePoolAddresses ↔
    ∃ addr ∈ poolList c.poolAddresses, c.resolved addr = some hex := by
  rw [Cron.resolvePoolAddresses, show Grouping.add (K := String) = fun s a => Grouping.add s (id a)
    from rfl, Grouping.mem_foldl_add]
  simp

lemma nodup_resolvePoolAddresses (c : Cron) : c.resolvePoolAddresses.Nodup := by
  have hnodup : (((poolList c.poolAddresses).filterMap c.resolved).foldl
      (fun s a => Grouping.add s (id a)) []).Nodup := Grouping.nodup_foldl_add List.nodup_nil
  exact hnodup

/-! ### What is known of the grace period of one pool -/

@[simp] lemma cached_upsertPool {pool : PoolRow} : (pools.upsertPool pool).cached hex
    = if pool.addressHex = hex then (pools.cached hex).or (some pool.gracePeriodBlocks)
      else pools.cached hex := by
  rw [PoolTable.cached, PoolTable.upsertPool, Upsert.get_ignore]
  split_ifs with hpool
  · rw [PoolTable.cached]
    cases Upsert.get PoolRow.addressHex pools hex <;> rfl
  · rfl

@[simp] lemma cached_updatePoolGracePeriod {address : String} :
    (pools.updatePoolGracePeriod address g).cached hex
      = if hex = address then (pools.cached hex).map fun _ => g else pools.cached hex := by
  rw [PoolTable.cached, PoolTable.updatePoolGracePeriod, Upsert.get_update]
  split_ifs
  · rw [PoolTable.cached, Option.map_map, Option.map_map]
    rfl
  · rfl
  · exact fun _ => rfl

lemma cached_upsertPools {hexes : List String} (hseen : (c.upsertPools hexes pools).2 = true) :
    (c.upsertPools hexes pools).1.cached hex
      = if hex ∈ hexes then some (pools.getPoolGracePeriod hex) else pools.cached hex := by
  induction hexes generalizing pools with
  | nil => simp [Cron.upsertPools]
  | cons first hexes ih =>
    rw [Cron.upsertPools] at hseen ⊢
    split_ifs at hseen with hupsert
    rw [if_pos hupsert, ih hseen]
    by_cases hfirst : first = hex
    · subst hfirst
      cases hcached : pools.cached first <;> simp [PoolTable.getPoolGracePeriod, hcached]
    · have hne : hex ≠ first := Ne.symm hfirst
      simp [PoolTable.getPoolGracePeriod, hfirst, hne]

/-- The rows are seen to when every insertion goes through. -/
lemma upsertPools_seen {hexes : List String} :
    (c.upsertPools hexes pools).2 = true ↔ ∀ hex ∈ hexes, c.upserts hex = true := by
  induction hexes generalizing pools with
  | nil => simp [Cron.upsertPools]
  | cons first hexes ih =>
    rw [Cron.upsertPools, List.forall_mem_cons]
    split_ifs with hupsert
    · simp [hupsert, ih]
    · simp [hupsert]

/-- The cached value and the entry of a pool. -/
def Known.view (k : Known) (hex : String) : Option ℕ × Option ℕ :=
  (k.pools.cached hex, k.poolGracePeriods hex)

/-- What its turn in the loop makes of them. -/
def Cron.learn (c : Cron) (hex : String) (v : Option ℕ × Option ℕ) : Option ℕ × Option ℕ :=
  if c.selects hex then
    if v.1.getD 144 ≠ 144 then (v.1, some (v.1.getD 144))
    else
      match c.call hex with
      | .u64 n =>
        (if number n ≠ 144 ∧ c.updates hex then v.1.map fun _ => number n else v.1,
          some (number n))
      | .unexpected | .throws => v
  else v

lemma view_findGracePeriod_self (k : Known) (hex : String) :
    (c.findGracePeriod k hex).view hex = c.learn hex (k.view hex) := by
  have hcached : k.pools.getPoolGracePeriod hex = (k.view hex).1.getD 144 := rfl
  rw [Cron.findGracePeriod, Cron.learn]
  by_cases hselects : c.selects hex = true
  · simp only [if_pos hselects, hcached]
    by_cases hknown : (k.view hex).1.getD 144 ≠ 144
    · simp only [if_pos hknown]
      simp [Known.view]
    · simp only [if_neg hknown]
      cases c.call hex with
      | u64 n =>
        dsimp only
        split_ifs <;> simp [Known.view]
      | unexpected | throws => rfl
  · rw [if_neg hselects, if_neg hselects]

lemma view_findGracePeriod_of_ne (k : Known) (hex hex' : String) (hne : hex ≠ hex') :
    (c.findGracePeriod k hex').view hex = k.view hex := by
  rw [Cron.findGracePeriod]
  by_cases hselects : c.selects hex' = true
  · simp only [if_pos hselects]
    by_cases hknown : k.pools.getPoolGracePeriod hex' ≠ 144
    · simp [if_pos hknown, Known.view, hne]
    · simp only [if_neg hknown]
      cases c.call hex' with
      | u64 n =>
        dsimp only
        split_ifs <;> simp [Known.view, hne]
      | unexpected | throws => rfl
  · rw [if_neg hselects]

/-- The job polls, and the pool is among those it tracks. -/
structure Cron.Tracks (c : Cron) (hex : String) : Prop where
  upserts : ∀ hex' ∈ c.resolvePoolAddresses, c.upserts hex' = true
  resolved : hex ∈ c.resolvePoolAddresses

lemma Cron.Tracks.view_known (h : c.Tracks hex) :
    (c.known pools).view hex = c.learn hex (some (pools.getPoolGracePeriod hex), none) := by
  have hseen : (c.upsertPools c.resolvePoolAddresses pools).2 = true :=
    upsertPools_seen.mpr h.upserts
  rw [Cron.known, Upsert.foldl_distinct Known.view view_findGracePeriod_self
    view_findGracePeriod_of_ne (nodup_resolvePoolAddresses c), if_pos h.resolved, Known.view,
    cached_upsertPools hseen, if_pos h.resolved]

/-! ### Over all jobs -/

/-- The contract says what its grace period is, or nothing. -/
def Cron.Honest (hex : String) (g : ℕ) (c : Cron) : Prop := ∀ n, c.call hex = .u64 n → n = g

/-- The contract answers. -/
def Cron.Answered (c : Cron) (hex : String) : Prop := ∃ n, c.call hex = .u64 n

/-- The job stores the grace period of a pool, when it finds none. -/
structure Cron.Learns (c : Cron) (hex : String) : Prop extends c.Tracks hex where
  selects : c.selects hex = true
  answered : c.Answered hex
  updates : c.updates hex = true

/-- A job knows the grace period of a pool that it can look up, or ask for. -/
def Cron.Finds (c : Cron) (cs : Lts.History Store Cron) (hex : String) : Prop :=
  c.selects hex = true ∧ (c.Answered hex ∨ ∃ p ∈ cs, p.1.Learns hex)

/-- A grace period is `g` once it is known, and the default until then. -/
def RightOnce (p : Prop) (g v : ℕ) : Prop := (p → v = g) ∧ (¬ p → v = defaultGracePeriodBlocks)

lemma RightOnce.congr {p q : Prop} {v : ℕ} (h : RightOnce p g v) (hpq : p ↔ q) :
    RightOnce q g v := propext hpq ▸ h

lemma RightOnce.eq_or {p : Prop} {v : ℕ} (h : RightOnce p g v) :
    v = g ∨ v = defaultGracePeriodBlocks := (Classical.em p).imp h.1 h.2

lemma rightOnce_of_eq_or {v : ℕ} (h : v = g ∨ v = defaultGracePeriodBlocks) :
    RightOnce (v = g) g v := ⟨id, h.resolve_left⟩

/-- A turn of the loop finds what is cached, or what is answered, and caches it. -/
lemma learn_rightOnce {p : Prop} {v : ℕ} (hg : g < 2 ^ 53) (hhonest : c.Honest hex g)
    (hv : RightOnce p g v) :
    RightOnce (p ∨ c.selects hex = true ∧ c.Answered hex ∧ c.updates hex = true) g
        ((c.learn hex (some v, none)).1.getD 144) ∧
      RightOnce (c.selects hex = true ∧ (c.Answered hex ∨ p)) g
        ((c.learn hex (some v, none)).2.getD 144) := by
  by_cases hselects : c.selects hex = true
  · by_cases hdefault : v = 144
    · cases hcall : c.call hex with
      | u64 n =>
        have hanswered : c.Answered hex := ⟨n, hcall⟩
        have hn : number n = g := by
          rw [hhonest n hcall]
          exact number_of_lt hg
        have hlearn : c.learn hex (some v, none)
            = (some (if g ≠ 144 ∧ c.updates hex then g else v), some g) := by
          simp only [Cron.learn, hselects, hcall, hdefault, hn]
          split_ifs <;> simp_all
        rw [hlearn]
        subst hdefault
        refine ⟨⟨?_, fun hnot => ?_⟩, fun _ => rfl, fun hnot => ?_⟩
        · rintro (hp | ⟨-, -, hupdates⟩)
          · simp [← hv.1 hp]
          · by_cases h144 : g = 144 <;> simp [h144, hupdates]
        · have hupdates : c.updates hex ≠ true :=
            fun hupdates => hnot (.inr ⟨hselects, hanswered, hupdates⟩)
          simp [hupdates, defaultGracePeriodBlocks]
        · exact absurd ⟨hselects, .inl hanswered⟩ hnot
      | unexpected | throws =>
        have hanswered : ¬ c.Answered hex := by simp [Cron.Answered, hcall]
        have hlearn : c.learn hex (some v, none) = (some v, none) := by
          simp [Cron.learn, hselects, hcall, hdefault]
        subst hdefault
        simpa [RightOnce, hlearn, hselects, hanswered, defaultGracePeriodBlocks] using hv.1
    · have hlearn : c.learn hex (some v, none) = (some v, some v) := by
        simp [Cron.learn, hselects, hdefault]
      have hp : p := by_contra fun hnot => hdefault (hv.2 hnot)
      simpa [RightOnce, hlearn, hselects, hp] using hv.1 hp
  · have hlearn : c.learn hex (some v, none) = (some v, none) := by simp [Cron.learn, hselects]
    simpa [RightOnce, hlearn, hselects, defaultGracePeriodBlocks] using hv

/-- Seeing to the rows leaves the values that are read from them. -/
lemma getPoolGracePeriod_upsertPools (hexes : List String) :
    (c.upsertPools hexes pools).1.getPoolGracePeriod hex = pools.getPoolGracePeriod hex := by
  induction hexes generalizing pools with
  | nil => rfl
  | cons first hexes ih =>
    rw [Cron.upsertPools]
    split_ifs
    · rw [ih, PoolTable.getPoolGracePeriod, PoolTable.getPoolGracePeriod, cached_upsertPool]
      cases pools.cached hex <;> split_ifs <;> rfl
    · rfl

lemma view_known_of_notMem (h : hex ∉ c.resolvePoolAddresses) :
    (c.known pools).view hex
      = ((c.upsertPools c.resolvePoolAddresses pools).1.cached hex, none) := by
  rw [Cron.known, Upsert.foldl_distinct Known.view view_findGracePeriod_self
    view_findGracePeriod_of_ne (nodup_resolvePoolAddresses c), if_neg h]
  rfl

/-- A job keeps what is known, and adds what it learns. -/
lemma run_rightOnce {p : Prop} (hg : g < 2 ^ 53) (hhonest : c.Honest hex g)
    (hs : RightOnce p g (s.pools.getPoolGracePeriod hex)) :
    RightOnce (p ∨ c.Learns hex) g
      ((c.run s).pools.getPoolGracePeriod hex) := by
  have hkeep : ¬ c.Tracks hex → (p ↔ p ∨ c.Learns hex) :=
    fun hnot => (or_iff_left fun hlearns => hnot hlearns.toTracks).symm
  rw [Cron.run]
  dsimp only
  split_ifs with hseen
  · by_cases hmem : hex ∈ c.resolvePoolAddresses
    · have htracks : c.Tracks hex := ⟨upsertPools_seen.mp hseen, hmem⟩
      have hlearns : c.Learns hex
          ↔ c.selects hex = true ∧ c.Answered hex ∧ c.updates hex = true :=
        ⟨fun h => ⟨h.selects, h.answered, h.updates⟩, fun h => ⟨htracks, h.1, h.2.1, h.2.2⟩⟩
      have hcached : (c.known s.pools).pools.getPoolGracePeriod hex
          = ((c.known s.pools).view hex).1.getD 144 := rfl
      rw [hcached, htracks.view_known, hlearns]
      exact (learn_rightOnce hg hhonest hs).1
    · have hcached : (c.known s.pools).pools.getPoolGracePeriod hex
          = ((c.known s.pools).view hex).1.getD 144 := rfl
      rw [hcached, view_known_of_notMem hmem, ← hkeep fun h => hmem h.resolved]
      show RightOnce p _
        ((c.upsertPools c.resolvePoolAddresses s.pools).1.getPoolGracePeriod hex)
      rw [getPoolGracePeriod_upsertPools]
      exact hs
  · rw [getPoolGracePeriod_upsertPools, ← hkeep fun h => hseen (upsertPools_seen.mpr h.upserts)]
    exact hs

/-- The cache is right as soon as one job has learned the grace period of the pool. -/
lemma cache_rightOnce (hrun : Lts.Run CronStep s₀ cs s) (hempty : s₀.pools = [])
    (hg : g < 2 ^ 53) (hhonest : ∀ p ∈ cs, p.1.Honest hex g) :
    RightOnce (∃ p ∈ cs, p.1.Learns hex) g (s.pools.getPoolGracePeriod hex) := by
  induction hrun with
  | nil =>
    rw [hempty]
    exact ⟨fun ⟨_, hmem, _⟩ => absurd hmem List.not_mem_nil, fun _ => rfl⟩
  | @cons cs s s' c hrun hstep ih =>
    obtain rfl := hstep
    have hs := ih fun p hp => hhonest p (List.mem_cons_of_mem _ hp)
    refine (run_rightOnce hg (hhonest _ List.mem_cons_self) hs).congr ?_
    simp [or_comm]

/-- What a job hands to the decoder, from what is cached before it. -/
lemma tracking_rightOnce {p : Prop} (hg : g < 2 ^ 53) (hhonest : c.Honest hex g)
    (htracks : c.Tracks hex) (hs : RightOnce p g (pools.getPoolGracePeriod hex)) :
    RightOnce (c.selects hex = true ∧ (c.Answered hex ∨ p)) g
      (((c.tracking pools).poolGracePeriods hex).getD defaultGracePeriodBlocks) := by
  have hfound : ((c.tracking pools).poolGracePeriods hex).getD defaultGracePeriodBlocks
      = ((c.known pools).view hex).2.getD 144 := rfl
  rw [hfound, htracks.view_known]
  exact (learn_rightOnce hg hhonest hs).2

/-- The grace period that a job hands to the decoder for a pool it tracks is the one of the contract
when the job can look it up, or asks for it with success; otherwise it is the default. It can be
looked up from the first job on that has asked with success and stored the answer. -/
theorem gracePeriods_known (hrun : Lts.Run CronStep s₀ cs s) (hempty : s₀.pools = [])
    (hg : g < 2 ^ 53) (hhonest : ∀ p ∈ cs, p.1.Honest hex g)
    (hc : c.Honest hex g) (htracks : c.Tracks hex) :
    RightOnce (c.Finds cs hex) g
      (((c.tracking s.pools).poolGracePeriods hex).getD defaultGracePeriodBlocks) :=
  tracking_rightOnce hg hc htracks (cache_rightOnce hrun hempty hg hhonest)

end

namespace Testnet

/-- A job for the pool of the test network, whose grace period the RPC does or does not tell. -/
def cron (answers : Bool) : Cron where
  poolAddresses := "opt1pool"
  getPublicKeyInfo _ := .key pool
  upserts _ := true
  selects _ := true
  call _ := if answers then .u64 288 else .throws
  updates _ := true
  swapLabelMap _ := none
  maxBlocks := none
  getBlockNumber := .error .failed
  getBlock _ := .null
  commits := true
  prunes := true

lemma mem_poolList : "opt1pool" ∈ poolList "opt1pool" := by decide

lemma cron_tracks (answers : Bool) : (cron answers).Tracks pool where
  upserts _ _ := rfl
  resolved := mem_resolvePoolAddresses.mpr ⟨_, mem_poolList, congrArg some (by decide)⟩

end Testnet

/-- The grace period that one job has read is used by the next, although the RPC fails. -/
theorem gracePeriods_known_cached :
    ((((Testnet.cron false).tracking
      ((Testnet.cron true).run ⟨[], Database.empty⟩).pools).poolGracePeriods Testnet.pool).getD
        defaultGracePeriodBlocks) = 288 := by
  have hlearns : (Testnet.cron true).Learns Testnet.pool :=
    ⟨Testnet.cron_tracks true, rfl, ⟨288, rfl⟩, rfl⟩
  refine (gracePeriods_known (g := 288) (Lts.Run.nil.cons rfl) rfl (by decide) ?_ ?_
    (Testnet.cron_tracks false)).1 ⟨rfl, .inr ⟨_, List.mem_cons_self, hlearns⟩⟩
  · intro p hp
    obtain rfl := List.mem_singleton.mp hp
    exact fun n h => (ViewReply.u64.inj h).symm
  · exact fun n h => ViewReply.noConfusion h

end Frogop.Indexer
