import Frogop.Indexer.Candles
import Mathlib.Algebra.BigOperators.Group.List.Basic

/-!
# Which swaps a candle counts

A rollup selects snapshots by their time and swaps by the blocks that ten minutes each would have
brought since 1970. `counted_iff` says which swaps a candle counts, and
`volumeInPlace_iff` when these are the swaps that the heights of the snapshots put in the bucket:
when the chain has kept that pace from the start.
-/

namespace Frogop.Indexer

/-! ### The candle of an undisturbed rollup -/

section

variable {t : PriceTables} {tokens : List String} {now : ℕ} {token : String} {interval : Interval}

/-- The candle that is stored for the current bucket: the one just made, if there is one. -/
lemma candleAt_rollUpAllCandles (htoken : token ∈ tokens) :
    (t.rollUpAllCandles tokens now).candleAt token interval (floorToInterval now interval.ms)
      = (t.reading now token interval).candle?.or
          (t.candleAt token interval (floorToInterval now interval.ms)) := by
  have hkey : ∀ token' interval' c, (t.reading now token' interval').candle? = some c →
      c.key = (token, interval, floorToInterval now interval.ms) →
      (t.reading now token interval).candle? = some c := by
    intro token' interval' c hc hk
    rw [Reading.candle?_key hc, Prod.mk.injEq, Prod.mk.injEq] at hk
    obtain ⟨rfl, rfl, -⟩ := hk
    exact hc
  have hmem : ∀ c, c ∈ (tokens.flatMap fun token =>
      Interval.all.map fun interval => t.reading now token interval).filterMap Reading.candle? ↔
      ∃ token' ∈ tokens, ∃ interval', (t.reading now token' interval').candle? = some c := by
    intro c
    simp only [List.mem_filterMap, List.mem_flatMap, List.mem_map]
    constructor
    · rintro ⟨_, ⟨token', htoken', interval', -, rfl⟩, hc⟩
      exact ⟨token', htoken', interval', hc⟩
    · rintro ⟨token', htoken', interval', hc⟩
      refine ⟨_, ⟨token', htoken', interval', ?_, rfl⟩, hc⟩
      cases interval' <;> decide
  show Upsert.get _ (List.foldl _ _ _) _ = _
  rw [Upsert.get_foldl_replace]
  congr 1
  cases hc : (t.reading now token interval).candle? with
  | none =>
    refine Upsert.lastOf_eq_none fun c hin hk => ?_
    obtain ⟨token', -, interval', hc'⟩ := (hmem c).mp hin
    rw [hkey token' interval' c hc' hk] at hc
    cases hc
  | some c =>
    refine Upsert.lastOf_eq_some ((hmem c).mpr ⟨token, htoken, interval, hc⟩)
      (Reading.candle?_key hc) fun c' hin hk => ?_
    obtain ⟨token', -, interval', hc'⟩ := (hmem c').mp hin
    rw [hkey token' interval' c' hc' hk] at hc
    exact Option.some.inj hc

end

/-! ### Buckets and blocks -/

/-- The time of a snapshot lies in the bucket of `now`. -/
def InBucket (now : ℕ) (interval : Interval) (s : PriceSnapshotRow) : Prop :=
  floorToInterval now interval.ms ≤ s.timestamp ∧
    s.timestamp < floorToInterval now interval.ms + interval.ms

instance (now : ℕ) (interval : Interval) (s : PriceSnapshotRow) :
    Decidable (InBucket now interval s) :=
  inferInstanceAs (Decidable (_ ∧ _))

/-- The block of a swap is among those that a rollup asks for. -/
def Selected (now : ℕ) (interval : Interval) (s : SwapEventRow) : Prop :=
  fromBlock (floorToInterval now interval.ms) ≤ s.blockNumber ∧
    s.blockNumber < toBlock (floorToInterval now interval.ms + interval.ms)

instance (now : ℕ) (interval : Interval) (s : SwapEventRow) :
    Decidable (Selected now interval s) :=
  inferInstanceAs (Decidable (_ ∧ _))

/-- The candle of the current bucket after a rollup, with the given swaps in the table. -/
def rolledCandle (t : PriceTables) (swaps : List SwapEventRow) (tokens : List String) (now : ℕ)
    (token : String) (interval : Interval) : Option PriceCandleRow :=
  (({ t with swapEvents := swaps } : PriceTables).rollUpAllCandles tokens now).candleAt token
    interval (floorToInterval now interval.ms)

/-- With the swap in the table the candle has its amounts, and a trade, more than without it. -/
def Counted (t : PriceTables) (tokens : List String) (now : ℕ) (token : String)
    (interval : Interval) (before : List SwapEventRow) (s : SwapEventRow)
    (after : List SwapEventRow) : Prop :=
  ∃ c c', rolledCandle t (before ++ s :: after) tokens now token interval = some c ∧
    rolledCandle t (before ++ after) tokens now token interval = some c' ∧
    c.volumeSats = c'.volumeSats + s.satsIn ∧ c.volumeTokens = c'.volumeTokens + s.tokensOut ∧
    c.tradeCount = c'.tradeCount + 1

/-- What a candle says of swaps. -/
def PriceCandleRow.volumes (c : PriceCandleRow) : ℕ × ℕ × ℕ :=
  (c.volumeSats, c.volumeTokens, c.tradeCount)

/-- The swap makes no difference to the volumes of the candle. -/
def Ignored (t : PriceTables) (tokens : List String) (now : ℕ) (token : String)
    (interval : Interval) (before : List SwapEventRow) (s : SwapEventRow)
    (after : List SwapEventRow) : Prop :=
  (rolledCandle t (before ++ s :: after) tokens now token interval).map PriceCandleRow.volumes
    = (rolledCandle t (before ++ after) tokens now token interval).map PriceCandleRow.volumes

/-- Swap volume lands in the right candle. -/
structure VolumeInPlace (t : PriceTables) (tokens : List String) (now : ℕ) (token : String)
    (interval : Interval) : Prop where
  /-- A swap between two snapshots of the bucket is counted. -/
  within : ∀ before s after, s.token = token →
    (∃ p ∈ t.snapshots, p.token = token ∧ InBucket now interval p ∧
      p.blockNumber ≤ s.blockNumber) →
    (∃ p ∈ t.snapshots, p.token = token ∧ InBucket now interval p ∧
      s.blockNumber ≤ p.blockNumber) →
    Counted t tokens now token interval before s after
  /-- A swap below a snapshot before the bucket is not. -/
  earlier : ∀ before s after, s.token = token →
    (∃ p ∈ t.snapshots, p.token = token ∧ p.timestamp < floorToInterval now interval.ms ∧
      s.blockNumber < p.blockNumber) →
    Ignored t tokens now token interval before s after
  /-- A swap above a snapshot after the bucket is not. -/
  later : ∀ before s after, s.token = token →
    (∃ p ∈ t.snapshots, p.token = token ∧
      floorToInterval now interval.ms + interval.ms ≤ p.timestamp ∧
      p.blockNumber < s.blockNumber) →
    Ignored t tokens now token interval before s after

/-- Where there is a candle, the heights of the snapshots are those of a chain that has grown by a
block every ten minutes since 1970. -/
def HeightsAgree (t : PriceTables) (now : ℕ) (token : String) (interval : Interval) : Prop :=
  (∃ p ∈ t.snapshots, p.token = token ∧ InBucket now interval p) →
    ∀ p ∈ t.snapshots, p.token = token →
      (InBucket now interval p → floorToInterval now interval.ms ≤ 600000 * p.blockNumber ∧
        600000 * p.blockNumber < floorToInterval now interval.ms + interval.ms) ∧
      (p.timestamp < floorToInterval now interval.ms →
        600000 * p.blockNumber ≤ floorToInterval now interval.ms) ∧
      (floorToInterval now interval.ms + interval.ms ≤ p.timestamp →
        floorToInterval now interval.ms + interval.ms ≤ 600000 * (p.blockNumber + 1))

section

variable {t : PriceTables} {tokens : List String} {now : ℕ} {token : String} {interval : Interval}
  {before after swaps : List SwapEventRow} {s : SwapEventRow}

/-- Buckets begin and end with a block of ten minutes. -/
lemma bucket_blocks (now : ℕ) (interval : Interval) : ∃ q k, 0 < k ∧
    floorToInterval now interval.ms = 600000 * q ∧ interval.ms = 600000 * k := by
  have hms : ∃ k, 0 < k ∧ interval.ms = 600000 * k := by
    cases interval with
    | h1 => exact ⟨6, by decide, rfl⟩
    | h4 => exact ⟨24, by decide, rfl⟩
    | d1 => exact ⟨144, by decide, rfl⟩
    | w1 => exact ⟨1008, by decide, rfl⟩
  obtain ⟨k, hpos, hk⟩ := hms
  refine ⟨now / interval.ms * k, k, hpos, ?_, hk⟩
  rw [floorToInterval, Nat.mul_left_comm, ← hk]

/-- A rollup asks for the blocks whose ten minutes lie in the bucket. -/
lemma selected_iff : Selected now interval s ↔
    floorToInterval now interval.ms ≤ 600000 * s.blockNumber ∧
      600000 * s.blockNumber < floorToInterval now interval.ms + interval.ms := by
  obtain ⟨q, k, -, hq, hk⟩ := bucket_blocks now interval
  rw [Selected, fromBlock, toBlock]
  omega

lemma readSnapshots_eq_nil : t.readSnapshots now token interval = [] ↔
    ¬ ∃ p ∈ t.snapshots, p.token = token ∧ InBucket now interval p := by
  have hmem : ∀ p, p ∈ t.readSnapshots now token interval ↔
      p ∈ t.snapshots ∧ p.token = token ∧ InBucket now interval p := by
    intro p
    simp [PriceTables.readSnapshots, getSnapshotsInRange, InBucket]
  rw [List.eq_nil_iff_forall_not_mem, not_exists]
  exact forall_congr' fun p => not_congr (hmem p)

/-- Without a snapshot in the bucket the stored candle stays as it is. -/
lemma ignored_of_empty (htoken : token ∈ tokens)
    (hempty : t.readSnapshots now token interval = []) :
    Ignored t tokens now token interval before s after := by
  have hnone : ∀ swaps,
      (({ t with swapEvents := swaps } : PriceTables).reading now token interval).candle? = none :=
    fun swaps => Reading.candle?_eq_none.mpr hempty
  rw [Ignored, rolledCandle, rolledCandle, candleAt_rollUpAllCandles htoken,
    candleAt_rollUpAllCandles htoken, hnone, hnone]
  rfl

/-- The volumes of a candle are those of the selected swaps of its token. -/
lemma rolledCandle_volumes (hbase : isCrossRate token = false) (htoken : token ∈ tokens)
    (hread : t.readSnapshots now token interval ≠ []) (swaps : List SwapEventRow) :
    ∃ c, rolledCandle t swaps tokens now token interval = some c ∧
      c.volumeSats = ((swaps.filter fun s => s.token = token ∧ Selected now interval s).map
        SwapEventRow.satsIn).sum ∧
      c.volumeTokens = ((swaps.filter fun s => s.token = token ∧ Selected now interval s).map
        SwapEventRow.tokensOut).sum ∧
      c.tradeCount = (swaps.filter fun s => s.token = token ∧ Selected now interval s).length := by
  have hsome : (({ t with swapEvents := swaps } : PriceTables).reading now token interval).candle?
      ≠ none := mt Reading.candle?_eq_none.mp hread
  obtain ⟨c, hc⟩ := Option.ne_none_iff_exists'.mp hsome
  have hsums := Reading.candle?_sums hc
  have hperm : List.Perm
      (({ t with swapEvents := swaps } : PriceTables).reading now token interval).swaps
      (swaps.filter fun s => s.token = token ∧ Selected now interval s) := by
    simp only [PriceTables.reading, PriceTables.readSwaps, hbase, Bool.false_eq_true, if_false]
    exact List.perm_insertionSort _ _
  refine ⟨c, ?_, ?_, ?_, ?_⟩
  · rw [rolledCandle, candleAt_rollUpAllCandles htoken, hc]
    rfl
  · rw [hsums.volumeSats]
    exact (hperm.map _).sum_eq
  · rw [hsums.volumeTokens]
    exact (hperm.map _).sum_eq
  · rw [hsums.tradeCount]
    exact hperm.length_eq

/-- A candle counts the swaps whose block is selected, and ignores all others. -/
lemma counted_iff (hbase : isCrossRate token = false) (htoken : token ∈ tokens)
    (hread : t.readSnapshots now token interval ≠ []) (hs : s.token = token) :
    (Counted t tokens now token interval before s after ↔ Selected now interval s) ∧
      (Ignored t tokens now token interval before s after ↔ ¬ Selected now interval s) := by
  obtain ⟨c, hc, hsats, htokens, hcount⟩ :=
    rolledCandle_volumes hbase htoken hread (before ++ s :: after)
  obtain ⟨c', hc', hsats', htokens', hcount'⟩ :=
    rolledCandle_volumes hbase htoken hread (before ++ after)
  rw [Counted, Ignored]
  simp only [hc, hc', Option.some.injEq, exists_and_left, exists_eq_left', Option.map_some,
    PriceCandleRow.volumes, Prod.mk.injEq, hsats, htokens, hcount, hsats', htokens', hcount',
    List.filter_append, List.filter_cons, List.map_append, List.sum_append, List.length_append]
  by_cases hsel : Selected now interval s
  · simp only [hs, hsel, and_self, decide_true, if_true, List.map_cons, List.sum_cons,
      List.length_cons, not_true, iff_false, iff_true]
    refine ⟨⟨by omega, by omega, by omega⟩, fun heq => ?_⟩
    omega
  · simp only [hsel, and_false, decide_false, Bool.false_eq_true, if_false, not_false_iff,
      iff_true, iff_false]
    refine ⟨fun heq => ?_, trivial, trivial, trivial⟩
    omega

/-- Swap volume lands in the right candle exactly when the heights of the token's snapshots are the
clock divided by ten minutes. -/
theorem volumeInPlace_iff (hbase : isCrossRate token = false) (htoken : token ∈ tokens)
    (t : PriceTables) (now : ℕ) (interval : Interval) :
    VolumeInPlace t tokens now token interval ↔ HeightsAgree t now token interval := by
  by_cases hempty : t.readSnapshots now token interval = []
  · have hnone := readSnapshots_eq_nil.mp hempty
    refine ⟨fun _ hsome => absurd hsome hnone, fun _ => ⟨?_, ?_, ?_⟩⟩
    · rintro before s after - ⟨p, hp, hptoken, hin, -⟩ -
      exact absurd ⟨p, hp, hptoken, hin⟩ hnone
    · exact fun before s after _ _ => ignored_of_empty htoken hempty
    · exact fun before s after _ _ => ignored_of_empty htoken hempty
  have hsome : ∃ p ∈ t.snapshots, p.token = token ∧ InBucket now interval p :=
    not_not.mp (mt readSnapshots_eq_nil.mpr hempty)
  have hcount : ∀ before s after, s.token = token →
      (Counted t tokens now token interval before s after ↔ Selected now interval s) ∧
        (Ignored t tokens now token interval before s after ↔ ¬ Selected now interval s) :=
    fun before s after hs => counted_iff hbase htoken hempty hs
  obtain ⟨q, k, hpos, hq, hk⟩ := bucket_blocks now interval
  constructor
  · intro hplace _ p hp hptoken
    let swapAt (blockNumber : ℕ) : SwapEventRow := ⟨token, blockNumber, "", "", 0, 0, 0⟩
    refine ⟨fun hin => ?_, fun hbefore => ?_, fun hafter => ?_⟩
    · have hcounted := hplace.within [] (swapAt p.blockNumber) [] rfl ⟨p, hp, hptoken, hin, le_rfl⟩
        ⟨p, hp, hptoken, hin, le_rfl⟩
      exact selected_iff.mp ((hcount _ _ _ rfl).1.mp hcounted)
    · by_contra hhigh
      -- The first block of the bucket is below the snapshot, and is selected.
      have hignored := hplace.earlier [] (swapAt q) [] rfl
        ⟨p, hp, hptoken, hbefore, by show q < p.blockNumber; omega⟩
      refine (hcount _ _ _ rfl).2.mp hignored (selected_iff.mpr ?_)
      show floorToInterval now interval.ms ≤ 600000 * q ∧
        600000 * q < floorToInterval now interval.ms + interval.ms
      omega
    · by_contra hlow
      -- The first block of the bucket that is above the snapshot is selected.
      have hignored := hplace.later [] (swapAt (max (p.blockNumber + 1) q)) [] rfl
        ⟨p, hp, hptoken, hafter, by show p.blockNumber < max (p.blockNumber + 1) q; omega⟩
      refine (hcount _ _ _ rfl).2.mp hignored (selected_iff.mpr ?_)
      show floorToInterval now interval.ms ≤ 600000 * max (p.blockNumber + 1) q ∧
        600000 * max (p.blockNumber + 1) q < floorToInterval now interval.ms + interval.ms
      omega
  · intro hagree
    refine ⟨?_, ?_, ?_⟩
    · rintro before s after hs ⟨p, hp, hptoken, hin, hle⟩ ⟨p', hp', hptoken', hin', hle'⟩
      have hlow := ((hagree hsome p hp hptoken).1 hin).1
      have hhigh := ((hagree hsome p' hp' hptoken').1 hin').2
      refine (hcount _ _ _ hs).1.mpr (selected_iff.mpr ?_)
      omega
    · rintro before s after hs ⟨p, hp, hptoken, hbefore, hlt⟩
      have hlow := (hagree hsome p hp hptoken).2.1 hbefore
      refine (hcount _ _ _ hs).2.mpr fun hsel => ?_
      have hsel := selected_iff.mp hsel
      omega
    · rintro before s after hs ⟨p, hp, hptoken, hafter, hlt⟩
      have hhigh := (hagree hsome p hp hptoken).2.2 hafter
      refine (hcount _ _ _ hs).2.mpr fun hsel => ?_
      have hsel := selected_iff.mp hsel
      omega

end

/-! ### Heights of a chain -/

namespace PriceTables.Example

/-- Two snapshots of an hour in March 2026, at the heights 100 and 101. -/
def young : PriceTables where
  snapshots := [⟨"MOTO", 100, 1772366700000, 1000⟩, ⟨"MOTO", 101, 1772367000000, 1200⟩]
  swapEvents := []
  candles := []

/-- The same hour on a chain whose heights are the clock divided by ten minutes. -/
def paced : PriceTables where
  snapshots := [⟨"MOTO", 2953944, 1772366700000, 1000⟩, ⟨"MOTO", 2953945, 1772367000000, 1200⟩]
  swapEvents := []
  candles := []

/-- A swap in the block of the first snapshot is not counted. -/
theorem volume_misplaced :
    ¬ VolumeInPlace young ["MOTO"] 1772368200000 "MOTO" .h1 := by
  intro hplace
  have hblock : ∃ p ∈ young.snapshots, p.token = "MOTO" ∧ InBucket 1772368200000 .h1 p ∧
      p.blockNumber = 100 := ⟨_, List.mem_cons_self, by decide⟩
  obtain ⟨p, hp, htoken, hin, hheight⟩ := hblock
  obtain ⟨c, c', hc, hc', -, -, hcount⟩ := hplace.within [] ⟨"MOTO", 100, "tx", "buyer", 50000,
    2000000, 100⟩ [] rfl ⟨p, hp, htoken, hin, hheight.le⟩ ⟨p, hp, htoken, hin, hheight.ge⟩
  have hcounts : (rolledCandle young ([] ++ ⟨"MOTO", 100, "tx", "buyer", 50000, 2000000, 100⟩ :: [])
      ["MOTO"] 1772368200000 "MOTO" .h1).map PriceCandleRow.tradeCount = some 0 := by decide
  rw [hc, Option.map_some, Option.some.injEq] at hcounts
  omega

/-- On the paced chain a swap between the two snapshots is counted. -/
theorem volumeInPlace_iff_paced :
    VolumeInPlace paced ["MOTO"] 1772368200000 "MOTO" .h1 :=
  (volumeInPlace_iff (by decide) (by decide) paced 1772368200000 .h1).mpr (by
    rintro - p hp -
    simp only [paced, List.mem_cons, List.not_mem_nil, or_false] at hp
    rcases hp with rfl | rfl
    · decide
    · decide)

end PriceTables.Example

end Frogop.Indexer
