import Frogop.Indexer.Rollup
import Frogop.Indexer.SwapVolume
import Mathlib.Data.List.Pairwise
import Mathlib.Order.Bounds.Basic

/-!
# What a rollup stores

`rollUpAllCandles` on tables that hold still: the candle of the current bucket in terms of the
snapshots and the swaps of that bucket, every other candle as it was, and nothing new when it runs
again. The blocks of the buckets of one interval do not overlap and leave none out.
-/

namespace Frogop.Indexer

/-- The snapshots of the bucket of `now`. -/
def PriceTables.bucket (t : PriceTables) (now : ℕ) (token : String) (interval : Interval) :
    List PriceSnapshotRow :=
  t.snapshots.filter fun s => s.token = token ∧ InBucket now interval s

/-- The swaps that count towards it; there are none for a cross rate. -/
def PriceTables.selectedSwaps (t : PriceTables) (now : ℕ) (token : String) (interval : Interval) :
    List SwapEventRow :=
  if isCrossRate token then []
  else t.swapEvents.filter fun s => s.token = token ∧ Selected now interval s

/-- The candle of a bucket. -/
structure PriceCandleRow.SumsUp (bucket : List PriceSnapshotRow) (swaps : List SwapEventRow)
    (c : PriceCandleRow) : Prop where
  open_ : ∃ s ∈ bucket, (∀ s' ∈ bucket, s.blockNumber ≤ s'.blockNumber) ∧ c.open_ = s.price
  close : ∃ s ∈ bucket, (∀ s' ∈ bucket, s'.blockNumber ≤ s.blockNumber) ∧ c.close = s.price
  high : IsGreatest {p | p ∈ bucket.map PriceSnapshotRow.price ∨ p ∈ swapPrices swaps} c.high
  low : IsLeast {p | p ∈ bucket.map PriceSnapshotRow.price ∨ p ∈ swapPrices swaps} c.low
  volumeSats : c.volumeSats = (swaps.map SwapEventRow.satsIn).sum
  volumeTokens : c.volumeTokens = (swaps.map SwapEventRow.tokensOut).sum
  tradeCount : c.tradeCount = swaps.length

/-- `low` and `high` enclose the prices in between. -/
structure PriceCandleRow.WellFormed (c : PriceCandleRow) : Prop where
  low_le_open : c.low ≤ c.open_
  open_le_high : c.open_ ≤ c.high
  low_le_close : c.low ≤ c.close
  close_le_high : c.close ≤ c.high

section

variable {t : PriceTables} {tokens : List String} {now now' : ℕ} {token : String}
  {interval : Interval} {openTime : ℕ} {c : PriceCandleRow} {bucket : List PriceSnapshotRow}
  {swaps : List SwapEventRow}

/-! ### The candle of a bucket -/

/-- The extremes are taken over all prices. -/
lemma PriceCandleRow.Ohlc.wellFormed {prices others : List ℕ} (h : c.Ohlc prices others) :
    c.WellFormed := by
  have hopen := List.mem_append_left others (List.mem_of_mem_head? h.open_)
  have hclose := List.mem_append_left others (List.mem_of_getLast? h.close)
  have hhigh := (List.max?_eq_some_iff.mp h.high).2
  have hlow := (List.min?_eq_some_iff.mp h.low).2
  exact ⟨hlow _ hopen, hhigh _ hopen, hlow _ hclose, hhigh _ hclose⟩

lemma reading_snapshots_perm (t : PriceTables) (now : ℕ) (token : String) (interval : Interval) :
    (t.reading now token interval).snapshots.Perm (t.bucket now token interval) :=
  List.perm_insertionSort _ _

lemma reading_swaps_perm (t : PriceTables) (now : ℕ) (token : String) (interval : Interval) :
    (t.reading now token interval).swaps.Perm (t.selectedSwaps now token interval) := by
  rw [PriceTables.reading, PriceTables.readSwaps, PriceTables.selectedSwaps]
  split_ifs
  · exact .refl _
  · exact List.perm_insertionSort _ _

/-- What was read in the order of the blocks sums up in any order. -/
lemma PriceCandleRow.Sums.sumsUp {l : List PriceSnapshotRow} {l' : List SwapEventRow}
    (h : c.Sums (l.map PriceSnapshotRow.price) l')
    (hsorted : l.Pairwise fun a b => a.blockNumber ≤ b.blockNumber) (hl : l.Perm bucket)
    (hl' : l'.Perm swaps) : c.SumsUp bucket swaps := by
  have hmem : ∀ p, p ∈ l.map PriceSnapshotRow.price ++ swapPrices l' ↔
      p ∈ bucket.map PriceSnapshotRow.price ∨ p ∈ swapPrices swaps := by
    intro p
    rw [List.mem_append, (hl.map _).mem_iff, swapPrices, (hl'.filterMap _).mem_iff]
    rfl
  refine ⟨?_, ?_, ?_, ?_, ?_, ?_, ?_⟩
  · have hopen := h.ohlc.open_
    rw [List.head?_map, Option.map_eq_some_iff] at hopen
    obtain ⟨s, hs, hprice⟩ := hopen
    obtain ⟨rest, rfl⟩ := List.head?_eq_some_iff.mp hs
    refine ⟨s, hl.mem_iff.mp List.mem_cons_self, fun s' hs' => ?_, hprice.symm⟩
    exact hsorted.rel_head (hl.mem_iff.mpr hs')
  · have hclose := h.ohlc.close
    rw [List.getLast?_map, Option.map_eq_some_iff] at hclose
    obtain ⟨s, hs, hprice⟩ := hclose
    obtain ⟨rest, rfl⟩ := List.getLast?_eq_some_iff.mp hs
    refine ⟨s, hl.mem_iff.mp (by simp), fun s' hs' => ?_, hprice.symm⟩
    simpa using hsorted.rel_getLast (hl.mem_iff.mpr hs')
  · obtain ⟨hin, hle⟩ := List.max?_eq_some_iff.mp h.ohlc.high
    exact ⟨(hmem _).mp hin, fun p hp => hle p ((hmem p).mpr hp)⟩
  · obtain ⟨hin, hle⟩ := List.min?_eq_some_iff.mp h.ohlc.low
    exact ⟨(hmem _).mp hin, fun p hp => hle p ((hmem p).mpr hp)⟩
  · rw [h.volumeSats]
    exact (hl'.map _).sum_eq
  · rw [h.volumeTokens]
    exact (hl'.map _).sum_eq
  · rw [h.tradeCount]
    exact hl'.length_eq

/-- A candle sums up the bucket, whatever else the tables hold. -/
lemma candle?_sumsUp (h : (t.reading now token interval).candle? = some c) :
    c.SumsUp (t.bucket now token interval) (t.selectedSwaps now token interval) :=
  (Reading.candle?_sums h).sumsUp (List.pairwise_insertionSort _ _)
    (reading_snapshots_perm t now token interval) (reading_swaps_perm t now token interval)

lemma candle?_eq_none_iff : (t.reading now token interval).candle? = none ↔
    t.bucket now token interval = [] := by
  rw [Reading.candle?_eq_none]
  constructor
  · intro hnil
    have hperm := reading_snapshots_perm t now token interval
    rw [hnil] at hperm
    exact hperm.nil_eq.symm
  · intro hnil
    have hperm := reading_snapshots_perm t now token interval
    rw [hnil] at hperm
    exact hperm.eq_nil

/-! ### The other candles, and other rollups -/

/-- A rollup writes no candle of another token or another bucket. -/
lemma candleAt_rollUpAllCandles_other
    (hother : token ∉ tokens ∨ openTime ≠ floorToInterval now interval.ms) :
    (t.rollUpAllCandles tokens now).candleAt token interval openTime
      = t.candleAt token interval openTime := by
  show Upsert.get _ (List.foldl _ _ _) _ = _
  rw [Upsert.get_foldl_replace, Upsert.lastOf_eq_none, Option.none_or]
  · rfl
  · intro c hc hkey
    obtain ⟨r, hr, hcandle⟩ := List.mem_filterMap.mp hc
    obtain ⟨token', htoken', hr⟩ := List.mem_flatMap.mp hr
    obtain ⟨interval', -, rfl⟩ := List.mem_map.mp hr
    rw [Reading.candle?_key hcandle, Prod.mk.injEq, Prod.mk.injEq] at hkey
    obtain ⟨rfl, rfl, hopen⟩ := hkey
    rcases hother with hnot | hne
    · exact hnot htoken'
    · exact hne hopen.symm

/-- Two rollups that start in one bucket make the same candle of the same data. -/
lemma candle?_congr
    (h : floorToInterval now' interval.ms = floorToInterval now interval.ms) :
    (t.reading now' token interval).candle? = (t.reading now token interval).candle? := by
  unfold PriceTables.reading PriceTables.readSnapshots PriceTables.readSwaps Reading.candle?
    Reading.bucketStart
  simp only [h]

/-- Later rollups of the same data leave the candle as it is. -/
lemma candleAt_rollUpAllCandles_again :
    ((t.rollUpAllCandles tokens now).rollUpAllCandles tokens now').candleAt token interval
        (floorToInterval now interval.ms)
      = (t.rollUpAllCandles tokens now).candleAt token interval
        (floorToInterval now interval.ms) := by
  by_cases hsame : token ∈ tokens ∧
      floorToInterval now interval.ms = floorToInterval now' interval.ms
  · obtain ⟨htoken, hbucket⟩ := hsame
    have hagain : ((t.rollUpAllCandles tokens now).reading now' token interval).candle?
        = (t.reading now token interval).candle? := candle?_congr hbucket.symm
    rw [hbucket, candleAt_rollUpAllCandles htoken, hagain, ← hbucket,
      candleAt_rollUpAllCandles htoken]
    cases (t.reading now token interval).candle? with
    | none => simp
    | some c => simp
  · rw [candleAt_rollUpAllCandles_other]
    exact not_and_or.mp hsame

/-- Nothing changes when a rollup runs twice. -/
lemma candleAt_rollUpAllCandles_twice :
    ((t.rollUpAllCandles tokens now).rollUpAllCandles tokens now).candleAt token interval openTime
      = (t.rollUpAllCandles tokens now).candleAt token interval openTime := by
  by_cases hopen : openTime = floorToInterval now interval.ms
  · rw [hopen]
    exact candleAt_rollUpAllCandles_again
  · exact candleAt_rollUpAllCandles_other (.inr hopen)

/-! ### The blocks of the buckets -/

/-- A time lies in one bucket only. -/
lemma floorToInterval_eq {time : ℕ} (hle : floorToInterval now interval.ms ≤ time)
    (hlt : time < floorToInterval now interval.ms + interval.ms) :
    floorToInterval time interval.ms = floorToInterval now interval.ms := by
  have hdiv : time / interval.ms = now / interval.ms := by
    apply Nat.div_eq_of_lt_le hle
    rw [Nat.add_one_mul]
    exact hlt
  rw [floorToInterval, hdiv, floorToInterval]

/-- A block is selected for the bucket that its ten minutes lie in. -/
lemma selected_iff_floor {s : SwapEventRow} : Selected now interval s ↔
    floorToInterval now interval.ms = floorToInterval (600000 * s.blockNumber) interval.ms := by
  rw [selected_iff]
  constructor
  · rintro ⟨hle, hlt⟩
    exact (floorToInterval_eq hle hlt).symm
  · intro hbucket
    rw [hbucket]
    exact floorToInterval_spec _ interval

lemma existsUnique_selected (interval : Interval) (s : SwapEventRow) :
    ∃! openTime, ∃ now, floorToInterval now interval.ms = openTime ∧ Selected now interval s := by
  refine ⟨floorToInterval (600000 * s.blockNumber) interval.ms,
    ⟨600000 * s.blockNumber, rfl, selected_iff_floor.mpr rfl⟩, ?_⟩
  rintro _ ⟨now, rfl, hselected⟩
  exact selected_iff_floor.mp hselected

end

/-- A rollup stores, for every token and every interval, the candle of what it finds in the current
bucket, and leaves every other candle. Running it again, then or later, changes none of them. Every
swap is selected for exactly one bucket of each interval. -/
theorem rollUpAllCandles_ohlcv (t : PriceTables) (tokens : List String) (now : ℕ) :
    (∀ token ∈ tokens, ∀ interval : Interval,
      (t.bucket now token interval ≠ [] →
        ∃ c, (t.rollUpAllCandles tokens now).candleAt token interval
            (floorToInterval now interval.ms) = some c ∧
          c.SumsUp (t.bucket now token interval) (t.selectedSwaps now token interval) ∧
          c.WellFormed) ∧
      (t.bucket now token interval = [] →
        (t.rollUpAllCandles tokens now).candleAt token interval (floorToInterval now interval.ms)
          = t.candleAt token interval (floorToInterval now interval.ms))) ∧
    (∀ (token : String) (interval : Interval) (openTime : ℕ),
      token ∉ tokens ∨ openTime ≠ floorToInterval now interval.ms →
      (t.rollUpAllCandles tokens now).candleAt token interval openTime
        = t.candleAt token interval openTime) ∧
    (∀ (token : String) (interval : Interval) (openTime : ℕ),
      ((t.rollUpAllCandles tokens now).rollUpAllCandles tokens now).candleAt token interval openTime
        = (t.rollUpAllCandles tokens now).candleAt token interval openTime) ∧
    (∀ (token : String) (interval : Interval) (now' : ℕ),
      ((t.rollUpAllCandles tokens now).rollUpAllCandles tokens now').candleAt token interval
          (floorToInterval now interval.ms)
        = (t.rollUpAllCandles tokens now).candleAt token interval
          (floorToInterval now interval.ms)) ∧
    ∀ (interval : Interval) (s : SwapEventRow),
      ∃! openTime, ∃ now, floorToInterval now interval.ms = openTime ∧ Selected now interval s := by
  refine ⟨fun token htoken interval => ⟨fun hne => ?_, fun hnil => ?_⟩, ?_, ?_, ?_, ?_⟩
  · obtain ⟨c, hc⟩ := Option.ne_none_iff_exists'.mp (mt candle?_eq_none_iff.mp hne)
    refine ⟨c, ?_, candle?_sumsUp hc, (Reading.candle?_sums hc).ohlc.wellFormed⟩
    rw [candleAt_rollUpAllCandles htoken, hc]
    rfl
  · rw [candleAt_rollUpAllCandles htoken, candle?_eq_none_iff.mpr hnil]
    rfl
  · intro token interval openTime hother
    exact candleAt_rollUpAllCandles_other hother
  · intro token interval openTime
    exact candleAt_rollUpAllCandles_twice
  · intro token interval now'
    exact candleAt_rollUpAllCandles_again
  · exact existsUnique_selected

/-- The hour of the two snapshots at the right pace, with a swap in each of their blocks. -/
theorem rollUpAllCandles_ohlcv_paced :
    ∃ c, (({ PriceTables.Example.paced with
        swapEvents := [⟨"MOTO", 2953944, "tx1", "buyer", 50000, 2000, 1⟩,
          ⟨"MOTO", 2953945, "tx2", "buyer", 0, 10, 1⟩] } : PriceTables).rollUpAllCandles ["MOTO"]
        1772368200000).candleAt "MOTO" .h1 1772366400000 = some c ∧
      c = ⟨"MOTO", .h1, 1772366400000, 1000, 4000, 1000, 1200, 50000, 2010, 2⟩ ∧
      c.WellFormed := by
  obtain ⟨c, hc, -, hwell⟩ := ((rollUpAllCandles_ohlcv ({ PriceTables.Example.paced with
        swapEvents := [⟨"MOTO", 2953944, "tx1", "buyer", 50000, 2000, 1⟩,
          ⟨"MOTO", 2953945, "tx2", "buyer", 0, 10, 1⟩] } : PriceTables) ["MOTO"]
    1772368200000).1 "MOTO" (by decide) .h1).1 (by decide)
  have hrow : (({ PriceTables.Example.paced with
        swapEvents := [⟨"MOTO", 2953944, "tx1", "buyer", 50000, 2000, 1⟩,
          ⟨"MOTO", 2953945, "tx2", "buyer", 0, 10, 1⟩] } : PriceTables).rollUpAllCandles ["MOTO"]
        1772368200000).candleAt "MOTO" .h1 1772366400000
      = some ⟨"MOTO", .h1, 1772366400000, 1000, 4000, 1000, 1200, 50000, 2010, 2⟩ := by decide
  exact ⟨c, hc, Option.some.inj (hc.symm.trans hrow), hwell⟩

end Frogop.Indexer
