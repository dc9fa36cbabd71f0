import Frogop.Indexer.Database
import Frogop.Lib.Upsert
import Mathlib.Algebra.Order.Ring.Nat
import Mathlib.Data.List.Sort

/-!
# Prices and candles

What `pollPrices` stores of an answer of the router, and the candle that `rollUpAllCandles` makes of
the snapshots and swaps it reads. An ISO time is kept as the milliseconds it stands for, a `TEXT`
price as the number it spells.
-/

namespace Frogop.Indexer

/-! ### Rows -/

structure PriceSnapshotRow where
  token : String
  blockNumber : ℕ
  timestamp : ℕ
  price : ℕ
  deriving DecidableEq, Repr

/-- The entries of `INTERVALS`, by their keys `1h`, `4h`, `1d` and `1w`. -/
inductive Interval
  | h1
  | h4
  | d1
  | w1
  deriving DecidableEq, Repr

namespace Interval

def ms : Interval → ℕ
  | h1 => 3600000
  | h4 => 14400000
  | d1 => 86400000
  | w1 => 604800000

def all : List Interval := [h1, h4, d1, w1]

end Interval

structure PriceCandleRow where
  token : String
  interval : Interval
  openTime : ℕ
  open_ : ℕ
  high : ℕ
  low : ℕ
  close : ℕ
  volumeSats : ℕ
  volumeTokens : ℕ
  tradeCount : ℕ
  deriving DecidableEq, Repr

/-- `PRIMARY KEY (token, block_number)` -/
def PriceSnapshotRow.key (s : PriceSnapshotRow) : String × ℕ := (s.token, s.blockNumber)

/-- `PRIMARY KEY (token, interval, open_time)` -/
def PriceCandleRow.key (c : PriceCandleRow) : String × Interval × ℕ :=
  (c.token, c.interval, c.openTime)

/-- The tables that prices and candles are made of. -/
structure PriceTables where
  snapshots : List PriceSnapshotRow
  swapEvents : List SwapEventRow
  candles : List PriceCandleRow
  deriving DecidableEq, Repr

/-! ### Queries -/

/-- `WHERE token = ? AND timestamp >= ? AND timestamp < ? ORDER BY block_number ASC` -/
def getSnapshotsInRange (snapshots : List PriceSnapshotRow) (token : String) (fromTime toTime : ℕ) :
    List PriceSnapshotRow :=
  (snapshots.filter fun s => s.token = token ∧ fromTime ≤ s.timestamp ∧
    s.timestamp < toTime).insertionSort fun a b => a.blockNumber ≤ b.blockNumber

/-- `WHERE token = ? AND block_number >= ? AND block_number < ? ORDER BY block_number ASC` -/
def getSwapEventsInBlockRange (swapEvents : List SwapEventRow) (token : String)
    (fromBlock toBlock : ℕ) : List SwapEventRow :=
  (swapEvents.filter fun s => s.token = token ∧ fromBlock ≤ s.blockNumber ∧
    s.blockNumber < toBlock).insertionSort fun a b => a.blockNumber ≤ b.blockNumber

/-! ### Prices -/

structure SwapConfig where
  routerHex : String
  /-- token address, label -/
  tokenMap : List (String × String)

def quoteSats : ℕ := 100000

/-- 18 decimals -/
def pricePrecision : ℕ := 10 ^ 18

/-- `prices[label] = price` -/
def setPrice (prices : List (String × ℕ)) (label : String) (price : ℕ) : List (String × ℕ) :=
  if label ∈ prices.map Prod.fst then
    prices.map fun p => if p.1 = label then (label, price) else p
  else prices ++ [(label, price)]

/-- The rows of `pollPrices`: a spot price for every token with a quote, the rate between the first
two tokens, and the rate of every token in satoshis. `getQuote` is `none` where the call fails. -/
def pollPrices (swapConfig : Option SwapConfig) (getQuote : String → Option ℕ)
    (currentBlock timestamp : ℕ) : List PriceSnapshotRow :=
  match swapConfig with
  | none => []
  | some config =>
    let quoted := config.tokenMap.filterMap fun (tokenHex, label) =>
      (getQuote tokenHex).map fun price => (label, price)
    let row := fun (token : String) (price : ℕ) =>
      PriceSnapshotRow.mk token currentBlock timestamp price
    let prices := quoted.foldl (fun prices p => setPrice prices p.1 p.2) []
    let crossRate :=
      match config.tokenMap with
      | (_, labelA) :: (_, labelB) :: _ =>
        match prices.lookup labelA, prices.lookup labelB with
        | some tokensA, some tokensB =>
          if tokensA > 0 then
            [row (labelA ++ "_" ++ labelB) (tokensB * pricePrecision / tokensA)]
          else []
        | _, _ => []
      | _ => []
    let btcRates := prices.filterMap fun (label, tokensPerQuote) =>
      if tokensPerQuote > 0 then
        some (row (label ++ "_BTC")
          (quoteSats * pricePrecision * pricePrecision / tokensPerQuote))
      else none
    quoted.map (fun p => row p.1 p.2) ++ crossRate ++ btcRates

/-- The tokens whose candles a run rolls up. -/
def allTokens (swapConfig : Option SwapConfig) : List String :=
  let tokenLabels :=
    match swapConfig with
    | some config => config.tokenMap.map Prod.snd
    | none => ["MOTO", "PILL"]
  let pair :=
    match tokenLabels with
    | label0 :: label1 :: _ => [label0 ++ "_" ++ label1]
    | _ => []
  tokenLabels ++ pair ++ tokenLabels.map fun label => label ++ "_BTC"

/-! ### Candles -/

/-- `token.includes('_')` -/
def isCrossRate (token : String) : Bool := token.toList.contains '_'

def floorToInterval (date intervalMs : ℕ) : ℕ := date / intervalMs * intervalMs

/-- The blocks a bucket is taken to span, at ten minutes a block. -/
def fromBlock (bucketStart : ℕ) : ℕ := bucketStart / 600000

def toBlock (bucketEnd : ℕ) : ℕ := (bucketEnd + 599999) / 600000

/-- What the two loops over one bucket have computed so far. -/
structure Rolled where
  high : ℕ
  low : ℕ
  volumeSats : ℕ := 0
  volumeTokens : ℕ := 0
  tradeCount : ℕ := 0
  deriving DecidableEq, Repr

namespace Rolled

/-- `if (p > high) high = p; if (p < low) low = p` -/
def price (r : Rolled) (p : ℕ) : Rolled :=
  { r with
    high := if p > r.high then p else r.high
    low := if p < r.low then p else r.low }

/-- The body of the loop over the swaps. -/
def swap (r : Rolled) (s : SwapEventRow) : Rolled :=
  let r :=
    { r with
      volumeSats := r.volumeSats + s.satsIn
      volumeTokens := r.volumeTokens + s.tokensOut
      tradeCount := r.tradeCount + 1 }
  if s.satsIn > 0 then r.price (s.tokensOut * 100000 / s.satsIn) else r

end Rolled

/-- What one turn of the loops of `rollUpAllCandles` has read. -/
structure Reading where
  /-- `now`, taken once for all turns -/
  now : ℕ
  token : String
  interval : Interval
  snapshots : List PriceSnapshotRow
  /-- Empty for cross rates, whose swaps are not looked at. -/
  swaps : List SwapEventRow
  deriving DecidableEq, Repr

namespace Reading

def bucketStart (r : Reading) : ℕ := floorToInterval r.now r.interval.ms

/-- The candle of a turn; there is none for an empty bucket. -/
def candle? (r : Reading) : Option PriceCandleRow :=
  match r.snapshots.map PriceSnapshotRow.price with
  | [] => none
  | first :: rest =>
    let rolled := (first :: rest).foldl Rolled.price { high := first, low := first }
    let rolled := r.swaps.foldl Rolled.swap rolled
    some {
      token := r.token
      interval := r.interval
      openTime := r.bucketStart
      open_ := first
      high := rolled.high
      low := rolled.low
      close := (first :: rest).getLast (List.cons_ne_nil _ _)
      volumeSats := rolled.volumeSats
      volumeTokens := rolled.volumeTokens
      tradeCount := rolled.tradeCount }

end Reading

namespace PriceTables

/-- What the snapshot query of a turn returns. -/
def readSnapshots (t : PriceTables) (now : ℕ) (token : String) (interval : Interval) :
    List PriceSnapshotRow :=
  getSnapshotsInRange t.snapshots token (floorToInterval now interval.ms)
    (floorToInterval now interval.ms + interval.ms)

/-- What the swap query of a turn returns. -/
def readSwaps (t : PriceTables) (now : ℕ) (token : String) (interval : Interval) :
    List SwapEventRow :=
  if isCrossRate token then []
  else
    getSwapEventsInBlockRange t.swapEvents token (fromBlock (floorToInterval now interval.ms))
      (toBlock (floorToInterval now interval.ms + interval.ms))

/-- A turn during which the tables do not change. -/
def reading (t : PriceTables) (now : ℕ) (token : String) (interval : Interval) : Reading :=
  ⟨now, token, interval, t.readSnapshots now token interval, t.readSwaps now token interval⟩

/-- `db.batch(stmts)` of the snapshots of a poll. -/
def insertSnapshots (t : PriceTables) (rows : List PriceSnapshotRow) : PriceTables :=
  { t with snapshots := rows.foldl (Upsert.replace PriceSnapshotRow.key) t.snapshots }

/-- `db.batch(stmts)` of the candles of a rollup. -/
def upsertCandles (t : PriceTables) (candles : List PriceCandleRow) : PriceTables :=
  { t with candles := candles.foldl (Upsert.replace PriceCandleRow.key) t.candles }

/-- A rollup during which the tables do not change. -/
def rollUpAllCandles (t : PriceTables) (tokens : List String) (now : ℕ) : PriceTables :=
  t.upsertCandles ((tokens.flatMap fun token =>
    Interval.all.map fun interval => t.reading now token interval).filterMap Reading.candle?)

/-- The candle stored under a key. -/
def candleAt (t : PriceTables) (token : String) (interval : Interval) (openTime : ℕ) :
    Option PriceCandleRow :=
  Upsert.get PriceCandleRow.key t.candles (token, interval, openTime)

end PriceTables

/-! ### What a candle says of what was read -/

/-- The prices of the swaps that have one: tokens for 100000 satoshis. -/
def swapPrices (swaps : List SwapEventRow) : List ℕ :=
  swaps.filterMap fun s =>
    if s.satsIn > 0 then some (s.tokensOut * 100000 / s.satsIn) else none

/-- The four prices of a candle: those of `prices`, in the order of their blocks, but for the
extremes, which `others` count towards as well. -/
structure PriceCandleRow.Ohlc (prices others : List ℕ) (c : PriceCandleRow) : Prop where
  open_ : prices.head? = some c.open_
  high : (prices ++ others).max? = some c.high
  low : (prices ++ others).min? = some c.low
  close : prices.getLast? = some c.close

/-- A candle of prices and of swaps. -/
structure PriceCandleRow.Sums (prices : List ℕ) (swaps : List SwapEventRow) (c : PriceCandleRow) :
    Prop where
  ohlc : c.Ohlc prices (swapPrices swaps)
  volumeSats : c.volumeSats = (swaps.map SwapEventRow.satsIn).sum
  volumeTokens : c.volumeTokens = (swaps.map SwapEventRow.tokensOut).sum
  tradeCount : c.tradeCount = swaps.length

namespace Rolled

variable (r : Rolled)

lemma price_eq (p : ℕ) : r.price p = { r with high := max r.high p, low := min r.low p } := by
  have hhigh : (if p > r.high then p else r.high) = max r.high p := by
    split_ifs <;> omega
  have hlow : (if p < r.low then p else r.low) = min r.low p := by
    split_ifs <;> omega
  rw [price, hhigh, hlow]

lemma foldl_price (prices : List ℕ) : prices.foldl price r =
    { r with high := prices.foldl max r.high, low := prices.foldl min r.low } := by
  induction prices generalizing r with
  | nil => rfl
  | cons p prices ih => rw [List.foldl_cons, ih, price_eq, List.foldl_cons, List.foldl_cons]

lemma swap_eq (s : SwapEventRow) : r.swap s =
    { high := (swapPrices [s]).foldl max r.high
      low := (swapPrices [s]).foldl min r.low
      volumeSats := r.volumeSats + s.satsIn
      volumeTokens := r.volumeTokens + s.tokensOut
      tradeCount := r.tradeCount + 1 } := by
  rw [swap]
  split_ifs with hsats
  · simp [price_eq, swapPrices, hsats]
  · simp [swapPrices, hsats]

lemma swapPrices_cons (s : SwapEventRow) (swaps : List SwapEventRow) :
    swapPrices (s :: swaps) = swapPrices [s] ++ swapPrices swaps := by
  unfold swapPrices
  rw [← List.filterMap_append]
  rfl

lemma foldl_swap (swaps : List SwapEventRow) : swaps.foldl swap r =
    { high := (swapPrices swaps).foldl max r.high
      low := (swapPrices swaps).foldl min r.low
      volumeSats := r.volumeSats + (swaps.map SwapEventRow.satsIn).sum
      volumeTokens := r.volumeTokens + (swaps.map SwapEventRow.tokensOut).sum
      tradeCount := r.tradeCount + swaps.length } := by
  induction swaps generalizing r with
  | nil => rfl
  | cons s swaps ih =>
    rw [List.foldl_cons, ih, swap_eq, swapPrices_cons s swaps, List.foldl_append, List.foldl_append]
    simp only [List.map_cons, List.sum_cons, List.length_cons, Nat.add_assoc, Nat.add_comm 1]

end Rolled

namespace Reading

variable {r : Reading} {c : PriceCandleRow}

lemma candle?_eq_none : r.candle? = none ↔ r.snapshots = [] := by
  rw [candle?]
  cases hs : r.snapshots with
  | nil => simp
  | cons s rest => simp

/-- The candle of a turn sums up what it has read. -/
lemma candle?_sums (h : r.candle? = some c) :
    c.Sums (r.snapshots.map PriceSnapshotRow.price) r.swaps := by
  rw [candle?] at h
  cases hp : r.snapshots.map PriceSnapshotRow.price with
  | nil =>
    rw [hp] at h
    cases h
  | cons first rest =>
    simp only [hp, Rolled.foldl_price, Rolled.foldl_swap, Option.some.injEq] at h
    subst h
    refine ⟨⟨rfl, ?_, ?_, List.getLast?_eq_some_getLast _⟩, ?_, ?_, ?_⟩
    · dsimp only
      rw [List.cons_append, List.max?_cons', List.foldl_append, List.foldl_cons, max_self]
    · dsimp only
      rw [List.cons_append, List.min?_cons', List.foldl_append, List.foldl_cons, min_self]
    · exact Nat.zero_add _
    · exact Nat.zero_add _
    · exact Nat.zero_add _

lemma candle?_key (h : r.candle? = some c) :
    c.key = (r.token, r.interval, r.bucketStart) := by
  rw [candle?] at h
  cases hp : r.snapshots.map PriceSnapshotRow.price with
  | nil =>
    rw [hp] at h
    cases h
  | cons first rest =>
    simp only [hp, Option.some.injEq] at h
    rw [← h]
    rfl

end Reading

end Frogop.Indexer
