import Frogop.Indexer.Ohlcv

/-!
# Candles of reversed pairs

Prices are stored for one direction of a pair. The API answers a request for the other direction
with inverted rows; they are those of candles as long as the price 0, which inverts to 0, does not
come between larger ones (`candles_inverted_iff`).
-/

namespace Frogop.Indexer

/-! ### The route -/

/-- `REVERSE_PAIR` -/
def reversePair : List (String × String) :=
  [("PILL_MOTO", "MOTO_PILL"), ("BTC_MOTO", "MOTO_BTC"), ("BTC_PILL", "PILL_BTC")]

/-- `VALID_TOKENS` -/
def validTokens : List String :=
  ["MOTO", "PILL", "MOTO_PILL", "PILL_MOTO", "MOTO_BTC", "BTC_MOTO", "PILL_BTC", "BTC_PILL"]

/-- `1e36 / p`, and 0 for 0. -/
def invertPrice (price : ℕ) : ℕ := if price = 0 then 0 else 10 ^ 36 / price

def invertCandleRow (row : PriceCandleRow) : PriceCandleRow :=
  { row with
    open_ := invertPrice row.open_
    close := invertPrice row.close
    high := invertPrice row.low
    low := invertPrice row.high }

structure CandleOpts where
  from_ : Option ℕ
  to_ : Option ℕ
  limit : ℕ

/-- `WHERE token = ? AND interval = ? [AND ..] ORDER BY open_time ASC LIMIT ?` -/
def getCandles (candles : List PriceCandleRow) (token : String) (interval : Interval)
    (opts : CandleOpts) : List PriceCandleRow :=
  ((candles.filter fun c => c.token = token ∧ c.interval = interval ∧
    opts.from_.all (· ≤ c.openTime) ∧
    opts.to_.all (c.openTime ≤ ·)).insertionSort fun a b => a.openTime ≤ b.openTime).take
      opts.limit

/-- `GET /prices/:token/candles`, for a normalized token. -/
def candlesRoute (t : PriceTables) (token : String) (interval : Interval) (opts : CandleOpts) :
    Except String (List PriceCandleRow) :=
  if token ∉ validTokens then .error "Invalid token"
  else
    let canonicalToken := (reversePair.lookup token).getD token
    let isReversed : Bool := canonicalToken ≠ token
    let limit := min 1000 (max 1 opts.limit)
    let candles := getCandles t.candles canonicalToken interval { opts with limit := limit }
    .ok (if isReversed then candles.map invertCandleRow else candles)

/-! ### Inverting -/

/-- Prices that 0 does not stand out of: none of them is 0, or all of them invert to 0. -/
def ZeroFits (prices : List ℕ) : Prop :=
  (∀ p ∈ prices, p ≠ 0) ∨ ∀ p ∈ prices, p = 0 ∨ 10 ^ 36 < p

lemma invertPrice_zero : invertPrice 0 = 0 := if_pos rfl

lemma invertPrice_of_ne {p : ℕ} (h : p ≠ 0) : invertPrice p = 10 ^ 36 / p := if_neg h

lemma invertPrice_eq_zero {p : ℕ} : invertPrice p = 0 ↔ p = 0 ∨ 10 ^ 36 < p := by
  by_cases hp : p = 0
  · simp [hp, invertPrice_zero]
  · simp [invertPrice_of_ne hp, hp]

/-- Inverting turns prices around where 0 fits. -/
lemma antitoneOn_invertPrice {prices : List ℕ} :
    AntitoneOn invertPrice {p | p ∈ prices} ↔ ZeroFits prices := by
  constructor
  · intro hanti
    by_cases hzero : 0 ∈ prices
    · right
      intro p hp
      have hle := hanti hzero hp (Nat.zero_le p)
      rw [invertPrice_zero, Nat.le_zero] at hle
      exact invertPrice_eq_zero.mp hle
    · left
      intro p hp hp0
      exact hzero (hp0 ▸ hp)
  · rintro (hpos | hzeros) p hp q hq hle
    · rw [invertPrice_of_ne (hpos p hp), invertPrice_of_ne (hpos q hq)]
      exact Nat.div_le_div_left hle (Nat.pos_of_ne_zero (hpos p hp))
    · rw [invertPrice_eq_zero.mpr (hzeros p hp), invertPrice_eq_zero.mpr (hzeros q hq)]

section

variable {c : PriceCandleRow} {prices : List ℕ}

/-- The candle of a cross rate has no prices but those of its snapshots. -/
lemma PriceCandleRow.Ohlc.mem (h : c.Ohlc prices []) :
    (c.open_ ∈ prices ∧ c.close ∈ prices) ∧ c.high ∈ prices ∧ c.low ∈ prices := by
  refine ⟨⟨List.mem_of_mem_head? h.open_, List.mem_of_getLast? h.close⟩, ?_, ?_⟩
  · simpa using (List.max?_eq_some_iff.mp h.high).1
  · simpa using (List.min?_eq_some_iff.mp h.low).1

/-- A row is inverted well when its prices are. -/
lemma invertCandleRow_wellFormed (h : c.Ohlc prices [])
    (hanti : AntitoneOn invertPrice {p | p ∈ prices}) : (invertCandleRow c).WellFormed := by
  obtain ⟨⟨hopen, hclose⟩, hhigh, hlow⟩ := h.mem
  obtain ⟨hlo, hoh, hlc, hch⟩ := h.wellFormed
  exact ⟨hanti hopen hhigh hoh, hanti hlow hopen hlo, hanti hclose hhigh hch, hanti hlow hclose hlc⟩

end

/-! ### Stored candles -/

/-- The prices that a stored candle was made of: those its rollup had read. -/
def pricesOf (clock : ℕ) (h : PriceHistory) (c : PriceCandleRow) : List ℕ :=
  match lastReading (.init clock) h c.token c.interval c.openTime with
  | some x => x.snapshots.map PriceSnapshotRow.price
  | none => []

section

variable {clock : ℕ} {h : PriceHistory} {s : PriceState}

/-- There is one candle under a key. -/
lemma nodup_candles_of_run (hrun : Lts.Run PriceStep (.init clock) h s) :
    (s.tables.candles.map PriceCandleRow.key).Nodup := by
  refine hrun.induct (I := fun _ s => (s.tables.candles.map PriceCandleRow.key).Nodup)
    List.nodup_nil ?_
  intro h s l t _ hnodup hstep
  rcases hstep.cases with ⟨-, -, hcandles, -⟩ | ⟨config, -, rfl⟩ | ⟨r, -, -, rfl⟩ |
    ⟨r, -, -, rfl⟩ | ⟨-, rfl⟩
  · rw [hcandles]
    exact hnodup
  · exact hnodup
  · exact hnodup
  · exact Upsert.nodup_foldl_replace hnodup _
  · exact hnodup

/-- The prices of a cross rate that a candle was made of. -/
lemma ohlc_of_run {c : PriceCandleRow} (hrun : Lts.Run PriceStep (.init clock) h s)
    (hcross : isCrossRate c.token = true) (hc : c ∈ s.tables.candles) :
    c.Ohlc (pricesOf clock h c) [] := by
  have hat : s.tables.candleAt c.token c.interval c.openTime = some c :=
    Upsert.get_of_mem (nodup_candles_of_run hrun) hc
  rw [stored_of_run hrun, Option.bind_eq_some_iff] at hat
  obtain ⟨x, hx, hcandle⟩ := hat
  obtain ⟨hmem, hkey⟩ := Upsert.lastOf_mem hx
  have htoken : x.token = c.token := congrArg Prod.fst hkey
  have hswaps : x.swaps = [] := by
    rcases ((candleInv_of_run hrun).read x hmem).swaps with ⟨-, hnone⟩ | ⟨u, -, hread⟩
    · exact hnone
    · rw [hread, PriceTables.readSwaps, htoken, if_pos hcross]
  have hohlc := (Reading.candle?_sums hcandle).ohlc
  rw [hswaps] at hohlc
  rw [pricesOf, hx]
  exact hohlc

/-- The route answers for a reversed pair with the inverted rows of the stored one. -/
lemma candlesRoute_reversed {token canonical : String}
    (hpair : reversePair.lookup token = some canonical) (t : PriceTables) (interval : Interval)
    (opts : CandleOpts) :
    candlesRoute t token interval opts = .ok ((getCandles t.candles canonical interval
        { opts with limit := min 1000 (max 1 opts.limit) }).map invertCandleRow) ∧
      isCrossRate canonical = true := by
  have hvalid : (token ∈ validTokens ∧ canonical ≠ token) ∧ isCrossRate canonical = true := by
    obtain ⟨before, after, hlist, -⟩ := List.lookup_eq_some_iff.mp hpair
    have hmem : (token, canonical) ∈ reversePair := by
      rw [hlist]
      exact List.mem_append_right _ List.mem_cons_self
    simp only [reversePair, List.mem_cons, Prod.mk.injEq, List.not_mem_nil, or_false] at hmem
    rcases hmem with ⟨rfl, rfl⟩ | ⟨rfl, rfl⟩ | ⟨rfl, rfl⟩
    · decide
    · decide
    · decide
  obtain ⟨⟨htoken, hne⟩, hcross⟩ := hvalid
  refine ⟨?_, hcross⟩
  simp [candlesRoute, htoken, hpair, hne]

end

/-- The API answers a request for a reversed pair with the inverted candles of the stored pair. In
every run such a row is well formed, and inverting turns the prices of its bucket around, exactly
when none of these prices is 0, or all of them are 0 or too large to be inverted. -/
theorem candles_inverted_iff {clock : ℕ} {h : PriceHistory} {s : PriceState}
    (hrun : Lts.Run PriceStep (.init clock) h s) {token canonical : String}
    (hpair : reversePair.lookup token = some canonical) :
    (∀ (interval : Interval) (opts : CandleOpts),
      candlesRoute s.tables token interval opts
        = .ok ((getCandles s.tables.candles canonical interval
            { opts with limit := min 1000 (max 1 opts.limit) }).map invertCandleRow)) ∧
    ∀ c ∈ s.tables.candles, c.token = canonical → c.WellFormed ∧
      ((invertCandleRow c).WellFormed ∧ AntitoneOn invertPrice {p | p ∈ pricesOf clock h c} ↔
        (∀ p ∈ pricesOf clock h c, p ≠ 0) ∨ ∀ p ∈ pricesOf clock h c, p = 0 ∨ 10 ^ 36 < p) := by
  refine ⟨fun interval opts => (candlesRoute_reversed hpair s.tables interval opts).1, ?_⟩
  intro c hc htoken
  have hcross : isCrossRate c.token = true :=
    htoken ▸ (candlesRoute_reversed hpair .empty .h1 ⟨none, none, 0⟩).2
  have hohlc := ohlc_of_run hrun hcross hc
  refine ⟨hohlc.wellFormed, fun hboth => antitoneOn_invertPrice.mp hboth.2, fun hfits => ?_⟩
  have hanti := antitoneOn_invertPrice.mpr hfits
  exact ⟨invertCandleRow_wellFormed hohlc hanti, hanti⟩

/-! ### A price that is floored to 0 -/

namespace Api.Example

def config : Option SwapConfig := some ⟨"0xrouter", [("0xmoto", "MOTO"), ("0xpill", "PILL")]⟩

def quotes (moto pill : ℕ) (token : String) : Option ℕ :=
  some (if token = "0xmoto" then moto else pill)

/-- Two polls in one hour, and a rollup of it: eight queries for each token, four for each rate. -/
def hour (moto pill : ℕ) : List PriceLabel :=
  [.pollPrices config (quotes moto pill) 100, .savePrices, .wait 600000,
    .pollPrices config (quotes (10 ^ 18) (5 * 10 ^ 17)) 101, .savePrices,
    .rollUpAllCandles config] ++ List.replicate 28 .query ++ [.saveCandles]

def reached (moto pill : ℕ) : PriceState :=
  (Lts.after PriceState.step (.init 0) (hour moto pill)).getD (.init 0)

lemma run_hour {moto pill : ℕ}
    (h : (Lts.after PriceState.step (.init 0) (hour moto pill)).isSome = true) :
    Lts.Run PriceStep (.init 0) (Lts.trace PriceState.step (.init 0) (hour moto pill))
      (reached moto pill) := by
  apply Lts.run_trace
  obtain ⟨s, hs⟩ := Option.isSome_iff_exists.mp h
  rw [reached, hs]
  rfl

def opts : CandleOpts := ⟨none, none, 500⟩

/-- The first rate is less than the least price, and its inverse is not above that of the second. -/
theorem candles_inverted_floored :
    ¬ ∀ clock h s, Lts.Run PriceStep (.init clock) h s →
      ∀ token canonical, reversePair.lookup token = some canonical →
      ∀ interval opts rows, candlesRoute s.tables token interval opts = .ok rows →
      ∀ row ∈ rows, row.WellFormed ∧
        AntitoneOn invertPrice {p | p ∈ pricesOf clock h row} := by
  intro hall
  have hrow : candlesRoute (reached (10 ^ 19) 1).tables "PILL_MOTO" .h1 opts
      = .ok [⟨"MOTO_PILL", .h1, 0, 0, 0, 2 * 10 ^ 18, 2 * 10 ^ 18, 0, 0, 0⟩] := by decide +kernel
  have hwell := (hall 0 _ _ (run_hour (by decide)) "PILL_MOTO" "MOTO_PILL" (by decide) .h1 opts _
    hrow _ List.mem_cons_self).1
  exact absurd hwell.low_le_open (by decide)

/-- With a first rate of 2 both prices have an inverse. -/
theorem candles_inverted_iff_hour :
    (invertCandleRow ⟨"MOTO_PILL", .h1, 0, 2 * 10 ^ 18, 2 * 10 ^ 18, 5 * 10 ^ 17, 5 * 10 ^ 17, 0, 0,
      0⟩).WellFormed := by
  have hmem : (⟨"MOTO_PILL", .h1, 0, 2 * 10 ^ 18, 2 * 10 ^ 18, 5 * 10 ^ 17, 5 * 10 ^ 17, 0, 0, 0⟩ :
      PriceCandleRow) ∈ (reached (10 ^ 18) (2 * 10 ^ 18)).tables.candles := by decide +kernel
  have hiff := ((candles_inverted_iff (run_hour (by decide))
    (show reversePair.lookup "PILL_MOTO" = some "MOTO_PILL" by decide)).2 _ hmem rfl).2
  exact (hiff.mpr (by decide)).1

end Api.Example

end Frogop.Indexer
