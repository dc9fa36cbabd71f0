import Frogop.Indexer.Candles
import Frogop.Lib.Run

/-!
# Poll cycles and candles

After its commit a run of the poller starts `pollPrices` and, unless it is catching up,
`rollUpAllCandles` and `pruneOldData`. Each of them waits for the database, so their queries and
batches may come in any order. A candle is the one of the last rollup that was stored for its
bucket (`stored_of_run`), and that rollup started within the bucket.
-/

namespace Frogop.Indexer

/-! ### A rollup under way -/

structure Rollup where
  now : ℕ
  /-- The turns that are left. -/
  todo : List (String × Interval)
  /-- The snapshots of the first of them, while its swaps are awaited. -/
  pending : Option (List PriceSnapshotRow)
  /-- What the turns that are done have read, empty buckets apart. -/
  readings : List Reading
  deriving DecidableEq, Repr

namespace Rollup

def start (now : ℕ) (tokens : List String) : Rollup where
  now := now
  todo := tokens.flatMap fun token => Interval.all.map fun interval => (token, interval)
  pending := none
  readings := []

/-- The next query of a rollup. -/
def next (r : Rollup) (t : PriceTables) : Rollup :=
  match r.todo, r.pending with
  | [], _ => r
  | (token, interval) :: todo, none =>
    let snapshots := t.readSnapshots r.now token interval
    if snapshots = [] then { r with todo := todo }
    else if isCrossRate token then
      { r with
        todo := todo
        readings := r.readings ++ [⟨r.now, token, interval, snapshots, []⟩] }
    else { r with pending := some snapshots }
  | (token, interval) :: todo, some snapshots =>
    { r with
      todo := todo
      pending := none
      readings := r.readings ++
        [⟨r.now, token, interval, snapshots, t.readSwaps r.now token interval⟩] }

end Rollup

/-! ### Steps -/

structure PriceState where
  /-- `Date.now()` -/
  clock : ℕ
  tables : PriceTables
  /-- The rows of a `pollPrices` that is under way. -/
  polled : Option (List PriceSnapshotRow)
  rollup : Option Rollup
  deriving DecidableEq, Repr

inductive PriceLabel
  | wait (clock : ℕ)
  /-- A run commits the swaps of some blocks. -/
  | commitBlocks (swaps : List SwapEventRow)
  | pollPrices (swapConfig : Option SwapConfig) (getQuote : String → Option ℕ) (currentBlock : ℕ)
  /-- The batch of a `pollPrices` commits, or is lost with it. -/
  | savePrices
  | losePrices
  | rollUpAllCandles (swapConfig : Option SwapConfig)
  | query
  | saveCandles
  | loseCandles
  | pruneOldData (time currentBlock : ℕ)

namespace PriceTables

def empty : PriceTables := ⟨[], [], []⟩

def pruneOldData (t : PriceTables) (time currentBlock : ℕ) : PriceTables :=
  { t with
    snapshots := t.snapshots.filter fun s => time - 180 * 86400000 ≤ s.timestamp
    swapEvents := t.swapEvents.filter fun s => currentBlock - 26280 ≤ s.blockNumber }

end PriceTables

namespace PriceState

/-- An indexer that has not polled yet. -/
def init (clock : ℕ) : PriceState := ⟨clock, .empty, none, none⟩

/-- At most one run is under way: each of the tasks starts when the last of its kind is over. -/
def step (s : PriceState) : PriceLabel → Option PriceState
  | .wait clock => if s.clock ≤ clock then some { s with clock := clock } else none
  | .commitBlocks swaps =>
    some { s with tables := { s.tables with swapEvents := s.tables.swapEvents ++ swaps } }
  | .pollPrices swapConfig getQuote currentBlock =>
    match s.polled with
    | none => some { s with polled := some (pollPrices swapConfig getQuote currentBlock s.clock) }
    | some _ => none
  | .savePrices =>
    match s.polled with
    | none => none
    | some rows => some { s with tables := s.tables.insertSnapshots rows, polled := none }
  | .losePrices => some { s with polled := none }
  | .rollUpAllCandles swapConfig =>
    match s.rollup with
    | none => some { s with rollup := some (.start s.clock (allTokens swapConfig)) }
    | some _ => none
  | .query =>
    match s.rollup with
    | none => none
    | some r => some { s with rollup := some (r.next s.tables) }
  | .saveCandles =>
    match s.rollup with
    | none => none
    | some r =>
      if r.todo = [] then
        some { s with
          tables := s.tables.upsertCandles (r.readings.filterMap Reading.candle?)
          rollup := none }
      else none
  | .loseCandles => some { s with rollup := none }
  | .pruneOldData time currentBlock =>
    if time ≤ s.clock then some { s with tables := s.tables.pruneOldData time currentBlock }
    else none

/-- The snapshots whose time lies in a bucket, in the order of their blocks. -/
def bucket (s : PriceState) (token : String) (interval : Interval) (openTime : ℕ) :
    List PriceSnapshotRow :=
  getSnapshotsInRange s.tables.snapshots token openTime (openTime + interval.ms)

end PriceState

def PriceStep (s : PriceState) (l : PriceLabel) (t : PriceState) : Prop := s.step l = some t

abbrev PriceHistory := Lts.History PriceState PriceLabel

/-- The rollups whose candles are stored, in the order of their batches. -/
def rollups (s₀ : PriceState) (h : PriceHistory) : List Rollup :=
  Lts.collect (fun s l =>
    match l with
    | .saveCandles => s.rollup.toList
    | _ => []) s₀ h

/-- What they have read. -/
def readings (s₀ : PriceState) (h : PriceHistory) : List Reading :=
  (rollups s₀ h).flatMap Rollup.readings

def Reading.key (r : Reading) : String × Interval × ℕ := (r.token, r.interval, r.bucketStart)

/-- The last reading of a bucket whose candle was stored. -/
def lastReading (s₀ : PriceState) (h : PriceHistory) (token : String) (interval : Interval)
    (openTime : ℕ) : Option Reading :=
  Upsert.lastOf Reading.key (readings s₀ h) (token, interval, openTime)

/-- A state the run has passed through. -/
def Visited (s₀ : PriceState) (h : PriceHistory) (u : PriceState) : Prop :=
  u = s₀ ∨ ∃ l, (l, u) ∈ h

/-- The tables held, at the times of its two queries, what a reading has found. -/
structure Reading.ReadIn (s₀ : PriceState) (h : PriceHistory) (r : Reading) : Prop where
  snapshots : ∃ u, Visited s₀ h u ∧ r.now ≤ u.clock ∧
    r.snapshots = u.bucket r.token r.interval r.bucketStart
  nonempty : r.snapshots ≠ []
  swaps : isCrossRate r.token = true ∧ r.swaps = [] ∨
    ∃ u, Visited s₀ h u ∧ r.swaps = u.tables.readSwaps r.now r.token r.interval

section

variable {s s₀ t u : PriceState} {l : PriceLabel} {h : PriceHistory} {r : Rollup} {x : Reading}

/-! ### What one step does to the rollup -/

/-- A step of another task, or of the rollup. -/
lemma PriceStep.cases (hstep : PriceStep s l t) :
    (l ≠ .saveCandles ∧ t.rollup = s.rollup ∧ t.tables.candles = s.tables.candles ∧
      s.clock ≤ t.clock) ∨
    (∃ swapConfig, l = .rollUpAllCandles swapConfig ∧
      t = { s with rollup := some (.start s.clock (allTokens swapConfig)) }) ∨
    (∃ r, l = .query ∧ s.rollup = some r ∧ t = { s with rollup := some (r.next s.tables) }) ∨
    (∃ r, l = .saveCandles ∧ s.rollup = some r ∧ t = { s with
      tables := s.tables.upsertCandles (r.readings.filterMap Reading.candle?)
      rollup := none }) ∨
    (l = .loseCandles ∧ t = { s with rollup := none }) := by
  cases l with
  | wait clock =>
    simp only [PriceStep, PriceState.step] at hstep
    split_ifs at hstep with hle
    cases hstep
    exact .inl ⟨by simp, rfl, rfl, hle⟩
  | commitBlocks swaps =>
    cases hstep
    exact .inl ⟨by simp, rfl, rfl, le_rfl⟩
  | pollPrices swapConfig getQuote currentBlock =>
    simp only [PriceStep, PriceState.step] at hstep
    split at hstep
    · cases hstep
      exact .inl ⟨by simp, rfl, rfl, le_rfl⟩
    · cases hstep
  | savePrices =>
    simp only [PriceStep, PriceState.step] at hstep
    split at hstep
    · cases hstep
    · cases hstep
      exact .inl ⟨by simp, rfl, rfl, le_rfl⟩
  | losePrices =>
    cases hstep
    exact .inl ⟨by simp, rfl, rfl, le_rfl⟩
  | rollUpAllCandles swapConfig =>
    simp only [PriceStep, PriceState.step] at hstep
    split at hstep
    · cases hstep
      exact .inr (.inl ⟨swapConfig, rfl, rfl⟩)
    · cases hstep
  | query =>
    simp only [PriceStep, PriceState.step] at hstep
    split at hstep
    · cases hstep
    · next r hr =>
      cases hstep
      exact .inr (.inr (.inl ⟨r, rfl, hr, rfl⟩))
  | saveCandles =>
    simp only [PriceStep, PriceState.step] at hstep
    split at hstep
    · cases hstep
    · next r hr =>
      split_ifs at hstep
      cases hstep
      exact .inr (.inr (.inr (.inl ⟨r, rfl, hr, rfl⟩)))
  | loseCandles =>
    cases hstep
    exact .inr (.inr (.inr (.inr ⟨rfl, rfl⟩)))
  | pruneOldData time currentBlock =>
    simp only [PriceStep, PriceState.step] at hstep
    split_ifs at hstep
    cases hstep
    exact .inl ⟨by simp, rfl, rfl, le_rfl⟩

lemma rollups_cons_of_ne (hl : l ≠ .saveCandles) : rollups s₀ ((l, t) :: h) = rollups s₀ h := by
  cases l with
  | saveCandles => exact absurd rfl hl
  | _ => exact List.append_nil _

lemma rollups_cons_saveCandles (hrun : Lts.Run PriceStep s₀ h s) (hr : s.rollup = some r) :
    rollups s₀ ((.saveCandles, t) :: h) = rollups s₀ h ++ [r] := by
  show rollups s₀ h ++ (Lts.last s₀ h).rollup.toList = _
  rw [hrun.last_eq, hr]
  rfl

/-! ### What a rollup has read -/

lemma Visited.cons (hu : Visited s₀ h u) (l : PriceLabel) (t : PriceState) :
    Visited s₀ ((l, t) :: h) u := by
  rcases hu with rfl | ⟨l', hmem⟩
  · exact .inl rfl
  · exact .inr ⟨l', List.mem_cons_of_mem _ hmem⟩

lemma visited_of_run (hrun : Lts.Run PriceStep s₀ h s) : Visited s₀ h s := by
  cases hrun with
  | nil => exact .inl rfl
  | cons _ _ => exact .inr ⟨_, List.mem_cons_self⟩

lemma Reading.ReadIn.cons (hx : x.ReadIn s₀ h) (l : PriceLabel) (t : PriceState) :
    x.ReadIn s₀ ((l, t) :: h) := by
  obtain ⟨⟨u, hu, hclock, hsnapshots⟩, hne, hswaps⟩ := hx
  refine ⟨⟨u, hu.cons l t, hclock, hsnapshots⟩, hne, hswaps.imp_right ?_⟩
  rintro ⟨v, hv, hread⟩
  exact ⟨v, hv.cons l t, hread⟩

/-- A rollup has read what it holds in the course of the run. -/
structure Rollup.Inv (s₀ : PriceState) (h : PriceHistory) (s : PriceState) (r : Rollup) : Prop where
  now_le : r.now ≤ s.clock
  readings : ∀ x ∈ r.readings, x.ReadIn s₀ h
  pending : ∀ snapshots token interval todo, r.pending = some snapshots →
    r.todo = (token, interval) :: todo → snapshots ≠ [] ∧
      ∃ u, Visited s₀ h u ∧ r.now ≤ u.clock ∧
        snapshots = u.tables.readSnapshots r.now token interval

/-- Other steps leave what it holds. -/
lemma Rollup.Inv.cons (hr : r.Inv s₀ h s) (hclock : s.clock ≤ t.clock) :
    r.Inv s₀ ((l, t) :: h) t := by
  refine ⟨hr.now_le.trans hclock, fun x hx => (hr.readings x hx).cons l t, ?_⟩
  intro snapshots token interval todo hpending htodo
  obtain ⟨hne, u, hu, hnow, hread⟩ := hr.pending snapshots token interval todo hpending htodo
  exact ⟨hne, u, hu.cons l t, hnow, hread⟩

lemma Rollup.Inv.start (s₀ s : PriceState) (h : PriceHistory) (tokens : List String) :
    (Rollup.start s.clock tokens).Inv s₀ h s := by
  refine ⟨le_rfl, fun x hx => ?_, fun _ _ _ _ hpending => ?_⟩
  · cases hx
  · cases hpending

/-- One query reads the tables as they are. -/
lemma Rollup.Inv.next (hs : Visited s₀ h s) (hr : r.Inv s₀ h s) :
    (r.next s.tables).Inv s₀ h s := by
  obtain ⟨now, todo, pending, readings⟩ := r
  rcases todo with _ | ⟨⟨token, interval⟩, todo⟩
  · exact hr
  · cases pending with
    | none =>
      simp only [Rollup.next]
      split_ifs with hempty hcross
      · exact ⟨hr.now_le, hr.readings, fun _ _ _ _ hpending => by cases hpending⟩
      · refine ⟨hr.now_le, fun x hx => ?_, fun _ _ _ _ hpending => by cases hpending⟩
        rcases List.mem_append.mp hx with hx | hx
        · exact hr.readings x hx
        · obtain rfl := List.mem_singleton.mp hx
          exact ⟨⟨s, hs, hr.now_le, rfl⟩, hempty, .inl ⟨hcross, rfl⟩⟩
      · refine ⟨hr.now_le, hr.readings, ?_⟩
        intro snapshots token' interval' todo' hpending htodo
        cases hpending
        cases htodo
        exact ⟨hempty, s, hs, hr.now_le, rfl⟩
    | some snapshots =>
      refine ⟨hr.now_le, fun x hx => ?_, fun _ _ _ _ hpending => by cases hpending⟩
      rcases List.mem_append.mp hx with hx | hx
      · exact hr.readings x hx
      · obtain rfl := List.mem_singleton.mp hx
        obtain ⟨hne, u, hu, hnow, hread⟩ := hr.pending snapshots token interval todo rfl rfl
        exact ⟨⟨u, hu, hnow, hread⟩, hne, .inr ⟨s, hs, rfl⟩⟩

/-! ### Runs -/

/-- What holds after every run of what is stored and what is under way. -/
structure CandleInv (s₀ : PriceState) (h : PriceHistory) (s : PriceState) : Prop where
  rollup : ∀ r, s.rollup = some r → r.Inv s₀ h s
  read : ∀ x ∈ readings s₀ h, x.ReadIn s₀ h
  stored : ∀ k, Upsert.get PriceCandleRow.key s.tables.candles k
    = Upsert.lastOf PriceCandleRow.key ((readings s₀ h).filterMap Reading.candle?) k

/-- A step that stores no candles leaves what was read and what is stored. -/
lemma CandleInv.quiet (hinv : CandleInv s₀ h s) (hl : l ≠ .saveCandles)
    (hcandles : t.tables.candles = s.tables.candles)
    (hrollup : ∀ r, t.rollup = some r → r.Inv s₀ ((l, t) :: h) t) :
    CandleInv s₀ ((l, t) :: h) t := by
  have hreadings : readings s₀ ((l, t) :: h) = readings s₀ h := by
    rw [readings, rollups_cons_of_ne hl, readings]
  refine ⟨hrollup, ?_, ?_⟩
  · intro x hx
    rw [hreadings] at hx
    exact (hinv.read x hx).cons l t
  · intro k
    rw [hreadings, hcandles]
    exact hinv.stored k

lemma CandleInv.step (hrun : Lts.Run PriceStep s₀ h s) (hinv : CandleInv s₀ h s)
    (hstep : PriceStep s l t) : CandleInv s₀ ((l, t) :: h) t := by
  have hs : Visited s₀ h s := visited_of_run hrun
  rcases hstep.cases with ⟨hl, hsame, hcandles, hclock⟩ | ⟨config, rfl, rfl⟩ | ⟨r, rfl, hr, rfl⟩ |
    ⟨r, rfl, hr, rfl⟩ | ⟨rfl, rfl⟩
  · refine hinv.quiet hl hcandles ?_
    intro r hr
    exact (hinv.rollup r (hsame ▸ hr)).cons hclock
  · refine hinv.quiet (by simp) rfl ?_
    intro r hr
    cases hr
    exact .start s₀ _ _ _
  · refine hinv.quiet (by simp) rfl ?_
    intro r' hr'
    cases hr'
    exact ((hinv.rollup r hr).next hs).cons le_rfl
  · have hreadings : ∀ t, readings s₀ ((.saveCandles, t) :: h) = readings s₀ h ++ r.readings := by
      intro t
      rw [readings, rollups_cons_saveCandles hrun hr, List.flatMap_append, readings]
      simp
    refine ⟨?_, ?_, ?_⟩
    · intro r' hr'
      cases hr'
    · intro x hx
      rw [hreadings] at hx
      rcases List.mem_append.mp hx with hx | hx
      · exact (hinv.read x hx).cons _ _
      · exact ((hinv.rollup r hr).readings x hx).cons _ _
    · intro k
      rw [hreadings, List.filterMap_append, Upsert.lastOf_append]
      show Upsert.get _ (List.foldl _ _ _) k = _
      rw [Upsert.get_foldl_replace, hinv.stored k]
  · refine hinv.quiet (by simp) rfl ?_
    intro r hr
    cases hr

lemma candleInv_of_run {clock : ℕ} (hrun : Lts.Run PriceStep (.init clock) h s) :
    CandleInv (.init clock) h s := by
  refine hrun.induct (I := CandleInv (.init clock)) ?_ fun h s l t hrun hinv hstep =>
    hinv.step hrun hstep
  refine ⟨fun r hr => ?_, fun x hx => ?_, fun k => rfl⟩
  · cases hr
  · cases hx

/-- What is stored for a bucket is the candle of its last reading. -/
lemma stored_of_run {clock : ℕ} (hrun : Lts.Run PriceStep (.init clock) h s) (token : String)
    (interval : Interval) (openTime : ℕ) : s.tables.candleAt token interval openTime
      = (lastReading (.init clock) h token interval openTime).bind Reading.candle? := by
  have hinv := candleInv_of_run hrun
  rw [PriceTables.candleAt, hinv.stored]
  refine Upsert.lastOf_filterMap fun x hx => ?_
  have hne := (hinv.read x hx).nonempty
  obtain ⟨c, hc⟩ := Option.ne_none_iff_exists'.mp (mt Reading.candle?_eq_none.mp hne)
  exact ⟨c, hc, Reading.candle?_key hc⟩

lemma Interval.ms_pos (interval : Interval) : 0 < interval.ms := by
  cases interval <;> decide

lemma floorToInterval_spec (date : ℕ) (interval : Interval) :
    floorToInterval date interval.ms ≤ date ∧
      date < floorToInterval date interval.ms + interval.ms := by
  refine ⟨Nat.div_mul_le_self _ _, ?_⟩
  have hmod := Nat.mod_lt date interval.ms_pos
  have hdiv := Nat.div_add_mod' date interval.ms
  rw [floorToInterval]
  omega

/-- The candle of a bucket is that of the last rollup stored for it, which started in the bucket.
When that rollup has read all snapshots of the bucket, the candle has their prices; for a base token
the extremes also count the swaps it has read. -/
theorem candle_of_last_rollup {clock : ℕ} (hrun : Lts.Run PriceStep (.init clock) h s)
    (token : String) (interval : Interval) (openTime : ℕ) :
    (lastReading (.init clock) h token interval openTime = none →
      s.tables.candleAt token interval openTime = none) ∧
      ∀ x, lastReading (.init clock) h token interval openTime = some x →
        openTime ≤ x.now ∧ x.now < openTime + interval.ms ∧ x.ReadIn (.init clock) h ∧
        ∃ c, s.tables.candleAt token interval openTime = some c ∧
          c.Sums (x.snapshots.map PriceSnapshotRow.price) x.swaps ∧
          (x.snapshots = s.bucket token interval openTime →
            c.Ohlc ((s.bucket token interval openTime).map PriceSnapshotRow.price)
              (swapPrices x.swaps)) := by
  have hstored := stored_of_run hrun token interval openTime
  refine ⟨fun hnone => by rw [hstored, hnone]; rfl, fun x hlast => ?_⟩
  obtain ⟨hmem, hkey⟩ := Upsert.lastOf_mem hlast
  obtain ⟨rfl, rfl, rfl⟩ : x.token = token ∧ x.interval = interval ∧ x.bucketStart = openTime := by
    simpa [Reading.key] using hkey
  have hread := (candleInv_of_run hrun).read x hmem
  obtain ⟨c, hc⟩ := Option.ne_none_iff_exists'.mp
    (mt Reading.candle?_eq_none.mp hread.nonempty)
  have hsums := Reading.candle?_sums hc
  obtain ⟨hle, hlt⟩ := floorToInterval_spec x.now x.interval
  refine ⟨hle, hlt, hread, c, ?_, hsums, fun hall => ?_⟩
  · rw [hstored, hlast]
    exact hc
  · rw [← hall]
    exact hsums.ohlc

end

/-! ### A bucket that ends between two rollups -/

namespace Rollup.Example

def config : Option SwapConfig := some ⟨"0xrouter", [("0xmoto", "MOTO")]⟩

/-- The queries of one rollup: eight for `MOTO`, four for `MOTO_BTC`. -/
def queries : List PriceLabel := List.replicate 12 .query

/-- A cycle whose rollup reads what its `pollPrices` has saved. -/
def saved (clock price block : ℕ) : List PriceLabel :=
  [.wait clock, .pollPrices config (fun _ => some price) block, .rollUpAllCandles config,
    .savePrices] ++ queries ++ [.saveCandles]

/-- A cycle whose rollup is faster than its `pollPrices`. -/
def overtaken (clock price block : ℕ) : List PriceLabel :=
  [.wait clock, .pollPrices config (fun _ => some price) block, .rollUpAllCandles config] ++
    queries ++ [.saveCandles, .savePrices]

/-- Two prices in the first hour, and a rollup after it. -/
def hour : List PriceLabel :=
  saved 0 1000 100 ++ overtaken 3300000 2000 101 ++ saved 3900000 3000 102

def reached (ls : List PriceLabel) : PriceState :=
  (Lts.after PriceState.step (.init 0) ls).getD (.init 0)

lemma run_hour : Lts.Run PriceStep (.init 0) (Lts.trace PriceState.step (.init 0) hour)
    (reached hour) := by
  have hgo : (Lts.after PriceState.step (.init 0) hour).isSome = true := by decide
  apply Lts.run_trace
  obtain ⟨s, hs⟩ := Option.isSome_iff_exists.mp hgo
  rw [reached, hs]
  rfl

/-- The second price of the hour never reaches its candle. -/
theorem finished_candle_incomplete :
    ¬ ∀ clock h s, Lts.Run PriceStep (.init clock) h s → ∀ token interval openTime,
      s.bucket token interval openTime ≠ [] →
      (∃ r ∈ rollups (.init clock) h, openTime + interval.ms ≤ r.now) →
      ∃ c, s.tables.candleAt token interval openTime = some c ∧
        c.Ohlc ((s.bucket token interval openTime).map PriceSnapshotRow.price) [] := by
  intro hall
  have hlate : (rollups (.init 0) (Lts.trace PriceState.step (.init 0) hour)).any
      (fun r => 0 + Interval.h1.ms ≤ r.now) = true := by decide
  have hclose : ((reached hour).tables.candleAt "MOTO" .h1 0).map PriceCandleRow.close
      = some 1000 := by decide
  have hprices : (((reached hour).bucket "MOTO" .h1 0).map PriceSnapshotRow.price)
      = [1000, 2000] := by decide
  obtain ⟨c, hc, hohlc⟩ := hall 0 _ _ run_hour "MOTO" .h1 0 (by decide) (by simpa using hlate)
  have hlast := hohlc.close
  rw [hprices] at hlast
  rw [hc] at hclose
  simp at hlast hclose
  omega

/-- In the next hour the rollup has read everything. -/
theorem candle_of_last_rollup_saved : ∃ c,
    (reached hour).tables.candleAt "MOTO" .h1 3600000 = some c ∧ c.Ohlc [3000] [] := by
  have hlast := (candle_of_last_rollup run_hour "MOTO" .h1 3600000).2
  have hreading : (lastReading (.init 0) (Lts.trace PriceState.step (.init 0) hour) "MOTO" .h1
      3600000).isSome = true := by decide
  obtain ⟨x, hx⟩ := Option.isSome_iff_exists.mp hreading
  obtain ⟨-, -, -, c, hc, -, hohlc⟩ := hlast x hx
  have hread : (lastReading (.init 0) (Lts.trace PriceState.step (.init 0) hour) "MOTO" .h1
      3600000).map (fun x => (x.snapshots, x.swaps))
      = some ((reached hour).bucket "MOTO" .h1 3600000, []) := by decide
  rw [hx] at hread
  simp only [Option.map_some, Option.some.injEq, Prod.mk.injEq] at hread
  have hprices : (((reached hour).bucket "MOTO" .h1 3600000).map PriceSnapshotRow.price)
      = [3000] := by decide
  have hall := hohlc hread.1
  rw [hprices, hread.2] at hall
  exact ⟨c, hc, hall⟩

end Rollup.Example

end Frogop.Indexer
