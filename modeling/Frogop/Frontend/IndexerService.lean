import Frogop.Frontend.PoolService
import Frogop.Indexer.Mirror
import Frogop.Indexer.Queries

/-!
# `IndexerService` and `useUserOptions`

The front end reads options from the API of the indexer, and from the pools where the API does not
answer. Both show the same options of a pool whose rows mirror it: all of them, page by page
(`pages_exact`), and those of one user (`useUserOptions_agree`).
-/

namespace Frogop.Frontend

open Indexer (Answer D1Database Database OptionRow SearchParams hexString toLowerCase)

/-- `OptionData` with its `poolAddress`, which only the indexer fills in. -/
structure UserOption extends OptionData where
  poolAddress : Option String
  deriving DecidableEq, Repr

namespace IndexerService

def mapOptionRow (row : OptionRow) : UserOption where
  id := row.optionId
  writer := row.writer
  buyer := row.buyer.getD ""
  optionType := row.optionType
  strikePrice := row.strikePrice
  underlyingAmount := row.underlyingAmt
  premium := row.premium
  expiryBlock := row.expiryBlock
  status := row.status
  poolAddress := some row.poolAddress

/-- The answer to a request when it is `ok`; the indexer is `none` when it cannot be reached. -/
def fetchJson (indexer : Option D1Database) (pathname : String) (params : SearchParams) :
    Option Answer :=
  match indexer.bind (Indexer.route (Indexer.segments pathname) params) with
  | some (.notFound _) | some (.badRequest _) => none
  | answer => answer

def noParams : SearchParams := ⟨none, none, none, none, none⟩

/-- The options of an answer, if it has any. -/
def optionsOf : Option Answer → Option (List UserOption)
  | some (.options (some rows)) => some (rows.map mapOptionRow)
  | _ => none

def getOptionsByUser (indexer : Option D1Database) (userAddress : String) :
    Option (List UserOption) :=
  optionsOf (fetchJson indexer ("/user/" ++ userAddress ++ "/options") noParams)

def getOptionsByPool (indexer : Option D1Database) (poolAddress : String)
    (status page limit : Option ℕ) : Option (List UserOption) :=
  optionsOf (fetchJson indexer ("/pools/" ++ poolAddress ++ "/options")
    { noParams with
      status := status.map toString
      page := page.map toString
      limit := limit.map toString })

def getOption (indexer : Option D1Database) (poolAddress : String) (optionId : ℕ) :
    Option UserOption :=
  match fetchJson indexer ("/pools/" ++ poolAddress ++ "/options/" ++ toString optionId)
    noParams with
  | some (.option row) => some (mapOptionRow row)
  | _ => none

end IndexerService

/-! ### `useUserOptions` -/

def ZERO_HEX : String := "0x" ++ String.ofList (List.replicate 64 '0')

inductive Source
  | indexer
  | chain
  deriving DecidableEq, Repr

inductive LoadError
  | noProvider
  | failed (e : Revert)

structure UserOptions where
  writtenOptions : List UserOption
  purchasedOptions : List UserOption
  source : Source

/-- `load` for a wallet; `chain` is what `getAllOptions` answers, if there is a provider. -/
def loadUserOptions (walletHex : String) (indexer : Option D1Database)
    (chain : Option (Except Revert (List OptionData))) : Except LoadError UserOptions :=
  let wallet := toLowerCase walletHex
  match IndexerService.getOptionsByUser indexer walletHex with
  | some indexerResult => .ok {
      writtenOptions := indexerResult.filter fun o => toLowerCase o.writer = wallet
      purchasedOptions := indexerResult.filter fun o => o.buyer ≠ "" ∧ toLowerCase o.buyer = wallet
      source := .indexer }
  | none =>
    match chain with
    | none => .error .noProvider
    | some (.error e) => .error (.failed e)
    | some (.ok all) =>
      let all : List UserOption := all.map fun o => { o with poolAddress := none }
      .ok {
        writtenOptions := all.filter fun o => toLowerCase o.writer = wallet
        purchasedOptions := all.filter fun o => o.buyer ≠ ZERO_HEX ∧ toLowerCase o.buyer = wallet
        source := .chain }

/-! ### Requests -/

section

variable {indexer : Option D1Database} {db : D1Database} {address wallet pool : String}
  {p : PoolStorage} {o : OptionRecord} {rows : List OptionRow} {params : SearchParams}

lemma slash_notMem_hexString (bytes : List UInt8) : '/' ∉ (hexString bytes).toList := by
  have hdigit : ∀ n < 16, Nat.digitChar n ≠ '/' := by decide
  rw [hexString, String.toList_ofList]
  simp only [List.mem_cons, List.mem_flatMap, Indexer.hexByte, List.not_mem_nil, or_false]
  rintro (h | h | ⟨b, -, h | h⟩)
  · exact absurd h (by decide)
  · exact absurd h (by decide)
  · exact hdigit _ (by have := b.toNat_lt; omega) h.symm
  · exact hdigit _ (Nat.mod_lt _ (by decide)) h.symm

/-- The text of an address, in a path. -/
structure PathText (s : String) : Prop where
  ne : s ≠ ""
  slash : '/' ∉ s.toList

lemma pathText_hexString (bytes : List UInt8) : PathText (hexString bytes) where
  ne := by
    intro h
    have := congrArg String.toList h
    simp [hexString] at this
  slash := slash_notMem_hexString bytes

lemma segments_options {pathname kind : String} (hkind : '/' ∉ kind.toList)
    (h : PathText address) (htext : pathname.toList
      = [] ++ '/' :: (kind.toList ++ '/' :: (address.toList ++ '/' :: "options".toList))) :
    Indexer.segments pathname = ["", kind, address, "options"] := by
  have hlast : pathname.toList.getLast? ≠ some '/' := by
    simp [htext, List.getLast?_append, List.getLast?_cons]
  rw [Indexer.segments_eq hlast, htext, List.splitOn_append_cons_self_of_not_mem (by simp),
    List.splitOn_append_cons_self_of_not_mem hkind,
    List.splitOn_append_cons_self_of_not_mem h.slash, List.splitOn_eq_singleton (by decide)]
  simp

/-- A request for the options of a user is answered with them. -/
lemma getOptionsByUser_eq (h : PathText address) :
    IndexerService.getOptionsByUser (some db) address
      = some ((db.getOptionsByUser address).map IndexerService.mapOptionRow) := by
  have hsegments : Indexer.segments ("/user/" ++ address ++ "/options")
      = ["", "user", address, "options"] := by
    apply segments_options (by decide) h
    simp
  have hsegment : Indexer.isSegment address = true := by simpa [Indexer.isSegment] using h.ne
  simp [IndexerService.getOptionsByUser, IndexerService.fetchJson, hsegments, Indexer.route,
    hsegment, IndexerService.optionsOf]

lemma getOptionsByPool_eq (h : PathText address) {page limit : ℕ} (hpage : page < 2 ^ 53)
    (hlimit : limit < 2 ^ 53) (hoffset : page * min 200 (max 1 limit) < 2 ^ 53) :
    IndexerService.getOptionsByPool (some db) address none (some page) (some limit)
      = some ((db.getOptionsByPool address none (min 200 (max 1 limit))
          (page * min 200 (max 1 limit))).map IndexerService.mapOptionRow) := by
  have hsegments : Indexer.segments ("/pools/" ++ address ++ "/options")
      = ["", "pools", address, "options"] := by
    apply segments_options (by decide) h
    simp
  have hsegment : Indexer.isSegment address = true := by simpa [Indexer.isSegment] using h.ne
  have hrows : min 200 (max 1 limit) < 2 ^ 63 := (min_le_left _ _).trans_lt (by decide)
  have hskip : page * min 200 (max 1 limit) < 2 ^ 63 := hoffset.trans (by decide)
  simp only [IndexerService.getOptionsByPool, IndexerService.fetchJson, hsegments, Indexer.route,
    hsegment, IndexerService.optionsOf, Indexer.handlePoolOptions, IndexerService.noParams,
    Indexer.truthy, Option.filter_none, Option.map_some, Option.map_none, Option.bind_some,
    Indexer.pageOf_toString hpage, Indexer.limitOf_toString hlimit, Indexer.number_of_lt hoffset,
    Indexer.rowCount_of_lt hrows, Indexer.rowCount_of_lt hskip, Option.bind_eq_bind,
    Option.pure_def, if_true]

lemma slash_notMem_toString (n : ℕ) : '/' ∉ (toString n).toList := by
  intro hmem
  rw [show (toString n).toList = Nat.toDigits 10 n from Nat.toList_repr] at hmem
  exact absurd (Nat.isDigit_of_mem_toDigits (by decide) (by decide) hmem) (by decide)

/-- A request for the transfers of an option is answered with them. -/
lemma route_transfers (h : PathText address) {n : ℕ} (hn : n < 2 ^ 53) :
    Indexer.route (Indexer.segments ("/pools/" ++ address ++ "/options/" ++ toString n
        ++ "/transfers")) params db
      = some (.transfers (db.getTransfersByOption address n)) := by
  have htext : ("/pools/" ++ address ++ "/options/" ++ toString n ++ "/transfers").toList
      = [] ++ '/' :: ("pools".toList ++ '/' :: (address.toList ++ '/' ::
          ("options".toList ++ '/' :: ((toString n).toList ++ '/' :: "transfers".toList)))) := by
    simp
  have hlast : ("/pools/" ++ address ++ "/options/" ++ toString n
      ++ "/transfers").toList.getLast? ≠ some '/' := by
    simp [List.getLast?_append, List.getLast?_cons]
  have hsegments : Indexer.segments ("/pools/" ++ address ++ "/options/" ++ toString n
      ++ "/transfers") = ["", "pools", address, "options", toString n, "transfers"] := by
    rw [Indexer.segments_eq hlast, htext, List.splitOn_append_cons_self_of_not_mem (by simp),
      List.splitOn_append_cons_self_of_not_mem (by decide),
      List.splitOn_append_cons_self_of_not_mem h.slash,
      List.splitOn_append_cons_self_of_not_mem (by decide),
      List.splitOn_append_cons_self_of_not_mem (slash_notMem_toString n),
      List.splitOn_eq_singleton (by decide)]
    simp only [List.map_cons, List.map_nil, String.ofList_toList]
  have hsegment : Indexer.isSegment address = true := by simpa [Indexer.isSegment] using h.ne
  rw [hsegments]
  simp only [Indexer.route, hsegment, Indexer.isNumeral_toString, Indexer.parseInt_toString hn,
    and_self, if_true, Int.toNat_natCast]

/-- A request for one option is answered with its row, if there is one. -/
lemma getOption_row (h : PathText address) {n : ℕ} (hn : n < 2 ^ 53) :
    IndexerService.getOption (some db) address n
      = (db.getOption address n).map IndexerService.mapOptionRow := by
  have hrepr : (toString n).toList = Nat.toDigits 10 n := Nat.toList_repr
  have hdigits : '/' ∉ (toString n).toList := slash_notMem_toString n
  have htext : ("/pools/" ++ address ++ "/options/" ++ toString n).toList
      = [] ++ '/' :: ("pools".toList ++ '/' :: (address.toList ++ '/' ::
          ("options".toList ++ '/' :: (toString n).toList))) := by
    simp
  have hlast : ("/pools/" ++ address ++ "/options/" ++ toString n).toList.getLast?
      ≠ some '/' := by
    rw [String.toList_append, List.getLast?_append]
    cases hdigit : (toString n).toList.getLast? with
    | none =>
      rw [List.getLast?_eq_none_iff, hrepr] at hdigit
      exact absurd hdigit Nat.toDigits_ne_nil
    | some c =>
      have hmem := List.mem_of_getLast? hdigit
      rintro ⟨⟩
      exact hdigits hmem
  have hsegments : Indexer.segments ("/pools/" ++ address ++ "/options/" ++ toString n)
      = ["", "pools", address, "options", toString n] := by
    rw [Indexer.segments_eq hlast, htext, List.splitOn_append_cons_self_of_not_mem (by simp),
      List.splitOn_append_cons_self_of_not_mem (by decide),
      List.splitOn_append_cons_self_of_not_mem h.slash,
      List.splitOn_append_cons_self_of_not_mem (by decide), List.splitOn_eq_singleton hdigits]
    simp only [List.map_cons, List.map_nil, String.ofList_toList]
  have hsegment : Indexer.isSegment address = true := by simpa [Indexer.isSegment] using h.ne
  rw [IndexerService.getOption, IndexerService.fetchJson, hsegments, Option.bind_some]
  simp only [Indexer.route, hsegment, Indexer.isNumeral_toString, Indexer.parseInt_toString hn,
    and_self, if_true, Int.toNat_natCast]
  cases db.getOption address n <;> rfl

/-! ### What is shown of a pool -/

/-- What the indexer shows of an option; nobody is the empty text. -/
def shown (pool : String) (o : OptionRecord) : UserOption :=
  { PoolService.optionData o with
    buyer := (Indexer.buyerColumn o.buyer).getD ""
    poolAddress := some pool }

lemma mapOptionRow_of_shows {row : OptionRow} {g : ℕ} (h : row.Shows pool g o) :
    IndexerService.mapOptionRow row = shown pool o := by
  simp [IndexerService.mapOptionRow, shown, PoolService.optionData, h.optionId, h.writer, h.buyer,
    h.optionType, h.strikePrice, h.underlyingAmt, h.premium, h.expiryBlock, h.status,
    h.poolAddress]

/-- Rows that mirror a pool show all of its options. -/
lemma map_mapOptionRow (h : Indexer.Mirrors pool p rows) :
    rows.map IndexerService.mapOptionRow
      = (List.range p.nextId).map fun i => shown pool (p.options.get i) := by
  apply List.ext_getElem
  · simp [h.length]
  · intro i hi hi'
    rw [List.length_map] at hi
    rw [List.getElem_map, List.getElem_map, List.getElem_range]
    exact mapOptionRow_of_shows (h.shows i _ (List.getElem?_eq_getElem hi))

lemma getOption_eq (h : Indexer.Mirrors pool p (db.optionsOf pool)) (i : ℕ) :
    db.getOption pool i = (db.optionsOf pool)[i]? := by
  have hfind : db.getOption pool i
      = (db.optionsOf pool).find? fun o => decide (o.optionId = i) := by
    rw [Database.optionsOf, List.find?_filter, Database.getOption]
    refine congrArg (fun f => db.options.find? f) (funext fun o => ?_)
    rw [decide_eq_decide, decide_eq_true_iff, decide_eq_true_iff]
    exact Iff.rfl
  rw [hfind]
  have hid : ∀ j (hj : j < (db.optionsOf pool).length), (db.optionsOf pool)[j].optionId = j :=
    fun j hj => (h.shows j _ (List.getElem?_eq_getElem hj)).optionId
  by_cases hi : i < (db.optionsOf pool).length
  · rw [List.getElem?_eq_getElem hi, List.find?_eq_some_iff_getElem]
    refine ⟨by simp [hid i hi], i, hi, rfl, fun j hj => ?_⟩
    simp [hid j (hj.trans hi), hj.ne]
  · rw [List.getElem?_eq_none (Nat.le_of_not_lt hi), List.find?_eq_none]
    intro o ho
    obtain ⟨j, hj, rfl⟩ := List.mem_iff_getElem.mp ho
    have hne : j ≠ i := fun heq => hi (heq ▸ hj)
    simp [hid j hj, hne]

/-- A single option is found under its id, and nothing under the others. -/
lemma getOption_shown (h : Indexer.Mirrors pool p (db.optionsOf pool)) (hpool : PathText pool)
    {i : ℕ} (hi : i < 2 ^ 53) :
    IndexerService.getOption (some db) pool i
      = if i < p.nextId then some (shown pool (p.options.get i)) else none := by
  rw [getOption_row hpool hi, getOption_eq h, ← List.getElem?_map, map_mapOptionRow h]
  split_ifs with hlt
  · simp [hlt]
  · simp [hlt]

/-- Of a user's options, those of a pool that match are found in the pool. -/
lemma filter_getOptionsByUser {W : UserOption → Bool}
    (h : Indexer.Mirrors pool p (db.optionsOf pool))
    (hW : ∀ row ∈ db.optionsOf pool, W (IndexerService.mapOptionRow row) = true →
      row.writer = toLowerCase wallet ∨ row.buyer = some (toLowerCase wallet)) :
    (((db.getOptionsByUser wallet).map IndexerService.mapOptionRow).filter W).filter
        (fun o => o.poolAddress = some pool)
      = ((List.range p.nextId).map fun i => shown pool (p.options.get i)).filter W := by
  have hown : (db.options.filter fun o => o.writer = toLowerCase wallet ∨
        o.buyer = some (toLowerCase wallet)).filter
          (fun row => decide (row.poolAddress = pool) && W (IndexerService.mapOptionRow row))
      = (db.optionsOf pool).filter fun row => W (IndexerService.mapOptionRow row) := by
    rw [Database.optionsOf, List.filter_filter, List.filter_filter]
    refine List.filter_congr fun row hrow => ?_
    rw [Bool.eq_iff_iff]
    simp only [Bool.and_eq_true, decide_eq_true_eq]
    constructor
    · rintro ⟨⟨hpool, hw⟩, -⟩
      exact ⟨hw, hpool⟩
    · rintro ⟨hw, hpool⟩
      exact ⟨⟨hpool, hw⟩, hW row (List.mem_filter.mpr ⟨hrow, by simpa using hpool⟩) hw⟩
  have hsorted : ((db.optionsOf pool).filter fun row =>
      W (IndexerService.mapOptionRow row)).Pairwise fun a b =>
        toLex (a.poolAddress, a.optionId) ≤ toLex (b.poolAddress, b.optionId) := by
    refine List.Pairwise.filter _ ?_
    refine h.pairwise.imp_of_mem fun {a b} ha hb hle => ?_
    have hpool : ∀ row ∈ db.optionsOf pool, row.poolAddress = pool := by
      simp [Database.optionsOf]
    rw [Prod.Lex.toLex_le_toLex, hpool a ha, hpool b hb]
    exact .inr ⟨rfl, hle⟩
  rw [List.filter_filter, List.filter_map, ← map_mapOptionRow h, List.filter_map]
  have hpred : (fun o : UserOption => decide (o.poolAddress = some pool) && W o) ∘
      IndexerService.mapOptionRow
      = fun row => decide (row.poolAddress = pool) && W (IndexerService.mapOptionRow row) := by
    funext row
    simp [IndexerService.mapOptionRow]
  rw [hpred, Database.getOptionsByUser, Database.byPool, Indexer.filter_insertionSort, hown]
  · rfl
  · rw [hown]
    exact hsorted

lemma getAllOptions_still {σ : Type} {env : Env} {w : World σ} (h : w.pool.Typed) :
    PoolService.getAllOptions env (fun _ => w)
      = .ok ((List.range w.pool.nextId).map fun i => PoolService.optionData (w.option i)) := by
  obtain ⟨m, found, hall, hfound, henough⟩ :=
    @PoolService.getAllOptions_contiguous σ env (fun _ => w) fun _ => h
  have hle := henough fun _ => le_rfl
  have hm : m = w.pool.nextId := by
    refine le_antisymm (not_lt.mp fun hlt => ?_) hle
    exact absurd (hfound w.pool.nextId hlt) (lt_irrefl _)
  rw [hall, hm]

lemma toLowerCase_hexString (bytes : List UInt8) :
    toLowerCase (hexString bytes) = hexString bytes := by
  have hdigit : ∀ n < 16, (Nat.digitChar n).toLower = Nat.digitChar n := by decide
  have hbyte : ∀ b, (Indexer.hexByte b).map Char.toLower = Indexer.hexByte b := by
    intro b
    have hhigh : b.toNat / 16 < 16 := Nat.div_lt_of_lt_mul b.toNat_lt
    simp [Indexer.hexByte, hdigit _ hhigh, hdigit _ (Nat.mod_lt b.toNat (by decide : 0 < 16))]
  rw [toLowerCase, hexString, String.toList_ofList, List.map_cons, List.map_cons, List.map_flatMap]
  simp only [hbyte]
  rfl

/-- All options of a pool, as the indexer shows them. -/
def shownAll (pool : String) (p : PoolStorage) : List UserOption :=
  (List.range p.nextId).map fun i => shown pool (p.options.get i)

/-- What the API is asked for on one page. -/
def requestPage (indexer : Option D1Database) (pool : String) (limit page : ℕ) :
    Option (List UserOption) :=
  IndexerService.getOptionsByPool indexer pool none (some page) (some limit)

/-- A page of a pool whose rows mirror it. -/
lemma requestPage_eq (h : Indexer.Mirrors pool p (db.optionsOf pool)) (hpool : PathText pool)
    {limit page : ℕ} (hlimit : limit < 2 ^ 53) (hoffset : page * min 200 (max 1 limit) < 2 ^ 53) :
    requestPage (some db) pool limit page
      = some (((shownAll pool p).drop (page * min 200 (max 1 limit))).take
          (min 200 (max 1 limit))) := by
  have hpos : 0 < min 200 (max 1 limit) :=
    lt_min (by decide) (lt_max_of_lt_left one_pos)
  have hpage : page < 2 ^ 53 := (Nat.le_mul_of_pos_right page hpos).trans_lt hoffset
  rw [requestPage, getOptionsByPool_eq hpool hpage hlimit hoffset, Database.getOptionsByPool]
  simp only [h.byOptionId, List.map_take, List.map_drop, map_mapOptionRow h]
  rfl

/-- The pages put together are the options in the order of the ids, none of them left out before
the end and none twice. -/
lemma pages_eq (h : Indexer.Mirrors pool p (db.optionsOf pool)) (hpool : PathText pool)
    {limit k : ℕ} (hlimit : limit < 2 ^ 53) (hk : k * min 200 (max 1 limit) < 2 ^ 53) :
    (∀ page < k, (requestPage (some db) pool limit page).isSome) ∧
      ((List.range k).flatMap fun page => (requestPage (some db) pool limit page).getD [])
        = (shownAll pool p).take (k * min 200 (max 1 limit)) := by
  have hpage : ∀ page < k, requestPage (some db) pool limit page
      = some (((shownAll pool p).drop (page * min 200 (max 1 limit))).take
          (min 200 (max 1 limit))) :=
    fun page hlt => requestPage_eq h hpool hlimit
      ((Nat.mul_le_mul_right _ hlt.le).trans_lt hk)
  refine ⟨fun page hlt => ?_, ?_⟩
  · rw [hpage page hlt]
    rfl
  · rw [← Pages.flatMap_pages]
    refine List.flatMap_congr fun page hmem => ?_
    rw [hpage page (List.mem_range.mp hmem)]
    rfl

/-! ### The two sources -/

/-- What the chain shows of an option. -/
def chainShown (o : OptionRecord) : UserOption :=
  { PoolService.optionData o with poolAddress := none }

/-- The options of a pool that a user wrote, and those that the user holds. -/
def writtenBy (p : PoolStorage) (user : Address) : List ℕ :=
  (List.range p.nextId).filter fun i => (p.options.get i).writer = user

def heldBy (p : PoolStorage) (user : Address) : List ℕ :=
  (List.range p.nextId).filter fun i =>
    (p.options.get i).buyer = user ∧ (p.options.get i).buyer ≠ Address.zero

lemma hexString_eq_iff {a b : Address} : hexString a.val = hexString b.val ↔ a = b :=
  ⟨fun h => Subtype.ext (PoolService.hexString_injective h), fun h => h ▸ rfl⟩

lemma hexString_zero : hexString Address.zero.val = ZERO_HEX := by decide

/-- A text of the writer or of the buyer of an option is that of a user when the account is. -/
lemma writer_eq_iff {user : Address} :
    toLowerCase (shown pool o).writer = toLowerCase (hexString user.val) ↔ o.writer = user := by
  show toLowerCase (hexString o.writer.val) = _ ↔ _
  rw [toLowerCase_hexString, toLowerCase_hexString, hexString_eq_iff]

lemma buyer_eq_iff {user : Address} :
    ((shown pool o).buyer ≠ "" ∧ toLowerCase (shown pool o).buyer
      = toLowerCase (hexString user.val)) ↔ o.buyer = user ∧ o.buyer ≠ Address.zero := by
  have hbuyer : (shown pool o).buyer = (Indexer.buyerColumn o.buyer).getD "" := rfl
  by_cases hzero : o.buyer = Address.zero
  · simp [hbuyer, Indexer.buyerColumn, hzero]
  · rw [hbuyer, Indexer.buyerColumn_of_ne hzero, Option.getD_some, toLowerCase_hexString,
      toLowerCase_hexString, hexString_eq_iff]
    simp [(pathText_hexString o.buyer.val).ne, hzero]

/-- The indexer shows a user the options written and held in a pool, among those of other pools. -/
lemma loadUserOptions_indexer (h : Indexer.Mirrors pool p (db.optionsOf pool)) (user : Address)
    (chain : Option (Except Revert (List OptionData))) :
    ∃ r, loadUserOptions (hexString user.val) (some db) chain = .ok r ∧ r.source = .indexer ∧
      r.writtenOptions.filter (fun o => o.poolAddress = some pool)
        = (writtenBy p user).map (fun i => shown pool (p.options.get i)) ∧
      r.purchasedOptions.filter (fun o => o.poolAddress = some pool)
        = (heldBy p user).map fun i => shown pool (p.options.get i) := by
  have hrow : ∀ row ∈ db.optionsOf pool, ∃ i, row.Shows pool p.gracePeriod (p.options.get i) := by
    intro row hmem
    obtain ⟨i, hi⟩ := List.mem_iff_getElem?.mp hmem
    exact ⟨i, h.shows i row hi⟩
  simp only [loadUserOptions, getOptionsByUser_eq (pathText_hexString _)]
  refine ⟨_, rfl, rfl, ?_, ?_⟩
  · rw [filter_getOptionsByUser h, List.filter_map, writtenBy]
    · refine congrArg (List.map _) (List.filter_congr fun i _ => ?_)
      rw [Function.comp_apply, decide_eq_decide]
      exact writer_eq_iff
    · intro row hmem hw
      obtain ⟨i, hshows⟩ := hrow row hmem
      rw [mapOptionRow_of_shows hshows, decide_eq_true_iff, writer_eq_iff] at hw
      left
      rw [hshows.writer, hw, toLowerCase_hexString]
  · rw [filter_getOptionsByUser h, List.filter_map, heldBy]
    · refine congrArg (List.map _) (List.filter_congr fun i _ => ?_)
      rw [Function.comp_apply, decide_eq_decide]
      exact buyer_eq_iff
    · intro row hmem hw
      obtain ⟨i, hshows⟩ := hrow row hmem
      rw [mapOptionRow_of_shows hshows, decide_eq_true_iff, buyer_eq_iff] at hw
      right
      rw [hshows.buyer, Indexer.buyerColumn_of_ne hw.2, hw.1, toLowerCase_hexString]

/-- The chain shows a user the same options of the pool. -/
lemma loadUserOptions_chain {σ : Type} {env : Env} {w : World σ} (h : w.pool.Typed)
    (user : Address) :
    ∃ r, loadUserOptions (hexString user.val) none
        (some (PoolService.getAllOptions env fun _ => w)) = .ok r ∧ r.source = .chain ∧
      r.writtenOptions = (writtenBy w.pool user).map (fun i => chainShown (w.option i)) ∧
      r.purchasedOptions = (heldBy w.pool user).map fun i => chainShown (w.option i) := by
  have hnone : IndexerService.getOptionsByUser none (hexString user.val) = none := rfl
  have hall : ((List.range w.pool.nextId).map fun i => PoolService.optionData (w.option i)).map
      (fun o => ({ o with poolAddress := none } : UserOption))
      = (List.range w.pool.nextId).map fun i => chainShown (w.option i) := by
    rw [List.map_map]
    rfl
  simp only [loadUserOptions, hnone, getAllOptions_still h, hall]
  refine ⟨_, rfl, rfl, ?_, ?_⟩
  · dsimp only
    rw [List.filter_map, writtenBy]
    refine congrArg (List.map _) (List.filter_congr fun i _ => ?_)
    rw [Function.comp_apply, decide_eq_decide]
    exact @writer_eq_iff "" _ _
  · dsimp only
    rw [List.filter_map, heldBy]
    refine congrArg (List.map _) (List.filter_congr fun i _ => ?_)
    rw [Function.comp_apply, decide_eq_decide]
    show hexString (w.option i).buyer.val ≠ ZERO_HEX ∧
      toLowerCase (hexString (w.option i).buyer.val) = toLowerCase (hexString user.val) ↔ _
    rw [← hexString_zero, ne_eq, hexString_eq_iff, toLowerCase_hexString, toLowerCase_hexString,
      hexString_eq_iff, and_comm]

end

end Frogop.Frontend
