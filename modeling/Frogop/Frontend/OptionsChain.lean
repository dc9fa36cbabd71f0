import Frogop.Frontend.PoolService
import Frogop.Lib.Grouping
import Mathlib

/-!
# The options chain

`buildChain` arranges the open options of a pool in tables: one over all of them, and one for each
span of time to expiry. The options of a table are collected under texts made of strike and type;
the strikes of the smaller tables are read back from these texts.
-/

namespace Frogop.Frontend.OptionsChain

open Grouping

/-- `OptionType.CALL` -/
def CALL : ℕ := 0

/-- `OptionType.PUT` -/
def PUT : ℕ := 1

/-- `OptionStatus.OPEN` -/
def OPEN : ℕ := 0

/-- `'lt1d'`, `'1to7d'`, `'7to30d'` and `'30dplus'`. -/
inductive ExpiryBucket
  | lt1d
  | d1to7
  | d7to30
  | d30plus
  deriving DecidableEq, Repr

/-- `ExpiryBucket | 'all'` -/
inductive BucketKey
  | all
  | bucket (bucket : ExpiryBucket)
  deriving DecidableEq, Repr

structure ChainCell where
  bestPremium : ℤ
  depth : ℕ
  totalAmount : ℤ
  options : List OptionData
  deriving DecidableEq, Repr

structure ChainRow where
  strikePrice : ℤ
  call : Option ChainCell
  put : Option ChainCell
  deriving DecidableEq, Repr

structure ChainData where
  buckets : List (BucketKey × List ChainRow)
  activeBuckets : List BucketKey
  deriving DecidableEq, Repr

/-- `BUCKET_THRESHOLDS` -/
def bucketThresholds : List (ℤ × ExpiryBucket) := [(144, .lt1d), (1008, .d1to7), (4320, .d7to30)]

def bucketOrder : List ExpiryBucket := [.lt1d, .d1to7, .d7to30, .d30plus]

def classifyBucket (blocksLeft : ℤ) : ExpiryBucket :=
  match bucketThresholds.find? fun threshold => blocksLeft < threshold.1 with
  | some (_, bucket) => bucket
  | none => .d30plus

/-- `${strikePrice}_${optionType}` -/
def chainKey (strikePrice : ℤ) (optionType : ℕ) : String :=
  toString strikePrice ++ "_" ++ toString optionType

/-- `key.split('_')[0]` -/
def keyHead (key : String) : String := String.ofList (key.toList.takeWhile fun c => c ≠ '_')

/-- `BigInt(text)` of a decimal text; it throws where there is none. -/
def bigInt (text : String) : Option ℤ := text.toInt?

/-! ### Cells and rows -/

/-- The sort by `premium`. -/
def sortByPremium (options : List OptionData) : List OptionData :=
  options.insertionSort fun a b => a.premium ≤ b.premium

lemma sortByPremium_ne_nil {options : List OptionData} (h : 0 < options.length) :
    sortByPremium options ≠ [] := by
  rw [← List.length_pos_iff, sortByPremium, List.length_insertionSort]
  exact h

/-- The body of the loop in `buildCell`. -/
def addToCell (acc : ℤ × ℤ) (opt : OptionData) : ℤ × ℤ :=
  (acc.1 + opt.underlyingAmount, if opt.premium < acc.2 then opt.premium else acc.2)

/-- `buildCell`, for at least one option: `sorted[0]` is there. -/
def buildCell (options : List OptionData) (h : 0 < options.length) : ChainCell :=
  let sorted := sortByPremium options
  let first := sorted.head (sortByPremium_ne_nil h)
  let (totalAmount, bestPremium) := sorted.foldl addToCell (0, first.premium)
  { bestPremium := bestPremium
    depth := sorted.length
    totalAmount := totalAmount
    options := sorted }

/-- `opts && opts.length > 0 ? buildCell(opts) : null` -/
def cell? (opts : Option (List OptionData)) : Option ChainCell :=
  match opts with
  | none => none
  | some opts => if h : 0 < opts.length then some (buildCell opts h) else none

def buildRows (grouped : List (String × List OptionData)) (strikes : List ℤ) : List ChainRow :=
  strikes.map fun strikePrice =>
    { strikePrice := strikePrice
      call := cell? (get grouped (chainKey strikePrice CALL))
      put := cell? (get grouped (chainKey strikePrice PUT)) }

/-! ### The chain -/

/-- What the loop over the open options fills. -/
structure Groups where
  bucketGroups : List (ExpiryBucket × List (String × List OptionData))
  allGroup : List (String × List OptionData)
  allStrikes : List ℤ
  activeBucketSet : List ExpiryBucket

namespace Groups

def empty : Groups := ⟨[], [], [], []⟩

/-- The body of the loop. -/
def push (currentBlock : Option ℤ) (g : Groups) (opt : OptionData) : Groups :=
  let key := chainKey opt.strikePrice opt.optionType
  let g :=
    { g with
      allStrikes := add g.allStrikes opt.strikePrice
      allGroup := update [] g.allGroup key (· ++ [opt]) }
  match currentBlock with
  | none => g
  | some currentBlock =>
    let blocksLeft := opt.expiryBlock - currentBlock
    let bucket := classifyBucket blocksLeft
    { g with
      activeBucketSet := add g.activeBucketSet bucket
      bucketGroups := update [] g.bucketGroups bucket fun bucketMap =>
        update [] bucketMap key (· ++ [opt]) }

end Groups

/-- `[...strikes].sort(..)` -/
def sortStrikes (strikes : List ℤ) : List ℤ := strikes.insertionSort (· ≤ ·)

/-- The strikes that are read back from the keys of a bucket. -/
def bucketStrikes (grouped : List (String × List OptionData)) : Option (List ℤ) :=
  (grouped.map Prod.fst).foldlM (fun strikes key => do
    let strike ← bigInt (keyHead key)
    return add strikes strike) []

/-- `none` where `BigInt` throws. -/
def buildChain (options : List OptionData) (currentBlock : Option ℤ) : Option ChainData :=
  let open_ := options.filter fun o => o.status = OPEN
  if open_ = [] then some ⟨[(.all, [])], [.all]⟩
  else do
    let groups := open_.foldl (Groups.push currentBlock) .empty
    let sortedStrikes := sortStrikes groups.allStrikes
    let buckets := [(BucketKey.all, buildRows groups.allGroup sortedStrikes)]
    let buckets ← groups.bucketGroups.foldlM (fun buckets (bucket, grouped) => do
      let strikes ← bucketStrikes grouped
      return set buckets (.bucket bucket) (buildRows grouped (sortStrikes strikes))) buckets
    let activeBuckets := (bucketOrder.filter (· ∈ groups.activeBucketSet)).map BucketKey.bucket
    return ⟨buckets, .all :: activeBuckets⟩

/-! ### What a chain says of options -/

/-- The options of a cell. -/
structure ChainCell.SumsUp (members : List OptionData) (c : ChainCell) : Prop where
  options : c.options.Perm members
  sorted : c.options.Pairwise fun a b => a.premium ≤ b.premium
  depth : c.depth = members.length
  totalAmount : c.totalAmount = (members.map OptionData.underlyingAmount).sum
  bestPremium : IsLeast {p | ∃ o ∈ members, o.premium = p} c.bestPremium

/-- There is a cell where there are options. -/
structure CellOf (members : List OptionData) (cell : Option ChainCell) : Prop where
  null_iff : cell = none ↔ members = []
  sumsUp : ∀ c, cell = some c → c.SumsUp members

/-- The options of one strike and type. -/
def ofCell (members : List OptionData) (strikePrice : ℤ) (optionType : ℕ) : List OptionData :=
  members.filter fun o => o.strikePrice = strikePrice ∧ o.optionType = optionType

def cellOptions (cell : Option ChainCell) : List OptionData :=
  match cell with
  | none => []
  | some c => c.options

def ChainRow.options (row : ChainRow) : List OptionData :=
  cellOptions row.call ++ cellOptions row.put

/-- The rows of a table: one for each strike, in increasing order, with the options of that strike
in the cells of their types. -/
structure RowsOf (members : List OptionData) (rows : List ChainRow) : Prop where
  increasing : rows.Pairwise fun r r' => r.strikePrice < r'.strikePrice
  strikes : ∀ strikePrice, strikePrice ∈ rows.map ChainRow.strikePrice ↔
    ∃ o ∈ members, o.strikePrice = strikePrice
  call : ∀ row ∈ rows, CellOf (ofCell members row.strikePrice CALL) row.call
  put : ∀ row ∈ rows, CellOf (ofCell members row.strikePrice PUT) row.put
  options : (rows.flatMap ChainRow.options).Perm
    (members.filter fun o => o.optionType = CALL ∨ o.optionType = PUT)

/-- There is a table where there are options. -/
structure TableOf (members : List OptionData) (table : Option (List ChainRow)) : Prop where
  none_iff : table = none ↔ members = []
  rowsOf : ∀ rows, table = some rows → RowsOf members rows

/-- The options in the rows of a table, if it is there. -/
def tableOptions (rows : Option (List ChainRow)) : List OptionData :=
  (rows.getD []).flatMap ChainRow.options

section

variable {members options : List OptionData} {strikes : List ℤ} {strikePrice strikePrice' : ℤ}
  {optionType optionType' : ℕ} {grouped : List (String × List OptionData)}
  {currentBlock : Option ℤ}

/-! ### Keys -/

lemma underscore_notMem_repr (n : ℕ) : '_' ∉ n.repr.toList := by
  intro hmem
  rw [Nat.toList_repr] at hmem
  have hdigit := Nat.isDigit_of_mem_toDigits (by decide) (by decide) hmem
  revert hdigit
  decide

/-- A strike is written without underscores. -/
lemma underscore_notMem (z : ℤ) : '_' ∉ (toString z).toList := by
  rw [Int.toString_eq_repr, Int.repr_eq_if]
  split_ifs
  · exact underscore_notMem_repr _
  · have hsign : '_' ∉ ("-" : String).toList := by decide
    rw [String.toList_append, List.mem_append, not_or]
    exact ⟨hsign, underscore_notMem_repr _⟩

lemma toList_chainKey : (chainKey strikePrice optionType).toList
    = (toString strikePrice).toList ++ '_' :: (toString optionType).toList := by
  simp [chainKey]

/-- The strike of a key can be read back. -/
lemma keyHead_chainKey : keyHead (chainKey strikePrice optionType) = toString strikePrice := by
  have htake : (chainKey strikePrice optionType).toList.takeWhile (fun c => c ≠ '_')
      = (toString strikePrice).toList := by
    rw [toList_chainKey, List.takeWhile_append_of_pos]
    · simp
    · intro c hc
      have hne : c ≠ '_' := fun heq => underscore_notMem strikePrice (heq ▸ hc)
      simpa using hne
  rw [keyHead, htake, String.ofList_toList]

lemma bigInt_keyHead : bigInt (keyHead (chainKey strikePrice optionType)) = some strikePrice := by
  rw [keyHead_chainKey, bigInt, Int.toString_eq_repr, Int.toInt?_repr]

/-- A key belongs to one strike and one type. -/
lemma chainKey_inj :
    chainKey strikePrice optionType = chainKey strikePrice' optionType' ↔
      strikePrice = strikePrice' ∧ optionType = optionType' := by
  refine ⟨fun h => ?_, fun ⟨hstrike, htype⟩ => by rw [hstrike, htype]⟩
  have hstrike : strikePrice = strikePrice' := by
    have hread : bigInt (keyHead (chainKey strikePrice optionType)) = some strikePrice' := by
      rw [h]
      exact bigInt_keyHead
    rw [bigInt_keyHead] at hread
    exact Option.some.inj hread
  subst hstrike
  have htexts := congrArg String.toList h
  rw [toList_chainKey, toList_chainKey, List.append_cancel_left_eq, List.cons.injEq] at htexts
  exact ⟨rfl, Nat.repr_inj.mp (String.toList_inj.mp htexts.2)⟩

/-- The key an option is grouped under. -/
def keyOf (o : OptionData) : String := chainKey o.strikePrice o.optionType

lemma filter_keyOf : members.filter (fun o => keyOf o = chainKey strikePrice optionType)
    = ofCell members strikePrice optionType := by
  refine List.filter_congr fun o _ => ?_
  simp only [keyOf, chainKey_inj]

/-! ### Cells -/

/-- No later premium is below the first. -/
lemma foldl_addToCell {l : List OptionData} {total best : ℤ} (h : ∀ o ∈ l, best ≤ o.premium) :
    l.foldl addToCell (total, best) = (total + (l.map OptionData.underlyingAmount).sum, best) := by
  induction l generalizing total with
  | nil => simp
  | cons o l ih =>
    have hstep : addToCell (total, best) o = (total + o.underlyingAmount, best) := by
      rw [addToCell, if_neg (not_lt.mpr (h o List.mem_cons_self))]
    rw [List.foldl_cons, hstep, ih fun o' ho' => h o' (List.mem_cons_of_mem _ ho'), List.map_cons,
      List.sum_cons, add_assoc]

lemma buildCell_sumsUp (h : 0 < members.length) : (buildCell members h).SumsUp members := by
  have hperm : (sortByPremium members).Perm members := List.perm_insertionSort _ _
  have hsorted : (sortByPremium members).Pairwise fun a b => a.premium ≤ b.premium :=
    List.pairwise_insertionSort _ _
  have hne := sortByPremium_ne_nil h
  have hleast : ∀ o ∈ sortByPremium members, ((sortByPremium members).head hne).premium
      ≤ o.premium := fun o ho => hsorted.rel_head ho
  have hloop : (sortByPremium members).foldl addToCell (0, _) = _ := foldl_addToCell hleast
  refine ⟨hperm, hsorted, hperm.length_eq, ?_, ?_⟩
  · simp only [buildCell, hloop, zero_add]
    exact (hperm.map _).sum_eq
  · simp only [buildCell, hloop]
    refine ⟨⟨_, hperm.mem_iff.mp (List.head_mem hne), rfl⟩, ?_⟩
    rintro p ⟨o, ho, rfl⟩
    exact hleast o (hperm.mem_iff.mpr ho)

lemma cell?_cellOf : CellOf members (cell? (if members = [] then none else some members)) := by
  by_cases hnil : members = []
  · rw [if_pos hnil]
    exact ⟨iff_of_true rfl hnil, fun c hc => by cases hc⟩
  · have hpos := List.length_pos_iff.mpr hnil
    rw [if_neg hnil, cell?, dif_pos hpos]
    refine ⟨by simp [hnil], fun c hc => ?_⟩
    cases hc
    exact buildCell_sumsUp hpos

lemma CellOf.options_perm {cell : Option ChainCell} (h : CellOf members cell) :
    (cellOptions cell).Perm members := by
  cases hcell : cell with
  | none =>
    rw [h.null_iff.mp hcell]
    exact .refl _
  | some c => exact (h.sumsUp c hcell).options

/-! ### Rows -/

/-- The cells of the two types hold the options of both. -/
lemma ofCell_append_perm (members : List OptionData) (strikePrice : ℤ) :
    (ofCell members strikePrice CALL ++ ofCell members strikePrice PUT).Perm
      ((members.filter fun o => o.optionType = CALL ∨ o.optionType = PUT).filter fun o =>
        o.strikePrice = strikePrice) := by
  have hcall : ofCell members strikePrice CALL
      = ((members.filter fun o => o.optionType = CALL ∨ o.optionType = PUT).filter fun o =>
        o.strikePrice = strikePrice).filter fun o => o.optionType = CALL := by
    rw [List.filter_filter, List.filter_filter, ofCell]
    refine List.filter_congr fun o _ => ?_
    by_cases htype : o.optionType = CALL <;> simp [htype]
  have hput : ofCell members strikePrice PUT
      = ((members.filter fun o => o.optionType = CALL ∨ o.optionType = PUT).filter fun o =>
        o.strikePrice = strikePrice).filter fun o => ¬ o.optionType = CALL := by
    rw [List.filter_filter, List.filter_filter, ofCell]
    refine List.filter_congr fun o _ => ?_
    have hne : PUT ≠ CALL := by decide
    by_cases htype : o.optionType = PUT
    · simp [htype, hne]
    · by_cases htype' : o.optionType = CALL <;> simp [htype, htype', hne.symm]
  rw [hcall, hput]
  simpa only [decide_not] using
    List.filter_append_perm (fun o : OptionData => decide (o.optionType = CALL)) _

/-- Rows over the groups of some options. -/
lemma rowsOf_buildRows (hstrikes : strikes.Nodup)
    (hmem : ∀ strikePrice, strikePrice ∈ strikes ↔ ∃ o ∈ members, o.strikePrice = strikePrice) :
    RowsOf members (buildRows (groupBy keyOf members) (sortStrikes strikes)) := by
  have hperm : (sortStrikes strikes).Perm strikes := List.perm_insertionSort _ _
  have hnodup : (sortStrikes strikes).Nodup := hperm.nodup_iff.mpr hstrikes
  have hget : ∀ strikePrice optionType,
      cell? (get (groupBy keyOf members) (chainKey strikePrice optionType))
        = cell? (if ofCell members strikePrice optionType = [] then none
          else some (ofCell members strikePrice optionType)) := by
    intro strikePrice optionType
    rw [get_groupBy, filter_keyOf]
  have hcell : ∀ strikePrice optionType, CellOf (ofCell members strikePrice optionType)
      (cell? (get (groupBy keyOf members) (chainKey strikePrice optionType))) := by
    intro strikePrice optionType
    rw [hget]
    exact cell?_cellOf
  refine ⟨?_, ?_, ?_, ?_, ?_⟩
  · rw [buildRows, List.pairwise_map]
    have hle : (sortStrikes strikes).Pairwise (· ≤ ·) := List.pairwise_insertionSort _ _
    exact (hle.and hnodup).imp fun ⟨hle, hne⟩ => lt_of_le_of_ne hle hne
  · intro strikePrice
    rw [buildRows, List.map_map, ← hmem, ← hperm.mem_iff]
    simp
  · intro row hrow
    obtain ⟨strikePrice, -, rfl⟩ := List.mem_map.mp hrow
    exact hcell strikePrice CALL
  · intro row hrow
    obtain ⟨strikePrice, -, rfl⟩ := List.mem_map.mp hrow
    exact hcell strikePrice PUT
  · have hall : ((sortStrikes strikes).flatMap fun strikePrice =>
        (members.filter fun o => o.optionType = CALL ∨ o.optionType = PUT).filter fun o =>
          o.strikePrice = strikePrice).Perm
        (members.filter fun o => o.optionType = CALL ∨ o.optionType = PUT) := by
      refine flatMap_filter_perm hnodup fun o ho => ?_
      exact hperm.mem_iff.mpr ((hmem _).mpr ⟨o, (List.mem_filter.mp ho).1, rfl⟩)
    rw [buildRows, List.flatMap_map]
    refine (List.Perm.flatMap_left _ fun strikePrice _ => ?_).trans hall
    exact ((hcell strikePrice CALL).options_perm.append
      (hcell strikePrice PUT).options_perm).trans (ofCell_append_perm members strikePrice)

/-! ### Tables -/

lemma TableOf.exists_iff {table : Option (List ChainRow)} (h : TableOf members table) :
    (∃ rows, table = some rows) ↔ members ≠ [] := by
  rw [← Option.ne_none_iff_exists']
  exact not_congr h.none_iff

lemma TableOf.options_perm {table : Option (List ChainRow)} (h : TableOf members table) :
    (tableOptions table).Perm
      (members.filter fun o => o.optionType = CALL ∨ o.optionType = PUT) := by
  cases htable : table with
  | none =>
    rw [h.none_iff.mp htable]
    exact .refl _
  | some rows => exact (h.rowsOf rows htable).options

/-! ### The loop -/

/-- The bucket an option is shown in; there is none before the block is known. -/
def bucketOf (currentBlock : Option ℤ) (o : OptionData) : Option ExpiryBucket :=
  currentBlock.map fun currentBlock => classifyBucket (o.expiryBlock - currentBlock)

lemma push_all (currentBlock : Option ℤ) (g : Groups) (o : OptionData) :
    (g.push currentBlock o).allGroup = update [] g.allGroup (keyOf o) (· ++ [o]) ∧
      (g.push currentBlock o).allStrikes = add g.allStrikes o.strikePrice := by
  cases currentBlock with
  | none => exact ⟨rfl, rfl⟩
  | some block => exact ⟨rfl, rfl⟩

lemma foldl_push_all (currentBlock : Option ℤ) (l : List OptionData) (g : Groups) :
    (l.foldl (Groups.push currentBlock) g).allGroup
        = l.foldl (fun m o => update [] m (keyOf o) (· ++ [o])) g.allGroup ∧
      (l.foldl (Groups.push currentBlock) g).allStrikes
        = l.foldl (fun s o => add s o.strikePrice) g.allStrikes := by
  induction l generalizing g with
  | nil => exact ⟨rfl, rfl⟩
  | cons o l ih =>
    obtain ⟨hgroup, hstrikes⟩ := push_all currentBlock g o
    simp only [List.foldl_cons, ih, hgroup, hstrikes, and_self]

lemma foldl_push_none (l : List OptionData) (g : Groups) :
    (l.foldl (Groups.push none) g).bucketGroups = g.bucketGroups ∧
      (l.foldl (Groups.push none) g).activeBucketSet = g.activeBucketSet := by
  induction l generalizing g with
  | nil => exact ⟨rfl, rfl⟩
  | cons o l ih => exact ih _

lemma foldl_push_some (block : ℤ) (l : List OptionData) (g : Groups) :
    (l.foldl (Groups.push (some block)) g).bucketGroups
        = l.foldl (fun m o => update [] m (classifyBucket (o.expiryBlock - block)) fun bucketMap =>
          update [] bucketMap (keyOf o) (· ++ [o])) g.bucketGroups ∧
      (l.foldl (Groups.push (some block)) g).activeBucketSet
        = l.foldl (fun s o => add s (classifyBucket (o.expiryBlock - block)))
          g.activeBucketSet := by
  induction l generalizing g with
  | nil => exact ⟨rfl, rfl⟩
  | cons o l ih => exact ih _

/-- What the loop over some options leaves. -/
structure GroupsOf (currentBlock : Option ℤ) (members : List OptionData) (g : Groups) : Prop where
  allGroup : g.allGroup = groupBy keyOf members
  nodup_strikes : g.allStrikes.Nodup
  allStrikes : ∀ strikePrice, strikePrice ∈ g.allStrikes ↔
    ∃ o ∈ members, o.strikePrice = strikePrice
  nodup_buckets : (g.bucketGroups.map Prod.fst).Nodup
  bucketGroups : ∀ bucket, get g.bucketGroups bucket
    = if members.filter (fun o => bucketOf currentBlock o = some bucket) = [] then none
      else some (groupBy keyOf (members.filter fun o => bucketOf currentBlock o = some bucket))
  activeBucketSet : ∀ bucket, bucket ∈ g.activeBucketSet ↔
    ∃ o ∈ members, bucketOf currentBlock o = some bucket

lemma groupsOf_foldl (currentBlock : Option ℤ) (members : List OptionData) :
    GroupsOf currentBlock members (members.foldl (Groups.push currentBlock) .empty) := by
  obtain ⟨hgroup, hstrikes⟩ := foldl_push_all currentBlock members .empty
  refine ⟨hgroup, ?_, ?_, ?_, ?_, ?_⟩
  · rw [hstrikes]
    exact nodup_foldl_add List.nodup_nil
  · intro strikePrice
    rw [hstrikes, mem_foldl_add]
    simp [Groups.empty]
  · cases currentBlock with
    | none =>
      rw [(foldl_push_none members .empty).1]
      exact List.nodup_nil
    | some block =>
      rw [(foldl_push_some block members .empty).1, keys_foldl_update]
      exact nodup_foldl_add List.nodup_nil
  · intro bucket
    cases currentBlock with
    | none =>
      rw [(foldl_push_none members .empty).1]
      simp [Groups.empty, bucketOf]
    | some block =>
      rw [(foldl_push_some block members .empty).1, get_foldl_update]
      simp only [bucketOf, Option.map_some, Option.some.injEq, Groups.empty, get_nil,
        Option.getD_none, groupBy]
  · intro bucket
    cases currentBlock with
    | none =>
      rw [(foldl_push_none members .empty).2]
      simp [Groups.empty, bucketOf]
    | some block =>
      rw [(foldl_push_some block members .empty).2, mem_foldl_add]
      simp [Groups.empty, bucketOf]

/-! ### The chain -/

/-- The strikes of a bucket are those of its options. -/
lemma bucketStrikes_groupBy (members : List OptionData) :
    ∃ strikes, bucketStrikes (groupBy keyOf members) = some strikes ∧ strikes.Nodup ∧
      ∀ strikePrice, strikePrice ∈ strikes ↔ ∃ o ∈ members, o.strikePrice = strikePrice := by
  let strikeOf (key : String) : ℤ := (bigInt (keyHead key)).getD 0
  have hread : ∀ o, bigInt (keyHead (keyOf o)) = some o.strikePrice := fun o => bigInt_keyHead
  have hstrikeOf : ∀ o, strikeOf (keyOf o) = o.strikePrice := by
    intro o
    simp only [strikeOf, hread, Option.getD_some]
  refine ⟨((groupBy keyOf members).map Prod.fst).foldl (fun s key => add s (strikeOf key)) [],
    foldlM_eq_some fun s key hkey => ?_, nodup_foldl_add List.nodup_nil, fun strikePrice => ?_⟩
  · obtain ⟨o, -, rfl⟩ := mem_keys_groupBy.mp hkey
    simp [hread, hstrikeOf]
  · rw [mem_foldl_add]
    constructor
    · rintro (hnil | ⟨key, hkey, hstrike⟩)
      · cases hnil
      · obtain ⟨o, ho, rfl⟩ := mem_keys_groupBy.mp hkey
        exact ⟨o, ho, (hstrikeOf o).symm.trans hstrike⟩
    · rintro ⟨o, ho, rfl⟩
      exact .inr ⟨keyOf o, mem_keys_groupBy.mpr ⟨o, ho, rfl⟩, hstrikeOf o⟩

/-- The loop over the buckets adds a table for each of them. -/
lemma buckets_of_groups {open_ : List OptionData} {g : Groups}
    (h : GroupsOf currentBlock open_ g) (allRows : List ChainRow) : ∃ buckets,
    g.bucketGroups.foldlM (fun buckets (bucket, grouped) => do
      let strikes ← bucketStrikes grouped
      return set buckets (.bucket bucket) (buildRows grouped (sortStrikes strikes)))
      [(BucketKey.all, allRows)] = some buckets ∧
    get buckets .all = some allRows ∧
    ∀ bucket, TableOf (open_.filter fun o => bucketOf currentBlock o = some bucket)
      (get buckets (.bucket bucket)) := by
  let table (grouped : List (String × List OptionData)) : List ChainRow :=
    buildRows grouped (sortStrikes ((bucketStrikes grouped).getD []))
  let tables := g.bucketGroups.map fun entry => (BucketKey.bucket entry.1, table entry.2)
  have hinj : Function.Injective BucketKey.bucket := fun b b' hb => BucketKey.bucket.inj hb
  have hkeys : (tables.map Prod.fst).Nodup := by
    rw [List.map_map, show Prod.fst ∘ (fun entry : ExpiryBucket × List (String × List OptionData) =>
      (BucketKey.bucket entry.1, table entry.2)) = BucketKey.bucket ∘ Prod.fst from rfl,
      ← List.map_map]
    exact h.nodup_buckets.map hinj
  refine ⟨tables.foldl (fun m entry => set m entry.1 entry.2) [(.all, allRows)], ?_, ?_, ?_⟩
  · rw [List.foldl_map]
    apply foldlM_eq_some
    rintro buckets ⟨bucket, grouped⟩ hmem
    have hget := get_of_mem h.nodup_buckets hmem
    rw [h.bucketGroups] at hget
    split_ifs at hget
    cases hget
    obtain ⟨strikes, hstrikes, -⟩ := bucketStrikes_groupBy
      (open_.filter fun o => bucketOf currentBlock o = some bucket)
    simp [hstrikes, table]
  · have hall : get tables .all = none := by
      by_contra hne
      obtain ⟨entry, hentry, hall⟩ := List.mem_map.mp (mem_keys_iff.mpr hne)
      obtain ⟨_, -, rfl⟩ := List.mem_map.mp hentry
      cases hall
    rw [get_foldl_set hkeys, hall]
    rfl
  · intro bucket
    have hget : get (tables.foldl (fun m entry => set m entry.1 entry.2) [(.all, allRows)])
        (.bucket bucket) = (get g.bucketGroups bucket).map table := by
      rw [get_foldl_set hkeys, get_map hinj]
      exact Option.or_none
    rw [hget, h.bucketGroups]
    split_ifs with hnil
    · exact ⟨iff_of_true rfl hnil, fun rows hrows => by cases hrows⟩
    · obtain ⟨strikes, hstrikes, hnodup, hmem⟩ := bucketStrikes_groupBy
        (open_.filter fun o => bucketOf currentBlock o = some bucket)
      refine ⟨iff_of_false (Option.some_ne_none _) hnil, fun rows hrows => ?_⟩
      rw [Option.map_some, Option.some.injEq] at hrows
      simp only [← hrows, table, hstrikes, Option.getD_some]
      exact rowsOf_buildRows hnodup hmem

/-- The options `buildChain` is about. -/
def openOptions (options : List OptionData) : List OptionData :=
  options.filter fun o => o.status = OPEN

/-- The early return for no open options is what the loops would give. -/
lemma buildChain_eq (options : List OptionData) (currentBlock : Option ℤ) :
    buildChain options currentBlock = (do
      let groups := (openOptions options).foldl (Groups.push currentBlock) .empty
      let buckets ← groups.bucketGroups.foldlM (fun buckets (bucket, grouped) => do
        let strikes ← bucketStrikes grouped
        return set buckets (.bucket bucket) (buildRows grouped (sortStrikes strikes)))
        [(BucketKey.all, buildRows groups.allGroup (sortStrikes groups.allStrikes))]
      return ⟨buckets, .all ::
        (bucketOrder.filter (· ∈ groups.activeBucketSet)).map BucketKey.bucket⟩) := by
  rw [buildChain]
  dsimp only
  split_ifs with hnil
  · rw [openOptions, hnil]
    rfl
  · rfl

lemma buildChain_spec (options : List OptionData) (currentBlock : Option ℤ) :
    ∃ chain allRows, buildChain options currentBlock = some chain ∧
      get chain.buckets .all = some allRows ∧ RowsOf (openOptions options) allRows ∧
      (∀ bucket, TableOf
        ((openOptions options).filter fun o => bucketOf currentBlock o = some bucket)
        (get chain.buckets (.bucket bucket))) ∧
      chain.activeBuckets = .all :: (bucketOrder.filter fun bucket =>
        ∃ o ∈ openOptions options, bucketOf currentBlock o = some bucket).map BucketKey.bucket := by
  have hgroups := groupsOf_foldl currentBlock (openOptions options)
  have hchain := buildChain_eq options currentBlock
  dsimp only at hchain
  generalize (openOptions options).foldl (Groups.push currentBlock) .empty = groups
    at hgroups hchain
  obtain ⟨buckets, hloop, hall, hbuckets⟩ := buckets_of_groups hgroups
    (buildRows groups.allGroup (sortStrikes groups.allStrikes))
  rw [hloop, Option.bind_eq_bind, Option.bind_some] at hchain
  refine ⟨_, _, hchain, hall, ?_, hbuckets, ?_⟩
  · rw [hgroups.allGroup]
    exact rowsOf_buildRows hgroups.nodup_strikes hgroups.allStrikes
  · simp only [hgroups.activeBucketSet]

lemma mem_bucketOrder (bucket : ExpiryBucket) : bucket ∈ bucketOrder := by
  cases bucket <;> decide

/-- The tables of the buckets hold together what one table of all options holds. -/
lemma split_perm {open_ : List OptionData} {block : ℤ}
    {tables : ExpiryBucket → Option (List ChainRow)}
    (h : ∀ bucket, TableOf (open_.filter fun o => bucketOf (some block) o = some bucket)
      (tables bucket)) :
    (bucketOrder.flatMap fun bucket => tableOptions (tables bucket)).Perm
      (open_.filter fun o => o.optionType = CALL ∨ o.optionType = PUT) := by
  have hcomm : ∀ bucket,
      (open_.filter fun o => bucketOf (some block) o = some bucket).filter (fun o =>
          o.optionType = CALL ∨ o.optionType = PUT)
        = (open_.filter fun o => o.optionType = CALL ∨ o.optionType = PUT).filter fun o =>
          classifyBucket (o.expiryBlock - block) = bucket := by
    intro bucket
    rw [List.filter_filter, List.filter_filter]
    refine List.filter_congr fun o _ => ?_
    simp only [bucketOf, Option.map_some, Option.some.injEq, Bool.and_comm]
  refine (List.Perm.flatMap_left _ fun bucket _ => (h bucket).options_perm).trans ?_
  simp only [hcomm]
  exact flatMap_filter_perm (by decide) fun o _ => mem_bucketOrder _

end

/-- The chain of any options: one table of all that are open, and one for every bucket that an open
option falls into. Every table has increasing strikes, and its cells hold the options of their
strikes and types; in all, each open CALL and PUT once. The buckets are listed in their order, and
split the same options. -/
theorem buildChain_partitions (options : List OptionData) (currentBlock : Option ℤ) :
    ∃ chain allRows, buildChain options currentBlock = some chain ∧
      get chain.buckets .all = some allRows ∧ RowsOf (openOptions options) allRows ∧
      (∀ bucket, (∃ rows, get chain.buckets (.bucket bucket) = some rows) ↔
        ∃ o ∈ openOptions options, bucketOf currentBlock o = some bucket) ∧
      (∀ bucket rows, get chain.buckets (.bucket bucket) = some rows →
        RowsOf ((openOptions options).filter fun o => bucketOf currentBlock o = some bucket) rows) ∧
      chain.activeBuckets = .all :: (bucketOrder.filter fun bucket =>
        ∃ o ∈ openOptions options, bucketOf currentBlock o = some bucket).map BucketKey.bucket ∧
      (∀ block, currentBlock = some block →
        (bucketOrder.flatMap fun bucket =>
            tableOptions (get chain.buckets (.bucket bucket))).Perm
          (allRows.flatMap ChainRow.options)) ∧
      ((∀ o ∈ openOptions options, o.optionType = CALL ∨ o.optionType = PUT) →
        (allRows.flatMap ChainRow.options).Perm (openOptions options)) := by
  obtain ⟨chain, allRows, hchain, hall, hrows, hbuckets, hactive⟩ :=
    buildChain_spec options currentBlock
  have hmem : ∀ bucket,
      (openOptions options).filter (fun o => bucketOf currentBlock o = some bucket) ≠ [] ↔
        ∃ o ∈ openOptions options, bucketOf currentBlock o = some bucket := by
    intro bucket
    simp [List.filter_eq_nil_iff]
  refine ⟨chain, allRows, hchain, hall, hrows, ?_, ?_, hactive, ?_, ?_⟩
  · intro bucket
    rw [← hmem]
    exact (hbuckets bucket).exists_iff
  · intro bucket rows htable
    exact (hbuckets bucket).rowsOf rows htable
  · rintro block rfl
    exact (split_perm hbuckets).trans hrows.options.symm
  · intro htype
    have hfilter := List.filter_eq_self.mpr fun o ho => decide_eq_true (htype o ho)
    rw [← hfilter]
    exact hrows.options

/-- The options of a pool are CALLs and PUTs. -/
lemma optionData_type (o : OptionRecord) : (PoolService.optionData o).optionType = CALL ∨
    (PoolService.optionData o).optionType = PUT := by
  cases htype : o.optionType
  · exact .inl (by simp [PoolService.optionData, OptionType.toU8, CALL, htype])
  · exact .inr (by simp [PoolService.optionData, OptionType.toU8, PUT, htype])

/-- A CALL just written, some blocks before it expires. -/
theorem buildChain_partitions_written :
    ∃ chain allRows,
      buildChain [PoolService.optionData ((OptionsPool.Testnet.written (10 ^ 18) 4 100).option 0)]
        (some 200) = some chain ∧
      get chain.buckets .all = some allRows ∧
      (allRows.flatMap ChainRow.options).Perm
        [PoolService.optionData ((OptionsPool.Testnet.written (10 ^ 18) 4 100).option 0)] ∧
      chain.activeBuckets = [.all, .bucket .d1to7] := by
  obtain ⟨chain, allRows, hchain, hall, -, -, -, hactive, -, hopen⟩ := buildChain_partitions
    [PoolService.optionData ((OptionsPool.Testnet.written (10 ^ 18) 4 100).option 0)] (some 200)
  refine ⟨chain, allRows, hchain, hall, hopen fun o ho => ?_, hactive⟩
  rw [List.mem_singleton.mp (List.mem_filter.mp ho).1]
  exact optionData_type _

end Frogop.Frontend.OptionsChain
