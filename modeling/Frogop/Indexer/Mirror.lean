import Frogop.Indexer.Feed
import Frogop.Pool.Table

/-!
# Rows that mirror a pool

`Follows` says that the events of some steps of a pool, decoded and executed, take rows that mirror
its storage before the steps to rows that mirror it afterwards, and which fee rows they add. Each
event is dealt with once; the methods of the three pools are put together from them.
-/

namespace Frogop

/-- An option whose fields the columns hold exactly. -/
structure OptionRecord.Indexable (gracePeriod : ℕ) (o : OptionRecord) : Prop where
  id : o.id < 2 ^ 53
  strikePrice : o.strikePrice < u256Size
  underlyingAmount : o.underlyingAmount < u256Size
  premium : o.premium < u256Size
  graceEnd : o.expiryBlock + gracePeriod < 2 ^ 53

/-- All options of a pool can be indexed. -/
def PoolStorage.Indexable (p : PoolStorage) : Prop :=
  ∀ i < p.nextId, (p.options.get i).Indexable p.gracePeriod

namespace Indexer

/-! ### Rows and options -/

/-- The buyer is `NULL` as long as there is none. -/
def buyerColumn (buyer : Address) : Option String :=
  if buyer = Address.zero then none else some (hexString buyer.val)

/-- The row of an option. -/
structure OptionRow.Shows (pool : String) (gracePeriod : ℕ) (o : OptionRecord) (row : OptionRow) :
    Prop where
  poolAddress : row.poolAddress = pool
  optionId : row.optionId = o.id
  writer : row.writer = hexString o.writer.val
  buyer : row.buyer = buyerColumn o.buyer
  optionType : row.optionType = o.optionType.toU8
  strikePrice : row.strikePrice = o.strikePrice
  underlyingAmt : row.underlyingAmt = o.underlyingAmount
  premium : row.premium = o.premium
  expiryBlock : row.expiryBlock = o.expiryBlock
  graceEndBlock : row.graceEndBlock = o.expiryBlock + gracePeriod
  status : row.status = o.status.toU8

/-- One row for every option, in the order of the ids. -/
structure Mirrors (pool : String) (p : PoolStorage) (rows : List OptionRow) : Prop where
  length : rows.length = p.nextId
  shows : ∀ (i : ℕ) (row : OptionRow), rows[i]? = some row →
    row.Shows pool p.gracePeriod (p.options.get i)

/-- A fee of an option. -/
structure Fee where
  optionId : ℕ
  eventType : FeeEventType
  amount : ℕ
  deriving DecidableEq, Repr

def FeeEventRow.fee (row : FeeEventRow) : Fee := ⟨row.optionId, row.eventType, row.amount⟩

/-- A fee as the columns hold it. -/
def Fee.column (fee : Fee) : Fee := { fee with optionId := number fee.optionId }

/-- The fee rows that statements add. -/
def feesOfStmts (stmts : List Stmt) : List Fee := (stmts.flatMap Stmt.fees).map FeeEventRow.fee

/-- A fee that is zero is not recorded. -/
def recorded (optionId : ℕ) (eventType : FeeEventType) (amount : ℕ) : List Fee :=
  if amount ≠ 0 then [⟨optionId, eventType, amount⟩] else []

section

variable {tracking : Tracking} {pool txId : String} {blockNumber : ℕ} {p p' p'' : PoolStorage}
  {o o' : OptionRecord} {rows : List OptionRow} {i : ℕ} {s : OptionStorage}

lemma number_mod_eq (hp : p.Indexable) (hi : i < p.nextId) :
    number (i % u256Size) = i := by
  have hid : i < 2 ^ 53 := (hp i hi).id
  have hsize : 2 ^ 53 ≤ u256Size := by decide
  rw [Nat.mod_eq_of_lt (hid.trans_le hsize), number_of_lt hid]

/-- What is decoded of a writing event shows the option. -/
lemma shows_writtenRow (ho : o.Indexable p.gracePeriod) (hbuyer : o.buyer = Address.zero)
    (hstatus : o.status = .OPEN) (htracking : tracking.poolGracePeriods pool = some p.gracePeriod) :
    (writtenRow tracking pool blockNumber txId (writtenTexts o)).Shows pool p.gracePeriod o := by
  have hgrace := ho.graceEnd
  have hsize : 2 ^ 53 ≤ u256Size := by decide
  have hsize' : 2 ^ 53 ≤ u64Size := by decide
  have hid : number (o.id % u256Size) = o.id := by
    rw [Nat.mod_eq_of_lt (ho.id.trans_le hsize), number_of_lt ho.id]
  have hexpiry : number (o.expiryBlock % u64Size) = o.expiryBlock := by
    rw [Nat.mod_eq_of_lt (by omega), number_of_lt (by omega)]
  have htype : number (o.optionType.toU8 % 256) = o.optionType.toU8 := by
    cases o.optionType <;> decide
  constructor
  · rfl
  · exact hid
  · rfl
  · rw [hbuyer]
    rfl
  · exact htype
  · exact Nat.mod_eq_of_lt ho.strikePrice
  · exact Nat.mod_eq_of_lt ho.underlyingAmount
  · exact Nat.mod_eq_of_lt ho.premium
  · exact hexpiry
  · show number (number (o.expiryBlock % u64Size)
      + (tracking.poolGracePeriods pool).getD defaultGracePeriodBlocks) = _
    rw [hexpiry, htracking, Option.getD_some, number_of_lt ho.graceEnd]
  · rw [hstatus]
    rfl

/-! ### What one statement does to the rows -/

lemma Mirrors.lt {row : OptionRow} (hrows : Mirrors pool p rows) (hrow : rows[i]? = some row) :
    i < p.nextId := by
  rw [← hrows.length]
  exact (List.getElem?_eq_some_iff.mp hrow).1

/-- A row for the next option. -/
lemma Mirrors.insert {row : OptionRow} (hrows : Mirrors pool p rows)
    (hrow : row.Shows pool p.gracePeriod { o with id := p.nextId }) :
    Mirrors pool { p with nextId := p.nextId + 1, options := p.options.set p.nextId o }
      (Stmt.onOptions rows (.insertOption row)) := by
  have hfresh : ¬ ∃ row' ∈ rows, row'.optionId = row.optionId := by
    rintro ⟨row', hmem, hid⟩
    obtain ⟨i, hi⟩ := List.mem_iff_getElem?.mp hmem
    have hlt : i < p.nextId := hrows.lt hi
    rw [(hrows.shows i row' hi).optionId, hrow.optionId] at hid
    exact absurd hid hlt.ne
  rw [Stmt.onOptions, if_neg hfresh]
  refine ⟨by rw [List.length_append, hrows.length]; rfl, fun i row' hi => ?_⟩
  rcases lt_or_ge i rows.length with hlt | hge
  · rw [List.getElem?_append_left hlt] at hi
    have hne : i ≠ p.nextId := (hrows.lt hi).ne
    rw [OptionStorage.get_set_of_ne hne]
    exact hrows.shows i row' hi
  · rw [List.getElem?_append_right hge, List.getElem?_singleton] at hi
    split_ifs at hi with hzero
    have heq : i = p.nextId := by
      rw [← hrows.length]
      omega
    rw [heq, OptionStorage.get_set_self, ← Option.some.inj hi]
    exact hrow

/-- The row of one option is rewritten as the option is. -/
lemma Mirrors.update {set : OptionRow → OptionRow} (hrows : Mirrors pool p rows)
    (hget : s.get = Function.update p.options.get i o')
    (hset : ∀ row, row.Shows pool p.gracePeriod (p.options.get i) →
      (set row).Shows pool p.gracePeriod o') :
    Mirrors pool { p with options := s }
      (rows.map fun row => if row.optionId = i then set row else row) := by
  refine ⟨by rw [List.length_map, hrows.length], fun j row' hj => ?_⟩
  rw [List.getElem?_map, Option.map_eq_some_iff] at hj
  obtain ⟨row, hrow, rfl⟩ := hj
  have hshows := hrows.shows j row hrow
  have hid : row.optionId = j := hshows.optionId
  show OptionRow.Shows pool p.gracePeriod (s.get j) _
  rw [hget, hid]
  by_cases hji : j = i
  · subst hji
    rw [Function.update_self, if_pos rfl]
    exact hset row hshows
  · rw [Function.update_of_ne hji, if_neg hji]
    exact hshows

/-! ### Following -/

/-- The events of a pool that went from storage `p` to `p'` and took `fees`. -/
structure Follows (tracking : Tracking) (pool : String) (p : PoolStorage) (events : List Event)
    (p' : PoolStorage) (fees : List Fee) : Prop where
  gracePeriod : p'.gracePeriod = p.gracePeriod
  nextId_le : p.nextId ≤ p'.nextId
  indexable : p'.Indexable → p.Indexable
  mirrors : tracking.poolGracePeriods pool = some p.gracePeriod → p'.Indexable →
    ∀ log : List (Entry Event), log.map Entry.event = events → ∀ rows, Mirrors pool p rows →
      Mirrors pool p' ((log.flatMap (Entry.stmts tracking pool)).foldl Stmt.onOptions rows)
  fees : p'.nextId ≤ u256Size → ∀ log : List (Entry Event), log.map Entry.event = events →
    feesOfStmts (log.flatMap (Entry.stmts tracking pool)) = fees.map Fee.column

lemma feesOfStmts_append (stmts stmts' : List Stmt) :
    feesOfStmts (stmts ++ stmts') = feesOfStmts stmts ++ feesOfStmts stmts' := by
  simp [feesOfStmts]

/-- Events that the decoder ignores, if any, and a storage whose options are the same. -/
lemma Follows.quiet {events : List Event} (hevents : ∀ e ∈ events, EventName.Silent e.name)
    (hoptions : p'.options = p.options) (hnext : p'.nextId = p.nextId)
    (hgrace : p'.gracePeriod = p.gracePeriod) : Follows tracking pool p events p' [] := by
  have hnone : ∀ log : List (Entry Event), log.map Entry.event = events →
      log.flatMap (Entry.stmts tracking pool) = [] := by
    rintro log rfl
    rw [List.flatMap_eq_nil_iff]
    exact fun entry hentry => decode_silent (hevents _ (List.mem_map_of_mem hentry))
  refine ⟨hgrace, hnext.ge, fun hp i hi => ?_, fun _ _ log hlog rows hrows => ?_,
    fun _ log hlog => ?_⟩
  · have hi' := hp i (hi.trans_eq hnext.symm)
    rwa [hoptions, hgrace] at hi'
  · rw [hnone log hlog]
    refine ⟨hrows.length.trans hnext.symm, fun i row hrow => ?_⟩
    rw [hoptions, hgrace]
    exact hrows.shows i row hrow
  · rw [hnone log hlog]
    rfl

lemma Follows.trans {events events' : List Event} {fees fees' : List Fee}
    (h : Follows tracking pool p events p' fees)
    (h' : Follows tracking pool p' events' p'' fees') :
    Follows tracking pool p (events ++ events') p'' (fees ++ fees') where
  gracePeriod := h'.gracePeriod.trans h.gracePeriod
  nextId_le := h.nextId_le.trans h'.nextId_le
  indexable hp := h.indexable (h'.indexable hp)
  mirrors htracking hp log hlog rows hrows := by
    obtain ⟨log₁, log₂, rfl, hlog₁, hlog₂⟩ := List.map_eq_append_iff.mp hlog
    rw [List.flatMap_append, List.foldl_append]
    refine h'.mirrors ?_ hp log₂ hlog₂ _
      (h.mirrors htracking (h'.indexable hp) log₁ hlog₁ rows hrows)
    rw [h.gracePeriod]
    exact htracking
  fees hp log hlog := by
    obtain ⟨log₁, log₂, rfl, hlog₁, hlog₂⟩ := List.map_eq_append_iff.mp hlog
    rw [List.flatMap_append, feesOfStmts_append, h.fees (h'.nextId_le.trans hp) log₁ hlog₁,
      h'.fees hp log₂ hlog₂, List.map_append]

/-- One event. -/
lemma Follows.of_event {e : Event} {fees : List Fee} (hgrace : p'.gracePeriod = p.gracePeriod)
    (hnext : p.nextId ≤ p'.nextId) (hindexable : p'.Indexable → p.Indexable)
    (hmirrors : ∀ blockNumber txId rows, tracking.poolGracePeriods pool = some p.gracePeriod →
      p'.Indexable → Mirrors pool p rows →
      Mirrors pool p' ((decodeEvent tracking (e.reported pool) blockNumber txId).foldl
        Stmt.onOptions rows))
    (hfees : ∀ blockNumber txId, p'.nextId ≤ u256Size →
      feesOfStmts (decodeEvent tracking (e.reported pool) blockNumber txId) = fees.map Fee.column) :
    Follows tracking pool p [e] p' fees := by
  have hone : ∀ log : List (Entry Event), log.map Entry.event = [e] →
      ∃ blockNumber txId, log = [⟨blockNumber, txId, e⟩] := by
    intro log hlog
    obtain ⟨entry, rfl, rfl⟩ := List.map_eq_singleton_iff.mp hlog
    exact ⟨entry.blockNumber, entry.txId, rfl⟩
  refine ⟨hgrace, hnext, hindexable, ?_, ?_⟩
  · intro htracking hp log hlog rows hrows
    obtain ⟨blockNumber, txId, rfl⟩ := hone log hlog
    rw [List.flatMap_singleton]
    exact hmirrors blockNumber txId rows htracking hp hrows
  · intro hp log hlog
    obtain ⟨blockNumber, txId, rfl⟩ := hone log hlog
    rw [List.flatMap_singleton]
    exact hfees blockNumber txId hp

/-! ### The events of the pools -/

lemma buyerColumn_of_ne {a : Address} (h : a ≠ Address.zero) :
    buyerColumn a = some (hexString a.val) := if_neg h

lemma buyerColumn_eq_none {a : Address} : buyerColumn a = none ↔ a = Address.zero := by
  rw [buyerColumn]
  split_ifs with ha <;> simp [ha]

/-- Nobody has bought the option. -/
def Unsold (o : OptionRecord) : Prop :=
  o.status = .OPEN ∨ o.status = .CANCELLED ∨ o.status = .RESERVED

def OptionRow.Unsold (row : OptionRow) : Prop :=
  row.status = OptionStatus.OPEN ∨ row.status = OptionStatus.CANCELLED ∨
    row.status = OptionStatus.RESERVED

/-- The buyer of a row is `NULL` until the purchase, when that of the option is zero. -/
lemma Mirrors.unsold (hrows : Mirrors pool p rows) (hbuyer : ∀ i < p.nextId,
    (p.options.get i).buyer = Address.zero ↔ Unsold (p.options.get i)) :
    ∀ row ∈ rows, row.buyer = none ↔ row.Unsold := by
  intro row hrow
  obtain ⟨i, hi⟩ := List.mem_iff_getElem?.mp hrow
  have hshows := hrows.shows i row hi
  rw [hshows.buyer, buyerColumn_eq_none, OptionRow.Unsold, hshows.status]
  apply (hbuyer i (hrows.lt hi)).trans
  rw [Unsold]
  cases (p.options.get i).status <;> decide

/-- A statement without a buyer keeps the one in the row. -/
lemma keepBuyer (buyer : Option String) : ((none : Option String) <|> buyer) = buyer := by
  cases buyer <;> rfl

/-- An option is written. -/
lemma Follows.written {e : Event} (hid : o.id = p.nextId) (hbuyer : o.buyer = Address.zero)
    (hstatus : o.status = .OPEN)
    (hdecode : ∀ blockNumber txId, decodeEvent tracking (e.reported pool) blockNumber txId
      = [.insertOption (writtenRow tracking pool blockNumber txId (writtenTexts o))]) :
    Follows tracking pool p [e]
      { p with nextId := p.nextId + 1, options := p.options.set p.nextId o } [] := by
  have ho : { o with id := p.nextId } = o := by rw [← hid]
  refine .of_event rfl (Nat.le_succ _) ?_ ?_ ?_
  · intro hp i hi
    have hi' := hp i (Nat.lt_succ_of_lt hi)
    rwa [OptionStorage.get_set_of_ne hi.ne] at hi'
  · intro blockNumber txId rows htracking hp hrows
    have hnew := hp p.nextId (Nat.lt_succ_self _)
    rw [OptionStorage.get_set_self, ho] at hnew
    rw [hdecode]
    apply hrows.insert
    rw [ho]
    exact shows_writtenRow hnew hbuyer hstatus htracking
  · intro blockNumber txId _
    rw [hdecode]
    rfl

/-- The event of a written option comes before events that change no table. -/
lemma Follows.written_silent {e : Event} {rest : List Event} (hid : o.id = p.nextId)
    (hbuyer : o.buyer = Address.zero) (hstatus : o.status = .OPEN)
    (hdecode : ∀ blockNumber txId, decodeEvent tracking (e.reported pool) blockNumber txId
      = [.insertOption (writtenRow tracking pool blockNumber txId (writtenTexts o))])
    (hrest : ∀ e ∈ rest, EventName.Silent e.name) :
    Follows tracking pool p (e :: rest)
      { p with nextId := p.nextId + 1, options := p.options.set p.nextId o } [] :=
  (Follows.written hid hbuyer hstatus hdecode).trans (.quiet hrest rfl rfl rfl)

/-- Terms decide whether an option can be indexed. -/
lemma Indexable.of_sameTerms {g : ℕ} (ht : o.SameTerms o') (h : o'.Indexable g) :
    o.Indexable g where
  id := ht.id ▸ h.id
  strikePrice := ht.strikePrice ▸ h.strikePrice
  underlyingAmount := ht.underlyingAmount ▸ h.underlyingAmount
  premium := ht.premium ▸ h.premium
  graceEnd := ht.expiryBlock ▸ h.graceEnd

lemma indexable_of_update {buyer : Address} {status : Status}
    (hget : s.get = Function.update p.options.get i
      { p.options.get i with buyer := buyer, status := status })
    (hp : ({ p with options := s } : PoolStorage).Indexable) : p.Indexable := by
  intro j hj
  have hj' := hp j hj
  simp only [hget] at hj'
  by_cases hji : j = i
  · subst hji
    rw [Function.update_self] at hj'
    exact Indexable.of_sameTerms (.update _ _ _) hj'
  · rwa [Function.update_of_ne hji] at hj'

lemma feesOfStmts_feeStmts {optionId fee : ℕ} {eventType : FeeEventType} :
    feesOfStmts (feeStmts pool blockNumber txId (number optionId) eventType fee)
      = (recorded optionId eventType fee).map Fee.column := by
  rw [feeStmts, recorded]
  split_ifs <;> rfl

lemma foldl_feeStmts {optionId fee : ℕ} {eventType : FeeEventType} :
    (feeStmts pool blockNumber txId optionId eventType fee).foldl Stmt.onOptions rows = rows := by
  rw [feeStmts]
  split_ifs <;> rfl

/-- The status of an option is set, with or without a buyer and a fee. -/
lemma Follows.status {e : Event} {buyer : Option String} {buyer' : Address} {status : Status}
    {eventType : FeeEventType} {fee : ℕ} (hi : i < p.nextId)
    (hget : s.get = Function.update p.options.get i
      { p.options.get i with buyer := buyer', status := status })
    (hbuyer : (buyer <|> buyerColumn (p.options.get i).buyer) = buyerColumn buyer')
    (hdecode : ∀ blockNumber txId, decodeEvent tracking (e.reported pool) blockNumber txId
      = .updateOptionStatus pool (number (i % u256Size)) status.toU8 buyer blockNumber txId
        :: feeStmts pool blockNumber txId (number (i % u256Size)) eventType fee) :
    Follows tracking pool p [e] { p with options := s } (recorded i eventType fee) := by
  refine .of_event rfl le_rfl (indexable_of_update hget) ?_ ?_
  · intro blockNumber txId rows _ hp hrows
    rw [hdecode, number_mod_eq (indexable_of_update hget hp) hi, List.foldl_cons, foldl_feeStmts]
    refine hrows.update hget fun row hrow => ?_
    exact ⟨hrow.poolAddress, hrow.optionId, hrow.writer,
      by rw [← hbuyer, ← hrow.buyer], hrow.optionType, hrow.strikePrice, hrow.underlyingAmt,
      hrow.premium, hrow.expiryBlock, hrow.graceEndBlock, rfl⟩
  · intro blockNumber txId hids
    have hmod : i % u256Size = i := Nat.mod_eq_of_lt (hi.trans_le hids)
    rw [hdecode, hmod]
    exact feesOfStmts_feeStmts

/-- The status of an option is set and no fee is taken. -/
lemma Follows.unpaid {e : Event} {buyer : Option String} {buyer' : Address} {status : Status}
    (hi : i < p.nextId)
    (hget : s.get = Function.update p.options.get i
      { p.options.get i with buyer := buyer', status := status })
    (hbuyer : (buyer <|> buyerColumn (p.options.get i).buyer) = buyerColumn buyer')
    (hdecode : ∀ blockNumber txId, decodeEvent tracking (e.reported pool) blockNumber txId
      = [.updateOptionStatus pool (number (i % u256Size)) status.toU8 buyer blockNumber txId]) :
    Follows tracking pool p [e] { p with options := s } [] :=
  -- a fee of nothing is not recorded, whatever it is for
  have h : Follows tracking pool p [e] { p with options := s } (recorded i .CANCEL 0) :=
    .status hi hget hbuyer hdecode
  h

/-- A reservation is executed: the status and the buyer are set by two statements. -/
lemma Follows.executed {e : Event} {buyer : Address} (hi : i < p.nextId)
    (hbuyer : buyer ≠ Address.zero)
    (hdecode : ∀ blockNumber txId, decodeEvent tracking (e.reported pool) blockNumber txId
      = [.updateOptionStatus pool (number (i % u256Size)) OptionStatus.PURCHASED
          (some (hexString buyer.val)) blockNumber txId,
        .updateOptionBuyer pool (number (i % u256Size)) (hexString buyer.val) blockNumber txId]) :
    Follows tracking pool p [e]
      { p with options := (p.options.setBuyer i buyer).setStatus i .PURCHASED } [] := by
  have hget := get_setBuyer_setStatus (i := i) p.options buyer .PURCHASED
  refine .of_event rfl le_rfl (indexable_of_update hget) ?_ ?_
  · intro blockNumber txId rows _ hp hrows
    rw [hdecode, number_mod_eq (indexable_of_update hget hp) hi, List.foldl_cons,
      List.foldl_cons, List.foldl_nil]
    have hcolumn : some (hexString buyer.val) = buyerColumn buyer := (buyerColumn_of_ne hbuyer).symm
    have hfirst : Mirrors pool
        { p with options := (p.options.setBuyer i buyer).setStatus i .PURCHASED }
        (Stmt.onOptions rows (.updateOptionStatus pool i OptionStatus.PURCHASED
          (some (hexString buyer.val)) blockNumber txId)) := by
      refine hrows.update hget fun row hrow => ?_
      exact ⟨hrow.poolAddress, hrow.optionId, hrow.writer, hcolumn, hrow.optionType,
        hrow.strikePrice, hrow.underlyingAmt, hrow.premium, hrow.expiryBlock, hrow.graceEndBlock,
        rfl⟩
    -- the second statement names the buyer that the first has set
    refine hfirst.update (Function.update_eq_self _ _).symm fun row hrow => ?_
    have hset : ((p.options.setBuyer i buyer).setStatus i .PURCHASED).get i
        = { p.options.get i with buyer := buyer, status := .PURCHASED } := by
      rw [hget, Function.update_self]
    refine ⟨hrow.poolAddress, hrow.optionId, hrow.writer, ?_, hrow.optionType, hrow.strikePrice,
      hrow.underlyingAmt, hrow.premium, hrow.expiryBlock, hrow.graceEndBlock, hrow.status⟩
    rw [hset]
    exact hcolumn
  · intro blockNumber txId _
    rw [hdecode]
    rfl

/-- An option changes hands. -/
lemma Follows.transferred {e : Event} {newBuyer : Address} {from' : String} (hi : i < p.nextId)
    (hnew : newBuyer ≠ Address.zero)
    (hdecode : ∀ blockNumber txId, decodeEvent tracking (e.reported pool) blockNumber txId
      = [.updateOptionBuyer pool (number (i % u256Size)) (hexString newBuyer.val) blockNumber txId,
        .insertOptionTransfer ⟨pool, number (i % u256Size), from', hexString newBuyer.val,
          blockNumber, txId⟩]) :
    Follows tracking pool p [e] { p with options := p.options.setBuyer i newBuyer } [] := by
  have hget : (p.options.setBuyer i newBuyer).get
      = Function.update p.options.get i { p.options.get i with buyer := newBuyer } :=
    OptionStorage.get_setBuyer
  refine .of_event rfl le_rfl (indexable_of_update hget) ?_ ?_
  · intro blockNumber txId rows _ hp hrows
    rw [hdecode, number_mod_eq (indexable_of_update hget hp) hi]
    refine hrows.update hget fun row hrow => ?_
    exact ⟨hrow.poolAddress, hrow.optionId, hrow.writer, (buyerColumn_of_ne hnew).symm,
      hrow.optionType, hrow.strikePrice, hrow.underlyingAmt, hrow.premium, hrow.expiryBlock,
      hrow.graceEndBlock, hrow.status⟩
  · intro blockNumber txId _
    rw [hdecode]
    rfl

end

end Indexer

end Frogop
