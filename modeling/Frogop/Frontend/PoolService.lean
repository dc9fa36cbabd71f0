import Frogop.Indexer.Decoder
import Frogop.Lib.Pages
import Frogop.Pool.OptionsPool.Basic
import Frogop.Pool.Views

/-!
# `PoolService`

The front end reads the options of a pool through its views. A request is answered by the pool as it
is then, so the pages of `getAllOptions` may come from different states; they fit together all the
same (`getAllOptions_exact`).
-/

namespace Frogop.Frontend

open Outcome
open Indexer (hexByte hexString)

/-- `OptionData`; a `bigint` is an integer. -/
structure OptionData where
  id : ℤ
  writer : String
  buyer : String
  optionType : ℕ
  strikePrice : ℤ
  underlyingAmount : ℤ
  premium : ℤ
  expiryBlock : ℤ
  status : ℕ
  deriving DecidableEq, Repr

namespace PoolService

variable {σ : Type}

def maxBatchSize : ℕ := 9

/-- `buildCalldata`, after the selector. -/
def buildCalldata (u256Params : List ℕ) : List UInt8 :=
  u256Params.flatMap fun p => Field.encode (.u256 p)

/-- `callView`: the bytes of the response. A reverted call throws. -/
def callView (reply : Except Revert (Reply σ)) : Except Revert (List UInt8) := do
  let (response, _) ← reply
  return response.flatMap Field.encode

def decodeOptionRecord (reader : List UInt8) : Except Revert (OptionData × List UInt8) := do
  let (id, reader) ← readU256 reader
  let (writer, reader) ← readAddress reader
  let (buyer, reader) ← readAddress reader
  let (optionType, reader) ← readU8 reader
  let (strikePrice, reader) ← readU256 reader
  let (underlyingAmount, reader) ← readU256 reader
  let (premium, reader) ← readU256 reader
  let (expiryBlock, reader) ← readU64 reader
  let (status, reader) ← readU8 reader
  return ({
    id := id
    writer := hexString writer.val
    buyer := hexString buyer.val
    optionType := optionType
    strikePrice := strikePrice
    underlyingAmount := underlyingAmount
    premium := premium
    expiryBlock := expiryBlock
    status := status }, reader)

def getOptionCount (env : Env) (w : World σ) : Except Revert ℕ := do
  let reader ← callView (optionCount env w)
  let (count, _) ← readU256 reader
  return count

/-- The loop of `getOptionsBatch`. -/
def decodeRecords : ℕ → List UInt8 → Except Revert (List OptionData)
  | 0, _ => return []
  | returned + 1, reader => do
    let (option, reader) ← decodeOptionRecord reader
    let options ← decodeRecords returned reader
    return option :: options

def getOptionsBatch (env : Env) (w : World σ) (startId count : ℕ) :
    Except Revert (List OptionData) := do
  let actualCount := if maxBatchSize < count then maxBatchSize else count
  let reader ← callView (Frogop.getOptionsBatch env (buildCalldata [startId, actualCount]) w)
  let (returned, reader) ← readU256 reader
  decodeRecords returned reader

/-- `answer k` is the pool when it answers the request `k`; the first request is for the count. -/
def getAllOptions (env : Env) (answer : ℕ → World σ) : Except Revert (List OptionData) := do
  let total ← getOptionCount env (answer 0)
  if total = 0 then return []
  else
    Pages.readAll (fun request startId => getOptionsBatch env (answer request) startId maxBatchSize)
      total 1 0 []

/-! ### Records -/

/-- A stored option as the front end shows it. -/
def optionData (o : OptionRecord) : OptionData where
  id := o.id
  writer := hexString o.writer.val
  buyer := hexString o.buyer.val
  optionType := o.optionType.toU8
  strikePrice := o.strikePrice
  underlyingAmount := o.underlyingAmount
  premium := o.premium
  expiryBlock := o.expiryBlock
  status := o.status.toU8

/-- A record is read back as it was written. -/
lemma decodeOptionRecord_recordFields {o : OptionRecord} (h : o.Typed) (rest : List UInt8) :
    decodeOptionRecord ((recordFields o).flatMap Field.encode ++ rest)
      = .ok (optionData o, rest) := by
  have htype : o.optionType.toU8 < 256 := by cases o.optionType <;> decide
  have hstatus : o.status.toU8 < 256 := by cases o.status <;> decide
  simp only [decodeOptionRecord, recordFields, List.flatMap_cons, List.flatMap_nil,
    List.append_nil, List.append_assoc, readU256_encode h.id, readAddress_encode,
    readU8_encode htype, readU256_encode h.strikePrice, readU256_encode h.underlyingAmount,
    readU256_encode h.premium, readU64_encode h.expiryBlock, readU8_encode hstatus, ok_bind]
  rfl

lemma decodeRecords_recordsFrom {w : World σ} {s n : ℕ}
    (h : ∀ i, s ≤ i → i < s + n → (w.option i).Typed) :
    decodeRecords n ((recordsFrom w s n).flatMap Field.encode)
      = .ok ((List.range' s n).map fun i => optionData (w.option i)) := by
  induction n generalizing s with
  | zero => rfl
  | succ n ih =>
    have hbytes : (recordsFrom w s (n + 1)).flatMap Field.encode
        = (recordFields (w.option s)).flatMap Field.encode
          ++ (recordsFrom w (s + 1) n).flatMap Field.encode := by
      rw [recordsFrom, List.range'_succ, List.flatMap_cons, List.flatMap_append]
      rfl
    rw [decodeRecords, hbytes, decodeOptionRecord_recordFields (h s le_rfl (by omega)), ok_bind]
    dsimp only
    rw [ih fun i hle hlt => h i (by omega) (by omega), ok_bind, List.range'_succ, List.map_cons]
    rfl

lemma digitChar_inj : ∀ m < 16, ∀ n < 16, Nat.digitChar m = Nat.digitChar n → m = n := by
  decide

/-- The digits of a byte tell it apart. -/
lemma hexByte_injective : Function.Injective hexByte := by
  intro b b' h
  have hlt := b.toNat_lt
  have hlt' := b'.toNat_lt
  simp only [hexByte, List.cons.injEq, and_true] at h
  have hhigh := digitChar_inj _ (by omega) _ (by omega) h.1
  have hlow := digitChar_inj _ (by omega) _ (by omega) h.2
  exact UInt8.toNat_inj.mp (by omega)

lemma hexString_injective : Function.Injective hexString := by
  intro bs bs' h
  have hdigits : bs.flatMap hexByte = bs'.flatMap hexByte := by
    have hchars := String.ofList_injective h
    simpa using hchars
  clear h
  induction bs generalizing bs' with
  | nil =>
    cases bs' with
    | nil => rfl
    | cons b' bs' => simp [hexByte] at hdigits
  | cons b bs ih =>
    cases bs' with
    | nil => simp [hexByte] at hdigits
    | cons b' bs' =>
      rw [List.flatMap_cons, List.flatMap_cons] at hdigits
      obtain ⟨hfirst, hrest⟩ := List.append_inj hdigits rfl
      rw [hexByte_injective hfirst, ih hrest]

/-- A record shows everything of the option but the block it was created in. -/
lemma optionData_inj {o o' : OptionRecord} (h : optionData o = optionData o') :
    { o with createdBlock := o'.createdBlock } = o' := by
  have htype : ∀ t t' : OptionType, t.toU8 = t'.toU8 → t = t' := by
    intro t t'
    cases t <;> cases t' <;> decide
  have hstatus : ∀ s s' : Status, s.toU8 = s'.toU8 → s = s' := by
    intro s s'
    cases s <;> cases s' <;> decide
  simp only [optionData, OptionData.mk.injEq, Nat.cast_inj] at h
  obtain ⟨hid, hwriter, hbuyer, htype', hstrike, hamount, hpremium, hexpiry, hstatus'⟩ := h
  have hw := Subtype.ext (hexString_injective hwriter)
  have hb := Subtype.ext (hexString_injective hbuyer)
  have ht := htype _ _ htype'
  have hs := hstatus _ _ hstatus'
  cases o
  cases o'
  simp_all

/-! ### Reading all options -/

section

variable {env : Env} {w : World σ}

lemma getOptionCount_eq (h : w.pool.Typed) : getOptionCount env w = .ok w.pool.nextId := by
  have hview : optionCount env w = .ok ([.u256 w.pool.nextId], w) :=
    World.respond_eq_ok.mpr ⟨.inr (by simp [Field.width]), rfl⟩
  have hread := readU256_encode h.nextId []
  rw [getOptionCount, hview]
  simp only [callView, ok_bind, pure_eq, List.flatMap_cons, List.flatMap_nil, hread]

/-- The front end asks for as many records as the contract is willing to give. -/
lemma batchSize_min (w : World σ) (startId count : ℕ) :
    batchSize w startId (if maxBatchSize < count then maxBatchSize else count)
      = batchSize w startId count := by
  rw [batchSize, batchSize, maxBatchSize]
  split_ifs <;> omega

lemma getOptionsBatch_eq (h : w.pool.Typed) {startId count : ℕ} (hstart : startId < u256Size)
    (hcount : count < u256Size) : getOptionsBatch env w startId count
      = .ok ((List.range' startId (batchSize w startId count)).map
          fun i => optionData (w.option i)) := by
  have hasked : (if maxBatchSize < count then maxBatchSize else count) < u256Size := by
    have hmax : maxBatchSize < u256Size := by decide
    split_ifs
    · exact hmax
    · exact hcount
  have hsize : batchSize w startId count < u256Size := batchSize_le_nine.trans_lt (by decide)
  have htyped : ∀ i, startId ≤ i → i < startId + batchSize w startId count →
      (w.option i).Typed := by
    intro i hi hlt
    exact h.options i (lt_nextId_of_lt_batchSize hi hlt)
  have hview : callView (Frogop.getOptionsBatch env (buildCalldata [startId,
      if maxBatchSize < count then maxBatchSize else count]) w)
      = .ok (Field.encode (.u256 (batchSize w startId count)) ++
          (recordsFrom w startId (batchSize w startId count)).flatMap Field.encode) := by
    rw [buildCalldata, List.flatMap_cons, List.flatMap_cons, List.flatMap_nil, List.append_nil,
      Frogop.getOptionsBatch_eq h.nextId hstart hasked, batchSize_min]
    rfl
  rw [getOptionsBatch]
  dsimp only
  rw [hview, ok_bind, readU256_encode hsize, ok_bind]
  exact decodeRecords_recordsFrom htyped

end

lemma getAllOptions_contiguous {env : Env} {answer : ℕ → World σ}
    (h : ∀ k, (answer k).pool.Typed) :
    ∃ (m : ℕ) (found : ℕ → ℕ), getAllOptions env answer
        = .ok ((List.range m).map fun i => optionData ((answer (found i)).option i)) ∧
      (∀ i < m, i < (answer (found i)).pool.nextId) ∧
      ((∀ k, (answer k).pool.nextId ≤ (answer (k + 1)).pool.nextId) →
        (answer 0).pool.nextId ≤ m) := by
  rw [getAllOptions, getOptionCount_eq (h 0), ok_bind]
  split_ifs with hzero
  · exact ⟨0, fun _ => 0, rfl, fun i hi => by omega, fun _ => hzero.le⟩
  · have hpage : ∀ k s, s < (answer 0).pool.nextId →
        getOptionsBatch env (answer k) s maxBatchSize
          = .ok ((List.range' s (batchSize (answer k) s maxBatchSize)).map
              fun i => optionData ((answer k).option i)) := by
      intro k s hs
      exact getOptionsBatch_eq (h k) (hs.trans (h 0).nextId) (by decide)
    obtain ⟨m, found, hall, hfound, henough⟩ := @Pages.readAll_contiguous _ _
      (fun request startId => getOptionsBatch env (answer request) startId maxBatchSize)
      (fun k i => optionData ((answer k).option i))
      (fun k s => batchSize (answer k) s maxBatchSize) (answer 0).pool.nextId 1 0 [] hpage
    refine ⟨m, found, ?_, fun i hi => ?_, fun hgrow => ?_⟩
    · rw [hall, List.nil_append, List.range_eq_range']
    · obtain ⟨-, s, hs, hlt⟩ := hfound i (Nat.zero_le i) (by omega)
      exact lt_nextId_of_lt_batchSize hs hlt
    · have hmono : Monotone fun k => (answer k).pool.nextId := monotone_nat_of_le_succ hgrow
      have hsome := henough fun k s _ hs => by
        have hk : (answer 0).pool.nextId ≤ (answer k).pool.nextId := hmono (Nat.zero_le k)
        rw [batchSize, maxBatchSize]
        omega
      omega

/-- A record shows all there is to an option. Reading page by page finds every option exactly once,
in the order of the ids: those of one state when nothing changes, and else at least those that were
counted, each as the pool had it when its page was read. -/
theorem getAllOptions_exact (env : Env) :
    ((∀ (o : OptionRecord) (rest : List UInt8), o.Typed →
        decodeOptionRecord ((recordFields o).flatMap Field.encode ++ rest)
          = .ok (optionData o, rest)) ∧
      ∀ o o' : OptionRecord, optionData o = optionData o' →
        { o with createdBlock := o'.createdBlock } = o') ∧
    (∀ (w : World σ) (startId count : ℕ), w.pool.Typed → startId < u256Size → count < u256Size →
      getOptionsBatch env w startId count
        = .ok ((List.range' startId (min (min count 9) (w.pool.nextId - startId))).map
            fun i => optionData (w.option i))) ∧
    (∀ w : World σ, w.pool.Typed →
      getAllOptions env (fun _ => w)
        = .ok ((List.range w.pool.nextId).map fun i => optionData (w.option i))) ∧
    ∀ answer : ℕ → World σ, (∀ k, (answer k).pool.Typed) →
      ∃ (m : ℕ) (found : ℕ → ℕ), getAllOptions env answer
          = .ok ((List.range m).map fun i => optionData ((answer (found i)).option i)) ∧
        (∀ i < m, i < (answer (found i)).pool.nextId) ∧
        ((∀ k, (answer k).pool.nextId ≤ (answer (k + 1)).pool.nextId) →
          (answer 0).pool.nextId ≤ m) := by
  refine ⟨⟨?_, ?_⟩, ?_, ?_, ?_⟩
  · intro o rest h
    exact decodeOptionRecord_recordFields h rest
  · intro o o' h
    exact optionData_inj h
  · intro w startId count h hstart hcount
    exact getOptionsBatch_eq h hstart hcount
  · intro w h
    obtain ⟨m, found, hall, hfound, henough⟩ :=
      @getAllOptions_contiguous σ env (fun _ => w) fun _ => h
    have hle := henough fun _ => le_rfl
    have hm : m = w.pool.nextId := by
      by_contra hne
      exact absurd (hfound w.pool.nextId (by omega)) (lt_irrefl _)
    rw [hall, hm]
  · intro answer h
    exact getAllOptions_contiguous h

/-- The one option of a pool in which one was written and sold. -/
theorem getAllOptions_exact_sold :
    getAllOptions OptionsPool.Testnet.env (fun _ => OptionsPool.Testnet.sold (10 ^ 18) 4 100)
      = .ok [optionData ((OptionsPool.Testnet.sold (10 ^ 18) 4 100).option 0)] := by
  refine (getAllOptions_exact OptionsPool.Testnet.env).2.2.1
    (OptionsPool.Testnet.sold (10 ^ 18) 4 100) ⟨by decide, fun i hi => ?_⟩
  obtain rfl : i = 0 := Nat.lt_one_iff.mp hi
  exact ⟨by decide, by decide, by decide, by decide, by decide⟩

end PoolService

end Frogop.Frontend
