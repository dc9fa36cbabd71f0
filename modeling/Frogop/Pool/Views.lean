import Frogop.Pool.Accounts

/-!
# Views over all options

`optionCount` and `getOptionsBatch` of the base contract. A batch is at most nine records of 202
bytes, written to a buffer of exactly their size.
-/

namespace Frogop

open Outcome World

variable {σ : Type}

def optionCount (env : Env) (w : World σ) : Except Revert (Reply σ) :=
  w.respond env 32 [.u256 w.pool.nextId]

/-- The writes of one record. -/
def recordFields (opt : OptionRecord) : List Field :=
  [.u256 opt.id, .address opt.writer, .address opt.buyer, .u8 opt.optionType.toU8,
    .u256 opt.strikePrice, .u256 opt.underlyingAmount, .u256 opt.premium, .u64 opt.expiryBlock,
    .u8 opt.status.toU8]

/-- The loop of `getOptionsBatch`: the records that are left, from the `i`-th on. -/
def writeRecords (w : World σ) (startId : ℕ) : ℕ → ℕ → Except Revert (List Field)
  | 0, _ => return []
  | left + 1, i => do
    let optionId ← SafeMath.add startId i
    let opt := w.option optionId
    let next ← SafeMath.add i 1
    let rest ← writeRecords w startId left next
    return recordFields opt ++ rest

def getOptionsBatch (env : Env) (calldata : List UInt8) (w : World σ) :
    Except Revert (Reply σ) := do
  let (startId, rest) ← readU256 calldata
  let (requestedCount, _) ← readU256 rest
  let totalOptions := w.pool.nextId
  if ¬ startId < totalOptions then w.respond env 32 [.u256 0]
  else do
    let maxBatch := 9
    let actualCount := if maxBatch < requestedCount then maxBatch else requestedCount
    let available ← SafeMath.sub totalOptions startId
    let actualCount := if available < actualCount then available else actualCount
    -- i32(u32(actualCount.lo1))
    let count := actualCount % 2 ^ 32
    let records ← writeRecords w startId actualCount 0
    w.respond env (32 + 202 * count) (.u256 actualCount :: records)

/-- The numbers of a record are a `u256` or a `u64` each. -/
structure OptionRecord.Typed (o : OptionRecord) : Prop where
  id : o.id < u256Size
  strikePrice : o.strikePrice < u256Size
  underlyingAmount : o.underlyingAmount < u256Size
  premium : o.premium < u256Size
  expiryBlock : o.expiryBlock < u64Size

/-- What the storage of a pool can hold. -/
structure PoolStorage.Typed (p : PoolStorage) : Prop where
  nextId : p.nextId < u256Size
  options : ∀ i < p.nextId, (p.options.get i).Typed

section

variable {env : Env} {w : World σ} {startId requestedCount left i : ℕ}

@[simp] lemma fieldsWidth_recordFields (o : OptionRecord) :
    fieldsWidth (recordFields o) = 202 := by
  simp [recordFields, Field.width]

lemma fieldsWidth_append (fs gs : List Field) :
    fieldsWidth (fs ++ gs) = fieldsWidth fs + fieldsWidth gs := by
  simp [fieldsWidth]

/-- The records of `n` options. -/
def recordsFrom (w : World σ) (startId n : ℕ) : List Field :=
  (List.range' startId n).flatMap fun i => recordFields (w.option i)

lemma fieldsWidth_recordsFrom (w : World σ) (startId n : ℕ) :
    fieldsWidth (recordsFrom w startId n) = 202 * n := by
  induction n generalizing startId with
  | zero => rfl
  | succ n ih =>
    rw [recordsFrom, List.range'_succ, List.flatMap_cons, fieldsWidth_append, ← recordsFrom, ih,
      fieldsWidth_recordFields]
    omega

lemma writeRecords_eq (h : startId + i + left < u256Size) :
    writeRecords w startId left i = .ok (recordsFrom w (startId + i) left) := by
  induction left generalizing i with
  | zero => rfl
  | succ left ih =>
    have hadd : SafeMath.add startId i = .ok (startId + i) :=
      SafeMath.add_eq_ok.mpr ⟨by omega, rfl⟩
    have hnext : SafeMath.add i 1 = .ok (i + 1) := SafeMath.add_eq_ok.mpr ⟨by omega, rfl⟩
    have hrecords : recordsFrom w (startId + i) (left + 1)
        = recordFields (w.option (startId + i)) ++ recordsFrom w (startId + (i + 1)) left := by
      rw [recordsFrom, List.range'_succ, List.flatMap_cons]
      rfl
    rw [writeRecords, hadd, ok_bind, hnext, ok_bind, ih (by omega), ok_bind, hrecords]
    rfl

/-- How many records a batch has. -/
def batchSize (w : World σ) (startId requestedCount : ℕ) : ℕ :=
  min (min requestedCount 9) (w.pool.nextId - startId)

lemma batchSize_le_nine : batchSize w startId requestedCount ≤ 9 :=
  (min_le_left _ _).trans (min_le_right _ _)

/-- A batch ends with the last option. -/
lemma lt_nextId_of_lt_batchSize (hi : startId ≤ i)
    (hlt : i < startId + batchSize w startId requestedCount) : i < w.pool.nextId := by
  have hle : batchSize w startId requestedCount ≤ w.pool.nextId - startId := min_le_right _ _
  omega

/-- A batch holds the options from `startId` on, as many as were asked for, up to nine and up to
the last one. It fills its buffer. -/
lemma getOptionsBatch_eq (hnext : w.pool.nextId < u256Size) (hstart : startId < u256Size)
    (hcount : requestedCount < u256Size) :
    getOptionsBatch env (Field.encode (.u256 startId) ++ Field.encode (.u256 requestedCount)) w
      = .ok (.u256 (batchSize w startId requestedCount)
          :: recordsFrom w startId (batchSize w startId requestedCount), w) := by
  have hsecond : readU256 (Field.encode (.u256 requestedCount)) = .ok (requestedCount, []) := by
    have hread := readU256_encode hcount []
    rwa [List.append_nil] at hread
  rw [getOptionsBatch, readU256_encode hstart, ok_bind]
  dsimp only
  rw [hsecond, ok_bind]
  dsimp only
  by_cases hout : startId < w.pool.nextId
  · rw [if_neg (not_not.mpr hout), SafeMath.sub, if_pos hout.le, ok_bind]
    have hsize : (if w.pool.nextId - startId < (if 9 < requestedCount then 9 else requestedCount)
        then w.pool.nextId - startId else if 9 < requestedCount then 9 else requestedCount)
        = batchSize w startId requestedCount := by
      rw [batchSize]
      split_ifs <;> omega
    have hnine : batchSize w startId requestedCount ≤ 9 := batchSize_le_nine
    have hleft : batchSize w startId requestedCount ≤ w.pool.nextId - startId := min_le_right _ _
    have hcount : batchSize w startId requestedCount % 2 ^ 32
        = batchSize w startId requestedCount := Nat.mod_eq_of_lt (by omega)
    rw [hsize, writeRecords_eq (by omega), ok_bind, Nat.add_zero, hcount]
    refine respond_eq_ok.mpr ⟨.inr ?_, rfl⟩
    rw [fieldsWidth_cons, fieldsWidth_recordsFrom]
    exact le_rfl
  · have hzero : batchSize w startId requestedCount = 0 := by
      rw [batchSize, Nat.sub_eq_zero_of_le (not_lt.mp hout), Nat.min_zero]
    rw [if_pos hout, hzero]
    exact respond_eq_ok.mpr ⟨.inr (by simp [Field.width]), rfl⟩

end

end Frogop
