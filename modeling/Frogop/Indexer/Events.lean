import Frogop.Indexer.Decoder
import Frogop.Pool.OptionsPool.Spec
import Frogop.Pool.BtcUnderlying.Spec

/-!
# The events of the pools, decoded

What the decoder reads of each event as a pool emits it. The buffers may be longer than the fields:
the decoder never looks at the rest.
-/

namespace Frogop.Indexer

/-! ### Doubles -/

/-- Whole numbers below `2 ^ 53` are doubles. -/
lemma number_of_lt {n : ℕ} (h : n < 2 ^ 53) : number n = n := by
  have hlog : n.log2 - 52 = 0 := by
    rcases Nat.eq_zero_or_pos n with rfl | hpos
    · decide
    · have := (Nat.log2_lt hpos.ne').mpr h
      omega
  simp [number, hlog, Nat.mod_one]

/-! ### Reports -/

end Frogop.Indexer

namespace Frogop

/-- The `type` of the `NetEvent`. -/
def EventName.type : EventName → String
  | .optionWritten => "OptionWritten"
  | .optionCancelled => "OptionCancelled"
  | .optionPurchased => "OptionPurchased"
  | .optionExercised => "OptionExercised"
  | .optionExpired => "OptionExpired"
  | .optionTransferred => "OptionTransferred"
  | .optionRolled => "OptionRolled"
  | .feeRecipientUpdated => "FeeRecipientUpdated"
  | .optionReserved => "OptionReserved"
  | .reservationExecuted => "ReservationExecuted"
  | .reservationCancelled => "ReservationCancelled"
  | .optionWrittenBtc => "OptionWrittenBtc"
  | .btcClaimable => "BtcClaimable"
  | .optionRestored => "OptionRestored"

/-- An event of a pool as the RPC reports it. -/
def Event.reported (pool : String) (e : Event) : Indexer.TxEvent where
  contractAddress := pool
  type := e.name.type
  data := String.ofList (Base64.encode e.data)

namespace Indexer

/-! ### Reading what was written -/

section

variable {rest : List UInt8} {n : ℕ} {a : Bytes32} {name : String} {defs : List FieldDef}

lemma readUint_append {count : ℕ} {bytes : List UInt8} (h : bytes.length = count) :
    readUint count (bytes ++ rest) = some (BigEndian.ofBytes bytes, rest) := by
  subst h
  simp [readUint]

@[simp] lemma readFields_nil : readFields [] rest = some [] := rfl

lemma readFields_cons {type : FieldType} {buf : List UInt8} {text : FieldText}
    (h : readField type buf = some (text, rest)) :
    readFields ((name, type) :: defs) buf = (readFields defs rest).map ((name, text) :: ·) := by
  simp only [readFields, h, Option.bind_eq_bind, Option.bind_some]
  cases readFields defs rest <;> rfl

@[simp] lemma readFields_u8 : readFields ((name, .u8) :: defs) (BigEndian.beBytes 1 n ++ rest)
    = (readFields defs rest).map ((name, .decimal (n % 256)) :: ·) := by
  apply readFields_cons
  rw [readField, readUint_append (by simp), BigEndian.ofBytes_beBytes]
  rfl

@[simp] lemma readFields_u64 : readFields ((name, .u64) :: defs) (BigEndian.beBytes 8 n ++ rest)
    = (readFields defs rest).map ((name, .decimal (n % u64Size)) :: ·) := by
  apply readFields_cons
  rw [readField, readUint_append (by simp), BigEndian.ofBytes_beBytes]
  rfl

@[simp] lemma readFields_u256 : readFields ((name, .u256) :: defs) (BigEndian.beBytes 32 n ++ rest)
    = (readFields defs rest).map ((name, .decimal (n % u256Size)) :: ·) := by
  apply readFields_cons
  rw [readField, readUint_append (by simp), BigEndian.ofBytes_beBytes]
  rfl

/-- A word that is no number is read as one. -/
@[simp] lemma readFields_u256_word : readFields ((name, .u256) :: defs) (a.val ++ rest)
    = (readFields defs rest).map ((name, .decimal a.toNat) :: ·) := by
  apply readFields_cons
  rw [readField, readUint_append a.length_val]
  rfl

@[simp] lemma readFields_address : readFields ((name, .address) :: defs) (a.val ++ rest)
    = (readFields defs rest).map ((name, .hex (hexString a.val)) :: ·) := by
  have htake : (a.val ++ rest).take 32 = a.val := List.take_left' a.length_val
  have hdrop : (a.val ++ rest).drop 32 = rest := List.drop_left' a.length_val
  apply readFields_cons
  rw [readField, readAddress, htake, hdrop]

end

/-- The text of an event is decoded to its bytes. -/
lemma parseEventData_reported (pool : String) (e : Event) (defs : List FieldDef)
    (h : e.data ≠ []) : parseEventData (e.reported pool).data defs = readFields defs e.data := by
  have htext : (e.reported pool).data.toList = Base64.encode e.data := String.toList_ofList
  have hne : Base64.encode e.data ≠ [] := by
    intro hnil
    have hdecode := Base64.decode_encode e.data
    rw [hnil] at hdecode
    exact h (Option.some.inj hdecode).symm
  rw [parseEventData, htext, if_neg hne, Base64.decode_encode]
  rfl

/-! ### The events of the pools -/

section

variable {tracking : Tracking} {pool txId : String} {blockNumber capacity i n : ℕ}
  {o : OptionRecord} {a b : Address} {hash : Bytes32}

/-- The handler of an event. -/
lemma decodeEvent_reported (e : Event) :
    decodeEvent tracking (e.reported pool) blockNumber txId
      = match e.name with
        | .optionWritten => handleWritten tracking (e.reported pool) blockNumber txId
        | .optionCancelled => handleCancelled (e.reported pool) blockNumber txId
        | .optionPurchased => handlePurchased (e.reported pool) blockNumber txId
        | .optionExercised => handleExercised (e.reported pool) blockNumber txId
        | .optionExpired => handleSettled (e.reported pool) blockNumber txId
        | .optionTransferred => handleTransferred (e.reported pool) blockNumber txId
        | .optionReserved => handleOptionReserved (e.reported pool) blockNumber txId
        | .reservationExecuted => handleReservationExecuted (e.reported pool) blockNumber txId
        | .reservationCancelled => handleReservationCancelled (e.reported pool) blockNumber txId
        | .optionWrittenBtc => handleWrittenBtc tracking (e.reported pool) blockNumber txId
        | .optionRolled | .feeRecipientUpdated | .btcClaimable | .optionRestored => [] := by
  have htype : (e.reported pool).type = e.name.type := rfl
  cases hname : e.name <;>
    simp [decodeEvent, htype, hname, EventName.type, evWritten, evCancelled, evPurchased,
      evExercised, evSettled, evTransferred, evOptionReserved, evReservationExecuted,
      evReservationCancelled, evOptionWrittenBtc]

lemma length_flatMap_encode (fields : List Field) :
    (fields.flatMap Field.encode).length = fieldsWidth fields := by
  induction fields with
  | nil => rfl
  | cons f fields ih =>
    rw [List.flatMap_cons, List.length_append, Field.length_encode, ih, fieldsWidth_cons]

/-- What is read of an event that carries anything. -/
lemma parse_event {name : EventName} {fields : List Field} {defs : List FieldDef}
    (hwidth : 0 < fieldsWidth fields) :
    parseEventData (Event.reported pool ⟨name, capacity, fields⟩).data defs
      = readFields defs (fields.flatMap Field.encode
          ++ List.replicate (capacity - fieldsWidth fields) 0) := by
  refine parseEventData_reported pool ⟨name, capacity, fields⟩ defs fun hnil => ?_
  have hlen := congrArg List.length hnil
  simp only [Event.data, buffer, List.length_append, length_flatMap_encode, List.length_nil] at hlen
  omega

/-- The fields of `OptionWritten` as they are read. -/
def writtenTexts (o : OptionRecord) : EventFields :=
  [("optionId", .decimal (o.id % u256Size)), ("writer", .hex (hexString o.writer.val)),
    ("optionType", .decimal (o.optionType.toU8 % 256)),
    ("strikePrice", .decimal (o.strikePrice % u256Size)),
    ("underlyingAmount", .decimal (o.underlyingAmount % u256Size)),
    ("premium", .decimal (o.premium % u256Size)),
    ("expiryBlock", .decimal (o.expiryBlock % u64Size))]

lemma readFields_writtenDefs {defs : List FieldDef} {rest : List UInt8} :
    readFields (writtenDefs ++ defs)
        ((OptionsPool.writtenFields o).flatMap Field.encode ++ rest)
      = (readFields defs rest).map (writtenTexts o ++ ·) := by
  simp only [writtenDefs, OptionsPool.writtenFields, List.flatMap_cons, Field.encode,
    List.append_assoc, List.cons_append, readFields_u256, readFields_address, readFields_u8,
    readFields_u64, Option.map_map, List.flatMap_nil, List.nil_append]
  rfl

lemma decode_written :
    decodeEvent tracking
        (Event.reported pool ⟨.optionWritten, capacity, OptionsPool.writtenFields o⟩) blockNumber
        txId
      = [.insertOption (writtenRow tracking pool blockNumber txId (writtenTexts o))] := by
  rw [decodeEvent_reported]
  simp only
  rw [handleWritten, parse_event (by simp [OptionsPool.writtenFields, Field.width]),
    ← List.append_nil writtenDefs, readFields_writtenDefs]
  rfl

lemma decode_cancelled {back fee : ℕ} :
    decodeEvent tracking (Event.reported pool
        ⟨.optionCancelled, capacity, [.u256 i, .address a, .u256 back, .u256 fee]⟩) blockNumber txId
      = .updateOptionStatus pool (number (i % u256Size)) OptionStatus.CANCELLED none blockNumber
          txId
        :: feeStmts pool blockNumber txId (number (i % u256Size)) .CANCEL (fee % u256Size) := by
  rw [decodeEvent_reported]
  simp only
  rw [handleCancelled, parse_event (by simp [Field.width])]
  simp only [List.flatMap_cons, Field.encode, List.append_assoc, readFields_u256,
    readFields_address, readFields_nil, Option.map_some]
  rfl

/-- The fee is read from the escrow hash. -/
lemma decode_escrow_cancelled :
    decodeEvent tracking (Event.reported pool
        ⟨.optionCancelled, capacity, [.u256 i, .address a, .u256 n, .bytes hash.val]⟩) blockNumber
        txId
      = .updateOptionStatus pool (number (i % u256Size)) OptionStatus.CANCELLED none blockNumber
          txId
        :: feeStmts pool blockNumber txId (number (i % u256Size)) .CANCEL hash.toNat := by
  rw [decodeEvent_reported]
  simp only
  rw [handleCancelled, parse_event (by simp [Field.width])]
  simp only [List.flatMap_cons, Field.encode, List.append_assoc, readFields_u256,
    readFields_address, readFields_u256_word, readFields_nil, Option.map_some]
  rfl

lemma decode_purchased {premium writerAmount : ℕ} :
    decodeEvent tracking (Event.reported pool
        ⟨.optionPurchased, capacity, [.u256 i, .address a, .address b, .u256 premium,
          .u256 writerAmount, .u64 n]⟩) blockNumber txId
      = .updateOptionStatus pool (number (i % u256Size)) OptionStatus.PURCHASED
          (some (hexString a.val)) blockNumber txId
        :: feeStmts pool blockNumber txId (number (i % u256Size)) .BUY
          (if writerAmount % u256Size ≤ premium % u256Size then
            premium % u256Size - writerAmount % u256Size
          else 0) := by
  rw [decodeEvent_reported]
  simp only
  rw [handlePurchased, parse_event (by simp [Field.width])]
  simp only [List.flatMap_cons, Field.encode, List.append_assoc, readFields_u256,
    readFields_address, readFields_u64, readFields_nil, Option.map_some]
  rfl

lemma decode_exercised {value fee : ℕ} :
    decodeEvent tracking (Event.reported pool
        ⟨.optionExercised, capacity, OptionsPool.exercisedFields o value fee⟩) blockNumber txId
      = .updateOptionStatus pool (number (o.id % u256Size)) OptionStatus.EXERCISED none blockNumber
          txId
        :: feeStmts pool blockNumber txId (number (o.id % u256Size)) .EXERCISE
          (fee % u256Size) := by
  rw [decodeEvent_reported]
  simp only
  rw [handleExercised, parse_event (by simp [OptionsPool.exercisedFields, Field.width])]
  simp only [OptionsPool.exercisedFields, List.flatMap_cons, Field.encode, List.append_assoc,
    readFields_u256, readFields_address, readFields_u8, readFields_nil, Option.map_some]
  rfl

/-- What follows the writer is a number, whatever the pool means by it. -/
lemma decode_expired {rest : List Field} :
    decodeEvent tracking (Event.reported pool
        ⟨.optionExpired, capacity, .u256 i :: .address a :: .u256 n :: rest⟩) blockNumber txId
      = [.updateOptionStatus pool (number (i % u256Size)) OptionStatus.EXPIRED none blockNumber
          txId] := by
  rw [decodeEvent_reported]
  simp only
  rw [handleSettled, parse_event (by simp [Field.width])]
  simp only [List.flatMap_cons, Field.encode, List.append_assoc, readFields_u256,
    readFields_address, readFields_nil, Option.map_some]
  rfl

lemma decode_transferred :
    decodeEvent tracking (Event.reported pool
        ⟨.optionTransferred, capacity, [.u256 i, .address a, .address b]⟩) blockNumber txId
      = [.updateOptionBuyer pool (number (i % u256Size)) (hexString b.val) blockNumber txId,
          .insertOptionTransfer
            { poolAddress := pool
              optionId := number (i % u256Size)
              fromAddress := hexString a.val
              toAddress := hexString b.val
              blockNumber := blockNumber
              txId := txId }] := by
  rw [decodeEvent_reported]
  simp only
  rw [handleTransferred, parse_event (by simp [Field.width])]
  simp only [List.flatMap_cons, Field.encode, List.append_assoc, readFields_u256,
    readFields_address, readFields_nil, Option.map_some]
  rfl

lemma decode_reserved {amount expiryBlock : ℕ} :
    decodeEvent tracking (Event.reported pool
        ⟨.optionReserved, capacity, [.u256 n, .u256 i, .address a, .u256 amount, .bytes hash.val,
          .u64 expiryBlock]⟩) blockNumber txId
      = [.updateOptionStatus pool (number (i % u256Size)) OptionStatus.RESERVED none blockNumber
          txId] := by
  rw [decodeEvent_reported]
  simp only
  rw [handleOptionReserved, parse_event (by simp [Field.width])]
  simp only [List.flatMap_cons, Field.encode, List.append_assoc, readFields_u256,
    readFields_address, readFields_u64, readFields_nil, Option.map_some]
  rfl

lemma decode_executed :
    decodeEvent tracking (Event.reported pool
        ⟨.reservationExecuted, capacity, [.u256 n, .u256 i, .address a]⟩) blockNumber txId
      = [.updateOptionStatus pool (number (i % u256Size)) OptionStatus.PURCHASED
            (some (hexString a.val)) blockNumber txId,
          .updateOptionBuyer pool (number (i % u256Size)) (hexString a.val) blockNumber txId] := by
  rw [decodeEvent_reported]
  simp only
  rw [handleReservationExecuted, parse_event (by simp [Field.width])]
  simp only [List.flatMap_cons, Field.encode, List.append_assoc, readFields_u256,
    readFields_address, readFields_nil, Option.map_some]
  rfl

lemma decode_released :
    decodeEvent tracking (Event.reported pool
        ⟨.reservationCancelled, capacity, [.u256 n, .u256 i]⟩) blockNumber txId
      = [.updateOptionStatus pool (number (i % u256Size)) OptionStatus.OPEN none blockNumber
          txId] := by
  rw [decodeEvent_reported]
  simp only
  rw [handleReservationCancelled, parse_event (by simp [Field.width])]
  simp only [List.flatMap_cons, Field.encode, List.append_assoc, readFields_u256,
    readFields_nil, Option.map_some]
  rfl

/-- The escrow hash is read as the missing `btcCollateralAmount`, and is not used. -/
lemma decode_writtenBtc :
    decodeEvent tracking (Event.reported pool
        ⟨.optionWrittenBtc, capacity, OptionsPool.writtenFields o ++ [.bytes hash.val]⟩) blockNumber
        txId
      = [.insertOption (writtenRow tracking pool blockNumber txId (writtenTexts o))] := by
  rw [decodeEvent_reported]
  simp only
  rw [handleWrittenBtc, parse_event (by simp [OptionsPool.writtenFields, Field.width]),
    List.flatMap_append, List.append_assoc, readFields_writtenDefs]
  simp only [List.flatMap_cons, Field.encode, List.flatMap_nil, List.append_nil,
    readFields_u256_word]
  rfl

/-- The events that change no table. -/
def EventName.Silent : EventName → Prop
  | .optionRolled | .feeRecipientUpdated | .btcClaimable | .optionRestored => True
  | _ => False

lemma decode_silent {e : Event} (h : EventName.Silent e.name) :
    decodeEvent tracking (e.reported pool) blockNumber txId = [] := by
  rw [decodeEvent_reported]
  cases hname : e.name with
  | optionRolled | feeRecipientUpdated | btcClaimable | optionRestored => rfl
  | _ =>
    rw [hname] at h
    exact h.elim

end

end Indexer

end Frogop
