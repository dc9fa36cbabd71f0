import Frogop.Indexer.Events

/-!
# Truncated events

The numbers of an event are read byte by byte, and a reader that runs out of bytes throws. An
address is a slice of the buffer, which may be shorter than 32 bytes. So a payload that ends within
the addresses after its last number is decoded all the same (`wellSized_iff`).
-/

namespace Frogop.Indexer

/-! ### What the fields should read -/

def FieldType.width : FieldType → ℕ
  | .u8 => 1
  | .u64 => 8
  | .u256 => 32
  | .address => 32

def totalWidth (fields : List FieldDef) : ℕ := (fields.map fun field => field.2.width).sum

/-- The width up to the end of the last number. -/
def numbersEnd : List FieldDef → ℕ
  | [] => 0
  | (_, type) :: fields =>
    if type = .address ∧ numbersEnd fields = 0 then 0 else type.width + numbersEnd fields

/-- The text of a field whose bytes are given: a big-endian number, or hex digits. -/
def FieldType.spell : FieldType → List UInt8 → FieldText
  | .address, bytes => .hex (hexString bytes)
  | .u8, bytes | .u64, bytes | .u256, bytes => .decimal (BigEndian.ofBytes bytes)

/-- Every field with the text of its own bytes. -/
def ownTexts : List FieldDef → List UInt8 → EventFields
  | [], _ => []
  | (name, type) :: fields, bytes =>
    (name, type.spell (bytes.take type.width)) :: ownTexts fields (bytes.drop type.width)

/-- `result[name]`; a later field overwrites an earlier one of the same name. -/
def EventFields.get (f : EventFields) (name : String) : Option FieldText := f.reverse.lookup name

/-- The data of an event, as the RPC reports its bytes. -/
def payload (bytes : List UInt8) : String := String.ofList (Base64.encode bytes)

/-- Only a payload of full size is accepted, and then every field is its own. -/
structure WellSized (fields : List FieldDef) (bytes : List UInt8) : Prop where
  null_iff : parseEventData (payload bytes) fields = none ↔
    bytes = [] ∨ bytes.length < totalWidth fields
  own : ∀ f, parseEventData (payload bytes) fields = some f →
    ∀ field ∈ ownTexts fields bytes, f.get field.1 = some field.2

/-- Fields of one name have one text. -/
def SameTexts (f : EventFields) : Prop := ∀ p ∈ f, ∀ q ∈ f, p.1 = q.1 → p.2 = q.2

section

variable {fields : List FieldDef} {buf bytes : List UInt8} {type : FieldType} {f : EventFields}

/-! ### Reading -/

/-- A number needs all its bytes. -/
lemma readField_number (h : type ≠ .address) (buf : List UInt8) : readField type buf
    = if type.width ≤ buf.length then
        some (type.spell (buf.take type.width), buf.drop type.width)
      else none := by
  cases type with
  | address => exact absurd rfl h
  | u8 | u64 | u256 =>
    simp only [readField, readUint, FieldType.width, FieldType.spell]
    split_ifs with hfits <;> simp [hfits]

/-- An address takes what there is. -/
lemma readField_address (buf : List UInt8) : readField .address buf
    = some (FieldType.address.spell (buf.take 32), buf.drop 32) := rfl

lemma readFields_cons_none {name : String} (h : readField type buf = none) :
    readFields ((name, type) :: fields) buf = none := by
  simp only [readFields, h, Option.bind_eq_bind, Option.bind_none]

/-- Reading fails only when the bytes end before the last number does. -/
lemma readFields_eq (fields : List FieldDef) (buf : List UInt8) : readFields fields buf
    = if buf.length < numbersEnd fields then none else some (ownTexts fields buf) := by
  induction fields generalizing buf with
  | nil => rfl
  | cons field fields ih =>
    obtain ⟨name, type⟩ := field
    by_cases haddress : type = .address
    · subst haddress
      rw [readFields_cons (readField_address buf), ih, List.length_drop]
      have hend : buf.length - 32 < numbersEnd fields ↔
          buf.length < numbersEnd ((name, .address) :: fields) := by
        simp only [numbersEnd, FieldType.width, true_and]
        split_ifs <;> omega
      simp only [hend]
      split_ifs <;> rfl
    · have hend : numbersEnd ((name, type) :: fields) = type.width + numbersEnd fields :=
        if_neg fun h => haddress h.1
      have hread := readField_number haddress buf
      rw [hend]
      by_cases hfits : type.width ≤ buf.length
      · rw [if_pos hfits] at hread
        rw [readFields_cons hread, ih, List.length_drop]
        have hrest : buf.length - type.width < numbersEnd fields ↔
            buf.length < type.width + numbersEnd fields := by omega
        simp only [hrest]
        split_ifs <;> rfl
      · rw [if_neg hfits] at hread
        rw [readFields_cons_none hread, if_pos (by omega)]

lemma numbersEnd_le (fields : List FieldDef) : numbersEnd fields ≤ totalWidth fields := by
  induction fields with
  | nil => exact le_rfl
  | cons field fields ih =>
    simp only [totalWidth, List.map_cons, List.sum_cons] at ih ⊢
    rw [numbersEnd]
    split_ifs <;> omega

/-- What is returned for a payload. -/
lemma parseEventData_payload (fields : List FieldDef) (bytes : List UInt8) :
    parseEventData (payload bytes) fields
      = if bytes = [] ∨ bytes.length < numbersEnd fields then none
        else some (ownTexts fields bytes) := by
  have htext : (payload bytes).toList = Base64.encode bytes := String.toList_ofList
  rw [parseEventData, htext]
  by_cases hnil : bytes = []
  · subst hnil
    rfl
  · have hne : Base64.encode bytes ≠ [] := by
      intro hencode
      have hdecode := Base64.decode_encode bytes
      rw [hencode] at hdecode
      exact hnil (Option.some.inj hdecode).symm
    rw [if_neg hne, Base64.decode_encode, Option.bind_eq_bind, Option.bind_some, readFields_eq]
    simp only [hnil, false_or]

/-! ### Names -/

/-- Every field is found under its name when the names do not clash. -/
lemma get_iff : (∀ field ∈ f, f.get field.1 = some field.2) ↔ SameTexts f := by
  constructor
  · intro hget p hp q hq hname
    have hsame := hget p hp
    rw [hname, hget q hq] at hsame
    exact (Option.some.inj hsame).symm
  · intro hsame field hfield
    cases hget : f.get field.1 with
    | none =>
      have hnot := List.lookup_eq_none_iff.mp hget field (List.mem_reverse.mpr hfield)
      simp at hnot
    | some text =>
      obtain ⟨before, after, hlist, -⟩ := List.lookup_eq_some_iff.mp hget
      have hmem : (field.1, text) ∈ f := by
        rw [← List.mem_reverse, hlist]
        exact List.mem_append_right _ List.mem_cons_self
      exact congrArg some (hsame _ hmem field hfield rfl)

lemma wellSized_iff_bytes : WellSized fields bytes ↔
    bytes = [] ∨ bytes.length < numbersEnd fields ∨
      totalWidth fields ≤ bytes.length ∧ SameTexts (ownTexts fields bytes) := by
  have hparse := parseEventData_payload fields bytes
  have hle := numbersEnd_le fields
  by_cases hnone : bytes = [] ∨ bytes.length < numbersEnd fields
  · rw [if_pos hnone] at hparse
    refine ⟨fun _ => hnone.imp_right .inl, fun _ => ⟨?_, fun f hf => ?_⟩⟩
    · rw [hparse]
      exact iff_of_true rfl (hnone.imp_right fun hlt => hlt.trans_le hle)
    · rw [hparse] at hf
      cases hf
  · rw [if_neg hnone] at hparse
    obtain ⟨hne, hlong⟩ := not_or.mp hnone
    have hlong := not_lt.mp hlong
    constructor
    · intro hsized
      right
      right
      refine ⟨?_, get_iff.mp (hsized.own _ hparse)⟩
      by_contra hshort
      have hnull := hsized.null_iff.mpr (.inr (not_le.mp hshort))
      rw [hparse] at hnull
      cases hnull
    · rintro (hnil | hlt | ⟨hfull, hsame⟩)
      · exact absurd hnil hne
      · omega
      · refine ⟨?_, fun f hf => ?_⟩
        · rw [hparse]
          apply iff_of_false (by simp)
          rintro (hnil | hlt)
          · exact hne hnil
          · omega
        · rw [hparse] at hf
          cases hf
          exact get_iff.mpr hsame

end

/-! ### Handlers -/

/-- The fields that the handler of an event reads. -/
def eventDefs (type : String) : Option (List FieldDef) :=
  if type = evWritten then some writtenDefs
  else if type = evCancelled then
    some [("optionId", .u256), ("writer", .address), ("returnAmount", .u256), ("fee", .u256)]
  else if type = evPurchased then
    some [("optionId", .u256), ("buyer", .address), ("writer", .address), ("premium", .u256),
      ("writerAmount", .u256), ("currentBlock", .u64)]
  else if type = evExercised then
    some [("optionId", .u256), ("buyer", .address), ("writer", .address), ("optionType", .u8),
      ("underlyingAmount", .u256), ("strikeValue", .u256), ("exerciseFee", .u256)]
  else if type = evSettled then
    some [("optionId", .u256), ("writer", .address), ("collateralAmount", .u256)]
  else if type = evTransferred then
    some [("optionId", .u256), ("from", .address), ("to", .address)]
  else if type = evOptionReserved then
    some [("reservationId", .u256), ("optionId", .u256), ("buyer", .address), ("btcAmount", .u256),
      ("csvScriptHash", .address), ("expiryBlock", .u64)]
  else if type = evReservationExecuted then
    some [("reservationId", .u256), ("optionId", .u256), ("buyer", .address)]
  else if type = evReservationCancelled then some [("reservationId", .u256), ("optionId", .u256)]
  else if type = evOptionWrittenBtc then
    some (writtenDefs ++ [("btcCollateralAmount", .u256), ("escrowScriptHash", .address)])
  else none

def swapDefs : List FieldDef :=
  [("buyer", .address), ("amountIn", .u64), ("amountOut", .u256), ("totalFees", .u256)]

/-- The fields that `decodeBlock` reads of an event; there are none where the event is skipped. -/
def handledDefs (tracking : Tracking) (event : TxEvent) : Option (List FieldDef) :=
  match tracking.swapLabelMap event.normalized.contractAddress with
  | some tokenLabel =>
    if tokenLabel ≠ "" ∧ event.normalized.type = evSwapExecuted then some swapDefs
    else if event.normalized.contractAddress ∈ tracking.trackedPools then
      eventDefs event.normalized.type
    else none
  | none =>
    if event.normalized.contractAddress ∈ tracking.trackedPools then
      eventDefs event.normalized.type
    else none

/-- The payload of the event is shorter than the fields that are read of it. -/
def Truncated (tracking : Tracking) (event : TxEvent) : Prop :=
  ∃ fields bytes, handledDefs tracking event = some fields ∧ event.data = payload bytes ∧
    bytes.length < totalWidth fields

/-- No statement of a block is built from a truncated event. -/
def NoneTruncated (tracking : Tracking) (blockNumber : ℕ) (txs : List BlockTx) : Prop :=
  ∀ tx ∈ txs, ∀ event ∈ tx.events, Truncated tracking event →
    decodeTxEvent tracking event blockNumber tx.id = []

section

variable {tracking : Tracking} {event : TxEvent} {blockNumber : ℕ} {txId : String}

/-- One case of the `switch`. -/
lemma case_eq_nil {c : Prop} [Decidable c] {stmts others : List Stmt} {fields : List FieldDef}
    {rest : Option (List FieldDef)} {data : String}
    (hcase : stmts = [] ↔ parseEventData data fields = none)
    (hrest : others = [] ↔ ∀ fields', rest = some fields' → parseEventData data fields' = none) :
    (if c then stmts else others) = [] ↔
      ∀ fields', (if c then some fields else rest) = some fields' →
        parseEventData data fields' = none := by
  split_ifs
  · simpa using hcase
  · exact hrest

/-- An event has statements when its data can be parsed. -/
lemma decodeEvent_eq_nil : decodeEvent tracking event blockNumber txId = [] ↔
    ∀ fields, eventDefs event.type = some fields → parseEventData event.data fields = none := by
  rw [decodeEvent, eventDefs]
  refine case_eq_nil ?_ (case_eq_nil ?_ (case_eq_nil ?_ (case_eq_nil ?_ (case_eq_nil ?_
    (case_eq_nil ?_ (case_eq_nil ?_ (case_eq_nil ?_ (case_eq_nil ?_ (case_eq_nil ?_
      (by simp))))))))))
  · rw [handleWritten]
    cases parseEventData event.data _ <;> simp
  · rw [handleCancelled]
    cases parseEventData event.data _ <;> simp
  · rw [handlePurchased]
    cases parseEventData event.data _ <;> simp
  · rw [handleExercised]
    cases parseEventData event.data _ <;> simp
  · rw [handleSettled]
    cases parseEventData event.data _ <;> simp
  · rw [handleTransferred]
    cases parseEventData event.data _ <;> simp
  · rw [handleOptionReserved]
    cases parseEventData event.data _ <;> simp
  · rw [handleReservationExecuted]
    cases parseEventData event.data _ <;> simp
  · rw [handleReservationCancelled]
    cases parseEventData event.data _ <;> simp
  · rw [handleWrittenBtc]
    cases parseEventData event.data _ <;> simp

lemma handleSwapExecuted_eq_nil {tokenLabel : String} :
    handleSwapExecuted event blockNumber txId tokenLabel = [] ↔
      parseEventData event.data swapDefs = none := by
  rw [handleSwapExecuted, ← swapDefs]
  cases parseEventData event.data swapDefs <;> simp

lemma decodeTxEvent_eq_nil : decodeTxEvent tracking event blockNumber txId = [] ↔
    ∀ fields, handledDefs tracking event = some fields →
      parseEventData event.data fields = none := by
  have hdata : event.normalized.data = event.data := rfl
  have htracked : (if event.normalized.contractAddress ∈ tracking.trackedPools then
        decodeEvent tracking event.normalized blockNumber txId
      else []) = [] ↔
      ∀ fields, (if event.normalized.contractAddress ∈ tracking.trackedPools then
        eventDefs event.normalized.type else none) = some fields →
        parseEventData event.data fields = none := by
    split_ifs
    · rw [decodeEvent_eq_nil, hdata]
    · simp
  unfold decodeTxEvent handledDefs
  dsimp only
  cases tracking.swapLabelMap event.normalized.contractAddress with
  | none => exact htracked
  | some tokenLabel =>
    dsimp only
    by_cases hswap : tokenLabel ≠ "" ∧ event.normalized.type = evSwapExecuted
    · rw [if_pos hswap, if_pos hswap, handleSwapExecuted_eq_nil, hdata]
      simp
    · rw [if_neg hswap, if_neg hswap]
      exact htracked

end

/-- A payload is accepted exactly when it has its full size, and its fields are its own, but where
it ends within the addresses after the last number, or where two fields have one name and different
texts. A truncated event makes statements exactly when it is cut there. -/
theorem wellSized_iff (fields : List FieldDef) (bytes : List UInt8) (tracking : Tracking)
    (blockNumber : ℕ) (txs : List BlockTx) :
    (WellSized fields bytes ↔
      bytes = [] ∨ bytes.length < numbersEnd fields ∨
        totalWidth fields ≤ bytes.length ∧ SameTexts (ownTexts fields bytes)) ∧
    (NoneTruncated tracking blockNumber txs ↔
      ∀ tx ∈ txs, ∀ event ∈ tx.events, ∀ fields bytes,
        handledDefs tracking event = some fields → event.data = payload bytes →
        bytes = [] ∨ bytes.length < numbersEnd fields ∨ totalWidth fields ≤ bytes.length) := by
  refine ⟨wellSized_iff_bytes, ?_, ?_⟩
  · intro hnone tx htx event hevent fields bytes hdefs hdata
    by_cases hfull : totalWidth fields ≤ bytes.length
    · exact .inr (.inr hfull)
    · have hempty := hnone tx htx event hevent ⟨fields, bytes, hdefs, hdata, not_le.mp hfull⟩
      have hparse := decodeTxEvent_eq_nil.mp hempty fields hdefs
      rw [hdata, parseEventData_payload] at hparse
      by_contra hcut
      rw [if_neg fun h => hcut (h.imp_right .inl)] at hparse
      cases hparse
  · rintro hcut tx htx event hevent ⟨fields, bytes, hdefs, hdata, hshort⟩
    rw [decodeTxEvent_eq_nil]
    intro fields' hdefs'
    obtain rfl : fields = fields' := Option.some.inj (hdefs.symm.trans hdefs')
    rw [hdata, parseEventData_payload, if_pos]
    rcases hcut tx htx event hevent fields bytes hdefs hdata with hnil | hlt | hfull
    · exact .inl hnil
    · exact .inr hlt
    · omega

namespace Truncation.Example

/-- A transfer event that ends after the old buyer. -/
def cut : TxEvent := ⟨"0xpool", "OptionTransferred", payload (List.replicate 64 0)⟩

def tracking : Tracking := ⟨["0xpool"], fun _ => none, fun _ => none⟩

/-- The new buyer of a truncated transfer is the text `0x`. -/
theorem wellSized_cut :
    (¬ ∀ fields bytes, WellSized fields bytes) ∧
    (¬ ∀ tracking blockNumber txs, NoneTruncated tracking blockNumber txs) ∧
    ∃ row, decodeTxEvent tracking cut 5 "tx" = [.updateOptionBuyer "0xpool" 0 "0x" 5 "tx",
      .insertOptionTransfer row] := by
  refine ⟨fun hall => ?_, fun hall => ?_, ?_⟩
  · have hnull := (hall [("optionId", .u256), ("from", .address), ("to", .address)]
      (List.replicate 64 0)).null_iff.mpr (.inr (by decide))
    rw [parseEventData_payload, if_neg (by decide)] at hnull
    cases hnull
  · have hempty := hall tracking 5 [⟨"tx", [cut]⟩] _ List.mem_cons_self _ List.mem_cons_self
      ⟨[("optionId", .u256), ("from", .address), ("to", .address)], List.replicate 64 0,
        by decide, rfl, by decide⟩
    have hparse := decodeTxEvent_eq_nil.mp hempty
      [("optionId", .u256), ("from", .address), ("to", .address)] (by decide)
    rw [cut, parseEventData_payload, if_neg (by decide)] at hparse
    cases hparse
  · have hlower : toLowerCase "0xpool" = "0xpool" := by decide
    have hdecode : ∀ data, decodeTxEvent tracking ⟨"0xpool", "OptionTransferred", data⟩ 5 "tx"
        = handleTransferred ⟨"0xpool", "OptionTransferred", data⟩ 5 "tx" := by
      intro data
      simp [decodeTxEvent, TxEvent.normalized, hlower, tracking, decodeEvent, evWritten,
        evCancelled, evPurchased, evExercised, evSettled, evTransferred]
    rw [cut, hdecode, handleTransferred, parseEventData_payload, if_neg (by decide)]
    exact ⟨_, rfl⟩

end Truncation.Example

end Frogop.Indexer
