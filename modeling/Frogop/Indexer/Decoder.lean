import Frogop.Indexer.Database
import Frogop.Lib.Base64
import Frogop.Lib.BigEndian

/-!
# The event decoder

`decodeBlock` turns the events of one block into statements. The data of an event is a Base64 text
of the bytes that a `BytesWriter` wrote; a handler reads the fields it knows from the front and
leaves the rest.
-/

namespace Frogop.Indexer

/-! ### Texts and numbers -/

/-- `s.toLowerCase()` of an ASCII text. -/
def toLowerCase (s : String) : String := String.ofList (s.toList.map Char.toLower)

/-- `b.toString(16).padStart(2, '0')` -/
def hexByte (b : UInt8) : List Char :=
  [Nat.digitChar (b.toNat / 16), Nat.digitChar (b.toNat % 16)]

/-- `'0x' + hex` -/
def hexString (bytes : List UInt8) : String := String.ofList ('0' :: 'x' :: bytes.flatMap hexByte)

/-- `Number(n)` of a whole number: the nearest double, the even one of two. -/
def number (n : ℕ) : ℕ :=
  let unit := 2 ^ (n.log2 - 52)
  let quotient := n / unit
  if unit < 2 * (n % unit) ∨ (2 * (n % unit) = unit ∧ quotient % 2 = 1) then
    (quotient + 1) * unit
  else quotient * unit

/-! ### Events of the RPC -/

structure TxEvent where
  contractAddress : String
  type : String
  data : String
  deriving DecidableEq, Repr

structure BlockTx where
  id : String
  events : List TxEvent
  deriving DecidableEq, Repr

/-! ### Reader -/

inductive FieldType
  | u8
  | u64
  | u256
  | address
  deriving DecidableEq, Repr

/-- The text of a field; a decimal text is the number it spells. -/
inductive FieldText
  | decimal (n : ℕ)
  | hex (s : String)
  deriving DecidableEq, Repr

/-- The loop of `readU64` and `readU256`, with the bytes left to read; it throws at the end of the
buffer. -/
def readUint (count : ℕ) (buf : List UInt8) : Option (ℕ × List UInt8) :=
  if count ≤ buf.length then some (BigEndian.ofBytes (buf.take count), buf.drop count) else none

/-- `readAddress` takes what is left, if that is less than 32 bytes. -/
def readAddress (buf : List UInt8) : String × List UInt8 :=
  (hexString (buf.take 32), buf.drop 32)

def readField : FieldType → List UInt8 → Option (FieldText × List UInt8)
  | .u8, buf => (readUint 1 buf).map fun (n, rest) => (.decimal n, rest)
  | .u64, buf => (readUint 8 buf).map fun (n, rest) => (.decimal n, rest)
  | .u256, buf => (readUint 32 buf).map fun (n, rest) => (.decimal n, rest)
  | .address, buf =>
    let (text, rest) := readAddress buf
    some (.hex text, rest)

abbrev FieldDef := String × FieldType

/-- The fields of an event, by name. -/
abbrev EventFields := List (String × FieldText)

def readFields : List FieldDef → List UInt8 → Option EventFields
  | [], _ => some []
  | (name, type) :: fields, buf => do
    let (text, rest) ← readField type buf
    return (name, text) :: (← readFields fields rest)

/-- `parseEventData`; `none` is `null`. -/
def parseEventData (data : String) (fields : List FieldDef) : Option EventFields :=
  if data.toList = [] then none else Base64.decode data.toList >>= readFields fields

namespace EventFields

/-- `f[name] ?? '0'` -/
def decimal (f : EventFields) (name : String) : ℕ :=
  match f.lookup name with
  | some (.decimal n) => n
  | _ => 0

/-- `f[name] ?? ''` -/
def text (f : EventFields) (name : String) : String :=
  match f.lookup name with
  | some (.hex s) => s
  | _ => ""

end EventFields

/-! ### What is decoded -/

def evWritten : String := "OptionWritten"
def evCancelled : String := "OptionCancelled"
def evPurchased : String := "OptionPurchased"
def evExercised : String := "OptionExercised"
def evSettled : String := "OptionExpired"
def evTransferred : String := "OptionTransferred"
def evSwapExecuted : String := "SwapExecuted"
def evOptionReserved : String := "OptionReserved"
def evReservationExecuted : String := "ReservationExecuted"
def evReservationCancelled : String := "ReservationCancelled"
def evOptionWrittenBtc : String := "OptionWrittenBtc"

def defaultGracePeriodBlocks : ℕ := 144

/-- The maps that the poller hands to the decoder, all by lower-case address. -/
structure Tracking where
  trackedPools : List String
  swapLabelMap : String → Option String
  poolGracePeriods : String → Option ℕ

/-! ### Handlers -/

section

variable (tracking : Tracking) (event : TxEvent) (poolAddress : String) (blockNumber : ℕ)
  (txId : String)

/-- The fee row a handler adds when the fee is not zero. -/
def feeStmts (optionId : ℕ) (eventType : FeeEventType) (fee : ℕ) : List Stmt :=
  if fee ≠ 0 then
    [.insertFeeEvent
      { poolAddress := poolAddress
        optionId := optionId
        eventType := eventType
        feeRecipient := poolAddress
        token := ""
        amount := fee
        blockNumber := blockNumber
        txId := txId }]
  else []

/-- The row that `handleWritten` and `handleWrittenBtc` insert. -/
def writtenRow (f : EventFields) : OptionRow :=
  let gracePeriod :=
    (tracking.poolGracePeriods poolAddress).getD defaultGracePeriodBlocks
  { poolAddress := poolAddress
    optionId := number (f.decimal "optionId")
    writer := f.text "writer"
    buyer := none
    optionType := number (f.decimal "optionType")
    strikePrice := f.decimal "strikePrice"
    underlyingAmt := f.decimal "underlyingAmount"
    premium := f.decimal "premium"
    expiryBlock := number (f.decimal "expiryBlock")
    graceEndBlock := number (number (f.decimal "expiryBlock") + gracePeriod)
    status := OptionStatus.OPEN
    createdBlock := blockNumber
    createdTx := txId
    updatedBlock := none
    updatedTx := none }

def writtenDefs : List FieldDef :=
  [("optionId", .u256), ("writer", .address), ("optionType", .u8), ("strikePrice", .u256),
    ("underlyingAmount", .u256), ("premium", .u256), ("expiryBlock", .u64)]

def handleWritten : List Stmt :=
  match parseEventData event.data writtenDefs with
  | none => []
  | some f => [.insertOption (writtenRow tracking event.contractAddress blockNumber txId f)]

def handleCancelled : List Stmt :=
  match parseEventData event.data
      [("optionId", .u256), ("writer", .address), ("returnAmount", .u256), ("fee", .u256)] with
  | none => []
  | some f =>
    let optionId := number (f.decimal "optionId")
    .updateOptionStatus event.contractAddress optionId OptionStatus.CANCELLED none blockNumber txId
      :: feeStmts event.contractAddress blockNumber txId optionId .CANCEL (f.decimal "fee")

def handlePurchased : List Stmt :=
  match parseEventData event.data
      [("optionId", .u256), ("buyer", .address), ("writer", .address), ("premium", .u256),
        ("writerAmount", .u256), ("currentBlock", .u64)] with
  | none => []
  | some f =>
    let optionId := number (f.decimal "optionId")
    let premium := f.decimal "premium"
    let writerAmount := f.decimal "writerAmount"
    let fee := if writerAmount ≤ premium then premium - writerAmount else 0
    .updateOptionStatus event.contractAddress optionId OptionStatus.PURCHASED
        (some (f.text "buyer")) blockNumber txId
      :: feeStmts event.contractAddress blockNumber txId optionId .BUY fee

def handleExercised : List Stmt :=
  match parseEventData event.data
      [("optionId", .u256), ("buyer", .address), ("writer", .address), ("optionType", .u8),
        ("underlyingAmount", .u256), ("strikeValue", .u256), ("exerciseFee", .u256)] with
  | none => []
  | some f =>
    let optionId := number (f.decimal "optionId")
    .updateOptionStatus event.contractAddress optionId OptionStatus.EXERCISED none blockNumber txId
      :: feeStmts event.contractAddress blockNumber txId optionId .EXERCISE
        (f.decimal "exerciseFee")

def handleSettled : List Stmt :=
  match parseEventData event.data
      [("optionId", .u256), ("writer", .address), ("collateralAmount", .u256)] with
  | none => []
  | some f =>
    [.updateOptionStatus event.contractAddress (number (f.decimal "optionId"))
      OptionStatus.EXPIRED none blockNumber txId]

def handleTransferred : List Stmt :=
  match parseEventData event.data
      [("optionId", .u256), ("from", .address), ("to", .address)] with
  | none => []
  | some f =>
    let optionId := number (f.decimal "optionId")
    [.updateOptionBuyer event.contractAddress optionId (f.text "to") blockNumber txId,
      .insertOptionTransfer
        { poolAddress := event.contractAddress
          optionId := optionId
          fromAddress := f.text "from"
          toAddress := f.text "to"
          blockNumber := blockNumber
          txId := txId }]

def handleOptionReserved : List Stmt :=
  match parseEventData event.data
      [("reservationId", .u256), ("optionId", .u256), ("buyer", .address), ("btcAmount", .u256),
        ("csvScriptHash", .address), ("expiryBlock", .u64)] with
  | none => []
  | some f =>
    [.updateOptionStatus event.contractAddress (number (f.decimal "optionId"))
      OptionStatus.RESERVED none blockNumber txId]

def handleReservationExecuted : List Stmt :=
  match parseEventData event.data
      [("reservationId", .u256), ("optionId", .u256), ("buyer", .address)] with
  | none => []
  | some f =>
    [.updateOptionStatus event.contractAddress (number (f.decimal "optionId"))
        OptionStatus.PURCHASED (some (f.text "buyer")) blockNumber txId,
      .updateOptionBuyer event.contractAddress (number (f.decimal "optionId")) (f.text "buyer")
        blockNumber txId]

def handleReservationCancelled : List Stmt :=
  match parseEventData event.data [("reservationId", .u256), ("optionId", .u256)] with
  | none => []
  | some f =>
    [.updateOptionStatus event.contractAddress (number (f.decimal "optionId")) OptionStatus.OPEN
      none blockNumber txId]

/-- The contract writes no `btcCollateralAmount`: the field reads the escrow hash, and
`escrowScriptHash` what follows it. -/
def handleWrittenBtc : List Stmt :=
  match parseEventData event.data
      (writtenDefs ++ [("btcCollateralAmount", .u256), ("escrowScriptHash", .address)]) with
  | none => []
  | some f => [.insertOption (writtenRow tracking event.contractAddress blockNumber txId f)]

def handleSwapExecuted (tokenLabel : String) : List Stmt :=
  match parseEventData event.data
      [("buyer", .address), ("amountIn", .u64), ("amountOut", .u256), ("totalFees", .u256)] with
  | none => []
  | some f =>
    [.insertSwapEvent
      { token := tokenLabel
        blockNumber := blockNumber
        txId := txId
        buyer := f.text "buyer"
        satsIn := f.decimal "amountIn"
        tokensOut := f.decimal "amountOut"
        fees := f.decimal "totalFees" }]

/-! ### Blocks -/

def decodeEvent : List Stmt :=
  if event.type = evWritten then handleWritten tracking event blockNumber txId
  else if event.type = evCancelled then handleCancelled event blockNumber txId
  else if event.type = evPurchased then handlePurchased event blockNumber txId
  else if event.type = evExercised then handleExercised event blockNumber txId
  else if event.type = evSettled then handleSettled event blockNumber txId
  else if event.type = evTransferred then handleTransferred event blockNumber txId
  else if event.type = evOptionReserved then handleOptionReserved event blockNumber txId
  else if event.type = evReservationExecuted then handleReservationExecuted event blockNumber txId
  else if event.type = evReservationCancelled then handleReservationCancelled event blockNumber txId
  else if event.type = evOptionWrittenBtc then handleWrittenBtc tracking event blockNumber txId
  else []

/-- `{ ...event, contractAddress: event.contractAddress.toLowerCase() }` -/
def TxEvent.normalized (event : TxEvent) : TxEvent :=
  { event with contractAddress := toLowerCase event.contractAddress }

/-- The body of the inner loop of `decodeBlock`. -/
def decodeTxEvent : List Stmt :=
  let normalizedEvent := event.normalized
  match tracking.swapLabelMap normalizedEvent.contractAddress with
  | some tokenLabel =>
    if tokenLabel ≠ "" ∧ normalizedEvent.type = evSwapExecuted then
      handleSwapExecuted normalizedEvent blockNumber txId tokenLabel
    else if normalizedEvent.contractAddress ∈ tracking.trackedPools then
      decodeEvent tracking normalizedEvent blockNumber txId
    else []
  | none =>
    if normalizedEvent.contractAddress ∈ tracking.trackedPools then
      decodeEvent tracking normalizedEvent blockNumber txId
    else []

end

def decodeBlock (tracking : Tracking) (blockNumber : ℕ) (txs : List BlockTx) : List Stmt :=
  txs.flatMap fun tx => tx.events.flatMap fun event =>
    decodeTxEvent tracking event blockNumber tx.id

end Frogop.Indexer
