import Frogop.Runtime.Ledger

/-!
# Transactions, writers and events

What a contract sees of the chain. `BytesWriter` buffers have the capacity the contract declared;
`WriterMode` says whether a write past it reverts (`fixed`, as documented) or grows the buffer.
-/

namespace Frogop

open Outcome

/-! ### Writers -/

inductive WriterMode
  | fixed
  | growing
  deriving DecidableEq, Repr

/-- One `write…` call of a `BytesWriter`. -/
inductive Field
  | u8 (n : ℕ)
  | u16 (n : ℕ)
  | u64 (n : ℕ)
  | u256 (n : ℕ)
  | address (a : Address)
  | bytes (b : List UInt8)
  | boolean (b : Bool)
  deriving DecidableEq, Repr

namespace Field

def encode : Field → List UInt8
  | .u8 n => BigEndian.beBytes 1 n
  | .u16 n => BigEndian.beBytes 2 n
  | .u64 n => BigEndian.beBytes 8 n
  | .u256 n => BigEndian.beBytes 32 n
  | .address a => a.val
  | .bytes b => b
  | .boolean b => [if b then 1 else 0]

/-- The bytes a field takes. -/
def width : Field → ℕ
  | .u8 _ => 1
  | .u16 _ => 2
  | .u64 _ => 8
  | .u256 _ => 32
  | .address _ => 32
  | .bytes b => b.length
  | .boolean _ => 1

@[simp] lemma length_encode (f : Field) : f.encode.length = f.width := by
  cases f with
  | address a => exact a.property
  | _ => simp [encode, width]

end Field

/-- The bytes a sequence of writes takes. -/
def fieldsWidth (fields : List Field) : ℕ := (fields.map Field.width).sum

@[simp] lemma fieldsWidth_nil : fieldsWidth [] = 0 := rfl

@[simp] lemma fieldsWidth_cons (f : Field) (fs : List Field) :
    fieldsWidth (f :: fs) = f.width + fieldsWidth fs := by
  simp [fieldsWidth]

/-- A buffer of `capacity` bytes filled by `fields`; what is not written stays zero. -/
def buffer (capacity : ℕ) (fields : List Field) : List UInt8 :=
  fields.flatMap Field.encode ++ List.replicate (capacity - fieldsWidth fields) 0

/-- What a view or a method returns. -/
abbrev Response := List Field

inductive EventName
  | optionWritten
  | optionCancelled
  | optionPurchased
  | optionExercised
  | optionExpired
  | optionTransferred
  | optionRolled
  | feeRecipientUpdated
  | optionReserved
  | reservationExecuted
  | reservationCancelled
  | optionWrittenBtc
  | btcClaimable
  | optionRestored
  deriving DecidableEq, Repr

/-- `new NetEvent(name, data)`, with the writes that filled `data`. -/
structure Event where
  name : EventName
  capacity : ℕ
  fields : List Field
  deriving DecidableEq, Repr

def Event.data (e : Event) : List UInt8 := buffer e.capacity e.fields

/-! ### The calling transaction -/

structure TxOutput where
  /-- `none` when `hasScriptPubKey` is false or the script is null. -/
  scriptPublicKey : Option (List UInt8)
  value : UInt64
  deriving DecidableEq

structure Tx where
  /-- `Blockchain.tx.sender` -/
  sender : Address
  /-- `Blockchain.block.number` -/
  block : ℕ
  /-- `Blockchain.tx.outputs` -/
  outputs : List TxOutput
  /-- The word NativeSwap answers to `getQuote(token, satoshis)`; `none` when the call fails. -/
  getQuote : Address → ℕ → Option Bytes32

/-- What a deployed contract takes from its surroundings. -/
structure Env where
  /-- `Blockchain.contractAddress` -/
  contractAddress : Address
  writers : WriterMode
  sha256 : List UInt8 → Bytes32
  /-- `BitcoinScript.csvTimelock(pubkey, csvBlocks)` -/
  csvTimelock : List UInt8 → ℕ → List UInt8
  /-- What a storage slot gives back for the bytes written to it. -/
  slot : List UInt8 → List UInt8
  /-- Storage pointers the runtime hands out: `PRICE_CACHE_POINTER`. -/
  priceCachePointer : ℕ
  /-- `CONSUMED_OUTPUTS_POINTER` -/
  consumedOutputsPointer : ℕ

/-- The same surroundings with writers of another kind. -/
def Env.withWriters (env : Env) (writers : WriterMode) : Env := { env with writers := writers }

/-- Write `used` bytes to a writer of `capacity` bytes. -/
def Env.fill (env : Env) (capacity used : ℕ) : Except Revert Unit :=
  require (env.writers = .growing ∨ used ≤ capacity) .writerFull

/-- The arguments of a cross-contract call, after the four bytes of the selector. -/
def Env.callData (env : Env) (capacity : ℕ) (fields : List Field) :
    Except Revert (List UInt8) := do
  env.fill capacity (4 + fieldsWidth fields)
  return buffer (capacity - 4) fields

/-! ### Reading calldata -/

/-- `calldata.readBytes(n)`, with the bytes left to read. -/
def readBytes (n : ℕ) (calldata : List UInt8) : Except Revert (List UInt8 × List UInt8) := do
  require (n ≤ calldata.length) .outOfCalldata
  return (calldata.take n, calldata.drop n)

/-- `calldata.readU64()`, with the bytes left to read. -/
def readU64 (calldata : List UInt8) : Except Revert (ℕ × List UInt8) := do
  let (bytes, rest) ← readBytes 8 calldata
  return (BigEndian.ofBytes bytes, rest)

/-- `calldata.readU8()` and `calldata.readU256()`: a number of `n` bytes. -/
def readUint (n : ℕ) (calldata : List UInt8) : Except Revert (ℕ × List UInt8) := do
  let (bytes, rest) ← readBytes n calldata
  return (BigEndian.ofBytes bytes, rest)

abbrev readU8 : List UInt8 → Except Revert (ℕ × List UInt8) := readUint 1

abbrev readU256 : List UInt8 → Except Revert (ℕ × List UInt8) := readUint 32

/-- `calldata.readAddress()`, with the bytes left to read. -/
def readAddress (calldata : List UInt8) : Except Revert (Address × List UInt8) :=
  if h : 32 ≤ calldata.length then
    .ok (⟨calldata.take 32, List.length_take_of_le h⟩, calldata.drop 32)
  else .error .outOfCalldata

lemma readBytes_append {n : ℕ} {bs rest : List UInt8} (h : bs.length = n) :
    readBytes n (bs ++ rest) = .ok (bs, rest) := by
  subst h
  simp [readBytes, require]

/-- A `u64` is read back as it was written. -/
lemma readU64_encode {n : ℕ} (hn : n < u64Size) (rest : List UInt8) :
    readU64 (Field.encode (.u64 n) ++ rest) = .ok (n, rest) := by
  have hread : readBytes 8 (Field.encode (.u64 n) ++ rest) = .ok (BigEndian.beBytes 8 n, rest) :=
    readBytes_append (BigEndian.length_beBytes 8 n)
  have hvalue : BigEndian.ofBytes (BigEndian.beBytes 8 n) = n := by
    rw [BigEndian.ofBytes_beBytes]
    exact Nat.mod_eq_of_lt hn
  rw [readU64, hread, Outcome.ok_bind]
  dsimp only
  rw [hvalue]
  rfl

lemma readUint_beBytes {k n : ℕ} (hn : n < 256 ^ k) (rest : List UInt8) :
    readUint k (BigEndian.beBytes k n ++ rest) = .ok (n, rest) := by
  rw [readUint, readBytes_append (BigEndian.length_beBytes k n), Outcome.ok_bind]
  dsimp only
  rw [BigEndian.ofBytes_beBytes_of_lt hn]
  rfl

lemma readU8_encode {n : ℕ} (hn : n < 256) (rest : List UInt8) :
    readU8 (Field.encode (.u8 n) ++ rest) = .ok (n, rest) :=
  readUint_beBytes (by simpa using hn) rest

lemma readU256_encode {n : ℕ} (hn : n < u256Size) (rest : List UInt8) :
    readU256 (Field.encode (.u256 n) ++ rest) = .ok (n, rest) :=
  readUint_beBytes hn rest

lemma readAddress_encode (a : Address) (rest : List UInt8) :
    readAddress (Field.encode (.address a) ++ rest) = .ok (a, rest) := by
  have hlen : 32 ≤ (a.val ++ rest).length := by simp
  have htake : (a.val ++ rest).take 32 = a.val := by simp
  have hdrop : (a.val ++ rest).drop 32 = rest := by simp
  rw [Field.encode, readAddress, dif_pos hlen]
  simp only [htake, hdrop]

end Frogop
