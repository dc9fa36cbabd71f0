import Frogop.Runtime.Chain
import Mathlib.Logic.Function.Basic

/-!
# `NativeSwapBridge`

The Bitcoin side of the pools: prices, the scripts that lock bitcoin, and the outputs that pay into
them. Its storage is a map from 32-byte keys to 32-byte words. Methods take the calldata after the
selector.
-/

namespace Frogop

open Outcome

/-- Storage of the `NativeSwapBridge`, by key. -/
abbrev BridgeStorage := Bytes32 → Bytes32

namespace Bridge

def maxPriceStaleness : ℕ := 6
def cacheSlotPrice : ℕ := 0
def cacheSlotBlock : ℕ := 1

/-- `Blockchain.hasStorageAt(key)`: the word under the key is not zero. -/
def hasStorageAt (s : BridgeStorage) (key : Bytes32) : Prop := s key ≠ Bytes32.zero

instance (s : BridgeStorage) (key : Bytes32) : Decidable (hasStorageAt s key) :=
  inferInstanceAs (Decidable (_ ≠ _))

/-- `Blockchain.setStorageAt(key, value)` -/
def setStorageAt (s : BridgeStorage) (key value : Bytes32) : BridgeStorage :=
  Function.update s key value

/-- `u256.sub`, which wraps. -/
def u256Sub (a b : ℕ) : ℕ := (a + u256Size - b) % u256Size

/-! ### Prices -/

def priceCacheKey (env : Env) (token : Address) (slot : ℕ) : Bytes32 :=
  env.sha256 (buffer 35 [.u16 env.priceCachePointer, .address token, .u8 slot])

def getBtcPrice (env : Env) (tx : Tx) (calldata : List UInt8) (s : BridgeStorage) :
    Except Revert (Bytes32 × BridgeStorage) := do
  let (token, _) ← readAddress calldata
  let cachedBlock := (s (priceCacheKey env token cacheSlotBlock)).toNat
  if cachedBlock ≠ 0 ∧ u256Sub tx.block cachedBlock ≤ maxPriceStaleness then
    return (s (priceCacheKey env token cacheSlotPrice), s)
  else
    match tx.getQuote token 100000 with
    | none => throw (.revert "NativeSwap getQuote failed")
    | some price =>
      if price = Bytes32.zero then throw (.revert "Zero price returned")
      else
        let s := setStorageAt s (priceCacheKey env token cacheSlotPrice) price
        let s := setStorageAt s (priceCacheKey env token cacheSlotBlock) (Bytes32.ofNat tx.block)
        return (price, s)

/-! ### Scripts -/

def generateCsvScriptHash (env : Env) (calldata : List UInt8) : Except Revert Bytes32 := do
  let (pubkeyBytes, rest) ← readBytes 33 calldata
  let (csvBlocks, _) ← readU64 rest
  require (csvBlocks ≠ 0) (.revert "CSV blocks must be > 0")
  require (csvBlocks ≤ 65535) (.revert "CSV blocks exceeds 16-bit BIP-68 field")
  return env.sha256 (env.csvTimelock pubkeyBytes csvBlocks)

/-- The loop of `encodeScriptNumber`: the bytes of a `u64`, least significant first, without
leading zeros. -/
def magnitudeBytes : ℕ → ℕ → List UInt8
  | 0, _ => []
  | fuel + 1, absValue =>
    if absValue = 0 then []
    else UInt8.ofNat (absValue % 256) :: magnitudeBytes fuel (absValue / 256)

/-- `i64(n)` of a `u64`. -/
def toI64 (n : ℕ) : ℤ := if n < 2 ^ 63 then n else n - 2 ^ 64

/-- A Bitcoin script number: little-endian, with the sign in the top bit. -/
def encodeScriptNumber (value : ℤ) : List UInt8 :=
  let result := magnitudeBytes 8 value.natAbs
  match result.getLast? with
  | none => []
  | some last =>
    if last &&& 0x80 ≠ 0 then result ++ [if value < 0 then 0x80 else 0x00]
    else if value < 0 then result.dropLast ++ [last ||| 0x80]
    else result

/-- The bytes of one push: its length, then the data. -/
def push (data : List UInt8) : List UInt8 := UInt8.ofNat data.length :: data

/-- `OP_IF <buyerPub> OP_CHECKSIG OP_ELSE <cltvBlock> OP_CHECKLOCKTIMEVERIFY OP_DROP <writerPub>
OP_CHECKSIG OP_ENDIF` -/
def escrowScript (buyerPub writerPub : List UInt8) (cltvBlock : ℕ) : List UInt8 :=
  [0x63] ++ push buyerPub ++ [0xac, 0x67] ++ push (encodeScriptNumber (toI64 cltvBlock)) ++
    [0xb1, 0x75] ++ push writerPub ++ [0xac, 0x68]

def generateEscrowScriptHash (env : Env) (calldata : List UInt8) : Except Revert Bytes32 := do
  let (buyerPub, rest) ← readBytes 33 calldata
  let (writerPub, rest) ← readBytes 33 rest
  let (cltvBlock, _) ← readU64 rest
  require (cltvBlock ≠ 0) (.revert "CLTV block must be > 0")
  require (buyerPub.length = 33) (.revert "Buyer pubkey must be 33 bytes")
  require (writerPub.length = 33) (.revert "Writer pubkey must be 33 bytes")
  return env.sha256 (escrowScript buyerPub writerPub cltvBlock)

/-! ### Outputs -/

def consumedOutputKey (env : Env) (scriptHash : List UInt8) (value : UInt64) : Bytes32 :=
  env.sha256 (buffer 42 [.u16 env.consumedOutputsPointer, .bytes scriptHash, .u64 value.toNat])

/-- The loop of `verifyBtcOutput`: consume the first sufficient output to the hash that has not
been consumed. -/
def scanOutputs (env : Env) (expectedHash : List UInt8) (expectedAmount : ℕ) :
    List TxOutput → BridgeStorage → Bool × BridgeStorage
  | [], s => (false, s)
  | output :: outputs, s =>
    match output.scriptPublicKey with
    | none => scanOutputs env expectedHash expectedAmount outputs s
    | some spk =>
      if spk.length ≠ 34 then scanOutputs env expectedHash expectedAmount outputs s
      -- OP_0, then a push of 32 bytes
      else if spk.take 2 ≠ [0x00, 0x20] then scanOutputs env expectedHash expectedAmount outputs s
      else if spk.drop 2 ≠ expectedHash then scanOutputs env expectedHash expectedAmount outputs s
      else if output.value.toNat < expectedAmount then
        scanOutputs env expectedHash expectedAmount outputs s
      else
        let consumedKey := consumedOutputKey env expectedHash output.value
        if hasStorageAt s consumedKey then scanOutputs env expectedHash expectedAmount outputs s
        else (true, setStorageAt s consumedKey (Bytes32.ofNat 1))

def verifyBtcOutput (env : Env) (outputs : List TxOutput) (calldata : List UInt8)
    (s : BridgeStorage) : Except Revert (Bool × BridgeStorage) := do
  let (expectedHash, rest) ← readBytes 32 calldata
  let (expectedAmount, _) ← readU64 rest
  return scanOutputs env expectedHash expectedAmount outputs s

/-! ### Arguments of the scripts -/

/-- The arguments that `generateCsvScriptHash` reads. -/
def csvArguments (calldata : List UInt8) : Except Revert (List UInt8 × ℕ) := do
  let (pubkeyBytes, rest) ← readBytes 33 calldata
  let (csvBlocks, _) ← readU64 rest
  return (pubkeyBytes, csvBlocks)

/-- The arguments that `generateEscrowScriptHash` reads. -/
def escrowArguments (calldata : List UInt8) : Except Revert (List UInt8 × List UInt8 × ℕ) := do
  let (buyerPub, rest) ← readBytes 33 calldata
  let (writerPub, rest) ← readBytes 33 rest
  let (cltvBlock, _) ← readU64 rest
  return (buyerPub, writerPub, cltvBlock)

section

variable {env : Env} {calldata rest pubkey buyerPub writerPub : List UInt8} {n : ℕ}

/-- Beyond its arguments `generateCsvScriptHash` reads nothing. -/
lemma generateCsvScriptHash_eq : generateCsvScriptHash env calldata = (do
    let (pubkeyBytes, csvBlocks) ← csvArguments calldata
    require (csvBlocks ≠ 0) (.revert "CSV blocks must be > 0")
    require (csvBlocks ≤ 65535) (.revert "CSV blocks exceeds 16-bit BIP-68 field")
    return env.sha256 (env.csvTimelock pubkeyBytes csvBlocks)) := by
  rw [generateCsvScriptHash, csvArguments]
  cases readBytes 33 calldata with
  | error e => rfl
  | ok read => cases hrest : readU64 read.2 <;> simp [hrest]

lemma generateEscrowScriptHash_eq : generateEscrowScriptHash env calldata = (do
    let (buyerPub, writerPub, cltvBlock) ← escrowArguments calldata
    require (cltvBlock ≠ 0) (.revert "CLTV block must be > 0")
    require (buyerPub.length = 33) (.revert "Buyer pubkey must be 33 bytes")
    require (writerPub.length = 33) (.revert "Writer pubkey must be 33 bytes")
    return env.sha256 (escrowScript buyerPub writerPub cltvBlock)) := by
  rw [generateEscrowScriptHash, escrowArguments]
  cases readBytes 33 calldata with
  | error e => rfl
  | ok buyer =>
    cases hwriter : readBytes 33 buyer.2 with
    | error e => simp [hwriter]
    | ok writer => cases hrest : readU64 writer.2 <;> simp [hwriter, hrest]

/-- Keys of 33 bytes are read as they were written. -/
lemma csvArguments_encode (hpubkey : pubkey.length = 33) (hn : n < u64Size) :
    csvArguments (pubkey ++ (Field.encode (.u64 n) ++ rest)) = .ok (pubkey, n) := by
  rw [csvArguments, readBytes_append hpubkey, ok_bind]
  dsimp only
  rw [readU64_encode hn]
  rfl

lemma escrowArguments_encode (hbuyer : buyerPub.length = 33) (hwriter : writerPub.length = 33)
    (hn : n < u64Size) :
    escrowArguments (buyerPub ++ (writerPub ++ (Field.encode (.u64 n) ++ rest)))
      = .ok (buyerPub, writerPub, n) := by
  rw [escrowArguments, readBytes_append hbuyer, ok_bind]
  dsimp only
  rw [readBytes_append hwriter, ok_bind]
  dsimp only
  rw [readU64_encode hn]
  rfl

end

end Bridge

end Frogop
