import Frogop.Pool.OptionsPool.Spec

/-!
# `SpreadRouter`

Two calls to one pool in one transaction. The router keeps no state: the world it runs in is the
pool's. Inside the calls `Blockchain.tx.sender` is the wallet, so the contracts on the chain are
taken with the transaction they run in.
-/

namespace Frogop

open Outcome

/-- The methods the router calls; `encodeSelector` of their signatures. -/
inductive Selector
  /-- `writeOption(uint8,uint256,uint64,uint256,uint256)` -/
  | writeOption
  /-- `buyOption(uint256)` -/
  | buyOption
  deriving DecidableEq, Repr

/-- What a contract does with a selector and the calldata after it. -/
abbrev Contract (σ : Type) := Selector → List UInt8 → World σ → Except Revert (Reply σ)

/-- The arguments the methods of `OptionsPool` read. -/
def OptionsPool.dispatch {σ : Type} (env : Env) (tx : Tx) : Contract σ
  | .writeOption, calldata, w => do
    let (optionType, rest) ← readU8 calldata
    let (strikePrice, rest) ← readU256 rest
    let (expiryBlock, rest) ← readU64 rest
    let (underlyingAmount, rest) ← readU256 rest
    let (premium, _) ← readU256 rest
    OptionsPool.writeOption env tx optionType strikePrice expiryBlock underlyingAmount premium w
  | .buyOption, calldata, w => do
    let (optionId, _) ← readU256 calldata
    OptionsPool.buyOption env tx optionId w

namespace Router

variable {σ : Type}

structure CallResult where
  success : Bool
  data : List UInt8

/-- `Blockchain.call(pool, calldata, stopOnFailure)`: a call that fails reverts the transaction if
`stopOnFailure`, and otherwise leaves the world as it was. -/
def blockchainCall (contracts : Address → Contract σ) (pool : Address) (selector : Selector)
    (calldata : List UInt8) (stopOnFailure : Bool) (w : World σ) :
    Except Revert (CallResult × World σ) :=
  match contracts pool selector calldata w with
  | .ok (response, w) => .ok (⟨true, response.flatMap Field.encode⟩, w)
  | .error e => if stopOnFailure then .error e else .ok (⟨false, []⟩, w)

/-- A leg that writes: the data the pool returned. -/
def writeLeg (env : Env) (contracts : Address → Contract σ) (message : String) (pool : Address)
    (optionType strikePrice expiryBlock underlyingAmount premium : ℕ) (w : World σ) :
    Except Revert (List UInt8 × World σ) := do
  let calldata ← env.callData 140
    [.u8 optionType, .u256 strikePrice, .u64 expiryBlock, .u256 underlyingAmount, .u256 premium]
  let (result, w) ← blockchainCall contracts pool .writeOption calldata true w
  require (result.success = true) (.revert message)
  return (result.data, w)

def executeSpread (env : Env) (contracts : Address → Contract σ) (calldata : List UInt8)
    (w : World σ) : Except Revert (Reply σ) := do
  let (pool, rest) ← readAddress calldata
  let (writeOptionType, rest) ← readU8 rest
  let (writeStrikePrice, rest) ← readU256 rest
  let (writeExpiryBlock, rest) ← readU64 rest
  let (writeUnderlyingAmount, rest) ← readU256 rest
  let (writePremium, rest) ← readU256 rest
  let (buyOptionId, _) ← readU256 rest
  require (pool ≠ Address.zero) (.revert "Invalid pool address")
  require (buyOptionId ≠ 0) (.revert "Invalid buy option ID")
  let (data, w) ← writeLeg env contracts "Write leg failed" pool writeOptionType writeStrikePrice
    writeExpiryBlock writeUnderlyingAmount writePremium w
  let (newOptionId, _) ← readU256 data
  let buyCalldata ← env.callData 36 [.u256 buyOptionId]
  let (buyResult, w) ← blockchainCall contracts pool .buyOption buyCalldata true w
  require (buyResult.success = true) (.revert "Buy leg failed")
  w.respond env 32 [.u256 newOptionId]

def executeDualWrite (env : Env) (contracts : Address → Contract σ) (calldata : List UInt8)
    (w : World σ) : Except Revert (Reply σ) := do
  let (pool, rest) ← readAddress calldata
  let (type1, rest) ← readU8 rest
  let (strike1, rest) ← readU256 rest
  let (expiry1, rest) ← readU64 rest
  let (amount1, rest) ← readU256 rest
  let (premium1, rest) ← readU256 rest
  let (type2, rest) ← readU8 rest
  let (strike2, rest) ← readU256 rest
  let (expiry2, rest) ← readU64 rest
  let (amount2, rest) ← readU256 rest
  let (premium2, _) ← readU256 rest
  require (pool ≠ Address.zero) (.revert "Invalid pool address")
  let (data, w) ← writeLeg env contracts "Write leg 1 failed" pool type1 strike1 expiry1 amount1
    premium1 w
  let (optionId1, _) ← readU256 data
  let (_, w) ← writeLeg env contracts "Write leg 2 failed" pool type2 strike2 expiry2 amount2
    premium2 w
  w.respond env 32 [.u256 optionId1]

end Router

end Frogop
