import Frogop.Lib.Run
import Frogop.Pool.Base

/-!
# `OptionsFactory`

The registry of pools: a two-level map from underlying and premium token to the pool, and a list of
all pools in raw storage slots. `registerPool` and `createPool` write to both.
-/

namespace Frogop.Factory

open Outcome

def poolListPointer : ℕ := 15

/-- `MapOfMap<u256>` -/
abbrev MapOfMap := Address → Option (Address → Option ℕ)

namespace MapOfMap

def has (m : MapOfMap) (key : Address) : Bool := (m key).isSome

/-- `get(key)`: the nested map, empty when there is none. -/
def get (m : MapOfMap) (key : Address) : Address → Option ℕ := (m key).getD fun _ => none

/-- `get(key).set(nestedKey, value)` -/
def set (m : MapOfMap) (key nestedKey : Address) (value : ℕ) : MapOfMap :=
  Function.update m key (some (Function.update (m.get key) nestedKey (some value)))

variable {m : MapOfMap} {key nestedKey a b : Address} {value : ℕ}

lemma get_set : (m.set key nestedKey value).get a b =
    if a = key ∧ b = nestedKey then some value else m.get a b := by
  rw [set]
  by_cases ha : a = key
  · subst ha
    by_cases hb : b = nestedKey
    · subst hb
      simp [get]
    · simp [get, hb]
  · simp [get, ha]

/-- `has(key) && get(key).has(nestedKey)` asks whether there is a value. -/
lemma has_and_has : m.has a = true ∧ (m.get a b).isSome = true ↔ (m.get a b).isSome = true := by
  rw [has, get]
  cases m a <;> simp

end MapOfMap

structure FactoryStorage where
  owner : Address
  poolTemplate : Address
  pools : MapOfMap
  treasury : Address
  poolCount : ℕ
  /-- The slots of the pool list, by key. -/
  poolList : Bytes32 → Bytes32
  /-- The data of the `PoolCreated` events. -/
  events : List (List Field)

/-- The calling transaction. A contract that was deployed has an address. -/
structure FactoryTx where
  /-- `Blockchain.tx.sender` -/
  sender : Address
  /-- `Blockchain.deployContractFromExisting(template, salt, calldata)` -/
  deployContractFromExisting : Address → ℕ → List UInt8 → Except Revert Address
  deployed_ne_zero : ∀ {template salt calldata a},
    deployContractFromExisting template salt calldata = .ok a → a ≠ Address.zero

abbrev Reply := Response × FactoryStorage

def onDeployment (origin : Address) : FactoryStorage where
  owner := origin
  poolTemplate := Address.zero
  pools := fun _ => none
  treasury := Address.zero
  poolCount := 0
  poolList := fun _ => Bytes32.zero
  events := []

/-! ### The pool list -/

/-- What `_getPoolListKey` hashes. -/
def poolListPreimage (index slot : ℕ) : List UInt8 :=
  buffer 35 [.u16 poolListPointer, .u256 index, .u8 slot]

/-- `_getPoolListKey` -/
def poolListKey (env : Env) (index slot : ℕ) : Bytes32 := env.sha256 (poolListPreimage index slot)

/-- `_registerInList` -/
def registerInList (env : Env) (pool underlying premiumToken : Address) (s : FactoryStorage) :
    Except Revert FactoryStorage := do
  let idx := s.poolCount
  let poolList := Function.update s.poolList (poolListKey env idx 0) pool
  let poolList := Function.update poolList (poolListKey env idx 1) underlying
  let poolList := Function.update poolList (poolListKey env idx 2) premiumToken
  let poolCount ← SafeMath.add idx 1
  return { s with poolList := poolList, poolCount := poolCount }

def respond (env : Env) (capacity : ℕ) (fields : List Field) (s : FactoryStorage) :
    Except Revert Reply := do
  env.fill capacity (fieldsWidth fields)
  return (fields, s)

/-! ### Methods -/

def onlyOwner (tx : FactoryTx) (s : FactoryStorage) : Except Revert Unit :=
  require (tx.sender = s.owner) (.revert "Only owner can call this function")

def setPoolTemplate (env : Env) (tx : FactoryTx) (template : Address) (s : FactoryStorage) :
    Except Revert Reply := do
  onlyOwner tx s
  respond env 1 [.boolean true] { s with poolTemplate := template }

def setTreasury (env : Env) (tx : FactoryTx) (addr : Address) (s : FactoryStorage) :
    Except Revert Reply := do
  onlyOwner tx s
  require (addr ≠ Address.zero) (.revert "Treasury cannot be zero address")
  respond env 1 [.boolean true] { s with treasury := addr }

def getPoolByIndex (env : Env) (index : ℕ) (s : FactoryStorage) : Except Revert Reply := do
  require (index < s.poolCount) (.revert "Index out of bounds")
  let pool := s.poolList (poolListKey env index 0)
  let underlying := s.poolList (poolListKey env index 1)
  let premiumToken := s.poolList (poolListKey env index 2)
  respond env 96 [.address pool, .address underlying, .address premiumToken] s

/-- `this._pools.get(underlying).set(premiumToken, u256(pool))` and `_registerInList`. -/
def register (env : Env) (pool underlying premiumToken : Address) (s : FactoryStorage) :
    Except Revert FactoryStorage :=
  registerInList env pool underlying premiumToken
    { s with pools := s.pools.set underlying premiumToken pool.toNat }

def registerPool (env : Env) (tx : FactoryTx) (pool underlying premiumToken : Address)
    (s : FactoryStorage) : Except Revert Reply := do
  onlyOwner tx s
  require (pool ≠ Address.zero) (.revert "Invalid pool address")
  require (underlying ≠ Address.zero) (.revert "Invalid underlying")
  require (premiumToken ≠ Address.zero) (.revert "Invalid premiumToken")
  require (¬ (s.pools.has underlying = true ∧ (s.pools.get underlying premiumToken).isSome = true))
    (.revert "Pool already registered")
  let s ← register env pool underlying premiumToken s
  respond env 1 [.boolean true] s

/-- `_generateSalt` -/
def generateSalt (env : Env) (underlying premiumToken : Address) : ℕ :=
  (env.sha256 (buffer 64 [.address underlying, .address premiumToken])).toNat

/-- The calldata `createPool` deploys a pool with. -/
def initCalldata (env : Env) (underlying premiumToken treasury : Address)
    (underlyingDecimals premiumDecimals : ℕ) : Except Revert (List UInt8) := do
  let fields := [.address underlying, .address premiumToken, .address treasury,
    .u8 underlyingDecimals, .u8 premiumDecimals]
  env.fill 98 (fieldsWidth fields)
  return buffer 98 fields

def createPool (env : Env) (tx : FactoryTx) (underlying premiumToken : Address)
    (underlyingDecimals premiumDecimals : ℕ) (s : FactoryStorage) : Except Revert Reply := do
  require (underlying ≠ Address.zero) (.revert "Invalid underlying token: zero address")
  require (premiumToken ≠ Address.zero) (.revert "Invalid premium token: zero address")
  require (underlying ≠ premiumToken) (.revert "Tokens must be different")
  require (¬ (s.pools.has underlying = true ∧ (s.pools.get underlying premiumToken).isSome = true))
    (.revert "Pool already exists")
  require (s.poolTemplate ≠ Address.zero) (.revert "Pool template not set")
  require (s.treasury ≠ Address.zero) (.revert "Treasury not set")
  let salt := generateSalt env underlying premiumToken
  let calldata ← initCalldata env underlying premiumToken s.treasury underlyingDecimals
    premiumDecimals
  let poolAddress ← tx.deployContractFromExisting s.poolTemplate salt calldata
  let s ← register env poolAddress underlying premiumToken s
  let eventData := [.address poolAddress, .address underlying, .address premiumToken]
  env.fill 96 (fieldsWidth eventData)
  respond env 32 [.address poolAddress] { s with events := s.events ++ [eventData] }

/-- `_getPoolAddress` -/
def getPoolAddress (underlying premiumToken : Address) (s : FactoryStorage) : Address :=
  if ¬ s.pools.has underlying then Address.zero
  else
    match s.pools.get underlying premiumToken with
    | none => Address.zero
    | some poolU256 => Bytes32.ofNat poolU256

def getPool (env : Env) (underlying premiumToken : Address) (s : FactoryStorage) :
    Except Revert Reply :=
  respond env 32 [.address (getPoolAddress underlying premiumToken s)] s

/-! ### Runs -/

inductive Call
  | setPoolTemplate (template : Address)
  | setTreasury (addr : Address)
  | registerPool (pool underlying premiumToken : Address)
  | createPool (underlying premiumToken : Address) (underlyingDecimals premiumDecimals : ℕ)

def exec (env : Env) (tx : FactoryTx) : Call → FactoryStorage → Except Revert Reply
  | .setPoolTemplate template => setPoolTemplate env tx template
  | .setTreasury addr => setTreasury env tx addr
  | .registerPool pool underlying premiumToken => registerPool env tx pool underlying premiumToken
  | .createPool underlying premiumToken underlyingDecimals premiumDecimals =>
    createPool env tx underlying premiumToken underlyingDecimals premiumDecimals

inductive Label
  | call (tx : FactoryTx) (c : Call) (r : Response)
  | reverted (tx : FactoryTx) (c : Call) (e : Revert)

inductive Step (env : Env) : FactoryStorage → Label → FactoryStorage → Prop
  | call {tx : FactoryTx} {c : Call} {s s' : FactoryStorage} {r : Response}
      (h : exec env tx c s = .ok (r, s')) : Step env s (.call tx c r) s'
  | reverted {tx : FactoryTx} {c : Call} {s : FactoryStorage} {e : Revert}
      (h : exec env tx c s = .error e) : Step env s (.reverted tx c e) s

end Frogop.Factory
