import Frogop.Bridge.Basic

/-!
# Storage and helpers shared by the three pools

`OptionsPoolBase`: the option table, the registry of Bitcoin keys, the fee recipient and the token
transfers. A pool lives in a `World`: its own storage, the storage `σ` that only its type has, the
token ledgers, and the events emitted so far. A method maps a world to its response and the next
world, or reverts and leaves the world as it was.
-/

namespace Frogop

open Outcome

/-! ### Constants -/

def minGracePeriodBlocks : ℕ := 6
def maxGracePeriodBlocks : ℕ := 4320
def maxExpiryBlocks : ℕ := 52560
def cancelFeeBps : ℕ := 100
def buyFeeBps : ℕ := 100
def exerciseFeeBps : ℕ := 10
def maxBatchSize : ℕ := 5
def precision : ℕ := 10 ^ 18
def reservationExpiryBlocks : ℕ := 144

/-! ### Options -/

inductive OptionType
  | CALL
  | PUT
  deriving DecidableEq, Repr

namespace OptionType

def ofU8 : ℕ → Option OptionType
  | 0 => some .CALL
  | 1 => some .PUT
  | _ => none

def toU8 : OptionType → ℕ
  | .CALL => 0
  | .PUT => 1

end OptionType

inductive Status
  | OPEN
  | PURCHASED
  | EXERCISED
  | EXPIRED
  | CANCELLED
  | RESERVED
  deriving DecidableEq, Repr

def Status.toU8 : Status → ℕ
  | .OPEN => 0
  | .PURCHASED => 1
  | .EXERCISED => 2
  | .EXPIRED => 3
  | .CANCELLED => 4
  | .RESERVED => 5

/-- `class Option` of the pools; an unwritten slot reads as these defaults. -/
structure OptionRecord where
  id : ℕ := 0
  writer : Address := Address.zero
  buyer : Address := Address.zero
  strikePrice : ℕ := 0
  underlyingAmount : ℕ := 0
  premium : ℕ := 0
  expiryBlock : ℕ := 0
  createdBlock : ℕ := 0
  optionType : OptionType := .CALL
  status : Status := .OPEN
  deriving DecidableEq

/-- The slots of every option id. -/
structure OptionStorage where
  slots : ℕ → OptionRecord

namespace OptionStorage

def empty : OptionStorage := ⟨fun _ => {}⟩

def get (s : OptionStorage) (optionId : ℕ) : OptionRecord :=
  { s.slots optionId with id := optionId }

/-- `exists`: the writer slot holds something. -/
def existsAt (s : OptionStorage) (optionId : ℕ) : Prop :=
  (s.slots optionId).writer ≠ Address.zero

instance (s : OptionStorage) (optionId : ℕ) : Decidable (s.existsAt optionId) :=
  inferInstanceAs (Decidable (_ ≠ _))

def set (s : OptionStorage) (optionId : ℕ) (o : OptionRecord) : OptionStorage :=
  ⟨Function.update s.slots optionId o⟩

def setStatus (s : OptionStorage) (optionId : ℕ) (status : Status) : OptionStorage :=
  s.set optionId { s.slots optionId with status := status }

def setBuyer (s : OptionStorage) (optionId : ℕ) (buyer : Address) : OptionStorage :=
  s.set optionId { s.slots optionId with buyer := buyer }

variable {s : OptionStorage} {i j : ℕ} {o : OptionRecord} {status : Status} {buyer : Address}

@[simp] lemma get_id : (s.get i).id = i := rfl

lemma existsAt_iff : s.existsAt i ↔ (s.get i).writer ≠ Address.zero := Iff.rfl

lemma get_set : (s.set i o).get = Function.update s.get i { o with id := i } := by
  funext j
  by_cases hj : j = i
  · subst hj
    simp [get, set]
  · simp [get, set, hj]

lemma get_setStatus :
    (s.setStatus i status).get = Function.update s.get i { s.get i with status := status } :=
  get_set

lemma get_setBuyer :
    (s.setBuyer i buyer).get = Function.update s.get i { s.get i with buyer := buyer } :=
  get_set

@[simp] lemma get_setStatus_self :
    (s.setStatus i status).get i = { s.get i with status := status } := by
  rw [get_setStatus, Function.update_self]

lemma get_setStatus_of_ne (h : j ≠ i) : (s.setStatus i status).get j = s.get j := by
  rw [get_setStatus, Function.update_of_ne h]

@[simp] lemma get_setBuyer_self :
    (s.setBuyer i buyer).get i = { s.get i with buyer := buyer } := by
  rw [get_setBuyer, Function.update_self]

@[simp] lemma get_set_self : (s.set i o).get i = { o with id := i } := by
  rw [get_set, Function.update_self]

lemma get_set_of_ne (h : j ≠ i) : (s.set i o).get j = s.get j := by
  rw [get_set, Function.update_of_ne h]

end OptionStorage

/-! ### Worlds -/

/-- Storage of `OptionsPoolBase`. -/
structure PoolStorage where
  underlying : Address
  premiumToken : Address
  feeRecipient : Address
  gracePeriod : ℕ
  nextId : ℕ
  options : OptionStorage
  /-- What the slot of an account's key holds; `[]` when nothing was stored. -/
  pubkeys : Address → List UInt8

structure World (σ : Type) where
  pool : PoolStorage
  own : σ
  ledger : Ledger
  bridge : BridgeStorage
  events : List Event

/-- What a method that does not revert produces: its response and the next world. -/
abbrev Reply (σ : Type) := Response × World σ

variable {σ : Type}

namespace World

/-- The option stored under an id. -/
abbrev option (w : World σ) (optionId : ℕ) : OptionRecord := w.pool.options.get optionId

def withOptions (w : World σ) (options : OptionStorage) : World σ :=
  { w with pool := { w.pool with options := options } }

def setStatus (w : World σ) (optionId : ℕ) (status : Status) : World σ :=
  w.withOptions (w.pool.options.setStatus optionId status)

def setBuyer (w : World σ) (optionId : ℕ) (buyer : Address) : World σ :=
  w.withOptions (w.pool.options.setBuyer optionId buyer)

/-- Take the next id and store `option` under it. -/
def addOption (w : World σ) (option : ℕ → OptionRecord) : Except Revert (ℕ × World σ) := do
  let optionId := w.pool.nextId
  let nextId ← SafeMath.add optionId 1
  return (optionId,
    { w with
      pool :=
        { w.pool with
          nextId := nextId
          options := w.pool.options.set optionId (option optionId) } })

/-- `Blockchain.emit(event)`. -/
def emit (w : World σ) (env : Env) (name : EventName) (capacity : ℕ) (fields : List Field) :
    Except Revert (World σ) := do
  env.fill capacity (fieldsWidth fields)
  return { w with events := w.events ++ [⟨name, capacity, fields⟩] }

/-- Return `fields` from a method. -/
def respond (w : World σ) (env : Env) (capacity : ℕ) (fields : List Field) :
    Except Revert (Reply σ) := do
  env.fill capacity (fieldsWidth fields)
  return (fields, w)

/-- The token call both transfer helpers make. -/
def callTransferFrom (w : World σ) (env : Env) (message : String)
    (token src dst : Address) (amount : ℕ) : Except Revert (World σ) := do
  env.fill 100 (4 + fieldsWidth [.address src, .address dst, .u256 amount])
  match w.ledger.transferFrom token env.contractAddress src dst amount with
  | .ok ledger => return { w with ledger := ledger }
  | .error cause => throw (.token message cause)

/-- `_transferFrom` -/
def transferFrom (w : World σ) (env : Env) (token src dst : Address) (amount : ℕ) :
    Except Revert (World σ) :=
  w.callTransferFrom env "Token transferFrom failed" token src dst amount

/-- `_transfer`: the pool moves its own tokens, which needs no allowance. -/
def transfer (w : World σ) (env : Env) (token dst : Address) (amount : ℕ) :
    Except Revert (World σ) :=
  w.callTransferFrom env "Transfer out failed" token env.contractAddress dst amount

/-- `if (fee > 0) this._transfer(token, feeRecipient, fee)` -/
def payFee (w : World σ) (env : Env) (token : Address) (fee : ℕ) : Except Revert (World σ) :=
  if fee > 0 then w.transfer env token w.pool.feeRecipient fee else pure w

end World

/-! ### Amounts -/

/-- `ceil(amount * bps / 10000)`, the fee formula of every operation. -/
def ceilBps (amount bps : ℕ) : Except Revert ℕ := do
  let scaled ← SafeMath.mul amount bps
  let padded ← SafeMath.add scaled 9999
  SafeMath.div padded 10000

/-- `strikePrice * underlyingAmount / PRECISION` -/
def strikeValue (strikePrice underlyingAmount : ℕ) : Except Revert ℕ := do
  let product ← SafeMath.mul strikePrice underlyingAmount
  SafeMath.div product precision

/-- The token an option of the given type is collateralised in. -/
def PoolStorage.collateralToken (p : PoolStorage) : OptionType → Address
  | .CALL => p.underlying
  | .PUT => p.premiumToken

def collateralAmount (optionType : OptionType) (strikePrice underlyingAmount : ℕ) :
    Except Revert ℕ :=
  match optionType with
  | .CALL => .ok underlyingAmount
  | .PUT => strikeValue strikePrice underlyingAmount

/-- The collateral of a stored option. -/
abbrev OptionRecord.collateral (o : OptionRecord) : Except Revert ℕ :=
  collateralAmount o.optionType o.strikePrice o.underlyingAmount

/-- The cancellation fee: none once the option has expired. -/
def cancelFee (block : ℕ) (o : OptionRecord) (collateral : ℕ) : Except Revert ℕ :=
  if o.expiryBlock ≤ block then .ok 0 else ceilBps collateral cancelFeeBps

/-- `expiryBlock + getGracePeriod()` -/
def PoolStorage.graceEnd (p : PoolStorage) (o : OptionRecord) : ℕ :=
  u64Add o.expiryBlock p.gracePeriod

variable {amount bps fee strikePrice underlyingAmount value : ℕ}

@[simp] lemma ceilBps_eq_ok :
    ceilBps amount bps = .ok fee ↔
      amount * bps + 9999 < u256Size ∧ (amount * bps + 9999) / 10000 = fee := by
  simp only [ceilBps, bind_eq_ok, SafeMath.mul_eq_ok, SafeMath.add_eq_ok, SafeMath.div_eq_ok]
  constructor
  · rintro ⟨_, ⟨-, rfl⟩, _, ⟨hadd, rfl⟩, -, rfl⟩
    exact ⟨hadd, rfl⟩
  · rintro ⟨hadd, rfl⟩
    exact ⟨_, ⟨by omega, rfl⟩, _, ⟨hadd, rfl⟩, by decide, rfl⟩

@[simp] lemma strikeValue_eq_ok :
    strikeValue strikePrice underlyingAmount = .ok value ↔
      strikePrice * underlyingAmount < u256Size ∧
        strikePrice * underlyingAmount / precision = value := by
  simp only [strikeValue, bind_eq_ok, SafeMath.mul_eq_ok, SafeMath.div_eq_ok]
  constructor
  · rintro ⟨_, ⟨hmul, rfl⟩, -, rfl⟩
    exact ⟨hmul, rfl⟩
  · rintro ⟨hmul, rfl⟩
    exact ⟨_, ⟨hmul, rfl⟩, by decide, rfl⟩

@[simp] lemma failsOnly_ceilBps {P : Revert → Prop} :
    FailsOnly P (ceilBps amount bps) ↔ (u256Size ≤ amount * bps + 9999 → P .safeMath) := by
  simp only [ceilBps, failsOnly_bind, SafeMath.failsOnly_mul, SafeMath.failsOnly_add,
    SafeMath.failsOnly_div, SafeMath.mul_eq_ok]
  constructor
  · rintro ⟨hmul, hadd⟩ hover
    rcases lt_or_ge (amount * bps) u256Size with hlt | hge
    · exact (hadd _ ⟨hlt, rfl⟩).1 hover
    · exact hmul hge
  · intro hP
    refine ⟨fun hover => hP (by omega), ?_⟩
    rintro _ ⟨-, rfl⟩
    exact ⟨hP, fun _ _ => by simp⟩

@[simp] lemma failsOnly_strikeValue {P : Revert → Prop} :
    FailsOnly P (strikeValue strikePrice underlyingAmount) ↔
      (u256Size ≤ strikePrice * underlyingAmount → P .safeMath) := by
  have hprecision : precision ≠ 0 := by decide
  simp [strikeValue, hprecision]

/-- A fee never exceeds what it is taken from. -/
lemma fee_le (hbps : bps ≤ 10000) : (amount * bps + 9999) / 10000 ≤ amount := by
  have : amount * bps ≤ amount * 10000 := Nat.mul_le_mul_left _ hbps
  omega

/-- A grace period that ends after the expiry block does not wrap. -/
lemma PoolStorage.graceEnd_noWrap {p : PoolStorage} {o : OptionRecord}
    (hgrace : p.gracePeriod ≤ maxGracePeriodBlocks) (hexpiry : o.expiryBlock < u64Size)
    (hend : o.expiryBlock < p.graceEnd o) : o.expiryBlock + p.gracePeriod < u64Size := by
  by_contra hwrap
  have hsmall : maxGracePeriodBlocks < u64Size := by decide
  rw [graceEnd, u64Add, Nat.mod_eq_sub_mod (not_lt.mp hwrap),
    Nat.mod_eq_of_lt (by omega)] at hend
  omega

/-- A strike value that was computed leaves room for every fee. -/
lemma strikeValue_fits (h : strikeValue strikePrice underlyingAmount = .ok value) :
    value * 100 + 9999 < u256Size := by
  obtain ⟨hproduct, rfl⟩ := strikeValue_eq_ok.mp h
  simp only [precision, u256Size] at hproduct ⊢
  omega

/-- Amounts with room for the fee. -/
lemma exerciseFee_ok (h : amount * exerciseFeeBps + 9999 < u256Size) :
    ∃ fee, ceilBps amount exerciseFeeBps = .ok fee ∧ fee ≤ amount :=
  ⟨_, ceilBps_eq_ok.mpr ⟨h, rfl⟩, fee_le (by decide)⟩

/-- Room for the largest fee is room for the exercise fee. -/
lemma exerciseFee_room (hfits : amount * 100 + 9999 < u256Size) :
    amount * exerciseFeeBps + 9999 < u256Size := by
  simp only [exerciseFeeBps]
  omega

lemma exerciseFee_of_fits (hfits : amount * 100 + 9999 < u256Size) :
    ∃ fee, ceilBps amount exerciseFeeBps = .ok fee ∧ fee ≤ amount :=
  exerciseFee_ok (exerciseFee_room hfits)

lemma cancelFee_le {block collateral : ℕ} {o : OptionRecord}
    (h : cancelFee block o collateral = .ok fee) : fee ≤ collateral := by
  rw [cancelFee] at h
  split_ifs at h with hexpired
  · cases h
    exact Nat.zero_le _
  · obtain ⟨-, rfl⟩ := ceilBps_eq_ok.mp h
    exact fee_le (by decide)

/-! ### Methods of the base contract -/

/-- `new Option()` filled in by a creating method. -/
def newOption (tx : Tx) (optionType : OptionType)
    (strikePrice expiryBlock underlyingAmount premium : ℕ) (optionId : ℕ) : OptionRecord where
  id := optionId
  writer := tx.sender
  buyer := Address.zero
  strikePrice := strikePrice
  underlyingAmount := underlyingAmount
  premium := premium
  expiryBlock := expiryBlock
  createdBlock := tx.block
  optionType := optionType
  status := .OPEN

def onDeployment (underlying premiumToken feeRecipient : Address) (gracePeriod : ℕ) :
    Except Revert PoolStorage := do
  require (feeRecipient ≠ Address.zero) (.revert "Fee recipient cannot be zero")
  require (minGracePeriodBlocks ≤ gracePeriod) (.revert "Grace period too short")
  require (gracePeriod ≤ maxGracePeriodBlocks) (.revert "Grace period too long")
  return {
    underlying := underlying
    premiumToken := premiumToken
    feeRecipient := feeRecipient
    gracePeriod := gracePeriod
    nextId := 0
    options := OptionStorage.empty
    pubkeys := fun _ => [] }

/-- `onDeployment` with the arguments it reads from the calldata. -/
def onDeploymentCalldata (calldata : List UInt8) : Except Revert PoolStorage := do
  let (underlying, rest) ← readAddress calldata
  let (premiumToken, rest) ← readAddress rest
  let (feeRecipient, rest) ← readAddress rest
  let (gracePeriod, _) ← readU64 rest
  onDeployment underlying premiumToken feeRecipient gracePeriod

def getOption (env : Env) (optionId : ℕ) (w : World σ) : Except Revert (Reply σ) := do
  require (w.pool.options.existsAt optionId) (.revert "Option not found")
  let option := w.option optionId
  w.respond env (32 * 6 + 8 + 2)
    [.u256 option.id, .address option.writer, .address option.buyer, .u8 option.optionType.toU8,
      .u256 option.strikePrice, .u256 option.underlyingAmount, .u256 option.premium,
      .u64 option.expiryBlock, .u8 option.status.toU8]

def registerBtcPubkey (env : Env) (tx : Tx) (calldata : List UInt8) (w : World σ) :
    Except Revert (Reply σ) := do
  let (pubkey, _) ← readBytes 33 calldata
  require (pubkey.length = 33) (.revert "Pubkey must be 33 bytes")
  require (pubkey.head? = some 0x02 ∨ pubkey.head? = some 0x03) (.revert "Invalid pubkey prefix")
  let pubkeys := Function.update w.pool.pubkeys tx.sender (env.slot pubkey)
  World.respond { w with pool := { w.pool with pubkeys := pubkeys } } env 1 [.boolean true]

/-- `Blockchain.getStorageAt(pubkeyKey(addr))`: a slot nothing was stored in reads as zeros. -/
def PoolStorage.pubkeyAt (p : PoolStorage) (addr : Address) : List UInt8 :=
  if p.pubkeys addr = [] then Bytes32.zero.val else p.pubkeys addr

def getRegisteredPubkey (env : Env) (calldata : List UInt8) (w : World σ) :
    Except Revert (Reply σ) := do
  let (addr, _) ← readAddress calldata
  w.respond env 33 [.bytes ((w.pool.pubkeyAt addr).take 33)]

/-- `getRegisteredPubkeyInternal`; a slot of zeros counts as empty. -/
def PoolStorage.registeredPubkey (p : PoolStorage) (addr : Address) :
    Except Revert (List UInt8) := do
  require (∃ b ∈ p.pubkeys addr, b ≠ 0) (.revert "No pubkey registered")
  return (p.pubkeys addr).take 33

def updateFeeRecipient (env : Env) (tx : Tx) (newAddr : Address) (w : World σ) :
    Except Revert (Reply σ) := do
  require (tx.sender = w.pool.feeRecipient) (.revert "Only fee recipient")
  require (newAddr ≠ Address.zero) (.revert "Zero address not allowed")
  require (newAddr ≠ w.pool.feeRecipient) (.revert "Same address")
  let w ← World.emit { w with pool := { w.pool with feeRecipient := newAddr } } env
    .feeRecipientUpdated 64 [.address tx.sender, .address newAddr]
  w.respond env 1 [.boolean true]

end Frogop
