import Frogop.Pool.BridgeCalls
import Frogop.Pool.OptionsPool.Basic

/-!
# `OptionsPoolBtcQuote`: OP20 underlying, BTC quote

Premium and the strike of a CALL are paid in bitcoin. A purchase takes two calls: `reserveOption`
locks the option and fixes the price, `executeReservation` verifies the payment.
-/

namespace Frogop.BtcQuote

open Outcome

/-! ### Reservations -/

inductive ReservationStatus
  | PENDING
  | EXECUTED
  | EXPIRED
  deriving DecidableEq, Repr

def ReservationStatus.toU8 : ReservationStatus → ℕ
  | .PENDING => 0
  | .EXECUTED => 1
  | .EXPIRED => 2

/-- `class Reservation`; unwritten and cleared slots read as these defaults. -/
structure Reservation where
  id : ℕ := 0
  optionId : ℕ := 0
  buyer : Address := Address.zero
  btcAmount : ℕ := 0
  csvScriptHash : Bytes32 := Bytes32.zero
  expiryBlock : ℕ := 0
  status : ReservationStatus := .PENDING
  deriving DecidableEq

structure ReservationStorage where
  slots : ℕ → Reservation

namespace ReservationStorage

def empty : ReservationStorage := ⟨fun _ => {}⟩

def get (s : ReservationStorage) (id : ℕ) : Reservation := { s.slots id with id := id }

/-- `exists`: slot 0, which holds the option id, is not zero. -/
def existsAt (s : ReservationStorage) (id : ℕ) : Prop := (s.slots id).optionId ≠ 0

instance (s : ReservationStorage) (id : ℕ) : Decidable (s.existsAt id) :=
  inferInstanceAs (Decidable (_ ≠ _))

def set (s : ReservationStorage) (id : ℕ) (r : Reservation) : ReservationStorage :=
  ⟨Function.update s.slots id r⟩

def setStatus (s : ReservationStorage) (id : ℕ) (status : ReservationStatus) : ReservationStorage :=
  s.set id { s.slots id with status := status }

/-- Zero out all slots. -/
def clear (s : ReservationStorage) (id : ℕ) : ReservationStorage := s.set id {}

variable {s : ReservationStorage} {i j : ℕ} {r : Reservation} {status : ReservationStatus}

lemma existsAt_iff : s.existsAt i ↔ (s.get i).optionId ≠ 0 := Iff.rfl

lemma get_set_self : (s.set i r).get i = { r with id := i } := by simp [get, set]

lemma get_set_of_ne (h : j ≠ i) : (s.set i r).get j = s.get j := by simp [get, set, h]

lemma get_setStatus_self : (s.setStatus i status).get i = { s.get i with status := status } := by
  simp [get, setStatus, set]

lemma get_setStatus_of_ne (h : j ≠ i) : (s.setStatus i status).get j = s.get j :=
  get_set_of_ne h

lemma get_clear_self : (s.clear i).get i = { id := i } := get_set_self

lemma get_clear_of_ne (h : j ≠ i) : (s.clear i).get j = s.get j := get_set_of_ne h

end ReservationStorage

/-! ### Storage -/

/-- What the type-1 pool stores beyond the base contract. -/
structure Storage where
  nextReservationId : ℕ
  reservations : ReservationStorage
  /-- Extended slot 9 of every option. -/
  csvScriptHash : ℕ → Bytes32

abbrev State := World Storage

def setCsvScriptHashForOption (w : State) (optionId : ℕ) (hash : Bytes32) : State :=
  { w with
    own := { w.own with csvScriptHash := Function.update w.own.csvScriptHash optionId hash } }

def getCsvScriptHashForOption (w : State) (optionId : ℕ) : Except Revert Bytes32 := do
  let data := w.own.csvScriptHash optionId
  require (data.val.length ≠ 0) (.revert "No CSV hash stored for option")
  return data

def onDeployment (underlying premiumToken feeRecipient : Address) (gracePeriod : ℕ)
    (bridgeAddr : Address) : Except Revert (PoolStorage × Storage) := do
  let pool ← Frogop.onDeployment underlying premiumToken feeRecipient gracePeriod
  require (bridgeAddr ≠ Address.zero) (.revert "Bridge address cannot be zero")
  return (pool, ⟨0, ReservationStorage.empty, fun _ => Bytes32.zero⟩)

/-! ### Methods -/

def getReservation (env : Env) (reservationId : ℕ) (w : State) :
    Except Revert (Reply Storage) := do
  require (w.own.reservations.existsAt reservationId) (.revert "Reservation not found")
  let r := w.own.reservations.get reservationId
  w.respond env (32 * 4 + 32 + 8 + 1)
    [.u256 r.id, .u256 r.optionId, .address r.buyer, .u256 r.btcAmount, .bytes r.csvScriptHash.val,
      .u64 r.expiryBlock, .u8 r.status.toU8]

def writeOption (env : Env) (tx : Tx)
    (optionType strikePrice expiryBlock underlyingAmount premium : ℕ) :
    State → Except Revert (Reply Storage) :=
  OptionsPool.writeOption env tx optionType strikePrice expiryBlock underlyingAmount premium

/-- The price of an option in satoshis; it must be positive and fit a `u64`. -/
def btcPremium (premium btcPrice : ℕ) : Except Revert ℕ := do
  let product ← SafeMath.mul premium btcPrice
  let btcAmount ← SafeMath.div product precision
  require (btcAmount ≠ 0) (.revert "BTC amount too small")
  require (btcAmount < u64Size) (.revert "BTC amount overflows u64")
  return btcAmount

/-- Take the next reservation id and store `reservation` under it. -/
def addReservation (w : State) (reservation : ℕ → Reservation) :
    Except Revert (ℕ × State) := do
  let reservationId := w.own.nextReservationId
  let nextId ← SafeMath.add reservationId 1
  return (reservationId,
    { w with
      own :=
        { w.own with
          nextReservationId := nextId
          reservations := w.own.reservations.set reservationId (reservation reservationId) } })

def reserveOption (env : Env) (tx : Tx) (optionId : ℕ) (w : State) :
    Except Revert (Reply Storage) := do
  require (w.pool.options.existsAt optionId) (.revert "Option not found")
  let option := w.option optionId
  require (option.status = .OPEN) (.revert "Not open")
  require (tx.block < option.expiryBlock) (.revert "Already expired")
  require (u64Add tx.block reservationExpiryBlocks < option.expiryBlock)
    (.revert "Option expires before reservation window")
  require (tx.sender ≠ option.writer) (.revert "Writer cannot buy own option")
  let (btcPrice, w) ← w.queryBtcPrice env tx w.pool.premiumToken
  let btcAmount ← btcPremium option.premium btcPrice
  let writerPubkey ← w.pool.registeredPubkey option.writer
  let csvScriptHash ← queryCsvScriptHash env writerPubkey 6
  let w := w.setStatus optionId .RESERVED
  let expiryBlock := u64Add tx.block reservationExpiryBlocks
  let (reservationId, w) ← addReservation w fun reservationId =>
    { id := reservationId
      optionId := optionId
      buyer := tx.sender
      btcAmount := btcAmount
      csvScriptHash := csvScriptHash
      expiryBlock := expiryBlock
      status := .PENDING }
  let w ← w.emit env .optionReserved 160
    [.u256 reservationId, .u256 optionId, .address tx.sender, .u256 btcAmount,
      .bytes csvScriptHash.val, .u64 expiryBlock]
  w.respond env 32 [.u256 reservationId]

/-- Anyone may execute a reservation whose payment the transaction carries. -/
def executeReservation (env : Env) (tx : Tx) (reservationId : ℕ) (w : State) :
    Except Revert (Reply Storage) := do
  require (w.own.reservations.existsAt reservationId) (.revert "Reservation not found")
  let reservation := w.own.reservations.get reservationId
  require (reservation.status = .PENDING) (.revert "Not pending")
  require (tx.block < reservation.expiryBlock) (.revert "Reservation expired")
  require (reservation.btcAmount < u64Size) (.revert "BTC amount overflows u64")
  let (verified, w) ← w.queryVerifyBtcOutput env tx reservation.csvScriptHash reservation.btcAmount
  require (verified = true) (.revert "BTC output not found or insufficient")
  let optionId := reservation.optionId
  let w := (w.setBuyer optionId reservation.buyer).setStatus optionId .PURCHASED
  let w := setCsvScriptHashForOption w optionId reservation.csvScriptHash
  let w : State :=
    { w with
      own := { w.own with reservations := w.own.reservations.setStatus reservationId .EXECUTED } }
  let w ← w.emit env .reservationExecuted 96
    [.u256 reservationId, .u256 optionId, .address reservation.buyer]
  w.respond env 1 [.boolean true]

def cancelReservation (env : Env) (tx : Tx) (reservationId : ℕ) (w : State) :
    Except Revert (Reply Storage) := do
  require (w.own.reservations.existsAt reservationId) (.revert "Reservation not found")
  let reservation := w.own.reservations.get reservationId
  require (reservation.status = .PENDING) (.revert "Not pending")
  require (reservation.expiryBlock ≤ tx.block) (.revert "Not yet expired")
  let w := w.setStatus reservation.optionId .OPEN
  let w : State :=
    { w with own := { w.own with reservations := w.own.reservations.clear reservationId } }
  let w ← w.emit env .reservationCancelled 64 [.u256 reservationId, .u256 reservation.optionId]
  let w ← w.emit env .optionRestored 32 [.u256 reservation.optionId]
  w.respond env 1 [.boolean true]

/-- The CALL branch of `exercise`: the transaction pays the strike in bitcoin, the buyer takes the
underlying. -/
def exerciseCall (env : Env) (tx : Tx) (option : OptionRecord) (value : ℕ) (w : State) :
    Except Revert (ℕ × State) := do
  let csvScriptHash ← getCsvScriptHashForOption w option.id
  require (value < u64Size) (.revert "Strike value overflows u64")
  let (verified, w) ← w.queryVerifyBtcOutput env tx csvScriptHash value
  require (verified = true) (.revert "BTC strike payment not found")
  let exerciseFee ← ceilBps option.underlyingAmount exerciseFeeBps
  let buyerReceives ← SafeMath.sub option.underlyingAmount exerciseFee
  let w ← w.transfer env w.pool.underlying tx.sender buyerReceives
  let w ← w.transfer env w.pool.underlying w.pool.feeRecipient exerciseFee
  return (exerciseFee, w)

def exchange (env : Env) (tx : Tx) (option : OptionRecord) (value : ℕ) (w : State) :
    Except Revert (ℕ × State) :=
  match option.optionType with
  | .CALL => exerciseCall env tx option value w
  | .PUT => OptionsPool.exercisePut env tx option value w

def exercise (env : Env) (tx : Tx) (optionId : ℕ) (w : State) : Except Revert (Reply Storage) := do
  require (w.pool.options.existsAt optionId) (.revert "Option not found")
  let option := w.option optionId
  require (option.status = .PURCHASED) (.revert "Not purchased")
  require (tx.sender = option.buyer) (.revert "Not buyer")
  require (option.expiryBlock ≤ tx.block) (.revert "Not yet expired")
  require (tx.block < w.pool.graceEnd option) (.revert "Grace period ended")
  let w := w.setStatus optionId .EXERCISED
  let value ← strikeValue option.strikePrice option.underlyingAmount
  let (exerciseFee, w) ← exchange env tx option value w
  let w ← w.emit env .optionExercised 193 (OptionsPool.exercisedFields option value exerciseFee)
  w.respond env 1 [.boolean true]

def cancelOption (env : Env) (tx : Tx) (optionId : ℕ) : State → Except Revert (Reply Storage) :=
  OptionsPool.cancelOption env tx optionId

def settle (env : Env) (tx : Tx) (optionId : ℕ) : State → Except Revert (Reply Storage) :=
  OptionsPool.settle env tx optionId

/-! ### The contract -/

inductive Call
  | writeOption (optionType strikePrice expiryBlock underlyingAmount premium : ℕ)
  | reserveOption (optionId : ℕ)
  | executeReservation (reservationId : ℕ)
  | cancelReservation (reservationId : ℕ)
  | exercise (optionId : ℕ)
  | cancelOption (optionId : ℕ)
  | settle (optionId : ℕ)
  | getReservation (reservationId : ℕ)
  | getOption (optionId : ℕ)
  | updateFeeRecipient (newRecipient : Address)
  | registerBtcPubkey (calldata : List UInt8)

def exec (env : Env) (tx : Tx) : Call → State → Except Revert (Reply Storage)
  | .writeOption t s e a p => BtcQuote.writeOption env tx t s e a p
  | .reserveOption i => BtcQuote.reserveOption env tx i
  | .executeReservation r => BtcQuote.executeReservation env tx r
  | .cancelReservation r => BtcQuote.cancelReservation env tx r
  | .exercise i => BtcQuote.exercise env tx i
  | .cancelOption i => BtcQuote.cancelOption env tx i
  | .settle i => BtcQuote.settle env tx i
  | .getReservation r => BtcQuote.getReservation env r
  | .getOption i => Frogop.getOption env i
  | .updateFeeRecipient newRecipient => Frogop.updateFeeRecipient env tx newRecipient
  | .registerBtcPubkey data => Frogop.registerBtcPubkey env tx data

/-! ### Two options written, one of them sold -/

namespace Testnet

def env : Env := Frogop.Testnet.env .growing fun bytes => Bytes32.ofNat (BigEndian.ofBytes bytes)

def world : State := Frogop.Testnet.world ⟨0, ReservationStorage.empty, fun _ => Bytes32.zero⟩

def pubkey : List UInt8 := 0x02 :: List.replicate 32 0x11

/-- A transaction in which the bridge gets a quote of `10 ^ 18`. -/
def quoted (sender block : ℕ) : Tx :=
  { Frogop.Testnet.tx sender block with getQuote := fun _ _ => some (Bytes32.ofNat (10 ^ 18)) }

/-- Account 10 writes two CALLs that expire at block 1000. -/
def writing (strikePrice underlyingAmount premium : ℕ) : List (Tx × Call) :=
  [(Frogop.Testnet.tx 10 100, .registerBtcPubkey pubkey),
    (Frogop.Testnet.tx 10 100, .writeOption 0 strikePrice 1000 underlyingAmount premium),
    (Frogop.Testnet.tx 10 100, .writeOption 0 strikePrice 1000 underlyingAmount premium)]

lemma writing_fromAccount (s a p : ℕ) : ∀ q ∈ writing s a p, q.1.FromAccount env := by
  simp only [writing, List.forall_mem_cons, List.not_mem_nil, false_imp_iff, implies_true, and_true]
  decide

/-- Account 11 reserves one of them: four units at a strike of one satoshi per `10 ^ 18` units, for
a premium of 100. -/
def reserved (optionId : ℕ) : State :=
  Frogop.Testnet.after (exec env) world
    (writing (10 ^ 18) 4 100 ++ [(quoted 11 101, .reserveOption optionId)])

lemma run_reserved (optionId : ℕ) (others : Ledger → Ledger → Prop)
    (hgo : (replay (exec env) world
      (writing (10 ^ 18) 4 100 ++ [(quoted 11 101, .reserveOption optionId)])).isOk = true) :
    ∃ h, Lts.Run (Step env others (exec env)) world h (reserved optionId) := by
  refine ⟨_, Frogop.Testnet.run_after others ?_ hgo⟩
  simp only [List.forall_mem_append]
  exact ⟨writing_fromAccount _ _ _, by simp only [List.forall_mem_singleton]; decide⟩

/-- The script the premium is paid to. -/
def csvScriptHash : Bytes32 := env.sha256 (env.csvTimelock pubkey 6)

/-- The second option reserved, and its reservation executed in a transaction that pays 100
satoshis. -/
def selling (strikePrice underlyingAmount : ℕ) : List (Tx × Call) :=
  writing strikePrice underlyingAmount 100 ++
    [(quoted 11 101, .reserveOption 1),
      ({ Frogop.Testnet.tx 11 102 with
          outputs := [⟨some (0x00 :: 0x20 :: csvScriptHash.val), 100⟩] }, .executeReservation 0)]

def sold (strikePrice underlyingAmount : ℕ) : State :=
  Frogop.Testnet.after (exec env) world (selling strikePrice underlyingAmount)

lemma selling_fromAccount (s a : ℕ) : ∀ q ∈ selling s a, q.1.FromAccount env := by
  simp only [selling, List.forall_mem_append, List.forall_mem_cons, List.not_mem_nil, false_imp_iff,
    implies_true, and_true]
  exact ⟨writing_fromAccount _ _ _, by decide⟩

lemma run_sold (others : Ledger → Ledger → Prop) {s a : ℕ}
    (hgo : (replay (exec env) world (selling s a)).isOk = true) :
    ∃ h, Lts.Run (Step env others (exec env)) world h (sold s a) :=
  ⟨_, Frogop.Testnet.run_after others (selling_fromAccount s a) hgo⟩

end Testnet

end Frogop.BtcQuote
