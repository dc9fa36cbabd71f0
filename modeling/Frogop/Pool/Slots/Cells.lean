import Frogop.Pool.Slots.Basic

/-!
# What is kept in slots

`Cell` names everything that the pools keep in slots, `Write` the writes of the contracts. A write
gives values to some cells and leaves all others alone.
-/

namespace Frogop.Slots

open Bridge (setStorageAt)

/-! ### Cells -/

inductive OptionField
  | writer
  | buyer
  | strikePrice
  | underlyingAmount
  | premium
  | expiryBlock
  | createdBlock
  | optionType
  | status
  deriving DecidableEq

inductive ReservationField
  | optionId
  | buyer
  | btcAmount
  | csvScriptHash
  | expiryBlock
  | status

abbrev OptionField.Value : OptionField → Type
  | .writer | .buyer => Address
  | .strikePrice | .underlyingAmount | .premium => U256
  | .expiryBlock | .createdBlock => UInt64
  | .optionType | .status => UInt8

abbrev ReservationField.Value : ReservationField → Type
  | .optionId | .btcAmount => U256
  | .buyer => Address
  | .csvScriptHash => Bytes32
  | .expiryBlock => UInt64
  | .status => UInt8

@[simp] def StoredOption.field (o : StoredOption) : (f : OptionField) → f.Value
  | .writer => o.writer
  | .buyer => o.buyer
  | .strikePrice => o.strikePrice
  | .underlyingAmount => o.underlyingAmount
  | .premium => o.premium
  | .expiryBlock => o.expiryBlock
  | .createdBlock => o.createdBlock
  | .optionType => o.optionType
  | .status => o.status

@[simp] def StoredReservation.field (r : StoredReservation) : (f : ReservationField) → f.Value
  | .optionId => r.optionId
  | .buyer => r.buyer
  | .btcAmount => r.btcAmount
  | .csvScriptHash => r.csvScriptHash
  | .expiryBlock => r.expiryBlock
  | .status => r.status

/-- Everything that is kept in slots. -/
inductive Cell
  | option (optionId : U256) (f : OptionField)
  | reservation (id : U256) (f : ReservationField)
  | extended (optionId : U256) (slot : UInt8)
  | pubkey (addr : Address)

abbrev Cell.Value : Cell → Type
  | .option _ f => f.Value
  | .reservation _ f => f.Value
  | .extended _ _ | .pubkey _ => Bytes32

/-- What is read of a cell. -/
@[simp] def Cell.read (L : Layout) (s : Storage) : (c : Cell) → c.Value
  | .option i f => (OptionStorage.get L i s).field f
  | .reservation i f => (ReservationStorage.get L i s).field f
  | .extended i slot => s (extendedSlotKey L i slot)
  | .pubkey a => s (L.key (.pubkey a))

namespace Cell

/-- Where a cell is stored. -/
@[simp] def place : Cell → Place
  | .option i .writer => .record .options i 0
  | .option i .buyer => .record .options i 1
  | .option i .strikePrice => .record .options i 2
  | .option i .underlyingAmount => .record .options i 3
  | .option i .premium => .record .options i 4
  | .option i .expiryBlock | .option i .createdBlock => .record .options i 5
  | .option i .optionType | .option i .status => .record .options i 6
  | .reservation i .optionId => .record .reservations i 0
  | .reservation i .buyer => .record .reservations i 1
  | .reservation i .btcAmount => .record .reservations i 2
  | .reservation i .csvScriptHash => .record .reservations i 3
  | .reservation i .expiryBlock | .reservation i .status => .record .reservations i 4
  | .extended i slot => .record .extendedSlots i slot
  | .pubkey a => .pubkey a

/-- How a cell is read from its slot. -/
@[simp] def decode : (c : Cell) → Bytes32 → c.Value
  | .option _ .writer, data | .option _ .buyer, data => data
  | .option _ .strikePrice, data | .option _ .underlyingAmount, data | .option _ .premium, data =>
    toU256 data
  | .option _ .expiryBlock, data => u64At data 16
  | .option _ .createdBlock, data => u64At data 24
  | .option _ .optionType, data => byteAt data 30
  | .option _ .status, data => byteAt data 31
  | .reservation _ .optionId, data | .reservation _ .btcAmount, data => toU256 data
  | .reservation _ .buyer, data | .reservation _ .csvScriptHash, data => data
  | .reservation _ .expiryBlock, data => u64At data 16
  | .reservation _ .status, data => byteAt data 31
  | .extended _ _, data | .pubkey _, data => data

end Cell

/-! ### Writes -/

/-- The setter of one field. -/
def OptionStorage.setField (L : Layout) (i : U256) (s : Storage) :
    (f : OptionField) → f.Value → Storage
  | .writer, v => setWriter L i s v
  | .buyer, v => setBuyer L i s v
  | .strikePrice, v => setStrikePrice L i s v
  | .underlyingAmount, v => setUnderlyingAmount L i s v
  | .premium, v => setPremium L i s v
  | .expiryBlock, v => setExpiryBlock L i s v
  | .createdBlock, v => setCreatedBlock L i s v
  | .optionType, v => setOptionType L i s v
  | .status, v => setStatus L i s v

/-- The writes of the contracts. -/
inductive Write
  | setOption (optionId : U256) (option : StoredOption)
  | setOptionField (optionId : U256) (f : OptionField) (v : f.Value)
  | setReservation (id : U256) (r : StoredReservation)
  | setReservationStatus (id : U256) (status : UInt8)
  | clearReservation (id : U256)
  | setBtcCollateral (optionId amount : U256)
  | setEscrowHash (optionId : U256) (hash : Bytes32)
  | setCsvScriptHashForOption (optionId : U256) (hash : Bytes32)
  | setPubkey (addr : Address) (word : Bytes32)

namespace Write

def store (L : Layout) (s : Storage) : Write → Storage
  | .setOption i option => OptionStorage.set L i s option
  | .setOptionField i f v => OptionStorage.setField L i s f v
  | .setReservation i r => ReservationStorage.set L i s r
  | .setReservationStatus i status => ReservationStorage.setStatus L i s status
  | .clearReservation i => ReservationStorage.clear L i s
  | .setBtcCollateral i amount => Slots.setBtcCollateral L i s amount
  | .setEscrowHash i hash => Slots.setEscrowHash L i s hash
  | .setCsvScriptHashForOption i hash => Slots.setCsvScriptHashForOption L i s hash
  | .setPubkey a word => Slots.setPubkey L s a word

/-- `class Reservation` as it is constructed. -/
def noReservation : StoredReservation := ⟨0, 0, Address.zero, 0, Bytes32.zero, 0, 0⟩

/-- A write to an extended slot gives its word. -/
@[simp] def givenExtended (i : U256) (n : UInt8) (word : Bytes32) : (c : Cell) → Option c.Value
  | .extended j slot => if j = i ∧ slot = n then some word else none
  | _ => none

/-- The value that a write gives to a cell, if it writes to it. -/
@[simp] def given : Write → (c : Cell) → Option c.Value
  | .setOption i option, .option j f => if j = i then some (option.field f) else none
  | .setOptionField i f v, .option j g => if h : j = i ∧ g = f then some (h.2 ▸ v) else none
  | .setReservation i r, .reservation j f => if j = i then some (r.field f) else none
  | .setReservationStatus i status, .reservation j .status => if j = i then some status else none
  | .clearReservation i, .reservation j f =>
    if j = i then some (noReservation.field f) else none
  | .setBtcCollateral i amount, c => givenExtended i 7 (ofU256 amount) c
  | .setEscrowHash i hash, c => givenExtended i 8 hash c
  | .setCsvScriptHashForOption i hash, c => givenExtended i 9 hash c
  | .setPubkey a word, .pubkey b => if b = a then some word else none
  | _, _ => none

/-- Only built keys are written to. -/
def Within (built : Set Place) (w : Write) : Prop :=
  ∀ c : Cell, (w.given c).isSome → c.place ∈ built

end Write

section

variable {L : Layout} {built : Set Place} {s : Storage} {p : Place} {data : Bytes32}

lemma Cell.read_eq (c : Cell) : c.read L s = c.decode (s (L.key c.place)) := by
  cases c with
  | option j f => cases f <;> rfl
  | reservation j f => cases f <;> rfl
  | extended j slot => rfl
  | pubkey a => rfl

/-- A write to one slot is seen by the cells stored there. -/
lemma Cell.read_setStorageAt {c : Cell} (hL : L.NoCollision built) (hc : c.place ∈ built)
    (hp : p ∈ built) :
    c.read L (setStorageAt s (L.key p) data)
      = if c.place = p then c.decode data else c.read L s := by
  rw [Cell.read_eq, setStorageAt, Function.update_apply, Cell.read_eq]
  simp only [hL.key_inj hc hp]
  split_ifs <;> rfl

end

/-! ### Every write -/

section

variable {L : Layout} {built : Set Place} {s : Storage} {data : Bytes32} {i : U256}
  {o : StoredOption} {r : StoredReservation} {c : Cell}

/-- Writing a whole option takes all of its slots. -/
lemma Write.Within.slots (hw : (Write.setOption i o).Within built) :
    Place.record .options i 0 ∈ built ∧ Place.record .options i 1 ∈ built ∧
      Place.record .options i 2 ∈ built ∧ Place.record .options i 3 ∈ built ∧
      Place.record .options i 4 ∈ built ∧ Place.record .options i 5 ∈ built ∧
      Place.record .options i 6 ∈ built := by
  have hslot : ∀ f, (Cell.option i f).place ∈ built := fun f => hw _ (by simp)
  exact ⟨hslot .writer, hslot .buyer, hslot .strikePrice, hslot .underlyingAmount, hslot .premium,
    hslot .expiryBlock, hslot .status⟩

lemma read_setOption (hL : L.NoCollision built) (hc : c.place ∈ built)
    (hw : (Write.setOption i o).Within built) :
    c.read L (OptionStorage.set L i s o)
      = ((Write.setOption i o).given c).getD (c.read L s) := by
  obtain ⟨h0, h1, h2, h3, h4, h5, h6⟩ := hw.slots
  simp only [OptionStorage.set, OptionStorage.setWriter, OptionStorage.setBuyer,
    OptionStorage.setStrikePrice, OptionStorage.setUnderlyingAmount, OptionStorage.setPremium,
    OptionStorage.setExpiryAndCreatedBlock, OptionStorage.setTypeAndStatus,
    Cell.read_setStorageAt hL hc, h0, h1, h2, h3, h4, h5, h6]
  cases c with
  | option j f => cases f <;> by_cases hji : j = i <;> simp [hji]
  | reservation j f => cases f <;> simp
  | extended j slot => simp
  | pubkey a => simp

/-- Two fields that share a slot keep each other's value. -/
lemma read_setOptionField (hL : L.NoCollision built) (hc : c.place ∈ built) (f : OptionField)
    (v : f.Value) (hp : (Cell.option i f).place ∈ built) :
    c.read L (OptionStorage.setField L i s f v)
      = ((Write.setOptionField i f v).given c).getD (c.read L s) := by
  cases f <;> simp only [Cell.place] at hp
  all_goals
    simp only [OptionStorage.setField, OptionStorage.setWriter, OptionStorage.setBuyer,
      OptionStorage.setStrikePrice, OptionStorage.setUnderlyingAmount, OptionStorage.setPremium,
      OptionStorage.setExpiryBlock, OptionStorage.setCreatedBlock, OptionStorage.setOptionType,
      OptionStorage.setStatus, Cell.read_setStorageAt hL hc hp]
    cases c with
    | option j g => cases g <;> by_cases hji : j = i <;> simp [hji, OptionStorage.get]
    | reservation j g => cases g <;> simp
    | extended j slot => simp
    | pubkey a => simp

lemma read_setReservation (hL : L.NoCollision built) (hc : c.place ∈ built)
    (hslot : ∀ f, (Cell.reservation i f).place ∈ built) :
    c.read L (ReservationStorage.set L i s r)
      = ((Write.setReservation i r).given c).getD (c.read L s) := by
  have h0 : Place.record .reservations i 0 ∈ built := hslot .optionId
  have h1 : Place.record .reservations i 1 ∈ built := hslot .buyer
  have h2 : Place.record .reservations i 2 ∈ built := hslot .btcAmount
  have h3 : Place.record .reservations i 3 ∈ built := hslot .csvScriptHash
  have h4 : Place.record .reservations i 4 ∈ built := hslot .status
  simp only [ReservationStorage.set, ReservationStorage.setOptionId, ReservationStorage.setBuyer,
    ReservationStorage.setBtcAmount, ReservationStorage.setCsvScriptHash,
    ReservationStorage.setExpiryAndStatus, Cell.read_setStorageAt hL hc, h0, h1, h2, h3, h4]
  cases c with
  | option j f => cases f <;> simp
  | reservation j f => cases f <;> by_cases hji : j = i <;> simp [hji]
  | extended j slot => simp
  | pubkey a => simp

/-- A cleared reservation is the one that is written when there is none. -/
lemma clear_eq : ReservationStorage.clear L i s
    = ReservationStorage.set L i s Write.noReservation := by
  have hzero : ofU256 0 = Bytes32.zero := by decide
  have hpacked : packExpiryAndStatus 0 0 = Bytes32.zero := by decide
  simp only [ReservationStorage.clear, ReservationStorage.set, ReservationStorage.setOptionId,
    ReservationStorage.setBuyer, ReservationStorage.setBtcAmount,
    ReservationStorage.setCsvScriptHash, ReservationStorage.setExpiryAndStatus,
    Write.noReservation, hzero, hpacked, Address.zero]

lemma read_setReservationStatus (hL : L.NoCollision built) (hc : c.place ∈ built)
    (hp : Place.record .reservations i 4 ∈ built) (status : UInt8) :
    c.read L (ReservationStorage.setStatus L i s status)
      = ((Write.setReservationStatus i status).given c).getD (c.read L s) := by
  rw [ReservationStorage.setStatus, Cell.read_setStorageAt hL hc hp]
  cases c with
  | option j f => cases f <;> simp
  | reservation j f => cases f <;> by_cases hji : j = i <;> simp [hji, ReservationStorage.get]
  | extended j slot => simp
  | pubkey a => simp

lemma read_setExtended (hL : L.NoCollision built) (hc : c.place ∈ built) (slot : UInt8)
    (hp : Place.record .extendedSlots i slot ∈ built) :
    c.read L (setStorageAt s (extendedSlotKey L i slot) data)
      = (Write.givenExtended i slot data c).getD (c.read L s) := by
  rw [Cell.read_setStorageAt hL hc hp]
  cases c with
  | option j f => cases f <;> simp
  | reservation j f => cases f <;> simp
  | extended j k => by_cases hji : j = i ∧ k = slot <;> simp [hji]
  | pubkey a => simp

lemma read_setPubkey (hL : L.NoCollision built) (hc : c.place ∈ built) {a : Address}
    (hp : Place.pubkey a ∈ built) :
    c.read L (setPubkey L s a data) = ((Write.setPubkey a data).given c).getD (c.read L s) := by
  rw [setPubkey, Cell.read_setStorageAt hL hc hp]
  cases c with
  | option j f => cases f <;> simp
  | reservation j f => cases f <;> simp
  | extended j slot => simp
  | pubkey b => by_cases hba : b = a <;> simp [hba]

/-- What a write gives is what is read afterwards, and everything else is read as before. -/
lemma Write.read_store (hL : L.NoCollision built) {w : Write} (hw : w.Within built)
    (hc : c.place ∈ built) : c.read L (w.store L s) = (w.given c).getD (c.read L s) := by
  cases w with
  | setOption i o => exact read_setOption hL hc hw
  | setOptionField i f v =>
    exact read_setOptionField hL hc f v (hw (.option i f) (by simp))
  | setReservation i r =>
    exact read_setReservation hL hc fun f => hw (.reservation i f) (by simp)
  | setReservationStatus i status =>
    exact read_setReservationStatus hL hc (hw (.reservation i .status) (by simp)) status
  | clearReservation i =>
    rw [store, clear_eq, read_setReservation hL hc fun f => hw (.reservation i f) (by simp)]
    cases c <;> rfl
  | setBtcCollateral i amount =>
    exact read_setExtended hL hc 7 (hw (.extended i 7) (by simp))
  | setEscrowHash i hash => exact read_setExtended hL hc 8 (hw (.extended i 8) (by simp))
  | setCsvScriptHashForOption i hash =>
    exact read_setExtended hL hc 9 (hw (.extended i 9) (by simp))
  | setPubkey a word => exact read_setPubkey hL hc (hw (.pubkey a) (by simp))

end

end Frogop.Slots
