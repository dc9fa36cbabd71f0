import Frogop.Bridge.Basic
import Mathlib.Data.Fin.Basic
import Mathlib.Data.List.Induction

/-!
# Records in storage slots

`OptionStorage` and `ReservationStorage` as the contracts store them: every field of a record has a
32-byte slot, found under the hash of a storage pointer, the id and a slot number. The two blocks of
an option share a slot, as do its type and status, and a reservation's expiry and status; setting
one of them reads the slot and writes it back.
-/

namespace Frogop.Slots

open Bridge (setStorageAt hasStorageAt)

/-- A `u256` of a record. -/
abbrev U256 := Fin u256Size

instance : NeZero u256Size := ⟨by decide⟩

/-- `price.toUint8Array(true)` -/
def ofU256 (n : U256) : Bytes32 := Bytes32.ofNat n

/-- `u256.fromUint8ArrayBE(data)` -/
def toU256 (data : Bytes32) : U256 := ⟨data.toNat, by
  have hlt := BigEndian.ofBytes_lt data.val
  rw [data.length_val] at hlt
  exact hlt⟩

/-! ### Keys -/

/-- The hash, and the pointers that `Blockchain.nextPointer` handed out. -/
structure Layout where
  sha256 : List UInt8 → Bytes32
  options : UInt16
  pubkeyRegistry : UInt16
  extendedSlots : UInt16
  reservations : UInt16
  nodup : [options, pubkeyRegistry, extendedSlots, reservations].Nodup

/-- The pointers under which there are slots for every id. -/
inductive Space
  | options
  | extendedSlots
  | reservations
  deriving DecidableEq

/-- What a slot of the pools is for. -/
inductive Place
  | record (space : Space) (id : U256) (slot : UInt8)
  | pubkey (addr : Address)
  deriving DecidableEq

/-- What `getKey` and `extendedSlotKey` hash. -/
def recordKey (pointer : UInt16) (id : U256) (slot : UInt8) : List UInt8 :=
  buffer 35 [.u16 pointer.toNat, .u256 id, .u8 slot.toNat]

namespace Layout

def pointer (L : Layout) : Space → UInt16
  | .options => L.options
  | .extendedSlots => L.extendedSlots
  | .reservations => L.reservations

/-- The bytes that are hashed to the key of a slot. -/
def preimage (L : Layout) : Place → List UInt8
  | .record space id slot => recordKey (L.pointer space) id slot
  | .pubkey addr => buffer 34 [.u16 L.pubkeyRegistry.toNat, .address addr]

def key (L : Layout) (p : Place) : Bytes32 := L.sha256 (L.preimage p)

/-- No two of the keys that are built collide. -/
def NoCollision (L : Layout) (built : Set Place) : Prop :=
  ∀ p ∈ built, ∀ q ∈ built, L.sha256 (L.preimage p) = L.sha256 (L.preimage q) →
    L.preimage p = L.preimage q

end Layout

/-- The storage of a pool, by key. -/
abbrev Storage := Bytes32 → Bytes32

/-! ### Packed slots -/

/-- `data[i]` -/
def byteAt (data : Bytes32) (i : ℕ) : UInt8 := data.val.getD i 0

/-- The loop of `packBlocks` over one of the blocks, most significant byte first. -/
def u64Bytes (n : UInt64) : List UInt8 :=
  (List.range 8).map fun i => ((n >>> UInt64.ofNat (56 - i * 8)) &&& 0xFF).toUInt8

/-- The loop of `getExpiryBlock` over the bytes it reads. -/
def ofU64Bytes (data : List UInt8) : UInt64 :=
  data.foldl (fun result byte => (result <<< 8) ||| byte.toUInt64) 0

def u64At (data : Bytes32) (offset : ℕ) : UInt64 :=
  ofU64Bytes ((data.val.drop offset).take 8)

@[simp] lemma length_u64Bytes (n : UInt64) : (u64Bytes n).length = 8 := by simp [u64Bytes]

def packBlocks (expiryBlock createdBlock : UInt64) : Bytes32 :=
  ⟨List.replicate 16 0 ++ u64Bytes expiryBlock ++ u64Bytes createdBlock, by simp⟩

def packTypeAndStatus (optionType status : UInt8) : Bytes32 :=
  ⟨List.replicate 30 0 ++ [optionType, status], by simp⟩

def packExpiryAndStatus (expiryBlock : UInt64) (status : UInt8) : Bytes32 :=
  ⟨List.replicate 16 0 ++ u64Bytes expiryBlock ++ List.replicate 7 0 ++ [status], by simp⟩

/-! ### Options -/

/-- `class Option`, with the integers as they are stored. -/
structure StoredOption where
  id : U256
  writer : Address
  buyer : Address
  strikePrice : U256
  underlyingAmount : U256
  premium : U256
  expiryBlock : UInt64
  createdBlock : UInt64
  optionType : UInt8
  status : UInt8

namespace OptionStorage

abbrev getKey (L : Layout) (optionId : U256) (slot : UInt8) : Bytes32 :=
  L.key (.record .options optionId slot)

variable (L : Layout) (optionId : U256) (s : Storage)

def setWriter (writer : Address) : Storage := setStorageAt s (getKey L optionId 0) writer

def getWriter : Address := s (getKey L optionId 0)

def setBuyer (buyer : Address) : Storage := setStorageAt s (getKey L optionId 1) buyer

def getBuyer : Address := s (getKey L optionId 1)

def setStrikePrice (price : U256) : Storage :=
  setStorageAt s (getKey L optionId 2) (ofU256 price)

def getStrikePrice : U256 := toU256 (s (getKey L optionId 2))

def setUnderlyingAmount (amount : U256) : Storage :=
  setStorageAt s (getKey L optionId 3) (ofU256 amount)

def getUnderlyingAmount : U256 := toU256 (s (getKey L optionId 3))

def setPremium (premium : U256) : Storage :=
  setStorageAt s (getKey L optionId 4) (ofU256 premium)

def getPremium : U256 := toU256 (s (getKey L optionId 4))

def setExpiryAndCreatedBlock (expiryBlock createdBlock : UInt64) : Storage :=
  setStorageAt s (getKey L optionId 5) (packBlocks expiryBlock createdBlock)

def getExpiryBlock : UInt64 := u64At (s (getKey L optionId 5)) 16

def getCreatedBlock : UInt64 := u64At (s (getKey L optionId 5)) 24

def setExpiryBlock (blockNum : UInt64) : Storage :=
  let createdBlock := getCreatedBlock L optionId s
  setStorageAt s (getKey L optionId 5) (packBlocks blockNum createdBlock)

def setCreatedBlock (blockNum : UInt64) : Storage :=
  let expiryBlock := getExpiryBlock L optionId s
  setStorageAt s (getKey L optionId 5) (packBlocks expiryBlock blockNum)

def getOptionType : UInt8 := byteAt (s (getKey L optionId 6)) 30

def getStatus : UInt8 := byteAt (s (getKey L optionId 6)) 31

def setOptionType (optionType : UInt8) : Storage :=
  let status := getStatus L optionId s
  setStorageAt s (getKey L optionId 6) (packTypeAndStatus optionType status)

def setStatus (status : UInt8) : Storage :=
  let optionType := getOptionType L optionId s
  setStorageAt s (getKey L optionId 6) (packTypeAndStatus optionType status)

/-- `exists` -/
def existsAt : Prop := hasStorageAt s (getKey L optionId 0)

def get : StoredOption where
  id := optionId
  writer := getWriter L optionId s
  buyer := getBuyer L optionId s
  strikePrice := getStrikePrice L optionId s
  underlyingAmount := getUnderlyingAmount L optionId s
  premium := getPremium L optionId s
  expiryBlock := getExpiryBlock L optionId s
  createdBlock := getCreatedBlock L optionId s
  optionType := getOptionType L optionId s
  status := getStatus L optionId s

/-- The write to slot 6 that ends `set`. -/
def setTypeAndStatus (optionType status : UInt8) : Storage :=
  setStorageAt s (getKey L optionId 6) (packTypeAndStatus optionType status)

def set (option : StoredOption) : Storage :=
  let s := setWriter L optionId s option.writer
  let s := setBuyer L optionId s option.buyer
  let s := setStrikePrice L optionId s option.strikePrice
  let s := setUnderlyingAmount L optionId s option.underlyingAmount
  let s := setPremium L optionId s option.premium
  let s := setExpiryAndCreatedBlock L optionId s option.expiryBlock option.createdBlock
  setTypeAndStatus L optionId s option.optionType option.status

end OptionStorage

/-! ### Reservations -/

/-- `class Reservation`, with the integers as they are stored. -/
structure StoredReservation where
  id : U256
  optionId : U256
  buyer : Address
  btcAmount : U256
  csvScriptHash : Bytes32
  expiryBlock : UInt64
  status : UInt8

namespace ReservationStorage

abbrev getKey (L : Layout) (reservationId : U256) (slot : UInt8) : Bytes32 :=
  L.key (.record .reservations reservationId slot)

variable (L : Layout) (id : U256) (s : Storage)

def setOptionId (optionId : U256) : Storage :=
  setStorageAt s (getKey L id 0) (ofU256 optionId)

def getOptionId : U256 := toU256 (s (getKey L id 0))

def setBuyer (buyer : Address) : Storage := setStorageAt s (getKey L id 1) buyer

def getBuyer : Address := s (getKey L id 1)

def setBtcAmount (amount : U256) : Storage :=
  setStorageAt s (getKey L id 2) (ofU256 amount)

def getBtcAmount : U256 := toU256 (s (getKey L id 2))

def setCsvScriptHash (hash : Bytes32) : Storage := setStorageAt s (getKey L id 3) hash

def getCsvScriptHash : Bytes32 := s (getKey L id 3)

def setExpiryAndStatus (expiryBlock : UInt64) (status : UInt8) : Storage :=
  setStorageAt s (getKey L id 4) (packExpiryAndStatus expiryBlock status)

def getExpiryBlock : UInt64 := u64At (s (getKey L id 4)) 16

def getStatus : UInt8 := byteAt (s (getKey L id 4)) 31

def setStatus (status : UInt8) : Storage :=
  let expiryBlock := getExpiryBlock L id s
  setStorageAt s (getKey L id 4) (packExpiryAndStatus expiryBlock status)

/-- `exists` -/
def existsAt : Prop := hasStorageAt s (getKey L id 0)

def get : StoredReservation where
  id := id
  optionId := getOptionId L id s
  buyer := getBuyer L id s
  btcAmount := getBtcAmount L id s
  csvScriptHash := getCsvScriptHash L id s
  expiryBlock := getExpiryBlock L id s
  status := getStatus L id s

def set (r : StoredReservation) : Storage :=
  let s := setOptionId L id s r.optionId
  let s := setBuyer L id s r.buyer
  let s := setBtcAmount L id s r.btcAmount
  let s := setCsvScriptHash L id s r.csvScriptHash
  setExpiryAndStatus L id s r.expiryBlock r.status

/-- Zero out all slots. -/
def clear : Storage :=
  let s := setStorageAt s (getKey L id 0) Bytes32.zero
  let s := setStorageAt s (getKey L id 1) Bytes32.zero
  let s := setStorageAt s (getKey L id 2) Bytes32.zero
  let s := setStorageAt s (getKey L id 3) Bytes32.zero
  setStorageAt s (getKey L id 4) Bytes32.zero

end ReservationStorage

/-! ### Extended slots and keys -/

abbrev extendedSlotKey (L : Layout) (optionId : U256) (slot : UInt8) : Bytes32 :=
  L.key (.record .extendedSlots optionId slot)

section

variable (L : Layout) (optionId : U256) (s : Storage)

def setBtcCollateral (amount : U256) : Storage :=
  setStorageAt s (extendedSlotKey L optionId 7) (ofU256 amount)

def setEscrowHash (hash : Bytes32) : Storage := setStorageAt s (extendedSlotKey L optionId 8) hash

/-- `SLOT_CSV_HASH` is 9. -/
def setCsvScriptHashForOption (hash : Bytes32) : Storage :=
  setStorageAt s (extendedSlotKey L optionId 9) hash

/-- The write of `registerBtcPubkey`: what the slot keeps of the key. -/
def setPubkey (addr : Address) (word : Bytes32) : Storage :=
  setStorageAt s (L.key (.pubkey addr)) word

end

/-! ### Keys do not collide -/

section

variable {L : Layout} {s : Storage} {p q : Place} {data : Bytes32} {i j : U256}

lemma recordKey_inj {pointer pointer' : UInt16} {slot slot' : UInt8}
    (h : recordKey pointer i slot = recordKey pointer' j slot') :
    pointer = pointer' ∧ i = j ∧ slot = slot' := by
  simp only [recordKey, buffer, List.flatMap_cons, List.flatMap_nil, Field.encode, fieldsWidth_cons,
    fieldsWidth_nil, Field.width, List.append_assoc] at h
  obtain ⟨hpointer, h⟩ := List.append_inj h (by simp)
  obtain ⟨hid, h⟩ := List.append_inj h (by simp)
  obtain ⟨hslot, -⟩ := List.append_inj h (by simp)
  refine ⟨?_, ?_, ?_⟩
  · exact UInt16.toNat_inj.mp (BigEndian.beBytes_inj pointer.toNat_lt pointer'.toNat_lt hpointer)
  · exact Fin.ext (BigEndian.beBytes_inj i.isLt j.isLt hid)
  · exact UInt8.toNat_inj.mp (BigEndian.beBytes_inj slot.toNat_lt slot'.toNat_lt hslot)

lemma Layout.pointer_inj {space space' : Space} (h : L.pointer space = L.pointer space') :
    space = space' := by
  have hpointers := L.nodup
  simp only [List.nodup_cons, List.mem_cons, List.not_mem_nil, or_false, not_or] at hpointers
  obtain ⟨⟨-, hoe, hor⟩, -, her, -⟩ := hpointers
  cases space <;> cases space' <;> first | rfl | simp_all [Layout.pointer]

lemma pubkeyKey_inj {a b : Address} (h : L.preimage (.pubkey a) = L.preimage (.pubkey b)) :
    a = b := by
  simp only [Layout.preimage, buffer, List.flatMap_cons, List.flatMap_nil, Field.encode,
    fieldsWidth_cons, fieldsWidth_nil, Field.width, List.append_assoc] at h
  obtain ⟨-, h⟩ := List.append_inj h rfl
  obtain ⟨haddr, -⟩ := List.append_inj h (by simp)
  exact Subtype.ext haddr

variable {built : Set Place}

/-- Different slots have different keys: those of records take 35 bytes, those of keys 34. -/
lemma Layout.NoCollision.key_inj (hL : L.NoCollision built) (hp : p ∈ built) (hq : q ∈ built) :
    L.key p = L.key q ↔ p = q := by
  refine ⟨fun h => ?_, fun h => by rw [h]⟩
  have hbytes := hL p hp q hq h
  have hlen := congrArg List.length hbytes
  cases p with
  | record space i slot =>
    cases q with
    | record space' j slot' =>
      obtain ⟨hpointer, rfl, rfl⟩ := recordKey_inj hbytes
      rw [L.pointer_inj hpointer]
    | pubkey a => simp [Layout.preimage, recordKey, buffer, Field.encode, Field.width] at hlen
  | pubkey a =>
    cases q with
    | record space j slot =>
      simp [Layout.preimage, recordKey, buffer, Field.encode, Field.width] at hlen
    | pubkey b => rw [pubkeyKey_inj hbytes]

end

/-! ### Reading back -/

lemma byte_shift (n : UInt64) {k : ℕ} (hk : k < 64) :
    ((n >>> UInt64.ofNat k) &&& 0xFF).toUInt8 = UInt8.ofNat (n.toNat / 2 ^ k % 256) := by
  apply UInt8.toNat_inj.mp
  have h255 : (255 : ℕ) = 2 ^ 8 - 1 := rfl
  have hk' : k % 18446744073709551616 % 64 = k := by omega
  simp [UInt64.toNat_shiftRight, hk', Nat.shiftRight_eq_div_pow]
  rw [h255, Nat.and_two_pow_sub_one_eq_mod]
  omega

lemma u64Bytes_eq (n : UInt64) : u64Bytes n = BigEndian.beBytes 8 n.toNat := by
  calc u64Bytes n
      = (List.range 8).map fun i => UInt8.ofNat (n.toNat / 2 ^ (56 - i * 8) % 256) :=
        List.map_congr_left fun i hi => byte_shift n (by omega)
    _ = BigEndian.beBytes 8 n.toNat := rfl

lemma toNat_shift_or (r : UInt64) (b : UInt8) :
    ((r <<< 8) ||| b.toUInt64).toNat = (r.toNat * 256 + b.toNat) % 2 ^ 64 := by
  have hr : (r <<< 8).toNat = (r.toNat % 2 ^ 56) <<< 8 := by
    simp [UInt64.toNat_shiftLeft, Nat.shiftLeft_eq]
    omega
  have hb : b.toUInt64.toNat < 2 ^ 8 := by simpa using b.toNat_lt
  rw [UInt64.toNat_or, hr, ← Nat.shiftLeft_add_eq_or_of_lt hb, Nat.shiftLeft_eq]
  have hb' := b.toNat_lt
  simp
  omega


/-- The loop keeps the number of the bytes it has read, as far as it fits. -/
lemma toNat_ofU64Bytes (data : List UInt8) :
    (ofU64Bytes data).toNat = BigEndian.ofBytes data % 2 ^ 64 := by
  induction data using List.reverseRecOn with
  | nil => rfl
  | append_singleton data b ih =>
    have hstep : ofU64Bytes (data ++ [b]) = (ofU64Bytes data <<< 8) ||| b.toUInt64 := by
      simp [ofU64Bytes]
    rw [hstep, toNat_shift_or, ih, BigEndian.ofBytes_append_singleton]
    omega

@[simp] lemma ofU64Bytes_u64Bytes (n : UInt64) : ofU64Bytes (u64Bytes n) = n := by
  apply UInt64.toNat_inj.mp
  rw [toNat_ofU64Bytes, u64Bytes_eq, BigEndian.ofBytes_beBytes_of_lt n.toNat_lt,
    Nat.mod_eq_of_lt n.toNat_lt]

@[simp] lemma toU256_ofU256 (n : U256) : toU256 (ofU256 n) = n :=
  Fin.ext (BigEndian.ofBytes_beBytes_of_lt n.isLt)

@[simp] lemma toU256_zero : toU256 Bytes32.zero = 0 := by decide

lemma toU256_eq_zero {data : Bytes32} : toU256 data = 0 ↔ data = Bytes32.zero := by
  refine ⟨fun h => ?_, fun h => by rw [h]; exact toU256_zero⟩
  refine Subtype.ext (BigEndian.ofBytes_inj (by simp) ?_)
  have hval : toU256 data = toU256 Bytes32.zero := h.trans toU256_zero.symm
  exact congrArg Fin.val hval

section

variable {e c : UInt64} {t st : UInt8}

@[simp] lemma u64At_packBlocks_expiry : u64At (packBlocks e c) 16 = e := by
  simp [u64At, packBlocks]

@[simp] lemma u64At_packBlocks_created : u64At (packBlocks e c) 24 = c := by
  have hall : (u64Bytes c).take 8 = u64Bytes c := List.take_of_length_le (by simp)
  simp [u64At, packBlocks, hall]

@[simp] lemma u64At_packExpiryAndStatus : u64At (packExpiryAndStatus e st) 16 = e := by
  simp [u64At, packExpiryAndStatus]

@[simp] lemma type_packTypeAndStatus : byteAt (packTypeAndStatus t st) 30 = t := by
  simp [byteAt, packTypeAndStatus]

@[simp] lemma status_packTypeAndStatus : byteAt (packTypeAndStatus t st) 31 = st := by
  simp [byteAt, packTypeAndStatus]

@[simp] lemma status_packExpiryAndStatus : byteAt (packExpiryAndStatus e st) 31 = st := by
  simp [byteAt, packExpiryAndStatus]

end

end Frogop.Slots
