import Frogop.Pool.BtcQuote.Basic
import Frogop.Pool.Slots.Maps

/-!
# The slots hold the tables of the models

The models keep tables of records by id. What the cells hold of such tables follows the writes of
the contracts, and so do the slots; hence slots and tables agree after any writes once they did
before.
-/

namespace Frogop.Slots

/-! ### What cells hold -/

/-- A value for every cell. -/
abbrev Contents := (c : Cell) → c.Value

def Contents.write (f : Contents) (w : Write) : Contents := fun c => (w.given c).getD (f c)

section

variable {L : Layout} {built : Set Place} {s : Storage} {f : Contents} {c : Cell}

lemma Contents.foldl_write (f : Contents) (ws : List Write) (c : Cell) :
    ws.foldl Contents.write f c = (lastGiven ws c).getD (f c) := by
  induction ws using List.reverseRecOn with
  | nil => rfl
  | append_singleton ws w ih =>
    rw [List.foldl_append, lastGiven_append]
    show (w.given c).getD (ws.foldl Contents.write f c) = _
    rw [ih]
    cases w.given c <;> rfl

/-- Slots that agree with some contents do so after the same writes. -/
lemma read_foldl (hL : L.NoCollision built) (hc : c.place ∈ built) (hf : c.read L s = f c)
    {ws : List Write} (hws : ∀ w ∈ ws, w.Within built) :
    c.read L (ws.foldl (Write.store L) s) = ws.foldl Contents.write f c := by
  rw [read_writes hL hc ws hws, Contents.foldl_write, hf]

end

/-! ### Records as they are stored -/

/-- A number of the models as a `u256`. -/
def U256.ofNat (n : ℕ) : U256 := Fin.ofNat _ n

/-- An option of the models as it is stored. -/
def StoredOption.of (o : OptionRecord) : StoredOption where
  id := U256.ofNat o.id
  writer := o.writer
  buyer := o.buyer
  strikePrice := U256.ofNat o.strikePrice
  underlyingAmount := U256.ofNat o.underlyingAmount
  premium := U256.ofNat o.premium
  expiryBlock := UInt64.ofNat o.expiryBlock
  createdBlock := UInt64.ofNat o.createdBlock
  optionType := UInt8.ofNat o.optionType.toU8
  status := UInt8.ofNat o.status.toU8

/-- A reservation of the models as it is stored. -/
def StoredReservation.of (r : BtcQuote.Reservation) : StoredReservation where
  id := U256.ofNat r.id
  optionId := U256.ofNat r.optionId
  buyer := r.buyer
  btcAmount := U256.ofNat r.btcAmount
  csvScriptHash := r.csvScriptHash
  expiryBlock := UInt64.ofNat r.expiryBlock
  status := UInt8.ofNat r.status.toU8

/-- What is stored of an option is all of it. -/
structure StoredOption.Stores (o : StoredOption) (r : OptionRecord) : Prop where
  writer : o.writer = r.writer
  buyer : o.buyer = r.buyer
  strikePrice : o.strikePrice.val = r.strikePrice
  underlyingAmount : o.underlyingAmount.val = r.underlyingAmount
  premium : o.premium.val = r.premium
  expiryBlock : o.expiryBlock.toNat = r.expiryBlock
  createdBlock : o.createdBlock.toNat = r.createdBlock
  optionType : o.optionType.toNat = r.optionType.toU8
  status : o.status.toNat = r.status.toU8

/-- What is stored of a reservation is all of it. -/
structure StoredReservation.Stores (o : StoredReservation) (r : BtcQuote.Reservation) : Prop where
  optionId : o.optionId.val = r.optionId
  buyer : o.buyer = r.buyer
  btcAmount : o.btcAmount.val = r.btcAmount
  csvScriptHash : o.csvScriptHash = r.csvScriptHash
  expiryBlock : o.expiryBlock.toNat = r.expiryBlock
  status : o.status.toNat = r.status.toU8

section

variable {n : ℕ}

lemma U256.val_ofNat (h : n < u256Size) : (U256.ofNat n).val = n := Nat.mod_eq_of_lt h

lemma U256.val_eq_iff {j : U256} (h : n < u256Size) : j.val = n ↔ j = U256.ofNat n := by
  rw [Fin.ext_iff, val_ofNat h]

lemma toNat_ofNat (h : n < u64Size) : (UInt64.ofNat n).toNat = n := Nat.mod_eq_of_lt h

lemma StoredOption.stores_of {o : OptionRecord} (hstrike : o.strikePrice < u256Size)
    (hamount : o.underlyingAmount < u256Size) (hpremium : o.premium < u256Size)
    (hexpiry : o.expiryBlock < u64Size) (hcreated : o.createdBlock < u64Size) :
    (StoredOption.of o).Stores o := by
  refine ⟨rfl, rfl, U256.val_ofNat hstrike, U256.val_ofNat hamount, U256.val_ofNat hpremium,
    toNat_ofNat hexpiry, toNat_ofNat hcreated, ?_, ?_⟩
  · simp only [StoredOption.of]
    cases o.optionType <;> rfl
  · simp only [StoredOption.of]
    cases o.status <;> rfl

lemma StoredReservation.stores_of {r : BtcQuote.Reservation} (hoption : r.optionId < u256Size)
    (hamount : r.btcAmount < u256Size) (hexpiry : r.expiryBlock < u64Size) :
    (StoredReservation.of r).Stores r := by
  refine ⟨U256.val_ofNat hoption, rfl, U256.val_ofNat hamount, rfl, toNat_ofNat hexpiry, ?_⟩
  simp only [StoredReservation.of]
  cases r.status <;> rfl

end

/-! ### Tables -/

/-- What a pool keeps in slots by id or by account. -/
structure Tables where
  options : Frogop.OptionStorage
  reservations : BtcQuote.ReservationStorage
  extended : ℕ → UInt8 → Bytes32
  pubkeys : Address → List UInt8

/-- What the cells hold of the tables. -/
def Tables.cell (t : Tables) : Contents
  | .option i f => (StoredOption.of (t.options.get i)).field f
  | .reservation i f => (StoredReservation.of (t.reservations.get i)).field f
  | .extended i slot => t.extended i slot
  | .pubkey a => Bytes32.ofNat (BigEndian.ofBytes (t.pubkeys a))

lemma ofNat_zero : Bytes32.ofNat 0 = Bytes32.zero := by decide

/-- The tables of a pool in which nothing is stored. -/
def Tables.empty : Tables :=
  ⟨.empty, .empty, fun _ _ => Bytes32.zero, fun _ => []⟩

/-- They are held by slots that were never written to. -/
lemma Tables.read_empty (L : Layout) (c : Cell) :
    c.read L (fun _ => Bytes32.zero) = Tables.empty.cell c := by
  have hexpiry : u64At Bytes32.zero 16 = 0 := by decide
  have hcreated : u64At Bytes32.zero 24 = 0 := by decide
  rw [Cell.read_eq]
  cases c with
  | option i f =>
    cases f with
    | expiryBlock => exact hexpiry
    | createdBlock => exact hcreated
    | _ => rfl
  | reservation i f =>
    cases f with
    | expiryBlock => exact hexpiry
    | _ => rfl
  | extended i slot => rfl
  | pubkey a => exact ofNat_zero.symm

namespace Write

/-- `options.set(id, option)` -/
abbrev option (i : ℕ) (o : OptionRecord) : Write := .setOption (U256.ofNat i) (.of o)

/-- `options.setStatus(id, status)` -/
abbrev status (i : ℕ) (status : Status) : Write :=
  .setOptionField (U256.ofNat i) .status (UInt8.ofNat status.toU8)

/-- `options.setBuyer(id, buyer)` -/
abbrev buyer (i : ℕ) (buyer : Address) : Write := .setOptionField (U256.ofNat i) .buyer buyer

/-- `reservations.set(id, r)` -/
abbrev reservation (n : ℕ) (r : BtcQuote.Reservation) : Write :=
  .setReservation (U256.ofNat n) (.of r)

/-- `reservations.setStatus(id, status)` -/
abbrev reservationStatus (n : ℕ) (status : BtcQuote.ReservationStatus) : Write :=
  .setReservationStatus (U256.ofNat n) (UInt8.ofNat status.toU8)

/-- `reservations.clear(id)` -/
abbrev clear (n : ℕ) : Write := .clearReservation (U256.ofNat n)

end Write

/-- The writes turn one set of tables into another. -/
def Writes (t : Tables) (ws : List Write) (t' : Tables) : Prop :=
  t'.cell = ws.foldl Contents.write t.cell

namespace Writes

variable {t t' t'' : Tables} {ws ws' : List Write} {i n : ℕ}

lemma refl : Writes t [] t := rfl

lemma trans (h : Writes t ws t') (h' : Writes t' ws' t'') : Writes t (ws ++ ws') t'' := by
  rw [Writes, List.foldl_append, ← h]
  exact h'

lemma cons {w : Write} (h : Writes t [w] t') (h' : Writes t' ws t'') : Writes t (w :: ws) t'' :=
  h.trans h'

/-- A write that gives every cell what another one gives it does the same. -/
lemma congr {w w' : Write} (h : Writes t [w] t')
    (hgiven : ∀ c, (w'.given c).getD (t.cell c) = (w.given c).getD (t.cell c)) :
    Writes t [w'] t' :=
  Eq.trans h (funext fun c => (hgiven c).symm)

/-- A write to one option. -/
lemma option (hi : i < u256Size) (o : OptionRecord) :
    Writes t [.option i o] { t with options := t.options.set i o } := by
  funext c
  cases c with
  | option j f =>
    show (StoredOption.of ((t.options.set i o).get j)).field f
      = ((Write.option i o).given (.option j f)).getD ((StoredOption.of (t.options.get j)).field f)
    by_cases hji : j.val = i
    · rw [hji, OptionStorage.get_set_self]
      simp only [Write.given, (U256.val_eq_iff hi).mp hji, ↓reduceIte, Option.getD_some]
      cases f <;> rfl
    · rw [OptionStorage.get_set_of_ne hji]
      simp only [Write.given, mt (U256.val_eq_iff hi).mpr hji, ↓reduceIte, Option.getD_none]
  | reservation j f => rfl
  | extended j slot => rfl
  | pubkey a => rfl

/-- A write to one field of an option. -/
lemma optionField (hi : i < u256Size) {f : OptionField} {v : f.Value} {o : OptionRecord}
    (hself : (StoredOption.of o).field f = v)
    (hrest : ∀ g ≠ f, (StoredOption.of o).field g = (StoredOption.of (t.options.get i)).field g) :
    Writes t [.setOptionField (U256.ofNat i) f v] { t with options := t.options.set i o } := by
  refine (option hi o).congr fun c => ?_
  cases c with
  | option j g =>
    by_cases hji : j = U256.ofNat i
    · subst hji
      by_cases hgf : g = f
      · subst hgf
        simpa [Write.given] using hself.symm
      · have hsame : t.cell (.option (U256.ofNat i) g) = (StoredOption.of o).field g := by
          rw [hrest g hgf, Tables.cell, U256.val_ofNat hi]
        simpa [Write.given, hgf] using hsame
    · simp only [Write.given, hji, false_and, ↓reduceIte, ↓reduceDIte]
  | reservation j g => rfl
  | extended j slot => rfl
  | pubkey a => rfl

lemma status (hi : i < u256Size) (status : Status) :
    Writes t [.status i status] { t with options := t.options.setStatus i status } := by
  refine optionField hi rfl fun g hg => ?_
  cases g <;> first | rfl | exact absurd rfl hg

lemma buyer (hi : i < u256Size) (buyer : Address) :
    Writes t [.buyer i buyer] { t with options := t.options.setBuyer i buyer } := by
  refine optionField hi rfl fun g hg => ?_
  cases g <;> first | rfl | exact absurd rfl hg

/-- A write to one reservation. -/
lemma reservation (hn : n < u256Size) (r : BtcQuote.Reservation) :
    Writes t [.reservation n r] { t with reservations := t.reservations.set n r } := by
  funext c
  cases c with
  | reservation j f =>
    show (StoredReservation.of ((t.reservations.set n r).get j)).field f
      = ((Write.reservation n r).given (.reservation j f)).getD
        ((StoredReservation.of (t.reservations.get j)).field f)
    by_cases hjn : j.val = n
    · rw [hjn, BtcQuote.ReservationStorage.get_set_self]
      simp only [Write.given, (U256.val_eq_iff hn).mp hjn, ↓reduceIte, Option.getD_some]
      cases f <;> rfl
    · rw [BtcQuote.ReservationStorage.get_set_of_ne hjn]
      simp only [Write.given, mt (U256.val_eq_iff hn).mpr hjn, ↓reduceIte, Option.getD_none]
  | option j f => rfl
  | extended j slot => rfl
  | pubkey a => rfl

/-- The status shares a slot with the expiry, which is written back. -/
lemma reservationStatus (hn : n < u256Size) (status : BtcQuote.ReservationStatus) :
    Writes t [.reservationStatus n status]
      { t with reservations := t.reservations.setStatus n status } := by
  refine (reservation hn _).congr fun c => ?_
  cases c with
  | reservation j f =>
    by_cases hjn : j = U256.ofNat n
    · subst hjn
      have hsame : ∀ f ≠ .status, t.cell (.reservation (U256.ofNat n) f)
          = (StoredReservation.of { t.reservations.slots n with status := status }).field f := by
        intro f hf
        rw [Tables.cell, U256.val_ofNat hn]
        cases f <;> first | rfl | exact absurd rfl hf
      cases f <;> first | rfl | simpa [Write.given] using hsame _ (by simp)
    · cases f <;> simp only [Write.given, hjn, ↓reduceIte]
  | option j f => rfl
  | extended j slot => rfl
  | pubkey a => rfl

lemma clear (hn : n < u256Size) :
    Writes t [.clear n] { t with reservations := t.reservations.clear n } := by
  refine (reservation hn {}).congr fun c => ?_
  cases c <;> rfl

/-- A write to an extended slot. -/
lemma extended {w : Write} {slot : UInt8} {word : Bytes32} (hi : i < u256Size)
    (hgiven : w.given = Write.givenExtended (U256.ofNat i) slot word) {words : ℕ → UInt8 → Bytes32}
    (hself : words i slot = word)
    (hrest : ∀ j k, ¬ (j = i ∧ k = slot) → words j k = t.extended j k) :
    Writes t [w] { t with extended := words } := by
  funext c
  show _ = (w.given c).getD (t.cell c)
  rw [hgiven]
  cases c with
  | extended j k =>
    by_cases hjk : j.val = i ∧ k = slot
    · obtain ⟨hj, rfl⟩ := hjk
      simp [Tables.cell, (U256.val_eq_iff hi).mp hj, U256.val_ofNat hi, hself]
    · have hne : ¬ (j = U256.ofNat i ∧ k = slot) := fun h => hjk ⟨(U256.val_eq_iff hi).mpr h.1, h.2⟩
      simp only [Write.givenExtended, hne, ↓reduceIte, Option.getD_none]
      exact hrest j k hjk
  | option j f => rfl
  | reservation j f => rfl
  | pubkey a => rfl

lemma pubkey (a : Address) (bytes : List UInt8) :
    Writes t [.setPubkey a (Bytes32.ofNat (BigEndian.ofBytes bytes))]
      { t with pubkeys := Function.update t.pubkeys a bytes } := by
  funext c
  cases c with
  | pubkey b =>
    show Bytes32.ofNat (BigEndian.ofBytes (Function.update t.pubkeys a bytes b))
      = ((Write.setPubkey a (Bytes32.ofNat (BigEndian.ofBytes bytes))).given (.pubkey b)).getD
        (t.cell (.pubkey b))
    by_cases hba : b = a
    · subst hba
      simp
    · simp [hba, Tables.cell]
  | option j f => rfl
  | reservation j f => rfl
  | extended j slot => rfl

end Writes

end Frogop.Slots
