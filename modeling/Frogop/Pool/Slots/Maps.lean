import Frogop.Pool.Execution
import Frogop.Pool.Slots.Cells

/-!
# The storages are maps of records

A record is read as it was set, a setter of one field touches nothing else, and after any sequence
of writes every cell holds the value it was given last.
-/

namespace Frogop.Slots

/-- The value that the last of a run of writes gave to a cell. -/
def lastGiven (ws : List Write) (c : Cell) : Option c.Value :=
  ws.foldl (fun last w => (w.given c).or last) none

/-- What the storages of the contracts do on the keys that are built. -/
structure RecordMaps (L : Layout) (built : Set Place) : Prop where
  get_set : ∀ s i o, (Write.setOption i o).Within built →
    OptionStorage.get L i (OptionStorage.set L i s o) = { o with id := i }
  get_setReservation : ∀ s i r, (Write.setReservation i r).Within built →
    ReservationStorage.get L i (ReservationStorage.set L i s r) = { r with id := i }
  /-- A single-field setter sets its field and nothing else. -/
  setField : ∀ s i f v (c : Cell), (Cell.option i f).place ∈ built → c.place ∈ built →
    (OptionStorage.get L i (OptionStorage.setField L i s f v)).field f = v ∧
      (c ≠ .option i f → c.read L (OptionStorage.setField L i s f v) = c.read L s)
  setReservationStatus : ∀ s i status (c : Cell), Place.record .reservations i 4 ∈ built →
    c.place ∈ built →
    (ReservationStorage.get L i (ReservationStorage.setStatus L i s status)).status = status ∧
      (c ≠ .reservation i .status →
        c.read L (ReservationStorage.setStatus L i s status) = c.read L s)
  /-- After any writes a cell holds what it was given last. -/
  read_writes : ∀ s (ws : List Write) (c : Cell), (∀ w ∈ ws, w.Within built) → c.place ∈ built →
    c.read L (ws.foldl (Write.store L) s) = (lastGiven ws c).getD (c.read L s)

section

variable {L : Layout} {built : Set Place} {s : Storage} {i : U256} {o : StoredOption}
  {r : StoredReservation} {c : Cell}

lemma lastGiven_append (ws : List Write) (w : Write) (c : Cell) :
    lastGiven (ws ++ [w]) c = (w.given c).or (lastGiven ws c) := by
  simp [lastGiven]

lemma read_writes (hL : L.NoCollision built) (hc : c.place ∈ built) (ws : List Write)
    (hws : ∀ w ∈ ws, w.Within built) :
    c.read L (ws.foldl (Write.store L) s) = (lastGiven ws c).getD (c.read L s) := by
  induction ws using List.reverseRecOn with
  | nil => rfl
  | append_singleton ws w ih =>
    have hw : w.Within built := hws w (by simp)
    have ih := ih fun v hv => hws v (by simp [hv])
    rw [List.foldl_append, lastGiven_append]
    show c.read L (w.store L (ws.foldl (Write.store L) s)) = _
    rw [Write.read_store hL hw hc, ih]
    cases w.given c <;> rfl

/-- An option is its id and its fields. -/
lemma StoredOption.ext_field {o o' : StoredOption} (hid : o.id = o'.id)
    (h : ∀ f, o.field f = o'.field f) : o = o' := by
  cases o
  cases o'
  simp only [StoredOption.mk.injEq]
  exact ⟨hid, h .writer, h .buyer, h .strikePrice, h .underlyingAmount, h .premium, h .expiryBlock,
    h .createdBlock, h .optionType, h .status⟩

lemma StoredOption.field_withId (i : U256) (o : StoredOption) (f : OptionField) :
    ({ o with id := i } : StoredOption).field f = o.field f := by
  cases f <;> rfl

lemma StoredReservation.ext_field {r r' : StoredReservation} (hid : r.id = r'.id)
    (h : ∀ f, r.field f = r'.field f) : r = r' := by
  cases r
  cases r'
  simp only [StoredReservation.mk.injEq]
  exact ⟨hid, h .optionId, h .buyer, h .btcAmount, h .csvScriptHash, h .expiryBlock, h .status⟩

lemma StoredReservation.field_withId (i : U256) (r : StoredReservation) (f : ReservationField) :
    ({ r with id := i } : StoredReservation).field f = r.field f := by
  cases f <;> rfl

lemma get_set (hL : L.NoCollision built) (hw : (Write.setOption i o).Within built) :
    OptionStorage.get L i (OptionStorage.set L i s o) = { o with id := i } := by
  refine StoredOption.ext_field rfl fun f => ?_
  have hc : (Cell.option i f).place ∈ built := hw _ (by simp)
  have hread := read_setOption (s := s) hL hc hw
  simp only [Write.given, ↓reduceIte, Option.getD_some] at hread
  exact hread.trans (StoredOption.field_withId i o f).symm

lemma get_setReservation (hL : L.NoCollision built) (hw : (Write.setReservation i r).Within built) :
    ReservationStorage.get L i (ReservationStorage.set L i s r) = { r with id := i } := by
  have hslot : ∀ f, (Cell.reservation i f).place ∈ built := fun f => hw _ (by simp)
  refine StoredReservation.ext_field rfl fun f => ?_
  have hread := read_setReservation (s := s) (r := r) hL (hslot f) hslot
  simp only [Write.given, ↓reduceIte, Option.getD_some] at hread
  exact hread.trans (StoredReservation.field_withId i r f).symm

lemma given_setOptionField_of_ne {f : OptionField} {v : f.Value} (h : c ≠ .option i f) :
    (Write.setOptionField i f v).given c = none := by
  cases c with
  | option j g =>
    have hne : ¬ (j = i ∧ g = f) := fun ⟨hj, hg⟩ => h (by rw [hj, hg])
    simp [hne]
  | reservation j g => rfl
  | extended j slot => rfl
  | pubkey a => rfl

lemma given_setReservationStatus_of_ne {status : UInt8} (h : c ≠ .reservation i .status) :
    (Write.setReservationStatus i status).given c = none := by
  cases c with
  | option j g => rfl
  | reservation j g =>
    cases g with
    | status =>
      have hne : j ≠ i := fun hj => h (by rw [hj])
      simp [hne]
    | _ => rfl
  | extended j slot => rfl
  | pubkey a => rfl

end

/-- The storages are maps of records wherever the hash has no collision on the keys they build. -/
theorem recordMaps {L : Layout} {built : Set Place} (hL : L.NoCollision built) :
    RecordMaps L built where
  get_set _ _ _ hw := get_set hL hw
  get_setReservation _ _ _ hw := get_setReservation hL hw
  setField s i f v c hp hc := by
    refine ⟨?_, fun hne => ?_⟩
    · have hread := read_setOptionField (s := s) hL hp f v hp
      simpa using hread
    · rw [read_setOptionField hL hc f v hp, given_setOptionField_of_ne hne]
      rfl
  setReservationStatus s i status c hp hc := by
    refine ⟨?_, fun hne => ?_⟩
    · have hread := read_setReservationStatus (c := .reservation i .status) (s := s) hL hp hp status
      simpa using hread
    · rw [read_setReservationStatus hL hc hp status, given_setReservationStatus_of_ne hne]
      rfl
  read_writes _ ws _ hws hc := read_writes hL hc ws hws

namespace Testnet

/-- SHA-256 of the keys of option 1, reservation 1 and account 10. -/
def digests : List (List UInt8 × ℕ) :=
  [(recordKey 5 1 0, 0x0f05bbd7cc87007423775e73d5a4dd95bab2ebf299bf7eab452149d627f41530),
    (recordKey 5 1 1, 0xf7075c528260e3f2efcfebed46f832dacd6281de4afc420736478772b6a1de5a),
    (recordKey 5 1 2, 0xaecffb992c2dd63ecc06b2f8c6066da38fb453a182d9965684560d530e409eed),
    (recordKey 5 1 3, 0x50d143360790e0eab83c08bba87c1343a6b4a123fae26876932d2a77598e9a52),
    (recordKey 5 1 4, 0x10332f24ffb2b8381aad07de1dac7c016be34e94893f9f8c4c73c5f9798e3be4),
    (recordKey 5 1 5, 0xd559cac1ab0509e255a02777343df9a083f5f526ca23383012f5da92c8c767ed),
    (recordKey 5 1 6, 0xaaaf1f3da8a7822b0179e8c5f33368624c77aa4bc692e07c1eab7ea0f26aa88c),
    (recordKey 12 1 0, 0xbfd391211085f0d5abbc75bcc0b938ed0b33f2d84cde4c06816fc39edf5d742e),
    (recordKey 12 1 1, 0xebd254d0e83afcb7f473f694439a97faf67e9f81238c1f2a70584c9f66fa4347),
    (recordKey 12 1 2, 0xe0452fbe8cf099796969d7543607e610c3537148f24d1ea040f36e7c449f591a),
    (recordKey 12 1 3, 0xdd5405167765c2d016f5fcdbb13aa67af93eacfbb2513f3230f95279fe83ad5b),
    (recordKey 12 1 4, 0x67114d686e1a2bf740cdba08c25cd35eb5a9406ce349c967d31e4ab77f486219),
    (recordKey 7 1 7, 0x2a541c36b34b8f4ce50ce0164c0232a74d2762abb2f18871d9b01560185831a7),
    (recordKey 7 1 8, 0x808155d82988deb91575336d93c9fc27193b7a82358aebc054baca2875611a24),
    (recordKey 7 1 9, 0xeed833c03eecb3bb704fd6d486a883d8f85b8098661a58164805b947fbb1d7c3),
    (buffer 34 [.u16 6, .address (Frogop.Testnet.account 10)],
      0x8c31bf6d6cfc0c80492289892d91a68d4d3871e4fbecb087d5af8942ec761855)]

def layout : Layout where
  sha256 bytes := Bytes32.ofNat ((digests.lookup bytes).getD 0)
  options := 5
  pubkeyRegistry := 6
  extendedSlots := 7
  reservations := 12
  nodup := by decide

/-- The slots of option 1 and reservation 1, and the key of account 10. -/
def places : List Place :=
  [.record .options 1 0, .record .options 1 1, .record .options 1 2, .record .options 1 3,
    .record .options 1 4, .record .options 1 5, .record .options 1 6, .record .reservations 1 0,
    .record .reservations 1 1, .record .reservations 1 2, .record .reservations 1 3,
    .record .reservations 1 4, .record .extendedSlots 1 7, .record .extendedSlots 1 8,
    .record .extendedSlots 1 9, .pubkey (Frogop.Testnet.account 10)]

end Testnet

theorem recordMaps_one : RecordMaps Testnet.layout {p | p ∈ Testnet.places} := by
  apply recordMaps
  have hkeys : ∀ p ∈ Testnet.places, ∀ q ∈ Testnet.places,
      Testnet.layout.sha256 (Testnet.layout.preimage p)
        = Testnet.layout.sha256 (Testnet.layout.preimage q) →
      Testnet.layout.preimage p = Testnet.layout.preimage q := by
    decide +kernel
  exact hkeys

end Frogop.Slots
