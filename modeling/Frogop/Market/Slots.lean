import Frogop.Market.Life
import Frogop.Pool.Slots.Models
import Frogop.Pool.Views

/-!
# The slots of a pool

A call writes to the slots of the pool what it changes in the tables of the model. After any run of
a pool of any kind, its slots hold its tables.
-/

namespace Frogop

open Slots Outcome World

/-! ### Methods that pools share -/

/-- The tables of a pool, with what its own kind keeps in slots. -/
def PoolStorage.tables (p : PoolStorage) (reservations : BtcQuote.ReservationStorage)
    (extended : ℕ → UInt8 → Bytes32) : Tables :=
  ⟨p.options, reservations, extended, p.pubkeys⟩

/-- The option that creating it stores, unless its type is none. -/
def newOptionWrites (tx : Tx) (p : PoolStorage) (t s e a premium : ℕ) : List Write :=
  ((OptionType.ofU8 t).map fun t =>
    [.option p.nextId (newOption tx t s e a premium p.nextId)]).getD []

/-- What `registerBtcPubkey` keeps of a key. -/
def pubkeyWrites (env : Env) (tx : Tx) (data : List UInt8) : List Write :=
  [.setPubkey tx.sender (Bytes32.ofNat (BigEndian.ofBytes (env.slot (data.take 33))))]

section

variable {σ : Type} {env : Env} {tx : Tx} {w w' : World σ} {r : Response} {i n : ℕ}
  {reservations : BtcQuote.ReservationStorage} {extended : ℕ → UInt8 → Bytes32}

lemma writes_status (hi : i < u256Size) {status : Status}
    (hpool : w'.pool = { w.pool with options := w.pool.options.setStatus i status }) :
    Writes (w.pool.tables reservations extended) [.status i status]
      (w'.pool.tables reservations extended) := by
  rw [hpool]
  exact .status hi status

lemma writes_bought (hi : i < u256Size) (h : OptionsPool.buyOption env tx i w = .ok (r, w')) :
    Writes (w.pool.tables reservations extended) [.buyer i tx.sender, .status i .PURCHASED]
      (w'.pool.tables reservations extended) := by
  obtain ⟨_, _, _, -, -, -, -, -, -, -, -, -, rfl⟩ := OptionsPool.buyOption_ok h
  exact .cons (.buyer hi tx.sender) (.status hi .PURCHASED)

lemma writes_written {t s e a p : ℕ}
    (h : OptionsPool.writeOption env tx t s e a p w = .ok (r, w')) :
    Writes (w.pool.tables reservations extended) (newOptionWrites tx w.pool t s e a p)
      (w'.pool.tables reservations extended) := by
  obtain ⟨ty, _, _, ht, -, -, -, -, -, hids, -, rfl⟩ := OptionsPool.writeOption_ok h
  rw [newOptionWrites, ht]
  exact .option ((Nat.lt_succ_self _).trans hids) _

lemma writes_pubkey {data : List UInt8} (h : registerBtcPubkey env tx data w = .ok (r, w')) :
    Writes (w.pool.tables reservations extended) (pubkeyWrites env tx data)
      (w'.pool.tables reservations extended) := by
  obtain ⟨_, rfl, -, -, rfl⟩ := registerBtcPubkey_ok h
  exact .pubkey tx.sender _

lemma writes_feeRecipient {a : Address} (h : updateFeeRecipient env tx a w = .ok (r, w')) :
    Writes (w.pool.tables reservations extended) [] (w'.pool.tables reservations extended) := by
  obtain ⟨-, -, -, rfl⟩ := updateFeeRecipient_ok h
  exact .refl

end

/-! ### The type-0 pool -/

namespace OptionsPool

def tables (w : State) : Tables := w.pool.tables .empty fun _ _ => Bytes32.zero

/-- `batchSettle` skips the other ids. -/
def settledWrites (tx : Tx) (p : PoolStorage) (i : ℕ) : List Write :=
  if p.options.existsAt i ∧ (p.options.get i).status = .PURCHASED ∧
      p.graceEnd (p.options.get i) ≤ tx.block then [.status i .EXPIRED] else []

/-- The writes of a call to the slots, in their order. -/
def writes (env : Env) (tx : Tx) : Call → State → List Write
  | .writeOption t s e a p, w => newOptionWrites tx w.pool t s e a p
  | .cancelOption i, _ => [.status i .CANCELLED]
  | .buyOption i, _ => [.buyer i tx.sender, .status i .PURCHASED]
  | .exercise i, _ => [.status i .EXERCISED]
  | .settle i, _ => [.status i .EXPIRED]
  | .transferOption i newBuyer, _ => [.buyer i newBuyer]
  | .rollOption i s e p, w =>
    [.status i .CANCELLED, .option w.pool.nextId
      (newOption tx (w.option i).optionType s e (w.option i).underlyingAmount p w.pool.nextId)]
  | .batchCancel n a b c d e, _ => ([a, b, c, d, e].take n).map (.status · .CANCELLED)
  | .batchSettle n a b c d e, w => ([a, b, c, d, e].take n).flatMap (settledWrites tx w.pool)
  | .registerBtcPubkey data, _ => pubkeyWrites env tx data
  | .updateFeeRecipient _, _ => []

variable {env : Env} {tx : Tx} {c : Call} {w w' : State} {r : Response} {i : ℕ} {ids : List ℕ}

/-- A new pool has stored nothing. -/
lemma tables_of_deployed (hdep : Deployed w) : tables w = .empty := by
  obtain ⟨-, hoptions, -, -, -, hpubkeys⟩ := hdep.spec
  rw [tables, PoolStorage.tables, hoptions, hpubkeys]
  rfl

lemma writes_cancelLoop (htx : tx.FromAccount env) (hinv : TableInv w.pool)
    (hids : w.pool.nextId ≤ u256Size) (hnodup : ids.Nodup)
    (h : ids.foldlM (batchCancelStep env tx) w = .ok w') :
    Writes (tables w) (ids.map (.status · .CANCELLED)) (tables w') := by
  refine cancelLoop_induct (R := fun w ids w' => w.pool.nextId ≤ u256Size →
    Writes (tables w) (ids.map (.status · .CANCELLED)) (tables w')) h htx hinv hnodup
    (fun _ _ => .refl) (fun w w₁ w' i ids hinv hnotin hcancel hwrites hids => ?_) hids
  obtain ⟨hex, -, -, hpool⟩ := cancelOption_update hcancel
  have hids₁ : w₁.pool.nextId ≤ u256Size := by
    rw [hpool]
    exact hids
  exact .cons (writes_status (((hinv i).mp hex).trans_le hids) hpool) (hwrites hids₁)

lemma settledWrites_of_ne {status : Status} {j : ℕ} (hne : j ≠ i)
    (hpool : w'.pool = { w.pool with options := w.pool.options.setStatus i status }) :
    settledWrites tx w'.pool j = settledWrites tx w.pool j := by
  have hget : (w.pool.options.setStatus i status).get j = w.pool.options.get j :=
    OptionStorage.get_setStatus_of_ne hne
  rw [hpool]
  simp only [settledWrites, OptionStorage.existsAt_iff, hget]
  rfl

lemma writes_settleLoop (htx : tx.FromAccount env) {n n' : ℕ} (hinv : TableInv w.pool)
    (hids : w.pool.nextId ≤ u256Size) (hnodup : ids.Nodup)
    (h : ids.foldlM (batchSettleStep env tx) (n, w) = .ok (n', w')) :
    Writes (tables w) (ids.flatMap (settledWrites tx w.pool)) (tables w') := by
  refine settleLoop_induct (R := fun w ids w' => w.pool.nextId ≤ u256Size →
    Writes (tables w) (ids.flatMap (settledWrites tx w.pool)) (tables w')) h htx hinv hnodup
    (fun _ _ => .refl) ?_ ?_ hids
  · intro w w' i ids hdue hwrites hids
    rw [List.flatMap_cons, settledWrites, if_neg hdue, List.nil_append]
    exact hwrites hids
  · intro w w₁ w' i ids hinv hnotin hsettle hwrites hids
    obtain ⟨hex, hbought, hgrace, hpool⟩ := settle_update hsettle
    have hids₁ : w₁.pool.nextId ≤ u256Size := by
      rw [hpool]
      exact hids
    -- the ids that follow are others, so they are due as before
    have hsame : ids.flatMap (settledWrites tx w₁.pool)
        = ids.flatMap (settledWrites tx w.pool) := by
      refine List.flatMap_congr fun j hj => ?_
      have hne : j ≠ i := fun hji => hnotin (hji ▸ hj)
      exact settledWrites_of_ne hne hpool
    have hrest := hwrites hids₁
    rw [hsame] at hrest
    rw [List.flatMap_cons, settledWrites, if_pos ⟨hex, hbought, hgrace⟩]
    exact .cons (writes_status (((hinv i).mp hex).trans_le hids) hpool) hrest

/-- A call writes what it changes. -/
lemma exec_writes (hinv : TableInv w.pool) (hids : w.pool.nextId ≤ u256Size)
    (htx : tx.FromAccount env) (h : exec env tx c w = .ok (r, w')) :
    Writes (tables w) (writes env tx c w) (tables w') := by
  have hlt : ∀ {i}, w.pool.options.existsAt i → i < u256Size :=
    fun hex => ((hinv _).mp hex).trans_le hids
  cases c with
  | writeOption t s e a p => exact writes_written h
  | cancelOption i =>
    obtain ⟨hex, -, -, hpool⟩ := cancelOption_update h
    exact writes_status (hlt hex) hpool
  | buyOption i =>
    obtain ⟨_, _, _, hex, -⟩ := buyOption_ok h
    exact writes_bought (hlt hex) h
  | exercise i =>
    obtain ⟨_, _, _, _, _, _, hex, -, -, -, -, -, -, -, -, -, -, -, -, rfl⟩ := exercise_ok h
    exact .status (hlt hex) .EXERCISED
  | settle i =>
    obtain ⟨hex, -, -, hpool⟩ := settle_update h
    exact writes_status (hlt hex) hpool
  | transferOption i newBuyer =>
    obtain ⟨hex, -, -, -, -, -, -, rfl⟩ := transferOption_ok h
    exact .buyer (hlt hex) newBuyer
  | rollOption i s e p =>
    obtain ⟨_, _, _, _, _, hex, -, -, -, -, -, -, -, -, -, -, -, hnext, -, rfl⟩ := rollOption_ok h
    exact .cons (.status (hlt hex) .CANCELLED) (.option ((Nat.lt_succ_self _).trans hnext) _)
  | batchCancel n a b c d e =>
    obtain ⟨ids, hbatch, hloop, -⟩ := batchCancel_ok h
    obtain ⟨-, -, rfl, hnodup⟩ := batchIds_ok hbatch
    exact writes_cancelLoop htx hinv hids hnodup hloop
  | batchSettle n a b c d e =>
    obtain ⟨ids, m, hbatch, hloop, -⟩ := batchSettle_ok h
    obtain ⟨-, -, rfl, hnodup⟩ := batchIds_ok hbatch
    exact writes_settleLoop htx hinv hids hnodup hloop
  | registerBtcPubkey data => exact writes_pubkey h
  | updateFeeRecipient newRecipient => exact writes_feeRecipient h

end OptionsPool

/-! ### The type-1 pool -/

namespace BtcQuote

/-- The extended slots of the pool. -/
def extendedSlots (csvScriptHash : ℕ → Bytes32) (i : ℕ) (slot : UInt8) : Bytes32 :=
  if slot = 9 then csvScriptHash i else Bytes32.zero

def tables (w : State) : Tables :=
  w.pool.tables w.own.reservations (extendedSlots w.own.csvScriptHash)

/-- The writes of a call to the slots, in their order. -/
def writes (env : Env) (tx : Tx) : Call → State → List Write
  | .writeOption t s e a p, w => newOptionWrites tx w.pool t s e a p
  | .reserveOption i, w =>
    match BtcQuote.reserveOption env tx i w with
    | .ok (_, w') =>
      let n := w.own.nextReservationId
      [.status i .RESERVED, .reservation n (w'.own.reservations.get n)]
    | .error _ => []
  | .executeReservation n, w =>
    let r := w.own.reservations.get n
    [.buyer r.optionId r.buyer, .status r.optionId .PURCHASED,
      .setCsvScriptHashForOption (U256.ofNat r.optionId) r.csvScriptHash,
      .reservationStatus n .EXECUTED]
  | .cancelReservation n, w => [.status (w.own.reservations.get n).optionId .OPEN, .clear n]
  | .exercise i, _ => [.status i .EXERCISED]
  | .cancelOption i, _ => [.status i .CANCELLED]
  | .settle i, _ => [.status i .EXPIRED]
  | .registerBtcPubkey data, _ => pubkeyWrites env tx data
  | .getReservation _, _ | .getOption _, _ | .updateFeeRecipient _, _ => []

variable {env : Env} {tx : Tx} {c : Call} {w w' : State} {r : Response} {i n : ℕ}
  {h : Lts.History State (Label Call)}

lemma tables_of_deployed (hdep : Deployed w) : tables w = .empty := by
  obtain ⟨-, hoptions, -, -, -, hpubkeys⟩ := hdep.base.spec
  have hextended : extendedSlots (fun _ => Bytes32.zero) = fun _ _ => Bytes32.zero := by
    funext i slot
    exact ite_self _
  rw [tables, PoolStorage.tables, hoptions, hpubkeys, hdep.own, hextended]
  rfl

lemma reserveOption_nextReservationId (h : reserveOption env tx i w = .ok (r, w')) :
    w.own.nextReservationId + 1 < u256Size := by
  simp only [reserveOption, bind_eq_ok, Prod.exists, addReservation_eq_ok, emit_eq_ok,
    respond_eq_ok, Prod.mk.injEq] at h
  obtain ⟨-, -, -, -, -, -, -, -, -, -, price, w₁, hprice, amount, -, -, -, hash, -, n, _,
    ⟨hnext, -, -⟩, -⟩ := h
  obtain ⟨bridge, rfl⟩ := queryBtcPrice_ok hprice
  exact hnext

lemma writes_reserved (hi : i < u256Size) (h : reserveOption env tx i w = .ok (r, w')) :
    Writes (tables w) (writes env tx (.reserveOption i) w) (tables w') := by
  have hnext := reserveOption_nextReservationId h
  have hwrites : writes env tx (.reserveOption i) w
      = [.status i .RESERVED, .reservation w.own.nextReservationId
        (w'.own.reservations.get w.own.nextReservationId)] := by
    rw [writes, h]
  obtain ⟨amount, hash, -, -, -, -, -, -, -, -, hpool, hown, -⟩ := reserveOption_ok h
  rw [hwrites, tables, tables, hpool, hown, ReservationStorage.get_set_self]
  exact .cons (.status hi .RESERVED) (.reservation ((Nat.lt_succ_self _).trans hnext) _)

lemma writes_csvScriptHash {t : Tables} {f : ℕ → Bytes32} (hi : i < u256Size)
    (ht : t.extended = extendedSlots f) (hash : Bytes32) :
    Writes t [.setCsvScriptHashForOption (U256.ofNat i) hash]
      { t with extended := extendedSlots (Function.update f i hash) } := by
  refine .extended hi rfl ?_ fun j k hjk => ?_
  · simp [extendedSlots]
  · rw [ht]
    by_cases hk : k = 9
    · have hne : j ≠ i := fun hj => hjk ⟨hj, hk⟩
      simp [extendedSlots, hne]
    · simp [extendedSlots, hk]

lemma writes_executed (hi : (w.own.reservations.get n).optionId < u256Size) (hn : n < u256Size)
    (h : executeReservation env tx n w = .ok (r, w')) :
    Writes (tables w) (writes env tx (.executeReservation n) w) (tables w') := by
  obtain ⟨-, -, -, -, hpool, hown, -⟩ := executeReservation_ok h
  rw [tables, tables, hpool, hown]
  exact .cons (.buyer hi _) (.cons (.status hi .PURCHASED)
    (.cons (writes_csvScriptHash hi rfl _) (.reservationStatus hn .EXECUTED)))

/-- A call writes what it changes. -/
lemma exec_writes (hinv : TwoPhase env h w) (hids : w.pool.nextId ≤ u256Size)
    (hfits : w.own.nextReservationId ≤ u256Size) (hexec : exec env tx c w = .ok (r, w')) :
    Writes (tables w) (writes env tx c w) (tables w') ∧ w'.own.nextReservationId ≤ u256Size := by
  have hlt : ∀ {i}, w.pool.options.existsAt i → i < u256Size :=
    fun hex => ((hinv.table _).mp hex).trans_le hids
  have hlive : ∀ {n}, Live w n → (w.own.reservations.get n).optionId < u256Size ∧ n < u256Size := by
    intro n hn
    obtain ⟨hi, hholds⟩ := hinv.live n hn
    exact ⟨hi.trans_le hids, hholds.issued.trans_le hfits⟩
  cases c with
  | writeOption t s e a p =>
    obtain ⟨_, _, _, -, -, -, -, -, -, -, -, hw'⟩ := OptionsPool.writeOption_ok hexec
    have hown : w'.own = w.own := by rw [hw']
    rw [tables, tables, hown]
    exact ⟨writes_written hexec, hfits⟩
  | reserveOption i =>
    obtain ⟨_, _, hex, -, -, -, -, -, -, -, -, hown, -⟩ := reserveOption_ok hexec
    refine ⟨writes_reserved (hlt hex) hexec, ?_⟩
    rw [hown]
    exact (reserveOption_nextReservationId hexec).le
  | executeReservation n =>
    obtain ⟨hex, hpending, -, -, -, hown, -⟩ := executeReservation_ok hexec
    obtain ⟨hi, hn⟩ := hlive ⟨hex, hpending⟩
    refine ⟨writes_executed hi hn hexec, ?_⟩
    rw [hown]
    exact hfits
  | cancelReservation n =>
    obtain ⟨hex, hpending, -, -, hpool, hown, -⟩ := cancelReservation_ok hexec
    obtain ⟨hi, hn⟩ := hlive ⟨hex, hpending⟩
    rw [tables, tables, hpool, hown]
    exact ⟨.cons (.status hi .OPEN) (.clear hn), hfits⟩
  | exercise i =>
    obtain ⟨_, _, _, _, _, hex, -, -, -, -, -, -, -, -, -, hpool, hown, -⟩ := exercise_ok hexec
    rw [tables, tables, hown]
    exact ⟨writes_status (hlt hex) hpool, hfits⟩
  | cancelOption i =>
    obtain ⟨_, _, _, _, hex, -, -, -, -, -, -, -, -, rfl⟩ := OptionsPool.cancelOption_ok hexec
    exact ⟨.status (hlt hex) .CANCELLED, hfits⟩
  | settle i =>
    obtain ⟨_, _, hex, -, -, -, -, -, rfl⟩ := OptionsPool.settle_ok hexec
    exact ⟨.status (hlt hex) .EXPIRED, hfits⟩
  | getReservation n =>
    obtain rfl := getReservation_ok hexec
    exact ⟨.refl, hfits⟩
  | getOption i =>
    obtain rfl := getOption_ok hexec
    exact ⟨.refl, hfits⟩
  | updateFeeRecipient a =>
    obtain ⟨-, -, -, rfl⟩ := updateFeeRecipient_ok hexec
    exact ⟨.refl, hfits⟩
  | registerBtcPubkey data =>
    obtain ⟨_, rfl, -, -, rfl⟩ := registerBtcPubkey_ok hexec
    exact ⟨.pubkey tx.sender _, hfits⟩

end BtcQuote

/-! ### The type-2 pool -/

namespace BtcUnderlying

/-- The extended slots of the pool. -/
def extendedSlots (own : Storage) (i : ℕ) (slot : UInt8) : Bytes32 :=
  if slot = 7 then Bytes32.ofNat (own.btcCollateral i)
  else if slot = 8 then own.escrowHash i
  else Bytes32.zero

def tables (w : State) : Tables := w.pool.tables .empty (extendedSlots w.own)

/-- What `writeOptionBtc` keeps of the escrow of a CALL. -/
def escrowWrites (t i a : ℕ) : Except Revert (Reply Storage) → List Write
  | .ok (_, w') =>
    if OptionType.ofU8 t = some .CALL then
      [.setBtcCollateral (U256.ofNat i) (U256.ofNat a),
        .setEscrowHash (U256.ofNat i) (w'.own.escrowHash i)]
    else []
  | .error _ => []

/-- The writes of a call to the slots, in their order. -/
def writes (env : Env) (tx : Tx) : Call → State → List Write
  | .writeOptionBtc t s e a p, w =>
    newOptionWrites tx w.pool t s e a p ++
      escrowWrites t w.pool.nextId a (BtcUnderlying.writeOptionBtc env tx t s e a p w)
  | .buyOption i, _ => [.buyer i tx.sender, .status i .PURCHASED]
  | .exercise i, _ => [.status i .EXERCISED]
  | .cancelOption i, _ => [.status i .CANCELLED]
  | .settle i, _ => [.status i .EXPIRED]
  | .registerBtcPubkey data, _ => pubkeyWrites env tx data
  | .getOption _, _ | .updateFeeRecipient _, _ => []

variable {env : Env} {tx : Tx} {c : Call} {w w' : State} {r : Response} {i t s e a p : ℕ}

lemma tables_of_deployed (hdep : Deployed w) : tables w = .empty := by
  obtain ⟨-, hoptions, -, -, -, hpubkeys⟩ := hdep.base.spec
  have hextended : extendedSlots ⟨fun _ => 0, fun _ => Bytes32.zero⟩
      = fun _ _ => Bytes32.zero := by
    funext i slot
    simp only [extendedSlots, ofNat_zero, ite_self]
  rw [tables, PoolStorage.tables, hoptions, hpubkeys, hdep.own, hextended]
  rfl

/-- The collateral of a CALL and the hash of its escrow are written to two slots. -/
lemma writes_escrow {t : Tables} {own : Storage} (hi : i < u256Size)
    (ht : t.extended = extendedSlots own) (ha : a < u256Size) (hash : Bytes32) :
    Writes t [.setBtcCollateral (U256.ofNat i) (U256.ofNat a), .setEscrowHash (U256.ofNat i) hash]
      { t with
        extended := extendedSlots ⟨Function.update own.btcCollateral i a,
          Function.update own.escrowHash i hash⟩ } := by
  have hcollateral : Writes t [.setBtcCollateral (U256.ofNat i) (U256.ofNat a)]
      { t with
        extended := extendedSlots { own with
          btcCollateral := Function.update own.btcCollateral i a } } := by
    refine .extended hi rfl ?_ fun j k hjk => ?_
    · simp [extendedSlots, ofU256, U256.val_ofNat ha]
    · rw [ht]
      by_cases hk : k = 7
      · have hne : j ≠ i := fun hj => hjk ⟨hj, hk⟩
        simp [extendedSlots, hne]
      · simp [extendedSlots, hk]
  refine hcollateral.cons (.extended hi rfl ?_ fun j k hjk => ?_)
  · simp [extendedSlots]
  · by_cases hk : k = 8
    · have hne : j ≠ i := fun hj => hjk ⟨hj, hk⟩
      simp [extendedSlots, hne]
    · simp [extendedSlots, hk]

lemma writes_written (hids' : w'.pool.nextId ≤ u256Size)
    (h : writeOptionBtc env tx t s e a p w = .ok (r, w')) :
    Writes (tables w) (writes env tx (.writeOptionBtc t s e a p) w) (tables w') := by
  have hwrites : writes env tx (.writeOptionBtc t s e a p) w
      = newOptionWrites tx w.pool t s e a p ++ escrowWrites t w.pool.nextId a (.ok (r, w')) := by
    rw [writes, h]
  rw [hwrites]
  simp only [writeOptionBtc, bind_eq_ok, OptionsPool.checkType_eq_ok] at h
  obtain ⟨ty, ht, -, -, h⟩ := h
  rw [newOptionWrites, escrowWrites, ht]
  cases ty with
  | CALL =>
    obtain ⟨_, hash, hfits, -, -, -, -, hpool, hown, -⟩ := writeCall_ok h
    have hi : w.pool.nextId < u256Size := by
      rw [hpool] at hids'
      exact hids'
    have ha : a < u256Size := hfits.trans (by decide)
    have hhash : w'.own.escrowHash w.pool.nextId = hash := by
      rw [hown]
      exact Function.update_self _ _ _
    rw [if_pos rfl, hhash, tables, tables, hpool, hown]
    exact .cons (.option hi _) (writes_escrow hi rfl ha hash)
  | PUT =>
    obtain ⟨_, -, -, -, hpool, hown, -⟩ := writePut_ok h
    have hi : w.pool.nextId < u256Size := by
      rw [hpool] at hids'
      exact hids'
    rw [tables, tables, hpool, hown, if_neg (by simp)]
    exact .option hi _

/-- A call writes what it changes. -/
lemma exec_writes (hinv : TableInv w.pool) (hids : w.pool.nextId ≤ u256Size)
    (hids' : w'.pool.nextId ≤ u256Size) (h : exec env tx c w = .ok (r, w')) :
    Writes (tables w) (writes env tx c w) (tables w') := by
  have hlt : ∀ {i}, w.pool.options.existsAt i → i < u256Size :=
    fun hex => ((hinv _).mp hex).trans_le hids
  cases c with
  | writeOptionBtc t s e a p => exact writes_written hids' h
  | buyOption i =>
    obtain ⟨_, _, _, hex, -, -, -, -, -, -, -, -, rfl⟩ := OptionsPool.buyOption_ok h
    exact .cons (.buyer (hlt hex) tx.sender) (.status (hlt hex) .PURCHASED)
  | exercise i =>
    obtain ⟨_, _, _, hex, -, -, -, -, -, -, hpool, hown, -⟩ := exercise_ok h
    rw [tables, tables, hown]
    exact writes_status (hlt hex) hpool
  | cancelOption i =>
    obtain ⟨hex, -, -, hpool, hann⟩ := cancelOption_update h
    rw [tables, tables, hann.1]
    exact writes_status (hlt hex) hpool
  | settle i =>
    obtain ⟨hex, -, -, hpool, hann⟩ := settle_update h
    rw [tables, tables, hann.1]
    exact writes_status (hlt hex) hpool
  | getOption i =>
    obtain rfl := getOption_ok h
    exact .refl
  | updateFeeRecipient a =>
    obtain ⟨-, -, -, rfl⟩ := updateFeeRecipient_ok h
    exact .refl
  | registerBtcPubkey data =>
    obtain ⟨_, rfl, -, -, rfl⟩ := registerBtcPubkey_ok h
    exact .pubkey tx.sender _

end BtcUnderlying

/-! ### Pools of any kind -/

namespace PoolType

/-- What a pool keeps in slots. -/
def tables : (k : PoolType) → World k.Own → Tables
  | op20 => OptionsPool.tables
  | btcQuote => BtcQuote.tables
  | btcUnderlying => BtcUnderlying.tables

/-- The writes of a call to the slots, in their order. -/
def writes : (k : PoolType) → Env → Tx → k.Call → World k.Own → List Write
  | op20 => OptionsPool.writes
  | btcQuote => BtcQuote.writes
  | btcUnderlying => BtcUnderlying.writes

/-- The ids of the reservations are `u256`s. -/
def Fits : (k : PoolType) → World k.Own → Prop
  | btcQuote, w => w.own.nextReservationId ≤ u256Size
  | op20, _ | btcUnderlying, _ => True

/-- The writes that the calls of a run make, in their order. -/
def writesAlong (k : PoolType) (env : Env) (w₀ : World k.Own)
    (h : Lts.History (World k.Own) (Label k.Call)) : List Write :=
  Lts.collect (Label.ofCall (k.writes env)) w₀ h

variable {k : PoolType} {env : Env} {others : Ledger → Ledger → Prop} {w₀ w w' : World k.Own}
  {h : Lts.History (World k.Own) (Label k.Call)} {tx : Tx} {c : k.Call} {r : Response}

/-- A call of a run writes what it changes. -/
lemma exec_writes (hdep : k.Deployed w₀) (hrun : Lts.Run (Step env others (k.exec env)) w₀ h w)
    (hfits : k.Fits w) (htx : tx.FromAccount env) (hexec : k.exec env tx c w = .ok (r, w')) :
    Writes (k.tables w) (k.writes env tx c w) (k.tables w') ∧ k.Fits w' := by
  have hids := nextId_le_of_run hdep hrun
  have hids' := nextId_le_of_run hdep (hrun.cons (.call htx hexec))
  cases k with
  | op20 =>
    exact ⟨OptionsPool.exec_writes (OptionsPool.table_of_run hdep hrun) hids htx hexec, trivial⟩
  | btcQuote => exact BtcQuote.exec_writes (BtcQuote.twoPhase_of_run hdep hrun) hids hfits hexec
  | btcUnderlying =>
    exact ⟨BtcUnderlying.exec_writes (BtcUnderlying.table_of_run hdep hrun) hids hids' hexec,
      trivial⟩

lemma Deployed.fits (hdep : k.Deployed w) : k.Fits w := by
  cases k with
  | btcQuote =>
    rw [Fits, BtcQuote.Deployed.own hdep]
    exact Nat.zero_le _
  | op20 | btcUnderlying => trivial

lemma Deployed.tables (hdep : k.Deployed w) : k.tables w = .empty := by
  cases k with
  | op20 => exact OptionsPool.tables_of_deployed hdep
  | btcQuote => exact BtcQuote.tables_of_deployed hdep
  | btcUnderlying => exact BtcUnderlying.tables_of_deployed hdep

/-- The writes of a run turn the tables of a new pool into those it has after the run. -/
lemma writes_of_run (hdep : k.Deployed w₀)
    (hrun : Lts.Run (Step env others (k.exec env)) w₀ h w) :
    Writes (k.tables w₀) (k.writesAlong env w₀ h) (k.tables w) := by
  suffices hboth : Writes (k.tables w₀) (k.writesAlong env w₀ h) (k.tables w) ∧ k.Fits w from
    hboth.1
  refine hrun.induct (I := fun h w =>
    Writes (k.tables w₀) (k.writesAlong env w₀ h) (k.tables w) ∧ k.Fits w) ?_ ?_
  · exact ⟨.refl, Deployed.fits hdep⟩
  · rintro h t l u hrun ⟨hwrites, hfits⟩ hstep
    rw [writesAlong, Lts.collect, hrun.last_eq]
    cases hstep with
    | call htx hexec =>
      obtain ⟨hcall, hfits'⟩ := exec_writes hdep hrun hfits htx hexec
      exact ⟨hwrites.trans hcall, hfits'⟩
    | reverted =>
      rw [Label.ofCall, List.append_nil]
      exact ⟨hwrites, hfits⟩
    | elsewhere =>
      rw [Label.ofCall, List.append_nil]
      cases k <;> exact ⟨hwrites, hfits⟩

/-! ### Slots -/

variable {L : Layout} {built : Set Place}

/-- The slots of a pool after the writes of a run. -/
def slotsAfter (k : PoolType) (L : Layout) (env : Env) (w₀ : World k.Own)
    (h : Lts.History (World k.Own) (Label k.Call)) : Slots.Storage :=
  (k.writesAlong env w₀ h).foldl (Write.store L) fun _ => Bytes32.zero

/-- After any run of a pool its slots hold its tables: whatever is read of a slot is what the tables
have there, as long as the keys of the slots that were written to do not collide. -/
theorem slots_hold (hdep : k.Deployed w₀) (hrun : Lts.Run (Step env others (k.exec env)) w₀ h w)
    (hL : L.NoCollision built) (hbuilt : ∀ v ∈ k.writesAlong env w₀ h, v.Within built) {c : Cell}
    (hc : c.place ∈ built) : c.read L (k.slotsAfter L env w₀ h) = (k.tables w).cell c := by
  have hempty : c.read L (fun _ => Bytes32.zero) = (k.tables w₀).cell c := by
    rw [Deployed.tables hdep]
    exact Tables.read_empty L c
  calc c.read L (k.slotsAfter L env w₀ h)
      = (k.writesAlong env w₀ h).foldl Contents.write (k.tables w₀).cell c :=
        read_foldl hL hc hempty hbuilt
    _ = (k.tables w).cell c := by rw [writes_of_run hdep hrun]

lemma get_option (hdep : k.Deployed w₀) (hrun : Lts.Run (Step env others (k.exec env)) w₀ h w)
    (hL : L.NoCollision built) (hbuilt : ∀ v ∈ k.writesAlong env w₀ h, v.Within built) {i : U256}
    (hslots : ∀ f, (Cell.option i f).place ∈ built) :
    Slots.OptionStorage.get L i (k.slotsAfter L env w₀ h) = .of (w.option i) := by
  refine StoredOption.ext_field ((U256.val_eq_iff i.isLt).mp rfl) fun f => ?_
  have hread := slots_hold hdep hrun hL hbuilt (hslots f)
  cases k <;> exact hread

/-- Options are created before they expire. -/
lemma createdBlock_lt (hdep : k.Deployed w₀)
    (hrun : Lts.Run (Step env others (k.exec env)) w₀ h w) :
    ∀ i < w.pool.nextId, (w.option i).createdBlock < (w.option i).expiryBlock := by
  refine options_of_run (P := fun o => o.createdBlock < o.expiryBlock) (Deployed.base hdep) hrun
    fun h v tx c r v' hrun htx hexec => ?_
  refine (advance hdep hrun hexec).keeps (P := fun o => o.createdBlock < o.expiryBlock)
    (fun o o' ht ho => ?_) fun o ho => ?_
  · rw [ht.createdBlock, ht.expiryBlock]
    exact ho
  · obtain ⟨t, s, e, a, p, _, rfl, -, -, hblock, -⟩ := ho
    exact hblock

/-- An option is found in the slots when it is in the table, and all of it is read from them. -/
theorem slots_store_option (hdep : k.Deployed w₀)
    (hrun : Lts.Run (Step env others (k.exec env)) w₀ h w) (hL : L.NoCollision built)
    (hbuilt : ∀ v ∈ k.writesAlong env w₀ h, v.Within built) {i : U256}
    (hslots : ∀ f, (Cell.option i f).place ∈ built) :
    (Slots.OptionStorage.existsAt L i (k.slotsAfter L env w₀ h) ↔ w.pool.options.existsAt i) ∧
      (i < w.pool.nextId → w.pool.Typed →
        (Slots.OptionStorage.get L i (k.slotsAfter L env w₀ h)).Stores (w.option i)) := by
  have hget := get_option hdep hrun hL hbuilt hslots
  constructor
  · have hwriter := congrArg StoredOption.writer hget
    rw [OptionStorage.existsAt_iff]
    exact not_congr (Eq.congr_left hwriter)
  · intro hi htyped
    have ho := htyped.options i hi
    rw [hget]
    exact StoredOption.stores_of ho.strikePrice ho.underlyingAmount ho.premium ho.expiryBlock
      ((createdBlock_lt hdep hrun i hi).trans ho.expiryBlock)

end PoolType

/-- So is a reservation that can still be executed or cancelled. -/
theorem BtcQuote.slots_store_reservation {env : Env} {others : Ledger → Ledger → Prop}
    {w₀ w : State} {h : Lts.History State (Label Call)} {L : Layout} {built : Set Place}
    (hdep : Deployed w₀) (hrun : Lts.Run (Step env others (exec env)) w₀ h w)
    (hL : L.NoCollision built)
    (hbuilt : ∀ v ∈ PoolType.btcQuote.writesAlong env w₀ h, v.Within built) {n : U256}
    (hslots : ∀ f, (Cell.reservation n f).place ∈ built) (hlive : Live w n)
    (htyped : w.pool.Typed) :
    Slots.ReservationStorage.existsAt L n (PoolType.btcQuote.slotsAfter L env w₀ h) ∧
      (Slots.ReservationStorage.get L n (PoolType.btcQuote.slotsAfter L env w₀ h)).Stores
        (w.own.reservations.get n) := by
  have hget : Slots.ReservationStorage.get L n (PoolType.btcQuote.slotsAfter L env w₀ h)
      = .of (w.own.reservations.get n) := by
    refine StoredReservation.ext_field ((U256.val_eq_iff n.isLt).mp rfl) fun f => ?_
    exact PoolType.slots_hold (k := .btcQuote) hdep hrun hL hbuilt (hslots f)
  obtain ⟨hi, hholds⟩ := (twoPhase_of_run hdep hrun).live n hlive
  have hstores : (StoredReservation.of (w.own.reservations.get n)).Stores
      (w.own.reservations.get n) := by
    refine StoredReservation.stores_of (hi.trans htyped.nextId) (hholds.amount.trans (by decide)) ?_
    exact hholds.block.trans (htyped.options _ hi).expiryBlock
  rw [← hget] at hstores
  refine ⟨fun hzero => hlive.1 ?_, hstores⟩
  have hnone : (Slots.ReservationStorage.get L n (PoolType.btcQuote.slotsAfter L env w₀ h)).optionId
      = 0 := toU256_eq_zero.mpr hzero
  calc (w.own.reservations.get n).optionId
      = _ := hstores.optionId.symm
    _ = 0 := congrArg Fin.val hnone

end Frogop
