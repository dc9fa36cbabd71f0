import Frogop.Pool.BtcQuote.Spec

/-!
# The buffers of `OptionsPoolBtcQuote`

Every writer is allocated with a size counted by hand. A call is compared with the same call made
with writers that grow: all methods but `reserveOption` are the same program either way.
-/

namespace Frogop

open Outcome

/-! ### Steps that fit -/

section

variable {σ : Type} {env : Env} {m : WriterMode} {tx : Tx} {w : World σ}

lemma Tx.FromAccount.withWriters (h : tx.FromAccount env) (m : WriterMode) :
    tx.FromAccount (env.withWriters m) :=
  ⟨h.ne_pool, h.ne_zero⟩

lemma fill_withWriters {capacity used : ℕ} (h : used ≤ capacity) :
    (env.withWriters m).fill capacity used = env.fill capacity used := by
  rw [fill_of_le h, fill_of_le h]

lemma callData_withWriters {capacity : ℕ} {fields : List Field}
    (h : 4 + fieldsWidth fields ≤ capacity) :
    (env.withWriters m).callData capacity fields = env.callData capacity fields := by
  rw [Env.callData, Env.callData, fill_withWriters h]

lemma queryCsvScriptHash_withWriters {pubkey : List UInt8} {csvBlocks : ℕ}
    (h : pubkey.length ≤ 33) :
    queryCsvScriptHash (env.withWriters m) pubkey csvBlocks
      = queryCsvScriptHash env pubkey csvBlocks := by
  have hfits : 4 + fieldsWidth [.bytes pubkey, .u64 csvBlocks] ≤ 45 := by
    simp only [fieldsWidth_cons, fieldsWidth_nil, Field.width]
    omega
  rw [queryCsvScriptHash, queryCsvScriptHash, callData_withWriters hfits]
  rfl

lemma scanOutputs_withWriters {hash : List UInt8} {amount : ℕ} {outputs : List TxOutput}
    {s : BridgeStorage} : Bridge.scanOutputs (env.withWriters m) hash amount outputs s
      = Bridge.scanOutputs env hash amount outputs s := by
  induction outputs with
  | nil => rfl
  | cons output outputs ih =>
    simp only [Bridge.scanOutputs, ih]
    rfl

lemma registeredPubkey_length {p : PoolStorage} {a : Address} {pubkey : List UInt8}
    (h : p.registeredPubkey a = .ok pubkey) : pubkey.length ≤ 33 := by
  simp only [PoolStorage.registeredPubkey, bind_eq_ok, require_eq_ok, pure_eq,
    Except.ok.injEq] at h
  obtain ⟨-, -, rfl⟩ := h
  exact List.length_take_le 33 _

namespace World

lemma emit_withWriters {name : EventName} {capacity : ℕ} {fields : List Field}
    (h : fieldsWidth fields ≤ capacity) :
    w.emit (env.withWriters m) name capacity fields = w.emit env name capacity fields := by
  rw [emit, emit, fill_withWriters h]

lemma respond_withWriters {capacity : ℕ} {fields : List Field}
    (h : fieldsWidth fields ≤ capacity) :
    w.respond (env.withWriters m) capacity fields = w.respond env capacity fields := by
  rw [respond, respond, fill_withWriters h]

lemma transferFrom_withWriters {token src dst : Address} {amount : ℕ} :
    w.transferFrom (env.withWriters m) token src dst amount
      = w.transferFrom env token src dst amount := by
  rw [transferFrom, transferFrom, callTransferFrom_eq, callTransferFrom_eq]
  rfl

lemma transfer_withWriters {token dst : Address} {amount : ℕ} :
    w.transfer (env.withWriters m) token dst amount = w.transfer env token dst amount := by
  rw [transfer, transfer, callTransferFrom_eq, callTransferFrom_eq]
  rfl

lemma payFee_withWriters {token : Address} {fee : ℕ} :
    w.payFee (env.withWriters m) token fee = w.payFee env token fee := by
  rw [payFee, payFee, transfer_withWriters]

lemma queryBtcPrice_withWriters {token : Address} :
    w.queryBtcPrice (env.withWriters m) tx token = w.queryBtcPrice env tx token := by
  have hfits : 4 + fieldsWidth [.address token] ≤ 36 := by
    simp [Field.width]
  rw [queryBtcPrice, queryBtcPrice, callData_withWriters hfits]
  rfl

lemma queryVerifyBtcOutput_withWriters {hash : Bytes32} {amount : ℕ} :
    w.queryVerifyBtcOutput (env.withWriters m) tx hash amount
      = w.queryVerifyBtcOutput env tx hash amount := by
  have hfits : 4 + fieldsWidth [.bytes hash.val, .u64 amount] ≤ 44 := by
    simp [Field.width]
  simp only [queryVerifyBtcOutput, callData_withWriters hfits, Bridge.verifyBtcOutput,
    scanOutputs_withWriters]

end World

end

namespace BtcQuote

open World

section

variable {env : Env} {m : WriterMode} {tx : Tx} {c : Call} {w : State} {i n : ℕ}

/-! ### Methods that fit -/

lemma writeOption_withWriters {t s e a p : ℕ} :
    writeOption (env.withWriters m) tx t s e a p w = writeOption env tx t s e a p w := by
  have hevent : ∀ o, fieldsWidth (OptionsPool.writtenFields o) ≤ 200 := by
    intro o
    simp [OptionsPool.writtenFields, Field.width]
  have hresult : ∀ k, fieldsWidth [.u256 k] ≤ 32 := by simp [Field.width]
  simp only [writeOption, OptionsPool.writeOption, transferFrom_withWriters,
    emit_withWriters (hevent _), respond_withWriters (hresult _)]
  rfl

/-- The response of most methods. -/
lemma width_success : fieldsWidth [.boolean true] ≤ 1 := by decide

lemma executeReservation_withWriters :
    executeReservation (env.withWriters m) tx n w = executeReservation env tx n w := by
  have hevent : ∀ k j a, fieldsWidth [.u256 k, .u256 j, .address a] ≤ 96 := by simp [Field.width]
  simp only [executeReservation, queryVerifyBtcOutput_withWriters, emit_withWriters (hevent _ _ _),
    respond_withWriters width_success]

lemma cancelReservation_withWriters :
    cancelReservation (env.withWriters m) tx n w = cancelReservation env tx n w := by
  have hcancel : ∀ k j, fieldsWidth [.u256 k, .u256 j] ≤ 64 := by simp [Field.width]
  have hrestored : ∀ j, fieldsWidth [.u256 j] ≤ 32 := by simp [Field.width]
  simp only [cancelReservation, emit_withWriters (hcancel _ _), emit_withWriters (hrestored _),
    respond_withWriters width_success]

lemma exchange_withWriters {o : OptionRecord} {value : ℕ} :
    exchange (env.withWriters m) tx o value w = exchange env tx o value w := by
  unfold exchange
  cases o.optionType with
  | CALL => simp only [exerciseCall, queryVerifyBtcOutput_withWriters, transfer_withWriters]
  | PUT => simp only [OptionsPool.exercisePut, transferFrom_withWriters, transfer_withWriters]

lemma exercise_withWriters : exercise (env.withWriters m) tx i w = exercise env tx i w := by
  have hevent : ∀ o v f, fieldsWidth (OptionsPool.exercisedFields o v f) ≤ 193 := by
    simp [OptionsPool.exercisedFields, Field.width]
  simp only [exercise, exchange_withWriters, emit_withWriters (hevent _ _ _),
    respond_withWriters width_success]

lemma cancelOption_withWriters :
    cancelOption (env.withWriters m) tx i w = cancelOption env tx i w := by
  have hevent : ∀ j a b f, fieldsWidth [.u256 j, .address a, .u256 b, .u256 f] ≤ 128 := by
    simp [Field.width]
  simp only [cancelOption, OptionsPool.cancelOption, transfer_withWriters, payFee_withWriters,
    emit_withWriters (hevent _ _ _ _), respond_withWriters width_success]

lemma settle_withWriters : settle (env.withWriters m) tx i w = settle env tx i w := by
  have hevent : ∀ j a b, fieldsWidth [.u256 j, .address a, .u256 b] ≤ 100 := by simp [Field.width]
  simp only [settle, OptionsPool.settle, transfer_withWriters, emit_withWriters (hevent _ _ _),
    respond_withWriters width_success]

lemma getReservation_withWriters :
    getReservation (env.withWriters m) n w = getReservation env n w := by
  have hresult : ∀ (r : Reservation), fieldsWidth [.u256 r.id, .u256 r.optionId, .address r.buyer,
      .u256 r.btcAmount, .bytes r.csvScriptHash.val, .u64 r.expiryBlock, .u8 r.status.toU8]
        ≤ 32 * 4 + 32 + 8 + 1 := by simp [Field.width]
  simp only [getReservation, respond_withWriters (hresult _)]

lemma getOption_withWriters : getOption (env.withWriters m) i w = getOption env i w := by
  have hresult : ∀ (o : OptionRecord), fieldsWidth [.u256 o.id, .address o.writer, .address o.buyer,
      .u8 o.optionType.toU8, .u256 o.strikePrice, .u256 o.underlyingAmount, .u256 o.premium,
      .u64 o.expiryBlock, .u8 o.status.toU8] ≤ 32 * 6 + 8 + 2 := by simp [Field.width]
  simp only [getOption, respond_withWriters (hresult _)]

/-- Every method but one is the same program with writers of either kind. -/
lemma exec_withWriters (hc : ∀ i, c ≠ .reserveOption i) :
    exec (env.withWriters m) tx c w = exec env tx c w := by
  cases c with
  | writeOption t s e a p => exact writeOption_withWriters
  | reserveOption i => exact absurd rfl (hc i)
  | executeReservation n => exact executeReservation_withWriters
  | cancelReservation n => exact cancelReservation_withWriters
  | exercise i => exact exercise_withWriters
  | cancelOption i => exact cancelOption_withWriters
  | settle i => exact settle_withWriters
  | getReservation n => exact getReservation_withWriters
  | getOption i => exact getOption_withWriters
  | updateFeeRecipient newRecipient =>
    have hevent : ∀ a b, fieldsWidth [.address a, .address b] ≤ 64 := by simp [Field.width]
    simp only [exec, updateFeeRecipient, emit_withWriters (hevent _ _),
      respond_withWriters width_success]
  | registerBtcPubkey data =>
    simp only [exec, registerBtcPubkey, respond_withWriters width_success]
    rfl

/-! ### The method that does not -/

/-- What `reserveOption` checks and computes before it writes its event. -/
structure Reservable (env : Env) (tx : Tx) (i : ℕ) (w : State) : Prop where
  stored : w.pool.options.existsAt i
  unsold : (w.option i).status = .OPEN
  unexpired : tx.block < (w.option i).expiryBlock
  window : u64Add tx.block reservationExpiryBlocks < (w.option i).expiryBlock
  notWriter : tx.sender ≠ (w.option i).writer
  priced : ∃ price v amount, w.queryBtcPrice env tx w.pool.premiumToken = .ok (price, v) ∧
    btcPremium (w.option i).premium price = .ok amount
  scripted : ∃ pubkey hash, w.pool.registeredPubkey (w.option i).writer = .ok pubkey ∧
    queryCsvScriptHash env pubkey 6 = .ok hash
  issuable : w.own.nextReservationId + 1 < u256Size

/-- The event of a reservation takes 168 bytes, and its writer holds 160. -/
lemma reserveOption_fixed (hfixed : env.writers = .fixed) (reply : Reply Storage) :
    reserveOption env tx i w ≠ .ok reply := by
  intro h
  simp only [reserveOption, bind_eq_ok, Prod.exists, emit_eq_ok] at h
  obtain ⟨-, -, -, -, -, -, -, -, -, -, _, _, -, _, -, _, -, _, -, _, _, -, _, ⟨hfits, -⟩, -⟩ := h
  simp [hfixed, Field.width] at hfits

lemma reserveOption_growing :
    (∃ reply, reserveOption (env.withWriters .growing) tx i w = .ok reply) ↔
      Reservable env tx i w := by
  constructor
  · rintro ⟨⟨r, w'⟩, h⟩
    simp only [reserveOption, queryBtcPrice_withWriters, bind_eq_ok, require_eq_ok,
      Prod.exists, addReservation_eq_ok] at h
    obtain ⟨-, hex, -, hopen, -, hblock, -, hwindow, -, hwriter, price, v, hprice, amount, hamount,
      pubkey, hpubkey, hash, hhash, _, _, ⟨hid, -⟩, -⟩ := h
    obtain ⟨bridge, rfl⟩ := queryBtcPrice_ok hprice
    rw [queryCsvScriptHash_withWriters (registeredPubkey_length hpubkey)] at hhash
    exact ⟨hex, hopen, hblock, hwindow, hwriter, ⟨price, _, amount, hprice, hamount⟩,
      ⟨pubkey, hash, hpubkey, hhash⟩, hid⟩
  · intro hr
    obtain ⟨price, v, amount, hprice, hamount⟩ := hr.priced
    obtain ⟨pubkey, hash, hpubkey, hhash⟩ := hr.scripted
    obtain ⟨bridge, rfl⟩ := queryBtcPrice_ok hprice
    rw [← queryCsvScriptHash_withWriters (m := .growing) (registeredPubkey_length hpubkey)] at hhash
    simp only [reserveOption, queryBtcPrice_withWriters, bind_eq_ok, require_eq_ok,
      Prod.exists, addReservation_eq_ok, emit_eq_ok, respond_eq_ok]
    exact ⟨_, _, (), hr.stored, (), hr.unsold, (), hr.unexpired, (), hr.window, (), hr.notWriter,
      price, _, hprice, amount, hamount, pubkey, hpubkey, hash, hhash, _, _, ⟨hr.issuable, rfl⟩, _,
      ⟨.inl rfl, rfl⟩, .inl rfl, rfl⟩

/-- The buffers of a call are large enough: it goes through when it does with writers that grow. -/
def BuffersSuffice (env : Env) (tx : Tx) (c : Call) (w : State) : Prop :=
  (∃ reply, exec (env.withWriters .growing) tx c w = .ok reply) →
    ∃ reply, exec (env.withWriters .fixed) tx c w = .ok reply

/-- In every state, the buffers of a call are too small exactly when it reserves an option that
could be reserved. -/
theorem buffersSuffice_iff (env : Env) (tx : Tx) (c : Call) (w : State) :
    BuffersSuffice env tx c w ↔ ¬ ∃ i, c = .reserveOption i ∧ Reservable env tx i w := by
  constructor
  · rintro hsuffice ⟨i, rfl, hr⟩
    obtain ⟨reply, hfixed⟩ := hsuffice (reserveOption_growing.mpr hr)
    exact reserveOption_fixed rfl reply hfixed
  · rintro hnot ⟨reply, hgo⟩
    by_cases hc : ∃ i, c = .reserveOption i
    · obtain ⟨i, rfl⟩ := hc
      exact absurd ⟨i, rfl, reserveOption_growing.mp ⟨reply, hgo⟩⟩ hnot
    · have hother : ∀ i, c ≠ .reserveOption i := fun i heq => hc ⟨i, heq⟩
      rw [exec_withWriters hother] at hgo
      exact ⟨reply, by rw [exec_withWriters hother, hgo]⟩

/-- The first option of a pool, ready to be reserved: the same call goes through with writers that
grow. -/
theorem reserveOption_overfills :
    ∃ h w, Lts.Run (Step (Testnet.env.withWriters .fixed)
        (Ledger.FixedAt Testnet.env.contractAddress) (exec (Testnet.env.withWriters .fixed)))
        Testnet.world h w ∧
      (∃ reply, exec (Testnet.env.withWriters .growing) (Testnet.quoted 11 101) (.reserveOption 0) w
        = .ok reply) ∧
      exec (Testnet.env.withWriters .fixed) (Testnet.quoted 11 101) (.reserveOption 0) w
        = .error .writerFull := by
  have hrun := Frogop.Testnet.run_after (Ledger.FixedAt Testnet.env.contractAddress)
    (fun q hq => (Testnet.writing_fromAccount (10 ^ 18) 4 100 q hq).withWriters .fixed)
    (by rfl : (replay (exec (Testnet.env.withWriters .fixed)) Testnet.world _).isOk = true)
  exact ⟨_, _, hrun, ⟨_, Frogop.Testnet.exec_next (r := [.u256 0]) rfl⟩, rfl⟩

end

end BtcQuote

end Frogop
