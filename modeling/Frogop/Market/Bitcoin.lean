import Frogop.Bridge.PriceCache
import Frogop.Lib.Register
import Frogop.Market.Solvency
import Frogop.Bridge.Recognition

/-!
# The bitcoin of a market

Four calls go through only when their transaction pays bitcoin to a script: the execution of a
reservation, the exercise of a CALL of the type-1 pool, the writing of a CALL and the exercise of a
PUT of the type-2 pool. All pools ask the same bridge, so no payment counts for two of these calls.
-/

namespace Frogop

open Outcome World

/-- Bitcoin that a call waits for: an amount to the P2WSH script of a hash. -/
structure Due where
  hash : Bytes32
  amount : ℕ
  deriving DecidableEq

/-- The payment of the strike of a CALL, or of a reserved premium. -/
def BtcQuote.due (c : BtcQuote.Call) (w : BtcQuote.State) : Option Due :=
  match c with
  | .executeReservation n =>
    some ⟨(w.own.reservations.get n).csvScriptHash, (w.own.reservations.get n).btcAmount⟩
  | .exercise i =>
    match (w.option i).optionType with
    | .CALL => some ⟨w.own.csvScriptHash i, amountOf (strikeValue (w.option i).strikePrice
        (w.option i).underlyingAmount)⟩
    | .PUT => none
  | _ => none

/-- The collateral of a new CALL, or the underlying of a PUT. -/
def BtcUnderlying.due (env : Env) (tx : Tx) (c : BtcUnderlying.Call) (w : BtcUnderlying.State) :
    Option Due :=
  match c with
  | .writeOptionBtc t _ e a _ =>
    match OptionType.ofU8 t with
    | some .CALL => some ⟨env.sha256 (Bridge.escrowScript BtcUnderlying.placeholderBuyer
        ((w.pool.pubkeys tx.sender).take 33) (u64Add e w.pool.gracePeriod)), a⟩
    | _ => none
  | .exercise i =>
    match (w.option i).optionType with
    | .CALL => none
    | .PUT => some ⟨env.sha256 (env.csvTimelock ((w.pool.pubkeys (w.option i).writer).take 33) 6),
        (w.option i).underlyingAmount⟩
  | _ => none

def PoolType.due : (k : PoolType) → Env → Tx → k.Call → World k.Own → Option Due
  | op20, _, _, _, _ => none
  | btcQuote, _, _, c, w => BtcQuote.due c w
  | btcUnderlying, env, tx, c, w => BtcUnderlying.due env tx c w

/-- What a call does to the bridge: it waits for what is due, or asks for the price of a token. -/
def Collects (env : Env) (tx : Tx) (token : Address) (s s' : BridgeStorage) : Option Due → Prop
  | none => s' = s ∨ ∃ word rest, Bridge.getBtcPrice env tx (token.val ++ rest) s = .ok (word, s')
  | some d => Bridge.scanOutputs env d.hash.val d.amount tx.outputs s = (true, s')

section

variable {env : Env} {tx : Tx} {token : Address} {σ : Type} {w w' : World σ} {r : Response}
  {i n : ℕ}

/-- The block of a transaction is one that the chain can have. -/
def Tx.Mined (tx : Tx) : Prop := 0 < tx.block ∧ tx.block < u64Size

lemma Bridge.marks_set {s : BridgeStorage} {key value : Bytes32} (h : value ≠ Bytes32.zero) :
    Bridge.Marks s (Bridge.setStorageAt s key value) := by
  intro key' hk
  by_cases heq : key' = key
  · subst heq
    rwa [Bridge.hasStorageAt, Bridge.setStorageAt, Function.update_self]
  · rwa [Bridge.hasStorageAt, Bridge.setStorageAt, Function.update_of_ne heq]

lemma Bridge.Marks.trans {s s' s'' : BridgeStorage} (h : Bridge.Marks s s')
    (h' : Bridge.Marks s' s'') : Bridge.Marks s s'' := fun key hk => h' key (h key hk)

lemma Tx.Mined.block_ne_zero (h : tx.Mined) : Bytes32.ofNat tx.block ≠ Bytes32.zero := by
  intro heq
  have hsize : tx.block < 256 ^ 32 := h.2.trans (by decide)
  have hvalue := congrArg Bytes32.toNat heq
  rw [Bytes32.toNat, Bytes32.ofNat, BigEndian.ofBytes_beBytes_of_lt hsize] at hvalue
  exact h.1.ne' hvalue

/-! ### One call -/

lemma Bridge.getBtcPrice_marks {calldata : List UInt8} {price : Bytes32} {s s' : BridgeStorage}
    (hmined : tx.Mined) (h : Bridge.getBtcPrice env tx calldata s = .ok (price, s')) :
    Bridge.Marks s s' := by
  simp only [Bridge.getBtcPrice, bind_eq_ok, Prod.exists] at h
  obtain ⟨token, rest, -, h⟩ := h
  split_ifs at h with hhit
  · cases h
    exact .refl
  · cases hquote : tx.getQuote token 100000 with
    | none =>
      rw [hquote] at h
      cases h
    | some quoted =>
      rw [hquote] at h
      dsimp only at h
      split_ifs at h with hzero
      cases h
      exact (Bridge.marks_set hzero).trans (Bridge.marks_set hmined.block_ne_zero)

lemma Bridge.verifyBtcOutput_marks {outputs : List TxOutput} {calldata : List UInt8} {found : Bool}
    {s s' : BridgeStorage}
    (h : Bridge.verifyBtcOutput env outputs calldata s = .ok (found, s')) : Bridge.Marks s s' := by
  simp only [Bridge.verifyBtcOutput, bind_eq_ok, Prod.exists, pure_eq, Except.ok.injEq] at h
  obtain ⟨hash, rest, -, amount, rest', -, h⟩ := h
  exact Bridge.scanOutputs_marks h

/-- The bridge is asked for the price of the token. -/
lemma queryBtcPrice_asks {price : ℕ} (h : w.queryBtcPrice env tx token = .ok (price, w')) :
    ∃ word rest, Bridge.getBtcPrice env tx (token.val ++ rest) w.bridge = .ok (word, w'.bridge) ∧
      word.toNat = price := by
  simp only [World.queryBtcPrice, bind_eq_ok, Prod.exists, orRevert_eq_ok, pure_eq,
    Except.ok.injEq, Prod.mk.injEq, callData_eq_ok] at h
  obtain ⟨_, ⟨-, rfl⟩, word, bridge, hprice, hword, rfl⟩ := h
  have hbuffer : buffer (36 - 4) [.address token] = token.val ++ [] := by
    simp [buffer, Field.encode, Field.width]
  rw [hbuffer] at hprice
  exact ⟨word, [], hprice, hword⟩

/-- Where nothing is due no mark is lost. -/
lemma Collects.marks {s s' : BridgeStorage} (hmined : tx.Mined)
    (h : Collects env tx token s s' none) : Bridge.Marks s s' := by
  rcases h with rfl | ⟨word, rest, hprice⟩
  · exact .refl
  · exact Bridge.getBtcPrice_marks hmined hprice

/-- A query that finds its payment collects it. -/
lemma queryVerifyBtcOutput_collects (token : Address) {hash : Bytes32} {amount : ℕ}
    (hamount : amount < u64Size)
    (h : w.queryVerifyBtcOutput env tx hash amount = .ok (true, w')) :
    Collects env tx token w.bridge w'.bridge (some ⟨hash, amount⟩) := by
  rw [queryVerifyBtcOutput_eq hamount] at h
  simp only [Except.ok.injEq, Prod.mk.injEq] at h
  obtain ⟨hfound, rfl⟩ := h
  exact Prod.ext hfound rfl

lemma collects_none (h : w'.bridge = w.bridge) : Collects env tx token w.bridge w'.bridge none :=
  .inl h

end

/-- The type-0 pool never calls the bridge. -/
lemma OptionsPool.exec_bridge {env : Env} {tx : Tx} {c : OptionsPool.Call}
    {w w' : OptionsPool.State} {r : Response} (h : OptionsPool.exec env tx c w = .ok (r, w')) :
    w'.bridge = w.bridge := by
  cases c with
  | writeOption t s e a p =>
    obtain ⟨_, _, _, -, -, -, -, -, -, -, -, rfl⟩ := OptionsPool.writeOption_ok h
    rfl
  | cancelOption i =>
    obtain ⟨_, _, _, _, -, -, -, -, -, -, -, -, -, rfl⟩ := OptionsPool.cancelOption_ok h
    rfl
  | buyOption i =>
    obtain ⟨_, _, _, -, -, -, -, -, -, -, -, -, rfl⟩ := OptionsPool.buyOption_ok h
    rfl
  | exercise i =>
    obtain ⟨_, _, _, _, _, _, -, -, -, -, -, -, -, -, -, -, -, -, -, rfl⟩ :=
      OptionsPool.exercise_ok h
    rfl
  | settle i =>
    obtain ⟨_, _, -, -, -, -, -, -, rfl⟩ := OptionsPool.settle_ok h
    rfl
  | transferOption i newBuyer =>
    obtain ⟨-, -, -, -, -, -, -, rfl⟩ := OptionsPool.transferOption_ok h
    rfl
  | rollOption i s e p =>
    obtain ⟨_, _, _, _, _, -, -, -, -, -, -, -, -, -, -, -, -, -, -, rfl⟩ :=
      OptionsPool.rollOption_ok h
    rfl
  | batchCancel n a b c d e =>
    obtain ⟨ids, -, hloop, -⟩ := OptionsPool.batchCancel_ok h
    refine foldlM_induct (I := fun v => v.bridge = w.bridge) hloop rfl fun v i v' _ hv hstep => ?_
    obtain ⟨_, _, _, _, -, -, -, -, -, -, -, -, -, rfl⟩ :=
      OptionsPool.cancelOption_ok (OptionsPool.batchCancelStep_ok hstep)
    exact hv
  | batchSettle n a b c d e =>
    obtain ⟨ids, _, -, hloop, -⟩ := OptionsPool.batchSettle_ok h
    refine foldlM_induct (I := fun v => v.2.bridge = w.bridge) hloop rfl ?_
    rintro ⟨k, v⟩ i ⟨k', v'⟩ _ hv hstep
    rcases OptionsPool.batchSettleStep_ok hstep with ⟨-, rfl⟩ | ⟨-, hsettle⟩
    · exact hv
    · obtain ⟨_, _, -, -, -, -, -, -, rfl⟩ := OptionsPool.settle_ok hsettle
      exact hv
  | updateFeeRecipient newRecipient =>
    obtain ⟨-, -, -, rfl⟩ := updateFeeRecipient_ok h
    rfl
  | registerBtcPubkey data =>
    obtain ⟨_, -, -, -, rfl⟩ := registerBtcPubkey_ok h
    rfl

namespace BtcQuote

variable {env : Env} {tx : Tx} {w w' : State} {r : Response} {i n : ℕ}

lemma reserveOption_collects (h : reserveOption env tx i w = .ok (r, w')) :
    Collects env tx w.pool.premiumToken w.bridge w'.bridge (due (.reserveOption i) w) := by
  simp only [reserveOption, bind_eq_ok, Prod.exists, addReservation_eq_ok, emit_eq_ok,
    respond_eq_ok, Prod.mk.injEq] at h
  obtain ⟨-, -, -, -, -, -, -, -, -, -, price, w₁, hprice, amount, -, -, -, hash, -, n, _,
    ⟨-, rfl, rfl⟩, _, ⟨-, rfl⟩, -, -, rfl⟩ := h
  obtain ⟨word, rest, hword, -⟩ := queryBtcPrice_asks hprice
  exact .inr ⟨word, rest, hword⟩

lemma executeReservation_collects (h : executeReservation env tx n w = .ok (r, w')) :
    Collects env tx w.pool.premiumToken w.bridge w'.bridge (due (.executeReservation n) w) := by
  simp only [executeReservation, bind_eq_ok, require_eq_ok, Prod.exists, emit_eq_ok, respond_eq_ok,
    Prod.mk.injEq] at h
  obtain ⟨-, -, -, -, -, -, -, hfits, verified, w₁, hverify, -, rfl, _, ⟨-, rfl⟩, -, rfl, rfl⟩ := h
  have hcollects := queryVerifyBtcOutput_collects w.pool.premiumToken hfits hverify
  exact hcollects

lemma exercise_collects (h : exercise env tx i w = .ok (r, w')) :
    Collects env tx w.pool.premiumToken w.bridge w'.bridge (due (.exercise i) w) := by
  simp only [exercise, bind_eq_ok, require_eq_ok, emit_eq_ok, respond_eq_ok, Prod.exists,
    Prod.mk.injEq] at h
  obtain ⟨-, -, -, -, -, -, -, -, -, -, value, hvalue, fee, w₃, hpay, _, ⟨-, rfl⟩, -, rfl, rfl⟩ := h
  cases htype : (w.option i).optionType with
  | CALL =>
    simp only [exchange, htype, exerciseCall, getCsvScriptHashForOption, bind_eq_ok, require_eq_ok,
      pure_eq, Except.ok.injEq, Prod.exists, transfer_eq_ok, Prod.mk.injEq] at hpay
    obtain ⟨_, ⟨-, -, rfl⟩, -, hfits, verified, w₁, hverify, -, rfl, _, -, _, -, _, ⟨l₂, -, rfl⟩, _,
      ⟨l₃, -, rfl⟩, rfl, rfl⟩ := hpay
    simp only [due, htype, hvalue, amountOf]
    have hcollects := queryVerifyBtcOutput_collects w.pool.premiumToken hfits hverify
    exact hcollects
  | PUT =>
    have hput : OptionsPool.exchange env tx (w.option i) value (w.setStatus i .EXERCISED)
        = .ok (fee, w₃) := by
      simpa only [OptionsPool.exchange, exchange, htype] using hpay
    obtain ⟨_, _, _, _, -, -, -, -, -, -, rfl⟩ := OptionsPool.exchange_ok hvalue hput
    simp only [due, htype]
    exact collects_none rfl

/-- A call collects the bitcoin that is due, and marks nothing else. -/
lemma exec_collects {c : Call} (h : exec env tx c w = .ok (r, w')) :
    Collects env tx w.pool.premiumToken w.bridge w'.bridge (due c w) := by
  cases c with
  | writeOption t s e a p =>
    obtain ⟨_, _, _, -, -, -, -, -, -, -, -, rfl⟩ := OptionsPool.writeOption_ok h
    exact collects_none rfl
  | reserveOption i => exact reserveOption_collects h
  | executeReservation n => exact executeReservation_collects h
  | cancelReservation n =>
    simp only [exec, cancelReservation, bind_eq_ok, emit_eq_ok, respond_eq_ok, Prod.mk.injEq] at h
    obtain ⟨-, -, -, -, -, -, _, ⟨-, rfl⟩, _, ⟨-, rfl⟩, -, -, rfl⟩ := h
    exact collects_none rfl
  | exercise i => exact exercise_collects h
  | cancelOption i =>
    obtain ⟨_, _, _, _, -, -, -, -, -, -, -, -, -, rfl⟩ := OptionsPool.cancelOption_ok h
    exact collects_none rfl
  | settle i =>
    obtain ⟨_, _, -, -, -, -, -, -, rfl⟩ := OptionsPool.settle_ok h
    exact collects_none rfl
  | getReservation n => exact collects_none (congrArg World.bridge (getReservation_ok h))
  | getOption i => exact collects_none (congrArg World.bridge (getOption_ok h))
  | updateFeeRecipient newRecipient =>
    obtain ⟨-, -, -, rfl⟩ := updateFeeRecipient_ok h
    exact collects_none rfl
  | registerBtcPubkey data =>
    obtain ⟨_, -, -, -, rfl⟩ := registerBtcPubkey_ok h
    exact collects_none rfl

end BtcQuote

namespace BtcUnderlying

variable {env : Env} {tx : Tx} {w w' : State} {r : Response} {i t s e a p : ℕ}

/-- A registered key is what the slot holds. -/
lemma registeredPubkey_ok {q : PoolStorage} {addr : Address} {pubkey : List UInt8}
    (h : q.registeredPubkey addr = .ok pubkey) : (q.pubkeys addr).take 33 = pubkey := by
  simp only [PoolStorage.registeredPubkey, bind_eq_ok, pure_eq, Except.ok.injEq] at h
  obtain ⟨-, -, hpubkey⟩ := h
  exact hpubkey

lemma writeCall_collects (h : writeCall env tx s e a p w = .ok (r, w')) :
    Collects env tx w.pool.premiumToken w.bridge w'.bridge (some ⟨env.sha256
      (Bridge.escrowScript placeholderBuyer ((w.pool.pubkeys tx.sender).take 33)
        (u64Add e w.pool.gracePeriod)), a⟩) := by
  simp only [writeCall, bind_eq_ok, require_eq_ok, Prod.exists, addOption_eq_ok, emit_eq_ok,
    respond_eq_ok, Prod.mk.injEq] at h
  obtain ⟨-, hfits, pubkey, hpubkey, -, hlen, hash, hhash, verified, w₁, hverify, -, rfl, _, _,
    ⟨-, rfl, rfl⟩, _, ⟨-, rfl⟩, -, -, rfl⟩ := h
  obtain ⟨-, rfl⟩ := (queryEscrowScriptHash_eq (by decide) hlen (u64Add_lt _ _)).mp hhash
  rw [registeredPubkey_ok hpubkey]
  have hcollects := queryVerifyBtcOutput_collects w.pool.premiumToken hfits hverify
  exact hcollects

lemma writeOptionBtc_collects (h : writeOptionBtc env tx t s e a p w = .ok (r, w')) :
    Collects env tx w.pool.premiumToken w.bridge w'.bridge
      (due env tx (.writeOptionBtc t s e a p) w) := by
  simp only [writeOptionBtc, bind_eq_ok, OptionsPool.checkType_eq_ok] at h
  obtain ⟨ty, ht, -, -, h⟩ := h
  simp only [due, ht]
  cases ty with
  | CALL => exact writeCall_collects h
  | PUT =>
    simp only [writePut, bind_eq_ok, Prod.exists, addOption_eq_ok, transferFrom_eq_ok, emit_eq_ok,
      respond_eq_ok, Prod.mk.injEq] at h
    obtain ⟨_, _, ⟨-, rfl, rfl⟩, _, -, _, ⟨l, -, rfl⟩, _, ⟨-, rfl⟩, -, -, rfl⟩ := h
    exact collects_none rfl

lemma exercise_collects (h : exercise env tx i w = .ok (r, w')) :
    Collects env tx w.pool.premiumToken w.bridge w'.bridge (due env tx (.exercise i) w) := by
  simp only [exercise, bind_eq_ok, require_eq_ok, emit_eq_ok, respond_eq_ok, Prod.exists,
    Prod.mk.injEq] at h
  obtain ⟨-, -, -, -, -, -, -, -, -, -, value, -, fee, w₃, hpay, _, ⟨-, rfl⟩, -, -, rfl⟩ := h
  cases htype : (w.option i).optionType with
  | CALL =>
    simp only [exchange, htype] at hpay
    obtain ⟨_, -, -, -, -, hw₃⟩ := exerciseCall_ok hpay
    have hbridge := congrArg World.bridge hw₃
    simp only [due, htype]
    exact collects_none hbridge
  | PUT =>
    simp only [exchange, htype, exercisePut, bind_eq_ok, require_eq_ok, Prod.exists, transfer_eq_ok,
      pure_eq, Except.ok.injEq, Prod.mk.injEq] at hpay
    obtain ⟨pubkey, hpubkey, -, hlen, -, hfits, hash, hhash, verified, w₁, hverify, -, rfl, _, -, _,
      -, _, ⟨l₁, -, rfl⟩, _, ⟨l₂, -, rfl⟩, rfl, rfl⟩ := hpay
    rw [queryCsvScriptHash_eq hlen (by decide) (by decide), Except.ok.injEq] at hhash
    simp only [due, htype]
    rw [← hhash, ← registeredPubkey_ok hpubkey] at hverify
    have hcollects := queryVerifyBtcOutput_collects w.pool.premiumToken hfits hverify
    exact hcollects

/-- A call collects the bitcoin that is due, and marks nothing else. -/
lemma exec_collects {c : Call} (h : exec env tx c w = .ok (r, w')) :
    Collects env tx w.pool.premiumToken w.bridge w'.bridge (due env tx c w) := by
  cases c with
  | writeOptionBtc t s e a p => exact writeOptionBtc_collects h
  | buyOption i =>
    obtain ⟨_, _, _, -, -, -, -, -, -, -, -, -, rfl⟩ := OptionsPool.buyOption_ok h
    exact collects_none rfl
  | exercise i => exact exercise_collects h
  | cancelOption i =>
    cases htype : (w.option i).optionType with
    | CALL =>
      obtain ⟨-, -, -, rfl⟩ := cancelOption_call htype h
      exact collects_none rfl
    | PUT =>
      obtain ⟨_, _, _, _, -, -, -, -, -, -, -, -, -, rfl⟩ :=
        OptionsPool.cancelOption_ok ((cancelOption_put htype).symm.trans h)
      exact collects_none rfl
  | settle i =>
    cases htype : (w.option i).optionType with
    | CALL =>
      obtain ⟨-, -, -, rfl⟩ := settle_call htype h
      exact collects_none rfl
    | PUT =>
      obtain ⟨_, _, -, -, -, -, -, -, rfl⟩ :=
        OptionsPool.settle_ok ((settle_put htype).symm.trans h)
      exact collects_none rfl
  | getOption i => exact collects_none (congrArg World.bridge (getOption_ok h))
  | updateFeeRecipient newRecipient =>
    obtain ⟨-, -, -, rfl⟩ := updateFeeRecipient_ok h
    exact collects_none rfl
  | registerBtcPubkey data =>
    obtain ⟨_, -, -, -, rfl⟩ := registerBtcPubkey_ok h
    exact collects_none rfl

end BtcUnderlying

lemma PoolType.exec_collects {k : PoolType} {env : Env} {tx : Tx} {c : k.Call} {w w' : World k.Own}
    {r : Response} (h : k.exec env tx c w = .ok (r, w')) :
    Collects env tx w.pool.premiumToken w.bridge w'.bridge (k.due env tx c w) := by
  cases k with
  | op20 => exact collects_none (OptionsPool.exec_bridge h)
  | btcQuote => exact BtcQuote.exec_collects h
  | btcUnderlying => exact BtcUnderlying.exec_collects h

/-! ### Runs of a market -/

/-- An output that was counted for what a call waited for. -/
structure Receipt where
  tx : Tx
  due : Due
  output : TxOutput

/-- The transaction of the call has the output, which pays what is due. -/
structure Receipt.Valid (r : Receipt) : Prop where
  mem : r.output ∈ r.tx.outputs
  script : r.output.scriptPublicKey = some (Bridge.p2wsh r.due.hash.val)
  value : r.due.amount ≤ r.output.value.toNat

/-- The first output of the transaction that pays and was not counted before. -/
def Receipt.find (env : Env) (tx : Tx) (s : BridgeStorage) (d : Due) : List Receipt :=
  ((tx.outputs.find? fun output => Bridge.Pays env s d.hash.val d.amount output).map
    fun output => ⟨tx, d, output⟩).toList

/-- The key under which the bridge remembers an output. -/
def Receipt.key (env : Env) (r : Receipt) : Bytes32 :=
  Bridge.consumedOutputKey env r.due.hash.val r.output.value

namespace Market

variable {ι : Type} [DecidableEq ι] {m : Market ι} {s₀ s s' : m.State} {l : m.Label}
  {h : Lts.History m.State m.Label}

/-- The bitcoin that a step of the market waits for. -/
def Label.dues (s : m.State) : m.Label → List (Tx × Due)
  | .call n tx c _ => ((m.poolType n).due (m.env n) tx c (s.world n)).toList.map (tx, ·)
  | .reverted _ _ _ _ | .bridge _ _ | .tokens => []

/-- The outputs that are counted for it. -/
def Label.receipts (s : m.State) : m.Label → List Receipt
  | .call n tx c _ => ((m.poolType n).due (m.env n) tx c (s.world n)).toList.flatMap
      (Receipt.find (m.env n) tx s.bridge)
  | .reverted _ _ _ _ | .bridge _ _ | .tokens => []

def Label.Mined : m.Label → Prop
  | .call _ tx _ _ | .reverted _ tx _ _ | .bridge tx _ => tx.Mined
  | .tokens => True

/-- What is held by the bridge in a state of the market. -/
def Held (s : m.State) (key : Bytes32) : Prop := Bridge.hasStorageAt s.bridge key

abbrev SpendsReceipts (m : Market ι) (s : m.State) (l : m.Label) (s' : m.State) :=
  Lts.Spends (Receipt.key m.chain) Held Label.receipts s l s'

/-- Every amount that is due is paid by the output that is counted for it. -/
structure Settles (s : m.State) (l : m.Label) : Prop where
  complete : (l.receipts s).map (fun r => (r.tx, r.due)) = l.dues s
  valid : ∀ r ∈ l.receipts s, r.Valid

omit [DecidableEq ι] in
lemma spends_of_marks (hnone : l.receipts s = []) (h : Bridge.Marks s.bridge s'.bridge) :
    m.SpendsReceipts s l s' := by
  refine ⟨h, ?_, ?_, ?_⟩
  · simp [hnone]
  · simp [hnone]
  · simp [hnone]

/-- A call that collects what is due has an output for it, which the bridge marks. -/
lemma collects_receipt {env : Env} {tx : Tx} {token : Address} {d : Due} {b b' : BridgeStorage}
    (h : Collects env tx token b b' (some d)) :
    ∃ output ∈ tx.outputs, Bridge.Pays env b d.hash.val d.amount output ∧
      Receipt.find env tx b d = [⟨tx, d, output⟩] ∧
      b' = Bridge.setStorageAt b (Bridge.consumedOutputKey env d.hash.val output.value)
        (Bytes32.ofNat 1) := by
  rw [Collects, Bridge.scanOutputs_eq d.hash.property] at h
  cases hfind : tx.outputs.find? fun output => Bridge.Pays env b d.hash.val d.amount output with
  | none =>
    rw [hfind] at h
    cases h
  | some output =>
    rw [hfind] at h
    cases h
    have hpays := List.find?_some hfind
    refine ⟨output, List.mem_of_find?_eq_some hfind, of_decide_eq_true hpays, ?_, rfl⟩
    rw [Receipt.find, hfind]
    rfl

lemma Step.settles (hstep : m.Step s l s') (hmined : l.Mined) :
    Settles s l ∧ m.SpendsReceipts s l s' := by
  cases hstep with
  | @call n tx c r w htx hexec =>
    have hcollects := PoolType.exec_collects hexec
    cases hdue : (m.poolType n).due (m.env n) tx c (s.world n) with
    | none =>
      rw [hdue] at hcollects
      refine ⟨⟨?_, ?_⟩, spends_of_marks ?_ (hcollects.marks hmined)⟩
      all_goals simp [Label.receipts, Label.dues, hdue]
    | some d =>
      rw [hdue] at hcollects
      obtain ⟨output, hmem, hpays, hfind, hbridge⟩ := collects_receipt hcollects
      have hreceipts : Label.receipts s (.call n tx c r) = [⟨tx, d, output⟩] := by
        simp only [Label.receipts, hdue, Option.toList_some, List.flatMap_singleton]
        exact hfind
      refine ⟨⟨?_, ?_⟩, ?_, ?_, ?_, ?_⟩
      · rw [hreceipts, Label.dues, hdue]
        rfl
      · rw [hreceipts]
        simp only [List.mem_singleton, forall_eq]
        exact ⟨hmem, hpays.script, hpays.value⟩
      · intro key hkey
        show Bridge.hasStorageAt w.bridge key
        rw [hbridge]
        exact Bridge.marks_mark key hkey
      · rw [hreceipts]
        simp only [List.mem_singleton, forall_eq]
        exact hpays.fresh
      · rw [hreceipts]
        simp only [List.mem_singleton, forall_eq]
        show Bridge.hasStorageAt w.bridge _
        rw [hbridge]
        exact Bridge.hasStorageAt_mark
      · rw [hreceipts]
        exact List.nodup_singleton _
  | reverted => exact ⟨⟨rfl, by simp [Label.receipts]⟩, spends_of_marks rfl .refl⟩
  | tokens => exact ⟨⟨rfl, by simp [Label.receipts]⟩, spends_of_marks rfl .refl⟩
  | @bridge tx c bridge h =>
    refine ⟨⟨rfl, by simp [Label.receipts]⟩, spends_of_marks rfl ?_⟩
    cases c with
    | getBtcPrice calldata =>
      simp only [BridgeCall.exec, bind_eq_ok, Prod.exists, pure_eq, Except.ok.injEq] at h
      obtain ⟨price, _, hcall, rfl⟩ := h
      exact Bridge.getBtcPrice_marks hmined hcall
    | verifyBtcOutput calldata =>
      simp only [BridgeCall.exec, bind_eq_ok, Prod.exists, pure_eq, Except.ok.injEq] at h
      obtain ⟨found, _, hcall, rfl⟩ := h
      exact Bridge.verifyBtcOutput_marks hcall

/-- In every run of a market each call that waits for bitcoin is settled by an output of its own
transaction, and all of these outputs differ in their script or their value: no payment is counted
twice, whichever of the pools are called. -/
theorem btc_collected_once (hrun : Lts.Run m.Step s₀ h s) (hmined : ∀ p ∈ h, p.1.Mined) :
    (Lts.collect Label.receipts s₀ h).map (fun r => (r.tx, r.due)) = Lts.collect Label.dues s₀ h ∧
    (∀ r ∈ Lts.collect Label.receipts s₀ h, r.Valid) ∧
    ((Lts.collect Label.receipts s₀ h).map fun r => (r.due.hash, r.output.value)).Nodup := by
  have hsettles : ∀ t l u, (l, u) ∈ h → m.Step t l u → Settles t l ∧ m.SpendsReceipts t l u :=
    fun t l u hmem hstep => hstep.settles (hmined _ hmem)
  refine ⟨?_, ?_, ?_⟩
  · rw [Lts.map_collect]
    exact Lts.collect_congr hrun fun t l u hmem hstep => (hsettles t l u hmem hstep).1.complete
  · exact Lts.collect_forall hrun fun t l u hmem hstep => (hsettles t l u hmem hstep).1.valid
  · have hkeys := (Lts.nodup_collect hrun fun t l u hmem hstep => (hsettles t l u hmem hstep).2).1
    -- the key of a receipt is a function of its script and value
    refine List.Nodup.of_map
      (fun p => Bridge.consumedOutputKey m.chain p.1.val p.2) (?_ : (List.map _ _).Nodup)
    rw [List.map_map]
    exact hkeys

lemma mined_replayed {calls : List m.PoolCall} (hmined : ∀ p ∈ calls, p.2.1.Mined) :
    ∀ q ∈ replayed s calls, q.1.Mined := by
  intro q hq
  obtain ⟨p, hp, r, hcall⟩ := mem_replayed hq
  rw [hcall]
  exact hmined p hp

/-! ### Bitcoin for two pools -/

namespace Testnet

open Frogop.Testnet (tx)

/-- The escrow of a CALL that account 10 writes in the type-2 pool. -/
def escrow : Bytes32 := market.chain.sha256
  (Bridge.escrowScript BtcUnderlying.placeholderBuyer BtcUnderlying.Testnet.writerPub 1144)

/-- Account 11 buys an option of the type-1 pool for 100 satoshis, and account 10 writes a CALL in
the type-2 pool with 100 satoshis as collateral. -/
def paying : List market.PoolCall :=
  (BtcQuote.Testnet.selling (10 ^ 18) 4).map (fun p => ⟨.btcQuote, p⟩) ++
    [⟨.btcUnderlying, tx 10 103, .registerBtcPubkey BtcUnderlying.Testnet.writerPub⟩,
      ⟨.btcUnderlying, { tx 10 103 with outputs := [⟨some (Bridge.p2wsh escrow.val), 100⟩] },
        .writeOptionBtc 0 (10 ^ 18) 1000 100 50⟩]

def paid : market.State :=
  match paying.foldlM callPool start with
  | .ok s => s
  | .error _ => start

lemma paying_mined : ∀ p ∈ paying, market.FromAccount p.2.1 ∧ p.2.1.Mined := by
  have hsender : ∀ q : Tx, q.sender = Frogop.Testnet.account 10 ∨
      q.sender = Frogop.Testnet.account 11 → market.FromAccount q := by
    rintro q (hq | hq)
    all_goals exact ⟨fun k => by cases k <;> rw [hq] <;> decide, by rw [hq]; decide⟩
  have hall : ∀ p ∈ paying, (p.2.1.sender = Frogop.Testnet.account 10 ∨
      p.2.1.sender = Frogop.Testnet.account 11) ∧ 0 < p.2.1.block ∧ p.2.1.block < u64Size := by
    simp only [paying, List.map_append, BtcQuote.Testnet.selling, BtcQuote.Testnet.writing,
      List.map_cons, List.map_nil, List.forall_mem_append, List.forall_mem_cons,
      List.not_mem_nil, false_imp_iff, implies_true, and_true]
    decide
  exact fun p hp => ⟨hsender _ (hall p hp).1, (hall p hp).2⟩

end Testnet

/-- One payment for each pool. -/
theorem btc_collected_once_paid :
    ((Lts.collect Label.receipts Testnet.start (replayed Testnet.start Testnet.paying)).map
      fun r => (r.due.hash, r.output.value)).Nodup ∧
    (Lts.collect Label.dues Testnet.start (replayed Testnet.start Testnet.paying)).map Prod.snd
      = [⟨BtcQuote.Testnet.csvScriptHash, 100⟩, ⟨Testnet.escrow, 100⟩] := by
  have hrun : Lts.Run Testnet.market.Step Testnet.start (replayed Testnet.start Testnet.paying)
      Testnet.paid := run_replayed (fun p hp => (Testnet.paying_mined p hp).1) rfl
  have hmined := mined_replayed (s := Testnet.start) fun p hp => (Testnet.paying_mined p hp).2
  exact ⟨(btc_collected_once hrun hmined).2.2, rfl⟩

end Market

end Frogop
