import Frogop.Pool.BridgeCalls
import Frogop.Router.Basic

/-!
# The router adds nothing to its legs

The arguments of a leg reach the pool as they were given (`writeLeg_eq`), and the id the pool
returns comes back as it was written. So each router call is the two direct calls bound together.
-/

namespace Frogop.Router

open Outcome

/-! ### Terms of a written option -/

/-- The arguments of `writeOption`, in the ranges of their types. -/
structure WriteTerms where
  optionType : ℕ
  strikePrice : ℕ
  expiryBlock : ℕ
  underlyingAmount : ℕ
  premium : ℕ
  optionType_lt : optionType < 256
  strikePrice_lt : strikePrice < u256Size
  expiryBlock_lt : expiryBlock < u64Size
  underlyingAmount_lt : underlyingAmount < u256Size
  premium_lt : premium < u256Size

namespace WriteTerms

def fields (t : WriteTerms) : List Field :=
  [.u8 t.optionType, .u256 t.strikePrice, .u64 t.expiryBlock, .u256 t.underlyingAmount,
    .u256 t.premium]

/-- The wallet calls `writeOption` itself. -/
def write {σ : Type} (t : WriteTerms) (env : Env) (tx : Tx) (w : World σ) :
    Except Revert (Reply σ) :=
  OptionsPool.writeOption env tx t.optionType t.strikePrice t.expiryBlock t.underlyingAmount
    t.premium w

end WriteTerms

/-- The calldata of `executeSpread`. -/
def spreadCalldata (pool : Address) (t : WriteTerms) (buyOptionId : ℕ) : List UInt8 :=
  (Field.address pool :: (t.fields ++ [Field.u256 buyOptionId])).flatMap Field.encode

/-- The calldata of `executeDualWrite`. -/
def dualWriteCalldata (pool : Address) (t t' : WriteTerms) : List UInt8 :=
  (Field.address pool :: (t.fields ++ t'.fields)).flatMap Field.encode

section

variable {σ : Type} {router env : Env} {tx : Tx} {contracts : Address → Contract σ} {pool : Address}
  {w w' : World σ} {r : Response}

/-- `writeOption`, then `buyOption`, both called by the wallet; the reply of the first. -/
def writeThenBuy (env : Env) (tx : Tx) (t : WriteTerms) (buyOptionId : ℕ) (w : World σ) :
    Except Revert (Reply σ) := do
  let (r, w) ← t.write env tx w
  let (_, w) ← OptionsPool.buyOption env tx buyOptionId w
  return (r, w)

/-- `writeOption` twice, both called by the wallet; the reply of the first. -/
def writeTwice (env : Env) (tx : Tx) (t t' : WriteTerms) (w : World σ) :
    Except Revert (Reply σ) := do
  let (r, w) ← t.write env tx w
  let (_, w) ← t'.write env tx w
  return (r, w)

/-! ### One leg -/

/-- The pool reads the terms as they were written, whatever follows them. -/
lemma dispatch_writeOption (t : WriteTerms) (rest : List UInt8) :
    OptionsPool.dispatch env tx .writeOption (t.fields.flatMap Field.encode ++ rest) w
      = t.write env tx w := by
  simp only [WriteTerms.fields, List.flatMap_cons, List.flatMap_nil, List.append_nil,
    List.append_assoc, OptionsPool.dispatch, readU8_encode t.optionType_lt, ok_bind,
    readU256_encode t.strikePrice_lt, readU64_encode t.expiryBlock_lt,
    readU256_encode t.underlyingAmount_lt, readU256_encode t.premium_lt]
  rfl

lemma dispatch_buyOption {optionId : ℕ} (hid : optionId < u256Size) :
    OptionsPool.dispatch env tx .buyOption (Field.encode (.u256 optionId)) w
      = OptionsPool.buyOption env tx optionId w := by
  have hread := readU256_encode hid []
  rw [List.append_nil] at hread
  simp only [OptionsPool.dispatch, hread, ok_bind]

/-- A call that stops on failure is the call itself. -/
lemma blockchainCall_eq {selector : Selector} {calldata : List UInt8} :
    blockchainCall contracts pool selector calldata true w
      = contracts pool selector calldata w >>= fun reply =>
        .ok (⟨true, reply.1.flatMap Field.encode⟩, reply.2) := by
  rw [blockchainCall]
  cases contracts pool selector calldata w <;> rfl

/-- A leg that writes is `writeOption` called by the wallet. -/
lemma writeLeg_eq (hpool : contracts pool = OptionsPool.dispatch env tx) (message : String)
    (t : WriteTerms) :
    writeLeg router contracts message pool t.optionType t.strikePrice t.expiryBlock
        t.underlyingAmount t.premium w
      = t.write env tx w >>= fun reply => .ok (reply.1.flatMap Field.encode, reply.2) := by
  have hfits : router.callData 140 t.fields = .ok (buffer 136 t.fields) :=
    callData_eq_ok.mpr ⟨.inr (by simp [WriteTerms.fields, Field.width]), rfl⟩
  rw [writeLeg]
  change (router.callData 140 t.fields >>= _) = _
  rw [hfits, ok_bind, blockchainCall_eq, hpool, buffer, dispatch_writeOption]
  cases t.write env tx w with
  | error e => rfl
  | ok reply => rfl

/-- The id a successful `writeOption` returns is read back from its response. -/
lemma read_written {t : WriteTerms} (h : t.write env tx w = .ok (r, w')) :
    ∃ optionId, r = [.u256 optionId] ∧
      readU256 (r.flatMap Field.encode) = .ok (optionId, []) := by
  simp only [WriteTerms.write, OptionsPool.writeOption, bind_eq_ok, World.addOption_eq_ok,
    World.respond_eq_ok, Prod.mk.injEq] at h
  obtain ⟨_, -, -, -, _, -, _, ⟨hnext, rfl⟩, _, -, _, -, -, rfl, -⟩ := h
  refine ⟨w.pool.nextId, rfl, ?_⟩
  have hread := readU256_encode (n := w.pool.nextId) (by omega) []
  simpa using hread

/-! ### Both methods -/

/-- With calldata in the ranges of its types, `executeSpread` makes its two checks and the two
calls. -/
lemma executeSpread_eq (hpool : contracts pool = OptionsPool.dispatch env tx)
    (hzero : pool ≠ Address.zero) (t : WriteTerms) {buyOptionId : ℕ}
    (hid : buyOptionId < u256Size) :
    executeSpread router contracts (spreadCalldata pool t buyOptionId) w
      = require (buyOptionId ≠ 0) (.revert "Invalid buy option ID") >>= fun _ =>
        writeThenBuy env tx t buyOptionId w := by
  have hread := readU256_encode hid []
  rw [List.append_nil] at hread
  have hbuffer : buffer 32 [.u256 buyOptionId] = Field.encode (.u256 buyOptionId) := by
    simp [buffer, Field.width]
  have hfits : router.callData 36 [.u256 buyOptionId] = .ok (buffer 32 [.u256 buyOptionId]) :=
    callData_eq_ok.mpr ⟨.inr (by simp [Field.width]), rfl⟩
  simp only [spreadCalldata, WriteTerms.fields, List.flatMap_append, List.flatMap_cons,
    List.flatMap_nil, List.append_nil, List.append_assoc, executeSpread, readAddress_encode,
    ok_bind,
    readU8_encode t.optionType_lt, readU256_encode t.strikePrice_lt,
    readU64_encode t.expiryBlock_lt, readU256_encode t.underlyingAmount_lt,
    readU256_encode t.premium_lt, hread]
  rw [require_of hzero, ok_bind]
  refine bind_congr fun _ _ => ?_
  rw [writeLeg_eq hpool, bind_assoc, writeThenBuy]
  refine bind_congr fun reply hwrite => ?_
  obtain ⟨newOptionId, hr, hback⟩ := read_written hwrite
  simp only [ok_bind, hback, hfits, blockchainCall_eq, hpool, hbuffer, dispatch_buyOption hid]
  rw [bind_assoc]
  refine bind_congr fun reply' _ => ?_
  rw [ok_bind]
  dsimp only
  rw [require_of rfl, ok_bind, hr, pure_eq]
  exact World.respond_eq_ok.mpr ⟨.inr (by simp [Field.width]), rfl⟩

lemma executeDualWrite_eq (hpool : contracts pool = OptionsPool.dispatch env tx)
    (hzero : pool ≠ Address.zero) (t t' : WriteTerms) :
    executeDualWrite router contracts (dualWriteCalldata pool t t') w
      = writeTwice env tx t t' w := by
  have hread := readU256_encode t'.premium_lt []
  rw [List.append_nil] at hread
  simp only [dualWriteCalldata, WriteTerms.fields, List.flatMap_append, List.flatMap_cons,
    List.flatMap_nil, List.append_nil, List.append_assoc, executeDualWrite, readAddress_encode,
    ok_bind, readU8_encode t.optionType_lt, readU256_encode t.strikePrice_lt,
    readU64_encode t.expiryBlock_lt, readU256_encode t.underlyingAmount_lt,
    readU256_encode t.premium_lt, readU8_encode t'.optionType_lt,
    readU256_encode t'.strikePrice_lt, readU64_encode t'.expiryBlock_lt,
    readU256_encode t'.underlyingAmount_lt, hread, require_of hzero]
  rw [writeLeg_eq hpool, bind_assoc, writeTwice]
  refine bind_congr fun reply hwrite => ?_
  obtain ⟨optionId, hr, hback⟩ := read_written hwrite
  simp only [ok_bind, hback]
  rw [writeLeg_eq hpool, bind_assoc]
  refine bind_congr fun reply' _ => ?_
  rw [ok_bind, hr, pure_eq]
  exact World.respond_eq_ok.mpr ⟨.inr (by simp [Field.width]), rfl⟩

/-! ### All or nothing -/

/-- The world after a call; a call that reverts leaves it as it was. -/
def commit (call : World σ → Except Revert (Reply σ)) (w : World σ) : World σ :=
  match call w with
  | .ok (_, w') => w'
  | .error _ => w

/-- A routed call has the reply and the world of the direct calls when all of them go through, and
otherwise changes nothing. -/
structure AllOrNothing (routed direct : World σ → Except Revert (Reply σ)) (w : World σ) :
    Prop where
  ok_iff : ∀ r w', routed w = .ok (r, w') ↔ direct w = .ok (r, w')
  reverted : (∀ r w', direct w ≠ .ok (r, w')) → commit routed w = w

lemma AllOrNothing.of_eq {routed direct : World σ → Except Revert (Reply σ)}
    (h : routed w = direct w) : AllOrNothing routed direct w := by
  refine ⟨fun r w' => by rw [h], fun hfail => ?_⟩
  rw [commit]
  rw [h]
  cases hdirect : direct w with
  | error e => rfl
  | ok reply => exact absurd hdirect (hfail reply.1 reply.2)

/-- Whatever the pool holds, `executeDualWrite` is two calls of `writeOption`, and `executeSpread`
is `writeOption` and `buyOption` for every option but number `0`, which it refuses. -/
theorem routed_eq_direct (hpool : contracts pool = OptionsPool.dispatch env tx)
    (hzero : pool ≠ Address.zero) (w : World σ) :
    (∀ t buyOptionId, buyOptionId < u256Size → buyOptionId ≠ 0 →
      AllOrNothing (executeSpread router contracts (spreadCalldata pool t buyOptionId))
        (writeThenBuy env tx t buyOptionId) w) ∧
      (∀ t, executeSpread router contracts (spreadCalldata pool t 0) w
        = .error (.revert "Invalid buy option ID")) ∧
      ∀ t t', AllOrNothing (executeDualWrite router contracts (dualWriteCalldata pool t t'))
        (writeTwice env tx t t') w := by
  refine ⟨fun t buyOptionId hid hne => .of_eq ?_, fun t => ?_, fun t t' => .of_eq ?_⟩
  · rw [executeSpread_eq hpool hzero t hid, require_of hne, ok_bind]
  · rw [executeSpread_eq hpool hzero t (by decide), require_of_not (not_not.mpr rfl), error_bind]
  · exact executeDualWrite_eq hpool hzero t t'

end

/-! ### A pool with one option for sale -/

namespace Testnet

open OptionsPool.Testnet (env written)

/-- A CALL on 4 units. -/
def terms : WriteTerms where
  optionType := 0
  strikePrice := 10 ^ 18
  expiryBlock := 1000
  underlyingAmount := 4
  premium := 100
  optionType_lt := by decide
  strikePrice_lt := by decide
  expiryBlock_lt := by decide
  underlyingAmount_lt := by decide
  premium_lt := by decide

/-- The pool is the only contract called. -/
def contracts (sender block : ℕ) : Address → Contract Unit :=
  fun _ => OptionsPool.dispatch env (Frogop.Testnet.tx sender block)

/-- Account 11 cannot buy the first option of a pool through the router, which it can buy itself. -/
theorem routed_refuses_first :
    ¬ ∀ t buyOptionId,
      (written (10 ^ 18) 4 100).pool.options.existsAt buyOptionId →
      AllOrNothing
        (executeSpread env (contracts 11 101) (spreadCalldata env.contractAddress t buyOptionId))
        (writeThenBuy env (Frogop.Testnet.tx 11 101) t buyOptionId) (written (10 ^ 18) 4 100) := by
  intro h
  have hfirst := h terms 0 (by decide)
  have hdirect : (writeThenBuy env (Frogop.Testnet.tx 11 101) terms 0
      (written (10 ^ 18) 4 100)).isOk = true := by decide
  have hpool : contracts 11 101 env.contractAddress
      = OptionsPool.dispatch env (Frogop.Testnet.tx 11 101) := rfl
  have hrouted : executeSpread env (contracts 11 101)
      (spreadCalldata env.contractAddress terms 0) (written (10 ^ 18) 4 100)
      = require (0 ≠ 0) (.revert "Invalid buy option ID") >>= fun _ =>
        writeThenBuy env (Frogop.Testnet.tx 11 101) terms 0 (written (10 ^ 18) 4 100) :=
    executeSpread_eq hpool (by decide) terms (by decide)
  cases hreply : writeThenBuy env (Frogop.Testnet.tx 11 101) terms 0 (written (10 ^ 18) 4 100) with
  | error e =>
    rw [hreply] at hdirect
    cases hdirect
  | ok reply =>
    have hboth := (hfirst.ok_iff reply.1 reply.2).mpr hreply
    rw [hrouted, require_of_not (not_not.mpr rfl)] at hboth
    cases hboth

/-- The second option of a pool is bought through the router as it is directly. -/
theorem routed_eq_direct_testnet :
    AllOrNothing
      (executeSpread env (contracts 11 102) (spreadCalldata env.contractAddress terms 1))
      (writeThenBuy env (Frogop.Testnet.tx 11 102) terms 1)
      (commit (executeDualWrite env (contracts 10 101)
        (dualWriteCalldata env.contractAddress terms terms)) (written (10 ^ 18) 4 100)) := by
  have hpool : contracts 11 102 env.contractAddress
      = OptionsPool.dispatch env (Frogop.Testnet.tx 11 102) := rfl
  exact (routed_eq_direct hpool (by decide) _).1 terms 1 (by decide) (by decide)

end Testnet

end Frogop.Router
