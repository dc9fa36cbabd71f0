import Frogop.Indexer.BtcPools
import Frogop.Pool.BtcSolvency

/-!
# The three kinds of pools

`PoolType` of `shared/pool-config.types.ts` with the contract of each kind, and what the
developments of the three contracts say of all of them.
-/

namespace Frogop

open Indexer

/-- `PoolType`: 0 for OP20/OP20, 1 for OP20/BTC, 2 for BTC/OP20. -/
inductive PoolType
  | op20
  | btcQuote
  | btcUnderlying
  deriving DecidableEq, Repr

namespace PoolType

/-- What a pool stores beyond the base contract. -/
def Own : PoolType → Type
  | op20 => Unit
  | btcQuote => BtcQuote.Storage
  | btcUnderlying => BtcUnderlying.Storage

def Call : PoolType → Type
  | op20 => OptionsPool.Call
  | btcQuote => BtcQuote.Call
  | btcUnderlying => BtcUnderlying.Call

def exec : (k : PoolType) → Env → Tx → k.Call → World k.Own → Except Revert (Reply k.Own)
  | op20 => OptionsPool.exec
  | btcQuote => BtcQuote.exec
  | btcUnderlying => BtcUnderlying.exec

def Deployed : (k : PoolType) → World k.Own → Prop
  | op20 => Frogop.Deployed
  | btcQuote => BtcQuote.Deployed
  | btcUnderlying => BtcUnderlying.Deployed

/-- The options a pool holds collateral for. -/
def isLive : PoolType → OptionRecord → Bool
  | op20 => OptionsPool.isLive
  | btcQuote => BtcQuote.isLive
  | btcUnderlying => BtcUnderlying.isLive

/-- The transfers a call makes. -/
def payments : (k : PoolType) → Env → Tx → k.Call → World k.Own → List Payment
  | op20 => OptionsPool.payments
  | btcQuote => BtcQuote.payments
  | btcUnderlying => BtcUnderlying.payments

variable {k : PoolType} {env : Env} {others : Ledger → Ledger → Prop} {w₀ w w' : World k.Own}
  {h : Lts.History (World k.Own) (Label k.Call)} {tx : Tx} {c : k.Call} {r : Response}

lemma Deployed.base (hdep : k.Deployed w) : Frogop.Deployed w := by
  cases k with
  | op20 => exact hdep
  | btcQuote => exact BtcQuote.Deployed.base hdep
  | btcUnderlying => exact BtcUnderlying.Deployed.base hdep

/-- What a pool owes stays covered as long as nobody else takes its tokens. -/
lemma covered_of_run (hdep : k.Deployed w₀)
    (hrun : Lts.Run (Step env (Ledger.GrowsAt env.contractAddress) (k.exec env)) w₀ h w) :
    Covered k.isLive env w := by
  cases k with
  | op20 => exact OptionsPool.covered_of_run hdep hrun
  | btcQuote => exact BtcQuote.covered_of_run hdep hrun
  | btcUnderlying => exact BtcUnderlying.covered_of_run hdep hrun

/-- A call after a run makes the payments that are listed for it. -/
lemma pays_of_run (hdep : k.Deployed w₀) (hrun : Lts.Run (Step env others (k.exec env)) w₀ h w)
    (htx : tx.FromAccount env) (hexec : k.exec env tx c w = .ok (r, w')) :
    Pays env.contractAddress w.ledger (k.payments env tx c w) w'.ledger := by
  cases k with
  | op20 =>
    exact (OptionsPool.reflected env ⟨[], fun _ => none, fun _ => none⟩ "" tx c w r w'
      (OptionsPool.table_of_run hdep hrun) htx hexec).pays
  | btcQuote =>
    exact (BtcQuote.reflected env ⟨[], fun _ => none, fun _ => none⟩ "" tx c w r w'
      ⟨h, BtcQuote.twoPhase_of_run hdep hrun⟩ htx hexec).pays
  | btcUnderlying =>
    exact (BtcUnderlying.reflected env ⟨[], fun _ => none, fun _ => none⟩ "" tx c w r w'
      (BtcUnderlying.table_of_run hdep hrun) htx hexec).pays

/-- The rows of a pool that is reported to the indexer mirror it, and its grace period never
changes. -/
lemma mirrors_of_run {tracking : Tracking} {pool : String} {blocks : List Block} {db : Database}
    (hdep : k.Deployed w₀) (hrun : Lts.Run (Step env others (k.exec env)) w₀ h w)
    (htracked : pool ∈ tracking.trackedPools)
    (hgrace : tracking.poolGracePeriods pool = some w.pool.gracePeriod)
    (hindexable : w.pool.Indexable)
    (hreport : poolEvents pool blocks = w.events.map (Event.reported pool))
    (hempty : db.optionsOf pool = []) :
    Mirrors pool w.pool ((db.batch (decodeBlocks tracking blocks)).optionsOf pool) := by
  cases k with
  | op20 =>
    exact (OptionsPool.reflected env tracking pool).mirrors
      (fun _ _ hrun => OptionsPool.table_of_run hdep hrun) hdep hrun htracked hgrace hindexable
      hreport hempty
  | btcQuote =>
    exact (BtcQuote.reflected env tracking pool).mirrors
      (fun h w hrun => ⟨h, BtcQuote.twoPhase_of_run hdep hrun⟩) hdep.base hrun htracked hgrace
      hindexable hreport hempty
  | btcUnderlying =>
    exact (BtcUnderlying.reflected env tracking pool).mirrors
      (fun _ _ hrun => BtcUnderlying.table_of_run hdep hrun) hdep.base hrun htracked hgrace
      hindexable hreport hempty

lemma frame_of_run (hdep : k.Deployed w₀) (hrun : Lts.Run (Step env others (k.exec env)) w₀ h w) :
    w.pool.gracePeriod = w₀.pool.gracePeriod ∧ w.pool.nextId ≤ u256Size := by
  cases k with
  | op20 =>
    exact (OptionsPool.reflected env ⟨[], fun _ => none, fun _ => none⟩ "").frame
      (fun _ _ hrun => OptionsPool.table_of_run hdep hrun) hdep hrun
  | btcQuote =>
    exact (BtcQuote.reflected env ⟨[], fun _ => none, fun _ => none⟩ "").frame
      (fun h w hrun => ⟨h, BtcQuote.twoPhase_of_run hdep hrun⟩) hdep.base hrun
  | btcUnderlying =>
    exact (BtcUnderlying.reflected env ⟨[], fun _ => none, fun _ => none⟩ "").frame
      (fun _ _ hrun => BtcUnderlying.table_of_run hdep hrun) hdep.base hrun

lemma gracePeriod_of_run (hdep : k.Deployed w₀)
    (hrun : Lts.Run (Step env others (k.exec env)) w₀ h w) :
    w.pool.gracePeriod = w₀.pool.gracePeriod := (frame_of_run hdep hrun).1

lemma nextId_le_of_run (hdep : k.Deployed w₀)
    (hrun : Lts.Run (Step env others (k.exec env)) w₀ h w) : w.pool.nextId ≤ u256Size :=
  (frame_of_run hdep hrun).2

end PoolType

/-! ### Who pays -/

/-- The payments of a call are made by the pool or by the caller. -/
def PaidBy (env : Env) (tx : Tx) (ps : List Payment) : Prop :=
  ∀ p ∈ ps, p.payer = env.contractAddress ∨ p.payer = tx.sender

section

variable {env : Env} {tx : Tx} {p : PoolStorage} {o : OptionRecord} {q : Payment}
  {ps ps' : List Payment}

@[simp] lemma paidBy_nil : PaidBy env tx [] := by simp [PaidBy]

@[simp] lemma paidBy_cons : PaidBy env tx (q :: ps) ↔
    (q.payer = env.contractAddress ∨ q.payer = tx.sender) ∧ PaidBy env tx ps := by
  simp [PaidBy]

@[simp] lemma paidBy_append : PaidBy env tx (ps ++ ps') ↔ PaidBy env tx ps ∧ PaidBy env tx ps' := by
  simp [PaidBy, or_imp, forall_and]

lemma paidBy_flatMap {A : Type*} {f : A → List Payment} {as : List A}
    (h : ∀ a, PaidBy env tx (f a)) : PaidBy env tx (as.flatMap f) := by
  intro q hq
  obtain ⟨a, -, ha⟩ := List.mem_flatMap.mp hq
  exact h a q ha

lemma paidBy_getD {A : Type*} {f : A → List Payment} {a : Option A}
    (h : ∀ a, PaidBy env tx (f a)) : PaidBy env tx ((a.map f).getD []) := by
  cases a with
  | none => simp
  | some a => exact h a

@[simp] lemma paidBy_write {t : OptionType} {s a : ℕ} :
    PaidBy env tx (writePayments env tx p t s a) := by
  simp [writePayments]

@[simp] lemma paidBy_cancelFee : PaidBy env tx (cancelFeePayments env tx p o) := by
  simp only [cancelFeePayments]
  split_ifs <;> simp

@[simp] lemma paidBy_cancel : PaidBy env tx (cancelPayments env tx p o) := by
  simp [cancelPayments]

@[simp] lemma paidBy_buy : PaidBy env tx (buyPayments tx p o) := by simp [buyPayments]

@[simp] lemma paidBy_collateral : PaidBy env tx (collateralPayments env tx p o) := by
  simp [collateralPayments]

@[simp] lemma paidBy_settle : PaidBy env tx (settlePayments env p o) := by simp [settlePayments]

@[simp] lemma OptionsPool.paidBy_exercise :
    PaidBy env tx (OptionsPool.exercisePayments env tx p o) := by
  simp [OptionsPool.exercisePayments]

@[simp] lemma OptionsPool.paidBy_roll {s : ℕ} :
    PaidBy env tx (OptionsPool.rollPayments env tx p o s) := by
  simp only [OptionsPool.rollPayments, paidBy_append, paidBy_cancelFee, true_and]
  split_ifs <;> simp

@[simp] lemma OptionsPool.paidBy_settled {i : ℕ} :
    PaidBy env tx (OptionsPool.settledPayments env tx p i) := by
  simp only [OptionsPool.settledPayments]
  split_ifs <;> simp

@[simp] lemma BtcQuote.paidBy_exercise : PaidBy env tx (BtcQuote.exercisePayments env tx p o) := by
  unfold BtcQuote.exercisePayments
  split <;> simp

@[simp] lemma BtcUnderlying.paidBy_write {s a : ℕ} {t : OptionType} :
    PaidBy env tx (BtcUnderlying.writeOptionPayments env tx p s a t) := by
  cases t <;> simp [BtcUnderlying.writeOptionPayments]

@[simp] lemma BtcUnderlying.paidBy_exercise :
    PaidBy env tx (BtcUnderlying.exercisePayments env tx p o) := by
  unfold BtcUnderlying.exercisePayments
  split <;> simp

lemma OptionsPool.paidBy_payments (c : OptionsPool.Call) (w : OptionsPool.State) :
    PaidBy env tx (OptionsPool.payments env tx c w) := by
  cases c with
  | writeOption t s e a p => exact paidBy_getD fun _ => paidBy_write
  | cancelOption | buyOption | exercise | settle | rollOption => simp [OptionsPool.payments]
  | batchCancel | batchSettle => exact paidBy_flatMap fun _ => by simp
  | transferOption | updateFeeRecipient | registerBtcPubkey => exact paidBy_nil

lemma BtcQuote.paidBy_payments (c : BtcQuote.Call) (w : BtcQuote.State) :
    PaidBy env tx (BtcQuote.payments env tx c w) := by
  cases c with
  | writeOption t s e a p => exact paidBy_getD fun _ => paidBy_write
  | exercise | cancelOption | settle => simp [BtcQuote.payments]
  | _ => exact paidBy_nil

lemma BtcUnderlying.paidBy_payments (c : BtcUnderlying.Call) (w : BtcUnderlying.State) :
    PaidBy env tx (BtcUnderlying.payments env tx c w) := by
  cases c with
  | writeOptionBtc t s e a p => exact paidBy_getD fun _ => BtcUnderlying.paidBy_write
  | buyOption | exercise => simp [BtcUnderlying.payments]
  | cancelOption | settle =>
    simp only [BtcUnderlying.payments]
    split <;> simp
  | _ => exact paidBy_nil

lemma PoolType.paidBy_payments {k : PoolType} (c : k.Call) (w : World k.Own) :
    PaidBy env tx (k.payments env tx c w) := by
  cases k with
  | op20 => exact OptionsPool.paidBy_payments c w
  | btcQuote => exact BtcQuote.paidBy_payments c w
  | btcUnderlying => exact BtcUnderlying.paidBy_payments c w

end

/-- Payments leave the balances of everybody who pays none of them, and at most add to them. -/
lemma Pays.growsAt {self a : Address} {l l' : Ledger} {ps : List Payment} (h : Pays self l ps l')
    (ha : ∀ p ∈ ps, p.payer ≠ a) : l.GrowsAt a l' := by
  induction h with
  | nil => exact fun _ => le_rfl
  | cons hpay _ ih =>
    intro token
    refine le_trans ?_ (ih (fun p hp => ha p (List.mem_cons_of_mem _ hp)) token)
    have hentries := Ledger.transferFrom_entries hpay token a
    rw [Ledger.entry_of_ne (ha _ List.mem_cons_self).symm, Nat.add_zero] at hentries
    exact hentries ▸ Nat.le_add_right _ _

end Frogop
