import Frogop.Pool.OptionsPool.Arithmetic
import Frogop.Pool.OptionsPool.Payouts

/-!
# Batches of cancellations and settlements

`batchCancel` is `cancelOption` for one id after the other, and `batchSettle` is `settle` for the
ids that can be settled. The order of the ids matters only where a payout of the pool may return to
the pool, and there only to a pool that lacks what it owes.
-/

namespace Frogop.OptionsPool

open Outcome World Ledger

/-! ### One call after the other -/

/-- A method called for one id after the other. -/
def each (method : ℕ → State → Except Revert (Reply Unit)) (ids : List ℕ) (w : State) :
    Except Revert State :=
  ids.foldlM (fun w i => do
    let (_, w) ← method i w
    return w) w

def cancelEach (env : Env) (tx : Tx) : List ℕ → State → Except Revert State :=
  each (cancelOption env tx)

def settleEach (env : Env) (tx : Tx) : List ℕ → State → Except Revert State :=
  each (settle env tx)

/-- The world `settle` leaves. -/
def settleStep (env : Env) (tx : Tx) (w : State) (i : ℕ) : Except Revert State := do
  let (_, w) ← settle env tx i w
  return w

section

variable {env : Env} {tx : Tx} {v v' w x y : State} {ids ids' : List ℕ} {r : Response}
  {i n a b c d e : ℕ}

@[simp] lemma settleStep_eq_ok :
    settleStep env tx v i = .ok v' ↔ settle env tx i v = .ok ([.boolean true], v') := by
  simp only [settleStep, bind_eq_ok, pure_eq, Except.ok.injEq, Prod.exists]
  constructor
  · rintro ⟨r, w', hsettle, rfl⟩
    obtain ⟨_, _, -, -, -, -, -, rfl, -⟩ := settle_ok hsettle
    exact hsettle
  · intro hsettle
    exact ⟨_, _, hsettle, rfl⟩

lemma settleEach_eq : settleEach env tx ids w = ids.foldlM (settleStep env tx) w := rfl

/-- The loop of `batchCancel` runs `cancelOption`. -/
lemma cancelEach_eq : cancelEach env tx ids w = ids.foldlM (batchCancelStep env tx) w := by
  have hstep : (fun (w : State) i => do
      let (_, w) ← cancelOption env tx i w
      return w) = batchCancelStep env tx := by
    funext v i
    have hreply : ∀ u : State, u.respond env 1 [.boolean true] = .ok ([.boolean true], u) :=
      fun u => respond_eq_ok.mpr ⟨.inr (by decide), rfl⟩
    rw [cancelOption_eq]
    cases hcancel : batchCancelStep env tx v i with
    | error e => rfl
    | ok u => rw [ok_bind, hreply]; rfl
  rw [cancelEach, each, hstep]

lemma batchIds_eq_ok (hpos : 0 < n) (hle : n ≤ maxBatchSize) :
    batchIds n a b c d e = .ok ids ↔
      ([a, b, c, d, e].take n).Nodup ∧ ids = [a, b, c, d, e].take n := by
  simp only [batchIds, bind_eq_ok, require_eq_ok, pure_eq, Except.ok.injEq, exists_and_left,
    exists_const]
  constructor
  · rintro ⟨-, -, hnodup, rfl⟩
    exact ⟨hnodup, rfl⟩
  · rintro ⟨hnodup, rfl⟩
    exact ⟨hpos.ne', hle, hnodup, rfl⟩

lemma batchCancel_iff (hpos : 0 < n) (hle : n ≤ maxBatchSize) :
    batchCancel env tx n a b c d e w = .ok (r, x) ↔
      ([a, b, c, d, e].take n).Nodup ∧
        cancelEach env tx ([a, b, c, d, e].take n) w = .ok x ∧ r = [.boolean true] := by
  simp only [batchCancel, bind_eq_ok, batchIds_eq_ok hpos hle, respond_eq_ok, Prod.mk.injEq,
    cancelEach_eq]
  constructor
  · rintro ⟨_, ⟨hnodup, rfl⟩, _, hloop, -, rfl, rfl⟩
    exact ⟨hnodup, hloop, rfl⟩
  · rintro ⟨hnodup, hloop, rfl⟩
    exact ⟨_, ⟨hnodup, rfl⟩, _, hloop, .inr (by decide), rfl, rfl⟩

/-! ### What the pool holds -/

/-- A pool that covers what it owes can pay out any of its live options. -/
lemma enough_of_covered (hinv : TableInv w.pool) (hcov : Covered isLive env w) (hnodup : ids.Nodup)
    (hlive : ∀ i ∈ ids, w.pool.options.existsAt i ∧ isLive (w.option i) = true) :
    Enough env w ids := by
  intro t
  have hdebit : ∀ i ∈ ids, debit env w.pool (w.option i) t env.contractAddress
      = locked isLive w.pool (w.option i) t := by
    intro i hi
    rw [locked_apply, debit, entry]
    simp only [(hlive i hi).2, true_and, and_true]
  have hsub : ids.toFinset ⊆ Finset.range w.pool.nextId := by
    intro i hi
    rw [List.mem_toFinset] at hi
    exact Finset.mem_range.mpr ((hinv i).mp (hlive i hi).1)
  calc (ids.map fun i => debit env w.pool (w.option i) t env.contractAddress).sum
      = (ids.map fun i => locked isLive w.pool (w.option i) t).sum := by
        rw [List.map_congr_left hdebit]
    _ = ∑ i ∈ ids.toFinset, locked isLive w.pool (w.option i) t :=
        (List.sum_toFinset _ hnodup).symm
    _ ≤ ∑ i ∈ Finset.range w.pool.nextId, locked isLive w.pool (w.option i) t :=
        Finset.sum_le_sum_of_subset hsub
    _ ≤ w.ledger.balanceOf t env.contractAddress := hcov t

/-- The pool has what one more option costs it. -/
lemma Enough.head (h : Enough env v (i :: ids)) :
    (v.option i).lockedAmount ≤ v.ledger.balanceOf
      (v.pool.collateralToken (v.option i).optionType) env.contractAddress := by
  have hall := h (v.pool.collateralToken (v.option i).optionType)
  rw [List.map_cons, List.sum_cons, debit, entry_self] at hall
  omega

/-! ### Cancelling -/

/-- What cancelling an option in this block costs. -/
def cancelCost (block : ℕ) (o : OptionRecord) : ℕ :=
  if o.expiryBlock ≤ block then 0 else (o.lockedAmount * cancelFeeBps + 9999) / 10000

def cancelling (block : ℕ) : Retirement where
  status := .CANCELLED
  credit p o t a :=
    entry (p.collateralToken o.optionType) o.writer (o.lockedAmount - cancelCost block o) t a
      + entry (p.collateralToken o.optionType) p.feeRecipient (cancelCost block o) t a
  event o := ⟨.optionCancelled, 128, [.u256 o.id, .address o.writer,
    .u256 (o.lockedAmount - cancelCost block o), .u256 (cancelCost block o)]⟩
  credit_options _ _ := rfl

/-- What `cancelOption` asks of an option, apart from the balance of the pool. -/
structure Cancellable (env : Env) (tx : Tx) (v : State) (i : ℕ) : Prop where
  stored : v.pool.options.existsAt i
  writer : tx.sender = (v.option i).writer
  isOpen : (v.option i).status = .OPEN
  collateral : (v.option i).collateral = .ok (v.option i).lockedAmount
  fee : cancelFee tx.block (v.option i) (v.option i).lockedAmount
    = .ok (cancelCost tx.block (v.option i))
  pays : v.ledger.refuses (v.pool.collateralToken (v.option i).optionType) env.contractAddress
    (v.option i).writer = false
  paysFee : 0 < cancelCost tx.block (v.option i) →
    v.ledger.refuses (v.pool.collateralToken (v.option i).optionType) env.contractAddress
      v.pool.feeRecipient = false

lemma cancelFee_eq {block fee : ℕ} {o : OptionRecord}
    (h : cancelFee block o o.lockedAmount = .ok fee) : fee = cancelCost block o := by
  rw [cancelFee] at h
  rw [cancelCost]
  split_ifs at h ⊢ with hexpired
  · cases h
    rfl
  · exact (ceilBps_eq_ok.mp h).2.symm

lemma batchCancelStep_retired (h : batchCancelStep env tx v i = .ok v') :
    Cancellable env tx v i ∧ Retired env (cancelling tx.block) v i v' := by
  obtain ⟨collateral, fee, l₁, l₂, hex, hwriter, hopen, hcoll, hfee, hle, hl₁, hl₂, -, rfl⟩ :=
    cancelOption_ok (batchCancelStep_ok h)
  obtain rfl := OptionRecord.collateral_eq hcoll
  obtain rfl := cancelFee_eq hfee
  have hsame : l₁.refuses = v.ledger.refuses := (transferFrom_ok hl₁).2.2
  have hneeds := hl₂.needs.1
  rw [hsame] at hneeds
  refine ⟨⟨hex, hwriter, hopen, hcoll, hfee, (transferFrom_needs hl₁).1, hneeds⟩,
    rfl, rfl, ?_, ?_, fun t a => ?_, rfl⟩
  · exact hl₂.allowance.trans (transferFrom_self_allowance hl₁)
  · exact hl₂.refuses.trans hsame
  · have hback := transferFrom_entries hl₁ t a
    have hpaid := hl₂.entries t a
    have hsplit := entry_add (v.pool.collateralToken (v.option i).optionType) env.contractAddress
      t a ((v.option i).lockedAmount - cancelCost tx.block (v.option i))
      (cancelCost tx.block (v.option i))
    rw [Nat.sub_add_cancel hle] at hsplit
    show l₂.balanceOf t a + entry _ _ _ t a = _ + (entry _ _ _ t a + entry _ _ _ t a)
    omega

lemma batchCancelStep_succeeds (h : Cancellable env tx v i) (henough : Enough env v (i :: ids)) :
    ∃ v', batchCancelStep env tx v i = .ok v' := by
  have hle := cancelFee_le h.fee
  have hheld := henough.head
  have hback : ∃ l₁, v.ledger.transferFrom (v.pool.collateralToken (v.option i).optionType)
      env.contractAddress env.contractAddress (v.option i).writer
      ((v.option i).lockedAmount - cancelCost tx.block (v.option i)) = .ok l₁ :=
    transferFrom_succeeds h.pays (.inl rfl) ((Nat.sub_le _ _).trans hheld)
  obtain ⟨l₁, hl₁⟩ := hback
  have hleft := transferFrom_entries hl₁ (v.pool.collateralToken (v.option i).optionType)
    env.contractAddress
  rw [entry_self] at hleft
  have hpaid : ∃ l₂, PaysFee env l₁ (v.pool.collateralToken (v.option i).optionType)
      v.pool.feeRecipient (cancelCost tx.block (v.option i)) l₂ := by
    apply paysFee_succeeds
    · rw [(transferFrom_ok hl₁).2.2]
      exact h.paysFee
    · omega
  obtain ⟨l₂, hl₂⟩ := hpaid
  simp only [batchCancelStep, bind_eq_ok, require_eq_ok, SafeMath.sub_eq_ok, transfer_eq_ok,
    payFee_eq_ok, emit_eq_ok]
  exact ⟨_, (), h.stored, (), h.writer, (), h.isOpen, _, h.collateral, _, h.fee, _, ⟨hle, rfl⟩, _,
    ⟨l₁, hl₁, rfl⟩, _, ⟨l₂, hl₂, rfl⟩, .inr (by simp [Field.width]), rfl⟩

lemma Cancellable.of_alikeAt (hv : AlikeAt v v' i) (h : Cancellable env tx v i) :
    Cancellable env tx v' i := by
  obtain ⟨hex, hwriter, hopen, hcoll, hcost, hpays, hpaysFee⟩ := h
  refine ⟨hv.stored.mpr hex, ?_, ?_, ?_, ?_, ?_, ?_⟩
  · rwa [hv.option]
  · rwa [hv.option]
  · rwa [hv.option]
  · rwa [hv.option]
  · rwa [hv.option, hv.refuses, hv.collateralToken]
  · rwa [hv.option, hv.refuses, hv.collateralToken, hv.feeRecipient]

lemma cancel_funded :
    Batch.Funded (batchCancelStep env tx) (Cancellable env tx) (Enough env) where
  ready h := (batchCancelStep_retired h).1
  spent h hready := by
    have hclosed := hready.isOpen
    rw [(batchCancelStep_retired h).2.option_self] at hclosed
    cases hclosed
  apart h hne :=
    have halike := (batchCancelStep_retired h).2.alikeAt hne
    ⟨.of_alikeAt halike.symm, .of_alikeAt halike⟩
  goes hready henough := batchCancelStep_succeeds hready henough
  rest h hk henough := (batchCancelStep_retired h).2.enough hk henough

lemma cancelEach_swept (h : cancelEach env tx ids w = .ok x) :
    Swept env (cancelling tx.block) w ids x := by
  rw [cancelEach_eq] at h
  refine Batch.foldlM_cons_induct (fun _ => .nil) ?_ (cancel_funded.toRules.nodup_ready h).1 h
  intro s k s₁ ks s' hstep hk hrest
  exact .cons (batchCancelStep_retired hstep).2 hk hrest

/-- The pool can pay for the ids in any order. -/
lemma cancelEach_enough (h : cancelEach env tx ids w = .ok x)
    (hcase : (tx.sender ≠ env.contractAddress ∧ w.pool.feeRecipient ≠ env.contractAddress) ∨
      TableInv w.pool ∧ Covered isLive env w) : Enough env w ids := by
  have hswept := cancelEach_swept h
  rw [cancelEach_eq] at h
  obtain ⟨hnodup, hready⟩ := cancel_funded.toRules.nodup_ready h
  rcases hcase with ⟨hsender, hfee⟩ | ⟨hinv, hcov⟩
  · refine hswept.enough fun i hi t => ?_
    have hwriter := (hready i hi).writer
    rw [hwriter] at hsender
    show entry _ _ _ t _ + entry _ _ _ t _ = 0
    rw [entry_of_ne hsender.symm, entry_of_ne hfee.symm]
  · refine enough_of_covered hinv hcov hnodup fun i hi => ⟨(hready i hi).stored, ?_⟩
    exact isLive_of_open _ (hready i hi).isOpen

lemma cancelEach_perm (hperm : ids.Perm ids') (hx : cancelEach env tx ids w = .ok x)
    (henough : Enough env w ids) : ∃ y, cancelEach env tx ids' w = .ok y := by
  rw [cancelEach_eq] at hx ⊢
  obtain ⟨hnodup, hready⟩ := cancel_funded.toRules.nodup_ready hx
  exact cancel_funded.succeeds (hperm.nodup_iff.mp hnodup)
    (fun i hi => hready i (hperm.mem_iff.mpr hi)) (henough.perm hperm)

/-- The payouts of a cancellation go to others, or the pool has held what it owes since it was
deployed. -/
def PaysInAnyOrder (env : Env) (tx : Tx) (w : State) : Prop :=
  (tx.sender ≠ env.contractAddress ∧ w.pool.feeRecipient ≠ env.contractAddress) ∨
    ∃ w₀ h, Deployed w₀ ∧
      Lts.Run (Step env (Ledger.GrowsAt env.contractAddress) (exec env)) w₀ h w

/-- `batchCancel` is all or nothing, does what the calls of `cancelOption` would do one after the
other, and reads no more of its ids than it was told to. Another order of the ids ends in the same
world, and goes through too where the pool can pay in any order. -/
theorem batchCancel_eq_cancelEach (env : Env) (tx : Tx) (w : State) (a b c d e : ℕ) (hpos : 0 < n)
    (hle : n ≤ maxBatchSize) :
    (∀ r x, batchCancel env tx n a b c d e w = .ok (r, x) ↔
      ([a, b, c, d, e].take n).Nodup ∧
        cancelEach env tx ([a, b, c, d, e].take n) w = .ok x ∧ r = [.boolean true]) ∧
    (∀ a' b' c' d' e', ([a, b, c, d, e].take n).Perm ([a', b', c', d', e'].take n) →
      ∀ r x, batchCancel env tx n a b c d e w = .ok (r, x) →
        (∀ r' y, batchCancel env tx n a' b' c' d' e' w = .ok (r', y) →
          r' = r ∧ SameButOrder x y) ∧
        (PaysInAnyOrder env tx w →
          ∃ y, batchCancel env tx n a' b' c' d' e' w = .ok (r, y))) ∧
    (∀ a' b' c' d' e', [a, b, c, d, e].take n = [a', b', c', d', e'].take n →
      batchCancel env tx n a b c d e w = batchCancel env tx n a' b' c' d' e' w) ∧
    ∀ others err, batchCancel env tx n a b c d e w = .error err →
      (∀ r x, ¬ Step env others (exec env) w (.call tx (.batchCancel n a b c d e) r) x) ∧
        ∀ err' x, Step env others (exec env) w (.reverted tx (.batchCancel n a b c d e) err') x →
          x = w := by
  refine ⟨fun r x => batchCancel_iff hpos hle, ?_, ?_, ?_⟩
  · intro a' b' c' d' e' hperm r x hx
    obtain ⟨hnodup, hloop, rfl⟩ := (batchCancel_iff hpos hle).mp hx
    constructor
    · intro r' y hy
      obtain ⟨-, hloop', rfl⟩ := (batchCancel_iff hpos hle).mp hy
      exact ⟨rfl, (cancelEach_swept hloop).perm hperm (cancelEach_swept hloop')⟩
    · intro hcase
      have hcov : (tx.sender ≠ env.contractAddress ∧ w.pool.feeRecipient ≠ env.contractAddress) ∨
          TableInv w.pool ∧ Covered isLive env w := by
        rcases hcase with hothers | ⟨w₀, h, hdep, hrun⟩
        · exact .inl hothers
        · exact .inr ⟨table_of_run hdep hrun, covered_of_run hdep hrun⟩
      obtain ⟨y, hy⟩ := cancelEach_perm hperm hloop (cancelEach_enough hloop hcov)
      exact ⟨y, (batchCancel_iff hpos hle).mpr ⟨hperm.nodup_iff.mp hnodup, hy, rfl⟩⟩
  · intro a' b' c' d' e' hsame
    simp only [batchCancel, batchIds, hsame]
  · intro others err herr
    refine ⟨fun r x hstep => ?_, fun err' x hstep => ?_⟩
    · cases hstep with
      | call _ hexec => exact absurd (herr.symm.trans hexec) (by simp)
    · cases hstep with
      | reverted _ _ => rfl

namespace Testnet

/-- Account 10 wrote two CALLs. -/
def twoWritten : State :=
  { Frogop.Testnet.world () with
    pool :=
      { Frogop.Testnet.pool with
        nextId := 2
        options := (OptionStorage.empty.set 0
          (newOption (Frogop.Testnet.tx 10 100) .CALL (10 ^ 18) 1000 100 5 0)).set 1
          (newOption (Frogop.Testnet.tx 10 100) .CALL (10 ^ 18) 1000 200 5 1) }
    ledger :=
      { Frogop.Testnet.ledger with
        balanceOf := fun _ a => if a = Frogop.Testnet.account 1 then 300 else 2 ^ 200 } }

/-- The pool collects the fees, and lacks two of the units it owes. -/
def short : State :=
  { twoWritten with
    pool := { twoWritten.pool with feeRecipient := Testnet.env.contractAddress }
    ledger :=
      { twoWritten.ledger with
        balanceOf := fun _ a => if a = Frogop.Testnet.account 1 then 298 else 2 ^ 200 } }

end Testnet

/-- Cancelled in either order the two options leave the same world. -/
theorem batchCancel_eq_cancelEach_two : ∃ x y,
    batchCancel Testnet.env (Frogop.Testnet.tx 10 200) 2 0 1 7 7 7 Testnet.twoWritten
      = .ok ([.boolean true], x) ∧
    batchCancel Testnet.env (Frogop.Testnet.tx 10 200) 2 1 0 8 8 8 Testnet.twoWritten
      = .ok ([.boolean true], y) ∧ SameButOrder x y := by
  obtain ⟨hiff, hperm, -⟩ := batchCancel_eq_cancelEach (n := 2) Testnet.env
    (Frogop.Testnet.tx 10 200) Testnet.twoWritten 0 1 7 7 7 (by decide) (by decide)
  have hx : batchCancel Testnet.env (Frogop.Testnet.tx 10 200) 2 0 1 7 7 7 Testnet.twoWritten
      = .ok ([.boolean true], _) := rfl
  obtain ⟨hsame, hgoes⟩ := hperm 1 0 8 8 8 (List.Perm.swap 1 0 []) _ _ hx
  obtain ⟨y, hy⟩ := hgoes (.inl (by decide))
  exact ⟨_, y, hx, hy, (hsame _ _ hy).2⟩

/-- The larger option first, the batch goes through; the smaller one first, it fails. -/
theorem batchCancel_order_matters :
    (∃ x, batchCancel Testnet.env (Frogop.Testnet.tx 10 200) 2 1 0 7 7 7 Testnet.short
      = .ok ([.boolean true], x)) ∧
    batchCancel Testnet.env (Frogop.Testnet.tx 10 200) 2 0 1 7 7 7 Testnet.short
      = .error (.token "Transfer out failed" .insufficientBalance) :=
  ⟨⟨_, rfl⟩, rfl⟩

/-! ### Settling -/

def settling : Retirement where
  status := .EXPIRED
  credit p o t a := entry (p.collateralToken o.optionType) o.writer o.lockedAmount t a
  event o := ⟨.optionExpired, 100, [.u256 o.id, .address o.writer, .u256 o.lockedAmount]⟩
  credit_options _ _ := rfl

/-- The checks of `settle`. -/
structure Lapsed (tx : Tx) (v : State) (i : ℕ) : Prop where
  stored : v.pool.options.existsAt i
  bought : (v.option i).status = .PURCHASED
  graceEnded : v.pool.graceEnd (v.option i) ≤ tx.block

instance (tx : Tx) (v : State) (i : ℕ) : Decidable (Lapsed tx v i) :=
  decidable_of_iff (v.pool.options.existsAt i ∧ (v.option i).status = .PURCHASED ∧
    v.pool.graceEnd (v.option i) ≤ tx.block)
    ⟨fun h => ⟨h.1, h.2.1, h.2.2⟩, fun h => ⟨h.1, h.2, h.3⟩⟩

/-- What `settle` asks of an option, apart from the balance of the pool. -/
structure Settleable (env : Env) (tx : Tx) (v : State) (i : ℕ) : Prop extends Lapsed tx v i where
  collateral : (v.option i).collateral = .ok (v.option i).lockedAmount
  pays : v.ledger.refuses (v.pool.collateralToken (v.option i).optionType) env.contractAddress
    (v.option i).writer = false

lemma settleStep_retired (h : settleStep env tx v i = .ok v') :
    Settleable env tx v i ∧ Retired env settling v i v' := by
  obtain ⟨collateral, l, hex, hbought, hgrace, hcoll, hl, -, rfl⟩ :=
    settle_ok (settleStep_eq_ok.mp h)
  obtain rfl := OptionRecord.collateral_eq hcoll
  refine ⟨⟨⟨hex, hbought, hgrace⟩, hcoll, (transferFrom_needs hl).1⟩,
    rfl, rfl, transferFrom_self_allowance hl, (transferFrom_ok hl).2.2, fun t a => ?_, rfl⟩
  exact transferFrom_entries hl t a

lemma settleStep_succeeds (h : Settleable env tx v i) (henough : Enough env v (i :: ids)) :
    ∃ v', settleStep env tx v i = .ok v' := by
  have hpaid : ∃ l, v.ledger.transferFrom (v.pool.collateralToken (v.option i).optionType)
      env.contractAddress env.contractAddress (v.option i).writer (v.option i).lockedAmount
      = .ok l := transferFrom_succeeds h.pays (.inl rfl) henough.head
  obtain ⟨l, hl⟩ := hpaid
  simp only [settleStep_eq_ok, settle, bind_eq_ok, require_eq_ok, transfer_eq_ok, emit_eq_ok,
    respond_eq_ok]
  exact ⟨_, (), h.stored, (), h.bought, (), h.graceEnded, _, h.collateral, _, ⟨l, hl, rfl⟩, _,
    ⟨.inr (by simp [Field.width]), rfl⟩, .inr (by decide), rfl⟩

lemma Lapsed.of_alikeAt (hv : AlikeAt v v' i) (h : Lapsed tx v i) : Lapsed tx v' i := by
  obtain ⟨hex, hbought, hend⟩ := h
  refine ⟨hv.stored.mpr hex, ?_, ?_⟩
  · rwa [hv.option]
  · rwa [hv.option, hv.graceEnd]

lemma Settleable.of_alikeAt (hv : AlikeAt v v' i) (h : Settleable env tx v i) :
    Settleable env tx v' i := by
  obtain ⟨hlapsed, hcoll, hpays⟩ := h
  refine ⟨hlapsed.of_alikeAt hv, ?_, ?_⟩
  · rwa [hv.option]
  · rwa [hv.option, hv.refuses, hv.collateralToken]

lemma settle_funded : Batch.Funded (settleStep env tx) (Settleable env tx) (Enough env) where
  ready h := (settleStep_retired h).1
  spent h hready := by
    have hbought := hready.bought
    rw [(settleStep_retired h).2.option_self] at hbought
    cases hbought
  apart h hne :=
    have halike := (settleStep_retired h).2.alikeAt hne
    ⟨.of_alikeAt halike.symm, .of_alikeAt halike⟩
  goes hready henough := settleStep_succeeds hready henough
  rest h hk henough := (settleStep_retired h).2.enough hk henough

lemma settleEach_swept (h : settleEach env tx ids w = .ok x) : Swept env settling w ids x := by
  rw [settleEach_eq] at h
  refine Batch.foldlM_cons_induct (fun _ => .nil) ?_ (settle_funded.toRules.nodup_ready h).1 h
  intro s k s₁ ks s' hstep hk hrest
  exact .cons (settleStep_retired hstep).2 hk hrest

/-- An iteration of `batchSettle` on an option that cannot be settled yet, or any more. -/
lemma batchSettleStep_skip {n : ℕ} (h : ¬ Lapsed tx v i) :
    batchSettleStep env tx (n, v) i = .ok (n, v) := by
  simp only [batchSettleStep]
  split_ifs with hex hbought hgrace
  · rfl
  · rfl
  · exact absurd ⟨hex, not_not.mp hbought, not_lt.mp hgrace⟩ h
  · rfl

lemma batchSettleStep_settle {n : ℕ} (hn : n + 1 < u256Size)
    (h : settleStep env tx v i = .ok v') :
    batchSettleStep env tx (n, v) i = .ok (n + 1, v') := by
  obtain ⟨collateral, l, hex, hbought, hgrace, hcoll, hl, -, rfl⟩ :=
    settle_ok (settleStep_eq_ok.mp h)
  simp only [batchSettleStep]
  rw [if_neg (not_not.mpr hex), if_neg (not_not.mpr hbought), if_neg (not_lt.mpr hgrace)]
  simp only [bind_eq_ok, transfer_eq_ok, emit_eq_ok, SafeMath.add_eq_ok, pure_eq]
  exact ⟨collateral, hcoll, _, ⟨l, hl, rfl⟩, _, ⟨.inr (by simp [Field.width]), rfl⟩, _, ⟨hn, rfl⟩,
    rfl⟩

/-- The loop of `batchSettle` counts and settles the options that have lapsed. -/
lemma batchSettle_loop {n : ℕ} (hnodup : ids.Nodup) (hn : n + ids.length < u256Size)
    (hready : ∀ i ∈ ids, Lapsed tx v i → Settleable env tx v i)
    (henough : Enough env v (ids.filter fun i => Lapsed tx v i)) :
    ∃ x, ids.foldlM (batchSettleStep env tx) (n, v)
        = .ok (n + (ids.filter fun i => Lapsed tx v i).length, x) ∧
      settleEach env tx (ids.filter fun i => Lapsed tx v i) v = .ok x := by
  induction ids generalizing n v with
  | nil => exact ⟨v, rfl, rfl⟩
  | cons i ids ih =>
    obtain ⟨hi, hnodup⟩ := List.nodup_cons.mp hnodup
    rw [List.length_cons] at hn
    by_cases hlapsed : Lapsed tx v i
    · rw [List.filter_cons_of_pos (by simpa using hlapsed)] at henough ⊢
      have hrest : i ∉ ids.filter fun i => Lapsed tx v i :=
        fun hmem => hi (List.mem_of_mem_filter hmem)
      obtain ⟨v', hv'⟩ := settleStep_succeeds (hready i List.mem_cons_self hlapsed) henough
      obtain ⟨-, hr⟩ := settleStep_retired hv'
      have hne : ∀ {j}, j ∈ ids → j ≠ i := fun hj heq => hi (heq ▸ hj)
      -- What has lapsed among the other ids is the same after this one.
      have halike : ∀ j ∈ ids, AlikeAt v v' j := fun j hj => hr.alikeAt (hne hj)
      have hfilter : (ids.filter fun j => Lapsed tx v' j) = ids.filter fun j => Lapsed tx v j :=
        List.filter_congr fun j hj => decide_eq_decide.mpr
          ⟨.of_alikeAt (halike j hj).symm, .of_alikeAt (halike j hj)⟩
      have hready' : ∀ j ∈ ids, Lapsed tx v' j → Settleable env tx v' j := by
        intro j hj hlapse
        have hbefore := hready j (List.mem_cons_of_mem _ hj) (hlapse.of_alikeAt (halike j hj).symm)
        exact hbefore.of_alikeAt (halike j hj)
      have henough' : Enough env v' (ids.filter fun j => Lapsed tx v' j) := by
        rw [hfilter]
        exact hr.enough hrest henough
      obtain ⟨x, hloop, heach⟩ := ih (n := n + 1) (v := v') hnodup (by omega) hready' henough'
      rw [hfilter] at hloop heach
      refine ⟨x, ?_, ?_⟩
      · rw [List.foldlM_cons, batchSettleStep_settle (by omega) hv', ok_bind, hloop,
          List.length_cons]
        congr 2
        omega
      · rw [settleEach_eq] at heach ⊢
        rw [List.foldlM_cons, hv', ok_bind, heach]
    · rw [List.filter_cons_of_neg (by simpa using hlapsed)] at henough ⊢
      obtain ⟨x, hloop, heach⟩ := ih (n := n) hnodup (by omega)
        (fun j hj => hready j (List.mem_cons_of_mem _ hj)) henough
      exact ⟨x, by rw [List.foldlM_cons, batchSettleStep_skip hlapsed, ok_bind, hloop], heach⟩

/-- In a pool that covers what it owes an option is settled once it has lapsed. -/
lemma settle_iff_lapsed (hinv : TableInv w.pool) (hcov : Covered isLive env w)
    (hready : Lapsed tx w i → Settleable env tx w i) :
    (∃ r x, settle env tx i w = .ok (r, x)) ↔ Lapsed tx w i := by
  constructor
  · rintro ⟨r, x, h⟩
    obtain ⟨_, _, hex, hbought, hgrace, -⟩ := settle_ok h
    exact ⟨hex, hbought, hgrace⟩
  · intro hlapsed
    have henough : Enough env w [i] := by
      refine enough_of_covered hinv hcov (List.nodup_singleton i) fun j hj => ?_
      rw [List.mem_singleton] at hj
      subst hj
      exact ⟨hlapsed.stored, isLive_of_purchased _ hlapsed.bought⟩
    obtain ⟨x, hx⟩ := settleStep_succeeds (hready hlapsed) henough
    exact ⟨_, x, settleStep_eq_ok.mp hx⟩

lemma settleEach_perm (hperm : ids.Perm ids') (hx : settleEach env tx ids w = .ok x)
    (henough : Enough env w ids) :
    ∃ y, settleEach env tx ids' w = .ok y ∧ SameButOrder x y := by
  have hswept := settleEach_swept hx
  rw [settleEach_eq] at hx
  obtain ⟨hnodup, hready⟩ := settle_funded.toRules.nodup_ready hx
  obtain ⟨y, hy⟩ := settle_funded.succeeds (hperm.nodup_iff.mp hnodup)
    (fun i hi => hready i (hperm.mem_iff.mpr hi)) (henough.perm hperm)
  exact ⟨y, hy, hswept.perm hperm (settleEach_swept hy)⟩

/-- The ids that `settle` would accept in `w`. -/
def accepted (env : Env) (tx : Tx) (w : State) (ids : List ℕ) : List ℕ :=
  ids.filter fun i => (settle env tx i w).isOk

/-- In every state the pool can get into, `batchSettle` settles the ids that `settle` would accept,
in whatever order, and counts them. It never fails, unless a token refuses to pay the writer of an
option that has lapsed. -/
theorem batchSettle_eq_settleEach {w₀ : State} {h : Lts.History State (Label Call)}
    (hdep : Deployed w₀)
    (hrun : Lts.Run (Step env (Ledger.GrowsAt env.contractAddress) (exec env)) w₀ h w) (tx : Tx)
    (hpos : 0 < n) (hle : n ≤ maxBatchSize) (hnodup : ([a, b, c, d, e].take n).Nodup)
    (hwilling : ∀ i ∈ [a, b, c, d, e].take n, Lapsed tx w i →
      w.ledger.refuses (w.pool.collateralToken (w.option i).optionType) env.contractAddress
        (w.option i).writer = false) :
    ∃ x, batchSettle env tx n a b c d e w
        = .ok ([.u256 (accepted env tx w ([a, b, c, d, e].take n)).length], x) ∧
      (∀ order, order.Perm (accepted env tx w ([a, b, c, d, e].take n)) →
        ∃ y, settleEach env tx order w = .ok y ∧ SameButOrder x y) ∧
      (∀ i, i ∉ accepted env tx w ([a, b, c, d, e].take n) → x.option i = w.option i) ∧
      ∀ token account, (∀ i ∈ accepted env tx w ([a, b, c, d, e].take n),
          token = w.pool.collateralToken (w.option i).optionType →
            account ≠ env.contractAddress ∧ account ≠ (w.option i).writer) →
        x.ledger.balanceOf token account = w.ledger.balanceOf token account := by
  have hinv := table_of_run hdep hrun
  have hcov := covered_of_run hdep hrun
  have hcoll := collateral_of_run hdep hrun
  have hready : ∀ i ∈ [a, b, c, d, e].take n, Lapsed tx w i → Settleable env tx w i := by
    intro i hi hlapsed
    obtain ⟨collateral, hok⟩ := hcoll i ((hinv i).mp hlapsed.stored)
    exact ⟨hlapsed, OptionRecord.collateral_eq hok ▸ hok, hwilling i hi hlapsed⟩
  have haccepted : accepted env tx w ([a, b, c, d, e].take n)
      = ([a, b, c, d, e].take n).filter fun i => Lapsed tx w i := by
    refine List.filter_congr fun i hi => Bool.eq_iff_iff.mpr ?_
    rw [decide_eq_true_iff, ← settle_iff_lapsed hinv hcov (hready i hi)]
    cases settle env tx i w with
    | error err => simp [Except.isOk, Except.toBool]
    | ok reply => exact ⟨fun _ => ⟨reply.1, reply.2, rfl⟩, fun _ => rfl⟩
  rw [haccepted]
  generalize hids : [a, b, c, d, e].take n = ids at *
  have hdue : (ids.filter fun i => Lapsed tx w i).Nodup := hnodup.filter _
  have henough : Enough env w (ids.filter fun i => Lapsed tx w i) := by
    refine enough_of_covered hinv hcov hdue fun i hi => ?_
    have hlapsed : Lapsed tx w i := of_decide_eq_true (List.mem_filter.mp hi).2
    exact ⟨hlapsed.stored, isLive_of_purchased _ hlapsed.bought⟩
  have hlength : 0 + ids.length < u256Size := by
    have hfive : ids.length ≤ 5 := by
      rw [← hids]
      exact List.length_take_le' n [a, b, c, d, e]
    have hsize : 5 < u256Size := by decide
    omega
  obtain ⟨x, hloop, heach⟩ := batchSettle_loop hnodup hlength hready henough
  have hswept := settleEach_swept heach
  refine ⟨x, ?_, fun order hperm => settleEach_perm hperm.symm heach henough,
    fun i hi => hswept.option_of_not_mem hi, fun token account hother => ?_⟩
  · rw [batchSettle, (batchIds_eq_ok hpos hle).mpr ⟨hids.symm ▸ hnodup, hids.symm⟩, ok_bind, hloop,
      ok_bind, Nat.zero_add]
    exact respond_eq_ok.mpr ⟨.inr (by simp [Field.width]), rfl⟩
  · refine hswept.balance_of_not_mem (fun i hi => ?_) fun i hi => ?_
    · exact if_neg fun hb => (hother i hi hb.1).1 hb.2
    · exact if_neg fun hb => (hother i hi hb.1).2 hb.2

/-- After the grace period a batch of the sold option and an id that was never written settles the
one option. -/
theorem batchSettle_eq_settleEach_sold : ∃ x,
    batchSettle Testnet.env (Frogop.Testnet.tx 12 1144) 2 7 0 0 0 0 (Testnet.sold (10 ^ 18) 4 100)
      = .ok ([.u256 1], x) ∧ x.option 1 = (Testnet.sold (10 ^ 18) 4 100).option 1 := by
  have hrun := Testnet.run_sold (Ledger.GrowsAt Testnet.env.contractAddress) (s := 10 ^ 18) (a := 4)
    (p := 100) rfl rfl
  obtain ⟨x, hx, -, hothers, -⟩ := batchSettle_eq_settleEach (n := 2) (a := 7) (b := 0) (c := 0)
    (d := 0) (e := 0) (Frogop.Testnet.deployed ()) hrun (Frogop.Testnet.tx 12 1144) (by decide)
    (by decide) (by decide) (by decide)
  have hone : accepted Testnet.env (Frogop.Testnet.tx 12 1144) (Testnet.sold (10 ^ 18) 4 100)
      ([7, 0, 0, 0, 0].take 2) = [0] := rfl
  rw [hone] at hx hothers
  exact ⟨x, hx, hothers 1 (by decide)⟩

end

end Frogop.OptionsPool
