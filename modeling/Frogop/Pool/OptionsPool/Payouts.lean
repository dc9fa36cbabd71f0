import Frogop.Lib.Batch
import Frogop.Pool.OptionsPool.Roll
import Mathlib.Algebra.BigOperators.Group.List.Basic

/-!
# Batches of payouts

Cancelling and settling retire an option: its status changes, and its collateral goes from the pool
to others. `Retired` is what one such step does and `Swept` what a batch of them does; the order of
the batch shows in the order of the events only (`Swept.perm`).
-/

namespace Frogop.OptionsPool

open Outcome World Ledger

/-! ### What retiring an option does -/

/-- A way to retire an option: its status afterwards, what it brings to the accounts, its event. -/
structure Retirement where
  status : Status
  /-- pool, option, token, account -/
  credit : PoolStorage → OptionRecord → Address → Address → ℕ
  event : OptionRecord → Event
  credit_options : ∀ p options, credit { p with options := options } = credit p

/-- The collateral of an option leaves the pool. -/
def debit (env : Env) (p : PoolStorage) (o : OptionRecord) (t a : Address) : ℕ :=
  entry (p.collateralToken o.optionType) env.contractAddress o.lockedAmount t a

/-- One option was retired. -/
structure Retired (env : Env) (ret : Retirement) (v : State) (i : ℕ) (v' : State) : Prop where
  pool : v'.pool = { v.pool with options := v.pool.options.setStatus i ret.status }
  bridge : v'.bridge = v.bridge
  allowance : v'.ledger.allowance = v.ledger.allowance
  refuses : v'.ledger.refuses = v.ledger.refuses
  balances : ∀ t a, v'.ledger.balanceOf t a + debit env v.pool (v.option i) t a
    = v.ledger.balanceOf t a + ret.credit v.pool (v.option i) t a
  events : v'.events = v.events ++ [ret.event (v.option i)]

/-- The options `ids` were retired, in this order. -/
structure Swept (env : Env) (ret : Retirement) (w : State) (ids : List ℕ) (x : State) : Prop where
  pool : x.pool = { w.pool with
    options := ids.foldl (fun options i => options.setStatus i ret.status) w.pool.options }
  bridge : x.bridge = w.bridge
  allowance : x.ledger.allowance = w.ledger.allowance
  refuses : x.ledger.refuses = w.ledger.refuses
  balances : ∀ t a,
    x.ledger.balanceOf t a + (ids.map fun i => debit env w.pool (w.option i) t a).sum
      = w.ledger.balanceOf t a + (ids.map fun i => ret.credit w.pool (w.option i) t a).sum
  events : x.events = w.events ++ ids.map fun i => ret.event (w.option i)

/-- The pool holds what it pays out for the options `ids`. -/
def Enough (env : Env) (w : State) (ids : List ℕ) : Prop :=
  ∀ t, (ids.map fun i => debit env w.pool (w.option i) t env.contractAddress).sum
    ≤ w.ledger.balanceOf t env.contractAddress

/-- All that a retirement asks of an option and of the pool around it is the same. -/
structure AlikeAt (v v' : State) (i : ℕ) : Prop where
  option : v'.option i = v.option i
  stored : v'.pool.options.existsAt i ↔ v.pool.options.existsAt i
  collateralToken : v'.pool.collateralToken = v.pool.collateralToken
  graceEnd : v'.pool.graceEnd = v.pool.graceEnd
  feeRecipient : v'.pool.feeRecipient = v.pool.feeRecipient
  refuses : v'.ledger.refuses = v.ledger.refuses

/-- The same world, but for the order of the events. -/
structure SameButOrder (x y : State) : Prop where
  pool : x.pool = y.pool
  ledger : x.ledger = y.ledger
  bridge : x.bridge = y.bridge
  events : x.events.Perm y.events

section

variable {env : Env} {ret : Retirement} {v v' w x y : State} {ids ids' : List ℕ} {i j : ℕ}

lemma Retired.option_self (h : Retired env ret v i v') :
    v'.option i = { v.option i with status := ret.status } := by
  rw [World.option, h.pool, OptionStorage.get_setStatus_self]

lemma Retired.option_of_ne (h : Retired env ret v i v') (hne : j ≠ i) :
    v'.option j = v.option j := by
  rw [World.option, h.pool, OptionStorage.get_setStatus_of_ne hne]

lemma AlikeAt.symm (h : AlikeAt v v' i) : AlikeAt v' v i :=
  ⟨h.option.symm, h.stored.symm, h.collateralToken.symm, h.graceEnd.symm, h.feeRecipient.symm,
    h.refuses.symm⟩

/-- Retiring an option leaves the others as they were. -/
lemma Retired.alikeAt (h : Retired env ret v i v') (hne : j ≠ i) : AlikeAt v v' j := by
  have hoption := h.option_of_ne hne
  refine ⟨hoption, ?_, ?_, ?_, ?_, h.refuses⟩
  · rw [OptionStorage.existsAt_iff, OptionStorage.existsAt_iff]
    exact iff_of_eq (congrArg (fun o : OptionRecord => o.writer ≠ Address.zero) hoption)
  · rw [h.pool]
    rfl
  · rw [h.pool]
    rfl
  · rw [h.pool]

/-- What an option takes out and brings in does not depend on the table. -/
lemma Retired.debit_eq (h : Retired env ret v i v') : debit env v'.pool = debit env v.pool := by
  rw [h.pool]
  rfl

lemma Retired.credit_eq (h : Retired env ret v i v') : ret.credit v'.pool = ret.credit v.pool := by
  rw [h.pool, ret.credit_options]

/-- For the other options a sum is what it was. -/
lemma Retired.map_congr {B : Type} (h : Retired env ret v i v') (hi : i ∉ ids)
    (f : OptionRecord → B) : (ids.map fun j => f (v'.option j)) = ids.map fun j => f (v.option j) :=
  List.map_congr_left fun j hj => by rw [h.option_of_ne fun heq => hi (heq ▸ hj)]

lemma Swept.nil : Swept env ret w [] w :=
  ⟨rfl, rfl, rfl, rfl, fun _ _ => rfl, (List.append_nil _).symm⟩

/-- One more option, retired before the others. -/
lemma Swept.cons (h : Retired env ret v i v') (hi : i ∉ ids) (hrest : Swept env ret v' ids x) :
    Swept env ret v (i :: ids) x := by
  refine ⟨?_, hrest.bridge.trans h.bridge, hrest.allowance.trans h.allowance,
    hrest.refuses.trans h.refuses, fun t a => ?_, ?_⟩
  · rw [hrest.pool, h.pool, List.foldl_cons]
  · have hfirst := h.balances t a
    have hothers := hrest.balances t a
    rw [h.debit_eq, h.credit_eq, h.map_congr hi fun o => debit env v.pool o t a,
      h.map_congr hi fun o => ret.credit v.pool o t a] at hothers
    simp only [List.map_cons, List.sum_cons]
    omega
  · rw [hrest.events, h.events, h.map_congr hi ret.event, List.map_cons, List.append_assoc,
      List.singleton_append]

/-- What is left suffices for the rest. -/
lemma Retired.enough (h : Retired env ret v i v') (hi : i ∉ ids)
    (henough : Enough env v (i :: ids)) : Enough env v' ids := by
  intro t
  have hall := henough t
  have hfirst := h.balances t env.contractAddress
  rw [List.map_cons, List.sum_cons] at hall
  rw [h.debit_eq, h.map_congr hi fun o => debit env v.pool o t env.contractAddress]
  omega

lemma Enough.perm (h : Enough env w ids) (hperm : ids.Perm ids') : Enough env w ids' :=
  fun t => (hperm.map fun i => debit env w.pool (w.option i) t env.contractAddress).sum_eq ▸ h t

/-- A batch whose payouts all go to others shows what the pool held. -/
lemma Swept.enough (h : Swept env ret w ids x)
    (hout : ∀ i ∈ ids, ∀ t, ret.credit w.pool (w.option i) t env.contractAddress = 0) :
    Enough env w ids := by
  intro t
  have hzero : (ids.map fun i => ret.credit w.pool (w.option i) t env.contractAddress).sum = 0 := by
    rw [List.map_congr_left fun i hi => hout i hi t, List.map_const', List.sum_replicate]
    simp
  have hbal := h.balances t env.contractAddress
  omega

/-! ### Everything else -/

lemma get_foldl_setStatus {status : Status} {s : OptionStorage} (hj : j ∉ ids) :
    (ids.foldl (fun options i => options.setStatus i status) s).get j = s.get j := by
  induction ids generalizing s with
  | nil => rfl
  | cons i ids ih =>
    rw [List.mem_cons, not_or] at hj
    rw [List.foldl_cons, ih hj.2, OptionStorage.get_setStatus_of_ne hj.1]

lemma Swept.option_of_not_mem (h : Swept env ret w ids x) (hj : j ∉ ids) :
    x.option j = w.option j := by
  rw [World.option, h.pool]
  exact get_foldl_setStatus hj

/-- An account that none of the options is about keeps what it has. -/
lemma Swept.balance_of_not_mem {t a : Address} (h : Swept env ret w ids x)
    (hdebit : ∀ i ∈ ids, debit env w.pool (w.option i) t a = 0)
    (hcredit : ∀ i ∈ ids, ret.credit w.pool (w.option i) t a = 0) :
    x.ledger.balanceOf t a = w.ledger.balanceOf t a := by
  have hbal := h.balances t a
  rw [List.map_congr_left hdebit, List.map_congr_left hcredit] at hbal
  exact Nat.add_right_cancel hbal

/-! ### Order -/

lemma setStatus_comm (s : OptionStorage) (status : Status) (i j : ℕ) :
    (s.setStatus i status).setStatus j status = (s.setStatus j status).setStatus i status := by
  rcases eq_or_ne i j with rfl | hne
  · rfl
  · simp only [OptionStorage.setStatus, OptionStorage.set, Function.update_of_ne hne,
      Function.update_of_ne hne.symm]
    rw [Function.update_comm hne]

/-- Two orders of one batch end in the same world. -/
lemma Swept.perm (hperm : ids.Perm ids') (hx : Swept env ret w ids x)
    (hy : Swept env ret w ids' y) : SameButOrder x y := by
  refine ⟨?_, ?_, hx.bridge.trans hy.bridge.symm, ?_⟩
  · rw [hx.pool, hy.pool, hperm.foldl_eq' fun i _ j _ s => setStatus_comm s ret.status i j]
  · have hbal : x.ledger.balanceOf = y.ledger.balanceOf := by
      funext t a
      have hbx := hx.balances t a
      have hby := hy.balances t a
      rw [← (hperm.map _).sum_eq, ← (hperm.map _).sum_eq] at hby
      omega
    have hallow := hx.allowance.trans hy.allowance.symm
    have hrefuse := hx.refuses.trans hy.refuses.symm
    cases hlx : x.ledger
    cases hly : y.ledger
    simp_all
  · rw [hx.events, hy.events]
    exact (hperm.map _).append_left _

end

end Frogop.OptionsPool
