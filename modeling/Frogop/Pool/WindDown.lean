import Frogop.Pool.OptionsPool.Solvency
import Mathlib.Algebra.BigOperators.Group.List.Basic

/-!
# Winding a pool down

When its grace period is over, an unsold option can be taken back by its writer without a fee, and a
sold one can be settled by anybody. A pool that is solvent can pay for all of them one after the
other, so nothing that it owes stays with it.
-/

namespace Frogop

open Outcome World Ledger

variable {σ C : Type}

/-- An option that can be closed in a block, as far as it depends on the option. -/
structure Closable (env : Env) (block : ℕ) (w : World σ) (i : ℕ) : Prop where
  stored : w.pool.options.existsAt i
  status : (w.option i).status = .OPEN ∨ (w.option i).status = .PURCHASED
  collateral : (w.option i).collateral = .ok (w.option i).lockedAmount
  expired : (w.option i).expiryBlock ≤ block
  graceEnded : w.pool.graceEnd (w.option i) ≤ block
  pays : w.ledger.refuses (w.pool.collateralToken (w.option i).optionType) env.contractAddress
    (w.option i).writer = false

/-- What becomes of an option that is closed. -/
def OptionRecord.closed (o : OptionRecord) : OptionRecord :=
  { o with status := if o.status = .OPEN then .CANCELLED else .EXPIRED }

/-- The call that closes an option: its writer cancels it, or the sender of `tx` settles it. -/
def closing (cancel settle : ℕ → C) (tx : Tx) (w : World σ) (i : ℕ) : Tx × C :=
  if (w.option i).status = .OPEN then ({ tx with sender := (w.option i).writer }, cancel i)
  else (tx, settle i)

/-- The calls that close some options of a pool. -/
def windDown (cancel settle : ℕ → C) (tx : Tx) (w : World σ) (ids : List ℕ) : List (Tx × C) :=
  ids.map (closing cancel settle tx w)

/-- The collateral of an option, in the books of an account. -/
def collateralEntry (p : PoolStorage) (o : OptionRecord) (a t b : Address) : ℕ :=
  entry (p.collateralToken o.optionType) a o.lockedAmount t b

/-- The options `ids` were closed, and each writer has the collateral of theirs. -/
structure Closed (env : Env) (w : World σ) (ids : List ℕ) (w' : World σ) : Prop where
  pool : ∃ s, w'.pool = { w.pool with options := s }
  own : w'.own = w.own
  closed : ∀ i ∈ ids, w'.option i = (w.option i).closed
  others : ∀ i, i ∉ ids → w'.option i = w.option i
  refuses : w'.ledger.refuses = w.ledger.refuses
  balances : ∀ t a, w'.ledger.balanceOf t a
      + (ids.map fun i => collateralEntry w.pool (w.option i) env.contractAddress t a).sum
    = w.ledger.balanceOf t a
      + (ids.map fun i => collateralEntry w.pool (w.option i) (w.option i).writer t a).sum

section

variable {env : Env} {tx : Tx} {w w' w'' : World σ} {i : ℕ} {ids : List ℕ}

/-! ### One option -/

lemma Closed.one (status : Status) {s : OptionStorage} {l : Ledger}
    {events : List Event}
    (hstatus : (w.option i).closed = { w.option i with status := status })
    (hget : s.get = Function.update w.pool.options.get i { w.option i with status := status })
    (hl : w.ledger.transferFrom (w.pool.collateralToken (w.option i).optionType)
      env.contractAddress env.contractAddress (w.option i).writer (w.option i).lockedAmount = .ok l)
    (hw' : w' = { w with pool := { w.pool with options := s }, ledger := l, events := events }) :
    Closed env w [i] w' := by
  subst hw'
  refine ⟨⟨s, rfl⟩, rfl, fun j hj => ?_, fun j hj => ?_, (transferFrom_ok hl).2.2, fun t a => ?_⟩
  · rw [List.mem_singleton.mp hj, hstatus]
    simp [World.option, hget]
  · rw [List.mem_singleton] at hj
    simp [World.option, hget, hj]
  · simp only [List.map_cons, List.map_nil, List.sum_singleton]
    exact transferFrom_entries hl t a

/-- The writer takes the collateral back without a fee. -/
lemma cancelOption_closes (h : Closable env tx.block w i) (hopen : (w.option i).status = .OPEN)
    (hheld : (w.option i).lockedAmount ≤ w.ledger.heldBy env.contractAddress
      (w.pool.collateralToken (w.option i).optionType)) :
    ∃ r w', OptionsPool.cancelOption env { tx with sender := (w.option i).writer } i w
      = .ok (r, w') ∧ Closed env w [i] w' := by
  obtain ⟨l, hl⟩ := transferFrom_succeeds h.pays (.inl rfl) hheld
  have hfee : cancelFee tx.block (w.option i) (w.option i).lockedAmount = .ok 0 := by
    rw [cancelFee, if_pos h.expired]
  have hgo : OptionsPool.cancelOption env { tx with sender := (w.option i).writer } i w
      = .ok ([.boolean true], OptionsPool.leaves (w.setStatus i .CANCELLED) l
        [⟨.optionCancelled, 128, [.u256 i, .address (w.option i).writer,
          .u256 ((w.option i).lockedAmount - 0), .u256 0]⟩]) := by
    simp only [OptionsPool.cancelOption, bind_eq_ok, require_eq_ok, SafeMath.sub_eq_ok,
      transfer_eq_ok, payFee_eq_ok, emit_eq_ok, respond_eq_ok]
    exact ⟨(), h.stored, (), trivial, (), hopen, _, h.collateral, 0, hfee, _, ⟨Nat.zero_le _, rfl⟩,
      _, ⟨l, hl, rfl⟩, _, ⟨l, ⟨fun hpos => absurd hpos (lt_irrefl 0), fun _ => rfl⟩, rfl⟩, _,
      ⟨.inr (by simp [Field.width]), rfl⟩, .inr (by decide), rfl⟩
  refine ⟨_, _, hgo, .one .CANCELLED ?_ OptionStorage.get_setStatus hl rfl⟩
  rw [OptionRecord.closed, if_pos hopen]

/-- Anybody can give the collateral back to the writer. -/
lemma settle_closes (h : Closable env tx.block w i) (hbought : (w.option i).status = .PURCHASED)
    (hheld : (w.option i).lockedAmount ≤ w.ledger.heldBy env.contractAddress
      (w.pool.collateralToken (w.option i).optionType)) :
    ∃ r w', OptionsPool.settle env tx i w = .ok (r, w') ∧ Closed env w [i] w' := by
  obtain ⟨l, hl⟩ := transferFrom_succeeds h.pays (.inl rfl) hheld
  have hgo : OptionsPool.settle env tx i w
      = .ok ([.boolean true], OptionsPool.leaves (w.setStatus i .EXPIRED) l
        [⟨.optionExpired, 100, [.u256 i, .address (w.option i).writer,
          .u256 (w.option i).lockedAmount]⟩]) := by
    simp only [OptionsPool.settle, bind_eq_ok, require_eq_ok, transfer_eq_ok, emit_eq_ok,
      respond_eq_ok]
    exact ⟨(), h.stored, (), hbought, (), h.graceEnded, _, h.collateral, _, ⟨l, hl, rfl⟩, _,
      ⟨.inr (by simp [Field.width]), rfl⟩, .inr (by decide), rfl⟩
  refine ⟨_, _, hgo, .one .EXPIRED ?_ OptionStorage.get_setStatus hl rfl⟩
  rw [OptionRecord.closed, if_neg (by simp [hbought])]

/-! ### All of them -/

lemma Closed.nil : Closed env w [] w :=
  ⟨⟨_, rfl⟩, rfl, by simp, fun _ _ => rfl, rfl, fun _ _ => rfl⟩

/-- Closing some options changes nothing that the entries of others depend on. -/
lemma Closed.collateralEntry (h : Closed env w ids w') :
    collateralEntry w'.pool = collateralEntry w.pool := by
  obtain ⟨s, hs⟩ := h.pool
  rw [hs]
  rfl

lemma Closed.map_entries {jds : List ℕ} (h : Closed env w ids w') (hj : ∀ j ∈ jds, j ∉ ids)
    (a : OptionRecord → Address) (t b : Address) :
    (jds.map fun j => Frogop.collateralEntry w'.pool (w'.option j) (a (w'.option j)) t b)
      = jds.map fun j => Frogop.collateralEntry w.pool (w.option j) (a (w.option j)) t b := by
  refine List.map_congr_left fun j hmem => ?_
  rw [h.others j (hj j hmem), h.collateralEntry]

lemma Closed.append {jds : List ℕ} (h : Closed env w ids w') (h' : Closed env w' jds w'')
    (hj : ∀ j ∈ jds, j ∉ ids) : Closed env w (ids ++ jds) w'' := by
  refine ⟨?_, h'.own.trans h.own, fun i hi => ?_, fun i hi => ?_, h'.refuses.trans h.refuses,
    fun t a => ?_⟩
  · obtain ⟨s, hs⟩ := h.pool
    obtain ⟨s', hs'⟩ := h'.pool
    exact ⟨s', by rw [hs', hs]⟩
  · rcases List.mem_append.mp hi with hmem | hmem
    · rw [h'.others i fun hmem' => hj i hmem' hmem, h.closed i hmem]
    · rw [h'.closed i hmem, h.others i (hj i hmem)]
  · simp only [List.mem_append, not_or] at hi
    rw [h'.others i hi.2, h.others i hi.1]
  · have hfirst := h.balances t a
    have hrest := h'.balances t a
    rw [h.map_entries hj (fun _ => env.contractAddress), h.map_entries hj fun o => o.writer]
      at hrest
    simp only [List.map_append, List.sum_append]
    omega

/-- What can be closed stays so while other options are closed. -/
lemma Closable.of_closed {block : ℕ} (hc : Closable env block w i) (h : Closed env w ids w')
    (hi : i ∉ ids) : Closable env block w' i := by
  obtain ⟨s, hs⟩ := h.pool
  have hoption := h.others i hi
  refine ⟨?_, ?_, ?_, ?_, ?_, ?_⟩
  · have hwriter := congrArg OptionRecord.writer hoption
    rw [OptionStorage.existsAt_iff, hwriter]
    exact hc.stored
  · rw [hoption]
    exact hc.status
  · rw [hoption]
    exact hc.collateral
  · rw [hoption]
    exact hc.expired
  · rw [hoption, hs]
    exact hc.graceEnded
  · rw [hoption, h.refuses, hs]
    exact hc.pays

/-- The pool of the contract `exec` closes its options as the type-0 pool does. -/
structure ClosesAlike (env : Env) (exec : Tx → C → World σ → Except Revert (Reply σ))
    (cancel settle : ℕ → C) (P : OptionRecord → Prop) : Prop where
  cancel : ∀ tx i v, P (v.option i) → exec tx (cancel i) v = OptionsPool.cancelOption env tx i v
  settle : ∀ tx i v, P (v.option i) → exec tx (settle i) v = OptionsPool.settle env tx i v

section

variable {exec : Tx → C → World σ → Except Revert (Reply σ)} {cancel settle : ℕ → C}
  {P : OptionRecord → Prop}

lemma ClosesAlike.one (halike : ClosesAlike env exec cancel settle P)
    (h : Closable env tx.block w i) (hP : P (w.option i))
    (hheld : (w.option i).lockedAmount ≤ w.ledger.heldBy env.contractAddress
      (w.pool.collateralToken (w.option i).optionType)) :
    ∃ r w', exec (closing cancel settle tx w i).1 (closing cancel settle tx w i).2 w = .ok (r, w') ∧
      Closed env w [i] w' := by
  rw [closing]
  rcases h.status with hopen | hbought
  · rw [if_pos hopen, halike.cancel _ _ _ hP]
    exact cancelOption_closes h hopen hheld
  · rw [if_neg (by simp [hbought]), halike.settle _ _ _ hP]
    exact settle_closes h hbought hheld

/-- A pool that holds the collateral of some options can close all of them. -/
lemma ClosesAlike.windDown (halike : ClosesAlike env exec cancel settle P) (hnodup : ids.Nodup)
    (hready : ∀ i ∈ ids, Closable env tx.block w i ∧ P (w.option i))
    (henough : ∀ t, (ids.map fun i =>
      collateralEntry w.pool (w.option i) env.contractAddress t env.contractAddress).sum
        ≤ w.ledger.balanceOf t env.contractAddress) :
    ∃ w', replay exec w (Frogop.windDown cancel settle tx w ids) = .ok w' ∧
      Closed env w ids w' := by
  induction ids generalizing w with
  | nil => exact ⟨w, rfl, .nil⟩
  | cons i ids ih =>
    obtain ⟨hi, hnodup⟩ := List.nodup_cons.mp hnodup
    obtain ⟨hclose, hP⟩ := hready i List.mem_cons_self
    have hheld : (w.option i).lockedAmount ≤ w.ledger.heldBy env.contractAddress
        (w.pool.collateralToken (w.option i).optionType) := by
      have hall := henough (w.pool.collateralToken (w.option i).optionType)
      rw [List.map_cons, List.sum_cons, collateralEntry, entry_self] at hall
      exact (Nat.le_add_right _ _).trans hall
    obtain ⟨r, w₁, hexec, hclosed⟩ := halike.one hclose hP hheld
    have hapart : ∀ j ∈ ids, j ∉ [i] := fun j hj hmem => hi (List.mem_singleton.mp hmem ▸ hj)
    have hleft : ∀ t, (ids.map fun j =>
        collateralEntry w₁.pool (w₁.option j) env.contractAddress t env.contractAddress).sum
          ≤ w₁.ledger.balanceOf t env.contractAddress := by
      intro t
      have hall := henough t
      have hone := hclosed.balances t env.contractAddress
      rw [hclosed.map_entries hapart fun _ => env.contractAddress]
      simp only [List.map_cons, List.map_nil, List.sum_cons, List.sum_nil] at hall hone
      omega
    have hstill : ∀ j ∈ ids, Closable env tx.block w₁ j ∧ P (w₁.option j) := by
      intro j hj
      obtain ⟨hclose', hP'⟩ := hready j (List.mem_cons_of_mem _ hj)
      refine ⟨hclose'.of_closed hclosed (hapart j hj), ?_⟩
      rw [hclosed.others j (hapart j hj)]
      exact hP'
    obtain ⟨w', hreplay, hrest⟩ := ih hnodup hstill hleft
    refine ⟨w', ?_, hclosed.append hrest hapart⟩
    have hsame : Frogop.windDown cancel settle tx w ids
        = Frogop.windDown cancel settle tx w₁ ids := by
      refine List.map_congr_left fun j hj => ?_
      simp only [closing, hclosed.others j (hapart j hj)]
    rw [Frogop.windDown, List.map_cons, replay, List.foldlM_cons, hexec, ok_bind]
    rw [← Frogop.windDown, hsame]
    exact hreplay

end

end

end Frogop
