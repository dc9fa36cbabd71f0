import Frogop.Pool.BtcUnderlying.Spec
import Frogop.Pool.OptionsPool.Lifecycle

/-!
# The life of an option in `OptionsPoolBtcUnderlying`

The transitions of the type-2 pool, and what writing and selling guarantee of an option.
-/

namespace Frogop.BtcUnderlying

open Outcome World

/-- A freshly deployed type-2 pool. -/
structure Deployed (w : State) : Prop where
  pool : ∃ underlying premiumToken feeRecipient gracePeriod bridge,
    onDeployment underlying premiumToken feeRecipient gracePeriod bridge = .ok (w.pool, w.own)
  events : w.events = []

/-- What a call `c` of `tx` can do to a stored option, in a pool with storage `p`. -/
inductive Transition (p : PoolStorage) (tx : Tx) (c : Call) :
    OptionRecord → OptionRecord → Prop
  | stays (o : OptionRecord) : Transition p tx c o o
  | bought (o : OptionRecord) (hc : c = .buyOption o.id) (hopen : o.status = .OPEN)
      (hblock : tx.block < o.expiryBlock) (hwriter : tx.sender ≠ o.writer) :
      Transition p tx c o { o with buyer := tx.sender, status := .PURCHASED }
  | cancelled (o : OptionRecord) (hc : c = .cancelOption o.id) (hopen : o.status = .OPEN)
      (hwriter : tx.sender = o.writer) : Transition p tx c o { o with status := .CANCELLED }
  | exercised (o : OptionRecord) (hc : c = .exercise o.id) (hbought : o.status = .PURCHASED)
      (hbuyer : tx.sender = o.buyer) (hexpiry : o.expiryBlock ≤ tx.block)
      (hgrace : tx.block < p.graceEnd o) : Transition p tx c o { o with status := .EXERCISED }
  | settled (o : OptionRecord) (hc : c = .settle o.id) (hbought : o.status = .PURCHASED)
      (hgrace : p.graceEnd o ≤ tx.block) : Transition p tx c o { o with status := .EXPIRED }

/-- Everything a successful call `c` of `tx` does to the option table. -/
abbrev Advances (tx : Tx) (c : Call) (p p' : PoolStorage) : Prop :=
  Advance (Transition p tx c) (OptionsPool.Fresh tx p.nextId) p p'

section

variable {env : Env} {tx : Tx} {c : Call} {w w' : State} {r : Response} {i : ℕ}
  {o o' : OptionRecord} {p : PoolStorage}

lemma Deployed.base (h : Deployed w) : Frogop.Deployed w := by
  obtain ⟨underlying, premiumToken, feeRecipient, gracePeriod, bridge, hdeploy⟩ := h.pool
  simp only [onDeployment, bind_eq_ok, require_eq_ok, pure_eq, Except.ok.injEq,
    Prod.mk.injEq] at hdeploy
  obtain ⟨_, hpool, -, -, rfl, -⟩ := hdeploy
  exact ⟨⟨underlying, premiumToken, feeRecipient, gracePeriod, hpool⟩, h.events⟩

lemma Deployed.own (h : Deployed w) : w.own = ⟨fun _ => 0, fun _ => Bytes32.zero⟩ := by
  obtain ⟨underlying, premiumToken, feeRecipient, gracePeriod, bridge, hdeploy⟩ := h.pool
  simp only [onDeployment, bind_eq_ok, require_eq_ok, pure_eq, Except.ok.injEq,
    Prod.mk.injEq] at hdeploy
  obtain ⟨_, -, -, -, -, hown⟩ := hdeploy
  exact hown.symm

lemma Testnet.deployed : Deployed Testnet.world :=
  ⟨⟨Frogop.Testnet.account 2, Frogop.Testnet.account 3, Frogop.Testnet.account 4, 144,
    Frogop.Testnet.account 5, rfl⟩, rfl⟩

lemma Transition.sameTerms (h : Transition p tx c o o') : o.SameTerms o' := by
  cases h <;> exact .update _ _ _

/-! ### Calls about one option -/

/-- A call that leaves the escrows alone and only adds events. -/
structure Announces (w w' : State) : Prop where
  own : w'.own = w.own
  events : ∃ events, w'.events = w.events ++ events

lemma cancelOption_update (h : cancelOption env tx i w = .ok (r, w')) :
    w.pool.options.existsAt i ∧ tx.sender = (w.option i).writer ∧ (w.option i).status = .OPEN ∧
      w'.pool = { w.pool with options := w.pool.options.setStatus i .CANCELLED } ∧
      Announces w w' := by
  cases htype : (w.option i).optionType with
  | CALL =>
    obtain ⟨hex, hwriter, hopen, rfl⟩ := cancelOption_call htype h
    exact ⟨hex, hwriter, hopen, rfl, rfl, _, rfl⟩
  | PUT =>
    rw [cancelOption_put htype] at h
    obtain ⟨_, _, _, _, hex, hwriter, hopen, -, -, -, -, -, -, rfl⟩ := OptionsPool.cancelOption_ok h
    exact ⟨hex, hwriter, hopen, rfl, rfl, _, rfl⟩

lemma settle_update (h : settle env tx i w = .ok (r, w')) :
    w.pool.options.existsAt i ∧ (w.option i).status = .PURCHASED ∧
      w.pool.graceEnd (w.option i) ≤ tx.block ∧
      w'.pool = { w.pool with options := w.pool.options.setStatus i .EXPIRED } ∧
      Announces w w' := by
  cases htype : (w.option i).optionType with
  | CALL =>
    obtain ⟨hex, hbought, hgrace, rfl⟩ := settle_call htype h
    exact ⟨hex, hbought, hgrace, rfl, rfl, _, rfl⟩
  | PUT =>
    rw [settle_put htype] at h
    obtain ⟨_, _, hex, hbought, hgrace, -, -, -, rfl⟩ := OptionsPool.settle_ok h
    exact ⟨hex, hbought, hgrace, rfl, rfl, _, rfl⟩

/-! ### Calls -/

lemma writeOptionBtc_advance {t s e a q : ℕ} (h : writeOptionBtc env tx t s e a q w = .ok (r, w')) :
    Advances tx (.writeOptionBtc t s e a q) w.pool w'.pool := by
  obtain ⟨⟨hs, ha, hq⟩, hpast, hfar, hcall | hput⟩ := writeOptionBtc_ok h
  · obtain ⟨_, _, -, -, -, -, -, hpool, -⟩ := writeCall_ok hcall
    rw [hpool]
    exact advance_of_set (fun _ => .stays _) ⟨.CALL, s, e, a, q, a, rfl, hs, hq, hpast, hfar, rfl⟩
  · obtain ⟨collateral, hcoll, -, -, hpool, -⟩ := writePut_ok hput
    rw [hpool]
    exact advance_of_set (fun _ => .stays _)
      ⟨.PUT, s, e, a, q, collateral, rfl, hs, hq, hpast, hfar, hcoll⟩

/-- A call that rewrites the option it is about. -/
lemma advances_of_update {s : OptionStorage} (hinv : TableInv w.pool)
    (hex : w.pool.options.existsAt i) (hget : s.get = Function.update w.pool.options.get i o')
    (ht : Transition w.pool tx c (w.option i) o') :
    Advances tx c w.pool { w.pool with options := s } :=
  advance_of_update (fun _ _ => .stays _) hget ((hinv i).mp hex) ht

/-- What a successful call does to the option table. -/
lemma exec_advance (hinv : TableInv w.pool) (h : exec env tx c w = .ok (r, w')) :
    Advances tx c w.pool w'.pool := by
  cases c with
  | writeOptionBtc t s e a q => exact writeOptionBtc_advance h
  | buyOption i =>
    obtain ⟨_, _, _, hex, hopen, hblock, hwriter, -, -, -, -, -, rfl⟩ := OptionsPool.buyOption_ok h
    exact advances_of_update hinv hex (get_setBuyer_setStatus _ _ _)
      (.bought _ rfl hopen hblock hwriter)
  | exercise i =>
    obtain ⟨_, _, _, hex, hbought, hbuyer, hexpiry, hgrace, -, -, hpool, -⟩ := exercise_ok h
    rw [hpool]
    exact advances_of_update hinv hex OptionStorage.get_setStatus
      (.exercised _ rfl hbought hbuyer hexpiry hgrace)
  | cancelOption i =>
    obtain ⟨hex, hwriter, hopen, hpool, -⟩ := cancelOption_update h
    rw [hpool]
    exact advances_of_update hinv hex OptionStorage.get_setStatus (.cancelled _ rfl hopen hwriter)
  | settle i =>
    obtain ⟨hex, hbought, hgrace, hpool, -⟩ := settle_update h
    rw [hpool]
    exact advances_of_update hinv hex OptionStorage.get_setStatus (.settled _ rfl hbought hgrace)
  | getOption i =>
    rw [getOption_ok h]
    exact advance_of_same rfl rfl rfl rfl rfl fun _ => .stays _
  | updateFeeRecipient newRecipient =>
    obtain ⟨-, -, -, rfl⟩ := updateFeeRecipient_ok h
    exact advance_of_same rfl rfl rfl rfl rfl fun _ => .stays _
  | registerBtcPubkey data =>
    obtain ⟨_, -, -, -, rfl⟩ := registerBtcPubkey_ok h
    exact advance_of_same rfl rfl rfl rfl rfl fun _ => .stays _

lemma exec_tableInv (hinv : TableInv w.pool) (htx : tx.FromAccount env)
    (h : exec env tx c w = .ok (r, w')) : TableInv w'.pool := by
  refine (exec_advance hinv h).tableInv (fun _ _ ht => ht.sameTerms.writer) (fun o ho => ?_) hinv
  rw [ho.writer]
  exact htx.ne_zero

/-! ### Runs -/

/-- What writing and selling guarantee of an option. -/
structure Sellable (env : Env) (o : OptionRecord) : Prop where
  collateral : ∃ collateral, o.collateral = .ok collateral
  expiry : o.expiryBlock < u64Size
  buyer : o.status = .PURCHASED → o.buyer ≠ env.contractAddress ∧ o.buyer ≠ Address.zero

lemma sellable_of_fresh {n : ℕ} (h : OptionsPool.Fresh tx n o) : Sellable env o := by
  obtain ⟨t, s, e, a, p, collateral, rfl, -, -, -, hfar, hcoll⟩ := h
  exact ⟨⟨collateral, hcoll⟩, hfar.trans_lt (u64Add_lt _ _), by simp [newOption]⟩

lemma Transition.sellable (htx : tx.FromAccount env) (ht : Transition p tx c o o')
    (ho : Sellable env o) : Sellable env o' := by
  have hterms := ht.sameTerms
  refine ⟨?_, hterms.expiryBlock ▸ ho.expiry, ?_⟩
  · rw [hterms.collateral]
    exact ho.collateral
  · cases ht with
    | stays => exact ho.buyer
    | bought => exact fun _ => ⟨htx.ne_pool, htx.ne_zero⟩
    | _ => simp

/-- What holds in every state of a run. -/
structure LifeInv (env : Env) (w : State) : Prop where
  table : TableInv w.pool
  graceMin : minGracePeriodBlocks ≤ w.pool.gracePeriod
  graceMax : w.pool.gracePeriod ≤ maxGracePeriodBlocks
  options : ∀ i < w.pool.nextId, Sellable env (w.option i)

lemma lifeInv_of_run {others : Ledger → Ledger → Prop} {w₀ : State}
    {h : Lts.History State (Label Call)} (hdep : Deployed w₀)
    (hrun : Lts.Run (Step env others (exec env)) w₀ h w) : LifeInv env w := by
  refine hrun.invariant (I := LifeInv env) ?_ ?_
  · obtain ⟨hnext, -, -, hmin, hmax, -⟩ := hdep.base.spec
    exact ⟨hdep.base.tableInv, hmin, hmax, fun i hi => by omega⟩
  · intro v l u hv hstep
    cases hstep with
    | call htx hexec =>
      have hadv := exec_advance hv.table hexec
      constructor
      · exact exec_tableInv hv.table htx hexec
      · rw [hadv.gracePeriod]
        exact hv.graceMin
      · rw [hadv.gracePeriod]
        exact hv.graceMax
      · exact hadv.keeps (fun _ _ ht ho => ht.sellable htx ho) (fun _ ho => sellable_of_fresh ho)
          hv.options
    | reverted => exact hv
    | elsewhere => exact ⟨hv.table, hv.graceMin, hv.graceMax, hv.options⟩

end

end Frogop.BtcUnderlying
