import Frogop.Market.Kinds
import Frogop.Pool.WindDown

/-!
# No collateral stays behind

From every state that a pool can reach, once the grace periods of its live options are over, there
are calls that close all of them and give every writer its collateral. The one exception is the
first option of a type-1 pool while it is reserved.
-/

namespace Frogop

open Outcome World Ledger Custody

/-! ### What the calls of all kinds keep -/

/-- What closing an option relies on. -/
structure OptionRecord.Refundable (env : Env) (o : OptionRecord) : Prop where
  writer_ne_pool : o.writer ≠ env.contractAddress
  collateral : o.collateral = .ok o.lockedAmount

section

variable {env : Env} {tx : Tx} {n : ℕ} {o o' : OptionRecord}

lemma OptionsPool.Fresh.refundable (htx : tx.FromAccount env) (ho : OptionsPool.Fresh tx n o) :
    o.Refundable env := by
  refine ⟨ho.writer ▸ htx.ne_pool, ?_⟩
  obtain ⟨t, s, e, a, p, c, rfl, -, -, -, -, hc⟩ := ho
  have hcoll : (newOption tx t s e a p n).collateral = .ok c := hc
  rw [hcoll, OptionRecord.collateral_eq hcoll]

lemma OptionRecord.Refundable.sameTerms (ho : o.Refundable env) (h : o.SameTerms o') :
    o'.Refundable env := by
  refine ⟨h.writer ▸ ho.writer_ne_pool, ?_⟩
  rw [h.collateral, ho.collateral]
  simp only [OptionRecord.lockedAmount, h.optionType, h.strikePrice, h.underlyingAmount]

end

namespace PoolType

variable {k : PoolType} {env : Env} {others : Ledger → Ledger → Prop} {w₀ w w' : World k.Own}
  {h : Lts.History (World k.Own) (Label k.Call)} {tx : Tx} {c : k.Call} {r : Response} {i : ℕ}

lemma table_of_run (hdep : k.Deployed w₀) (hrun : Lts.Run (Step env others (k.exec env)) w₀ h w) :
    TableInv w.pool := by
  cases k with
  | op20 => exact OptionsPool.table_of_run hdep hrun
  | btcQuote => exact (BtcQuote.twoPhase_of_run hdep hrun).table
  | btcUnderlying => exact BtcUnderlying.table_of_run hdep hrun

lemma refundable_of_run (hdep : k.Deployed w₀)
    (hrun : Lts.Run (Step env others (k.exec env)) w₀ h w) :
    ∀ i < w.pool.nextId, (w.option i).Refundable env := by
  refine options_of_run (Deployed.base hdep) hrun fun h v tx c r v' hrun htx hexec => ?_
  cases k with
  | op20 =>
    exact (OptionsPool.exec_advance (OptionsPool.table_of_run hdep hrun) hexec).keeps
      (fun _ _ ht ho => ho.sameTerms ht.sameTerms) fun _ ho => ho.refundable htx
  | btcQuote =>
    have hinv := BtcQuote.twoPhase_of_run hdep hrun
    exact (BtcQuote.exec_advance hinv.table hinv.reserves hexec).keeps
      (fun _ _ ht ho => ho.sameTerms ht.sameTerms) fun _ ho => ho.refundable htx
  | btcUnderlying =>
    exact (BtcUnderlying.exec_advance (BtcUnderlying.table_of_run hdep hrun) hexec).keeps
      (fun _ _ ht ho => ho.sameTerms ht.sameTerms) fun _ ho => ho.refundable htx

/-! ### Closing calls -/

def cancelOption : (k : PoolType) → ℕ → k.Call
  | op20 => OptionsPool.Call.cancelOption
  | btcQuote => BtcQuote.Call.cancelOption
  | btcUnderlying => BtcUnderlying.Call.cancelOption

def settle : (k : PoolType) → ℕ → k.Call
  | op20 => OptionsPool.Call.settle
  | btcQuote => BtcQuote.Call.settle
  | btcUnderlying => BtcUnderlying.Call.settle

/-- The pool holds no collateral for a CALL of a type-2 pool. -/
lemma put_of_live {o : OptionRecord} (h : BtcUnderlying.isLive o = true) : o.optionType = .PUT := by
  cases htype : o.optionType with
  | CALL => rw [BtcUnderlying.isLive_of_call htype] at h; cases h
  | PUT => rfl

lemma closesAlike (k : PoolType) (env : Env) :
    ClosesAlike env (k.exec env) k.cancelOption k.settle fun o => k.isLive o = true := by
  cases k with
  | op20 => exact ⟨fun _ _ _ _ => rfl, fun _ _ _ _ => rfl⟩
  | btcQuote => exact ⟨fun _ _ _ _ => rfl, fun _ _ _ _ => rfl⟩
  | btcUnderlying =>
    exact ⟨fun tx i v h => BtcUnderlying.cancelOption_put (put_of_live h),
      fun tx i v h => BtcUnderlying.settle_put (put_of_live h)⟩

/-- The options a pool holds collateral for. -/
def liveIds (k : PoolType) (p : PoolStorage) : List ℕ :=
  (List.range p.nextId).filter fun i => k.isLive (p.options.get i)

lemma mem_liveIds {p : PoolStorage} :
    i ∈ k.liveIds p ↔ i < p.nextId ∧ k.isLive (p.options.get i) = true := by
  simp [liveIds]

lemma nodup_liveIds (p : PoolStorage) : (k.liveIds p).Nodup := List.nodup_range.filter _

/-- A closed option is owed nothing. -/
lemma isLive_closed (o : OptionRecord) : k.isLive o.closed = false := by
  have hstatus : o.closed.status = .CANCELLED ∨ o.closed.status = .EXPIRED := by
    simp only [OptionRecord.closed]
    split_ifs <;> simp
  cases k <;> rcases hstatus with hs | hs <;>
    simp [isLive, OptionsPool.isLive, BtcQuote.isLive, BtcUnderlying.isLive, hs]

lemma sum_filter_range (b : ℕ → Bool) (f : ℕ → ℕ) (n : ℕ) :
    (((List.range n).filter b).map f).sum = ∑ i ∈ Finset.range n, if b i then f i else 0 := by
  induction n with
  | zero => rfl
  | succ n ih =>
    rw [List.range_succ, List.filter_append, List.map_append, List.sum_append, ih,
      Finset.sum_range_succ]
    cases hb : b n <;> simp [hb]

lemma locked_eq (isLive : OptionRecord → Bool) (p : PoolStorage) (o : OptionRecord)
    (t a : Address) :
    locked isLive p o t = if isLive o then collateralEntry p o a t a else 0 := by
  rw [locked_apply]
  cases hlive : isLive o <;> simp [collateralEntry, entry]

/-- What the pool loses by closing its live options is what it owes. -/
lemma sum_debt (p : PoolStorage) (t a : Address) :
    ((k.liveIds p).map fun i => collateralEntry p (p.options.get i) a t a).sum
      = debt k.isLive p t := by
  rw [liveIds, sum_filter_range, debt, total]
  exact Finset.sum_congr rfl fun i _ => (locked_eq _ _ _ _ _).symm

/-- The collateral that an account has in the live options it wrote. -/
def refunds (k : PoolType) (w : World k.Own) (t a : Address) : ℕ :=
  ∑ i ∈ Finset.range w.pool.nextId,
    if k.isLive (w.option i) then
      collateralEntry w.pool (w.option i) (w.option i).writer t a
    else 0

lemma status_of_live {o : OptionRecord} (hlive : k.isLive o = true)
    (hreserved : o.status ≠ .RESERVED) :
    o.status = .OPEN ∨ o.status = .PURCHASED := by
  cases k with
  | op20 => simpa [isLive, OptionsPool.isLive] using hlive
  | btcQuote =>
    have hcases : o.status = .OPEN ∨ o.status = .PURCHASED ∨ o.status = .RESERVED := by
      simpa [isLive, BtcQuote.isLive] using hlive
    tauto
  | btcUnderlying =>
    have hcases : o.optionType = .PUT ∧ (o.status = .OPEN ∨ o.status = .PURCHASED) := by
      simpa [isLive, BtcUnderlying.isLive, put_of_live hlive] using hlive
    exact hcases.2

/-- The grace periods of the live options are over. -/
def Over (k : PoolType) (w : World k.Own) (block : ℕ) : Prop :=
  ∀ i < w.pool.nextId, k.isLive (w.option i) = true →
    (w.option i).expiryBlock ≤ block ∧ w.pool.graceEnd (w.option i) ≤ block

/-- The tokens let the pool pay the writers of its live options. -/
def PaysWriters (k : PoolType) (env : Env) (w : World k.Own) : Prop :=
  ∀ i < w.pool.nextId, k.isLive (w.option i) = true →
    w.ledger.refuses (w.pool.collateralToken (w.option i).optionType) env.contractAddress
      (w.option i).writer = false

/-- A pool without reserved options closes all that are live. -/
lemma closes_all (htable : TableInv w.pool)
    (hback : ∀ i < w.pool.nextId, (w.option i).Refundable env)
    (hcov : Covered k.isLive env w) (hover : k.Over w tx.block) (hpays : k.PaysWriters env w)
    (hreserved : ∀ i < w.pool.nextId, k.isLive (w.option i) = true →
      (w.option i).status ≠ .RESERVED) :
    ∃ w', replay (k.exec env) w
        (windDown k.cancelOption k.settle tx w (k.liveIds w.pool)) = .ok w' ∧
      Closed env w (k.liveIds w.pool) w' := by
  refine (closesAlike k env).windDown (nodup_liveIds _) (fun i hmem => ?_) fun t => ?_
  · obtain ⟨hi, hlive⟩ := mem_liveIds.mp hmem
    obtain ⟨hexpired, hended⟩ := hover i hi hlive
    exact ⟨⟨(htable i).mpr hi, status_of_live hlive (hreserved i hi hlive), (hback i hi).collateral,
      hexpired, hended, hpays i hi hlive⟩, hlive⟩
  · rw [sum_debt]
    exact hcov t

end PoolType

/-! ### Reservations that ran out -/

namespace BtcQuote

variable {env : Env} {w w' : State} {h : Lts.History State (Label Call)} {tx : Tx} {ids : List ℕ}
  {i n : ℕ}

/-- The reservations of the options `ids` were cancelled. -/
structure Released (w : State) (ids : List ℕ) (w' : State) : Prop where
  pool : ∃ s, w'.pool = { w.pool with options := s }
  ledger : w'.ledger = w.ledger
  released : ∀ i ∈ ids, w'.option i = { w.option i with status := .OPEN }
  others : ∀ i, i ∉ ids → w'.option i = w.option i

/-- Anybody can cancel a reservation once the option has expired. -/
lemma Holds.cancels (hn : Holds env h w n i) (hi : i ≠ 0)
    (hexpired : (w.option i).expiryBlock ≤ tx.block) :
    ∃ r w', exec env tx (.cancelReservation n) w = .ok (r, w') ∧ Released w [i] w' := by
  have hex : w.own.reservations.existsAt n := by
    rw [ReservationStorage.existsAt_iff, hn.stored]
    exact hi
  have hblock : (w.own.reservations.get n).expiryBlock ≤ tx.block := hn.block.le.trans hexpired
  have hexec : ∃ r w', cancelReservation env tx n w = .ok (r, w') := by
    simp only [cancelReservation, bind_eq_ok, require_eq_ok, emit_eq_ok, respond_eq_ok]
    exact ⟨_, _, (), hex, (), hn.pending, (), hblock, _, ⟨.inr (by simp [Field.width]), rfl⟩, _,
      ⟨.inr (by simp [Field.width]), rfl⟩, .inr (by simp [Field.width]), rfl⟩
  obtain ⟨r, w', hexec⟩ := hexec
  obtain ⟨-, -, -, -, hpool, -, hledger⟩ := cancelReservation_ok hexec
  rw [hn.stored] at hpool
  refine ⟨r, w', hexec, ⟨_, hpool⟩, hledger, fun j hj => ?_, fun j hj => ?_⟩
  · rw [List.mem_singleton.mp hj, World.option, hpool, OptionStorage.get_setStatus_self]
  · rw [List.mem_singleton] at hj
    rw [World.option, hpool, OptionStorage.get_setStatus_of_ne hj]

lemma Released.append {w'' : State} {jds : List ℕ} (hw : Released w ids w')
    (hw' : Released w' jds w'') (hj : ∀ j ∈ jds, j ∉ ids) : Released w (ids ++ jds) w'' := by
  refine ⟨?_, hw'.ledger.trans hw.ledger, fun i hi => ?_, fun i hi => ?_⟩
  · obtain ⟨s, hs⟩ := hw.pool
    obtain ⟨s', hs'⟩ := hw'.pool
    exact ⟨s', by rw [hs', hs]⟩
  · rcases List.mem_append.mp hi with hmem | hmem
    · rw [hw'.others i fun hmem' => hj i hmem' hmem, hw.released i hmem]
    · rw [hw'.released i hmem, hw.others i (hj i hmem)]
  · simp only [List.mem_append, not_or] at hi
    rw [hw'.others i hi.2, hw.others i hi.1]

/-- The reservations of all reserved options but the first can be cancelled. -/
lemma TwoPhase.releases (hinv : TwoPhase env h w) (htx : tx.FromAccount env) (hnodup : ids.Nodup)
    (hids : ∀ i ∈ ids, i ≠ 0 ∧ i < w.pool.nextId ∧ (w.option i).status = .RESERVED ∧
      (w.option i).expiryBlock ≤ tx.block) :
    ∃ (ns : List ℕ) (w' : State),
      replay (exec env) w (ns.map fun n => (tx, .cancelReservation n)) = .ok w' ∧
      Released w ids w' := by
  induction ids generalizing h w with
  | nil => exact ⟨[], w, rfl, ⟨_, rfl⟩, rfl, by simp, fun _ _ => rfl⟩
  | cons i ids ih =>
    obtain ⟨hi, hnodup⟩ := List.nodup_cons.mp hnodup
    obtain ⟨hne, hlt, hreserved, hexpired⟩ := hids i List.mem_cons_self
    obtain ⟨n, hn⟩ := hinv.held i hlt hreserved
    obtain ⟨r, w₁, hexec, hreleased⟩ := hn.cancels hne hexpired
    have hapart : ∀ j ∈ ids, j ∉ [i] := fun j hj hmem => hi (List.mem_singleton.mp hmem ▸ hj)
    have hstep : Step env (fun _ _ => True) (exec env) w (.call tx (.cancelReservation n) r) w₁ :=
      .call htx hexec
    have hnext := hinv.step hstep
    obtain ⟨s, hs⟩ := hreleased.pool
    have hstill : ∀ j ∈ ids, j ≠ 0 ∧ j < w₁.pool.nextId ∧ (w₁.option j).status = .RESERVED ∧
        (w₁.option j).expiryBlock ≤ tx.block := by
      intro j hj
      rw [hreleased.others j (hapart j hj), hs]
      exact hids j (List.mem_cons_of_mem _ hj)
    obtain ⟨ns, w', hreplay, hrest⟩ := ih hnext hnodup hstill
    refine ⟨n :: ns, w', ?_, hreleased.append hrest hapart⟩
    rw [List.map_cons, replay, List.foldlM_cons, hexec, ok_bind]
    exact hreplay

end BtcQuote

namespace PoolType

variable {k : PoolType} {env : Env} {w₀ w v w' : World k.Own} {tx : Tx}
  {h : Lts.History (World k.Own) (Label k.Call)}

/-- All live options were closed, and every writer has their collateral. -/
structure WoundDown (k : PoolType) (env : Env) (w w' : World k.Own) : Prop where
  nextId : w'.pool.nextId = w.pool.nextId
  closed : ∀ i < w.pool.nextId, k.isLive (w'.option i) = false
  pool : ∀ t, w'.ledger.balanceOf t env.contractAddress + debt k.isLive w.pool t
    = w.ledger.balanceOf t env.contractAddress
  writers : ∀ t a, a ≠ env.contractAddress →
    w'.ledger.balanceOf t a = w.ledger.balanceOf t a + k.refunds w t a

lemma woundDown_of_closed (hback : ∀ i < w.pool.nextId, (w.option i).Refundable env)
    (hclosed : Closed env w (k.liveIds w.pool) w') : k.WoundDown env w w' := by
  obtain ⟨s, hs⟩ := hclosed.pool
  refine ⟨by rw [hs], fun i hi => ?_, fun t => ?_, fun t a ha => ?_⟩
  · by_cases hlive : k.isLive (w.option i) = true
    · rw [hclosed.closed i (mem_liveIds.mpr ⟨hi, hlive⟩)]
      exact isLive_closed _
    · rw [hclosed.others i fun hmem => hlive (mem_liveIds.mp hmem).2]
      exact Bool.eq_false_iff.mpr hlive
  · have hbal := hclosed.balances t env.contractAddress
    have hnone : ∀ i ∈ k.liveIds w.pool,
        collateralEntry w.pool (w.option i) (w.option i).writer t env.contractAddress = 0 :=
      fun i hi => entry_of_ne (hback i (mem_liveIds.mp hi).1).writer_ne_pool.symm
    rw [sum_debt, List.map_congr_left hnone, List.map_const', List.sum_replicate] at hbal
    simpa using hbal
  · have hbal := hclosed.balances t a
    have hnone : ∀ i ∈ k.liveIds w.pool,
        collateralEntry w.pool (w.option i) env.contractAddress t a = 0 :=
      fun i _ => entry_of_ne ha
    rw [List.map_congr_left hnone, List.map_const', List.sum_replicate, liveIds,
      sum_filter_range] at hbal
    simpa [refunds] using hbal

/-- The same options, but for their status among the live ones. -/
structure Reopened (k : PoolType) (w v : World k.Own) : Prop where
  pool : ∃ s, v.pool = { w.pool with options := s }
  ledger : v.ledger = w.ledger
  terms : ∀ i < w.pool.nextId, (w.option i).SameTerms (v.option i)
  live : ∀ i < w.pool.nextId, k.isLive (v.option i) = k.isLive (w.option i)

lemma Reopened.nextId (hv : k.Reopened w v) : v.pool.nextId = w.pool.nextId := by
  obtain ⟨s, hs⟩ := hv.pool
  rw [hs]

lemma Reopened.collateralEntry {i : ℕ} (hv : k.Reopened w v) (hi : i < w.pool.nextId) :
    collateralEntry v.pool (v.option i) = collateralEntry w.pool (w.option i) := by
  obtain ⟨s, hs⟩ := hv.pool
  have hterms := hv.terms i hi
  funext a t b
  simp only [Frogop.collateralEntry, OptionRecord.lockedAmount, hterms.optionType,
    hterms.strikePrice, hterms.underlyingAmount, hs]
  rfl

lemma WoundDown.of_reopened (hv : k.Reopened w v) (h : k.WoundDown env v w') :
    k.WoundDown env w w' := by
  have hnext := hv.nextId
  obtain ⟨s, hs⟩ := hv.pool
  refine ⟨h.nextId.trans hnext, fun i hi => h.closed i (hnext ▸ hi), fun t => ?_, fun t a ha => ?_⟩
  · have hdebt : debt k.isLive v.pool t = debt k.isLive w.pool t := by
      rw [debt, debt, hnext]
      refine total_congr fun i hi => ?_
      have hentry := hv.collateralEntry hi
      simp only [World.option] at hentry
      rw [locked_eq _ _ _ t t, locked_eq _ _ _ t t, hv.live i hi, hentry]
    rw [← hdebt, ← hv.ledger]
    exact h.pool t
  · have hrefunds : k.refunds v t a = k.refunds w t a := by
      rw [refunds, refunds, hnext]
      refine Finset.sum_congr rfl fun i hi => ?_
      have hlt := Finset.mem_range.mp hi
      rw [hv.live i hlt, hv.collateralEntry hlt, (hv.terms i hlt).writer]
    rw [← hrefunds, ← hv.ledger]
    exact h.writers t a ha

/-- The calls that close a pool can be made by the writers and one other account. -/
def ClosingCalls (k : PoolType) (env : Env) (w : World k.Own) (tx : Tx)
    (calls : List (Tx × k.Call)) : Prop :=
  ∀ p ∈ calls, p.1.FromAccount env ∧ p.1.block = tx.block ∧
    (p.1.sender = tx.sender ∨ ∃ i < w.pool.nextId, p.1.sender = (w.option i).writer)

lemma closingCalls_windDown (hback : ∀ i < w.pool.nextId, (w.option i).Refundable env)
    (htable : TableInv w.pool) (htx : tx.FromAccount env) :
    k.ClosingCalls env w tx (windDown k.cancelOption k.settle tx w (k.liveIds w.pool)) := by
  intro p hp
  obtain ⟨i, hi, rfl⟩ := List.mem_map.mp hp
  obtain ⟨hlt, -⟩ := mem_liveIds.mp hi
  rw [closing]
  split_ifs with hopen
  · exact ⟨⟨(hback i hlt).writer_ne_pool, (htable i).mpr hlt⟩, rfl, .inr ⟨i, hlt, rfl⟩⟩
  · exact ⟨htx, rfl, .inl rfl⟩

/-- A pool that has run and has no reserved options can be wound down. -/
lemma winds_down_of_run (hdep : k.Deployed w₀)
    (hrun : Lts.Run (Step env (Ledger.GrowsAt env.contractAddress) (k.exec env)) w₀ h w)
    (htx : tx.FromAccount env) (hover : k.Over w tx.block) (hpays : k.PaysWriters env w)
    (hreserved : ∀ i < w.pool.nextId, k.isLive (w.option i) = true →
      (w.option i).status ≠ .RESERVED) :
    ∃ calls w', k.ClosingCalls env w tx calls ∧ replay (k.exec env) w calls = .ok w' ∧
      k.WoundDown env w w' := by
  have htable := table_of_run hdep hrun
  have hback := refundable_of_run hdep hrun
  obtain ⟨w', hreplay, hclosed⟩ := closes_all htable hback (covered_of_run hdep hrun) hover hpays
    hreserved
  exact ⟨_, w', closingCalls_windDown hback htable htx, hreplay, woundDown_of_closed hback hclosed⟩

end PoolType

lemma replay_append {σ C : Type} {exec : Tx → C → World σ → Except Revert (Reply σ)}
    {w v w' : World σ} {txs txs' : List (Tx × C)} (h : replay exec w txs = .ok v)
    (h' : replay exec v txs' = .ok w') : replay exec w (txs ++ txs') = .ok w' := by
  rw [replay] at h
  rw [replay, List.foldlM_append, h]
  exact h'

namespace BtcQuote

variable {env : Env} {w₀ w v : State} {h : Lts.History State (Label Call)} {tx : Tx}

/-- The reserved options of a pool. -/
def reservedIds (p : PoolStorage) : List ℕ :=
  (List.range p.nextId).filter fun i => (p.options.get i).status = .RESERVED

lemma mem_reservedIds {p : PoolStorage} {i : ℕ} :
    i ∈ reservedIds p ↔ i < p.nextId ∧ (p.options.get i).status = .RESERVED := by
  simp [reservedIds]

lemma reopened_of_released (hv : Released w (reservedIds w.pool) v) :
    PoolType.btcQuote.Reopened w v := by
  have hcases : ∀ i < w.pool.nextId, (w.option i).status = .RESERVED ∧
      v.option i = { w.option i with status := .OPEN } ∨ v.option i = w.option i := by
    intro i hi
    by_cases hstatus : (w.option i).status = .RESERVED
    · exact .inl ⟨hstatus, hv.released i (mem_reservedIds.mpr ⟨hi, hstatus⟩)⟩
    · exact .inr (hv.others i fun hmem => hstatus (mem_reservedIds.mp hmem).2)
  refine ⟨hv.pool, hv.ledger, fun i hi => ?_, fun i hi => ?_⟩
  · rcases hcases i hi with ⟨-, hsame⟩ | hsame
    · rw [hsame]
      exact .update _ _ _
    · rw [hsame]
      exact .refl _
  · rcases hcases i hi with ⟨hstatus, hsame⟩ | hsame
    · rw [hsame]
      simp [PoolType.isLive, isLive, hstatus]
    · rw [hsame]

/-- The reservations are cancelled first. -/
lemma winds_down_of_run (hdep : Deployed w₀)
    (hrun : Lts.Run (Step env (Ledger.GrowsAt env.contractAddress) (exec env)) w₀ h w)
    (htx : tx.FromAccount env) (hover : PoolType.btcQuote.Over w tx.block)
    (hpays : PoolType.btcQuote.PaysWriters env w) (hfirst : (w.option 0).status ≠ .RESERVED) :
    ∃ calls w', PoolType.btcQuote.ClosingCalls env w tx calls ∧
      replay (exec env) w calls = .ok w' ∧ PoolType.btcQuote.WoundDown env w w' := by
  have hids : ∀ i ∈ reservedIds w.pool, i ≠ 0 ∧ i < w.pool.nextId ∧
      (w.option i).status = .RESERVED ∧ (w.option i).expiryBlock ≤ tx.block := by
    intro i hmem
    obtain ⟨hi, hstatus⟩ := mem_reservedIds.mp hmem
    exact ⟨fun hzero => hfirst (hzero ▸ hstatus), hi, hstatus,
      (hover i hi (isLive_of_reserved _ hstatus)).1⟩
  obtain ⟨ns, v, hreplay, hreleased⟩ :=
    (twoPhase_of_run hdep hrun).releases htx (List.nodup_range.filter _) hids
  have hreopened := reopened_of_released hreleased
  have hnext := hreopened.nextId
  obtain ⟨s, hs⟩ := hreopened.pool
  -- the cancellations continue the run, so all that holds of runs holds of the pool they leave
  have hcancel : ∀ p ∈ ns.map fun n => (tx, Call.cancelReservation n), p.1 = tx := by simp
  have hrun' := hrun.trans (run_of_replay _ (fun p hp => hcancel p hp ▸ htx) hreplay)
  have hover' : PoolType.btcQuote.Over v tx.block := by
    intro i hi hlive
    rw [hnext] at hi
    have hterms := hreopened.terms i hi
    obtain ⟨hexpired, hended⟩ := hover i hi (hreopened.live i hi ▸ hlive)
    rw [PoolStorage.graceEnd, hterms.expiryBlock, hs]
    exact ⟨hexpired, hended⟩
  have hpays' : PoolType.btcQuote.PaysWriters env v := by
    intro i hi hlive
    rw [hnext] at hi
    have hterms := hreopened.terms i hi
    rw [hreopened.ledger, hterms.optionType, hterms.writer, hs]
    exact hpays i hi (hreopened.live i hi ▸ hlive)
  have hfree : ∀ i < v.pool.nextId, (v.option i).status ≠ .RESERVED := by
    intro i hi
    rw [hnext] at hi
    by_cases hstatus : (w.option i).status = .RESERVED
    · rw [hreleased.released i (mem_reservedIds.mpr ⟨hi, hstatus⟩)]
      simp
    · rw [hreleased.others i fun hmem => hstatus (mem_reservedIds.mp hmem).2]
      exact hstatus
  obtain ⟨calls, w', hcalls, hrest, hdown⟩ := PoolType.winds_down_of_run (k := .btcQuote) hdep hrun'
    htx hover' hpays' fun i hi _ => hfree i hi
  refine ⟨_, w', ?_, replay_append hreplay hrest, hdown.of_reopened hreopened⟩
  intro p hp
  rcases List.mem_append.mp hp with hmem | hmem
  · rw [hcancel p hmem]
    exact ⟨htx, rfl, .inl rfl⟩
  · obtain ⟨haccount, hblock, hsender⟩ := hcalls p hmem
    refine ⟨haccount, hblock, hsender.imp_right ?_⟩
    rintro ⟨i, hi, hwriter⟩
    rw [hnext] at hi
    exact ⟨i, hi, hwriter.trans (hreopened.terms i hi).writer⟩

end BtcQuote

/-- From every state a pool reaches, once the grace periods of its live options are over, there are
calls of their writers and of any one account that close them all: the pool pays out exactly what it
owes, each writer getting the collateral of theirs. In a type-1 pool the first option must not be
reserved. -/
theorem PoolType.winds_down {k : PoolType} {env : Env} {w₀ w : World k.Own} {tx : Tx}
    {h : Lts.History (World k.Own) (Label k.Call)} (hdep : k.Deployed w₀)
    (hrun : Lts.Run (Step env (Ledger.GrowsAt env.contractAddress) (k.exec env)) w₀ h w)
    (htx : tx.FromAccount env) (hover : k.Over w tx.block) (hpays : k.PaysWriters env w)
    (hfirst : k = .btcQuote → (w.option 0).status ≠ .RESERVED) :
    ∃ calls w', k.ClosingCalls env w tx calls ∧ replay (k.exec env) w calls = .ok w' ∧
      k.WoundDown env w w' := by
  cases k with
  | op20 =>
    refine winds_down_of_run hdep hrun htx hover hpays fun i _ hlive hreserved => ?_
    simp [isLive, OptionsPool.isLive, hreserved] at hlive
  | btcQuote => exact BtcQuote.winds_down_of_run hdep hrun htx hover hpays (hfirst rfl)
  | btcUnderlying =>
    refine winds_down_of_run hdep hrun htx hover hpays fun i _ hlive hreserved => ?_
    simp [isLive, BtcUnderlying.isLive, hreserved] at hlive

/-- A type-1 pool with one option offered and one reserved gives back all of its eight units. -/
theorem winds_down_reserved :
    ∃ calls w', replay (BtcQuote.exec BtcQuote.Testnet.env) (BtcQuote.Testnet.reserved 1) calls
        = .ok w' ∧
      w'.ledger.balanceOf (Testnet.account 2) (Testnet.account 1) + 8 = 8 := by
  obtain ⟨h, hrun⟩ := BtcQuote.Testnet.run_reserved 1
    (Ledger.GrowsAt BtcQuote.Testnet.env.contractAddress) rfl
  have hover : PoolType.btcQuote.Over (BtcQuote.Testnet.reserved 1) 2000 := by
    intro i hi _
    rcases Nat.le_one_iff_eq_zero_or_eq_one.mp (Nat.lt_succ_iff.mp hi) with rfl | rfl
    · exact ⟨by decide, by decide⟩
    · exact ⟨by decide, by decide⟩
  have htx : (Testnet.tx 12 2000).FromAccount BtcQuote.Testnet.env := ⟨by decide, by decide⟩
  obtain ⟨calls, w', -, hreplay, hdown⟩ := PoolType.winds_down (k := .btcQuote)
    BtcQuote.Testnet.deployed hrun htx hover (fun _ _ _ => rfl) fun _ => by decide
  exact ⟨calls, w', hreplay, hdown.pool (Testnet.account 2)⟩

end Frogop
