import Frogop.Pool.OptionsPool.Spec
import Frogop.Pool.Table

/-!
# The life of an option in `OptionsPool`

`Transition` lists what one call can do to one stored option. Every call moves every stored option
by a transition and stores at most one new option (`exec_advance`); all properties of whole runs
follow from that.
-/

namespace Frogop.OptionsPool

open Outcome World

/-- The calls that may cancel an option. -/
def Call.Cancels (optionId : ℕ) : Call → Prop
  | .cancelOption i => i = optionId
  | .rollOption i _ _ _ => i = optionId
  | .batchCancel n a b c d e => optionId ∈ [a, b, c, d, e].take n
  | _ => False

/-- The calls that may settle an option. -/
def Call.Settles (optionId : ℕ) : Call → Prop
  | .settle i => i = optionId
  | .batchSettle n a b c d e => optionId ∈ [a, b, c, d, e].take n
  | _ => False

/-- What a call `c` of `tx` can do to a stored option, in a pool with storage `p`. -/
inductive Transition (p : PoolStorage) (tx : Tx) (c : Call) :
    OptionRecord → OptionRecord → Prop
  | stays (o : OptionRecord) : Transition p tx c o o
  | bought (o : OptionRecord) (hc : c = .buyOption o.id) (hopen : o.status = .OPEN)
      (hblock : tx.block < o.expiryBlock) (hwriter : tx.sender ≠ o.writer) :
      Transition p tx c o { o with buyer := tx.sender, status := .PURCHASED }
  | cancelled (o : OptionRecord) (hc : c.Cancels o.id) (hopen : o.status = .OPEN)
      (hwriter : tx.sender = o.writer) : Transition p tx c o { o with status := .CANCELLED }
  | exercised (o : OptionRecord) (hc : c = .exercise o.id) (hbought : o.status = .PURCHASED)
      (hbuyer : tx.sender = o.buyer) (hexpiry : o.expiryBlock ≤ tx.block)
      (hgrace : tx.block < p.graceEnd o) : Transition p tx c o { o with status := .EXERCISED }
  | settled (o : OptionRecord) (hc : c.Settles o.id) (hbought : o.status = .PURCHASED)
      (hgrace : p.graceEnd o ≤ tx.block) : Transition p tx c o { o with status := .EXPIRED }
  | transferred (o : OptionRecord) (newBuyer : Address) (hc : c = .transferOption o.id newBuyer)
      (hbought : o.status = .PURCHASED) (hbuyer : tx.sender = o.buyer)
      (hzero : newBuyer ≠ Address.zero) (hgrace : tx.block < p.graceEnd o) :
      Transition p tx c o { o with buyer := newBuyer }

/-- What a successful call has found of an option it is about. -/
structure Call.Permitted (p : PoolStorage) (tx : Tx) (c : Call) (o : OptionRecord) : Prop where
  cancels : c.Cancels o.id → o.status = .OPEN ∧ tx.sender = o.writer
  buys : c = .buyOption o.id →
    o.status = .OPEN ∧ tx.sender ≠ o.writer ∧ tx.block < o.expiryBlock
  exercises : c = .exercise o.id → o.status = .PURCHASED ∧ tx.sender = o.buyer ∧
    o.expiryBlock ≤ tx.block ∧ tx.block < p.graceEnd o
  settles : c = .settle o.id → o.status = .PURCHASED ∧ p.graceEnd o ≤ tx.block
  transfers : ∀ newBuyer, c = .transferOption o.id newBuyer →
    o.status = .PURCHASED ∧ tx.sender = o.buyer

/-- An option as a creating call stores it. -/
def Fresh (tx : Tx) (optionId : ℕ) (o : OptionRecord) : Prop :=
  ∃ t strikePrice expiryBlock underlyingAmount premium collateral,
    o = newOption tx t strikePrice expiryBlock underlyingAmount premium optionId ∧
    0 < strikePrice ∧ 0 < premium ∧
    tx.block < expiryBlock ∧ expiryBlock ≤ u64Add tx.block maxExpiryBlocks ∧
    o.collateral = .ok collateral

lemma Fresh.writer {tx : Tx} {n : ℕ} {o : OptionRecord} (ho : Fresh tx n o) :
    o.writer = tx.sender := by
  obtain ⟨t, s, e, a, p, collateral, rfl, -⟩ := ho
  rfl

lemma Fresh.unsold {tx : Tx} {n : ℕ} {o : OptionRecord} (ho : Fresh tx n o) :
    o.status = .OPEN ∧ o.buyer = Address.zero := by
  obtain ⟨t, s, e, a, p, collateral, rfl, -⟩ := ho
  exact ⟨rfl, rfl⟩

/-- Everything a successful call `c` of `tx` does to the option table. -/
abbrev Advances (tx : Tx) (c : Call) (p p' : PoolStorage) : Prop :=
  Advance (Transition p tx c) (Fresh tx p.nextId) p p'

/-! ### Methods shared by the pools -/

section

variable {σ : Type} {env : Env} {tx : Tx} {w w' : World σ} {r : Response} {i : ℕ}

lemma cancelOption_update (h : cancelOption env tx i w = .ok (r, w')) :
    w.pool.options.existsAt i ∧ tx.sender = (w.option i).writer ∧ (w.option i).status = .OPEN ∧
      w'.pool = { w.pool with options := w.pool.options.setStatus i .CANCELLED } := by
  obtain ⟨_, _, _, _, hex, hwriter, hopen, -, -, -, -, -, -, rfl⟩ := cancelOption_ok h
  exact ⟨hex, hwriter, hopen, rfl⟩

lemma settle_update (h : settle env tx i w = .ok (r, w')) :
    w.pool.options.existsAt i ∧ (w.option i).status = .PURCHASED ∧
      w.pool.graceEnd (w.option i) ≤ tx.block ∧
      w'.pool = { w.pool with options := w.pool.options.setStatus i .EXPIRED } := by
  obtain ⟨_, _, hex, hbought, hgrace, -, -, -, rfl⟩ := settle_ok h
  exact ⟨hex, hbought, hgrace, rfl⟩

/-- Writing stores one new option and leaves the others. -/
lemma writeOption_advance {T : OptionRecord → OptionRecord → Prop} (hT : ∀ o, T o o)
    {t s e a p : ℕ} (h : writeOption env tx t s e a p w = .ok (r, w')) :
    Advance T (Fresh tx w.pool.nextId) w.pool w'.pool := by
  obtain ⟨ty, collateral, l, ht, ⟨hs, ha, hp⟩, hpast, hfar, hcoll, hl, -, -, rfl⟩ :=
    writeOption_ok h
  refine advance_of_set (fun _ => hT _) ?_
  exact ⟨ty, s, e, a, p, collateral, rfl, hs, hp, hpast, hfar, hcoll⟩

end

section

variable {env : Env} {tx : Tx} {c : Call} {w v w' : State} {r : Response} {i : ℕ}
  {o o' : OptionRecord} {status : Status} {p : PoolStorage}

/-! ### Transitions -/

lemma Transition.sameTerms (h : Transition p tx c o o') : o.SameTerms o' := by
  cases h <;> exact .update _ _ _

/-- An option that has run its course is left as it is. -/
lemma Transition.terminal (h : Transition p tx c o o')
    (hterm : o.status = .EXERCISED ∨ o.status = .EXPIRED ∨ o.status = .CANCELLED) : o' = o := by
  cases h with
  | stays => rfl
  | bought _ hopen | cancelled _ hopen => rw [hopen] at hterm; simp at hterm
  | exercised _ hbought | settled _ hbought | transferred _ _ hbought =>
    rw [hbought] at hterm
    simp at hterm

/-- The buyer is named by the purchase, and never unnamed. -/
lemma Transition.buyer (h : Transition p tx c o o') (htx : tx.FromAccount env)
    (ho : o.buyer = Address.zero ↔ o.status = .OPEN ∨ o.status = .CANCELLED) :
    o'.buyer = Address.zero ↔ o'.status = .OPEN ∨ o'.status = .CANCELLED := by
  cases h with
  | stays => exact ho
  | bought => simp [htx.ne_zero]
  | cancelled _ hopen => simpa [hopen] using ho
  | exercised _ hbought | settled _ hbought => simpa [hbought] using ho
  | transferred _ _ hbought _ hzero => simp [hbought, hzero]

/-! ### Calls about one option -/

/-- A call that rewrites the option it is about. -/
lemma advances_of_update {s : OptionStorage} (hinv : TableInv w.pool)
    (hex : w.pool.options.existsAt i)
    (hget : s.get = Function.update w.pool.options.get i o')
    (ht : Transition w.pool tx c (w.option i) o') :
    Advances tx c w.pool { w.pool with options := s } :=
  advance_of_update (fun _ _ => .stays _) hget ((hinv i).mp hex) ht

/-! ### Calls that store an option -/

lemma rollOption_advance (hinv : TableInv w.pool) {i s e p : ℕ}
    (h : rollOption env tx i s e p w = .ok (r, w')) :
    Advances tx (.rollOption i s e p) w.pool w'.pool := by
  obtain ⟨old, new, fee, l₁, l₂, hex, hwriter, hopen, ⟨hs, hp⟩, hpast, hfar, hold, hnew, -, -, -,
    -, -, -, rfl⟩ := rollOption_ok h
  have hi : i < w.pool.nextId := (hinv i).mp hex
  have hget : ∀ j ≠ w.pool.nextId, ((w.pool.options.setStatus i .CANCELLED).set w.pool.nextId
      (newOption tx (w.option i).optionType s e (w.option i).underlyingAmount p
        w.pool.nextId)).get j = (w.pool.options.setStatus i .CANCELLED).get j :=
    fun j hj => OptionStorage.get_set_of_ne hj
  refine ⟨rfl, rfl, rfl, fun j hj => ?_, .inr ⟨rfl, ?_⟩, fun j hj => ?_⟩
  · simp only [hget j hj.ne]
    by_cases hji : j = i
    · subst hji
      rw [OptionStorage.get_setStatus_self]
      exact .cancelled _ rfl hopen hwriter
    · rw [OptionStorage.get_setStatus_of_ne hji]
      exact .stays _
  · simp only [OptionStorage.get_set_self]
    exact ⟨_, s, e, _, p, new, rfl, hs, hp, hpast, hfar, hnew⟩
  · change w.pool.nextId + 1 ≤ j at hj
    simp only [hget j (by omega)]
    exact OptionStorage.get_setStatus_of_ne (by omega)

/-! ### Batches -/

/-- Where a batch stands: what is still in `status` has not been touched. -/
structure Sweep (tx : Tx) (c : Call) (status : Status) (w v : State) : Prop where
  advance : Advances tx c w.pool v.pool
  nextId : v.pool.nextId = w.pool.nextId
  untouched : ∀ i, (v.option i).status = status → v.option i = w.option i

lemma Sweep.refl : Sweep tx c status w w :=
  ⟨advance_of_same rfl rfl rfl rfl rfl fun _ => .stays _, rfl, fun _ _ => rfl⟩

/-- One iteration takes an option out of `status`. -/
lemma Sweep.step {status' : Status} (hv : Sweep tx c status w v) (hne : status' ≠ status)
    (hi : i < w.pool.nextId) (hstatus : (v.option i).status = status)
    (hpool : w'.pool = { v.pool with options := v.pool.options.setStatus i status' })
    (ht : Transition w.pool tx c (w.option i) { w.option i with status := status' }) :
    Sweep tx c status w w' := by
  have hsame : v.option i = w.option i := hv.untouched i hstatus
  have hself : w'.option i = { w.option i with status := status' } := by
    rw [World.option, hpool, OptionStorage.get_setStatus_self, ← hsame]
  have hother : ∀ j ≠ i, w'.option j = v.option j := fun j hj => by
    rw [World.option, hpool, OptionStorage.get_setStatus_of_ne hj]
  have hnext : w'.pool.nextId = w.pool.nextId := by rw [hpool, ← hv.nextId]
  refine ⟨⟨?_, ?_, ?_, fun j hj => ?_, .inl hnext, fun j hj => ?_⟩, hnext, fun j hj => ?_⟩
  · rw [hpool, ← hv.advance.underlying]
  · rw [hpool, ← hv.advance.premiumToken]
  · rw [hpool, ← hv.advance.gracePeriod]
  · change Transition w.pool tx c (w.option j) (w'.option j)
    by_cases hji : j = i
    · subst hji
      rwa [hself]
    · rw [hother j hji]
      exact hv.advance.stored j hj
  · change w'.option j = w.option j
    rw [hother j (by omega)]
    exact hv.advance.beyond j (by rw [hv.nextId]; omega)
  · by_cases hji : j = i
    · subst hji
      rw [hself] at hj
      exact absurd hj hne
    · rw [hother j hji] at hj ⊢
      exact hv.untouched j hj

/-- The grace period is read from the storage the batch started with. -/
lemma Sweep.graceEnd (hv : Sweep tx c status w v) (o : OptionRecord) :
    v.pool.graceEnd o = w.pool.graceEnd o := by
  rw [PoolStorage.graceEnd, hv.advance.gracePeriod, PoolStorage.graceEnd]

lemma Sweep.lt_nextId (hv : Sweep tx c status w v) (hinv : TableInv w.pool)
    (hstatus : (v.option i).status = status) (hex : v.pool.options.existsAt i) :
    i < w.pool.nextId := by
  rw [← hinv i, OptionStorage.existsAt_iff, ← World.option, ← hv.untouched i hstatus]
  exact hex

lemma batchCancelStep_sweep (hinv : TableInv w.pool) (hv : Sweep tx c .OPEN w v)
    (hc : c.Cancels i) (h : batchCancelStep env tx v i = .ok w') : Sweep tx c .OPEN w w' := by
  obtain ⟨hex, hwriter, hopen, hpool⟩ := cancelOption_update (batchCancelStep_ok h)
  have hsame : v.option i = w.option i := hv.untouched i hopen
  rw [hsame] at hwriter
  apply hv.step (by decide) (hv.lt_nextId hinv hopen hex) hopen hpool
  exact .cancelled _ hc (by rw [← hsame]; exact hopen) hwriter

lemma batchSettleStep_sweep {n n' : ℕ} (hinv : TableInv w.pool) (hv : Sweep tx c .PURCHASED w v)
    (hc : c.Settles i) (h : batchSettleStep env tx (n, v) i = .ok (n', w')) :
    Sweep tx c .PURCHASED w w' := by
  rcases batchSettleStep_ok h with ⟨-, rfl⟩ | ⟨-, hsettle⟩
  · exact hv
  · obtain ⟨hex, hbought, hgrace, hpool⟩ := settle_update hsettle
    have hsame : v.option i = w.option i := hv.untouched i hbought
    rw [hsame, hv.graceEnd] at hgrace
    apply hv.step (by decide) (hv.lt_nextId hinv hbought hex) hbought hpool
    exact .settled _ hc (by rw [← hsame]; exact hbought) hgrace

lemma batchCancel_sweep (hinv : TableInv w.pool) {n a b c d e : ℕ}
    (h : batchCancel env tx n a b c d e w = .ok (r, w')) :
    Sweep tx (.batchCancel n a b c d e) .OPEN w w' := by
  obtain ⟨ids, hids, hloop, -⟩ := batchCancel_ok h
  obtain ⟨-, -, rfl, -⟩ := batchIds_ok hids
  apply foldlM_induct (I := Sweep tx (.batchCancel n a b c d e) .OPEN w) hloop .refl
  intro v i v' hi hv hstep
  exact batchCancelStep_sweep hinv hv hi hstep

lemma batchSettle_sweep (hinv : TableInv w.pool) {n a b c d e : ℕ}
    (h : batchSettle env tx n a b c d e w = .ok (r, w')) :
    Sweep tx (.batchSettle n a b c d e) .PURCHASED w w' := by
  obtain ⟨ids, m, hids, hloop, -⟩ := batchSettle_ok h
  obtain ⟨-, -, rfl, -⟩ := batchIds_ok hids
  refine foldlM_induct (I := fun acc => Sweep tx (.batchSettle n a b c d e) .PURCHASED w acc.2)
    hloop .refl ?_
  intro v i v' hi hv hstep
  exact batchSettleStep_sweep hinv hv hi hstep

/-! ### Every call -/

/-- What a successful call does to the option table. -/
lemma exec_advance (hinv : TableInv w.pool) (h : exec env tx c w = .ok (r, w')) :
    Advances tx c w.pool w'.pool := by
  cases c with
  | writeOption t s e a p => exact writeOption_advance .stays h
  | cancelOption i =>
    obtain ⟨hex, hwriter, hopen, hpool⟩ := cancelOption_update h
    rw [hpool]
    exact advances_of_update hinv hex OptionStorage.get_setStatus (.cancelled _ rfl hopen hwriter)
  | buyOption i =>
    obtain ⟨_, _, _, hex, hopen, hblock, hwriter, -, -, -, -, -, rfl⟩ := buyOption_ok h
    exact advances_of_update hinv hex (get_setBuyer_setStatus _ _ _)
      (.bought _ rfl hopen hblock hwriter)
  | exercise i =>
    obtain ⟨_, _, _, _, _, _, hex, hbought, hbuyer, hexpiry, hgrace, -, -, -, -, -, -, -, -, rfl⟩ :=
      exercise_ok h
    exact advances_of_update hinv hex OptionStorage.get_setStatus
      (.exercised _ rfl hbought hbuyer hexpiry hgrace)
  | settle i =>
    obtain ⟨hex, hbought, hgrace, hpool⟩ := settle_update h
    rw [hpool]
    exact advances_of_update hinv hex OptionStorage.get_setStatus (.settled _ rfl hbought hgrace)
  | transferOption i newBuyer =>
    obtain ⟨hex, hbought, hbuyer, hzero, -, hgrace, -, rfl⟩ := transferOption_ok h
    exact advances_of_update hinv hex OptionStorage.get_setBuyer
      (.transferred _ newBuyer rfl hbought hbuyer hzero hgrace)
  | rollOption i s e p => exact rollOption_advance hinv h
  | batchCancel n a b c d e => exact (batchCancel_sweep hinv h).advance
  | batchSettle n a b c d e => exact (batchSettle_sweep hinv h).advance
  | updateFeeRecipient newRecipient =>
    obtain ⟨-, -, -, rfl⟩ := updateFeeRecipient_ok h
    exact advance_of_same rfl rfl rfl rfl rfl fun _ => .stays _
  | registerBtcPubkey data =>
    obtain ⟨_, -, -, -, rfl⟩ := registerBtcPubkey_ok h
    exact advance_of_same rfl rfl rfl rfl rfl fun _ => .stays _

lemma exec_tableInv (hinv : TableInv w.pool) (htx : tx.FromAccount env)
    (h : exec env tx c w = .ok (r, w')) : TableInv w'.pool := by
  refine (exec_advance hinv h).tableInv (fun _ _ ht => ht.sameTerms.writer) (fun o ho => ?_) hinv
  rw [ho.writer]
  exact htx.ne_zero

/-- What holds of no ids, and of one more id when it does of the others, holds of the ids that a loop
of `batchCancel` cancels. -/
lemma cancelLoop_induct {R : State → List ℕ → State → Prop} {ids : List ℕ}
    (h : ids.foldlM (batchCancelStep env tx) w = .ok w') (htx : tx.FromAccount env)
    (hinv : TableInv w.pool) (hnodup : ids.Nodup) (hnil : ∀ v, R v [] v)
    (hcons : ∀ v v₁ v' i ids, TableInv v.pool → i ∉ ids →
      cancelOption env tx i v = .ok ([.boolean true], v₁) → R v₁ ids v' → R v (i :: ids) v') :
    R w ids w' := by
  induction ids generalizing w with
  | nil =>
    cases h
    exact hnil _
  | cons i ids ih =>
    rw [List.foldlM_cons, bind_eq_ok] at h
    obtain ⟨w₁, hfirst, hrest⟩ := h
    obtain ⟨hnotin, hnodup⟩ := List.nodup_cons.mp hnodup
    have hcancel : cancelOption env tx i w = .ok ([.boolean true], w₁) := batchCancelStep_ok hfirst
    have hinv₁ : TableInv w₁.pool :=
      exec_tableInv hinv htx (show exec env tx (.cancelOption i) w = _ from hcancel)
    exact hcons w w₁ w' i ids hinv hnotin hcancel (ih hrest hinv₁ hnodup)

/-- An option that is due is counted. -/
lemma batchSettleStep_due {n n' : ℕ} (hex : w.pool.options.existsAt i)
    (hbought : (w.option i).status = .PURCHASED) (hgrace : w.pool.graceEnd (w.option i) ≤ tx.block)
    (h : batchSettleStep env tx (n, w) i = .ok (n', w')) : n' = n + 1 := by
  simp only [batchSettleStep] at h
  rw [if_neg (not_not.mpr hex), if_neg (not_not.mpr hbought), if_neg (not_lt.mpr hgrace)] at h
  simp only [bind_eq_ok, SafeMath.add_eq_ok, pure_eq, Except.ok.injEq, Prod.mk.injEq] at h
  obtain ⟨_, -, _, -, _, -, _, ⟨-, rfl⟩, rfl, -⟩ := h
  rfl

/-- Likewise of the ids that a loop of `batchSettle` goes through: those that are not due are
skipped, the others settled. -/
lemma settleLoop_induct {R : State → List ℕ → State → Prop} {ids : List ℕ} {n n' : ℕ}
    (h : ids.foldlM (batchSettleStep env tx) (n, w) = .ok (n', w')) (htx : tx.FromAccount env)
    (hinv : TableInv w.pool) (hnodup : ids.Nodup) (hnil : ∀ v, R v [] v)
    (hskip : ∀ v v' i ids, ¬ (v.pool.options.existsAt i ∧ (v.option i).status = .PURCHASED ∧
      v.pool.graceEnd (v.option i) ≤ tx.block) → R v ids v' → R v (i :: ids) v')
    (hcons : ∀ v v₁ v' i ids, TableInv v.pool → i ∉ ids →
      settle env tx i v = .ok ([.boolean true], v₁) → R v₁ ids v' → R v (i :: ids) v') :
    R w ids w' := by
  induction ids generalizing n w with
  | nil =>
    cases h
    exact hnil _
  | cons i ids ih =>
    rw [List.foldlM_cons, bind_eq_ok] at h
    obtain ⟨⟨m, w₁⟩, hfirst, hrest⟩ := h
    obtain ⟨hnotin, hnodup⟩ := List.nodup_cons.mp hnodup
    rcases batchSettleStep_ok hfirst with ⟨hcount, rfl⟩ | ⟨-, hsettle⟩
    · refine hskip w₁ w' i ids ?_ (ih hrest hinv hnodup)
      rintro ⟨hex, hbought, hgrace⟩
      have hcounted := batchSettleStep_due hex hbought hgrace hfirst
      omega
    · have hinv₁ : TableInv w₁.pool :=
        exec_tableInv hinv htx (show exec env tx (.settle i) w = _ from hsettle)
      exact hcons w w₁ w' i ids hinv hnotin hsettle (ih hrest hinv₁ hnodup)

/-- A batch that went through found every id it cancels open and the caller its writer. -/
lemma batchCancel_permitted (hinv : TableInv w.pool) {n a b c d e : ℕ}
    (h : batchCancel env tx n a b c d e w = .ok (r, w')) (hi : i ∈ [a, b, c, d, e].take n) :
    (w.option i).status = .OPEN ∧ tx.sender = (w.option i).writer := by
  obtain ⟨ids, hids, hloop, -⟩ := batchCancel_ok h
  obtain ⟨-, -, rfl, -⟩ := batchIds_ok hids
  obtain ⟨v, v', hv, hstep⟩ := foldlM_mem (I := Sweep tx (.batchCancel n a b c d e) .OPEN w)
    hloop .refl (fun v i v' hi hv hstep => batchCancelStep_sweep hinv hv hi hstep) hi
  obtain ⟨-, hwriter, hopen, -⟩ := cancelOption_update (batchCancelStep_ok hstep)
  rw [← hv.untouched i hopen]
  exact ⟨hopen, hwriter⟩

lemma exec_permitted (hinv : TableInv w.pool) (h : exec env tx c w = .ok (r, w')) (i : ℕ) :
    c.Permitted w.pool tx (w.option i) where
  cancels hc := by
    cases c with
    | cancelOption j =>
      cases hc
      obtain ⟨-, hwriter, hopen, -⟩ := cancelOption_update h
      exact ⟨hopen, hwriter⟩
    | rollOption j s e p =>
      cases hc
      obtain ⟨_, _, _, _, _, -, hwriter, hopen, -⟩ := rollOption_ok h
      exact ⟨hopen, hwriter⟩
    | batchCancel n a b c d e => exact batchCancel_permitted hinv h hc
    | _ => exact hc.elim
  buys hc := by
    subst hc
    obtain ⟨_, _, _, -, hopen, hblock, hwriter, -⟩ := buyOption_ok h
    exact ⟨hopen, hwriter, hblock⟩
  exercises hc := by
    subst hc
    obtain ⟨_, _, _, _, _, _, -, hbought, hbuyer, hexpiry, hgrace, -⟩ := exercise_ok h
    exact ⟨hbought, hbuyer, hexpiry, hgrace⟩
  settles hc := by
    subst hc
    obtain ⟨-, hbought, hgrace, -⟩ := settle_update h
    exact ⟨hbought, hgrace⟩
  transfers newBuyer hc := by
    subst hc
    obtain ⟨-, hbought, hbuyer, -⟩ := transferOption_ok h
    exact ⟨hbought, hbuyer⟩

/-! ### Windows -/

/-- The method's own checks let the call through; only arithmetic and token calls can stop it. -/
def Admits {α : Type} (x : Except Revert α) : Prop := FailsOnly (fun e => ∀ m, e ≠ .revert m) x

lemma admits_guard {α : Type} {q : Prop} [Decidable q] {m : String} {f : Unit → Except Revert α} :
    Admits (require q (.revert m) >>= f) ↔ q ∧ Admits (f ()) := by
  by_cases hq : q <;> simp [Admits, require, hq]

lemma exchange_admits (value : ℕ) : Admits (exchange env tx o value w) := by
  rw [exchange]
  cases o.optionType <;> simp [Admits, exerciseCall, exercisePut]

/-- A purchased option admits an exercise by its buyer from expiry to the end of the grace
period. -/
lemma exercise_admits_iff (hex : w.pool.options.existsAt i)
    (hbought : (w.option i).status = .PURCHASED) :
    Admits (exercise env tx i w) ↔ tx.sender = (w.option i).buyer ∧
      (w.option i).expiryBlock ≤ tx.block ∧ tx.block < w.pool.graceEnd (w.option i) := by
  simp only [exercise, admits_guard]
  constructor
  · rintro ⟨-, -, hbuyer, hexpiry, hgrace, -⟩
    exact ⟨hbuyer, hexpiry, hgrace⟩
  · rintro ⟨hbuyer, hexpiry, hgrace⟩
    refine ⟨hex, hbought, hbuyer, hexpiry, hgrace, ?_⟩
    simp only [Admits, failsOnly_bind, failsOnly_strikeValue, failsOnly_emit, failsOnly_respond]
    refine ⟨by simp, fun value _ => ⟨exchange_admits value, fun _ _ => ?_⟩⟩
    simp

/-- A purchased option admits a settlement from the end of the grace period on. -/
lemma settle_admits_iff (hex : w.pool.options.existsAt i)
    (hbought : (w.option i).status = .PURCHASED) :
    Admits (settle env tx i w) ↔ w.pool.graceEnd (w.option i) ≤ tx.block := by
  simp only [settle, admits_guard]
  constructor
  · rintro ⟨-, -, hgrace, -⟩
    exact hgrace
  · intro hgrace
    refine ⟨hex, hbought, hgrace, ?_⟩
    cases htype : (w.option i).optionType <;>
      simp [Admits, OptionRecord.collateral, collateralAmount, htype]

end

/-! ### Runs -/

/-- What one step of a run does to a stored option. -/
def Moves (p : PoolStorage) : Label Call → OptionRecord → OptionRecord → Prop
  | .call tx c _, o, o' => Transition p tx c o o' ∧ c.Permitted p tx o
  | _, o, o' => o' = o

/-- What holds of the options in every state of a run whose blocks stay below `2 ^ 63`. -/
structure LifeInv (w : State) : Prop where
  table : TableInv w.pool
  grace : w.pool.gracePeriod ≤ maxGracePeriodBlocks
  buyer : ∀ i < w.pool.nextId,
    (w.option i).buyer = Address.zero ↔
      (w.option i).status = .OPEN ∨ (w.option i).status = .CANCELLED
  expiry : ∀ i < w.pool.nextId, (w.option i).expiryBlock < 2 ^ 63 + maxExpiryBlocks

section

variable {env : Env} {others : Ledger → Ledger → Prop} {w₀ w w' : State} {l : Label Call}
  {h : Lts.History State (Label Call)} {i : ℕ}

lemma step_table (hinv : TableInv w.pool) (hstep : Step env others (exec env) w l w') :
    TableInv w'.pool ∧ w.pool.nextId ≤ w'.pool.nextId ∧
      (∀ i < w.pool.nextId, Moves w.pool l (w.option i) (w'.option i)) ∧
      ∀ i, w.pool.nextId ≤ i → i < w'.pool.nextId → (w'.option i).status = .OPEN := by
  cases hstep with
  | call htx hexec =>
    have hadv := exec_advance hinv hexec
    refine ⟨exec_tableInv hinv htx hexec, hadv.nextId_le,
      fun i hi => ⟨hadv.stored i hi, exec_permitted hinv hexec i⟩, fun i hi hi' => ?_⟩
    rcases hadv.created with hnext | ⟨hnext, t, s, e, a, p, coll, hnew, -⟩
    · omega
    · obtain rfl : i = w.pool.nextId := by omega
      rw [World.option, hnew]
      rfl
  | reverted => exact ⟨hinv, le_rfl, fun _ _ => rfl, fun i hi hi' => absurd hi' (not_lt.mpr hi)⟩
  | elsewhere => exact ⟨hinv, le_rfl, fun _ _ => rfl, fun i hi hi' => absurd hi' (not_lt.mpr hi)⟩

lemma table_of_run (hdep : Deployed w₀) (hrun : Lts.Run (Step env others (exec env)) w₀ h w) :
    TableInv w.pool :=
  hrun.invariant hdep.tableInv fun _ _ _ hinv hstep => (step_table hinv hstep).1

lemma Moves.sameTerms {p : PoolStorage} {o o' : OptionRecord} (hm : Moves p l o o') :
    o.SameTerms o' := by
  cases l with
  | call tx c r => exact hm.1.sameTerms
  | reverted | elsewhere =>
    cases hm
    exact .refl _

lemma Moves.terminal {p : PoolStorage} {o o' : OptionRecord} (hm : Moves p l o o')
    (hterm : o.status = .EXERCISED ∨ o.status = .EXPIRED ∨ o.status = .CANCELLED) : o' = o := by
  cases l with
  | call tx c r => exact hm.1.terminal hterm
  | reverted | elsewhere => exact hm

/-- A new option expires no later than the longest term from its block. -/
lemma Fresh.expiry_lt {tx : Tx} {n : ℕ} {o : OptionRecord} (ho : Fresh tx n o)
    (hblock : tx.block < 2 ^ 63) : o.expiryBlock < 2 ^ 63 + maxExpiryBlocks := by
  obtain ⟨t, s, e, a, p, coll, rfl, -, -, -, hfar, -⟩ := ho
  rw [u64Add_of_lt (by simp only [maxExpiryBlocks, u64Size]; omega)] at hfar
  exact hfar.trans_lt (Nat.add_lt_add_right hblock _)

lemma LifeInv.step (hinv : LifeInv w) (hstep : Step env others (exec env) w l w')
    (hblock : l.Before (2 ^ 63)) : LifeInv w' := by
  cases hstep with
  | @call tx c _ _ _ htx hexec =>
    have hadv := exec_advance hinv.table hexec
    refine ⟨exec_tableInv hinv.table htx hexec, ?_, ?_, ?_⟩
    · rw [hadv.gracePeriod]
      exact hinv.grace
    · refine hadv.keeps (fun o o' ht ho => ht.buyer htx ho) ?_ hinv.buyer
      intro o ho
      simp [ho.unsold]
    · refine hadv.keeps (fun o o' ht ho => ?_) (fun o ho => ho.expiry_lt hblock) hinv.expiry
      rw [ht.sameTerms.expiryBlock]
      exact ho
  | reverted => exact hinv
  | elsewhere => exact ⟨hinv.table, hinv.grace, hinv.buyer, hinv.expiry⟩

lemma lifeInv_of_run (hdep : Deployed w₀) (hrun : Lts.Run (Step env others (exec env)) w₀ h w)
    (hblocks : ∀ p ∈ h, p.1.Before (2 ^ 63)) : LifeInv w := by
  induction hrun with
  | nil =>
    obtain ⟨hnext, -, -, -, hgrace, -⟩ := hdep.spec
    exact ⟨hdep.tableInv, hgrace, fun i hi => by omega, fun i hi => by omega⟩
  | cons _ hlast ih =>
    exact (ih fun p hp => hblocks p (List.mem_cons_of_mem _ hp)).step hlast
      (hblocks _ List.mem_cons_self)

/-- The end of the grace period does not wrap. -/
lemma LifeInv.graceEnd (hinv : LifeInv w) (hi : i < w.pool.nextId) :
    w.pool.graceEnd (w.option i) = (w.option i).expiryBlock + w.pool.gracePeriod := by
  have hexpiry := hinv.expiry i hi
  have hgrace := hinv.grace
  simp only [maxExpiryBlocks, maxGracePeriodBlocks] at hexpiry hgrace
  exact u64Add_of_lt (by rw [u64Size]; omega)

/-- Later states agree with earlier ones on the terms of an option, and on all of a finished one. -/
lemma option_of_run (hinv : TableInv w.pool) (hi : i < w.pool.nextId)
    (hrun : Lts.Run (Step env others (exec env)) w h w') :
    (w.option i).SameTerms (w'.option i) ∧
      ((w.option i).status = .EXERCISED ∨ (w.option i).status = .EXPIRED ∨
        (w.option i).status = .CANCELLED → w'.option i = w.option i) := by
  have hall := hrun.invariant
    (I := fun v => TableInv v.pool ∧ i < v.pool.nextId ∧ (w.option i).SameTerms (v.option i) ∧
      ((w.option i).status = .EXERCISED ∨ (w.option i).status = .EXPIRED ∨
        (w.option i).status = .CANCELLED → v.option i = w.option i))
    ⟨hinv, hi, .refl _, fun _ => rfl⟩ ?_
  · exact hall.2.2
  · rintro v l v' ⟨hv, hlt, hterms, hterm⟩ hstep
    obtain ⟨hv', hle, hmoves, -⟩ := step_table hv hstep
    have hmove := hmoves i hlt
    refine ⟨hv', hlt.trans_le hle, hterms.trans hmove.sameTerms, fun hfin => ?_⟩
    have hsame := hterm hfin
    rw [hmove.terminal (by rwa [hsame]), hsame]

/-- The life of every option, in every run whose blocks stay below `2 ^ 63`. -/
theorem lifecycle (hdep : Deployed w₀) (hrun : Lts.Run (Step env others (exec env)) w₀ h w)
    (hblocks : ∀ p ∈ h, p.1.Before (2 ^ 63)) :
    (∀ i, w.pool.options.existsAt i ↔ i < w.pool.nextId) ∧
      (∀ l w', Step env others (exec env) w l w' → ∀ i, w.pool.nextId ≤ i → i < w'.pool.nextId →
        (w'.option i).status = .OPEN) ∧
      ∀ i < w.pool.nextId,
        ((w.option i).buyer = Address.zero ↔
          (w.option i).status = .OPEN ∨ (w.option i).status = .CANCELLED) ∧
        w.pool.graceEnd (w.option i) = (w.option i).expiryBlock + w.pool.gracePeriod ∧
        (∀ l w', Step env others (exec env) w l w' →
          Moves w.pool l (w.option i) (w'.option i)) ∧
        (∀ h' w', Lts.Run (Step env others (exec env)) w h' w' →
          (w.option i).SameTerms (w'.option i) ∧
          ((w.option i).status = .EXERCISED ∨ (w.option i).status = .EXPIRED ∨
            (w.option i).status = .CANCELLED → w'.option i = w.option i)) ∧
        ((w.option i).status = .PURCHASED →
          (∀ tx tx', tx.block = tx'.block →
            ¬ (Admits (exercise env tx i w) ∧ Admits (settle env tx' i w))) ∧
          ∀ tx, (w.option i).expiryBlock ≤ tx.block → tx.sender = (w.option i).buyer →
            Admits (exercise env tx i w) ∨ Admits (settle env tx i w)) := by
  have hinv := lifeInv_of_run hdep hrun hblocks
  refine ⟨hinv.table, fun l w' hstep => (step_table hinv.table hstep).2.2.2, fun i hi => ?_⟩
  have hex : w.pool.options.existsAt i := (hinv.table i).mpr hi
  refine ⟨hinv.buyer i hi, hinv.graceEnd hi, fun l w' hstep => ?_, fun h' w' hrun' => ?_,
    fun hbought => ⟨fun tx tx' hblock => ?_, fun tx hexpiry hbuyer => ?_⟩⟩
  · exact (step_table hinv.table hstep).2.2.1 i hi
  · exact option_of_run hinv.table hi hrun'
  · rw [exercise_admits_iff hex hbought, settle_admits_iff hex hbought, hblock]
    rintro ⟨⟨-, -, hbefore⟩, hafter⟩
    exact absurd hbefore (not_lt.mpr hafter)
  · rw [exercise_admits_iff hex hbought, settle_admits_iff hex hbought]
    rcases lt_or_ge tx.block (w.pool.graceEnd (w.option i)) with hbefore | hafter
    · exact .inl ⟨hbuyer, hexpiry, hbefore⟩
    · exact .inr hafter

/-- A sold option at the last block of its grace period. -/
theorem lifecycle_sold :
    (¬ (Admits (exercise Testnet.env (Testnet.tx 11 1143) 0 (Testnet.sold (10 ^ 18) 4 100)) ∧
        Admits (settle Testnet.env (Testnet.tx 10 1143) 0 (Testnet.sold (10 ^ 18) 4 100)))) ∧
      (Admits (exercise Testnet.env (Testnet.tx 11 1143) 0 (Testnet.sold (10 ^ 18) 4 100)) ∨
        Admits (settle Testnet.env (Testnet.tx 11 1143) 0 (Testnet.sold (10 ^ 18) 4 100))) := by
  have hrun := Testnet.run_sold (Ledger.GrowsAt Testnet.env.contractAddress) (s := 10 ^ 18)
    (a := 4) (p := 100) rfl rfl
  have hlife := lifecycle (Testnet.deployed ()) hrun (by
    simp only [List.forall_mem_cons]
    exact ⟨by decide, by decide, by simp⟩)
  obtain ⟨-, -, -, -, hwindow⟩ := hlife.2.2 0 (by decide)
  exact ⟨(hwindow rfl).1 _ _ rfl, (hwindow rfl).2 _ (by decide) rfl⟩

end

end Frogop.OptionsPool
