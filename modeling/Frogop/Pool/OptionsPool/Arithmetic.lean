import Frogop.Pool.OptionsPool.Solvency

/-!
# The arithmetic of a stored option

Writing an option computes the collateral of a PUT and nothing of a CALL. `Bounded` says which
numbers the operations that an option still has before it can compute with; then no `SafeMath`
expression fails in any continuation of the run, and a purchased option can be exercised by a buyer
who can pay.
-/

namespace Frogop.OptionsPool

open Outcome Custody World

/-- The numbers of an option that the operations still before it can compute with: buying and
cancelling while it is open, exercising as long as it is live and has a window. -/
structure Bounded (p : PoolStorage) (o : OptionRecord) : Prop where
  buyFee : o.status = .OPEN → o.premium * buyFeeBps + 9999 < u256Size
  cancelFee : o.status = .OPEN → o.optionType = .CALL →
    o.underlyingAmount * cancelFeeBps + 9999 < u256Size
  exercise : isLive o = true → o.optionType = .CALL → o.expiryBlock < p.graceEnd o →
    o.strikePrice * o.underlyingAmount < u256Size ∧
      o.underlyingAmount * exerciseFeeBps + 9999 < u256Size

/-- Every failure but an overflow. -/
def NoOverflow (e : Revert) : Prop := e ≠ .safeMath

/-- A buyer who can pay for the exercise, and tokens that let the payments through. -/
structure CanPay (env : Env) (tx : Tx) (w : World σ) (o : OptionRecord) (price : ℕ) : Prop where
  balance : price ≤ w.ledger.balanceOf (priceToken w.pool o.optionType) tx.sender
  allowance : price ≤
    w.ledger.allowance (priceToken w.pool o.optionType) tx.sender env.contractAddress
  willing : w.ledger.refuses (priceToken w.pool o.optionType) tx.sender o.writer = false
  delivers : w.ledger.refuses (w.pool.collateralToken o.optionType) env.contractAddress tx.sender
    = false
  collects : w.ledger.refuses (w.pool.collateralToken o.optionType) env.contractAddress
    w.pool.feeRecipient = false

/-- The operations on an option that its own numbers cannot stop in this state. -/
structure Computes (env : Env) (w : State) (i : ℕ) : Prop where
  buys : ∀ tx, FailsOnly NoOverflow (buyOption env tx i w)
  cancels : ∀ tx, FailsOnly NoOverflow (cancelOption env tx i w)
  exercises : ∀ tx, FailsOnly NoOverflow (exercise env tx i w)
  settles : ∀ tx, FailsOnly NoOverflow (settle env tx i w)
  cancelsInBatch : ∀ tx (v : State), v.option i = w.option i →
    FailsOnly NoOverflow (batchCancelStep env tx v i)
  settlesInBatch : ∀ tx n (v : State), n < maxBatchSize → v.option i = w.option i →
    FailsOnly NoOverflow (batchSettleStep env tx (n, v) i)
  /-- Only the new terms, or the last id, can make a roll overflow. -/
  rolls : ∀ tx s e p collateral,
    collateralAmount (w.option i).optionType s (w.option i).underlyingAmount = .ok collateral →
    w.pool.nextId + 1 < u256Size → FailsOnly NoOverflow (rollOption env tx i s e p w)
  exercisable : ∀ tx, (w.option i).status = .PURCHASED → tx.FromAccount env →
    tx.sender = (w.option i).buyer → (w.option i).expiryBlock ≤ tx.block →
    tx.block < w.pool.graceEnd (w.option i) →
    CanPay env tx w (w.option i) (exercisePrice (w.option i)
      ((w.option i).strikePrice * (w.option i).underlyingAmount / precision)) →
    ∃ r w', exercise env tx i w = .ok (r, w')

/-- Whatever follows, its own numbers never stop an operation on the option. -/
def NeverOverflows (env : Env) (w : State) (i : ℕ) : Prop :=
  ∀ h w', Lts.Run (Step env (Ledger.GrowsAt env.contractAddress) (exec env)) w h w' →
    Computes env w' i

/-! ### Exchanging -/

section

variable {σ : Type} {env : Env} {tx : Tx} {w : World σ} {o : OptionRecord} {value collateral : ℕ}
  {P : Revert → Prop}

/-- A PUT was written with its strike value as collateral, which leaves room for every fee. -/
lemma put_collateral_fits (htype : o.optionType = .PUT) (hcoll : o.collateral = .ok collateral) :
    collateral * 100 + 9999 < u256Size := by
  simp only [OptionRecord.collateral, collateralAmount, htype] at hcoll
  exact strikeValue_fits hcoll

/-- With room for the fee only the token calls of an exchange can fail. -/
lemma failsOnly_exchange (hP : ∀ m cause, P (.token m cause))
    (hcoll : o.collateral = .ok collateral)
    (hvalue : strikeValue o.strikePrice o.underlyingAmount = .ok value)
    (hfits : collateral * exerciseFeeBps + 9999 < u256Size) :
    FailsOnly P (exchange env tx o value w) := by
  obtain ⟨fee, hfee, hle⟩ := exerciseFee_ok hfits
  have hrest := SafeMath.sub_eq_ok.mpr ⟨hle, rfl⟩
  rw [exchange]
  cases htype : o.optionType with
  | CALL =>
    simp only [OptionRecord.collateral, collateralAmount, htype, Except.ok.injEq] at hcoll
    subst hcoll
    simp [exerciseCall, hfee, hrest, hP]
  | PUT =>
    simp only [OptionRecord.collateral, collateralAmount, htype, hvalue, Except.ok.injEq] at hcoll
    subst hcoll
    simp [exercisePut, hfee, hrest, hP]

/-- A buyer who can pay gets the collateral. -/
lemma exchange_succeeds (hcoll : o.collateral = .ok collateral)
    (hvalue : strikeValue o.strikePrice o.underlyingAmount = .ok value)
    (hfits : collateral * exerciseFeeBps + 9999 < u256Size) (htx : tx.FromAccount env)
    (hpay : CanPay env tx w o (exercisePrice o value))
    (hheld : collateral
      ≤ w.ledger.heldBy env.contractAddress (w.pool.collateralToken o.optionType)) :
    ∃ paid, exchange env tx o value w = .ok paid := by
  obtain ⟨fee, hfee, hle⟩ := exerciseFee_ok hfits
  obtain ⟨l₁, hl₁⟩ := Ledger.transferFrom_succeeds hpay.willing (.inr hpay.allowance) hpay.balance
  have hsame := (Ledger.transferFrom_ok hl₁).2.2
  have hleft := (Ledger.pass_flow htx.ne_pool hl₁
    (w.pool.collateralToken o.optionType)).1
  obtain ⟨l₂, l₃, hl₂, hl₃⟩ := deliver_succeeds (a := collateral - fee) (b := fee)
    (by rw [hsame]; exact hpay.delivers) (by rw [hsame]; exact hpay.collects)
    ((Nat.sub_add_cancel hle).le.trans (hheld.trans hleft))
  exact ⟨_, exchange_of hvalue hcoll hfee hle hl₁ hl₂ hl₃⟩

end

section

variable {env : Env} {tx : Tx} {c : Call} {w v w' : State} {o o' : OptionRecord}
  {p p' : PoolStorage} {i collateral : ℕ}

@[simp] lemma noOverflow_revert (m : String) : NoOverflow (.revert m) := by simp [NoOverflow]

@[simp] lemma noOverflow_token (m : String) (e : TokenError) : NoOverflow (.token m e) := by
  simp [NoOverflow]

@[simp] lemma noOverflow_writerFull : NoOverflow .writerFull := by simp [NoOverflow]

@[simp] lemma not_noOverflow_safeMath : ¬ NoOverflow .safeMath := fun h => h rfl

/-! ### Expressions -/

lemma noOverflow_ceilBps {amount bps : ℕ} (h : amount * bps + 9999 < u256Size) :
    FailsOnly NoOverflow (ceilBps amount bps) :=
  failsOnly_of_ok (ceilBps_eq_ok.mpr ⟨h, rfl⟩)

/-- The collateral of an open option leaves room for the cancellation fee. -/
lemma Bounded.cancelFee_fits (hb : Bounded p o) (hopen : o.status = .OPEN)
    (hcoll : o.collateral = .ok collateral) : collateral * cancelFeeBps + 9999 < u256Size := by
  cases htype : o.optionType with
  | CALL =>
    simp only [OptionRecord.collateral, collateralAmount, htype, Except.ok.injEq] at hcoll
    rw [← hcoll]
    exact hb.cancelFee hopen htype
  | PUT => exact put_collateral_fits htype hcoll

/-- The strike value of a PUT was computed when it was written. -/
lemma Bounded.value_fits (hb : Bounded p o) (hlive : isLive o = true)
    (hwindow : o.expiryBlock < p.graceEnd o) (hcoll : o.collateral = .ok collateral) :
    o.strikePrice * o.underlyingAmount < u256Size := by
  cases htype : o.optionType with
  | CALL => exact (hb.exercise hlive htype hwindow).1
  | PUT =>
    simp only [OptionRecord.collateral, collateralAmount, htype, strikeValue_eq_ok] at hcoll
    exact hcoll.1

lemma Bounded.exerciseFee_fits (hb : Bounded p o) (hlive : isLive o = true)
    (hwindow : o.expiryBlock < p.graceEnd o) (hcoll : o.collateral = .ok collateral) :
    collateral * exerciseFeeBps + 9999 < u256Size := by
  cases htype : o.optionType with
  | CALL =>
    simp only [OptionRecord.collateral, collateralAmount, htype, Except.ok.injEq] at hcoll
    rw [← hcoll]
    exact (hb.exercise hlive htype hwindow).2
  | PUT => exact exerciseFee_room (put_collateral_fits htype hcoll)

/-- An option that has moved on has fewer operations before it. -/
lemma Bounded.mono (hb : Bounded p o) (hterms : o.SameTerms o')
    (hgrace : p'.gracePeriod = p.gracePeriod) (hopen : o'.status = .OPEN → o.status = .OPEN)
    (hlive : isLive o' = true → isLive o = true) : Bounded p' o' where
  buyFee h := by
    rw [hterms.premium]
    exact hb.buyFee (hopen h)
  cancelFee h htype := by
    rw [hterms.underlyingAmount]
    exact hb.cancelFee (hopen h) (hterms.optionType ▸ htype)
  exercise h htype hwindow := by
    rw [PoolStorage.graceEnd, hgrace, hterms.expiryBlock] at hwindow
    rw [hterms.strikePrice, hterms.underlyingAmount]
    exact hb.exercise (hlive h) (hterms.optionType ▸ htype) hwindow

/-! ### Calls -/

lemma noOverflow_cancelFee {block : ℕ} (h : collateral * cancelFeeBps + 9999 < u256Size) :
    FailsOnly NoOverflow (cancelFee block o collateral) := by
  rw [cancelFee]
  split_ifs
  · exact failsOnly_ok _
  · exact noOverflow_ceilBps h

lemma noOverflow_sub {a b : ℕ} (h : b ≤ a) : FailsOnly NoOverflow (SafeMath.sub a b) :=
  failsOnly_of_ok (SafeMath.sub_eq_ok.mpr ⟨h, rfl⟩)

lemma buyOption_noOverflow (hb : Bounded w.pool (w.option i)) :
    FailsOnly NoOverflow (buyOption env tx i w) := by
  refine .guard (by simp) fun _ => .guard (by simp) fun hopen => .guard (by simp) fun _ => ?_
  refine .guard (by simp) fun _ => .seq (noOverflow_ceilBps (hb.buyFee hopen)) fun fee hfee => ?_
  obtain ⟨-, rfl⟩ := ceilBps_eq_ok.mp hfee
  refine .seq (noOverflow_sub (fee_le (by decide))) fun rest _ => .seq (by simp) fun w₁ _ => ?_
  refine .seq (by simp) fun w₂ _ => ?_
  simp

lemma batchCancelStep_noOverflow (hb : Bounded p (w.option i))
    (hcoll : (w.option i).collateral = .ok collateral) :
    FailsOnly NoOverflow (batchCancelStep env tx w i) := by
  refine .guard (by simp) fun _ => .guard (by simp) fun _ => .guard (by simp) fun hopen => ?_
  refine .seq (failsOnly_of_ok hcoll) fun c hc => ?_
  obtain rfl : c = collateral := by
    rw [hcoll] at hc
    exact (Except.ok.inj hc).symm
  refine .seq (noOverflow_cancelFee (hb.cancelFee_fits hopen hcoll)) fun fee hfee => ?_
  refine .seq (noOverflow_sub (cancelFee_le hfee)) fun back _ => .seq (by simp) fun w₁ _ => ?_
  refine .seq (by simp) fun w₂ _ => ?_
  simp

lemma cancelOption_noOverflow (hb : Bounded p (w.option i))
    (hcoll : (w.option i).collateral = .ok collateral) :
    FailsOnly NoOverflow (cancelOption env tx i w) := by
  rw [cancelOption_eq]
  exact .seq (batchCancelStep_noOverflow hb hcoll) fun w₁ _ => by simp

lemma settle_noOverflow (hcoll : (w.option i).collateral = .ok collateral) :
    FailsOnly NoOverflow (settle env tx i w) := by
  refine .guard (by simp) fun _ => .guard (by simp) fun _ => .guard (by simp) fun _ => ?_
  refine .seq (failsOnly_of_ok hcoll) fun c _ => .seq (by simp) fun w₁ _ => ?_
  simp

lemma batchSettleStep_noOverflow {n : ℕ} (hn : n < maxBatchSize)
    (hcoll : (w.option i).collateral = .ok collateral) :
    FailsOnly NoOverflow (batchSettleStep env tx (n, w) i) := by
  simp only [batchSettleStep]
  split_ifs with hex hstatus hgrace
  · exact failsOnly_ok _
  · exact failsOnly_ok _
  · refine .seq (failsOnly_of_ok hcoll) fun c _ => .seq (by simp) fun w₁ _ => ?_
    refine .seq (by simp) fun w₂ _ => .seq (failsOnly_of_ok (SafeMath.add_eq_ok.mpr ⟨?_, rfl⟩)) ?_
    · exact (Nat.succ_le_of_lt hn).trans_lt (by decide)
    · exact fun _ _ => failsOnly_ok _
  · exact failsOnly_ok _

lemma exercise_noOverflow (hb : Bounded w.pool (w.option i))
    (hcoll : (w.option i).collateral = .ok collateral) :
    FailsOnly NoOverflow (exercise env tx i w) := by
  refine .guard (by simp) fun _ => .guard (by simp) fun hbought => .guard (by simp) fun _ => ?_
  refine .guard (by simp) fun hexpiry => .guard (by simp) fun hgrace => ?_
  have hlive := isLive_of_purchased _ hbought
  have hwindow := hexpiry.trans_lt hgrace
  have hstrike := strikeValue_eq_ok.mpr ⟨hb.value_fits hlive hwindow hcoll, rfl⟩
  refine .seq (failsOnly_of_ok hstrike) fun value hvalue => .seq ?_ fun paid _ => by simp
  exact failsOnly_exchange (by simp) hcoll hvalue (hb.exerciseFee_fits hlive hwindow hcoll)

lemma settleDifference_noOverflow {caller token : Address} {new refund : ℕ} :
    FailsOnly NoOverflow (settleDifference env caller token new refund w) := by
  rw [settleDifference]
  split_ifs with htop hback
  · exact .seq (noOverflow_sub htop.le) fun _ _ => by simp
  · exact .seq (noOverflow_sub hback.le) fun _ _ => by simp
  · exact failsOnly_ok _

lemma rollOption_noOverflow (hb : Bounded w.pool (w.option i))
    (hcoll : (w.option i).collateral = .ok collateral) {s e p new : ℕ}
    (hnew : collateralAmount (w.option i).optionType s (w.option i).underlyingAmount = .ok new)
    (hnext : w.pool.nextId + 1 < u256Size) :
    FailsOnly NoOverflow (rollOption env tx i s e p w) := by
  refine .guard (by simp) fun _ => .guard (by simp) fun _ => .guard (by simp) fun hopen => ?_
  refine .guard (by simp) fun _ => .guard (by simp) fun _ => .guard (by simp) fun _ => ?_
  refine .seq (failsOnly_of_ok hcoll) fun c hc => .seq (failsOnly_of_ok hnew) fun c' _ => ?_
  obtain rfl : c = collateral := by
    rw [hcoll] at hc
    exact (Except.ok.inj hc).symm
  refine .seq (noOverflow_cancelFee (hb.cancelFee_fits hopen hcoll)) fun fee hfee => ?_
  have hle : fee ≤ c := cancelFee_le hfee
  refine .seq (by simp) fun w₁ hw₁ => .seq (noOverflow_sub hle) fun refund _ => ?_
  obtain ⟨l₁, -, rfl⟩ := payFee_eq_ok.mp hw₁
  refine .seq settleDifference_noOverflow fun w₂ hw₂ => ?_
  obtain ⟨l₂, -, rfl⟩ := settleDifference_eq_ok.mp hw₂
  refine .seq ?_ fun added _ => .seq (noOverflow_sub hle) fun back _ => by simp
  exact failsOnly_addOption.mpr fun hover => absurd hnext (not_lt.mpr hover)

/-! ### Exercising -/

lemma exercise_succeeds (hb : Bounded w.pool (w.option i))
    (hcoll : (w.option i).collateral = .ok collateral) (hex : w.pool.options.existsAt i)
    (hbought : (w.option i).status = .PURCHASED) (hbuyer : tx.sender = (w.option i).buyer)
    (hexpiry : (w.option i).expiryBlock ≤ tx.block)
    (hgrace : tx.block < w.pool.graceEnd (w.option i)) (htx : tx.FromAccount env)
    (hpay : CanPay env tx w (w.option i) (exercisePrice (w.option i)
      ((w.option i).strikePrice * (w.option i).underlyingAmount / precision)))
    (hheld : collateral ≤ w.ledger.heldBy env.contractAddress
      (w.pool.collateralToken (w.option i).optionType)) :
    ∃ r w', exercise env tx i w = .ok (r, w') := by
  have hlive := isLive_of_purchased _ hbought
  have hwindow := hexpiry.trans_lt hgrace
  have hvalue := strikeValue_eq_ok.mpr ⟨hb.value_fits hlive hwindow hcoll, rfl⟩
  obtain ⟨⟨fee, w₁⟩, hpaid⟩ := exchange_succeeds (w := w.setStatus i .EXERCISED) hcoll hvalue
    (hb.exerciseFee_fits hlive hwindow hcoll) htx
    ⟨hpay.balance, hpay.allowance, hpay.willing, hpay.delivers, hpay.collects⟩ hheld
  refine ⟨[.boolean true], { w₁ with events := w₁.events ++
    [⟨.optionExercised, 193, exercisedFields (w.option i)
      ((w.option i).strikePrice * (w.option i).underlyingAmount / precision) fee⟩] }, ?_⟩
  simp only [exercise, bind_eq_ok, require_eq_ok, emit_eq_ok, respond_eq_ok, Prod.exists]
  exact ⟨(), hex, (), hbought, (), hbuyer, (), hexpiry, (), hgrace, _, hvalue, fee, w₁, hpaid,
    _, ⟨.inr (by simp [exercisedFields, Field.width]), rfl⟩, .inr (by decide), rfl⟩

/-- Within its bounds every operation that is left computes. -/
lemma Bounded.computes (hb : Bounded w.pool (w.option i))
    (hcoll : (w.option i).collateral = .ok collateral) (hinv : TableInv w.pool)
    (hcov : Covered isLive env w) (hi : i < w.pool.nextId) : Computes env w i where
  buys tx := buyOption_noOverflow hb
  cancels tx := cancelOption_noOverflow hb hcoll
  exercises tx := exercise_noOverflow hb hcoll
  settles tx := settle_noOverflow hcoll
  cancelsInBatch tx v hv := batchCancelStep_noOverflow (by rwa [hv]) (by rwa [hv])
  settlesInBatch tx n v hn hv := batchSettleStep_noOverflow hn (by rwa [hv])
  rolls tx s e p new hnew hnext := rollOption_noOverflow hb hcoll hnew hnext
  exercisable tx hbought htx hbuyer hexpiry hgrace hpay := by
    have hheld := hcov.lockedAmount_le hi (isLive_of_purchased _ hbought)
    rw [← OptionRecord.collateral_eq hcoll] at hheld
    exact exercise_succeeds hb hcoll ((hinv i).mpr hi) hbought hbuyer hexpiry hgrace htx hpay hheld

/-! ### Overflows -/

/-- The next operations on an open option compute only within its bounds. -/
lemma Computes.open_fits (hc : Computes env w i) (hex : w.pool.options.existsAt i)
    (hopen : (w.option i).status = .OPEN) (hpast : 0 < (w.option i).expiryBlock) :
    (w.option i).premium * buyFeeBps + 9999 < u256Size ∧
      ((w.option i).optionType = .CALL →
        (w.option i).underlyingAmount * cancelFeeBps + 9999 < u256Size) := by
  obtain ⟨buyer, hbuyer, -⟩ := exists_account (w.option i).writer Address.zero Address.zero
  constructor
  · by_contra hover
    have hbuy := hc.buys ⟨buyer, 0, [], fun _ _ => none⟩
    simp only [buyOption, require_of hex, require_of hopen, require_of hpast, require_of hbuyer,
      ok_bind, failsOnly_bind, failsOnly_ceilBps] at hbuy
    exact not_noOverflow_safeMath (hbuy.1 (not_lt.mp hover))
  · intro htype
    by_contra hover
    have hcancel := hc.cancels ⟨(w.option i).writer, 0, [], fun _ _ => none⟩
    simp only [cancelOption, require_of hex, require_of hopen, require_of trivial, ok_bind,
      OptionRecord.collateral, collateralAmount, htype, cancelFee, if_neg (not_le.mpr hpast),
      failsOnly_bind, failsOnly_ceilBps] at hcancel
    exact not_noOverflow_safeMath (hcancel.1 (not_lt.mp hover))

/-- So does the exercise of a purchased CALL. -/
lemma Computes.purchased_fits (hc : Computes env w i) (hex : w.pool.options.existsAt i)
    (hbought : (w.option i).status = .PURCHASED) (htype : (w.option i).optionType = .CALL)
    (hwindow : (w.option i).expiryBlock < w.pool.graceEnd (w.option i)) :
    (w.option i).strikePrice * (w.option i).underlyingAmount < u256Size ∧
      (w.option i).underlyingAmount * exerciseFeeBps + 9999 < u256Size := by
  have hexercise := hc.exercises
    ⟨(w.option i).buyer, (w.option i).expiryBlock, [], fun _ _ => none⟩
  simp only [exercise, require_of hex, require_of hbought, require_of trivial, require_of le_rfl,
    require_of hwindow, ok_bind, failsOnly_bind, failsOnly_strikeValue] at hexercise
  obtain ⟨hvalue, hrest⟩ := hexercise
  have hproduct : (w.option i).strikePrice * (w.option i).underlyingAmount < u256Size := by
    by_contra hover
    exact not_noOverflow_safeMath (hvalue (not_lt.mp hover))
  refine ⟨hproduct, ?_⟩
  by_contra hover
  obtain ⟨hexchange, -⟩ := hrest _ (strikeValue_eq_ok.mpr ⟨hproduct, rfl⟩)
  simp only [exchange, htype, exerciseCall, failsOnly_bind, failsOnly_ceilBps] at hexchange
  exact not_noOverflow_safeMath (hexchange.1 (not_lt.mp hover))

/-! ### Runs -/

/-- What creation gives the terms of an option, every stored option has. -/
lemma terms_of_run {others : Ledger → Ledger → Prop} {w₀ : State}
    {h : Lts.History State (Label Call)} {P : OptionRecord → Prop}
    (hP : ∀ o o', o.SameTerms o' → P o → P o') (hfresh : ∀ tx n o, Fresh tx n o → P o)
    (hdep : Deployed w₀) (hrun : Lts.Run (Step env others (exec env)) w₀ h w) :
    ∀ i < w.pool.nextId, P (w.option i) := by
  refine options_of_run hdep hrun fun h v tx c r v' hrun htx hexec => ?_
  exact (exec_advance (table_of_run hdep hrun) hexec).keeps (fun o o' ht => hP o o' ht.sameTerms)
    (hfresh tx _)

lemma collateral_of_run {others : Ledger → Ledger → Prop} {w₀ : State}
    {h : Lts.History State (Label Call)} (hdep : Deployed w₀)
    (hrun : Lts.Run (Step env others (exec env)) w₀ h w) :
    ∀ i < w.pool.nextId, ∃ collateral, (w.option i).collateral = .ok collateral := by
  refine terms_of_run (P := fun o => ∃ collateral, o.collateral = .ok collateral)
    (fun o o' ht ho => ?_) ?_ hdep hrun
  · rwa [ht.collateral]
  · rintro tx n o ⟨t, s, e, a, p, c, rfl, -, -, -, -, hc⟩
    exact ⟨c, hc⟩

lemma expiry_pos_of_run {others : Ledger → Ledger → Prop} {w₀ : State}
    {h : Lts.History State (Label Call)} (hdep : Deployed w₀)
    (hrun : Lts.Run (Step env others (exec env)) w₀ h w) :
    ∀ i < w.pool.nextId, 0 < (w.option i).expiryBlock := by
  refine terms_of_run (P := fun o => 0 < o.expiryBlock) (fun o o' ht ho => ?_) ?_ hdep hrun
  · rwa [ht.expiryBlock]
  · rintro tx n o ⟨t, s, e, a, p, c, rfl, -, -, hpast, -⟩
    exact Nat.zero_lt_of_lt hpast

/-- No option is reopened, and no finished one comes back to life. -/
lemma Moves.status {l : Label Call} (hm : Moves p l o o') :
    (o'.status = .OPEN → o.status = .OPEN) ∧ (isLive o' = true → isLive o = true) := by
  cases l with
  | call tx c r =>
    obtain ⟨ht, -⟩ := hm
    cases ht with
    | stays => exact ⟨id, id⟩
    | bought _ hopen | cancelled _ hopen => simp [isLive, hopen]
    | exercised _ hbought | settled _ hbought | transferred _ _ hbought => simp [isLive, hbought]
  | reverted | elsewhere =>
    cases hm
    exact ⟨id, id⟩

lemma Bounded.of_run {others : Ledger → Ledger → Prop} {h : Lts.History State (Label Call)}
    (hinv : TableInv w.pool) (hi : i < w.pool.nextId) (hb : Bounded w.pool (w.option i))
    (hrun : Lts.Run (Step env others (exec env)) w h w') :
    i < w'.pool.nextId ∧ Bounded w'.pool (w'.option i) := by
  refine (hrun.invariant (I := fun v => TableInv v.pool ∧ i < v.pool.nextId ∧
    Bounded v.pool (v.option i)) ⟨hinv, hi, hb⟩ ?_).2
  rintro v l v' ⟨hv, hlt, hbv⟩ hstep
  obtain ⟨hv', hle, hmoves, -⟩ := step_table hv hstep
  have hmove := hmoves i hlt
  have hgrace : v'.pool.gracePeriod = v.pool.gracePeriod := by
    cases hstep with
    | call htx hexec => exact (exec_advance hv hexec).gracePeriod
    | reverted | elsewhere => rfl
  exact ⟨hv', hlt.trans_le hle, hbv.mono hmove.sameTerms hgrace hmove.status.1 hmove.status.2⟩

/-- Tokens for everyone but one account, and no token that refuses them. -/
def endowed (l : Ledger) (self : Address) (amount : ℕ) : Ledger where
  balanceOf token a := if a = self then l.balanceOf token a else amount
  allowance _ _ _ := amount
  refuses _ _ _ := false

/-- An open option whose fee can be computed can be sold. -/
lemma exists_sale (env : Env) (hex : w.pool.options.existsAt i)
    (hopen : (w.option i).status = .OPEN) (hpast : 0 < (w.option i).expiryBlock)
    (hfee : (w.option i).premium * buyFeeBps + 9999 < u256Size) :
    ∃ h w', Lts.Run (Step env (Ledger.GrowsAt env.contractAddress) (exec env)) w h w' ∧
      w'.pool.options.existsAt i ∧ (w'.option i).status = .PURCHASED ∧
      (w.option i).SameTerms (w'.option i) ∧ w'.pool.gracePeriod = w.pool.gracePeriod := by
  obtain ⟨buyer, hwriter, hpool, hzero⟩ :=
    exists_account (w.option i).writer env.contractAddress Address.zero
  have hgrows : Ledger.GrowsAt env.contractAddress w.ledger
      (endowed w.ledger env.contractAddress (w.option i).premium) := by
    intro token
    simp [endowed]
  have hle : ((w.option i).premium * buyFeeBps + 9999) / 10000 ≤ (w.option i).premium :=
    fee_le (by decide)
  have hpays : ∃ l₁ l₂, (endowed w.ledger env.contractAddress (w.option i).premium).transferFrom
        w.pool.premiumToken env.contractAddress buyer (w.option i).writer
        ((w.option i).premium - ((w.option i).premium * buyFeeBps + 9999) / 10000) = .ok l₁ ∧
      l₁.transferFrom w.pool.premiumToken env.contractAddress buyer w.pool.feeRecipient
        (((w.option i).premium * buyFeeBps + 9999) / 10000) = .ok l₂ :=
    Ledger.transferFrom_twice rfl rfl (.inr (Nat.sub_add_cancel hle).le)
      (by simp [endowed, hpool, Nat.sub_add_cancel hle])
  obtain ⟨l₁, l₂, hl₁, hl₂⟩ := hpays
  have hbuys : ∃ w', buyOption env ⟨buyer, 0, [], fun _ _ => none⟩ i
      { w with ledger := endowed w.ledger env.contractAddress (w.option i).premium }
        = .ok ([.boolean true], w') :=
    buyOption_succeeds hex hopen hpast hwriter (ceilBps_eq_ok.mpr ⟨hfee, rfl⟩) hle hl₁ hl₂
  obtain ⟨w', hexec⟩ := hbuys
  obtain ⟨_, _, _, -, -, -, -, -, -, -, -, -, hw'⟩ := buyOption_ok hexec
  have hpool' : w'.pool = ((w.setBuyer i buyer).setStatus i .PURCHASED).pool := by
    rw [hw']
    rfl
  have hothers : Step env (Ledger.GrowsAt env.contractAddress) (exec env) w .elsewhere
      { w with ledger := endowed w.ledger env.contractAddress (w.option i).premium } :=
    .elsewhere w.bridge hgrows
  have hsale : Step env (Ledger.GrowsAt env.contractAddress) (exec env)
      { w with ledger := endowed w.ledger env.contractAddress (w.option i).premium }
      (.call ⟨buyer, 0, [], fun _ _ => none⟩ (.buyOption i) [.boolean true]) w' :=
    .call ⟨hpool, hzero⟩ hexec
  have hoption : w'.option i = { w.option i with buyer := buyer, status := .PURCHASED } := by
    rw [World.option, hpool']
    exact congrFun (get_setBuyer_setStatus _ _ _) i |>.trans (Function.update_self ..)
  refine ⟨_, w', (Lts.Run.nil.cons hothers).cons hsale, ?_, ?_, ?_, ?_⟩
  · rw [OptionStorage.existsAt_iff, ← World.option, hoption]
    exact hex
  · rw [hoption]
  · rw [hoption]
    exact .update _ _ _
  · rw [hpool']
    rfl

/-- Of every option stored in a reachable state: whatever follows, its own numbers never stop an
operation exactly when those are bounded that it still has before it. -/
theorem neverOverflows_iff {w₀ : State} {h : Lts.History State (Label Call)} (hdep : Deployed w₀)
    (hrun : Lts.Run (Step env (Ledger.GrowsAt env.contractAddress) (exec env)) w₀ h w)
    (hi : i < w.pool.nextId) : NeverOverflows env w i ↔ Bounded w.pool (w.option i) := by
  have hinv := table_of_run hdep hrun
  have hex := (hinv i).mpr hi
  have hpast := expiry_pos_of_run hdep hrun i hi
  constructor
  · intro hnever
    have hopen := fun hopen => (hnever [] w .nil).open_fits hex hopen hpast
    refine ⟨fun h => (hopen h).1, fun h => (hopen h).2, fun hlive htype hwindow => ?_⟩
    rcases isLive_iff.mp hlive with hstatus | hstatus
    · -- an open option can be sold first
      obtain ⟨h', w', hrun', hex', hbought, hterms, hgrace⟩ :=
        exists_sale env hex hstatus hpast (hopen hstatus).1
      have hfits := (hnever h' w' hrun').purchased_fits hex' hbought
        (hterms.optionType.trans htype) (by
          rw [PoolStorage.graceEnd, hgrace, hterms.expiryBlock]
          exact hwindow)
      rwa [hterms.strikePrice, hterms.underlyingAmount] at hfits
    · exact (hnever [] w .nil).purchased_fits hex hstatus htype hwindow
  · intro hb h' w' hrun'
    obtain ⟨hi', hb'⟩ := hb.of_run hinv hi hrun'
    obtain ⟨collateral, hcoll⟩ := collateral_of_run hdep (hrun.trans hrun') i hi'
    exact hb'.computes hcoll (table_of_run hdep (hrun.trans hrun'))
      (covered_of_run hdep (hrun.trans hrun')) hi'

theorem neverOverflows_sold : NeverOverflows Testnet.env (Testnet.sold (10 ^ 18) 4 100) 0 :=
  (neverOverflows_iff (Testnet.deployed ())
    (Testnet.run_sold _ (s := 10 ^ 18) (a := 4) (p := 100) rfl rfl) (by decide)).mpr
    ⟨fun _ => by decide, fun _ _ => by decide, fun _ _ _ => by decide⟩

/-- A CALL on four units at a strike of `2 ^ 255` is accepted and sold, and then cannot be
exercised: its strike value does not fit a `u256` although it would after the division. -/
theorem sold_call_overflows :
    ∃ h w, Lts.Run (Step Testnet.env (Ledger.GrowsAt Testnet.env.contractAddress)
        (exec Testnet.env)) (Testnet.world ()) h w ∧
      Deployed (Testnet.world ()) ∧ 0 < w.pool.nextId ∧
      (w.option 0).status = .PURCHASED ∧ (w.option 0).buyer = Testnet.account 11 ∧
      (w.option 0).expiryBlock = 1000 ∧ 1000 < w.pool.graceEnd (w.option 0) ∧
      CanPay Testnet.env (Testnet.tx 11 1000) w (w.option 0)
        ((w.option 0).strikePrice * (w.option 0).underlyingAmount / precision) ∧
      exercise Testnet.env (Testnet.tx 11 1000) 0 w = .error .safeMath := by
  refine ⟨_, Testnet.sold (2 ^ 255) 4 100, Testnet.run_sold _ rfl rfl, Testnet.deployed (),
    by decide, rfl, rfl, rfl, by decide, ?_, rfl⟩
  exact ⟨by decide, by decide, rfl, rfl, rfl⟩

end

end Frogop.OptionsPool
