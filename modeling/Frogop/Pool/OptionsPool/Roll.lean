import Frogop.Pool.OptionsPool.Solvency

/-!
# Rolling as cancelling and writing

`rollOption` nets the transfers that `cancelOption` and `writeOption` would make one after the
other. `gross_of_net` and `net_of_gross` turn one set of transfers into the other, and
`netted_balances` says that both leave every account with the same balances.
-/

namespace Frogop

open World

/-! ### Netted transfers -/

section

variable {env : Env} {l l₁ l₂ l₃ m₁ m₂ : Ledger} {token caller recipient : Address}
  {fee refund new : ℕ}

open Ledger (entry entry_self entry_of_ne entry_add entry_zero)

lemma World.PaysFee.entries (h : PaysFee env l token recipient fee m₁) (t a : Address) :
    m₁.balanceOf t a + entry token env.contractAddress fee t a
      = l.balanceOf t a + entry token recipient fee t a := by
  rcases Nat.eq_zero_or_pos fee with rfl | hfee
  · rw [h.2 rfl, entry_zero, entry_zero]
  · exact Ledger.transferFrom_entries (h.1 hfee) t a

lemma World.PaysFee.refuses (h : PaysFee env l token recipient fee m₁) :
    m₁.refuses = l.refuses := by
  rcases Nat.eq_zero_or_pos fee with rfl | hfee
  · rw [h.2 rfl]
  · exact (Ledger.transferFrom_ok (h.1 hfee)).2.2

lemma World.PaysFee.allowance (h : PaysFee env l token recipient fee m₁) :
    m₁.allowance = l.allowance := by
  rcases Nat.eq_zero_or_pos fee with rfl | hfee
  · rw [h.2 rfl]
  · exact Ledger.transferFrom_self_allowance (h.1 hfee)

lemma World.PaysFee.needs (h : PaysFee env l token recipient fee m₁) :
    (0 < fee → l.refuses token env.contractAddress recipient = false) ∧
      fee ≤ l.balanceOf token env.contractAddress := by
  rcases Nat.eq_zero_or_pos fee with rfl | hfee
  · exact ⟨fun hpos => absurd hpos (lt_irrefl 0), Nat.zero_le _⟩
  · obtain ⟨hwilling, -, hbal⟩ := Ledger.transferFrom_needs (h.1 hfee)
    exact ⟨fun _ => hwilling, hbal⟩

lemma paysFee_succeeds
    (hwilling : 0 < fee → l.refuses token env.contractAddress recipient = false)
    (hbal : fee ≤ l.balanceOf token env.contractAddress) :
    ∃ m, PaysFee env l token recipient fee m := by
  rcases Nat.eq_zero_or_pos fee with rfl | hfee
  · exact ⟨l, fun hpos => absurd hpos (lt_irrefl 0), fun _ => rfl⟩
  · obtain ⟨m, hm⟩ := Ledger.transferFrom_succeeds (hwilling hfee) (.inl rfl) hbal
    exact ⟨m, fun _ => hm, fun hzero => absurd hzero hfee.ne'⟩

namespace OptionsPool

/-- Settling the difference amounts to giving the refund out and taking the new collateral in. -/
lemma SettlesDifference.entries (h : SettlesDifference env m₁ caller token new refund m₂)
    (t a : Address) :
    m₂.balanceOf t a + entry token env.contractAddress refund t a + entry token caller new t a
      = m₁.balanceOf t a + entry token caller refund t a
        + entry token env.contractAddress new t a := by
  rcases lt_trichotomy refund new with hlt | rfl | hlt
  · have hmove := Ledger.transferFrom_entries (h.1 hlt) t a
    have hcaller := entry_add token caller t a refund (new - refund)
    have hpool := entry_add token env.contractAddress t a refund (new - refund)
    rw [Nat.add_sub_cancel' hlt.le] at hcaller hpool
    omega
  · rw [h.2.2 rfl]
    omega
  · have hmove := Ledger.transferFrom_entries (h.2.1 hlt) t a
    have hcaller := entry_add token caller t a new (refund - new)
    have hpool := entry_add token env.contractAddress t a new (refund - new)
    rw [Nat.add_sub_cancel' hlt.le] at hcaller hpool
    omega

lemma settlesDifference_succeeds
    (hin : m₁.refuses token caller env.contractAddress = false)
    (hout : m₁.refuses token env.contractAddress caller = false)
    (hallow : new - refund ≤ m₁.allowance token caller env.contractAddress)
    (hcaller : new - refund ≤ m₁.balanceOf token caller)
    (hpool : refund - new ≤ m₁.balanceOf token env.contractAddress) :
    ∃ m, SettlesDifference env m₁ caller token new refund m := by
  rcases lt_trichotomy refund new with hlt | heq | hlt
  · obtain ⟨m, hm⟩ := Ledger.transferFrom_succeeds hin (.inr hallow) hcaller
    exact ⟨m, fun _ => hm, fun hgt => absurd hlt hgt.not_gt, fun heq => absurd heq hlt.ne'⟩
  · refine ⟨m₁, fun hlt => absurd heq hlt.ne, fun hlt => absurd heq hlt.ne', fun _ => rfl⟩
  · obtain ⟨m, hm⟩ := Ledger.transferFrom_succeeds hout (.inl rfl) hpool
    exact ⟨m, fun hgt => absurd hlt hgt.not_gt, fun _ => hm, fun heq => absurd heq hlt.ne⟩

/-- The transfers of `cancelOption` and `writeOption`, one after the other. -/
structure Gross (env : Env) (l : Ledger) (token caller recipient : Address) (fee refund new : ℕ)
    (l₁ l₂ l₃ : Ledger) : Prop where
  refunded : l.transferFrom token env.contractAddress env.contractAddress caller refund = .ok l₁
  paid : PaysFee env l₁ token recipient fee l₂
  posted : l₂.transferFrom token env.contractAddress caller env.contractAddress new = .ok l₃

/-- The transfers of `rollOption`. -/
structure Net (env : Env) (l : Ledger) (token caller recipient : Address) (fee refund new : ℕ)
    (m₁ m₂ : Ledger) : Prop where
  paid : PaysFee env l token recipient fee m₁
  settled : SettlesDifference env m₁ caller token new refund m₂

/-- Gross and netted transfers leave the same balances. -/
lemma netted_balances (hg : Gross env l token caller recipient fee refund new l₁ l₂ l₃)
    (hn : Net env l token caller recipient fee refund new m₁ m₂) : m₂.balanceOf = l₃.balanceOf := by
  funext t a
  have hrefund := Ledger.transferFrom_entries hg.refunded t a
  have hfee := hg.paid.entries t a
  have hpost := Ledger.transferFrom_entries hg.posted t a
  have hfee' := hn.paid.entries t a
  have hdiff := hn.settled.entries t a
  omega

/-- Netting asks for no more than the gross transfers did. -/
lemma net_of_gross (hne : caller ≠ env.contractAddress)
    (hg : Gross env l token caller recipient fee refund new l₁ l₂ l₃) :
    ∃ m₁ m₂, Net env l token caller recipient fee refund new m₁ m₂ := by
  obtain ⟨hout, -, hbal⟩ := Ledger.transferFrom_needs hg.refunded
  obtain ⟨hfee, hrest⟩ := hg.paid.needs
  obtain ⟨hin, hallow, hpost⟩ := Ledger.transferFrom_needs hg.posted
  have hsame : l₁.refuses = l.refuses := (Ledger.transferFrom_ok hg.refunded).2.2
  rw [hg.paid.refuses, hsame] at hin
  rw [hsame] at hfee
  have hallow := hallow.resolve_left hne
  rw [hg.paid.allowance, Ledger.transferFrom_self_allowance hg.refunded] at hallow
  -- What the pool and the caller have after each transfer.
  have hpool := Ledger.transferFrom_entries hg.refunded token env.contractAddress
  have hcaller := Ledger.transferFrom_entries hg.refunded token caller
  have hcaller' := hg.paid.entries token caller
  rw [entry_self, entry_of_ne hne.symm] at hpool
  rw [entry_self, entry_of_ne hne] at hcaller
  rw [entry_of_ne hne] at hcaller'
  obtain ⟨m₁, hm₁⟩ := paysFee_succeeds hfee (by omega)
  have hpaid := hm₁.entries token caller
  have hpaid' := hm₁.entries token env.contractAddress
  rw [entry_of_ne hne] at hpaid
  rw [entry_self] at hpaid'
  have hsettles : ∃ m₂, SettlesDifference env m₁ caller token new refund m₂ := by
    apply settlesDifference_succeeds
    · rw [hm₁.refuses]
      exact hin
    · rw [hm₁.refuses]
      exact hout
    · rw [hm₁.allowance]
      omega
    · omega
    · omega
  obtain ⟨m₂, hm₂⟩ := hsettles
  exact ⟨m₁, m₂, hm₁, hm₂⟩

/-- With the whole refund in the pool, and the new collateral in the caller's hands, the gross
transfers go through when the netted ones do. -/
lemma gross_of_net (hne : caller ≠ env.contractAddress)
    (hin : l.refuses token caller env.contractAddress = false)
    (hout : l.refuses token env.contractAddress caller = false)
    (hallow : new ≤ l.allowance token caller env.contractAddress)
    (hbal : new ≤ l.balanceOf token caller)
    (hpool : refund + fee ≤ l.balanceOf token env.contractAddress)
    (hn : Net env l token caller recipient fee refund new m₁ m₂) :
    ∃ l₁ l₂ l₃, Gross env l token caller recipient fee refund new l₁ l₂ l₃ := by
  have hrefunded : ∃ l₁, l.transferFrom token env.contractAddress env.contractAddress caller refund
      = .ok l₁ := Ledger.transferFrom_succeeds hout (.inl rfl) (by omega)
  obtain ⟨l₁, hl₁⟩ := hrefunded
  have hsame : l₁.refuses = l.refuses := (Ledger.transferFrom_ok hl₁).2.2
  have hleft := Ledger.transferFrom_entries hl₁ token env.contractAddress
  have hhas := Ledger.transferFrom_entries hl₁ token caller
  rw [entry_self, entry_of_ne hne.symm] at hleft
  rw [entry_self, entry_of_ne hne] at hhas
  have hpaid : ∃ l₂, PaysFee env l₁ token recipient fee l₂ := by
    apply paysFee_succeeds
    · rw [hsame]
      exact hn.paid.needs.1
    · omega
  obtain ⟨l₂, hl₂⟩ := hpaid
  have hhas' := hl₂.entries token caller
  rw [entry_of_ne hne] at hhas'
  have hposted : ∃ l₃, l₂.transferFrom token env.contractAddress caller env.contractAddress new
      = .ok l₃ := by
    apply Ledger.transferFrom_succeeds
    · rw [hl₂.refuses, hsame]
      exact hin
    · right
      rw [hl₂.allowance, Ledger.transferFrom_self_allowance hl₁]
      exact hallow
    · omega
  obtain ⟨l₃, hl₃⟩ := hposted
  exact ⟨l₁, l₂, l₃, hl₁, hl₂, hl₃⟩

end OptionsPool

end

/-! ### The two calls -/

namespace OptionsPool

open Outcome

section

variable {σ : Type} {env : Env} {tx tx' : Tx} {w x y : World σ} {r : Response}
  {optionId s e p : ℕ}

/-- `cancelOption`, then `writeOption` with the type and the amount of the cancelled option. -/
def cancelThenWrite (env : Env) (tx tx' : Tx)
    (optionId newStrikePrice newExpiryBlock newPremium : ℕ) (w : World σ) :
    Except Revert (Reply σ) := do
  let option := w.option optionId
  let (_, w) ← cancelOption env tx optionId w
  writeOption env tx' option.optionType.toU8 newStrikePrice newExpiryBlock
    option.underlyingAmount newPremium w

/-- The event that only `rollOption` emits. -/
def rolledEvent (tx : Tx) (optionId newOptionId newStrikePrice newExpiryBlock newPremium : ℕ) :
    Event :=
  ⟨.optionRolled, 228, [.u256 optionId, .u256 newOptionId, .address tx.sender,
    .u256 newStrikePrice, .u64 newExpiryBlock, .u256 newPremium]⟩

/-- `x` differs from `y` by one more event, and perhaps by allowances. -/
structure SameOutcome (rolled : Event) (x y : World σ) : Prop where
  pool : x.pool = y.pool
  own : x.own = y.own
  balances : x.ledger.balanceOf = y.ledger.balanceOf
  bridge : x.bridge = y.bridge
  events : x.events = y.events ++ [rolled]

/-- The checks and the amounts that `rollOption` and the two calls have in common. -/
structure Rollable (tx : Tx) (w : World σ) (optionId s e p old fee new : ℕ) : Prop where
  stored : w.pool.options.existsAt optionId
  writer : tx.sender = (w.option optionId).writer
  isOpen : (w.option optionId).status = .OPEN
  strike_pos : 0 < s
  premium_pos : 0 < p
  past : tx.block < e
  far : e ≤ u64Add tx.block maxExpiryBlocks
  oldCollateral : (w.option optionId).collateral = .ok old
  feeOf : cancelFee tx.block (w.option optionId) old = .ok fee
  fee_le : fee ≤ old
  newCollateral : collateralAmount (w.option optionId).optionType s
    (w.option optionId).underlyingAmount = .ok new
  nextId : w.pool.nextId + 1 < u256Size

/-- The pool after either way. -/
def rolledPool (tx : Tx) (w : World σ) (optionId s e p : ℕ) : PoolStorage :=
  { w.pool with
    nextId := w.pool.nextId + 1
    options := (w.pool.options.setStatus optionId .CANCELLED).set w.pool.nextId
      (newOption tx (w.option optionId).optionType s e (w.option optionId).underlyingAmount p
        w.pool.nextId) }

/-- The events of either way. -/
def rolledEvents (tx : Tx) (w : World σ) (optionId s e p old fee : ℕ) : List Event :=
  [⟨.optionCancelled, 128, [.u256 optionId, .address tx.sender, .u256 (old - fee),
      .u256 fee]⟩,
    ⟨.optionWritten, 200, writtenFields
      (newOption tx (w.option optionId).optionType s e (w.option optionId).underlyingAmount p
        w.pool.nextId)⟩]

@[simp] lemma OptionType.ofU8_toU8 (t : OptionType) : OptionType.ofU8 t.toU8 = some t := by
  cases t <;> rfl

/-- `rollOption` succeeds exactly when its checks and its netted transfers do. -/
lemma rollOption_iff : rollOption env tx optionId s e p w = .ok (r, x) ↔
    ∃ old fee new m₁ m₂, Rollable tx w optionId s e p old fee new ∧
      Net env w.ledger (w.pool.collateralToken (w.option optionId).optionType) tx.sender
        w.pool.feeRecipient fee (old - fee) new m₁ m₂ ∧
      r = [.u256 w.pool.nextId] ∧
      x = { w with
        pool := rolledPool tx w optionId s e p
        ledger := m₂
        events := w.events ++ rolledEvents tx w optionId s e p old fee ++
          [rolledEvent tx optionId w.pool.nextId s e p] } := by
  constructor
  · intro h
    obtain ⟨old, new, fee, l₁, l₂, hex, hwriter, hopen, ⟨hs, hp⟩, hpast, hfar, hold, hnew, hfee,
      hle, hl₁, hl₂, hnext, rfl, rfl⟩ := rollOption_ok h
    refine ⟨old, fee, new, l₁, l₂,
      ⟨hex, hwriter, hopen, hs, hp, hpast, hfar, hold, hfee, hle, hnew, hnext⟩, ⟨hl₁, hl₂⟩, rfl, ?_⟩
    simp [leaves, rolledPool, rolledEvents, rolledEvent]
  · rintro ⟨old, fee, new, m₁, m₂, hroll, hnet, rfl, rfl⟩
    simp only [rollOption, bind_eq_ok, require_eq_ok, payFee_eq_ok, SafeMath.sub_eq_ok,
      settleDifference_eq_ok, addOption_eq_ok, emit_eq_ok, respond_eq_ok, Prod.exists,
      Prod.mk.injEq, not_or, ← Nat.pos_iff_ne_zero]
    refine ⟨(), hroll.stored, (), hroll.writer, (), hroll.isOpen, (),
      ⟨hroll.strike_pos, hroll.premium_pos⟩, (), hroll.past, (), hroll.far, old,
      hroll.oldCollateral, new, hroll.newCollateral, fee, hroll.feeOf, _, ⟨m₁, hnet.paid, rfl⟩, _,
      ⟨hroll.fee_le, rfl⟩, _, ⟨m₂, hnet.settled, rfl⟩, _, _, ⟨hroll.nextId, rfl, rfl⟩, _,
      ⟨hroll.fee_le, rfl⟩, _, ⟨.inr ?_, rfl⟩, _, ⟨.inr ?_, rfl⟩, _, ⟨.inr ?_, rfl⟩, .inr ?_, rfl,
      ?_⟩
    · simp [Field.width]
    · simp [writtenFields, Field.width]
    · simp [Field.width]
    · simp [Field.width]
    · simp [rolledPool, rolledEvents, rolledEvent, setStatus, withOptions]

/-- The two calls succeed exactly when the checks of `rollOption` and the gross transfers do, and
the option has an amount to write again. -/
lemma cancelThenWrite_iff (hsender : tx'.sender = tx.sender) (hblock : tx'.block = tx.block) :
    cancelThenWrite env tx tx' optionId s e p w = .ok (r, y) ↔
      ∃ old fee new l₁ l₂ l₃, Rollable tx w optionId s e p old fee new ∧
        0 < (w.option optionId).underlyingAmount ∧
        Gross env w.ledger (w.pool.collateralToken (w.option optionId).optionType) tx.sender
          w.pool.feeRecipient fee (old - fee) new l₁ l₂ l₃ ∧
        r = [.u256 w.pool.nextId] ∧
        y = { w with
          pool := rolledPool tx w optionId s e p
          ledger := l₃
          events := w.events ++ rolledEvents tx w optionId s e p old fee } := by
  have hsame : newOption tx' = newOption tx := by
    unfold newOption
    rw [hsender, hblock]
  simp only [cancelThenWrite, cancelOption, writeOption, bind_eq_ok, require_eq_ok,
    SafeMath.sub_eq_ok, transfer_eq_ok, payFee_eq_ok, checkType_eq_ok, checkTerms_eq_ok,
    addOption_eq_ok, transferFrom_eq_ok, emit_eq_ok, respond_eq_ok, Prod.exists, Prod.mk.injEq,
    OptionType.ofU8_toU8, Option.some.injEq, hsame, hsender, hblock]
  constructor
  · rintro ⟨_, _, ⟨-, hex, -, hwriter, -, hopen, old, hold, fee, hfee, _, ⟨hle, rfl⟩, _,
      ⟨l₁, hl₁, rfl⟩, _, ⟨l₂, hl₂, rfl⟩, _, ⟨-, rfl⟩, -, rfl, rfl⟩, _, rfl, -,
      ⟨⟨hs, ha, hp⟩, hpast, hfar⟩, new, hnew, _, _, ⟨hnext, rfl, rfl⟩, _, ⟨l₃, hl₃, rfl⟩, _,
      ⟨-, rfl⟩, -, rfl, rfl⟩
    rw [← hwriter] at hl₁
    refine ⟨old, fee, new, l₁, l₂, l₃,
      ⟨hex, hwriter, hopen, hs, hp, hpast, hfar, hold, hfee, hle, hnew, hnext⟩, ha,
      ⟨hl₁, hl₂, hl₃⟩, rfl, ?_⟩
    simp [rolledPool, rolledEvents, setStatus, withOptions, hwriter]
  · rintro ⟨old, fee, new, l₁, l₂, l₃, hroll, ha, hgross, rfl, rfl⟩
    have hrefunded := hgross.refunded
    rw [hroll.writer] at hrefunded
    refine ⟨_, _, ⟨(), hroll.stored, (), hroll.writer, (), hroll.isOpen, old, hroll.oldCollateral,
      fee, hroll.feeOf, _, ⟨hroll.fee_le, rfl⟩, _, ⟨l₁, hrefunded, rfl⟩, _, ⟨l₂, hgross.paid, rfl⟩,
      _, ⟨.inr ?_, rfl⟩, .inr ?_, rfl, rfl⟩, _, rfl, (),
      ⟨⟨hroll.strike_pos, ha, hroll.premium_pos⟩, hroll.past, hroll.far⟩, new,
      hroll.newCollateral, _, _, ⟨hroll.nextId, rfl, rfl⟩, _, ⟨l₃, hgross.posted, rfl⟩, _,
      ⟨.inr ?_, rfl⟩, .inr ?_, rfl, ?_⟩
    · simp [Field.width]
    · simp [Field.width]
    · simp [writtenFields, Field.width]
    · simp [Field.width]
    · simp [rolledPool, rolledEvents, setStatus, withOptions, hroll.writer]

/-- Either way leads to the same outcome. -/
lemma sameOutcome {rolled : Event} {pool : PoolStorage} {m l : Ledger} {events : List Event}
    (h : m.balanceOf = l.balanceOf) :
    SameOutcome rolled { w with pool := pool, ledger := m, events := events ++ [rolled] }
      { w with pool := pool, ledger := l, events := events } :=
  ⟨rfl, rfl, h, rfl, rfl⟩

end

/-! ### Amounts of stored options -/

section

variable {env : Env} {tx : Tx} {c : Call} {w w' w₀ : State} {r : Response}
  {others : Ledger → Ledger → Prop} {h : Lts.History State (Label Call)}

/-- The calls that store an option. -/
def Call.Creates : Call → Prop
  | .writeOption _ _ _ _ _ => True
  | .rollOption _ _ _ _ => True
  | _ => False

lemma exec_nextId (hinv : TableInv w.pool) (hc : ¬ c.Creates) (h : exec env tx c w = .ok (r, w')) :
    w'.pool.nextId = w.pool.nextId := by
  cases c with
  | writeOption t s e a p => exact absurd trivial hc
  | rollOption i s e p => exact absurd trivial hc
  | cancelOption i =>
    obtain ⟨-, -, -, hpool⟩ := cancelOption_update h
    rw [hpool]
  | settle i =>
    obtain ⟨-, -, -, hpool⟩ := settle_update h
    rw [hpool]
  | buyOption i =>
    obtain ⟨_, _, _, -, -, -, -, -, -, -, -, -, rfl⟩ := buyOption_ok h
    rfl
  | exercise i =>
    obtain ⟨_, _, _, _, _, _, -, -, -, -, -, -, -, -, -, -, -, -, -, rfl⟩ := exercise_ok h
    rfl
  | transferOption i newBuyer =>
    obtain ⟨-, -, -, -, -, -, -, rfl⟩ := transferOption_ok h
    rfl
  | batchCancel n a b c d e => exact (batchCancel_sweep hinv h).nextId
  | batchSettle n a b c d e => exact (batchSettle_sweep hinv h).nextId
  | updateFeeRecipient newRecipient =>
    obtain ⟨-, -, -, rfl⟩ := updateFeeRecipient_ok h
    rfl
  | registerBtcPubkey data =>
    obtain ⟨_, -, -, -, rfl⟩ := registerBtcPubkey_ok h
    rfl

/-- A call that stores an option stores one with an amount. -/
lemma exec_created (hinv : TableInv w.pool) (hpos : ∀ i < w.pool.nextId,
    0 < (w.option i).underlyingAmount) (h : exec env tx c w = .ok (r, w')) :
    w'.pool.nextId = w.pool.nextId ∨ 0 < (w'.option w.pool.nextId).underlyingAmount := by
  cases c with
  | writeOption t s e a p =>
    obtain ⟨_, _, _, -, ⟨-, ha, -⟩, -, -, -, -, -, -, rfl⟩ := writeOption_ok h
    refine .inr ?_
    rw [World.option, OptionStorage.get_set_self]
    exact ha
  | rollOption i s e p =>
    obtain ⟨_, _, _, _, _, hex, -, -, -, -, -, -, -, -, -, -, -, -, -, rfl⟩ := rollOption_ok h
    refine .inr ?_
    rw [World.option, OptionStorage.get_set_self]
    exact hpos i ((hinv i).mp hex)
  | _ => exact .inl (exec_nextId hinv id h)

/-- Every stored option has an amount. -/
lemma amount_pos_of_run (hdep : Deployed w₀)
    (hrun : Lts.Run (Step env others (exec env)) w₀ h w) :
    ∀ i < w.pool.nextId, 0 < (w.option i).underlyingAmount := by
  refine options_of_run (P := fun o => 0 < o.underlyingAmount) hdep hrun ?_
  intro h v tx c r v' hrun _ hexec hpos i hi
  have hinv := table_of_run hdep hrun
  have hadv := exec_advance hinv hexec
  rcases lt_or_ge i v.pool.nextId with hlt | hge
  · have hterms := (hadv.stored i hlt).sameTerms
    rw [World.option, hterms.underlyingAmount]
    exact hpos i hlt
  · rcases exec_created hinv hpos hexec with hnext | hnew
    · omega
    · rcases hadv.created with hnext | ⟨hnext, -⟩
      · omega
      · obtain rfl : i = v.pool.nextId := by omega
        exact hnew

end

/-! ### Rolling -/

section

variable {env : Env} {tx tx' : Tx} {optionId s e p : ℕ} {w w₀ x y : State} {r : Response}
  {h : Lts.History State (Label Call)}

/-- The writer can post the new collateral by itself, and the token lets it and the pool pay each
other. -/
structure CanPost (env : Env) (tx : Tx) (w : State) (optionId newStrikePrice : ℕ) : Prop where
  balance : ∀ new, collateralAmount (w.option optionId).optionType newStrikePrice
    (w.option optionId).underlyingAmount = .ok new →
    new ≤ w.ledger.balanceOf (w.pool.collateralToken (w.option optionId).optionType) tx.sender
  allowance : ∀ new, collateralAmount (w.option optionId).optionType newStrikePrice
    (w.option optionId).underlyingAmount = .ok new →
    new ≤ w.ledger.allowance (w.pool.collateralToken (w.option optionId).optionType) tx.sender
      env.contractAddress
  paysIn : w.ledger.refuses (w.pool.collateralToken (w.option optionId).optionType) tx.sender
    env.contractAddress = false
  paysOut : w.ledger.refuses (w.pool.collateralToken (w.option optionId).optionType)
    env.contractAddress tx.sender = false

/-- Rolling is possible whenever the two calls are, in any state. -/
lemma rollOption_of_cancelThenWrite (htx : tx.FromAccount env) (hsender : tx'.sender = tx.sender)
    (hblock : tx'.block = tx.block)
    (htwo : cancelThenWrite env tx tx' optionId s e p w = .ok (r, y)) :
    ∃ x, rollOption env tx optionId s e p w = .ok (r, x) ∧
      SameOutcome (rolledEvent tx optionId w.pool.nextId s e p) x y := by
  obtain ⟨old, fee, new, l₁, l₂, l₃, hroll, -, hgross, rfl, rfl⟩ :=
    (cancelThenWrite_iff hsender hblock).mp htwo
  obtain ⟨m₁, m₂, hnet⟩ := net_of_gross htx.ne_pool hgross
  refine ⟨_, rollOption_iff.mpr ⟨old, fee, new, m₁, m₂, hroll, hnet, rfl, rfl⟩, ?_⟩
  exact sameOutcome (netted_balances hgross hnet)

/-- The two calls are possible whenever rolling is and the writer can post the new collateral, in
every state the pool can reach. -/
lemma cancelThenWrite_of_rollOption (htx : tx.FromAccount env) (hsender : tx'.sender = tx.sender)
    (hblock : tx'.block = tx.block) (hdep : Deployed w₀)
    (hrun : Lts.Run (Step env (Ledger.GrowsAt env.contractAddress) (exec env)) w₀ h w)
    (hpost : CanPost env tx w optionId s)
    (hroll : rollOption env tx optionId s e p w = .ok (r, x)) :
    ∃ y, cancelThenWrite env tx tx' optionId s e p w = .ok (r, y) ∧
      SameOutcome (rolledEvent tx optionId w.pool.nextId s e p) x y := by
  obtain ⟨old, fee, new, m₁, m₂, hchecks, hnet, rfl, rfl⟩ := rollOption_iff.mp hroll
  have hinv := table_of_run hdep hrun
  have hcov := covered_of_run hdep hrun
  have hi : optionId < w.pool.nextId := (hinv optionId).mp hchecks.stored
  have hheld := hcov.lockedAmount_le hi (isLive_of_open _ hchecks.isOpen)
  rw [← OptionRecord.collateral_eq hchecks.oldCollateral] at hheld
  have hpool : old - fee + fee ≤ w.ledger.balanceOf
      (w.pool.collateralToken (w.option optionId).optionType) env.contractAddress := by
    rw [Nat.sub_add_cancel hchecks.fee_le]
    exact hheld
  obtain ⟨l₁, l₂, l₃, hgross⟩ := gross_of_net htx.ne_pool hpost.paysIn hpost.paysOut
    (hpost.allowance new hchecks.newCollateral) (hpost.balance new hchecks.newCollateral) hpool hnet
  refine ⟨_, (cancelThenWrite_iff hsender hblock).mpr ⟨old, fee, new, l₁, l₂, l₃, hchecks,
    amount_pos_of_run hdep hrun _ hi, hgross, rfl, rfl⟩, ?_⟩
  exact sameOutcome (netted_balances hgross hnet)

/-- Rolling an option does what cancelling it and writing it again in the same block does. -/
theorem rollOption_eq_cancel_write (htx : tx.FromAccount env) (hsender : tx'.sender = tx.sender)
    (hblock : tx'.block = tx.block) (optionId s e p : ℕ) (w : State) :
    (∀ r y, cancelThenWrite env tx tx' optionId s e p w = .ok (r, y) →
      ∃ x, rollOption env tx optionId s e p w = .ok (r, x) ∧
        SameOutcome (rolledEvent tx optionId w.pool.nextId s e p) x y) ∧
      ∀ w₀ h, Deployed w₀ →
        Lts.Run (Step env (Ledger.GrowsAt env.contractAddress) (exec env)) w₀ h w →
        CanPost env tx w optionId s →
        ∀ r x, rollOption env tx optionId s e p w = .ok (r, x) →
          ∃ y, cancelThenWrite env tx tx' optionId s e p w = .ok (r, y) ∧
            SameOutcome (rolledEvent tx optionId w.pool.nextId s e p) x y :=
  ⟨fun _ _ htwo => rollOption_of_cancelThenWrite htx hsender hblock htwo,
    fun _ _ hdep hrun hpost _ _ hroll =>
      cancelThenWrite_of_rollOption htx hsender hblock hdep hrun hpost hroll⟩

/-- Account 10 writes a PUT with 200 units of collateral. -/
def Testnet.putWritten : State :=
  Testnet.next (exec Testnet.env) (Testnet.world ()) (Testnet.tx 10 100)
    (.writeOption 1 (2 * 10 ^ 18) 1000 100 5)

/-- The collateral has left the pool. -/
def Testnet.emptied : State :=
  { Testnet.putWritten with
    ledger :=
      { Testnet.putWritten.ledger with
        balanceOf := fun _ a => if a = Testnet.env.contractAddress then 0 else 2 ^ 200 } }

/-- The token has stopped moving. -/
def Testnet.frozen : State :=
  { Testnet.putWritten with
    ledger := { Testnet.putWritten.ledger with refuses := fun _ _ _ => true } }

/-- Rolled after expiry to the same collateral, an option needs no transfer at all; cancelling it
needs the collateral in the pool, and a token that lets it go. -/
theorem rollOption_without_cancel :
    CanPost Testnet.env (Testnet.tx 10 1000) Testnet.emptied 0 (2 * 10 ^ 18) ∧
    (∃ x, rollOption Testnet.env (Testnet.tx 10 1000) 0 (2 * 10 ^ 18) 2000 5 Testnet.emptied
      = .ok ([.u256 1], x)) ∧
    cancelThenWrite Testnet.env (Testnet.tx 10 1000) (Testnet.tx 10 1000) 0 (2 * 10 ^ 18) 2000 5
      Testnet.emptied = .error (.token "Transfer out failed" .insufficientBalance) ∧
    (∃ x, rollOption Testnet.env (Testnet.tx 10 1000) 0 (2 * 10 ^ 18) 2000 5 Testnet.frozen
      = .ok ([.u256 1], x)) ∧
    cancelThenWrite Testnet.env (Testnet.tx 10 1000) (Testnet.tx 10 1000) 0 (2 * 10 ^ 18) 2000 5
      Testnet.frozen = .error (.token "Transfer out failed" .refused) := by
  have hemptied : cancelOption Testnet.env (Testnet.tx 10 1000) 0 Testnet.emptied
      = .error (.token "Transfer out failed" .insufficientBalance) := rfl
  have hfrozen : cancelOption Testnet.env (Testnet.tx 10 1000) 0 Testnet.frozen
      = .error (.token "Transfer out failed" .refused) := rfl
  have hrolls : ∀ w ∈ [Testnet.emptied, Testnet.frozen], ∃ x, exec Testnet.env
      (Testnet.tx 10 1000) (.rollOption 0 (2 * 10 ^ 18) 2000 5) w = .ok ([.u256 1], x) := by
    simp only [List.forall_mem_cons]
    exact ⟨⟨_, Testnet.exec_next rfl⟩, ⟨_, Testnet.exec_next rfl⟩, by simp⟩
  refine ⟨⟨fun new hnew => ?_, fun new hnew => ?_, by decide, by decide⟩,
    hrolls _ (by simp), ?_, hrolls _ (by simp), ?_⟩
  · obtain ⟨-, rfl⟩ := strikeValue_eq_ok.mp hnew
    decide
  · obtain ⟨-, rfl⟩ := strikeValue_eq_ok.mp hnew
    decide
  · rw [cancelThenWrite, hemptied]
    rfl
  · rw [cancelThenWrite, hfrozen]
    rfl

/-- Rolled before expiry to a strike that needs 300 units. -/
theorem rollOption_eq_cancel_write_topUp : ∃ x y,
    rollOption Testnet.env (Testnet.tx 10 200) 0 (3 * 10 ^ 18) 2000 6 Testnet.putWritten
      = .ok ([.u256 1], x) ∧
    cancelThenWrite Testnet.env (Testnet.tx 10 200) (Testnet.tx 10 200) 0 (3 * 10 ^ 18) 2000 6
      Testnet.putWritten = .ok ([.u256 1], y) ∧
    SameOutcome (rolledEvent (Testnet.tx 10 200) 0 1 (3 * 10 ^ 18) 2000 6) x y := by
  have htx : (Testnet.tx 10 200).FromAccount Testnet.env := by decide
  have hsame : (Testnet.tx 10 200).sender = (Testnet.tx 10 200).sender := rfl
  have hblock : (Testnet.tx 10 200).block = (Testnet.tx 10 200).block := rfl
  have hboth := rollOption_eq_cancel_write htx hsame hblock 0 (3 * 10 ^ 18) 2000 6
    Testnet.putWritten
  have hwrite : exec Testnet.env (Testnet.tx 10 100) (.writeOption 1 (2 * 10 ^ 18) 1000 100 5)
      (Testnet.world ()) = .ok ([.u256 0], Testnet.putWritten) := Testnet.exec_next rfl
  have hstep : Step Testnet.env (Ledger.GrowsAt Testnet.env.contractAddress) (exec Testnet.env)
      (Testnet.world ()) _ Testnet.putWritten := .call (by decide) hwrite
  have hpost : CanPost Testnet.env (Testnet.tx 10 200) Testnet.putWritten 0 (3 * 10 ^ 18) := by
    refine ⟨fun new hnew => ?_, fun new hnew => ?_, by decide, by decide⟩
    · obtain ⟨-, rfl⟩ := strikeValue_eq_ok.mp hnew
      decide
    · obtain ⟨-, rfl⟩ := strikeValue_eq_ok.mp hnew
      decide
  have hroll : exec Testnet.env (Testnet.tx 10 200) (.rollOption 0 (3 * 10 ^ 18) 2000 6)
      Testnet.putWritten = .ok ([.u256 1], _) := Testnet.exec_next rfl
  obtain ⟨y, hy, hout⟩ := hboth.2 _ _ (Testnet.deployed ()) (Lts.Run.nil.cons hstep) hpost
    _ _ hroll
  exact ⟨_, y, hroll, hy, hout⟩

end

end OptionsPool

end Frogop
