import Frogop.Indexer.BtcQuote
import Frogop.Indexer.BtcUnderlying
import Frogop.Pool.BtcUnderlying.Escrow

/-!
# The fee ledger

The fee rows of a pool are compared with the fees among the payments of its calls. They agree
exactly when a `Number` holds the ids that fees were charged for. A type-2 CALL that is taken back
would leave a row with the escrow hash for a fee that nobody paid (`readFees_column_iff`), but slots
of one word keep every CALL out of that pool.
-/

namespace Frogop

open Indexer

namespace Indexer

variable {σ C : Type} {payments : Tx → C → World σ → List Payment} {w₀ : World σ}

/-- A `Number` holds the id. -/
def Fee.Exact (fee : Fee) : Prop := number fee.optionId = fee.optionId

instance (fee : Fee) : Decidable fee.Exact := inferInstanceAs (Decidable (_ = _))

lemma Fee.column_eq_iff {fee : Fee} : fee.column = fee ↔ fee.Exact := by
  cases fee
  simp [Fee.column, Fee.Exact]

lemma map_column_eq_iff {fees : List Fee} :
    fees.map Fee.column = fees ↔ ∀ fee ∈ fees, fee.Exact := by
  induction fees with
  | nil => simp
  | cons fee fees ih => simp [ih, Fee.column_eq_iff]

/-- When every fee is read as it is paid, so are those of a history. -/
lemma collect_feesOf (h : Lts.History (World σ) (Label C)) :
    Lts.collect (Label.ofCall fun tx c w => feesOf (payments tx c w)) w₀ h
      = feesOf (paymentsAlong payments w₀ h) := by
  induction h with
  | nil => rfl
  | cons p h ih =>
    obtain ⟨l, w⟩ := p
    rw [Lts.collect, ih, paymentsAlong, paymentsAlong, Lts.collect, feesOf_append]
    cases l <;> rfl

/-- A pool whose fees are read as they are paid has the rows of all that a `Number` holds. -/
lemma Reflected.feeRows_eq_iff {env : Env} {others : Ledger → Ledger → Prop}
    {exec : Tx → C → World σ → Except Revert (Reply σ)} {I : World σ → Prop}
    {tracking : Tracking} {pool : String} {w : World σ} {blocks : List Block} {db : Database}
    {h : Lts.History (World σ) (Label C)}
    (hreflected : Reflected env tracking pool exec I payments
      fun tx c w => feesOf (payments tx c w))
    (hI : ∀ h w, Lts.Run (Step env others exec) w₀ h w → I w) (hdep : Deployed w₀)
    (hrun : Lts.Run (Step env others exec) w₀ h w) (htracked : pool ∈ tracking.trackedPools)
    (hreport : poolEvents pool blocks = w.events.map (Event.reported pool))
    (hempty : db.feesOf pool = []) :
    ((db.batch (decodeBlocks tracking blocks)).feesOf pool).map FeeEventRow.fee
        = feesOf (paymentsAlong payments w₀ h) ↔
      ∀ fee ∈ feesOf (paymentsAlong payments w₀ h), fee.Exact := by
  rw [hreflected.feeRows hI hdep hrun htracked hreport hempty, collect_feesOf]
  exact map_column_eq_iff

end Indexer

namespace BtcUnderlying

/-- A CALL with an escrow is taken back. -/
def TakesBackCall (w : State) : Label Call → Prop
  | .call _ (.cancelOption i) _ =>
    (w.option i).optionType = .CALL ∧ w.own.escrowHash i ≠ Bytes32.zero
  | _ => False

lemma toNat_eq_zero {hash : Bytes32} (h : hash.toNat = 0) : hash = Bytes32.zero := by
  have hzero : Bytes32.zero.toNat = 0 := by decide
  refine Subtype.ext (BigEndian.ofBytes_inj (hash.property.trans Bytes32.zero.property.symm) ?_)
  exact h.trans hzero.symm

/-- One step reads its fees as they are paid, unless it takes back a CALL. -/
lemma readFees_of_step (env : Env) (w : State) (l : Label Call) :
    (¬ TakesBackCall w l ∧
      Label.ofCall (readFees env) w l
        = Label.ofCall (fun tx c w => feesOf (payments env tx c w)) w l) ∨
    TakesBackCall w l ∧ Label.ofCall (fun tx c w => feesOf (payments env tx c w)) w l = [] ∧
      0 < (Label.ofCall (readFees env) w l).length := by
  cases l with
  | call tx c r =>
    cases c with
    | cancelOption i =>
      simp only [Label.ofCall, readFees, payments, TakesBackCall]
      cases (w.option i).optionType with
      | CALL =>
        by_cases hhash : w.own.escrowHash i = Bytes32.zero
        · refine .inl ⟨fun h => h.2 hhash, ?_⟩
          rw [hhash]
          rfl
        · refine .inr ⟨⟨rfl, hhash⟩, rfl, ?_⟩
          have hne : (w.own.escrowHash i).toNat ≠ 0 := fun h => hhash (toNat_eq_zero h)
          rw [recorded, if_pos hne]
          exact Nat.zero_lt_one
      | PUT => exact .inl ⟨fun h => OptionType.noConfusion h.1, rfl⟩
    | _ => exact .inl ⟨id, rfl⟩
  | reverted | elsewhere => exact .inl ⟨id, rfl⟩

/-- Along a history the fees are read as they are paid, or there are more of them. -/
lemma readFees_along (env : Env) (w₀ : State) (h : Lts.History State (Label Call)) :
    (Lts.Along (fun w l _ => ¬ TakesBackCall w l) w₀ h ∧
      Lts.collect (Label.ofCall (readFees env)) w₀ h
        = feesOf (paymentsAlong (payments env) w₀ h)) ∨
    ¬ Lts.Along (fun w l _ => ¬ TakesBackCall w l) w₀ h ∧
      (feesOf (paymentsAlong (payments env) w₀ h)).length
        < (Lts.collect (Label.ofCall (readFees env)) w₀ h).length := by
  rw [← collect_feesOf]
  induction h with
  | nil => exact .inl ⟨trivial, rfl⟩
  | cons p h ih =>
    obtain ⟨l, w⟩ := p
    simp only [Lts.collect, Lts.Along, List.length_append]
    rcases ih with ⟨halong, heq⟩ | ⟨halong, hlt⟩
    · rcases readFees_of_step env (Lts.last w₀ h) l with
        ⟨hno, hread⟩ | ⟨hback, hpaid, hpos⟩
      · exact .inl ⟨⟨halong, hno⟩, by rw [heq, hread]⟩
      · refine .inr ⟨fun h => h.2 hback, ?_⟩
        rw [heq, hpaid, List.length_nil]
        omega
    · refine .inr ⟨fun h => halong h.1, ?_⟩
      rcases readFees_of_step env (Lts.last w₀ h) l with ⟨-, hread⟩ | ⟨-, hpaid, hpos⟩
      · rw [hread]
        omega
      · rw [hpaid, List.length_nil]
        omega

/-- The fee rows are the fees paid exactly when no CALL was taken back and all ids are exact. -/
lemma readFees_column_iff (env : Env) (w₀ : State) (h : Lts.History State (Label Call)) :
    (Lts.collect (Label.ofCall (readFees env)) w₀ h).map Fee.column
        = feesOf (paymentsAlong (payments env) w₀ h) ↔
      Lts.Along (fun w l _ => ¬ TakesBackCall w l) w₀ h ∧
        ∀ fee ∈ feesOf (paymentsAlong (payments env) w₀ h), fee.Exact := by
  rcases readFees_along env w₀ h with ⟨halong, heq⟩ | ⟨halong, hlt⟩
  · rw [heq, map_column_eq_iff]
    exact ⟨fun hexact => ⟨halong, hexact⟩, fun h => h.2⟩
  · refine ⟨fun heq => ?_, fun h => absurd h.1 halong⟩
    rw [← heq, List.length_map] at hlt
    exact absurd hlt (lt_irrefl _)

/-- With slots of one word there is no CALL to take back. -/
lemma takesBackCall_never {env : Env} {others : Ledger → Ledger → Prop} {w₀ w : State}
    {h : Lts.History State (Label Call)} (hslot : env.slot = storageWord) (hdep : Deployed w₀)
    (hrun : Lts.Run (Step env others (exec env)) w₀ h w) :
    Lts.Along (fun w l _ => ¬ TakesBackCall w l) w₀ h := by
  refine hrun.along fun h v l v' hrun hstep => ?_
  cases hstep with
  | reverted | elsewhere => exact id
  | @call tx c _ _ r htx hexec =>
    cases c with
    | cancelOption i =>
      rintro ⟨htype, -⟩
      obtain ⟨hex, -⟩ := cancelOption_update hexec
      have hput := put_of_run hslot hdep hrun i ((table_of_run hdep hrun i).mp hex)
      rw [hput] at htype
      cases htype
    | _ => exact id

end BtcUnderlying

variable {others : Ledger → Ledger → Prop} {tracking : Tracking} {pool : String}
  {blocks : List Block} {db : Database}

/-- The fee rows of the three pools are the fees that the calls of a run paid exactly when those are
charged for ids that a `Number` holds. -/
theorem feeRows_exact_iff (htracked : pool ∈ tracking.trackedPools)
    (hempty : db.feesOf pool = []) :
    (∀ env w₀ h w, Deployed w₀ → Lts.Run (Step env others (OptionsPool.exec env)) w₀ h w →
      poolEvents pool blocks = w.events.map (Event.reported pool) →
      Lts.Along (Label.Pays env (OptionsPool.payments env)) w₀ h ∧
        (((db.batch (decodeBlocks tracking blocks)).feesOf pool).map FeeEventRow.fee
            = feesOf (paymentsAlong (OptionsPool.payments env) w₀ h) ↔
          ∀ fee ∈ feesOf (paymentsAlong (OptionsPool.payments env) w₀ h), fee.Exact)) ∧
    (∀ env w₀ h w, BtcQuote.Deployed w₀ → Lts.Run (Step env others (BtcQuote.exec env)) w₀ h w →
      poolEvents pool blocks = w.events.map (Event.reported pool) →
      Lts.Along (Label.Pays env (BtcQuote.payments env)) w₀ h ∧
        (((db.batch (decodeBlocks tracking blocks)).feesOf pool).map FeeEventRow.fee
            = feesOf (paymentsAlong (BtcQuote.payments env) w₀ h) ↔
          ∀ fee ∈ feesOf (paymentsAlong (BtcQuote.payments env) w₀ h), fee.Exact)) ∧
    (∀ env w₀ h w, env.slot = storageWord → BtcUnderlying.Deployed w₀ →
      Lts.Run (Step env others (BtcUnderlying.exec env)) w₀ h w →
      poolEvents pool blocks = w.events.map (Event.reported pool) →
      Lts.Along (Label.Pays env (BtcUnderlying.payments env)) w₀ h ∧
        (((db.batch (decodeBlocks tracking blocks)).feesOf pool).map FeeEventRow.fee
            = feesOf (paymentsAlong (BtcUnderlying.payments env) w₀ h) ↔
          ∀ fee ∈ feesOf (paymentsAlong (BtcUnderlying.payments env) w₀ h), fee.Exact)) := by
  refine ⟨?_, ?_, ?_⟩
  · intro env w₀ h w hdep hrun hreport
    have hI : ∀ h w, Lts.Run (Step env others (OptionsPool.exec env)) w₀ h w → TableInv w.pool :=
      fun _ _ hrun => OptionsPool.table_of_run hdep hrun
    have hreflected := OptionsPool.reflected env tracking pool
    exact ⟨hreflected.pays hI hrun,
      hreflected.feeRows_eq_iff hI hdep hrun htracked hreport hempty⟩
  · intro env w₀ h w hdep hrun hreport
    have hI : ∀ h w, Lts.Run (Step env others (BtcQuote.exec env)) w₀ h w →
        ∃ h, BtcQuote.TwoPhase env h w :=
      fun h _ hrun => ⟨h, BtcQuote.twoPhase_of_run hdep hrun⟩
    have hreflected := BtcQuote.reflected env tracking pool
    exact ⟨hreflected.pays hI hrun,
      hreflected.feeRows_eq_iff hI hdep.base hrun htracked hreport hempty⟩
  · intro env w₀ h w hslot hdep hrun hreport
    have hI : ∀ h w, Lts.Run (Step env others (BtcUnderlying.exec env)) w₀ h w → TableInv w.pool :=
      fun _ _ hrun => BtcUnderlying.table_of_run hdep hrun
    have hreflected := BtcUnderlying.reflected env tracking pool
    refine ⟨hreflected.pays hI hrun, ?_⟩
    rw [hreflected.feeRows hI hdep.base hrun htracked hreport hempty,
      BtcUnderlying.readFees_column_iff env w₀ h]
    exact and_iff_right (BtcUnderlying.takesBackCall_never hslot hdep hrun)

/-- The type-2 pool of the test network with slots of one word. -/
def BtcUnderlying.Testnet.wordEnv : Env := { BtcUnderlying.Testnet.env with slot := storageWord }

set_option maxRecDepth 2000 in
/-- An option bought from a pool leaves the row of its fee. -/
theorem feeRows_exact_sold :
    ((Database.empty.batch (decodeBlocks Indexer.Testnet.tracking
        (Indexer.Testnet.blocks (OptionsPool.Testnet.sold (10 ^ 18) 4 100)))).feesOf
          Indexer.Testnet.pool).map FeeEventRow.fee = [⟨0, .BUY, 1⟩] ∧
    ((Database.empty.batch (decodeBlocks Indexer.Testnet.tracking
        (Indexer.Testnet.blocks (Frogop.Testnet.after
          (BtcUnderlying.exec BtcUnderlying.Testnet.wordEnv) BtcUnderlying.Testnet.world
            BtcUnderlying.Testnet.sellingPut)))).feesOf Indexer.Testnet.pool).map
              FeeEventRow.fee = [⟨0, .BUY, 1⟩] := by
  have hempty : Database.empty.feesOf Indexer.Testnet.pool = [] := rfl
  constructor
  · have hrun := OptionsPool.Testnet.run_sold
      (Ledger.GrowsAt OptionsPool.Testnet.env.contractAddress) (s := 10 ^ 18) (a := 4) (p := 100)
      rfl rfl
    obtain ⟨-, hiff⟩ := (feeRows_exact_iff Indexer.Testnet.pool_tracked hempty).1 _ _ _ _
      (Frogop.Testnet.deployed ()) hrun (Indexer.Testnet.poolEvents_blocks _)
    refine hiff.mpr fun fee hfee => ?_
    obtain rfl : fee = ⟨0, .BUY, 1⟩ := List.mem_singleton.mp hfee
    decide
  · have haccount : ∀ q ∈ BtcUnderlying.Testnet.sellingPut,
        q.1.FromAccount BtcUnderlying.Testnet.wordEnv := by
      intro q hq
      have hq := BtcUnderlying.Testnet.sellingPut_fromAccount q hq
      exact ⟨hq.ne_pool, hq.ne_zero⟩
    have hrun := Frogop.Testnet.run_after
      (Ledger.GrowsAt BtcUnderlying.Testnet.wordEnv.contractAddress) haccount
      (by rfl : (replay (BtcUnderlying.exec BtcUnderlying.Testnet.wordEnv)
        BtcUnderlying.Testnet.world _).isOk = true)
    obtain ⟨-, hiff⟩ := (feeRows_exact_iff Indexer.Testnet.pool_tracked hempty).2.2 _ _ _ _ rfl
      BtcUnderlying.Testnet.deployed hrun (Indexer.Testnet.poolEvents_blocks _)
    refine hiff.mpr fun fee hfee => ?_
    obtain rfl : fee = ⟨0, .BUY, 1⟩ := List.mem_singleton.mp hfee
    decide

/-! ### An id that a `Number` does not hold -/

namespace OptionsPool

/-- What is left of the tokens and allowances of the test network after `spent` units. -/
structure Testnet.Flush (spent : ℕ) (l : Ledger) : Prop where
  willing : ∀ t a b, l.refuses t a b = false
  balance : ∀ t a, a ≠ Testnet.env.contractAddress → 2 ^ 200 ≤ l.balanceOf t a + spent
  allowance : ∀ t a, 2 ^ 200 ≤ l.allowance t a Testnet.env.contractAddress + spent

lemma Testnet.Flush.transfer {spent amount : ℕ} {l l' : Ledger} {token spender src dst : Address}
    (hl : Testnet.Flush spent l) (h : l.transferFrom token spender src dst amount = .ok l') :
    Testnet.Flush (spent + amount) l' := by
  constructor
  · rw [(Ledger.transferFrom_ok h).2.2]
    exact hl.willing
  · intro t a ha
    have hbalance := hl.balance t a ha
    have hentries := Ledger.transferFrom_entries h t a
    have hle : Ledger.entry token src amount t a ≤ amount := by
      unfold Ledger.entry
      split_ifs <;> omega
    omega
  · intro t a
    have hallowance := hl.allowance t a
    have hleft := Ledger.allowance_le_transferFrom h t a Testnet.env.contractAddress
    omega

/-- The pool after account 10 has written `n` CALLs on one unit each. -/
structure Testnet.Written (n : ℕ) (w : State) : Prop where
  nextId : w.pool.nextId = n
  options : ∀ i < n, w.option i = newOption (Testnet.tx 10 100) .CALL 1 1000 1 100 i
  flush : Testnet.Flush n w.ledger

/-- One call for each. -/
lemma Testnet.exists_written (others : Ledger → Ledger → Prop) {n : ℕ} (hn : n ≤ 2 ^ 64) :
    ∃ h w, Lts.Run (Step Testnet.env others (exec Testnet.env)) (Testnet.world ()) h w ∧
      Testnet.Written n w := by
  induction n with
  | zero =>
    refine ⟨[], _, .nil, rfl, fun i hi => absurd hi (Nat.not_lt_zero i), fun _ _ _ => rfl, ?_, ?_⟩
    · intro t a ha
      rw [Nat.add_zero]
      exact (if_neg ha).ge
    · intro t a
      rw [Nat.add_zero]
      exact le_rfl
  | succ n ih =>
    obtain ⟨h, w, hrun, hw⟩ := ih (by omega)
    have hne : (Testnet.tx 10 100).sender ≠ Testnet.env.contractAddress := by decide
    have hbalance := hw.flush.balance (w.pool.collateralToken .CALL) _ hne
    have hallowance := hw.flush.allowance (w.pool.collateralToken .CALL) (Testnet.tx 10 100).sender
    have hpays : ∃ l, w.ledger.transferFrom (w.pool.collateralToken .CALL)
        Testnet.env.contractAddress (Testnet.tx 10 100).sender Testnet.env.contractAddress 1
          = .ok l :=
      Ledger.transferFrom_succeeds (hw.flush.willing _ _ _) (.inr (by omega)) (by omega)
    obtain ⟨l, hl⟩ := hpays
    have hids : w.pool.nextId + 1 < u256Size := by
      rw [hw.nextId, u256Size]
      omega
    have hwrites : ∃ w', writeOption Testnet.env (Testnet.tx 10 100) 0 1 1000 1 100 w
        = .ok ([.u256 w.pool.nextId], w') :=
      writeOption_succeeds rfl (by decide) (by decide) (by decide) rfl hl hids
    obtain ⟨w', hexec⟩ := hwrites
    obtain ⟨t, collateral, l', ht, -, -, -, hcoll, hl', -, -, rfl⟩ := writeOption_ok hexec
    obtain rfl : t = .CALL := (Option.some.inj ht).symm
    obtain rfl : collateral = 1 := (Except.ok.inj hcoll).symm
    have hstep : Step Testnet.env others (exec Testnet.env) w
        (.call (Testnet.tx 10 100) (.writeOption 0 1 1000 1 100) [.u256 w.pool.nextId]) _ :=
      .call (by decide) hexec
    refine ⟨_, _, hrun.cons hstep, ?_⟩
    refine ⟨congrArg (· + 1) hw.nextId, fun i hi => ?_, hw.flush.transfer hl'⟩
    rcases eq_or_ne i w.pool.nextId with rfl | hne
    · rw [World.option, OptionStorage.get_set_self]
      rfl
    · rw [World.option, OptionStorage.get_set_of_ne hne]
      exact hw.options i (by rw [hw.nextId] at hne; omega)

/-- The last of them bought by account 11. -/
lemma Testnet.exists_bought (others : Ledger → Ledger → Prop) {n : ℕ} (hn : n < 2 ^ 64) :
    ∃ h w, Lts.Run (Step Testnet.env others (exec Testnet.env)) (Testnet.world ()) h w ∧
      ⟨n, .BUY, 1⟩ ∈ feesOf (paymentsAlong (payments Testnet.env) (Testnet.world ()) h) := by
  obtain ⟨h, w, hrun, hw⟩ := Testnet.exists_written others hn
  have hoption := hw.options n n.lt_succ_self
  have hex : w.pool.options.existsAt n := by
    rw [table_of_run (Testnet.deployed ()) hrun, hw.nextId]
    exact n.lt_succ_self
  have hpremium : (w.option n).premium = 100 := by
    rw [hoption]
    rfl
  have hfee : ceilBps (w.option n).premium buyFeeBps = .ok 1 := by
    rw [hpremium]
    rfl
  have hne : (Testnet.tx 11 101).sender ≠ Testnet.env.contractAddress := by decide
  have hbalance := hw.flush.balance w.pool.premiumToken _ hne
  have hallowance := hw.flush.allowance w.pool.premiumToken (Testnet.tx 11 101).sender
  have hpays : ∃ l₁ l₂, w.ledger.transferFrom w.pool.premiumToken Testnet.env.contractAddress
        (Testnet.tx 11 101).sender (w.option n).writer ((w.option n).premium - 1) = .ok l₁ ∧
      l₁.transferFrom w.pool.premiumToken Testnet.env.contractAddress (Testnet.tx 11 101).sender
        w.pool.feeRecipient 1 = .ok l₂ :=
    Ledger.transferFrom_twice (hw.flush.willing _ _ _) (hw.flush.willing _ _ _)
      (.inr (by omega)) (by omega)
  obtain ⟨l₁, l₂, hl₁, hl₂⟩ := hpays
  have hopen : (w.option n).status = .OPEN ∧ (w.option n).expiryBlock = 1000 ∧
      (w.option n).writer = (Testnet.tx 10 100).sender := by
    rw [hoption]
    exact ⟨rfl, rfl, rfl⟩
  obtain ⟨hopen, hexpiry, hwriter⟩ := hopen
  obtain ⟨w', hbuy⟩ := buyOption_succeeds hex hopen (by rw [hexpiry]; decide)
    (by rw [hwriter]; decide) hfee (by omega) hl₁ hl₂
  have hstep : Step Testnet.env others (exec Testnet.env) w
      (.call (Testnet.tx 11 101) (.buyOption n) [.boolean true]) w' := .call (by decide) hbuy
  refine ⟨_, w', hrun.cons hstep, ?_⟩
  rw [paymentsAlong, Lts.collect, hrun.last_eq, feesOf_append]
  apply List.mem_append_right
  show _ ∈ feesOf (buyPayments (Testnet.tx 11 101) w.pool (w.option n))
  rw [feesOf_buyPayments hfee, hoption]
  exact List.mem_singleton.mpr rfl

/-- The fee for the option `2 ^ 53 + 1` is not recorded for it. -/
theorem feeRows_rounded :
    ∃ h w, Lts.Run (Step Testnet.env (Ledger.GrowsAt Testnet.env.contractAddress)
        (exec Testnet.env)) (Testnet.world ()) h w ∧
      poolEvents Indexer.Testnet.pool (Indexer.Testnet.blocks w)
        = w.events.map (Event.reported Indexer.Testnet.pool) ∧
      ((Database.empty.batch (decodeBlocks Indexer.Testnet.tracking
          (Indexer.Testnet.blocks w))).feesOf Indexer.Testnet.pool).map FeeEventRow.fee
        ≠ feesOf (paymentsAlong (payments Testnet.env) (Testnet.world ()) h) := by
  obtain ⟨h, w, hrun, hmem⟩ := Testnet.exists_bought
    (Ledger.GrowsAt Testnet.env.contractAddress) (n := 2 ^ 53 + 1) (by decide)
  have hempty : Database.empty.feesOf Indexer.Testnet.pool = [] := rfl
  have hreport := Indexer.Testnet.poolEvents_blocks w
  have hreflected := reflected Testnet.env Indexer.Testnet.tracking Indexer.Testnet.pool
  have hiff := hreflected.feeRows_eq_iff (fun _ _ hrun => table_of_run (Testnet.deployed ()) hrun)
    (Testnet.deployed ()) hrun Indexer.Testnet.pool_tracked hreport hempty
  refine ⟨h, w, hrun, hreport, fun heq => ?_⟩
  exact absurd (hiff.mp heq _ hmem) (by decide)

end OptionsPool

end Frogop
