import Frogop.Pool.BtcQuote.Reservation
import Frogop.Pool.BtcUnderlying.Escrow
import Frogop.Pool.OptionsPool.Roll

/-!
# Options worth less than one unit

Strike values are rounded down. The pools check that strike and amount are positive, and let options
through whose strike value is zero: PUTs with no collateral, and CALLs that are exercised for
nothing. A pool stores only options with something behind them in the runs whose creating calls all
ask for a product of at least `precision` (`backed_iff`).
-/

namespace Frogop

open Outcome

/-- Something is locked for the option, and something is paid when it is exercised. -/
def OptionRecord.Backed (locked : Except Revert ℕ) (o : OptionRecord) : Prop :=
  (∃ collateral, locked = .ok collateral ∧ 0 < collateral) ∧
    0 < o.strikePrice * o.underlyingAmount / precision

/-- Every call that goes through satisfies `P`. -/
def Accepted {σ C : Type} (P : C → World σ → Prop) : World σ → Label C → World σ → Prop
  | w, .call _ c _, _ => P c w
  | _, _, _ => True

section

variable {o o' : OptionRecord}

lemma precision_le_iff {s a : ℕ} : 0 < s * a / precision ↔ precision ≤ s * a := by
  rw [Nat.div_pos_iff]
  exact and_iff_right (by decide)

/-- With an amount and a collateral only the product of strike and amount matters. -/
lemma OptionRecord.backed_iff (ha : 0 < o.underlyingAmount)
    (hcoll : ∃ collateral, o.collateral = .ok collateral) :
    o.Backed o.collateral ↔ precision ≤ o.strikePrice * o.underlyingAmount := by
  obtain ⟨collateral, hcoll⟩ := hcoll
  rw [Backed, hcoll, precision_le_iff]
  constructor
  · exact fun h => h.2
  · intro hvalue
    refine ⟨⟨collateral, rfl, ?_⟩, hvalue⟩
    rw [OptionRecord.collateral_eq hcoll, lockedAmount]
    cases o.optionType with
    | CALL => exact ha
    | PUT => exact precision_le_iff.mpr hvalue

lemma OptionRecord.SameTerms.backed_iff (h : o.SameTerms o') :
    o'.Backed o'.collateral ↔ o.Backed o.collateral := by
  rw [Backed, h.collateral, h.strikePrice, h.underlyingAmount, Backed]

end

/-! ### Runs of any pool -/

section

variable {σ C : Type} {env : Env} {others : Ledger → Ledger → Prop}
  {exec : Tx → C → World σ → Except Revert (Reply σ)} {w₀ w : World σ}
  {h : Lts.History (World σ) (Label C)} {P : OptionRecord → Prop} {Worth : C → World σ → Prop}

/-- The options a call stored all have `P`. -/
def Stores (P : OptionRecord → Prop) (p p' : PoolStorage) : Prop :=
  ∀ i, p.nextId ≤ i → i < p'.nextId → P (p'.options.get i)

/-- A call that stores nothing. -/
lemma stores_of_same {p p' : PoolStorage} (hnext : p'.nextId = p.nextId) : Stores P p p' :=
  fun i hge hlt => by omega

/-- A call that stores one option. -/
lemma stores_iff {p p' : PoolStorage} (hnext : p'.nextId = p.nextId + 1) :
    Stores P p p' ↔ P (p'.options.get p.nextId) := by
  constructor
  · exact fun hall => hall p.nextId le_rfl (by omega)
  · intro hone i hge hlt
    obtain rfl : i = p.nextId := by omega
    exact hone

/-- A pool that never rewrites the terms of an option stores only options with `P` in the runs whose
calls are all worth it. -/
lemma forall_options_iff (hdep : Deployed w₀) (hrun : Lts.Run (Step env others exec) w₀ h w)
    (hP : ∀ o o', o.SameTerms o' → (P o' ↔ P o))
    (hcall : ∀ h v tx c r v', Lts.Run (Step env others exec) w₀ h v → exec tx c v = .ok (r, v') →
      v.pool.nextId ≤ v'.pool.nextId ∧
        (∀ i < v.pool.nextId, (v.option i).SameTerms (v'.option i)) ∧
        (Stores P v.pool v'.pool ↔ Worth c v)) :
    (∀ i < w.pool.nextId, P (w.option i)) ↔ Lts.Along (Accepted Worth) w₀ h := by
  refine hrun.induct
    (I := fun h w => (∀ i < w.pool.nextId, P (w.option i)) ↔ Lts.Along (Accepted Worth) w₀ h) ?_ ?_
  · refine iff_of_true (fun i hi => ?_) trivial
    rw [hdep.spec.1] at hi
    exact absurd hi (Nat.not_lt_zero i)
  · intro h v l v' hrun hv hstep
    change _ ↔ Lts.Along _ w₀ h ∧ Accepted Worth (Lts.last w₀ h) l v'
    rw [hrun.last_eq, ← hv]
    cases hstep with
    | call _ hexec =>
      obtain ⟨hnext, hterms, hnew⟩ := hcall _ _ _ _ _ _ hrun hexec
      rw [Accepted, ← hnew]
      constructor
      · intro hall
        refine ⟨fun i hi => ?_, fun i _ hi => hall i hi⟩
        exact (hP _ _ (hterms i hi)).mp (hall i (hi.trans_le hnext))
      · rintro ⟨hold, hcreated⟩ i hi
        rcases lt_or_ge i v.pool.nextId with hlt | hge
        · exact (hP _ _ (hterms i hlt)).mpr (hold i hlt)
        · exact hcreated i hge hi
    | reverted | elsewhere => exact (and_iff_left trivial).symm

end

/-! ### The pools -/

section

variable {σ : Type} {env : Env} {others : Ledger → Ledger → Prop} {tx : Tx} {r : Response}

/-- The collateral of a stored option, and its strike value, are positive. -/
abbrev OptionRecord.IsBacked (o : OptionRecord) : Prop := o.Backed o.collateral

/-- `writeOption` asks for collateral and takes an amount; only the product is left to check. -/
lemma OptionsPool.writeOption_backed {t s e a p : ℕ} {w w' : World σ}
    (h : OptionsPool.writeOption env tx t s e a p w = .ok (r, w')) :
    Stores OptionRecord.IsBacked w.pool w'.pool ↔ precision ≤ s * a := by
  obtain ⟨ty, collateral, l, -, ⟨-, ha, -⟩, -, -, hcoll, -, -, -, rfl⟩ :=
    OptionsPool.writeOption_ok h
  rw [stores_iff rfl, OptionStorage.get_set_self]
  exact OptionRecord.backed_iff ha ⟨collateral, hcoll⟩

namespace OptionsPool

/-- What a creating call asks for is worth at least one unit. -/
def Call.Worth : Call → State → Prop
  | .writeOption _ s _ a _, _ => precision ≤ s * a
  | .rollOption i s _ _, w => precision ≤ s * (w.option i).underlyingAmount
  | _, _ => True

lemma exec_backed {c : Call} {w w' : State} (hinv : TableInv w.pool)
    (hpos : ∀ i < w.pool.nextId, 0 < (w.option i).underlyingAmount)
    (h : exec env tx c w = .ok (r, w')) :
    Stores OptionRecord.IsBacked w.pool w'.pool ↔ c.Worth w := by
  cases c with
  | writeOption t s e a p => exact writeOption_backed h
  | rollOption i s e p =>
    obtain ⟨_, new, _, _, _, hex, -, -, -, -, -, -, hnew, -, -, -, -, -, -, rfl⟩ := rollOption_ok h
    rw [stores_iff rfl, OptionStorage.get_set_self]
    exact OptionRecord.backed_iff (hpos i ((hinv i).mp hex)) ⟨new, hnew⟩
  | _ => exact iff_of_true (stores_of_same (exec_nextId hinv id h)) trivial

lemma isBacked_of_run {w₀ w : State} {h : Lts.History State (Label Call)} (hdep : Deployed w₀)
    (hrun : Lts.Run (Step env others (exec env)) w₀ h w) :
    (∀ i < w.pool.nextId, (w.option i).IsBacked) ↔ Lts.Along (Accepted Call.Worth) w₀ h := by
  refine forall_options_iff (P := OptionRecord.IsBacked) hdep hrun
    (fun _ _ hterms => hterms.backed_iff) ?_
  intro h v tx c r v' hrun hexec
  have hinv := table_of_run hdep hrun
  have hadv := exec_advance hinv hexec
  exact ⟨hadv.nextId_le, fun i hi => (hadv.stored i hi).sameTerms,
    exec_backed hinv (amount_pos_of_run hdep hrun) hexec⟩

end OptionsPool

namespace BtcQuote

def Call.Worth : Call → State → Prop
  | .writeOption _ s _ a _, _ => precision ≤ s * a
  | _, _ => True

lemma exec_nextId {c : Call} {w w' : State} (hc : ∀ t s e a p, c ≠ .writeOption t s e a p)
    (h : exec env tx c w = .ok (r, w')) : w'.pool.nextId = w.pool.nextId := by
  cases c with
  | writeOption t s e a p => exact absurd rfl (hc t s e a p)
  | reserveOption i =>
    obtain ⟨_, _, -, -, -, -, -, -, -, -, hpool, -⟩ := reserveOption_ok h
    rw [hpool]
  | executeReservation n =>
    obtain ⟨-, -, -, -, hpool, -⟩ := executeReservation_ok h
    rw [hpool]
  | cancelReservation n =>
    obtain ⟨-, -, -, -, hpool, -⟩ := cancelReservation_ok h
    rw [hpool]
  | exercise i =>
    obtain ⟨_, _, _, _, _, -, -, -, -, -, -, -, -, -, -, hpool, -⟩ := exercise_ok h
    rw [hpool]
  | cancelOption i =>
    obtain ⟨-, -, -, hpool⟩ := OptionsPool.cancelOption_update h
    rw [hpool]
  | settle i =>
    obtain ⟨-, -, -, hpool⟩ := OptionsPool.settle_update h
    rw [hpool]
  | getReservation n => rw [getReservation_ok h]
  | getOption i => rw [getOption_ok h]
  | updateFeeRecipient newRecipient =>
    obtain ⟨-, -, -, rfl⟩ := updateFeeRecipient_ok h
    rfl
  | registerBtcPubkey data =>
    obtain ⟨_, -, -, -, rfl⟩ := registerBtcPubkey_ok h
    rfl

lemma exec_backed {c : Call} {w w' : State} (h : exec env tx c w = .ok (r, w')) :
    Stores OptionRecord.IsBacked w.pool w'.pool ↔ c.Worth w := by
  cases c with
  | writeOption t s e a p => exact OptionsPool.writeOption_backed h
  | _ => exact iff_of_true (stores_of_same (exec_nextId (by simp) h)) trivial

lemma isBacked_of_run {w₀ w : State} {h : Lts.History State (Label Call)} (hdep : Deployed w₀)
    (hrun : Lts.Run (Step env others (exec env)) w₀ h w) :
    (∀ i < w.pool.nextId, (w.option i).IsBacked) ↔ Lts.Along (Accepted Call.Worth) w₀ h := by
  refine forall_options_iff (P := OptionRecord.IsBacked) hdep.base hrun
    (fun _ _ hterms => hterms.backed_iff) ?_
  intro h v tx c r v' hrun hexec
  have hinv := twoPhase_of_run hdep hrun
  have hadv := exec_advance hinv.table hinv.reserves hexec
  exact ⟨hadv.nextId_le, fun i hi => (hadv.stored i hi).sameTerms, exec_backed hexec⟩

end BtcQuote

namespace BtcUnderlying

def Call.Worth : Call → State → Prop
  | .writeOptionBtc _ s _ a _, _ => precision ≤ s * a
  | _, _ => True

/-- What is locked for a stored option: satoshis in its escrow, or tokens. -/
def locked (w : State) (i : ℕ) : Except Revert ℕ :=
  match (w.option i).optionType with
  | .CALL => .ok (w.own.btcCollateral i)
  | .PUT => strikeValue (w.option i).strikePrice (w.option i).underlyingAmount

lemma writeOptionBtc_backed {t s e a p : ℕ} {w w' : State}
    (h : writeOptionBtc env tx t s e a p w = .ok (r, w')) :
    Stores OptionRecord.IsBacked w.pool w'.pool ↔ precision ≤ s * a := by
  obtain ⟨⟨-, ha, -⟩, -, -, hcall | hput⟩ := writeOptionBtc_ok h
  · obtain ⟨_, _, -, -, -, -, -, hpool, -⟩ := writeCall_ok hcall
    rw [hpool, stores_iff rfl, OptionStorage.get_set_self]
    exact OptionRecord.backed_iff ha ⟨a, rfl⟩
  · obtain ⟨collateral, hcoll, -, -, hpool, -⟩ := writePut_ok hput
    rw [hpool, stores_iff rfl, OptionStorage.get_set_self]
    exact OptionRecord.backed_iff ha ⟨collateral, hcoll⟩

lemma exec_frame_of_ne {c : Call} {w w' : State} (hc : ∀ t s e a p, c ≠ .writeOptionBtc t s e a p)
    (h : exec env tx c w = .ok (r, w')) : w'.pool.nextId = w.pool.nextId ∧ w'.own = w.own := by
  cases c with
  | registerBtcPubkey data =>
    obtain ⟨_, -, -, -, rfl⟩ := registerBtcPubkey_ok h
    exact ⟨rfl, rfl⟩
  | _ =>
    obtain ⟨hnext, -, hann, -⟩ := exec_frame hc (by simp) h
    exact ⟨hnext, hann.own⟩

lemma exec_backed {c : Call} {w w' : State} (h : exec env tx c w = .ok (r, w')) :
    Stores OptionRecord.IsBacked w.pool w'.pool ↔ c.Worth w := by
  cases c with
  | writeOptionBtc t s e a p => exact writeOptionBtc_backed h
  | _ => exact iff_of_true (stores_of_same (exec_frame_of_ne (by simp) h).1) trivial

lemma isBacked_of_run {w₀ w : State} {h : Lts.History State (Label Call)} (hdep : Deployed w₀)
    (hrun : Lts.Run (Step env others (exec env)) w₀ h w) :
    (∀ i < w.pool.nextId, (w.option i).IsBacked) ↔ Lts.Along (Accepted Call.Worth) w₀ h := by
  refine forall_options_iff (P := OptionRecord.IsBacked) hdep.base hrun
    (fun _ _ hterms => hterms.backed_iff) ?_
  intro h v tx c r v' hrun hexec
  have hadv := exec_advance (lifeInv_of_run hdep hrun).table hexec
  exact ⟨hadv.nextId_le, fun i hi => (hadv.stored i hi).sameTerms, exec_backed hexec⟩

lemma locked_congr {w w' : State} {i : ℕ} (hterms : (w.option i).SameTerms (w'.option i))
    (hcoll : w'.own.btcCollateral i = w.own.btcCollateral i)
    (h : locked w i = (w.option i).collateral) : locked w' i = (w'.option i).collateral := by
  rw [hterms.collateral, ← h, locked, locked, hterms.optionType, hterms.strikePrice,
    hterms.underlyingAmount, hcoll]

lemma exec_locked {c : Call} {w w' : State} (hinv : TableInv w.pool)
    (hlocked : ∀ i < w.pool.nextId, locked w i = (w.option i).collateral)
    (h : exec env tx c w = .ok (r, w')) :
    ∀ i < w'.pool.nextId, locked w' i = (w'.option i).collateral := by
  have hterms : ∀ i < w.pool.nextId, (w.option i).SameTerms (w'.option i) :=
    fun i hi => ((exec_advance hinv h).stored i hi).sameTerms
  cases c with
  | writeOptionBtc t s e a p =>
    intro i hi
    obtain ⟨-, -, -, hcall | hput⟩ := writeOptionBtc_ok h
    · obtain ⟨_, _, -, -, -, -, -, hpool, hown, -⟩ := writeCall_ok hcall
      rw [hpool] at hi
      rcases Nat.lt_succ_iff_lt_or_eq.mp hi with hlt | rfl
      · refine locked_congr (hterms i hlt) ?_ (hlocked i hlt)
        rw [hown]
        exact Function.update_of_ne hlt.ne _ _
      · rw [locked, World.option, hpool, OptionStorage.get_set_self, hown]
        exact congrArg Except.ok (Function.update_self _ _ _)
    · obtain ⟨_, -, -, -, hpool, hown, -⟩ := writePut_ok hput
      rw [hpool] at hi
      rcases Nat.lt_succ_iff_lt_or_eq.mp hi with hlt | rfl
      · exact locked_congr (hterms i hlt) (by rw [hown]) (hlocked i hlt)
      · rw [locked, World.option, hpool, OptionStorage.get_set_self]
        rfl
  | _ =>
    intro i hi
    obtain ⟨hnext, hown⟩ := exec_frame_of_ne (by simp) h
    rw [hnext] at hi
    exact locked_congr (hterms i hi) (by rw [hown]) (hlocked i hi)

/-- What is locked for an option is its collateral. -/
lemma locked_of_run {w₀ w : State} {h : Lts.History State (Label Call)} (hdep : Deployed w₀)
    (hrun : Lts.Run (Step env others (exec env)) w₀ h w) :
    ∀ i < w.pool.nextId, locked w i = (w.option i).collateral := by
  refine hrun.induct
    (I := fun _ w => ∀ i < w.pool.nextId, locked w i = (w.option i).collateral) ?_ ?_
  · intro i hi
    rw [hdep.base.spec.1] at hi
    exact absurd hi (Nat.not_lt_zero i)
  · intro h v l v' hrun hv hstep
    cases hstep with
    | call _ hexec => exact exec_locked (lifeInv_of_run hdep hrun).table hv hexec
    | reverted | elsewhere => exact hv

end BtcUnderlying

end

/-- In each pool the stored options all have something behind them exactly in the runs in which
every creating call that went through asked for a product of at least `precision`. -/
theorem backed_iff_worth (env : Env) (others : Ledger → Ledger → Prop) :
    (∀ (w₀ w : OptionsPool.State)
      (h : Lts.History OptionsPool.State (Label OptionsPool.Call)), Deployed w₀ →
      Lts.Run (Step env others (OptionsPool.exec env)) w₀ h w →
      ((∀ i < w.pool.nextId, (w.option i).Backed (w.option i).collateral) ↔
        Lts.Along (Accepted OptionsPool.Call.Worth) w₀ h)) ∧
    (∀ (w₀ w : BtcQuote.State)
      (h : Lts.History BtcQuote.State (Label BtcQuote.Call)), BtcQuote.Deployed w₀ →
      Lts.Run (Step env others (BtcQuote.exec env)) w₀ h w →
      ((∀ i < w.pool.nextId, (w.option i).Backed (w.option i).collateral) ↔
        Lts.Along (Accepted BtcQuote.Call.Worth) w₀ h)) ∧
    ∀ (w₀ w : BtcUnderlying.State)
      (h : Lts.History BtcUnderlying.State (Label BtcUnderlying.Call)), BtcUnderlying.Deployed w₀ →
      Lts.Run (Step env others (BtcUnderlying.exec env)) w₀ h w →
      ((∀ i < w.pool.nextId, (w.option i).Backed (BtcUnderlying.locked w i)) ↔
        Lts.Along (Accepted BtcUnderlying.Call.Worth) w₀ h) := by
  refine ⟨?_, ?_, ?_⟩
  · intro w₀ w h hdep hrun
    exact OptionsPool.isBacked_of_run hdep hrun
  · intro w₀ w h hdep hrun
    exact BtcQuote.isBacked_of_run hdep hrun
  · intro w₀ w h hdep hrun
    rw [← BtcUnderlying.isBacked_of_run hdep hrun]
    refine forall₂_congr fun i hi => ?_
    rw [BtcUnderlying.locked_of_run hdep hrun i hi]

namespace Testnet

/-- Account 10 writes a PUT on one unit at a strike of one, account 11 buys it for 100. -/
def dusting : List (Tx × OptionsPool.Call) :=
  [(tx 10 100, .writeOption 1 1 1000 1 100), (tx 11 101, .buyOption 0)]

def dusted : OptionsPool.State :=
  after (OptionsPool.exec OptionsPool.Testnet.env) (world ()) dusting

end Testnet

/-- The PUT is sold with no collateral, for a strike value of zero. -/
theorem dusted_not_backed :
    (∃ h, Lts.Run (Step OptionsPool.Testnet.env
      (Ledger.FixedAt OptionsPool.Testnet.env.contractAddress)
      (OptionsPool.exec OptionsPool.Testnet.env)) (Testnet.world ()) h Testnet.dusted) ∧
    (Testnet.dusted.option 0).status = .PURCHASED ∧ (Testnet.dusted.option 0).optionType = .PUT ∧
      (Testnet.dusted.option 0).collateral = .ok 0 ∧
      strikeValue (Testnet.dusted.option 0).strikePrice (Testnet.dusted.option 0).underlyingAmount
        = .ok 0 ∧
      ¬ (Testnet.dusted.option 0).Backed (Testnet.dusted.option 0).collateral := by
  refine ⟨⟨_, Testnet.run_after _ ?_ rfl⟩, rfl, rfl, rfl, rfl, ?_⟩
  · simp only [Testnet.dusting, List.forall_mem_cons, List.not_mem_nil, false_imp_iff,
      implies_true, and_true]
    decide
  · rintro ⟨-, hvalue⟩
    exact absurd hvalue (by decide)

/-- Account 10 writes a CALL on four units at a strike of one token, and account 11 buys it. -/
theorem backed_iff_worth_sold :
    ((OptionsPool.Testnet.sold (10 ^ 18) 4 100).option 0).Backed
      ((OptionsPool.Testnet.sold (10 ^ 18) 4 100).option 0).collateral := by
  have hrun := OptionsPool.Testnet.run_sold
    (Ledger.FixedAt OptionsPool.Testnet.env.contractAddress) (s := 10 ^ 18) (a := 4) (p := 100)
    rfl rfl
  refine ((backed_iff_worth _ _).1 _ _ _ (Testnet.deployed ()) hrun).mpr ?_ 0 (by decide)
  have hworth : precision ≤ 10 ^ 18 * 4 := by decide
  exact ⟨⟨trivial, hworth⟩, trivial⟩

end Frogop
