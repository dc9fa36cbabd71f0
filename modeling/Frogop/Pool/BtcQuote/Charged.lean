import Frogop.Pool.BtcQuote.Price

/-!
# What reservations were charged

A reservation keeps the amount that `reserveOption` computed from the premium of the option and the
price that the bridge gave it, until it is cleared.
-/

namespace Frogop.BtcQuote

open Outcome World

/-- The reservation is that of a call of its buyer in the state `u`, at the price that the bridge
gave then. -/
structure ChargedBy (env : Env) (w u : State) (tx : Tx) (res : Reservation) : Prop where
  stored : res.optionId < w.pool.nextId
  buyer : res.buyer = tx.sender
  expiryBlock : res.expiryBlock = u64Add tx.block reservationExpiryBlocks
  charged : ∃ quote v, u.queryBtcPrice env tx w.pool.premiumToken = .ok (quote, v) ∧
    (w.option res.optionId).premium * quote / precision = res.btcAmount

/-- Every reservation that has a buyer was charged for in a call of the history. -/
def Charged (env : Env) (w₀ : State) (h : Lts.History State (Label Call)) (w : State) : Prop :=
  ∀ n, (w.own.reservations.get n).buyer ≠ Address.zero →
    ∃ u tx r, (u, .call tx (.reserveOption (w.own.reservations.get n).optionId) r)
        ∈ Lts.taken w₀ h ∧ ChargedBy env w u tx (w.own.reservations.get n)

/-- What is agreed in a reservation. -/
structure Reservation.SameDeal (res res' : Reservation) : Prop where
  optionId : res'.optionId = res.optionId
  buyer : res'.buyer = res.buyer
  expiryBlock : res'.expiryBlock = res.expiryBlock
  btcAmount : res'.btcAmount = res.btcAmount

section

variable {env : Env} {others : Ledger → Ledger → Prop} {tx tx' : Tx} {c : Call} {w₀ w w' u : State}
  {r : Response} {i n : ℕ} {h h' : Lts.History State (Label Call)} {res res' : Reservation}

/-- Terms and prices stay when the option is agreed on as before. -/
lemma ChargedBy.advance (hc : ChargedBy env w u tx res)
    (hadv : Advance OptionRecord.SameTerms (OptionsPool.Fresh tx' w.pool.nextId) w.pool w'.pool)
    (hdeal : res.SameDeal res') : ChargedBy env w' u tx res' := by
  obtain ⟨quote, v, hprice, hcharged⟩ := hc.charged
  refine ⟨?_, hdeal.buyer.trans hc.buyer, hdeal.expiryBlock.trans hc.expiryBlock, quote, v, ?_, ?_⟩
  · rw [hdeal.optionId]
    exact hc.stored.trans_le hadv.nextId_le
  · rw [hadv.premiumToken]
    exact hprice
  · have hpremium : (w'.option res.optionId).premium = (w.option res.optionId).premium :=
      (hadv.stored _ hc.stored).premium
    rw [hdeal.optionId, hpremium, hcharged, hdeal.btcAmount]

/-- A call that is none of `reserveOption` keeps what is agreed in a reservation, or clears it. -/
lemma exec_sameDeal (hreserve : ∀ i, c ≠ .reserveOption i)
    (hexec : exec env tx c w = .ok (r, w')) (n : ℕ) :
    (w'.own.reservations.get n).buyer = Address.zero ∨
      (w.own.reservations.get n).SameDeal (w'.own.reservations.get n) := by
  cases c with
  | reserveOption i => exact absurd rfl (hreserve i)
  | executeReservation k =>
    obtain ⟨-, -, -, -, -, hown, -⟩ := executeReservation_ok hexec
    right
    rw [hown]
    by_cases hk : n = k
    · subst hk
      rw [ReservationStorage.get_setStatus_self]
      exact ⟨rfl, rfl, rfl, rfl⟩
    · rw [ReservationStorage.get_setStatus_of_ne hk]
      exact ⟨rfl, rfl, rfl, rfl⟩
  | cancelReservation k =>
    obtain ⟨-, -, -, -, -, hown, -⟩ := cancelReservation_ok hexec
    rw [hown]
    by_cases hk : n = k
    · subst hk
      rw [ReservationStorage.get_clear_self]
      exact .inl rfl
    · rw [ReservationStorage.get_clear_of_ne hk]
      exact .inr ⟨rfl, rfl, rfl, rfl⟩
  | _ =>
    right
    rw [exec_ext (by simp) (by simp) (by simp) hexec]
    exact ⟨rfl, rfl, rfl, rfl⟩

/-- A new reservation is charged the product of the premium and the price. -/
lemma reserveOption_charged (hinv : TableInv w.pool)
    (hexec : reserveOption env tx i w = .ok (r, w')) :
    (w'.own.reservations.get w.own.nextReservationId).optionId = i ∧
      ChargedBy env w' w tx (w'.own.reservations.get w.own.nextReservationId) := by
  have hcall := hexec
  simp only [reserveOption, bind_eq_ok, Prod.exists] at hcall
  obtain ⟨-, -, -, -, -, -, -, -, -, -, quote, v, hprice, -⟩ := hcall
  have hcharges : Charges env tx i w quote _ := ⟨⟨v, hprice⟩, r, w', hexec, rfl⟩
  obtain ⟨-, hproduct, -⟩ := btcPremium_eq_ok.mp hcharges.btcPremium
  obtain ⟨amount, hash, hex, -, -, -, -, -, -, -, hpool, hown, -⟩ := reserveOption_ok hexec
  have hpremium : (w'.option i).premium = (w.option i).premium := by
    rw [World.option, hpool, OptionStorage.get_setStatus_self]
  rw [hown, ReservationStorage.get_set_self] at hproduct ⊢
  refine ⟨rfl, ?_, rfl, rfl, quote, v, ?_, ?_⟩
  · rw [hpool]
    exact (hinv i).mp hex
  · rw [hpool]
    exact hprice
  · rw [← hproduct]
    exact congrArg (· * quote / precision) hpremium

lemma Charged.call (hcharged : Charged env w₀ h w) (hinv : TwoPhase env h w)
    (hlast : Lts.last w₀ h = w) (hexec : exec env tx c w = .ok (r, w')) :
    Charged env w₀ ((.call tx c r, w') :: h) w' := by
  have hadv := (exec_advance hinv.table hinv.reserves hexec).imp fun _ _ ht => ht.sameTerms
  intro n hbuyer
  have hkept : (w.own.reservations.get n).SameDeal (w'.own.reservations.get n) →
      ∃ u tx₁ r₁, (u, .call tx₁ (.reserveOption (w'.own.reservations.get n).optionId) r₁)
          ∈ Lts.taken w₀ ((.call tx c r, w') :: h) ∧
        ChargedBy env w' u tx₁ (w'.own.reservations.get n) := by
    intro hdeal
    rw [hdeal.buyer] at hbuyer
    obtain ⟨u, tx₁, r₁, hmem, hby⟩ := hcharged n hbuyer
    refine ⟨u, tx₁, r₁, ?_, hby.advance hadv hdeal⟩
    rw [hdeal.optionId]
    exact List.mem_cons_of_mem _ hmem
  cases c with
  | reserveOption i =>
    by_cases hn : n = w.own.nextReservationId
    · subst hn
      obtain ⟨hid, hby⟩ := reserveOption_charged hinv.table hexec
      refine ⟨w, tx, r, ?_, hby⟩
      rw [hid, Lts.taken, hlast]
      exact List.mem_cons_self
    · obtain ⟨_, _, -, -, -, -, -, -, -, -, -, hown, -⟩ := reserveOption_ok hexec
      apply hkept
      rw [hown, ReservationStorage.get_set_of_ne hn]
      exact ⟨rfl, rfl, rfl, rfl⟩
  | _ =>
    rcases exec_sameDeal (by simp) hexec n with hclear | hdeal
    · exact absurd hclear hbuyer
    · exact hkept hdeal

/-- Every reservation was charged for. -/
lemma charged_of_run (hdep : Deployed w₀) (hrun : Lts.Run (Step env others (exec env)) w₀ h w) :
    Charged env w₀ h w := by
  induction hrun with
  | nil =>
    intro n hbuyer
    have hempty := hdep.own
    simp only [hempty] at hbuyer
    exact absurd rfl hbuyer
  | cons hrun hstep ih =>
    cases hstep with
    | call htx hexec => exact ih.call (twoPhase_of_run hdep hrun) hrun.last_eq hexec
    | reverted | elsewhere =>
      intro n hbuyer
      obtain ⟨u, tx, r, hmem, hby⟩ := ih n hbuyer
      exact ⟨u, tx, r, List.mem_cons_of_mem _ hmem, hby.stored, hby.buyer, hby.expiryBlock,
        hby.charged⟩

end

end Frogop.BtcQuote
