import Frogop.Pool.BtcQuote.Reservation

/-!
# An option while it is reserved

A reservation that is not closed keeps its terms, whatever else is called, and closing it is the
only way out of `RESERVED`.
-/

namespace Frogop.BtcQuote

open Outcome World

/-- The option `i` is reserved by the reservation `n`, whose terms are `res`. -/
structure Held (h : Lts.History State (Label Call)) (w : State) (n i : ℕ) (res : Reservation) :
    Prop where
  reserved : (w.option i).status = .RESERVED
  made : reservedBy h i = some n
  stored : w.own.reservations.get n = res

/-- What a call `c` of `tx` that goes through can lead to. -/
inductive HeldNext (tx : Tx) (c : Call) (w w' : State) (h' : Lts.History State (Label Call))
    (n i : ℕ) (res : Reservation) : Prop
  | kept (hheld : Held h' w' n i res) (hsame : w'.option i = w.option i)
  | executed (hc : c = .executeReservation n) (hblock : tx.block < res.expiryBlock)
      (hoption : w'.option i = { w.option i with buyer := res.buyer, status := .PURCHASED })
  | released (hc : c = .cancelReservation n) (hblock : res.expiryBlock ≤ tx.block)
      (hoption : w'.option i = { w.option i with status := .OPEN })

section

variable {env : Env} {tx : Tx} {c : Call} {w w' : State} {r : Response} {i m n : ℕ}
  {h : Lts.History State (Label Call)} {l : Label Call} {res : Reservation}

lemma Held.holds (hheld : Held h w n i res) (hinv : TwoPhase env h w) (hi : i < w.pool.nextId) :
    Holds env h w n i := by
  obtain ⟨m, hholds⟩ := hinv.held i hi hheld.reserved
  obtain rfl : n = m := Option.some.inj (hheld.made.symm.trans hholds.made)
  exact hholds

/-- Closing another reservation leaves the option held. -/
lemma Held.close (hheld : Held h w n i res) (hinv : TwoPhase env h w) (hi : i < w.pool.nextId)
    (hlive : Live w m) (hc : ClosedBy l w w' m) (hne : m ≠ n) :
    Held ((l, w') :: h) w' n i res ∧ w'.option i = w.option i := by
  have hholds := hheld.holds hinv hi
  obtain ⟨-, hother⟩ := hinv.live m hlive
  have hoption : i ≠ (w.own.reservations.get m).optionId := by
    intro heq
    rw [← heq] at hother
    exact hne (hother.unique hholds)
  have hsame := hc.others i hoption
  refine ⟨⟨?_, ?_, ?_⟩, hsame⟩
  · rw [hsame]
    exact hheld.reserved
  · rw [hc.reservedBy]
    exact hheld.made
  · rw [hc.kept n (Ne.symm hne)]
    exact hheld.stored

lemma Held.call (hheld : Held h w n i res) (hinv : TwoPhase env h w) (hi : i < w.pool.nextId)
    (hexec : exec env tx c w = .ok (r, w')) :
    HeldNext tx c w w' ((.call tx c r, w') :: h) n i res := by
  have hholds := hheld.holds hinv hi
  cases c with
  | reserveOption j =>
    obtain ⟨_, _, -, hopen, -, -, -, -, -, rfl, hpool, hext, -⟩ := reserveOption_ok hexec
    have hji : j ≠ i := by
      rintro rfl
      have hreserved := hheld.reserved
      rw [hopen] at hreserved
      cases hreserved
    have hsame : w'.option i = w.option i := by
      rw [World.option, hpool, OptionStorage.get_setStatus_of_ne hji.symm]
    refine .kept ⟨?_, ?_, ?_⟩ hsame
    · rw [hsame]
      exact hheld.reserved
    · exact (if_neg hji).trans hheld.made
    · rw [hext, ReservationStorage.get_set_of_ne hholds.issued.ne]
      exact hheld.stored
  | executeReservation m =>
    obtain ⟨hex, hpending, hblock, -, hpool, -⟩ := executeReservation_ok hexec
    by_cases hmn : m = n
    · subst hmn
      rw [hheld.stored] at hblock
      refine .executed rfl hblock ?_
      rw [World.option, hpool, get_setBuyer_setStatus, hholds.stored, Function.update_self,
        hheld.stored]
    · obtain ⟨hheld', hsame⟩ :=
        hheld.close hinv hi ⟨hex, hpending⟩ (executeReservation_closes hexec) hmn
      exact .kept hheld' hsame
  | cancelReservation m =>
    obtain ⟨hex, hpending, hblock, -, hpool, -⟩ := cancelReservation_ok hexec
    by_cases hmn : m = n
    · subst hmn
      rw [hheld.stored] at hblock
      refine .released rfl hblock ?_
      rw [World.option, hpool, hholds.stored, OptionStorage.get_setStatus_self]
    · obtain ⟨hheld', hsame⟩ :=
        hheld.close hinv hi ⟨hex, hpending⟩ (cancelReservation_closes hexec) hmn
      exact .kept hheld' hsame
  | _ =>
    have hq := exec_quiet hinv (by simp) (by simp) (by simp) hexec
    have hsame := hq.same i hi (.inl hheld.reserved)
    refine .kept ⟨?_, ?_, ?_⟩ hsame
    · rw [hsame]
      exact hheld.reserved
    · rw [hq.reservedBy]
      exact hheld.made
    · rw [hq.own]
      exact hheld.stored

end

end Frogop.BtcQuote
