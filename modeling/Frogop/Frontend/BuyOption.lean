import Frogop.Indexer.BtcQuote
import Frogop.Pool.BtcQuote.Held

/-!
# Buying with bitcoin

`BuyOptionModal` buys an option of a type-1 pool in two transactions. It reads the terms of the
reservation from the receipt of the first, and attaches an output that pays them to the second. In
between everybody else may call the pool.
-/

namespace Frogop.Frontend

open Indexer

/-! ### The receipt of `reserveOption` -/

structure ReceiptEvent where
  type : String
  data : String
  deriving DecidableEq, Repr

/-- `receipt.events`: the events of each contract; `none` stands for what is no array. -/
abbrev ReceiptEvents := List (String × Option (List ReceiptEvent))

/-- The receipt of a transaction in which the pool emitted `emitted`; the contracts listed before it
have reserved nothing. -/
def Reports (pool : String) (emitted : List Frogop.Event) (events : ReceiptEvents) : Prop :=
  ∃ before after, events = before
      ++ (pool, some (emitted.map fun e => ⟨e.name.type, (e.reported pool).data⟩)) :: after ∧
    ∀ contract ∈ before, ∀ ev ∈ contract.2.getD [], ev.type ≠ "OptionReserved"

end Frogop.Frontend

namespace Frogop.BtcQuote

open Outcome World Frontend

section

variable {env : Env} {others : Ledger → Ledger → Prop} {tx : Tx} {c : Call} {w₀ w w' : State}
  {r : Response} {i n : ℕ} {h h' : Lts.History State (Label Call)} {l : Label Call}
  {res : Reservation}

/-! ### What a reservation leaves behind -/

/-- The option is still held by the reservation, or it was sold to the buyer of the reservation. -/
inductive Awaits (h : Lts.History State (Label Call)) (w : State) (n i : ℕ) (res : Reservation) :
    Prop
  | held (hheld : Held h w n i res)
  | sold (hclosed : (w.option i).status ≠ .OPEN ∧ (w.option i).status ≠ .RESERVED)
      (hbuyer : (w.option i).buyer = res.buyer) (hbought : (w.option i).status ≠ .CANCELLED)

lemma Transition.sold {o o' : OptionRecord} (ht : Transition w tx c o o')
    (hclosed : o.status ≠ .OPEN ∧ o.status ≠ .RESERVED) (hbought : o.status ≠ .CANCELLED) :
    o'.buyer = o.buyer ∧ o'.status ≠ .CANCELLED := by
  cases ht with
  | stays => exact ⟨rfl, hbought⟩
  | reserved _ hopen | cancelled _ hopen => exact absurd hopen hclosed.1
  | executed _ _ _ _ hreserved | released _ _ _ _ hreserved => exact absurd hreserved hclosed.2
  | exercised | settled => exact ⟨rfl, by simp⟩

/-- A call made before the reservation expires. -/
lemma Awaits.call (hinv : TwoPhase env h w) (hi : i < w.pool.nextId) (hw : Awaits h w n i res)
    (hexec : exec env tx c w = .ok (r, w')) (hblock : tx.block < res.expiryBlock) :
    Awaits ((.call tx c r, w') :: h) w' n i res := by
  cases hw with
  | sold hclosed hbuyer hbought =>
    have ht := (exec_advance hinv.table hinv.reserves hexec).stored i hi
    obtain ⟨hsame, hbought'⟩ := ht.sold hclosed hbought
    exact .sold (ht.closed hclosed) (hsame.trans hbuyer) hbought'
  | held hheld =>
    cases hheld.call hinv hi hexec with
    | kept hheld' => exact .held hheld'
    | executed _ _ hoption =>
      apply Awaits.sold
      · simp [hoption]
      · rw [hoption]
      · simp [hoption]
    | released _ hexpired => exact absurd hblock (not_lt.mpr hexpired)

lemma Awaits.step (hinv : TwoPhase env h w) (hi : i < w.pool.nextId) (hw : Awaits h w n i res)
    (hstep : Step env others (exec env) w l w') (hbefore : l.Before res.expiryBlock) :
    Awaits ((l, w') :: h) w' n i res := by
  cases hstep with
  | call htx hexec => exact hw.call hinv hi hexec hbefore
  | reverted | elsewhere =>
    cases hw with
    | held hheld => exact .held ⟨hheld.reserved, hheld.made, hheld.stored⟩
    | sold hclosed hbuyer hbought => exact .sold hclosed hbuyer hbought

lemma Awaits.run (hinv : TwoPhase env h w) (hi : i < w.pool.nextId) (hw : Awaits h w n i res)
    (hrun : Lts.Run (Step env others (exec env)) w h' w')
    (hbefore : ∀ p ∈ h', p.1.Before res.expiryBlock) :
    TwoPhase env (h' ++ h) w' ∧ i < w'.pool.nextId ∧ Awaits (h' ++ h) w' n i res := by
  induction hrun with
  | nil => exact ⟨hinv, hi, hw⟩
  | cons hrun hlast ih =>
    obtain ⟨hinv', hi', hw'⟩ := ih fun p hp => hbefore p (List.mem_cons_of_mem _ hp)
    refine ⟨hinv'.step hlast, ?_, hw'.step hinv' hi' hlast (hbefore _ List.mem_cons_self)⟩
    cases hlast with
    | call htx hexec =>
      exact hi'.trans_le (exec_advance hinv'.table hinv'.reserves hexec).nextId_le
    | reverted | elsewhere => exact hi'

/-! ### The second transaction -/

variable {lib : BitcoinLib}

end

namespace Testnet

/-- The address of the script the premium is paid to. -/
def address : String := "tb1qzyg3zyg3zyg3zyg3zyg3zyg3zyg3zyg3zyg3zyg3zyg3zyg3zxkqccwjc6"

/-- Two options written. -/
def twoWritten : State := Frogop.Testnet.after (exec env) world (writing (10 ^ 18) 4 100)

/-- One of them reserved. -/
def afterReserve : State :=
  Frogop.Testnet.next (exec env) twoWritten (quoted 11 101) (.reserveOption 1)

def pool : String := Indexer.hexString (Frogop.Testnet.account 1).val

/-- The receipt of the reservation. -/
def receipt : ReceiptEvents :=
  [(pool, some ((afterReserve.events.drop twoWritten.events.length).map fun e =>
    ⟨e.name.type, (e.reported pool).data⟩))]

end Testnet

end Frogop.BtcQuote
