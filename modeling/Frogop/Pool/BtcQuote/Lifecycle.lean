import Frogop.Pool.BtcQuote.Spec
import Frogop.Pool.OptionsPool.Lifecycle

/-!
# The life of an option in `OptionsPoolBtcQuote`

The transitions of the type-1 pool. `executeReservation` and `cancelReservation` do not look at
the option they rewrite, so what they can do to it depends on the reservation table: `Reserves`
says that every reservation they accept is of a reserved option.
-/

namespace Frogop.BtcQuote

open Outcome World

/-- A freshly deployed type-1 pool. -/
structure Deployed (w : State) : Prop where
  pool : ∃ underlying premiumToken feeRecipient gracePeriod bridge,
    onDeployment underlying premiumToken feeRecipient gracePeriod bridge = .ok (w.pool, w.own)
  events : w.events = []

/-- A reservation that `executeReservation` and `cancelReservation` take. -/
def Live (w : State) (n : ℕ) : Prop :=
  w.own.reservations.existsAt n ∧ (w.own.reservations.get n).status = .PENDING

/-- Live reservations are of reserved options. -/
def Reserves (w : State) : Prop :=
  ∀ n, Live w n → (w.own.reservations.get n).optionId < w.pool.nextId ∧
    (w.option (w.own.reservations.get n).optionId).status = .RESERVED

/-- What a call `c` of `tx` can do to a stored option of the pool `w`. -/
inductive Transition (w : State) (tx : Tx) (c : Call) : OptionRecord → OptionRecord → Prop
  | stays (o : OptionRecord) : Transition w tx c o o
  | reserved (o : OptionRecord) (hc : c = .reserveOption o.id) (hopen : o.status = .OPEN)
      (hblock : tx.block < o.expiryBlock) (hwriter : tx.sender ≠ o.writer) :
      Transition w tx c o { o with status := .RESERVED }
  | executed (o : OptionRecord) (n : ℕ) (hc : c = .executeReservation n) (hlive : Live w n)
      (hid : (w.own.reservations.get n).optionId = o.id) (hreserved : o.status = .RESERVED)
      (hblock : tx.block < (w.own.reservations.get n).expiryBlock) :
      Transition w tx c o
        { o with buyer := (w.own.reservations.get n).buyer, status := .PURCHASED }
  | released (o : OptionRecord) (n : ℕ) (hc : c = .cancelReservation n) (hlive : Live w n)
      (hid : (w.own.reservations.get n).optionId = o.id) (hreserved : o.status = .RESERVED)
      (hblock : (w.own.reservations.get n).expiryBlock ≤ tx.block) :
      Transition w tx c o { o with status := .OPEN }
  | cancelled (o : OptionRecord) (hc : c = .cancelOption o.id) (hopen : o.status = .OPEN)
      (hwriter : tx.sender = o.writer) : Transition w tx c o { o with status := .CANCELLED }
  | exercised (o : OptionRecord) (hc : c = .exercise o.id) (hbought : o.status = .PURCHASED)
      (hbuyer : tx.sender = o.buyer) (hexpiry : o.expiryBlock ≤ tx.block)
      (hgrace : tx.block < w.pool.graceEnd o) : Transition w tx c o { o with status := .EXERCISED }
  | settled (o : OptionRecord) (hc : c = .settle o.id) (hbought : o.status = .PURCHASED)
      (hgrace : w.pool.graceEnd o ≤ tx.block) : Transition w tx c o { o with status := .EXPIRED }

/-- Everything a successful call `c` of `tx` does to the option table. -/
abbrev Advances (w : State) (tx : Tx) (c : Call) (p' : PoolStorage) : Prop :=
  Advance (Transition w tx c) (OptionsPool.Fresh tx w.pool.nextId) w.pool p'

section

variable {env : Env} {tx : Tx} {c : Call} {w w' : State} {r : Response} {i n : ℕ}
  {o o' : OptionRecord}

lemma Deployed.base (h : Deployed w) : Frogop.Deployed w := by
  obtain ⟨underlying, premiumToken, feeRecipient, gracePeriod, bridge, hdeploy⟩ := h.pool
  simp only [onDeployment, bind_eq_ok, require_eq_ok, pure_eq, Except.ok.injEq,
    Prod.mk.injEq] at hdeploy
  obtain ⟨_, hpool, -, -, rfl, -⟩ := hdeploy
  exact ⟨⟨underlying, premiumToken, feeRecipient, gracePeriod, hpool⟩, h.events⟩

lemma Deployed.own (h : Deployed w) :
    w.own = ⟨0, ReservationStorage.empty, fun _ => Bytes32.zero⟩ := by
  obtain ⟨underlying, premiumToken, feeRecipient, gracePeriod, bridge, hdeploy⟩ := h.pool
  simp only [onDeployment, bind_eq_ok, require_eq_ok, pure_eq, Except.ok.injEq,
    Prod.mk.injEq] at hdeploy
  obtain ⟨_, -, -, -, -, hext⟩ := hdeploy
  exact hext.symm

lemma Testnet.deployed : Deployed Testnet.world :=
  ⟨⟨Frogop.Testnet.account 2, Frogop.Testnet.account 3, Frogop.Testnet.account 4, 144,
    Frogop.Testnet.account 5, rfl⟩, rfl⟩

/-! ### Transitions -/

lemma Transition.sameTerms (h : Transition w tx c o o') : o.SameTerms o' := by
  cases h <;> exact .update _ _ _

/-- An option that was sold or cancelled is not offered again. -/
lemma Transition.closed (h : Transition w tx c o o')
    (hclosed : o.status ≠ .OPEN ∧ o.status ≠ .RESERVED) :
    o'.status ≠ .OPEN ∧ o'.status ≠ .RESERVED := by
  cases h with
  | stays => exact hclosed
  | reserved _ hopen | cancelled _ hopen => exact absurd hopen hclosed.1
  | executed _ _ _ _ hreserved | released _ _ _ _ hreserved => exact absurd hreserved hclosed.2
  | exercised | settled => exact ⟨by simp, by simp⟩

/-- Only the calls about reservations move an option into or out of `RESERVED`. -/
lemma Transition.reserved_iff (h : Transition w tx c o o') (hreserve : ∀ i, c ≠ .reserveOption i)
    (hexecute : ∀ n, c ≠ .executeReservation n) (hcancel : ∀ n, c ≠ .cancelReservation n)
    (hstatus : o.status = .RESERVED ∨ o'.status = .RESERVED) : o' = o := by
  cases h with
  | stays => rfl
  | reserved hc => exact absurd hc (hreserve _)
  | executed n hc => exact absurd hc (hexecute n)
  | released n hc => exact absurd hc (hcancel n)
  | cancelled hc hopen => simp [hopen] at hstatus
  | exercised hc hbought | settled hc hbought => simp [hbought] at hstatus

/-! ### Calls -/

/-- A call that rewrites the option it is about. -/
lemma advances_of_update {s : OptionStorage} (hi : i < w.pool.nextId)
    (hget : s.get = Function.update w.pool.options.get i o')
    (ht : Transition w tx c (w.option i) o') : Advances w tx c { w.pool with options := s } :=
  advance_of_update (fun _ _ => .stays _) hget hi ht

/-- What a successful call does to the option table. -/
lemma exec_advance (hinv : TableInv w.pool) (hres : Reserves w)
    (h : exec env tx c w = .ok (r, w')) : Advances w tx c w'.pool := by
  cases c with
  | writeOption t s e a p => exact OptionsPool.writeOption_advance .stays h
  | reserveOption i =>
    obtain ⟨amount, hash, hex, hopen, hblock, -, hwriter, -, -, -, hpool, -⟩ := reserveOption_ok h
    rw [hpool]
    exact advances_of_update ((hinv i).mp hex) OptionStorage.get_setStatus
      (.reserved _ rfl hopen hblock hwriter)
  | executeReservation n =>
    obtain ⟨hex, hpending, hblock, -, hpool, -⟩ := executeReservation_ok h
    obtain ⟨hi, hreserved⟩ := hres n ⟨hex, hpending⟩
    rw [hpool]
    exact advances_of_update hi (get_setBuyer_setStatus _ _ _)
      (.executed _ n rfl ⟨hex, hpending⟩ rfl hreserved hblock)
  | cancelReservation n =>
    obtain ⟨hex, hpending, hblock, -, hpool, -⟩ := cancelReservation_ok h
    obtain ⟨hi, hreserved⟩ := hres n ⟨hex, hpending⟩
    rw [hpool]
    exact advances_of_update hi OptionStorage.get_setStatus
      (.released _ n rfl ⟨hex, hpending⟩ rfl hreserved hblock)
  | exercise i =>
    obtain ⟨_, _, _, _, _, hex, hbought, hbuyer, hexpiry, hgrace, -, -, -, -, -, hpool, -⟩ :=
      exercise_ok h
    rw [hpool]
    exact advances_of_update ((hinv i).mp hex) OptionStorage.get_setStatus
      (.exercised _ rfl hbought hbuyer hexpiry hgrace)
  | cancelOption i =>
    obtain ⟨hex, hwriter, hopen, hpool⟩ := OptionsPool.cancelOption_update h
    rw [hpool]
    exact advances_of_update ((hinv i).mp hex) OptionStorage.get_setStatus
      (.cancelled _ rfl hopen hwriter)
  | settle i =>
    obtain ⟨hex, hbought, hgrace, hpool⟩ := OptionsPool.settle_update h
    rw [hpool]
    exact advances_of_update ((hinv i).mp hex) OptionStorage.get_setStatus
      (.settled _ rfl hbought hgrace)
  | getReservation n =>
    rw [getReservation_ok h]
    exact advance_of_same rfl rfl rfl rfl rfl fun _ => .stays _
  | getOption i =>
    rw [getOption_ok h]
    exact advance_of_same rfl rfl rfl rfl rfl fun _ => .stays _
  | updateFeeRecipient newRecipient =>
    obtain ⟨-, -, -, rfl⟩ := updateFeeRecipient_ok h
    exact advance_of_same rfl rfl rfl rfl rfl fun _ => .stays _
  | registerBtcPubkey data =>
    obtain ⟨_, -, -, -, rfl⟩ := registerBtcPubkey_ok h
    exact advance_of_same rfl rfl rfl rfl rfl fun _ => .stays _

lemma exec_tableInv (hinv : TableInv w.pool) (hres : Reserves w) (htx : tx.FromAccount env)
    (h : exec env tx c w = .ok (r, w')) : TableInv w'.pool := by
  refine (exec_advance hinv hres h).tableInv (fun _ _ ht => ht.sameTerms.writer)
    (fun o ho => ?_) hinv
  rw [ho.writer]
  exact htx.ne_zero

/-- The calls that leave the reservations alone. -/
lemma exec_ext (hreserve : ∀ i, c ≠ .reserveOption i) (hexecute : ∀ n, c ≠ .executeReservation n)
    (hcancel : ∀ n, c ≠ .cancelReservation n) (h : exec env tx c w = .ok (r, w')) :
    w'.own = w.own := by
  cases c with
  | reserveOption i => exact absurd rfl (hreserve i)
  | executeReservation n => exact absurd rfl (hexecute n)
  | cancelReservation n => exact absurd rfl (hcancel n)
  | writeOption t s e a p =>
    obtain ⟨_, _, _, -, -, -, -, -, -, -, -, rfl⟩ := OptionsPool.writeOption_ok h
    rfl
  | exercise i =>
    obtain ⟨_, _, _, _, _, -, -, -, -, -, -, -, -, -, -, -, hext, -⟩ := exercise_ok h
    exact hext
  | cancelOption i =>
    obtain ⟨_, _, _, _, -, -, -, -, -, -, -, -, -, rfl⟩ := OptionsPool.cancelOption_ok h
    rfl
  | settle i =>
    obtain ⟨_, _, -, -, -, -, -, -, rfl⟩ := OptionsPool.settle_ok h
    rfl
  | getReservation n => rw [getReservation_ok h]
  | getOption i => rw [getOption_ok h]
  | updateFeeRecipient newRecipient =>
    obtain ⟨-, -, -, rfl⟩ := updateFeeRecipient_ok h
    rfl
  | registerBtcPubkey data =>
    obtain ⟨_, -, -, -, rfl⟩ := registerBtcPubkey_ok h
    rfl

end

end Frogop.BtcQuote
