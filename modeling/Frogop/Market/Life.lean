import Frogop.Market.Solvency
import Frogop.Pool.BtcQuote.Held
import Frogop.Pool.Life

/-!
# What a market does with an option

Three contracts with their own tables of options and reservations do the same to an option: whatever
is called in a market, in any order, every option of every pool lives the life of a covered option.
-/

namespace Frogop

open Outcome World
open Life (Phase Deed Act)

/-! ### Records -/

/-- What the record of an option in a given phase looks like. -/
def Shows (o : OptionRecord) : Phase Address → Prop
  | .offered => o.status = .OPEN ∧ o.buyer = Address.zero
  | .reserved _ _ => o.status = .RESERVED ∧ o.buyer = Address.zero
  | .sold p => o.status = .PURCHASED ∧ o.buyer = p
  | .exercised p => o.status = .EXERCISED ∧ o.buyer = p
  | .expired p => o.status = .EXPIRED ∧ o.buyer = p
  | .cancelled => o.status = .CANCELLED ∧ o.buyer = Address.zero

def PoolStorage.terms (p : PoolStorage) (o : OptionRecord) : Life.Terms Address where
  writer := o.writer
  expiry := o.expiryBlock
  graceEnd := p.graceEnd o

/-- The option `i` is agreed on as it was. -/
structure Kept (p p' : PoolStorage) (i : ℕ) : Prop where
  sameTerms : (p.options.get i).SameTerms (p'.options.get i)
  gracePeriod : p'.gracePeriod = p.gracePeriod

/-- A call that goes through and does no more to an option than `does` says takes it through its
life. -/
def Lives (p : PoolStorage) (tx : Tx) (does : Deed → Prop) (o o' : OptionRecord) : Prop :=
  ∀ ph, Shows o ph → ∃ ph', Shows o' ph' ∧
    (ph' = ph ∨ ∃ d, does d ∧ Life.Step (p.terms o) ph ⟨d, tx.sender, tx.block⟩ ph')

section

variable {p : PoolStorage} {tx : Tx} {does : Deed → Prop} {o o' : OptionRecord} {ph : Phase Address}

lemma Kept.terms {p' : PoolStorage} {i : ℕ} (h : Kept p p' i) :
    p'.terms (p'.options.get i) = p.terms (p.options.get i) := by
  simp only [PoolStorage.terms, PoolStorage.graceEnd, h.sameTerms.writer, h.sameTerms.expiryBlock,
    h.gracePeriod]

lemma Kept.trans {p' p'' : PoolStorage} {i : ℕ} (h : Kept p p' i) (h' : Kept p' p'' i) :
    Kept p p'' i :=
  ⟨h.sameTerms.trans h'.sameTerms, h'.gracePeriod.trans h.gracePeriod⟩

lemma Shows.offered (h : Shows o ph) (hopen : o.status = .OPEN) :
    ph = .offered ∧ o.buyer = Address.zero := by
  cases ph <;> simp_all [Shows]

lemma Shows.reserved (h : Shows o ph) (hreserved : o.status = .RESERVED) :
    ∃ buyer deadline, ph = .reserved buyer deadline := by
  cases ph <;> simp_all [Shows]

lemma Shows.sold (h : Shows o ph) (hbought : o.status = .PURCHASED) : ph = .sold o.buyer := by
  cases ph <;> simp_all [Shows]

/-- A phase tells the buyer and the status. -/
lemma Shows.unique (h : Shows o ph) (h' : Shows o' ph) :
    o'.status = o.status ∧ o'.buyer = o.buyer := by
  cases ph <;> simp_all [Shows]

lemma OptionsPool.Fresh.offered {n : ℕ} (h : OptionsPool.Fresh tx n o) : Shows o .offered :=
  h.unsold

lemma Lives.stays : Lives p tx does o o := fun ph h => ⟨ph, h, .inl rfl⟩

lemma Lives.bought (hdoes : does .buy) (hopen : o.status = .OPEN)
    (hblock : tx.block < o.expiryBlock) (hwriter : tx.sender ≠ o.writer) :
    Lives p tx does o { o with buyer := tx.sender, status := .PURCHASED } := by
  intro ph h
  obtain ⟨rfl, -⟩ := h.offered hopen
  exact ⟨.sold tx.sender, ⟨rfl, rfl⟩, .inr ⟨.buy, hdoes, .buy hwriter hblock⟩⟩

lemma Lives.cancelled (hdoes : does .cancel) (hopen : o.status = .OPEN)
    (hwriter : tx.sender = o.writer) : Lives p tx does o { o with status := .CANCELLED } := by
  intro ph h
  obtain ⟨rfl, hbuyer⟩ := h.offered hopen
  refine ⟨.cancelled, ⟨rfl, hbuyer⟩, .inr ⟨.cancel, hdoes, ?_⟩⟩
  rw [hwriter]
  exact .cancel

lemma Lives.exercised (hdoes : does .exercise) (hbought : o.status = .PURCHASED)
    (hbuyer : tx.sender = o.buyer) (hexpiry : o.expiryBlock ≤ tx.block)
    (hgrace : tx.block < p.graceEnd o) : Lives p tx does o { o with status := .EXERCISED } := by
  intro ph h
  obtain rfl := h.sold hbought
  refine ⟨.exercised o.buyer, ⟨rfl, rfl⟩, .inr ⟨.exercise, hdoes, ?_⟩⟩
  rw [hbuyer]
  exact .exercise hexpiry hgrace

lemma Lives.settled (hdoes : does .settle) (hbought : o.status = .PURCHASED)
    (hgrace : p.graceEnd o ≤ tx.block) : Lives p tx does o { o with status := .EXPIRED } := by
  intro ph h
  obtain rfl := h.sold hbought
  exact ⟨.expired o.buyer, ⟨rfl, rfl⟩, .inr ⟨.settle, hdoes, .settle hgrace⟩⟩

lemma Lives.transferred (hdoes : does .transfer) {newBuyer : Address}
    (hbought : o.status = .PURCHASED) (hbuyer : tx.sender = o.buyer)
    (hgrace : tx.block < p.graceEnd o) : Lives p tx does o { o with buyer := newBuyer } := by
  intro ph h
  obtain rfl := h.sold hbought
  refine ⟨.sold newBuyer, ⟨hbought, rfl⟩, .inr ⟨.transfer, hdoes, ?_⟩⟩
  rw [hbuyer]
  exact .transfer hgrace

end

/-! ### Pools whose options are bought at once -/

/-- What a call does to an option when it goes through. -/
def OptionsPool.Call.Does (c : OptionsPool.Call) (i : ℕ) : Deed → Prop
  | .buy => c = .buyOption i
  | .transfer => ∃ newBuyer, c = .transferOption i newBuyer
  | .cancel => c.Cancels i
  | .exercise => c = .exercise i
  | .settle => c.Settles i
  | .reserve | .release | .confirm => False

def BtcUnderlying.Call.Does (c : BtcUnderlying.Call) (i : ℕ) : Deed → Prop
  | .buy => c = .buyOption i
  | .cancel => c = .cancelOption i
  | .exercise => c = .exercise i
  | .settle => c = .settle i
  | .reserve | .release | .confirm | .transfer => False

lemma OptionsPool.Transition.lives {p : PoolStorage} {tx : Tx} {c : OptionsPool.Call}
    {o o' : OptionRecord} (h : OptionsPool.Transition p tx c o o') :
    Lives p tx (c.Does o.id) o o' := by
  cases h with
  | stays => exact .stays
  | bought hc hopen hblock hwriter => exact .bought hc hopen hblock hwriter
  | cancelled hc hopen hwriter => exact .cancelled hc hopen hwriter
  | exercised hc hbought hbuyer hexpiry hgrace => exact .exercised hc hbought hbuyer hexpiry hgrace
  | settled hc hbought hgrace => exact .settled hc hbought hgrace
  | transferred newBuyer hc hbought hbuyer _ hgrace =>
    exact .transferred ⟨newBuyer, hc⟩ hbought hbuyer hgrace

lemma BtcUnderlying.Transition.lives {p : PoolStorage} {tx : Tx} {c : BtcUnderlying.Call}
    {o o' : OptionRecord} (h : BtcUnderlying.Transition p tx c o o') :
    Lives p tx (c.Does o.id) o o' := by
  cases h with
  | stays => exact .stays
  | bought hc hopen hblock hwriter => exact .bought hc hopen hblock hwriter
  | cancelled hc hopen hwriter => exact .cancelled hc hopen hwriter
  | exercised hc hbought hbuyer hexpiry hgrace => exact .exercised hc hbought hbuyer hexpiry hgrace
  | settled hc hbought hgrace => exact .settled hc hbought hgrace

/-! ### Pools with reservations -/

namespace BtcQuote

def Call.Does (c : Call) (w : State) (i : ℕ) : Deed → Prop
  | .reserve => c = .reserveOption i
  | .confirm => ∃ n, c = .executeReservation n ∧ (w.own.reservations.get n).optionId = i
  | .release => ∃ n, c = .cancelReservation n ∧ (w.own.reservations.get n).optionId = i
  | .cancel => c = .cancelOption i
  | .exercise => c = .exercise i
  | .settle => c = .settle i
  | .buy | .transfer => False

/-- A reserved option is held by a reservation for its buyer and until its deadline. -/
def HeldFor (h : Lts.History State (Label Call)) (w : State) (i : ℕ) : Phase Address → Prop
  | .reserved buyer deadline =>
    ∃ n res, Held h w n i res ∧ res.buyer = buyer ∧ res.expiryBlock = deadline
  | _ => True

variable {env : Env} {tx : Tx} {c : Call} {w w' : State} {r : Response} {i n : ℕ}
  {h : Lts.History State (Label Call)} {ph : Phase Address}

lemma heldFor_of_status {o : OptionRecord} (hshows : Shows o ph) (ho : o.status ≠ .RESERVED) :
    HeldFor h w i ph := by
  cases ph with
  | reserved => exact absurd hshows.1 ho
  | _ => trivial

/-- What is not about reservations is as in the other pools. -/
lemma Transition.lives {o o' : OptionRecord} (ht : Transition w tx c o o')
    (hreserved : o.status ≠ .RESERVED) (hreserve : c ≠ .reserveOption o.id) :
    Lives w.pool tx (c.Does w o.id) o o' ∧ o'.status ≠ .RESERVED := by
  cases ht with
  | stays => exact ⟨.stays, hreserved⟩
  | reserved hc => exact absurd hc hreserve
  | executed _ _ _ _ hheld | released _ _ _ _ hheld => exact absurd hheld hreserved
  | cancelled hc hopen hwriter => exact ⟨.cancelled hc hopen hwriter, by simp⟩
  | exercised hc hbought hbuyer hexpiry hgrace =>
    exact ⟨.exercised hc hbought hbuyer hexpiry hgrace, by simp⟩
  | settled hc hbought hgrace => exact ⟨.settled hc hbought hgrace, by simp⟩

lemma lives_reserveOption (hshows : Shows (w.option i) ph)
    (hexec : exec env tx (.reserveOption i) w = .ok (r, w')) :
    ∃ ph', Shows (w'.option i) ph' ∧ HeldFor ((.call tx (.reserveOption i) r, w') :: h) w' i ph' ∧
      Life.Step (w.pool.terms (w.option i)) ph ⟨.reserve, tx.sender, tx.block⟩ ph' := by
  obtain ⟨amount, hash, -, hopen, hblock, hwindow, hwriter, -, -, rfl, hpool, hext, -⟩ :=
    reserveOption_ok hexec
  obtain ⟨rfl, hbuyer⟩ := hshows.offered hopen
  have hoption : w'.option i = { w.option i with status := .RESERVED } := by
    rw [World.option, hpool, OptionStorage.get_setStatus_self]
  have hstored : w'.own.reservations.get w.own.nextReservationId
      = newReservation tx i amount hash w.own.nextReservationId := by
    rw [hext, ReservationStorage.get_set_self]
    rfl
  refine ⟨.reserved tx.sender (u64Add tx.block reservationExpiryBlocks), ?_, ?_,
    .reserve hwriter hblock hwindow⟩
  · rw [hoption]
    exact ⟨rfl, hbuyer⟩
  · refine ⟨_, _, ⟨?_, if_pos rfl, hstored⟩, rfl, rfl⟩
    rw [hoption]

/-- A held option stays so until its reservation is closed. -/
lemma lives_held {res : Reservation} (hinv : TwoPhase env h w) (hi : i < w.pool.nextId)
    (hshows : Shows (w.option i) (.reserved res.buyer res.expiryBlock)) (hheld : Held h w n i res)
    (hexec : exec env tx c w = .ok (r, w')) :
    ∃ ph', Shows (w'.option i) ph' ∧ HeldFor ((.call tx c r, w') :: h) w' i ph' ∧
      (ph' = .reserved res.buyer res.expiryBlock ∨ ∃ d, c.Does w i d ∧
        Life.Step (w.pool.terms (w.option i)) (.reserved res.buyer res.expiryBlock)
          ⟨d, tx.sender, tx.block⟩ ph') := by
  have hid : (w.own.reservations.get n).optionId = i := (hheld.holds hinv hi).stored
  cases hheld.call hinv hi hexec with
  | kept hheld' hsame =>
    refine ⟨.reserved res.buyer res.expiryBlock, ?_, ⟨n, res, hheld', rfl, rfl⟩, .inl rfl⟩
    rw [hsame]
    exact hshows
  | executed hc hblock hoption =>
    refine ⟨.sold res.buyer, ?_, trivial, .inr ⟨.confirm, ⟨n, hc, hid⟩, .confirm hblock⟩⟩
    rw [hoption]
    exact ⟨rfl, rfl⟩
  | released hc hblock hoption =>
    refine ⟨.offered, ?_, trivial, .inr ⟨.release, ⟨n, hc, hid⟩, .release hblock⟩⟩
    rw [hoption]
    exact ⟨rfl, hshows.2⟩

/-- A call to the pool takes every option through its life. -/
lemma lives_call (hinv : TwoPhase env h w) (hi : i < w.pool.nextId)
    (hshows : Shows (w.option i) ph) (hfor : HeldFor h w i ph)
    (hexec : exec env tx c w = .ok (r, w')) :
    ∃ ph', Shows (w'.option i) ph' ∧ HeldFor ((.call tx c r, w') :: h) w' i ph' ∧
      (ph' = ph ∨ ∃ d, c.Does w i d ∧
        Life.Step (w.pool.terms (w.option i)) ph ⟨d, tx.sender, tx.block⟩ ph') := by
  by_cases hreserved : (w.option i).status = .RESERVED
  · obtain ⟨_, _, rfl⟩ := hshows.reserved hreserved
    obtain ⟨n, res, hheld, rfl, rfl⟩ := hfor
    exact lives_held hinv hi hshows hheld hexec
  · by_cases hreserve : c = .reserveOption i
    · subst hreserve
      obtain ⟨ph', hshows', hfor', hstep⟩ := lives_reserveOption hshows hexec
      exact ⟨ph', hshows', hfor', .inr ⟨.reserve, rfl, hstep⟩⟩
    · have ht := (exec_advance hinv.table hinv.reserves hexec).stored i hi
      obtain ⟨hlives, hstatus⟩ := ht.lives hreserved hreserve
      obtain ⟨ph', hshows', hmove⟩ := hlives ph hshows
      exact ⟨ph', hshows', heldFor_of_status hshows' hstatus, hmove⟩

end BtcQuote

/-! ### Pools of any kind -/

namespace PoolType

/-- What a call to a pool in the state `w` does to the option `i` when it goes through. -/
def Does : (k : PoolType) → World k.Own → k.Call → ℕ → Deed → Prop
  | op20, _, c, i => OptionsPool.Call.Does c i
  | btcQuote, w, c, i => BtcQuote.Call.Does c w i
  | btcUnderlying, _, c, i => BtcUnderlying.Call.Does c i

def HeldFor : (k : PoolType) → Lts.History (World k.Own) (Label k.Call) → World k.Own → ℕ →
    Phase Address → Prop
  | btcQuote, h, w, i => BtcQuote.HeldFor h w i
  | op20, _, _, _ | btcUnderlying, _, _, _ => fun _ => True

/-- The option `i` of a pool is in a phase of its life. -/
structure In (k : PoolType) (h : Lts.History (World k.Own) (Label k.Call)) (w : World k.Own)
    (i : ℕ) (ph : Phase Address) : Prop where
  stored : i < w.pool.nextId
  shows : Shows (w.option i) ph
  heldFor : k.HeldFor h w i ph

variable {k : PoolType} {env : Env} {others : Ledger → Ledger → Prop} {w₀ w w' : World k.Own}
  {h : Lts.History (World k.Own) (Label k.Call)} {tx : Tx} {c : k.Call} {r : Response} {i : ℕ}
  {l : Label k.Call} {ph : Phase Address}

/-- What a call of any pool does to the table. -/
lemma advance (hdep : k.Deployed w₀) (hrun : Lts.Run (Step env others (k.exec env)) w₀ h w)
    (hexec : k.exec env tx c w = .ok (r, w')) :
    Advance OptionRecord.SameTerms (OptionsPool.Fresh tx w.pool.nextId) w.pool w'.pool := by
  cases k with
  | op20 =>
    exact (OptionsPool.exec_advance (OptionsPool.table_of_run hdep hrun) hexec).imp
      fun _ _ ht => ht.sameTerms
  | btcQuote =>
    have hinv := BtcQuote.twoPhase_of_run hdep hrun
    exact (BtcQuote.exec_advance hinv.table hinv.reserves hexec).imp fun _ _ ht => ht.sameTerms
  | btcUnderlying =>
    exact (BtcUnderlying.exec_advance (BtcUnderlying.table_of_run hdep hrun) hexec).imp
      fun _ _ ht => ht.sameTerms

lemma in_of_call (hdep : k.Deployed w₀) (hrun : Lts.Run (Step env others (k.exec env)) w₀ h w)
    (hin : k.In h w i ph) (hexec : k.exec env tx c w = .ok (r, w')) :
    ∃ ph', k.In ((.call tx c r, w') :: h) w' i ph' ∧
      (ph' = ph ∨ ∃ d, k.Does w c i d ∧
        Life.Step (w.pool.terms (w.option i)) ph ⟨d, tx.sender, tx.block⟩ ph') := by
  obtain ⟨hi, hshows, hfor⟩ := hin
  have hi' : i < w'.pool.nextId := hi.trans_le (advance hdep hrun hexec).nextId_le
  cases k with
  | op20 =>
    have ht := (OptionsPool.exec_advance (OptionsPool.table_of_run hdep hrun) hexec).stored i hi
    obtain ⟨ph', hshows', hmove⟩ := ht.lives ph hshows
    exact ⟨ph', ⟨hi', hshows', trivial⟩, hmove⟩
  | btcQuote =>
    obtain ⟨ph', hshows', hfor', hmove⟩ :=
      BtcQuote.lives_call (BtcQuote.twoPhase_of_run hdep hrun) hi hshows hfor hexec
    exact ⟨ph', ⟨hi', hshows', hfor'⟩, hmove⟩
  | btcUnderlying =>
    have ht := (BtcUnderlying.exec_advance (BtcUnderlying.table_of_run hdep hrun) hexec).stored i hi
    obtain ⟨ph', hshows', hmove⟩ := ht.lives ph hshows
    exact ⟨ph', ⟨hi', hshows', trivial⟩, hmove⟩

/-- What happens elsewhere, or is reverted, leaves an option where it is. -/
lemma in_of_same (hin : k.In h w i ph) (hpool : w'.pool = w.pool) (hown : w'.own = w.own)
    (hl : ∀ tx c r, l ≠ .call tx c r) : k.In ((l, w') :: h) w' i ph := by
  obtain ⟨hi, hshows, hfor⟩ := hin
  refine ⟨?_, ?_, ?_⟩
  · rw [hpool]
    exact hi
  · rw [World.option, hpool]
    exact hshows
  · cases k with
    | op20 | btcUnderlying => trivial
    | btcQuote =>
      cases ph with
      | reserved =>
        obtain ⟨n, res, ⟨hreserved, hmade, hstored⟩, hbuyer, hdeadline⟩ := hfor
        refine ⟨n, res, ⟨?_, ?_, ?_⟩, hbuyer, hdeadline⟩
        · rw [World.option, hpool]
          exact hreserved
        · cases l with
          | call tx c r => exact absurd rfl (hl tx c r)
          | reverted | elsewhere => exact hmade
        · rw [hown]
          exact hstored
      | _ => trivial

/-- What a step does to an option of the pool, a call that went through did. -/
lemma in_of_step (hdep : k.Deployed w₀) (hrun : Lts.Run (Step env others (k.exec env)) w₀ h w)
    (hin : k.In h w i ph) (hstep : Step env others (k.exec env) w l w') :
    Kept w.pool w'.pool i ∧ ∃ ph', k.In ((l, w') :: h) w' i ph' ∧
      (ph' = ph ∨ ∃ tx c r d, l = .call tx c r ∧ k.Does w c i d ∧
        Life.Step (w.pool.terms (w.option i)) ph ⟨d, tx.sender, tx.block⟩ ph') := by
  cases hstep with
  | call htx hexec =>
    have hadv := advance hdep hrun hexec
    obtain ⟨ph', hin', hmove⟩ := in_of_call hdep hrun hin hexec
    refine ⟨⟨hadv.stored i hin.stored, hadv.gracePeriod⟩, ph', hin', ?_⟩
    rcases hmove with rfl | ⟨d, hdoes, hstep⟩
    · exact .inl rfl
    · exact .inr ⟨_, _, _, d, rfl, hdoes, hstep⟩
  | reverted =>
    exact ⟨⟨.refl _, rfl⟩, ph, in_of_same hin rfl rfl (fun _ _ _ => by simp), .inl rfl⟩
  | elsewhere =>
    exact ⟨⟨.refl _, rfl⟩, ph, in_of_same hin rfl rfl (fun _ _ _ => by simp), .inl rfl⟩

/-- The step of a run that hands out the id of an option offers it. -/
lemma in_of_created (hdep : k.Deployed w₀) (hrun : Lts.Run (Step env others (k.exec env)) w₀ h w)
    (hstep : Step env others (k.exec env) w l w') (hnew : ¬ i < w.pool.nextId)
    (hi : i < w'.pool.nextId) : k.In ((l, w') :: h) w' i .offered := by
  cases hstep with
  | call htx hexec =>
    rcases (advance hdep hrun hexec).created with hnext | ⟨hnext, hfresh⟩
    · exact absurd (hnext ▸ hi) hnew
    · obtain rfl : i = w.pool.nextId := by omega
      refine ⟨hi, hfresh.offered, ?_⟩
      cases k <;> trivial
  | reverted | elsewhere => exact absurd hi hnew

end PoolType

/-! ### Markets -/

namespace Market

variable {ι : Type} [DecidableEq ι] {m : Market ι} {s₀ s s' : m.State} {n : ι} {i : ℕ}
  {h h' : Lts.History m.State m.Label} {l : m.Label} {ph : Phase Address}

/-- What is agreed of the option `i` of the pool `n`. -/
def terms (s : m.State) (n : ι) (i : ℕ) : Life.Terms Address :=
  (s.pool n).terms ((s.world n).option i)

/-- A call to the pool `n` that went through did what is done to the option `i`. -/
def Seen (m : Market ι) (n : ι) (i : ℕ) (a : Act Address) (p : m.State × m.Label) : Prop :=
  ∃ tx c r, p.2 = .call n tx c r ∧ (m.poolType n).Does (p.1.world n) c i a.deed ∧
    a.party = tx.sender ∧ a.block = tx.block

/-- The option `i` of the pool `n` is in a phase of its life. -/
def In (n : ι) (i : ℕ) (h : Lts.History m.State m.Label) (s : m.State) (ph : Phase Address) :
    Prop :=
  (m.poolType n).In (Lts.mapHistory (fun s => s.world n) (Label.at n) h) (s.world n) i ph

lemma Label.eq_call {tx : Tx} {c : (m.poolType n).Call} {r : Response}
    (h : l.at n = .call tx c r) : l = .call n tx c r := by
  cases l with
  | call q tx' c' r' =>
    rw [Label.at] at h
    split_ifs at h with hq
    subst hq
    cases h
    rfl
  | reverted q tx' c' e =>
    rw [Label.at] at h
    split_ifs at h
  | bridge | tokens => cases h

/-- A step of the market takes every option through its life. -/
lemma in_of_step (hdep : m.Deployed s₀) (hrun : Lts.Run m.Step s₀ h s) (hin : In n i h s ph)
    (hstep : m.Step s l s') :
    Kept (s.pool n) (s'.pool n) i ∧ ∃ ph', In n i ((l, s') :: h) s' ph' ∧
      (ph' = ph ∨ ∃ a, m.Seen n i a (s, l) ∧ Life.Step (terms s n i) ph a ph') := by
  have hruns := runs_at hdep hrun
  obtain ⟨hkept, ph', hin', hmove⟩ :=
    PoolType.in_of_step (hdep n) (hruns n) hin (hstep.at hdep hruns n)
  refine ⟨hkept, ph', hin', ?_⟩
  rcases hmove with rfl | ⟨tx, c, r, d, hl, hdoes, hmove⟩
  · exact .inl rfl
  · exact .inr ⟨⟨d, tx.sender, tx.block⟩, ⟨tx, c, r, Label.eq_call hl, hdoes, rfl, rfl⟩, hmove⟩

lemma in_of_run (hdep : m.Deployed s₀) (hrun : Lts.Run m.Step s₀ h s) (hin : In n i h s ph)
    (hrun' : Lts.Run m.Step s h' s') :
    ∃ past ph', Lts.Run (Life.Step (terms s n i)) ph past ph' ∧
      (In n i (h' ++ h) s' ph' ∧ Kept (s.pool n) (s'.pool n) i) ∧
      List.SublistForall₂ (m.Seen n i) (past.map Prod.fst) (Lts.taken s h') := by
  refine hrun'.simulate (R := fun h' v ph => In n i (h' ++ h) v ph ∧ Kept (s.pool n) (v.pool n) i)
    ⟨hin, .refl _, rfl⟩ ?_
  intro h' v l u ph hrun' hR hstep
  obtain ⟨hin, hkept⟩ := hR
  obtain ⟨hkept', ph', hin', hmove⟩ := in_of_step hdep (hrun.trans hrun') hin hstep
  refine ⟨ph', ⟨hin', hkept.trans hkept'⟩, ?_⟩
  have hterms : terms v n i = terms s n i := hkept.terms
  rw [hterms] at hmove
  exact hmove

/-- The option was offered at some step of the run. -/
lemma offered_of_run (hdep : m.Deployed s₀) (hrun : Lts.Run m.Step s₀ h s)
    (hi : i < (s.pool n).nextId) :
    ∃ h₁ v h₂, h = h₂ ++ h₁ ∧ Lts.Run m.Step s₀ h₁ v ∧ In n i h₁ v .offered ∧
      Lts.Run m.Step v h₂ s := by
  have hempty : ¬ i < (s₀.pool n).nextId := by
    have hnext : (s₀.pool n).nextId = 0 := (PoolType.Deployed.base (hdep n)).spec.1
    rw [hnext]
    exact Nat.not_lt_zero i
  obtain ⟨h₁, u, l, v, h₂, rfl, hrun₁, hnew, hstep, hv, hrun₂⟩ :=
    hrun.split (P := fun s => i < (s.pool n).nextId) hempty hi
  have hruns := runs_at hdep hrun₁
  exact ⟨(l, v) :: h₁, v, h₂, rfl, hrun₁.cons hstep,
    PoolType.in_of_created (hdep n) (hruns n) (hstep.at hdep hruns n) hnew hv, hrun₂⟩

/-- A phase in which nothing can be done with an option tells its record. -/
lemma record_of_final {o o' : OptionRecord} {ph' : Phase Address} {t : Life.Terms Address}
    {past : Lts.History (Phase Address) (Act Address)} (hfinal : Life.Final ph)
    (hlife : Lts.Run (Life.Step t) ph past ph') (hterms : o.SameTerms o') (hshows : Shows o ph)
    (hshows' : Shows o' ph') : o' = o := by
  obtain rfl := Life.eq_of_final hfinal hlife
  obtain ⟨hstatus, hbuyer⟩ := hshows.unique hshows'
  obtain ⟨hid, hwriter, htype, hstrike, hamount, hpremium, hexpiry, hcreated⟩ := hterms
  cases o
  cases o'
  simp_all

/-- Every option of a market lives the life of a covered option: what the calls to its pool have
done to it, each at most once and in their order, is a life from the offer to the phase that its
record and its reservation show, and whatever is called next goes on from there. -/
theorem options_live (hdep : m.Deployed s₀) (hrun : Lts.Run m.Step s₀ h s)
    (hi : i < (s.pool n).nextId) :
    ∃ past ph, Lts.Run (Life.Step (terms s n i)) .offered past ph ∧
      List.SublistForall₂ (m.Seen n i) (past.map Prod.fst) (Lts.taken s₀ h) ∧
      In n i h s ph ∧ Life.Justified (terms s n i) (past.map Prod.fst) ph ∧
      ∀ h' s', Lts.Run m.Step s h' s' → ∃ past' ph',
        Lts.Run (Life.Step (terms s n i)) ph past' ph' ∧
        List.SublistForall₂ (m.Seen n i) (past'.map Prod.fst) (Lts.taken s h') ∧
        In n i (h' ++ h) s' ph' ∧ (ph.holder ≠ none → ph'.holder ≠ none) ∧
        (Life.Final ph → (s'.world n).option i = (s.world n).option i) := by
  obtain ⟨h₁, v, h₂, rfl, hrun₁, hoffered, hrun₂⟩ := offered_of_run hdep hrun hi
  obtain ⟨past, ph, hlife, ⟨hin, hkept⟩, hseen⟩ := in_of_run hdep hrun₁ hoffered hrun₂
  have hterms : terms s n i = terms v n i := hkept.terms
  rw [← hterms] at hlife
  refine ⟨past, ph, hlife, ?_, hin, Life.justified_of_run hlife, fun h' s' hrun' => ?_⟩
  · rw [Lts.taken_append, hrun₁.last_eq]
    obtain ⟨seen, hall, hsub⟩ := List.sublistForall₂_iff.mp hseen
    exact List.sublistForall₂_iff.mpr ⟨seen, hall, hsub.trans (List.sublist_append_left _ _)⟩
  · obtain ⟨past', ph', hlife', ⟨hin', hkept'⟩, hseen'⟩ := in_of_run hdep hrun hin hrun'
    exact ⟨past', ph', hlife', hseen', hin', fun hp => Life.holder_of_run hp hlife',
      fun hfinal => record_of_final hfinal hlife' hkept'.sameTerms hin.shows hin'.shows⟩

/-- Account 11 buys the option of the type-0 pool. -/
def Testnet.buying : List Testnet.market.PoolCall :=
  [⟨.op20, Frogop.Testnet.tx 11 200, .buyOption 0⟩]

def Testnet.bought : Testnet.market.State :=
  match buying.foldlM callPool written with
  | .ok s => s
  | .error _ => written

lemma Testnet.run_bought :
    Lts.Run market.Step start (replayed written buying ++ replayed start writing) bought := by
  refine run_written.trans (run_replayed ?_ rfl)
  simp only [buying, List.forall_mem_cons, List.not_mem_nil, false_imp_iff, implies_true, and_true]
  exact ⟨fun k => by cases k <;> decide, by decide⟩

theorem options_live_bought :
    ∃ past, Lts.Run (Life.Step (terms Testnet.bought .op20 0)) .offered past
        (.sold (Frogop.Testnet.account 11)) ∧
      Life.Bought (terms Testnet.bought .op20 0) (past.map Prod.fst) := by
  obtain ⟨past, ph, hlife, -, hin, hjustified, -⟩ :=
    options_live (n := .op20) (i := 0) Testnet.start_deployed Testnet.run_bought (by decide)
  obtain rfl := hin.shows.sold rfl
  exact ⟨past, hlife, hjustified⟩

end Market

end Frogop
