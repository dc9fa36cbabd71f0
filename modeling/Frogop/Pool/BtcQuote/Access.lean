import Frogop.Pool.BtcQuote.Buffers
import Frogop.Pool.BtcQuote.Lifecycle

/-!
# Who may call what

The documented access table of the type-1 pool against its code. A call that changes an option or
takes tokens of the pool is made by the account the table names, `executeReservation` apart: it does
not look at its caller. It has nothing to execute either, as the writer of `reserveOption` is too
small for its event, so every run of the pool conforms to the table (`conforms_of_run`).
-/

namespace Frogop.BtcQuote

open Outcome World

/-! ### The table -/

/-- Who may make a call that touches an option. The remaining calls may touch none. -/
def Access (w : State) (tx : Tx) : Call → Prop
  | .cancelOption i => tx.sender = (w.option i).writer
  | .reserveOption i => tx.sender ≠ (w.option i).writer
  | .executeReservation n => tx.sender = (w.own.reservations.get n).buyer
  | .exercise i => tx.sender = (w.option i).buyer
  | .cancelReservation n => (w.own.reservations.get n).expiryBlock ≤ tx.block
  | .settle i => w.pool.graceEnd (w.option i) ≤ tx.block
  | .writeOption .. | .getReservation _ | .getOption _ | .updateFeeRecipient _
  | .registerBtcPubkey _ => False

/-- The calls that are not open to everybody. -/
def Restricted : Call → Prop
  | .cancelOption _ | .reserveOption _ | .executeReservation _ | .exercise _ => True
  | .cancelReservation _ | .settle _ | .writeOption .. | .getReservation _ | .getOption _
  | .updateFeeRecipient _ | .registerBtcPubkey _ => False

/-- A stored option got another status or buyer, or tokens of the pool went elsewhere. -/
def Touches (env : Env) (w w' : State) : Prop :=
  (∃ i < w.pool.nextId, (w'.option i).status ≠ (w.option i).status ∨
    (w'.option i).buyer ≠ (w.option i).buyer) ∨
  ∃ token, w'.ledger.heldBy env.contractAddress token < w.ledger.heldBy env.contractAddress token

/-- The transaction with another sender. -/
def sentBy (tx : Tx) (sender : Address) : Tx := { tx with sender := sender }

/-- The step in which `tx` makes the call `c`, whether it goes through or not. -/
def Attempt (env : Env) (others : Ledger → Ledger → Prop) (tx : Tx) (c : Call) (w w' : State) :
    Prop :=
  (∃ r, Step env others (exec env) w (.call tx c r) w') ∨
    ∃ e, Step env others (exec env) w (.reverted tx c e) w'

/-- A call conforms to the table: if it touches anything its caller may make it, and an account that
may not make it cannot. -/
structure Conforms (env : Env) (others : Ledger → Ledger → Prop) (w : State) (tx : Tx) (c : Call) :
    Prop where
  admitted : ∀ r w', exec env tx c w = .ok (r, w') → Touches env w w' → Access w tx c
  exclusive : Restricted c → ∀ sender, (sentBy tx sender).FromAccount env →
    ¬ Access w (sentBy tx sender) c →
    (∃ e, exec env (sentBy tx sender) c w = .error e) ∧
      ∀ w', Attempt env others (sentBy tx sender) c w w' → w' = w

section

variable {env : Env} {others : Ledger → Ledger → Prop} {tx : Tx} {c : Call} {w w' : State}
  {r : Response} {i n : ℕ}

/-! ### Calls that touch nothing -/

lemma not_touches (hoptions : ∀ i < w.pool.nextId, w'.option i = w.option i)
    (hheld : ∀ token, w.ledger.heldBy env.contractAddress token
      ≤ w'.ledger.heldBy env.contractAddress token) : ¬ Touches env w w' := by
  rintro (⟨i, hi, hstatus | hbuyer⟩ | ⟨token, hlt⟩)
  · exact hstatus (by rw [hoptions i hi])
  · exact hbuyer (by rw [hoptions i hi])
  · exact absurd hlt (not_lt.mpr (hheld token))

/-- Writing takes tokens in and leaves the stored options alone. -/
lemma writeOption_not_touches {t s e a p : ℕ} (htx : tx.FromAccount env)
    (h : writeOption env tx t s e a p w = .ok (r, w')) : ¬ Touches env w w' := by
  obtain ⟨ty, collateral, l, -, -, -, -, -, hl, -, -, rfl⟩ := OptionsPool.writeOption_ok h
  refine not_touches (fun i hi => OptionStorage.get_set_of_ne hi.ne) fun token => ?_
  have hflow := (Ledger.pull_flow htx.ne_pool hl token).1
  exact (Nat.le_add_right _ _).trans hflow

/-! ### The other calls -/

/-- Apart from `executeReservation`, whoever makes a restricted call may make it. -/
lemma access_of_ok (hexecute : ∀ n, c ≠ .executeReservation n) (hrestricted : Restricted c)
    (h : exec env tx c w = .ok (r, w')) : Access w tx c := by
  cases c with
  | cancelOption i =>
    obtain ⟨-, hwriter, -⟩ := OptionsPool.cancelOption_update h
    exact hwriter
  | reserveOption i =>
    obtain ⟨_, _, -, -, -, -, hwriter, -⟩ := reserveOption_ok h
    exact hwriter
  | exercise i =>
    obtain ⟨_, _, _, _, _, -, -, hbuyer, -⟩ := exercise_ok h
    exact hbuyer
  | executeReservation n => exact absurd rfl (hexecute n)
  | cancelReservation _ | settle _ | writeOption _ _ _ _ _ | getReservation _ | getOption _
  | updateFeeRecipient _ | registerBtcPubkey _ => exact hrestricted.elim

lemma admitted (hexecute : ∀ n, c ≠ .executeReservation n) (htx : tx.FromAccount env)
    (h : exec env tx c w = .ok (r, w')) (htouches : Touches env w w') : Access w tx c := by
  cases c with
  | cancelOption i => exact access_of_ok hexecute trivial h
  | reserveOption i => exact access_of_ok hexecute trivial h
  | exercise i => exact access_of_ok hexecute trivial h
  | executeReservation n => exact absurd rfl (hexecute n)
  | cancelReservation n =>
    obtain ⟨-, -, hblock, -⟩ := cancelReservation_ok h
    exact hblock
  | settle i =>
    obtain ⟨-, -, hgrace, -⟩ := OptionsPool.settle_update h
    exact hgrace
  | writeOption t s e a p => exact absurd htouches (writeOption_not_touches htx h)
  | getReservation n =>
    rw [getReservation_ok h] at htouches
    exact absurd htouches (not_touches (fun _ _ => rfl) fun _ => le_rfl)
  | getOption i =>
    rw [getOption_ok h] at htouches
    exact absurd htouches (not_touches (fun _ _ => rfl) fun _ => le_rfl)
  | updateFeeRecipient newRecipient =>
    obtain ⟨-, -, -, rfl⟩ := updateFeeRecipient_ok h
    exact absurd htouches (not_touches (fun _ _ => rfl) fun _ => le_rfl)
  | registerBtcPubkey data =>
    obtain ⟨_, -, -, -, rfl⟩ := registerBtcPubkey_ok h
    exact absurd htouches (not_touches (fun _ _ => rfl) fun _ => le_rfl)

/-- A call that cannot go through leaves the world alone. -/
lemma attempt_of_error {e : Revert} (h : exec env tx c w = .error e)
    (hattempt : Attempt env others tx c w w') : w' = w := by
  rcases hattempt with ⟨r, hstep⟩ | ⟨e', hstep⟩
  · cases hstep with
    | call htx hexec =>
      rw [h] at hexec
      cases hexec
  · cases hstep
    rfl

/-- Anybody can make a reservation go through that one account can. -/
lemma executeReservation_sentBy (sender : Address) :
    executeReservation env (sentBy tx sender) n w = executeReservation env tx n w := rfl

/-- A call that is not `executeReservation` conforms to the table, in any state. -/
lemma conforms_of_ne (hexecute : ∀ n, c ≠ .executeReservation n) (htx : tx.FromAccount env) :
    Conforms env others w tx c := by
  refine ⟨fun _ _ h htouches => admitted hexecute htx h htouches, ?_⟩
  intro hrestricted sender hsender hdenied
  cases hcall : exec env (sentBy tx sender) c w with
  | ok reply => exact absurd (access_of_ok hexecute hrestricted hcall) hdenied
  | error e => exact ⟨⟨e, rfl⟩, fun _ => attempt_of_error hcall⟩

/-- Every call that goes through conforms to the table, except to execute a reservation. -/
theorem conforms_iff (hstep : Step env others (exec env) w (.call tx c r) w') :
    Conforms env others w tx c ↔ ∀ n, c ≠ .executeReservation n := by
  obtain ⟨htx, hexec⟩ : tx.FromAccount env ∧ exec env tx c w = .ok (r, w') := by
    cases hstep with
    | call htx hexec => exact ⟨htx, hexec⟩
  constructor
  · rintro hconf n rfl
    obtain ⟨sender, hpool, hzero, hne⟩ := exists_account env.contractAddress Address.zero
      (w.own.reservations.get n).buyer
    obtain ⟨⟨e, herror⟩, -⟩ := hconf.exclusive trivial sender ⟨hpool, hzero⟩ hne
    have hsame : exec env (sentBy tx sender) (.executeReservation n) w = .ok (r, w') :=
      (executeReservation_sentBy sender).trans hexec
    rw [hsame] at herror
    cases herror
  · intro hexecute
    exact conforms_of_ne hexecute htx

/-! ### A pool without reservations -/

/-- A reservation that is not stored cannot be executed. -/
lemma executeReservation_missing (hmissing : ¬ w.own.reservations.existsAt n) :
    ∃ e, executeReservation env tx n w = .error e := by
  cases hcall : executeReservation env tx n w with
  | ok reply => exact absurd (executeReservation_ok hcall).1 hmissing
  | error e => exact ⟨e, rfl⟩

/-- Where a reservation does not fit its writer, none is ever stored. -/
lemma no_reservations (hfixed : env.writers = .fixed) {w₀ : State}
    {h : Lts.History State (Label Call)} (hdep : Deployed w₀)
    (hrun : Lts.Run (Step env others (exec env)) w₀ h w) : ¬ w.own.reservations.existsAt n := by
  have hown : w.own = w₀.own := by
    refine hrun.invariant (I := fun v => v.own = w₀.own) rfl ?_
    intro v l v' hv hstep
    have hnone : ∀ m, ¬ v.own.reservations.existsAt m := by
      intro m
      rw [hv, hdep.own]
      exact fun hex => hex rfl
    cases hstep with
    | reverted => exact hv
    | elsewhere => exact hv
    | @call tx c _ _ r htx hexec =>
      refine (exec_ext ?_ ?_ ?_ hexec).trans hv
      · rintro i rfl
        exact reserveOption_fixed hfixed _ hexec
      · rintro m rfl
        exact hnone m (executeReservation_ok hexec).1
      · rintro m rfl
        exact hnone m (cancelReservation_ok hexec).1
  rw [hown, hdep.own]
  exact fun hex => hex rfl

/-- In every run, every call conforms to the table. -/
theorem conforms_of_run (hfixed : env.writers = .fixed) {w₀ : State}
    {h : Lts.History State (Label Call)} (hdep : Deployed w₀)
    (hrun : Lts.Run (Step env others (exec env)) w₀ h w) (htx : tx.FromAccount env) :
    Conforms env others w tx c := by
  by_cases hexecute : ∃ n, c = .executeReservation n
  · obtain ⟨n, rfl⟩ := hexecute
    have hmissing := no_reservations (n := n) hfixed hdep hrun
    have hfails : ∀ tx, ∃ e, exec env tx (.executeReservation n) w = .error e :=
      fun _ => executeReservation_missing hmissing
    constructor
    · intro r w' hexec
      obtain ⟨e, herror⟩ := hfails tx
      rw [herror] at hexec
      cases hexec
    · intro _ sender _ _
      obtain ⟨e, herror⟩ := hfails (sentBy tx sender)
      exact ⟨⟨e, herror⟩, fun _ => attempt_of_error herror⟩
  · exact conforms_of_ne (fun n heq => hexecute ⟨n, heq⟩) htx

end

/-- Its writer cancels an option, and nobody else could. -/
theorem cancelOption_conforms :
    Conforms (Testnet.env.withWriters .fixed) (Ledger.FixedAt Testnet.env.contractAddress)
      (Frogop.Testnet.after (exec (Testnet.env.withWriters .fixed)) Testnet.world
        (Testnet.writing (10 ^ 18) 4 100)) (Frogop.Testnet.tx 10 101) (.cancelOption 0) :=
  conforms_of_run rfl Testnet.deployed
    (Frogop.Testnet.run_after _
      (fun q hq => (Testnet.writing_fromAccount _ _ _ q hq).withWriters .fixed) rfl) (by decide)

end Frogop.BtcQuote
