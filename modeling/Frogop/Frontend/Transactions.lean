import Frogop.Frontend.FlowDefs
import Frogop.Lib.Run

/-!
# Tracked transactions and their poller

The reducer of `TransactionContext.tsx` and the polling cycle of `useTransactionPoller.ts`. A cycle
takes its transactions from the last render and waits for one receipt after the other, so that
dispatches, renders and time come between its steps.
-/

namespace Frogop.Frontend

def broadcastTimeoutMs : ℕ := 2 * 60 * 60 * 1000

def confirmedPruneMs : ℕ := 24 * 60 * 60 * 1000

def maxTxsPerCycle : ℕ := 5

/-! ### The reducer -/

/-- The fields that the poller updates; a field left out keeps its value. -/
structure TxUpdates where
  status : Option TxStatus := none
  confirmedAt : Option (Option ℕ) := none
  confirmedBlock : Option (Option ℕ) := none
  deriving DecidableEq, Repr

def TxUpdates.apply (updates : TxUpdates) (tx : TrackedTransaction) : TrackedTransaction :=
  { tx with
    status := updates.status.getD tx.status
    confirmedAt := updates.confirmedAt.getD tx.confirmedAt
    confirmedBlock := updates.confirmedBlock.getD tx.confirmedBlock }

inductive TransactionAction
  | addTx (tx : TrackedTransaction)
  | updateTx (txId : String) (updates : TxUpdates)
  | removeTx (txId : String)
  | load (transactions : List TrackedTransaction)
  | clearConfirmed

def reducer (transactions : List TrackedTransaction) :
    TransactionAction → List TrackedTransaction
  | .addTx tx => (tx :: transactions).take 100
  | .updateTx txId updates =>
    transactions.map fun tx => if tx.txId = txId then updates.apply tx else tx
  | .removeTx txId => transactions.filter fun tx => tx.txId ≠ txId
  | .load loaded => loaded
  | .clearConfirmed => transactions.filter fun tx => tx.status ≠ .confirmed

/-! ### The polling cycle -/

def TrackedTransaction.Pending (tx : TrackedTransaction) : Prop :=
  tx.status = .broadcast ∨ tx.status = .pending

instance : DecidablePred TrackedTransaction.Pending := fun tx =>
  inferInstanceAs (Decidable (tx.status = .broadcast ∨ tx.status = .pending))

/-- The transaction was created too long ago for its receipt to be looked up. -/
def TrackedTransaction.Overdue (now : ℕ) (tx : TrackedTransaction) : Prop :=
  broadcastTimeoutMs < now - tx.createdAt

instance (now : ℕ) : DecidablePred (TrackedTransaction.Overdue now) := fun _ =>
  inferInstanceAs (Decidable (_ < _))

/-- The transaction was confirmed more than a day ago. -/
def TrackedTransaction.Aged (now : ℕ) (tx : TrackedTransaction) : Prop :=
  tx.status = .confirmed ∧ tx.confirmedAt.any fun time => confirmedPruneMs < now - time

instance (now : ℕ) : DecidablePred (TrackedTransaction.Aged now) := fun _ =>
  inferInstanceAs (Decidable (_ ∧ _))

/-- A cycle under way: the time at which it began, and the transactions it has still to look at. -/
structure Poll where
  now : ℕ
  todo : List TrackedTransaction
  todo_pending : ∀ tx ∈ todo, tx.Pending

def Poll.begin (now : ℕ) (rendered : List TrackedTransaction) : Poll where
  now := now
  todo := (rendered.filter fun tx => tx.Pending).take maxTxsPerCycle
  todo_pending := fun _ htx => of_decide_eq_true (List.mem_filter.mp (List.mem_of_mem_take htx)).2

def Poll.rest (p : Poll) : Poll where
  now := p.now
  todo := p.todo.tail
  todo_pending := fun tx htx => p.todo_pending tx (List.mem_of_mem_tail htx)

/-- The end of a cycle: what the last render shows confirmed for more than a day. -/
def prune (now : ℕ) (rendered transactions : List TrackedTransaction) : List TrackedTransaction :=
  rendered.foldl (fun transactions tx =>
    if tx.Aged now then reducer transactions (.updateTx tx.txId { status := some .failed })
    else transactions) transactions

structure Tracker where
  clock : ℕ
  transactions : List TrackedTransaction
  /-- The list of the last render, which the poller reads. -/
  rendered : List TrackedTransaction
  poll : Option Poll

inductive TrackerEvent
  | wait (ms : ℕ)
  | addTransaction (tx : TrackedTransaction)
  | removeTx (txId : String)
  | load (transactions : List TrackedTransaction)
  | clearOld
  | render
  | poll
  /-- The cycle comes to an overdue transaction. -/
  | timeOut
  /-- The next receipt was looked up: it is there, or there is none or an error. -/
  | answer (receipt : Bool)
  | prune

def Tracker.step (s : Tracker) : TrackerEvent → Option Tracker
  | .wait ms => some { s with clock := s.clock + ms }
  | .addTransaction tx =>
    let added := { tx with createdAt := s.clock, confirmedAt := none, confirmedBlock := none }
    some { s with transactions := reducer s.transactions (.addTx added) }
  | .removeTx txId => some { s with transactions := reducer s.transactions (.removeTx txId) }
  | .load loaded => some { s with transactions := reducer s.transactions (.load loaded) }
  | .clearOld => some { s with transactions := reducer s.transactions .clearConfirmed }
  | .render => some { s with rendered := s.transactions }
  | .poll =>
    -- only one cycle at a time, and none when nothing is pending
    if s.poll.isSome then none
    else if (Poll.begin s.clock s.rendered).todo = [] then some s
    else some { s with poll := some (Poll.begin s.clock s.rendered) }
  | .timeOut => do
    let p ← s.poll
    let tx ← p.todo.head?
    if tx.Overdue p.now then
      some { s with
        transactions := reducer s.transactions (.updateTx tx.txId { status := some .failed })
        poll := some p.rest }
    else none
  | .answer receipt => do
    let p ← s.poll
    let tx ← p.todo.head?
    if tx.Overdue p.now then none
    else if receipt then
      let confirmed :=
        { status := some .confirmed
          confirmedAt := some (some s.clock)
          confirmedBlock := some none }
      some { s with
        transactions := reducer s.transactions (.updateTx tx.txId confirmed)
        poll := some p.rest }
    else some { s with poll := some p.rest }
  | .prune => do
    let p ← s.poll
    if p.todo = [] then
      some { s with transactions := Frontend.prune p.now s.rendered s.transactions, poll := none }
    else none

/-- Any interleaving, with any answers and any passage of time. -/
def Tracker.Step (s : Tracker) (e : TrackerEvent) (t : Tracker) : Prop := s.step e = some t

/-- What the status of a flow is derived from. -/
def Tracker.records (s : Tracker) : List TxStatusRecord := s.transactions.map (·.toTxStatusRecord)

variable {s t : Tracker} {e : TrackerEvent} {txId : String} {r tx : TrackedTransaction}
  {now : ℕ} {transactions rendered : List TrackedTransaction} {receipt : Bool}

def TrackedTransaction.fail (r : TrackedTransaction) : TrackedTransaction :=
  { r with status := .failed }

/-- What a receipt found at a time does to a record. -/
def TrackedTransaction.confirm (now : ℕ) (r : TrackedTransaction) : TrackedTransaction :=
  { r with status := .confirmed, confirmedAt := some now, confirmedBlock := none }

lemma reducer_fail : reducer transactions (.updateTx txId { status := some .failed })
    = transactions.map fun r => if r.txId = txId then r.fail else r := rfl

lemma reducer_confirm : reducer transactions (.updateTx txId
      { status := some .confirmed, confirmedAt := some (some now), confirmedBlock := some none })
    = transactions.map fun r => if r.txId = txId then r.confirm now else r := rfl

/-- The updates at the end of a cycle are one pass over the list. -/
lemma prune_eq_map : prune now rendered transactions = transactions.map fun r =>
    if ∃ tx ∈ rendered, tx.txId = r.txId ∧ tx.Aged now then r.fail else r := by
  induction rendered generalizing transactions with
  | nil => simp [prune]
  | cons tx rest ih =>
    have hcons : prune now (tx :: rest) transactions
        = prune now rest (transactions.map fun r =>
            if tx.txId = r.txId ∧ tx.Aged now then r.fail else r) := by
      rw [prune, List.foldl_cons, prune]
      congr 1
      by_cases haged : tx.Aged now
      · rw [if_pos haged, reducer_fail]
        simp [haged, eq_comm]
      · simp [haged]
    rw [hcons, ih, List.map_map]
    apply List.map_congr_left
    intro r _
    by_cases hr : tx.txId = r.txId ∧ tx.Aged now
    · -- failing twice is failing once
      simp [hr, TrackedTransaction.fail]
    · simp [hr]

/-! ### What the steps of a cycle do -/

lemma step_timeOut (hstep : s.Step .timeOut t) :
    ∃ p tx, s.poll = some p ∧ tx ∈ p.todo.head? ∧ tx.Overdue p.now ∧
      t = { s with
        transactions := s.transactions.map fun r => if r.txId = tx.txId then r.fail else r
        poll := some p.rest } := by
  simp only [Tracker.Step, Tracker.step, Option.bind_eq_bind, Option.bind_eq_some_iff] at hstep
  obtain ⟨p, hp, tx, htx, hstep⟩ := hstep
  split_ifs at hstep with hoverdue
  cases hstep
  exact ⟨p, tx, hp, htx, hoverdue, rfl⟩

lemma step_answer (hstep : s.Step (.answer receipt) t) :
    ∃ p tx, s.poll = some p ∧ tx ∈ p.todo.head? ∧ ¬ tx.Overdue p.now ∧
      t = { s with
        transactions := if receipt then
            s.transactions.map fun r => if r.txId = tx.txId then r.confirm s.clock else r
          else s.transactions
        poll := some p.rest } := by
  simp only [Tracker.Step, Tracker.step, Option.bind_eq_bind, Option.bind_eq_some_iff] at hstep
  obtain ⟨p, hp, tx, htx, hstep⟩ := hstep
  split_ifs at hstep with hoverdue hreceipt
  · cases hstep
    refine ⟨p, tx, hp, htx, hoverdue, ?_⟩
    rw [if_pos hreceipt, reducer_confirm]
  · cases hstep
    refine ⟨p, tx, hp, htx, hoverdue, ?_⟩
    rw [if_neg hreceipt]

lemma step_prune (hstep : s.Step .prune t) :
    ∃ p, s.poll = some p ∧
      t = { s with
        transactions := s.transactions.map fun r =>
          if ∃ tx ∈ s.rendered, tx.txId = r.txId ∧ tx.Aged p.now then r.fail else r
        poll := none } := by
  simp only [Tracker.Step, Tracker.step, Option.bind_eq_bind, Option.bind_eq_some_iff] at hstep
  obtain ⟨p, hp, hstep⟩ := hstep
  split_ifs at hstep
  cases hstep
  refine ⟨p, hp, ?_⟩
  rw [prune_eq_map]

/-! ### Where the records of the list come from -/

/-- The cycle sees the transaction confirmed for more than a day. -/
def Tracker.Aged (s : Tracker) (txId : String) : Prop :=
  ∃ p tx, s.poll = some p ∧ tx ∈ s.rendered ∧ tx.txId = txId ∧ tx.Aged p.now

/-- The transaction is recorded as confirmed, the last render shows it so, and the cycle under way
does not hold an earlier reading of it. -/
structure Settled (txId : String) (s : Tracker) : Prop where
  stored : ∀ r ∈ s.transactions, r.txId = txId → r.status = .confirmed
  rendered : ∀ r ∈ s.rendered, r.txId = txId → r.status = .confirmed
  polled : ∀ p ∈ s.poll, ∀ r ∈ p.todo, r.txId ≠ txId

/-- The event does not record the transaction anew with another status, and is not the end of a
cycle that sees it confirmed for more than a day. -/
def Undisturbed (txId : String) (s : Tracker) (e : TrackerEvent) (_ : Tracker) : Prop :=
  match e with
  | .addTransaction tx => tx.txId = txId → tx.status = .confirmed
  | .load loaded => ∀ r ∈ loaded, r.txId = txId → r.status = .confirmed
  | .prune => ¬ s.Aged txId
  | _ => True

/-- Records of other transactions change, those of a settled one do not. -/
lemma Settled.stored_map (hsettled : Settled txId s)
    {f : TrackedTransaction → TrackedTransaction} (hf : ∀ r, (f r).txId = r.txId)
    (hother : ∀ r, r.txId = txId → f r = r) :
    ∀ r ∈ s.transactions.map f, r.txId = txId → r.status = .confirmed := by
  intro r hr hid
  obtain ⟨q, hq, rfl⟩ := List.mem_map.mp hr
  rw [hf] at hid
  rw [hother q hid]
  exact hsettled.stored q hq hid

lemma Settled.rest (hsettled : Settled txId s) {p : Poll} (hp : s.poll = some p) :
    ∀ q ∈ some p.rest, ∀ r ∈ q.todo, r.txId ≠ txId := by
  intro q hq r hr
  cases hq
  exact hsettled.polled p hp r (List.mem_of_mem_tail hr)

lemma Settled.step (hsettled : Settled txId s) (hstep : s.Step e t)
    (hundisturbed : Undisturbed txId s e t) : Settled txId t := by
  cases e with
  | wait ms =>
    cases hstep
    exact ⟨hsettled.stored, hsettled.rendered, hsettled.polled⟩
  | addTransaction tx =>
    cases hstep
    refine ⟨?_, hsettled.rendered, hsettled.polled⟩
    intro r hr hid
    rcases List.mem_cons.mp (List.mem_of_mem_take hr) with rfl | hr
    · exact hundisturbed hid
    · exact hsettled.stored r hr hid
  | removeTx removed =>
    cases hstep
    refine ⟨?_, hsettled.rendered, hsettled.polled⟩
    intro r hr
    exact hsettled.stored r (List.mem_filter.mp hr).1
  | load loaded =>
    cases hstep
    exact ⟨hundisturbed, hsettled.rendered, hsettled.polled⟩
  | clearOld =>
    cases hstep
    refine ⟨?_, hsettled.rendered, hsettled.polled⟩
    intro r hr
    exact hsettled.stored r (List.mem_filter.mp hr).1
  | render =>
    cases hstep
    exact ⟨hsettled.stored, hsettled.stored, hsettled.polled⟩
  | poll =>
    rw [Tracker.Step, Tracker.step] at hstep
    split_ifs at hstep
    · cases hstep
      exact hsettled
    · cases hstep
      refine ⟨hsettled.stored, hsettled.rendered, ?_⟩
      intro p hp r hr hid
      cases hp
      -- a new cycle takes only what the last render shows as pending
      have hrendered := (List.mem_filter.mp (List.mem_of_mem_take hr)).1
      have hconfirmed := hsettled.rendered r hrendered hid
      have hpending := (Poll.begin s.clock s.rendered).todo_pending r hr
      rw [TrackedTransaction.Pending, hconfirmed] at hpending
      rcases hpending with h | h <;> cases h
  | timeOut =>
    obtain ⟨p, tx, hp, hhead, -, rfl⟩ := step_timeOut hstep
    have hne := hsettled.polled p hp tx (List.mem_of_mem_head? hhead)
    refine ⟨hsettled.stored_map ?_ ?_, hsettled.rendered, hsettled.rest hp⟩
    · intro r
      split_ifs <;> rfl
    · intro r hid
      exact if_neg fun heq => hne (heq.symm.trans hid)
  | answer receipt =>
    obtain ⟨p, tx, hp, hhead, -, rfl⟩ := step_answer hstep
    have hne := hsettled.polled p hp tx (List.mem_of_mem_head? hhead)
    cases receipt with
    | false => exact ⟨hsettled.stored, hsettled.rendered, hsettled.rest hp⟩
    | true =>
      refine ⟨hsettled.stored_map ?_ ?_, hsettled.rendered, hsettled.rest hp⟩
      · intro r
        split_ifs <;> rfl
      · intro r hid
        exact if_neg fun heq => hne (heq.symm.trans hid)
  | prune =>
    obtain ⟨p, hp, rfl⟩ := step_prune hstep
    refine ⟨hsettled.stored_map ?_ ?_, hsettled.rendered, ?_⟩
    · intro r
      split_ifs <;> rfl
    · intro r hid
      apply if_neg
      rintro ⟨tx, htx, htxId, haged⟩
      exact hundisturbed ⟨p, tx, hp, htx, htxId.trans hid, haged⟩
    · intro q hq
      cases hq

variable {s₀ : Tracker} {h h' : Lts.History Tracker TrackerEvent}

lemma Settled.run (hsettled : Settled txId s) (hrun : Lts.Run Tracker.Step s h t)
    (hundisturbed : Lts.Along (Undisturbed txId) s h) : Settled txId t := by
  induction hrun with
  | nil => exact hsettled
  | cons hrun hlast ih =>
    obtain ⟨hbefore, hnow⟩ := hundisturbed
    rw [hrun.last_eq] at hnow
    exact (ih hbefore).step hlast hnow

/-- What is found in a list has the status of one of its records. -/
lemma recorded_eq_some {status : TxStatus} (hrec : recorded s.records txId = some status) :
    ∃ r ∈ s.transactions, r.txId = txId ∧ r.status = status := by
  obtain ⟨rec, hfind, rfl⟩ := Option.map_eq_some_iff.mp hrec
  obtain ⟨r, hr, rfl⟩ := List.mem_map.mp (List.mem_of_find?_eq_some hfind)
  have hid := List.find?_some hfind
  exact ⟨r, hr, of_decide_eq_true hid, rfl⟩

/-- A settled transaction that is in the list is found confirmed. -/
lemma Settled.recorded (hsettled : Settled txId s) (hmem : ∃ r ∈ s.transactions, r.txId = txId) :
    recorded s.records txId = some .confirmed := by
  obtain ⟨r, hr, hid⟩ := hmem
  have hfound : (Frontend.recorded s.records txId).isSome = true := by
    rw [Frontend.recorded, Option.isSome_map, List.find?_isSome]
    exact ⟨r.toTxStatusRecord, List.mem_map_of_mem hr, decide_eq_true hid⟩
  obtain ⟨status, hstatus⟩ := Option.isSome_iff_exists.mp hfound
  obtain ⟨q, hq, hqid, rfl⟩ := recorded_eq_some hstatus
  rw [hstatus, hsettled.stored q hq hqid]

/-- It is confirmed as long as the transaction is in the list. -/
lemma Settled.confirmed (hsettled : Settled txId s) {flow : StoredFlow}
    (hdeciding : flow.deciding = some txId) (hmem : ∃ r ∈ s.transactions, r.txId = txId) :
    (deriveFlowStatus flow s.records).Confirmed := by
  rw [deriveFlowStatus_iff.1, hdeciding, Option.bind_some]
  exact hsettled.recorded hmem

namespace Tracker.Example

def broadcast (txId : String) : TrackedTransaction :=
  ⟨⟨txId, .broadcast⟩, .exercise, "pool", 0, none, none, none, "Exercise", none, none, []⟩

/-- A flow whose action is the first transaction. -/
def flow : StoredFlow :=
  ⟨"flow", .exercise, "pool", some "1", none, some "tx", 0, "Exercise", none, none⟩

def empty : Tracker := ⟨0, [], [], none⟩

def reached (events : List TrackerEvent) : Tracker :=
  (Lts.after Tracker.step empty events).getD empty

/-- A transaction that the first cycle finds confirmed. -/
def confirmed : List TrackerEvent :=
  [.addTransaction (broadcast "tx"), .render, .poll, .answer true, .render, .prune]

end Tracker.Example

end Frogop.Frontend
