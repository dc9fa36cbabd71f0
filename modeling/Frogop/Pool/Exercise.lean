import Frogop.Pool.Accounts
import Frogop.Pool.OptionsPool.Basic

/-!
# Exercising where bitcoin changes hands

A sold option is worth something to its buyer when, in every block of its grace period, the payment
alone decides whether the exercise goes through. The two pools that settle in bitcoin differ in the
exchange and in what is paid.
-/

namespace Frogop

open Outcome World

/-- A failure of the payment: the bitcoin is not there, or a token call failed. -/
def PaymentError (notFound : String) (e : Revert) : Prop :=
  e = .revert notFound ∨ ∃ message cause, e = .token message cause

variable {σ : Type}

/-- The buyer of the option can exercise it at every block of the grace period: nothing but the
payment can fail, and with the payment the call goes through. -/
structure Exercisable (exercise : Tx → ℕ → World σ → Except Revert (Reply σ)) (notFound : String)
    (canPay : Tx → OptionRecord → Prop) (env : Env) (w : World σ) (i : ℕ) : Prop where
  fails : ∀ tx, tx.FromAccount env → tx.sender = (w.option i).buyer →
    (w.option i).expiryBlock ≤ tx.block →
    tx.block < (w.option i).expiryBlock + w.pool.gracePeriod →
    FailsOnly (PaymentError notFound) (exercise tx i w)
  succeeds : ∀ tx, tx.FromAccount env → tx.sender = (w.option i).buyer →
    (w.option i).expiryBlock ≤ tx.block →
    tx.block < (w.option i).expiryBlock + w.pool.gracePeriod →
    canPay tx (w.option i) → ∃ r w', exercise tx i w = .ok (r, w')

section

variable {exercise : Tx → ℕ → World σ → Except Revert (Reply σ)} {notFound : String}
  {canPay : Tx → OptionRecord → Prop} {env : Env} {w : World σ} {i value : ℕ}

/-- Its first block is the expiry. -/
lemma Exercisable.at_expiry (h : Exercisable exercise notFound canPay env w i)
    (hpool : (w.option i).buyer ≠ env.contractAddress) (hzero : (w.option i).buyer ≠ Address.zero)
    (hgrace : 0 < w.pool.gracePeriod) :
    ∃ tx : Tx, tx.sender = (w.option i).buyer ∧ tx.block = (w.option i).expiryBlock ∧
      FailsOnly (PaymentError notFound) (exercise tx i w) :=
  ⟨⟨(w.option i).buyer, (w.option i).expiryBlock, [], fun _ _ => none⟩, rfl, rfl,
    h.fails _ ⟨hpool, hzero⟩ rfl le_rfl (Nat.lt_add_of_pos_right hgrace)⟩

/-- What an exercise does after its guards. -/
def afterExchange (env : Env) (o : OptionRecord) (value : ℕ) (paid : ℕ × World σ) :
    Except Revert (Reply σ) := do
  let w ← paid.2.emit env .optionExercised 193 (OptionsPool.exercisedFields o value paid.1)
  w.respond env 1 [.boolean true]

/-- An exercise whose guards let it through fails and succeeds as its exchange does. -/
lemma exercisable_of_exchange {exchange : Tx → Except Revert (ℕ × World σ)}
    (hgrow : env.writers = .growing)
    (hend : w.pool.graceEnd (w.option i) = (w.option i).expiryBlock + w.pool.gracePeriod)
    (heq : ∀ tx, tx.sender = (w.option i).buyer → (w.option i).expiryBlock ≤ tx.block →
      tx.block < w.pool.graceEnd (w.option i) →
      exercise tx i w = exchange tx >>= afterExchange env (w.option i) value)
    (hfails : ∀ tx, FailsOnly (PaymentError notFound) (exchange tx))
    (hsucceeds : ∀ tx, tx.FromAccount env → canPay tx (w.option i) →
      ∃ paid, exchange tx = .ok paid) : Exercisable exercise notFound canPay env w i := by
  constructor
  · intro tx htx hbuyer hexpiry hgrace
    rw [heq tx hbuyer hexpiry (hend ▸ hgrace)]
    refine .seq (hfails tx) fun paid _ => ?_
    simp [afterExchange, hgrow]
  · intro tx htx hbuyer hexpiry hgrace hcan
    obtain ⟨paid, hpaid⟩ := hsucceeds tx htx hcan
    rw [heq tx hbuyer hexpiry (hend ▸ hgrace), hpaid, ok_bind]
    simp only [afterExchange, bind_eq_ok, emit_eq_ok, respond_eq_ok]
    exact ⟨_, _, _, ⟨.inl hgrow, rfl⟩, .inl hgrow, rfl⟩

end

end Frogop
