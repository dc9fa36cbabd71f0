import Frogop.Lib.Run
import Frogop.Pool.Base
import Mathlib.Data.Finset.Card

/-!
# Runs of a pool

A pool moves by calls, each made by an account in a transaction. A call that reverts leaves the
world as it was. Between two calls other transactions may rewrite the bridge storage and move
tokens as `others` allows.
-/

namespace Frogop

variable {σ C : Type}

/-- The sender is an account: not the pool, whose only calls go to tokens and the bridge, and not
the zero address. -/
structure Tx.FromAccount (env : Env) (tx : Tx) : Prop where
  ne_pool : tx.sender ≠ env.contractAddress
  ne_zero : tx.sender ≠ Address.zero

instance (env : Env) (tx : Tx) : Decidable (tx.FromAccount env) :=
  decidable_of_iff (tx.sender ≠ env.contractAddress ∧ tx.sender ≠ Address.zero)
    ⟨fun h => ⟨h.1, h.2⟩, fun h => ⟨h.1, h.2⟩⟩

/-- There is an account apart from any three. -/
lemma exists_account (a b c : Address) : ∃ d : Address, d ≠ a ∧ d ≠ b ∧ d ≠ c := by
  have hcard : ({a, b, c} : Finset Address).card
      < ({Bytes32.ofNat 0, Bytes32.ofNat 1, Bytes32.ofNat 2, Bytes32.ofNat 3} :
        Finset Address).card :=
    Finset.card_le_three.trans_lt (by decide)
  obtain ⟨d, -, hd⟩ := Finset.exists_mem_notMem_of_card_lt_card hcard
  simp only [Finset.mem_insert, Finset.mem_singleton, not_or] at hd
  exact ⟨d, hd⟩

inductive Label (C : Type)
  | call (tx : Tx) (c : C) (r : Response)
  | reverted (tx : Tx) (c : C) (e : Revert)
  | elsewhere

/-- The transaction of a step, if it has one, is in a block before `n`. -/
def Label.Before (n : ℕ) : Label C → Prop
  | .call tx _ _ => tx.block < n
  | .reverted tx _ _ => tx.block < n
  | .elsewhere => True

instance (n : ℕ) : (l : Label C) → Decidable (l.Before n)
  | .call tx _ _ => inferInstanceAs (Decidable (tx.block < n))
  | .reverted tx _ _ => inferInstanceAs (Decidable (tx.block < n))
  | .elsewhere => .isTrue trivial

inductive Step (env : Env) (others : Ledger → Ledger → Prop)
    (exec : Tx → C → World σ → Except Revert (Reply σ)) :
    World σ → Label C → World σ → Prop
  | call {tx : Tx} {c : C} {w w' : World σ} {r : Response} (htx : tx.FromAccount env)
      (h : exec tx c w = .ok (r, w')) : Step env others exec w (.call tx c r) w'
  | reverted {tx : Tx} {c : C} {w : World σ} {e : Revert} (htx : tx.FromAccount env)
      (h : exec tx c w = .error e) : Step env others exec w (.reverted tx c e) w
  | elsewhere {w : World σ} {ledger : Ledger} (bridge : BridgeStorage)
      (h : others w.ledger ledger) :
      Step env others exec w .elsewhere { w with ledger := ledger, bridge := bridge }

/-- Nobody else moves the pool's tokens: its balances can only grow. -/
def Ledger.GrowsAt (self : Address) (l l' : Ledger) : Prop :=
  ∀ token, l.balanceOf token self ≤ l'.balanceOf token self

/-- No direct transfers into or out of an account. -/
def Ledger.FixedAt (self : Address) (l l' : Ledger) : Prop :=
  ∀ token, l'.balanceOf token self = l.balanceOf token self

/-- A freshly deployed pool; the storage of its own type is left open. -/
structure Deployed (w : World σ) : Prop where
  pool : ∃ underlying premiumToken feeRecipient gracePeriod,
    onDeployment underlying premiumToken feeRecipient gracePeriod = .ok w.pool
  events : w.events = []

/-- The calls of `txs` made one after the other. -/
def replay (exec : Tx → C → World σ → Except Revert (Reply σ)) (w : World σ)
    (txs : List (Tx × C)) : Except Revert (World σ) :=
  txs.foldlM (fun w p => do
    let (_, w) ← exec p.1 p.2 w
    return w) w

/-- The history of a replay. -/
def replayed (exec : Tx → C → World σ → Except Revert (Reply σ)) (w : World σ) :
    List (Tx × C) → Lts.History (World σ) (Label C)
  | [] => []
  | p :: txs =>
    match exec p.1 p.2 w with
    | .ok (r, w') => replayed exec w' txs ++ [(.call p.1 p.2 r, w')]
    | .error _ => []

/-- A replay is a run. -/
lemma run_of_replay {env : Env} (others : Ledger → Ledger → Prop)
    {exec : Tx → C → World σ → Except Revert (Reply σ)} {w w' : World σ} :
    ∀ {txs : List (Tx × C)}, (∀ p ∈ txs, p.1.FromAccount env) → replay exec w txs = .ok w' →
      Lts.Run (Step env others exec) w (replayed exec w txs) w'
  | [], _, h => by
    cases h
    exact .nil
  | p :: txs, htx, h => by
    simp only [replay, List.foldlM_cons, Outcome.bind_eq_ok, Prod.exists, Outcome.pure_eq,
      Except.ok.injEq] at h
    obtain ⟨v, ⟨r, _, hexec, rfl⟩, hrest⟩ := h
    have hrun := run_of_replay others (fun q hq => htx q (List.mem_cons_of_mem _ hq)) hrest
    rw [replayed, hexec]
    exact (Lts.Run.nil.cons (.call (htx p List.mem_cons_self) hexec)).trans hrun

/-- What deployment fixes. -/
lemma Deployed.spec {w : World σ} (h : Deployed w) :
    w.pool.nextId = 0 ∧ w.pool.options = OptionStorage.empty ∧
      w.pool.feeRecipient ≠ Address.zero ∧ minGracePeriodBlocks ≤ w.pool.gracePeriod ∧
      w.pool.gracePeriod ≤ maxGracePeriodBlocks ∧ w.pool.pubkeys = fun _ => [] := by
  obtain ⟨underlying, premiumToken, feeRecipient, gracePeriod, hdeploy⟩ := h.pool
  simp only [onDeployment, Outcome.bind_eq_ok, Outcome.require_eq_ok, Outcome.pure_eq,
    Except.ok.injEq] at hdeploy
  obtain ⟨-, hfee, -, hmin, -, hmax, hpool⟩ := hdeploy
  rw [← hpool]
  exact ⟨rfl, rfl, hfee, hmin, hmax, rfl⟩

/-! ### A chain to evaluate calls on -/

namespace Testnet

/-- Accounts are numbered; the pool is number `1`. -/
def account (n : ℕ) : Address := Bytes32.ofNat n

/-- `BitcoinScript.csvTimelock` for up to 16 blocks:
`OP_n OP_CHECKSEQUENCEVERIFY OP_DROP <pubkey> OP_CHECKSIG`. -/
def csvTimelock (pubkey : List UInt8) (csvBlocks : ℕ) : List UInt8 :=
  [UInt8.ofNat (0x50 + csvBlocks), 0xb2, 0x75, UInt8.ofNat pubkey.length] ++ pubkey ++ [0xac]

def env (writers : WriterMode) (sha256 : List UInt8 → Bytes32) : Env where
  contractAddress := account 1
  writers := writers
  sha256 := sha256
  csvTimelock := csvTimelock
  slot := fun bytes => bytes
  priceCachePointer := 2
  consumedOutputsPointer := 3

/-- Everyone but the pool holds tokens and lets the pool spend them. -/
def ledger : Ledger where
  balanceOf _ a := if a = account 1 then 0 else 2 ^ 200
  allowance _ _ _ := 2 ^ 200
  refuses _ _ _ := false

def pool : PoolStorage where
  underlying := account 2
  premiumToken := account 3
  feeRecipient := account 4
  gracePeriod := 144
  nextId := 0
  options := OptionStorage.empty
  pubkeys := fun _ => []

/-- The pool as deployed. -/
def world (own : σ) : World σ where
  pool := pool
  own := own
  ledger := ledger
  bridge := fun _ => Bytes32.zero
  events := []

/-- A transaction of an account at a block, without outputs. -/
def tx (sender block : ℕ) : Tx where
  sender := account sender
  block := block
  outputs := []
  getQuote := fun _ _ => none

/-- The world after a call. -/
def next (exec : Tx → C → World σ → Except Revert (Reply σ)) (w : World σ) (tx : Tx) (c : C) :
    World σ :=
  match exec tx c w with
  | .ok (_, w) => w
  | .error _ => w

lemma exec_next {exec : Tx → C → World σ → Except Revert (Reply σ)} {w : World σ} {tx : Tx} {c : C}
    {r : Response} (h : (exec tx c w).map Prod.fst = .ok r) :
    exec tx c w = .ok (r, next exec w tx c) := by
  rw [next]
  cases hexec : exec tx c w with
  | error e =>
    rw [hexec] at h
    cases h
  | ok reply =>
    rw [hexec] at h
    cases h
    rfl

/-- The world after a list of calls. -/
def after (exec : Tx → C → World σ → Except Revert (Reply σ)) (w : World σ)
    (txs : List (Tx × C)) : World σ :=
  match replay exec w txs with
  | .ok w => w
  | .error _ => w

/-- Calls that go through make a run. -/
lemma run_after {env : Env} (others : Ledger → Ledger → Prop)
    {exec : Tx → C → World σ → Except Revert (Reply σ)} {w : World σ} {txs : List (Tx × C)}
    (htx : ∀ p ∈ txs, p.1.FromAccount env) (hgo : (replay exec w txs).isOk = true) :
    Lts.Run (Step env others exec) w (replayed exec w txs) (after exec w txs) := by
  apply run_of_replay others htx
  rw [after]
  cases hreplay : replay exec w txs with
  | error e =>
    rw [hreplay] at hgo
    cases hgo
  | ok w' => rfl

lemma deployed (own : σ) : Deployed (world own) :=
  ⟨⟨account 2, account 3, account 4, 144, rfl⟩, rfl⟩

end Testnet

end Frogop
