import Frogop.Market.Kinds

/-!
# A market of pools

Any number of pools of the three kinds on one chain. They share the token ledgers and the storage of
the bridge, and their calls come in any order, between calls to the bridge and transfers of others.
-/

namespace Frogop

/-- The pools of a chain, and the contracts they are deployed as. -/
structure Market (ι : Type) where
  /-- What all of the contracts see of the chain. -/
  chain : Env
  poolType : ι → PoolType
  address : ι → Address
  apart : Function.Injective address

namespace Market

variable {ι : Type}

/-- The surroundings of one pool. -/
def env (m : Market ι) (n : ι) : Env := { m.chain with contractAddress := m.address n }

structure State (m : Market ι) where
  pool : ι → PoolStorage
  own : (n : ι) → (m.poolType n).Own
  events : ι → List Event
  ledger : Ledger
  bridge : BridgeStorage

inductive BridgeCall
  | getBtcPrice (calldata : List UInt8)
  | verifyBtcOutput (calldata : List UInt8)

/-- The storage of the bridge after a call made to it directly. -/
def BridgeCall.exec (env : Env) (tx : Tx) (s : BridgeStorage) :
    BridgeCall → Except Revert BridgeStorage
  | .getBtcPrice calldata => do
    let (_, s) ← Bridge.getBtcPrice env tx calldata s
    return s
  | .verifyBtcOutput calldata => do
    let (_, s) ← Bridge.verifyBtcOutput env tx.outputs calldata s
    return s

inductive Label (m : Market ι)
  | call (n : ι) (tx : Tx) (c : (m.poolType n).Call) (r : Response)
  | reverted (n : ι) (tx : Tx) (c : (m.poolType n).Call) (e : Revert)
  | bridge (tx : Tx) (c : BridgeCall)
  | tokens

/-- The sender is an account, which no pool is. -/
structure FromAccount (m : Market ι) (tx : Tx) : Prop where
  ne_pool : ∀ n, tx.sender ≠ m.address n
  ne_zero : tx.sender ≠ Address.zero

lemma FromAccount.at {m : Market ι} {tx : Tx} (htx : m.FromAccount tx) (n : ι) :
    tx.FromAccount (m.env n) :=
  ⟨htx.ne_pool n, htx.ne_zero⟩

section

variable [DecidableEq ι] {m : Market ι} {s s' : m.State} {n k : ι} {tx : Tx}

/-- What one pool sees. -/
def State.world (s : m.State) (n : ι) : World (m.poolType n).Own where
  pool := s.pool n
  own := s.own n
  ledger := s.ledger
  bridge := s.bridge
  events := s.events n

/-- What a pool leaves behind. -/
def State.set (s : m.State) (n : ι) (w : World (m.poolType n).Own) : m.State where
  pool := Function.update s.pool n w.pool
  own := Function.update s.own n w.own
  events := Function.update s.events n w.events
  ledger := w.ledger
  bridge := w.bridge

/-- One transaction of the market; `tokens` are those that call none of its contracts, and nobody
but a pool can take the tokens of a pool. -/
inductive Step (m : Market ι) : m.State → m.Label → m.State → Prop
  | call {s : m.State} {n : ι} {tx : Tx} {c : (m.poolType n).Call} {r : Response}
      {w : World (m.poolType n).Own} (htx : m.FromAccount tx)
      (h : (m.poolType n).exec (m.env n) tx c (s.world n) = .ok (r, w)) :
      Step m s (.call n tx c r) (s.set n w)
  | reverted {s : m.State} {n : ι} {tx : Tx} {c : (m.poolType n).Call} {e : Revert}
      (htx : m.FromAccount tx)
      (h : (m.poolType n).exec (m.env n) tx c (s.world n) = .error e) :
      Step m s (.reverted n tx c e) s
  | bridge {s : m.State} {tx : Tx} {c : BridgeCall} {bridge : BridgeStorage}
      (h : c.exec m.chain tx s.bridge = .ok bridge) :
      Step m s (.bridge tx c) { s with bridge := bridge }
  | tokens {s : m.State} {ledger : Ledger} (h : ∀ n, s.ledger.GrowsAt (m.address n) ledger) :
      Step m s .tokens { s with ledger := ledger }

/-- All of the pools are as they were deployed. -/
def Deployed (m : Market ι) (s : m.State) : Prop := ∀ n, (m.poolType n).Deployed (s.world n)

/-! ### What one pool sees -/

/-- A transaction as one pool sees it: a call of its own, or something elsewhere. -/
def Label.at (n : ι) : m.Label → Frogop.Label (m.poolType n).Call
  | .call q tx c r => if h : q = n then .call tx (h ▸ c) r else .elsewhere
  | .reverted q tx c e => if h : q = n then .reverted tx (h ▸ c) e else .elsewhere
  | .bridge _ _ | .tokens => .elsewhere

abbrev StepAt (m : Market ι) (n : ι) :=
  Frogop.Step (m.env n) (Ledger.GrowsAt (m.env n).contractAddress)
    ((m.poolType n).exec (m.env n))

@[simp] lemma world_set_self {w : World (m.poolType n).Own} : (s.set n w).world n = w := by
  simp [State.world, State.set]

lemma world_set_of_ne {w : World (m.poolType k).Own} (h : n ≠ k) :
    (s.set k w).world n = { s.world n with ledger := w.ledger, bridge := w.bridge } := by
  simp [State.world, State.set, h]

omit [DecidableEq ι] in
/-- A call of one pool leaves the tokens of another alone. -/
lemma growsAt_of_call {c : (m.poolType k).Call} {r : Response} {w₀ w w' : World (m.poolType k).Own}
    {h : Lts.History (World (m.poolType k).Own) (Frogop.Label (m.poolType k).Call)}
    (hdep : (m.poolType k).Deployed w₀) (hrun : Lts.Run (m.StepAt k) w₀ h w)
    (htx : m.FromAccount tx) (hexec : (m.poolType k).exec (m.env k) tx c w = .ok (r, w'))
    (hne : n ≠ k) : w.ledger.GrowsAt (m.address n) w'.ledger := by
  apply (PoolType.pays_of_run hdep hrun (htx.at k) hexec).growsAt
  intro p hp
  rcases PoolType.paidBy_payments c w p hp with hpool | hsender
  · rw [hpool]
    exact fun heq => hne (m.apart heq).symm
  · rw [hsender]
    exact htx.ne_pool n

/-- A step of the market is a step of each of its pools, when all of them have run so far. -/
lemma Step.at {s₀ s s' : m.State} {l : m.Label} {h : Lts.History m.State m.Label}
    (hdep : m.Deployed s₀)
    (hruns : ∀ k, Lts.Run (m.StepAt k) (s₀.world k)
      (Lts.mapHistory (fun s => s.world k) (Label.at k) h) (s.world k))
    (hstep : m.Step s l s') (n : ι) : m.StepAt n (s.world n) (l.at n) (s'.world n) := by
  cases hstep with
  | @call k tx c r w htx hexec =>
    by_cases hk : k = n
    · subst hk
      rw [world_set_self, Label.at, dif_pos rfl]
      exact .call (htx.at k) hexec
    · rw [world_set_of_ne (Ne.symm hk), Label.at, dif_neg hk]
      exact .elsewhere _ (growsAt_of_call (hdep k) (hruns k) htx hexec (Ne.symm hk))
  | @reverted k tx c e htx hexec =>
    by_cases hk : k = n
    · subst hk
      rw [Label.at, dif_pos rfl]
      exact .reverted (htx.at k) hexec
    · rw [Label.at, dif_neg hk]
      exact .elsewhere s.bridge fun _ => le_rfl
  | bridge h => exact .elsewhere _ fun _ => le_rfl
  | tokens h => exact .elsewhere s.bridge (h n)

/-- Every pool of a market runs by the rules of its own contract, whatever the others do. -/
lemma runs_at {s₀ s : m.State} {h : Lts.History m.State m.Label} (hdep : m.Deployed s₀)
    (hrun : Lts.Run m.Step s₀ h s) : ∀ n, Lts.Run (m.StepAt n) (s₀.world n)
      (Lts.mapHistory (fun s => s.world n) (Label.at n) h) (s.world n) :=
  hrun.parts fun _ _ _ _ hruns hstep => hstep.at hdep hruns

end

end Market

end Frogop
