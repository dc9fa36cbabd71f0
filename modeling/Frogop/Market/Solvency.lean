import Frogop.Market.Basic

/-!
# The solvency of a market

Pools of a market may share tokens and fee recipients, and anybody may call any of them in any
order. Each still holds the collateral of its own live options.
-/

namespace Frogop.Market

variable {ι : Type} [DecidableEq ι] {m : Market ι} {s₀ s s' : m.State}
  {h : Lts.History m.State m.Label}

/-- Another pool than the one called has its storage, its events and at least its tokens. -/
structure Isolated (m : Market ι) (s s' : m.State) (n : ι) : Prop where
  pool : s'.pool n = s.pool n
  own : s'.own n = s.own n
  events : s'.events n = s.events n
  grows : s.ledger.GrowsAt (m.address n) s'.ledger

lemma isolated_of_call {k n : ι} {tx : Tx} {c : (m.poolType k).Call} {r : Response}
    (hdep : m.Deployed s₀) (hrun : Lts.Run m.Step s₀ h s) (hstep : m.Step s (.call k tx c r) s')
    (hne : n ≠ k) : m.Isolated s s' n := by
  cases hstep with
  | call htx hexec =>
    refine ⟨?_, ?_, ?_, growsAt_of_call (hdep k) (runs_at hdep hrun k) htx hexec hne⟩
    · exact Function.update_of_ne hne _ _
    · exact Function.update_of_ne hne _ _
    · exact Function.update_of_ne hne _ _

/-- In every state of every run each pool holds what it owes for its own live options, token by
token, and a call of one pool takes nothing from the others. -/
theorem solvent (hdep : m.Deployed s₀) (hrun : Lts.Run m.Step s₀ h s) :
    (∀ n token, debt (m.poolType n).isLive (s.pool n) token
      ≤ s.ledger.balanceOf token (m.address n)) ∧
    ∀ k n tx c r s', m.Step s (.call k tx c r) s' → n ≠ k → m.Isolated s s' n := by
  refine ⟨fun n token => ?_, fun k n tx c r s' hstep hne => isolated_of_call hdep hrun hstep hne⟩
  exact PoolType.covered_of_run (hdep n) (runs_at hdep hrun n) token

/-! ### A market to evaluate calls on -/

/-- A call of one of the pools. -/
abbrev PoolCall (m : Market ι) := (n : ι) × Tx × (m.poolType n).Call

/-- The market after a call. -/
def callPool (s : m.State) (p : m.PoolCall) : Except Revert m.State := do
  let (_, w) ← (m.poolType p.1).exec (m.env p.1) p.2.1 p.2.2 (s.world p.1)
  return s.set p.1 w

/-- The history of calls made one after the other. -/
def replayed (s : m.State) : List m.PoolCall → Lts.History m.State m.Label
  | [] => []
  | p :: calls =>
    match (m.poolType p.1).exec (m.env p.1) p.2.1 p.2.2 (s.world p.1) with
    | .ok (r, w) => replayed (s.set p.1 w) calls ++ [(.call p.1 p.2.1 p.2.2 r, s.set p.1 w)]
    | .error _ => []

lemma mem_replayed {calls : List m.PoolCall} {q : m.Label × m.State} (hq : q ∈ replayed s calls) :
    ∃ p ∈ calls, ∃ r, q.1 = .call p.1 p.2.1 p.2.2 r := by
  induction calls generalizing s with
  | nil => cases hq
  | cons p calls ih =>
    rw [replayed] at hq
    split at hq
    · rcases List.mem_append.mp hq with hq | hq
      · obtain ⟨p', hp', hrest⟩ := ih hq
        exact ⟨p', List.mem_cons_of_mem _ hp', hrest⟩
      · rw [List.mem_singleton] at hq
        exact ⟨p, List.mem_cons_self, _, congrArg Prod.fst hq⟩
    · cases hq

/-- Calls that go through make a run. -/
lemma run_replayed {calls : List m.PoolCall} (htx : ∀ p ∈ calls, m.FromAccount p.2.1)
    (hgo : calls.foldlM callPool s = .ok s') : Lts.Run m.Step s (replayed s calls) s' := by
  induction calls generalizing s with
  | nil =>
    cases hgo
    exact .nil
  | cons p calls ih =>
    simp only [List.foldlM_cons, callPool, Outcome.bind_eq_ok, Outcome.pure_eq, Except.ok.injEq,
      Prod.exists] at hgo
    obtain ⟨t, ⟨r, w, hexec, rfl⟩, hrest⟩ := hgo
    have hrun := ih (fun q hq => htx q (List.mem_cons_of_mem _ hq)) hrest
    rw [replayed, hexec]
    exact (Lts.Run.nil.cons (.call (htx p List.mem_cons_self) hexec)).trans hrun

namespace Testnet

open Frogop.Testnet (account tx)

/-- One pool of each kind, at the addresses 1, 21 and 22. -/
def market : Market PoolType where
  chain := BtcQuote.Testnet.env
  poolType := id
  address
    | .op20 => account 1
    | .btcQuote => account 21
    | .btcUnderlying => account 22
  apart := by
    intro k l h
    cases k <;> cases l <;> first | rfl | exact absurd h (by decide)

/-- All three are for the same pair of tokens. -/
def start : market.State where
  pool _ := Frogop.Testnet.pool
  own
    | .op20 => ()
    | .btcQuote => BtcQuote.Testnet.world.own
    | .btcUnderlying => BtcUnderlying.Testnet.world.own
  events _ := []
  ledger := {
    balanceOf _ a := if a ∈ [account 1, account 21, account 22] then 0
      else 2 ^ 200
    allowance _ _ _ := 2 ^ 200
    refuses _ _ _ := false }
  bridge _ := Bytes32.zero

lemma start_deployed : market.Deployed start := by
  intro k
  cases k with
  | op20 => exact ⟨⟨account 2, account 3, account 4, 144, rfl⟩, rfl⟩
  | btcQuote => exact ⟨⟨account 2, account 3, account 4, 144, account 5, rfl⟩, rfl⟩
  | btcUnderlying => exact ⟨⟨account 2, account 3, account 4, 144, account 5, rfl⟩, rfl⟩

/-- Account 10 writes a CALL on four units in the type-0 pool and one on five in the type-1 pool,
and a PUT for six in the type-2 pool. -/
def writing : List market.PoolCall :=
  [⟨.op20, tx 10 100, .writeOption 0 (10 ^ 18) 1000 4 100⟩,
    ⟨.btcQuote, tx 10 100, .registerBtcPubkey BtcQuote.Testnet.pubkey⟩,
    ⟨.btcQuote, tx 10 100, .writeOption 0 (10 ^ 18) 1000 5 100⟩,
    ⟨.btcUnderlying, tx 10 100, .writeOptionBtc 1 (10 ^ 18) 1000 6 100⟩]

def written : market.State :=
  match writing.foldlM callPool start with
  | .ok s => s
  | .error _ => start

lemma run_written : Lts.Run market.Step start (replayed start writing) written := by
  apply run_replayed _ rfl
  simp only [writing, List.forall_mem_cons, List.not_mem_nil, false_imp_iff, implies_true, and_true]
  refine ⟨?_, ?_, ?_, ?_⟩
  all_goals exact ⟨fun k => by cases k <;> decide, by decide⟩

end Testnet

theorem solvent_written :
    (∀ k token, debt k.isLive (Testnet.written.pool k) token
      ≤ Testnet.written.ledger.balanceOf token (Testnet.market.address k)) ∧
    debt PoolType.op20.isLive (Testnet.written.pool .op20) (Frogop.Testnet.account 2) = 4 ∧
    debt PoolType.btcQuote.isLive (Testnet.written.pool .btcQuote) (Frogop.Testnet.account 2) = 5 ∧
    debt PoolType.btcUnderlying.isLive (Testnet.written.pool .btcUnderlying)
      (Frogop.Testnet.account 3) = 6 :=
  ⟨(solvent Testnet.start_deployed Testnet.run_written).1, rfl, rfl, rfl⟩

end Frogop.Market
