import Frogop.Bridge.EscrowSpending
import Frogop.Pool.BtcUnderlying.Escrow

/-!
# Spending the collateral of a BTC CALL

What the hash stored for a CALL allows on Bitcoin. The script was built before there was a buyer, so
that the key of its first path is the placeholder for as long as the output exists.
-/

namespace Frogop.BtcUnderlying

open Bridge Script

section

variable {env : Env} {others : Ledger → Ledger → Prop} {w₀ w : State} {i : ℕ}
  {h : Lts.History State (Label Call)}

/-- The collateral of a CALL is spent with a signature under the placeholder key, or with one of the
writer under the key registered when the option was written and a lock time not before the end of
the grace period; in no other way, whatever was called since. -/
theorem escrow_spendable_iff (hslot : RegistryFaithful env) (hdep : Deployed w₀)
    (hrun : Lts.Run (Step env others (exec env)) w₀ h w) (hi : i < w.pool.nextId)
    (htype : (w.option i).optionType = .CALL) :
    ∃ writerPub, writerKey h i = some writerPub ∧
      ∀ (tx : Spend) (stack : List (List UInt8)) (script : List UInt8),
        NoCollision env script
          (escrowScript placeholderBuyer writerPub (w.pool.graceEnd (w.option i))) →
        (SpendsScriptHash env.sha256 (w.own.escrowHash i) tx (stack ++ [script]) ↔
          script = escrowScript placeholderBuyer writerPub (w.pool.graceEnd (w.option i)) ∧
            ∃ signature selector, stack = [signature, selector] ∧
              Opens tx placeholderBuyer writerPub (w.pool.graceEnd (w.option i)) signature
                selector) := by
  obtain ⟨writerPub, hkey, hlen, hhash⟩ := (escrowInv_of_run hslot hdep hrun).escrow i hi htype
  refine ⟨writerPub, hkey, fun tx stack script hcollision => ?_⟩
  rw [hhash]
  exact spendsScriptHash_escrow rfl hlen (u64Add_lt _ _) hcollision

end

namespace Testnet

/-- A transaction with lock time 1144 that carries one signature, of the writer. -/
def reclaim : Spend where
  lockTime := 1144
  sequence := 0
  checkSig pubkey signature := decide (pubkey = writerPub ∧ signature = [0x30])

end Testnet

/-- The writer takes the collateral of an option that expired at 1000, with 144 blocks of grace. -/
theorem escrow_spendable_reclaimed :
    SpendsScriptHash Testnet.env.sha256
      ((Testnet.exercised placeholderBuyer).own.escrowHash 0) Testnet.reclaim
      [[0x30], [], escrowScript placeholderBuyer Testnet.writerPub 1144] := by
  have hrun := Frogop.Testnet.run_after (Ledger.FixedAt Testnet.env.contractAddress)
    (Testnet.exercising_fromAccount placeholderBuyer)
    (by rfl : (replay (exec Testnet.env) Testnet.world _).isOk = true)
  obtain ⟨writerPub, hkey, hall⟩ := escrow_spendable_iff
    (fun _ hlen => List.take_of_length_le hlen.le) Testnet.deployed hrun
    (by decide : 0 < (Testnet.exercised placeholderBuyer).pool.nextId) rfl
  obtain rfl : Testnet.writerPub = writerPub := Option.some.inj hkey
  refine (hall Testnet.reclaim [[0x30], []] _ fun _ => rfl).mpr ⟨rfl, [0x30], [], rfl, ?_⟩
  exact ⟨by decide, by decide, .inr ⟨rfl, by decide, by decide, by decide, by decide⟩⟩

end Frogop.BtcUnderlying
