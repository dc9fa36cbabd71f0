import Frogop.Indexer.Transfers
import Frogop.Market.Life
import Frogop.Market.Portfolio

/-!
# Titles that users are shown

The transfers of an option that the indexer answers with lead, block after block, from the account
that bought the option to the one that holds it.
-/

namespace Frogop

open Indexer Frontend

namespace OptionsPool

variable {h : Lts.History State (Label Call)} {i : ℕ}

/-- The account that bought an option called `buyOption`. -/
lemma exists_call_of_boughtBy {first : Address} (hfirst : boughtBy h i = some first) :
    ∃ tx r w, (.call tx (.buyOption i) r, w) ∈ h ∧ tx.sender = first := by
  induction h with
  | nil => exact absurd hfirst (Option.some_ne_none first).symm
  | cons p h ih =>
    have hrest : boughtBy h i = some first →
        ∃ tx r w, (.call tx (.buyOption i) r, w) ∈ p :: h ∧ tx.sender = first := by
      intro hfirst
      obtain ⟨tx, r, w, hmem, hsender⟩ := ih hfirst
      exact ⟨tx, r, w, List.mem_cons_of_mem _ hmem, hsender⟩
    unfold boughtBy at hfirst
    split at hfirst
    · cases hfirst
    · rename_i tx j r w h' heq
      obtain ⟨rfl, rfl⟩ := List.cons.inj heq
      split_ifs at hfirst with hj
      · subst hj
        exact ⟨tx, r, w, List.mem_cons_self, Option.some.inj hfirst⟩
      · exact hrest hfirst
    · rename_i p' h' _ heq
      obtain ⟨rfl, rfl⟩ := List.cons.inj heq
      exact hrest hfirst

end OptionsPool

/-- What the hands that an option went through tell: an option that was not sold went through none,
and one that was went from the account that bought it to the one that holds it. -/
inductive PoolType.Titled (k : PoolType) (h : Lts.History (World k.Own) (Label k.Call))
    (w : World k.Own) (i : ℕ) : Prop
  | unsold (hhands : handsOf i w.events = [])
      (hstatus : (w.option i).status = .OPEN ∨ (w.option i).status = .CANCELLED)
  | sold (tx : Tx) (c : k.Call) (r : Response) (v : World k.Own) (hmem : (.call tx c r, v) ∈ h)
      (hbuys : ∀ v, k.Does v c i .buy)
      (hhands : Passes tx.sender (handsOf i w.events) (w.option i).buyer)
      (hstatus : (w.option i).status ≠ .OPEN ∧ (w.option i).status ≠ .CANCELLED)

lemma PoolType.titled_of_run {k : PoolType} {env : Env} {others : Ledger → Ledger → Prop}
    {w₀ w : World k.Own} {h : Lts.History (World k.Own) (Label k.Call)} {i : ℕ} (hk : k = .op20)
    (hdep : k.Deployed w₀) (hrun : Lts.Run (Step env others (k.exec env)) w₀ h w)
    (hindexable : w.pool.Indexable) :
    Transfers w.events ∧ (i < w.pool.nextId → k.Titled h w i) := by
  subst hk
  have hinv := OptionsPool.titleInv_of_run hdep hrun
  refine ⟨fun e he hname => ?_, fun hi => ?_⟩
  · obtain ⟨j, giver, taker, hj, heq⟩ := hinv.events e he hname
    exact ⟨j, giver, taker, (hindexable j hj).id, heq⟩
  · cases hinv.titled i hi with
    | unsold _ hhands hstatus => exact .unsold hhands hstatus
    | sold first hbought hhands hstatus =>
      obtain ⟨tx, r, v, hmem, rfl⟩ := OptionsPool.exists_call_of_boughtBy hbought
      exact .sold tx (.buyOption i) r v hmem (fun _ => rfl) hhands hstatus

namespace Market

variable {ι : Type} [DecidableEq ι] {m : Market ι} {s s₀ : Site m}
  {h : Lts.History (Site m) SiteLabel} {n : ι} {i : ℕ}

/-- The hands that an option went through, as texts: from the account that bought it in the run `h`
to the one that holds it in the state `v`. -/
inductive Titled (m : Market ι) (n : ι) (i : ℕ) (v₀ : m.State) (h : Lts.History m.State m.Label)
    (v : m.State) (hands : List (String × String)) : Prop
  | unsold (hhands : hands = [])
      (hstatus : ((v.world n).option i).status = .OPEN ∨
        ((v.world n).option i).status = .CANCELLED)
  | sold (first : Address) (block : ℕ) (p : m.State × m.Label) (hmem : p ∈ Lts.taken v₀ h)
      (hbought : m.Seen n i ⟨.buy, first, block⟩ p)
      (hhands : Passes (hexString first.val) hands (hexString ((v.world n).option i).buyer.val))
      (hstatus : ((v.world n).option i).status ≠ .OPEN ∧
        ((v.world n).option i).status ≠ .CANCELLED)

omit [DecidableEq ι] in
lemma titled_of_pool [DecidableEq ι] {v₀ v : m.State} {h : Lts.History m.State m.Label}
    (ht : (m.poolType n).Titled (Lts.mapHistory (fun s => s.world n) (Label.at n) h) (v.world n)
      i) :
    m.Titled n i v₀ h v ((handsOf i (v.events n)).map handText) := by
  cases ht with
  | unsold hhands hstatus =>
    have hempty : handsOf i (v.events n) = [] := hhands
    refine .unsold ?_ hstatus
    rw [hempty]
    rfl
  | sold tx c r w hmem hbuys hhands hstatus =>
    obtain ⟨⟨l, u⟩, hmem, heq⟩ := List.mem_map.mp hmem
    obtain ⟨u', hmem⟩ := Lts.exists_mem_taken v₀ hmem
    obtain ⟨hl, -⟩ := Prod.mk.inj heq
    exact .sold tx.sender tx.block (u', l) hmem
      ⟨tx, c, r, Label.eq_call hl, hbuys _, rfl, rfl⟩ (hhands.map fun a => hexString a.val) hstatus

/-- The answer of the API about the transfers of an option is its chain of title as of the cursor,
block after block; within a block the order of the answer is left open. -/
theorem titles_shown (hstart : s₀.Start) (hempty : s₀.store.db.transfersOf (m.hex n) = [])
    (hrun : Lts.Run m.SiteStep s₀ h s)
    (hserves : Lts.Along (fun s l _ => SiteLabel.Serves n s l) s₀ h)
    (hkind : m.poolType n = .op20)
    (hindexable : ((s.stateAt s.store.db.getLastIndexedBlock).pool n).Indexable)
    (hi : i < ((s.stateAt s.store.db.getLastIndexedBlock).pool n).nextId) :
    ∃ title : List OptionTransferRow,
      (∀ h', Lts.Run m.Step s₀.genesis h' (s.stateAt s.store.db.getLastIndexedBlock) →
        m.Titled n i s₀.genesis h' (s.stateAt s.store.db.getLastIndexedBlock)
          (title.map OptionTransferRow.hand)) ∧
      (title.Pairwise fun a b => a.blockNumber ≤ b.blockNumber) ∧
      ∀ (order : BlockOrder) (params : SearchParams), ∃ rows : List OptionTransferRow,
        route (segments ("/pools/" ++ m.hex n ++ "/options/" ++ toString i ++ "/transfers")) params
            (s.api order) = some (.transfers rows) ∧
          rows.Perm title ∧ (rows.Pairwise fun a b => a.blockNumber ≤ b.blockNumber) ∧
          ((rows.map OptionTransferRow.blockNumber).Nodup → rows = title) := by
  obtain ⟨hinv, hf⟩ := followed_of_run hstart hrun hserves
  have hle := cursor_le_of_run hstart hrun
  obtain ⟨hs, hattempted, hsees⟩ := hf.taken
  have htransfers : ∀ h', Lts.Run m.Step s₀.genesis h' (s.stateAt s.store.db.getLastIndexedBlock) →
      Transfers ((s.stateAt s.store.db.getLastIndexedBlock).events n) ∧ _ :=
    fun h' hmarket => PoolType.titled_of_run (i := i) hkind (hstart.deployed n)
      (runs_at hstart.deployed hmarket n) hindexable
  obtain ⟨h₁, hmarket⟩ := hinv.runs _ hle
  obtain ⟨hpairwise, hhands⟩ := map_hand_attempted (i := i) hattempted hstart.cursor hempty
    (fun v hv => (hsees v hv).1) (hinv.reports _ hle n) (htransfers h₁ hmarket).1
  refine ⟨s.store.db.transfersOfOption (m.hex n) i, fun h' hmarket' => ?_, hpairwise,
    fun order params => ?_⟩
  · rw [hhands]
    exact titled_of_pool ((htransfers h' hmarket').2 hi)
  · obtain ⟨hperm, hsorted⟩ := @getTransfersByOption_perm (m.hex n) i (s.api order)
    exact ⟨_, route_transfers (pathText_hexString _) ((hindexable i hi).id), hperm, hsorted,
      eq_of_perm_of_sorted hperm hsorted hpairwise⟩

namespace Testnet

open Frogop.Testnet (account tx)

/-- Account 11 buys the option of the type-0 pool and passes it on to account 12. -/
def trading : List market.PoolCall :=
  [⟨.op20, tx 11 200, .buyOption 0⟩, ⟨.op20, tx 11 201, .transferOption 0 (account 12)⟩]

def traded : market.State :=
  match trading.foldlM callPool written with
  | .ok s => s
  | .error _ => written

lemma run_traded :
    Lts.Run market.Step start (replayed written trading ++ replayed start writing) traded := by
  refine run_written.trans (run_replayed ?_ rfl)
  simp only [trading, List.forall_mem_cons, List.not_mem_nil, false_imp_iff, implies_true, and_true]
  refine ⟨?_, ?_⟩
  all_goals exact ⟨fun k => by cases k <;> decide, by decide⟩

def rawTraded : Option (List RawTx) :=
  some ([PoolType.op20, .btcQuote, .btcUnderlying].map fun n =>
    rawTx (market.hex n) (traded.events n))

/-- All of it happens in one block. -/
def tradedSite : Site market := ⟨start, [⟨rawTraded, traded⟩], ⟨[], Database.empty⟩⟩

lemma tradedSite_mined : SiteStep market ⟨start, [], ⟨[], Database.empty⟩⟩ .mine tradedSite :=
  SiteStep.mine (s := ⟨start, [], ⟨[], Database.empty⟩⟩) run_traded fun n =>
    ⟨traded.events n, rfl, poolEvents_rawTx toLowerCase_hex hex_injective traded.events n⟩

def tradedCron : Cron := { cron with getBlock := fun k => .block (tradedSite.chain k) }

lemma tradedCron_unfailing : tradedSite.Unfailing .op20 tradedCron where
  tip tip h := (Except.ok.inj h).ge
  block k raw _ h := (BlockReply.block.inj h).symm
  gracePeriod n g h := (ViewReply.u64.inj h).symm
  tracks := ⟨fun _ _ => rfl, mem_resolvePoolAddresses.mpr
    ⟨_, Indexer.Testnet.mem_poolList, congrArg some (by decide)⟩⟩
  selects := rfl
  answered := ⟨144, rfl⟩
  current := rfl
  found _ _ := rfl
  commits := rfl

lemma cursor_traded : (tradedSite.after tradedCron).store.db.getLastIndexedBlock = 1 :=
  tradedCron_unfailing.cursor

lemma traded_indexable : (traded.pool .op20).Indexable := by
  intro i hi
  obtain rfl : i = 0 := Nat.lt_one_iff.mp hi
  exact ⟨by decide, by decide, by decide, by decide, by decide⟩

end Testnet

/-- The one transfer of the option leads to account 12. -/
theorem titles_shown_traded :
    ∃ rows, route (segments ("/pools/" ++ Testnet.market.hex .op20 ++ "/options/" ++ toString 0
        ++ "/transfers")) IndexerService.noParams
        ((Testnet.tradedSite.after Testnet.tradedCron).api .stable) = some (.transfers rows) ∧
      ∃ title first, rows.Perm title ∧ Passes (hexString first) (title.map OptionTransferRow.hand)
        (hexString (Frogop.Testnet.account 12).val) := by
  have hrun := (Lts.Run.nil.cons Testnet.tradedSite_mined).cons
    (.cron Testnet.tradedCron_unfailing.toAnswers)
  have hserves : SiteLabel.Serves PoolType.op20 Testnet.tradedSite (.cron Testnet.tradedCron) :=
    fun _ => Testnet.tradedCron_unfailing.servedBy
  have hshown := titles_shown (n := .op20) (i := 0) Testnet.site_start rfl hrun
    ⟨⟨trivial, trivial⟩, hserves⟩ rfl
  have hcursor : (Site.after Testnet.tradedSite Testnet.tradedCron).store.db.getLastIndexedBlock
      = 1 := Testnet.cursor_traded
  have hstate : (Testnet.tradedSite.after Testnet.tradedCron).stateAt 1 = Testnet.traded := rfl
  rw [Site.after] at hcursor
  rw [hcursor] at hshown
  obtain ⟨title, htitled, -, hrows⟩ := hshown Testnet.traded_indexable (by decide)
  obtain ⟨rows, hroute, hperm, -⟩ := hrows .stable IndexerService.noParams
  refine ⟨rows, hroute, title, ?_⟩
  cases htitled _ Testnet.run_traded with
  | unsold _ hstatus => exact absurd hstatus (by decide)
  | sold first _ _ _ _ hhands => exact ⟨first.val, hperm, hhands⟩

end Market

end Frogop
