import Frogop.Frontend.IndexerService
import Frogop.Market.Indexed

/-!
# What users see of a market

From the contracts through the blocks, the indexer and its API to the front end: the options that a
user is shown are those of the pools, whichever way they are read.
-/

namespace Frogop

open Indexer Frontend

/-- A pool that can be indexed can also be read through its views. -/
lemma PoolStorage.Indexable.typed {p : PoolStorage} (h : p.Indexable) : p.Typed where
  nextId := by
    rcases Nat.eq_zero_or_pos p.nextId with hzero | hpos
    · rw [hzero]
      decide
    · have hid : p.nextId - 1 < 2 ^ 53 := (h _ (Nat.sub_lt hpos one_pos)).id
      exact (Nat.le_of_pred_lt hid).trans_lt (by decide)
  options i hi := by
    have hi := h i hi
    exact ⟨hi.id.trans (by decide), hi.strikePrice, hi.underlyingAmount, hi.premium,
      (Nat.le_add_right _ _).trans_lt hi.graceEnd |>.trans (by decide)⟩

namespace Market

variable {ι : Type}

/-- The tables of a site, as its API reads them. -/
def Site.api {m : Market ι} (s : Site m) (order : BlockOrder) : D1Database := ⟨s.store.db, order⟩

variable [DecidableEq ι] {m : Market ι} {s s₀ : Site m} {h : Lts.History (Site m) SiteLabel}
  {n : ι}

/-- The pages of the API, put together, are the options of the pool as of the cursor; a single
option is found under its id, and nothing under others. -/
theorem pages_show (hstart : s₀.Start) (hrun : Lts.Run m.SiteStep s₀ h s)
    (hserves : Lts.Along (fun s l _ => SiteLabel.Serves n s l) s₀ h)
    (hindexable : ((s.stateAt s.store.db.getLastIndexedBlock).pool n).Indexable) {limit k : ℕ}
    (hlimit : limit < 2 ^ 53) (hk : k * min 200 (max 1 limit) < 2 ^ 53) (order : BlockOrder) :
    (∀ page < k, (requestPage (some (s.api order)) (m.hex n) limit page).isSome) ∧
      ((List.range k).flatMap fun page =>
          (requestPage (some (s.api order)) (m.hex n) limit page).getD [])
        = (shownAll (m.hex n) ((s.stateAt s.store.db.getLastIndexedBlock).pool n)).take
            (k * min 200 (max 1 limit)) ∧
      ∀ i < 2 ^ 53, IndexerService.getOption (some (s.api order)) (m.hex n) i
        = if i < ((s.stateAt s.store.db.getLastIndexedBlock).pool n).nextId then
            some (shown (m.hex n)
              (((s.stateAt s.store.db.getLastIndexedBlock).pool n).options.get i))
          else none := by
  obtain ⟨hinv, hf⟩ := followed_of_run hstart hrun hserves
  have hmirrors : Mirrors (m.hex n) ((s.stateAt s.store.db.getLastIndexedBlock).pool n)
      ((s.api order).optionsOf (m.hex n)) :=
    hf.mirrors hstart hinv (cursor_le_of_run hstart hrun) hindexable
  obtain ⟨hsome, hpages⟩ := pages_eq hmirrors (pathText_hexString _) hlimit hk
  exact ⟨hsome, hpages, fun i hi => getOption_shown hmirrors (pathText_hexString _) hi⟩

/-- Once the indexer has caught up, a user is shown the same options of a pool by the indexer and by
the chain: those the user wrote and those the user holds, in the order of the ids. -/
theorem sources_agree (hstart : s₀.Start) (hrun : Lts.Run m.SiteStep s₀ h s)
    (hserves : Lts.Along (fun s l _ => SiteLabel.Serves n s l) s₀ h)
    (hcurrent : s.store.db.getLastIndexedBlock = s.mined.length)
    (hindexable : (s.state.pool n).Indexable) (order : BlockOrder) (user : Address) :
    let chain := some (PoolService.getAllOptions (m.env n) fun _ => s.state.world n)
    ∃ r r', loadUserOptions (hexString user.val) (some (s.api order)) chain = .ok r ∧
      loadUserOptions (hexString user.val) none chain = .ok r' ∧
      (r.writtenOptions.filter (fun o => o.poolAddress = some (m.hex n))
          = (writtenBy (s.state.pool n) user).map
              (fun i => shown (m.hex n) ((s.state.pool n).options.get i)) ∧
        r'.writtenOptions = (writtenBy (s.state.pool n) user).map
          fun i => chainShown ((s.state.pool n).options.get i)) ∧
      (r.purchasedOptions.filter (fun o => o.poolAddress = some (m.hex n))
          = (heldBy (s.state.pool n) user).map
              (fun i => shown (m.hex n) ((s.state.pool n).options.get i)) ∧
        r'.purchasedOptions = (heldBy (s.state.pool n) user).map
          fun i => chainShown ((s.state.pool n).options.get i)) := by
  intro chain
  obtain ⟨hinv, hf⟩ := followed_of_run hstart hrun hserves
  have hmirrors := hf.mirrors hstart hinv (cursor_le_of_run hstart hrun)
  rw [hcurrent] at hmirrors
  have hshown : Mirrors (m.hex n) (s.state.pool n) ((s.api order).optionsOf (m.hex n)) :=
    hmirrors hindexable
  obtain ⟨r, hr, -, hwritten, hheld⟩ := loadUserOptions_indexer hshown user chain
  have htyped : (s.state.world n).pool.Typed := hindexable.typed
  obtain ⟨r', hr', -, hwritten', hheld'⟩ :=
    loadUserOptions_chain htyped user
  exact ⟨r, r', hr, hr', ⟨hwritten, hwritten'⟩, hheld, hheld'⟩

theorem pages_show_written :
    (requestPage (some ((Testnet.site.after Testnet.cron).api .stable)) (Testnet.market.hex .op20)
        50 0).getD []
      = [shown (Testnet.market.hex .op20) ((Testnet.written.pool .op20).options.get 0)] := by
  have hpages := pages_show Testnet.site_start Testnet.run_indexed
    Testnet.indexed_serves
  rw [Testnet.cursor_after] at hpages
  have hall := (@hpages Testnet.written_indexable 50 1 (by decide) (by decide) .stable).2.1
  rw [List.range_one, List.flatMap_singleton] at hall
  rw [hall]
  rfl

/-- The writer of the one option is shown it by both sources. -/
theorem sources_agree_written :
    ∃ r r', loadUserOptions (hexString (Frogop.Testnet.account 10).val)
        (some ((Testnet.site.after Testnet.cron).api .stable)) (some (PoolService.getAllOptions
          (Testnet.market.env .op20) fun _ => Testnet.written.world .op20)) = .ok r ∧
      loadUserOptions (hexString (Frogop.Testnet.account 10).val) none
        (some (PoolService.getAllOptions (Testnet.market.env .op20)
          fun _ => Testnet.written.world .op20)) = .ok r' ∧
      r.writtenOptions.filter (fun o => o.poolAddress = some (Testnet.market.hex .op20))
        = [shown (Testnet.market.hex .op20) ((Testnet.written.pool .op20).options.get 0)] ∧
      r'.writtenOptions = [chainShown ((Testnet.written.pool .op20).options.get 0)] := by
  have hagree := sources_agree Testnet.site_start Testnet.run_indexed Testnet.indexed_serves
    Testnet.cursor_after
  rw [Testnet.state_after] at hagree
  obtain ⟨r, r', hr, hr', ⟨hwritten, hwritten'⟩, -⟩ :=
    hagree Testnet.written_indexable .stable (Frogop.Testnet.account 10)
  exact ⟨r, r', hr, hr', hwritten, hwritten'⟩

end Market

end Frogop
