import Frogop.Market.Bitcoin
import Frogop.Market.Life
import Frogop.Pool.BtcQuote.Charged

/-!
# The prices of a market

All pools share the prices that the bridge has cached. What a reservation costs is computed from a
price that NativeSwap had for the pool's own premium token, at most six blocks before.
-/

namespace Frogop

open Outcome World

/-! ### Quotes -/

namespace Bridge

variable {env : Env} {tx : Tx} {token : Address} {rest : List UInt8} {s s' : BridgeStorage}
  {price key value : Bytes32}

/-- A price is served from the cache, or it is the quote of NativeSwap and cached. -/
lemma getBtcPrice_ok (hblock : tx.block < u64Size)
    (hold : ∀ b price, cachedQuote env s token = some (b, price) → b ≤ tx.block)
    (h : getBtcPrice env tx (token.val ++ rest) s = .ok (price, s')) :
    (s' = s ∧ ∃ b, cachedQuote env s token = some (b, price) ∧
        tx.block ≤ b + maxPriceStaleness) ∨
      quote tx token = some price ∧ s' = cacheQuote env token tx.block price s := by
  rw [getBtcPrice_eq rest hblock hold] at h
  cases hhit : TtlCache.hit maxPriceStaleness (cachedQuote env s) token tx.block with
  | some served =>
    rw [hhit] at h
    obtain ⟨rfl, rfl⟩ := Prod.mk.inj (Except.ok.inj h)
    obtain ⟨b, hcached, hle⟩ := TtlCache.hit_eq_some.mp hhit
    exact .inl ⟨rfl, b, hcached, Nat.sub_le_iff_le_add'.mp hle⟩
  | none =>
    rw [hhit] at h
    cases hquote : tx.getQuote token 100000 with
    | none =>
      rw [hquote] at h
      cases h
    | some quoted =>
      rw [hquote] at h
      dsimp only at h
      split_ifs at h with hzero
      obtain ⟨rfl, rfl⟩ := Prod.mk.inj (Except.ok.inj h)
      exact .inr ⟨quote_eq_some.mpr ⟨hquote, hzero⟩, rfl⟩

/-- A mark under another key leaves the cache as it is. -/
lemma cachedQuote_mark
    (hkey : ∀ slot ∈ [cacheSlotPrice, cacheSlotBlock], priceCacheKey env token slot ≠ key) :
    cachedQuote env (setStorageAt s key value) token = cachedQuote env s token := by
  have hprice := hkey cacheSlotPrice (by simp)
  have hblock := hkey cacheSlotBlock (by simp)
  simp only [cachedQuote, setStorageAt, Function.update_of_ne hprice, Function.update_of_ne hblock]

end Bridge

/-- What is read of an address is the address and what follows it. -/
lemma readAddress_ok {calldata rest : List UInt8} {token : Address}
    (h : readAddress calldata = .ok (token, rest)) : calldata = token.val ++ rest := by
  rw [readAddress] at h
  split_ifs at h with hlen
  obtain ⟨rfl, rfl⟩ := Prod.mk.inj (Except.ok.inj h)
  exact (List.take_append_drop 32 calldata).symm

/-! ### Reservations of a pool -/

namespace PoolType

/-- The reservation under an id, unless it was cleared. -/
def reservation : (k : PoolType) → World k.Own → ℕ → Option BtcQuote.Reservation
  | btcQuote, w, n => some (w.own.reservations.get n) |>.filter (·.buyer ≠ Address.zero)
  | op20, _, _ | btcUnderlying, _, _ => none

variable {k : PoolType} {env : Env} {others : Ledger → Ledger → Prop} {w₀ w : World k.Own}
  {h : Lts.History (World k.Own) (Label k.Call)} {n : ℕ} {res : BtcQuote.Reservation}

lemma premiumToken_of_run (hdep : k.Deployed w₀)
    (hrun : Lts.Run (Step env others (k.exec env)) w₀ h w) :
    w.pool.premiumToken = w₀.pool.premiumToken := by
  induction hrun with
  | nil => rfl
  | cons hrun hstep ih =>
    cases hstep with
    | call htx hexec => exact (advance hdep hrun hexec).premiumToken.trans ih
    | reverted | elsewhere => exact ih

lemma charged_of_run (hdep : k.Deployed w₀)
    (hrun : Lts.Run (Step env others (k.exec env)) w₀ h w)
    (hres : k.reservation w n = some res) :
    ∃ u tx c r quote v, (u, .call tx c r) ∈ Lts.taken w₀ h ∧ k.Does u c res.optionId .reserve ∧
      res.buyer = tx.sender ∧ res.expiryBlock = u64Add tx.block reservationExpiryBlocks ∧
      u.queryBtcPrice env tx w.pool.premiumToken = .ok (quote, v) ∧
      (w.option res.optionId).premium * quote / precision = res.btcAmount := by
  cases k with
  | op20 | btcUnderlying => cases hres
  | btcQuote =>
    have hres : (some (w.own.reservations.get n)).filter (·.buyer ≠ Address.zero) = some res := hres
    obtain ⟨heq, hbuyer⟩ := Option.filter_eq_some_iff.mp hres
    obtain rfl := Option.some.inj heq
    obtain ⟨u, tx, r, hmem, hby⟩ := BtcQuote.charged_of_run hdep hrun n (of_decide_eq_true hbuyer)
    obtain ⟨quote, v, hprice, hcharged⟩ := hby.charged
    exact ⟨u, tx, _, r, quote, v, hmem, rfl, hby.buyer, hby.expiryBlock, hprice, hcharged⟩

end PoolType

/-! ### Runs of a market -/

namespace Market

open Bridge (cachedQuote quote)

variable {ι : Type} {m : Market ι} {s₀ s s' : m.State} {n : ι} {l : m.Label}
  {h h' : Lts.History m.State m.Label} {tokens : Set Address} {token : Address} {b j : ℕ}
  {price : Bytes32} {res : BtcQuote.Reservation}

/-- The transaction of a step that calls a contract of the market. -/
def Label.tx? : m.Label → Option Tx
  | .call _ tx _ _ | .reverted _ tx _ _ | .bridge tx _ => some tx
  | .tokens => none

/-- NativeSwap had a price for a token in a transaction at the block `b`. -/
def Quoted (h : Lts.History m.State m.Label) (token : Address) (b : ℕ) (price : Bytes32) : Prop :=
  ∃ p ∈ h, ∃ tx, p.1.tx? = some tx ∧ tx.block = b ∧ quote tx token = some price

/-- A run in which the blocks do not decrease, the bridge is asked for the prices of `tokens` only,
and no two of the keys collide under which it keeps prices and outputs. -/
structure PricedRun (m : Market ι) (tokens : Set Address) (h : Lts.History m.State m.Label) :
    Prop where
  mined : ∀ p ∈ h, p.1.Mined
  ordered : (h.filterMap fun p => p.1.tx?).Pairwise fun tx tx' => tx'.block ≤ tx.block
  asked : ∀ p ∈ h, ∀ tx calldata token rest, p.1 = .bridge tx (.getBtcPrice calldata) →
    readAddress calldata = .ok (token, rest) → token ∈ tokens
  prices : Bridge.PriceKeysApart m.chain tokens
  outputs : ∀ p ∈ h, ∀ tx, p.1.tx? = some tx → ∀ output ∈ tx.outputs, ∀ hash,
    output.scriptPublicKey = some (Bridge.p2wsh hash) → ∀ token ∈ tokens,
      ∀ slot ∈ [Bridge.cacheSlotPrice, Bridge.cacheSlotBlock],
        Bridge.priceCacheKey m.chain token slot ≠
          Bridge.consumedOutputKey m.chain hash output.value

/-- What the bridge has cached, NativeSwap has quoted. -/
def Sourced (tokens : Set Address) (h : Lts.History m.State m.Label) (s : m.State) : Prop :=
  ∀ token ∈ tokens, ∀ b price, cachedQuote m.chain s.bridge token = some (b, price) →
    Quoted h token b price

lemma Quoted.append (hq : Quoted h token b price) : Quoted (h' ++ h) token b price := by
  obtain ⟨q, hq, hrest⟩ := hq
  exact ⟨q, List.mem_append_right _ hq, hrest⟩

lemma Quoted.cons {p : m.Label × m.State} (hq : Quoted h token b price) :
    Quoted (p :: h) token b price := by
  rw [← List.singleton_append]
  exact hq.append

/-- The run up to one of its states. -/
lemma PricedRun.of_append (hp : m.PricedRun tokens (h' ++ h)) : m.PricedRun tokens h where
  mined p hmem := hp.mined p (List.mem_append_right _ hmem)
  ordered := by
    have hordered := hp.ordered
    rw [List.filterMap_append] at hordered
    exact (List.pairwise_append.mp hordered).2.1
  asked p hmem := hp.asked p (List.mem_append_right _ hmem)
  prices := hp.prices
  outputs p hmem := hp.outputs p (List.mem_append_right _ hmem)

lemma PricedRun.of_cons {p : m.Label × m.State} (hp : m.PricedRun tokens (p :: h)) :
    m.PricedRun tokens h := by
  rw [← List.singleton_append] at hp
  exact hp.of_append

/-- What was quoted before a transaction was quoted at a block that is not after it. -/
lemma PricedRun.quoted_le {tx : Tx} (hp : m.PricedRun tokens ((l, s') :: h))
    (htx : l.tx? = some tx) (hq : Quoted h token b price) : b ≤ tx.block := by
  obtain ⟨p, hmem, tx', htx', rfl, -⟩ := hq
  have hcons : ((l, s') :: h).filterMap (fun p => p.1.tx?) = tx :: h.filterMap fun p => p.1.tx? :=
    List.filterMap_cons_some htx
  have hordered := hp.ordered
  rw [hcons] at hordered
  exact (List.pairwise_cons.mp hordered).1 tx' (List.mem_filterMap.mpr ⟨p, hmem, htx'⟩)

lemma Sourced.same (hsrc : Sourced tokens h s) (hbridge : s'.bridge = s.bridge) :
    Sourced tokens ((l, s') :: h) s' := by
  intro t ht b price hcached
  rw [hbridge] at hcached
  exact (hsrc t ht b price hcached).cons

/-- A call to the bridge for a price. -/
lemma Sourced.asked {tx : Tx} {rest : List UInt8} {bridge : BridgeStorage}
    (hp : m.PricedRun tokens ((l, s') :: h)) (hsrc : Sourced tokens h s)
    (htx : l.tx? = some tx) (hmined : tx.Mined) (htoken : token ∈ tokens)
    (hprice : Bridge.getBtcPrice m.chain tx (token.val ++ rest) s.bridge = .ok (price, bridge)) :
    (s'.bridge = bridge → Sourced tokens ((l, s') :: h) s') ∧
      ∃ b, Quoted ((l, s') :: h) token b price ∧ b ≤ tx.block ∧
        tx.block ≤ b + Bridge.maxPriceStaleness := by
  have hold : ∀ b price, cachedQuote m.chain s.bridge token = some (b, price) → b ≤ tx.block :=
    fun b price hcached => hp.quoted_le htx (hsrc token htoken b price hcached)
  rcases Bridge.getBtcPrice_ok hmined.2 hold hprice with ⟨hsame, b, hcached, hfresh⟩ | ⟨hq, hset⟩
  · refine ⟨fun hbridge => ?_, b, (hsrc token htoken b price hcached).cons, hold b price hcached,
      hfresh⟩
    exact hsrc.same (hbridge.trans hsame)
  · have hnow : Quoted ((l, s') :: h) token tx.block price :=
      ⟨_, List.mem_cons_self, tx, htx, rfl, hq⟩
    refine ⟨fun hbridge t ht b' price' h' => ?_, tx.block, hnow, le_rfl, Nat.le_add_right _ _⟩
    rw [hbridge, hset, Bridge.cachedQuote_cacheQuote hp.prices htoken ht hmined.1 hmined.2] at h'
    split_ifs at h' with heq
    · obtain ⟨rfl, rfl⟩ := Prod.mk.inj (Option.some.inj h')
      rw [heq]
      exact hnow
    · exact (hsrc t ht b' price' h').cons

/-- An output that is marked. -/
lemma Sourced.mark {tx : Tx} {hash : List UInt8} {output : TxOutput}
    (hp : m.PricedRun tokens ((l, s') :: h)) (hsrc : Sourced tokens h s) (htx : l.tx? = some tx)
    (hmem : output ∈ tx.outputs) (hscript : output.scriptPublicKey = some (Bridge.p2wsh hash))
    (hbridge : s'.bridge = Bridge.setStorageAt s.bridge
      (Bridge.consumedOutputKey m.chain hash output.value) (Bytes32.ofNat 1)) :
    Sourced tokens ((l, s') :: h) s' := by
  intro t ht b price hcached
  rw [hbridge, Bridge.cachedQuote_mark
    (hp.outputs _ List.mem_cons_self tx htx output hmem hash hscript t ht)] at hcached
  exact (hsrc t ht b price hcached).cons

variable [DecidableEq ι]

/-- A step of the market caches nothing but what NativeSwap has quoted. -/
lemma Sourced.step (hp : m.PricedRun tokens ((l, s') :: h))
    (htokens : ∀ n, (s.pool n).premiumToken ∈ tokens) (hsrc : Sourced tokens h s)
    (hstep : m.Step s l s') : Sourced tokens ((l, s') :: h) s' := by
  have hmined := hp.mined _ List.mem_cons_self
  cases hstep with
  | @call n tx c r w htx hexec =>
    have hcollects := PoolType.exec_collects hexec
    cases hdue : (m.poolType n).due (m.env n) tx c (s.world n) with
    | none =>
      rw [hdue] at hcollects
      rcases hcollects with hsame | ⟨word, rest, hprice⟩
      · exact hsrc.same hsame
      · exact (hsrc.asked hp rfl hmined (htokens n) hprice).1 rfl
    | some d =>
      rw [hdue] at hcollects
      obtain ⟨output, hmem, hpays, -, hbridge⟩ := collects_receipt hcollects
      exact hsrc.mark hp rfl hmem hpays.script hbridge
  | reverted | tokens => exact hsrc.same rfl
  | @bridge tx c bridge hexec =>
    cases c with
    | getBtcPrice calldata =>
      simp only [BridgeCall.exec, bind_eq_ok, Prod.exists, pure_eq, Except.ok.injEq] at hexec
      obtain ⟨word, _, hprice, rfl⟩ := hexec
      have hread := hprice
      simp only [Bridge.getBtcPrice, bind_eq_ok, Prod.exists] at hread
      obtain ⟨token, rest, hread, -⟩ := hread
      have htoken := hp.asked _ List.mem_cons_self tx calldata token rest rfl hread
      rw [readAddress_ok hread] at hprice
      exact (hsrc.asked hp rfl hmined htoken hprice).1 rfl
    | verifyBtcOutput calldata =>
      simp only [BridgeCall.exec, Bridge.verifyBtcOutput, bind_eq_ok, Prod.exists, pure_eq,
        Except.ok.injEq] at hexec
      obtain ⟨found, _, ⟨hash, rest, -, amount, rest', -, hscan⟩, rfl⟩ := hexec
      rcases Bridge.scanOutputs_spec hscan with ⟨-, hsame⟩ | ⟨-, k, output, hk, hpays, hbridge⟩
      · exact hsrc.same hsame
      · exact hsrc.mark hp rfl (List.mem_of_getElem? hk) hpays.script hbridge

lemma premiumToken_of_run (hdep : m.Deployed s₀) (hrun : Lts.Run m.Step s₀ h s) (n : ι) :
    (s.pool n).premiumToken = (s₀.pool n).premiumToken :=
  PoolType.premiumToken_of_run (hdep n) (runs_at hdep hrun n)

lemma sourced_of_run (hdep : m.Deployed s₀) (hrun : Lts.Run m.Step s₀ h s)
    (hp : m.PricedRun tokens h) (htokens : ∀ n, (s₀.pool n).premiumToken ∈ tokens)
    (hempty : ∀ token ∈ tokens, cachedQuote m.chain s₀.bridge token = none) :
    Sourced tokens h s := by
  induction hrun with
  | nil =>
    intro token htoken b price hcached
    rw [hempty token htoken] at hcached
    cases hcached
  | @cons h s s' l hrun hstep ih =>
    refine (ih hp.of_cons).step hp (fun n => ?_) hstep
    rw [premiumToken_of_run hdep hrun n]
    exact htokens n

/-- However the calls to the pools and to the bridge follow one another, every reservation of a
market was made by a call of its buyer, and what it costs is the product of the premium of its
option and a price that NativeSwap had for the premium token of the pool, at most six blocks
before that call. -/
theorem reservations_priced (hdep : m.Deployed s₀) (hrun : Lts.Run m.Step s₀ h s)
    (hp : m.PricedRun tokens h) (htokens : ∀ n, (s₀.pool n).premiumToken ∈ tokens)
    (hempty : ∀ token ∈ tokens, cachedQuote m.chain s₀.bridge token = none)
    (hres : (m.poolType n).reservation (s.world n) j = some res) :
    ∃ p ∈ Lts.taken s₀ h, ∃ block, m.Seen n res.optionId ⟨.reserve, res.buyer, block⟩ p ∧
      res.expiryBlock = u64Add block reservationExpiryBlocks ∧
      ∃ b price, Quoted h (s.pool n).premiumToken b price ∧ b ≤ block ∧
        block ≤ b + Bridge.maxPriceStaleness ∧
        ((s.world n).option res.optionId).premium * price.toNat / precision = res.btcAmount := by
  obtain ⟨_, tx, c, r, quote, v, hmem, hdoes, hbuyer, hexpiry, hquery, hcharged⟩ :=
    PoolType.charged_of_run (hdep n) (runs_at hdep hrun n) hres
  rw [Lts.taken_map (fun s : m.State => s.world n) (Label.at n)] at hmem
  obtain ⟨⟨u, l⟩, htaken, heq⟩ := List.mem_map.mp hmem
  obtain ⟨rfl, hl⟩ := Prod.mk.inj heq
  obtain rfl := Label.eq_call hl
  refine ⟨_, htaken, tx.block, ⟨tx, c, r, rfl, hdoes, hbuyer, rfl⟩, hexpiry, ?_⟩
  -- the run up to the call
  obtain ⟨h₁, u', h₂, rfl, hrun₁, -⟩ := hrun.of_mem_taken htaken
  have hp₁ : m.PricedRun tokens ((.call n tx c r, u') :: h₁) := hp.of_append
  have hsrc := sourced_of_run hdep hrun₁ hp₁.of_cons htokens hempty
  have htoken : (s.pool n).premiumToken ∈ tokens := by
    rw [premiumToken_of_run hdep hrun n]
    exact htokens n
  obtain ⟨price, rest, hprice, rfl⟩ := queryBtcPrice_asks hquery
  obtain ⟨-, b, hquoted, hle, hfresh⟩ :=
    hsrc.asked hp₁ rfl (hp₁.mined _ List.mem_cons_self) htoken hprice
  exact ⟨b, price, hquoted.append, hle, hfresh, hcharged⟩

/-! ### A reservation at a quote of its own block -/

/-- The newest call comes first. -/
lemma txs_replayed {calls : List m.PoolCall} (hgo : calls.foldlM callPool s = .ok s') :
    (replayed s calls).filterMap (fun q => q.1.tx?) = (calls.map fun p => p.2.1).reverse := by
  induction calls generalizing s with
  | nil => rfl
  | cons p calls ih =>
    simp only [List.foldlM_cons, callPool, bind_eq_ok, pure_eq, Except.ok.injEq, Prod.exists] at hgo
    obtain ⟨t, ⟨r, w, hexec, rfl⟩, hrest⟩ := hgo
    rw [replayed, hexec]
    dsimp only
    rw [List.filterMap_append, ih hrest, List.map_cons, List.reverse_cons]
    rfl

namespace Testnet

open Frogop.Testnet (tx)

/-- Account 10 writes two options in the type-1 pool, and account 11 reserves one of them. -/
def reserving : List market.PoolCall :=
  [⟨.btcQuote, tx 10 100, .registerBtcPubkey BtcQuote.Testnet.pubkey⟩,
    ⟨.btcQuote, tx 10 100, .writeOption 0 (10 ^ 18) 1000 4 100⟩,
    ⟨.btcQuote, tx 10 100, .writeOption 0 (10 ^ 18) 1000 4 100⟩,
    ⟨.btcQuote, BtcQuote.Testnet.quoted 11 101, .reserveOption 1⟩]

def reserved : market.State :=
  match reserving.foldlM callPool start with
  | .ok s => s
  | .error _ => start

lemma reserving_mined : ∀ p ∈ reserving, market.FromAccount p.2.1 ∧ p.2.1.Mined ∧
    p.2.1.outputs = [] := by
  have hsender : ∀ k, Frogop.Testnet.account 10 ≠ market.address k ∧
      Frogop.Testnet.account 11 ≠ market.address k := by
    intro k
    cases k <;> decide
  simp only [reserving, List.forall_mem_cons, List.not_mem_nil, false_imp_iff, implies_true,
    and_true]
  refine ⟨?_, ?_, ?_, ?_⟩
  · exact ⟨⟨fun k => (hsender k).1, by decide⟩, ⟨by decide, by decide⟩, rfl⟩
  · exact ⟨⟨fun k => (hsender k).1, by decide⟩, ⟨by decide, by decide⟩, rfl⟩
  · exact ⟨⟨fun k => (hsender k).1, by decide⟩, ⟨by decide, by decide⟩, rfl⟩
  · exact ⟨⟨fun k => (hsender k).2, by decide⟩, ⟨by decide, by decide⟩, rfl⟩

lemma reserving_priced : market.PricedRun Bridge.Prices.tokens (replayed start reserving) where
  mined := mined_replayed fun p hp => (reserving_mined p hp).2.1
  ordered := by
    have hgo : reserving.foldlM callPool start = .ok reserved := rfl
    rw [txs_replayed hgo, List.pairwise_reverse]
    simp [reserving, BtcQuote.Testnet.quoted, tx]
  asked q hq tx calldata token rest heq := by
    obtain ⟨p, -, r, hcall⟩ := mem_replayed hq
    cases hcall.symm.trans heq
  prices := Bridge.Prices.keysApart
  outputs q hq tx htx output houtput := by
    obtain ⟨p, hp, r, hcall⟩ := mem_replayed hq
    rw [hcall] at htx
    obtain rfl := Option.some.inj htx
    rw [(reserving_mined p hp).2.2] at houtput
    cases houtput

end Testnet

theorem reservations_priced_reserved :
    ∃ b price, Quoted (replayed Testnet.start Testnet.reserving)
        (Testnet.reserved.pool .btcQuote).premiumToken b price ∧
      ((Testnet.reserved.world .btcQuote).option 1).premium * price.toNat / precision = 100 := by
  have hrun : Lts.Run Testnet.market.Step Testnet.start (replayed Testnet.start Testnet.reserving)
      Testnet.reserved := run_replayed (fun p hp => (Testnet.reserving_mined p hp).1) rfl
  have htokens : ∀ n, (Testnet.start.pool n).premiumToken ∈ Bridge.Prices.tokens :=
    fun _ => List.mem_cons_of_mem _ List.mem_cons_self
  obtain ⟨p, -, block, -, -, b, price, hquoted, -, -, hcharged⟩ :=
    reservations_priced (n := .btcQuote) (j := 0) Testnet.start_deployed hrun
      Testnet.reserving_priced htokens (fun _ _ => rfl) rfl
  exact ⟨b, price, hquoted, hcharged⟩

end Market

end Frogop
