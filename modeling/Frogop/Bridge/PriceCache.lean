import Frogop.Bridge.Basic
import Frogop.Lib.TtlCache

/-!
# The price cache

`getBtcPrice` keeps the last quote of each token and its block under two hashed keys. As long as
these keys do not collide the storage is a cache with a time to live of six blocks, and a run of
calls is a run of that cache.
-/

namespace Frogop.Bridge

open Outcome

/-! ### Keys -/

/-- What `priceCacheKey` hashes. -/
def pricePreimage (env : Env) (token : Address) (slot : ℕ) : List UInt8 :=
  buffer 35 [.u16 env.priceCachePointer, .address token, .u8 slot]

/-- No two of the keys of these tokens collide. -/
def PriceKeysApart (env : Env) (tokens : Set Address) : Prop :=
  ∀ t ∈ tokens, ∀ t' ∈ tokens, ∀ slot ∈ [cacheSlotPrice, cacheSlotBlock],
    ∀ slot' ∈ [cacheSlotPrice, cacheSlotBlock],
      env.sha256 (pricePreimage env t slot) = env.sha256 (pricePreimage env t' slot') →
        pricePreimage env t slot = pricePreimage env t' slot'

section

variable {env : Env} {tokens : Set Address} {t t' : Address} {slot slot' : ℕ}

lemma pricePreimage_inj (hslot : slot ∈ [cacheSlotPrice, cacheSlotBlock])
    (hslot' : slot' ∈ [cacheSlotPrice, cacheSlotBlock])
    (h : pricePreimage env t slot = pricePreimage env t' slot') : t = t' ∧ slot = slot' := by
  simp only [pricePreimage, buffer, List.flatMap_cons, List.flatMap_nil, Field.encode,
    fieldsWidth_cons, fieldsWidth_nil, Field.width, List.append_assoc] at h
  obtain ⟨-, h⟩ := List.append_inj h (by simp)
  obtain ⟨htoken, h⟩ := List.append_inj h (by simp)
  obtain ⟨hbyte, -⟩ := List.append_inj h (by simp)
  have hsmall : ∀ n ∈ [cacheSlotPrice, cacheSlotBlock], n < 256 ^ 1 := by decide
  exact ⟨Subtype.ext htoken,
    BigEndian.beBytes_inj (hsmall slot hslot) (hsmall slot' hslot') hbyte⟩

lemma PriceKeysApart.key_inj (hkeys : PriceKeysApart env tokens) (ht : t ∈ tokens)
    (ht' : t' ∈ tokens) (hslot : slot ∈ [cacheSlotPrice, cacheSlotBlock])
    (hslot' : slot' ∈ [cacheSlotPrice, cacheSlotBlock])
    (h : priceCacheKey env t slot = priceCacheKey env t' slot') : t = t' ∧ slot = slot' :=
  pricePreimage_inj hslot hslot' (hkeys t ht t' ht' slot hslot slot' hslot' h)

end

/-! ### One call -/

/-- The quote cached for a token, with its block. -/
def cachedQuote (env : Env) (s : BridgeStorage) (token : Address) : Option (ℕ × Bytes32) :=
  let cachedBlock := (s (priceCacheKey env token cacheSlotBlock)).toNat
  if cachedBlock = 0 then none
  else some (cachedBlock, s (priceCacheKey env token cacheSlotPrice))

/-- The quote NativeSwap has for a token, when there is one that is not zero. -/
def quote (tx : Tx) (token : Address) : Option Bytes32 :=
  (tx.getQuote token 100000).filter (· ≠ Bytes32.zero)

/-- The writes that end `getBtcPrice`. -/
def cacheQuote (env : Env) (token : Address) (block : ℕ) (price : Bytes32) (s : BridgeStorage) :
    BridgeStorage :=
  let s := setStorageAt s (priceCacheKey env token cacheSlotPrice) price
  setStorageAt s (priceCacheKey env token cacheSlotBlock) (Bytes32.ofNat block)

section

variable {env : Env} {tx : Tx} {token u : Address} {rest : List UInt8} {s : BridgeStorage}
  {price : Bytes32} {block b : ℕ} {tokens : Set Address}

lemma u256Sub_of_le {a b : ℕ} (hle : b ≤ a) (ha : a < u256Size) : u256Sub a b = a - b := by
  rw [u256Sub, show a + u256Size - b = a - b + u256Size by omega, Nat.add_mod_right,
    Nat.mod_eq_of_lt (by omega)]

lemma quote_eq_some :
    quote tx token = some price ↔ tx.getQuote token 100000 = some price ∧ price ≠ Bytes32.zero := by
  simp [quote, Option.filter_eq_some_iff]

/-- A call reads the cache, and asks NativeSwap where the cache does not serve it. -/
lemma getBtcPrice_eq (rest : List UInt8) (hblock : tx.block < u64Size)
    (hold : ∀ b price, cachedQuote env s token = some (b, price) → b ≤ tx.block) :
    getBtcPrice env tx (token.val ++ rest) s =
      match TtlCache.hit maxPriceStaleness (cachedQuote env s) token tx.block with
      | some price => .ok (price, s)
      | none =>
        match tx.getQuote token 100000 with
        | none => .error (.revert "NativeSwap getQuote failed")
        | some price =>
          if price = Bytes32.zero then .error (.revert "Zero price returned")
          else .ok (price, cacheQuote env token tx.block price s) := by
  have hread : readAddress (token.val ++ rest) = .ok (token, rest) := readAddress_encode token rest
  have hsize : tx.block < u256Size := hblock.trans (by decide)
  rw [getBtcPrice, hread, ok_bind]
  dsimp only
  rw [TtlCache.hit]
  by_cases hzero : (s (priceCacheKey env token cacheSlotBlock)).toNat = 0
  · have hnone : cachedQuote env s token = none := if_pos hzero
    rw [if_neg (fun h => h.1 hzero), hnone]
    rfl
  · have hsome : cachedQuote env s token = some _ := if_neg hzero
    have hsub := u256Sub_of_le (hold _ _ hsome) hsize
    rw [hsome, Option.bind_some, hsub]
    by_cases hfresh : tx.block - (s (priceCacheKey env token cacheSlotBlock)).toNat
        ≤ maxPriceStaleness
    · rw [if_pos ⟨hzero, hfresh⟩, if_pos hfresh]
      rfl
    · rw [if_neg (fun h => hfresh h.2), if_neg hfresh]
      rfl

/-- A call leaves the storage alone or caches what it returns. -/
lemma getBtcPrice_storage {s' : BridgeStorage}
    (h : getBtcPrice env tx (token.val ++ rest) s = .ok (price, s')) :
    s' = s ∨ s' = cacheQuote env token tx.block price s := by
  have hread : readAddress (token.val ++ rest) = .ok (token, rest) := readAddress_encode token rest
  rw [getBtcPrice, hread, ok_bind] at h
  dsimp only at h
  split_ifs at h with hhit
  · cases h
    exact .inl rfl
  · cases hquote : tx.getQuote token 100000 with
    | none =>
      rw [hquote] at h
      cases h
    | some quoted =>
      rw [hquote] at h
      dsimp only at h
      split_ifs at h with hzero
      cases h
      exact .inr rfl

/-- Caching a quote does not change what another token is priced at. -/
lemma getBtcPrice_cacheQuote (hkeys : PriceKeysApart env tokens) (htoken : token ∈ tokens)
    (hu : u ∈ tokens) (hne : u ≠ token) :
    (getBtcPrice env tx (u.val ++ rest) (cacheQuote env token block price s)).map Prod.fst
      = (getBtcPrice env tx (u.val ++ rest) s).map Prod.fst := by
  have hread : readAddress (u.val ++ rest) = .ok (u, rest) := readAddress_encode u rest
  have hslots : ∀ slot ∈ [cacheSlotPrice, cacheSlotBlock],
      cacheQuote env token block price s (priceCacheKey env u slot)
        = s (priceCacheKey env u slot) := by
    intro slot hslot
    have hkey : ∀ slot' ∈ [cacheSlotPrice, cacheSlotBlock],
        priceCacheKey env u slot ≠ priceCacheKey env token slot' := fun slot' hslot' h =>
      hne (hkeys.key_inj hu htoken hslot hslot' h).1
    have hprice := hkey cacheSlotPrice (by decide)
    have hblock := hkey cacheSlotBlock (by decide)
    simp only [cacheQuote, setStorageAt, Function.update_of_ne hprice,
      Function.update_of_ne hblock]
  simp only [getBtcPrice, hread, ok_bind, hslots cacheSlotPrice (by decide),
    hslots cacheSlotBlock (by decide)]
  split_ifs with hhit
  · rfl
  · cases tx.getQuote u 100000 with
    | none => rfl
    | some quoted =>
      dsimp only
      split_ifs <;> rfl

/-- Caching a quote replaces the one of its token, and no other. -/
lemma cachedQuote_cacheQuote (hkeys : PriceKeysApart env tokens) (htoken : token ∈ tokens)
    (hu : u ∈ tokens) (hpos : 0 < block) (hblock : block < u64Size) :
    cachedQuote env (cacheQuote env token block price s) u =
      if u = token then some (block, price) else cachedQuote env s u := by
  have hprice : cacheSlotPrice ∈ [cacheSlotPrice, cacheSlotBlock] := by decide
  have hslot : cacheSlotBlock ∈ [cacheSlotPrice, cacheSlotBlock] := by decide
  have hapart : priceCacheKey env u cacheSlotPrice ≠ priceCacheKey env token cacheSlotBlock :=
    fun h => absurd (hkeys.key_inj hu htoken hprice hslot h).2 (by decide)
  split_ifs with heq
  · subst heq
    have hword : (Bytes32.ofNat block).toNat = block :=
      BigEndian.ofBytes_beBytes_of_lt (hblock.trans (by decide))
    simp only [cachedQuote, cacheQuote, setStorageAt, Function.update_self,
      Function.update_of_ne hapart, hword, if_neg hpos.ne']
  · have hblocks : priceCacheKey env u cacheSlotBlock ≠ priceCacheKey env token cacheSlotBlock :=
      fun h => heq (hkeys.key_inj hu htoken hslot hslot h).1
    have hprices : priceCacheKey env u cacheSlotPrice ≠ priceCacheKey env token cacheSlotPrice :=
      fun h => heq (hkeys.key_inj hu htoken hprice hprice h).1
    have hcross : priceCacheKey env u cacheSlotBlock ≠ priceCacheKey env token cacheSlotPrice :=
      fun h => heq (hkeys.key_inj hu htoken hslot hprice h).1
    simp only [cachedQuote, cacheQuote, setStorageAt, Function.update_of_ne hblocks,
      Function.update_of_ne hprices, Function.update_of_ne hcross, Function.update_of_ne hapart]

end

/-! ### Runs of calls -/

/-- NativeSwap is queried: the outcome depends on what it answers. -/
def Queries (env : Env) (tx : Tx) (calldata : List UInt8) (s : BridgeStorage) : Prop :=
  ∃ getQuote, getBtcPrice env { tx with getQuote := getQuote } calldata s
    ≠ getBtcPrice env tx calldata s

structure PriceCall (tokens : Set Address) where
  tx : Tx
  token : tokens
  /-- What follows the address in the calldata. -/
  rest : List UInt8
  asked : Bool
  reply : Except Revert Bytes32

abbrev PriceCall.calldata {tokens : Set Address} (c : PriceCall tokens) : List UInt8 :=
  c.token.val.val ++ c.rest

/-- The block of the last call, and the storage of the bridge. -/
structure PriceState where
  block : ℕ
  storage : BridgeStorage

/-- A call in a block that is positive and not before the last one. -/
structure PriceCall.Next {tokens : Set Address} (env : Env) (s : PriceState)
    (c : PriceCall tokens) : Prop where
  pos : 0 < c.tx.block
  later : s.block ≤ c.tx.block
  size : c.tx.block < u64Size
  asked_iff : c.asked = true ↔ Queries env c.tx c.calldata s.storage

inductive PriceStep (env : Env) (tokens : Set Address) :
    PriceState → PriceCall tokens → PriceState → Prop
  | returned {s : PriceState} {c : PriceCall tokens} {price : Bytes32} {storage : BridgeStorage}
      (hnext : c.Next env s) (hreply : c.reply = .ok price)
      (h : getBtcPrice env c.tx c.calldata s.storage = .ok (price, storage)) :
      PriceStep env tokens s c ⟨c.tx.block, storage⟩
  | reverted {s : PriceState} {c : PriceCall tokens} {e : Revert}
      (hnext : c.Next env s) (hreply : c.reply = .error e)
      (h : getBtcPrice env c.tx c.calldata s.storage = .error e) :
      PriceStep env tokens s c ⟨c.tx.block, s.storage⟩

/-- NativeSwap gave the bridge a quote for a token at a block: it was asked, and the answer was
not zero. -/
def Gave {tokens : Set Address} (h : Lts.History PriceState (PriceCall tokens)) (token : tokens)
    (b : ℕ) (price : Bytes32) : Prop :=
  ∃ p ∈ h, p.1.asked = true ∧ p.1.token = token ∧ p.1.tx.block = b ∧
    p.1.tx.getQuote token 100000 = some price ∧ price ≠ Bytes32.zero

section

variable {env : Env} {tokens : Set Address} {s s₀ s' : PriceState} {c : PriceCall tokens}
  {h : Lts.History PriceState (PriceCall tokens)} {token : tokens} {b : ℕ} {price : Bytes32}

/-- The storage as a cache. -/
def PriceState.toCache (env : Env) (tokens : Set Address) (s : PriceState) :
    TtlCache.State tokens Bytes32 :=
  ⟨s.block, fun t => cachedQuote env s.storage t⟩

/-- The call as a request to the cache. -/
def PriceCall.toServed (c : PriceCall tokens) : TtlCache.Served tokens Bytes32 where
  time := c.tx.block
  key := c.token
  answer := quote c.tx c.token
  asked := c.asked
  reply := c.reply.toOption

lemma gave_iff : TtlCache.Gave (Lts.mapHistory (PriceState.toCache env tokens)
    PriceCall.toServed h) token b price ↔ Gave h token b price := by
  simp only [TtlCache.Gave, Gave, Lts.mapHistory, List.mem_map]
  constructor
  · rintro ⟨_, ⟨p, hp, rfl⟩, hasked, rfl, hb, hanswer⟩
    exact ⟨p, hp, hasked, rfl, hb, quote_eq_some.mp hanswer⟩
  · rintro ⟨p, hp, hasked, rfl, hb, hquote⟩
    exact ⟨_, ⟨p, hp, rfl⟩, hasked, rfl, hb, quote_eq_some.mpr hquote⟩

/-- NativeSwap is queried where the cache does not serve the call. -/
lemma queries_iff (hblock : c.tx.block < u64Size)
    (hold : ∀ b price, cachedQuote env s.storage c.token = some (b, price) → b ≤ c.tx.block) :
    Queries env c.tx c.calldata s.storage ↔
      TtlCache.hit maxPriceStaleness (cachedQuote env s.storage) c.token.val c.tx.block = none := by
  have hcall : ∀ getQuote, getBtcPrice env { c.tx with getQuote := getQuote } c.calldata s.storage
      = _ := fun getQuote => getBtcPrice_eq c.rest hblock hold
  have hthis := getBtcPrice_eq c.rest hblock hold
  cases hhit : TtlCache.hit maxPriceStaleness (cachedQuote env s.storage) c.token.val
      c.tx.block with
  | some price =>
    refine iff_of_false ?_ (Option.some_ne_none price)
    rintro ⟨getQuote, hne⟩
    simp only [hcall, hhit, ne_eq, not_true_eq_false] at hne
  | none =>
    refine iff_of_true ?_ rfl
    simp only [hhit] at hcall hthis
    -- an answer where there was none, and none where there was one
    cases hquote : c.tx.getQuote c.token 100000 with
    | none =>
      refine ⟨fun _ _ => some (Bytes32.ofNat 1), ?_⟩
      rw [hcall, hthis, hquote]
      simp only [if_neg (show Bytes32.ofNat 1 ≠ Bytes32.zero by decide)]
      intro h
      cases h
    | some price =>
      refine ⟨fun _ _ => none, ?_⟩
      rw [hcall, hthis, hquote]
      dsimp only
      split_ifs with hzero
      · simp
      · intro h
        cases h

/-- A call is a request to the cache. -/
lemma PriceStep.toCache (hkeys : PriceKeysApart env tokens)
    (hold : ∀ (t : tokens) b price, cachedQuote env s.storage t = some (b, price) → b ≤ s.block)
    (hstep : PriceStep env tokens s c s') :
    TtlCache.Step maxPriceStaleness (s.toCache env tokens) c.toServed (s'.toCache env tokens) := by
  have hnext : c.Next env s := by cases hstep <;> assumption
  have hfresh : ∀ b price, cachedQuote env s.storage c.token = some (b, price) → b ≤ c.tx.block :=
    fun b price hcached => (hold c.token b price hcached).trans hnext.later
  have hcall := getBtcPrice_eq c.rest hnext.size hfresh
  have hasked := hnext.asked_iff.trans (queries_iff hnext.size hfresh)
  have hcache : ∀ now, TtlCache.hit maxPriceStaleness (s.toCache env tokens).cache c.token now
      = TtlCache.hit maxPriceStaleness (cachedQuote env s.storage) c.token.val now := fun _ => rfl
  cases hhit : TtlCache.hit maxPriceStaleness (cachedQuote env s.storage) c.token.val
      c.tx.block with
  | some price =>
    rw [hhit] at hcall hasked
    have hno : c.asked = false := by simpa using hasked
    cases hstep with
    | returned _ hreply h =>
      obtain ⟨rfl, rfl⟩ := Prod.mk.inj (Except.ok.inj (hcall.symm.trans h))
      have hserved : c.toServed
          = ⟨⟨c.tx.block, c.token, quote c.tx c.token⟩, false, some price⟩ := by
        rw [PriceCall.toServed, hno, hreply]
        rfl
      rw [hserved]
      exact .cached hnext.later ((hcache _).trans hhit)
    | reverted _ hreply h => cases hcall.symm.trans h
  | none =>
    rw [hhit] at hcall hasked
    have hyes : c.asked = true := hasked.mpr rfl
    cases hquote : quote c.tx c.token with
    | none =>
      have herror : ∃ e, getBtcPrice env c.tx c.calldata s.storage = .error e := by
        rw [hcall]
        cases hanswer : c.tx.getQuote c.token 100000 with
        | none => exact ⟨_, rfl⟩
        | some price =>
          have hzero : price = Bytes32.zero := by
            by_contra hne
            have hsome := quote_eq_some.mpr ⟨hanswer, hne⟩
            rw [hquote] at hsome
            cases hsome
          exact ⟨_, if_pos hzero⟩
      obtain ⟨e, herror⟩ := herror
      cases hstep with
      | returned _ hreply h => cases herror.symm.trans h
      | reverted _ hreply h =>
        have hserved : c.toServed = ⟨⟨c.tx.block, c.token, none⟩, true, none⟩ := by
          rw [PriceCall.toServed, hyes, hreply, hquote]
          rfl
        rw [hserved]
        exact .failed hnext.later ((hcache _).trans hhit) rfl
    | some price =>
      obtain ⟨hanswer, hne⟩ := quote_eq_some.mp hquote
      simp only [hanswer, if_neg hne] at hcall
      cases hstep with
      | returned _ hreply h =>
        obtain ⟨rfl, rfl⟩ := Prod.mk.inj (Except.ok.inj (hcall.symm.trans h))
        have hserved : c.toServed = ⟨⟨c.tx.block, c.token, some price⟩, true, some price⟩ := by
          rw [PriceCall.toServed, hyes, hreply, hquote]
          rfl
        have hstored : PriceState.toCache env tokens
            ⟨c.tx.block, cacheQuote env c.token c.tx.block price s.storage⟩ = ⟨c.tx.block,
              Function.update (s.toCache env tokens).cache c.token (some (c.tx.block, price))⟩ := by
          refine congrArg (TtlCache.State.mk c.tx.block) (funext fun u => ?_)
          show cachedQuote env _ u.val = _
          rw [cachedQuote_cacheQuote hkeys c.token.property u.property hnext.pos hnext.size]
          by_cases hu : u = c.token
          · subst hu
            rw [if_pos rfl, Function.update_self]
          · rw [if_neg (fun h => hu (Subtype.ext h)), Function.update_of_ne hu]
            rfl
        rw [hserved, hstored]
        exact .stored hnext.later ((hcache _).trans hhit) rfl
      | reverted _ hreply h => cases hcall.symm.trans h

lemma PriceStep.storage (hstep : PriceStep env tokens s c s') : s'.storage = s.storage ∨
    ∃ price, s'.storage = cacheQuote env c.token c.tx.block price s.storage := by
  cases hstep with
  | @returned price storage hnext hreply h =>
    exact (getBtcPrice_storage h).imp_right fun hcached => ⟨price, hcached⟩
  | reverted => exact .inl rfl

/-- A run of calls from an empty cache is a run of the cache. -/
lemma cacheRun_of_run (hkeys : PriceKeysApart env tokens)
    (hempty : ∀ t ∈ tokens, cachedQuote env s₀.storage t = none)
    (hrun : Lts.Run (PriceStep env tokens) s₀ h s) :
    Lts.Run (TtlCache.Step maxPriceStaleness) (s₀.toCache env tokens)
      (Lts.mapHistory (PriceState.toCache env tokens) PriceCall.toServed h)
      (s.toCache env tokens) := by
  refine hrun.induct (I := fun h s => Lts.Run (TtlCache.Step maxPriceStaleness)
    (s₀.toCache env tokens) (Lts.mapHistory (PriceState.toCache env tokens) PriceCall.toServed h)
    (s.toCache env tokens)) .nil fun h s c s' _ ih hstep => ih.cons ?_
  have hinv := TtlCache.inv_of_run (fun t : tokens => hempty t t.property) ih
  exact hstep.toCache hkeys fun t b price hcached => (hinv.stored t b price hcached).2

/-- In every run of `getBtcPrice` calls a returned price is a quote for the same token at most six
blocks old; NativeSwap is queried exactly when it gave no such quote; and what the other tokens are
priced at stays as it was. -/
theorem getBtcPrice_fresh (hkeys : PriceKeysApart env tokens)
    (hempty : ∀ t ∈ tokens, cachedQuote env s₀.storage t = none)
    (hrun : Lts.Run (PriceStep env tokens) s₀ h s) (hstep : PriceStep env tokens s c s') :
    (∀ price, c.reply = .ok price → price ≠ Bytes32.zero ∧
        ∃ b, b ≤ c.tx.block ∧ c.tx.block ≤ b + maxPriceStaleness ∧
          Gave ((c, s') :: h) c.token b price) ∧
      (c.asked = true ↔
        ¬ ∃ b price, Gave h c.token b price ∧ c.tx.block ≤ b + maxPriceStaleness) ∧
      ∀ (t : tokens) (tx : Tx) (rest : List UInt8), t ≠ c.token →
        (getBtcPrice env tx (t.val.val ++ rest) s'.storage).map Prod.fst
          = (getBtcPrice env tx (t.val.val ++ rest) s.storage).map Prod.fst := by
  have hcache := cacheRun_of_run hkeys hempty hrun
  have hinv := TtlCache.inv_of_run (fun t : tokens => hempty t t.property) hcache
  have hserved := hstep.toCache hkeys fun t b price hcached => (hinv.stored t b price hcached).2
  refine ⟨fun price hreply => ?_, ?_, fun t tx rest ht => ?_⟩
  · obtain ⟨b, hle, hfresh, hgave⟩ :=
      hinv.served hserved (v := price) (by rw [PriceCall.toServed, hreply]; rfl)
    have hgave' : Gave ((c, s') :: h) c.token b price := gave_iff.mp hgave
    obtain ⟨-, -, -, -, -, -, hne⟩ := id hgave'
    exact ⟨hne, b, hle, hfresh, hgave'⟩
  · rw [show c.asked = c.toServed.asked from rfl, hinv.asked_iff hserved]
    simp only [gave_iff]
    rfl
  · rcases hstep.storage with hsame | ⟨price, hcached⟩
    · rw [hsame]
    · rw [hcached]
      exact getBtcPrice_cacheQuote hkeys c.token.property t.property fun h => ht (Subtype.ext h)

end

/-! ### A quote, and the same quote from the cache -/

namespace Prices

def moto : Address := Bytes32.ofNat 2

def pill : Address := Bytes32.ofNat 3

def tokens : Set Address := {t | t ∈ [moto, pill]}

/-- The hash keeps the last 32 bytes. -/
def priceEnv : Env where
  contractAddress := Bytes32.ofNat 1
  writers := .fixed
  sha256 := fun bytes => Bytes32.ofNat (BigEndian.ofBytes bytes)
  csvTimelock := fun pubkey _ => pubkey
  slot := fun bytes => bytes
  priceCachePointer := 2
  consumedOutputsPointer := 3

lemma keysApart : PriceKeysApart priceEnv tokens := by
  have h : ∀ t ∈ [moto, pill], ∀ t' ∈ [moto, pill], ∀ slot ∈ [cacheSlotPrice, cacheSlotBlock],
      ∀ slot' ∈ [cacheSlotPrice, cacheSlotBlock],
        priceEnv.sha256 (pricePreimage priceEnv t slot)
            = priceEnv.sha256 (pricePreimage priceEnv t' slot') →
          pricePreimage priceEnv t slot = pricePreimage priceEnv t' slot' := by
    decide +kernel
  exact h

/-- A call for one of the tokens; NativeSwap has the quote 7. -/
def call (block : ℕ) (asked : Bool) : PriceCall tokens where
  tx := ⟨Bytes32.ofNat 10, block, [], fun _ _ => some (Bytes32.ofNat 7)⟩
  token := ⟨moto, List.mem_cons_self⟩
  rest := []
  asked := asked
  reply := .ok (Bytes32.ofNat 7)

def start : PriceState := ⟨0, fun _ => Bytes32.zero⟩

/-- The storage once the quote was cached at block 100. -/
def cached (block : ℕ) : PriceState :=
  ⟨block, cacheQuote priceEnv moto 100 (Bytes32.ofNat 7) start.storage⟩

lemma asked_first : PriceStep priceEnv tokens start (call 100 true) (cached 100) := by
  have hhit : TtlCache.hit maxPriceStaleness (cachedQuote priceEnv start.storage) moto 100 = none :=
    by decide +kernel
  have hold : ∀ b price, cachedQuote priceEnv start.storage moto = some (b, price) → b ≤ 100 := by
    intro b price h
    cases h
  refine .returned ⟨by decide, by decide, by decide, ?_⟩ rfl ?_
  · exact iff_of_true rfl ((queries_iff (c := call 100 true) (by decide) hold).mpr hhit)
  · rw [PriceCall.calldata, getBtcPrice_eq _ (by decide) hold]
    rfl

lemma served_again : PriceStep priceEnv tokens (cached 100) (call 106 false) (cached 106) := by
  have hquote : cachedQuote priceEnv (cached 100).storage moto = some (100, Bytes32.ofNat 7) := by
    decide +kernel
  have hold : ∀ b price, cachedQuote priceEnv (cached 100).storage moto = some (b, price) →
      b ≤ 106 := by
    intro b price h
    rw [hquote] at h
    cases h
    decide
  have hhit : TtlCache.hit maxPriceStaleness (cachedQuote priceEnv (cached 100).storage) moto 106
      = some (Bytes32.ofNat 7) := TtlCache.hit_eq_some.mpr ⟨100, hquote, by decide⟩
  refine .returned ⟨by decide, by decide, by decide, ?_⟩ rfl ?_
  · refine iff_of_false Bool.false_ne_true fun hasked => ?_
    have hmiss := (queries_iff (c := call 106 false) (by decide) hold).mp hasked
    rw [show (call 106 false).token.val = moto from rfl,
      show (call 106 false).tx.block = 106 from rfl, hhit] at hmiss
    cases hmiss
  · rw [PriceCall.calldata, getBtcPrice_eq _ (by decide) hold]
    rw [show (call 106 false).token.val = moto from rfl,
      show (call 106 false).tx.block = 106 from rfl, hhit]
    rfl

/-- The quote of block 100 is still served at block 106. -/
theorem getBtcPrice_fresh_cached : ∃ b, b ≤ 106 ∧ 106 ≤ b + maxPriceStaleness ∧
    Gave [(call 106 false, cached 106), (call 100 true, cached 100)] ⟨moto, List.mem_cons_self⟩ b
      (Bytes32.ofNat 7) := by
  have hempty : ∀ t ∈ tokens, cachedQuote priceEnv start.storage t = none := fun _ _ => rfl
  exact ((getBtcPrice_fresh keysApart hempty (Lts.Run.nil.cons asked_first) served_again).1 _
    rfl).2

end Prices

end Frogop.Bridge
