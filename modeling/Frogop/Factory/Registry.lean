import Frogop.Factory.Basic
import Frogop.Pool.Accounts
import Mathlib.Data.List.AList

/-!
# The registry of pools is consistent

The directory of a factory maps each listed pair of tokens to its pool, newest entry first. The
lookup map and the list are two images of it: this holds after deployment and every call keeps it.
-/

namespace Frogop.Factory

open Outcome

/-! ### Keys of the list -/

/-- No two of the keys of the first `n` entries collide. -/
def ListKeysApart (env : Env) (n : ℕ) : Prop :=
  ∀ i < n, ∀ j < n, ∀ slot < 3, ∀ slot' < 3,
    poolListKey env i slot = poolListKey env j slot' →
      poolListPreimage i slot = poolListPreimage j slot'

section

variable {env : Env} {n m i j slot slot' : ℕ}

lemma ListKeysApart.mono (h : ListKeysApart env n) (hle : m ≤ n) : ListKeysApart env m :=
  fun i hi j hj => h i (hi.trans_le hle) j (hj.trans_le hle)

lemma poolListPreimage_inj (hi : i < u256Size) (hj : j < u256Size) (hslot : slot < 3)
    (hslot' : slot' < 3) (h : poolListPreimage i slot = poolListPreimage j slot') :
    i = j ∧ slot = slot' := by
  simp only [poolListPreimage, buffer, List.flatMap_cons, List.flatMap_nil, Field.encode,
    fieldsWidth_cons, fieldsWidth_nil, Field.width, List.append_assoc] at h
  obtain ⟨-, h⟩ := List.append_inj h (by simp)
  obtain ⟨hindex, h⟩ := List.append_inj h (by simp)
  obtain ⟨hbyte, -⟩ := List.append_inj h (by simp)
  refine ⟨BigEndian.beBytes_inj hi hj hindex, BigEndian.beBytes_inj ?_ ?_ hbyte⟩
  · omega
  · omega

lemma ListKeysApart.key_inj (h : ListKeysApart env n) (hn : n ≤ u256Size) (hi : i < n) (hj : j < n)
    (hslot : slot < 3) (hslot' : slot' < 3)
    (heq : poolListKey env i slot = poolListKey env j slot') :
    i = j ∧ slot = slot' :=
  poolListPreimage_inj (hi.trans_le hn) (hj.trans_le hn) hslot hslot'
    (h i hi j hj slot hslot slot' hslot' heq)

end

/-! ### What a call does -/

/-- A new pool was entered in the map and in the list. -/
structure Registers (env : Env) (s s' : FactoryStorage) (pool underlying premiumToken : Address) :
    Prop where
  pool_ne : pool ≠ Address.zero
  underlying_ne : underlying ≠ Address.zero
  premiumToken_ne : premiumToken ≠ Address.zero
  fresh : s.pools.get underlying premiumToken = none
  pools : s'.pools = s.pools.set underlying premiumToken pool.toNat
  size : s.poolCount + 1 < u256Size
  count : s'.poolCount = s.poolCount + 1
  list : s'.poolList = Function.update (Function.update (Function.update s.poolList
    (poolListKey env s.poolCount 0) pool) (poolListKey env s.poolCount 1) underlying)
    (poolListKey env s.poolCount 2) premiumToken

/-- The registry is as it was. -/
structure Untouched (s s' : FactoryStorage) : Prop where
  pools : s'.pools = s.pools
  count : s'.poolCount = s.poolCount
  list : s'.poolList = s.poolList

section

variable {env : Env} {tx : FactoryTx} {c : Call} {s s' s₀ : FactoryStorage} {r : Response}
  {pool underlying premiumToken : Address} {l : Label} {capacity : ℕ} {fields : List Field}
  {reply : Reply}

@[simp] lemma respond_eq_ok : respond env capacity fields s = .ok reply ↔
    (env.writers = .growing ∨ fieldsWidth fields ≤ capacity) ∧ (fields, s) = reply := by
  simp [respond]

/-- Registering a pair that is not in the map enters it in both. -/
lemma register_ok (h : register env pool underlying premiumToken s = .ok s')
    (hpool : pool ≠ Address.zero) (hunderlying : underlying ≠ Address.zero)
    (hpremium : premiumToken ≠ Address.zero)
    (hfresh : ¬ (s.pools.has underlying = true ∧
      (s.pools.get underlying premiumToken).isSome = true)) :
    Registers env s s' pool underlying premiumToken := by
  rw [MapOfMap.has_and_has, Option.not_isSome_iff_eq_none] at hfresh
  simp only [register, registerInList, bind_eq_ok, SafeMath.add_eq_ok, pure_eq,
    Except.ok.injEq] at h
  obtain ⟨_, ⟨hsize, rfl⟩, rfl⟩ := h
  exact ⟨hpool, hunderlying, hpremium, hfresh, rfl, hsize, rfl, rfl⟩

/-- A call registers a pool or leaves the registry alone. -/
lemma exec_cases (h : exec env tx c s = .ok (r, s')) :
    (∃ pool underlying premiumToken, Registers env s s' pool underlying premiumToken) ∨
      Untouched s s' := by
  cases c with
  | setPoolTemplate template =>
    simp only [exec, setPoolTemplate, bind_eq_ok, respond_eq_ok, Prod.mk.injEq] at h
    obtain ⟨-, -, -, -, rfl⟩ := h
    exact .inr ⟨rfl, rfl, rfl⟩
  | setTreasury addr =>
    simp only [exec, setTreasury, bind_eq_ok, respond_eq_ok, Prod.mk.injEq] at h
    obtain ⟨-, -, -, -, -, -, rfl⟩ := h
    exact .inr ⟨rfl, rfl, rfl⟩
  | registerPool pool underlying premiumToken =>
    simp only [exec, registerPool, bind_eq_ok, require_eq_ok, respond_eq_ok, Prod.mk.injEq] at h
    obtain ⟨-, -, -, hpool, -, hunderlying, -, hpremium, -, hfresh, _, hregister, -, -, rfl⟩ := h
    exact .inl ⟨_, _, _, register_ok hregister hpool hunderlying hpremium hfresh⟩
  | createPool underlying premiumToken underlyingDecimals premiumDecimals =>
    simp only [exec, createPool, bind_eq_ok, require_eq_ok, respond_eq_ok, Prod.mk.injEq] at h
    obtain ⟨-, hunderlying, -, hpremium, -, -, -, hfresh, -, -, -, -, _, -, pool, hdeploy, _,
      hregister, -, -, -, -, rfl⟩ := h
    obtain ⟨hpool, hu, hp, hfresh, hpools, hsize, hcount, hlist⟩ :=
      register_ok hregister (tx.deployed_ne_zero hdeploy) hunderlying hpremium hfresh
    exact .inl ⟨_, _, _, hpool, hu, hp, hfresh, hpools, hsize, hcount, hlist⟩

/-- So does a step. -/
lemma Step.cases (h : Step env s l s') :
    (∃ pool underlying premiumToken, Registers env s s' pool underlying premiumToken) ∨
      Untouched s s' := by
  cases h with
  | call hexec => exact exec_cases hexec
  | reverted => exact .inr ⟨rfl, rfl, rfl⟩

end

/-! ### Entries of the list -/

structure PoolEntry where
  pool : Address
  underlying : Address
  premiumToken : Address
  deriving DecidableEq

/-- The entry that `getPoolByIndex` reads. -/
def entryAt (env : Env) (s : FactoryStorage) (index : ℕ) : PoolEntry where
  pool := s.poolList (poolListKey env index 0)
  underlying := s.poolList (poolListKey env index 1)
  premiumToken := s.poolList (poolListKey env index 2)

/-- The pair of tokens an entry is for. -/
def PoolEntry.pair (e : PoolEntry) : Address × Address := (e.underlying, e.premiumToken)

section

variable {env : Env} {s s' : FactoryStorage} {pool underlying premiumToken u p : Address} {i : ℕ}
  {l : Label}

lemma getPoolByIndex_eq (hi : i < s.poolCount) : getPoolByIndex env i s =
    .ok ([.address (entryAt env s i).pool, .address (entryAt env s i).underlying,
      .address (entryAt env s i).premiumToken], s) := by
  rw [getPoolByIndex, require_of hi, ok_bind]
  exact respond_eq_ok.mpr ⟨.inr (by simp [Field.width]), rfl⟩

lemma getPool_eq : getPool env u p s = .ok ([.address (getPoolAddress u p s)], s) :=
  respond_eq_ok.mpr ⟨.inr (by simp [Field.width]), rfl⟩

lemma getPoolAddress_eq : getPoolAddress u p s =
    match s.pools.get u p with
    | none => Address.zero
    | some n => Bytes32.ofNat n := by
  rw [getPoolAddress, MapOfMap.has, MapOfMap.get]
  cases s.pools u with
  | none => simp
  | some nested => cases hnested : nested p <;> simp [hnested]

/-- The new entry of the list. -/
lemma Registers.entryAt_self (h : Registers env s s' pool underlying premiumToken)
    (hkeys : ListKeysApart env s'.poolCount) :
    entryAt env s' s.poolCount = ⟨pool, underlying, premiumToken⟩ := by
  have hne : ∀ slot < 3, ∀ slot' < 3, slot ≠ slot' →
      poolListKey env s.poolCount slot ≠ poolListKey env s.poolCount slot' := by
    intro slot hslot slot' hslot' hne heq
    have hlt : s.poolCount < s'.poolCount := by rw [h.count]; exact Nat.lt_succ_self _
    exact hne (hkeys.key_inj (h.count ▸ h.size.le) hlt hlt hslot hslot' heq).2
  have h01 := hne 0 (by decide) 1 (by decide) (by decide)
  have h02 := hne 0 (by decide) 2 (by decide) (by decide)
  have h12 := hne 1 (by decide) 2 (by decide) (by decide)
  simp only [entryAt, h.list, Function.update_self, Function.update_of_ne h01,
    Function.update_of_ne h02, Function.update_of_ne h12]

/-- The entries before it. -/
lemma Registers.entryAt_of_lt (h : Registers env s s' pool underlying premiumToken)
    (hkeys : ListKeysApart env s'.poolCount) (hi : i < s.poolCount) :
    entryAt env s' i = entryAt env s i := by
  have hne : ∀ slot < 3, ∀ slot' < 3,
      poolListKey env i slot ≠ poolListKey env s.poolCount slot' := by
    intro slot hslot slot' hslot' heq
    have hlt : s.poolCount < s'.poolCount := by rw [h.count]; exact Nat.lt_succ_self _
    have hindex := (hkeys.key_inj (h.count ▸ h.size.le) (hi.trans hlt) hlt hslot hslot' heq).1
    exact absurd hindex hi.ne
  have hslot : ∀ slot < 3,
      s'.poolList (poolListKey env i slot) = s.poolList (poolListKey env i slot) := by
    intro slot hslot
    rw [h.list, Function.update_of_ne (hne slot hslot 2 (by decide)),
      Function.update_of_ne (hne slot hslot 1 (by decide)),
      Function.update_of_ne (hne slot hslot 0 (by decide))]
  simp only [entryAt, hslot 0 (by decide), hslot 1 (by decide), hslot 2 (by decide)]

/-- A step keeps the entries there are. -/
lemma Step.entryAt_of_lt (h : Step env s l s') (hkeys : ListKeysApart env s'.poolCount) :
    s.poolCount ≤ s'.poolCount ∧ ∀ i < s.poolCount, entryAt env s' i = entryAt env s i := by
  rcases h.cases with ⟨_, _, _, hreg⟩ | hsame
  · exact ⟨hreg.count ▸ Nat.le_succ _, fun i hi => hreg.entryAt_of_lt hkeys hi⟩
  · exact ⟨hsame.count.ge, fun i _ => by rw [entryAt, hsame.list]; rfl⟩

end

/-! ### The directory -/

/-- The listed pairs and their pools, newest first. -/
abbrev Directory := AList fun _ : Address × Address => Address

/-- The map and the list of a factory are those of a directory. -/
structure Represents (env : Env) (s : FactoryStorage) (d : Directory) : Prop where
  count : s.poolCount = d.entries.length
  size : s.poolCount < u256Size
  listed : ∀ i < s.poolCount, ∃ e, d.entries.reverse[i]? = some e ∧
    (entryAt env s i).pair = e.1 ∧ (entryAt env s i).pool = e.2
  index : ∀ u p, s.pools.get u p = (d.lookup (u, p)).map Bytes32.toNat
  valid : ∀ e ∈ d.entries, e.1.1 ≠ Address.zero ∧ e.1.2 ≠ Address.zero ∧ e.2 ≠ Address.zero

section

variable {env : Env} {s s' s₀ : FactoryStorage} {d : Directory} {l : Label} {origin : Address}
  {h h' : Lts.History FactoryStorage Label} {pool underlying premiumToken u p : Address} {i j : ℕ}

lemma represents_onDeployment : Represents env (onDeployment origin) ∅ where
  count := rfl
  size := Nat.two_pow_pos 256
  listed i hi := absurd hi (Nat.not_lt_zero i)
  index _ _ := rfl
  valid _ he := absurd he List.not_mem_nil

/-- A registered pool is added to the directory. -/
lemma Represents.registers (hd : Represents env s d)
    (h : Registers env s s' pool underlying premiumToken)
    (hkeys : ListKeysApart env s'.poolCount) :
    Represents env s' (d.insert (underlying, premiumToken) pool) := by
  have hlookup : d.lookup (underlying, premiumToken) = none := by
    have hindex := hd.index underlying premiumToken
    rw [h.fresh] at hindex
    exact Option.map_eq_none_iff.mp hindex.symm
  have hnew : (underlying, premiumToken) ∉ d := AList.lookup_eq_none.mp hlookup
  have hentries : (d.insert (underlying, premiumToken) pool).entries
      = ⟨(underlying, premiumToken), pool⟩ :: d.entries := by rw [AList.insert_of_notMem hnew]
  refine ⟨?_, ?_, fun i hi => ?_, fun u p => ?_, fun e he => ?_⟩
  · rw [h.count, hentries, List.length_cons, hd.count]
  · rw [h.count]
    exact h.size
  · rw [hentries, List.reverse_cons]
    have hlen : d.entries.reverse.length = s.poolCount := by rw [List.length_reverse, hd.count]
    rw [h.count] at hi
    rcases Nat.lt_succ_iff_lt_or_eq.mp hi with hold | rfl
    · obtain ⟨e, he, hpair, hpool⟩ := hd.listed i hold
      rw [h.entryAt_of_lt hkeys hold]
      exact ⟨e, (List.getElem?_append_left (hold.trans_eq hlen.symm)).trans he, hpair, hpool⟩
    · rw [h.entryAt_self hkeys]
      refine ⟨⟨(underlying, premiumToken), pool⟩, ?_, rfl, rfl⟩
      rw [List.getElem?_append_right hlen.le, hlen, Nat.sub_self]
      rfl
  · rw [h.pools, MapOfMap.get_set]
    split_ifs with heq
    · rw [heq.1, heq.2, AList.lookup_insert]
      rfl
    · rw [hd.index, AList.lookup_insert_ne fun hpair => heq ?_]
      exact ⟨congrArg Prod.fst hpair, congrArg Prod.snd hpair⟩
  · rw [hentries] at he
    rcases List.mem_cons.mp he with rfl | he
    · exact ⟨h.underlying_ne, h.premiumToken_ne, h.pool_ne⟩
    · exact hd.valid e he

lemma Represents.untouched (hd : Represents env s d) (h : Untouched s s') :
    Represents env s' d := by
  have hentry : ∀ i, entryAt env s' i = entryAt env s i := fun i => by
    rw [entryAt, h.list]
    rfl
  refine ⟨h.count.trans hd.count, h.count ▸ hd.size, fun i hi => ?_, fun u p => ?_, hd.valid⟩
  · rw [hentry]
    exact hd.listed i (h.count ▸ hi)
  · rw [h.pools]
    exact hd.index u p

/-- A step takes a directory to a directory. -/
lemma Represents.step (hd : Represents env s d) (hstep : Step env s l s')
    (hkeys : ListKeysApart env s'.poolCount) : ∃ d', Represents env s' d' := by
  rcases hstep.cases with ⟨pool, underlying, premiumToken, hreg⟩ | hsame
  · exact ⟨_, hd.registers hreg hkeys⟩
  · exact ⟨d, hd.untouched hsame⟩

/-- In every state of a run the registry is a directory. -/
lemma represents_of_run (hrun : Lts.Run (Step env) (onDeployment origin) h s)
    (hkeys : ListKeysApart env s.poolCount) : ∃ d, Represents env s d := by
  refine hrun.invariant (I := fun s => ListKeysApart env s.poolCount → ∃ d, Represents env s d)
    (fun _ => ⟨∅, represents_onDeployment⟩) (fun s l s' ih hstep hkeys => ?_) hkeys
  obtain ⟨d, hd⟩ := ih (hkeys.mono (hstep.entryAt_of_lt hkeys).1)
  exact hd.step hstep hkeys

/-- The entries there are stay as they are. -/
lemma entryAt_of_run (hrun : Lts.Run (Step env) s h s') (hkeys : ListKeysApart env s'.poolCount) :
    s.poolCount ≤ s'.poolCount ∧ ∀ i < s.poolCount, entryAt env s' i = entryAt env s i := by
  refine hrun.invariant (I := fun t => ListKeysApart env t.poolCount →
    s.poolCount ≤ t.poolCount ∧ ∀ i < s.poolCount, entryAt env t i = entryAt env s i)
    (fun _ => ⟨le_rfl, fun _ _ => rfl⟩) (fun t l u ih hstep hkeys => ?_) hkeys
  obtain ⟨hle, hkeep⟩ := hstep.entryAt_of_lt hkeys
  obtain ⟨hle', hkeep'⟩ := ih (hkeys.mono hle)
  exact ⟨hle'.trans hle, fun i hi => (hkeep i (hi.trans_le hle')).trans (hkeep' i hi)⟩

/-! ### What the views answer -/

/-- `Address.fromUint8Array(u256.toUint8Array(true))` undoes `u256.fromBytes(address, true)`. -/
lemma ofNat_toNat (a : Address) : Bytes32.ofNat a.toNat = a := by
  refine Subtype.ext (BigEndian.ofBytes_inj (by simp [Bytes32.ofNat]) ?_)
  have hlt := BigEndian.ofBytes_lt a.val
  rw [a.length_val] at hlt
  exact BigEndian.ofBytes_beBytes_of_lt hlt

lemma Represents.getPoolAddress (hd : Represents env s d) :
    getPoolAddress u p s = (d.lookup (u, p)).getD Address.zero := by
  rw [getPoolAddress_eq, hd.index]
  cases d.lookup (u, p) with
  | none => rfl
  | some pool => exact ofNat_toNat pool

/-- An entry of the list is found under its pair. -/
lemma Represents.lookup_entryAt (hd : Represents env s d) (hi : i < s.poolCount) :
    d.lookup (entryAt env s i).pair = some (entryAt env s i).pool := by
  obtain ⟨e, he, hpair, hpool⟩ := hd.listed i hi
  rw [hpair, hpool]
  exact AList.mem_lookup_iff.mpr (List.mem_reverse.mp (List.mem_of_getElem? he))

/-- Every pair of the directory is in the list. -/
lemma Represents.exists_entryAt (hd : Represents env s d) (hlookup : d.lookup (u, p) = some pool) :
    ∃ i < s.poolCount, (entryAt env s i).pair = (u, p) := by
  have hmem : ⟨(u, p), pool⟩ ∈ d.entries.reverse :=
    List.mem_reverse.mpr (AList.mem_lookup_iff.mp hlookup)
  obtain ⟨i, hi, hget⟩ := List.getElem_of_mem hmem
  have hlt : i < s.poolCount := by rwa [hd.count, ← List.length_reverse]
  obtain ⟨e, he, hpair, -⟩ := hd.listed i hlt
  rw [List.getElem?_eq_getElem hi, hget, Option.some.injEq] at he
  exact ⟨i, hlt, by rw [hpair, ← he]⟩

/-- Different entries are for different pairs. -/
lemma Represents.pair_inj (hd : Represents env s d) (hi : i < s.poolCount) (hj : j < s.poolCount)
    (heq : (entryAt env s i).pair = (entryAt env s j).pair) : i = j := by
  obtain ⟨e, he, hpair, -⟩ := hd.listed i hi
  obtain ⟨e', he', hpair', -⟩ := hd.listed j hj
  have hnodup : (d.entries.reverse.map Sigma.fst).Nodup := by
    rw [List.map_reverse, List.nodup_reverse]
    exact d.nodupKeys
  have hi' : i < (d.entries.reverse.map Sigma.fst).length := by simpa [← hd.count] using hi
  refine (List.getElem?_inj hi' hnodup).mp ?_
  rw [List.getElem?_map, List.getElem?_map, he, he']
  exact congrArg some (hpair.symm.trans (heq.trans hpair'))

/-- After any run from deployment: `getPoolByIndex` and `getPool` agree on every listed pool, no
pair is listed twice, `getPool` answers zero exactly for the pairs that are not listed, later calls
keep the entries, and a call that fails changes nothing. -/
theorem registry_consistent (hkeys : ListKeysApart env s'.poolCount)
    (hrun : Lts.Run (Step env) (onDeployment origin) h s) (hrun' : Lts.Run (Step env) s h' s') :
    (∀ i < s.poolCount, ∃ pool underlying premiumToken,
        getPoolByIndex env i s
          = .ok ([.address pool, .address underlying, .address premiumToken], s) ∧
        pool ≠ Address.zero ∧ underlying ≠ Address.zero ∧ premiumToken ≠ Address.zero ∧
        getPool env underlying premiumToken s = .ok ([.address pool], s)) ∧
      (∀ i < s.poolCount, ∀ j < s.poolCount,
        (entryAt env s i).pair = (entryAt env s j).pair → i = j) ∧
      (∀ u p, getPool env u p s = .ok ([.address Address.zero], s) ↔
        ∀ i < s.poolCount, (entryAt env s i).pair ≠ (u, p)) ∧
      (∀ i < s.poolCount, i < s'.poolCount ∧
        (getPoolByIndex env i s').map Prod.fst = (getPoolByIndex env i s).map Prod.fst) ∧
      ∀ tx c e t, Step env s (.reverted tx c e) t → t = s := by
  obtain ⟨hle, hkeep⟩ := entryAt_of_run hrun' hkeys
  obtain ⟨d, hd⟩ := represents_of_run hrun (hkeys.mono hle)
  have hpool : ∀ u p pool, d.lookup (u, p) = some pool → pool ≠ Address.zero :=
    fun u p pool hlookup => (hd.valid _ (AList.mem_lookup_iff.mp hlookup)).2.2
  refine ⟨fun i hi => ?_, fun i hi j hj => hd.pair_inj hi hj, fun u p => ?_, fun i hi => ?_,
    fun tx c e t hstep => ?_⟩
  · have hlookup := hd.lookup_entryAt hi
    obtain ⟨hu, hp, hne⟩ := hd.valid _ (AList.mem_lookup_iff.mp hlookup)
    refine ⟨_, _, _, getPoolByIndex_eq hi, hne, hu, hp, ?_⟩
    rw [getPool_eq, hd.getPoolAddress, show ((entryAt env s i).underlying,
      (entryAt env s i).premiumToken) = (entryAt env s i).pair from rfl, hlookup]
    rfl
  · rw [getPool_eq, hd.getPoolAddress]
    cases hlookup : d.lookup (u, p) with
    | none =>
      refine iff_of_true rfl fun i hi hpair => ?_
      have hfound := hd.lookup_entryAt hi
      rw [hpair, hlookup] at hfound
      cases hfound
    | some pool =>
      obtain ⟨i, hi, hpair⟩ := hd.exists_entryAt hlookup
      refine iff_of_false (fun heq => ?_) fun hnone => hnone i hi hpair
      have haddress : pool = Address.zero := by simpa using heq
      exact hpool u p pool hlookup haddress
  · refine ⟨hi.trans_le hle, ?_⟩
    rw [getPoolByIndex_eq hi, getPoolByIndex_eq (hi.trans_le hle), hkeep i hi]
    rfl
  · cases hstep
    rfl

end

/-! ### Two registered pools -/

namespace Testnet

def account (n : ℕ) : Address := Bytes32.ofNat n

/-- The hash keeps the last 32 bytes. -/
def env : Env where
  contractAddress := account 1
  writers := .fixed
  sha256 := fun bytes => Bytes32.ofNat (BigEndian.ofBytes bytes)
  csvTimelock := fun pubkey _ => pubkey
  slot := fun bytes => bytes
  priceCachePointer := 2
  consumedOutputsPointer := 3

/-- A transaction of account 10, on a chain that deploys nothing. -/
def tx : FactoryTx where
  sender := account 10
  deployContractFromExisting := fun _ _ _ => .error (.revert "not supported")
  deployed_ne_zero := fun h => by cases h

def deployed : FactoryStorage := onDeployment (account 10)

/-- The owner registers a pool. -/
def registered (pool underlying premiumToken : ℕ) (s : FactoryStorage) : FactoryStorage :=
  match registerPool env tx (account pool) (account underlying) (account premiumToken) s with
  | .ok (_, s) => s
  | .error _ => s

lemma step_registered (pool underlying premiumToken : ℕ) {s : FactoryStorage}
    (h : (registerPool env tx (account pool) (account underlying) (account premiumToken) s).isOk
      = true) :
    ∃ l, Step env s l (registered pool underlying premiumToken s) := by
  rw [registered]
  cases hexec : registerPool env tx (account pool) (account underlying)
      (account premiumToken) s with
  | error e =>
    rw [hexec] at h
    cases h
  | ok reply => exact ⟨_, .call (c := .registerPool _ _ _) hexec⟩

/-- A pool for a pair, then one for the pair the other way round. -/
def listed : FactoryStorage := registered 6 3 2 (registered 5 2 3 deployed)

theorem registry_consistent_listed :
    listed.poolCount = 2 ∧ ∀ i < 2, ∀ j < 2,
      (entryAt env listed i).pair = (entryAt env listed j).pair → i = j := by
  obtain ⟨l, hfirst⟩ := step_registered 5 2 3 (s := deployed) (by decide +kernel)
  obtain ⟨l', hsecond⟩ := step_registered 6 3 2 (s := registered 5 2 3 deployed)
    (by decide +kernel)
  have hrun : Lts.Run (Step env) deployed [(l', listed), (l, registered 5 2 3 deployed)] listed :=
    (Lts.Run.nil.cons hfirst).cons hsecond
  have hkeys : ∀ i j : Fin 2, ∀ slot slot' : Fin 3,
      poolListKey env i slot = poolListKey env j slot' →
        poolListPreimage i slot = poolListPreimage j slot' := by
    decide +kernel
  have hcount : listed.poolCount = 2 := by decide +kernel
  have hapart : ListKeysApart env listed.poolCount := by
    rw [hcount]
    exact fun i hi j hj slot hslot slot' hslot' =>
      hkeys ⟨i, hi⟩ ⟨j, hj⟩ ⟨slot, hslot⟩ ⟨slot', hslot'⟩
  have hunique := (registry_consistent hapart hrun .nil).2.1
  rw [hcount] at hunique
  exact ⟨hcount, hunique⟩

end Testnet

end Frogop.Factory
