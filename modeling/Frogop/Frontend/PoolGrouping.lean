import Frogop.Indexer.Decoder
import Frogop.Lib.Pairing
import Mathlib.Data.List.Sort

/-!
# Inverse pools

The list of pools shows a pool next to the one that trades the same two tokens the other way round.
`groupInversePairs` is a greedy pairing of the pools (`pairing_groupLoop`), so no two pools that
could share a row are left with a row each.
-/

namespace Frogop.Frontend.PoolGrouping

open Pairing

structure PoolEntry where
  address : String
  underlying : String
  premiumToken : String
  poolId : Option String
  underlyingSymbol : Option String
  premiumSymbol : Option String
  deriving DecidableEq, Repr

/-- `configs` has the configs of `pools`; the second of both is `undefined` in a group of one. -/
structure PoolGroup (PoolConfig : Type) where
  market : String
  sortKey : String
  pools : PoolEntry × Option PoolEntry
  configs : Option PoolConfig × Option (Option PoolConfig)
  deriving DecidableEq, Repr

/-- The methods of texts that depend on Unicode tables and on the locale of the browser. -/
structure Texts where
  toLowerCase : String → String
  localeCompare : String → String → ℤ

/-- The code units of a character. -/
def utf16 (c : Char) : List ℕ :=
  if c.toNat < 0x10000 then [c.toNat]
  else [0xd800 + (c.toNat - 0x10000) / 0x400, 0xdc00 + (c.toNat - 0x10000) % 0x400]

def codeUnits (text : String) : List ℕ := text.toList.flatMap utf16

/-- `[a, b].sort()`, by code units. -/
def sortTwo (a b : String) : String × String := if codeUnits b < codeUnits a then (b, a) else (a, b)

section

variable {PoolConfig : Type} (texts : Texts) (findConfig : PoolEntry → Option PoolConfig)

/-- The test of the inner loop: the same tokens, in opposite directions. -/
def IsInverse (a b : PoolEntry) : Prop :=
  texts.toLowerCase a.underlying = texts.toLowerCase b.premiumToken ∧
    texts.toLowerCase a.premiumToken = texts.toLowerCase b.underlying

instance (a b : PoolEntry) : Decidable (IsInverse texts a b) :=
  inferInstanceAs (Decidable (_ ∧ _))

/-- The group of `a` and its inverse, if there is one. -/
def makeGroup (a : PoolEntry) (inverse : Option PoolEntry) : PoolGroup PoolConfig :=
  let symA := a.underlyingSymbol.getD "A"
  let symB := a.premiumSymbol.getD "B"
  let sorted := sortTwo symA symB
  { market := sorted.1 ++ " ↔ " ++ sorted.2
    sortKey := sorted.1 ++ "_" ++ sorted.2
    pools := (a, inverse)
    configs := (findConfig a, inverse.map findConfig) }

/-- The loops of `groupInversePairs`, over the pools that are left. -/
def groupLoop : List String → List PoolEntry → List (PoolGroup PoolConfig)
  | _, [] => []
  | used, a :: pools =>
    if a.address ∈ used then groupLoop used pools
    else
      match pools.find? fun b => b.address ∉ used ∧ IsInverse texts a b with
      | some inverse =>
        makeGroup findConfig a (some inverse) ::
          groupLoop (inverse.address :: a.address :: used) pools
      | none => makeGroup findConfig a none :: groupLoop (a.address :: used) pools

def groupInversePairs (pools : List PoolEntry) : List (PoolGroup PoolConfig) :=
  (groupLoop texts findConfig [] pools).insertionSort fun a b =>
    texts.localeCompare a.sortKey b.sortKey ≤ 0

end

/-! ### The loops pair greedily -/

section

variable {PoolConfig : Type} {texts : Texts} {findConfig : PoolEntry → Option PoolConfig}
  {used : List String} {pools : List PoolEntry} {a b : PoolEntry}

lemma IsInverse.symm (h : IsInverse texts a b) : IsInverse texts b a := ⟨h.2.symm, h.1.symm⟩

/-- The pools that are not in use. -/
def unused (used : List String) (pools : List PoolEntry) : List PoolEntry :=
  pools.filter fun p => p.address ∉ used

/-- Using the address of a pool takes this pool away, and no other. -/
lemma unused_perm (hnodup : (pools.map PoolEntry.address).Nodup) (hb : b ∈ pools)
    (hfree : b.address ∉ used) :
    (unused used pools).Perm (b :: unused (b.address :: used) pools) := by
  induction pools with
  | nil => cases hb
  | cons p pools ih =>
    rw [List.map_cons, List.nodup_cons] at hnodup
    rcases List.mem_cons.mp hb with rfl | hmem
    · have hothers : unused (b.address :: used) pools = unused used pools := by
        apply List.filter_congr
        intro p hp
        have hne : p.address ≠ b.address := by
          intro heq
          exact hnodup.1 (heq ▸ List.mem_map_of_mem hp)
        simp [hne]
      have hself : unused (b.address :: used) (b :: pools) = unused (b.address :: used) pools :=
        List.filter_cons_of_neg (by simp)
      have hkept : unused used (b :: pools) = b :: unused used pools :=
        List.filter_cons_of_pos (by simpa using hfree)
      rw [hself, hothers, hkept]
    · have hne : p.address ≠ b.address := by
        intro heq
        exact hnodup.1 (heq ▸ List.mem_map_of_mem hmem)
      have hrest := ih hnodup.2 hmem
      by_cases hp : p.address ∈ used
      · simpa [unused, List.filter_cons, hp] using hrest
      · have hhead : unused used (p :: pools) = p :: unused used pools :=
          List.filter_cons_of_pos (by simpa using hp)
        have hhead' : unused (b.address :: used) (p :: pools)
            = p :: unused (b.address :: used) pools :=
          List.filter_cons_of_pos (by simp [hp, hne])
        rw [hhead, hhead']
        exact (hrest.cons p).trans (.swap b p _)

/-- A pool that comes first is no longer there for the others. -/
lemma unused_cons_of_notMem (h : a.address ∉ pools.map PoolEntry.address) :
    unused (a.address :: used) pools = unused used pools := by
  apply List.filter_congr
  intro p hp
  have hne : p.address ≠ a.address := by
    intro heq
    exact h (heq ▸ List.mem_map_of_mem hp)
  simp [hne]

/-- What the loops make of the pools that are not in use is a greedy pairing. -/
lemma pairing_groupLoop (hnodup : (pools.map PoolEntry.address).Nodup) :
    Pairing (IsInverse texts) (unused used pools)
      ((groupLoop texts findConfig used pools).map PoolGroup.pools) := by
  induction pools generalizing used with
  | nil => exact .nil
  | cons a pools ih =>
    rw [List.map_cons, List.nodup_cons] at hnodup
    rw [groupLoop]
    by_cases hused : a.address ∈ used
    · have hskip : unused used (a :: pools) = unused used pools :=
        List.filter_cons_of_neg (by simpa using hused)
      rw [if_pos hused, hskip]
      exact ih hnodup.2
    · have hfirst : unused used (a :: pools) = a :: unused used pools :=
        List.filter_cons_of_pos (by simpa using hused)
      rw [if_neg hused, hfirst]
      cases hfind : pools.find? fun b => b.address ∉ used ∧ IsInverse texts a b with
      | some inverse =>
        have hmem := List.mem_of_find?_eq_some hfind
        have htest := List.find?_some hfind
        obtain ⟨hfree, hinverse⟩ := of_decide_eq_true htest
        have hfree' : inverse.address ∉ a.address :: used := by
          intro hin
          rcases List.mem_cons.mp hin with heq | hin
          · exact hnodup.1 (heq ▸ List.mem_map_of_mem hmem)
          · exact hfree hin
        have hperm := unused_perm hnodup.2 hmem hfree'
        rw [unused_cons_of_notMem hnodup.1] at hperm
        exact .pair hinverse hperm (ih hnodup.2)
      | none =>
        refine .single ?_ ?_
        · intro b hb hinverse
          have hnot := List.find?_eq_none.mp hfind b (List.mem_of_mem_filter hb)
          have hfree := of_decide_eq_true (List.mem_filter.mp hb).2
          exact hnot (decide_eq_true ⟨hfree, hinverse⟩)
        · rw [← unused_cons_of_notMem hnodup.1]
          exact ih hnodup.2

lemma configs_groupLoop : ∀ g ∈ groupLoop texts findConfig used pools,
    g.configs = (findConfig g.pools.1, g.pools.2.map findConfig) := by
  induction pools generalizing used with
  | nil => simp [groupLoop]
  | cons a pools ih =>
    rw [groupLoop]
    split
    · exact ih
    · split
      · exact List.forall_mem_cons.mpr ⟨rfl, ih⟩
      · exact List.forall_mem_cons.mpr ⟨rfl, ih⟩

lemma groupInversePairs_perm (texts : Texts) (findConfig : PoolEntry → Option PoolConfig)
    (pools : List PoolEntry) :
    (groupInversePairs texts findConfig pools).Perm (groupLoop texts findConfig [] pools) :=
  List.perm_insertionSort _ _

end

/-- For pools with addresses of their own the groups hold every pool once. Two pools in one group
are inverse, the configs are those of the pools, and no two pools that are alone are inverse. -/
theorem groupInversePairs_maximal {PoolConfig : Type} (texts : Texts)
    (findConfig : PoolEntry → Option PoolConfig) (pools : List PoolEntry)
    (hnodup : (pools.map PoolEntry.address).Nodup) :
    ((groupInversePairs texts findConfig pools).flatMap fun g => members g.pools).Perm pools ∧
    (∀ p ∈ pools, ∃! g, g ∈ groupInversePairs texts findConfig pools ∧ p ∈ members g.pools) ∧
    (∀ g ∈ groupInversePairs texts findConfig pools, ∀ b, g.pools.2 = some b →
      IsInverse texts g.pools.1 b) ∧
    (∀ g ∈ groupInversePairs texts findConfig pools,
      g.configs = (findConfig g.pools.1, g.pools.2.map findConfig)) ∧
    (groupInversePairs texts findConfig pools).Pairwise fun g g' =>
      g.pools.2 = none → g'.pools.2 = none → ¬ IsInverse texts g.pools.1 g'.pools.1 := by
  have hperm := groupInversePairs_perm texts findConfig pools
  have hpairing : Pairing (IsInverse texts) pools
      ((groupLoop texts findConfig [] pools).map PoolGroup.pools) := by
    have hloop : Pairing (IsInverse texts) (unused [] pools)
        ((groupLoop texts findConfig [] pools).map PoolGroup.pools) := pairing_groupLoop hnodup
    rwa [unused, List.filter_eq_self.mpr (by simp)] at hloop
  have hall : ((groupInversePairs texts findConfig pools).flatMap fun g => members g.pools).Perm
      pools := by
    have hloop := hpairing.perm
    rw [List.flatMap_map] at hloop
    exact (hperm.flatMap_right _).trans hloop
  refine ⟨hall, ?_, ?_, ?_, ?_⟩
  · intro p hp
    exact hall.existsUnique_part (List.Nodup.of_map _ hnodup) hp
  · intro g hg b hb
    apply hpairing.related
    refine List.mem_map.mpr ⟨g, hperm.mem_iff.mp hg, ?_⟩
    rw [← hb]
  · intro g hg
    exact configs_groupLoop g (hperm.mem_iff.mp hg)
  · apply hperm.symm.pairwise
    · exact List.pairwise_map.mp hpairing.maximal
    · intro g g' hnot hg hg' hinverse
      exact hnot hg' hg hinverse.symm

namespace Example

def texts : Texts where
  toLowerCase := Indexer.toLowerCase
  localeCompare a b := if codeUnits a < codeUnits b then -1 else if a = b then 0 else 1

def pool (address underlying premiumToken : String) : PoolEntry :=
  ⟨address, underlying, premiumToken, none, some "MOTO", some "PILL"⟩

end Example

open Example in
/-- The first of two equal pools takes the inverse of both. -/
theorem groupInversePairs_maximal_three :
    (groupInversePairs texts (fun p => some p.address)
        [pool "p1" "0xAA" "0xBB", pool "p2" "0xaa" "0xbb", pool "p3" "0xBb" "0xaA"]).map
        PoolGroup.pools
      = [(pool "p1" "0xAA" "0xBB", some (pool "p3" "0xBb" "0xaA")),
        (pool "p2" "0xaa" "0xbb", none)] ∧
    ∃! g, g ∈ groupInversePairs texts (fun p => some p.address)
        [pool "p1" "0xAA" "0xBB", pool "p2" "0xaa" "0xbb", pool "p3" "0xBb" "0xaA"] ∧
      pool "p3" "0xBb" "0xaA" ∈ members g.pools := by
  refine ⟨by decide, ?_⟩
  exact (groupInversePairs_maximal texts (fun p => some p.address)
    [pool "p1" "0xAA" "0xBB", pool "p2" "0xaa" "0xbb", pool "p3" "0xBb" "0xaA"] (by decide)).2.1 _
    (by simp)

end Frogop.Frontend.PoolGrouping
