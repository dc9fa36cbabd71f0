import Mathlib.Data.List.Nodup
import Mathlib.Tactic.Common

/-!
# Claims decided on a snapshot

A bounded table holds one entry for each key. A claim looks its key up in a snapshot of the table:
where the key stands, or else whether there is room. The update it decides on is applied to the
table as it is by then. That is sound exactly when the latest table gives the answers the snapshot
gave (`claim_sound_iff`).
-/

namespace Snapshot

variable {E K : Type*} (key : E → K) (cap : ℕ)

/-- At most `cap` entries, with distinct keys. -/
structure Valid (l : List E) : Prop where
  bounded : l.length ≤ cap
  distinct : (l.map key).Nodup

/-- What a claim promises: a valid table that holds its entry, and what had another key. -/
structure Sound (latest : List E) (e : E) (latest' : List E) : Prop where
  valid : Valid key cap latest'
  held : e ∈ latest'
  kept : ∀ f ∈ latest, key f ≠ key e → f ∈ latest'

variable {key cap} {l l' latest : List E} {e f : E} {i : ℕ}

lemma Valid.sublist (h : Valid key cap l) (hsub : l'.Sublist l) : Valid key cap l' :=
  ⟨Nat.le_trans hsub.length_le h.bounded, (hsub.map key).nodup h.distinct⟩

/-- Changing entries but not their keys keeps a table valid. -/
lemma Valid.map (h : Valid key cap l) {g : E → E} (hg : ∀ e, key (g e) = key e) :
    Valid key cap (l.map g) := by
  constructor
  · rw [List.length_map]
    exact h.bounded
  · rw [List.map_map, show key ∘ g = key from funext hg]
    exact h.distinct

/-- Replacing an entry by one of the same key leaves the keys as they are. -/
lemma map_set_of_key (hi : l[i]?.map key = some (key e)) : (l.set i e).map key = l.map key := by
  rw [← List.getElem?_map] at hi
  obtain ⟨hlt, hkey⟩ := List.getElem?_eq_some_iff.mp hi
  rw [List.map_set, ← hkey, List.set_getElem_self]

lemma mem_set_of_ne (hf : f ∈ l) (hne : l[i]? ≠ some f) : f ∈ l.set i e := by
  obtain ⟨j, hj⟩ := List.mem_iff_getElem?.mp hf
  have hij : i ≠ j := by
    rintro rfl
    exact hne hj
  exact List.mem_iff_getElem?.mpr ⟨j, by rwa [List.getElem?_set_ne hij]⟩

/-- An entry that is set over another is lost, its key standing nowhere else. -/
lemma not_mem_set (h : (l.map key).Nodup) (hf : l[i]? = some f) (hne : f ≠ e) :
    f ∉ l.set i e := by
  intro hmem
  obtain ⟨j, hj⟩ := List.mem_iff_getElem?.mp hmem
  obtain ⟨hlt, rfl⟩ := List.getElem?_eq_some_iff.mp hf
  by_cases hij : i = j
  · subst hij
    rw [List.getElem?_set_self hlt] at hj
    exact hne (Option.some.inj hj).symm
  · rw [List.getElem?_set_ne hij] at hj
    obtain ⟨hltj, hsame⟩ := List.getElem?_eq_some_iff.mp hj
    exact hij ((h.of_map key).getElem_inj_iff.mp hsame).symm

/-- Replacing in the place where the snapshot has the key is sound exactly when the latest table
has the key in that place. -/
lemma set_sound_iff (h : Valid key cap latest) (hnew : e ∉ latest) :
    Sound key cap latest e (latest.set i e) ↔ latest[i]?.map key = some (key e) := by
  constructor
  · intro hsound
    cases hi : latest[i]? with
    | none =>
      -- past the end, nothing is written
      rw [List.set_eq_of_length_le (List.getElem?_eq_none_iff.mp hi)] at hsound
      exact absurd hsound.held hnew
    | some f =>
      have hmem : f ∈ latest := List.mem_of_getElem? hi
      rw [Option.map_some, Option.some.injEq]
      by_contra hkey
      have hne : f ≠ e := fun heq => hkey (congrArg key heq)
      exact not_mem_set h.distinct hi hne (hsound.kept f hmem hkey)
  · intro hi
    refine ⟨⟨?_, ?_⟩, ?_, ?_⟩
    · rw [List.length_set]
      exact h.bounded
    · rw [map_set_of_key hi]
      exact h.distinct
    · obtain ⟨f, hf, -⟩ := Option.map_eq_some_iff.mp hi
      obtain ⟨hlt, -⟩ := List.getElem?_eq_some_iff.mp hf
      exact List.mem_set hlt e
    · intro f hf hkey
      apply mem_set_of_ne hf
      intro hif
      rw [hif] at hi
      exact hkey (Option.some.inj hi)

/-- Adding an entry is sound exactly when its key is new and there is room. -/
lemma append_sound_iff (h : Valid key cap latest) :
    Sound key cap latest e (latest ++ [e]) ↔ key e ∉ latest.map key ∧ latest.length < cap := by
  constructor
  · intro hsound
    have hlength := hsound.valid.bounded
    have hdistinct := hsound.valid.distinct
    rw [List.length_append, List.length_singleton] at hlength
    rw [List.map_append, List.map_singleton, List.nodup_append] at hdistinct
    refine ⟨?_, hlength⟩
    intro hmem
    exact hdistinct.2.2 _ hmem _ (List.mem_singleton_self _) rfl
  · rintro ⟨hfree, hroom⟩
    refine ⟨⟨?_, ?_⟩, ?_, ?_⟩
    · rwa [List.length_append, List.length_singleton]
    · rw [List.map_append, List.map_singleton, List.nodup_append]
      refine ⟨h.distinct, List.nodup_singleton _, ?_⟩
      intro k hk k' hk' heq
      rw [List.mem_singleton.mp hk'] at heq
      exact hfree (heq ▸ hk)
    · exact List.mem_append_right _ (List.mem_singleton_self e)
    · intro f hf _
      exact List.mem_append_left _ hf

/-! ### Claims -/

variable [DecidableEq K]

variable (key cap) in
/-- Where a key stands in a table. -/
def place (l : List E) (k : K) : Option ℕ := l.findIdx? fun e => key e = k

variable (key cap) in
/-- The update that a claim decides on: its entry takes the place of the key, or is added. -/
def claim (snapshot : List E) (e : E) : Option (List E → List E) :=
  match place key snapshot (key e) with
  | some i => some fun latest => latest.set i e
  | none => if cap ≤ snapshot.length then none else some fun latest => latest ++ [e]

variable (key cap) in
/-- The latest table answers what the snapshot answers: the same place, or none and room. -/
def Agrees (snapshot latest : List E) (k : K) : Prop :=
  place key latest k = place key snapshot k ∧ (place key snapshot k = none → latest.length < cap)

instance (snapshot latest : List E) (k : K) :
    Decidable (Agrees key cap snapshot latest k) :=
  inferInstanceAs (Decidable (_ ∧ _))

variable {snapshot : List E} {k : K} {update : List E → List E}

lemma place_eq_none : place key l k = none ↔ k ∉ l.map key := by
  rw [place, List.findIdx?_eq_none_iff, List.mem_map]
  simp

lemma place_eq_some (h : (l.map key).Nodup) : place key l k = some i ↔ l[i]?.map key = some k := by
  rw [place, List.findIdx?_eq_some_iff_getElem]
  constructor
  · rintro ⟨hlt, hkey, -⟩
    rw [List.getElem?_eq_getElem hlt]
    exact congrArg some (of_decide_eq_true hkey)
  · intro hi
    obtain ⟨e, he, hkey⟩ := Option.map_eq_some_iff.mp hi
    obtain ⟨hlt, rfl⟩ := List.getElem?_eq_some_iff.mp he
    refine ⟨hlt, decide_eq_true hkey, ?_⟩
    intro j hj hkeyj
    -- the key stands in no place before
    have hltj : j < l.length := Nat.lt_trans hj hlt
    have hsame : (l.map key)[j]? = (l.map key)[i]? := by
      rw [List.getElem?_map, List.getElem?_map, List.getElem?_eq_getElem hltj,
        List.getElem?_eq_getElem hlt, Option.map_some, Option.map_some, hkey]
      exact congrArg some (of_decide_eq_true hkeyj)
    apply Nat.ne_of_lt hj
    exact (List.getElem?_inj (by rwa [List.length_map]) h).mp hsame

theorem claim_sound_iff (h : Valid key cap latest) (hnew : e ∉ latest)
    (hclaim : claim key cap snapshot e = some update) :
    Sound key cap latest e (update latest) ↔ Agrees key cap snapshot latest (key e) := by
  rw [claim] at hclaim
  rw [Agrees]
  split at hclaim
  · rename_i i hplace
    cases hclaim
    rw [set_sound_iff h hnew, hplace, place_eq_some h.distinct]
    simp
  · rename_i hplace
    split_ifs at hclaim with hfull
    cases hclaim
    rw [append_sound_iff h, hplace, place_eq_none]
    simp

end Snapshot
