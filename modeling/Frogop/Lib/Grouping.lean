import Mathlib.Data.List.Nodup
import Mathlib.Data.List.Perm.Basic
import Mathlib.Tactic.Common

/-!
# Grouping

Maps and sets that keep their keys in the order of insertion, as lists. A loop that updates the
entry of a key for every element of a list leaves, under each key, what the elements with that key
make of it (`get_foldl_update`).
-/

namespace Grouping

variable {α K V : Type*} [DecidableEq K]

/-! ### Maps -/

def get : List (K × V) → K → Option V
  | [], _ => none
  | (k', v) :: m, k => if k' = k then some v else get m k

/-- `map.set(k, f(map.get(k) ?? d))` -/
def update (d : V) : List (K × V) → K → (V → V) → List (K × V)
  | [], k, f => [(k, f d)]
  | (k', v) :: m, k, f => if k' = k then (k', f v) :: m else (k', v) :: update d m k f

def set (m : List (K × V)) (k : K) (v : V) : List (K × V) := update v m k fun _ => v

/-- `set.add(k)` -/
def add (s : List K) (k : K) : List K := if k ∈ s then s else s ++ [k]

/-- The elements of a list, in order, under their keys. -/
def groupBy (key : α → K) (l : List α) : List (K × List α) :=
  l.foldl (fun m a => update [] m (key a) (· ++ [a])) []

section

variable {m : List (K × V)} {k k' : K} {v d : V} {f : V → V} {key : α → K} {l : List α} {a : α}

@[simp] lemma get_nil : get ([] : List (K × V)) k = none := rfl

lemma get_update : get (update d m k' f) k
    = if k' = k then some (f ((get m k).getD d)) else get m k := by
  induction m with
  | nil => rfl
  | cons entry m ih =>
    obtain ⟨k₀, v⟩ := entry
    by_cases h₀ : k₀ = k'
    · subst h₀
      by_cases hk : k₀ = k <;> simp [update, get, hk]
    · by_cases hk : k₀ = k
      · have hne : k' ≠ k := fun h => h₀ (hk.trans h.symm)
        simp [update, get, hk, hne, hne.symm]
      · simp [update, get, h₀, hk, ih]

lemma get_set : get (set m k' v) k = if k' = k then some v else get m k := get_update

lemma mem_keys_iff : k ∈ m.map Prod.fst ↔ get m k ≠ none := by
  induction m with
  | nil => simp
  | cons entry m ih =>
    obtain ⟨k₀, v⟩ := entry
    by_cases hk : k₀ = k
    · simp [get, hk]
    · rw [List.map_cons, List.mem_cons, ih, get, if_neg hk]
      exact or_iff_right fun h => hk h.symm

lemma get_of_mem (hm : (m.map Prod.fst).Nodup) (h : (k, v) ∈ m) : get m k = some v := by
  induction m with
  | nil => cases h
  | cons entry m ih =>
    obtain ⟨k₀, v₀⟩ := entry
    rw [List.map_cons, List.nodup_cons] at hm
    rcases List.mem_cons.mp h with heq | hmem
    · cases heq
      exact if_pos rfl
    · have hne : k₀ ≠ k := by
        rintro rfl
        exact hm.1 (List.mem_map.mpr ⟨_, hmem, rfl⟩)
      rw [get, if_neg hne]
      exact ih hm.2 hmem

/-- Other names for the keys, and other values. -/
lemma get_map {K' V' : Type*} [DecidableEq K'] {c : K → K'} (hc : Function.Injective c)
    (r : V → V') : get (m.map fun entry => (c entry.1, r entry.2)) (c k) = (get m k).map r := by
  induction m with
  | nil => rfl
  | cons entry m ih =>
    obtain ⟨k₀, v⟩ := entry
    rw [List.map_cons, get, get, ih]
    by_cases hk : k₀ = k
    · simp [hk]
    · simp [hk, hc.eq_iff]

lemma keys_update : (update d m k f).map Prod.fst
    = if k ∈ m.map Prod.fst then m.map Prod.fst else m.map Prod.fst ++ [k] := by
  induction m with
  | nil => rfl
  | cons entry m ih =>
    obtain ⟨k₀, v⟩ := entry
    by_cases hk : k₀ = k
    · simp [update, hk]
    · simp only [update, if_neg hk, List.map_cons, ih, List.mem_cons, Ne.symm hk, false_or]
      split_ifs <;> rfl

/-- Setting the entries of another map: the new ones win. -/
lemma get_foldl_set {m' : List (K × V)} (h : (m'.map Prod.fst).Nodup) :
    get (m'.foldl (fun m entry => set m entry.1 entry.2) m) k = (get m' k).or (get m k) := by
  induction m' generalizing m with
  | nil => rfl
  | cons entry m' ih =>
    obtain ⟨k₀, v⟩ := entry
    rw [List.map_cons, List.nodup_cons] at h
    rw [List.foldl_cons, ih h.2, get_set, get]
    by_cases hk : k₀ = k
    · subst hk
      have hnone : get m' k₀ = none := not_ne_iff.mp fun hne => h.1 (mem_keys_iff.mpr hne)
      simp [hnone]
    · simp [hk]

/-! ### Sets -/

lemma mem_add {s : List K} : k ∈ add s k' ↔ k ∈ s ∨ k' = k := by
  rw [add]
  split_ifs with hmem
  · refine ⟨.inl, ?_⟩
    rintro (h | rfl)
    · exact h
    · exact hmem
  · simp [eq_comm]

lemma nodup_add {s : List K} (h : s.Nodup) : (add s k).Nodup := by
  rw [add]
  split_ifs with hmem
  · exact h
  · refine List.nodup_append.mpr ⟨h, List.nodup_singleton k, ?_⟩
    intro k₁ hk₁ k₂ hk₂ heq
    rw [List.mem_singleton.mp hk₂] at heq
    exact hmem (heq ▸ hk₁)

lemma mem_foldl_add {s : List K} :
    k ∈ l.foldl (fun s a => add s (key a)) s ↔ k ∈ s ∨ ∃ a ∈ l, key a = k := by
  induction l generalizing s with
  | nil => simp
  | cons a l ih => simp [ih, mem_add, or_assoc]

lemma nodup_foldl_add {s : List K} (h : s.Nodup) :
    (l.foldl (fun s a => add s (key a)) s).Nodup := by
  induction l generalizing s with
  | nil => exact h
  | cons a l ih => exact ih (nodup_add h)

/-- The keys of a map that was updated in a loop are those of a set that they were added to. -/
lemma keys_foldl_update {f : α → V → V} :
    (l.foldl (fun m a => update d m (key a) (f a)) m).map Prod.fst
      = l.foldl (fun s a => add s (key a)) (m.map Prod.fst) := by
  induction l generalizing m with
  | nil => rfl
  | cons a l ih => rw [List.foldl_cons, ih, keys_update, List.foldl_cons, add]

/-! ### Loops -/

/-- Under a key, a loop does what it does for the elements with that key. -/
lemma get_foldl_update {f : α → V → V} :
    get (l.foldl (fun m a => update d m (key a) (f a)) m) k
      = if l.filter (fun a => key a = k) = [] then get m k
        else some ((l.filter fun a => key a = k).foldl (fun v a => f a v) ((get m k).getD d)) := by
  induction l generalizing m with
  | nil => rfl
  | cons a l ih =>
    rw [List.foldl_cons, ih, get_update, List.filter_cons]
    by_cases hk : key a = k
    · simp only [hk, decide_true, if_true, Option.getD_some, List.foldl_cons, reduceCtorEq,
        if_false]
      split_ifs with hrest
      · rw [hrest]
        rfl
      · rfl
    · simp only [hk, decide_false, Bool.false_eq_true, if_false]

lemma foldl_append_singleton (l l₀ : List α) : l.foldl (fun v a => v ++ [a]) l₀ = l₀ ++ l := by
  induction l generalizing l₀ with
  | nil => simp
  | cons a l ih => simp [ih]

/-- Under a key there are the elements with that key. -/
lemma get_groupBy : get (groupBy key l) k
    = if l.filter (fun a => key a = k) = [] then none
      else some (l.filter fun a => key a = k) := by
  rw [groupBy, get_foldl_update]
  simp only [get_nil, Option.getD_none, foldl_append_singleton, List.nil_append]

lemma mem_keys_groupBy : k ∈ (groupBy key l).map Prod.fst ↔ ∃ a ∈ l, key a = k := by
  rw [groupBy, keys_foldl_update, mem_foldl_add]
  simp

/-- Groups with different keys make up the list. -/
lemma flatMap_filter_perm {ks : List K} (hks : ks.Nodup) (h : ∀ a ∈ l, key a ∈ ks) :
    (ks.flatMap fun k => l.filter fun a => key a = k).Perm l := by
  induction ks generalizing l with
  | nil =>
    have hnil : l = [] := by
      rw [List.eq_nil_iff_forall_not_mem]
      intro a ha
      simpa using h a ha
    simp [hnil]
  | cons k ks ih =>
    rw [List.nodup_cons] at hks
    rw [List.flatMap_cons]
    have hrest : ∀ a ∈ l.filter (fun a => key a ≠ k), key a ∈ ks := by
      intro a ha
      rw [List.mem_filter, decide_eq_true_eq] at ha
      exact (List.mem_cons.mp (h a ha.1)).resolve_left ha.2
    -- Leaving the elements with the first key out changes no other group.
    have hsame : (ks.flatMap fun k' => l.filter fun a => key a = k')
        = ks.flatMap fun k' => (l.filter fun a => key a ≠ k).filter fun a => key a = k' := by
      refine List.flatMap_congr fun k' hk' => ?_
      rw [List.filter_filter]
      refine List.filter_congr fun a _ => ?_
      by_cases hkey : key a = k'
      · have hne : k' ≠ k := fun heq => hks.1 (heq ▸ hk')
        simp [hkey, hne]
      · simp [hkey]
    rw [hsame]
    apply ((ih hks.2 hrest).append_left _).trans
    have hsplit := List.filter_append_perm (fun a => decide (key a = k)) l
    simpa using hsplit

end

/-- A loop that never fails is a loop. -/
lemma foldlM_eq_some {β : Type*} {l : List α} {f : β → α → Option β} {g : β → α → β} {b : β}
    (h : ∀ b, ∀ a ∈ l, f b a = some (g b a)) : l.foldlM f b = some (l.foldl g b) := by
  induction l generalizing b with
  | nil => rfl
  | cons a l ih =>
    rw [List.foldlM_cons, h b a List.mem_cons_self, Option.bind_eq_bind, Option.bind_some,
      List.foldl_cons]
    exact ih fun b a' ha' => h b a' (List.mem_cons_of_mem _ ha')

end Grouping
