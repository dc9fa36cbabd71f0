import Mathlib.Data.List.Induction
import Mathlib.Data.List.Nodup
import Mathlib.Tactic.Common

/-!
# Tables with a primary key

`replace` is `INSERT OR REPLACE`: the row with the key of the new one goes, and the new one is added
at the end. After a batch of them, a key holds the last row of the batch that has it
(`get_foldl_replace`). `ignore` is `INSERT OR IGNORE`, after which a key holds its first row.
-/

namespace Upsert

variable {Row Key : Type*} [DecidableEq Key] (key : Row → Key)

def replace (rows : List Row) (row : Row) : List Row :=
  rows.filter (fun r => key r ≠ key row) ++ [row]

/-- The row under a key. -/
def get (rows : List Row) (k : Key) : Option Row := rows.find? fun r => key r = k

/-- `INSERT OR IGNORE` -/
def ignore (rows : List Row) (row : Row) : List Row :=
  if ∃ r ∈ rows, key r = key row then rows else rows ++ [row]

/-- `UPDATE … WHERE key = k` -/
def update (set : Row → Row) (rows : List Row) (k : Key) : List Row :=
  rows.map fun r => if key r = k then set r else r

/-- The last row with a key. -/
def lastOf (rows : List Row) (k : Key) : Option Row := (rows.filter fun r => key r = k).getLast?

variable {key} {rows new : List Row} {row r : Row} {k : Key}

lemma get_replace : get key (replace key rows row) k = if key row = k then some row
    else get key rows k := by
  unfold get replace
  rw [List.find?_append, List.find?_filter]
  split_ifs with hk
  · subst hk
    have hgone : rows.find? (fun r => decide (decide (key r ≠ key row) = true ∧
        decide (key r = key row) = true)) = none := by
      rw [List.find?_eq_none]
      intro r _
      simp
    rw [hgone]
    simp
  · have hsame : (fun r => decide (decide (key r ≠ key row) = true ∧ decide (key r = k) = true))
        = fun r => decide (key r = k) := by
      funext r
      by_cases hr : key r = k
      · have hne : k ≠ key row := fun heq => hk heq.symm
        simp [hr, hne]
      · simp [hr]
    rw [hsame]
    simp [hk]

lemma get_eq_none : get key rows k = none ↔ ∀ r ∈ rows, key r ≠ k := by simp [get]

/-- The first row of a key stays. -/
lemma get_ignore : get key (ignore key rows row) k
    = if key row = k then (get key rows k).or (some row) else get key rows k := by
  rw [ignore]
  split_ifs with hmem hk hk
  · subst hk
    obtain ⟨r, hr, hkey⟩ := hmem
    cases hget : get key rows (key row) with
    | none => exact absurd hkey (get_eq_none.mp hget r hr)
    | some r' => rfl
  · rfl
  · rw [get, List.find?_append]
    simp [get, hk]
  · rw [get, List.find?_append]
    simp [get, hk]

/-- An update that keeps the keys is seen under its own. -/
lemma get_update {set : Row → Row} {k' : Key} (hset : ∀ r, key (set r) = key r) :
    get key (update key set rows k) k'
      = if k' = k then (get key rows k').map set else get key rows k' := by
  have hkeep : ∀ r, key (if key r = k then set r else r) = key r := by
    intro r
    split_ifs
    · exact hset r
    · rfl
  rw [get, update, List.find?_map]
  have hsame : ((fun r => decide (key r = k')) ∘ fun r => if key r = k then set r else r)
      = fun r => decide (key r = k') := by
    funext r
    simp [hkeep]
  rw [hsame, ← get]
  split_ifs with hk
  · subst hk
    refine Option.map_congr fun r hr => if_pos ?_
    simpa using List.find?_some hr
  · cases hget : get key rows k' with
    | none => rfl
    | some r =>
      have hr : key r = k' := by simpa using List.find?_some hget
      rw [Option.map_some, if_neg (hr ▸ hk)]

/-- A loop over distinct keys does to what is seen at a key what its own turn does. -/
lemma foldl_distinct {S V : Type*} (view : S → Key → V) {step : S → Key → S} {act : Key → V → V}
    (hself : ∀ s k, view (step s k) k = act k (view s k))
    (hother : ∀ s k k', k ≠ k' → view (step s k') k = view s k) {ks : List Key}
    (hnodup : ks.Nodup) (s : S) :
    view (ks.foldl step s) k = if k ∈ ks then act k (view s k) else view s k := by
  induction ks generalizing s with
  | nil => simp
  | cons k' ks ih =>
    obtain ⟨hk', hnodup⟩ := List.nodup_cons.mp hnodup
    rw [List.foldl_cons, ih hnodup]
    by_cases hk : k = k'
    · subst hk
      simp [hk', hself]
    · simp [hk, hother s k k' hk]

lemma lastOf_concat : lastOf key (rows ++ [row]) k = if key row = k then some row
    else lastOf key rows k := by
  unfold lastOf
  rw [List.filter_append]
  split_ifs with hk <;> simp [hk]

lemma lastOf_append : lastOf key (rows ++ new) k = (lastOf key new k).or (lastOf key rows k) := by
  unfold lastOf
  rw [List.filter_append, List.getLast?_append]

lemma lastOf_mem (h : lastOf key rows k = some r) : r ∈ rows ∧ key r = k := by
  have hmem := List.mem_of_getLast? h
  rw [List.mem_filter, decide_eq_true_eq] at hmem
  exact hmem

/-- A row that is alone with its key is the last with it. -/
lemma lastOf_eq_some (hr : r ∈ rows) (hk : key r = k) (halone : ∀ r' ∈ rows, key r' = k → r' = r) :
    lastOf key rows k = some r := by
  have hmem : r ∈ rows.filter fun r => key r = k := List.mem_filter.mpr ⟨hr, by simpa using hk⟩
  cases hlast : lastOf key rows k with
  | none =>
    rw [lastOf, List.getLast?_eq_none_iff] at hlast
    rw [hlast] at hmem
    cases hmem
  | some r' =>
    obtain ⟨hr', hk'⟩ := lastOf_mem hlast
    rw [halone r' hr' hk']

lemma lastOf_eq_none (h : ∀ r ∈ rows, key r ≠ k) : lastOf key rows k = none := by
  cases hlast : lastOf key rows k with
  | none => rfl
  | some r =>
    obtain ⟨hr, hk⟩ := lastOf_mem hlast
    exact absurd hk (h r hr)

/-- After a batch a key holds its last row of the batch, or what it held before. -/
lemma get_foldl_replace (new rows : List Row) :
    get key (new.foldl (replace key) rows) k = (lastOf key new k).or (get key rows k) := by
  induction new using List.reverseRecOn with
  | nil => rfl
  | append_singleton new row ih =>
    rw [List.foldl_append, List.foldl_cons, List.foldl_nil, get_replace, lastOf_concat]
    split_ifs
    · rfl
    · exact ih

/-- No key gets a second row. -/
lemma nodup_replace (h : (rows.map key).Nodup) : ((replace key rows row).map key).Nodup := by
  rw [replace, List.map_append, List.map_singleton, List.nodup_append]
  refine ⟨h.sublist (List.filter_sublist.map key), List.nodup_singleton _, ?_⟩
  intro k hk k' hk'
  obtain ⟨r, hr, rfl⟩ := List.mem_map.mp hk
  rw [List.mem_singleton.mp hk']
  simpa using (List.mem_filter.mp hr).2

lemma nodup_foldl_replace (h : (rows.map key).Nodup) (new : List Row) :
    ((new.foldl (replace key) rows).map key).Nodup := by
  induction new generalizing rows with
  | nil => exact h
  | cons row new ih => exact ih (nodup_replace h)

/-- Every row is the one under its key. -/
lemma get_of_mem (h : (rows.map key).Nodup) (hr : r ∈ rows) : get key rows (key r) = some r := by
  cases hget : get key rows (key r) with
  | none => exact absurd (List.find?_eq_none.mp hget r hr) (by simp)
  | some r' =>
    have hmem := List.mem_of_find?_eq_some hget
    have hkey : key r' = key r := by simpa using List.find?_some hget
    rw [List.inj_on_of_nodup_map h hmem hr hkey]

/-- Rows made of other rows, each with the key of the one it is made of. -/
lemma lastOf_filterMap {Row' : Type*} {key' : Row' → Key} {f : Row → Option Row'}
    (hf : ∀ r ∈ rows, ∃ r', f r = some r' ∧ key' r' = key r) :
    lastOf key' (rows.filterMap f) k = (lastOf key rows k).bind f := by
  induction rows using List.reverseRecOn with
  | nil => rfl
  | append_singleton rows r ih =>
    have hrows := ih fun r hr => hf r (List.mem_append_left _ hr)
    obtain ⟨r', hr', hkey⟩ := hf r (List.mem_append_right _ List.mem_cons_self)
    rw [List.filterMap_append, List.filterMap_cons_some hr', List.filterMap_nil, lastOf_concat,
      lastOf_concat, hkey, hrows]
    split_ifs
    · exact hr'.symm
    · rfl

end Upsert
