import Frogop.Lib.Cursor
import Mathlib.Algebra.Group.Action.Defs

/-!
# Replaying a log on a keyed table

A table has one row for each key. The log inserts rows, which is ignored for a key that has one, and
patches the row of a key. Patches overwrite: one that is applied again after others leaves what it
left at first. So it does no harm when readers of the log replay what others have replayed, even out
of date, as long as none of them leaves a gap (`exec_taken`).
-/

namespace Replay

/-- `p * q` is `q` followed by `p`; what comes before its own repetition is overwritten. -/
class Overwrites (P : Type*) [Monoid P] : Prop where
  mul_mul_self (p q : P) : p * q * p = p * q

inductive Op (α κ P : Type*)
  | insert (row : α)
  | update (k : κ) (p : P)

variable {α κ P : Type*} [DecidableEq κ] [Monoid P]

/-- What the updates of a key do together. -/
def patch (k : κ) : List (Op α κ P) → P
  | [] => 1
  | .insert _ :: ops => patch k ops
  | .update k' p :: ops => if k = k' then patch k ops * p else patch k ops

lemma patch_append (k : κ) (ops ops' : List (Op α κ P)) :
    patch k (ops ++ ops') = patch k ops' * patch k ops := by
  induction ops with
  | nil => rw [List.nil_append, patch, mul_one]
  | cons op ops ih =>
    cases op with
    | insert row => exact ih
    | update k' p =>
      rw [List.cons_append, patch, patch, ih]
      split_ifs
      · rw [mul_assoc]
      · rfl

variable [MulAction P α] {key : α → κ} {table : List α} {ops ops' : List (Op α κ P)}

def Op.exec (key : α → κ) (table : List α) : Op α κ P → List α
  | insert row => if ∃ a ∈ table, key a = key row then table else table ++ [row]
  | update k p => table.map fun a => if key a = k then p • a else a

def exec (key : α → κ) (table : List α) (ops : List (Op α κ P)) : List α :=
  ops.foldl (Op.exec key) table

/-- What the updates of a log do to a row. -/
def patched (key : α → κ) (ops : List (Op α κ P)) (a : α) : α := patch (key a) ops • a

/-- A row is inserted before it is patched. -/
def Grounded (key : α → κ) : List α → List (Op α κ P) → Prop
  | _, [] => True
  | table, .insert row :: ops => Grounded key (Op.exec key table (.insert row : Op α κ P)) ops
  | table, .update k p :: ops =>
    (∃ a ∈ table, key a = k) ∧ Grounded key (Op.exec key table (.update k p)) ops

lemma exec_append (table : List α) (ops ops' : List (Op α κ P)) :
    exec key table (ops ++ ops') = exec key (exec key table ops) ops' := List.foldl_append

lemma grounded_append :
    Grounded key table (ops ++ ops') ↔
      Grounded key table ops ∧ Grounded key (exec key table ops) ops' := by
  induction ops generalizing table with
  | nil => simp [Grounded, exec]
  | cons op ops ih =>
    cases op with
    | insert row => exact ih
    | update k p =>
      rw [List.cons_append, Grounded, Grounded, ih, and_assoc]
      rfl

lemma map_patched_nil (table : List α) :
    table.map (patched key ([] : List (Op α κ P))) = table :=
  (List.map_congr_left fun a _ => one_smul P a).trans (List.map_id table)

lemma exec_update_eq (table : List α) (k : κ) (p : P) :
    Op.exec key table (.update k p) = table.map (patched key [.update k p]) := by
  refine List.map_congr_left fun a _ => ?_
  rw [patched, patch, patch]
  split_ifs
  · rw [one_mul]
  · rw [one_smul]

section

variable (hkey : ∀ (p : P) (a : α), key (p • a) = key a)
include hkey

lemma key_patched (ops : List (Op α κ P)) (a : α) : key (patched key ops a) = key a := hkey _ a

lemma patched_append (ops ops' : List (Op α κ P)) (a : α) :
    patched key (ops ++ ops') a = patched key ops' (patched key ops a) := by
  rw [patched, patched, key_patched hkey, patched, patch_append, mul_smul]

/-! ### What a log does to a table -/

/-- The rows that were there are patched, and rows with other keys are added. -/
lemma exec_eq (table : List α) (ops : List (Op α κ P)) :
    ∃ new, exec key table ops = table.map (patched key ops) ++ new ∧
      ∀ a ∈ new, ∀ b ∈ table, key b ≠ key a := by
  induction ops generalizing table with
  | nil =>
    refine ⟨[], ?_, by simp⟩
    rw [map_patched_nil, List.append_nil]
    rfl
  | cons op ops ih =>
    obtain ⟨new, hexec, hnew⟩ := ih (op.exec key table)
    cases op with
    | insert row =>
      by_cases hin : ∃ a ∈ table, key a = key row
      · have hsame : Op.exec key table (.insert row : Op α κ P) = table := if_pos hin
        rw [hsame] at hexec hnew
        refine ⟨new, ?_, hnew⟩
        rw [exec, List.foldl_cons, hsame]
        exact hexec
      · have hadd : Op.exec key table (.insert row : Op α κ P) = table ++ [row] := if_neg hin
        rw [hadd] at hexec hnew
        refine ⟨patched key ops row :: new, ?_, fun a ha b hb => ?_⟩
        · rw [exec, List.foldl_cons, hadd]
          apply hexec.trans
          rw [List.map_append, List.map_singleton, List.append_assoc]
          rfl
        · rcases List.mem_cons.mp ha with rfl | ha
          · rw [key_patched hkey]
            exact fun heq => hin ⟨b, hb, heq⟩
          · exact hnew a ha b (List.mem_append_left _ hb)
    | update k p =>
      rw [exec_update_eq] at hexec hnew
      refine ⟨new, ?_, fun a ha b hb => ?_⟩
      · rw [exec, List.foldl_cons, exec_update_eq]
        apply hexec.trans
        rw [List.map_map]
        congr 1
        refine List.map_congr_left fun a _ => ?_
        exact (patched_append hkey [.update k p] ops a).symm
      · rw [← key_patched hkey [.update k p] b]
        exact hnew a ha _ (List.mem_map_of_mem hb)

lemma key_mem_exec (ops : List (Op α κ P)) {a : α} (ha : a ∈ table) :
    ∃ b ∈ exec key table ops, key b = key a := by
  obtain ⟨new, hexec, -⟩ := exec_eq hkey table ops
  rw [hexec]
  exact ⟨_, List.mem_append_left _ (List.mem_map_of_mem ha), key_patched hkey ops a⟩

/-- An inserted key has a row from then on. -/
lemma key_mem_of_insert {row : α} (h : .insert row ∈ ops) :
    ∃ b ∈ exec key table ops, key b = key row := by
  obtain ⟨before, after, rfl⟩ := List.append_of_mem h
  rw [exec_append, exec, List.foldl_cons]
  have hrow : ∃ a ∈ Op.exec key (exec key table before) (.insert row : Op α κ P),
      key a = key row := by
    rw [Op.exec]
    split_ifs with hin
    · exact hin
    · exact ⟨row, by simp, rfl⟩
  obtain ⟨a, ha, hkeya⟩ := hrow
  obtain ⟨b, hb, hkeyb⟩ := key_mem_exec hkey after ha
  exact ⟨b, hb, hkeyb.trans hkeya⟩

/-- When all inserted keys have rows, a log only patches. -/
lemma exec_of_present (h : ∀ row, .insert row ∈ ops → ∃ a ∈ table, key a = key row) :
    exec key table ops = table.map (patched key ops) := by
  induction ops generalizing table with
  | nil =>
    rw [map_patched_nil]
    rfl
  | cons op ops ih =>
    rw [exec, List.foldl_cons]
    cases op with
    | insert row =>
      have hsame : Op.exec key table (.insert row : Op α κ P) = table :=
        if_pos (h row List.mem_cons_self)
      rw [hsame]
      exact ih fun row' hrow' => h row' (List.mem_cons_of_mem _ hrow')
    | update k p =>
      rw [exec_update_eq]
      refine (ih fun row' hrow' => ?_).trans ?_
      · obtain ⟨a, ha, hkeya⟩ := h row' (List.mem_cons_of_mem _ hrow')
        exact ⟨_, List.mem_map_of_mem ha, (key_patched hkey _ a).trans hkeya⟩
      · rw [List.map_map]
        refine List.map_congr_left fun a _ => ?_
        exact (patched_append hkey [.update k p] ops a).symm

variable [Overwrites P]

/-- Patching the rows that a log has left with the same log again changes nothing. -/
lemma patched_of_mem_exec (hgrounded : Grounded key table ops) :
    ∀ a ∈ exec key table ops, patched key ops a = a := by
  induction ops generalizing table with
  | nil => exact fun a _ => one_smul P a
  | cons op ops ih =>
    intro a ha
    cases op with
    | insert row => exact ih hgrounded a ha
    | update k p =>
      obtain ⟨⟨b, hb, rfl⟩, hgrounded⟩ := hgrounded
      have hagain : patched key ops a = a := ih hgrounded a ha
      rw [← List.singleton_append, patched_append hkey]
      by_cases hka : key a = key b
      · -- the patched row was there, so it is not one that the rest of the log adds
        obtain ⟨new, hexec, hnew⟩ := exec_eq hkey (Op.exec key table (.update (key b) p)) ops
        have hmem : a ∈ (Op.exec key table (.update (key b) p)).map (patched key ops) ++ new :=
          hexec ▸ ha
        rw [exec_update_eq] at hmem hnew
        rcases List.mem_append.mp hmem with hold | hadded
        · obtain ⟨c, hc, rfl⟩ := List.mem_map.mp hold
          obtain ⟨d, -, rfl⟩ := List.mem_map.mp hc
          simp only [patched, hkey, ← mul_smul]
          congr 1
          set q := patch (key d) ops
          set r := patch (key d) [.update (key b) p]
          have hband := Overwrites.mul_mul_self q r
          calc q * (r * (q * r)) = q * r * q * r := by simp only [mul_assoc]
            _ = q * r * r := by rw [hband]
            _ = q * r := by
              have hidem := Overwrites.mul_mul_self r (1 : P)
              rw [mul_one] at hidem
              rw [mul_assoc, hidem]
        · apply absurd hka.symm
          rw [← key_patched hkey [.update (key b) p] b]
          exact hnew a hadded _ (List.mem_map_of_mem hb)
      · have hother : patched key [.update (key b) p] a = a := by
          rw [patched, patch, if_neg hka]
          exact one_smul P a
        rw [hother]
        exact hagain

end

/-! ### Readers that replay -/

variable {log : ℕ → List (Op α κ P)} {l m n : ℕ}

/-- The operations of the entries after `m`, up to `n`. -/
def entries (log : ℕ → List (Op α κ P)) (m n : ℕ) : List (Op α κ P) :=
  (List.range' (m + 1) (n - m)).flatMap log

omit [DecidableEq κ] [Monoid P] [MulAction P α] in
lemma entries_self : entries log n n = [] := by rw [entries, Nat.sub_self]; rfl

omit [DecidableEq κ] [Monoid P] [MulAction P α] in
lemma entries_append (hlm : l ≤ m) (hmn : m ≤ n) :
    entries log l m ++ entries log m n = entries log l n := by
  rw [entries, entries, entries, ← List.flatMap_append, Cursor.range_append hlm hmn]

omit [DecidableEq κ] [Monoid P] [MulAction P α] in
lemma mem_entries {op : Op α κ P} :
    op ∈ entries log m n ↔ ∃ i, m < i ∧ i ≤ n ∧ op ∈ log i := by
  simp only [entries, List.mem_flatMap, List.mem_range'_1]
  constructor
  · rintro ⟨i, hi, hop⟩
    exact ⟨i, by omega, by omega, hop⟩
  · rintro ⟨i, hm, hn, hop⟩
    exact ⟨i, by omega, hop⟩

/-- Where a table stands that may be behind: the rows of the highest cursor are there, and what
lies between the stored cursor and the highest makes them up to date. -/
structure Behind (key : α → κ) (log : ℕ → List (Op α κ P)) (start : ℕ) (table : List α)
    (cursor top : ℕ) (rows : List α) : Prop where
  start_le : start ≤ cursor
  cursor_le : cursor ≤ top
  present : ∀ row, .insert row ∈ entries log start top → ∃ a ∈ rows, key a = key row
  catchesUp :
    rows.map (patched key (entries log cursor top)) = exec key table (entries log start top)

section

variable [Overwrites P] (hkey : ∀ (p : P) (a : α), key (p • a) = key a) {start cursor top : ℕ}
  {rows : List α}
include hkey

/-- A range that starts at the stored cursor or before it makes the rows up to date. -/
lemma Behind.catchesUp_from (h : Behind key log start table cursor top rows) (hstart : start ≤ l)
    (hl : l ≤ cursor) (hgrounded : Grounded key table (entries log start top)) :
    rows.map (patched key (entries log l top)) = exec key table (entries log start top) := by
  rw [← h.catchesUp]
  refine List.map_congr_left fun a ha => ?_
  have hltop : l ≤ top := hl.trans h.cursor_le
  -- the row that is up to date is stable under all that it has seen after `l`
  have hstable : patched key (entries log l top) (patched key (entries log cursor top) a)
      = patched key (entries log cursor top) a := by
    rw [← entries_append hstart hltop, grounded_append] at hgrounded
    apply patched_of_mem_exec hkey hgrounded.2 _
    rw [← exec_append, entries_append hstart hltop, ← h.catchesUp]
    exact List.mem_map_of_mem ha
  rw [← hstable, ← entries_append hl h.cursor_le]
  simp only [patched, hkey, patch_append, ← mul_smul, Overwrites.mul_mul_self]

/-- A range that leaves no gap, old or new. -/
lemma Behind.step (h : Behind key log start table cursor top rows) (hstart : start ≤ l)
    (hl : l ≤ cursor) (hln : l < n) (hgrounded : ∀ n, Grounded key table (entries log start n)) :
    Behind key log start table n (max n top) (exec key rows (entries log l n)) := by
  have hltop : l ≤ top := hl.trans h.cursor_le
  have hcatch := h.catchesUp_from hkey hstart hl (hgrounded top)
  rcases le_or_gt n top with hn | hn
  · -- all of the range has been seen before
    have hrows : exec key rows (entries log l n) = rows.map (patched key (entries log l n)) := by
      refine exec_of_present hkey fun row hrow => h.present row ?_
      obtain ⟨i, hi, hin, hop⟩ := mem_entries.mp hrow
      exact mem_entries.mpr ⟨i, by omega, by omega, hop⟩
    rw [max_eq_right hn, hrows]
    refine ⟨hstart.trans hln.le, hn, fun row hrow => ?_, ?_⟩
    · obtain ⟨a, ha, hkeya⟩ := h.present row hrow
      exact ⟨_, List.mem_map_of_mem ha, (key_patched hkey _ a).trans hkeya⟩
    · rw [List.map_map, ← hcatch, ← entries_append hln.le hn]
      refine List.map_congr_left fun a _ => ?_
      exact (patched_append hkey _ _ a).symm
  · -- the range goes beyond what has been seen
    have hseen : exec key rows (entries log l top) = exec key table (entries log start top) := by
      rw [← hcatch]
      refine exec_of_present hkey fun row hrow => h.present row ?_
      obtain ⟨i, hi, hin, hop⟩ := mem_entries.mp hrow
      exact mem_entries.mpr ⟨i, by omega, hin, hop⟩
    have hrows : exec key rows (entries log l n) = exec key table (entries log start n) := by
      rw [← entries_append hltop hn.le, exec_append, hseen, ← exec_append,
        entries_append (hstart.trans hltop) hn.le]
    rw [max_eq_left hn.le, hrows]
    refine ⟨hstart.trans hln.le, le_rfl, fun row hrow => key_mem_of_insert hkey hrow, ?_⟩
    rw [entries_self, map_patched_nil]

lemma behind_of_run {s t : Cursor.State} {h : Lts.History Cursor.State Cursor.Label}
    (hstart : s.running = []) (hrun : Lts.Run Cursor.Step s h t)
    (hjoined : Lts.Along (fun s l _ => Cursor.Joined s l) s h)
    (hgrounded : ∀ n, Grounded key table (entries log s.cursor n)) :
    Behind key log s.cursor table t.cursor (Cursor.highest s h)
      (exec key table ((Cursor.taken s h).flatMap log)) := by
  revert hjoined
  refine hrun.induct (I := fun h t => Lts.Along (fun s l _ => Cursor.Joined s l) s h →
    Behind key log s.cursor table t.cursor (Cursor.highest s h)
      (exec key table ((Cursor.taken s h).flatMap log))) ?_ ?_
  · intro _
    refine ⟨le_rfl, le_rfl, ?_, ?_⟩
    · simp [Cursor.highest, entries_self]
    · rw [Cursor.highest, entries_self, map_patched_nil]
      rfl
  · rintro h t l u hrun ih hstep ⟨hjoined, hlast⟩
    have hbehind := ih hjoined
    rw [hrun.last_eq] at hlast
    rw [Cursor.taken_cons, List.flatMap_append, exec_append, Cursor.highest]
    cases hstep with
    | start c rs =>
      rw [max_eq_right hbehind.cursor_le]
      exact hbehind
    | @commit c read upto rs rs' hlt =>
      have hread : s.cursor ≤ read := ((Cursor.covered hstart hrun).2 read (by simp)).1
      exact hbehind.step hkey hread hlast hlt hgrounded
    | abort | skip =>
      rw [max_eq_right hbehind.cursor_le]
      exact hbehind

/-- As long as no reader leaves a gap, the table is the one that the log leaves when it is executed
once, in order, whenever the cursor is at its highest. -/
theorem exec_taken {s t : Cursor.State} {h : Lts.History Cursor.State Cursor.Label}
    (hstart : s.running = []) (hrun : Lts.Run Cursor.Step s h t)
    (hjoined : Lts.Along (fun s l _ => Cursor.Joined s l) s h)
    (hgrounded : ∀ n, Grounded key table (entries log s.cursor n))
    (htop : t.cursor = Cursor.highest s h) :
    exec key table ((Cursor.taken s h).flatMap log)
      = exec key table (entries log s.cursor t.cursor) := by
  have hbehind := behind_of_run hkey hstart hrun hjoined hgrounded
  have hcatch := hbehind.catchesUp
  rwa [← htop, entries_self, map_patched_nil] at hcatch

end

end Replay
