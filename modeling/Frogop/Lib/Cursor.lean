import Frogop.Lib.Run
import Mathlib.Data.List.Nodup
import Mathlib.Data.List.Range

/-!
# Readers of a log under a shared cursor

The entries of a log are taken range by range. A reader reads the cursor; later it takes the entries
after the one it has read, up to another, and stores that as the cursor, all at once. Nothing keeps
two readers from reading the same cursor, or one of them from storing a cursor that is behind.

No entry is ever lost (`covered`), and no entry is taken twice exactly when every reader that
commits finds the cursor as it has read it (`nodup_taken_iff`).
-/

namespace Cursor

structure State where
  cursor : ℕ
  /-- What the running readers have read. -/
  running : List ℕ

inductive Label
  | start
  | commit (read upto : ℕ)
  | abort (read : ℕ)
  | skip

inductive Step : State → Label → State → Prop
  | start (c : ℕ) (rs : List ℕ) : Step ⟨c, rs⟩ .start ⟨c, c :: rs⟩
  | commit {c read upto : ℕ} {rs rs' : List ℕ} (h : read < upto) :
      Step ⟨c, rs ++ read :: rs'⟩ (.commit read upto) ⟨upto, rs ++ rs'⟩
  | abort {c read : ℕ} {rs rs' : List ℕ} : Step ⟨c, rs ++ read :: rs'⟩ (.abort read) ⟨c, rs ++ rs'⟩
  /-- Something that does not concern the cursor. -/
  | skip (s : State) : Step s .skip s

/-- The entries a step takes. -/
def Label.taken : Label → List ℕ
  | .commit read upto => List.range' (read + 1) (upto - read)
  | .start | .abort _ | .skip => []

/-- The entries taken in a history, in the order in which they were. -/
def taken (s : State) (h : Lts.History State Label) : List ℕ :=
  Lts.collect (fun _ l => l.taken) s h

/-- A reader that commits finds the cursor as it has read it. -/
def Fresh (s : State) : Label → Prop
  | .commit read _ => read = s.cursor
  | .start | .abort _ | .skip => True

/-- A reader that commits leaves no gap behind the cursor. -/
def Joined (s : State) : Label → Prop
  | .commit read _ => read ≤ s.cursor
  | .start | .abort _ | .skip => True

/-- The highest cursor that was ever stored. -/
def highest (s : State) : Lts.History State Label → ℕ
  | [] => s.cursor
  | (_, t) :: h => max t.cursor (highest s h)

variable {s t : State} {h : Lts.History State Label} {l : Label} {read upto n : ℕ}

/-- Ranges that join make one. -/
lemma range_append {l m n : ℕ} (hlm : l ≤ m) (hmn : m ≤ n) :
    List.range' (l + 1) (m - l) ++ List.range' (m + 1) (n - m) = List.range' (l + 1) (n - l) := by
  have hnext : m + 1 = l + 1 + (m - l) := by omega
  have hlen : n - l = (m - l) + (n - m) := by omega
  rw [hnext, hlen, List.range'_append_1]

lemma mem_taken_commit : n ∈ (Label.commit read upto).taken ↔ read < n ∧ n ≤ upto := by
  rw [Label.taken, List.mem_range'_1]
  omega

lemma taken_cons (p : Label × State) :
    taken s (p :: h) = taken s h ++ p.1.taken := rfl

lemma highest_le (hs : s.cursor ≤ n) (hle : ∀ p ∈ h, p.2.cursor ≤ n) : highest s h ≤ n := by
  induction h with
  | nil => exact hs
  | cons p h ih =>
    rw [List.forall_mem_cons] at hle
    exact max_le hle.1 (ih hle.2)

/-- A cursor that no other exceeds is the highest. -/
lemma eq_highest (hrun : Lts.Run Step s h t) (hs : s.cursor ≤ t.cursor)
    (hle : ∀ p ∈ h, p.2.cursor ≤ t.cursor) : t.cursor = highest s h := by
  apply le_antisymm
  · cases hrun with
    | nil => exact le_rfl
    | cons => exact le_max_left _ _
  · exact highest_le hs hle

/-! ### No entry is lost -/

/-- All entries up to `n` have been taken. -/
def Covers (s : State) (h : Lts.History State Label) (n : ℕ) : Prop :=
  s.cursor ≤ n ∧ ∀ m, s.cursor < m → m ≤ n → m ∈ taken s h

lemma Covers.cons {n : ℕ} (hn : Covers s h n) (p : Label × State) : Covers s (p :: h) n := by
  refine ⟨hn.1, fun m hm hle => ?_⟩
  rw [taken_cons]
  exact List.mem_append_left _ (hn.2 m hm hle)

/-- A range that starts where all entries are covered is covered once it is taken. -/
lemma Covers.commit (hread : Covers s h read) (hlt : read < upto) :
    Covers s ((.commit read upto, t) :: h) upto := by
  refine ⟨hread.1.trans hlt.le, fun m hm hle => ?_⟩
  rw [taken_cons, List.mem_append]
  rcases Nat.lt_or_ge read m with hlate | hearly
  · exact .inr (mem_taken_commit.mpr ⟨hlate, hle⟩)
  · exact .inl (hread.2 m hm hearly)

/-- Whatever the readers do, the entries up to the cursor have been taken. -/
lemma covered (hstart : s.running = []) (hrun : Lts.Run Step s h t) :
    Covers s h t.cursor ∧ ∀ r ∈ t.running, Covers s h r := by
  refine hrun.induct (I := fun h t => Covers s h t.cursor ∧ ∀ r ∈ t.running, Covers s h r) ?_ ?_
  · refine ⟨⟨le_rfl, fun m hm hle => absurd hm (not_lt.mpr hle)⟩, ?_⟩
    rw [hstart]
    simp
  · rintro h t l u - ⟨hcursor, hreads⟩ hstep
    cases hstep with
    | start c rs =>
      refine ⟨hcursor.cons _, fun r hr => ?_⟩
      rcases List.mem_cons.mp hr with rfl | hr
      · exact hcursor.cons _
      · exact (hreads r hr).cons _
    | @commit c read upto rs rs' hlt =>
      have hread : Covers s h read := hreads read (by simp)
      refine ⟨hread.commit hlt, fun r hr => (hreads r ?_).cons _⟩
      rcases List.mem_append.mp hr with hr | hr <;> simp [hr]
    | @abort c read rs rs' =>
      refine ⟨hcursor.cons _, fun r hr => (hreads r ?_).cons _⟩
      rcases List.mem_append.mp hr with hr | hr <;> simp [hr]
    | skip => exact ⟨hcursor.cons _, fun r hr => (hreads r hr).cons _⟩

/-! ### Entries that are taken once -/

/-- When every commit is fresh, the entries are taken once and in order. -/
lemma taken_of_fresh (hstart : s.running = []) (hrun : Lts.Run Step s h t)
    (hfresh : Lts.Along (fun s l _ => Fresh s l) s h) :
    taken s h = List.range' (s.cursor + 1) (t.cursor - s.cursor) ∧ s.cursor ≤ t.cursor ∧
      ∀ r ∈ t.running, r ≤ t.cursor := by
  revert hfresh
  refine hrun.induct (I := fun h t => Lts.Along (fun s l _ => Fresh s l) s h →
    taken s h = List.range' (s.cursor + 1) (t.cursor - s.cursor) ∧ s.cursor ≤ t.cursor ∧
      ∀ r ∈ t.running, r ≤ t.cursor) ?_ ?_
  · intro _
    rw [Nat.sub_self, hstart]
    exact ⟨rfl, le_rfl, by simp⟩
  · rintro h t l u hrun ih hstep ⟨hfresh, hlast⟩
    obtain ⟨htaken, hle, hreads⟩ := ih hfresh
    rw [hrun.last_eq] at hlast
    rw [taken_cons, htaken]
    cases hstep with
    | start c rs =>
      refine ⟨List.append_nil _, hle, fun r hr => ?_⟩
      rcases List.mem_cons.mp hr with rfl | hr
      · exact le_rfl
      · exact hreads r hr
    | @commit c read upto rs rs' hlt =>
      obtain rfl : read = c := hlast
      refine ⟨?_, hle.trans hlt.le, fun r hr => (hreads r ?_).trans hlt.le⟩
      · exact range_append hle hlt.le
      · rcases List.mem_append.mp hr with hr | hr <;> simp [hr]
    | @abort c read rs rs' =>
      refine ⟨List.append_nil _, hle, fun r hr => hreads r ?_⟩
      rcases List.mem_append.mp hr with hr | hr <;> simp [hr]
    | skip => exact ⟨List.append_nil _, hle, hreads⟩

/-- No entry is taken twice exactly when every commit is fresh. -/
lemma nodup_taken_iff (hstart : s.running = []) (hrun : Lts.Run Step s h t) :
    (taken s h).Nodup ↔ Lts.Along (fun s l _ => Fresh s l) s h := by
  refine ⟨?_, fun hfresh => ?_⟩
  · refine hrun.induct (I := fun h _ => (taken s h).Nodup →
      Lts.Along (fun s l _ => Fresh s l) s h) (fun _ => trivial) ?_
    intro h t l u hrun ih hstep hnodup
    rw [taken_cons, List.nodup_append'] at hnodup
    obtain ⟨hold, -, hdisjoint⟩ := hnodup
    have hfresh := ih hold
    refine ⟨hfresh, ?_⟩
    rw [hrun.last_eq]
    obtain ⟨htaken, -, hreads⟩ := taken_of_fresh hstart hrun hfresh
    cases hstep with
    | start | abort | skip => trivial
    | @commit c read upto rs rs' hlt =>
      have hread : read ≤ c := hreads read (by simp)
      have hlow : s.cursor ≤ read := ((covered hstart hrun).2 read (by simp)).1
      -- the entry after a stale cursor would be taken again
      by_contra hstale
      have hbehind : read < c := lt_of_le_of_ne hread hstale
      refine hdisjoint (a := read + 1) ?_ (mem_taken_commit.mpr ⟨Nat.lt_succ_self _, hlt⟩)
      rw [htaken, List.mem_range'_1]
      simp only
      omega
  · rw [(taken_of_fresh hstart hrun hfresh).1]
    exact List.nodup_range'

end Cursor
