import Mathlib.Data.List.Range
import Mathlib.Tactic.Common

/-!
# Reading a numbered list page by page

A reader asks for the page that starts where the last one ended until it has as many items as it
was told, or gets an empty page. `f k i` is the item `i` as the request `k` finds it, so the list
may change while it is read.
-/

namespace Pages

variable {A ε : Type*}

/-- Read pages from `start` on, until `total` items were read or a page is empty. -/
def readAll (page : ℕ → ℕ → Except ε (List A)) (total request start : ℕ) (all : List A) :
    Except ε (List A) :=
  if start < total then
    match page request start with
    | .error e => .error e
    | .ok [] => .ok all
    | .ok (a :: batch) =>
      readAll page total (request + 1) (start + (a :: batch).length) (all ++ a :: batch)
  else .ok all
termination_by total - start
decreasing_by
  rw [List.length_cons]
  omega

variable {page : ℕ → ℕ → Except ε (List A)} {f : ℕ → ℕ → A} {len : ℕ → ℕ → ℕ}
  {total request start : ℕ} {all : List A}

/-- Two stretches side by side. -/
lemma map_range'_append (g h : ℕ → A) (s n m : ℕ) :
    (List.range' s n).map g ++ (List.range' (s + n) m).map h
      = (List.range' s (n + m)).map fun i => if i < s + n then g i else h i := by
  rw [← List.range'_append_1, List.map_append]
  refine congrArg₂ (· ++ ·) ?_ ?_
  · refine List.map_congr_left fun i hi => ?_
    rw [if_pos (List.mem_range'_1.mp hi).2]
  · refine List.map_congr_left fun i hi => ?_
    rw [if_neg (not_lt.mpr (List.mem_range'_1.mp hi).1)]

/-- Pages without gaps make a whole without gaps. Each item is as its own request found it; while
there is something to be found, as many are read as were asked for. -/
lemma readAll_contiguous
    (hpage : ∀ k s, s < total → page k s = .ok ((List.range' s (len k s)).map (f k))) :
    ∃ (m : ℕ) (found : ℕ → ℕ), readAll page total request start all
        = .ok (all ++ (List.range' start m).map fun i => f (found i) i) ∧
      (∀ i, start ≤ i → i < start + m →
        request ≤ found i ∧ ∃ s, s ≤ i ∧ i < s + len (found i) s) ∧
      ((∀ k s, request ≤ k → s < total → 0 < len k s) → total ≤ start + m) := by
  induction hrest : total - start using Nat.strong_induction_on generalizing request start all with
  | _ rest ih =>
    rw [readAll]
    by_cases hmore : start < total
    · rw [if_pos hmore, hpage _ _ hmore]
      cases hlen : len request start with
      | zero =>
        refine ⟨0, fun _ => 0, by simp, fun i hi hlt => by omega, fun hnonempty => ?_⟩
        exact absurd hlen (hnonempty request start le_rfl hmore).ne'
      | succ n =>
        obtain ⟨m, found, hall, hfound, henough⟩ := @ih (total - (start + (n + 1))) (by omega)
          (request + 1) (start + (n + 1)) (all ++ (List.range' start (n + 1)).map (f request)) rfl
        refine ⟨n + 1 + m, fun i => if i < start + (n + 1) then request else found i, ?_, ?_, ?_⟩
        · have hbatch : (List.range' start (n + 1)).map (f request)
              = f request start :: (List.range' (start + 1) n).map (f request) := rfl
          have hlength : (f request start :: (List.range' (start + 1) n).map (f request)).length
              = n + 1 := by simp
          rw [hbatch] at hall ⊢
          dsimp only
          rw [hlength, hall, List.append_assoc, ← hbatch, map_range'_append]
          refine congrArg (fun l => Except.ok (all ++ l)) (List.map_congr_left fun i _ => ?_)
          split_ifs <;> rfl
        · intro i hi hlt
          dsimp only
          split_ifs with hfirst
          · exact ⟨le_rfl, start, hi, by rwa [hlen]⟩
          · obtain ⟨hle, hsome⟩ := hfound i (by omega) (by omega)
            exact ⟨by omega, hsome⟩
        · intro hnonempty
          have := henough fun k s hk hs => hnonempty k s (by omega) hs
          omega
    · rw [if_neg hmore]
      exact ⟨0, fun _ => 0, by simp, fun i hi hlt => by omega, fun _ => by omega⟩

/-! ### Pages of a list -/

/-- Pages of `n` elements put together are the beginning of the list. -/
lemma flatMap_pages (l : List A) (n k : ℕ) :
    ((List.range k).flatMap fun page => (l.drop (page * n)).take n) = l.take (k * n) := by
  induction k with
  | zero => simp
  | succ k ih =>
    rw [List.range_succ, List.flatMap_append, ih, List.flatMap_singleton, Nat.succ_mul,
      List.take_add]

end Pages
