import Frogop.Lib.Outcome
import Mathlib.Data.List.Nodup

/-!
# Batches over distinct keys

A loop handles one key after the other. `Rules` says that handling a key uses it up and leaves the
other keys as they are: then a loop that went through handled distinct keys, each of which was ready
at the start. `Funded` adds a stock that the keys share: with enough of it for all of them, distinct
ready keys go through in any order.
-/

namespace Batch

open Outcome

variable {S K ε : Type*}

/-- Each key can be handled once, and says nothing about the others. -/
structure Rules (step : S → K → Except ε S) (Ready : S → K → Prop) : Prop where
  ready : ∀ {s k s'}, step s k = .ok s' → Ready s k
  spent : ∀ {s k s'}, step s k = .ok s' → ¬ Ready s' k
  apart : ∀ {s k s' j}, step s k = .ok s' → j ≠ k → (Ready s' j ↔ Ready s j)

/-- A key goes through when it is ready and there is enough for it. -/
structure Funded (step : S → K → Except ε S) (Ready : S → K → Prop) (Enough : S → List K → Prop) :
    Prop extends Rules step Ready where
  goes : ∀ {s k ks}, Ready s k → Enough s (k :: ks) → ∃ s', step s k = .ok s'
  rest : ∀ {s k ks s'}, step s k = .ok s' → k ∉ ks → Enough s (k :: ks) → Enough s' ks

variable {step : S → K → Except ε S} {Ready : S → K → Prop} {Enough : S → List K → Prop}
  {s s' : S} {ks : List K}

/-- A batch that went through handled every key once, and would have found each of them ready at the
start. -/
lemma Rules.nodup_ready (h : Rules step Ready) (hfold : ks.foldlM step s = .ok s') :
    ks.Nodup ∧ ∀ k ∈ ks, Ready s k := by
  induction ks generalizing s with
  | nil => exact ⟨List.nodup_nil, by simp⟩
  | cons k ks ih =>
    rw [List.foldlM_cons, bind_eq_ok] at hfold
    obtain ⟨s₁, hfirst, hrest⟩ := hfold
    obtain ⟨hnodup, hready⟩ := ih hrest
    have hk : k ∉ ks := fun hmem => h.spent hfirst (hready k hmem)
    refine ⟨List.nodup_cons.mpr ⟨hk, hnodup⟩, fun j hj => ?_⟩
    rcases List.mem_cons.mp hj with rfl | hj
    · exact h.ready hfirst
    · have hne : j ≠ k := fun heq => hk (heq ▸ hj)
      exact (h.apart hfirst hne).mp (hready j hj)

/-- What a batch over distinct keys amounts to, from what its first key does. -/
lemma foldlM_cons_induct {Effect : S → List K → S → Prop} (hnil : ∀ s, Effect s [] s)
    (hcons : ∀ {s k s₁ ks s'}, step s k = .ok s₁ → k ∉ ks → Effect s₁ ks s' →
      Effect s (k :: ks) s')
    (hnodup : ks.Nodup) (hfold : ks.foldlM step s = .ok s') : Effect s ks s' := by
  induction ks generalizing s with
  | nil =>
    cases hfold
    exact hnil _
  | cons k ks ih =>
    rw [List.foldlM_cons, bind_eq_ok] at hfold
    obtain ⟨s₁, hfirst, hrest⟩ := hfold
    obtain ⟨hk, hnodup⟩ := List.nodup_cons.mp hnodup
    exact hcons hfirst hk (ih hnodup hrest)

/-- With enough for all of them distinct ready keys go through. -/
lemma Funded.succeeds (h : Funded step Ready Enough) (hnodup : ks.Nodup)
    (hready : ∀ k ∈ ks, Ready s k) (henough : Enough s ks) : ∃ s', ks.foldlM step s = .ok s' := by
  induction ks generalizing s with
  | nil => exact ⟨s, rfl⟩
  | cons k ks ih =>
    obtain ⟨hk, hnodup⟩ := List.nodup_cons.mp hnodup
    obtain ⟨s₁, hfirst⟩ := h.goes (hready k List.mem_cons_self) henough
    have hrest : ∀ j ∈ ks, Ready s₁ j := by
      intro j hj
      have hne : j ≠ k := fun heq => hk (heq ▸ hj)
      exact (h.apart hfirst hne).mpr (hready j (List.mem_cons_of_mem _ hj))
    obtain ⟨s', hs'⟩ := ih hnodup hrest (h.rest hfirst hk henough)
    refine ⟨s', ?_⟩
    rw [List.foldlM_cons, hfirst, ok_bind, hs']

end Batch
