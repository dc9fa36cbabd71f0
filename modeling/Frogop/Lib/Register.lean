import Frogop.Lib.Run
import Mathlib.Data.List.Nodup

/-!
# Registers of spent keys

Steps of a system spend items, each under a key that a register of the state must not hold before
and holds from then on. Along every run the keys spent are all different.
-/

namespace Lts

variable {S L A K : Type*} {step : S → L → S → Prop} {s t u : S} {h : History S L}

/-- The register `held` keeps what it holds, and a step spends keys that are not in it and enters
them. -/
structure Spends (key : A → K) (held : S → K → Prop) (f : S → L → List A) (s : S) (l : L) (t : S) :
    Prop where
  kept : ∀ k, held s k → held t k
  fresh : ∀ a ∈ f s l, ¬ held s (key a)
  entered : ∀ a ∈ f s l, held t (key a)
  nodup : ((f s l).map key).Nodup

variable {key : A → K} {held : S → K → Prop} {f : S → L → List A}

/-- Nothing is spent twice along a run. -/
lemma nodup_collect (hrun : Run step s h t)
    (hstep : ∀ t l u, (l, u) ∈ h → step t l u → Spends key held f t l u) :
    ((collect f s h).map key).Nodup ∧ ∀ a ∈ collect f s h, held t (key a) := by
  induction hrun with
  | nil => simp [collect]
  | @cons h t u l hrun hlast ih =>
    obtain ⟨hnodup, hheld⟩ := ih fun t l u hmem => hstep t l u (List.mem_cons_of_mem _ hmem)
    have hspends := hstep t l u List.mem_cons_self hlast
    rw [collect, hrun.last_eq, List.map_append]
    constructor
    · refine hnodup.append hspends.nodup fun k hold hnew => ?_
      obtain ⟨a, ha, rfl⟩ := List.mem_map.mp hold
      obtain ⟨b, hb, heq⟩ := List.mem_map.mp hnew
      exact hspends.fresh b hb (heq ▸ hheld a ha)
    · intro a ha
      rcases List.mem_append.mp ha with hold | hnew
      · exact hspends.kept _ (hheld a hold)
      · exact hspends.entered a hnew

end Lts
