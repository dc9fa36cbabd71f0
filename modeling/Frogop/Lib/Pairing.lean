import Mathlib.Data.List.Nodup
import Mathlib.Data.List.Pairwise
import Mathlib.Data.List.Perm.Basic
import Mathlib.Tactic.Common

/-!
# Greedy pairing

Whoever comes first is paired with somebody related who is left, or stays alone if there is nobody.
No choice of partners leaves two behind that could have been paired (`Pairing.maximal`).
-/

variable {α : Type*}

/-- `Pairing r l ps`: the elements of `l` may be paired as in `ps`. -/
inductive Pairing (r : α → α → Prop) : List α → List (α × Option α) → Prop
  | nil : Pairing r [] []
  | single {a l ps} (h : ∀ b ∈ l, ¬ r a b) (hrest : Pairing r l ps) :
      Pairing r (a :: l) ((a, none) :: ps)
  | pair {a b l l' ps} (h : r a b) (hl : l.Perm (b :: l')) (hrest : Pairing r l' ps) :
      Pairing r (a :: l) ((a, some b) :: ps)

namespace Pairing

variable {r : α → α → Prop} {l : List α} {ps : List (α × Option α)} {a b : α}

/-- Those who are together. -/
def members (p : α × Option α) : List α := p.1 :: p.2.toList

@[simp] lemma members_none (a : α) : members (a, none) = [a] := rfl

@[simp] lemma members_some (a b : α) : members (a, some b) = [a, b] := rfl

/-- Nobody is lost, and nobody is paired twice. -/
lemma perm (h : Pairing r l ps) : (ps.flatMap members).Perm l := by
  induction h with
  | nil => exact .refl _
  | single _ _ ih => simpa using ih
  | pair _ hl _ ih =>
    simp only [List.flatMap_cons, members_some, List.cons_append, List.nil_append]
    apply List.Perm.cons
    exact (ih.cons _).trans hl.symm

lemma related (h : Pairing r l ps) (hp : (a, some b) ∈ ps) : r a b := by
  induction h with
  | nil => cases hp
  | single _ _ ih =>
    simp at hp
    exact ih hp
  | pair hr _ _ ih =>
    simp at hp
    rcases hp with ⟨rfl, rfl⟩ | hp
    · exact hr
    · exact ih hp

lemma mem_of_mem {p : α × Option α} (h : Pairing r l ps) (hp : p ∈ ps) : p.1 ∈ l := by
  apply h.perm.subset
  exact List.mem_flatMap.mpr ⟨p, hp, List.mem_cons_self⟩

/-- No two who stay alone are related. -/
lemma maximal (h : Pairing r l ps) :
    ps.Pairwise fun p q => p.2 = none → q.2 = none → ¬ r p.1 q.1 := by
  induction h with
  | nil => exact .nil
  | single hnone hrest ih =>
    refine .cons ?_ ih
    intro q hq _ _
    exact hnone _ (hrest.mem_of_mem hq)
  | pair _ _ _ ih =>
    refine .cons ?_ ih
    intro q _ hsome
    cases hsome

end Pairing

/-- What is in parts that make up a list without repetitions is in one of the parts. -/
lemma List.Perm.existsUnique_part {β : Type*} {parts : List β} {f : β → List α} {l : List α} {a : α}
    (h : (parts.flatMap f).Perm l) (hl : l.Nodup) (ha : a ∈ l) :
    ∃! part, part ∈ parts ∧ a ∈ f part := by
  obtain ⟨part, hpart, hin⟩ := List.mem_flatMap.mp (h.mem_iff.mpr ha)
  refine ⟨part, ⟨hpart, hin⟩, ?_⟩
  rintro part' ⟨hpart', hin'⟩
  by_contra hne
  have hdisjoint := (List.nodup_flatMap.mp (h.nodup_iff.mpr hl)).2
  have hsymm : Std.Symm (Function.onFun List.Disjoint f) := ⟨fun _ _ hd _ ha hb => hd hb ha⟩
  exact hdisjoint.forall hpart' hpart hne hin' hin
