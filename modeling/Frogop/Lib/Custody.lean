import Mathlib.Algebra.BigOperators.Group.Finset.Basic
import Mathlib.Algebra.Order.BigOperators.Group.Finset
import Mathlib.Algebra.Order.Ring.Nat
import Mathlib.Tactic.Common

/-!
# A custodian of several assets

A custodian holds assets against a book of positions numbered from `0`. Each position is owed
some amount of each asset; `total` is what the whole book is owed of one asset. The rules say how
the total changes when a position is opened or rewritten, so that an operation on one position
is accounted for without looking at the others.

`Flow` records what an operation moves in and out of the holdings. An operation whose flow matches
the change of what is owed keeps the custodian covered (`Kept.covers`), and backed to the last
unit when the flow is exact (`Kept.backs`).
-/

namespace Custody

open Finset

variable {T A : Type*}

/-- What the first `n` positions of the book are owed of asset `t`. -/
def total (owed : A → T → ℕ) (n : ℕ) (pos : ℕ → A) (t : T) : ℕ :=
  ∑ i ∈ range n, owed (pos i) t

variable {owed owed' : A → T → ℕ} {n i : ℕ} {pos pos' : ℕ → A} {t : T}

@[simp] lemma total_zero : total owed 0 pos t = 0 := rfl

lemma total_congr (h : ∀ j < n, owed (pos j) t = owed' (pos' j) t) :
    total owed n pos t = total owed' n pos' t :=
  sum_congr rfl fun j hj => h j (mem_range.mp hj)

/-- Opening a position adds what it is owed. -/
lemma total_open (a : A) :
    total owed (n + 1) (Function.update pos n a) t = total owed n pos t + owed a t := by
  have hrest : total owed n (Function.update pos n a) t = total owed n pos t :=
    total_congr fun j hj => by rw [Function.update_of_ne hj.ne]
  rw [total, sum_range_succ, Function.update_self]
  exact congrArg (· + owed a t) hrest

/-- Rewriting a position exchanges what it was owed for what it is owed now. -/
lemma total_set (hi : i < n) (a : A) :
    total owed n (Function.update pos i a) t + owed (pos i) t = total owed n pos t + owed a t := by
  have hmem : i ∈ range n := mem_range.mpr hi
  have hrest : ∑ j ∈ (range n).erase i, owed (Function.update pos i a j) t
      = ∑ j ∈ (range n).erase i, owed (pos j) t :=
    sum_congr rfl fun j hj => by rw [Function.update_of_ne (ne_of_mem_erase hj)]
  have hnew := add_sum_erase (range n) (fun j => owed (Function.update pos i a j) t) hmem
  have hold := add_sum_erase (range n) (fun j => owed (pos j) t) hmem
  simp only [Function.update_self] at hnew
  unfold total
  omega

/-- No position is owed more than the book. -/
lemma owed_le_total (hi : i < n) : owed (pos i) t ≤ total owed n pos t :=
  single_le_sum_of_canonicallyOrdered (f := fun j => owed (pos j) t) (mem_range.mpr hi)

/-! ### Flows -/

/-- The holdings took in `inn` and gave out at most `out`; exactly that when `exact` holds. -/
def Flow (exact : Prop) (held held' inn out : T → ℕ) : Prop :=
  ∀ t, held t + inn t ≤ held' t + out t ∧ (exact → held t + inn t = held' t + out t)

/-- What is held beyond what is owed did not shrink; it is unchanged when `exact` holds. -/
def Kept (exact : Prop) (held debt held' debt' : T → ℕ) : Prop :=
  ∀ t, held t + debt' t ≤ held' t + debt t ∧ (exact → held t + debt' t = held' t + debt t)

variable {p q : Prop} {held held' held'' inn inn' out out' debt debt' debt'' : T → ℕ}

lemma Flow.refl : Flow p held held 0 0 := fun _ => ⟨le_rfl, fun _ => rfl⟩

lemma Flow.weaken (h : Flow p held held' inn out) (hq : q → p) : Flow q held held' inn out :=
  fun t => ⟨(h t).1, fun hp => (h t).2 (hq hp)⟩

lemma Flow.trans (h : Flow p held held' inn out) (h' : Flow p held' held'' inn' out') :
    Flow p held held'' (inn + inn') (out + out') := by
  intro t
  obtain ⟨hle, heq⟩ := h t
  obtain ⟨hle', heq'⟩ := h' t
  simp only [Pi.add_apply]
  refine ⟨by omega, fun hp => ?_⟩
  have := heq hp
  have := heq' hp
  omega

/-- A flow that follows what is owed keeps the surplus. -/
lemma Flow.kept (h : Flow p held held' inn out) (hdebt : ∀ t, debt' t + out t = debt t + inn t) :
    Kept p held debt held' debt' := by
  intro t
  obtain ⟨hle, heq⟩ := h t
  have := hdebt t
  refine ⟨by omega, fun hp => ?_⟩
  have := heq hp
  omega

lemma Kept.refl : Kept p held debt held debt := fun _ => ⟨le_rfl, fun _ => rfl⟩

lemma Kept.trans (h : Kept p held debt held' debt') (h' : Kept p held' debt' held'' debt'') :
    Kept p held debt held'' debt'' := by
  intro t
  obtain ⟨hle, heq⟩ := h t
  obtain ⟨hle', heq'⟩ := h' t
  refine ⟨by omega, fun hp => ?_⟩
  have := heq hp
  have := heq' hp
  omega

lemma Kept.covers (h : Kept p held debt held' debt') (hcov : ∀ t, debt t ≤ held t) (t : T) :
    debt' t ≤ held' t := by
  have := (h t).1
  have := hcov t
  omega

lemma Kept.backs (h : Kept p held debt held' debt') (hp : p) (hback : ∀ t, held t = debt t)
    (t : T) : held' t = debt' t := by
  have := (h t).2 hp
  have := hback t
  omega

end Custody
