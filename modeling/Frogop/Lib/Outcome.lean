import Mathlib.Tactic.Common

/-!
# Fallible computations

Inversion of `Except` programs: a `do` block that returned a value ran every one of its steps,
and a block that failed stopped at one of them. Tagged for `simp`, the equations turn the
hypothesis `prog = .ok b` into the conjunction of what its steps computed.
-/

namespace Outcome

universe u v
variable {ε : Type u} {α β : Type v}

@[simp] lemma pure_eq (a : α) : (pure a : Except ε α) = .ok a := rfl

@[simp] lemma ok_bind (a : α) (f : α → Except ε β) : (Except.ok a >>= f) = f a := rfl

@[simp] lemma error_bind (e : ε) (f : α → Except ε β) :
    (Except.error e >>= f) = .error e := rfl

@[simp] lemma bind_eq_ok {x : Except ε α} {f : α → Except ε β} {b : β} :
    x >>= f = .ok b ↔ ∃ a, x = .ok a ∧ f a = .ok b := by
  cases x <;> simp

/-- Binding the same program to continuations that agree. -/
lemma bind_congr {x : Except ε α} {f g : α → Except ε β} (h : ∀ a, x = .ok a → f a = g a) :
    x >>= f = x >>= g := by
  cases x with
  | error e => rfl
  | ok a => exact h a rfl

/-- A loop that went through keeps what each of its iterations keeps. -/
lemma foldlM_induct {γ : Type*} {f : α → γ → Except ε α} {I : α → Prop} :
    ∀ {l : List γ} {a b : α}, l.foldlM f a = .ok b → I a →
      (∀ a c a', c ∈ l → I a → f a c = .ok a' → I a') → I b
  | [], a, b, h, ha, _ => by
    cases h
    exact ha
  | c :: l, a, b, h, ha, hstep => by
    rw [List.foldlM_cons, bind_eq_ok] at h
    obtain ⟨a', hfirst, hrest⟩ := h
    exact foldlM_induct hrest (hstep a c a' List.mem_cons_self ha hfirst)
      fun a c a' hc => hstep a c a' (List.mem_cons_of_mem _ hc)

/-- Every iteration of a loop that went through went through itself. -/
lemma foldlM_mem {γ : Type*} {f : α → γ → Except ε α} {I : α → Prop} {c : γ} :
    ∀ {l : List γ} {a b : α}, l.foldlM f a = .ok b → I a →
      (∀ a c a', c ∈ l → I a → f a c = .ok a' → I a') → c ∈ l → ∃ a a', I a ∧ f a c = .ok a'
  | d :: l, a, b, h, ha, hstep, hc => by
    rw [List.foldlM_cons, bind_eq_ok] at h
    obtain ⟨a', hfirst, hrest⟩ := h
    rcases List.mem_cons.mp hc with rfl | hc
    · exact ⟨a, a', ha, hfirst⟩
    · exact foldlM_mem hrest (hstep a d a' List.mem_cons_self ha hfirst)
        (fun a c a' hc => hstep a c a' (List.mem_cons_of_mem _ hc)) hc

/-- A guard: fail with `e` unless `p` holds. -/
def require (p : Prop) [Decidable p] (e : ε) : Except ε Unit :=
  if p then .ok () else .error e

variable {p : Prop} [Decidable p]

@[simp] lemma require_eq_ok {e : ε} {u : Unit} : require p e = .ok u ↔ p := by
  rw [require]
  split_ifs with h <;> simp [h]

@[simp] lemma require_eq_error {e e' : ε} : require p e = .error e' ↔ ¬ p ∧ e = e' := by
  rw [require]
  split_ifs with h <;> simp [h]

/-! ### How a program can fail -/

/-- Whenever the program fails, it fails with an error in `P`. -/
def FailsOnly (P : ε → Prop) (x : Except ε α) : Prop := ∀ e, x = .error e → P e

variable {P : ε → Prop}

@[simp] lemma failsOnly_ok (a : α) : FailsOnly P (.ok a : Except ε α) := fun _ h => by cases h

@[simp] lemma failsOnly_error {e : ε} : FailsOnly P (.error e : Except ε α) ↔ P e := by
  simp [FailsOnly]

@[simp] lemma failsOnly_bind {x : Except ε α} {f : α → Except ε β} :
    FailsOnly P (x >>= f) ↔ FailsOnly P x ∧ ∀ a, x = .ok a → FailsOnly P (f a) := by
  cases x <;> simp

@[simp] lemma failsOnly_require {e : ε} : FailsOnly P (require p e) ↔ (¬ p → P e) := by
  simp [FailsOnly]

lemma failsOnly_of_ok {x : Except ε α} {a : α} (h : x = .ok a) : FailsOnly P x := by
  rw [h]
  exact failsOnly_ok a

/-- One step of a program, then the rest. -/
lemma FailsOnly.seq {x : Except ε α} {f : α → Except ε β} (hx : FailsOnly P x)
    (hf : ∀ a, x = .ok a → FailsOnly P (f a)) : FailsOnly P (x >>= f) :=
  failsOnly_bind.mpr ⟨hx, hf⟩

/-- A guard, then the rest. -/
lemma FailsOnly.guard {β : Type} {e : ε} {f : Unit → Except ε β} (he : P e)
    (hf : p → FailsOnly P (f ())) :
    FailsOnly P (require p e >>= f) :=
  .seq (failsOnly_require.mpr fun _ => he) fun _ hp => hf (require_eq_ok.mp hp)

/-- A loop fails only as its iterations do. -/
lemma failsOnly_foldlM {γ : Type*} {f : α → γ → Except ε α} {I : α → Prop} :
    ∀ {l : List γ} {a : α}, I a → (∀ a c, c ∈ l → I a → FailsOnly P (f a c)) →
      (∀ a c a', c ∈ l → I a → f a c = .ok a' → I a') → FailsOnly P (l.foldlM f a)
  | [], a, _, _, _ => failsOnly_ok a
  | c :: l, a, ha, hfail, hstep => by
    rw [List.foldlM_cons, failsOnly_bind]
    refine ⟨hfail a c List.mem_cons_self ha, fun a' hfirst => ?_⟩
    exact failsOnly_foldlM (hstep a c a' List.mem_cons_self ha hfirst)
      (fun a c hc => hfail a c (List.mem_cons_of_mem _ hc))
      fun a c a' hc => hstep a c a' (List.mem_cons_of_mem _ hc)

lemma require_of (h : p) (e : ε) : require p e = .ok () := if_pos h

lemma require_of_not (h : ¬ p) (e : ε) : require p e = .error e := if_neg h

end Outcome
