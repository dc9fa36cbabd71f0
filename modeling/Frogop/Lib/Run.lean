import Mathlib.Data.List.Forall2
import Mathlib.Tactic.Common

/-!
# Runs of labelled transition systems

A run is recorded with its history: the labels fired and the states they led to, newest first.
Every property of all runs is proved by one of the induction rules below: `Run.invariant` for a
property of the state reached, `Run.induct` for a property that also looks at the history.
-/

namespace Lts

variable {S L : Type*}

/-- The steps taken so far, newest first, each with the state it led to. -/
abbrev History (S L : Type*) := List (L × S)

/-- `Run step s h t`: the steps recorded in `h` lead from `s` to `t`. -/
inductive Run (step : S → L → S → Prop) (s : S) : History S L → S → Prop
  | nil : Run step s [] s
  | cons {h : History S L} {t u : S} {l : L} :
      Run step s h t → step t l u → Run step s ((l, u) :: h) u

variable {step : S → L → S → Prop} {s t u : S} {h h' : History S L}

/-- Induction over runs, for properties of the history and the state reached. -/
lemma Run.induct {I : History S L → S → Prop} (hrun : Run step s h t) (h0 : I [] s)
    (hstep : ∀ h t l u, Run step s h t → I h t → step t l u → I ((l, u) :: h) u) : I h t := by
  induction hrun with
  | nil => exact h0
  | cons hrun hlast ih => exact hstep _ _ _ _ hrun ih hlast

/-- A property of states that every step preserves holds after every run. -/
lemma Run.invariant {I : S → Prop} (hrun : Run step s h t) (h0 : I s)
    (hstep : ∀ t l u, I t → step t l u → I u) : I t := by
  induction hrun with
  | nil => exact h0
  | cons _ hlast ih => exact hstep _ _ _ ih hlast

lemma Run.trans (hrun : Run step s h t) (hrun' : Run step t h' u) : Run step s (h' ++ h) u := by
  induction hrun' with
  | nil => exact hrun
  | cons _ hlast ih => exact ih.cons hlast

/-- What a run has brought about, one of its steps did. -/
lemma Run.split {P : S → Prop} (hrun : Run step s h t) (h0 : ¬ P s) (ht : P t) :
    ∃ h₁ u l v h₂, h = h₂ ++ (l, v) :: h₁ ∧ Run step s h₁ u ∧ ¬ P u ∧ step u l v ∧ P v ∧
      Run step v h₂ t := by
  induction hrun with
  | nil => exact absurd ht h0
  | @cons h t u l hrun hlast ih =>
    by_cases hP : P t
    · obtain ⟨h₁, _, _, v, h₂, rfl, hrun₁, hnot, hstep, hv, hrun₂⟩ := ih hP
      exact ⟨h₁, _, _, v, (l, u) :: h₂, rfl, hrun₁, hnot, hstep, hv, hrun₂.cons hlast⟩
    · exact ⟨h, t, l, u, [], rfl, hrun, hP, hlast, ht, .nil⟩

/-! ### What the steps of a run did -/

/-- The state a history has led to. -/
def last (s : S) : History S L → S
  | [] => s
  | (_, t) :: _ => t

/-- Every step of a history satisfies `P`. -/
def Along (P : S → L → S → Prop) (s : S) : History S L → Prop
  | [] => True
  | (l, t) :: h => Along P s h ∧ P (last s h) l t

/-- What the steps of a history produce, in the order in which they were taken. -/
def collect {A : Type*} (f : S → L → List A) (s : S) : History S L → List A
  | [] => []
  | (l, _) :: h => collect f s h ++ f (last s h) l

/-- The steps of a history, newest first, each with the state it was taken in. -/
def taken (s : S) : History S L → List (S × L)
  | [] => []
  | (l, _) :: h => (last s h, l) :: taken s h

lemma last_append (s : S) (h h' : History S L) : last s (h' ++ h) = last (last s h) h' := by
  cases h' <;> rfl

lemma taken_append (s : S) (h h' : History S L) :
    taken s (h' ++ h) = taken (last s h) h' ++ taken s h := by
  induction h' with
  | nil => rfl
  | cons p h' ih => rw [List.cons_append, taken, taken, ih, last_append, List.cons_append]

lemma exists_mem_taken (s₀ : S) {l : L} (hmem : (l, t) ∈ h) : ∃ s, (s, l) ∈ taken s₀ h := by
  induction h with
  | nil => simp at hmem
  | cons p h ih =>
    rcases List.mem_cons.mp hmem with rfl | hmem
    · exact ⟨_, List.mem_cons_self⟩
    · obtain ⟨s, hs⟩ := ih hmem
      exact ⟨s, List.mem_cons_of_mem _ hs⟩

lemma Run.last_eq (hrun : Run step s h t) : last s h = t := by
  cases hrun <;> rfl

/-- A step of a run was taken in the state to which the steps before it had led. -/
lemma Run.of_mem_taken {l : L} (hrun : Run step s h t) (hmem : (u, l) ∈ taken s h) :
    ∃ h₁ v h₂, h = h₂ ++ (l, v) :: h₁ ∧ Run step s h₁ u ∧ step u l v := by
  induction hrun with
  | nil => cases hmem
  | @cons h t v l' hrun hlast ih =>
    rcases List.mem_cons.mp hmem with heq | hmem
    · obtain ⟨rfl, rfl⟩ := Prod.mk.inj heq
      rw [hrun.last_eq]
      exact ⟨h, v, [], rfl, hrun, hlast⟩
    · obtain ⟨h₁, v', h₂, rfl, hrun₁, hstep⟩ := ih hmem
      exact ⟨h₁, v', (l', v) :: h₂, rfl, hrun₁, hstep⟩

/-- What every step satisfies holds along every run. -/
lemma Run.along {P : S → L → S → Prop} (hrun : Run step s h t)
    (hP : ∀ h t l u, Run step s h t → step t l u → P t l u) : Along P s h := by
  induction hrun with
  | nil => trivial
  | cons hrun hlast ih =>
    refine ⟨ih, ?_⟩
    rw [hrun.last_eq]
    exact hP _ _ _ _ hrun hlast

/-- What every step satisfies that satisfies `P` holds along every run along which `P` does. -/
lemma Run.along_imp {P Q : S → L → S → Prop} (hrun : Run step s h t) (hP : Along P s h)
    (himp : ∀ t l u, step t l u → P t l u → Q t l u) : Along Q s h := by
  induction hrun with
  | nil => trivial
  | cons hrun hlast ih =>
    obtain ⟨hbefore, hnow⟩ := hP
    refine ⟨ih hbefore, ?_⟩
    rw [hrun.last_eq] at hnow ⊢
    exact himp _ _ _ hlast hnow

/-- What the steps of a history produce, the history does. -/
lemma collect_forall {A : Type*} {f : S → L → List A} {P : A → Prop} (hrun : Run step s h t)
    (hP : ∀ t l u, (l, u) ∈ h → step t l u → ∀ a ∈ f t l, P a) : ∀ a ∈ collect f s h, P a := by
  induction hrun with
  | nil => simp [collect]
  | cons hrun hlast ih =>
    intro a ha
    rcases List.mem_append.mp ha with ha | ha
    · exact ih (fun t l u hmem => hP t l u (List.mem_cons_of_mem _ hmem)) a ha
    · rw [hrun.last_eq] at ha
      exact hP _ _ _ List.mem_cons_self hlast a ha

/-- Two productions that agree on every step agree on the run. -/
lemma collect_congr {A : Type*} {f g : S → L → List A} (hrun : Run step s h t)
    (hfg : ∀ t l u, (l, u) ∈ h → step t l u → f t l = g t l) :
    collect f s h = collect g s h := by
  induction hrun with
  | nil => rfl
  | cons hrun hlast ih =>
    rw [collect, collect, hrun.last_eq, hfg _ _ _ List.mem_cons_self hlast,
      ih fun t l u hmem => hfg t l u (List.mem_cons_of_mem _ hmem)]

lemma map_collect {A B : Type*} (F : A → B) (f : S → L → List A) (s : S) (h : History S L) :
    (collect f s h).map F = collect (fun t l => (f t l).map F) s h := by
  induction h with
  | nil => rfl
  | cons p h ih => rw [collect, List.map_append, ih, collect]

/-! ### Systems that move by a function -/

section

variable {move : S → L → Option S} {ls : List L}

/-- The state after some labels, when each of them can be fired. -/
def after (move : S → L → Option S) (s : S) (ls : List L) : Option S := ls.foldlM move s

/-- Their history. -/
def trace (move : S → L → Option S) (s : S) : List L → History S L
  | [] => []
  | l :: ls =>
    match move s l with
    | some t => trace move t ls ++ [(l, t)]
    | none => []

lemma run_trace (h : after move s ls = some t) :
    Run (fun s l t => move s l = some t) s (trace move s ls) t := by
  induction ls generalizing s with
  | nil =>
    cases h
    exact .nil
  | cons l ls ih =>
    rw [after, List.foldlM_cons, Option.bind_eq_bind, Option.bind_eq_some_iff] at h
    obtain ⟨u, hmove, hrest⟩ := h
    rw [trace, hmove]
    exact (Run.nil.cons hmove).trans (ih hrest)

end

/-! ### Simulation -/

variable {S' L' : Type*} {f : S → S'} {g : L → L'}

/-- A history seen through maps of states and labels. -/
def mapHistory (f : S → S') (g : L → L') (h : History S L) : History S' L' :=
  List.map (Prod.map g f) h

lemma last_map (f : S → S') (g : L → L') (s : S) (h : History S L) :
    last (f s) (mapHistory f g h) = f (last s h) := by
  cases h <;> rfl

lemma taken_map (f : S → S') (g : L → L') (s : S) (h : History S L) :
    taken (f s) (mapHistory f g h) = (taken s h).map fun p => (f p.1, g p.2) := by
  induction h with
  | nil => rfl
  | cons p h ih =>
    show (last (f s) (mapHistory f g h), g p.1) :: taken (f s) (mapHistory f g h) = _
    rw [last_map, ih]
    rfl

/-- A system that follows another step by step follows its runs. -/
lemma Run.map {step₁ : S' → L' → S' → Prop} (hrun : Run step s h t)
    (hstep : ∀ s l t, step s l t → step₁ (f s) (g l) (f t)) :
    Run step₁ (f s) (mapHistory f g h) (f t) := by
  induction hrun with
  | nil => exact .nil
  | cons _ hlast ih => exact ih.cons (hstep _ _ _ hlast)

/-- What a system does is what an abstract one does, when every step lets it move along or stay
where it is. `sees` tells which steps an abstract one is seen in. -/
lemma Run.simulate {A B : Type*} {R : History S L → S → A → Prop} {step₁ : A → B → A → Prop}
    {sees : B → S × L → Prop} {a : A} (hrun : Run step s h t) (hR : R [] s a)
    (hstep : ∀ h t l u a, Run step s h t → R h t a → step t l u →
      ∃ a', R ((l, u) :: h) u a' ∧ (a' = a ∨ ∃ b, sees b (t, l) ∧ step₁ a b a')) :
    ∃ past a', Run step₁ a past a' ∧ R h t a' ∧
      List.SublistForall₂ sees (past.map Prod.fst) (taken s h) := by
  induction hrun with
  | nil => exact ⟨[], a, .nil, hR, .nil⟩
  | cons hrun hlast ih =>
    obtain ⟨past, a', hpast, hR', hsub⟩ := ih
    obtain ⟨a'', hR'', hmove⟩ := hstep _ _ _ _ _ hrun hR' hlast
    rw [taken, hrun.last_eq]
    rcases hmove with rfl | ⟨b, hsees, hmove⟩
    · exact ⟨past, a'', hpast, hR'', .cons_right hsub⟩
    · exact ⟨(b, a'') :: past, a'', hpast.cons hmove, hR'', .cons hsees hsub⟩

/-- The parts of a system each run by their own rules when every step lets them, provided that all
of them have done so up to it. -/
lemma Run.parts {ι : Type*} {S' L' : ι → Type*} {f : (i : ι) → S → S' i} {g : (i : ι) → L → L' i}
    {part : (i : ι) → S' i → L' i → S' i → Prop} (hrun : Run step s h t)
    (hstep : ∀ h t l u, (∀ i, Run (part i) (f i s) (mapHistory (f i) (g i) h) (f i t)) →
      step t l u → ∀ i, part i (f i t) (g i l) (f i u)) :
    ∀ i, Run (part i) (f i s) (mapHistory (f i) (g i) h) (f i t) := by
  induction hrun with
  | nil => exact fun i => .nil
  | cons _ hlast ih => exact fun i => (ih i).cons (hstep _ _ _ _ ih hlast i)

lemma collect_map {A : Type*} (F : S' → L' → List A) (s : S) (h : History S L) :
    collect F (f s) (mapHistory f g h) = collect (fun t l => F (f t) (g l)) s h := by
  induction h with
  | nil => rfl
  | cons p h ih =>
    show collect F (f s) (mapHistory f g h) ++ F (last (f s) (mapHistory f g h)) (g p.1) = _
    rw [ih, last_map]
    rfl

lemma along_map (P : S' → L' → S' → Prop) (s : S) (h : History S L) :
    Along P (f s) (mapHistory f g h) ↔ Along (fun s l t => P (f s) (g l) (f t)) s h := by
  induction h with
  | nil => exact Iff.rfl
  | cons p h ih =>
    show Along P (f s) (mapHistory f g h) ∧ P (last (f s) (mapHistory f g h)) (g p.1) (f p.2) ↔ _
    rw [ih, last_map]
    rfl

end Lts
