import Frogop.Lib.Run

/-!
# The life of a covered option

What an option is for its parties, whatever contract keeps it: a writer offers it, somebody else
takes it before it expires, at once or after a reservation, and whoever holds it may use it from
then on until the grace period is over.
-/

namespace Life

/-- What is agreed when an option is written. -/
structure Terms (P : Type*) where
  writer : P
  expiry : ℕ
  graceEnd : ℕ

inductive Phase (P : Type*)
  | offered
  | reserved (buyer : P) (deadline : ℕ)
  | sold (holder : P)
  | exercised (holder : P)
  | expired (holder : P)
  | cancelled

inductive Deed
  | reserve
  | release
  | confirm
  | buy
  | transfer
  | cancel
  | exercise
  | settle
  deriving DecidableEq, Repr

/-- What a party does in a block. -/
structure Act (P : Type*) where
  deed : Deed
  party : P
  block : ℕ

variable {P : Type*}

inductive Step (t : Terms P) : Phase P → Act P → Phase P → Prop
  | reserve {p : P} {b deadline : ℕ} (hwriter : p ≠ t.writer) (hblock : b < t.expiry)
      (hdeadline : deadline < t.expiry) : Step t .offered ⟨.reserve, p, b⟩ (.reserved p deadline)
  | release {p buyer : P} {b deadline : ℕ} (hblock : deadline ≤ b) :
      Step t (.reserved buyer deadline) ⟨.release, p, b⟩ .offered
  | confirm {p buyer : P} {b deadline : ℕ} (hblock : b < deadline) :
      Step t (.reserved buyer deadline) ⟨.confirm, p, b⟩ (.sold buyer)
  | buy {p : P} {b : ℕ} (hwriter : p ≠ t.writer) (hblock : b < t.expiry) :
      Step t .offered ⟨.buy, p, b⟩ (.sold p)
  | transfer {p q : P} {b : ℕ} (hblock : b < t.graceEnd) :
      Step t (.sold p) ⟨.transfer, p, b⟩ (.sold q)
  | cancel {b : ℕ} : Step t .offered ⟨.cancel, t.writer, b⟩ .cancelled
  | exercise {p : P} {b : ℕ} (hexpiry : t.expiry ≤ b) (hgrace : b < t.graceEnd) :
      Step t (.sold p) ⟨.exercise, p, b⟩ (.exercised p)
  | settle {p holder : P} {b : ℕ} (hgrace : t.graceEnd ≤ b) :
      Step t (.sold holder) ⟨.settle, p, b⟩ (.expired holder)

/-! ### The end -/

/-- Nothing can be done with the option any more. -/
def Final : Phase P → Prop
  | .exercised _ | .expired _ | .cancelled => True
  | .offered | .reserved _ _ | .sold _ => False

/-- Who holds or held the option. -/
def Phase.holder : Phase P → Option P
  | .sold p | .exercised p | .expired p => some p
  | .offered | .reserved _ _ | .cancelled => none

variable {t : Terms P} {a : Act P} {p p' : Phase P} {h : Lts.History (Phase P) (Act P)}
  {acts acts' : List (Act P)}

lemma Step.not_final (hstep : Step t p a p') : ¬ Final p := by
  cases hstep <;> exact id

/-- A final phase is the last one. -/
lemma eq_of_final (hfinal : Final p) (hrun : Lts.Run (Step t) p h p') : p' = p := by
  induction hrun with
  | nil => rfl
  | cons _ hlast ih =>
    subst ih
    exact absurd hfinal hlast.not_final

/-- A sold option is not offered again, and not cancelled. -/
lemma Step.holder (hstep : Step t p a p') (hp : p.holder ≠ none) : p'.holder ≠ none := by
  cases hstep <;> simp_all [Phase.holder]

lemma holder_of_run (hp : p.holder ≠ none) (hrun : Lts.Run (Step t) p h p') :
    p'.holder ≠ none := by
  induction hrun with
  | nil => exact hp
  | cons _ hlast ih => exact hlast.holder ih

/-! ### How a phase was reached -/

/-- Somebody other than the writer took the option before it expired. -/
def Bought (t : Terms P) (acts : List (Act P)) : Prop :=
  ∃ a ∈ acts, (a.deed = .buy ∨ a.deed = .reserve) ∧ a.party ≠ t.writer ∧ a.block < t.expiry

/-- What must have been done for a phase. -/
def Justified (t : Terms P) (acts : List (Act P)) : Phase P → Prop
  | .offered => True
  | .reserved buyer deadline => deadline < t.expiry ∧
    ∃ a ∈ acts, a.deed = .reserve ∧ a.party = buyer ∧ buyer ≠ t.writer ∧ a.block < t.expiry
  | .sold _ => Bought t acts
  | .exercised holder => Bought t acts ∧
    ∃ a ∈ acts, a.deed = .exercise ∧ a.party = holder ∧ t.expiry ≤ a.block ∧ a.block < t.graceEnd
  | .expired _ => Bought t acts ∧ ∃ a ∈ acts, a.deed = .settle ∧ t.graceEnd ≤ a.block
  | .cancelled => ∃ a ∈ acts, a.deed = .cancel ∧ a.party = t.writer

lemma Bought.mono (h : Bought t acts) (hsub : acts ⊆ acts') : Bought t acts' := by
  obtain ⟨a, ha, hbought⟩ := h
  exact ⟨a, hsub ha, hbought⟩

lemma Step.justified (hstep : Step t p a p') (h : Justified t acts p) :
    Justified t (a :: acts) p' := by
  have hnew : a ∈ a :: acts := List.mem_cons_self
  have hold : acts ⊆ a :: acts := List.subset_cons_self a acts
  cases hstep with
  | reserve hwriter hblock hdeadline => exact ⟨hdeadline, _, hnew, rfl, rfl, hwriter, hblock⟩
  | release => trivial
  | confirm =>
    obtain ⟨-, b, hb, hreserve, rfl, hwriter, hblock⟩ := h
    exact ⟨b, hold hb, .inr hreserve, hwriter, hblock⟩
  | buy hwriter hblock => exact ⟨_, hnew, .inl rfl, hwriter, hblock⟩
  | transfer => exact Bought.mono h hold
  | cancel => exact ⟨_, hnew, rfl, rfl⟩
  | exercise hexpiry hgrace => exact ⟨Bought.mono h hold, _, hnew, rfl, rfl, hexpiry, hgrace⟩
  | settle hgrace => exact ⟨Bought.mono h hold, _, hnew, rfl, hgrace⟩

/-- Whatever phase an option is in, what it takes was done. -/
lemma justified_of_run (hrun : Lts.Run (Step t) .offered h p) :
    Justified t (h.map Prod.fst) p := by
  induction hrun with
  | nil => trivial
  | cons _ hlast ih => exact hlast.justified ih

end Life
