import Frogop.Pool.Accounts
import Frogop.Pool.Execution

/-!
# How a call may change the option table

`Advance T F p p'`: every option stored in `p` moved by `T`, and at most one option was added,
which satisfies `F`. Each pool instantiates `T` with its own transitions; what holds of the table
over whole runs is proved here.
-/

namespace Frogop

/-- What creation fixes for good. -/
structure OptionRecord.SameTerms (o o' : OptionRecord) : Prop where
  id : o'.id = o.id
  writer : o'.writer = o.writer
  optionType : o'.optionType = o.optionType
  strikePrice : o'.strikePrice = o.strikePrice
  underlyingAmount : o'.underlyingAmount = o.underlyingAmount
  premium : o'.premium = o.premium
  expiryBlock : o'.expiryBlock = o.expiryBlock
  createdBlock : o'.createdBlock = o.createdBlock

structure Advance (T : OptionRecord → OptionRecord → Prop) (F : OptionRecord → Prop)
    (p p' : PoolStorage) : Prop where
  underlying : p'.underlying = p.underlying
  premiumToken : p'.premiumToken = p.premiumToken
  gracePeriod : p'.gracePeriod = p.gracePeriod
  stored : ∀ i < p.nextId, T (p.options.get i) (p'.options.get i)
  created : p'.nextId = p.nextId ∨ p'.nextId = p.nextId + 1 ∧ F (p'.options.get p.nextId)
  beyond : ∀ i, p'.nextId ≤ i → p'.options.get i = p.options.get i

/-- The options that exist are those with an id that was handed out. -/
def TableInv (p : PoolStorage) : Prop := ∀ i, p.options.existsAt i ↔ i < p.nextId

variable {T : OptionRecord → OptionRecord → Prop} {F : OptionRecord → Prop}
  {p p' : PoolStorage} {o o' o'' : OptionRecord} {i : ℕ}

/-- Only the buyer and the status of an option are not part of its terms. -/
lemma OptionRecord.SameTerms.update (o : OptionRecord) (buyer : Address) (status : Status) :
    o.SameTerms { o with buyer := buyer, status := status } :=
  ⟨rfl, rfl, rfl, rfl, rfl, rfl, rfl, rfl⟩

lemma OptionRecord.SameTerms.refl (o : OptionRecord) : o.SameTerms o := .update o _ _

lemma OptionRecord.SameTerms.trans (h : o.SameTerms o') (h' : o'.SameTerms o'') :
    o.SameTerms o'' where
  id := h'.id.trans h.id
  writer := h'.writer.trans h.writer
  optionType := h'.optionType.trans h.optionType
  strikePrice := h'.strikePrice.trans h.strikePrice
  underlyingAmount := h'.underlyingAmount.trans h.underlyingAmount
  premium := h'.premium.trans h.premium
  expiryBlock := h'.expiryBlock.trans h.expiryBlock
  createdBlock := h'.createdBlock.trans h.createdBlock

/-- What is owed as collateral depends on the terms only. -/
lemma OptionRecord.SameTerms.collateral (h : o.SameTerms o') : o'.collateral = o.collateral := by
  simp only [OptionRecord.collateral, h.optionType, h.strikePrice, h.underlyingAmount]

/-! ### One call -/

/-- A call that leaves the table alone. -/
lemma advance_of_same (hoptions : p'.options = p.options) (hnext : p'.nextId = p.nextId)
    (hund : p'.underlying = p.underlying) (hprem : p'.premiumToken = p.premiumToken)
    (hgrace : p'.gracePeriod = p.gracePeriod) (hT : ∀ i, T (p.options.get i) (p.options.get i)) :
    Advance T F p p' where
  underlying := hund
  premiumToken := hprem
  gracePeriod := hgrace
  stored i _ := by
    rw [hoptions]
    exact hT i
  created := .inl hnext
  beyond i _ := by rw [hoptions]

/-- A call that rewrites one stored option. -/
lemma advance_of_update {s : OptionStorage} (hT : ∀ j ≠ i, T (p.options.get j) (p.options.get j))
    (hget : s.get = Function.update p.options.get i o') (hi : i < p.nextId)
    (ht : T (p.options.get i) o') : Advance T F p { p with options := s } := by
  refine ⟨rfl, rfl, rfl, fun j hj => ?_, .inl rfl, fun j hj => ?_⟩
  · simp only [hget]
    by_cases hji : j = i
    · subst hji
      rwa [Function.update_self]
    · rw [Function.update_of_ne hji]
      exact hT j hji
  · have hne : j ≠ i := (hi.trans_le hj).ne'
    simp only [hget, Function.update_of_ne hne]

/-- A call that stores a new option under the next id. -/
lemma advance_of_set (hT : ∀ i, T (p.options.get i) (p.options.get i))
    (hF : F { o with id := p.nextId }) :
    Advance T F p
      { p with nextId := p.nextId + 1, options := p.options.set p.nextId o } := by
  refine ⟨rfl, rfl, rfl, fun j hj => ?_, .inr ⟨rfl, ?_⟩, fun j hj => ?_⟩
  · simp only [OptionStorage.get_set_of_ne hj.ne]
    exact hT j
  · simp only [OptionStorage.get_set_self]
    exact hF
  · have hne : j ≠ p.nextId := (Nat.lt_of_succ_le hj).ne'
    simp only [OptionStorage.get_set_of_ne hne]

lemma Advance.imp {T' : OptionRecord → OptionRecord → Prop} (hadv : Advance T F p p')
    (hT : ∀ o o', T o o' → T' o o') : Advance T' F p p' :=
  { hadv with stored := fun i hi => hT _ _ (hadv.stored i hi) }

/-- Two rewrites of one option. -/
lemma get_setBuyer_setStatus (s : OptionStorage) (buyer : Address) (status : Status) :
    ((s.setBuyer i buyer).setStatus i status).get
      = Function.update s.get i { s.get i with buyer := buyer, status := status } := by
  rw [OptionStorage.get_setStatus, OptionStorage.get_setBuyer_self, OptionStorage.get_setBuyer,
    Function.update_idem]

/-- The ids handed out stay exactly the ids that exist. -/
lemma Advance.tableInv (hadv : Advance T F p p') (hT : ∀ o o', T o o' → o'.writer = o.writer)
    (hF : ∀ o, F o → o.writer ≠ Address.zero) (hinv : TableInv p) : TableInv p' := by
  have hstored : ∀ i < p.nextId, p'.options.existsAt i := by
    intro i hi
    rw [OptionStorage.existsAt_iff, hT _ _ (hadv.stored i hi)]
    exact (hinv i).mpr hi
  have hgone : ∀ i, p.nextId ≤ i → p'.nextId ≤ i → ¬ p'.options.existsAt i := by
    intro i hi hi'
    rw [OptionStorage.existsAt_iff, hadv.beyond i hi', ← OptionStorage.existsAt_iff, hinv i]
    exact not_lt.mpr hi
  intro i
  rcases lt_or_ge i p.nextId with hi | hi
  · refine ⟨fun _ => ?_, fun _ => hstored i hi⟩
    rcases hadv.created with hnext | ⟨hnext, -⟩ <;> omega
  · rcases hadv.created with hnext | ⟨hnext, hfresh⟩
    · exact ⟨fun hex => absurd hex (hgone i hi (by omega)), fun hlt => by omega⟩
    · rcases eq_or_ne i p.nextId with rfl | hne
      · refine ⟨fun _ => by omega, fun _ => ?_⟩
        rw [OptionStorage.existsAt_iff]
        exact hF _ hfresh
      · exact ⟨fun hex => absurd hex (hgone i hi (by omega)), fun hlt => by omega⟩

/-- Ids are only ever handed out. -/
lemma Advance.nextId_le (hadv : Advance T F p p') : p.nextId ≤ p'.nextId := by
  rcases hadv.created with hnext | ⟨hnext, -⟩ <;> omega

/-- A property that stored options keep and new ones have. -/
lemma Advance.keeps {P : OptionRecord → Prop} (hadv : Advance T F p p')
    (hT : ∀ o o', T o o' → P o → P o') (hF : ∀ o, F o → P o)
    (h : ∀ i < p.nextId, P (p.options.get i)) : ∀ i < p'.nextId, P (p'.options.get i) := by
  intro i hi
  rcases lt_or_ge i p.nextId with hlt | hge
  · exact hT _ _ (hadv.stored i hlt) (h i hlt)
  · rcases hadv.created with hnext | ⟨hnext, hfresh⟩
    · omega
    · obtain rfl : i = p.nextId := by omega
      exact hF _ hfresh

lemma Deployed.tableInv {σ : Type} {w : World σ} (h : Deployed w) : TableInv w.pool := by
  obtain ⟨hnext, hoptions, -⟩ := h.spec
  intro i
  rw [hnext, hoptions, OptionStorage.existsAt_iff]
  exact ⟨fun hne => absurd rfl hne, fun hi => absurd hi (Nat.not_lt_zero i)⟩

/-- What every call of a run keeps of the options holds of them after the run. -/
lemma options_of_run {σ C : Type} {env : Env} {others : Ledger → Ledger → Prop}
    {exec : Tx → C → World σ → Except Revert (Reply σ)} {P : OptionRecord → Prop} {w₀ w : World σ}
    {h : Lts.History (World σ) (Label C)} (hdep : Deployed w₀)
    (hrun : Lts.Run (Step env others exec) w₀ h w)
    (hcall : ∀ h v tx c r v', Lts.Run (Step env others exec) w₀ h v → tx.FromAccount env →
      exec tx c v = .ok (r, v') → (∀ i < v.pool.nextId, P (v.option i)) →
      ∀ i < v'.pool.nextId, P (v'.option i)) : ∀ i < w.pool.nextId, P (w.option i) := by
  refine hrun.induct (I := fun _ w => ∀ i < w.pool.nextId, P (w.option i)) ?_ ?_
  · intro i hi
    rw [hdep.spec.1] at hi
    exact absurd hi (Nat.not_lt_zero i)
  · intro h v l v' hrun hoptions hstep
    cases hstep with
    | call htx hexec => exact hcall _ _ _ _ _ _ hrun htx hexec hoptions
    | reverted | elsewhere => exact hoptions

end Frogop
