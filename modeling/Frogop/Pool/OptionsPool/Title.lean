import Frogop.Pool.OptionsPool.Lifecycle

/-!
# Who an option has belonged to

Every time an option changes hands the pool emits an event. The events of an option lead, hand over
hand, from the account that bought it to the one that holds it.
-/

namespace Frogop

/-- Something is passed on, hand over hand. -/
def Passes {A : Type*} : A → List (A × A) → A → Prop
  | a, [], b => a = b
  | a, (giver, taker) :: hands, b => a = giver ∧ Passes taker hands b

lemma Passes.append {A : Type*} {a b c : A} {hands hands' : List (A × A)}
    (h : Passes a hands b) (h' : Passes b hands' c) : Passes a (hands ++ hands') c := by
  induction hands generalizing a with
  | nil =>
    obtain rfl : a = b := h
    exact h'
  | cons p hands ih =>
    obtain ⟨hgiver, hrest⟩ := h
    exact ⟨hgiver, ih hrest⟩

lemma Passes.map {A B : Type*} {a b : A} {hands : List (A × A)} (f : A → B)
    (h : Passes a hands b) : Passes (f a) (hands.map (Prod.map f f)) (f b) := by
  induction hands generalizing a with
  | nil => exact congrArg f h
  | cons p hands ih =>
    obtain ⟨hgiver, hrest⟩ := h
    exact ⟨congrArg f hgiver, ih hrest⟩

/-- What an event tells of an option changing hands. -/
def Event.hand (e : Event) : Option (ℕ × Address × Address) :=
  match e.name, e.fields with
  | .optionTransferred, [.u256 optionId, .address giver, .address taker] =>
    some (optionId, giver, taker)
  | _, _ => none

/-- The hands that an option went through, in order. -/
def handsOf (i : ℕ) (events : List Event) : List (Address × Address) :=
  (events.filterMap Event.hand).filterMap fun p => if p.1 = i then some p.2 else none

section

variable {e : Event} {events events' : List Event} {i : ℕ}

@[simp] lemma handsOf_append :
    handsOf i (events ++ events') = handsOf i events ++ handsOf i events' := by
  simp [handsOf]

/-- An event of another kind. -/
lemma hand_eq_none (h : e.name ≠ .optionTransferred) : e.hand = none := by
  unfold Event.hand
  split
  · exact absurd ‹_› h
  · rfl

lemma handsOf_eq_nil (h : ∀ e ∈ events, e.name ≠ .optionTransferred) : handsOf i events = [] := by
  have hnone : events.filterMap Event.hand = [] :=
    List.filterMap_eq_nil_iff.mpr fun e he => hand_eq_none (h e he)
  rw [handsOf, hnone]
  rfl

end

namespace OptionsPool

open Outcome World

/-- The event of `transferOption`. -/
def transferredEvent (i : ℕ) (giver taker : Address) : Event :=
  ⟨.optionTransferred, 96, [.u256 i, .address giver, .address taker]⟩

@[simp] lemma handsOf_transferredEvent {i j : ℕ} {giver taker : Address} :
    handsOf i [transferredEvent j giver taker] = if j = i then [(giver, taker)] else [] := by
  simp only [handsOf, transferredEvent, Event.hand, List.filterMap_cons, List.filterMap_nil]
  split_ifs <;> rfl

/-- A call that hands no option over. -/
def NoHands (w w' : State) : Prop :=
  ∃ new, w'.events = w.events ++ new ∧ ∀ e ∈ new, e.name ≠ .optionTransferred

/-- The account that bought an option. -/
def boughtBy : Lts.History State (Label Call) → ℕ → Option Address
  | [], _ => none
  | (.call tx (.buyOption j) _, _) :: h, i => if j = i then some tx.sender else boughtBy h i
  | _ :: h, i => boughtBy h i

section

variable {env : Env} {tx : Tx} {c : Call} {w w' w'' : State} {r : Response} {i j : ℕ}
  {h : Lts.History State (Label Call)}

/-! ### The events of calls -/

lemma NoHands.refl : NoHands w w := ⟨[], (List.append_nil _).symm, by simp⟩

lemma NoHands.trans (h : NoHands w w') (h' : NoHands w' w'') : NoHands w w'' := by
  obtain ⟨new, hnew, hnames⟩ := h
  obtain ⟨new', hnew', hnames'⟩ := h'
  refine ⟨new ++ new', by rw [hnew', hnew, List.append_assoc], fun e he => ?_⟩
  rcases List.mem_append.mp he with he | he
  · exact hnames e he
  · exact hnames' e he

lemma NoHands.handsOf (h : NoHands w w') : handsOf i w'.events = handsOf i w.events := by
  obtain ⟨new, hnew, hnames⟩ := h
  rw [hnew, handsOf_append, handsOf_eq_nil hnames, List.append_nil]

lemma cancelOption_noHands (h : cancelOption env tx i w = .ok (r, w')) : NoHands w w' := by
  obtain ⟨_, _, _, _, -, -, -, -, -, -, -, -, -, rfl⟩ := cancelOption_ok h
  exact ⟨_, rfl, by simp⟩

lemma settle_noHands (h : settle env tx i w = .ok (r, w')) : NoHands w w' := by
  obtain ⟨_, _, -, -, -, -, -, -, rfl⟩ := settle_ok h
  exact ⟨_, rfl, by simp⟩

/-- Only `transferOption` hands an option over. -/
lemma exec_noHands (htransfer : ∀ i a, c ≠ .transferOption i a)
    (h : exec env tx c w = .ok (r, w')) : NoHands w w' := by
  cases c with
  | writeOption t s e a p =>
    obtain ⟨_, _, _, -, -, -, -, -, -, -, -, rfl⟩ := writeOption_ok h
    exact ⟨_, rfl, by simp⟩
  | cancelOption i => exact cancelOption_noHands h
  | buyOption i =>
    obtain ⟨_, _, _, -, -, -, -, -, -, -, -, -, rfl⟩ := buyOption_ok h
    exact ⟨_, rfl, by simp⟩
  | exercise i =>
    obtain ⟨_, _, _, _, _, _, -, -, -, -, -, -, -, -, -, -, -, -, -, rfl⟩ := exercise_ok h
    exact ⟨_, rfl, by simp⟩
  | settle i => exact settle_noHands h
  | transferOption i a => exact absurd rfl (htransfer i a)
  | rollOption i s e p =>
    obtain ⟨_, _, _, _, _, -, -, -, -, -, -, -, -, -, -, -, -, -, -, rfl⟩ := rollOption_ok h
    exact ⟨_, rfl, by simp⟩
  | batchCancel n a b c d e =>
    obtain ⟨ids, -, hloop, -⟩ := batchCancel_ok h
    refine foldlM_induct (I := NoHands w) hloop .refl fun v i v' _ hv hstep => ?_
    exact hv.trans (cancelOption_noHands (batchCancelStep_ok hstep))
  | batchSettle n a b c d e =>
    obtain ⟨ids, m, -, hloop, -⟩ := batchSettle_ok h
    refine foldlM_induct (I := fun acc => NoHands w acc.2) hloop .refl fun v i v' _ hv hstep => ?_
    rcases batchSettleStep_ok hstep with ⟨-, heq⟩ | ⟨-, hsettle⟩
    · exact heq ▸ hv
    · exact hv.trans (settle_noHands hsettle)
  | updateFeeRecipient newRecipient =>
    obtain ⟨-, -, -, rfl⟩ := updateFeeRecipient_ok h
    exact ⟨_, rfl, by simp⟩
  | registerBtcPubkey data =>
    obtain ⟨_, -, -, -, rfl⟩ := registerBtcPubkey_ok h
    exact ⟨[], (List.append_nil _).symm, by simp⟩

/-! ### Runs -/

/-- An option that was not sold has gone through no hands; one that was has gone from the account
that bought it to the one that holds it. -/
inductive Titled (h : Lts.History State (Label Call)) (w : State) (i : ℕ) : Prop
  | unsold (hbought : boughtBy h i = none) (hhands : handsOf i w.events = [])
      (hstatus : (w.option i).status = .OPEN ∨ (w.option i).status = .CANCELLED)
  | sold (first : Address) (hbought : boughtBy h i = some first)
      (hhands : Passes first (handsOf i w.events) (w.option i).buyer)
      (hstatus : (w.option i).status ≠ .OPEN ∧ (w.option i).status ≠ .CANCELLED)

lemma Titled.congr {h' : Lts.History State (Label Call)} (ht : Titled h w i)
    (hbought : boughtBy h' i = boughtBy h i)
    (hhands : handsOf i w'.events = handsOf i w.events)
    (hbuyer : (w'.option i).buyer = (w.option i).buyer)
    (hstatus : (w'.option i).status = .OPEN ∨ (w'.option i).status = .CANCELLED ↔
      (w.option i).status = .OPEN ∨ (w.option i).status = .CANCELLED) : Titled h' w' i := by
  cases ht with
  | unsold hnone hempty hopen =>
    exact .unsold (hbought.trans hnone) (hhands.trans hempty) (hstatus.mpr hopen)
  | sold first hsome hpasses hclosed =>
    refine .sold first (hbought.trans hsome) ?_ ?_
    · rw [hhands, hbuyer]
      exact hpasses
    · rw [← not_or] at hclosed ⊢
      rwa [hstatus]

/-- What is not a sale or a transfer leaves the holder, and whether there is one. -/
lemma Transition.title {p : PoolStorage} {o o' : OptionRecord} (ht : Transition p tx c o o')
    (hbuy : c ≠ .buyOption o.id) (htransfer : ∀ a, c ≠ .transferOption o.id a) :
    o'.buyer = o.buyer ∧ (o'.status = .OPEN ∨ o'.status = .CANCELLED ↔
      o.status = .OPEN ∨ o.status = .CANCELLED) := by
  cases ht with
  | stays => exact ⟨rfl, Iff.rfl⟩
  | bought hc => exact absurd hc hbuy
  | transferred a hc => exact absurd hc (htransfer a)
  | cancelled _ hopen => simp [hopen]
  | exercised _ hbought | settled _ hbought => simp [hbought]

/-- A call about another option leaves the title. -/
lemma Titled.of_same {h' : Lts.History State (Label Call)} (ht : Titled h w i)
    (hbought : boughtBy h' i = boughtBy h i)
    (hhands : handsOf i w'.events = handsOf i w.events) (hsame : w'.option i = w.option i) :
    Titled h' w' i := by
  refine ht.congr hbought hhands ?_ ?_
  · rw [hsame]
  · rw [hsame]

lemma titled_transferOption {a : Address} (ht : Titled h w i)
    (hexec : transferOption env tx j a w = .ok (r, w')) :
    Titled ((.call tx (.transferOption j a) r, w') :: h) w' i := by
  obtain ⟨-, hpurchased, -, -, -, -, -, hw'⟩ := transferOption_ok hexec
  have hhands : handsOf i w'.events
      = handsOf i w.events ++ if j = i then [((w.option j).buyer, a)] else [] := by
    rw [hw', ← handsOf_transferredEvent, ← handsOf_append]
    rfl
  have hoptions : w'.pool.options.get
      = Function.update w.pool.options.get j { w.option j with buyer := a } := by
    rw [hw']
    exact OptionStorage.get_setBuyer
  by_cases hji : j = i
  · subst hji
    have hoption : w'.option j = { w.option j with buyer := a } := by
      rw [World.option, hoptions, Function.update_self]
    rw [if_pos rfl] at hhands
    cases ht with
    | unsold _ _ hopen => simp [hpurchased] at hopen
    | sold first hsome hpasses hclosed =>
      refine .sold first hsome ?_ ?_
      · rw [hhands, hoption]
        exact hpasses.append ⟨rfl, rfl⟩
      · rw [hoption]
        exact hclosed
  · rw [if_neg hji, List.append_nil] at hhands
    refine ht.of_same rfl hhands ?_
    rw [World.option, hoptions, Function.update_of_ne (Ne.symm hji)]

lemma titled_buyOption (ht : Titled h w i) (hexec : buyOption env tx j w = .ok (r, w')) :
    Titled ((.call tx (.buyOption j) r, w') :: h) w' i := by
  have hhands : handsOf i w'.events = handsOf i w.events :=
    (exec_noHands (c := .buyOption j) (by simp) hexec).handsOf
  obtain ⟨_, _, _, -, hopen, -, -, -, -, -, -, -, hw'⟩ := buyOption_ok hexec
  have hoptions : w'.pool.options.get = Function.update w.pool.options.get j
      { w.option j with buyer := tx.sender, status := .PURCHASED } := by
    rw [hw']
    exact get_setBuyer_setStatus _ _ _
  by_cases hji : j = i
  · subst hji
    have hoption : w'.option j = { w.option j with buyer := tx.sender, status := .PURCHASED } := by
      rw [World.option, hoptions, Function.update_self]
    cases ht with
    | sold _ _ _ hclosed => exact absurd hopen hclosed.1
    | unsold _ hempty _ =>
      refine .sold tx.sender (if_pos rfl) ?_ ?_
      · rw [hhands, hempty, hoption]
        rfl
      · rw [hoption]
        exact ⟨by simp, by simp⟩
  · refine ht.of_same (if_neg hji) hhands ?_
    rw [World.option, hoptions, Function.update_of_ne (Ne.symm hji)]

lemma titled_call (hinv : TableInv w.pool) (hi : i < w.pool.nextId) (ht : Titled h w i)
    (hexec : exec env tx c w = .ok (r, w')) : Titled ((.call tx c r, w') :: h) w' i := by
  have hadv := (exec_advance hinv hexec).stored i hi
  cases c with
  | transferOption j a => exact titled_transferOption ht hexec
  | buyOption j => exact titled_buyOption ht hexec
  | _ =>
    obtain ⟨hbuyer, hstatus⟩ := hadv.title (by simp) (by simp)
    exact ht.congr rfl (exec_noHands (by simp) hexec).handsOf hbuyer hstatus

/-- What holds of the options and of the events in every state of a run. -/
structure TitleInv (h : Lts.History State (Label Call)) (w : State) : Prop where
  table : TableInv w.pool
  titled : ∀ i < w.pool.nextId, Titled h w i
  unwritten : ∀ i, w.pool.nextId ≤ i → boughtBy h i = none ∧ handsOf i w.events = []
  events : ∀ e ∈ w.events, e.name = .optionTransferred →
    ∃ i giver taker, i < w.pool.nextId ∧ e = transferredEvent i giver taker

/-- What a call says of options changing hands. -/
lemma exec_hands (h : exec env tx c w = .ok (r, w')) :
    (NoHands w w' ∧ ∀ j a, c ≠ .transferOption j a) ∨ ∃ j giver a, c = .transferOption j a ∧
      w.pool.options.existsAt j ∧ w'.events = w.events ++ [transferredEvent j giver a] := by
  by_cases htransfer : ∃ j a, c = .transferOption j a
  · obtain ⟨j, a, rfl⟩ := htransfer
    obtain ⟨hex, -, -, -, -, -, -, rfl⟩ := transferOption_ok h
    exact .inr ⟨j, _, a, rfl, hex, rfl⟩
  · simp only [not_exists] at htransfer
    exact .inl ⟨exec_noHands htransfer h, htransfer⟩

/-- A call leaves the ids that were not handed out without a title. -/
lemma TitleInv.unwritten_call (hinv : TitleInv h w) (hexec : exec env tx c w = .ok (r, w'))
    (hi : w.pool.nextId ≤ i) :
    boughtBy ((.call tx c r, w') :: h) i = none ∧ handsOf i w'.events = [] := by
  obtain ⟨hbought, hempty⟩ := hinv.unwritten i hi
  have hne : ∀ j, w.pool.options.existsAt j → j ≠ i :=
    fun j hex => (((hinv.table j).mp hex).trans_le hi).ne
  constructor
  · cases c with
    | buyOption j =>
      obtain ⟨_, _, _, hex, -⟩ := buyOption_ok hexec
      exact (if_neg (hne j hex)).trans hbought
    | _ => exact hbought
  · rcases exec_hands hexec with ⟨hno, -⟩ | ⟨j, giver, a, -, hex, hevents⟩
    · exact hno.handsOf.trans hempty
    · rw [hevents, handsOf_append, handsOf_transferredEvent, if_neg (hne j hex), hempty]
      rfl

lemma TitleInv.call (hinv : TitleInv h w) (htx : tx.FromAccount env)
    (hexec : exec env tx c w = .ok (r, w')) : TitleInv ((.call tx c r, w') :: h) w' := by
  have hadv := exec_advance hinv.table hexec
  constructor
  · exact exec_tableInv hinv.table htx hexec
  · intro i hi
    rcases lt_or_ge i w.pool.nextId with hlt | hge
    · exact titled_call hinv.table hlt (hinv.titled i hlt) hexec
    · obtain ⟨hbought, hempty⟩ := hinv.unwritten_call hexec hge
      rcases hadv.created with hnext | ⟨hnext, hfresh⟩
      · omega
      · obtain rfl : i = w.pool.nextId := by omega
        exact .unsold hbought hempty (.inl hfresh.unsold.1)
  · intro i hi
    exact hinv.unwritten_call hexec (hadv.nextId_le.trans hi)
  · intro e he hname
    have hold : e ∈ w.events → ∃ i giver taker, i < w'.pool.nextId ∧
        e = transferredEvent i giver taker := by
      intro he
      obtain ⟨i, giver, taker, hi, heq⟩ := hinv.events e he hname
      exact ⟨i, giver, taker, hi.trans_le hadv.nextId_le, heq⟩
    rcases exec_hands hexec with ⟨⟨new, hnew, hnames⟩, -⟩ | ⟨j, giver, a, -, hex, hevents⟩
    · rw [hnew, List.mem_append] at he
      exact he.elim hold fun he => absurd hname (hnames e he)
    · rw [hevents, List.mem_append, List.mem_singleton] at he
      refine he.elim hold fun he => ⟨j, giver, a, ?_, he⟩
      exact ((hinv.table j).mp hex).trans_le hadv.nextId_le

lemma titleInv_of_run {others : Ledger → Ledger → Prop} {w₀ : State} (hdep : Deployed w₀)
    (hrun : Lts.Run (Step env others (exec env)) w₀ h w) : TitleInv h w := by
  refine hrun.induct (I := TitleInv) ?_ ?_
  · refine ⟨hdep.tableInv, ?_, ?_, ?_⟩
    · rw [hdep.spec.1]
      exact fun i hi => absurd hi (Nat.not_lt_zero i)
    · rw [hdep.events]
      exact fun i _ => ⟨rfl, rfl⟩
    · rw [hdep.events]
      exact fun e he => absurd he List.not_mem_nil
  · intro h v l v' _ hinv hstep
    cases hstep with
    | call htx hexec => exact hinv.call htx hexec
    | reverted | elsewhere =>
      refine ⟨hinv.table, fun i hi => ?_, hinv.unwritten, hinv.events⟩
      exact (hinv.titled i hi).of_same rfl rfl rfl

end

end OptionsPool

end Frogop
