import Frogop.Frontend.FlowDefs
import Frogop.Lib.Run
import Frogop.Lib.Snapshot
import Mathlib.Logic.Function.Basic

/-!
# Parallel flows

The active flows of `TransactionContext.tsx`, in any number of tabs that share the local storage.
A tab has its latest list of flows, to which updates are applied in order, and the list of its last
render, which is what `claimFlow` reads. A claim keeps the lock exactly when the two lists give it
the same answer.
-/

namespace Frogop.Frontend

def staleFlowMs : ℕ := 4 * 60 * 60 * 1000

/-- The flows under a storage key, without those that never got a transaction and are stale. -/
def loadFlows (saved : List StoredFlow) (now : ℕ) : List StoredFlow :=
  saved.filter fun flow => !(decide (truthy flow.approvalTxId = none ∧
    truthy flow.actionTxId = none ∧ staleFlowMs < now - flow.claimedAt))

structure ClaimParams where
  actionType : FlowActionType
  poolAddress : String
  optionId : Option String
  label : String
  formState : Option (List (String × String))
  strategyLabel : Option String
  deriving DecidableEq, Repr

def ClaimParams.key (params : ClaimParams) : String :=
  flowIdentityKey params.actionType params.poolAddress params.optionId

/-- The flow that a claim stores. -/
def ClaimParams.flow (params : ClaimParams) (flowId : String) (now : ℕ) : StoredFlow where
  flowId := flowId
  actionType := params.actionType
  poolAddress := params.poolAddress
  optionId := params.optionId
  approvalTxId := none
  actionTxId := none
  claimedAt := now
  label := params.label
  formState := params.formState
  strategyLabel := params.strategyLabel

/-- The flow returned and the update enqueued, or nothing when the limit blocks the claim.
`storedFlows` is the list of the last render. -/
def claimFlow (storedFlows : List StoredFlow) (params : ClaimParams) (flowId : String) (now : ℕ) :
    Option (ActiveFlow × (List StoredFlow → List StoredFlow)) :=
  let existingIdx := storedFlows.findIdx? fun f => f.key = params.key
  if existingIdx = none ∧ maxParallelFlows ≤ storedFlows.length then none
  else
    let stored := params.flow flowId now
    let update := match existingIdx with
      | some idx => fun prev => prev.mapIdx fun i f => if i = idx then stored else f
      | none => fun prev => prev ++ [stored]
    some ({ stored with status := .approvalPending }, update)

/-- The transaction ids that `updateFlow` sets; a field left out keeps its value. -/
structure FlowUpdates where
  approvalTxId : Option (Option String)
  actionTxId : Option (Option String)
  deriving DecidableEq, Repr

def FlowUpdates.apply (updates : FlowUpdates) (f : StoredFlow) : StoredFlow :=
  { f with
    approvalTxId := updates.approvalTxId.getD f.approvalTxId
    actionTxId := updates.actionTxId.getD f.actionTxId }

def updateFlow (flowId : String) (updates : FlowUpdates) (prev : List StoredFlow) :
    List StoredFlow :=
  prev.map fun f => if f.flowId = flowId then updates.apply f else f

/-- Both `abandonFlow` and the timer of the auto-release remove a flow by its id. -/
def abandonFlow (flowId : String) (prev : List StoredFlow) : List StoredFlow :=
  prev.filter fun f => f.flowId ≠ flowId

def activeFlows (storedFlows : List StoredFlow) (transactions : List TxStatusRecord) :
    List ActiveFlow :=
  storedFlows.map fun f => { f with status := deriveFlowStatus f transactions }

/-! ### The provider -/

/-- The provider of one tab. -/
structure Provider where
  wallet : Option String
  /-- The latest list, with every enqueued update applied. -/
  storedFlows : List StoredFlow
  /-- The list of the last render. -/
  rendered : List StoredFlow
  /-- The flows for which an auto-release timer is set. -/
  scheduledRemovals : List String
  deriving DecidableEq, Repr

inductive Event
  | claimFlow (params : ClaimParams) (flowId : String) (now : ℕ)
  | updateFlow (flowId : String) (updates : FlowUpdates)
  | abandonFlow (flowId : String)
  /-- The auto-release timer of a flow fires. -/
  | release (flowId : String)
  /-- Another tab has saved its flows, and perhaps left none (`newValue` is then null). -/
  | storage (newValue : Bool) (now : ℕ)
  /-- The tab renders, with the transactions tracked by then. -/
  | render (transactions : List TxStatusRecord)
  /-- The effect of a render that saves its flows. -/
  | save
  | connect (wallet : Option String) (now : ℕ)

/-- The flows that a tab shows for a wallet it turns to. -/
def flowsOf (localStorage : String → List StoredFlow) (wallet : Option String) (now : ℕ) :
    List StoredFlow :=
  match wallet with
  | some w => loadFlows (localStorage w) now
  | none => []

def Provider.step (localStorage : String → List StoredFlow) (p : Provider) :
    Event → Option Provider
  | .claimFlow params flowId now =>
    -- `crypto.randomUUID` returns an identifier that is not in use
    if flowId ∈ p.storedFlows.map (·.flowId) then none
    else
      match Frontend.claimFlow p.rendered params flowId now with
      | none => some p
      | some (_, update) => some { p with storedFlows := update p.storedFlows }
  | .updateFlow flowId updates =>
    some { p with storedFlows := Frontend.updateFlow flowId updates p.storedFlows }
  | .abandonFlow flowId =>
    some { p with storedFlows := Frontend.abandonFlow flowId p.storedFlows }
  | .release flowId =>
    if flowId ∈ p.scheduledRemovals then
      some { p with
        storedFlows := Frontend.abandonFlow flowId p.storedFlows
        scheduledRemovals := p.scheduledRemovals.erase flowId }
    else none
  | .storage newValue now =>
    match p.wallet with
    | some w =>
      some { p with storedFlows := if newValue then loadFlows (localStorage w) now else [] }
    | none => none
  | .render transactions =>
    let confirmedFlows := (activeFlows p.storedFlows transactions).filter fun f =>
      f.status = .actionConfirmed ∧ f.flowId ∉ p.scheduledRemovals
    some { p with
      rendered := p.storedFlows
      scheduledRemovals := p.scheduledRemovals ++ confirmedFlows.map (·.flowId) }
  | .save => some p
  | .connect wallet now =>
    if wallet = p.wallet then none
    else
      -- the flows are loaded while rendering, so that the render is of the loaded list
      let flows := flowsOf localStorage wallet now
      some { p with wallet := wallet, storedFlows := flows, rendered := flows }

/-- What the local storage holds after an event of a tab. -/
def Provider.saved (localStorage : String → List StoredFlow) (p : Provider) :
    Event → String → List StoredFlow
  | .save =>
    match p.wallet with
    | some w => Function.update localStorage w p.rendered
    | none => localStorage
  | _ => localStorage

/-- The tabs of a browser, and the flows saved for each wallet. -/
structure Browser (T : Type*) where
  localStorage : String → List StoredFlow
  tabs : T → Provider

variable {T : Type*} [DecidableEq T]

def Browser.step (b : Browser T) (l : T × Event) : Option (Browser T) :=
  ((b.tabs l.1).step b.localStorage l.2).map fun p =>
    { localStorage := (b.tabs l.1).saved b.localStorage l.2
      tabs := Function.update b.tabs l.1 p }

/-- Any interleaving of the events of the tabs. -/
def Browser.Step (b : Browser T) (l : T × Event) (b' : Browser T) : Prop := b.step l = some b'

/-! ### The lock -/

/-- At most `maxParallelFlows` flows, of distinct identities. -/
abbrev ValidFlows (flows : List StoredFlow) : Prop :=
  Snapshot.Valid StoredFlow.key maxParallelFlows flows

structure Browser.Valid (b : Browser T) : Prop where
  stored : ∀ i, ValidFlows (b.tabs i).storedFlows
  rendered : ∀ i, ValidFlows (b.tabs i).rendered
  saved : ∀ w, ValidFlows (b.localStorage w)

/-- What is promised of an event in a tab: a valid list, the flow of a claim that was granted, and
every flow that has another identity than the one claimed. -/
structure Provider.Locked (p : Provider) (e : Event) (p' : Provider) : Prop where
  valid : ValidFlows p'.storedFlows
  present : ∀ params flowId now flow update, e = .claimFlow params flowId now →
    claimFlow p.rendered params flowId now = some (flow, update) →
    flow.toStoredFlow ∈ p'.storedFlows
  kept : ∀ params flowId now, e = .claimFlow params flowId now →
    ∀ f ∈ p.storedFlows, f.key ≠ params.key → f ∈ p'.storedFlows

/-- It is kept in the tab of a step, and every tab has a valid list. -/
def Locked (b : Browser T) (l : T × Event) (b' : Browser T) : Prop :=
  (b.tabs l.1).Locked l.2 (b'.tabs l.1) ∧ ∀ i, ValidFlows (b'.tabs i).storedFlows

/-- The last render answers a claim as the latest list does: it blocks the claim, or it has the
identity in the same place, or both lack it and the latest list has room. -/
def Provider.UpToDate (p : Provider) (params : ClaimParams) : Prop :=
  (Snapshot.place StoredFlow.key p.rendered params.key = none ∧
    maxParallelFlows ≤ p.rendered.length) ∨
  Snapshot.Agrees StoredFlow.key maxParallelFlows p.rendered p.storedFlows params.key

instance (p : Provider) (params : ClaimParams) : Decidable (p.UpToDate params) :=
  inferInstanceAs (Decidable (_ ∨ _))

def UpToDate (b : Browser T) (l : T × Event) (_ : Browser T) : Prop :=
  ∀ params flowId now, l.2 = .claimFlow params flowId now → (b.tabs l.1).UpToDate params

variable {b b' : Browser T} {l : T × Event} {p p' : Provider} {params : ClaimParams}
  {flowId : String} {now : ℕ} {flows : List StoredFlow}

@[simp] lemma key_flow : (params.flow flowId now).key = params.key := rfl

lemma mapIdx_eq_set {A : Type*} (l : List A) (idx : ℕ) (a : A) :
    (l.mapIdx fun i x => if i = idx then a else x) = l.set idx a := by
  apply List.ext_getElem?
  intro i
  rw [List.getElem?_mapIdx, List.getElem?_set']
  cases l[i]? with
  | none => split_ifs <;> simp
  | some x => split_ifs <;> simp_all

/-- A claim decides on its snapshot as the bounded table does. -/
lemma claimFlow_eq : claimFlow flows params flowId now =
    (Snapshot.claim StoredFlow.key maxParallelFlows flows (params.flow flowId now)).map
      fun update => ({ params.flow flowId now with status := .approvalPending }, update) := by
  rw [claimFlow, Snapshot.claim, Snapshot.place]
  rw [key_flow]
  cases hidx : flows.findIdx? (fun f => decide (f.key = params.key)) with
  | none => by_cases hfull : maxParallelFlows ≤ flows.length <;> simp [hfull]
  | some idx => simp [mapIdx_eq_set]

lemma claim_eq_none_iff : claimFlow flows params flowId now = none ↔
    Snapshot.place StoredFlow.key flows params.key = none ∧ maxParallelFlows ≤ flows.length := by
  rw [claimFlow_eq, Option.map_eq_none_iff, Snapshot.claim, key_flow]
  cases Snapshot.place StoredFlow.key flows params.key with
  | none => simp
  | some idx => simp

/-! ### Lists that stay valid -/

lemma ValidFlows.load (h : ValidFlows flows) : ValidFlows (loadFlows flows now) :=
  h.sublist List.filter_sublist

lemma ValidFlows.abandon (h : ValidFlows flows) : ValidFlows (abandonFlow flowId flows) :=
  h.sublist List.filter_sublist

/-- Transaction ids are no part of an identity. -/
lemma ValidFlows.update (h : ValidFlows flows) (updates : FlowUpdates) :
    ValidFlows (updateFlow flowId updates flows) := by
  apply h.map
  intro f
  split_ifs <;> rfl

lemma validFlows_nil : ValidFlows [] := ⟨Nat.zero_le _, List.nodup_nil⟩

lemma ValidFlows.flowsOf {localStorage : String → List StoredFlow} {wallet : Option String}
    (h : ∀ w, ValidFlows (localStorage w)) : ValidFlows (flowsOf localStorage wallet now) := by
  cases wallet with
  | none => exact validFlows_nil
  | some w => exact (h w).load

section

variable {localStorage : String → List StoredFlow} {e : Event}

/-- A claim, blocked or granted. -/
lemma Provider.step_claim (hstep : p.step localStorage (.claimFlow params flowId now) = some p') :
    (claimFlow p.rendered params flowId now = none ∧ p' = p) ∨
      ∃ update, claimFlow p.rendered params flowId now =
          some ({ params.flow flowId now with status := .approvalPending }, update) ∧
        Snapshot.claim StoredFlow.key maxParallelFlows p.rendered (params.flow flowId now)
          = some update ∧
        params.flow flowId now ∉ p.storedFlows ∧
        p' = { p with storedFlows := update p.storedFlows } := by
  rw [Provider.step] at hstep
  split_ifs at hstep with hfresh
  cases hclaim : Snapshot.claim StoredFlow.key maxParallelFlows p.rendered
      (params.flow flowId now) with
  | none =>
    rw [claimFlow_eq, hclaim] at hstep ⊢
    cases hstep
    exact Or.inl ⟨rfl, rfl⟩
  | some update =>
    rw [claimFlow_eq, hclaim] at hstep ⊢
    cases hstep
    refine Or.inr ⟨update, rfl, rfl, ?_, rfl⟩
    intro hmem
    exact hfresh (List.mem_map_of_mem hmem)

/-- The last render stays valid, and the latest list does unless the event is a claim. -/
lemma Provider.step_valid (hstep : p.step localStorage e = some p')
    (hsaved : ∀ w, ValidFlows (localStorage w)) (hstored : ValidFlows p.storedFlows)
    (hrendered : ValidFlows p.rendered) :
    ValidFlows p'.rendered ∧
      ((∀ params flowId now, e ≠ .claimFlow params flowId now) → ValidFlows p'.storedFlows) := by
  cases e with
  | claimFlow params flowId now =>
    refine ⟨?_, fun hclaim => absurd rfl (hclaim params flowId now)⟩
    rcases Provider.step_claim hstep with ⟨-, rfl⟩ | ⟨update, -, -, -, rfl⟩
    · exact hrendered
    · exact hrendered
  | updateFlow flowId updates =>
    cases hstep
    exact ⟨hrendered, fun _ => hstored.update updates⟩
  | abandonFlow flowId =>
    cases hstep
    exact ⟨hrendered, fun _ => hstored.abandon⟩
  | release flowId =>
    rw [Provider.step] at hstep
    split_ifs at hstep
    cases hstep
    exact ⟨hrendered, fun _ => hstored.abandon⟩
  | storage newValue now =>
    rw [Provider.step] at hstep
    cases hwallet : p.wallet with
    | none =>
      rw [hwallet] at hstep
      cases hstep
    | some w =>
      rw [hwallet] at hstep
      cases hstep
      refine ⟨hrendered, fun _ => ?_⟩
      cases newValue with
      | true => exact (hsaved w).load
      | false => exact validFlows_nil
  | render transactions =>
    cases hstep
    exact ⟨hstored, fun _ => hstored⟩
  | save =>
    cases hstep
    exact ⟨hrendered, fun _ => hstored⟩
  | connect wallet now =>
    rw [Provider.step] at hstep
    split_ifs at hstep
    cases hstep
    have hflows : ValidFlows (Frontend.flowsOf localStorage wallet now) :=
      ValidFlows.flowsOf hsaved
    exact ⟨hflows, fun _ => hflows⟩

lemma Provider.saved_valid (hsaved : ∀ w, ValidFlows (localStorage w))
    (hrendered : ValidFlows p.rendered) (w : String) :
    ValidFlows (p.saved localStorage e w) := by
  cases e with
  | save =>
    cases hwallet : p.wallet with
    | none =>
      rw [Provider.saved, hwallet]
      exact hsaved w
    | some w' =>
      rw [Provider.saved, hwallet]
      show ValidFlows (Function.update localStorage w' p.rendered w)
      by_cases hw : w = w'
      · subst hw
        rw [Function.update_self]
        exact hrendered
      · rw [Function.update_of_ne hw]
        exact hsaved w
  | _ => exact hsaved w

/-- One event of a tab: only a claim can break the lock, when its render is behind. -/
lemma Provider.locked_iff (hstep : p.step localStorage e = some p')
    (hsaved : ∀ w, ValidFlows (localStorage w)) (hstored : ValidFlows p.storedFlows)
    (hrendered : ValidFlows p.rendered) :
    p.Locked e p' ↔ ∀ params flowId now, e = .claimFlow params flowId now → p.UpToDate params := by
  by_cases hclaim : ∃ params flowId now, e = .claimFlow params flowId now
  · obtain ⟨params, flowId, now, rfl⟩ := hclaim
    rcases Provider.step_claim hstep with ⟨hnone, rfl⟩ | ⟨update, hsome, hupdate, hnew, rfl⟩
    · -- a blocked claim changes nothing
      constructor
      · intro _ _ _ _ heq
        cases heq
        exact Or.inl (claim_eq_none_iff.mp hnone)
      · intro _
        refine ⟨hstored, ?_, fun _ _ _ _ f hf _ => hf⟩
        intro _ _ _ flow update heq hsome
        cases heq
        rw [hnone] at hsome
        cases hsome
    · have hiff := Snapshot.claim_sound_iff hstored hnew hupdate
      constructor
      · intro hlocked _ _ _ heq
        cases heq
        refine Or.inr (hiff.mp ⟨hlocked.valid, ?_, ?_⟩)
        · exact hlocked.present params flowId now _ update rfl hsome
        · exact hlocked.kept params flowId now rfl
      · intro huptodate
        have hagrees := (huptodate params flowId now rfl).resolve_left fun hblocked => by
          have hnone : claimFlow p.rendered params flowId now = none :=
            claim_eq_none_iff.mpr hblocked
          rw [hsome] at hnone
          cases hnone
        obtain ⟨hvalid, hheld, hkept⟩ := hiff.mpr hagrees
        refine ⟨hvalid, ?_, ?_⟩
        · intro _ _ _ flow _ heq hflow
          cases heq
          rw [hsome] at hflow
          cases hflow
          exact hheld
        · intro _ _ _ heq
          cases heq
          exact hkept
  · -- no claim: a list is cut down, or changed in its transaction ids
    have hne : ∀ params flowId now, e ≠ .claimFlow params flowId now :=
      fun params flowId now heq => hclaim ⟨params, flowId, now, heq⟩
    have hvalid := (Provider.step_valid hstep hsaved hstored hrendered).2 hne
    refine iff_of_true ⟨hvalid, ?_, ?_⟩ ?_
    · exact fun params flowId now _ _ heq => absurd heq (hne params flowId now)
    · exact fun params flowId now heq => absurd heq (hne params flowId now)
    · exact fun params flowId now heq => absurd heq (hne params flowId now)

end

/-! ### Runs of the tabs -/

/-- A step is an event of one tab; the other tabs stay as they are. -/
lemma Browser.Step.cases (hstep : b.Step l b') :
    (b.tabs l.1).step b.localStorage l.2 = some (b'.tabs l.1) ∧
      (∀ i, i ≠ l.1 → b'.tabs i = b.tabs i) ∧
      b'.localStorage = (b.tabs l.1).saved b.localStorage l.2 := by
  obtain ⟨p', hp', rfl⟩ := Option.map_eq_some_iff.mp hstep
  refine ⟨?_, ?_, rfl⟩
  · rw [hp']
    exact congrArg some (Function.update_self l.1 p' b.tabs).symm
  · intro i hi
    exact Function.update_of_ne hi p' b.tabs

lemma locked_iff_upToDate (hvalid : b.Valid) (hstep : b.Step l b') :
    Locked b l b' ↔ UpToDate b l b' := by
  obtain ⟨htab, hothers, -⟩ := hstep.cases
  have hiff :=
    Provider.locked_iff htab hvalid.saved (hvalid.stored l.1) (hvalid.rendered l.1)
  rw [Locked, UpToDate]
  rw [hiff, and_iff_left_iff_imp]
  intro huptodate i
  by_cases hi : i = l.1
  · subst hi
    exact (hiff.mpr huptodate).valid
  · rw [hothers i hi]
    exact hvalid.stored i

/-- A step that keeps the lock leads from a valid state to a valid state. -/
lemma Locked.valid_step (hlocked : Locked b l b') (hvalid : b.Valid) (hstep : b.Step l b') :
    b'.Valid := by
  obtain ⟨htab, hothers, hsaved⟩ := hstep.cases
  refine ⟨hlocked.2, ?_, ?_⟩
  · intro i
    by_cases hi : i = l.1
    · subst hi
      exact (Provider.step_valid htab hvalid.saved (hvalid.stored l.1) (hvalid.rendered l.1)).1
    · rw [hothers i hi]
      exact hvalid.rendered i
  · rw [hsaved]
    exact Provider.saved_valid hvalid.saved (hvalid.rendered l.1)

variable {s t : Browser T} {h : Lts.History (Browser T) (T × Event)}

lemma valid_of_locked (hrun : Lts.Run Browser.Step s h t) (hvalid : s.Valid)
    (hlocked : Lts.Along Locked s h) : t.Valid := by
  induction hrun with
  | nil => exact hvalid
  | cons hrun hlast ih =>
    obtain ⟨hbefore, hnow⟩ := hlocked
    rw [hrun.last_eq] at hnow
    exact hnow.valid_step (ih hbefore) hlast

/-- From a valid state, the lock is kept along a run exactly when every claim of the run comes from
a render that answers it as the latest list does. -/
theorem flows_locked_iff (hrun : Lts.Run Browser.Step s h t) (hvalid : s.Valid) :
    Lts.Along Locked s h ↔ Lts.Along UpToDate s h := by
  induction hrun with
  | nil => exact Iff.rfl
  | cons hrun hlast ih =>
    rw [Lts.Along, Lts.Along, hrun.last_eq]
    constructor
    · rintro ⟨hbefore, hnow⟩
      have ht := valid_of_locked hrun hvalid hbefore
      exact ⟨ih.mp hbefore, (locked_iff_upToDate ht hlast).mp hnow⟩
    · rintro ⟨hbefore, hnow⟩
      have ht := valid_of_locked hrun hvalid (ih.mpr hbefore)
      exact ⟨ih.mpr hbefore, (locked_iff_upToDate ht hlast).mpr hnow⟩

namespace ActiveFlows.Example

def buying (optionId : String) : ClaimParams :=
  ⟨.buyOption, "pool", some optionId, "Buy", none, none⟩

/-- The action transaction of the first of three flows has been broadcast. -/
def three : List StoredFlow :=
  [{ (buying "1").flow "a" 0 with actionTxId := some "tx" }, (buying "2").flow "b" 0,
    (buying "3").flow "c" 0]

def start : Browser Unit where
  localStorage := fun _ => []
  tabs := fun _ => ⟨some "alice", three, three, []⟩

/-- The first flow is confirmed and released, and before the next render the second is retried. -/
def retried : List (Unit × Event) :=
  [((), .render [⟨"tx", .confirmed⟩]), ((), .release "a"), ((), .claimFlow (buying "2") "d" 0)]

/-- The same, with a render before the retry. -/
def rendered : List (Unit × Event) :=
  [((), .render [⟨"tx", .confirmed⟩]), ((), .release "a"), ((), .render []),
    ((), .claimFlow (buying "2") "d" 0)]

lemma valid_start : start.Valid := by
  have hthree : ValidFlows three := ⟨by decide, by decide⟩
  exact ⟨fun _ => hthree, fun _ => hthree, fun _ => validFlows_nil⟩

/-- The retry of the second flow replaces the third. -/
theorem retry_replaces_another : start.Valid ∧
    ∃ t, Lts.Run Browser.Step start (Lts.trace Browser.step start retried) t ∧
      ¬ Lts.Along Locked start (Lts.trace Browser.step start retried) ∧
      (t.tabs ()).storedFlows = [(buying "2").flow "b" 0, (buying "2").flow "d" 0] := by
  obtain ⟨t, ht⟩ : ∃ t, Lts.after Browser.step start retried = some t := ⟨_, rfl⟩
  have hrun : Lts.Run Browser.Step start (Lts.trace Browser.step start retried) t :=
    Lts.run_trace ht
  have hflows : (t.tabs ()).storedFlows
      = [(buying "2").flow "b" 0, (buying "2").flow "d" 0] := by
    cases ht
    decide
  refine ⟨valid_start, t, hrun, ?_, hflows⟩
  intro hlocked
  have hdistinct := ((valid_of_locked hrun valid_start hlocked).stored ()).distinct
  rw [hflows] at hdistinct
  revert hdistinct
  decide

theorem flows_locked_iff_rendered :
    Lts.Along Locked start (Lts.trace Browser.step start rendered) := by
  obtain ⟨t, ht⟩ : ∃ t, Lts.after Browser.step start rendered = some t := ⟨_, rfl⟩
  apply (flows_locked_iff (Lts.run_trace ht) valid_start).mpr
  refine ⟨⟨⟨⟨trivial, ?_⟩, ?_⟩, ?_⟩, ?_⟩
  · intro _ _ _ heq
    cases heq
  · intro _ _ _ heq
    cases heq
  · intro _ _ _ heq
    cases heq
  · intro _ _ _ heq
    cases heq
    decide

end ActiveFlows.Example

end Frogop.Frontend
