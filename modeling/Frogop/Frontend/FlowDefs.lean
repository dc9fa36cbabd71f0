import Mathlib.Tactic.Common

/-!
# Active flows

The records of `flowDefs.ts` and `transactionDefs.ts`: two-step flows, the transactions they wait
for, and the status of a flow, which is never stored but derived from its transactions.
Timestamps are in milliseconds.
-/

namespace Frogop.Frontend

def maxParallelFlows : ℕ := 5

inductive FlowActionType
  | writeOption
  | buyOption
  | exercise
  deriving DecidableEq, Repr

def FlowActionType.toString : FlowActionType → String
  | .writeOption => "writeOption"
  | .buyOption => "buyOption"
  | .exercise => "exercise"

inductive FlowStatus
  | approvalPending
  | approvalConfirmed
  | actionPending
  | actionConfirmed
  | approvalFailed
  | actionFailed
  deriving DecidableEq, Repr

def FlowStatus.Confirmed (s : FlowStatus) : Prop := s = .approvalConfirmed ∨ s = .actionConfirmed

def FlowStatus.Failed (s : FlowStatus) : Prop := s = .approvalFailed ∨ s = .actionFailed

def flowIdentityKey (actionType : FlowActionType) (poolAddress : String)
    (optionId : Option String) : String :=
  actionType.toString ++ ":" ++ poolAddress ++ ":" ++ optionId.getD "none"

structure StoredFlow where
  flowId : String
  actionType : FlowActionType
  poolAddress : String
  optionId : Option String
  approvalTxId : Option String
  actionTxId : Option String
  claimedAt : ℕ
  label : String
  formState : Option (List (String × String))
  strategyLabel : Option String
  deriving DecidableEq, Repr

/-- The identity that a flow locks. -/
def StoredFlow.key (f : StoredFlow) : String :=
  flowIdentityKey f.actionType f.poolAddress f.optionId

structure ActiveFlow extends StoredFlow where
  status : FlowStatus
  deriving DecidableEq, Repr

/-! ### Tracked transactions -/

inductive TxType
  | approve
  | writeOption
  | buyOption
  | cancelOption
  | exercise
  | settle
  | transferOption
  | batchCancel
  | batchSettle
  | rollOption
  | strategy
  deriving DecidableEq, Repr

inductive TxStatus
  | broadcast
  | pending
  | confirmed
  | failed
  deriving DecidableEq, Repr

/-- The part of a tracked transaction from which the status of a flow is derived. -/
structure TxStatusRecord where
  txId : String
  status : TxStatus
  deriving DecidableEq, Repr

structure TrackedTransaction extends TxStatusRecord where
  type : TxType
  poolAddress : String
  createdAt : ℕ
  confirmedAt : Option ℕ
  broadcastBlock : Option ℕ
  confirmedBlock : Option ℕ
  label : String
  flowId : Option String
  flowStep : Option ℕ
  metaFields : List (String × String)
  deriving DecidableEq, Repr

/-! ### The status of a flow -/

/-- An identifier counts as absent when it is empty. -/
def truthy (s : Option String) : Option String := s.filter (· ≠ "")

/-- The status recorded for a transaction, if it is tracked. -/
def recorded (transactions : List TxStatusRecord) (txId : String) : Option TxStatus :=
  (transactions.find? fun tx => tx.txId = txId).map (·.status)

def deriveFlowStatus (flow : StoredFlow) (transactions : List TxStatusRecord) : FlowStatus :=
  match truthy flow.actionTxId, truthy flow.approvalTxId with
  | some txId, _ =>
    match recorded transactions txId with
    | none | some .broadcast | some .pending => .actionPending
    | some .confirmed => .actionConfirmed
    | some .failed => .actionFailed
  | none, some txId =>
    match recorded transactions txId with
    | none | some .broadcast | some .pending => .approvalPending
    | some .confirmed => .approvalConfirmed
    | some .failed => .approvalFailed
  | none, none => .approvalPending

/-- The transaction that decides the status of a flow: its action, or before that its approval. -/
def StoredFlow.deciding (flow : StoredFlow) : Option String :=
  (truthy flow.actionTxId).or (truthy flow.approvalTxId)

variable {flow : StoredFlow} {transactions : List TxStatusRecord}

/-- A flow has confirmed, or failed, when its deciding transaction has. -/
lemma deriveFlowStatus_iff :
    ((deriveFlowStatus flow transactions).Confirmed ↔
      flow.deciding.bind (recorded transactions) = some .confirmed) ∧
    ((deriveFlowStatus flow transactions).Failed ↔
      flow.deciding.bind (recorded transactions) = some .failed) := by
  rw [deriveFlowStatus, StoredFlow.deciding, FlowStatus.Confirmed, FlowStatus.Failed]
  cases truthy flow.actionTxId with
  | some txId =>
    cases hr : recorded transactions txId with
    | none => simp [hr]
    | some status => cases status <;> simp [hr]
  | none =>
    cases truthy flow.approvalTxId with
    | none => simp
    | some txId =>
      cases hr : recorded transactions txId with
      | none => simp [hr]
      | some status => cases status <;> simp [hr]

end Frogop.Frontend
