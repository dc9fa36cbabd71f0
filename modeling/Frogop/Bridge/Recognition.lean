import Frogop.Bridge.Outputs

/-!
# Which payments are recognised

`verifyBtcOutput` remembers the script and the value of the outputs it credited, not the outputs.
A call is therefore answered `true` when some sufficient output of its transaction has a script and
value that no earlier call was credited for.
-/

namespace Frogop.Bridge

open Outcome

section

variable {env : Env} {s : BridgeStorage} {hash : List UInt8} {amount : ℕ} {key : Bytes32}
  {output : TxOutput} {outputs : List TxOutput}

instance : Decidable (Pays env s hash amount output) :=
  decidable_of_iff (output.scriptPublicKey = some (p2wsh hash) ∧ amount ≤ output.value.toNat ∧
      ¬ hasStorageAt s (consumedOutputKey env hash output.value))
    ⟨fun ⟨hscript, hvalue, hfresh⟩ => ⟨hscript, hvalue, hfresh⟩,
      fun h => ⟨h.script, h.value, h.fresh⟩⟩

/-! ### One call -/

/-- The loop stops at the first output that pays. -/
lemma scanOutputs_cons (hlen : hash.length = 32) :
    scanOutputs env hash amount (output :: outputs) s =
      if Pays env s hash amount output then
        (true, setStorageAt s (consumedOutputKey env hash output.value) (Bytes32.ofNat 1))
      else scanOutputs env hash amount outputs s := by
  rw [scanOutputs]
  by_cases hpays : Pays env s hash amount output
  · have hlen' : (p2wsh hash).length = 34 := by simp [p2wsh, hlen]
    have hprefix : (p2wsh hash).take 2 = [0x00, 0x20] := by simp [p2wsh]
    have hdrop : (p2wsh hash).drop 2 = hash := by simp [p2wsh]
    rw [if_pos hpays, hpays.script]
    simp only [hlen', hprefix, hdrop, ne_eq, not_true_eq_false, if_false,
      if_neg (not_lt.mpr hpays.value), if_neg hpays.fresh]
  · rw [if_neg hpays]
    cases hspk : output.scriptPublicKey with
    | none => rfl
    | some spk =>
      simp only
      split_ifs with hsize hprefix hhash hvalue hused
      · rfl
      · rfl
      · rfl
      · rfl
      · rfl
      · refine absurd ⟨?_, not_lt.mp hvalue, hused⟩ hpays
        have hwhole : spk = p2wsh hash := by
          rw [← List.take_append_drop 2 spk, not_not.mp hprefix, not_not.mp hhash]
          rfl
        rw [hspk, hwhole]

/-- The loop in one equation. -/
lemma scanOutputs_eq (hlen : hash.length = 32) :
    scanOutputs env hash amount outputs s =
      match outputs.find? (fun output => Pays env s hash amount output) with
      | some output =>
        (true, setStorageAt s (consumedOutputKey env hash output.value) (Bytes32.ofNat 1))
      | none => (false, s) := by
  induction outputs with
  | nil => rfl
  | cons output outputs ih =>
    rw [scanOutputs_cons hlen, List.find?_cons]
    split_ifs with hpays
    · simp only [hpays, decide_true]
    · simp only [hpays, decide_false, ih]

/-! ### Histories of calls -/

/-- An output that pays enough to the expected script. -/
structure Sufficient (c : VerifyCall) (output : TxOutput) : Prop where
  script : output.scriptPublicKey = some (p2wsh c.expectedHash.val)
  value : c.expectedAmount.toNat ≤ output.value.toNat

/-- A call that was answered `true`, and the output of its transaction that it was credited. -/
structure Credit where
  call : VerifyCall
  index : ℕ
  output : TxOutput

/-- The key under which an output is marked for a call. -/
def consumedKey (env : Env) (c : VerifyCall) (output : TxOutput) : Bytes32 :=
  consumedOutputKey env c.expectedHash.val output.value

/-- The first output that pays for a call, with its index. -/
def creditOf (env : Env) (txs : ℕ → List TxOutput) (c : VerifyCall) (s : BridgeStorage) :
    Option Credit :=
  ((txs c.tx).zipIdx.find? fun p =>
    Pays env s c.expectedHash.val c.expectedAmount.toNat p.1).map fun p => ⟨c, p.2, p.1⟩

/-- The answer to a call, and the storage it leaves. -/
def verify (env : Env) (txs : ℕ → List TxOutput) (c : VerifyCall) (s : BridgeStorage) :
    Bool × BridgeStorage :=
  match verifyBtcOutput env (txs c.tx) c.calldata s with
  | .ok reply => reply
  | .error _ => (false, s)

/-- The storage after a sequence of calls. -/
def afterCalls (env : Env) (txs : ℕ → List TxOutput) (cs : List VerifyCall) (s : BridgeStorage) :
    BridgeStorage :=
  cs.foldl (fun s c => (verify env txs c s).2) s

/-- The outputs a sequence of calls was credited. -/
def credits (env : Env) (txs : ℕ → List TxOutput) : List VerifyCall → BridgeStorage → List Credit
  | [], _ => []
  | c :: cs, s => (creditOf env txs c s).toList ++ credits env txs cs (verify env txs c s).2

/-- A sufficient output of the current transaction that was not itself credited to an earlier call
makes the call succeed. -/
def Recognised (env : Env) (txs : ℕ → List TxOutput) (cs : List VerifyCall) (c : VerifyCall)
    (s : BridgeStorage) : Prop :=
  (∃ (j : ℕ) (output : TxOutput), (txs c.tx)[j]? = some output ∧ Sufficient c output ∧
      ∀ d ∈ credits env txs cs s, (d.call.tx, d.index) ≠ (c.tx, j)) →
    (verify env txs c (afterCalls env txs cs s)).1 = true

variable {txs : ℕ → List TxOutput} {c : VerifyCall} {cs : List VerifyCall}

lemma pays_iff : Pays env s c.expectedHash.val c.expectedAmount.toNat output ↔
    Sufficient c output ∧ ¬ hasStorageAt s (consumedKey env c output) :=
  ⟨fun h => ⟨⟨h.script, h.value⟩, h.fresh⟩, fun h => ⟨h.1.script, h.1.value, h.2⟩⟩

/-- A call is answered `true` when there is an output to credit, and marks it. -/
lemma verify_eq (env : Env) (txs : ℕ → List TxOutput) (c : VerifyCall) (s : BridgeStorage) :
    verify env txs c s =
      match creditOf env txs c s with
      | some d => (true, setStorageAt s (consumedKey env d.call d.output) (Bytes32.ofNat 1))
      | none => (false, s) := by
  have hfind : (txs c.tx).find?
        (fun output => Pays env s c.expectedHash.val c.expectedAmount.toNat output)
      = (creditOf env txs c s).map Credit.output := by
    have hfst : (txs c.tx).zipIdx.map Prod.fst = txs c.tx := List.zipIdx_map_fst 0 _
    rw [creditOf, Option.map_map]
    conv_lhs => rw [← hfst, List.find?_map]
    rfl
  rw [verify, VerifyCall.calldata, verifyBtcOutput_eq c.expectedHash.property
    c.expectedAmount.toNat_lt]
  simp only
  rw [scanOutputs_eq c.expectedHash.property, hfind]
  cases hcredit : creditOf env txs c s with
  | none => rfl
  | some d =>
    have hcall : d.call = c := by
      obtain ⟨p, -, rfl⟩ := Option.map_eq_some_iff.mp hcredit
      rfl
    simp only [Option.map_some, consumedKey, hcall]

lemma verify_true_iff : (verify env txs c s).1 = true ↔
    ∃ output ∈ txs c.tx, Sufficient c output ∧ ¬ hasStorageAt s (consumedKey env c output) := by
  have hcredit : (verify env txs c s).1 = (creditOf env txs c s).isSome := by
    rw [verify_eq]
    cases creditOf env txs c s <;> rfl
  rw [hcredit, creditOf, Option.isSome_map, List.find?_isSome]
  constructor
  · rintro ⟨⟨output, j⟩, hmem, hpays⟩
    have hget := List.mk_mem_zipIdx_iff_getElem?.mp hmem
    simp only [decide_eq_true_eq] at hpays
    exact ⟨output, List.mem_of_getElem? hget, pays_iff.mp hpays⟩
  · rintro ⟨output, hmem, hpays⟩
    obtain ⟨j, hget⟩ := List.getElem?_of_mem hmem
    exact ⟨(output, j), List.mk_mem_zipIdx_iff_getElem?.mpr hget,
      decide_eq_true (pays_iff.mpr hpays)⟩

/-! ### What the storage remembers of a history -/

lemma hasStorageAt_mark_iff {key' : Bytes32} :
    hasStorageAt (setStorageAt s key (Bytes32.ofNat 1)) key' ↔
      hasStorageAt s key' ∨ key' = key := by
  by_cases heq : key' = key
  · subst heq
    exact ⟨fun _ => .inr rfl, fun _ => hasStorageAt_mark⟩
  · rw [hasStorageAt, setStorageAt, Function.update_of_ne heq]
    exact ⟨.inl, fun h => h.resolve_right heq⟩

lemma hasStorageAt_verify : hasStorageAt (verify env txs c s).2 key ↔
    hasStorageAt s key ∨
      ∃ d ∈ (creditOf env txs c s).toList, key = consumedKey env d.call d.output := by
  rw [verify_eq]
  cases creditOf env txs c s with
  | none => simp
  | some d => simp [hasStorageAt_mark_iff]

/-- A key is in use when an output of that script and value was credited. -/
lemma hasStorageAt_afterCalls : hasStorageAt (afterCalls env txs cs s) key ↔
    hasStorageAt s key ∨ ∃ d ∈ credits env txs cs s, key = consumedKey env d.call d.output := by
  induction cs generalizing s with
  | nil => simp [afterCalls, credits]
  | cons c cs ih =>
    have hrest := ih (s := (verify env txs c s).2)
    rw [hasStorageAt_verify] at hrest
    rw [afterCalls, List.foldl_cons, ← afterCalls, hrest]
    simp only [credits, List.mem_append, or_and_right, exists_or, or_assoc]

/-- From a bridge that has consumed no output: a call recognises a payment when an output of its
transaction is sufficient and has a script and value that nothing was credited for. -/
theorem recognises_iff (hempty : ∀ c output, ¬ hasStorageAt s (consumedKey env c output)) :
    (verify env txs c (afterCalls env txs cs s)).1 = true ↔
      ∃ output ∈ txs c.tx, Sufficient c output ∧
        ∀ d ∈ credits env txs cs s, consumedKey env d.call d.output ≠ consumedKey env c output := by
  rw [verify_true_iff]
  constructor
  · rintro ⟨output, hmem, hsuff, hunused⟩
    refine ⟨output, hmem, hsuff, fun d hd heq => hunused ?_⟩
    exact hasStorageAt_afterCalls.mpr (.inr ⟨d, hd, heq.symm⟩)
  · rintro ⟨output, hmem, hsuff, hnew⟩
    refine ⟨output, hmem, hsuff, fun hused => ?_⟩
    rcases hasStorageAt_afterCalls.mp hused with hold | ⟨d, hd, heq⟩
    · exact hempty c output hold
    · exact hnew d hd heq.symm

end

/-! ### Two equal payments -/

namespace Testnet

def env : Env where
  contractAddress := Bytes32.ofNat 1
  writers := .fixed
  sha256 := fun bytes => Bytes32.ofNat (BigEndian.ofBytes bytes)
  csvTimelock := fun pubkey _ => pubkey
  slot := fun bytes => bytes
  priceCachePointer := 2
  consumedOutputsPointer := 3

def hash : Bytes32 := Bytes32.ofNat 7

/-- Every transaction pays 100 satoshis to one script. -/
def txs (_ : ℕ) : List TxOutput := [⟨some (p2wsh hash.val), 100⟩]

/-- The payment of a transaction is looked for. -/
def call (tx : ℕ) : VerifyCall := ⟨tx, hash, 100⟩

end Testnet

/-- After a payment of 100 satoshis, one of 101 to the same script is recognised. -/
theorem larger_recognised :
    (verify Testnet.env (fun tx => [⟨some (p2wsh Testnet.hash.val), UInt64.ofNat (100 + tx)⟩])
      (Testnet.call 1)
      (afterCalls Testnet.env
        (fun tx => [⟨some (p2wsh Testnet.hash.val), UInt64.ofNat (100 + tx)⟩]) [Testnet.call 0]
        fun _ => Bytes32.zero)).1 = true := by
  refine (recognises_iff fun _ _ h => h rfl).mpr
    ⟨_, List.mem_singleton_self _, ⟨rfl, by decide⟩, fun d hd => ?_⟩
  obtain rfl : d = ⟨Testnet.call 0, 0, ⟨some (p2wsh Testnet.hash.val), 100⟩⟩ :=
    List.mem_singleton.mp hd
  decide

/-- A second transaction that pays the same script the same amount is not. -/
theorem second_unrecognised :
    ¬ Recognised Testnet.env Testnet.txs [Testnet.call 0] (Testnet.call 1)
      fun _ => Bytes32.zero := by
  intro h
  have hcredits : credits Testnet.env Testnet.txs [Testnet.call 0] (fun _ => Bytes32.zero)
      = [⟨Testnet.call 0, 0, ⟨some (p2wsh Testnet.hash.val), 100⟩⟩] := rfl
  have hfound := h ⟨0, ⟨some (p2wsh Testnet.hash.val), 100⟩, rfl, ⟨rfl, by decide⟩, by
    rw [hcredits]
    simp [Testnet.call]⟩
  exact absurd hfound (by decide)

end Frogop.Bridge
