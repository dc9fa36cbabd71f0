import Frogop.Bridge.Basic
import Mathlib.Data.Set.Function

/-!
# Outputs are credited once

`verifyBtcOutput` answers `true` for an output that pays enough to the expected hash and was not
consumed before, and consumes it. Marks are never removed, so two calls that answer `true` were
given different outputs.
-/

namespace Frogop.Bridge

open Outcome

/-- The P2WSH script of a hash: `OP_0`, then a push of the 32 bytes. -/
def p2wsh (hash : List UInt8) : List UInt8 := 0x00 :: 0x20 :: hash

/-- An output that `verifyBtcOutput` may answer `true` for. -/
structure Pays (env : Env) (s : BridgeStorage) (hash : List UInt8) (amount : ℕ)
    (output : TxOutput) : Prop where
  script : output.scriptPublicKey = some (p2wsh hash)
  value : amount ≤ output.value.toNat
  fresh : ¬ hasStorageAt s (consumedOutputKey env hash output.value)

/-- Every key in use stays in use. -/
def Marks (s s' : BridgeStorage) : Prop := ∀ key, hasStorageAt s key → hasStorageAt s' key

variable {env : Env} {s s' : BridgeStorage} {hash : List UInt8} {amount : ℕ}
  {key : Bytes32} {outputs : List TxOutput} {found : Bool}

lemma Marks.refl : Marks s s := fun _ h => h

lemma hasStorageAt_mark : hasStorageAt (setStorageAt s key (Bytes32.ofNat 1)) key := by
  rw [hasStorageAt, setStorageAt, Function.update_self]
  decide

lemma marks_mark : Marks s (setStorageAt s key (Bytes32.ofNat 1)) := by
  intro key' hk
  by_cases heq : key' = key
  · subst heq
    exact hasStorageAt_mark
  · rwa [hasStorageAt, setStorageAt, Function.update_of_ne heq]

/-! ### One call -/

/-- The loop answers `false` and leaves the storage alone, or finds an output that pays and marks
it. -/
lemma scanOutputs_spec (h : scanOutputs env hash amount outputs s = (found, s')) :
    (found = false ∧ s' = s) ∨
      found = true ∧ ∃ (j : ℕ) (output : TxOutput), outputs[j]? = some output ∧
        Pays env s hash amount output ∧
        s' = setStorageAt s (consumedOutputKey env hash output.value) (Bytes32.ofNat 1) := by
  induction outputs with
  | nil =>
    cases h
    exact .inl ⟨rfl, rfl⟩
  | cons output outputs ih =>
    have hskip : scanOutputs env hash amount outputs s = (found, s') →
        (found = false ∧ s' = s) ∨
          found = true ∧ ∃ (j : ℕ) (o : TxOutput), (output :: outputs)[j]? = some o ∧
            Pays env s hash amount o ∧
            s' = setStorageAt s (consumedOutputKey env hash o.value) (Bytes32.ofNat 1) := by
      intro hrest
      rcases ih hrest with hnone | ⟨hfound, j, o, hj, hpays, hs⟩
      · exact .inl hnone
      · exact .inr ⟨hfound, j + 1, o, by rwa [List.getElem?_cons_succ], hpays, hs⟩
    rw [scanOutputs] at h
    cases hspk : output.scriptPublicKey with
    | none =>
      rw [hspk] at h
      exact hskip h
    | some spk =>
      simp only [hspk] at h
      split_ifs at h with hlen hprefix hhash hvalue hused
      · exact hskip h
      · exact hskip h
      · exact hskip h
      · exact hskip h
      · exact hskip h
      · cases h
        refine .inr ⟨rfl, 0, output, rfl, ⟨?_, not_lt.mp hvalue, hused⟩, rfl⟩
        have hwhole : spk = p2wsh hash := by
          rw [← List.take_append_drop 2 spk, not_not.mp hprefix, not_not.mp hhash]
          rfl
        rw [hspk, hwhole]

/-- The loop finds an output when there is one that pays. -/
lemma scanOutputs_of_pays {output : TxOutput} (hlen : hash.length = 32) (hmem : output ∈ outputs)
    (hpays : Pays env s hash amount output) :
    (scanOutputs env hash amount outputs s).1 = true := by
  induction outputs with
  | nil => cases hmem
  | cons o outputs ih =>
    have hskip : o ≠ output → (scanOutputs env hash amount outputs s).1 = true := by
      intro hne
      rcases List.mem_cons.mp hmem with heq | hrest
      · exact absurd heq.symm hne
      · exact ih hrest
    rw [scanOutputs]
    cases hspk : o.scriptPublicKey with
    | none =>
      apply hskip
      rintro rfl
      rw [hpays.script] at hspk
      cases hspk
    | some spk =>
      have hsame : o = output → spk = p2wsh hash := by
        rintro rfl
        exact Option.some.inj (hspk.symm.trans hpays.script)
      simp only
      split_ifs with hlen' hprefix hhash hvalue hused
      · exact hskip fun heq => hlen' (by rw [hsame heq, p2wsh]; simp [hlen])
      · exact hskip fun heq => hprefix (by rw [hsame heq]; rfl)
      · exact hskip fun heq => hhash (by rw [hsame heq]; rfl)
      · exact hskip fun heq => absurd (heq ▸ hvalue) (not_lt.mpr hpays.value)
      · exact hskip fun heq => hpays.fresh (heq ▸ hused)
      · rfl

/-- Whatever a call answers, marks stay, and `true` stands for an output it marked. -/
lemma scanOutputs_marks (h : scanOutputs env hash amount outputs s = (found, s')) : Marks s s' := by
  rcases scanOutputs_spec h with ⟨-, rfl⟩ | ⟨-, j, output, -, -, rfl⟩
  · exact .refl
  · exact marks_mark

/-- The arguments are read back as they were written. -/
lemma verifyBtcOutput_eq (hlen : hash.length = 32) (hamount : amount < u64Size) :
    verifyBtcOutput env outputs (buffer 40 [.bytes hash, .u64 amount]) s
      = .ok (scanOutputs env hash amount outputs s) := by
  have hbuffer : buffer 40 [.bytes hash, .u64 amount]
      = hash ++ (Field.encode (.u64 amount) ++ []) := by
    simp [buffer, Field.encode, Field.width, hlen]
  simp only [verifyBtcOutput, hbuffer, readBytes_append hlen, ok_bind, readU64_encode hamount,
    pure_eq]

/-! ### Any number of calls -/

/-- A call of `verifyBtcOutput`, made in the transaction number `tx`. -/
structure VerifyCall where
  tx : ℕ
  expectedHash : Bytes32
  expectedAmount : UInt64

def VerifyCall.calldata (c : VerifyCall) : List UInt8 :=
  buffer 40 [.bytes c.expectedHash.val, .u64 c.expectedAmount.toNat]

/-- The answers to a sequence of calls, in the transactions `txs`. -/
def answers (env : Env) (txs : ℕ → List TxOutput) : List VerifyCall → BridgeStorage → List Bool
  | [], _ => []
  | c :: cs, s =>
    match verifyBtcOutput env (txs c.tx) c.calldata s with
    | .ok (found, s) => found :: answers env txs cs s
    | .error _ => false :: answers env txs cs s

variable {txs : ℕ → List TxOutput} {c : VerifyCall} {cs : List VerifyCall}

/-- The output `credit` of a transaction is one that pays for the call. -/
def Credits (env : Env) (txs : ℕ → List TxOutput) (s : BridgeStorage) (c : VerifyCall)
    (credit : ℕ × ℕ) : Prop :=
  credit.1 = c.tx ∧ ∃ output, (txs credit.1)[credit.2]? = some output ∧
    Pays env s c.expectedHash.val c.expectedAmount.toNat output

/-- The first call, and the calls after it. -/
lemma answers_cons (env : Env) (txs : ℕ → List TxOutput) (c : VerifyCall) (cs : List VerifyCall)
    (s : BridgeStorage) : ∃ found s', Marks s s' ∧
    answers env txs (c :: cs) s = found :: answers env txs cs s' ∧
    (found = true → ∃ (j : ℕ) (output : TxOutput), (txs c.tx)[j]? = some output ∧
      Pays env s c.expectedHash.val c.expectedAmount.toNat output ∧
      hasStorageAt s' (consumedOutputKey env c.expectedHash.val output.value)) := by
  obtain ⟨⟨found, s'⟩, hscan⟩ : ∃ reply, scanOutputs env c.expectedHash.val
      c.expectedAmount.toNat (txs c.tx) s = reply := ⟨_, rfl⟩
  refine ⟨found, s', scanOutputs_marks hscan, ?_, fun htrue => ?_⟩
  · have hcall : verifyBtcOutput env (txs c.tx) c.calldata s = .ok (found, s') := by
      rw [VerifyCall.calldata, verifyBtcOutput_eq c.expectedHash.property
        c.expectedAmount.toNat_lt, hscan]
    rw [answers, hcall]
  · rcases scanOutputs_spec hscan with ⟨hfalse, -⟩ | ⟨-, j, output, hj, hpays, rfl⟩
    · rw [htrue] at hfalse
      cases hfalse
    · exact ⟨j, output, hj, hpays, hasStorageAt_mark⟩

/-- Later calls are credited outputs that were fresh before. -/
lemma Credits.of_marks {credit : ℕ × ℕ} (hmarks : Marks s s') (h : Credits env txs s' c credit) :
    Credits env txs s c credit := by
  obtain ⟨htx, output, hget, hpays⟩ := h
  exact ⟨htx, output, hget, hpays.script, hpays.value, fun hused => hpays.fresh (hmarks _ hused)⟩

/-- An output that was credited for one call is not credited for a later one. -/
lemma Credits.ne_of_marked {d : VerifyCall} {credit credit' : ℕ × ℕ} {output : TxOutput}
    (hget : (txs credit.1)[credit.2]? = some output)
    (hpays : Pays env s d.expectedHash.val d.expectedAmount.toNat output)
    (hmarked : hasStorageAt s' (consumedOutputKey env d.expectedHash.val output.value))
    (h : Credits env txs s' c credit') : credit ≠ credit' := by
  rintro rfl
  obtain ⟨-, output', hget', hpays'⟩ := h
  obtain rfl : output = output' := Option.some.inj (hget.symm.trans hget')
  have hhash : p2wsh d.expectedHash.val = p2wsh c.expectedHash.val :=
    Option.some.inj (hpays.script.symm.trans hpays'.script)
  rw [p2wsh, p2wsh, List.cons.injEq, List.cons.injEq] at hhash
  rw [hhash.2.2] at hmarked
  exact hpays'.fresh hmarked

lemma length_answers (env : Env) (txs : ℕ → List TxOutput) (cs : List VerifyCall)
    (s : BridgeStorage) : (answers env txs cs s).length = cs.length := by
  induction cs generalizing s with
  | nil => rfl
  | cons c cs ih =>
    obtain ⟨found, s', -, hanswers, -⟩ := answers_cons env txs c cs s
    rw [hanswers, List.length_cons, ih, List.length_cons]

/-- `a` for the first call, `f` for the others. -/
def consCredit (a : ℕ × ℕ) (f : ℕ → ℕ × ℕ) : ℕ → ℕ × ℕ
  | 0 => a
  | k + 1 => f k

lemma injOn_consCredit {a : ℕ × ℕ} {f : ℕ → ℕ × ℕ} {b : Bool} {bs : List Bool}
    (hinj : Set.InjOn f {k | bs[k]? = some true})
    (hne : b = true → ∀ k, bs[k]? = some true → a ≠ f k) :
    Set.InjOn (consCredit a f) {k | (b :: bs)[k]? = some true} := by
  intro k hk k' hk' heq
  cases k with
  | zero =>
    cases k' with
    | zero => rfl
    | succ k' => exact absurd heq (hne (Option.some.inj hk) k' hk')
  | succ k =>
    cases k' with
    | zero => exact absurd heq.symm (hne (Option.some.inj hk') k hk)
    | succ k' => exact congrArg (· + 1) (hinj hk hk' heq)

/-- Every call that is answered `true` can be given an output of its transaction that pays for it,
no two calls the same one. -/
theorem credited_once (env : Env) (txs : ℕ → List TxOutput) (calls : List VerifyCall)
    (s : BridgeStorage) :
    ∃ credit : ℕ → ℕ × ℕ,
      (∀ k c, calls[k]? = some c → (answers env txs calls s)[k]? = some true →
        Credits env txs s c (credit k)) ∧
      Set.InjOn credit {k | (answers env txs calls s)[k]? = some true} := by
  induction calls generalizing s with
  | nil => exact ⟨fun _ => (0, 0), fun k c hk => by simp at hk, fun k hk => by simp [answers] at hk⟩
  | cons c cs ih =>
    obtain ⟨found, s', hmarks, hanswers, hfound⟩ := answers_cons env txs c cs s
    obtain ⟨credit, hcredit, hinj⟩ := ih s'
    -- the first call takes the output it marked, if it found one; the others keep theirs
    obtain ⟨first, hfirst, hne⟩ : ∃ first,
        (found = true → Credits env txs s c first) ∧
        (found = true → ∀ k, (answers env txs cs s')[k]? = some true → first ≠ credit k) := by
      cases found with
      | false => exact ⟨(0, 0), ⟨fun h => (Bool.false_ne_true h).elim,
          fun h => (Bool.false_ne_true h).elim⟩⟩
      | true =>
        obtain ⟨j, output, hget, hpays, hmarked⟩ := hfound rfl
        refine ⟨(c.tx, j), fun _ => ⟨rfl, output, hget, hpays⟩, fun _ k hk => ?_⟩
        have hlt : k < cs.length := by
          rw [← length_answers env txs cs s']
          exact (List.getElem?_eq_some_iff.mp hk).1
        exact Credits.ne_of_marked hget hpays hmarked
          (hcredit k _ (List.getElem?_eq_getElem hlt) hk)
    rw [hanswers]
    refine ⟨consCredit first credit, fun k d hk htrue => ?_, injOn_consCredit hinj hne⟩
    cases k with
    | zero =>
      obtain rfl : c = d := Option.some.inj hk
      exact hfirst (Option.some.inj htrue)
    | succ k => exact (hcredit k d hk htrue).of_marks hmarks

end Frogop.Bridge
