import Frogop.Bridge.EscrowScript
import Frogop.Lib.ScriptMachine

/-!
# Who can spend from an escrow

The escrow script as a program: with a true selector it asks for the key of the buyer, otherwise
for a lock time and the key of the writer.
-/

namespace Frogop.Bridge

open Script

section

variable {tx : Spend} {buyerPub writerPub number selector signature : List UInt8} {k n : ℕ}
  {stack : List (List UInt8)}

lemma plain_push (data : List UInt8) : Plain (.push data) := by
  simp [Plain, opIf, opElse, opEndif]

/-- The program of the buyer. -/
def buyerPath (buyerPub : List UInt8) : Program :=
  .item (.push buyerPub) (plain_push _) (.item (.op 0xac) (by decide) .done)

/-- The program of the writer. -/
def writerPath (number writerPub : List UInt8) : Program :=
  .item (.push number) (plain_push _) (.item (.op 0xb1) (by decide) (.item (.op 0x75) (by decide)
    (.item (.push writerPub) (plain_push _) (.item (.op 0xac) (by decide) .done))))

def escrowProgram (buyerPub number writerPub : List UInt8) : Program :=
  .ifElse (buyerPath buyerPub) (writerPath number writerPub) .done

lemma items_escrowProgram :
    (escrowProgram buyerPub number writerPub).items = escrowItems buyerPub number writerPub := rfl

/-! ### The two paths -/

lemma eval_checkSig (pubkey : List UInt8) : (buyerPath pubkey).eval tx stack
    = match stack with
      | [] => none
      | signature :: stack => some (ofBool (tx.checkSig pubkey signature) :: stack) := by
  cases stack <;> rfl

/-- The writer's program checks the lock time first. -/
lemma eval_writerPath : (writerPath number writerPub).eval tx stack
    = if LockMet tx number then (buyerPath writerPub).eval tx stack else none := by
  simp only [writerPath, Program.eval, apply, Option.bind_some]
  split_ifs <;> rfl

lemma truthy_ofBool (b : Bool) : truthy (ofBool b) = b := by
  cases b <;> rfl

/-- Checking a signature leaves one true element exactly on a stack of that signature. -/
lemma checkSig_iff {pubkey : List UInt8} :
    (∃ top, (buyerPath pubkey).eval tx stack = some [top] ∧ truthy top = true) ↔
      ∃ signature, stack = [signature] ∧ tx.checkSig pubkey signature = true := by
  rw [eval_checkSig]
  cases stack with
  | nil => simp
  | cons signature stack =>
    constructor
    · rintro ⟨top, heval, htop⟩
      simp only [Option.some.injEq, List.cons.injEq] at heval
      obtain ⟨rfl, rfl⟩ := heval
      exact ⟨signature, rfl, by rwa [truthy_ofBool] at htop⟩
    · rintro ⟨_, heq, hsig⟩
      cases heq
      exact ⟨_, rfl, by rwa [truthy_ofBool]⟩

/-! ### The lock time -/

lemma length_magnitudeBytes_le_of_lt {fuel : ℕ} (h : n < 256 ^ k) :
    (magnitudeBytes fuel n).length ≤ k := by
  induction fuel generalizing n k with
  | zero => exact Nat.zero_le k
  | succ fuel ih =>
    rw [magnitudeBytes]
    split_ifs with hzero
    · exact Nat.zero_le k
    · cases k with
      | zero => exact absurd (Nat.lt_one_iff.mp h) hzero
      | succ k =>
        have hrest : n / 256 < 256 ^ k := by
          rw [Nat.pow_succ] at h
          exact Nat.div_lt_of_lt_mul (by rwa [Nat.mul_comm])
        exact Nat.succ_le_succ (ih hrest)

/-- The block of a lock time that can be met is short enough for a number of the script. -/
lemma length_encodeScriptNumber_of_lt {value : ℤ} (h : value.natAbs < 256 ^ k) :
    (encodeScriptNumber value).length ≤ k + 1 := by
  have hlen : (magnitudeBytes 8 value.natAbs).length ≤ k := length_magnitudeBytes_le_of_lt h
  rcases List.eq_nil_or_concat' (magnitudeBytes 8 value.natAbs) with hnil | ⟨init, last, hlast⟩
  · rw [encodeScriptNumber_nil hnil]
    exact Nat.zero_le _
  · rw [hlast, List.length_append, List.length_singleton] at hlen
    rw [encodeScriptNumber_append_singleton hlast]
    split_ifs <;> simp only [List.length_append, List.length_singleton] <;> omega

/-- The lock time the script asks for. -/
def LockedUntil (tx : Spend) (n : ℕ) : Prop :=
  (n < lockTimeThreshold ↔ tx.lockTime.toNat < lockTimeThreshold) ∧ n ≤ tx.lockTime.toNat ∧
    tx.sequence ≠ 0xffffffff

lemma lockMet_iff (hn : n < u64Size) :
    LockMet tx (encodeScriptNumber (toI64 n)) ↔ LockedUntil tx n := by
  have hvalue := decodeNumber_encodeScriptNumber (toI64_natAbs_lt hn)
  have hlock := tx.lockTime.toNat_lt
  rw [LockMet, LockedUntil, hvalue]
  by_cases hlow : n < 2 ^ 63
  · rw [(toI64_eq_iff hn).mpr hlow]
    constructor
    · rintro ⟨-, -, hkind, hle, hfinal⟩
      exact ⟨by exact_mod_cast hkind, by exact_mod_cast hle, hfinal⟩
    · rintro ⟨hkind, hle, hfinal⟩
      refine ⟨?_, Nat.cast_nonneg n, by exact_mod_cast hkind, by exact_mod_cast hle, hfinal⟩
      apply length_encodeScriptNumber_of_lt
      rw [Int.natAbs_natCast]
      exact hle.trans_lt hlock
  · -- the cast to `i64` made the block negative
    constructor
    · rintro ⟨-, hneg, -⟩
      rw [u64Size] at hn
      rw [toI64] at hneg
      split_ifs at hneg
      omega
    · rintro ⟨-, hle, -⟩
      exact absurd (hle.trans_lt hlock) (by omega)

/-! ### The escrow -/

/-- The witnesses that open an escrow: a signature of the buyer and a true selector, or a signature
of the writer and a false one once the lock time is met. -/
def Opens (tx : Spend) (buyerPub writerPub : List UInt8) (n : ℕ) (signature selector : List UInt8) :
    Prop :=
  signature.length ≤ maxElementSize ∧ selector.length ≤ maxElementSize ∧
    ((truthy selector = true ∧ tx.checkSig buyerPub signature = true) ∨
      (truthy selector = false ∧ tx.checkSig writerPub signature = true ∧ LockedUntil tx n))

lemma accepts_escrowScript (hbuyer : buyerPub.length = 33) (hwriter : writerPub.length = 33)
    (hn : n < u64Size) : Accepts tx (escrowScript buyerPub writerPub n) stack ↔
      ∃ signature selector, stack = [selector, signature] ∧
        Opens tx buyerPub writerPub n signature selector := by
  have hparse := parse_escrowScript hbuyer hwriter n
  rw [← items_escrowProgram] at hparse
  rw [accepts_iff hparse]
  cases stack with
  | nil => simp [escrowProgram, Program.eval]
  | cons selector stack =>
    have heval : (escrowProgram buyerPub (encodeScriptNumber (toI64 n)) writerPub).eval tx
        (selector :: stack) = if truthy selector then (buyerPath buyerPub).eval tx stack
          else (writerPath (encodeScriptNumber (toI64 n)) writerPub).eval tx stack := by
      have hdone : Program.done.eval tx = some := rfl
      rw [escrowProgram, Program.eval, hdone, Option.bind_fun_some]
    rw [heval, List.forall_mem_cons]
    cases hselector : truthy selector with
    | true =>
      rw [if_pos rfl, checkSig_iff]
      constructor
      · rintro ⟨⟨hsel, hsize⟩, signature, rfl, hsig⟩
        exact ⟨signature, selector, rfl, hsize _ List.mem_cons_self, hsel, .inl ⟨hselector, hsig⟩⟩
      · rintro ⟨signature, _, heq, hsize, hsel, ⟨-, hsig⟩ | ⟨hfalse, -⟩⟩
        · cases heq
          exact ⟨⟨hsel, by simpa using hsize⟩, signature, rfl, hsig⟩
        · cases heq
          rw [hselector] at hfalse
          cases hfalse
    | false =>
      rw [if_neg (by decide), eval_writerPath]
      constructor
      · rintro ⟨⟨hsel, hsize⟩, top, heval, htop⟩
        split_ifs at heval with hlock
        obtain ⟨signature, rfl, hsig⟩ := checkSig_iff.mp ⟨top, heval, htop⟩
        exact ⟨signature, selector, rfl, hsize _ List.mem_cons_self, hsel,
          .inr ⟨hselector, hsig, (lockMet_iff hn).mp hlock⟩⟩
      · rintro ⟨signature, _, heq, hsize, hsel, ⟨htrue, -⟩ | ⟨-, hsig, hlock⟩⟩
        · cases heq
          rw [hselector] at htrue
          cases htrue
        · cases heq
          rw [if_pos ((lockMet_iff hn).mpr hlock)]
          exact ⟨⟨hsel, by simpa using hsize⟩, checkSig_iff.mpr ⟨signature, rfl, hsig⟩⟩

/-- Who can spend an output to the hash of an escrow script that no other script has. -/
lemma spendsScriptHash_escrow {env : Env} {script : List UInt8} (hbuyer : buyerPub.length = 33)
    (hwriter : writerPub.length = 33) (hn : n < u64Size)
    (hcollision : env.sha256 script = env.sha256 (escrowScript buyerPub writerPub n) →
      script = escrowScript buyerPub writerPub n) :
    SpendsScriptHash env.sha256 (env.sha256 (escrowScript buyerPub writerPub n)) tx
        (stack ++ [script]) ↔
      script = escrowScript buyerPub writerPub n ∧ ∃ signature selector,
        stack = [signature, selector] ∧ Opens tx buyerPub writerPub n signature selector := by
  constructor
  · rintro ⟨stack', script', heq, hhash, haccepts⟩
    obtain ⟨rfl, hscript⟩ := List.append_inj' heq rfl
    obtain rfl : script = script' := by simpa using hscript
    obtain rfl := hcollision hhash
    obtain ⟨signature, selector, hstack, hopens⟩ :=
      (accepts_escrowScript hbuyer hwriter hn).mp haccepts
    refine ⟨rfl, signature, selector, ?_, hopens⟩
    rw [← List.reverse_reverse stack, hstack]
    rfl
  · rintro ⟨rfl, signature, selector, rfl, hopens⟩
    exact ⟨_, _, rfl, rfl, (accepts_escrowScript hbuyer hwriter hn).mpr
      ⟨signature, selector, rfl, hopens⟩⟩

end

end Frogop.Bridge
