import Frogop.Lib.Script

/-!
# Running Bitcoin scripts

A script runs on the witness stack of the input that spends it. `OP_IF`, `OP_ELSE` and `OP_ENDIF`
keep a stack of conditions, and everything else is passed over while one of them is false. Pushes,
conditionals, `OP_DROP`, `OP_CHECKSIG` and `OP_CHECKLOCKTIMEVERIFY` are known; a script that reaches
another opcode is refused.

`run_ifElse` is the rule of the conditional: it runs one branch and leaves the other.
-/

namespace Script

/-! ### Transactions and stacks -/

/-- What a script sees of the transaction that spends it. -/
structure Spend where
  lockTime : UInt32
  /-- The sequence number of the input. -/
  sequence : UInt32
  /-- The signature is one of the transaction under the key. -/
  checkSig : (pubkey signature : List UInt8) → Bool

/-- Everything but zero and negative zero is true. -/
def truthy (bytes : List UInt8) : Bool :=
  bytes.dropLast.any (· ≠ 0) || bytes.getLast?.any fun last => last ≠ 0 && last ≠ 0x80

def ofBool (b : Bool) : List UInt8 := if b then [1] else []

/-- From here on a lock time is a time, below it is a block. -/
def lockTimeThreshold : ℕ := 500000000

/-- The check of `OP_CHECKLOCKTIMEVERIFY`. -/
def LockMet (tx : Spend) (number : List UInt8) : Prop :=
  number.length ≤ 5 ∧ 0 ≤ decodeNumber number ∧
    (decodeNumber number < lockTimeThreshold ↔ tx.lockTime.toNat < lockTimeThreshold) ∧
    decodeNumber number ≤ tx.lockTime.toNat ∧ tx.sequence ≠ 0xffffffff

instance (tx : Spend) (number : List UInt8) : Decidable (LockMet tx number) :=
  inferInstanceAs (Decidable (_ ∧ _))

/-- The stack, and the conditions that are open; both with the last one first. -/
structure State where
  stack : List (List UInt8)
  conditions : List Bool
  deriving DecidableEq, Repr

/-! ### One item -/

def opIf : Item := .op 0x63

def opElse : Item := .op 0x67

def opEndif : Item := .op 0x68

/-- An item that is no conditional, on a stack. -/
def apply (tx : Spend) : Item → List (List UInt8) → Option (List (List UInt8))
  | .push data, stack => some (data :: stack)
  | .op 0x75, _ :: stack => some stack
  | .op 0xac, pubkey :: signature :: stack => some (ofBool (tx.checkSig pubkey signature) :: stack)
  | .op 0xb1, number :: stack => if LockMet tx number then some (number :: stack) else none
  | _, _ => none

/-- The conditions that are open are true. -/
def Active (conditions : List Bool) : Prop := conditions.all id = true

instance (conditions : List Bool) : Decidable (Active conditions) :=
  inferInstanceAs (Decidable (_ = _))

def step (tx : Spend) (item : Item) (s : State) : Option State :=
  if item = opIf then
    if Active s.conditions then
      match s.stack with
      | [] => none
      | top :: stack => some ⟨stack, truthy top :: s.conditions⟩
    else some ⟨s.stack, false :: s.conditions⟩
  else if item = opElse then
    match s.conditions with
    | [] => none
    | b :: conditions => some ⟨s.stack, (!b) :: conditions⟩
  else if item = opEndif then
    match s.conditions with
    | [] => none
    | _ :: conditions => some ⟨s.stack, conditions⟩
  else if Active s.conditions then (apply tx item s.stack).map fun stack => ⟨stack, s.conditions⟩
  else some s

def run (tx : Spend) : List Item → State → Option State
  | [], s => some s
  | item :: items, s => (step tx item s).bind (run tx items)

/-- The largest element of a witness stack. -/
def maxElementSize : ℕ := 520

/-- The script runs to its end and leaves one element, which is true. -/
def Accepts (tx : Spend) (script : List UInt8) (stack : List (List UInt8)) : Prop :=
  (∀ element ∈ stack, element.length ≤ maxElementSize) ∧ ∃ items top, parse script = some items ∧
    run tx items ⟨stack, []⟩ = some ⟨[top], []⟩ ∧ truthy top = true

/-- Spending an output to the hash of a script: the last element of the witness is the script, the
others are its stack. -/
def SpendsScriptHash {H : Type*} (hash : List UInt8 → H) (scriptHash : H) (tx : Spend)
    (witness : List (List UInt8)) : Prop :=
  ∃ stack script, witness = stack ++ [script] ∧ hash script = scriptHash ∧
    Accepts tx script stack.reverse

section

variable {tx : Spend} {items items' : List Item} {item : Item} {s : State}
  {stack : List (List UInt8)} {conditions : List Bool} {top : List UInt8}

/-! ### Steps -/

lemma run_cons : run tx (item :: items) s = (step tx item s).bind (run tx items) := rfl

lemma run_append : run tx (items ++ items') s = (run tx items s).bind (run tx items') := by
  induction items generalizing s with
  | nil => rfl
  | cons item items ih =>
    rw [List.cons_append, run_cons, run_cons, Option.bind_assoc]
    simp only [ih]

/-- The item is no conditional. -/
def Plain (item : Item) : Prop := item ≠ opIf ∧ item ≠ opElse ∧ item ≠ opEndif

instance (item : Item) : Decidable (Plain item) := inferInstanceAs (Decidable (_ ∧ _))

@[simp] lemma active_nil : Active [] := rfl

@[simp] lemma active_cons {b : Bool} : Active (b :: conditions) ↔ b = true ∧ Active conditions := by
  simp [Active]

lemma step_plain (h : Plain item) : step tx item ⟨stack, conditions⟩
    = if Active conditions then (apply tx item stack).map fun stack => ⟨stack, conditions⟩
      else some ⟨stack, conditions⟩ := by
  rw [step, if_neg h.1, if_neg h.2.1, if_neg h.2.2]

lemma step_if_nil (h : Active conditions) : step tx opIf ⟨[], conditions⟩ = none := by
  rw [step, if_pos rfl, if_pos h]

lemma step_if_cons (h : Active conditions) : step tx opIf ⟨top :: stack, conditions⟩
    = some ⟨stack, truthy top :: conditions⟩ := by
  rw [step, if_pos rfl, if_pos h]

lemma step_if_of_not (h : ¬ Active conditions) :
    step tx opIf ⟨stack, conditions⟩ = some ⟨stack, false :: conditions⟩ := by
  rw [step, if_pos rfl, if_neg h]

@[simp] lemma step_else (b : Bool) : step tx opElse ⟨stack, b :: conditions⟩
    = some ⟨stack, (!b) :: conditions⟩ := rfl

@[simp] lemma step_endif (b : Bool) : step tx opEndif ⟨stack, b :: conditions⟩
    = some ⟨stack, conditions⟩ := rfl

end

/-! ### Programs -/

/-- A script in which every conditional is closed where it was opened. -/
inductive Program
  | done
  | item (i : Item) (hplain : Plain i) (rest : Program)
  | ifElse (a b rest : Program)

namespace Program

def items : Program → List Item
  | done => []
  | item i _ rest => i :: rest.items
  | ifElse a b rest => opIf :: (a.items ++ opElse :: (b.items ++ opEndif :: rest.items))

/-- What a program does to a stack: a conditional runs one of its branches. -/
def eval (tx : Spend) : Program → List (List UInt8) → Option (List (List UInt8))
  | done, stack => some stack
  | item i _ rest, stack => (apply tx i stack).bind (rest.eval tx)
  | ifElse _ _ _, [] => none
  | ifElse a b rest, top :: stack =>
    (if truthy top then a.eval tx stack else b.eval tx stack).bind (rest.eval tx)

variable {tx : Spend} {stack : List (List UInt8)} {conditions : List Bool}

/-- The machine does what the program says where all open conditions are true, and nothing
elsewhere. -/
lemma run_items (p : Program) : run tx p.items ⟨stack, conditions⟩
    = if Active conditions then (p.eval tx stack).map fun stack => ⟨stack, conditions⟩
      else some ⟨stack, conditions⟩ := by
  induction p generalizing stack conditions with
  | done => simp [items, run, eval]
  | item i hplain rest ih =>
    rw [items, run_cons, step_plain hplain, eval]
    split_ifs with h
    · cases apply tx i stack with
      | none => rfl
      | some stack =>
        rw [Option.map_some, Option.bind_some, Option.bind_some, ih, if_pos h]
    · rw [Option.bind_some, ih, if_neg h]
  | ifElse a b rest iha ihb ih =>
    rw [items, run_cons]
    by_cases h : Active conditions
    · rw [if_pos h]
      cases stack with
      | nil => rw [step_if_nil h, Option.bind_none, eval, Option.map_none]
      | cons top stack =>
        rw [step_if_cons h, Option.bind_some, run_append, iha, eval]
        cases truthy top with
        | true =>
          -- the first branch is run, the second passed over
          cases a.eval tx stack with
          | none => simp [h]
          | some stack => simp [run_cons, run_append, ihb, ih, h]
        | false =>
          cases hb : b.eval tx stack with
          | none => simp [run_cons, run_append, ihb, h, hb]
          | some stack => simp [run_cons, run_append, ihb, ih, h, hb]
    · rw [step_if_of_not h, Option.bind_some, run_append, iha]
      simp [run_cons, run_append, ihb, ih, h]

/-- The whole script, on a witness stack. -/
lemma run_eq (p : Program) : run tx p.items ⟨stack, []⟩
    = (p.eval tx stack).map fun stack => ⟨stack, []⟩ := by
  rw [run_items, if_pos active_nil]

end Program

/-- A script that parses into a program is accepted where the program leaves one true element. -/
lemma accepts_iff {tx : Spend} {stack : List (List UInt8)} {script : List UInt8} {p : Program}
    (h : parse script = some p.items) :
    Accepts tx script stack ↔ (∀ element ∈ stack, element.length ≤ maxElementSize) ∧
      ∃ top, p.eval tx stack = some [top] ∧ truthy top = true := by
  simp only [Accepts, h, Option.some.injEq]
  constructor
  · rintro ⟨hsize, _, top, rfl, hrun, htop⟩
    rw [p.run_eq, Option.map_eq_some_iff] at hrun
    obtain ⟨_, heval, hstate⟩ := hrun
    cases hstate
    exact ⟨hsize, top, heval, htop⟩
  · rintro ⟨hsize, top, heval, htop⟩
    exact ⟨hsize, _, top, rfl, by rw [p.run_eq, heval]; rfl, htop⟩

end Script
