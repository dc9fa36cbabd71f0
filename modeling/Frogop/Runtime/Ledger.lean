import Frogop.Runtime.Basic

/-!
# OP20 ledgers

The balances and allowances of all tokens. `transferFrom` moves exactly the amount asked for or
fails: for lack of allowance or balance, or because the token refuses the transfer for reasons of
its own. A spender needs no allowance to move its own tokens.
-/

namespace Frogop

structure Ledger where
  /-- token, owner -/
  balanceOf : Address → Address → ℕ
  /-- token, owner, spender -/
  allowance : Address → Address → Address → ℕ
  /-- token, source, destination -/
  refuses : Address → Address → Address → Bool

namespace Ledger

/-- Use up `amount` of what `owner` allows `spender`. -/
def spendAllowance (l : Ledger) (token owner spender : Address) (amount : ℕ) : Ledger :=
  { l with
    allowance := fun t o s =>
      if t = token ∧ o = owner ∧ s = spender then l.allowance t o s - amount
      else l.allowance t o s }

/-- Debit `src`, then credit `dst`. -/
def move (l : Ledger) (token src dst : Address) (amount : ℕ) : Ledger :=
  let debited := fun t a =>
    if t = token ∧ a = src then l.balanceOf t a - amount else l.balanceOf t a
  { l with
    balanceOf := fun t a =>
      if t = token ∧ a = dst then debited t a + amount else debited t a }

/-- `transferFrom(src, dst, amount)` of `token`, called by `spender`. -/
def transferFrom (l : Ledger) (token spender src dst : Address) (amount : ℕ) :
    Except TokenError Ledger :=
  if l.refuses token src dst then .error .refused
  else if src ≠ spender ∧ l.allowance token src spender < amount then
    .error .insufficientAllowance
  else if l.balanceOf token src < amount then .error .insufficientBalance
  else if src = spender then .ok (l.move token src dst amount)
  else .ok ((l.spendAllowance token src spender amount).move token src dst amount)

variable {l l' : Ledger} {token spender src dst a t : Address} {amount : ℕ}

/-- A transfer that went through had the balance it moved, and moved it. -/
lemma transferFrom_ok (h : l.transferFrom token spender src dst amount = .ok l') :
    amount ≤ l.balanceOf token src ∧
      l'.balanceOf = (l.move token src dst amount).balanceOf ∧ l'.refuses = l.refuses := by
  rw [transferFrom] at h
  split_ifs at h with hrefuse hallow hbal hself
  · cases h
    exact ⟨not_lt.mp hbal, rfl, rfl⟩
  · cases h
    exact ⟨not_lt.mp hbal, rfl, rfl⟩

/-- A spender moving its own tokens can only lack balance. -/
lemma transferFrom_self_error {e : TokenError}
    (h : l.transferFrom token spender spender dst amount = .error e) :
    e = .refused ∨ e = .insufficientBalance ∧ l.balanceOf token spender < amount := by
  rw [transferFrom] at h
  split_ifs at h with hrefuse hallow hbal
  · cases h
    exact .inl rfl
  · exact absurd rfl hallow.1
  · cases h
    exact .inr ⟨rfl, hbal⟩

/-- With balance, allowance and a willing token a transfer goes through. -/
lemma transferFrom_succeeds (hrefuse : l.refuses token src dst = false)
    (hallow : src = spender ∨ amount ≤ l.allowance token src spender)
    (hbal : amount ≤ l.balanceOf token src) :
    ∃ l', l.transferFrom token spender src dst amount = .ok l' := by
  have hspend : ¬ (src ≠ spender ∧ l.allowance token src spender < amount) := by
    rintro ⟨hne, hlt⟩
    exact hallow.elim hne (not_le.mpr hlt)
  rw [transferFrom]
  rw [if_neg (by simp [hrefuse]), if_neg hspend, if_neg (not_lt.mpr hbal)]
  split_ifs <;> exact ⟨_, rfl⟩

/-- A transfer uses up no more of an allowance than it moves. -/
lemma allowance_le_transferFrom (h : l.transferFrom token spender src dst amount = .ok l')
    (t o s : Address) : l.allowance t o s ≤ l'.allowance t o s + amount := by
  rw [transferFrom] at h
  split_ifs at h with hrefuse hallow hbal hself
  · cases h
    exact Nat.le_add_right _ _
  · cases h
    simp only [move, spendAllowance]
    split_ifs <;> omega

/-! ### What one account sees of a transfer -/

/-- An account on neither side sees nothing. -/
lemma balanceOf_move_other (hs : a ≠ src) (hd : a ≠ dst) :
    (l.move token src dst amount).balanceOf t a = l.balanceOf t a := by
  simp [move, hs, hd]

/-- The receiving account gains the amount. -/
lemma balanceOf_move_dst (hne : a ≠ src) :
    (l.move token src a amount).balanceOf t a
      = l.balanceOf t a + if t = token then amount else 0 := by
  by_cases ht : t = token <;> simp [move, hne, ht]

/-- The paying account loses the amount. -/
lemma balanceOf_move_src (hne : a ≠ dst) (hbal : amount ≤ l.balanceOf token a) :
    (l.move token a dst amount).balanceOf t a + (if t = token then amount else 0)
      = l.balanceOf t a := by
  by_cases ht : t = token
  · subst ht
    simp [move, hne, hbal]
  · simp [move, ht]

/-- Paying oneself changes nothing. -/
lemma balanceOf_move_self (hbal : amount ≤ l.balanceOf token a) :
    (l.move token a a amount).balanceOf t a = l.balanceOf t a := by
  by_cases ht : t = token
  · subst ht
    simp [move, hbal]
  · simp [move, ht]

/-- Whoever is paid, the payer loses at most the amount. -/
lemma balanceOf_le_move_src (hbal : amount ≤ l.balanceOf token a) :
    l.balanceOf t a ≤
      (l.move token a dst amount).balanceOf t a + if t = token then amount else 0 := by
  by_cases hdst : a = dst
  · subst hdst
    rw [balanceOf_move_self hbal]
    omega
  · rw [balanceOf_move_src hdst hbal]

/-! ### Double entry -/

/-- An entry of `amount` in the books of account `a` for `token`. -/
def entry (token a : Address) (amount : ℕ) (t b : Address) : ℕ :=
  if t = token ∧ b = a then amount else 0

@[simp] lemma entry_self : entry token a amount token a = amount := if_pos ⟨rfl, rfl⟩

lemma entry_of_ne {b : Address} (h : b ≠ a) : entry token a amount t b = 0 :=
  if_neg fun hb => h hb.2

lemma entry_zero (token a t b : Address) : entry token a 0 t b = 0 := ite_self 0

lemma entry_add (token a t b : Address) (m n : ℕ) :
    entry token a (m + n) t b = entry token a m t b + entry token a n t b := by
  unfold entry
  split_ifs <;> rfl

/-- A transfer debits the payer and credits the payee, and touches no other balance. -/
lemma transferFrom_entries (h : l.transferFrom token spender src dst amount = .ok l')
    (t a : Address) :
    l'.balanceOf t a + entry token src amount t a
      = l.balanceOf t a + entry token dst amount t a := by
  obtain ⟨hbal, hmove, -⟩ := transferFrom_ok h
  rw [hmove]
  by_cases ht : t = token
  · subst ht
    by_cases hsrc : a = src
    · subst hsrc
      by_cases hdst : a = dst
      · subst hdst
        rw [balanceOf_move_self hbal]
      · rw [entry_self, entry_of_ne hdst, ← balanceOf_move_src hdst hbal, if_pos rfl, Nat.add_zero]
    · rw [entry_of_ne hsrc, Nat.add_zero]
      by_cases hdst : a = dst
      · subst hdst
        rw [entry_self, balanceOf_move_dst hsrc, if_pos rfl]
      · rw [entry_of_ne hdst, balanceOf_move_other hsrc hdst, Nat.add_zero]
  · simp [move, entry, ht]

/-- What a transfer that went through found. -/
lemma transferFrom_needs (h : l.transferFrom token spender src dst amount = .ok l') :
    l.refuses token src dst = false ∧
      (src = spender ∨ amount ≤ l.allowance token src spender) ∧
      amount ≤ l.balanceOf token src := by
  refine ⟨?_, ?_, (transferFrom_ok h).1⟩
  all_goals
    rw [transferFrom] at h
    split_ifs at h with hrefuse hallow hbal hself
  · exact Bool.eq_false_iff.mpr hrefuse
  · exact Bool.eq_false_iff.mpr hrefuse
  · exact .inl hself
  · exact .inr (not_lt.mp fun hlt => hallow ⟨hself, hlt⟩)

/-- A spender moving its own tokens uses no allowance. -/
lemma transferFrom_self_allowance
    (h : l.transferFrom token spender spender dst amount = .ok l') :
    l'.allowance = l.allowance := by
  rw [transferFrom] at h
  rw [if_pos (rfl : spender = spender)] at h
  split_ifs at h
  cases h
  rfl

/-- Two transfers from one account go through when it has enough for both. -/
lemma transferFrom_twice {dst' : Address} {b : ℕ} (hrefuse : l.refuses token src dst = false)
    (hrefuse' : l.refuses token src dst' = false)
    (hallow : src = spender ∨ amount + b ≤ l.allowance token src spender)
    (hbal : amount + b ≤ l.balanceOf token src) :
    ∃ l₁ l₂, l.transferFrom token spender src dst amount = .ok l₁ ∧
      l₁.transferFrom token spender src dst' b = .ok l₂ := by
  obtain ⟨l₁, hl₁⟩ := transferFrom_succeeds hrefuse
    (hallow.imp_right fun h => le_trans (Nat.le_add_right _ _) h)
    (le_trans (Nat.le_add_right _ _) hbal)
  obtain ⟨hle, hmove, hsame⟩ := transferFrom_ok hl₁
  have hleft : l.balanceOf token src ≤ (l.move token src dst amount).balanceOf token src
      + if token = token then amount else 0 := balanceOf_le_move_src hle
  rw [← hmove, if_pos rfl] at hleft
  have hrest := allowance_le_transferFrom hl₁ token src spender
  have hsecond : ∃ l₂, l₁.transferFrom token spender src dst' b = .ok l₂ := by
    apply transferFrom_succeeds
    · rw [hsame]
      exact hrefuse'
    · exact hallow.imp_right fun h => by omega
    · omega
  obtain ⟨l₂, hl₂⟩ := hsecond
  exact ⟨l₁, l₂, hl₁, hl₂⟩

end Ledger

end Frogop
