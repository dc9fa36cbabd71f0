import Mathlib.Tactic.Common

/-!
# Base64

`encode` writes every three bytes as four digits and pads the last group. `decode` is the forgiving
decoder of browsers: it drops white space and at most two signs of padding, and fails on what is
left if it has another character or a length no encoding has.
-/

namespace Base64

/-! ### Digits -/

def alphabet : List Char :=
  "ABCDEFGHIJKLMNOPQRSTUVWXYZabcdefghijklmnopqrstuvwxyz0123456789+/".toList

def digit (n : ℕ) : Char := alphabet.getD n 'A'

/-- The number of a digit. -/
def value? (c : Char) : Option ℕ :=
  if c ∈ alphabet then some (alphabet.idxOf c) else none

/-- White space of ASCII. -/
def isSpace (c : Char) : Bool := c ∈ [' ', '\t', '\n', Char.ofNat 12, '\r']

lemma digits_spec : ∀ n < 64, value? (digit n) = some n ∧ digit n ≠ '=' ∧
    isSpace (digit n) = false := by
  decide

/-! ### Bytes and sextets -/

/-- The sextets of a byte string; the last one is filled up with zeros. -/
def sextets : List UInt8 → List ℕ
  | a :: b :: c :: bs =>
    [a.toNat / 4, a.toNat % 4 * 16 + b.toNat / 16, b.toNat % 16 * 4 + c.toNat / 64, c.toNat % 64]
      ++ sextets bs
  | [a, b] => [a.toNat / 4, a.toNat % 4 * 16 + b.toNat / 16, b.toNat % 16 * 4]
  | [a] => [a.toNat / 4, a.toNat % 4 * 16]
  | [] => []

/-- The bytes of a string of sextets; what does not fill a byte is dropped. -/
def ofSextets : List ℕ → List UInt8
  | a :: b :: c :: d :: ns =>
    [UInt8.ofNat (a * 4 + b / 16), UInt8.ofNat (b % 16 * 16 + c / 4), UInt8.ofNat (c % 4 * 64 + d)]
      ++ ofSextets ns
  | [a, b, c] => [UInt8.ofNat (a * 4 + b / 16), UInt8.ofNat (b % 16 * 16 + c / 4)]
  | [a, b] => [UInt8.ofNat (a * 4 + b / 16)]
  | _ => []

/-! ### Texts -/

def padding (bs : List UInt8) : List Char := List.replicate ((3 - bs.length % 3) % 3) '='

def encode (bs : List UInt8) : List Char := (sextets bs).map digit ++ padding bs

/-- A text of whole groups loses the padding of the last. -/
def unpad (cs : List Char) : List Char :=
  if cs.length % 4 = 0 then
    match cs.reverse with
    | '=' :: '=' :: rest => rest.reverse
    | '=' :: rest => rest.reverse
    | _ => cs
  else cs

def decode (cs : List Char) : Option (List UInt8) := do
  let cs := unpad (cs.filter fun c => !isSpace c)
  if cs.length % 4 = 1 then none
  else return ofSextets (← cs.mapM value?)

/-! ### Decoding what was encoded -/

lemma ofNat_eq (a : UInt8) {n : ℕ} (h : n = a.toNat) : UInt8.ofNat n = a := by
  rw [h, UInt8.ofNat_toNat]

/-- The bytes come back. -/
lemma ofSextets_sextets (bs : List UInt8) : ofSextets (sextets bs) = bs := by
  induction bs using sextets.induct with
  | case1 a b c bs ih =>
    have ha := a.toNat_lt
    have hb := b.toNat_lt
    have hc := c.toNat_lt
    simp only [sextets, List.cons_append, List.nil_append, ofSextets, ih]
    rw [ofNat_eq a (by omega), ofNat_eq b (by omega), ofNat_eq c (by omega)]
  | case2 a b =>
    have ha := a.toNat_lt
    have hb := b.toNat_lt
    simp only [sextets, ofSextets]
    rw [ofNat_eq a (by omega), ofNat_eq b (by omega)]
  | case3 a =>
    have ha := a.toNat_lt
    simp only [sextets, ofSextets]
    rw [ofNat_eq a (by omega)]
  | case4 => rfl

lemma sextets_lt (bs : List UInt8) : ∀ n ∈ sextets bs, n < 64 := by
  induction bs using sextets.induct with
  | case1 a b c bs ih =>
    have ha := a.toNat_lt
    have hb := b.toNat_lt
    have hc := c.toNat_lt
    simp only [sextets, List.cons_append, List.nil_append, List.forall_mem_cons]
    exact ⟨by omega, by omega, by omega, by omega, ih⟩
  | case2 a b =>
    have ha := a.toNat_lt
    have hb := b.toNat_lt
    simp only [sextets, List.forall_mem_cons, List.not_mem_nil, false_imp_iff, implies_true,
      and_true]
    exact ⟨by omega, by omega, by omega⟩
  | case3 a =>
    have ha := a.toNat_lt
    simp only [sextets, List.forall_mem_cons, List.not_mem_nil, false_imp_iff, implies_true,
      and_true]
    exact ⟨by omega, by omega⟩
  | case4 => simp [sextets]

/-- Every group but the last has four sextets; a rest of one byte has two, one of two bytes
three. -/
lemma length_sextets (bs : List UInt8) :
    (sextets bs).length % 4 = if bs.length % 3 = 0 then 0 else bs.length % 3 + 1 := by
  induction bs using sextets.induct with
  | case1 a b c bs ih =>
    have hlen : (sextets (a :: b :: c :: bs)).length = (sextets bs).length + 4 := by
      simp [sextets]
    have hthree : (a :: b :: c :: bs).length = bs.length + 3 := rfl
    rw [hlen, hthree, Nat.add_mod_right, Nat.add_mod_right, ih]
  | case2 a b => simp [sextets]
  | case3 a => simp [sextets]
  | case4 => simp [sextets]

/-- No digit is taken for padding. -/
lemma unpad_append {cs : List Char} (bs : List UInt8) (hcs : cs.getLast? ≠ some '=')
    (hlen : cs.length % 4 = if bs.length % 3 = 0 then 0 else bs.length % 3 + 1) :
    unpad (cs ++ padding bs) = cs := by
  have hlast : ∀ rest, cs.reverse ≠ '=' :: rest := by
    intro rest hrev
    rw [List.reverse_eq_cons_iff] at hrev
    simp [hrev] at hcs
  have hcases : bs.length % 3 = 0 ∨ bs.length % 3 = 1 ∨ bs.length % 3 = 2 := by omega
  rcases hcases with h | h | h
  · have hpad : padding bs = [] := by simp [padding, h]
    rw [hpad, List.append_nil, unpad]
    split_ifs
    · split
      · exact absurd ‹_› (hlast _)
      · exact absurd ‹_› (hlast _)
      · rfl
    · rfl
  · have hpad : padding bs = ['=', '='] := by simp [padding, h]
    have hwhole : (cs ++ ['=', '=']).length % 4 = 0 := by
      rw [h, if_neg (by decide)] at hlen
      simp only [List.length_append, List.length_cons, List.length_nil]
      omega
    rw [hpad, unpad, if_pos hwhole, List.reverse_append]
    exact List.reverse_reverse cs
  · have hpad : padding bs = ['='] := by simp [padding, h]
    have hwhole : (cs ++ ['=']).length % 4 = 0 := by
      rw [h, if_neg (by decide)] at hlen
      simp only [List.length_append, List.length_cons, List.length_nil]
      omega
    rw [hpad, unpad, if_pos hwhole, List.reverse_append]
    show (match '=' :: cs.reverse with
      | '=' :: '=' :: rest => rest.reverse
      | '=' :: rest => rest.reverse
      | _ => cs ++ ['=']) = cs
    split
    · rename_i rest hrev
      exact absurd (List.cons.inj hrev).2 (hlast _)
    · rename_i rest hrev
      rw [← (List.cons.inj hrev).2, List.reverse_reverse]
    · rename_i hne
      exact absurd rfl (hne _)

lemma mapM_value (ns : List ℕ) (h : ∀ n ∈ ns, n < 64) : (ns.map digit).mapM value? = some ns := by
  induction ns with
  | nil => rfl
  | cons n ns ih =>
    rw [List.forall_mem_cons] at h
    rw [List.map_cons, List.mapM_cons, (digits_spec n h.1).1, ih h.2]
    rfl

/-- What was encoded is decoded. -/
theorem decode_encode (bs : List UInt8) : decode (encode bs) = some bs := by
  have hdigit : ∀ c ∈ (sextets bs).map digit, c ≠ '=' ∧ isSpace c = false := by
    intro c hc
    obtain ⟨n, hn, rfl⟩ := List.mem_map.mp hc
    exact (digits_spec n (sextets_lt bs n hn)).2
  have hfilter : (encode bs).filter (fun c => !isSpace c) = encode bs := by
    rw [List.filter_eq_self]
    intro c hc
    rcases List.mem_append.mp hc with hc | hc
    · simp [(hdigit c hc).2]
    · rw [List.eq_of_mem_replicate hc]
      decide
  have hunpad : unpad (encode bs) = (sextets bs).map digit := by
    refine unpad_append bs ?_ (by rw [List.length_map, length_sextets])
    intro hlast
    exact (hdigit _ (List.mem_of_getLast? hlast)).1 rfl
  have hlen := length_sextets bs
  rw [decode, hfilter, hunpad, List.length_map, if_neg (by split_ifs at hlen <;> omega),
    mapM_value _ (sextets_lt bs)]
  show some (ofSextets (sextets bs)) = some bs
  rw [ofSextets_sextets]

end Base64
