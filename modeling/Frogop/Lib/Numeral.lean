import Mathlib.Data.List.DropRight
import Mathlib.Data.Rat.Floor
import Mathlib.Tactic.Common

/-!
# Numeric literals

The strings that `Number` and `BigInt` of ECMAScript read, as trees with a text, and a parser that
gives a tree for exactly its text (`parse_eq_some_iff`). A literal denotes a rational number, before
any rounding to a double.
-/

namespace Numeral

variable {cs rest : List Char} {c : Char}

/-! ### White space -/

/-- `WhiteSpace` and `LineTerminator`. -/
def isSpace (c : Char) : Bool :=
  c.toNat ∈ [0x9, 0xa, 0xb, 0xc, 0xd, 0x20, 0xa0, 0x1680, 0x2000, 0x2001, 0x2002, 0x2003, 0x2004,
    0x2005, 0x2006, 0x2007, 0x2008, 0x2009, 0x200a, 0x2028, 0x2029, 0x202f, 0x205f, 0x3000, 0xfeff]

def trim (cs : List Char) : List Char := (cs.dropWhile isSpace).rdropWhile isSpace

lemma trim_of_forall (h : ∀ c ∈ cs, isSpace c = false) : trim cs = cs := by
  have hfirst : cs.dropWhile isSpace = cs := by
    apply List.dropWhile_eq_self_iff.mpr
    intro hpos
    simp [h]
  rw [trim, hfirst]
  apply List.rdropWhile_eq_self_iff.mpr
  intro hne
  simp [h]

lemma trim_trim (cs : List Char) : trim (trim cs) = trim cs := by
  have hfirst : (trim cs).dropWhile isSpace = trim cs := by
    rcases htrim : trim cs with _ | ⟨c, rest⟩
    · rfl
    · have hprefix : c :: rest <+: cs.dropWhile isSpace := by
        rw [← htrim]
        exact List.rdropWhile_prefix _ _
      obtain ⟨tail, htail⟩ := hprefix
      have hhead := List.head?_dropWhile_not isSpace cs
      rw [← htail] at hhead
      simp only [List.cons_append, List.head?_cons] at hhead
      exact List.dropWhile_cons_of_neg (by simp [hhead])
  rw [trim, hfirst, trim, List.rdropWhile_idempotent]

/-! ### Digits -/

/-- Decimal digits, perhaps none. -/
@[ext]
structure Digits where
  chars : List Char
  isDigit : ∀ c ∈ chars, c.isDigit = true
  deriving DecidableEq

namespace Digits

def value (digits : Digits) : ℕ := Nat.ofDigitChars 10 digits.chars 0

/-- The digits that a string starts with. -/
def run (cs : List Char) : Digits where
  chars := cs.takeWhile Char.isDigit
  isDigit := by
    intro c hc
    exact List.mem_takeWhile_imp hc

/-- The number with these digits behind the point and nothing in front of it. -/
def fractional (digits : Digits) : ℚ := digits.value / 10 ^ digits.chars.length

@[simp] lemma chars_run (cs : List Char) : (run cs).chars = cs.takeWhile Char.isDigit := rfl

end Digits

/-! ### Literals -/

inductive Sign
  | none
  | plus
  | minus
  deriving DecidableEq

namespace Sign

def text : Sign → List Char
  | none => []
  | plus => ['+']
  | minus => ['-']

def unit : Sign → ℤ
  | minus => -1
  | _ => 1

end Sign

structure Exponent where
  letter : Char
  sign : Sign
  digits : Digits
  isLetter : letter = 'e' ∨ letter = 'E'
  nonempty : digits.chars ≠ []
  deriving DecidableEq

namespace Exponent

/-- No exponent has no text. -/
def text : Option Exponent → List Char
  | none => []
  | some e => e.letter :: (e.sign.text ++ e.digits.chars)

/-- No exponent stands for zero. -/
def value : Option Exponent → ℤ
  | none => 0
  | some e => e.sign.unit * e.digits.value

end Exponent

/-- The digits in front of the point and behind it. A point with no digits behind it is not the same
as no point. -/
structure Decimal where
  sign : Sign
  whole : Digits
  fraction : Option Digits
  exponent : Option Exponent
  nonempty : whole.chars ≠ [] ∨ ∃ digits ∈ fraction, digits.chars ≠ []
  deriving DecidableEq

/-- The base that a letter behind the first `0` stands for. -/
def base? (c : Char) : Option ℕ :=
  if c = 'b' ∨ c = 'B' then some 2
  else if c = 'o' ∨ c = 'O' then some 8
  else if c = 'x' ∨ c = 'X' then some 16
  else none

/-- The value of a digit of any base; other characters are no digits of a base up to `36`. -/
def digitValue (c : Char) : ℕ :=
  if '0' ≤ c ∧ c ≤ '9' then c.toNat - '0'.toNat
  else if 'a' ≤ c ∧ c ≤ 'z' then c.toNat - 'a'.toNat + 10
  else if 'A' ≤ c ∧ c ≤ 'Z' then c.toNat - 'A'.toNat + 10
  else 36

structure NonDecimal where
  letter : Char
  base : ℕ
  chars : List Char
  isBase : base? letter = some base
  isDigit : ∀ c ∈ chars, digitValue c < base
  nonempty : chars ≠ []
  deriving DecidableEq

def NonDecimal.value (n : NonDecimal) : ℕ :=
  n.chars.foldl (fun value c => n.base * value + digitValue c) 0

lemma NonDecimal.base_le (n : NonDecimal) : n.base ≤ 16 := by
  have hbase := n.isBase
  unfold base? at hbase
  split_ifs at hbase
  · rw [← Option.some.inj hbase]
    decide
  · rw [← Option.some.inj hbase]
    decide
  · rw [← Option.some.inj hbase]

inductive Literal
  | infinity (sign : Sign)
  | decimal (d : Decimal)
  | nonDecimal (n : NonDecimal)
  deriving DecidableEq

namespace Decimal

def fractionText : Option Digits → List Char
  | none => []
  | some digits => '.' :: digits.chars

/-- A decimal literal without its sign. -/
def unsigned (d : Decimal) : List Char :=
  d.whole.chars ++ (fractionText d.fraction ++ Exponent.text d.exponent)

def text (d : Decimal) : List Char := d.sign.text ++ d.unsigned

/-- The digits behind the point; there are none where there is no point. -/
def places (d : Decimal) : Digits := d.fraction.getD ⟨[], by simp⟩

def value (d : Decimal) : ℚ :=
  d.sign.unit * (d.whole.value + d.places.fractional) * 10 ^ Exponent.value d.exponent

end Decimal

def Literal.text : Literal → List Char
  | .infinity sign => sign.text ++ "Infinity".toList
  | .decimal d => d.text
  | .nonDecimal n => '0' :: n.letter :: n.chars

/-- The rational number that a literal denotes; there is none for the infinities. -/
def Literal.value? : Literal → Option ℚ
  | .infinity _ => none
  | .decimal d => some d.value
  | .nonDecimal n => some n.value

/-- The number that a string denotes: the empty string denotes zero. -/
def Denotes (cs : List Char) (x : ℚ) : Prop :=
  trim cs = [] ∧ x = 0 ∨ ∃ literal : Literal, literal.text = trim cs ∧ literal.value? = some x

/-! ### The parser -/

def parseSign : List Char → Sign × List Char
  | '+' :: cs => (.plus, cs)
  | '-' :: cs => (.minus, cs)
  | cs => (.none, cs)

def parseFraction : List Char → Option Digits × List Char
  | '.' :: cs => (some (.run cs), cs.dropWhile Char.isDigit)
  | cs => (none, cs)

/-- All that is left has to be the exponent. -/
def parseExponent : List Char → Option (Option Exponent)
  | [] => some none
  | letter :: cs =>
    let sign := (parseSign cs).1
    let chars := (parseSign cs).2
    if h : (letter = 'e' ∨ letter = 'E') ∧ chars.all Char.isDigit = true ∧ chars ≠ [] then
      some (some ⟨letter, sign, ⟨chars, List.all_eq_true.mp h.2.1⟩, h.1, h.2.2⟩)
    else none

/-- An unsigned decimal literal, to be given the sign in front of it. -/
def parseUnsigned (sign : Sign) (cs : List Char) : Option Literal :=
  let whole := Digits.run cs
  let fraction := (parseFraction (cs.dropWhile Char.isDigit)).1
  if h : whole.chars ≠ [] ∨ ∃ digits ∈ fraction, digits.chars ≠ [] then
    (parseExponent (parseFraction (cs.dropWhile Char.isDigit)).2).map fun exponent =>
      .decimal ⟨sign, whole, fraction, exponent, h⟩
  else none

def parseDecimal (cs : List Char) : Option Literal :=
  let (sign, cs) := parseSign cs
  if cs = "Infinity".toList then some (.infinity sign) else parseUnsigned sign cs

def parseNonDecimal : List Char → Option Literal
  | '0' :: letter :: chars =>
    match hbase : base? letter with
    | none => none
    | some base =>
      if h : chars.all (digitValue · < base) = true ∧ chars ≠ [] then
        some (.nonDecimal ⟨letter, base, chars, hbase,
          fun c hc => of_decide_eq_true (List.all_eq_true.mp h.1 c hc), h.2⟩)
      else none
  | _ => none

def parse (cs : List Char) : Option Literal := (parseNonDecimal cs).or (parseDecimal cs)

/-- `isNaN(Number(cs))`, where the empty string is zero. -/
def isNaN (cs : List Char) : Bool := trim cs ≠ [] && (parse (trim cs)).isNone

/-- `BigInt(cs)`: a whole number without an exponent, which may have a sign only if it is decimal.
`none` where it throws. -/
def bigInt (cs : List Char) : Option ℤ :=
  if trim cs = [] then some 0
  else
    match parse (trim cs) with
    | some (.decimal ⟨sign, whole, none, none, _⟩) => some (sign.unit * whole.value)
    | some (.nonDecimal n) => some n.value
    | _ => none

/-! ### The parser reads texts -/

lemma text_parseSign (cs : List Char) : (parseSign cs).1.text ++ (parseSign cs).2 = cs := by
  unfold parseSign
  split
  · rfl
  · rfl
  · rfl

/-- Behind a sign there is no second one. -/
lemma parseSign_append (sign : Sign) (h : ∀ c ∈ cs.head?, c ≠ '+' ∧ c ≠ '-') :
    parseSign (sign.text ++ cs) = (sign, cs) := by
  cases sign with
  | plus => rfl
  | minus => rfl
  | none =>
    rcases cs with _ | ⟨c, cs⟩
    · rfl
    · obtain ⟨hplus, hminus⟩ := h c rfl
      simp [Sign.text, parseSign, hplus, hminus]

lemma run_append (digits : Digits) (h : ∀ c ∈ rest.head?, c.isDigit = false) :
    Digits.run (digits.chars ++ rest) = digits := by
  have hrest : rest.takeWhile Char.isDigit = [] := by
    rcases rest with _ | ⟨c, rest⟩
    · rfl
    · simp [h c rfl]
  apply Digits.ext
  rw [Digits.chars_run, List.takeWhile_append_of_pos digits.isDigit, hrest, List.append_nil]

lemma dropWhile_append (digits : Digits) (h : ∀ c ∈ rest.head?, c.isDigit = false) :
    (digits.chars ++ rest).dropWhile Char.isDigit = rest := by
  rw [List.dropWhile_append_of_pos digits.isDigit]
  rcases rest with _ | ⟨c, rest⟩
  · rfl
  · simp [h c rfl]

lemma text_parseFraction (cs : List Char) :
    Decimal.fractionText (parseFraction cs).1 ++ (parseFraction cs).2 = cs := by
  unfold parseFraction
  split
  · simp [Decimal.fractionText]
  · rfl

lemma parseFraction_append (fraction : Option Digits)
    (h : ∀ c ∈ rest.head?, c ≠ '.' ∧ c.isDigit = false) :
    parseFraction (Decimal.fractionText fraction ++ rest) = (fraction, rest) := by
  have hdigit : ∀ c ∈ rest.head?, c.isDigit = false := fun c hc => (h c hc).2
  cases fraction with
  | none =>
    rcases rest with _ | ⟨c, rest⟩
    · rfl
    · simp [Decimal.fractionText, parseFraction, (h c rfl).1]
  | some digits =>
    rw [Decimal.fractionText, List.cons_append, parseFraction, run_append digits hdigit,
      dropWhile_append digits hdigit]

lemma isDigit_ne_sign (h : c.isDigit = true) : c ≠ '+' ∧ c ≠ '-' := by
  constructor
  · rintro rfl
    cases h
  · rintro rfl
    cases h

lemma parseSign_digits (sign : Sign) (digits : Digits) :
    parseSign (sign.text ++ digits.chars) = (sign, digits.chars) := by
  apply parseSign_append
  intro c hc
  exact isDigit_ne_sign (digits.isDigit c (List.mem_of_mem_head? hc))

lemma parseExponent_eq_some_iff {e : Option Exponent} :
    parseExponent cs = some e ↔ Exponent.text e = cs := by
  constructor
  · intro h
    rcases cs with _ | ⟨letter, cs⟩
    · cases h
      rfl
    · rw [parseExponent] at h
      split_ifs at h
      cases h
      rw [Exponent.text, text_parseSign]
  · rintro rfl
    cases e with
    | none => rfl
    | some e =>
      have hsign := parseSign_digits e.sign e.digits
      simp only [Exponent.text, parseExponent, hsign]
      exact dif_pos ⟨e.isLetter, List.all_eq_true.mpr e.digits.isDigit, e.nonempty⟩

lemma text_of_parseUnsigned {sign : Sign} {literal : Literal}
    (h : parseUnsigned sign cs = some literal) : literal.text = sign.text ++ cs := by
  rw [parseUnsigned] at h
  split_ifs at h
  obtain ⟨exponent, hexponent, rfl⟩ := Option.map_eq_some_iff.mp h
  have htext := parseExponent_eq_some_iff.mp hexponent
  rw [Literal.text, Decimal.text, Decimal.unsigned, htext, text_parseFraction, Digits.chars_run,
    List.takeWhile_append_dropWhile]

lemma text_of_parseDecimal {literal : Literal} (h : parseDecimal cs = some literal) :
    literal.text = cs := by
  have hcs := text_parseSign cs
  rw [parseDecimal] at h
  simp only at h
  split_ifs at h with hinfinity
  · cases h
    rw [Literal.text, ← hinfinity, hcs]
  · rw [text_of_parseUnsigned h, hcs]

lemma text_of_parseNonDecimal {literal : Literal} (h : parseNonDecimal cs = some literal) :
    literal.text = cs := by
  unfold parseNonDecimal at h
  split at h
  · split at h
    · cases h
    · split_ifs at h
      cases h
      rfl
  · cases h

/-! ### Every text is read -/

lemma Exponent.head_text (e : Option Exponent) :
    ∀ c ∈ (Exponent.text e).head?, c ≠ '.' ∧ c.isDigit = false := by
  cases e with
  | none =>
    intro c hc
    cases hc
  | some e =>
    intro c hc
    obtain rfl : e.letter = c := by simpa [Exponent.text] using hc
    rcases e.isLetter with hletter | hletter
    · rw [hletter]
      decide
    · rw [hletter]
      decide

namespace Decimal

variable (d : Decimal)

lemma head_fraction :
    ∀ c ∈ (fractionText d.fraction ++ Exponent.text d.exponent).head?, c.isDigit = false := by
  intro c hc
  cases hfraction : d.fraction with
  | none =>
    rw [hfraction] at hc
    exact (Exponent.head_text d.exponent c hc).2
  | some digits =>
    rw [hfraction] at hc
    obtain rfl : '.' = c := by simpa [fractionText] using hc
    rfl

lemma head_unsigned : ∃ c rest, d.unsigned = c :: rest ∧ (c.isDigit = true ∨ c = '.') := by
  rcases hwhole : d.whole.chars with _ | ⟨c, rest⟩
  · rcases d.nonempty with hne | ⟨digits, hfraction, -⟩
    · exact absurd hwhole hne
    · refine ⟨'.', digits.chars ++ Exponent.text d.exponent, ?_, Or.inr rfl⟩
      rw [unsigned, hwhole, Option.mem_def.mp hfraction]
      rfl
  · refine ⟨c, rest ++ (fractionText d.fraction ++ Exponent.text d.exponent), ?_, Or.inl ?_⟩
    · rw [unsigned, hwhole, List.cons_append]
    · exact d.whole.isDigit c (by simp [hwhole])

lemma parseUnsigned_unsigned : parseUnsigned d.sign d.unsigned = some (.decimal d) := by
  have hexponent : parseExponent (Exponent.text d.exponent) = some d.exponent :=
    parseExponent_eq_some_iff.mpr rfl
  have hrun : Digits.run d.unsigned = d.whole := run_append d.whole d.head_fraction
  have hdrop : d.unsigned.dropWhile Char.isDigit
      = fractionText d.fraction ++ Exponent.text d.exponent :=
    dropWhile_append d.whole d.head_fraction
  have hfraction := parseFraction_append d.fraction (Exponent.head_text d.exponent)
  simp only [parseUnsigned, hrun, hdrop, hfraction, hexponent, Option.map_some]
  exact dif_pos d.nonempty

lemma parseDecimal_text : parseDecimal d.text = some (.decimal d) := by
  obtain ⟨c, rest, hunsigned, hc⟩ := d.head_unsigned
  have hsign : parseSign d.text = (d.sign, d.unsigned) := by
    apply parseSign_append
    rintro c' hc'
    obtain rfl : c = c' := by simpa [hunsigned] using hc'
    rcases hc with hdigit | rfl
    · exact isDigit_ne_sign hdigit
    · decide
  have hinfinity : d.unsigned ≠ "Infinity".toList := by
    intro heq
    rw [hunsigned] at heq
    obtain rfl : c = 'I' := (List.cons.inj heq).1
    revert hc
    decide
  simp only [parseDecimal, hsign]
  rw [if_neg hinfinity, parseUnsigned_unsigned]

end Decimal

/-- The characters of decimal literals. -/
def IsDecimal (c : Char) : Prop := c.isDigit = true ∨ c ∈ ['+', '-', '.', 'e', 'E']

/-- A letter of a base stands in no decimal literal. -/
lemma base?_eq_none (h : IsDecimal c) : base? c = none := by
  unfold IsDecimal at h
  unfold base?
  split_ifs with hb ho hx
  · rcases hb with rfl | rfl <;> revert h <;> decide
  · rcases ho with rfl | rfl <;> revert h <;> decide
  · rcases hx with rfl | rfl <;> revert h <;> decide
  · rfl

lemma isDecimal_of_mem_sign {sign : Sign} (h : c ∈ sign.text) : IsDecimal c := by
  apply Or.inr
  cases sign <;> simp_all [Sign.text]

lemma isDecimal_of_mem_exponent {e : Option Exponent} (h : c ∈ Exponent.text e) : IsDecimal c := by
  cases e with
  | none => cases h
  | some e =>
    rw [Exponent.text, List.mem_cons, List.mem_append] at h
    rcases h with rfl | hsign | hdigit
    · rcases e.isLetter with hletter | hletter <;> simp [IsDecimal, hletter]
    · exact isDecimal_of_mem_sign hsign
    · exact Or.inl (e.digits.isDigit c hdigit)

lemma Decimal.isDecimal_of_mem (d : Decimal) (h : c ∈ d.text) : IsDecimal c := by
  rw [Decimal.text, Decimal.unsigned, List.mem_append, List.mem_append, List.mem_append] at h
  rcases h with hsign | hwhole | hfraction | hexponent
  · exact isDecimal_of_mem_sign hsign
  · exact Or.inl (d.whole.isDigit c hwhole)
  · cases hd : d.fraction with
    | none =>
      rw [hd] at hfraction
      cases hfraction
    | some digits =>
      rw [hd, Decimal.fractionText, List.mem_cons] at hfraction
      rcases hfraction with rfl | hdigit
      · exact Or.inr (by decide)
      · exact Or.inl (digits.isDigit c hdigit)
  · exact isDecimal_of_mem_exponent hexponent

lemma parseNonDecimal_eq_none (h : ∀ c ∈ cs, base? c = none) : parseNonDecimal cs = none := by
  unfold parseNonDecimal
  split
  · rename_i letter chars
    split
    · rfl
    · rename_i base hbase
      rw [h letter (by simp)] at hbase
      cases hbase
  · rfl

lemma parseNonDecimal_text (n : NonDecimal) :
    parseNonDecimal (Literal.nonDecimal n).text = some (.nonDecimal n) := by
  obtain ⟨letter, base, chars, hbase, hdigit, hne⟩ := n
  simp only [Literal.text, parseNonDecimal]
  split
  · rename_i hnone
    rw [hbase] at hnone
    cases hnone
  · rename_i base' hbase'
    obtain rfl : base' = base := Option.some.inj (hbase'.symm.trans hbase)
    have hall : chars.all (digitValue · < base') = true :=
      List.all_eq_true.mpr fun c hc => decide_eq_true (hdigit c hc)
    exact dif_pos ⟨hall, hne⟩

/-- The parser reads exactly the texts of the literals, each as the literal it is the text of. -/
theorem parse_eq_some_iff {literal : Literal} : parse cs = some literal ↔ literal.text = cs := by
  constructor
  · intro h
    rw [parse, Option.or_eq_some_iff] at h
    rcases h with hnondecimal | ⟨-, hdecimal⟩
    · exact text_of_parseNonDecimal hnondecimal
    · exact text_of_parseDecimal hdecimal
  · rintro rfl
    cases literal with
    | infinity sign => cases sign <;> rfl
    | decimal d =>
      have hnone : parseNonDecimal d.text = none :=
        parseNonDecimal_eq_none fun c hc => base?_eq_none (d.isDecimal_of_mem hc)
      rw [parse, Literal.text, hnone, Option.none_or, d.parseDecimal_text]
    | nonDecimal n => rw [parse, parseNonDecimal_text, Option.some_or]

/-- A string denotes one number at most. -/
lemma Denotes.unique {x y : ℚ} (hx : Denotes cs x) (hy : Denotes cs y) : x = y := by
  rcases hx with ⟨hnil, rfl⟩ | ⟨literal, htext, hvalue⟩
  · rcases hy with ⟨-, rfl⟩ | ⟨literal, htext, -⟩
    · rfl
    · rw [hnil, ← parse_eq_some_iff] at htext
      cases htext
  · rcases hy with ⟨hnil, -⟩ | ⟨literal', htext', hvalue'⟩
    · rw [hnil, ← parse_eq_some_iff] at htext
      cases htext
    · rw [← parse_eq_some_iff] at htext htext'
      cases htext.symm.trans htext'
      exact Option.some.inj (hvalue.symm.trans hvalue')

/-! ### Whole numbers -/

lemma toNat_of_isDigit (h : c.isDigit = true) : 48 ≤ c.toNat ∧ c.toNat ≤ 57 :=
  Char.isDigit_iff_toNat.mp h

lemma isSpace_of_isDecimal (h : IsDecimal c) : isSpace c = false := by
  rcases h with hdigit | hmem
  · have hrange := toNat_of_isDigit hdigit
    simp only [isSpace, decide_eq_false_iff_not, List.mem_cons, List.not_mem_nil, or_false]
    omega
  · revert hmem
    simp only [List.mem_cons, List.not_mem_nil, or_false]
    rintro (rfl | rfl | rfl | rfl | rfl) <;> decide

lemma trim_of_isDecimal (h : ∀ c ∈ cs, IsDecimal c) : trim cs = cs :=
  trim_of_forall fun c hc => isSpace_of_isDecimal (h c hc)

lemma bigInt_integer (sign : Sign) {digits : Digits} (h : digits.chars ≠ []) :
    bigInt (sign.text ++ digits.chars) = some (sign.unit * digits.value) := by
  have htext : (Literal.decimal ⟨sign, digits, none, none, Or.inl h⟩).text
      = sign.text ++ digits.chars := by
    simp [Literal.text, Decimal.text, Decimal.unsigned, Decimal.fractionText, Exponent.text]
  have htrim : trim (sign.text ++ digits.chars) = sign.text ++ digits.chars := by
    apply trim_of_isDecimal
    intro c hc
    rw [← htext] at hc
    exact Decimal.isDecimal_of_mem _ hc
  have hne : sign.text ++ digits.chars ≠ [] := by simp [h]
  rw [bigInt, htrim, if_neg hne, parse_eq_some_iff.mpr htext]

/-- A sign alone is no number. -/
lemma bigInt_sign (sign : Sign) : bigInt sign.text = if sign = .none then some 0 else none := by
  cases sign <;> rfl

/-- No whole number is written with an exponent. -/
lemma bigInt_eq_none (h : ∀ c ∈ cs, IsDecimal c) (hletter : 'e' ∈ cs ∨ 'E' ∈ cs) :
    bigInt cs = none := by
  have hne : cs ≠ [] := by
    rintro rfl
    simp at hletter
  rw [bigInt, trim_of_isDecimal h, if_neg hne]
  split
  · rename_i sign whole hwhole hparse
    rw [parse_eq_some_iff] at hparse
    have hmem : ∀ c ∈ cs, c ∈ sign.text ∨ c.isDigit = true := by
      intro c hc
      rw [← hparse] at hc
      simp only [Literal.text, Decimal.text, Decimal.unsigned, Decimal.fractionText, Exponent.text,
        List.append_nil, List.mem_append] at hc
      exact hc.imp_right (whole.isDigit c)
    rcases hletter with he | he
    · exact absurd (hmem _ he) (by cases sign <;> decide)
    · exact absurd (hmem _ he) (by cases sign <;> decide)
  · rename_i n hparse
    rw [parse_eq_some_iff] at hparse
    have hmem : n.letter ∈ cs := by simp [← hparse, Literal.text]
    have hbase := n.isBase
    rw [base?_eq_none (h _ hmem)] at hbase
    cases hbase
  · rfl

/-! ### Values of digits -/

namespace Digits

variable (digits : Digits)

lemma ofDigitChars_append (cs ds : List Char) : Nat.ofDigitChars 10 (cs ++ ds) 0
    = 10 ^ ds.length * Nat.ofDigitChars 10 cs 0 + Nat.ofDigitChars 10 ds 0 := by
  rw [Nat.ofDigitChars_append, Nat.ofDigitChars_eq_ofDigitChars_zero]

lemma ofDigitChars_lt (h : ∀ c ∈ cs, c.isDigit = true) (n : ℕ) :
    Nat.ofDigitChars 10 cs n < 10 ^ cs.length * (n + 1) := by
  induction cs generalizing n with
  | nil => simp
  | cons c cs ih =>
    have hrange := toNat_of_isDigit (h c (by simp))
    have hlt := ih (fun c' hc' => h c' (by simp [hc'])) (10 * n + (c.toNat - '0'.toNat))
    have hstep : 10 * n + (c.toNat - '0'.toNat) + 1 ≤ 10 * (n + 1) := by
      change 10 * n + (c.toNat - 48) + 1 ≤ 10 * (n + 1)
      omega
    rw [Nat.ofDigitChars_cons]
    calc Nat.ofDigitChars 10 cs (10 * n + (c.toNat - '0'.toNat))
        < 10 ^ cs.length * (10 * n + (c.toNat - '0'.toNat) + 1) := hlt
      _ ≤ 10 ^ cs.length * (10 * (n + 1)) := Nat.mul_le_mul_left _ hstep
      _ = 10 ^ (c :: cs).length * (n + 1) := by rw [List.length_cons, Nat.pow_succ, Nat.mul_assoc]

lemma value_lt : digits.value < 10 ^ digits.chars.length := by
  simpa [value] using ofDigitChars_lt digits.isDigit 0

lemma fractional_nonneg : 0 ≤ digits.fractional := by
  rw [fractional]
  positivity

lemma fractional_lt_one : digits.fractional < 1 := by
  rw [fractional, div_lt_one (by positivity)]
  exact_mod_cast digits.value_lt

/-- The first `n` digits, with zeros for those that are missing. -/
def head (digits : Digits) (n : ℕ) : Digits where
  chars := (digits.chars.take n).rightpad n '0'
  isDigit := by
    intro c hc
    rw [List.rightpad, List.mem_append, List.mem_replicate] at hc
    rcases hc with htake | ⟨-, rfl⟩
    · exact digits.isDigit c (List.mem_of_mem_take htake)
    · rfl

/-- The digits behind the first `n`. -/
def tail (digits : Digits) (n : ℕ) : Digits where
  chars := digits.chars.drop n
  isDigit := fun c hc => digits.isDigit c (List.mem_of_mem_drop hc)

/-- The first `n` digits, without zeros for those that are missing. -/
def take (digits : Digits) (n : ℕ) : Digits where
  chars := digits.chars.take n
  isDigit := fun c hc => digits.isDigit c (List.mem_of_mem_take hc)

lemma value_head_of_length_le {n : ℕ} (h : digits.chars.length ≤ n) :
    (digits.head n).value = 10 ^ (n - digits.chars.length) * digits.value := by
  simp [value, head, List.rightpad, List.take_of_length_le h, ofDigitChars_append]

lemma head_eq_take {n : ℕ} (h : n ≤ digits.chars.length) : digits.head n = digits.take n := by
  apply Digits.ext
  simp [head, take, List.rightpad, h]

/-- The digits in front of a cut and those behind it. -/
lemma value_eq_take_add (n : ℕ) : digits.value
    = 10 ^ (digits.chars.length - n) * (digits.take n).value + (digits.tail n).value := by
  have hlen : (digits.tail n).chars.length = digits.chars.length - n := List.length_drop
  rw [← hlen, value, value, value, ← ofDigitChars_append]
  simp [take, tail]

lemma value_take (n : ℕ) :
    (digits.take n).value = digits.value / 10 ^ (digits.chars.length - n) := by
  have hlen : (digits.tail n).chars.length = digits.chars.length - n := List.length_drop
  have hlt := (digits.tail n).value_lt
  rw [hlen] at hlt
  rw [digits.value_eq_take_add n, Nat.mul_add_div (by positivity), Nat.div_eq_of_lt hlt, add_zero]

/-- Moving the point `n` places. -/
lemma fractional_mul_pow (n : ℕ) :
    digits.fractional * 10 ^ n = (digits.head n).value + (digits.tail n).fractional := by
  rcases le_or_gt digits.chars.length n with hle | hlt
  · have htail : (digits.tail n).fractional = 0 := by
      simp [fractional, value, tail, List.drop_of_length_le hle]
    have hpow : (10 : ℚ) ^ n = 10 ^ (n - digits.chars.length) * 10 ^ digits.chars.length := by
      rw [← pow_add, Nat.sub_add_cancel hle]
    rw [digits.value_head_of_length_le hle, htail, fractional, hpow]
    push_cast
    field_simp
    ring
  · have hlen : (digits.tail n).chars.length = digits.chars.length - n := List.length_drop
    have hpow : (10 : ℚ) ^ digits.chars.length = 10 ^ (digits.chars.length - n) * 10 ^ n := by
      rw [← pow_add, Nat.sub_add_cancel hlt.le]
    rw [digits.head_eq_take hlt.le, fractional, fractional, hlen, hpow,
      digits.value_eq_take_add n]
    push_cast
    field_simp

/-! ### Digits of a number -/

def ofNat (n : ℕ) : Digits where
  chars := Nat.toDigits 10 n
  isDigit := fun _ hc => Nat.isDigit_of_mem_toDigits (by decide) (by decide) hc

lemma value_ofNat (n : ℕ) : (ofNat n).value = n := Nat.ofDigitChars_ten_toDigits

/-- With zeros in front, at least `n` digits. -/
def leftpad (digits : Digits) (n : ℕ) : Digits where
  chars := digits.chars.leftpad n '0'
  isDigit := by
    intro c hc
    rw [List.leftpad, List.mem_append, List.mem_replicate] at hc
    rcases hc with ⟨-, rfl⟩ | hdigit
    · rfl
    · exact digits.isDigit c hdigit

lemma value_leftpad (n : ℕ) : (digits.leftpad n).value = digits.value := by
  simp [value, leftpad, List.leftpad, ofDigitChars_append]

end Digits

/-! ### `parseInt` -/

/-- `parseInt(s, 10)` before any rounding; `none` is `NaN`. It takes the digits that come first and
leaves the rest. -/
def parseInt (cs : List Char) : Option ℤ :=
  let (sign, rest) := parseSign (cs.dropWhile isSpace)
  let digits := Digits.run rest
  if digits.chars = [] then none else some (sign.unit * digits.value)

/-- A number in decimal is read as itself. -/
lemma parseInt_ofNat (n : ℕ) : parseInt (Digits.ofNat n).chars = some (n : ℤ) := by
  have hspace : (Digits.ofNat n).chars.dropWhile isSpace = (Digits.ofNat n).chars := by
    apply List.dropWhile_eq_self_iff.mpr
    intro hpos
    simpa using isSpace_of_isDecimal (.inl ((Digits.ofNat n).isDigit _ (List.getElem_mem hpos)))
  have hrun : Digits.run (Digits.ofNat n).chars = Digits.ofNat n := by
    apply Digits.ext
    rw [Digits.chars_run, List.takeWhile_eq_self_iff]
    exact (Digits.ofNat n).isDigit
  have hne : (Digits.ofNat n).chars ≠ [] := Nat.toDigits_ne_nil
  have hsign := parseSign_digits .none (Digits.ofNat n)
  rw [Sign.text, List.nil_append] at hsign
  simp only [parseInt, hspace, hsign, hrun, if_neg hne, Digits.value_ofNat]
  simp [Sign.unit]

/-! ### Rounding -/

/-- Rounding toward zero. -/
def truncate (x : ℚ) : ℤ := if 0 ≤ x then ⌊x⌋ else ⌈x⌉

lemma truncate_natCast (n : ℕ) : truncate n = n := by
  simp [truncate]

lemma truncate_unit_mul (sign : Sign) {x : ℚ} (h : 0 ≤ x) :
    truncate (sign.unit * x) = sign.unit * ⌊x⌋ := by
  cases sign with
  | minus =>
    rcases h.eq_or_lt with rfl | hpos
    · simp [truncate]
    · simp [truncate, Sign.unit, hpos, Int.ceil_neg]
  | none => simp [truncate, Sign.unit, h]
  | plus => simp [truncate, Sign.unit, h]

end Numeral
