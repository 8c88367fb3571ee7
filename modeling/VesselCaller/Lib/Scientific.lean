import VesselCaller.Lib.Numerals
import Mathlib.Algebra.Field.Rat
import Mathlib.Algebra.Order.Field.Rat
import Mathlib.Algebra.Order.Field.Power
import Mathlib.Data.List.SplitOn
import Mathlib.Tactic.FieldSimp

/-!
# Numerals with a sign and an exponent

Texts of the form `[+-]?(\d+(\.\d+)?|\.\d+)([eE][+-]?\d+)?` and the rational numbers they
spell.

* `Numeral` — the parts of such a text; every numeral has one text (`Numeral.chars`) and one
  number (`Numeral.value`);
* `matchNumeral` — the numeral a text is, if it is one (`matchNumeral_eq_some`);
* `numeralValue` — the number a text spells.

The value is read off the digits on either side of the point.  That it is the number of all
the digits, moved by the places behind the point and by the exponent, is
`Numeral.value_eq`; parsers that fold the two into one count of places rest on it.
-/

namespace VesselCaller.Lib

/-! ## The form -/

inductive Sign where
  | none
  | plus
  | minus
  deriving DecidableEq, Repr

namespace Sign

def chars : Sign → List Char
  | none => []
  | plus => ['+']
  | minus => ['-']

/-- The factor a sign stands for. -/
def factor : Sign → ℤ
  | none => 1
  | plus => 1
  | minus => -1

end Sign

/-- What a text starts with, of the signs, and the rest of it. -/
def splitSign : List Char → Sign × List Char
  | '+' :: cs => (.plus, cs)
  | '-' :: cs => (.minus, cs)
  | cs => (.none, cs)

/-- `[eE][+-]?\d+`. -/
structure Exponent where
  mark : Char
  sign : Sign
  digits : List Char
  isMark : mark = 'e' ∨ mark = 'E'
  ne_nil : digits ≠ []
  isDigit : ∀ c ∈ digits, c.isDigit = true
  deriving DecidableEq

namespace Exponent

def chars (e : Exponent) : List Char := e.mark :: (e.sign.chars ++ e.digits)

def value (e : Exponent) : ℤ := e.sign.factor * digitsValue e.digits

end Exponent

/-- The parts of a text `[+-]?(\d+(\.\d+)?|\.\d+)([eE][+-]?\d+)?`.  There is no point
where there are no decimals, and no whole digit is needed in front of one. -/
structure Numeral where
  sign : Sign
  whole : List Char
  fraction : List Char
  exponent : Option Exponent
  ne_nil : whole ≠ [] ∨ fraction ≠ []
  isDigit_whole : ∀ c ∈ whole, c.isDigit = true
  isDigit_fraction : ∀ c ∈ fraction, c.isDigit = true
  deriving DecidableEq

/-- Decimals with the point in front of them. -/
def pointed (fraction : List Char) : List Char :=
  if fraction = [] then [] else '.' :: fraction

/-- The number of the digits on either side of a point. -/
def decimalValue (whole fraction : List Char) : ℚ :=
  digitsValue whole + digitsValue fraction / 10 ^ fraction.length

namespace Numeral

variable (n : Numeral)

def exponentChars : List Char := (n.exponent.map Exponent.chars).getD []

def chars : List Char := n.sign.chars ++ (n.whole ++ (pointed n.fraction ++ n.exponentChars))

/-- The power of ten behind the mark, `0` where there is none. -/
def scale : ℤ := (n.exponent.map Exponent.value).getD 0

/-- The number a numeral spells. -/
def value : ℚ := n.sign.factor * decimalValue n.whole n.fraction * 10 ^ n.scale

end Numeral

/-! ## Matching -/

/-- The exponent a text is; the empty text is the absent one. -/
def matchExponent : List Char → Option (Option Exponent)
  | [] => some none
  | mark :: cs =>
      if h : (mark = 'e' ∨ mark = 'E') ∧ (splitSign cs).2 ≠ [] ∧
          (splitSign cs).2.all Char.isDigit = true then
        some (some ⟨mark, (splitSign cs).1, (splitSign cs).2, h.1, h.2.1,
          List.all_eq_true.mp h.2.2⟩)
      else none

/-- The decimals behind a point a text starts with, and the rest of it. -/
def splitPoint : List Char → List Char × List Char
  | '.' :: cs =>
      if cs.takeWhile Char.isDigit = [] then ([], '.' :: cs)
      else (cs.takeWhile Char.isDigit, cs.dropWhile Char.isDigit)
  | cs => ([], cs)

theorem isDigit_splitPoint (cs : List Char) :
    ∀ c ∈ (splitPoint cs).1, c.isDigit = true := by
  intro c hc
  unfold splitPoint at hc
  split at hc
  · split at hc
    · exact absurd hc List.not_mem_nil
    · exact List.mem_takeWhile_imp hc
  · exact absurd hc List.not_mem_nil

/-- The numeral a text is. -/
def matchNumeral (cs : List Char) : Option Numeral :=
  let signed := splitSign cs
  let whole := signed.2.takeWhile Char.isDigit
  let behind := splitPoint (signed.2.dropWhile Char.isDigit)
  (matchExponent behind.2).bind fun exponent =>
    if h : whole ≠ [] ∨ behind.1 ≠ [] then
      some {
        sign := signed.1
        whole := whole
        fraction := behind.1
        exponent := exponent
        ne_nil := h
        isDigit_whole := fun _ hc => List.mem_takeWhile_imp hc
        isDigit_fraction := isDigit_splitPoint _ }
    else none

/-- The number a text spells. -/
def numeralValue (cs : List Char) : Option ℚ := (matchNumeral cs).map Numeral.value

example : numeralValue "-12.50".toList = some (-25 / 2) ∧
    numeralValue ".5e3".toList = some 500 ∧ numeralValue "12.".toList = none := by
  decide +kernel

/-! ## A text is that of one numeral -/

theorem splitSign_append (cs : List Char) :
    (splitSign cs).1.chars ++ (splitSign cs).2 = cs := by
  unfold splitSign
  split <;> rfl

theorem splitPoint_append (cs : List Char) :
    pointed (splitPoint cs).1 ++ (splitPoint cs).2 = cs := by
  unfold splitPoint
  split
  · split
    · rfl
    · rename_i rest hne
      rw [pointed, if_neg hne, List.cons_append, List.takeWhile_append_dropWhile]
  · rfl

theorem matchExponent_eq_some {cs : List Char} {exponent : Option Exponent}
    (h : matchExponent cs = some exponent) : (exponent.map Exponent.chars).getD [] = cs := by
  unfold matchExponent at h
  split at h
  · cases h
    rfl
  · rename_i mark rest
    split at h
    · cases h
      show mark :: ((splitSign rest).1.chars ++ (splitSign rest).2) = mark :: rest
      rw [splitSign_append]
    · cases h

/-- A digit is neither a sign, nor the point, nor the mark of an exponent. -/
theorem not_special_of_isDigit {c : Char} (h : c.isDigit = true) :
    c ≠ '+' ∧ c ≠ '-' ∧ c ≠ '.' ∧ c ≠ 'e' ∧ c ≠ 'E' := by
  refine ⟨?_, ?_, ?_, ?_, ?_⟩ <;> rintro rfl <;> exact absurd h (by decide)

/-- A sign is split off what does not start with one itself. -/
theorem splitSign_chars (sign : Sign) {cs : List Char}
    (h : ∀ c ∈ cs.head?, c ≠ '+' ∧ c ≠ '-') : splitSign (sign.chars ++ cs) = (sign, cs) := by
  cases sign with
  | none =>
      show splitSign cs = _
      unfold splitSign
      split
      · exact absurd rfl (h '+' rfl).1
      · exact absurd rfl (h '-' rfl).2
      · rfl
  | plus => rfl
  | minus => rfl

theorem matchExponent_chars (exponent : Option Exponent) :
    matchExponent ((exponent.map Exponent.chars).getD []) = some exponent := by
  cases exponent with
  | none => rfl
  | some e =>
      have hsplit : splitSign (e.sign.chars ++ e.digits) = (e.sign, e.digits) := by
        refine splitSign_chars e.sign fun c hc => ?_
        have hdigit := e.isDigit c (List.mem_of_head? hc)
        exact ⟨(not_special_of_isDigit hdigit).1, (not_special_of_isDigit hdigit).2.1⟩
      have hvalid : (e.mark = 'e' ∨ e.mark = 'E') ∧
          (splitSign (e.sign.chars ++ e.digits)).2 ≠ [] ∧
          (splitSign (e.sign.chars ++ e.digits)).2.all Char.isDigit = true := by
        rw [hsplit]
        exact ⟨e.isMark, e.ne_nil, List.all_eq_true.mpr e.isDigit⟩
      show matchExponent (e.mark :: (e.sign.chars ++ e.digits)) = some (some e)
      rw [matchExponent, dif_pos hvalid]
      congr 2
      obtain ⟨mark, sign, digits, _, _, _⟩ := e
      simp only [Exponent.mk.injEq, true_and]
      exact ⟨congrArg Prod.fst hsplit, congrArg Prod.snd hsplit⟩

/-- What follows a run of digits, in a numeral, does not start with one. -/
theorem not_isDigit_head_exponentChars (n : Numeral) :
    ∀ c ∈ n.exponentChars.head?, c.isDigit = false ∧ c ≠ '.' := by
  intro c hc
  unfold Numeral.exponentChars at hc
  cases he : n.exponent with
  | none =>
      rw [he] at hc
      exact absurd hc (by simp)
  | some e =>
      rw [he] at hc
      have hmark : e.mark = c := by simpa [Exponent.chars] using hc
      obtain hm | hm := e.isMark <;> rw [← hmark, hm] <;> decide

/-- A run of digits ends where another character, or nothing, follows. -/
theorem takeWhile_digits {ds cs : List Char} (hds : ∀ c ∈ ds, c.isDigit = true)
    (hcs : ∀ c ∈ cs.head?, c.isDigit = false) :
    (ds ++ cs).takeWhile Char.isDigit = ds ∧ (ds ++ cs).dropWhile Char.isDigit = cs := by
  cases cs with
  | nil =>
      rw [List.append_nil]
      exact ⟨List.takeWhile_eq_self_iff.mpr hds, List.dropWhile_eq_nil_iff.mpr hds⟩
  | cons c cs =>
      have hc : ¬c.isDigit = true := by simp [hcs c rfl]
      rw [List.takeWhile_append_of_pos hds, List.takeWhile_cons_of_neg hc, List.append_nil,
        List.dropWhile_append_of_pos hds, List.dropWhile_cons_of_neg hc]
      exact ⟨rfl, rfl⟩

theorem splitPoint_chars (n : Numeral) :
    splitPoint (pointed n.fraction ++ n.exponentChars) = (n.fraction, n.exponentChars) := by
  have hhead := not_isDigit_head_exponentChars n
  by_cases hnil : n.fraction = []
  · rw [hnil, pointed, if_pos rfl, List.nil_append]
    unfold splitPoint
    split
    · rename_i hcons
      rw [hcons] at hhead
      exact absurd rfl (hhead '.' rfl).2
    · rfl
  · obtain ⟨htake, hdrop⟩ :=
      takeWhile_digits n.isDigit_fraction fun c hc => (hhead c hc).1
    rw [pointed, if_neg hnil, List.cons_append]
    show (if (n.fraction ++ n.exponentChars).takeWhile Char.isDigit = [] then _ else _) = _
    rw [htake, if_neg hnil, hdrop]

/-- The text of a numeral is matched as that numeral. -/
theorem matchNumeral_chars (n : Numeral) : matchNumeral n.chars = some n := by
  have hbehind : ∀ c ∈ (pointed n.fraction ++ n.exponentChars).head?,
      c.isDigit = false ∧ c ≠ '+' ∧ c ≠ '-' := by
    intro c hc
    by_cases hnil : n.fraction = []
    · rw [hnil, pointed, if_pos rfl, List.nil_append] at hc
      cases he : n.exponent with
      | none => simp [Numeral.exponentChars, he] at hc
      | some e =>
          have hmark : e.mark = c := by
            simpa [Numeral.exponentChars, he, Exponent.chars] using hc
          obtain hm | hm := e.isMark <;> rw [← hmark, hm] <;> decide
    · rw [pointed, if_neg hnil, List.cons_append, List.head?_cons, Option.mem_some_iff] at hc
      rw [← hc]
      decide
  have hsigned : splitSign n.chars =
      (n.sign, n.whole ++ (pointed n.fraction ++ n.exponentChars)) := by
    refine splitSign_chars n.sign fun c hc => ?_
    by_cases hnil : n.whole = []
    · rw [hnil, List.nil_append] at hc
      exact (hbehind c hc).2
    · rw [List.head?_append_of_ne_nil _ hnil] at hc
      have hdigit := not_special_of_isDigit (n.isDigit_whole c (List.mem_of_head? hc))
      exact ⟨hdigit.1, hdigit.2.1⟩
  obtain ⟨htake, hdrop⟩ := takeWhile_digits n.isDigit_whole fun c hc => (hbehind c hc).1
  have hpoint := splitPoint_chars n
  have hexponent : matchExponent n.exponentChars = some n.exponent :=
    matchExponent_chars n.exponent
  unfold matchNumeral
  simp only [hsigned, htake, hdrop, hpoint, hexponent, Option.bind_some, n.ne_nil, dif_pos]

/-- A text is matched exactly as the numeral whose text it is. -/
theorem matchNumeral_eq_some {cs : List Char} {n : Numeral} :
    matchNumeral cs = some n ↔ n.chars = cs := by
  constructor
  · intro h
    obtain ⟨exponent, hexponent, h⟩ := Option.bind_eq_some_iff.mp h
    split at h
    · cases h
      show (splitSign cs).1.chars ++ (_ ++ (pointed _ ++ (exponent.map Exponent.chars).getD []))
        = cs
      rw [matchExponent_eq_some hexponent, splitPoint_append, List.takeWhile_append_dropWhile,
        splitSign_append]
    · cases h
  · rintro rfl
    exact matchNumeral_chars n

theorem numeralValue_eq_some {cs : List Char} {q : ℚ} :
    numeralValue cs = some q ↔ ∃ n : Numeral, n.chars = cs ∧ n.value = q := by
  simp only [numeralValue, Option.map_eq_some_iff, matchNumeral_eq_some]

/-! ## Values -/

/-- The digits on either side of a point, as one number over the decimals. -/
theorem decimalValue_eq (whole fraction : List Char) :
    decimalValue whole fraction = digitsValue (whole ++ fraction) / 10 ^ fraction.length := by
  have happend : digitsValue (whole ++ fraction) =
      digitsValue whole * 10 ^ fraction.length + digitsValue fraction := by
    rw [digitsValue, Nat.ofDigitChars_append, Nat.ofDigitChars_eq_ofDigitChars_zero]
    ring
  have hpow : (10 : ℚ) ^ fraction.length ≠ 0 := by positivity
  rw [decimalValue, happend]
  push_cast
  field_simp

/-- Zeros behind the decimals do not count. -/
theorem decimalValue_append_zeros (whole fraction : List Char) (k : ℕ) :
    decimalValue whole (fraction ++ List.replicate k '0') = decimalValue whole fraction := by
  have hpow : (10 : ℚ) ^ k ≠ 0 := by positivity
  rw [decimalValue, decimalValue, digitsValue_append_zeros, List.length_append,
    List.length_replicate, pow_add]
  push_cast
  field_simp

theorem decimalValue_rdropWhile (whole fraction : List Char) :
    decimalValue whole (fraction.rdropWhile (· = '0')) = decimalValue whole fraction := by
  obtain ⟨k, hk⟩ := exists_trailing_zeros fraction
  conv_rhs => rw [hk]
  exact (decimalValue_append_zeros _ _ k).symm

/-- The text of decimal digits, with a sign, spells their number. -/
theorem numeralValue_decimal (sign : Sign) {whole fraction : List Char} (h : whole ≠ [])
    (hwhole : ∀ c ∈ whole, c.isDigit = true) (hfraction : ∀ c ∈ fraction, c.isDigit = true) :
    numeralValue (sign.chars ++ (whole ++ pointed fraction)) =
      some (sign.factor * decimalValue whole fraction) := by
  refine numeralValue_eq_some.mpr
    ⟨⟨sign, whole, fraction, none, .inl h, hwhole, hfraction⟩, ?_, ?_⟩
  · show sign.chars ++ (whole ++ (pointed fraction ++ [])) = _
    rw [List.append_nil]
  · show sign.factor * decimalValue whole fraction * 10 ^ (0 : ℤ) = _
    rw [zpow_zero, mul_one]

namespace Numeral

variable (n : Numeral)

/-- All the digits of a numeral, as one number. -/
def digits : ℕ := digitsValue (n.whole ++ n.fraction)

/-- The number of a numeral is that of its digits, moved by the decimals and the exponent. -/
theorem value_eq :
    n.value = n.sign.factor * n.digits * 10 ^ (n.scale - n.fraction.length) := by
  have hten : (10 : ℚ) ≠ 0 := by norm_num
  rw [value, decimalValue_eq, zpow_sub₀ hten, zpow_natCast, digits]
  ring

theorem value_eq_zero_iff : n.value = 0 ↔ n.digits = 0 := by
  have hscale : (10 : ℚ) ^ (n.scale - n.fraction.length) ≠ 0 := by positivity
  have hfactor : (n.sign.factor : ℚ) ≠ 0 := by cases n.sign <;> norm_num [Sign.factor]
  rw [value_eq, mul_eq_zero, mul_eq_zero, Nat.cast_eq_zero]
  tauto

/-- Below zero is what has a minus sign and is not zero. -/
theorem value_neg_iff : n.value < 0 ↔ n.sign = .minus ∧ n.digits ≠ 0 := by
  have hnonneg : 0 ≤ (n.digits : ℚ) * 10 ^ (n.scale - n.fraction.length) := by positivity
  have hzero := n.value_eq_zero_iff
  have hvalue := n.value_eq
  rw [mul_assoc] at hvalue
  cases hsign : n.sign with
  | minus =>
      rw [hsign] at hvalue
      simp only [Sign.factor, Int.cast_neg, Int.cast_one, neg_one_mul] at hvalue
      rw [hvalue, neg_eq_zero] at hzero
      rw [hvalue, neg_lt_zero, ne_eq, ← hzero]
      exact ⟨fun h => ⟨rfl, h.ne'⟩, fun h => lt_of_le_of_ne hnonneg (Ne.symm h.2)⟩
  | none =>
      rw [hsign] at hvalue
      simp only [Sign.factor, Int.cast_one, one_mul] at hvalue
      simp [hvalue, hnonneg]
  | plus =>
      rw [hsign] at hvalue
      simp only [Sign.factor, Int.cast_one, one_mul] at hvalue
      simp [hvalue, hnonneg]

end Numeral

end VesselCaller.Lib
