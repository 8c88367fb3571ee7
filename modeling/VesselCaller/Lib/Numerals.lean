import Mathlib.Data.List.DropRight
import Mathlib.Data.List.TakeWhile
import Mathlib.Tactic.Linarith
import Mathlib.Tactic.Positivity
import Mathlib.Tactic.Ring

/-!
# Decimal numerals

Fixed-point arithmetic over texts: a text of the form `\d+(\.\d+)?` stands for a
number of units of `10^(-p)`, and a number of such units is written back with
exactly `p` decimals.

* `numeralParts` — the digits on the two sides of the point, where the text has the
  form;
* `readScaled p w` — the units of such a text, of at most `w` whole digits and at
  most `p` decimals;
* `writeScaled p` — the text of a number of units;
* `stripZeros` — a text without its trailing zeros, nor a point they leave last.

What `writeScaled` writes, `readScaled` reads (`readScaled_writeScaled`), also after
`stripZeros` (`readScaled_stripZeros`).  What `readScaled p w` accepts is below
`10^(w+p)` (`readScaled_lt`) and is accepted with more decimals as well
(`readScaled_of_le`), as the same number in smaller units.  It is a whole number where the
text has no point or only zeros after it (`readScaled_mod_eq_zero`).
-/

namespace VesselCaller.Lib

/-- The number a list of digits spells. -/
abbrev digitsValue (ds : List Char) : ℕ := Nat.ofDigitChars 10 ds 0

/-- The whole and the fractional digits of a text `\d+(\.\d+)?`. -/
def numeralParts (cs : List Char) : Option (List Char × List Char) :=
  if cs.takeWhile Char.isDigit = [] then none
  else
    match cs.dropWhile Char.isDigit with
    | [] => some (cs.takeWhile Char.isDigit, [])
    | c :: fraction =>
        if c = '.' ∧ fraction ≠ [] ∧ fraction.all Char.isDigit = true then
          some (cs.takeWhile Char.isDigit, fraction)
        else none

/-- The units of `10^(-p)` of a numeral with these digits. -/
def scaledValue (p : ℕ) (whole fraction : List Char) : ℕ :=
  digitsValue whole * 10 ^ p + digitsValue (fraction.rightpad p '0')

/-- The units of `10^(-p)` of a numeral of at most `w` whole digits and `p` decimals. -/
def readScaled (p w : ℕ) (cs : List Char) : Option ℕ :=
  (numeralParts cs).bind fun parts =>
    if w < parts.1.length ∨ p < parts.2.length then none
    else some (scaledValue p parts.1 parts.2)

/-- `n` units of `10^(-p)`, with exactly `p` decimals. -/
def writeScaled (p n : ℕ) : List Char :=
  Nat.toDigits 10 (n / 10 ^ p) ++ '.' :: (Nat.toDigits 10 (n % 10 ^ p)).leftpad p '0'

/-- A text without its trailing zeros and without the point that stood before them. -/
def stripZeros (cs : List Char) : List Char :=
  let kept := cs.rdropWhile (· = '0')
  if kept ≠ cs ∧ kept.getLast? = some '.' then kept.dropLast else kept

example : readScaled 6 15 "12.5".toList = some 12500000 ∧
    readScaled 2 15 "0.125".toList = none ∧ readScaled 2 15 ".5".toList = none ∧
    stripZeros (writeScaled 6 12500000) = "12.5".toList ∧
    stripZeros (writeScaled 6 100000000) = "100".toList := by decide

/-! ## Lists of digits -/

/-- The values of the digits a list may hold. -/
theorem digit_le_nine {c : Char} (h : c.isDigit = true) : c.toNat - '0'.toNat ≤ 9 := by
  have hc := Char.isDigit_iff_toNat.mp h
  have hzero : '0'.toNat = 48 := by decide
  have hnine : '9'.toNat = 57 := by decide
  omega

theorem digitsValue_concat (ds : List Char) (c : Char) :
    digitsValue (ds ++ [c]) = 10 * digitsValue ds + (c.toNat - '0'.toNat) := by
  rw [digitsValue, Nat.ofDigitChars_append, Nat.ofDigitChars_cons, Nat.ofDigitChars_nil]

theorem digitsValue_lt : ∀ {ds : List Char}, (∀ c ∈ ds, c.isDigit = true) →
    digitsValue ds < 10 ^ ds.length := by
  intro ds
  induction ds using List.reverseRecOn with
  | nil => simp
  | append_singleton ds c ih =>
      intro h
      have hds : digitsValue ds < 10 ^ ds.length := ih fun c' hc' => h c' (by simp [hc'])
      have hc : c.toNat - '0'.toNat ≤ 9 := digit_le_nine (h c (by simp))
      rw [digitsValue_concat, List.length_append, List.length_singleton, pow_succ]
      omega

/-- Zeros on the left do not count. -/
theorem digitsValue_leftpad (p : ℕ) (ds : List Char) :
    digitsValue (ds.leftpad p '0') = digitsValue ds := by
  rw [List.leftpad, digitsValue, Nat.ofDigitChars_append, Nat.ofDigitChars_replicate_zero,
    Nat.mul_zero]

/-- Every zero on the right multiplies by ten. -/
theorem digitsValue_append_zeros (k : ℕ) (ds : List Char) :
    digitsValue (ds ++ List.replicate k '0') = 10 ^ k * digitsValue ds := by
  rw [digitsValue, Nat.ofDigitChars_append, Nat.ofDigitChars_replicate_zero]

theorem isDigit_toDigits {n : ℕ} {c : Char} (h : c ∈ Nat.toDigits 10 n) : c.isDigit = true :=
  Nat.isDigit_of_mem_toDigits (by decide) (by decide) h

theorem isDigit_leftpad {p : ℕ} {ds : List Char} (h : ∀ c ∈ ds, c.isDigit = true) :
    ∀ c ∈ ds.leftpad p '0', c.isDigit = true := by
  intro c hc
  rw [List.leftpad, List.mem_append] at hc
  rcases hc with hzero | hd
  · rw [(List.mem_replicate.mp hzero).2]
    decide
  · exact h c hd

/-! ## The parts of a numeral -/

/-- A text has the form exactly when it is a nonempty list of digits, followed by
nothing or by a point and a nonempty list of digits. -/
theorem numeralParts_eq_some {cs whole fraction : List Char} :
    numeralParts cs = some (whole, fraction) ↔
      whole ≠ [] ∧ (∀ c ∈ whole, c.isDigit = true) ∧ (∀ c ∈ fraction, c.isDigit = true) ∧
        cs = whole ++ (if fraction = [] then [] else '.' :: fraction) := by
  -- The text is the digits it begins with and what follows them.
  have hsplit : cs.takeWhile Char.isDigit ++ cs.dropWhile Char.isDigit = cs :=
    List.takeWhile_append_dropWhile
  constructor
  · intro h
    unfold numeralParts at h
    split at h
    · cases h
    rename_i hne
    split at h
    · rename_i hnil
      cases h
      refine ⟨hne, fun c hc => List.mem_takeWhile_imp hc, by simp, ?_⟩
      rw [hnil] at hsplit
      simpa using hsplit.symm
    · rename_i c rest hcons
      split at h
      · rename_i hpoint
        obtain ⟨rfl, hrest, hall⟩ := hpoint
        cases h
        refine ⟨hne, fun c hc => List.mem_takeWhile_imp hc,
          fun c hc => List.all_eq_true.mp hall c hc, ?_⟩
        rw [if_neg hrest, ← hcons]
        exact hsplit.symm
      · cases h
  · rintro ⟨hne, hwhole, hfraction, rfl⟩
    by_cases hnil : fraction = []
    · subst hnil
      have htake : whole.takeWhile Char.isDigit = whole := List.takeWhile_eq_self_iff.mpr hwhole
      have hdrop : whole.dropWhile Char.isDigit = [] := List.dropWhile_eq_nil_iff.mpr hwhole
      simp [numeralParts, htake, hdrop, hne]
    · rw [if_neg hnil]
      have hdot : Char.isDigit '.' = false := by decide
      have htake : (whole ++ '.' :: fraction).takeWhile Char.isDigit = whole := by
        rw [List.takeWhile_append_of_pos hwhole, List.takeWhile_cons_of_neg (by simp [hdot]),
          List.append_nil]
      have hdrop : (whole ++ '.' :: fraction).dropWhile Char.isDigit = '.' :: fraction := by
        rw [List.dropWhile_append_of_pos hwhole, List.dropWhile_cons_of_neg (by simp [hdot])]
      have hall : fraction.all Char.isDigit = true := List.all_eq_true.mpr hfraction
      simp [numeralParts, htake, hdrop, hne, hnil, hall]

/-! ## Reading -/

/-- The whole part of a numeral is what it has of digits in front. -/
theorem takeWhile_numeralParts {cs whole fraction : List Char}
    (h : numeralParts cs = some (whole, fraction)) : cs.takeWhile Char.isDigit = whole := by
  unfold numeralParts at h
  split at h
  · cases h
  split at h
  · exact congrArg Prod.fst (Option.some.inj h)
  split at h
  · exact congrArg Prod.fst (Option.some.inj h)
  · cases h

/-- What a text has to be for `readScaled` to accept it, and what it then stands for. -/
theorem readScaled_eq_some {p w n : ℕ} {cs : List Char} :
    readScaled p w cs = some n ↔ ∃ whole fraction,
      numeralParts cs = some (whole, fraction) ∧ whole.length ≤ w ∧ fraction.length ≤ p ∧
        scaledValue p whole fraction = n := by
  constructor
  · intro h
    obtain ⟨⟨whole, fraction⟩, hparts, h⟩ := Option.bind_eq_some_iff.mp h
    split at h
    · cases h
    · rename_i hlength
      simp only [not_or, not_lt] at hlength
      exact ⟨whole, fraction, hparts, hlength.1, hlength.2, Option.some.inj h⟩
  · rintro ⟨whole, fraction, hparts, hw, hp, rfl⟩
    have hlength : ¬(w < whole.length ∨ p < fraction.length) := by omega
    simp [readScaled, hparts, hlength]

theorem isDigit_rightpad {p : ℕ} {ds : List Char} (h : ∀ c ∈ ds, c.isDigit = true) :
    ∀ c ∈ ds.rightpad p '0', c.isDigit = true := by
  intro c hc
  rw [List.rightpad, List.mem_append] at hc
  rcases hc with hd | hzero
  · exact h c hd
  · rw [(List.mem_replicate.mp hzero).2]
    decide

theorem digitsValue_rightpad_lt {p : ℕ} {ds : List Char} (hp : ds.length ≤ p)
    (h : ∀ c ∈ ds, c.isDigit = true) : digitsValue (ds.rightpad p '0') < 10 ^ p := by
  have hlength : (ds.rightpad p '0').length = p := by
    rw [List.length_rightpad]
    omega
  exact (digitsValue_lt (isDigit_rightpad h)).trans_eq (by rw [hlength])

theorem scaledValue_lt {p w : ℕ} {whole fraction : List Char} (hw : whole.length ≤ w)
    (hp : fraction.length ≤ p) (hwhole : ∀ c ∈ whole, c.isDigit = true)
    (hfraction : ∀ c ∈ fraction, c.isDigit = true) :
    scaledValue p whole fraction < 10 ^ (w + p) := by
  have hlow := digitsValue_rightpad_lt hp hfraction
  have hhigh : digitsValue whole + 1 ≤ 10 ^ w :=
    (digitsValue_lt hwhole).trans_le (Nat.pow_le_pow_right (by decide) hw)
  calc scaledValue p whole fraction
      < digitsValue whole * 10 ^ p + 10 ^ p := Nat.add_lt_add_left hlow _
    _ = (digitsValue whole + 1) * 10 ^ p := by rw [Nat.add_mul, Nat.one_mul]
    _ ≤ 10 ^ w * 10 ^ p := Nat.mul_le_mul_right _ hhigh
    _ = 10 ^ (w + p) := (pow_add _ _ _).symm

/-- An accepted text stands for a number of at most `w` whole digits. -/
theorem readScaled_lt {p w n : ℕ} {cs : List Char} (h : readScaled p w cs = some n) :
    n < 10 ^ (w + p) := by
  obtain ⟨whole, fraction, hparts, hw, hp, rfl⟩ := readScaled_eq_some.mp h
  obtain ⟨-, hwhole, hfraction, -⟩ := numeralParts_eq_some.mp hparts
  exact scaledValue_lt hw hp hwhole hfraction

/-- More decimals give the same number in smaller units. -/
theorem scaledValue_add {p k : ℕ} {whole fraction : List Char} (hp : fraction.length ≤ p) :
    scaledValue (p + k) whole fraction = scaledValue p whole fraction * 10 ^ k := by
  have hpad : fraction.rightpad (p + k) '0' =
      fraction.rightpad p '0' ++ List.replicate k '0' := by
    rw [List.rightpad, List.rightpad, List.append_assoc, List.replicate_append_replicate]
    congr 2
    omega
  rw [scaledValue, scaledValue, hpad, digitsValue_append_zeros, pow_add]
  ring

/-- What is accepted with `p` decimals and `w` whole digits is accepted with more. -/
theorem readScaled_of_le {p q w w' n : ℕ} {cs : List Char} (h : readScaled p w cs = some n)
    (hp : p ≤ q) (hw : w ≤ w') : readScaled q w' cs = some (n * 10 ^ (q - p)) := by
  obtain ⟨whole, fraction, hparts, hwhole, hfraction, rfl⟩ := readScaled_eq_some.mp h
  refine readScaled_eq_some.mpr ⟨whole, fraction, hparts, by omega, by omega, ?_⟩
  obtain ⟨k, rfl⟩ := Nat.exists_eq_add_of_le hp
  rw [scaledValue_add hfraction, Nat.add_sub_cancel_left]

/-! ## Writing -/

/-- A list of digits spells zero where it holds no other digit. -/
theorem digitsValue_eq_zero_iff : ∀ {ds : List Char}, (∀ c ∈ ds, c.isDigit = true) →
    (digitsValue ds = 0 ↔ ∀ c ∈ ds, c = '0') := by
  intro ds
  induction ds using List.reverseRecOn with
  | nil => simp
  | append_singleton ds c ih =>
      intro h
      have hds := ih fun d hd => h d (List.mem_append_left _ hd)
      have hc : c.toNat - '0'.toNat = 0 ↔ c = '0' := by
        have hdigit := Char.isDigit_iff_toNat.mp (h c (by simp))
        have hzero : '0'.toNat = 48 := by decide
        constructor
        · intro hsub
          apply Char.ext
          apply UInt32.toNat_inj.mp
          show c.toNat = '0'.toNat
          omega
        · rintro rfl
          rfl
      rw [digitsValue_concat, Nat.add_eq_zero_iff, hc, List.forall_mem_append, ← hds]
      simp

/-- What follows the last point of a text. -/
theorem point_suffix_iff {whole ds zs : List Char} (hds : '.' ∉ ds) (hzs : '.' ∉ zs) :
    '.' :: zs <:+ whole ++ '.' :: ds ↔ zs = ds := by
  have hself : '.' :: ds <:+ whole ++ '.' :: ds := List.suffix_append _ _
  constructor
  · intro h
    rcases List.suffix_or_suffix_of_suffix h hself with hsuffix | hsuffix
    · rcases List.suffix_cons_iff.mp hsuffix with heq | hinner
      · exact (List.cons.inj heq).2
      · exact absurd (hinner.subset List.mem_cons_self) hds
    · rcases List.suffix_cons_iff.mp hsuffix with heq | hinner
      · exact (List.cons.inj heq).2.symm
      · exact absurd (hinner.subset List.mem_cons_self) hzs
  · rintro rfl
    exact hself

/-- A text stands for a whole number where it has no point, or only zeros after it. -/
theorem readScaled_mod_eq_zero {p w n : ℕ} {cs : List Char} (h : readScaled p w cs = some n) :
    n % 10 ^ p = 0 ↔
      '.' ∉ cs ∨ ∃ k, 1 ≤ k ∧ k ≤ p ∧ '.' :: List.replicate k '0' <:+ cs := by
  obtain ⟨whole, fraction, hparts, -, hlength, rfl⟩ := readScaled_eq_some.mp h
  obtain ⟨-, hwhole, hfraction, rfl⟩ := numeralParts_eq_some.mp hparts
  have hpoint : ∀ {ds : List Char}, (∀ c ∈ ds, c.isDigit = true) → '.' ∉ ds :=
    fun hds hmem => absurd (hds _ hmem) (by decide)
  have hmod : scaledValue p whole fraction % 10 ^ p = 0 ↔ ∀ c ∈ fraction, c = '0' := by
    rw [scaledValue, Nat.mul_add_mod_of_lt (digitsValue_rightpad_lt hlength hfraction),
      digitsValue_eq_zero_iff (isDigit_rightpad hfraction)]
    simp only [List.rightpad, List.mem_append]
    refine ⟨fun h c hc => h c (.inl hc), fun h c hc => ?_⟩
    exact hc.elim (h c) fun hc => List.eq_of_mem_replicate hc
  rw [hmod]
  by_cases hempty : fraction = []
  · rw [if_pos hempty, List.append_nil, hempty]
    exact iff_of_true (by simp) (.inl (hpoint hwhole))
  · have hpos : 1 ≤ fraction.length := List.length_pos_iff.mpr hempty
    rw [if_neg hempty, or_iff_right (by simp)]
    constructor
    · intro hzeros
      refine ⟨fraction.length, hpos, hlength, ?_⟩
      rw [← List.eq_replicate_iff.mpr ⟨rfl, hzeros⟩]
      exact List.suffix_append _ _
    · rintro ⟨k, -, -, hsuffix⟩
      have hzeros : '.' ∉ List.replicate k '0' := fun hmem =>
        absurd (List.eq_of_mem_replicate hmem) (by decide)
      rw [← (point_suffix_iff (hpoint hfraction) hzeros).mp hsuffix]
      exact fun c hc => List.eq_of_mem_replicate hc

theorem length_toDigits_le {n w : ℕ} (hw : 0 < w) (h : n < 10 ^ w) :
    (Nat.toDigits 10 n).length ≤ w :=
  (Nat.length_toDigits_le_iff (by decide) hw).mpr h

theorem length_leftpad_mod {p : ℕ} (hp : 0 < p) (n : ℕ) :
    ((Nat.toDigits 10 (n % 10 ^ p)).leftpad p '0').length = p := by
  have hlt : n % 10 ^ p < 10 ^ p := Nat.mod_lt _ (by positivity)
  have hlength := length_toDigits_le hp hlt
  rw [List.length_leftpad]
  omega

theorem rightpad_of_length {p : ℕ} {ds : List Char} (hlength : ds.length = p) :
    ds.rightpad p '0' = ds := by
  rw [List.rightpad, hlength, Nat.sub_self, List.replicate_zero, List.append_nil]

/-- A written number consists of digits and the point. -/
theorem isDigit_or_point {p n : ℕ} {c : Char} (h : c ∈ writeScaled p n) :
    c.isDigit = true ∨ c = '.' := by
  obtain hwhole | hrest := List.mem_append.mp h
  · exact .inl (isDigit_toDigits hwhole)
  · obtain hpoint | hfraction := List.mem_cons.mp hrest
    · exact .inr hpoint
    · exact .inl (isDigit_leftpad (fun c hc => isDigit_toDigits hc) c hfraction)

/-- The parts of a written number. -/
theorem numeralParts_writeScaled {p : ℕ} (hp : 0 < p) (n : ℕ) :
    numeralParts (writeScaled p n) =
      some (Nat.toDigits 10 (n / 10 ^ p), (Nat.toDigits 10 (n % 10 ^ p)).leftpad p '0') := by
  have hne : (Nat.toDigits 10 (n % 10 ^ p)).leftpad p '0' ≠ [] := by
    intro hnil
    have hlength := length_leftpad_mod hp n
    rw [hnil, List.length_nil] at hlength
    omega
  refine numeralParts_eq_some.mpr ⟨Nat.toDigits_ne_nil, fun c hc => isDigit_toDigits hc,
    isDigit_leftpad fun c hc => isDigit_toDigits hc, ?_⟩
  rw [if_neg hne]
  rfl

/-- A number of at most `w` whole digits is read back from its text. -/
theorem readScaled_writeScaled {p w n : ℕ} (hp : 0 < p) (hw : 0 < w) (h : n < 10 ^ (w + p)) :
    readScaled p w (writeScaled p n) = some n := by
  have hhigh : n / 10 ^ p < 10 ^ w := by
    rw [Nat.div_lt_iff_lt_mul (by positivity), ← pow_add]
    exact h
  have hlength := length_leftpad_mod hp n
  refine readScaled_eq_some.mpr ⟨_, _, numeralParts_writeScaled hp n, length_toDigits_le hw hhigh,
    hlength.le, ?_⟩
  rw [scaledValue, rightpad_of_length hlength, digitsValue_leftpad, digitsValue, digitsValue,
    Nat.ofDigitChars_ten_toDigits, Nat.ofDigitChars_ten_toDigits]
  exact Nat.div_add_mod' n (10 ^ p)

/-! ## Trailing zeros -/

/-- The trailing zeros of a list, apart. -/
theorem exists_trailing_zeros (cs : List Char) :
    ∃ k, cs = cs.rdropWhile (· = '0') ++ List.replicate k '0' := by
  induction cs using List.reverseRecOn with
  | nil => exact ⟨0, rfl⟩
  | append_singleton cs c ih =>
      rw [List.rdropWhile_concat]
      split
      · rename_i hzero
        obtain ⟨k, hk⟩ := ih
        have hc : c = '0' := by simpa using hzero
        refine ⟨k + 1, ?_⟩
        conv_lhs => rw [hk, hc]
        rw [List.append_assoc, ← List.replicate_succ']
      · exact ⟨0, by simp⟩

/-- Dropping from the right stops at a character that stays. -/
theorem rdropWhile_append_cons {p : Char → Bool} {x : Char} (hx : p x = false)
    (xs ys : List Char) : (xs ++ x :: ys).rdropWhile p = xs ++ x :: ys.rdropWhile p := by
  induction ys using List.reverseRecOn with
  | nil => rw [List.rdropWhile_concat, hx, if_neg Bool.false_ne_true, List.rdropWhile_nil]
  | append_singleton ys y ih =>
      have hassoc : xs ++ x :: (ys ++ [y]) = (xs ++ x :: ys) ++ [y] := by simp
      rw [hassoc, List.rdropWhile_concat, List.rdropWhile_concat]
      split
      · exact ih
      · simp

/-- Behind a point, zeros are stripped from the decimals alone; a point that none of
them follows goes with them. -/
theorem stripZeros_point {whole ds : List Char} (hne : ds ≠ [])
    (hds : ∀ c ∈ ds, c.isDigit = true) :
    stripZeros (whole ++ '.' :: ds) =
      whole ++ (if ds.rdropWhile (· = '0') = [] then [] else '.' :: ds.rdropWhile (· = '0')) := by
  have hkept : (whole ++ '.' :: ds).rdropWhile (· = '0') =
      whole ++ '.' :: ds.rdropWhile (· = '0') :=
    rdropWhile_append_cons (by decide) whole ds
  rw [stripZeros, hkept]
  split
  · rename_i hpoint
    by_cases hnil : ds.rdropWhile (· = '0') = []
    · rw [hnil, if_pos rfl, List.dropLast_concat, List.append_nil]
    · have hlast := hpoint.2
      rw [List.getLast?_append_of_ne_nil _ (List.cons_ne_nil _ _), List.getLast?_cons,
        List.getLast?_eq_some_getLast hnil, Option.getD_some] at hlast
      have hmem : '.' ∈ ds.rdropWhile (· = '0') := by
        rw [← Option.some.inj hlast]
        exact List.getLast_mem hnil
      have hdigit := hds '.' ((List.rdropWhile_prefix _ ds).subset hmem)
      exact absurd hdigit (by decide)
  · rename_i hpoint
    by_cases hnil : ds.rdropWhile (· = '0') = []
    · refine absurd ⟨?_, ?_⟩ hpoint
      · rw [hnil]
        simpa using Ne.symm hne
      · rw [hnil, List.getLast?_concat]
    · rw [if_neg hnil]

/-- Decimals padded to `p` digits are what is left of them, padded. -/
theorem rightpad_rdropWhile {p : ℕ} {ds : List Char} (hlength : ds.length = p) :
    (ds.rdropWhile (· = '0')).rightpad p '0' = ds := by
  obtain ⟨k, hk⟩ := exists_trailing_zeros ds
  have hcount := congrArg List.length hk
  rw [List.length_append, List.length_replicate, hlength] at hcount
  have hpad : p - (ds.rdropWhile (· = '0')).length = k := by omega
  rw [List.rightpad, hpad]
  exact hk.symm

/-- A number is read back from its text without the trailing zeros as well. -/
theorem readScaled_stripZeros {p w n : ℕ} (hp : 0 < p) (hw : 0 < w) (h : n < 10 ^ (w + p)) :
    readScaled p w (stripZeros (writeScaled p n)) = some n := by
  obtain ⟨whole, fraction, hparts, hwhole, -, hvalue⟩ :=
    readScaled_eq_some.mp (readScaled_writeScaled hp hw h)
  have hlength : fraction.length = p := by
    rw [numeralParts_writeScaled hp] at hparts
    rw [← (Prod.mk.inj (Option.some.inj hparts)).2]
    exact length_leftpad_mod hp n
  have hne : fraction ≠ [] := List.ne_nil_of_length_pos (hlength ▸ hp)
  obtain ⟨hnil, hdigits, hds, htext⟩ := numeralParts_eq_some.mp hparts
  rw [if_neg hne] at htext
  have hkept : fraction.rdropWhile (· = '0') <+: fraction := List.rdropWhile_prefix _ _
  refine readScaled_eq_some.mpr ⟨whole, fraction.rdropWhile (· = '0'), ?_, hwhole,
    hkept.length_le.trans hlength.le, ?_⟩
  · refine numeralParts_eq_some.mpr ⟨hnil, hdigits, fun c hc => hds c (hkept.subset hc), ?_⟩
    rw [htext, stripZeros_point hne hds]
  · rw [← hvalue, scaledValue, scaledValue, rightpad_rdropWhile hlength,
      rightpad_of_length hlength]

/-- Two numbers with one text are one. -/
theorem toString_inj {m n : ℕ} (h : toString m = toString n) : m = n := by
  have hvalue := congrArg (fun s : String => Nat.ofDigitChars 10 s.toList 0) h
  simpa [Nat.ofDigitChars_ten_toDigits] using hvalue

end VesselCaller.Lib
