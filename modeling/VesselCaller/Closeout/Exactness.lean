import VesselCaller.Closeout.Changes
import VesselCaller.Lib.Scientific
import Mathlib.Algebra.Order.Floor.Ring
import Mathlib.Data.Rat.Floor

/-!
# The calculation is exact

`calculateVariation` computes with integers of three scales, and every text it reads or
writes is a numeral.  Read as numbers, its lines are what they should be: a variance is the
difference of two quantities, an entitlement the charge for it rounded half up to cents, an
amount what has not been charged before, and the total is their sum.

What `decimal` reads is the number a text spells (`decimal_denotes`), and `fixed` and
`quantityText` spell the number they are given (`fixed_denotes`, `quantityText_denotes`).

## Main definitions

* `spelledValue`, `roundCents` — the number a text spells, and a number rounded half up;
* `LineExact`, `TotalExact` — the calculation over the rationals;
* `Invertible` — what is written is read again.
-/

namespace VesselCaller.Closeout

open Lib

/-! ## Texts as numbers -/

/-- The number a text spells, without the space around it. -/
def spelledValue (text : String) : Option ℚ := numeralValue (trim text).toList

/-- Units of `10^(-p)` as a number. -/
theorem scaledValue_div {p : ℕ} {whole fraction : List Char} (h : fraction.length ≤ p) :
    (scaledValue p whole fraction : ℚ) / 10 ^ p = decimalValue whole fraction := by
  have hpad : digitsValue (fraction.rightpad p '0') =
      10 ^ (p - fraction.length) * digitsValue fraction := by
    rw [List.rightpad, digitsValue_append_zeros]
  have hsplit : (10 : ℚ) ^ p = 10 ^ (p - fraction.length) * 10 ^ fraction.length := by
    rw [← pow_add, Nat.sub_add_cancel h]
  have hpow : (10 : ℚ) ^ (p - fraction.length) ≠ 0 := by positivity
  have hlength : (10 : ℚ) ^ fraction.length ≠ 0 := by positivity
  rw [scaledValue, hpad, decimalValue]
  push_cast
  rw [hsplit]
  field_simp

/-- What `decimal` reads is the number the text spells. -/
theorem decimal_denotes {text : String} {p w n : ℕ} (h : decimal (some text) p w = some n) :
    spelledValue text = some ((n : ℚ) / 10 ^ p) := by
  rw [decimal_some] at h
  obtain ⟨whole, fraction, hparts, -, hlength, rfl⟩ := readScaled_eq_some.mp h
  obtain ⟨hne, hwhole, hfraction, htext⟩ := numeralParts_eq_some.mp hparts
  have hvalue := numeralValue_decimal .none hne hwhole hfraction
  simp only [Sign.chars, Sign.factor, List.nil_append, Int.cast_one, one_mul] at hvalue
  have hpointed : (trim text).toList = whole ++ pointed fraction := htext
  rw [spelledValue, hpointed, hvalue, scaledValue_div hlength]

/-- The digits that `writeScaled` writes. -/
theorem decimalValue_writeScaled {p : ℕ} (hp : 0 < p) (n : ℕ) :
    decimalValue (Nat.toDigits 10 (n / 10 ^ p))
      ((Nat.toDigits 10 (n % 10 ^ p)).leftpad p '0') = (n : ℚ) / 10 ^ p := by
  have hlength := length_leftpad_mod hp n
  rw [← scaledValue_div hlength.le, scaledValue, rightpad_of_length hlength,
    digitsValue_leftpad, digitsValue, digitsValue, Nat.ofDigitChars_ten_toDigits,
    Nat.ofDigitChars_ten_toDigits, Nat.div_add_mod']

/-- The sign `fixed` writes, and its factor. -/
theorem fixed_sign (v : ℤ) : ∃ sign : Sign, sign.factor * v.natAbs = v ∧
    ∀ p, (fixed v p).toList = sign.chars ++ writeScaled p v.natAbs := by
  have hminus : "-".toList = ['-'] := by decide
  by_cases hv : v < 0
  · refine ⟨.minus, by simp only [Sign.factor]; omega, fun p => ?_⟩
    rw [fixed, if_pos hv, String.toList_append, hminus, String.toList_ofList]
    rfl
  · refine ⟨.none, by simp only [Sign.factor]; omega, fun p => ?_⟩
    rw [fixed, if_neg hv, String.empty_append, String.toList_ofList]
    rfl

/-- The number a sign and the digits of a text of `fixed` spell, with or without the zeros
behind the decimals. -/
theorem fixed_parts (v : ℤ) {p : ℕ} (hp : 0 < p) : ∃ sign : Sign, ∃ whole ds : List Char,
    whole ≠ [] ∧ (∀ c ∈ whole, c.isDigit = true) ∧ ds ≠ [] ∧ (∀ c ∈ ds, c.isDigit = true) ∧
      (fixed v p).toList = sign.chars ++ (whole ++ '.' :: ds) ∧
      sign.factor * decimalValue whole ds = (v : ℚ) / 10 ^ p := by
  obtain ⟨sign, hfactor, htext⟩ := fixed_sign v
  refine ⟨sign, Nat.toDigits 10 (v.natAbs / 10 ^ p),
    (Nat.toDigits 10 (v.natAbs % 10 ^ p)).leftpad p '0', Nat.toDigits_ne_nil,
    fun c hc => isDigit_toDigits hc, ?_, isDigit_leftpad fun c hc => isDigit_toDigits hc,
    htext p, ?_⟩
  · exact List.ne_nil_of_length_pos ((length_leftpad_mod hp v.natAbs).symm ▸ hp)
  · have hcast : (sign.factor : ℚ) * (v.natAbs : ℚ) = v := by
      have hsame := congrArg (Int.cast : ℤ → ℚ) hfactor
      rwa [Int.cast_mul, Int.cast_natCast] at hsame
    rw [decimalValue_writeScaled hp, ← mul_div_assoc, hcast]

/-- `fixed` spells its number. -/
theorem fixed_denotes (v : ℤ) {p : ℕ} (hp : 0 < p) :
    numeralValue (fixed v p).toList = some ((v : ℚ) / 10 ^ p) := by
  obtain ⟨sign, whole, ds, hne, hwhole, hds, hdigits, htext, hvalue⟩ := fixed_parts v hp
  have hpointed : pointed ds = '.' :: ds := by rw [pointed, if_neg hds]
  rw [htext, ← hpointed, numeralValue_decimal sign hne hwhole hdigits, hvalue]

/-- `quantityText` spells its number, too. -/
theorem quantityText_denotes (v : ℤ) :
    numeralValue (quantityText v).toList = some ((v : ℚ) / 10 ^ 6) := by
  obtain ⟨sign, whole, ds, hne, hwhole, hds, hdigits, htext, hvalue⟩ :=
    fixed_parts v (p := 6) (by decide)
  have hkept : ∀ c ∈ ds.rdropWhile (· = '0'), c.isDigit = true := fun c hc =>
    hdigits c ((List.rdropWhile_prefix _ ds).subset hc)
  have hstripped := @stripZeros_point (sign.chars ++ whole) _ hds hdigits
  rw [quantityText, String.toList_ofList, htext, ← List.append_assoc, hstripped,
    List.append_assoc]
  show numeralValue (sign.chars ++ (whole ++ pointed (ds.rdropWhile (· = '0')))) = _
  rw [numeralValue_decimal sign hne hwhole hkept, decimalValue_rdropWhile, hvalue]

/-- The texts that are written have no space around them. -/
theorem spelledValue_fixed (n : ℕ) {p : ℕ} (hp : 0 < p) :
    spelledValue (fixed (n : ℤ) p) = some ((n : ℚ) / 10 ^ p) := by
  have htrim : trim (fixed (n : ℤ) p) = fixed (n : ℤ) p := by
    refine trim_of_forall fun c hc => ?_
    rw [fixed_natCast, String.toList_ofList] at hc
    exact isSpace_of_mem_writeScaled hc
  rw [spelledValue, htrim, fixed_denotes _ hp, Int.cast_natCast]

/-! ## Rounding -/

/-- A number rounded half up to cents. -/
def roundCents (x : ℚ) : ℚ := (⌊x * 100 + 1 / 2⌋ : ℤ) / 100

/-- The entitlement is the charge for what exceeds the declaration, rounded half up. -/
theorem entitlementOf_eq (variance : ℤ) (rate : ℕ) : (entitlementOf variance rate : ℚ) / 10 ^ 2 =
    roundCents (max 0 ((variance : ℚ) / 10 ^ 6) * ((rate : ℚ) / 10 ^ 4)) := by
  unfold entitlementOf roundCents
  split
  · rename_i hpos
    have hmax : max 0 ((variance : ℚ) / 10 ^ 6) = (variance.toNat : ℚ) / 10 ^ 6 := by
      have hcast : (variance : ℚ) = (variance.toNat : ℚ) := by
        have hnat : (variance.toNat : ℤ) = variance := Int.toNat_of_nonneg hpos.le
        exact_mod_cast hnat.symm
      rw [hcast]
      exact max_eq_right (by positivity)
    have hunits : max 0 ((variance : ℚ) / 10 ^ 6) * ((rate : ℚ) / 10 ^ 4) * 100 + 1 / 2 =
        ((variance.toNat * rate + 50000000 : ℕ) : ℚ) / ((100000000 : ℕ) : ℚ) := by
      rw [hmax]
      push_cast
      ring
    have hfloor : ⌊((variance.toNat * rate + 50000000 : ℕ) : ℚ) / ((100000000 : ℕ) : ℚ)⌋ =
        (((variance.toNat * rate + 50000000) / 100000000 : ℕ) : ℤ) := by
      rw [Rat.floor_natCast_div_natCast, Int.natCast_div]
    have hhundred : (10 : ℚ) ^ 2 = 100 := by norm_num
    rw [hunits, hfloor, Int.cast_natCast, hhundred]
  · rename_i hneg
    have hle : (variance : ℚ) / 10 ^ 6 ≤ 0 := by
      have hcast : (variance : ℚ) ≤ 0 := by exact_mod_cast not_lt.mp hneg
      exact div_nonpos_of_nonpos_of_nonneg hcast (by positivity)
    rw [max_eq_left hle]
    norm_num

/-- The amount is what an entitlement exceeds the earlier charge by. -/
theorem amountOf_eq (entitlement previous : ℕ) : (amountOf entitlement previous : ℚ) / 10 ^ 2 =
    max 0 ((entitlement : ℚ) / 10 ^ 2 - (previous : ℚ) / 10 ^ 2) := by
  unfold amountOf
  split
  · rename_i hgt
    have hle : (previous : ℚ) / 10 ^ 2 ≤ (entitlement : ℚ) / 10 ^ 2 := by
      have hcast : (previous : ℚ) ≤ entitlement := by exact_mod_cast hgt.le
      gcongr
    rw [max_eq_right (sub_nonneg.mpr hle), Nat.cast_sub hgt.le, sub_div]
  · rename_i hle
    have hle : (entitlement : ℚ) / 10 ^ 2 ≤ (previous : ℚ) / 10 ^ 2 := by
      have hcast : (entitlement : ℚ) ≤ previous := by exact_mod_cast not_lt.mp hle
      gcongr
    rw [max_eq_left (sub_nonpos.mpr hle), Nat.cast_zero, zero_div]

/-! ## Lines -/

/-- The line of an invoice says of a line of the report what its texts, read as numbers,
imply. -/
structure LineExact (inputs : List PreviewInvoiceLineInput) (row : PreviewReportLine)
    (line : PreviewInvoiceLine) : Prop where
  input : inputFor inputs row = some line.toPreviewInvoiceLineInput
  planId : line.planId = row.planId
  lineId : line.lineId = row.lineId
  description : line.description = row.description
  unit : line.unit = row.unit
  declaredQuantity : some line.declaredQuantity = row.declaredQuantity
  finalQuantity : line.finalQuantity = row.quantity
  exact : ∃ declared final rate previous entitlement : ℚ,
    spelledValue line.declaredQuantity = some declared ∧
    spelledValue line.finalQuantity = some final ∧
    spelledValue line.rate = some rate ∧
    spelledValue line.previousVariationAmount = some previous ∧
    spelledValue line.entitlement = some entitlement ∧
    numeralValue line.variance.toList = some (final - declared) ∧
    entitlement = roundCents (max 0 (final - declared) * rate) ∧
    spelledValue line.amount = some (max 0 (entitlement - previous))

theorem lineExact_of_calculated {inputs : List PreviewInvoiceLineInput} {row : PreviewReportLine}
    {charge : PreviewInvoiceLine × ℕ} (h : calculateLine inputs row = .ok charge) :
    LineExact inputs row charge.1 ∧
      spelledValue charge.1.amount = some ((charge.2 : ℚ) / 10 ^ 2) := by
  obtain ⟨input, f, hinput, hfigures, rfl⟩ := calculateLine_eq_ok.mp h
  obtain ⟨hbaseline, hfinal, hrate, hprevious⟩ := lineFigures_eq_some.mp hfigures
  obtain ⟨declared, hdeclared⟩ : ∃ text, row.declaredQuantity = some text := by
    cases hd : row.declaredQuantity with
    | none =>
        rw [hd] at hbaseline
        cases hbaseline
    | some text => exact ⟨text, rfl⟩
  rw [hdeclared] at hbaseline
  have hkeys : input.planId = row.planId ∧ input.lineId = row.lineId := by
    simpa using List.find?_some hinput
  have hvariance : ((f.variance : ℤ) : ℚ) / 10 ^ 6 =
      (f.final : ℚ) / 10 ^ 6 - (f.baseline : ℚ) / 10 ^ 6 := by
    rw [LineFigures.variance, Int.cast_sub, Int.cast_natCast, Int.cast_natCast, sub_div]
  have hamount : spelledValue (fixed (f.amount : ℤ) 2) = some ((f.amount : ℚ) / 10 ^ 2) :=
    spelledValue_fixed _ (by decide)
  refine ⟨⟨hinput, hkeys.1, hkeys.2, rfl, rfl, ?_, rfl, ?_⟩, hamount⟩
  · show some (row.declaredQuantity.getD "") = row.declaredQuantity
    rw [hdeclared, Option.getD_some]
  · refine ⟨(f.baseline : ℚ) / 10 ^ 6, (f.final : ℚ) / 10 ^ 6, (f.rate : ℚ) / 10 ^ 4,
      (f.previous : ℚ) / 10 ^ 2, (f.entitlement : ℚ) / 10 ^ 2, ?_, decimal_denotes hfinal,
      decimal_denotes hrate, decimal_denotes hprevious, spelledValue_fixed _ (by decide), ?_, ?_,
      ?_⟩
    · show spelledValue (row.declaredQuantity.getD "") = _
      rw [hdeclared, Option.getD_some]
      exact decimal_denotes hbaseline
    · show numeralValue (quantityText f.variance).toList = _
      rw [quantityText_denotes, hvariance]
    · rw [LineFigures.entitlement, entitlementOf_eq, hvariance]
    · show spelledValue (fixed (f.amount : ℤ) 2) = _
      rw [hamount, LineFigures.amount, amountOf_eq]

/-! ## The calculation -/

section Calculation

variable {rows : List PreviewReportLine} {inputs : List PreviewInvoiceLineInput}

/-- Without issues every line of the report has been calculated, in order. -/
theorem forall₂_chargesOf (h : calculationIssues rows inputs = []) :
    List.Forall₂ (fun row charge => calculateLine inputs row = .ok charge) rows
      (chargesOf rows inputs) := by
  obtain ⟨-, -, hall⟩ := calculationIssues_eq_nil.mp h
  unfold chargesOf
  clear h
  induction rows with
  | nil => exact .nil
  | cons row rows ih =>
      obtain ⟨charge, hcharge⟩ := hall row List.mem_cons_self
      rw [List.map_cons, hcharge]
      exact .cons hcharge (ih fun r hr => hall r (List.mem_cons_of_mem _ hr))

/-- The amounts of the lines, as numbers, and their sum. -/
theorem sum_amounts {charges : List (PreviewInvoiceLine × ℕ)}
    (h : ∀ charge ∈ charges, spelledValue charge.1.amount = some ((charge.2 : ℚ) / 10 ^ 2)) :
    ∃ amounts : List ℚ, List.Forall₂ (fun line amount => spelledValue line.amount = some amount)
        (charges.map Prod.fst) amounts ∧
      (((charges.map Prod.snd).sum : ℕ) : ℚ) / 10 ^ 2 = amounts.sum := by
  induction charges with
  | nil => exact ⟨[], .nil, by simp⟩
  | cons charge charges ih =>
      obtain ⟨amounts, hamounts, hsum⟩ := ih fun c hc => h c (List.mem_cons_of_mem _ hc)
      refine ⟨(charge.2 : ℚ) / 10 ^ 2 :: amounts, .cons (h charge List.mem_cons_self) hamounts, ?_⟩
      rw [List.map_cons, List.sum_cons, List.sum_cons, ← hsum]
      push_cast
      ring

/-- The total of a calculation is the sum of the amounts, or nothing. -/
def TotalExact (v : Variation) : Prop :=
  ((v.status = .draft ∨ v.status = .noCharge) → ∃ amounts : List ℚ,
    List.Forall₂ (fun line amount => spelledValue line.amount = some amount) v.lines amounts ∧
      spelledValue v.total = some amounts.sum) ∧
  ((v.status = .held ∨ v.status = .overpaymentReview) → v.total = "0.00")

/-- What is written is read again, and spells what it was written for. -/
structure Invertible : Prop where
  read : ∀ (n p w : ℕ), 0 < p → 0 < w → n < 10 ^ (w + p) →
    decimal (some (fixed (n : ℤ) p)) p w = some n
  readQuantity : ∀ v : ℤ, v.natAbs < 10 ^ 21 →
    decimal (some (dropSign (quantityText v))) 6 15 = some v.natAbs
  fixed : ∀ (v : ℤ) (p : ℕ), 0 < p → numeralValue (fixed v p).toList = some ((v : ℚ) / 10 ^ p)
  quantityText : ∀ v : ℤ, numeralValue (quantityText v).toList = some ((v : ℚ) / 10 ^ 6)
  spelled : ∀ (text : String) (p w n : ℕ), decimal (some text) p w = some n →
    spelledValue text = some ((n : ℚ) / 10 ^ p)

theorem invertible : Invertible where
  read _ _ _ hp hw h := decimal_fixed hp hw h
  readQuantity _ h := decimal_quantityText h
  fixed v _ hp := fixed_denotes v hp
  quantityText := quantityText_denotes
  spelled _ _ _ _ h := decimal_denotes h

/-- **The calculation is exact.**  Without issues there is one line for each line of the
report, in order, that says what the texts imply as numbers; the total is the sum of the
amounts, unless the calculation is held or under review; and the texts that are written are
those of the numbers. -/
theorem calculateVariation_exact (rows : List PreviewReportLine)
    (inputs : List PreviewInvoiceLineInput)
    (h : (calculateVariation rows inputs).issues = []) :
    List.Forall₂ (LineExact inputs) rows (calculateVariation rows inputs).lines ∧
      TotalExact (calculateVariation rows inputs) ∧ Invertible := by
  have hcharges : List.Forall₂ (fun row charge => calculateLine inputs row = .ok charge) rows
      (chargesOf rows inputs) := forall₂_chargesOf h
  have hamounts : ∀ charge ∈ chargesOf rows inputs,
      spelledValue charge.1.amount = some ((charge.2 : ℚ) / 10 ^ 2) := by
    intro charge hcharge
    obtain ⟨row, -, hline⟩ := mem_chargesOf.mp hcharge
    exact (lineExact_of_calculated hline).2
  refine ⟨?_, ⟨fun hstatus => ?_, fun hstatus => ?_⟩, invertible⟩
  · refine List.forall₂_map_right_iff.mpr (hcharges.imp fun row charge hline => ?_)
    exact (lineExact_of_calculated hline).1
  · obtain ⟨amounts, hforall, hsum⟩ := sum_amounts hamounts
    refine ⟨amounts, hforall, ?_⟩
    have hcounted : ¬((calculateVariation rows inputs).status = .held ∨
        (calculateVariation rows inputs).status = .overpaymentReview) := by
      rintro (hother | hother) <;> rw [hother] at hstatus <;>
        rcases hstatus with hstatus | hstatus <;> cases hstatus
    have htotal : (calculateVariation rows inputs).total =
        fixed ((((chargesOf rows inputs).map Prod.snd).sum : ℕ) : ℤ) 2 :=
      if_neg hcounted
    rw [htotal, spelledValue_fixed _ (by decide), hsum]
  · exact if_pos hstatus

theorem calculateVariation_exact_sample :
    let rows : List PreviewReportLine :=
      [⟨"plan-1", "line-1", "Steel coils", .tonnes, some "100.000", "112.5", "agreed reading"⟩]
    List.Forall₂ (LineExact Sample.invoiceInput.lines) rows
        (calculateVariation rows Sample.invoiceInput.lines).lines ∧
      TotalExact (calculateVariation rows Sample.invoiceInput.lines) ∧ Invertible :=
  calculateVariation_exact _ Sample.invoiceInput.lines (by decide +kernel)

end Calculation

end VesselCaller.Closeout
