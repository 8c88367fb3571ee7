import VesselCaller.Closeout.Exactness
import VesselCaller.Closeout.InvoiceDraft
import VesselCaller.Closeout.Reports

/-!
# The gate of the invoice

Before an invoice is drafted, `missingInvoiceDetails` says what is still to be filled in, and
the editor asks more of what was typed in.  `draftInvoice` checks its input once more.  The
checks line up but for two of them (`invoice_gate`).

The declaration and the editor take an amount paid of up to thirty-two digits before the
point, `draftInvoice` of up to fifteen.  And whether a line is charged is asked with two
parsers: that of the comparison does not read a text of more than two hundred code units,
however few of them are not space, so that the gate may find nothing to charge and not ask
whether the declaration has been paid.

## Main definitions

* `AcceptedDeclaration`, `AcceptedTariff` — what the two forms let be saved;
* `Charged`, `Holds`, `ChargesUnread` — what a line does to the draft;
* `Draftable` — the inputs of which the draft takes what the gate has let through.
-/

namespace VesselCaller.Closeout

open Lib
open Comparison (quantityDifference startsWith Denotes jsLength)

/-! ## Two parsers -/

/-- A short text that the calculation reads denotes the same number in comparisons. -/
theorem denotes_of_decimal {text : String} {p w n : ℕ} (h : decimal (some text) p w = some n)
    (hlength : jsLength text ≤ 200) : Denotes (some text) ((n : ℚ) / 10 ^ p) := by
  rw [decimal_some] at h
  obtain ⟨whole, fraction, hparts, -, hplaces, rfl⟩ := readScaled_eq_some.mp h
  obtain ⟨hne, hwhole, hfraction, htext⟩ := numeralParts_eq_some.mp hparts
  have hpointed : (trim text).toList = whole ++ pointed fraction := htext
  have hvalue : (scaledValue p whole fraction : ℚ) / 10 ^ p = decimalValue whole fraction :=
    scaledValue_div hplaces
  have hnonneg : 0 ≤ decimalValue whole fraction := by
    unfold decimalValue
    positivity
  refine ⟨text, ⟨.none, whole, fraction, none, .inl hne, hwhole, hfraction⟩, rfl,
    ⟨hlength, ?_, ?_, ?_⟩, ?_⟩
  · simp [Numeral.chars, Sign.chars, Numeral.exponentChars, hpointed]
  · simp [Numeral.scale]
  · simpa [Numeral.value, Sign.factor, Numeral.scale] using hnonneg
  · simp [Numeral.value, Sign.factor, Numeral.scale, hvalue]

/-- A text of the line is longer than comparisons read. -/
def Overlong (line : PreviewReportLine) : Prop :=
  200 < jsLength line.quantity ∨ 200 < jsLength (line.declaredQuantity.getD "")

/-- The comparison finds a line above its declaration where the calculation does. -/
theorem aboveDeclaration_iff {line : PreviewReportLine} {final declared : ℕ}
    (hfinal : decimal (some line.quantity) 6 15 = some final)
    (hdeclared : decimal line.declaredQuantity 6 15 = some declared) (hshort : ¬Overlong line) :
    aboveDeclaration line.quantity line.declaredQuantity = true ↔ declared < final := by
  obtain ⟨hquantity, hdeclaration⟩ := not_or.mp hshort
  obtain ⟨text, htext⟩ : ∃ text, line.declaredQuantity = some text := by
    cases hd : line.declaredQuantity with
    | none =>
        rw [hd] at hdeclared
        cases hdeclared
    | some text => exact ⟨text, rfl⟩
  rw [htext] at hdeclared hdeclaration ⊢
  obtain ⟨difference, hdifference, hsaid⟩ := Comparison.quantityDifference_pronounces
    (denotes_of_decimal hfinal (not_lt.mp hquantity))
    (denotes_of_decimal hdeclared (not_lt.mp hdeclaration))
  have hzero := hsaid.zero
  have hminus := hsaid.minus
  have hpow : (0 : ℚ) < 10 ^ 6 := by norm_num
  rw [← sub_div] at hzero hminus
  rw [div_eq_zero_iff, or_iff_left hpow.ne', sub_eq_zero] at hzero
  rw [div_lt_iff₀ hpow, zero_mul, sub_neg] at hminus
  unfold aboveDeclaration
  rw [hdifference, Option.any_some, Bool.and_eq_true, decide_eq_true_eq, ne_eq, hzero,
    Bool.not_eq_true', ← Bool.not_eq_true, hminus]
  norm_cast
  omega

/-! ## What the calculation charges -/

/-- The numbers read for a line of a report. -/
def figuresOf (inputs : List PreviewInvoiceLineInput) (line : PreviewReportLine) :
    Option LineFigures :=
  (inputFor inputs line).bind (lineFigures line)

/-- The line is charged. -/
def Charged (inputs : List PreviewInvoiceLineInput) (line : PreviewReportLine) : Prop :=
  ∃ f, figuresOf inputs line = some f ∧ f.status = .charge

/-- The line holds the invoice. -/
def Holds (inputs : List PreviewInvoiceLineInput) (line : PreviewReportLine) : Prop :=
  ∃ f, figuresOf inputs line = some f ∧ (f.status = .held ∨ f.status = .overpaymentReview)

/-- A line is charged of which a text is longer than comparisons read, and no line holds the
invoice. -/
def ChargesUnread (report : PreviewReport) (inputs : List PreviewInvoiceLineInput) : Prop :=
  (∃ line ∈ report.lines, Overlong line ∧ Charged inputs line) ∧
    ∀ line ∈ report.lines, ¬Holds inputs line

theorem LineFigures.charge_iff {f : LineFigures} : f.status = .charge ↔
    f.status ≠ .held ∧ f.status ≠ .overpaymentReview ∧ 0 < f.amount := by
  unfold LineFigures.status lineStatusOf
  split
  · simp
  · split
    · simp
    · split <;> simp_all

/-- What is charged is above the declaration. -/
theorem LineFigures.lt_of_charge {f : LineFigures} (h : f.status = .charge) :
    f.baseline < f.final := by
  have hamount := (LineFigures.charge_iff.mp h).2.2
  have hentitlement : 0 < f.entitlement := hamount.trans_le LineFigures.amount_le_entitlement
  unfold LineFigures.entitlement entitlementOf at hentitlement
  split at hentitlement
  · rename_i hvariance
    unfold LineFigures.variance at hvariance
    omega
  · exact absurd hentitlement (lt_irrefl 0)

section Calculation

variable {rows : List PreviewReportLine} {inputs : List PreviewInvoiceLineInput}

theorem calculateLine_of_figures {row : PreviewReportLine} {charge : PreviewInvoiceLine × ℕ} :
    calculateLine inputs row = .ok charge ↔ ∃ f, figuresOf inputs row = some f ∧
      ∃ input, inputFor inputs row = some input ∧ charge = (invoiceLine row input f, f.amount) := by
  rw [calculateLine_eq_ok]
  constructor
  · rintro ⟨input, f, hinput, hf, rfl⟩
    exact ⟨f, by rw [figuresOf, hinput, Option.bind_some, hf], input, hinput, rfl⟩
  · rintro ⟨f, hf, input, hinput, rfl⟩
    rw [figuresOf, hinput, Option.bind_some] at hf
    exact ⟨input, f, hinput, hf, rfl⟩

/-- Some line is calculated with figures that meet `P`. -/
theorem exists_charge_iff {P : LineFigures → Prop} {Q : PreviewInvoiceLine × ℕ → Prop}
    (h : ∀ row input f, Q (invoiceLine row input f, f.amount) ↔ P f) :
    (∃ charge ∈ chargesOf rows inputs, Q charge) ↔
      ∃ row ∈ rows, ∃ f, figuresOf inputs row = some f ∧ P f := by
  constructor
  · rintro ⟨charge, hcharge, hQ⟩
    obtain ⟨row, hrow, hline⟩ := mem_chargesOf.mp hcharge
    obtain ⟨f, hf, input, -, rfl⟩ := calculateLine_of_figures.mp hline
    exact ⟨row, hrow, f, hf, (h row input f).mp hQ⟩
  · rintro ⟨row, hrow, f, hf, hP⟩
    obtain ⟨input, hinput, -⟩ := Option.bind_eq_some_iff.mp hf
    refine ⟨_, mem_chargesOf.mpr ⟨row, hrow, calculateLine_of_figures.mpr
      ⟨f, hf, input, hinput, rfl⟩⟩, (h row input f).mpr hP⟩

/-- An invoice is drafted where some line is charged and none holds it. -/
theorem status_draft_iff (hissues : (calculateVariation rows inputs).issues = []) :
    (calculateVariation rows inputs).status = .draft ↔
      (∃ row ∈ rows, Charged inputs row) ∧ ∀ row ∈ rows, ¬Holds inputs row := by
  -- The flags over all lines are statements about single lines.
  have hstatus : ∀ status : PreviewLineStatus,
      ((chargesOf rows inputs).map Prod.fst).any (·.status = status) = true ↔
        ∃ row ∈ rows, ∃ f, figuresOf inputs row = some f ∧ f.status = status := by
    intro status
    rw [List.any_map, List.any_eq_true]
    refine exists_charge_iff (P := fun f => f.status = status) fun row input f => ?_
    rw [Function.comp_apply, decide_eq_true_eq]
    rfl
  -- No amount is negative, so a positive sum needs one positive line.
  have hsum : ((chargesOf rows inputs).map Prod.snd).sum > 0 ↔
      ∃ row ∈ rows, ∃ f, figuresOf inputs row = some f ∧ 0 < f.amount := by
    rw [gt_iff_lt, List.sum_pos_iff_exists_pos_nat]
    simp only [List.mem_map, exists_exists_and_eq_and]
    exact exists_charge_iff (P := fun f => 0 < f.amount) fun row input f => Iff.rfl
  have hissues : calculationIssues rows inputs = [] := hissues
  show variationStatus _ _ _ = .draft ↔ _
  unfold variationStatus
  rw [hissues]
  simp only [ne_eq, not_true_eq_false, false_or, hstatus, hsum]
  constructor
  · intro h
    split at h
    · cases h
    rename_i hheld
    split at h
    · cases h
    rename_i hreview
    split at h
    · rename_i hpositive
      obtain ⟨row, hrow, f, hf, hamount⟩ := hpositive
      refine ⟨⟨row, hrow, f, hf, LineFigures.charge_iff.mpr ⟨?_, ?_, hamount⟩⟩, ?_⟩
      · exact fun hstatus => hheld ⟨row, hrow, f, hf, hstatus⟩
      · exact fun hstatus => hreview ⟨row, hrow, f, hf, hstatus⟩
      · rintro row hrow ⟨f, hf, hstatus | hstatus⟩
        · exact hheld ⟨row, hrow, f, hf, hstatus⟩
        · exact hreview ⟨row, hrow, f, hf, hstatus⟩
    · cases h
  · rintro ⟨⟨row, hrow, f, hf, hcharge⟩, hnone⟩
    have hamount := (LineFigures.charge_iff.mp hcharge).2.2
    rw [if_neg, if_neg, if_pos ⟨row, hrow, f, hf, hamount⟩]
    · rintro ⟨row, hrow, f, hf, hstatus⟩
      exact hnone row hrow ⟨f, hf, .inr hstatus⟩
    · rintro ⟨row, hrow, f, hf, hstatus⟩
      exact hnone row hrow ⟨f, hf, .inl hstatus⟩

end Calculation

/-! ## The checks of the draft -/

/-- The amount has at most fifteen digits before the point. -/
def AmountFits (text : String) : Prop :=
  ((trim text).toList.takeWhile Char.isDigit).length ≤ 15

instance (text : String) : Decidable (AmountFits text) := by
  unfold AmountFits
  infer_instance

/-- The draft can do with the amount paid, and where the declaration has not been paid, it
charges nothing the gate has not read. -/
def Draftable (report : PreviewReport) (input : PreviewInvoiceInput) : Prop :=
  AmountFits input.originalPaidAmount ∧
    (input.paymentStatus = .paid ∨ ¬ChargesUnread report input.lines)

/-- Of the amounts that are taken, the draft reads those that fit. -/
theorem paidAmount_iff {text : String} (h : text = "" ∨ validMoney text = true) :
    (text = "" ∨ (decimal (some text) 2 15).isSome = true) ↔ AmountFits text := by
  rcases h with rfl | hvalid
  · exact iff_of_true (.inl rfl) (by decide)
  obtain ⟨n, hn⟩ := Option.isSome_iff_exists.mp hvalid
  rw [decimal_some] at hn
  obtain ⟨whole, fraction, hparts, -, hplaces, -⟩ := readScaled_eq_some.mp hn
  have htake : (trim text).toList.takeWhile Char.isDigit = whole := takeWhile_numeralParts hparts
  have hblank : text ≠ "" := by
    rintro rfl
    cases hvalid
  rw [or_iff_right hblank, AmountFits, htake]
  constructor
  · intro hsome
    obtain ⟨m, hm⟩ := Option.isSome_iff_exists.mp hsome
    rw [decimal_some] at hm
    obtain ⟨whole', fraction', hparts', hlength, -, -⟩ := readScaled_eq_some.mp hm
    cases hparts.symm.trans hparts'
    exact hlength
  · intro hlength
    rw [decimal_some]
    exact isSome_of_eq_some (readScaled_eq_some.mpr
      ⟨whole, fraction, hparts, hlength, hplaces, rfl⟩)

/-- Without anything missing, no line is above its declaration or the declaration is paid. -/
theorem missingInvoiceDetails_eq_nil {input : PreviewInvoiceInput} {report : PreviewReport} :
    missingInvoiceDetails input report = [] ↔ trim input.payer ≠ "" ∧
      trim input.originalInvoiceReference ≠ "" ∧
      (input.paymentStatus = .paid ∨ ∀ line ∈ report.lines,
        aboveDeclaration line.quantity line.declaredQuantity = false) ∧
      trim input.tariffReference ≠ "" ∧ unratedLines input report = [] := by
  have hpaid : ¬(input.paymentStatus ≠ .paid ∧
      report.lines.any (fun line => aboveDeclaration line.quantity line.declaredQuantity) = true) ↔
      input.paymentStatus = .paid ∨ ∀ line ∈ report.lines,
        aboveDeclaration line.quantity line.declaredQuantity = false := by
    rw [not_and_or, not_not, List.any_eq_true]
    simp
  unfold missingInvoiceDetails
  simp only [List.append_eq_nil_iff, ite_eq_right_iff, List.cons_ne_nil, imp_false, hpaid,
    and_assoc, not_not]

/-- **What the gate leaves to the draft.** -/
theorem billable_iff {report : PreviewReport} {input : PreviewInvoiceInput}
    (hmissing : missingInvoiceDetails input report = [])
    (hissues : (calculateVariation report.lines input.lines).issues = [])
    (hamount : input.originalPaidAmount = "" ∨ validMoney input.originalPaidAmount = true)
    (hcurrency : input.currency ∈ currencies)
    (hprevious : (∃ line ∈ input.lines,
        0 < (decimal (some line.previousVariationAmount) 2 15).getD 0) →
      trim input.previousVariationReference ≠ "") :
    Billable report input ↔ Draftable report input := by
  obtain ⟨hpayer, hreference, hpaid, htariff, -⟩ := missingInvoiceDetails_eq_nil.mp hmissing
  -- Where nothing is above its declaration, what is charged has a text that is too long.
  have hunread : input.paymentStatus ≠ .paid →
      ((calculateVariation report.lines input.lines).status = .draft ↔
        ChargesUnread report input.lines) := by
    intro hunpaid
    have hbelow := hpaid.resolve_left hunpaid
    rw [status_draft_iff hissues, ChargesUnread]
    refine and_congr_left fun _ => exists_congr fun line => and_congr_right fun hline => ?_
    refine ⟨fun hcharged => ⟨?_, hcharged⟩, fun h => h.2⟩
    obtain ⟨f, hf, hcharge⟩ := hcharged
    obtain ⟨entry, -, hfigures⟩ := Option.bind_eq_some_iff.mp hf
    obtain ⟨hbaseline, hfinal, -, -⟩ := lineFigures_eq_some.mp hfigures
    by_contra hshort
    have habove := (aboveDeclaration_iff hfinal hbaseline hshort).mpr
      (LineFigures.lt_of_charge hcharge)
    rw [hbelow line hline] at habove
    cases habove
  constructor
  · intro h
    refine ⟨(paidAmount_iff hamount).mp h.paidAmount, ?_⟩
    by_cases hunpaid : input.paymentStatus = .paid
    · exact .inl hunpaid
    · exact .inr fun hcharges => hunpaid (h.paid ((hunread hunpaid).mpr hcharges))
  · rintro ⟨hfits, hcharges⟩
    refine ⟨⟨hpayer, hreference, htariff⟩, (paidAmount_iff hamount).mpr hfits, hcurrency, hissues,
      fun hdraft => ?_, hprevious⟩
    by_contra hunpaid
    exact (hcharges.resolve_left hunpaid) ((hunread hunpaid).mp hdraft)

/-! ## What has been accepted -/

def AcceptedDeclaration (declaration : PaidDeclaration) : Prop :=
  ∃ moment input actor saved after,
    saveDeclaration moment input actor saved = .ok (declaration, after)

def AcceptedTariff (tariff : VariationTariff) : Prop :=
  ∃ key moment input actor, saveTariff key moment input actor = .ok tariff

/-- A declaration that was accepted has a currency and an amount, or none. -/
theorem AcceptedDeclaration.valid {declaration : PaidDeclaration}
    (h : AcceptedDeclaration declaration) : declaration.currency ∈ currencies ∧
      (declaration.amountPaid = "" ∨ validMoney declaration.amountPaid = true) := by
  obtain ⟨moment, input, actor, saved, after, h⟩ := h
  have hvalid := (saveDeclaration_eq_ok h).2
  simpa [validDeclaration] using hvalid

theorem validRate_eq (text : String) : validRate text = (decimal (some text) 4 11).isSome :=
  fixedPattern_trim 11 4 text

/-- The rates of a tariff that was accepted are blank or numbers. -/
theorem AcceptedTariff.rates {tariff : VariationTariff} (h : AcceptedTariff tariff) {k rate : String}
    (hrate : tariff.rates k = some rate) : rate = "" ∨ validRate rate = true := by
  obtain ⟨key, moment, input, actor, h⟩ := h
  unfold saveTariff at h
  obtain ⟨_, -, h⟩ := bind_eq_ok.mp h
  obtain ⟨_, -, h⟩ := bind_eq_ok.mp h
  obtain ⟨_, hinvalid, h⟩ := bind_eq_ok.mp h
  obtain ⟨_, -, h⟩ := bind_eq_ok.mp h
  rw [raiseSome_eq_ok, Option.map_eq_none_iff, List.find?_eq_none] at hinvalid
  cases h
  obtain ⟨entry, hentry, rfl⟩ := Option.map_eq_some_iff.mp hrate
  have hchecked := hinvalid entry (List.mem_of_find?_eq_some hentry)
  by_cases hblank : trim (enteredRate input.rates entry) = ""
  · exact .inl hblank
  · right
    rw [validRate_eq, decimal_trim, ← validRate_eq]
    simpa [hblank] using hchecked

/-! ## The gate -/

section Gate

variable {report : PreviewReport} {plans : List MeasurementPlan}
  {declaration : Option PaidDeclaration} {tariff : Option VariationTariff}

/-- A rate is blank or a number. -/
theorem rate_valid (htariff : ∀ t ∈ tariff, AcceptedTariff t) (sources : List MeasurementPlan)
    (line : PreviewReportLine) (hblank : (invoiceLineInputFor sources tariff line).rate ≠ "") :
    (decimal (some (invoiceLineInputFor sources tariff line).rate) 4 15).isSome = true := by
  unfold invoiceLineInputFor at hblank ⊢
  dsimp only at hblank ⊢
  split at hblank
  · rename_i hrate
    rw [if_pos hrate]
    -- The rate is one of the tariff.
    obtain ⟨t, ht, k, hk⟩ : ∃ t ∈ tariff, ∃ k, t.rates k =
        some (rateFor tariff (cargoOf sources line)) := by
      unfold rateFor at hrate ⊢
      cases hfound : (cargoOf sources line).bind tariffKeyFor with
      | none =>
          rw [hfound] at hrate
          exact absurd rfl hrate
      | some k =>
          rw [hfound, Option.bind_some] at hrate
          cases htariff : tariff with
          | none =>
              rw [htariff] at hrate
              exact absurd rfl hrate
          | some t =>
              rw [htariff, Option.bind_some] at hrate
              rw [Option.bind_some, Option.bind_some]
              cases hentry : t.rates k with
              | none =>
                  rw [hentry] at hrate
                  exact absurd rfl hrate
              | some rate => exact ⟨t, rfl, k, hentry⟩
    have hvalid := ((htariff t ht).rates hk).resolve_left hrate
    rw [validRate_eq] at hvalid
    obtain ⟨n, hn⟩ := Option.isSome_iff_exists.mp hvalid
    rw [decimal_some] at hn ⊢
    exact isSome_of_eq_some (readScaled_of_le hn le_rfl (by decide))
  · rename_i hrate
    rw [if_neg hrate]
    split at hblank
    · exact absurd rfl hblank
    · rename_i habove
      rw [if_neg habove]
      decide

/-- The calculation over the input made for a sound report has no issues where every line has
a rate. -/
theorem issues_invoiceInputFor (hreport : SoundReport report)
    (htariff : ∀ t ∈ tariff, AcceptedTariff t)
    (hrated : unratedLines (invoiceInputFor report plans declaration tariff) report = []) :
    (calculateVariation report.lines
      (invoiceInputFor report plans declaration tariff).lines).issues = [] := by
  have hkeys : ∀ line, (invoiceLineInputFor (plans ++ report.sourcePlans) tariff line).planId =
      line.planId ∧
        (invoiceLineInputFor (plans ++ report.sourcePlans) tariff line).lineId = line.lineId :=
    fun line => ⟨rfl, rfl⟩
  have hpairs : (report.lines.map fun line => (line.planId, line.lineId)).Nodup := by
    refine List.Nodup.of_map (fun pair : String × String => lineKey pair.1 pair.2) ?_
    rw [List.map_map]
    exact hreport.keys
  refine calculationIssues_eq_nil.mpr ⟨?_, List.length_map _, fun line hline => ?_⟩
  · rw [invoiceInputFor, List.map_map]
    exact hreport.keys
  have hfound : inputFor (invoiceInputFor report plans declaration tariff).lines line =
      some (invoiceLineInputFor (plans ++ report.sourcePlans) tariff line) :=
    inputFor_map hkeys hpairs hline
  obtain ⟨declared, hdeclared⟩ := Option.isSome_iff_exists.mp (hreport.declared line hline)
  obtain ⟨final, hfinal⟩ := Option.isSome_iff_exists.mp (hreport.quantities line hline)
  have hrate : (invoiceLineInputFor (plans ++ report.sourcePlans) tariff line).rate ≠ "" := by
    intro hblank
    have hnone := List.filter_eq_nil_iff.mp hrated line hline
    rw [hfound, Option.map_some, hblank] at hnone
    exact hnone (by decide)
  obtain ⟨rate, hrate⟩ := Option.isSome_iff_exists.mp (rate_valid htariff _ line hrate)
  have hprevious : decimal (some "0") 2 15 = some 0 := by decide
  have hfigures : lineFigures line
      (invoiceLineInputFor (plans ++ report.sourcePlans) tariff line) =
        some ⟨declared, final * 10 ^ (6 - 3), rate, 0⟩ :=
    lineFigures_eq_some.mpr ⟨hdeclared, decimal_of_le hfinal (by decide), hrate, hprevious⟩
  exact ⟨_, calculateLine_eq_ok.mpr ⟨_, _, hfound, hfigures, rfl⟩⟩

/-- The input made for a sound report can be billed where its draft is possible. -/
theorem billable_invoiceInputFor (hreport : SoundReport report)
    (hdeclaration : ∀ d ∈ declaration, AcceptedDeclaration d)
    (htariff : ∀ t ∈ tariff, AcceptedTariff t)
    (hmissing :
      missingInvoiceDetails (invoiceInputFor report plans declaration tariff) report = []) :
    Billable report (invoiceInputFor report plans declaration tariff) ↔
      Draftable report (invoiceInputFor report plans declaration tariff) := by
  obtain ⟨hpayer, -, -, htariffReference, hrated⟩ := missingInvoiceDetails_eq_nil.mp hmissing
  -- Without a declaration there is no payer, without a tariff no reference of one.
  have hblank : trim "" = "" := by decide
  obtain ⟨d, rfl⟩ : ∃ d, declaration = some d := by
    cases declaration with
    | none => exact absurd hblank hpayer
    | some d => exact ⟨d, rfl⟩
  obtain ⟨t, rfl⟩ : ∃ t, tariff = some t := by
    cases tariff with
    | none => exact absurd hblank htariffReference
    | some t => exact ⟨t, rfl⟩
  refine billable_iff hmissing (issues_invoiceInputFor hreport htariff hrated)
    (hdeclaration d rfl).valid.2 t.currency.property ?_
  rintro ⟨line, hline, hpositive⟩
  obtain ⟨row, -, rfl⟩ := List.mem_map.mp hline
  exact absurd hpositive (by decide : ¬0 < (decimal (some "0") 2 15).getD 0)

/-- What the editor lets be saved can be billed where its draft is possible. -/
theorem billable_of_canSave {input : PreviewInvoiceInput} {canEdit : Bool}
    (hcurrency : input.currency ∈ currencies) (h : canSave canEdit report input = true) :
    Billable report input ↔ Draftable report input := by
  simp only [canSave, Bool.and_eq_true, decide_eq_true_eq, Bool.or_eq_true, Bool.not_eq_true',
    ne_eq, decide_not] at h
  obtain ⟨⟨⟨⟨⟨-, hmissing⟩, -⟩, hissues⟩, hprevious⟩, hamount⟩ := h
  refine billable_iff hmissing hissues hamount hcurrency ?_
  rintro ⟨line, hline, hpositive⟩
  refine of_decide_eq_false (hprevious.resolve_left fun hno => ?_)
  obtain ⟨n, hn⟩ : ∃ n, decimal (some line.previousVariationAmount) 2 15 = some n := by
    cases hd : decimal (some line.previousVariationAmount) 2 15 with
    | none =>
        rw [hd] at hpositive
        exact absurd hpositive (lt_irrefl 0)
    | some n => exact ⟨n, rfl⟩
  rw [hn] at hpositive
  have hwide : decimal (some line.previousVariationAmount) 2 32 = some n := by
    rw [decimal_some] at hn ⊢
    have hle : 15 ≤ 32 := by decide
    simpa using readScaled_of_le hn le_rfl hle
  have hhas : hasPrevious input = true := by
    refine List.any_eq_true.mpr ⟨line, hline, ?_⟩
    rw [positiveAmount, hwide]
    exact decide_eq_true hpositive
  rw [hhas] at hno
  cases hno

end Gate

section Drafts

variable {rt : Runtime} {moment : Moment} {saved : CloseoutRecord} {actor : Actor}
  {report : PreviewReport} {input : PreviewInvoiceInput}

theorem draftInvoice_isOk_iff :
    (∃ result, draftInvoice rt moment saved report input actor = .ok result) ↔
      Billable report input := by
  constructor
  · rintro ⟨⟨invoice, after⟩, h⟩
    exact billable_of_draftInvoice h
  · exact fun h => ⟨_, draftInvoice_of_billable h⟩

theorem createInvoice_isOk_iff {plans : List MeasurementPlan}
    (hcurrent : currentReport rt plans saved = some report) :
    (∃ result, createInvoice rt moment plans report.id input actor saved = .ok result) ↔
      Billable report input := by
  have hfound : (currentReport rt plans saved).filter (fun r => r.id = report.id) =
      some report := by
    rw [hcurrent, Option.filter_some, if_pos (decide_eq_true rfl)]
  unfold createInvoice
  rw [orRaise_of_some hfound, ok_bind]
  exact draftInvoice_isOk_iff

end Drafts

/-- **What the gate of the invoice leaves open.**  For the current report of a run, the input
that has nothing missing is drafted, and the input that the editor lets be saved creates an
invoice, exactly where the amount paid fits and no charge is unread. -/
theorem invoice_gate (rt : Runtime) {start : LocalStorage} {rs : List Request}
    (hstart : ∀ key callId, (start.record key callId).reports = [])
    (hserver : ∀ r ∈ rs, ∀ plans, r.call.plans = some plans → DistinctLines plans)
    {key callId : String} {plans : List MeasurementPlan} {report : PreviewReport}
    (hcurrent : currentReport rt plans
      ((run (handle rt) start rs).record key callId) = some report) :
    (∀ declaration tariff, (∀ d ∈ declaration, AcceptedDeclaration d) →
      (∀ t ∈ tariff, AcceptedTariff t) →
      missingInvoiceDetails (invoiceInputFor report plans declaration tariff) report = [] →
      ∀ moment saved actor, (∃ result, draftInvoice rt moment saved report
          (invoiceInputFor report plans declaration tariff) actor = .ok result) ↔
        Draftable report (invoiceInputFor report plans declaration tariff)) ∧
    ∀ input canEdit, input.currency ∈ currencies → canSave canEdit report input = true →
      ∀ moment actor, (∃ result, createInvoice rt moment plans report.id input actor
          ((run (handle rt) start rs).record key callId) = .ok result) ↔
        Draftable report input := by
  obtain ⟨sheets, input, hdistinct, hsubmitted⟩ := run_submitted (P := DistinctLines)
    (fun key callId report hreport => by
      rw [hstart key callId] at hreport
      cases hreport) hserver key callId report (mem_of_currentReport hcurrent).1
  have hsound : SoundReport report := hsubmitted.sound hdistinct.active
  constructor
  · intro declaration tariff hdeclaration htariff hmissing moment saved actor
    rw [draftInvoice_isOk_iff]
    exact billable_invoiceInputFor hsound hdeclaration htariff hmissing
  · intro input canEdit hcurrency hsave moment actor
    rw [createInvoice_isOk_iff hcurrent]
    exact billable_of_canSave hcurrency hsave

/-! ## The sample voyage -/

namespace Sample

def ratedPlan : MeasurementPlan :=
  { plan with lines := [{ cargoLine with category := "General cargo" }] }

/-- The report of the voyage is submitted and approved. -/
def ratedCalls : List Request := [
  request 0 (.submitReport [ratedPlan] reportInput preparer),
  request 1 (.approveReport [ratedPlan] "uuid-0-0" reviewer none)]

def ratedRecord : CloseoutRecord := (run (handle runtime) start ratedCalls).record key "call-1"

/-- The declaration, with the amount that has been paid. -/
def paidDeclaration (amountPaid : String) : PaidDeclaration where
  payer := "Owner"
  agent := ""
  invoiceReference := "INV-1"
  amountPaid := amountPaid
  currency := "USD"
  paidOn := ""
  paymentStatus := .paid
  updatedAt := "2026-01-01T00:00:00"
  updatedBy := preparer

def tariffInput : VariationTariffInput where
  currency := ⟨"USD", usd_mem_currencies⟩
  reference := "T-1"
  rates k := if k = "general:tonnes" then some "3.2500" else none

def tariff : VariationTariff where
  toVariationTariffInput := { tariffInput with
    reference := trim "T-1"
    rates := fun k => (tariffRates.find? fun rate => rate.key = k).map fun rate =>
      trim (enteredRate tariffInput.rates rate) }
  updatedAt := "2026-01-01T00:00:00"
  updatedBy := preparer

theorem accepted_paidDeclaration {amountPaid : String} (htrim : trim amountPaid = amountPaid)
    (hamount : validMoney amountPaid = true) :
    AcceptedDeclaration (paidDeclaration amountPaid) := by
  have hOwner : trim "Owner" = "Owner" := by decide
  have hblank : trim "" = "" := by decide
  have hreference : trim "INV-1" = "INV-1" := by decide
  refine ⟨moment 0, ⟨"Owner", "", "INV-1", amountPaid, "USD", "", .paid⟩, preparer, ratedRecord,
    { ratedRecord with declaration := some (paidDeclaration amountPaid) }, ?_⟩
  unfold saveDeclaration
  dsimp only
  rw [htrim, raiseIf_of_not (by decide), ok_bind, raiseIf_of_not (by simp [hamount]), ok_bind,
    raiseIf_of_not (by simp), ok_bind, hOwner, hblank, hreference]
  rfl

theorem accepted_tariff : AcceptedTariff tariff := by
  have hvalid : tariffRates.find? (fun rate => trim (enteredRate tariffInput.rates rate) ≠ "" &&
      !validRate (enteredRate tariffInput.rates rate)) = none := by decide
  refine ⟨some "tariff", moment 0, tariffInput, preparer, ?_⟩
  unfold saveTariff
  dsimp only
  rw [hvalid]
  rw [raiseIf_of_not (by decide), ok_bind, raiseIf_of_not (by decide), ok_bind]
  rfl

/-- The input for the report of the voyage. -/
def ratedInput (report : PreviewReport) (amountPaid : String) : PreviewInvoiceInput :=
  invoiceInputFor report [ratedPlan] (some (paidDeclaration amountPaid)) (some tariff)

/-- The current report, with nothing missing for its invoice. -/
theorem exists_ratedReport (amountPaid : String)
    (h : ((currentReport runtime [ratedPlan] ratedRecord).any fun report =>
      missingInvoiceDetails (ratedInput report amountPaid) report = []) = true) :
    ∃ report, currentReport runtime [ratedPlan] ratedRecord = some report ∧
      missingInvoiceDetails (ratedInput report amountPaid) report = [] := by
  cases hreport : currentReport runtime [ratedPlan] ratedRecord with
  | none =>
      rw [hreport] at h
      cases h
  | some report =>
      rw [hreport, Option.any_some] at h
      exact ⟨report, rfl, of_decide_eq_true h⟩

end Sample

/-- An amount of sixteen digits is taken by the declaration and asked for by nothing else, but
no invoice can be drafted. -/
theorem long_amount_not_drafted : ∃ report declaration tariff,
    currentReport Sample.runtime [Sample.ratedPlan] Sample.ratedRecord = some report ∧
      AcceptedDeclaration declaration ∧ AcceptedTariff tariff ∧
      missingInvoiceDetails
        (invoiceInputFor report [Sample.ratedPlan] (some declaration) (some tariff)) report = [] ∧
      ∀ moment saved actor result, draftInvoice Sample.runtime moment saved report
        (invoiceInputFor report [Sample.ratedPlan] (some declaration) (some tariff)) actor ≠
          .ok result := by
  obtain ⟨report, hreport, hmissing⟩ :=
    Sample.exists_ratedReport "1000000000000000" (by decide)
  refine ⟨report, Sample.paidDeclaration "1000000000000000", Sample.tariff, hreport,
    Sample.accepted_paidDeclaration (by decide) (by decide +kernel),
    Sample.accepted_tariff, hmissing, fun moment saved actor result h => ?_⟩
  have hpaid : "1000000000000000" = "" ∨
      (decimal (some "1000000000000000") 2 15).isSome = true :=
    (draftInvoice_isOk_iff.mp ⟨result, h⟩).paidAmount
  revert hpaid
  decide

/-- An amount of six digits, and the invoice is drafted and created. -/
theorem invoice_gate_sample : ∃ report,
    currentReport Sample.runtime [Sample.ratedPlan] Sample.ratedRecord = some report ∧
      (∃ result, draftInvoice Sample.runtime (Sample.moment 3) Sample.ratedRecord report
        (Sample.ratedInput report "1000.00") Sample.reviewer = .ok result) ∧
      ∃ result, createInvoice Sample.runtime (Sample.moment 3) [Sample.ratedPlan] report.id
        (Sample.ratedInput report "1000.00") Sample.reviewer Sample.ratedRecord = .ok result := by
  obtain ⟨report, hreport, hmissing⟩ :=
    Sample.exists_ratedReport "1000.00" (by decide)
  have hserver : ∀ r ∈ Sample.ratedCalls, ∀ plans, r.call.plans = some plans →
      DistinctLines plans := by
    have hdistinct : DistinctLines [Sample.ratedPlan] := by
      refine ⟨by decide, fun plan hplan => ?_⟩
      rw [List.mem_singleton.mp hplan]
      decide
    intro r hr plans hplans
    rcases List.mem_cons.mp hr with rfl | hr
    · exact Option.some.inj hplans ▸ hdistinct
    · rw [List.mem_singleton.mp hr] at hplans
      exact Option.some.inj hplans ▸ hdistinct
  have hstart : ∀ key callId, (Sample.start.record key callId).reports = [] := fun _ _ => rfl
  obtain ⟨hdraft, hcreate⟩ := invoice_gate Sample.runtime hstart hserver hreport
  have hdraftable : Draftable report (Sample.ratedInput report "1000.00") :=
    ⟨(by decide : AmountFits "1000.00"), .inl rfl⟩
  have hsave : ((currentReport Sample.runtime [Sample.ratedPlan] Sample.ratedRecord).all
      fun report => canSave true report (Sample.ratedInput report "1000.00")) = true := by
    decide
  rw [hreport, Option.all_some] at hsave
  refine ⟨report, hreport, (hdraft _ _ ?_ ?_ hmissing _ _ _).mpr hdraftable,
    (hcreate _ true (by decide : "USD" ∈ currencies) hsave _ _).mpr hdraftable⟩
  · rintro d ⟨⟩
    exact Sample.accepted_paidDeclaration (by decide) (by decide +kernel)
  · rintro t ⟨⟩
    exact Sample.accepted_tariff

end VesselCaller.Closeout
