import VesselCaller.Closeout.Exactness
import VesselCaller.Measurements.Arithmetic
import VesselCaller.Measurements.ConfigurationLock

/-!
# Client and server charge the same

`calculateVariation` computes a disparity charge in the client with integers of three scales,
`create_assessment` on the server with decimals of 28 digits.  Given the same quantities,
rates and earlier charges, they agree: a variance in units of `10^(-6)` is a thousand times
one in units of `10^(-3)`, and dividing half up by `10^8` is then rounding half up by five
decimals (`entitlementOf_units`).

The server keeps the sign of an amount and holds the assessment where one is negative, the
client clamps it at zero and holds the line; so the totals are compared only where no line is
held, and there the two amounts of each line are equal (`SameFigures.amount`).

## Main definitions

* `ReadsAs` — a text that the client reads as a number of units;
* `SameLine`, `SameLines` — a calculation and a request about the same lines;
* `Agrees` — issues, amounts, status and total are those of the assessment.
-/

namespace VesselCaller.Closeout

open Lib

/-! ## The same request, said twice -/

/-- The client reads a text as a number of units of `10^(-p)`. -/
def ReadsAs (value : Option String) (p : ℕ) (units : ℤ) : Prop :=
  ∃ n : ℕ, decimal value p 15 = some n ∧ (n : ℤ) = units

/-- A line of a report and what is entered for it say what a line of a request says, where
nothing is tolerated: the quantities of the reconciliation, the rate and all that was charged
before. -/
structure SameLine (text : Id → String) (invoices : List Billing.Invoice)
    (p : Measurements.MeasurementPlan) (r : Measurements.Reconciliation)
    (row : PreviewReportLine) (item : Measurements.AssessmentLineInput)
    (input : PreviewInvoiceLineInput) : Prop where
  planId : row.planId = text p.id
  lineId : row.lineId = text item.lineId
  inputPlan : input.planId = text p.id
  inputLine : input.lineId = text item.lineId
  quantities : ∃ final, r.lines.find? (fun l => l.lineId = item.lineId) = some final ∧
    ∃ manifest, final.manifestQuantity = some manifest ∧
      ReadsAs row.declaredQuantity 6 (1000 * manifest) ∧
      ReadsAs (some row.quantity) 6 (1000 * final.quantity)
  rate : ReadsAs (some input.rate) 4 item.rate.value
  previous : ReadsAs (some input.previousVariationAmount) 2
    (item.openingBilledAmount.value + Measurements.priorInvoiced invoices p item.lineId)
  tolerance : item.tolerance.value = 0

/-- A calculation and a request are about the same lines, in whatever orders. -/
structure SameLines (text : Id → String) (invoices : List Billing.Invoice)
    (p : Measurements.MeasurementPlan) (r : Measurements.Reconciliation)
    (data : Measurements.AssessmentInput) (rows : List PreviewReportLine)
    (inputs : List PreviewInvoiceLineInput)
    (entries : List (Measurements.AssessmentLineInput × PreviewInvoiceLineInput)) : Prop where
  policy : data.policy = .manifestDisparity
  lines : List.Forall₂ (fun row entry => SameLine text invoices p r row entry.1 entry.2) rows
    entries
  items : (entries.map Prod.fst).Perm data.lines
  inputs : (entries.map Prod.snd).Perm inputs

/-! ## The same charge, said twice -/

/-- The lines of a calculation and of an assessment have the same figures. -/
structure AgreesLine (text : Id → String) (line : PreviewInvoiceLine)
    (l : Measurements.AssessmentLine) : Prop where
  lineId : line.lineId = text l.lineId
  variance : numeralValue line.variance.toList = some ((l.variance : ℚ) / 10 ^ 3)
  entitlement : spelledValue line.entitlement = some ((l.entitlement : ℚ) / 10 ^ 2)

/-- A calculation comes to what an assessment comes to. -/
structure Agrees (text : Id → String) (v : Variation) (a : Measurements.Assessment) : Prop where
  issues : v.issues = []
  lines : ∃ ls : List Measurements.AssessmentLine, ls.Perm a.lines ∧
    List.Forall₂ (fun line l => AgreesLine text line l ∧
      (v.status = .draft → spelledValue line.amount = some ((l.amount : ℚ) / 10 ^ 2))) v.lines ls
  draft : v.status = .draft ↔ a.status = .ready
  total : v.status = .draft → spelledValue v.total = some ((a.total : ℚ) / 10 ^ 2)
  noCharge : v.status = .noCharge ↔ a.status = .noCharge
  held : (v.status = .held ∨ v.status = .overpaymentReview) ↔ a.status = .held

/-! ## Figures -/

/-- Rounding half up does not depend on the scale of the quantity. -/
theorem entitlementOf_units (v : ℤ) (rate : ℕ) (mode : ToleranceMode) :
    (entitlementOf (1000 * v) rate : ℤ) =
      Operations.money 5 (Measurements.chargeableOf v 0 mode * rate) := by
  by_cases hv : 0 < v
  · obtain ⟨n, rfl⟩ := Int.eq_ofNat_of_zero_le hv.le
    have hcharged : Measurements.chargeableOf (n : ℤ) 0 mode = (n : ℤ) := by
      unfold Measurements.chargeableOf
      rw [if_pos hv]
      cases mode with
      | threshold => rfl
      | deductible => exact sub_zero (n : ℤ)
    have hscaled : (1000 * (n : ℤ)).toNat = 1000 * n := by omega
    have hpos : 1000 * (n : ℤ) > 0 := by omega
    have hproduct : 0 ≤ (n : ℤ) * (rate : ℤ) := by positivity
    rw [hcharged, Operations.money, quantize_of_nonneg 5 hproduct, entitlementOf, if_pos hpos,
      hscaled, mul_assoc]
    push_cast
    generalize (n : ℤ) * (rate : ℤ) = product
    omega
  · have hnone : Measurements.chargeableOf v 0 mode = 0 := if_neg hv
    have hneg : ¬1000 * v > 0 := by omega
    rw [hnone, zero_mul, entitlementOf, if_neg hneg]
    rfl

/-- What holds a line of a calculation. -/
theorem lineStatusOf_held_iff {variance : ℤ} {entitlement previous amount : ℕ} :
    (lineStatusOf variance entitlement previous amount = .held ∨
      lineStatusOf variance entitlement previous amount = .overpaymentReview) ↔
    variance < 0 ∨ (entitlement : ℤ) - previous < 0 := by
  unfold lineStatusOf
  split
  · simp only [reduceCtorEq, or_true, true_iff]
    omega
  · split
    · simp only [reduceCtorEq, or_false, true_iff]
      omega
    · split <;> simp only [reduceCtorEq, or_self, false_iff] <;> omega

/-- An amount is clamped only where it is negative. -/
theorem amountOf_eq_sub {entitlement previous : ℕ} (h : 0 ≤ (entitlement : ℤ) - previous) :
    (amountOf entitlement previous : ℤ) = entitlement - previous := by
  unfold amountOf
  split <;> omega

/-- The numbers of a line of a calculation are those of a line of an assessment. -/
structure SameFigures (f : LineFigures) (l : Measurements.AssessmentLine) : Prop where
  variance : f.variance = 1000 * l.variance
  entitlement : (f.entitlement : ℤ) = l.entitlement
  outstanding : (f.entitlement : ℤ) - f.previous = l.amount

namespace SameFigures

variable {f : LineFigures} {l : Measurements.AssessmentLine}

/-- The line is held on both sides or on none. -/
theorem held (h : SameFigures f l) :
    (f.status = .held ∨ f.status = .overpaymentReview) ↔ l.held = true := by
  have hvariance : f.variance < 0 ↔ l.variance < 0 := by
    rw [h.variance]
    constructor <;> intro hneg <;> linarith
  rw [LineFigures.status, lineStatusOf_held_iff, hvariance, h.outstanding,
    Measurements.AssessmentLine.held, Bool.or_eq_true, decide_eq_true_eq, decide_eq_true_eq]

/-- Where the line is not held, nothing is clamped. -/
theorem amount (h : SameFigures f l) (hheld : l.held = false) : (f.amount : ℤ) = l.amount := by
  rw [Measurements.AssessmentLine.held, Bool.or_eq_false_iff, decide_eq_false_iff_not,
    decide_eq_false_iff_not, not_lt, not_lt] at hheld
  rw [LineFigures.amount, amountOf_eq_sub (h.outstanding ▸ hheld.2), h.outstanding]

end SameFigures

/-! ## Lines -/

/-- A line of a calculation and a line of an assessment were calculated from the same
figures. -/
def Calculated (text : Id → String) (charge : PreviewInvoiceLine × ℕ)
    (l : Measurements.AssessmentLine) : Prop :=
  ∃ row input f, charge = (invoiceLine row input f, f.amount) ∧ input.lineId = text l.lineId ∧
    SameFigures f l

section Lines

variable {text : Id → String} {charge : PreviewInvoiceLine × ℕ}
  {charges : List (PreviewInvoiceLine × ℕ)} {l : Measurements.AssessmentLine}
  {ls : List Measurements.AssessmentLine}

theorem Calculated.agrees (h : Calculated text charge l) : AgreesLine text charge.1 l := by
  obtain ⟨row, input, f, rfl, hline, hsame⟩ := h
  have hvariance : (f.variance : ℚ) / 10 ^ 6 = (l.variance : ℚ) / 10 ^ 3 := by
    rw [hsame.variance]
    push_cast
    ring
  have hentitlement : (f.entitlement : ℚ) = (l.entitlement : ℚ) := by
    exact_mod_cast hsame.entitlement
  refine ⟨hline, ?_, ?_⟩
  · show numeralValue (quantityText f.variance).toList = _
    rw [quantityText_denotes, hvariance]
  · show spelledValue (fixed (f.entitlement : ℤ) 2) = _
    rw [spelledValue_fixed _ (by decide), hentitlement]

theorem Calculated.held (h : Calculated text charge l) :
    (charge.1.status = .held ∨ charge.1.status = .overpaymentReview) ↔ l.held = true := by
  obtain ⟨row, input, f, rfl, _, hsame⟩ := h
  exact hsame.held

theorem Calculated.amount (h : Calculated text charge l) (hheld : l.held = false) :
    (charge.2 : ℤ) = l.amount := by
  obtain ⟨row, input, f, rfl, _, hsame⟩ := h
  exact hsame.amount hheld

theorem Calculated.amountText (h : Calculated text charge l) (hheld : l.held = false) :
    spelledValue charge.1.amount = some ((l.amount : ℚ) / 10 ^ 2) := by
  have hamount : (charge.2 : ℚ) = (l.amount : ℚ) := by exact_mod_cast h.amount hheld
  obtain ⟨row, input, f, rfl, _, _⟩ := h
  show spelledValue (fixed (f.amount : ℤ) 2) = _
  rw [spelledValue_fixed _ (by decide), ← hamount]

/-- The sums of the amounts are equal where no line is held. -/
theorem sum_amounts_eq (h : List.Forall₂ (Calculated text) charges ls)
    (hheld : ∀ l ∈ ls, l.held = false) :
    (((charges.map Prod.snd).sum : ℕ) : ℤ) =
      (ls.map Measurements.AssessmentLine.amount).sum := by
  induction h with
  | nil => rfl
  | cons hline _ ih =>
      rw [List.map_cons, List.map_cons, List.sum_cons, List.sum_cons, Nat.cast_add,
        hline.amount (hheld _ List.mem_cons_self),
        ih fun l hl => hheld l (List.mem_cons_of_mem _ hl)]

/-- Some line is held on both sides or on none. -/
theorem any_held (h : List.Forall₂ (Calculated text) charges ls) :
    (∃ line ∈ charges.map Prod.fst, line.status = .held ∨ line.status = .overpaymentReview) ↔
      ∃ l ∈ ls, l.held = true := by
  constructor
  · rintro ⟨_, hline, hstatus⟩
    obtain ⟨charge, hcharge, rfl⟩ := List.mem_map.mp hline
    obtain ⟨l, hl, hsame⟩ := exists_of_forall₂ h charge hcharge
    exact ⟨l, hl, (Calculated.held hsame).mp hstatus⟩
  · rintro ⟨l, hl, hheld⟩
    obtain ⟨charge, hcharge, hsame⟩ := exists_of_forall₂ h.flip l hl
    exact ⟨charge.1, List.mem_map_of_mem hcharge, (Calculated.held hsame).mpr hheld⟩

end Lines

/-! ## Statuses -/

section Statuses

variable {lines : List PreviewInvoiceLine} {total : ℕ}

/-- A calculation without issues is held where a line is. -/
theorem variationStatus_of_held
    (h : ∃ line ∈ lines, line.status = .held ∨ line.status = .overpaymentReview) :
    variationStatus [] lines total = .held ∨
      variationStatus [] lines total = .overpaymentReview := by
  unfold variationStatus
  split
  · exact .inl rfl
  · rename_i hnone
    obtain ⟨line, hline, hstatus | hstatus⟩ := h
    · refine absurd (.inr (List.any_eq_true.mpr ⟨line, hline, ?_⟩)) hnone
      exact decide_eq_true hstatus
    · have hreview : (lines.any fun line => line.status = .overpaymentReview) = true :=
        List.any_eq_true.mpr ⟨line, hline, decide_eq_true hstatus⟩
      rw [if_pos hreview]
      exact .inr rfl

/-- Otherwise its total decides. -/
theorem variationStatus_of_not_held
    (h : ¬∃ line ∈ lines, line.status = .held ∨ line.status = .overpaymentReview) :
    variationStatus [] lines total = if total > 0 then .draft else .noCharge := by
  have hnone : ∀ status : PreviewLineStatus, status = .held ∨ status = .overpaymentReview →
      (lines.any fun line => line.status = status) = false := by
    intro status hstatus
    rw [List.any_eq_false]
    intro line hline hsame
    exact h ⟨line, hline, of_decide_eq_true hsame ▸ hstatus⟩
  rw [variationStatus, hnone .held (.inl rfl), hnone .overpaymentReview (.inr rfl)]
  simp

end Statuses

/-! ## Inputs -/

section Inputs

variable {text : Id → String} {invoices : List Billing.Invoice}
  {p : Measurements.MeasurementPlan} {r : Measurements.Reconciliation}
  {data : Measurements.AssessmentInput} {rows : List PreviewReportLine}
  {inputs : List PreviewInvoiceLineInput}
  {entries : List (Measurements.AssessmentLineInput × PreviewInvoiceLineInput)}

theorem lineKey_right_inj {planId lineId lineId' : String}
    (h : lineKey planId lineId = lineKey planId lineId') : lineId = lineId' :=
  (String.append_right_inj _).mp h

/-- No cargo line is entered twice. -/
theorem SameLines.nodup (h : SameLines text invoices p r data rows inputs entries)
    (htext : text.Injective) (hnd : (data.lines.map fun item => item.lineId).Nodup) :
    (inputs.map fun input => lineKey input.planId input.lineId).Nodup := by
  have hkeys : ∀ entry ∈ entries, lineKey entry.2.planId entry.2.lineId =
      lineKey (text p.id) (text entry.1.lineId) := by
    intro entry hentry
    obtain ⟨row, _, hline⟩ := exists_of_forall₂ h.lines.flip entry hentry
    rw [hline.inputPlan, hline.inputLine]
  have hmap : (entries.map Prod.snd).map (fun input => lineKey input.planId input.lineId) =
      ((entries.map Prod.fst).map fun item => item.lineId).map
        fun id => lineKey (text p.id) (text id) := by
    rw [List.map_map, List.map_map, List.map_map]
    exact List.map_congr_left hkeys
  have hitems : ((entries.map Prod.fst).map fun item => item.lineId).Nodup :=
    ((h.items.map _).nodup_iff).mpr hnd
  refine (h.inputs.map _).nodup_iff.mp ?_
  rw [hmap]
  exact hitems.map fun m n hmn => htext (lineKey_right_inj hmn)

/-- Each line of the report finds what was entered for it. -/
theorem inputFor_eq_some {row : PreviewReportLine} {input : PreviewInvoiceLineInput}
    (hnd : (inputs.map fun input => lineKey input.planId input.lineId).Nodup)
    (hmem : input ∈ inputs) (hplan : input.planId = row.planId) (hline : input.lineId = row.lineId) :
    inputFor inputs row = some input := by
  have hsome : (inputFor inputs row).isSome = true :=
    List.find?_isSome.mpr ⟨input, hmem, by simp [hplan, hline]⟩
  obtain ⟨found, hfound⟩ := Option.isSome_iff_exists.mp hsome
  have hkeys : found.planId = row.planId ∧ found.lineId = row.lineId := by
    simpa using List.find?_some hfound
  have hsame : lineKey found.planId found.lineId = lineKey input.planId input.lineId := by
    rw [hkeys.1, hkeys.2, hplan, hline]
  rw [hfound, List.inj_on_of_nodup_map hnd (List.mem_of_find?_eq_some hfound) hmem hsame]

/-- The figures of a line of the calculation are those of the line of the assessment. -/
theorem SameLine.calculated {row : PreviewReportLine} {item : Measurements.AssessmentLineInput}
    {input : PreviewInvoiceLineInput}
    {c : Measurements.AssessmentLine × Measurements.ConfigurationLine}
    (h : SameLine text invoices p r row item input)
    (hc : Measurements.assessLine invoices p r .manifestDisparity item = .ok c) :
    ∃ f, lineFigures row input = some f ∧ SameFigures f c.1 := by
  simp only [Measurements.assessLine, bind_eq_ok, orRaise_eq_ok, raiseIf_eq_ok, pure_eq_ok] at hc
  obtain ⟨line, hline, final, hfinal, baseline, hbaseline, _, _, rfl⟩ := hc
  have hid : line.id = item.lineId := (Table.mem_of_get hline).2
  rw [hid] at hfinal
  obtain ⟨final', hfinal', manifest, hmanifest, ⟨declared, hdeclared, hdeclaredUnits⟩,
    quantity, hquantity, hquantityUnits⟩ := h.quantities
  obtain rfl : final' = final := Option.some.inj (hfinal'.symm.trans hfinal)
  obtain ⟨rate, hrate, hrateUnits⟩ := h.rate
  obtain ⟨previous, hprevious, hpreviousUnits⟩ := h.previous
  have hbase : baseline.value = manifest := by
    rw [hmanifest] at hbaseline
    rw [← Option.some.inj hbaseline]
    exact DecimalText.value_ofColumn manifest
  have hvariance : (quantity : ℤ) - declared = 1000 * (final'.quantity - baseline.value) := by
    rw [hdeclaredUnits, hquantityUnits, hbase]
    ring
  have hentitlement : (entitlementOf ((quantity : ℤ) - declared) rate : ℤ) =
      Operations.money 5 (Measurements.chargeableOf (final'.quantity - baseline.value)
        item.tolerance.value item.toleranceMode * item.rate.value) := by
    rw [hvariance, h.tolerance, ← hrateUnits, entitlementOf_units _ _ item.toleranceMode]
  refine ⟨⟨declared, quantity, rate, previous⟩,
    lineFigures_eq_some.mpr ⟨hdeclared, hquantity, hrate, hprevious⟩,
    hvariance, hentitlement, ?_⟩
  show (entitlementOf ((quantity : ℤ) - declared) rate : ℤ) - (previous : ℤ) =
    _ - item.openingBilledAmount.value - Measurements.priorInvoiced invoices p line.id
  rw [hentitlement, hpreviousUnits, hid]
  ring

end Inputs

/-! ## The calculations -/

/-- Two lists that are related row by row stay so when both are computed row by row. -/
theorem forall₂_square {α β γ δ : Type*}
    {R : α → β → Prop} {S : α → γ → Prop} {T : β → δ → Prop} {U : γ → δ → Prop}
    (step : ∀ {a b c d}, R a b → S a c → T b d → U c d) {as : List α} {bs : List β}
    {cs : List γ} {ds : List δ} (hR : List.Forall₂ R as bs) (hS : List.Forall₂ S as cs)
    (hT : List.Forall₂ T bs ds) : List.Forall₂ U cs ds := by
  induction hR generalizing cs ds with
  | nil =>
      cases hS
      cases hT
      exact .nil
  | cons hhead _ ih =>
      cases hS with
      | cons hcharge hcharges =>
          cases hT with
          | cons hline hlines => exact .cons (step hhead hcharge hline) (ih hcharges hlines)

section Calculation

variable {text : Id → String} {t : Tenant} {p p' : Measurements.MeasurementPlan}
  {r : Measurements.Reconciliation} {data : Measurements.AssessmentInput}
  {rows : List PreviewReportLine} {inputs : List PreviewInvoiceLineInput}
  {entries : List (Measurements.AssessmentLineInput × PreviewInvoiceLineInput)}
  {cs : List (Measurements.AssessmentLine × Measurements.ConfigurationLine)}

/-- The client calculates every line without an issue, as the server does. -/
theorem SameLines.calculated (h : SameLines text t.invoices p r data rows inputs entries)
    (htext : text.Injective) (hnd : (data.lines.map fun item => item.lineId).Nodup)
    (hcs : data.lines.mapM (Measurements.assessLine t.invoices p r data.policy) = .ok cs) :
    calculationIssues rows inputs = [] ∧
      ∃ ls, ls.Perm (cs.map Prod.fst) ∧
        List.Forall₂ (Calculated text) (chargesOf rows inputs) ls := by
  have hkeys := h.nodup htext hnd
  obtain ⟨cs', hcs', hperm⟩ := exists_mapM_of_perm h.items hcs
  rw [h.policy, mapM_eq_ok, List.forall₂_map_left_iff] at hcs'
  -- what one line of the report and of the request come to
  have hline : ∀ {row : PreviewReportLine}
      {entry : Measurements.AssessmentLineInput × PreviewInvoiceLineInput}
      {c : Measurements.AssessmentLine × Measurements.ConfigurationLine},
      SameLine text t.invoices p r row entry.1 entry.2 → entry.2 ∈ inputs →
      Measurements.assessLine t.invoices p r .manifestDisparity entry.1 = .ok c →
      ∃ f, calculateLine inputs row = .ok (invoiceLine row entry.2 f, f.amount) ∧
        entry.2.lineId = text c.1.lineId ∧ SameFigures f c.1 := by
    intro row entry c hsame hmem hc
    obtain ⟨f, hfigures, hfiguresSame⟩ := hsame.calculated hc
    have hfound : inputFor inputs row = some entry.2 :=
      inputFor_eq_some hkeys hmem (hsame.inputPlan.trans hsame.planId.symm)
        (hsame.inputLine.trans hsame.lineId.symm)
    refine ⟨f, calculateLine_eq_ok.mpr ⟨entry.2, f, hfound, hfigures, rfl⟩, ?_, hfiguresSame⟩
    rw [hsame.inputLine, (Measurements.assessLine_eq_ok hc).1]
  have hmem : ∀ entry ∈ entries, entry.2 ∈ inputs := fun entry hentry =>
    h.inputs.subset (List.mem_map_of_mem hentry)
  have hissues : calculationIssues rows inputs = [] := by
    refine calculationIssues_eq_nil.mpr ⟨hkeys, ?_, fun row hrow => ?_⟩
    · rw [← h.inputs.length_eq, List.length_map, h.lines.length_eq]
    · obtain ⟨i, hi, rfl⟩ := List.getElem_of_mem hrow
      have hi' : i < entries.length := h.lines.length_eq ▸ hi
      obtain ⟨c, _, hc⟩ := exists_of_forall₂ hcs' entries[i] (List.getElem_mem hi')
      obtain ⟨f, hcharge, _⟩ := hline (List.forall₂_iff_get.mp h.lines |>.2 i hi hi')
        (hmem _ (List.getElem_mem hi')) hc
      exact ⟨_, hcharge⟩
  refine ⟨hissues, cs'.map Prod.fst, hperm.map _, ?_⟩
  rw [List.forall₂_map_right_iff]
  have hentries : List.Forall₂ (fun entry c => entry.2 ∈ inputs ∧
      Measurements.assessLine t.invoices p r .manifestDisparity entry.1 = .ok c) entries cs' := by
    refine List.forall₂_iff_get.mpr ⟨hcs'.length_eq, fun i hi hi' => ⟨?_, ?_⟩⟩
    · exact hmem _ (List.getElem_mem hi)
    · exact List.forall₂_iff_get.mp hcs' |>.2 i hi hi'
  refine forall₂_square ?_ h.lines (forall₂_chargesOf hissues) hentries
  rintro row entry charge c hsame hcharge ⟨hentry, hc⟩
  obtain ⟨f, hcharge', hid, hfigures⟩ := hline hsame hentry hc
  obtain rfl : charge = _ := Except.ok.inj (hcharge.symm.trans hcharge')
  exact ⟨row, entry.2, f, rfl, hid, hfigures⟩

variable {sha : Measurements.Sha256}

/-- **Client and server charge the same.**  After every run, where `calculateVariation` and
`create_assessment` are asked about the same lines, with what was opened and invoiced before
as the earlier charge, they come to the same variances, entitlements and status; and where
that is a charge, to the same amounts and total. -/
theorem charges_agree {t₀ : Tenant} (h₀ : t₀.Initial) (es : List Measurements.Event)
    (ht : run (Measurements.handleEvent sha) t₀ es = t) (hp : p ∈ t.plans) (ctx : Ctx)
    (actor : Id) (hdata : data.validate = .ok ()) (htext : text.Injective)
    (hr : Measurements.getReconciliation p data.reconciliationId = .ok r)
    (h : SameLines text t.invoices p r data rows inputs entries)
    (hassess : Measurements.createInContext t ctx actor p data = .ok p') :
    ∃ a, p' = { p with assessments := p.assessments ++ [a] } ∧
      Agrees text (calculateVariation rows inputs) a := by
  have hranged : Measurements.Ranged t := ht ▸ (Measurements.Ranged.ofInitial h₀).run es
  rw [Measurements.createInContext_eq hranged hp hdata] at hassess
  obtain ⟨r', cs, hreaches, _, _, _, rfl⟩ := Measurements.createAssessment_eq_ok_iff.mp hassess
  obtain rfl : r = r' := Except.ok.inj (hr.symm.trans hreaches.reconciliation)
  have hperm := Measurements.validateLines_perm hreaches.lines
    (hranged.books.plans.lifecycle p hp).lineKeys
  rw [List.map_map] at hperm
  have hnd : (data.lines.map fun item => item.lineId).Nodup :=
    hperm.nodup_iff.mpr (hranged.books.plans.lifecycle p hp).lineKeys
  obtain ⟨hissues, ls, hls, hlines⟩ := h.calculated htext hnd hreaches.calculations
  refine ⟨_, rfl, ?_⟩
  have hstatus : (calculateVariation rows inputs).status =
      variationStatus [] ((chargesOf rows inputs).map Prod.fst)
        ((chargesOf rows inputs).map Prod.snd).sum := by
    rw [← hissues]
    rfl
  have hheld : (∃ l ∈ ls, l.held = true) ↔
      (cs.map Prod.fst).any Measurements.AssessmentLine.held = true := by
    rw [List.any_eq_true]
    exact exists_congr fun l => and_congr_left fun _ => hls.mem_iff
  have hagrees : List.Forall₂ (AgreesLine text) (calculateVariation rows inputs).lines ls := by
    refine List.forall₂_map_left_iff.mpr (hlines.imp fun charge l hcharge => ?_)
    exact hcharge.agrees
  by_cases hany : ∃ l ∈ ls, l.held = true
  · have hheldStatus : (data.assessment ctx actor r cs).status = .held := if_pos (hheld.mp hany)
    have hheldVariation : (calculateVariation rows inputs).status = .held ∨
        (calculateVariation rows inputs).status = .overpaymentReview := by
      rw [hstatus]
      exact variationStatus_of_held ((any_held hlines).mpr hany)
    have hdraft : (calculateVariation rows inputs).status ≠ .draft := by
      rcases hheldVariation with h | h <;> rw [h] <;> exact PreviewInvoiceStatus.noConfusion
    have hnoCharge : (calculateVariation rows inputs).status ≠ .noCharge := by
      rcases hheldVariation with h | h <;> rw [h] <;> exact PreviewInvoiceStatus.noConfusion
    refine ⟨hissues, ⟨ls, hls, hagrees.imp fun _ _ h => ⟨h, fun h => absurd h hdraft⟩⟩, ?_,
      fun h => absurd h hdraft, ?_, iff_of_true hheldVariation hheldStatus⟩
    · rw [hheldStatus]
      exact iff_of_false hdraft Measurements.AssessmentStatus.noConfusion
    · rw [hheldStatus]
      exact iff_of_false hnoCharge Measurements.AssessmentStatus.noConfusion
  · have hnone : ∀ l ∈ ls, l.held = false := by
      intro l hl
      rw [Bool.eq_false_iff]
      exact fun h => hany ⟨l, hl, h⟩
    have htotal : ((((chargesOf rows inputs).map Prod.snd).sum : ℕ) : ℤ) =
        (data.assessment ctx actor r cs).total := by
      show _ = Operations.money 0 _
      rw [Operations.money, quantize_zero, sum_amounts_eq hlines hnone]
      exact (hls.map _).sum_eq
    have hpos : ((chargesOf rows inputs).map Prod.snd).sum > 0 ↔
        (data.assessment ctx actor r cs).total > 0 := by
      rw [← htotal]
      exact Int.natCast_pos.symm
    have hstatus' : (data.assessment ctx actor r cs).status =
        if (data.assessment ctx actor r cs).total > 0 then .ready else .noCharge :=
      if_neg fun h => hany (hheld.mpr h)
    rw [variationStatus_of_not_held fun h => hany ((any_held hlines).mp h)] at hstatus
    have hamounts : List.Forall₂ (fun line l => AgreesLine text line l ∧
        ((calculateVariation rows inputs).status = .draft →
          spelledValue line.amount = some ((l.amount : ℚ) / 10 ^ 2)))
        (calculateVariation rows inputs).lines ls := by
      refine List.forall₂_map_left_iff.mpr (List.forall₂_iff_get.mpr
        ⟨hlines.length_eq, fun i hi hi' => ?_⟩)
      have hcharge := (List.forall₂_iff_get.mp hlines).2 i hi hi'
      exact ⟨hcharge.agrees, fun _ => hcharge.amountText (hnone _ (List.get_mem _ _))⟩
    have htotalText : (calculateVariation rows inputs).status = .draft →
        spelledValue (calculateVariation rows inputs).total =
          some (((data.assessment ctx actor r cs).total : ℚ) / 10 ^ 2) := by
      intro hdraft
      have hcounted : ¬((calculateVariation rows inputs).status = .held ∨
          (calculateVariation rows inputs).status = .overpaymentReview) := by
        rw [hdraft]
        simp
      have hfixed : (calculateVariation rows inputs).total =
          fixed ((((chargesOf rows inputs).map Prod.snd).sum : ℕ) : ℤ) 2 := if_neg hcounted
      rw [hfixed, spelledValue_fixed _ (by decide), ← htotal, Int.cast_natCast]
    by_cases hcharged : ((chargesOf rows inputs).map Prod.snd).sum > 0
    · rw [if_pos hcharged] at hstatus
      rw [if_pos (hpos.mp hcharged)] at hstatus'
      exact ⟨hissues, ⟨ls, hls, hamounts⟩, by rw [hstatus, hstatus']; simp, htotalText,
        by rw [hstatus, hstatus']; simp, by rw [hstatus, hstatus']; simp⟩
    · rw [if_neg hcharged] at hstatus
      rw [if_neg fun h => hcharged (hpos.mpr h)] at hstatus'
      exact ⟨hissues, ⟨ls, hls, hamounts⟩, by rw [hstatus, hstatus']; simp, htotalText,
        by rw [hstatus, hstatus']; simp, by rw [hstatus, hstatus']; simp⟩

end Calculation

namespace Sample

/-- A cargo line of the sample below. -/
def tank (description : String) (manifest : Decimal 3) : Measurements.CargoLineInput where
  description := description
  category := "Liquid"
  direction := "Import"
  unit := .tonnes
  basis := "Metric tonnes"
  manifestQuantity := some manifest
  baselineReference := "BL-1"

/-- Three tanks of the plan 20000: one holds 200 tonnes more than its manifest, one 50 tonnes
less, and one what was declared. -/
def tanks : List VesselCaller.Request := [
  VesselCaller.Sample.registered,
  .measurements 1 (VesselCaller.Sample.ctx 2) (.createPlan {
    callId := 10000
    title := "Discharge survey"
    scheduledAt := 1767300000
    method := "Ullage"
    stage := "Discharge"
    scope := "All tanks"
    leadSurveyor := "ada"
    participants := [{ agencyId := none, name := "Terminal", role := "Receiver" }]
    lines := [tank "Gas oil" 1000000, tank "Kerosene" 500000, tank "Naphtha" 800000] }),
  .measurements 1 (VesselCaller.Sample.ctx 3) (.submit 20000 {
    version := 1
    participantId := 20100
    observedAt := 1767310000
    sourceReference := "LOG-1"
    lines := [⟨20200, .reported, some 1200000, ""⟩, ⟨20201, .reported, some 450000, ""⟩,
      ⟨20202, .reported, some 800000, ""⟩] }),
  .measurements 1 (VesselCaller.Sample.ctx 4) (.addEvidence 20000 {
    fileName := "signed.pdf"
    contentType := "application/pdf"
    size := 1024
    checksum := "sha256:0123456789abcdef0123456789abcdef0123456789abcdef0123456789abcdef"
    source := some 20000
    destination := "evidence/signed.pdf"
    storage := none }),
  .measurements 1 (VesselCaller.Sample.ctx 5) (.propose 20000 {
    version := 2
    reason := "Agreed at the terminal"
    lines := [⟨20200, 1200000, "Ullage survey"⟩, ⟨20201, 450000, "Ullage survey"⟩,
      ⟨20202, 800000, "Ullage survey"⟩] }),
  .measurements 1 (VesselCaller.Sample.ctx 6) (.approve 20000 50000 {
    version := 3
    evidenceIds := [40000]
    participantId := 20100
    decision := .agreed
    representative := "Terminal manager"
    reference := "ACK-1" }),
  .measurements 2 (VesselCaller.Sample.ctx 7) (.finalize 20000 50000 4)]

/-- The tenant the tanks were reconciled in. -/
def reconciled : Tenant := run (Measurements.handleEvent VesselCaller.Sample.sha)
  VesselCaller.Sample.tenant (tanks.map .request)

/-- A line of the assessment, at 2.50 a tonne. -/
def charge (line : Id) : Measurements.AssessmentLineInput :=
  ⟨line, ⟨false, 25000⟩, ⟨false, 0⟩, .threshold, none, ⟨false, 0⟩⟩

def assessment : Measurements.AssessmentInput :=
  ⟨5, 50000, "Terminal", "USD", .manifestDisparity, "Tariff 2026", "Disparity", "None",
    [charge 20200, charge 20201, charge 20202]⟩

def tankRows : List PreviewReportLine := [
  ⟨"20000", "20200", "Gas oil", .tonnes, some "1000.000", "1200", "Agreed"⟩,
  ⟨"20000", "20201", "Kerosene", .tonnes, some "500.000", "450.0", "Agreed"⟩,
  ⟨"20000", "20202", "Naphtha", .tonnes, some "800.000", "800", "Agreed"⟩]

def tankInputs : List PreviewInvoiceLineInput := [
  ⟨"20000", "20200", "2.5", "0"⟩, ⟨"20000", "20201", "2.5", "0"⟩, ⟨"20000", "20202", "2.5", "0"⟩]

/-- A row, an entry and a line of the request that are about the same line. -/
theorem sameLine {p : Measurements.MeasurementPlan} {r : Measurements.Reconciliation} {line : Id}
    {row : PreviewReportLine} {final manifest : Decimal 3} (hid : p.id = 20000)
    (hplan : row.planId = "20000") (hline : row.lineId = toString line)
    (hstored : (r.lines.find? fun l => l.lineId = line).any (fun l =>
      l.quantity = final && l.manifestQuantity = some manifest) = true)
    (hprior : Measurements.priorInvoiced reconciled.invoices p line = 0)
    (hdeclared : ReadsAs row.declaredQuantity 6 (1000 * manifest))
    (hfinal : ReadsAs (some row.quantity) 6 (1000 * final)) :
    SameLine toString reconciled.invoices p r row (charge line)
      ⟨"20000", toString line, "2.5", "0"⟩ := by
  obtain ⟨l, hl, hvalues⟩ := (Option.any_eq_true _ _).mp hstored
  simp only [Bool.and_eq_true, decide_eq_true_eq] at hvalues
  have hplan' : "20000" = toString p.id := by
    rw [hid]
    decide
  have hrate : ReadsAs (some "2.5") 4 25000 := ⟨25000, by decide, rfl⟩
  have hprevious : ReadsAs (some "0") 2 0 := ⟨0, by decide, rfl⟩
  exact {
    planId := hplan.trans hplan'
    lineId := hline
    inputPlan := hplan'
    inputLine := rfl
    quantities := ⟨l, hl, manifest, hvalues.2, hdeclared, by rw [hvalues.1]; exact hfinal⟩
    rate := hrate
    previous := by
      rw [show (charge line).lineId = line from rfl, hprior]
      exact hprevious
    tolerance := rfl }

end Sample

/-- Two hundred tonnes too many, fifty too few and a tank as declared: both find the same three
variances, and hold. -/
theorem charges_agree_sample : ∃ p p' a, p ∈ Sample.reconciled.plans ∧
    Measurements.createInContext Sample.reconciled (VesselCaller.Sample.ctx 8) 1 p
      Sample.assessment = .ok p' ∧
    p' = { p with assessments := p.assessments ++ [a] } ∧ a.status = .held ∧
    (a.lines.map fun l => l.variance) = [200000, -50000, 0] ∧
    Agrees toString (calculateVariation Sample.tankRows Sample.tankInputs) a := by
  have hfacts : ∃ p ∈ Sample.reconciled.plans, p.id = 20000 ∧
      (∃ r ∈ p.reconciliations, r.id = 50000 ∧
        Measurements.getReconciliation p 50000 = .ok r ∧
        ((r.lines.find? fun l => l.lineId = 20200).any fun l =>
          l.quantity = 1200000 && l.manifestQuantity = some 1000000) = true ∧
        ((r.lines.find? fun l => l.lineId = 20201).any fun l =>
          l.quantity = 450000 && l.manifestQuantity = some 500000) = true ∧
        ((r.lines.find? fun l => l.lineId = 20202).any fun l =>
          l.quantity = 800000 && l.manifestQuantity = some 800000) = true) ∧
      (∀ line ∈ [20200, 20201, 20202],
        Measurements.priorInvoiced Sample.reconciled.invoices p line = 0) ∧
      (Measurements.createInContext Sample.reconciled (VesselCaller.Sample.ctx 8) 1 p
        Sample.assessment).toOption.any (fun p' => p'.assessments.getLast?.any fun a =>
          a.status = .held && (a.lines.map fun l => l.variance) = [200000, -50000, 0]) = true := by
    decide +kernel
  obtain ⟨p, hp, hid, ⟨r, _, _, hr, hover, hunder, hexact⟩, hprior, hassess⟩ := hfacts
  obtain ⟨p', hp', hlast⟩ := (Option.any_eq_true _ _).mp hassess
  have hassess : Measurements.createInContext Sample.reconciled (VesselCaller.Sample.ctx 8) 1 p
      Sample.assessment = .ok p' := by
    cases hcreate : Measurements.createInContext Sample.reconciled (VesselCaller.Sample.ctx 8) 1 p
        Sample.assessment with
    | error e =>
        rw [hcreate] at hp'
        cases hp'
    | ok created =>
        rw [hcreate] at hp'
        exact congrArg Except.ok (Option.some.inj hp')
  have hsame : SameLines toString Sample.reconciled.invoices p r Sample.assessment Sample.tankRows
      Sample.tankInputs
      [(Sample.charge 20200, ⟨"20000", "20200", "2.5", "0"⟩),
        (Sample.charge 20201, ⟨"20000", "20201", "2.5", "0"⟩),
        (Sample.charge 20202, ⟨"20000", "20202", "2.5", "0"⟩)] := {
    policy := rfl
    lines := .cons
      (Sample.sameLine hid rfl rfl hover (hprior _ (by decide)) ⟨1000000000, by decide, rfl⟩
        ⟨1200000000, by decide, rfl⟩)
      (.cons
        (Sample.sameLine hid rfl rfl hunder (hprior _ (by decide)) ⟨500000000, by decide, rfl⟩
          ⟨450000000, by decide, rfl⟩)
        (.cons
          (Sample.sameLine hid rfl rfl hexact (hprior _ (by decide)) ⟨800000000, by decide, rfl⟩
            ⟨800000000, by decide, rfl⟩)
          .nil))
    items := .refl _
    inputs := .refl _ }
  obtain ⟨a, ha, hagrees⟩ := charges_agree VesselCaller.Sample.initial (Sample.tanks.map .request)
    rfl hp (VesselCaller.Sample.ctx 8) 1 (by decide : Sample.assessment.validate = .ok ())
    (fun _ _ => toString_inj) hr hsame hassess
  rw [ha, List.getLast?_concat] at hlast
  simp only [Option.any_some, Bool.and_eq_true, decide_eq_true_eq] at hlast
  exact ⟨p, p', a, hp, hassess, ha, hlast.1, hlast.2, hagrees⟩

end VesselCaller.Closeout
