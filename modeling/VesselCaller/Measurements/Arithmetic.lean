import VesselCaller.Measurements.Issuable
import VesselCaller.Measurements.Finality
import VesselCaller.Operations.Arithmetic

/-!
# Assessment arithmetic

`create_assessment` in the default decimal context of 28 digits.  A chargeable quantity
of eighteen digits times a rate of twelve can have thirty, and the context then rounds
the product before `money` rounds it again.  Such a product is at least 10^28 units, and
stays so when it is rounded, so the range check refuses the line either way; whatever the
check lets through was computed exactly.

What was invoiced before is bounded by the history: the last issuance of the plan left it
at an entitlement less an opening amount, and it only falls from there.

## Main definitions

* `assessInContext`, `createInContext` — the assessment with its context;
* `Measured`, `Ranged` — quantities and amounts within their columns;
* `AssessmentLine.Exact`, `AssessmentLine.Fits` — a line over the integers, and within its
  columns.
-/

namespace VesselCaller.Measurements

open Lib Accounts Billing Operations

/-! ## The service in the context -/

/-- `prior_invoiced` in the context: one addition after the other. -/
def priorInContext (invoices : List Invoice) (plan : MeasurementPlan) (line : Id) : Decimal 2 :=
  sumIn contextPrecision ((standingInvoices invoices plan).flatMap fun i =>
    (i.lineItems.filter fun item => item.lineId = line).map LineItem.amount)

/-- The chargeable part of a variance, in the context. -/
def chargeableInContext (variance tolerance : Decimal 3) (mode : ToleranceMode) : Decimal 3 :=
  if variance > tolerance then
    match mode with
    | .threshold => variance
    | .deductible => inContext (variance - tolerance)
  else 0

/-- One round of `create_assessment`'s loop in the context. -/
def assessInContext (invoices : List Invoice) (plan : MeasurementPlan)
    (reconciliation : Reconciliation) (policy : Policy) (item : AssessmentLineInput) :
    Result (AssessmentLine × ConfigurationLine) := do
  let line ← orRaise (Table.get item.lineId plan.lines) (.server "KeyError")
  let final ← orRaise (reconciliation.lines.find? fun l => l.lineId = line.id)
    (.server "KeyError")
  let known := match policy with
    | .manifestDisparity => final.manifestQuantity.map DecimalText.ofColumn
    | .quantityAdjustment => item.previouslyBilledQuantity
  let baseline ← orRaise known
    (.validation "lines" (line.description ++
      ": this policy requires a known billing baseline; missing is not zero"))
  let variance := inContext (final.quantity - baseline.value)
  let chargeable := chargeableInContext variance item.tolerance.value item.toleranceMode
  let entitlement ← contextMoney 5 (inContext (chargeable * item.rate.value))
  let prior := priorInContext invoices plan line.id
  let amount := inContext (inContext (entitlement - item.openingBilledAmount.value) - prior)
  raiseIf (moneyLimit ≤ inContext |entitlement| ∨ moneyLimit ≤ inContext |amount|)
    (.validation "lines" "Calculated charge exceeds the supported monetary range")
  return ({
      lineId := line.id
      description := line.description
      unit := line.unit
      baselineQuantity := baseline.value
      finalQuantity := final.quantity
      variance := variance
      rate := item.rate.value
      tolerance := item.tolerance.value
      toleranceMode := item.toleranceMode
      chargeableQuantity := chargeable
      entitlement := entitlement
      openingBilledAmount := item.openingBilledAmount.value
      priorInvoicedAmount := prior
      amount := amount },
    { lineId := line.id
      baseline := baseline
      rate := item.rate
      tolerance := item.tolerance
      toleranceMode := item.toleranceMode
      openingBilledAmount := item.openingBilledAmount })

/-- `create_assessment` in the context. -/
def createInContext (t : Tenant) (ctx : Ctx) (actor : Id) (plan : MeasurementPlan)
    (data : AssessmentInput) : Result MeasurementPlan := do
  checkVersion plan data.version
  let reconciliation ← getReconciliation plan data.reconciliationId
  ensureBillableFinal plan reconciliation
  validateLines plan (data.lines.map AssessmentLineInput.fields)
  let calculations ← data.lines.mapM (assessInContext t.invoices plan reconciliation data.policy)
  let lines := calculations.map Prod.fst
  let configuration : Configuration := {
    payer := data.payer
    currency := data.currency
    policy := data.policy
    tariffReference := data.tariffReference
    openingChargesReference := data.openingChargesReference
    lines := sortBy ConfigurationLine.lineId (calculations.map Prod.snd) }
  let issued := plan.assessments.find? fun a => (invoiceOf t.invoices a.id).isSome
  raiseIf (issued.any (fun a => configuration ≠ a.configuration) = true)
    (.conflict "The billing configuration is locked after issuance; amendments must carry forward the same baseline, rate, tolerance, payer and opening position")
  let total ← contextMoney 0 (sumIn contextPrecision (lines.map AssessmentLine.amount))
  raiseIf (moneyLimit ≤ inContext |total|)
    (.validation "non_field_errors" "Total exceeds the supported monetary range")
  insertKey "measurements_disparityassessment_pkey" (ctx.uuid 0)
    (t.plans.flatMap fun p => Table.keys p.assessments)
  let assessment : Assessment := {
    id := ctx.uuid 0
    reconciliationId := reconciliation.id
    payer := data.payer
    currency := data.currency
    policy := data.policy
    tariffReference := data.tariffReference
    openingChargesReference := data.openingChargesReference
    reason := data.reason
    status := if lines.any AssessmentLine.held then .held
      else if total > 0 then .ready else .noCharge
    total := total
    configuration := configuration
    createdBy := actor
    createdAt := ctx.now
    lines := lines }
  return { plan with assessments := plan.assessments ++ [assessment] }

variable {sha : Sha256} {kind : RequestKind} {t t' : Tenant} {p p' : MeasurementPlan}

/-! ## What the columns hold -/

/-- The lines of the plan and of its reconciliations are within their columns. -/
structure Measured (p : MeasurementPlan) : Prop where
  lines : AdmittedLines p.lines
  reconciled : ∀ r ∈ p.reconciliations, ∀ l ∈ r.lines,
    (0 ≤ l.quantity ∧ l.quantity < 10 ^ 18) ∧
      ∀ q, l.manifestQuantity = some q → 0 ≤ q ∧ q < 10 ^ 18

/-- The quantities of a new plan were admitted. -/
theorem New.measured (h : New t p) : Measured p where
  lines := h.admitted
  reconciled := by simp [h.reconciliations]

/-- Only a patch changes the lines of a plan. -/
theorem mutation_lines (hm : Mutation sha t p p') : p'.lines = p.lines ∨ Patched p p' := by
  cases hm with
  | patched _ hp => exact .inr hp
  | submitted s hs => exact .inl (by rw [hs.plan])
  | guest p₁ s link hs hplan => exact .inl (by rw [hplan, hs.plan])
  | proposed actor r hr => exact .inl (by rw [hr.plan])
  | approved r a _ ha => exact .inl (by rw [ha.plan])
  | finalized ctx actor r r' _ hf => exact .inl (by rw [hf.plan])
  | assessed a ha => exact .inl (by rw [ha.plan])
  | issued t' a i hi => exact .inl (by rw [hi.plan])

/-- A mutation keeps the quantities within their columns. -/
theorem mutation_measured (h : Measured p) (hm : Mutation sha t p p') : Measured p' := by
  refine ⟨?_, fun r' hr' => ?_⟩
  · obtain hsame | hpatched := mutation_lines hm
    · exact hsame ▸ h.lines
    · exact hpatched.admitted h.lines
  · obtain ⟨r, hr, hinherits, _⟩ | ⟨actor, hr⟩ | ⟨ctx, actor, r, hr, hf⟩ := mutation_origin hm hr'
    · rw [hinherits.lines]
      exact h.reconciled r hr
    · intro l hl
      obtain ⟨hquantity, line, hline, hmanifest⟩ := hr.quantities l hl
      exact ⟨hquantity, fun q hq => h.lines.manifest line hline q (hmanifest.trans hq)⟩
    · obtain ⟨snapshot, rfl⟩ := hf.reconciliation
      exact h.reconciled r hr

/-- So do links and evidence. -/
theorem upkeep_measured (h : Measured p) (hu : Upkeep p p') : Measured p' := by
  cases hu with
  | links ls hplan _ =>
      subst hplan
      exact ⟨h.lines, h.reconciled⟩
  | evidence es hplan =>
      subst hplan
      exact ⟨h.lines, h.reconciled⟩

/-! ## What was invoiced before -/

/-- An effect is an issuance, or could be the effect of a request that is none. -/
theorem effect_cases (he : Effect sha kind t t') :
    (∃ p p' a i, p ∈ t.plans ∧ Issued t t' p p' a i ∧ Effect sha (.issue p.id a.id) t t') ∨
      ∃ kind', (∀ plan a, kind' ≠ .issue plan a) ∧ Effect sha kind' t t' := by
  cases he with
  | quiet plans invoices => exact .inr ⟨.other, by simp, .quiet plans invoices⟩
  | created p new other plans invoices called =>
      exact .inr ⟨.other, by simp, .created p new rfl plans invoices called⟩
  | mutated p p' mem hm assessments own plans invoices =>
      exact .inr ⟨.lifecycle, by simp, .mutated p p' mem hm assessments rfl plans invoices⟩
  | kept p p' mem hu other plans invoices =>
      exact .inr ⟨.other, by simp, .kept p p' mem hu rfl plans invoices⟩
  | issued p p' a i mem hi own plans invoices =>
      exact .inl ⟨p, p', a, i, mem, hi, .issued p p' a i mem hi rfl plans invoices⟩
  | billed i fresh purpose hnone plans invoices =>
      exact .inr ⟨.other, by simp, .billed i fresh purpose hnone plans invoices⟩
  | settled i i' mem charge void plans invoices =>
      exact .inr ⟨.other, by simp, .settled i i' mem charge void plans invoices⟩

/-- Standing invoices charge nothing negative. -/
theorem Books.priorInvoiced_nonneg (h : Books t) (p : MeasurementPlan) (line : Id) :
    0 ≤ priorInvoiced t.invoices p line := by
  refine List.sum_nonneg fun amount hamount => ?_
  obtain ⟨i, hi, rfl⟩ := List.mem_map.mp hamount
  obtain ⟨hmem, hstanding⟩ := List.mem_filter.mp hi
  simp only [Bool.and_eq_true, decide_eq_true_eq] at hstanding
  refine List.sum_nonneg fun amount hamount => ?_
  obtain ⟨item, hitem, rfl⟩ := List.mem_map.mp hamount
  exact (h.charged i hmem hstanding.1.1).amounts item (List.mem_filter.mp hitem).1

/-- A plan without assessments was invoiced nothing. -/
theorem priorInvoiced_of_nil {invoices : List Invoice} (h : p.assessments = []) (line : Id) :
    priorInvoiced invoices p line = 0 := by
  have hnone : standingInvoices invoices p = [] := by
    refine List.filter_eq_nil_iff.mpr fun i _ => ?_
    cases i.assessmentId <;> simp [h]
  rw [priorInvoiced, hnone]
  rfl

/-- The figures of the assessments bound what their issuance can add. -/
structure Ranged (t : Tenant) : Prop where
  books : Books t
  measured : ∀ p ∈ t.plans, Measured p
  lines : ∀ p ∈ t.plans, ∀ a ∈ p.assessments, ∀ l ∈ a.lines,
    0 ≤ l.openingBilledAmount ∧ l.entitlement < moneyLimit
  prior : ∀ p ∈ t.plans, ∀ line, priorInvoiced t.invoices p line < moneyLimit

/-- A tenant without plans is within range. -/
theorem Ranged.ofInitial (h : t.Initial) : Ranged t where
  books := .ofInitial h
  measured := by simp [h.plans]
  lines := by simp [h.plans]
  prior := by simp [h.plans]

/-- The amounts of a written assessment are within range. -/
theorem Assessment.Written.ranged {a : Assessment} (h : a.Written) :
    ∀ l ∈ a.lines, 0 ≤ l.openingBilledAmount ∧ l.entitlement < moneyLimit := by
  obtain ⟨t, ctx, actor, p, p', data, hdata, hassess, happend⟩ := h
  simp only [createAssessment, bind_eq_ok, pure_eq_ok] at hassess
  obtain ⟨_, _, r, _, _, _, _, _, cs, hcs, _, _, _, _, _, _, rfl⟩ := hassess
  obtain rfl := List.singleton_inj.mp (List.append_cancel_left happend)
  intro l hl
  obtain ⟨c, hc, rfl⟩ := List.mem_map.mp hl
  obtain ⟨item, hitem, hline⟩ := mem_of_mapM_eq_ok hcs c hc
  have hopening := (AssessmentInput.admitted hdata item hitem).opening.1
  simp only [assessLine, bind_eq_ok, pure_eq_ok, raiseIf_eq_ok, not_or, not_le] at hline
  obtain ⟨_, _, _, _, _, _, _, ⟨hentitlement, _⟩, rfl⟩ := hline
  exact ⟨hopening, lt_of_abs_lt hentitlement⟩

/-- The invoice charges nothing for a line its assessment does not have. -/
theorem Issued.chargedFor_of_notMem {a : Assessment} {i : Invoice} (hi : Issued t t' p p' a i)
    {line : Id} (hline : line ∉ a.lines.map AssessmentLine.lineId) :
    Measurements.chargedFor line i = 0 := by
  have hnone : i.lineItems.filter (fun item => item.lineId = line) = [] := by
    rw [hi.lineItems]
    refine List.filter_eq_nil_iff.mpr fun item hitem => ?_
    obtain ⟨l, hl, rfl⟩ := List.mem_map.mp hitem
    simp only [decide_eq_true_eq]
    rintro rfl
    exact hline (List.mem_map_of_mem hl)
  rw [Measurements.chargedFor, hnone]
  rfl

/-- What an issuance leaves invoiced is at most an entitlement. -/
theorem Ranged.prior_issued (h : Ranged t) {a : Assessment} {i : Invoice} (hp : p ∈ t.plans)
    (hi : Issued t t' p p' a i) (line : Id) :
    priorInvoiced t'.invoices p'.advance line < moneyLimit := by
  have ha := (h.books.billable p hp).consistent a hi.assessment
  have hkeys := (h.books.plans.lifecycle p hp).lineKeys
  by_cases hline : line ∈ a.lines.map AssessmentLine.lineId
  · obtain ⟨l, hl, rfl⟩ := List.mem_map.mp hline
    have hequal := hi.opening_add_priorInvoiced ha hkeys hl
    obtain ⟨hopening, hentitlement⟩ := h.lines p hp a hi.assessment l hl
    linarith
  · have hassessments : Table.keys p'.advance.assessments = Table.keys p.assessments := by
      rw [MeasurementPlan.advance, hi.plan, Table.keys_put]
    have hnothing : contribution p'.advance line i = 0 := by
      unfold contribution
      split
      · exact hi.chargedFor_of_notMem hline
      · rfl
    have hold : priorInvoiced t.invoices p'.advance line = priorInvoiced t.invoices p line :=
      priorInvoiced_congr fun _ _ _ _ => by rw [hassessments]
    rw [hi.invoices, priorInvoiced_cons, hnothing, zero_add, hold]
    exact h.prior p hp line

/-- What was billed before stays within range. -/
theorem Ranged.prior_step (h : Ranged t) (he : Effect sha kind t t') :
    ∀ p ∈ t'.plans, ∀ line, priorInvoiced t'.invoices p line < moneyLimit := by
  intro p' hp' line
  have hbooks' := h.books.effect he
  have hget' : Table.get p'.id t'.plans = some p' := Table.get_of_mem hbooks'.plans.keys hp'
  cases hget : Table.get p'.id t.plans with
  | none =>
      obtain habsent | ⟨q, hq, hnew, _⟩ := he.absent hget
      · rw [habsent] at hget'
        cases hget'
      · obtain rfl : q = p' := Option.some.inj (hq.symm.trans hget')
        rw [priorInvoiced_of_nil hnew.assessments]
        decide
  | some p =>
      obtain ⟨hp, hid⟩ := Table.mem_of_get hget
      obtain ⟨q, q', a, i, hq, hi, hissue⟩ | ⟨kind', hnone, he'⟩ := effect_cases he
      · by_cases hk : q.id = p'.id
        · obtain rfl : q = p := Table.eq_of_key_eq h.books.plans.keys hq hp (hk.trans hid.symm)
          have hq' : Table.get p'.id t'.plans = some q'.advance := by
            have hkey : q'.advance.id = p'.id := by
              rw [MeasurementPlan.advance, hi.plan]
              exact hk
            rw [hi.plans, ← hkey]
            exact Table.get_put_self (hkey ▸ hget)
          obtain rfl : q'.advance = p' := Option.some.inj (hq'.symm.trans hget')
          exact h.prior_issued hq hi line
        · refine (h.books.priorInvoiced_le hissue hget hget' ?_ line).trans_lt (h.prior p hp line)
          intro b hb
          exact absurd (RequestKind.issue.inj hb).1 hk
      · refine (h.books.priorInvoiced_le he' hget hget' ?_ line).trans_lt (h.prior p hp line)
        exact fun b hb => absurd hb (hnone _ b)

/-- A step keeps the amounts within range. -/
theorem Ranged.effect (h : Ranged t) (he : Effect sha kind t t') : Ranged t' where
  books := h.books.effect he
  measured := he.forall_plans (fun _ hnew => hnew.measured)
    (fun p p' _ hp hm => by
      have hmeasured := mutation_measured hp hm
      exact ⟨hmeasured.lines, hmeasured.reconciled⟩)
    (fun _ _ _ hp hu => upkeep_measured hp hu) h.measured
  lines := forall_assessments he (fun _ ha => ha.ranged) (fun _ ha => ha) h.lines
  prior := h.prior_step he

/-- So does a run. -/
theorem Ranged.run {t₀ : Tenant} (h : Ranged t₀) (es : List Event) :
    Ranged (run (handleEvent sha) t₀ es) :=
  run_invariant (fun hs he => hs.effect (handleEvent_effect he)) es h

/-! ## Exactness -/

/-- What was invoiced before is added up exactly. -/
theorem priorInContext_eq (h : Books t) {line : Id}
    (hprior : priorInvoiced t.invoices p line < moneyLimit) :
    priorInContext t.invoices p line = priorInvoiced t.invoices p line := by
  have hsum : ((standingInvoices t.invoices p).flatMap fun i =>
      (i.lineItems.filter fun item => item.lineId = line).map LineItem.amount).sum =
        priorInvoiced t.invoices p line := by
    rw [List.flatMap, List.sum_flatten, List.map_map]
    rfl
  unfold priorInContext
  rw [sumIn_of_nonneg, hsum]
  · intro amount hamount
    obtain ⟨i, hi, hmem⟩ := List.mem_flatMap.mp hamount
    obtain ⟨item, hitem, rfl⟩ := List.mem_map.mp hmem
    obtain ⟨hinvoice, hstanding⟩ := List.mem_filter.mp hi
    simp only [Bool.and_eq_true, decide_eq_true_eq] at hstanding
    exact (h.charged i hinvoice hstanding.1.1).amounts item (List.mem_filter.mp hitem).1
  · rw [hsum]
    exact hprior.trans (by decide)

/-- The difference of two columns fits one. -/
theorem abs_sub_lt {a b bound : ℤ} (ha : 0 ≤ a ∧ a < bound) (hb : 0 ≤ b ∧ b < bound) :
    |a - b| < bound := by
  rw [abs_lt]
  constructor <;> linarith [ha.1, ha.2, hb.1, hb.2]

section Line

variable {variance tolerance : Decimal 3} {mode : ToleranceMode}

/-- Within its columns, what is charged is not rounded. -/
theorem chargeableInContext_eq (hvariance : |variance| < 10 ^ 18)
    (htolerance : 0 ≤ tolerance ∧ tolerance < 10 ^ 18) :
    chargeableInContext variance tolerance mode = chargeableOf variance tolerance mode := by
  unfold chargeableInContext chargeableOf
  split
  · cases mode with
    | threshold => rfl
    | deductible =>
        rename_i hlt
        refine inContext_of_lt ?_
        rw [abs_of_nonneg (sub_nonneg.mpr hlt.le)]
        have hle := (abs_lt.mp hvariance).2
        linarith [htolerance.1]
  · rfl

/-- What is charged is no more than the variance. -/
theorem chargeableOf_lt (hvariance : |variance| < 10 ^ 18) (htolerance : 0 ≤ tolerance) :
    chargeableOf variance tolerance mode < 10 ^ 18 := by
  have hlt := (abs_lt.mp hvariance).2
  unfold chargeableOf
  split
  · cases mode with
    | threshold => exact hlt
    | deductible => exact (sub_le_self _ htolerance).trans_lt hlt
  · norm_num

end Line

/-- A reconciled line has a baseline within its column. -/
theorem baseline_admitted {final : ReconciliationLine} {policy : Policy}
    {item : AssessmentLineInput} {baseline : DecimalText 3} (hitem : item.Admitted)
    (hmanifest : ∀ q, final.manifestQuantity = some q → 0 ≤ q ∧ q < 10 ^ 18)
    (h : (match policy with
      | .manifestDisparity => final.manifestQuantity.map DecimalText.ofColumn
      | .quantityAdjustment => item.previouslyBilledQuantity) = some baseline) :
    0 ≤ baseline.value ∧ baseline.value < 10 ^ 18 := by
  cases policy with
  | manifestDisparity =>
      obtain ⟨q, hq, rfl⟩ := Option.map_eq_some_iff.mp h
      rw [DecimalText.value_ofColumn]
      exact hmanifest q hq
  | quantityAdjustment => exact hitem.previous baseline h

/-- **A line is calculated exactly**, or refused in either arithmetic. -/
theorem assessInContext_eq (h : Ranged t) (hp : p ∈ t.plans) {r : Reconciliation}
    (hr : r ∈ p.reconciliations) {policy : Policy} {item : AssessmentLineInput}
    (hitem : item.Admitted) :
    assessInContext t.invoices p r policy item = assessLine t.invoices p r policy item := by
  refine bind_congr_ok fun line _ => bind_congr_ok fun final hfinal => ?_
  refine bind_congr_ok fun baseline hbaseline => ?_
  rw [orRaise_eq_ok] at hfinal hbaseline
  obtain ⟨hquantity, hmanifest⟩ := (h.measured p hp).reconciled r hr final
    (List.mem_of_find?_eq_some hfinal)
  have hbase := baseline_admitted hitem hmanifest hbaseline
  have hvariance : |final.quantity - baseline.value| < 10 ^ 18 := abs_sub_lt hquantity hbase
  have hpositive : 0 ≤ chargeableOf (final.quantity - baseline.value) item.tolerance.value
      item.toleranceMode := chargeableOf_nonneg hitem.tolerance.1
  have hproduct := mul_nonneg hpositive hitem.rate.1
  have hbound : chargeableOf (final.quantity - baseline.value) item.tolerance.value
      item.toleranceMode * item.rate.value < 10 ^ (27 + 5) := by
    calc chargeableOf (final.quantity - baseline.value) item.tolerance.value item.toleranceMode *
          item.rate.value < 10 ^ 18 * 10 ^ 12 :=
          mul_lt_mul'' (chargeableOf_lt hvariance hitem.tolerance.1) hitem.rate.2 hpositive
            hitem.rate.1
      _ < 10 ^ (27 + 5) := by norm_num
  have hprior : 0 ≤ priorInvoiced t.invoices p line.id ∧
      priorInvoiced t.invoices p line.id < 10 ^ 18 :=
    ⟨h.books.priorInvoiced_nonneg p line.id, h.prior p hp line.id⟩
  dsimp only
  rw [inContext_of_lt (hvariance.trans (by norm_num)),
    chargeableInContext_eq hvariance hitem.tolerance, priorInContext_eq h.books hprior.2]
  obtain hsmall | hlarge := lt_or_ge (chargeableOf (final.quantity - baseline.value)
    item.tolerance.value item.toleranceMode * item.rate.value) (10 ^ 28)
  -- The product has at most 28 digits: every step after it is exact as well.
  · have hentitlement : 0 ≤ money 5 (chargeableOf (final.quantity - baseline.value)
        item.tolerance.value item.toleranceMode * item.rate.value) := money_nonneg 5 hproduct
    have hle : money 5 (chargeableOf (final.quantity - baseline.value) item.tolerance.value
        item.toleranceMode * item.rate.value) ≤ 10 ^ 23 :=
      quantize_le_of_le 5 hproduct (hsmall.le.trans (by norm_num))
    rw [contextMoney_inContext (by decide) hproduct hsmall, ok_bind]
    generalize money 5 (chargeableOf (final.quantity - baseline.value) item.tolerance.value
      item.toleranceMode * item.rate.value) = e at hentitlement hle
    have hopened : |e - item.openingBilledAmount.value| < 10 ^ 24 :=
      abs_sub_lt ⟨hentitlement, hle.trans_lt (by norm_num)⟩
        ⟨hitem.opening.1, hitem.opening.2.trans (by norm_num)⟩
    have hamount : |e - item.openingBilledAmount.value - priorInvoiced t.invoices p line.id| <
        10 ^ 28 := by
      have habs := abs_lt.mp hopened
      rw [abs_lt]
      constructor <;> linarith [habs.1, habs.2, hprior.1, hprior.2]
    rw [inContext_of_lt (hopened.trans (by norm_num)), inContext_of_lt hamount,
      inContext_of_lt (by rw [abs_abs, abs_of_nonneg hentitlement]; exact hle.trans_lt (by norm_num)),
      inContext_of_lt (by rwa [abs_abs])]
  · -- the context may round the product, but both roundings are beyond the limit
    obtain ⟨e, he, _, hle⟩ := contextMoney_isOk hproduct hbound
    have hrounded := le_contextMoney (by decide) hlarge he
    have hexact : 10 ^ 23 ≤ money 5 (chargeableOf (final.quantity - baseline.value)
        item.tolerance.value item.toleranceMode * item.rate.value) :=
      le_quantize_of_le 5 (by norm_num) (le_trans (by norm_num) hlarge)
    have hlimit : moneyLimit ≤ (10 : ℤ) ^ 23 := by decide
    have hfits : |e| < 10 ^ 28 := by
      rw [abs_of_nonneg (le_trans (by norm_num) hrounded)]
      exact hle.trans_lt (by norm_num)
    have hleft : moneyLimit ≤ inContext |e| := by
      rw [inContext_of_lt (by rwa [abs_abs])]
      exact hlimit.trans (hrounded.trans (le_abs_self _))
    have hright := hlimit.trans (hexact.trans (le_abs_self _))
    rw [he, ok_bind, raiseIf_of_pos (.inl hleft), raiseIf_of_pos (.inl hright)]
    rfl

/-- What the range check of a line leaves. -/
theorem assessLine_ranged {invoices : List Invoice} {r : Reconciliation} {policy : Policy}
    {item : AssessmentLineInput} {c : AssessmentLine × ConfigurationLine}
    (h : assessLine invoices p r policy item = .ok c) :
    |c.1.entitlement| < moneyLimit ∧ |c.1.amount| < moneyLimit := by
  simp only [assessLine, bind_eq_ok, raiseIf_eq_ok, pure_eq_ok, not_or, not_le] at h
  obtain ⟨_, _, _, _, _, _, _, hlimit, rfl⟩ := h
  exact hlimit

/-- A request that names every line of the plan once has at most a hundred. -/
theorem length_lines_le (h : Ranged t) (hp : p ∈ t.plans) {data : AssessmentInput} {u : Unit}
    (hlines : validateLines p (data.lines.map AssessmentLineInput.fields) = .ok u) :
    data.lines.length ≤ 100 := by
  have hperm := validateLines_perm hlines (h.books.plans.lifecycle p hp).lineKeys
  have hlength := hperm.length_eq
  rw [List.length_map, List.length_map, Table.keys, List.length_map] at hlength
  exact hlength ▸ (h.measured p hp).lines.count

/-- A map succeeds with as many results as there are elements. -/
theorem length_eq_of_mapM_eq_ok {ε γ δ : Type} {f : γ → Except ε δ} {xs : List γ} {ys : List δ}
    (h : xs.mapM f = .ok ys) : ys.length = xs.length := by
  have hmap : ys.map (fun _ => ()) = xs.map (fun _ => ()) :=
    map_eq_of_mapM_eq_ok (fun _ _ _ => rfl) h
  simpa using congrArg List.length hmap

/-- **The service is exact.**  For a plan of a reachable tenant and a valid request the
context computes what exact arithmetic does. -/
theorem createInContext_eq (h : Ranged t) (hp : p ∈ t.plans) {ctx : Ctx} {actor : Id}
    {data : AssessmentInput} (hdata : data.validate = .ok ()) :
    createInContext t ctx actor p data = createAssessment t ctx actor p data := by
  unfold createInContext createAssessment
  refine bind_congr_ok fun _ _ => bind_congr_ok fun r hr => bind_congr_ok fun _ _ => ?_
  refine bind_congr_ok fun _ hlines => ?_
  have hmem := (getReconciliation_eq_ok hr).1
  rw [mapM_congr_ok fun item hitem => assessInContext_eq h hp hmem
    (AssessmentInput.admitted hdata item hitem)]
  refine bind_congr_ok fun cs hcs => bind_congr_ok fun _ _ => ?_
  -- a hundred amounts below the limit never leave the context
  have hamounts : ∀ x ∈ (cs.map Prod.fst).map AssessmentLine.amount, |x| ≤ 10 ^ 18 := by
    intro x hx
    rw [List.map_map] at hx
    obtain ⟨c, hc, rfl⟩ := List.mem_map.mp hx
    obtain ⟨item, _, hitem⟩ := mem_of_mapM_eq_ok hcs c hc
    exact (assessLine_ranged hitem).2.le
  have hcount : (((cs.map Prod.fst).map AssessmentLine.amount).length : ℤ) ≤ 100 := by
    rw [List.length_map, List.length_map, length_eq_of_mapM_eq_ok hcs]
    exact_mod_cast length_lines_le h hp hlines
  have hbound : (((cs.map Prod.fst).map AssessmentLine.amount).length : ℤ) * 10 ^ 18 < 10 ^ 28 := by
    calc (((cs.map Prod.fst).map AssessmentLine.amount).length : ℤ) * 10 ^ 18 ≤ 100 * 10 ^ 18 :=
          mul_le_mul_of_nonneg_right hcount (by norm_num)
      _ < 10 ^ 28 := by norm_num
  have hsum : |((cs.map Prod.fst).map AssessmentLine.amount).sum| < 10 ^ 28 :=
    (abs_sum_le hamounts).trans_lt hbound
  have htotal : |money 0 ((cs.map Prod.fst).map AssessmentLine.amount).sum| < 10 ^ 28 := by
    rwa [money, quantize_zero]
  have hexact : sumIn contextPrecision ((cs.map Prod.fst).map AssessmentLine.amount) =
      ((cs.map Prod.fst).map AssessmentLine.amount).sum := sumIn_of_bounded hamounts hbound
  dsimp only
  rw [hexact, contextMoney_of_lt htotal, ok_bind,
    inContext_of_lt (by rwa [abs_abs])]

/-! ## No error, and every column holds -/

/-- Exact arithmetic has no invalid operation. -/
theorem createAssessment_avoids {ctx : Ctx} {actor : Id} {data : AssessmentInput} :
    Avoids (· = .server "InvalidOperation") (createAssessment t ctx actor p data) := by
  have hcheck : Avoids (· = .server "InvalidOperation") (checkVersion p data.version) :=
    avoids_bind (avoids_raiseIf (by decide)) fun _ _ => avoids_raiseIf (by decide)
  have hvalidate : Avoids (· = .server "InvalidOperation")
      (validateLines p (data.lines.map AssessmentLineInput.fields)) := by
    refine avoids_bind (avoids_raiseIf (by decide)) fun _ _ => avoids_forM fun item _ => ?_
    refine avoids_bind (avoids_orRaise (by decide)) fun line _ => ?_
    split
    · rintro e he rfl
      cases he
    · exact avoids_ok rfl
  refine avoids_bind hcheck fun _ _ => avoids_bind (avoids_orRaise (by decide)) fun r _ => ?_
  refine avoids_bind (avoids_raiseIf (by decide)) fun _ _ => avoids_bind hvalidate fun _ _ => ?_
  refine avoids_bind (avoids_mapM fun item _ => ?_) fun cs _ => ?_
  · refine avoids_bind (avoids_orRaise (by decide)) fun line _ => ?_
    refine avoids_bind (avoids_orRaise (by decide)) fun final _ => ?_
    refine avoids_bind (avoids_orRaise (by simp)) fun baseline _ => ?_
    exact avoids_bind (avoids_raiseIf (by decide)) fun _ _ => avoids_ok rfl
  refine avoids_bind (avoids_raiseIf (by simp)) fun _ _ => ?_
  refine avoids_bind (avoids_raiseIf (by decide)) fun _ _ => ?_
  exact avoids_bind (avoids_raiseIf (by decide)) fun _ _ => avoids_ok rfl

/-- The line was calculated without rounding but for the one of the entitlement. -/
structure AssessmentLine.Exact (invoices : List Invoice) (p : MeasurementPlan)
    (l : AssessmentLine) : Prop where
  variance : l.variance = l.finalQuantity - l.baselineQuantity
  chargeable : l.chargeableQuantity = chargeableOf l.variance l.tolerance l.toleranceMode
  entitlement : l.entitlement = money 5 (l.chargeableQuantity * l.rate)
  prior : l.priorInvoicedAmount = priorInvoiced invoices p l.lineId
  amount : l.amount = l.entitlement - l.openingBilledAmount - l.priorInvoicedAmount

/-- Every field of the line fits its column. -/
structure AssessmentLine.Fits (l : AssessmentLine) : Prop where
  baselineQuantity : |l.baselineQuantity| < 10 ^ 18
  finalQuantity : |l.finalQuantity| < 10 ^ 18
  variance : |l.variance| < 10 ^ 19
  rate : |l.rate| < 10 ^ 12
  tolerance : |l.tolerance| < 10 ^ 18
  chargeableQuantity : |l.chargeableQuantity| < 10 ^ 18
  entitlement : |l.entitlement| < 10 ^ 18
  openingBilledAmount : |l.openingBilledAmount| < 10 ^ 18
  priorInvoicedAmount : |l.priorInvoicedAmount| < 10 ^ 18
  amount : |l.amount| < 10 ^ 18

/-- An admitted value fits its column. -/
theorem abs_lt_of_admitted {v bound : ℤ} (h : 0 ≤ v ∧ v < bound) : |v| < bound := by
  rw [abs_of_nonneg h.1]
  exact h.2

/-- A line is assessed exactly, and fits its columns. -/
theorem assessLine_exact (h : Ranged t) (hp : p ∈ t.plans) {r : Reconciliation}
    (hr : r ∈ p.reconciliations) {policy : Policy} {item : AssessmentLineInput}
    (hitem : item.Admitted) {c : AssessmentLine × ConfigurationLine}
    (hc : assessLine t.invoices p r policy item = .ok c) :
    c.1.Exact t.invoices p ∧ c.1.Fits := by
  have hlimit := assessLine_ranged hc
  simp only [assessLine, bind_eq_ok, orRaise_eq_ok, pure_eq_ok] at hc
  obtain ⟨line, _, final, hfinal, baseline, hbaseline, _, _, rfl⟩ := hc
  obtain ⟨hquantity, hmanifest⟩ := (h.measured p hp).reconciled r hr final
    (List.mem_of_find?_eq_some hfinal)
  have hbase := baseline_admitted hitem hmanifest hbaseline
  have hvariance : |final.quantity - baseline.value| < 10 ^ 18 := abs_sub_lt hquantity hbase
  exact ⟨⟨rfl, rfl, rfl, rfl, rfl⟩, {
    baselineQuantity := abs_lt_of_admitted hbase
    finalQuantity := abs_lt_of_admitted hquantity
    variance := hvariance.trans (by norm_num)
    rate := abs_lt_of_admitted hitem.rate
    tolerance := abs_lt_of_admitted hitem.tolerance
    chargeableQuantity := abs_lt_of_admitted
      ⟨chargeableOf_nonneg hitem.tolerance.1, chargeableOf_lt hvariance hitem.tolerance.1⟩
    entitlement := hlimit.1
    openingBilledAmount := abs_lt_of_admitted hitem.opening
    priorInvoicedAmount := abs_lt_of_admitted
      ⟨h.books.priorInvoiced_nonneg p line.id, h.prior p hp line.id⟩
    amount := hlimit.2 }⟩

/-- **Assessment arithmetic is exact and in range.**  After every run of requests and
voidings, for every plan and every valid request, assessing in the context never raises
`InvalidOperation`; and the assessment it accepts has an exact calculation in every line,
every field within its column, and the exact sum of the amounts as its total, within its
column too. -/
theorem assessment_exact {t₀ : Tenant} (h₀ : t₀.Initial) (es : List Event)
    (ht : run (handleEvent sha) t₀ es = t) (hp : p ∈ t.plans) (ctx : Ctx) (actor : Id)
    {data : AssessmentInput} (hdata : data.validate = .ok ()) :
    createInContext t ctx actor p data = createAssessment t ctx actor p data ∧
    createInContext t ctx actor p data ≠ .error (.server "InvalidOperation") ∧
    ∀ p', createInContext t ctx actor p data = .ok p' → ∃ a,
      p' = { p with assessments := p.assessments ++ [a] } ∧
      (∀ l ∈ a.lines, l.Exact t.invoices p ∧ l.Fits) ∧
      a.total = (a.lines.map AssessmentLine.amount).sum ∧ |a.total| < 10 ^ 18 := by
  have h : Ranged t := ht ▸ (Ranged.ofInitial h₀).run es
  have heq : createInContext t ctx actor p data = createAssessment t ctx actor p data :=
    createInContext_eq h hp hdata
  refine ⟨heq, ?_, fun p' hp' => ?_⟩
  · rw [heq]
    exact fun herror => createAssessment_avoids _ herror rfl
  · rw [heq] at hp'
    simp only [createAssessment, bind_eq_ok, pure_eq_ok, raiseIf_eq_ok, not_le] at hp'
    obtain ⟨_, _, r, hr, _, _, _, _, cs, hcs, _, _, _, htotal, _, _, rfl⟩ := hp'
    refine ⟨_, rfl, fun l hl => ?_, quantize_zero _, htotal⟩
    obtain ⟨c, hc, rfl⟩ := List.mem_map.mp hl
    obtain ⟨item, hitem, hline⟩ := mem_of_mapM_eq_ok hcs c hc
    exact assessLine_exact h hp (getReconciliation_eq_ok hr).1
      (AssessmentInput.admitted hdata item hitem) hline

/-- The sample request is accepted in the context, its one line and its total exact. -/
theorem assessment_exact_sample : ∃ t p data p' a,
    run (handleEvent Sample.sha) Sample.tenant (Sample.finalized.map .request) = t ∧ p ∈ t.plans ∧
      createInContext t (Sample.ctx 8) 1 p data = .ok p' ∧
      p' = { p with assessments := p.assessments ++ [a] } ∧
      ∀ l ∈ a.lines, l.Exact t.invoices p ∧ l.Fits := by
  obtain ⟨data, hrequest⟩ : ∃ data, Sample.assessed.getLast (by decide) =
      .measurements 1 (Sample.ctx 8) (.assess 20000 data) := ⟨_, rfl⟩
  have hok : (Tenant.handle Sample.sha (run (handleEvent Sample.sha) Sample.tenant
      (Sample.finalized.map .request)) (Sample.assessed.getLast (by decide))).isOk = true := by
    decide +kernel
  rw [hrequest] at hok
  obtain ⟨t', r, hassess⟩ := exists_of_isOk hok
  obtain ⟨hvalid, p, hp, _, p', hp', _⟩ := handle_assess hassess
  have hexact := assessment_exact Sample.initial _ rfl hp (Sample.ctx 8) 1 hvalid
  have heq : createInContext (run (handleEvent Sample.sha) Sample.tenant
      (Sample.finalized.map .request)) (Sample.ctx 8) 1 p data = .ok p' := hexact.1.trans hp'
  obtain ⟨a, hplan, hlines, _⟩ := hexact.2.2 p' heq
  exact ⟨_, p, data, p', a, rfl, hp, heq, hplan, hlines⟩

end VesselCaller.Measurements
