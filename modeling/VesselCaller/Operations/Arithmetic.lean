import VesselCaller.Billing.Ledger
import VesselCaller.Lib.Precision

/-!
# Harbour-dues arithmetic

`finalize_inspection` in the default decimal context of 28 digits.  Tonnage times rate
has at most 28 digits, so the dues are always rounded exactly; the two products after
it can have more, and none of the three amounts is compared with the eighteen digits of
its column before the invoice is inserted.

What the inputs must satisfy for the amounts to fit can be pushed back through the three
roundings to one bound on tonnage times rate (`duesBound`), which depends on the
commission and exchange rates.

## Main definitions

* `contextCharges`, `finalizeInContext` — the finalization with its context;
* `HarbourCharges.Fits` — the charges within their columns;
* `largestDues`, `duesBound` — the bound on the inputs, and `Finalizable`.
-/

namespace VesselCaller.Operations

open Lib Accounts Billing

/-! ## The context -/

/-- The precision of the default decimal context. -/
def contextPrecision : ℕ := 28

/-- The result of an operation in the context. -/
def inContext (v : ℤ) : ℤ := toPrecision contextPrecision v

/-- `money` in the context: a result with more digits than the context has is an
`InvalidOperation`. -/
def contextMoney (k : ℕ) (v : ℤ) : Result (Decimal 2) :=
  orRaise (quantizeIn contextPrecision k v) (.server "InvalidOperation")

/-- Rounded to cents, what is not negative stays so. -/
theorem money_nonneg (k : ℕ) {v : ℤ} (hv : 0 ≤ v) : 0 ≤ money k v := quantize_nonneg k hv

/-- Within 28 digits the context rounds nothing. -/
theorem inContext_of_lt {v : ℤ} (h : |v| < 10 ^ 28) : inContext v = v := toPrecision_of_lt h

/-- An amount within the context is had. -/
theorem contextMoney_of_lt {k : ℕ} {v : ℤ} (h : |money k v| < 10 ^ 28) :
    contextMoney k v = .ok (money k v) := by
  unfold contextMoney
  exact orRaise_of_some (quantizeIn_of_lt h)

/-- What is had is the rounded amount. -/
theorem contextMoney_eq_ok {k : ℕ} {v : ℤ} {m : Decimal 2} (h : contextMoney k v = .ok m) :
    m = money k v := by
  unfold contextMoney at h
  rw [orRaise_eq_ok, quantizeIn] at h
  split at h
  · exact (Option.some.inj h).symm
  · cases h

/-- A nonnegative product that fits the context is rounded to cents once. -/
theorem contextMoney_inContext {k : ℕ} (hk : 0 < k) {v : ℤ} (hv : 0 ≤ v) (h : v < 10 ^ 28) :
    contextMoney k (inContext v) = .ok (money k v) := by
  have hv' : |v| < 10 ^ 28 := by rwa [abs_of_nonneg hv]
  have hpow : (10 : ℤ) ≤ 10 ^ k := by
    calc (10 : ℤ) = 10 ^ 1 := (pow_one _).symm
      _ ≤ 10 ^ k := pow_le_pow_right₀ (by norm_num) hk
  have hmoney : money k v ≤ 10 ^ 27 := by
    refine quantize_le_of_le k hv (h.le.trans ?_)
    calc (10 : ℤ) ^ 28 = 10 ^ 27 * 10 := by norm_num
      _ ≤ 10 ^ 27 * 10 ^ k := mul_le_mul_of_nonneg_left hpow (by norm_num)
  rw [inContext_of_lt hv']
  refine contextMoney_of_lt ?_
  rw [abs_of_nonneg (money_nonneg k hv)]
  exact hmoney.trans_lt (by norm_num)

/-- A product that does not fit leaves at least the digits its rounding to cents cannot
drop. -/
theorem le_contextMoney {k : ℕ} (hk : k ≤ 28) {v : ℤ} (h : 10 ^ 28 ≤ v) {m : Decimal 2}
    (hm : contextMoney k (inContext v) = .ok m) : 10 ^ (28 - k) ≤ m := by
  rw [contextMoney_eq_ok hm]
  refine le_quantize_of_le k (by positivity) ?_
  rw [← pow_add, Nat.sub_add_cancel hk]
  exact pow_le_toPrecision (by decide) h

/-- A product whose rounding to cents has the digits of the context has one. -/
theorem contextMoney_isOk {k : ℕ} {v : ℤ} (hv : 0 ≤ v) (h : v < 10 ^ (27 + k)) :
    ∃ m, contextMoney k (inContext v) = .ok m ∧ 0 ≤ m ∧ m ≤ 10 ^ 27 := by
  have hnonneg : 0 ≤ inContext v := toPrecision_nonneg hv
  have hle : money k (inContext v) ≤ 10 ^ 27 := by
    refine quantize_le_of_le k hnonneg ?_
    rw [← pow_add]
    exact toPrecision_le_pow hv h
  refine ⟨_, contextMoney_of_lt ?_, money_nonneg k hnonneg, hle⟩
  rw [abs_of_nonneg (money_nonneg k hnonneg)]
  exact hle.trans_lt (by norm_num)

/-! ## The three charges -/

structure HarbourCharges where
  dues : Decimal 2
  commissionUsd : Decimal 2
  commissionNgn : Decimal 2
  deriving DecidableEq, Repr

/-- The amounts `finalize_inspection` computes in the context.  The division of the
commission by a hundred moves the decimal point and rounds nothing. -/
def contextCharges (nrt : Decimal 3) (rate : Decimal 4) (settings : OrganizationSettings) :
    Result HarbourCharges := do
  let dues ← contextMoney 5 (inContext (nrt * rate))
  let commissionUsd ← contextMoney 6 (inContext (dues * settings.commissionRate))
  let commissionNgn ← contextMoney 4 (inContext (commissionUsd * settings.exchangeRate))
  return { dues := dues, commissionUsd := commissionUsd, commissionNgn := commissionNgn }

/-- The exact half-up roundings, each of the one before. -/
def exactCharges (nrt : Decimal 3) (rate : Decimal 4) (settings : OrganizationSettings) :
    HarbourCharges :=
  let dues := money 5 (nrt * rate)
  let commissionUsd := money 6 (dues * settings.commissionRate)
  { dues := dues
    commissionUsd := commissionUsd
    commissionNgn := money 4 (commissionUsd * settings.exchangeRate) }

/-- The three amounts fit their columns. -/
structure HarbourCharges.Fits (c : HarbourCharges) : Prop where
  dues : c.dues < 10 ^ 18
  commissionUsd : c.commissionUsd < 10 ^ 18
  commissionNgn : c.commissionNgn < 10 ^ 18

/-- Charges fit where none of them overflows its column. -/
theorem HarbourCharges.fits_iff {c : HarbourCharges} : c.Fits ↔ ¬(overflows c.dues = true ∨
    overflows c.commissionUsd = true ∨ overflows c.commissionNgn = true) := by
  simp only [overflows, decide_eq_true_eq, not_or, not_le]
  constructor
  · rintro ⟨hdues, husd, hngn⟩
    exact ⟨hdues, husd, hngn⟩
  · rintro ⟨hdues, husd, hngn⟩
    exact ⟨hdues, husd, hngn⟩

/-- What the validators of the API and the model fields admit. -/
structure Admitted (nrt : Decimal 3) (rate : Decimal 4) (settings : OrganizationSettings) :
    Prop where
  nrt : 0 ≤ nrt ∧ nrt < 10 ^ 16
  rate : 0 ≤ rate ∧ rate < 10 ^ 12
  commissionRate : 0 ≤ settings.commissionRate ∧ settings.commissionRate < 10 ^ 7
  exchangeRate : 0 ≤ settings.exchangeRate ∧ settings.exchangeRate < 10 ^ 14

section Charges

variable {nrt : Decimal 3} {rate : Decimal 4} {settings : OrganizationSettings}

/-- Tonnage times rate is within the context. -/
theorem Admitted.product (h : Admitted nrt rate settings) :
    0 ≤ nrt * rate ∧ nrt * rate < 10 ^ 28 := by
  refine ⟨mul_nonneg h.nrt.1 h.rate.1, ?_⟩
  calc nrt * rate < 10 ^ 16 * 10 ^ 12 :=
        mul_lt_mul'' h.nrt.2 h.rate.2 h.nrt.1 h.rate.1
    _ = 10 ^ 28 := by norm_num

/-- A product below the limit of its column is below it before the rounding. -/
theorem lt_of_money_lt {k : ℕ} {v bound : ℤ} (hv : 0 ≤ v) (h : money k v < bound) :
    v < bound * 10 ^ k := by
  have hpow : (0 : ℤ) < 10 ^ k := by positivity
  have hlt := (quantize_lt_iff k hv bound).mp h
  linarith

/-- The dues never leave the context, whatever their column holds. -/
theorem Admitted.contextDues (h : Admitted nrt rate settings) :
    contextMoney 5 (inContext (nrt * rate)) = .ok (money 5 (nrt * rate)) :=
  contextMoney_inContext (by decide) h.product.1 h.product.2

/-- A commission on dues that fit is rounded exactly. -/
theorem Admitted.contextUsd (h : Admitted nrt rate settings) {dues : Decimal 2}
    (hdues : 0 ≤ dues) (hfits : dues < 10 ^ 18) :
    contextMoney 6 (inContext (dues * settings.commissionRate)) =
      .ok (money 6 (dues * settings.commissionRate)) := by
  refine contextMoney_inContext (by decide) (mul_nonneg hdues h.commissionRate.1) ?_
  calc dues * settings.commissionRate < 10 ^ 18 * 10 ^ 7 :=
        mul_lt_mul'' hfits h.commissionRate.2 hdues h.commissionRate.1
    _ < 10 ^ 28 := by norm_num

/-- **Amounts that fit are exact**, and amounts that are exact and fit are computed. -/
theorem Admitted.contextCharges_fits (h : Admitted nrt rate settings) :
    (∀ c, contextCharges nrt rate settings = .ok c → c.Fits →
      c = exactCharges nrt rate settings) ∧
    ((exactCharges nrt rate settings).Fits →
      contextCharges nrt rate settings = .ok (exactCharges nrt rate settings)) := by
  have hdues : 0 ≤ money 5 (nrt * rate) := money_nonneg 5 h.product.1
  constructor
  · intro c hc hfits
    unfold contextCharges at hc
    rw [h.contextDues, ok_bind] at hc
    simp only [bind_eq_ok, pure_eq_ok] at hc
    obtain ⟨usd, husd, ngn, hngn, rfl⟩ := hc
    rw [h.contextUsd hdues hfits.dues] at husd
    obtain rfl := Except.ok.inj husd
    have hproduct : 0 ≤ money 6 (money 5 (nrt * rate) * settings.commissionRate) *
        settings.exchangeRate :=
      mul_nonneg (money_nonneg 6 (mul_nonneg hdues h.commissionRate.1)) h.exchangeRate.1
    obtain hsmall | hlarge := lt_or_ge (money 6 (money 5 (nrt * rate) * settings.commissionRate) *
        settings.exchangeRate) (10 ^ 28)
    · rw [contextMoney_inContext (by decide) hproduct hsmall] at hngn
      obtain rfl := Except.ok.inj hngn
      rfl
    · have hle := le_contextMoney (by decide) hlarge hngn
      exact absurd (hle.trans_lt hfits.commissionNgn) (by norm_num)
  · intro hfits
    have husd : 0 ≤ money 6 (money 5 (nrt * rate) * settings.commissionRate) :=
      money_nonneg 6 (mul_nonneg hdues h.commissionRate.1)
    have hproduct := mul_nonneg husd h.exchangeRate.1
    have hsmall := (lt_of_money_lt hproduct hfits.commissionNgn).trans_le
      (show (10 : ℤ) ^ 18 * 10 ^ 4 ≤ 10 ^ 28 by norm_num)
    unfold contextCharges
    rw [h.contextDues, ok_bind, h.contextUsd hdues hfits.dues, ok_bind,
      contextMoney_inContext (by decide) hproduct hsmall, ok_bind]
    rfl

/-- The context raises nothing but `InvalidOperation`. -/
theorem contextCharges_error {e : ApiError} (he : contextCharges nrt rate settings = .error e) :
    e = .server "InvalidOperation" := by
  have hmoney : ∀ (k : ℕ) (v : ℤ), Avoids (· ≠ .server "InvalidOperation") (contextMoney k v) :=
    fun k v => avoids_orRaise (not_not.mpr rfl)
  by_contra hne
  refine avoids_bind (hmoney _ _) (fun dues _ => ?_) e he hne
  refine avoids_bind (hmoney _ _) fun usd _ => ?_
  exact avoids_bind (hmoney _ _) fun ngn _ => avoids_ok rfl

end Charges

/-! ## The inputs for which the amounts fit -/

/-- The largest commission in dollars that the exchange rate leaves within the columns. -/
def largestCommission (settings : OrganizationSettings) : Decimal 2 :=
  if settings.exchangeRate = 0 then 10 ^ 18 - 1
  else min (10 ^ 18 - 1) ((10 ^ 22 - 5001) / settings.exchangeRate)

/-- The largest dues that the commission and exchange rates leave within the columns. -/
def largestDues (settings : OrganizationSettings) : Decimal 2 :=
  if settings.commissionRate = 0 then 10 ^ 18 - 1
  else min (10 ^ 18 - 1)
    ((10 ^ 6 * (largestCommission settings + 1) - 500001) / settings.commissionRate)

/-- What tonnage times rate must stay below for the dues to be no larger than that. -/
def duesBound (settings : OrganizationSettings) : Decimal 7 :=
  10 ^ 5 * (largestDues settings + 1) - 50000

section Bounds

variable {nrt : Decimal 3} {rate : Decimal 4} {settings : OrganizationSettings}

/-- The two commissions fit up to a largest one. -/
theorem commission_fits_iff (hrate : 0 ≤ settings.exchangeRate) {usd : Decimal 2} (husd : 0 ≤ usd) :
    (usd < 10 ^ 18 ∧ money 4 (usd * settings.exchangeRate) < 10 ^ 18) ↔
      usd ≤ largestCommission settings := by
  unfold largestCommission
  split
  · rename_i hzero
    rw [hzero, mul_zero, money, quantize_zero_right, Int.le_sub_one_iff]
    exact and_iff_left (by norm_num)
  · rename_i hne
    have hpos : 0 < settings.exchangeRate := lt_of_le_of_ne hrate (Ne.symm hne)
    rw [le_min_iff, Int.le_sub_one_iff, Int.le_ediv_iff_mul_le hpos, money,
      quantize_lt_iff 4 (mul_nonneg husd hrate)]
    refine and_congr_right fun _ => ?_
    constructor <;> intro h <;> linarith

/-- The largest commission is not negative. -/
theorem largestCommission_nonneg (hrate : 0 ≤ settings.exchangeRate) :
    0 ≤ largestCommission settings := by
  refine (commission_fits_iff hrate le_rfl).mp ⟨by norm_num, ?_⟩
  rw [zero_mul, money, quantize_zero_right]
  norm_num

/-- The dues and their commissions fit up to largest dues. -/
theorem dues_fits_iff (hex : 0 ≤ settings.exchangeRate) (hrate : 0 ≤ settings.commissionRate)
    {dues : Decimal 2} (hdues : 0 ≤ dues) :
    (dues < 10 ^ 18 ∧ money 6 (dues * settings.commissionRate) ≤ largestCommission settings) ↔
      dues ≤ largestDues settings := by
  unfold largestDues
  split
  · rename_i hzero
    rw [hzero, mul_zero, money, quantize_zero_right, Int.le_sub_one_iff]
    exact and_iff_left (largestCommission_nonneg hex)
  · rename_i hne
    have hpos : 0 < settings.commissionRate := lt_of_le_of_ne hrate (Ne.symm hne)
    rw [le_min_iff, Int.le_sub_one_iff, Int.le_ediv_iff_mul_le hpos, money, ← Int.lt_add_one_iff,
      quantize_lt_iff 6 (mul_nonneg hdues hrate)]
    refine and_congr_right fun _ => ?_
    constructor <;> intro h <;> linarith

/-- The dues are within the largest exactly below a bound of the product. -/
theorem money_le_largestDues_iff {product : Decimal 7} (hproduct : 0 ≤ product) :
    money 5 product ≤ largestDues settings ↔ product < duesBound settings := by
  rw [← Int.lt_add_one_iff, money, quantize_lt_iff 5 hproduct, duesBound]
  constructor <;> intro h <;> linarith

/-- **The condition pushed back to the inputs.** -/
theorem Admitted.fits_iff (h : Admitted nrt rate settings) :
    (exactCharges nrt rate settings).Fits ↔ nrt * rate < duesBound settings := by
  have hdues : 0 ≤ money 5 (nrt * rate) := money_nonneg 5 h.product.1
  have husd := money_nonneg 6 (mul_nonneg hdues h.commissionRate.1)
  rw [← money_le_largestDues_iff h.product.1, ← dues_fits_iff h.exchangeRate.1 h.commissionRate.1
    hdues, ← commission_fits_iff h.exchangeRate.1 husd]
  constructor
  · rintro ⟨hd, hu, hn⟩
    exact ⟨hd, hu, hn⟩
  · rintro ⟨hd, hu, hn⟩
    exact ⟨hd, hu, hn⟩

end Bounds

/-! ## Finalization in the context -/

/-- `finalize_inspection` of an inspection without an invoice, computed in the context. -/
def billInContext (t : Tenant) (ctx : Ctx) (inspection : Inspection) :
    Result (Tenant × Inspection × Invoice) := do
  let call ← orRaise (Table.get inspection.vesselCallId t.calls)
    (.server "VesselCall.DoesNotExist")
  let inspection := inspection.complete ctx
  let call := call.complete ctx
  let rate ← rateForInspection inspection t.settings
  let charges ← contextCharges call.nrt rate t.settings
  let (number, sequences) := nextNumber ctx t.sequences .invoice "INV"
  let (step, steps) ← activeDefaultStep ctx t.steps
  raiseIf (ctx.uuid 1 ∈ Table.keys t.invoices) (.integrity "billing_invoice_pkey")
  let invoice := { harbourInvoice ctx t.settings call inspection rate number step with
    dues := charges.dues
    commissionUsd := charges.commissionUsd
    commissionNgn := charges.commissionNgn }
  raiseIf (overflows invoice.dues = true ∨ overflows invoice.commissionUsd = true ∨
      overflows invoice.commissionNgn = true) (.server "numeric field overflow")
  let t := { t with
    inspections := Table.put inspection t.inspections
    calls := Table.put call t.calls
    steps := steps
    sequences := sequences
    invoices := invoice :: t.invoices }
  return (t.bumpRevision, inspection, invoice)

/-- `finalize_inspection` in the context. -/
def finalizeInContext (t : Tenant) (ctx : Ctx) (inspection : Inspection) :
    Result (Tenant × Inspection × Invoice) :=
  match invoiceOfInspection t.invoices inspection.id with
  | some existing => pure (t, inspection, existing)
  | none => billInContext t ctx inspection

/-- The request fails for a numeric reason: an operation of the context, or a column. -/
def NumericError (e : ApiError) : Prop :=
  e = .server "InvalidOperation" ∨ e = .server "numeric field overflow"

variable {t t' : Tenant} {ctx : Ctx} {inspection : Inspection} {call : VesselCall}
  {rate : Decimal 4}

/-- The rate of an inspection is one of the settings, or zero. -/
theorem rateForInspection_admitted (hvalid : Organizations.settingsValid t.settings = true)
    (h : rateForInspection inspection t.settings = .ok rate) : 0 ≤ rate ∧ rate < 10 ^ 12 := by
  simp only [Organizations.settingsValid, Bool.and_eq_true, decimalField_iff] at hvalid
  obtain ⟨⟨⟨⟨⟨⟨_, _⟩, hgovernment⟩, hprivate⟩, hinternational⟩, hdry⟩, _⟩ := hvalid
  unfold rateForInspection at h
  split at h
  · exact pure_eq_ok.mp h ▸ hdry
  · simp only [bind_eq_ok] at h
    obtain ⟨type, _, category, _, h⟩ := h
    split at h
    · exact pure_eq_ok.mp h ▸ hinternational
    · split at h
      · exact pure_eq_ok.mp h ▸ hgovernment
      · split at h
        · exact pure_eq_ok.mp h ▸ hprivate
        · rw [← pure_eq_ok.mp h]
          exact ⟨le_rfl, by norm_num⟩

/-- Settings and tonnage as the serializers admit them. -/
theorem admitted_of_valid (hvalid : Organizations.settingsValid t.settings = true)
    (hnrt : decimalField 16 call.nrt = true)
    (hrate : rateForInspection inspection t.settings = .ok rate) :
    Admitted call.nrt rate t.settings := by
  have hset := hvalid
  simp only [Organizations.settingsValid, Bool.and_eq_true, decimalField_iff] at hset
  exact ⟨decimalField_iff.mp hnrt, rateForInspection_admitted hvalid hrate,
    hset.1.1.1.1.1.1, hset.1.1.1.1.1.2⟩

/-- Everything but the arithmetic lets the finalization go through. -/
structure Finalizable (t : Tenant) (ctx : Ctx) (inspection : Inspection) (call : VesselCall)
    (rate : Decimal 4) : Prop where
  workflow : Workflow t.steps
  found : Table.get inspection.vesselCallId t.calls = some call
  rated : rateForInspection inspection t.settings = .ok rate
  uninvoiced : invoiceOfInspection t.invoices inspection.id = none
  fresh : ctx.uuid 1 ∉ Table.keys t.invoices

namespace Finalizable

variable (h : Finalizable t ctx inspection call rate)

include h

/-- Where the charges cannot be computed, the finalization fails so. -/
theorem of_error {e : ApiError} (he : contextCharges call.nrt rate t.settings = .error e) :
    finalizeInContext t ctx inspection = .error e := by
  have hrated : rateForInspection (inspection.complete ctx) t.settings = .ok rate := h.rated
  have hcharges : contextCharges (call.complete ctx).nrt rate t.settings = .error e := he
  unfold finalizeInContext
  rw [h.uninvoiced]
  dsimp only
  unfold billInContext
  rw [orRaise_of_some h.found, ok_bind]
  dsimp only
  rw [hrated, ok_bind, hcharges]
  rfl

/-- Where the charges do not fit, the row cannot be written. -/
theorem of_overflow {c : HarbourCharges} (hc : contextCharges call.nrt rate t.settings = .ok c)
    (hfits : ¬c.Fits) :
    finalizeInContext t ctx inspection = .error (.server "numeric field overflow") := by
  obtain ⟨step, _, _, hstep⟩ := h.workflow.activeDefaultStep ctx
  have hrated : rateForInspection (inspection.complete ctx) t.settings = .ok rate := h.rated
  have hcharges : contextCharges (call.complete ctx).nrt rate t.settings = .ok c := hc
  unfold finalizeInContext
  rw [h.uninvoiced]
  dsimp only
  unfold billInContext
  rw [orRaise_of_some h.found, ok_bind]
  dsimp only
  rw [hrated, ok_bind, hcharges, ok_bind]
  rw [hstep, ok_bind, raiseIf_of_not h.fresh, ok_bind,
    raiseIf_of_pos (not_not.mp (mt HarbourCharges.fits_iff.mpr hfits))]
  rfl

/-- Where they fit, the invoice has them. -/
theorem of_fits {c : HarbourCharges} (hc : contextCharges call.nrt rate t.settings = .ok c)
    (hfits : c.Fits) : ∃ t' inspection' i, finalizeInContext t ctx inspection =
      .ok (t', inspection', i) ∧ i.dues = c.dues ∧ i.commissionUsd = c.commissionUsd ∧
        i.commissionNgn = c.commissionNgn := by
  obtain ⟨step, _, _, hstep⟩ := h.workflow.activeDefaultStep ctx
  have hrated : rateForInspection (inspection.complete ctx) t.settings = .ok rate := h.rated
  have hcharges : contextCharges (call.complete ctx).nrt rate t.settings = .ok c := hc
  unfold finalizeInContext
  rw [h.uninvoiced]
  dsimp only
  unfold billInContext
  rw [orRaise_of_some h.found, ok_bind]
  dsimp only
  rw [hrated, ok_bind, hcharges, ok_bind]
  rw [hstep, ok_bind, raiseIf_of_not h.fresh, ok_bind,
    raiseIf_of_not (HarbourCharges.fits_iff.mp hfits), ok_bind]
  exact ⟨_, _, _, rfl, rfl, rfl, rfl⟩

end Finalizable

/-- **The exact model is what the context computes**: whatever finalization accepts, it
accepts with the same result in either arithmetic. -/
theorem finalizeInContext_eq_ok_iff (hvalid : Organizations.settingsValid t.settings = true)
    (hnrt : decimalField 16 call.nrt = true) (h : Finalizable t ctx inspection call rate)
    {r : Tenant × Inspection × Invoice} :
    finalizeInContext t ctx inspection = .ok r ↔ finalizeInspection t ctx inspection = .ok r := by
  have hadmitted := admitted_of_valid hvalid hnrt h.rated
  have hrated : rateForInspection (inspection.complete ctx) t.settings = .ok rate := h.rated
  have hcall : orRaise (Table.get inspection.vesselCallId t.calls)
      (ApiError.server "VesselCall.DoesNotExist") = .ok call := orRaise_of_some h.found
  unfold finalizeInContext finalizeInspection
  simp only [h.uninvoiced, billInContext, billInspection, hcall, hrated, ok_bind, bind_eq_ok,
    raiseIf_eq_ok, Prod.exists]
  constructor
  · rintro ⟨c, hc, step, steps, hstep, _, hfresh, _, hfits, hr⟩
    obtain rfl := hadmitted.contextCharges_fits.1 c hc (HarbourCharges.fits_iff.mpr hfits)
    exact ⟨step, steps, hstep, (), hfresh, (), hfits, hr⟩
  · rintro ⟨step, steps, hstep, _, hfresh, _, hfits, hr⟩
    have hc := hadmitted.contextCharges_fits.2 (HarbourCharges.fits_iff.mpr hfits)
    exact ⟨_, hc, step, steps, hstep, (), hfresh, (), hfits, hr⟩

/-- What the invoice of a finalization must carry: the exact half-up roundings, each of
the one before, within their columns. -/
structure ExactlyCharged (call : VesselCall) (rate : Decimal 4) (settings : OrganizationSettings)
    (i : Invoice) : Prop where
  dues : i.dues = money 5 (call.nrt * rate)
  commissionUsd : i.commissionUsd = money 6 (i.dues * settings.commissionRate)
  commissionNgn : i.commissionNgn = money 4 (i.commissionUsd * settings.exchangeRate)
  duesFits : i.dues < 10 ^ 18
  usdFits : i.commissionUsd < 10 ^ 18
  ngnFits : i.commissionNgn < 10 ^ 18

/-- **When harbour dues are exact and in range.**  An inspection without an invoice is
finalized, with the exact roundings on its invoice, exactly when tonnage times rate is
below the bound that the commission and exchange rates leave; otherwise finalization
fails for a numeric reason.  What it answers is what the requests of a run answer, in exact
arithmetic. -/
theorem harbour_dues_exact_iff (hvalid : Organizations.settingsValid t.settings = true)
    (hnrt : decimalField 16 call.nrt = true) (h : Finalizable t ctx inspection call rate) :
    ((∃ t' inspection' i, finalizeInContext t ctx inspection = .ok (t', inspection', i) ∧
        ExactlyCharged call rate t.settings i) ↔ call.nrt * rate < duesBound t.settings) ∧
    (¬call.nrt * rate < duesBound t.settings →
      ∃ e, finalizeInContext t ctx inspection = .error e ∧ NumericError e) ∧
    ∀ r, finalizeInContext t ctx inspection = .ok r ↔
      finalizeInspection t ctx inspection = .ok r := by
  have hadmitted := admitted_of_valid hvalid hnrt h.rated
  rw [← hadmitted.fits_iff]
  refine ⟨⟨?_, ?_⟩, ?_, fun r => finalizeInContext_eq_ok_iff hvalid hnrt h⟩
  · rintro ⟨t', inspection', i, _, hexact⟩
    have husd := hexact.commissionUsd
    have hngn := hexact.commissionNgn
    rw [hexact.dues] at husd
    rw [husd] at hngn
    exact ⟨lt_of_eq_of_lt hexact.dues.symm hexact.duesFits,
      lt_of_eq_of_lt husd.symm hexact.usdFits, lt_of_eq_of_lt hngn.symm hexact.ngnFits⟩
  · intro hfits
    obtain ⟨t', inspection', i, hok, hdues, husd, hngn⟩ :=
      h.of_fits (hadmitted.contextCharges_fits.2 hfits) hfits
    refine ⟨t', inspection', i, hok, hdues, ?_, ?_, hdues ▸ hfits.dues,
      husd ▸ hfits.commissionUsd, hngn ▸ hfits.commissionNgn⟩
    · rw [husd, hdues]
      rfl
    · rw [hngn, husd]
      rfl
  · intro hunfit
    cases hc : contextCharges call.nrt rate t.settings with
    | error e => exact ⟨e, h.of_error hc, .inl (contextCharges_error hc)⟩
    | ok c =>
        refine ⟨_, h.of_overflow hc fun hfits => hunfit ?_, .inr rfl⟩
        exact hadmitted.contextCharges_fits.1 c hc hfits ▸ hfits

/-- After every run, an inspection with its call and its rate is finalizable as long as
nothing is invoiced. -/
theorem Finalizable.ofRun {sha : Measurements.Sha256} {t₀ : Tenant} (h₀ : t₀.Initial)
    (rs : List Request) (ht : run (Tenant.handle sha) t₀ rs = t)
    (hcall : Table.get inspection.vesselCallId t.calls = some call)
    (hrate : rateForInspection inspection t.settings = .ok rate) (hnone : t.invoices = []) :
    Finalizable t ctx inspection call rate where
  workflow := (ht ▸ (Ledgers.ofInitial h₀).run rs : Ledgers t).workflow
  found := hcall
  rated := hrate
  uninvoiced := by simp [hnone, invoiceOfInspection]
  fresh := by simp [hnone]

/-- Dry cargo has one rate. -/
theorem rateForInspection_dry {settings : OrganizationSettings} (h : inspection.cargoType = .dry) :
    rateForInspection inspection settings = .ok settings.dryDuesRate := by
  simp [rateForInspection, h, pure, Except.pure]

/-- A draft for dry cargo of a call of the given tonnage, at the given rate. -/
def sampleDraft (nrt : Decimal 3) (rate : Decimal 4) : List Request := [
  .organizations 1 (Sample.ctx 1) (.putSettings { dryDuesRate := some rate }),
  .operations 1 (Sample.ctx 2) (.createCall
    { vesselName := some "MV Lagos", reference := some "ROT-1", nrt := some nrt }),
  .operations 1 (Sample.ctx 3) (.createInspection
    { callId := some 20000, cargoType := some .dry } "")]

/-- The draft of a sample can be finalized but for the arithmetic. -/
theorem sampleDraft_finalizable (nrt : Decimal 3) (rate : Decimal 4)
    (hdraft : ∃ inspection ∈ (run (Tenant.handle Sample.sha) Sample.tenant
      (sampleDraft nrt rate)).inspections, inspection.cargoType = .dry ∧
        ∃ call ∈ (run (Tenant.handle Sample.sha) Sample.tenant (sampleDraft nrt rate)).calls,
          call.nrt = nrt ∧ Table.get inspection.vesselCallId (run (Tenant.handle Sample.sha)
            Sample.tenant (sampleDraft nrt rate)).calls = some call)
    (hrate : (run (Tenant.handle Sample.sha) Sample.tenant
      (sampleDraft nrt rate)).settings.dryDuesRate = rate)
    (hnone : (run (Tenant.handle Sample.sha) Sample.tenant
      (sampleDraft nrt rate)).invoices.length = 0) :
    ∃ inspection ∈ (run (Tenant.handle Sample.sha) Sample.tenant
      (sampleDraft nrt rate)).inspections, ∃ call : VesselCall, call.nrt = nrt ∧
        Finalizable (run (Tenant.handle Sample.sha) Sample.tenant (sampleDraft nrt rate))
          (Sample.ctx 4) inspection call rate := by
  obtain ⟨inspection, hmem, hdry, call, _, hnrt, hcall⟩ := hdraft
  refine ⟨inspection, hmem, call, hnrt, .ofRun Sample.initial _ rfl hcall ?_
    (List.length_eq_zero_iff.mp hnone)⟩
  rw [rateForInspection_dry hdry, hrate]

/-- A thousand tons at 0.20 are charged 200.00. -/
theorem harbour_dues_exact_sample :
    ∃ inspection ∈ (run (Tenant.handle Sample.sha) Sample.tenant
        (sampleDraft 1000000 2000)).inspections, ∃ t' inspection' i,
      finalizeInContext (run (Tenant.handle Sample.sha) Sample.tenant
        (sampleDraft 1000000 2000)) (Sample.ctx 4) inspection = .ok (t', inspection', i) ∧
      i.dues = 20000 := by
  obtain ⟨inspection, hmem, call, hnrt, hfinalizable⟩ := sampleDraft_finalizable 1000000 2000
    (by decide +kernel) (by decide +kernel) (by decide +kernel)
  have hbound : call.nrt * 2000 < duesBound (run (Tenant.handle Sample.sha) Sample.tenant
      (sampleDraft 1000000 2000)).settings := by
    rw [hnrt]
    decide +kernel
  obtain ⟨t', inspection', i, hok, hexact⟩ := (harbour_dues_exact_iff (by decide +kernel)
    (by rw [hnrt]; decide) hfinalizable).1.mpr hbound
  refine ⟨inspection, hmem, t', inspection', i, hok, ?_⟩
  rw [hexact.dues, hnrt]
  decide

/-- The largest tonnage at the largest rate: the dues have 23 digits, and finalization
fails in the database. -/
theorem largest_dues_overflow :
    ∃ inspection ∈ (run (Tenant.handle Sample.sha) Sample.tenant
        (sampleDraft 9999999999999999 999999999999)).inspections, ∃ call : VesselCall,
      Organizations.settingsValid (run (Tenant.handle Sample.sha) Sample.tenant
        (sampleDraft 9999999999999999 999999999999)).settings = true ∧
      decimalField 16 call.nrt = true ∧
      Finalizable (run (Tenant.handle Sample.sha) Sample.tenant
        (sampleDraft 9999999999999999 999999999999)) (Sample.ctx 4) inspection call
          999999999999 ∧
      finalizeInContext (run (Tenant.handle Sample.sha) Sample.tenant
        (sampleDraft 9999999999999999 999999999999)) (Sample.ctx 4) inspection =
          .error (.server "numeric field overflow") := by
  obtain ⟨inspection, hmem, call, hnrt, hfinalizable⟩ :=
    sampleDraft_finalizable 9999999999999999 999999999999
      (by decide +kernel) (by decide +kernel) (by decide +kernel)
  refine ⟨inspection, hmem, call, by decide +kernel, by rw [hnrt]; decide, hfinalizable, ?_⟩
  have hcharges : ∃ c, contextCharges 9999999999999999 999999999999
      (run (Tenant.handle Sample.sha) Sample.tenant
        (sampleDraft 9999999999999999 999999999999)).settings = .ok c ∧ 10 ^ 18 ≤ c.dues := by
    refine ⟨{
      dues := 99999999999899990000000
      commissionUsd := 49999999999949995000
      commissionNgn := 74999999999924992500000 }, ?_, by decide⟩
    decide +kernel
  obtain ⟨c, hc, hlarge⟩ := hcharges
  exact hfinalizable.of_overflow (hnrt ▸ hc) fun hfits => absurd hfits.dues (not_lt.mpr hlarge)

end VesselCaller.Operations
