import VesselCaller.System
import VesselCaller.Measurements.Inversion

/-!
# The dates of an issued invoice

Two services create invoices.  `issueAssessment` takes every date from
`timezone.localdate()`; `finalizeInspection` takes the number and the berth date from
it, but `issued_on` and `due_on` from the date of the UTC clock.  Between the two
midnights the invoice is dated a day off its own number.

## Main definitions

* `IssuingPath`, `Creates` — the two services, and a step in which one of them makes an
  invoice;
* `DatedAt` — the dates of an invoice, by the instant and the offset it was issued at.
-/

namespace VesselCaller.Billing

open Lib Accounts Operations Measurements

variable {ctx : Ctx} {t t' : Tenant} {i : Invoice}

/-- The service that creates an invoice. -/
inductive IssuingPath where
  | finalizeInspection
  | issueAssessment
  deriving DecidableEq, Repr

/-- The request of `ctx` created the invoice `i` on the path. -/
inductive Creates (ctx : Ctx) (t t' : Tenant) (i : Invoice) : IssuingPath → Prop where
  | finalized (inspection inspection' : Inspection)
      (uninvoiced : invoiceOfInspection t.invoices inspection.id = none)
      (h : finalizeInspection t ctx inspection = .ok (t', inspection', i)) :
      Creates ctx t t' i .finalizeInspection
  | issued (actor : Id) (plan : MeasurementPlan) (assessmentId : Id) (version : ℕ)
      (uninvoiced : invoiceOf t.invoices assessmentId = none)
      (h : issueAssessment t ctx actor plan assessmentId version = .ok (t', i)) :
      Creates ctx t t' i .issueAssessment

/-- The issue date is the local date of the instant, the due date is two weeks later,
the number carries the year of the issue date, and a berth date the request set is the
issue date. -/
structure DatedAt (ctx : Ctx) (t t' : Tenant) (i : Invoice) : Prop where
  issuedOn : i.issuedOn = ctx.localdate
  dueOn : i.dueOn = i.issuedOn + 14
  number : ∃ value, i.invoiceNo = "INV" ++ "-" ++ toString (Date.year i.issuedOn) ++ "-" ++ pad4 value
  berthDate : ∀ call call' : VesselCall, Table.get i.vesselCallId t.calls = some call →
    call.berthDate = none → Table.get i.vesselCallId t'.calls = some call' →
    call'.berthDate = none ∨ call'.berthDate = some i.issuedOn

/-! ## The two paths -/

/-- What `finalizeInspection` writes into a new invoice and into its call. -/
theorem finalizeInspection_dates {inspection inspection' : Inspection}
    (hnone : invoiceOfInspection t.invoices inspection.id = none)
    (h : finalizeInspection t ctx inspection = .ok (t', inspection', i)) :
    i.issuedOn = ctx.utcdate ∧ i.dueOn = ctx.utcdate + 14 ∧
      (∃ value, i.invoiceNo =
        "INV" ++ "-" ++ toString (Date.year ctx.localdate) ++ "-" ++ pad4 value) ∧
      ∃ call, Table.get i.vesselCallId t.calls = some call ∧
        Table.get i.vesselCallId t'.calls = some (call.complete ctx) := by
  simp only [finalizeInspection, hnone, billInspection, bind_eq_ok, orRaise_eq_ok, raiseIf_eq_ok,
    pure_eq_ok, Prod.exists, Prod.mk.injEq] at h
  obtain ⟨call, hcall, _, _, _, _, _, _, _, _, _, rfl, _, rfl⟩ := h
  obtain ⟨_, hid⟩ := Table.mem_of_get hcall
  have hfound : Table.get call.id t.calls = some call := by
    rw [show call.id = inspection.vesselCallId from hid]
    exact hcall
  refine ⟨rfl, rfl, ⟨_, rfl⟩, call, hfound, ?_⟩
  exact Table.get_put_self (show Table.get (key (call.complete ctx)) t.calls = some call from hfound)

/-- What `issueAssessment` writes into a new invoice; the calls stay as they are. -/
theorem issueAssessment_dates {actor : Id} {plan : MeasurementPlan} {assessmentId : Id}
    {version : ℕ} (hnone : invoiceOf t.invoices assessmentId = none)
    (h : issueAssessment t ctx actor plan assessmentId version = .ok (t', i)) :
    i.issuedOn = ctx.localdate ∧ i.dueOn = ctx.localdate + 14 ∧
      (∃ value, i.invoiceNo =
        "INV" ++ "-" ++ toString (Date.year ctx.localdate) ++ "-" ++ pad4 value) ∧
      t'.calls = t.calls := by
  simp only [issueAssessment, bind_eq_ok, orRaise_eq_ok] at h
  obtain ⟨a, ha, h⟩ := h
  obtain ⟨_, rfl⟩ := Table.mem_of_get ha
  rw [show invoiceOf t.invoices a.id = none from hnone] at h
  simp only [issueReady, bind_eq_ok, pure_eq_ok, Prod.exists, Prod.mk.injEq] at h
  obtain ⟨_, _, _, _, _, _, _, _, _, _, _, _, _, _, step, steps, _, i₁, recorded, htransition, rfl,
    rfl⟩ := h
  obtain ⟨_, _, hstay, _⟩ | ⟨_, _, rfl⟩ := transitionInvoice_eq_ok htransition
  · simp [disparityInvoice] at hstay
  · exact ⟨rfl, rfl, ⟨_, rfl⟩, rfl⟩

/-- **The dates of an issued invoice** are right exactly when the assessment path issued it or
the two calendars agree. -/
theorem issue_dates {path : IssuingPath} (h : Creates ctx t t' i path) :
    DatedAt ctx t t' i ↔ path = .issueAssessment ∨ ctx.utcdate = ctx.localdate := by
  cases h with
  | finalized inspection inspection' hnone h =>
      obtain ⟨hissued, hdue, ⟨value, hnumber⟩, call, hcall, hcall'⟩ :=
        finalizeInspection_dates hnone h
      constructor
      · intro hdated
        exact .inr (hissued.symm.trans hdated.issuedOn)
      · rintro (hpath | hsame)
        · cases hpath
        · rw [hsame] at hissued hdue
          refine ⟨hissued, by rw [hdue, hissued], ⟨value, by rw [hissued, hnumber]⟩, ?_⟩
          intro call₀ call₁ hbefore hunset hafter
          obtain rfl := Option.some.inj (hcall.symm.trans hbefore)
          obtain rfl := Option.some.inj (hcall'.symm.trans hafter)
          simp [VesselCall.complete, hunset, hissued]
  | issued actor plan assessmentId version hnone h =>
      obtain ⟨hissued, hdue, ⟨value, hnumber⟩, hcalls⟩ := issueAssessment_dates hnone h
      refine iff_of_true ?_ (.inl rfl)
      refine ⟨hissued, by rw [hdue, hissued], ⟨value, by rw [hissued, hnumber]⟩, ?_⟩
      intro call₀ call₁ hbefore hunset hafter
      rw [hcalls, hbefore] at hafter
      obtain rfl := Option.some.inj hafter
      exact .inl hunset

/-! ## Half an hour into the new year in Lagos -/

/-- The port with a call and a draft inspection of it. -/
def drafted : Tenant :=
  run (Tenant.handle Sample.sha) Sample.tenant (Sample.abandoned.take 2)

/-- 31 December 2025, 23:30 UTC. -/
def newYear : Ctx := { Sample.ctx 3 with now := 1767223800 }

/-- What finalizing the draft at an instant yields. -/
theorem exists_finalized {ctx : Ctx} {issuedOn dueOn : Date} {invoiceNo : String}
    (h : ((Table.get 20000 drafted.inspections).bind fun inspection =>
      if (invoiceOfInspection drafted.invoices inspection.id).isNone then
        (finalizeInspection drafted ctx inspection).toOption.map fun r =>
          (r.2.2.issuedOn, r.2.2.dueOn, r.2.2.invoiceNo)
      else none) = some (issuedOn, dueOn, invoiceNo)) :
    ∃ t' i, Creates ctx drafted t' i .finalizeInspection ∧
      i.issuedOn = issuedOn ∧ i.dueOn = dueOn ∧ i.invoiceNo = invoiceNo := by
  obtain ⟨inspection, _, h⟩ := Option.bind_eq_some_iff.mp h
  split at h
  · rename_i hnone
    cases hf : finalizeInspection drafted ctx inspection with
    | error e => simp [hf, Except.toOption] at h
    | ok r =>
        simp only [hf, Except.toOption, Option.map_some, Option.some.injEq, Prod.mk.injEq] at h
        exact ⟨r.1, r.2.2, .finalized inspection r.2.1 (Option.isNone_iff_eq_none.mp hnone) hf, h⟩
  · simp at h

/-- The invoice `INV-2026-0001` is issued on the last day of 2025. -/
theorem new_year_invoice : ∃ t' i, Creates newYear drafted t' i .finalizeInspection ∧
    i.issuedOn = 20453 ∧ i.dueOn = 20467 ∧ i.invoiceNo = "INV-2026-0001" ∧
    newYear.localdate = 20454 ∧ ¬DatedAt newYear drafted t' i := by
  obtain ⟨t', i, hcreates, hissued, hdue, hnumber⟩ : ∃ t' i,
      Creates newYear drafted t' i .finalizeInspection ∧ i.issuedOn = 20453 ∧ i.dueOn = 20467 ∧
        i.invoiceNo = "INV-2026-0001" :=
    exists_finalized (by decide +kernel)
  have hlocal : newYear.localdate = 20454 := by decide
  refine ⟨t', i, hcreates, hissued, hdue, hnumber, hlocal, fun hdated => ?_⟩
  have hsame := hdated.issuedOn
  rw [hissued, hlocal] at hsame
  exact absurd hsame (by decide)

/-- An hour later both calendars show the new year. -/
theorem issue_dates_later : ∃ t' i,
    Creates { newYear with now := 1767227400 } drafted t' i .finalizeInspection ∧
      DatedAt { newYear with now := 1767227400 } drafted t' i := by
  obtain ⟨t', i, hcreates, _⟩ : ∃ t' i,
      Creates { newYear with now := 1767227400 } drafted t' i .finalizeInspection ∧
        i.issuedOn = 20454 ∧ i.dueOn = 20468 ∧ i.invoiceNo = "INV-2026-0001" :=
    exists_finalized (by decide +kernel)
  exact ⟨t', i, hcreates, (issue_dates hcreates).mpr (.inr (by decide))⟩

end VesselCaller.Billing
