import VesselCaller.Effect

/-!
# What the measurement endpoints leave alone

A measurement request writes plans, agencies, portal sessions and the revision of the
organization, and the one that issues an assessment writes one invoice as well.
`SameSite` is the rest: accounts, settings, calls and inspections.

## Main definitions

* `SameScope`, `SamePlans`, `SameRecords` — accounts, plans and records that are the same;
* `SameSite`, `Undisturbed` — what a measurement request leaves, and one that issues nothing.
-/

namespace VesselCaller

open Lib Accounts Billing Operations Measurements

/-- The account scope is the same up to the revision of the organization. -/
structure SameScope (t t' : Tenant) : Prop where
  organization : { t'.organization with revision := t.organization.revision } = t.organization
  tables : t'.toAccountScope = { t.toAccountScope with organization := t'.organization }

theorem SameScope.refl (t : Tenant) : SameScope t t := ⟨rfl, rfl⟩

theorem SameScope.users {t t' : Tenant} (h : SameScope t t') : t'.users = t.users := by
  have husers := congrArg AccountScope.users h.tables
  exact husers

theorem SameScope.trans {t₁ t₂ t₃ : Tenant} (h : SameScope t₁ t₂) (h' : SameScope t₂ t₃) :
    SameScope t₁ t₃ := by
  refine ⟨?_, ?_⟩
  · rw [← h.organization, ← h'.organization]
  · rw [h'.tables, h.tables]

/-- The accounts, the settings, the calls and the inspections are the same. -/
structure SameSite (t t' : Tenant) : Prop extends SameScope t t' where
  settings : t'.settings = t.settings
  calls : t'.calls = t.calls
  inspections : t'.inspections = t.inspections

theorem SameSite.refl (t : Tenant) : SameSite t t := ⟨.refl t, rfl, rfl, rfl⟩

variable {sha : Sha256} {t t' : Tenant} {ctx : Ctx} {actor : Id}

/-- A plan written by `changed`. -/
theorem SameSite.changed (t : Tenant) (p : MeasurementPlan) : SameSite t (t.changed p) :=
  ⟨⟨rfl, rfl⟩, rfl, rfl, rfl⟩

/-- The rest of the tenant, and its workflow steps, invoices and document numbers, are
the same. -/
def Undisturbed (t t' : Tenant) : Prop :=
  SameSite t t' ∧ t'.steps = t.steps ∧ t'.invoices = t.invoices ∧ t'.sequences = t.sequences

theorem Undisturbed.refl (t : Tenant) : Undisturbed t t := ⟨.refl t, rfl, rfl, rfl⟩

theorem Undisturbed.changed (t : Tenant) (p : MeasurementPlan) : Undisturbed t (t.changed p) :=
  ⟨.changed t p, rfl, rfl, rfl⟩

theorem Measurements.Issued.sameSite {p p' : MeasurementPlan} {a : Assessment} {i : Invoice}
    (h : Issued t t' p p' a i) : SameSite t t' := by
  obtain ⟨s, sequences, _, _, _, _, ht⟩ := h.step
  rw [ht]
  exact ⟨⟨rfl, rfl⟩, rfl, rfl, rfl⟩

/-- **A measurement request** disturbs nothing, or issues an assessment. -/
theorem measurements_frame {op : Measurements.Op} {response : Measurements.Response}
    (h : op.handle sha t ctx actor = .ok (t', response)) :
    Undisturbed t t' ∨ ∃ p p' a i, op.kind = .issue p.id a.id ∧
      Table.get p.id t.plans = some p ∧ Issued t t' p p' a i := by
  cases op with
  | issue planId assessmentId version =>
      simp only [Measurements.Op.handle, bind_eq_ok, pure_eq_ok, Prod.exists, Prod.mk.injEq] at h
      obtain ⟨_, _, p, hp, t₁, i, hi, _, _, rfl, _⟩ := h
      obtain ⟨_, rfl⟩ := getPlan_eq_ok hp
      obtain ⟨a, _, rfl, ⟨_, rfl⟩ | ⟨_, p', hissued⟩⟩ := issueAssessment_cases hi
      · exact .inl (.refl t₁)
      · exact .inr ⟨p, p', a, i, rfl, orRaise_eq_ok.mp hp, hissued⟩
  | createPlan data =>
      simp only [Measurements.Op.handle, createPlan, bind_eq_ok, pure_eq_ok, Prod.mk.injEq] at h
      obtain ⟨_, _, _, _, _, _, p, _, rfl, _⟩ := h
      exact .inl ⟨⟨⟨rfl, rfl⟩, rfl, rfl, rfl⟩, rfl, rfl, rfl⟩
  | finalize planId rid version =>
      simp only [Measurements.Op.handle, bind_eq_ok, pure_eq_ok, Prod.mk.injEq] at h
      obtain ⟨_, _, p, _, r, _, t₁, ht₁, _, _, rfl, _⟩ := h
      obtain ⟨_, rfl⟩ | ⟨_, p', r', _, rfl⟩ := finalizeReconciliation_cases ht₁
      · exact .inl (.refl _)
      · exact .inl (.changed t p')
  | patchPlan planId data =>
      simp only [Measurements.Op.handle, bind_eq_ok, pure_eq_ok, changedResponse,
        Prod.mk.injEq] at h
      obtain ⟨_, _, _, _, p', _, rfl, _⟩ := h
      exact .inl (.changed t p')
  | submit planId data =>
      simp only [Measurements.Op.handle, bind_eq_ok, pure_eq_ok, changedResponse,
        Prod.mk.injEq] at h
      obtain ⟨_, _, _, _, p', _, rfl, _⟩ := h
      exact .inl (.changed t p')
  | propose planId data =>
      simp only [Measurements.Op.handle, bind_eq_ok, pure_eq_ok, changedResponse,
        Prod.mk.injEq] at h
      obtain ⟨_, _, _, _, p', _, rfl, _⟩ := h
      exact .inl (.changed t p')
  | approve planId rid data =>
      simp only [Measurements.Op.handle, bind_eq_ok, pure_eq_ok, changedResponse,
        Prod.mk.injEq] at h
      obtain ⟨_, _, _, _, _, _, p', _, rfl, _⟩ := h
      exact .inl (.changed t p')
  | assess planId data =>
      simp only [Measurements.Op.handle, bind_eq_ok, pure_eq_ok, changedResponse,
        Prod.mk.injEq] at h
      obtain ⟨_, _, _, _, p', _, rfl, _⟩ := h
      exact .inl (.changed t p')
  | createLink planId participant days token =>
      simp only [Measurements.Op.handle, bind_eq_ok, pure_eq_ok, Prod.exists, Prod.mk.injEq] at h
      obtain ⟨_, _, _, _, p', _, _, rfl, _⟩ := h
      exact .inl ⟨⟨⟨rfl, rfl⟩, rfl, rfl, rfl⟩, rfl, rfl, rfl⟩
  | revokeLink planId linkId =>
      simp only [Measurements.Op.handle, bind_eq_ok, pure_eq_ok, Prod.mk.injEq] at h
      obtain ⟨_, _, p', _, rfl, _⟩ := h
      exact .inl ⟨⟨⟨rfl, rfl⟩, rfl, rfl, rfl⟩, rfl, rfl, rfl⟩
  | addEvidence planId data =>
      simp only [Measurements.Op.handle, bind_eq_ok, pure_eq_ok, Prod.exists, Prod.mk.injEq] at h
      obtain ⟨_, _, _, _, p', _, _, rfl, _⟩ := h
      exact .inl ⟨⟨⟨rfl, rfl⟩, rfl, rfl, rfl⟩, rfl, rfl, rfl⟩
  | createAgency data =>
      simp only [Measurements.Op.handle, createAgency, bind_eq_ok, pure_eq_ok, Prod.exists,
        Prod.mk.injEq] at h
      obtain ⟨_, _, ⟨_, _, _, _, _, _, _, _, rfl, _⟩, rfl, _⟩ := h
      exact .inl ⟨⟨⟨rfl, rfl⟩, rfl, rfl, rfl⟩, rfl, rfl, rfl⟩
  | patchAgency agencyId version data =>
      simp only [Measurements.Op.handle, patchAgency, bind_eq_ok, pure_eq_ok, Prod.exists,
        Prod.mk.injEq] at h
      obtain ⟨_, _, ⟨_, _, _, _, _, _, _, _, _, _, rfl, _⟩, rfl, _⟩ := h
      exact .inl ⟨⟨⟨rfl, rfl⟩, rfl, rfl, rfl⟩, rfl, rfl, rfl⟩

theorem portal_frame {op : PortalOp} {response : Measurements.Response}
    (h : op.handle sha t ctx = .ok (t', response)) : Undisturbed t t' := by
  cases op with
  | exchange token nonce fresh =>
      simp only [PortalOp.handle, portalExchange, bind_eq_ok, pure_eq_ok, Prod.exists,
        Prod.mk.injEq] at h
      obtain ⟨_, _, ⟨_, _, _, _, _, h⟩, rfl, _⟩ := h
      split at h
      · simp only [bind_eq_ok, pure_eq_ok, Prod.mk.injEq] at h
        obtain ⟨_, _, _, _, _, _, rfl, _⟩ := h
        exact ⟨⟨⟨rfl, rfl⟩, rfl, rfl, rfl⟩, rfl, rfl, rfl⟩
      · simp only [bind_eq_ok, pure_eq_ok, Prod.mk.injEq] at h
        obtain ⟨_, _, rfl, _⟩ := h
        exact ⟨⟨⟨rfl, rfl⟩, rfl, rfl, rfl⟩, rfl, rfl, rfl⟩
  | submit nonce data =>
      simp only [PortalOp.handle, portalSubmission, bind_eq_ok, pure_eq_ok, Prod.exists,
        Prod.mk.injEq] at h
      obtain ⟨_, _, ⟨_, _, p, link, _, h⟩, rfl, _⟩ := h
      split at h
      · simp only [bind_eq_ok, pure_eq_ok, Prod.mk.injEq] at h
        obtain ⟨_, _, rfl, _⟩ := h
        exact .refl _
      · simp only [bind_eq_ok, pure_eq_ok, Prod.exists, Prod.mk.injEq] at h
        obtain ⟨p', link', _, rfl, _⟩ := h
        exact .changed t p'

/-! ## The other requests and the accounts -/

/-- A measurement request that issues an assessment leaves the accounts alone as well. -/
theorem measurements_sameScope {op : Measurements.Op} {response : Measurements.Response}
    (h : op.handle sha t ctx actor = .ok (t', response)) : SameScope t t' := by
  obtain ⟨hsite, _⟩ | ⟨_, _, _, _, _, _, hissued⟩ := measurements_frame h
  · exact hsite.toSameScope
  · exact hissued.sameSite.toSameScope

/-- The accounts and the measurement plans are the same. -/
def SamePlans (t t' : Tenant) : Prop := SameScope t t' ∧ t'.plans = t.plans

theorem SamePlans.refl (t : Tenant) : SamePlans t t := ⟨.refl t, rfl⟩

theorem Operations.Billed.samePlans {inspection : Inspection} {call : VesselCall}
    {rate : Decimal 4} {i : Invoice} (h : Billed ctx t t' inspection call rate i) :
    SamePlans t t' := by
  rw [h.tenant]
  exact ⟨⟨rfl, rfl⟩, rfl⟩

/-- **A request about calls and inspections** leaves accounts and plans alone. -/
theorem operations_frame {op : Operations.Op} {response : Operations.Response}
    (h : op.handle t ctx = .ok (t', response)) : SamePlans t t' := by
  cases handle_step h with
  | callCreated _ _ _ _ tenant => exact tenant ▸ ⟨⟨rfl, rfl⟩, rfl⟩
  | callPatched _ _ _ _ _ _ _ _ tenant => exact tenant ▸ ⟨⟨rfl, rfl⟩, rfl⟩
  | callCancelled _ _ _ _ _ _ _ _ _ _ tenant => exact tenant ▸ ⟨⟨rfl, rfl⟩, rfl⟩
  | cancelReplayed _ _ _ _ _ _ _ tenant => exact tenant ▸ .refl _
  | creationReplayed _ _ _ _ _ _ tenant => exact tenant ▸ .refl _
  | drafted _ _ _ _ _ _ _ _ _ tenant => exact tenant ▸ ⟨⟨rfl, rfl⟩, rfl⟩
  | draftedAndBilled _ _ call inspection _ sequences _ _ _ _ billed =>
      have hinspected : SameScope t (inspected t call inspection sequences) := ⟨rfl, rfl⟩
      exact ⟨hinspected.trans billed.samePlans.1, billed.samePlans.2⟩
  | draftedInvoiced _ _ _ _ _ _ _ _ _ _ _ _ tenant => exact tenant ▸ ⟨⟨rfl, rfl⟩, rfl⟩
  | inspectionPatched _ _ _ _ _ _ _ _ _ _ tenant => exact tenant ▸ ⟨⟨rfl, rfl⟩, rfl⟩
  | finalizationReplayed _ _ _ _ _ _ _ _ _ _ tenant => exact tenant ▸ .refl _
  | billed _ _ _ _ _ _ _ hbilled => exact hbilled.samePlans

/-- **A request about invoices** leaves accounts and plans alone, and the inspections and
document numbers. -/
theorem billing_frame {op : Billing.Op} {response : Billing.Response}
    (h : op.handle t ctx actor = .ok (t', response)) :
    SamePlans t t' ∧ t'.inspections = t.inspections ∧ t'.sequences = t.sequences := by
  cases op with
  | createPayment invoiceId data header =>
      simp only [Billing.Op.handle, createPayment, paymentResponse, bind_eq_ok, pure_eq_ok,
        Prod.exists, Prod.mk.injEq] at h
      obtain ⟨_, _, _, ⟨_, _, _, _, _, _, h⟩, rfl, _⟩ := h
      split at h
      · simp only [pure_eq_ok, Prod.mk.injEq] at h
        exact h.1 ▸ ⟨.refl _, rfl, rfl⟩
      · simp only [recordPayment, bind_eq_ok, pure_eq_ok, Prod.exists, Prod.mk.injEq] at h
        obtain ⟨_, _, _, _, _, _, _, _, _, _, _, rfl, _, _⟩ := h
        exact ⟨⟨⟨rfl, rfl⟩, rfl⟩, rfl, rfl⟩
  | reversePayment paymentId reason =>
      simp only [Billing.Op.handle, reversePayment, paymentResponse, bind_eq_ok, pure_eq_ok,
        Prod.exists, Prod.mk.injEq] at h
      obtain ⟨_, _, _, ⟨_, _, _, _, _, h⟩, rfl, _⟩ := h
      split at h
      · simp only [pure_eq_ok, Prod.mk.injEq] at h
        exact h.1 ▸ ⟨.refl _, rfl, rfl⟩
      · simp only [bind_eq_ok, pure_eq_ok, Prod.exists, Prod.mk.injEq] at h
        obtain ⟨_, _, _, rfl, _, _⟩ := h
        exact ⟨⟨⟨rfl, rfl⟩, rfl⟩, rfl, rfl⟩
  | transition invoiceId statusId note =>
      simp only [Billing.Op.handle, transitionView, bind_eq_ok, pure_eq_ok, Prod.exists,
        Prod.mk.injEq] at h
      obtain ⟨_, _, ⟨_, _, _, _, _, _, _, _, _, _, _, _, _, recorded, _, ht, _⟩, rfl, _⟩ := h
      subst ht
      cases recorded with
      | false => exact ⟨.refl _, rfl, rfl⟩
      | true => exact ⟨⟨⟨rfl, rfl⟩, rfl⟩, rfl, rfl⟩
  | createStep data =>
      simp only [Billing.Op.handle, createStepView, bind_eq_ok, pure_eq_ok, Prod.exists,
        Prod.mk.injEq] at h
      obtain ⟨_, _, ⟨_, _, _, _, _, _, _, _, _, _, _, _, _, _, rfl, _⟩, rfl, _⟩ := h
      exact ⟨⟨⟨rfl, rfl⟩, rfl⟩, rfl, rfl⟩
  | patchStep stepId data =>
      simp only [Billing.Op.handle, patchStep, bind_eq_ok, pure_eq_ok, Prod.exists,
        Prod.mk.injEq] at h
      obtain ⟨_, _, ⟨_, _, _, _, _, _, _, _, _, _, h⟩, rfl, _⟩ := h
      split at h <;> simp only [pure_eq_ok, Prod.mk.injEq] at h
      · exact h.1 ▸ ⟨.refl _, rfl, rfl⟩
      · exact h.1 ▸ ⟨⟨⟨rfl, rfl⟩, rfl⟩, rfl, rfl⟩
  | reorderSteps ids =>
      simp only [Billing.Op.handle, reorderSteps, bind_eq_ok, pure_eq_ok, Prod.exists,
        Prod.mk.injEq] at h
      obtain ⟨_, _, ⟨_, _, _, _, _, _, rfl, _⟩, rfl, _⟩ := h
      exact ⟨⟨⟨rfl, rfl⟩, rfl⟩, rfl, rfl⟩

/-! ## Organization requests -/

/-- The workflow steps, the calls, the inspections, the invoices, the document numbers
and the plans are the same. -/
structure SameRecords (t t' : Tenant) : Prop where
  steps : t'.steps = t.steps
  calls : t'.calls = t.calls
  inspections : t'.inspections = t.inspections
  invoices : t'.invoices = t.invoices
  plans : t'.plans = t.plans
  sequences : t'.sequences = t.sequences

/-- **An organization request** leaves every record alone. -/
theorem organizations_frame {op : Organizations.Op} {response : Organizations.Response}
    (h : op.handle t = .ok (t', response)) : SameRecords t t' := by
  cases op with
  | putOrganization data =>
      simp only [Organizations.Op.handle, Organizations.putOrganization, bind_eq_ok, pure_eq_ok,
        Prod.mk.injEq] at h
      obtain ⟨_, ⟨_, _, _, _, rfl⟩, rfl, _⟩ := h
      exact ⟨rfl, rfl, rfl, rfl, rfl, rfl⟩
  | putLogo data =>
      simp only [Organizations.Op.handle, Organizations.putLogo, bind_eq_ok, pure_eq_ok,
        Prod.mk.injEq] at h
      obtain ⟨_, ⟨_, _, _, _, rfl⟩, rfl, _⟩ := h
      exact ⟨rfl, rfl, rfl, rfl, rfl, rfl⟩
  | deleteLogo =>
      simp only [Organizations.Op.handle, pure_eq_ok, Prod.mk.injEq] at h
      exact h.1 ▸ ⟨rfl, rfl, rfl, rfl, rfl, rfl⟩
  | putSettings data =>
      simp only [Organizations.Op.handle, Organizations.putSettings, bind_eq_ok, pure_eq_ok,
        Prod.mk.injEq] at h
      obtain ⟨_, ⟨_, _, rfl⟩, rfl, _⟩ := h
      exact ⟨rfl, rfl, rfl, rfl, rfl, rfl⟩

end VesselCaller
