import VesselCaller.System
import VesselCaller.Measurements.Inversion
import VesselCaller.Operations.Inversion

/-!
# What a request can do to plans and invoices

The inversion of `Tenant.handle` as far as measurement plans and invoices are
concerned.  An accepted request leaves both tables alone, or creates one plan, or
runs one service on one plan, or creates one invoice, or moves money on one
invoice; `Effect` lists these cases with everything the services checked, and
`handle_effect` says there is no other.  Every invariant of the measurement and
billing tables is a case analysis over `Effect`.

## Main definitions

* `Mutation`, `Upkeep` — a service that moves a plan on, and one that files something with it;
* `Effect` — what an accepted request did to plans and invoices, and `handle_effect`;
* `PlanStep` — the same, seen from one plan.
-/

namespace VesselCaller

open Lib Accounts Billing Operations Measurements

/-- The plan mutations that end in `changed`, up to the advance of the version. -/
inductive Mutation (sha : Sha256) (t : Tenant) (p p' : MeasurementPlan) : Prop where
  | patched (live : p.status ≠ .cancelled) (h : Patched p p')
  | submitted (s : Submission) (h : Submitted t p p' s)
  | guest (p₁ : MeasurementPlan) (s : Submission) (link : AgencyLink)
      (h : Submitted t p p₁ s) (plan : p' = { p₁ with links := Table.put link p₁.links })
      (owner : ∃ l ∈ p.links, link.participantId = l.participantId)
  | proposed (actor : Id) (r : Reconciliation) (h : Proposed sha t actor p p' r)
  | approved (r : Reconciliation) (a : Approval) (mem : r ∈ p.reconciliations)
      (h : Approved sha p p' r a)
  | finalized (ctx : Ctx) (actor : Id) (r r' : Reconciliation) (mem : r ∈ p.reconciliations)
      (h : Finalized sha ctx actor p p' r r')
  | assessed (a : Assessment) (h : Assessed t p p' a)
  | issued (t' : Tenant) (a : Assessment) (i : Invoice) (h : Issued t t' p p' a i)

/-- The changes to a plan that do not advance its version. -/
inductive Upkeep (p p' : MeasurementPlan) : Prop where
  | links (ls : List AgencyLink) (plan : p' = { p with links := ls })
      (kept : p.links ≠ [] → ls ≠ []) (owned : p.OwnsLinks ls)
  | evidence (es : List Evidence) (plan : p' = { p with evidence := p.evidence ++ es })

/-- What a request is to a plan: the issuance of an assessment, another operation of
the plan's lifecycle, or neither. -/
inductive RequestKind where
  | issue (plan assessment : Id)
  | lifecycle
  | other
  deriving DecidableEq, Repr

def RequestKind.isLifecycle : RequestKind → Bool
  | .other => false
  | _ => true

/-- The lifecycle of a plan is made of patch (and cancellation), submission, proposal,
approval, finalization, assessment and issuance. -/
def Measurements.Op.kind : Measurements.Op → RequestKind
  | .patchPlan .. | .submit .. | .propose .. | .approve .. | .finalize .. | .assess .. => .lifecycle
  | .issue plan assessment _ => .issue plan assessment
  | _ => .other

def Measurements.PortalOp.kind : PortalOp → RequestKind
  | .submit .. => .lifecycle
  | .exchange .. => .other

def Request.kind : Request → RequestKind
  | .measurements _ _ op => op.kind
  | .portal _ op => op.kind
  | _ => .other

/-- A request of the kind of an issuance is a request to issue. -/
theorem Request.eq_of_kind_issue {r : Request} {plan assessment : Id}
    (h : r.kind = .issue plan assessment) : ∃ actor ctx version,
      r = .measurements actor ctx (.issue plan assessment version) := by
  cases r with
  | measurements actor ctx op =>
      cases op with
      | issue planId assessmentId version =>
          obtain ⟨rfl, rfl⟩ : planId = plan ∧ assessmentId = assessment := by
            simpa [Request.kind, Measurements.Op.kind] using h
          exact ⟨actor, ctx, version, rfl⟩
      | _ => simp [Request.kind, Measurements.Op.kind] at h
  | portal ctx op => cases op <;> simp [Request.kind, PortalOp.kind] at h
  | _ => simp [Request.kind] at h

/-- The request is a lifecycle operation. -/
def Request.isLifecycle (r : Request) : Bool := r.kind.isLifecycle

/-- What an accepted request of one kind did to the plans and invoices of the tenant. -/
inductive Effect (sha : Sha256) (kind : RequestKind) (t t' : Tenant) : Prop where
  | quiet (plans : t'.plans = t.plans) (invoices : t'.invoices = t.invoices)
  | created (p : MeasurementPlan) (new : New t p) (other : kind = .other)
      (plans : t'.plans = t.plans ++ [p]) (invoices : t'.invoices = t.invoices)
      (called : p.vesselCallId ∈ Table.keys t.calls)
  | mutated (p p' : MeasurementPlan) (mem : p ∈ t.plans) (h : Mutation sha t p p')
      (assessments : p'.assessments = p.assessments ∨ ∃ a, Assessed t p p' a)
      (own : kind = .lifecycle)
      (plans : t'.plans = Table.put p'.advance t.plans) (invoices : t'.invoices = t.invoices)
  | kept (p p' : MeasurementPlan) (mem : p ∈ t.plans) (h : Upkeep p p')
      (other : kind = .other)
      (plans : t'.plans = Table.put p' t.plans) (invoices : t'.invoices = t.invoices)
  | issued (p p' : MeasurementPlan) (a : Assessment) (i : Invoice) (mem : p ∈ t.plans)
      (h : Issued t t' p p' a i) (own : kind = .issue p.id a.id)
      (plans : t'.plans = Table.put p'.advance t.plans)
      (invoices : t'.invoices = i :: t.invoices)
  | billed (i : Invoice) (fresh : i.id ∉ Table.keys t.invoices) (purpose : i.purpose = .harbourDues)
      (assessmentId : i.assessmentId = none) (plans : t'.plans = t.plans)
      (invoices : t'.invoices = i :: t.invoices)
  | settled (i i' : Invoice) (mem : i ∈ t.invoices) (charge : SameCharge i i')
      (void : i.status = .void → i'.status = .void) (plans : t'.plans = t.plans)
      (invoices : t'.invoices = Table.put i' t.invoices)

variable {sha : Sha256} {kind : RequestKind} {t t' : Tenant} {ctx : Ctx} {actor : Id}

/-! ## Measurement requests -/

theorem getPlan_eq_ok {planId : Id} {p : MeasurementPlan} (h : getPlan t planId = .ok p) :
    p ∈ t.plans ∧ p.id = planId := by
  simp only [getPlan, orRaise_eq_ok] at h
  exact Table.mem_of_get h

/-- A mutation that ended in `changed`. -/
theorem Effect.ofChanged {p p' : MeasurementPlan} (mem : p ∈ t.plans) (h : Mutation sha t p p')
    (assessments : p'.assessments = p.assessments ∨ ∃ a, Assessed t p p' a)
    (ht : t' = t.changed p') : Effect sha .lifecycle t t' := by
  subst ht
  exact .mutated p p' mem h assessments rfl rfl rfl

theorem finalizeReconciliation_effect {p : MeasurementPlan} {r : Reconciliation} {version : ℕ}
    (mem : p ∈ t.plans) (hr : r ∈ p.reconciliations)
    (h : finalizeReconciliation sha t ctx actor p r version = .ok t') :
    Effect sha .lifecycle t t' := by
  obtain ⟨_, rfl⟩ | ⟨_, p', r', hr', rfl⟩ := finalizeReconciliation_cases h
  · exact .quiet rfl rfl
  · exact .ofChanged mem (.finalized ctx actor r r' hr hr') (.inl (by rw [hr'.plan])) rfl

theorem issueAssessment_effect {p : MeasurementPlan} {assessmentId : Id} {version : ℕ} {i : Invoice}
    (mem : p ∈ t.plans) (h : issueAssessment t ctx actor p assessmentId version = .ok (t', i)) :
    Effect sha (.issue p.id assessmentId) t t' := by
  obtain ⟨a, _, rfl, ⟨_, rfl⟩ | ⟨_, p', hissued⟩⟩ := issueAssessment_cases h
  · exact .quiet rfl rfl
  · exact .issued p p' a i mem hissued rfl hissued.plans hissued.invoices

theorem measurements_effect {op : Measurements.Op} {response : Measurements.Response}
    (h : op.handle sha t ctx actor = .ok (t', response)) :
    Effect sha op.kind t t' := by
  cases op with
  | createPlan data =>
      simp only [Measurements.Op.handle, createPlan, bind_eq_ok, pure_eq_ok, Prod.mk.injEq] at h
      obtain ⟨_, hvalid, call, hcall, _, _, p, hp, rfl, _⟩ := h
      obtain ⟨hnew, hid⟩ := newPlan_eq_ok hvalid hp
      obtain ⟨hcall, hkey⟩ := Table.mem_of_get (orRaise_eq_ok.mp hcall)
      exact .created p hnew rfl rfl rfl (hid ▸ Table.mem_keys.mpr ⟨call, hcall, hkey⟩)
  | patchPlan planId data =>
      simp only [Measurements.Op.handle, bind_eq_ok, pure_eq_ok, changedResponse,
        Prod.mk.injEq] at h
      obtain ⟨_, hvalid, p, hp, p', hp', ht, _⟩ := h
      obtain ⟨_, hlive, hpatched⟩ := patchPlan_eq_ok hvalid hp'
      exact .ofChanged (getPlan_eq_ok hp).1 (.patched hlive hpatched)
        (.inl hpatched.assessments) ht.symm
  | submit planId data =>
      simp only [Measurements.Op.handle, bind_eq_ok, pure_eq_ok, changedResponse,
        Prod.mk.injEq] at h
      obtain ⟨_, hvalid, p, hp, p', hp', ht, _⟩ := h
      obtain ⟨_, s, hs⟩ := createSubmission_eq_ok hp' (SubmissionInput.lines_of_valid hvalid)
      exact .ofChanged (getPlan_eq_ok hp).1 (.submitted s hs) (.inl (by rw [hs.plan]))
        ht.symm
  | propose planId data =>
      simp only [Measurements.Op.handle, bind_eq_ok, pure_eq_ok, changedResponse,
        Prod.mk.injEq] at h
      obtain ⟨_, hvalid, p, hp, p', hp', ht, _⟩ := h
      obtain ⟨_, r, hr⟩ := createReconciliation_eq_ok hvalid hp'
      exact .ofChanged (getPlan_eq_ok hp).1 (.proposed actor r hr) (.inl (by rw [hr.plan]))
        ht.symm
  | approve planId rid data =>
      simp only [Measurements.Op.handle, bind_eq_ok, pure_eq_ok, changedResponse,
        Prod.mk.injEq] at h
      obtain ⟨_, _, p, hp, r, hr, p', hp', ht, _⟩ := h
      obtain ⟨_, a, ha⟩ := createApproval_eq_ok hp'
      exact .ofChanged (getPlan_eq_ok hp).1 (.approved r a (getReconciliation_eq_ok hr).1 ha)
        (.inl (by rw [ha.plan])) ht.symm
  | finalize planId rid version =>
      simp only [Measurements.Op.handle, bind_eq_ok, pure_eq_ok, Prod.mk.injEq] at h
      obtain ⟨_, _, p, hp, r, hr, t₁, ht₁, _, _, rfl, _⟩ := h
      exact finalizeReconciliation_effect (getPlan_eq_ok hp).1 (getReconciliation_eq_ok hr).1 ht₁
  | assess planId data =>
      simp only [Measurements.Op.handle, bind_eq_ok, pure_eq_ok, changedResponse,
        Prod.mk.injEq] at h
      obtain ⟨_, hvalid, p, hp, p', hp', ht, _⟩ := h
      obtain ⟨_, a, ha⟩ := createAssessment_eq_ok hvalid hp'
      exact .ofChanged (getPlan_eq_ok hp).1 (.assessed a ha) (.inr ⟨a, ha⟩) ht.symm
  | issue planId assessmentId version =>
      simp only [Measurements.Op.handle, bind_eq_ok, pure_eq_ok, Prod.exists, Prod.mk.injEq] at h
      obtain ⟨_, _, p, hp, t₁, i, hi, _, _, rfl, _⟩ := h
      obtain ⟨mem, rfl⟩ := getPlan_eq_ok hp
      exact issueAssessment_effect mem hi
  | createLink planId participant days token =>
      simp only [Measurements.Op.handle, bind_eq_ok, pure_eq_ok, Prod.exists, Prod.mk.injEq] at h
      obtain ⟨_, _, p, hp, p', link, hp', rfl, _⟩ := h
      obtain ⟨_, ls, hplan, hls, howned⟩ := createAgencyLink_eq_ok hp'
      exact .kept p p' (getPlan_eq_ok hp).1 (.links ls hplan (fun _ => hls) howned) rfl rfl rfl
  | revokeLink planId linkId =>
      simp only [Measurements.Op.handle, bind_eq_ok, pure_eq_ok, Prod.mk.injEq] at h
      obtain ⟨p, hp, p', hp', rfl, _⟩ := h
      obtain ⟨ls, hplan, hls, howned⟩ := revokeAgencyLink_eq_ok hp'
      exact .kept p p' (getPlan_eq_ok hp).1 (.links ls hplan hls howned) rfl rfl rfl
  | addEvidence planId data =>
      simp only [Measurements.Op.handle, bind_eq_ok, pure_eq_ok, Prod.exists, Prod.mk.injEq] at h
      obtain ⟨p, hp, _, _, p', e, hp', rfl, _⟩ := h
      obtain ⟨es, hplan⟩ := addEvidence_eq_ok hp'
      exact .kept p p' (getPlan_eq_ok hp).1 (.evidence es hplan) rfl rfl rfl
  | createAgency data =>
      simp only [Measurements.Op.handle, createAgency, bind_eq_ok, pure_eq_ok, Prod.exists,
        Prod.mk.injEq] at h
      obtain ⟨_, _, ⟨_, _, _, _, _, _, _, _, rfl, _⟩, rfl, _⟩ := h
      exact .quiet rfl rfl
  | patchAgency agencyId version data =>
      simp only [Measurements.Op.handle, patchAgency, bind_eq_ok, pure_eq_ok, Prod.exists,
        Prod.mk.injEq] at h
      obtain ⟨_, _, ⟨_, _, _, _, _, _, _, _, _, _, rfl, _⟩, rfl, _⟩ := h
      exact .quiet rfl rfl

theorem lockedLink_eq_ok {now : Instant} {linkId : Option Id} {p : MeasurementPlan}
    {link : AgencyLink} (h : Measurements.lockedLink t now linkId = .ok (p, link)) :
    p ∈ t.plans ∧ link ∈ p.links := by
  simp only [Measurements.lockedLink, bind_eq_ok, orRaise_eq_ok, pure_eq_ok] at h
  obtain ⟨_, hfound, _, _, _, _, rfl⟩ := h
  obtain ⟨id, _, hfind⟩ := Option.bind_eq_some_iff.mp hfound
  obtain ⟨q, hq, hlink⟩ := List.exists_of_findSome?_eq_some hfind
  obtain ⟨l, hl, heq⟩ := Option.map_eq_some_iff.mp hlink
  simp only [Prod.mk.injEq] at heq
  obtain ⟨rfl, rfl⟩ := heq
  exact ⟨hq, (Table.mem_of_get hl).1⟩

theorem getContext_eq_ok {now : Instant} {contextId : Id} {nonce : String} {p : MeasurementPlan}
    {link : AgencyLink} (h : getContext sha t now contextId nonce = .ok (p, link)) :
    p ∈ t.plans ∧ link ∈ p.links := by
  simp only [getContext, bind_eq_ok] at h
  obtain ⟨_, _, hlocked⟩ := h
  exact lockedLink_eq_ok hlocked

theorem portal_effect {op : PortalOp} {response : Measurements.Response}
    (h : op.handle sha t ctx = .ok (t', response)) : Effect sha op.kind t t' := by
  cases op with
  | exchange token nonce fresh =>
      simp only [PortalOp.handle, portalExchange, bind_eq_ok, pure_eq_ok, Prod.exists,
        Prod.mk.injEq] at h
      obtain ⟨_, _, ⟨_, _, _, _, _, h⟩, rfl, _⟩ := h
      split at h
      · simp only [bind_eq_ok, pure_eq_ok, Prod.mk.injEq] at h
        obtain ⟨_, _, _, _, _, _, rfl, _⟩ := h
        exact .quiet rfl rfl
      · simp only [bind_eq_ok, pure_eq_ok, Prod.mk.injEq] at h
        obtain ⟨_, _, rfl, _⟩ := h
        exact .quiet rfl rfl
  | submit nonce data =>
      simp only [PortalOp.handle, portalSubmission, bind_eq_ok, pure_eq_ok, Prod.exists,
        Prod.mk.injEq] at h
      obtain ⟨_, _, ⟨_, hvalid, p, link, hcontext, h⟩, rfl, _⟩ := h
      split at h
      · simp only [bind_eq_ok, pure_eq_ok, Prod.mk.injEq] at h
        obtain ⟨_, _, rfl, _⟩ := h
        exact .quiet rfl rfl
      · simp only [bind_eq_ok, pure_eq_ok, Prod.exists, Prod.mk.injEq] at h
        obtain ⟨p', link', hguest, rfl, _⟩ := h
        obtain ⟨p₁, s, hs, hplan, howner⟩ :=
          guestSubmission_eq_ok hguest (GuestSubmission.lines_of_valid hvalid)
        exact .ofChanged (getContext_eq_ok hcontext).1
          (.guest p₁ s link' hs hplan ⟨link, (getContext_eq_ok hcontext).2, howner⟩)
          (.inl (by rw [hplan, hs.plan])) rfl

/-! ## Calls and inspections -/

/-- A request that, from the plans and invoices of `t`, billed an inspection. -/
theorem Effect.ofBilled {t₁ : Tenant} {inspection : Inspection} {call : VesselCall}
    {rate : Decimal 4} {i : Invoice} (h : Billed ctx t₁ t' inspection call rate i)
    (hplans : t₁.plans = t.plans) (hinvoices : t₁.invoices = t.invoices) :
    Effect sha kind t t' := by
  obtain ⟨s, _, _, hi⟩ := h.step
  have ht := h.tenant
  refine .billed i (hinvoices ▸ h.fresh) (hi ▸ rfl) (hi ▸ rfl) ?_ ?_
  · rw [ht]
    exact hplans
  · rw [ht, ← hinvoices]
    rfl

theorem operations_effect {op : Operations.Op} {response : Operations.Response}
    (h : op.handle t ctx = .ok (t', response)) : Effect sha kind t t' := by
  cases handle_step h with
  | draftedAndBilled _ _ _ _ _ _ _ _ _ _ billed => exact .ofBilled billed rfl rfl
  | billed _ _ _ _ _ _ _ billed => exact .ofBilled billed rfl rfl
  | _ => subst_vars; exact .quiet rfl rfl

/-! ## Invoices -/

theorem getInvoice_eq_ok {invoiceId : Id} {i : Invoice} (h : getInvoice t invoiceId = .ok i) :
    i ∈ t.invoices ∧ i.id = invoiceId := by
  simp only [getInvoice, orRaise_eq_ok] at h
  exact Table.mem_of_get h

theorem findPayment_eq_some {paymentId : Id} {i : Invoice} {payment : Payment}
    (h : findPayment t.invoices paymentId = some (i, payment)) :
    i ∈ t.invoices ∧ payment ∈ i.payments ∧ payment.id = paymentId := by
  obtain ⟨j, hj, hpayment⟩ := List.exists_of_findSome?_eq_some h
  obtain ⟨q, hq, heq⟩ := Option.map_eq_some_iff.mp hpayment
  simp only [Prod.mk.injEq] at heq
  obtain ⟨rfl, rfl⟩ := heq
  exact ⟨hj, Table.mem_of_get hq⟩

/-- An accepted request about invoices leaves the plans alone, and writes at most one
invoice, which charges what it did. -/
theorem billing_invoices {op : Billing.Op} {response : Billing.Response}
    (h : op.handle t ctx actor = .ok (t', response)) : t'.plans = t.plans ∧
      (t'.invoices = t.invoices ∨ ∃ i i', i ∈ t.invoices ∧ SameCharge i i' ∧
        (i.status = .void → i'.status = .void) ∧ t'.invoices = Table.put i' t.invoices) := by
  cases op with
  | createPayment invoiceId data header =>
      simp only [Billing.Op.handle, createPayment, paymentResponse, bind_eq_ok, pure_eq_ok,
        raiseIf_eq_ok, Prod.exists, Prod.mk.injEq] at h
      obtain ⟨_, _, _, ⟨_, _, i, hi, _, hlive, h⟩, rfl, _⟩ := h
      split at h
      · simp only [pure_eq_ok, Prod.mk.injEq] at h
        exact h.1 ▸ ⟨rfl, .inl rfl⟩
      · simp only [recordPayment, bind_eq_ok, pure_eq_ok, Prod.exists, Prod.mk.injEq] at h
        obtain ⟨_, _, _, _, _, _, _, _, i', steps, hreconcile, rfl, _, _⟩ := h
        obtain ⟨hcharge, _⟩ := reconcilePaymentStatus_sameCharge hreconcile
        refine ⟨rfl, .inr ⟨i, i', (getInvoice_eq_ok hi).1, ?_, fun hvoid => absurd hvoid hlive, rfl⟩⟩
        exact ⟨hcharge.id, hcharge.vesselCallId, hcharge.inspectionId, hcharge.purpose,
          hcharge.assessmentId, hcharge.lineItems, hcharge.dues, hcharge.invoiceNo⟩
  | reversePayment paymentId reason =>
      simp only [Billing.Op.handle, reversePayment, paymentResponse, bind_eq_ok, pure_eq_ok,
        orRaise_eq_ok, Prod.exists, Prod.mk.injEq] at h
      obtain ⟨_, _, _, ⟨_, _, i, payment, hfind, h⟩, rfl, _⟩ := h
      split at h
      · simp only [pure_eq_ok, Prod.mk.injEq] at h
        exact h.1 ▸ ⟨rfl, .inl rfl⟩
      · simp only [bind_eq_ok, pure_eq_ok, Prod.exists, Prod.mk.injEq] at h
        obtain ⟨i', steps, hreconcile, rfl, _, _⟩ := h
        obtain ⟨hcharge, _⟩ := reconcilePaymentStatus_sameCharge hreconcile
        refine ⟨rfl, .inr ⟨i, i', (findPayment_eq_some hfind).1, ?_, ?_, rfl⟩⟩
        · exact ⟨hcharge.id, hcharge.vesselCallId, hcharge.inspectionId, hcharge.purpose,
            hcharge.assessmentId, hcharge.lineItems, hcharge.dues, hcharge.invoiceNo⟩
        · intro hvoid
          rw [reconcilePaymentStatus_of_void hreconcile hvoid]
          exact hvoid
  | transition invoiceId statusId note =>
      simp only [Billing.Op.handle, transitionView, bind_eq_ok, pure_eq_ok, raiseIf_eq_ok,
        Prod.exists, Prod.mk.injEq] at h
      obtain ⟨_, _, ⟨_, _, i, hi, _, hlive, _, _, step, _, _, _, i', recorded, htransition, ht, _⟩,
        rfl, _⟩ := h
      subst ht
      cases recorded with
      | false => exact ⟨rfl, .inl rfl⟩
      | true =>
          exact ⟨rfl, .inr ⟨i, i', (getInvoice_eq_ok hi).1,
            (transitionInvoice_sameCharge htransition).1, fun hvoid => absurd hvoid hlive, rfl⟩⟩
  | createStep data =>
      simp only [Billing.Op.handle, createStepView, bind_eq_ok, pure_eq_ok, Prod.exists,
        Prod.mk.injEq] at h
      obtain ⟨_, _, ⟨_, _, _, _, _, _, _, _, _, _, _, _, _, _, rfl, _⟩, rfl, _⟩ := h
      exact ⟨rfl, .inl rfl⟩
  | patchStep stepId data =>
      simp only [Billing.Op.handle, patchStep, bind_eq_ok, pure_eq_ok, Prod.exists,
        Prod.mk.injEq] at h
      obtain ⟨_, _, ⟨_, _, _, _, _, _, _, _, _, _, h⟩, rfl, _⟩ := h
      split at h <;> simp only [pure_eq_ok, Prod.mk.injEq] at h <;> exact h.1 ▸ ⟨rfl, .inl rfl⟩
  | reorderSteps ids =>
      simp only [Billing.Op.handle, reorderSteps, bind_eq_ok, pure_eq_ok, Prod.exists,
        Prod.mk.injEq] at h
      obtain ⟨_, _, ⟨_, _, _, _, _, _, rfl, _⟩, rfl, _⟩ := h
      exact ⟨rfl, .inl rfl⟩

theorem billing_effect {op : Billing.Op} {response : Billing.Response}
    (h : op.handle t ctx actor = .ok (t', response)) : Effect sha kind t t' := by
  obtain ⟨hplans, hsame | ⟨i, i', hi, hcharge, hvoid, hinvoices⟩⟩ := billing_invoices h
  · exact .quiet hplans hsame
  · exact .settled i i' hi hcharge hvoid hplans hinvoices

theorem organizations_effect {op : Organizations.Op} {response : Organizations.Response}
    (h : op.handle t = .ok (t', response)) : Effect sha kind t t' := by
  cases op with
  | putOrganization data =>
      simp only [Organizations.Op.handle, Organizations.putOrganization, bind_eq_ok, pure_eq_ok,
        Prod.mk.injEq] at h
      obtain ⟨_, ⟨_, _, _, _, rfl⟩, rfl, _⟩ := h
      exact .quiet rfl rfl
  | putLogo data =>
      simp only [Organizations.Op.handle, Organizations.putLogo, bind_eq_ok, pure_eq_ok,
        Prod.mk.injEq] at h
      obtain ⟨_, ⟨_, _, _, _, rfl⟩, rfl, _⟩ := h
      exact .quiet rfl rfl
  | deleteLogo =>
      simp only [Organizations.Op.handle, pure_eq_ok, Prod.mk.injEq] at h
      exact h.1 ▸ .quiet rfl rfl
  | putSettings data =>
      simp only [Organizations.Op.handle, Organizations.putSettings, bind_eq_ok, pure_eq_ok,
        Prod.mk.injEq] at h
      obtain ⟨_, ⟨_, _, rfl⟩, rfl, _⟩ := h
      exact .quiet rfl rfl

/-- **Every accepted request has one of the effects.** -/
theorem handle_effect {r : Request} {a : Response} (h : t.handle sha r = .ok (t', a)) :
    Effect sha r.kind t t' := by
  cases r with
  | measurements actor ctx op =>
      simp only [Tenant.handle, bind_eq_ok, pure_eq_ok, Prod.exists, Prod.mk.injEq] at h
      obtain ⟨_, _, _, _, hop, rfl, _⟩ := h
      exact measurements_effect hop
  | portal ctx op =>
      simp only [Tenant.handle, bind_eq_ok, pure_eq_ok, Prod.exists, Prod.mk.injEq] at h
      obtain ⟨_, _, hop, rfl, _⟩ := h
      exact portal_effect hop
  | operations actor ctx op =>
      simp only [Tenant.handle, bind_eq_ok, pure_eq_ok, Prod.exists, Prod.mk.injEq] at h
      obtain ⟨_, _, _, _, hop, rfl, _⟩ := h
      exact operations_effect hop
  | billing actor ctx op =>
      simp only [Tenant.handle, bind_eq_ok, pure_eq_ok, Prod.exists, Prod.mk.injEq] at h
      obtain ⟨_, _, _, _, hop, rfl, _⟩ := h
      exact billing_effect hop
  | organizations actor ctx op =>
      simp only [Tenant.handle, bind_eq_ok, pure_eq_ok, Prod.exists, Prod.mk.injEq] at h
      obtain ⟨_, _, _, _, hop, rfl, _⟩ := h
      exact organizations_effect hop
  | users actor ctx op =>
      simp only [Tenant.handle, bind_eq_ok, pure_eq_ok, Prod.exists, Prod.mk.injEq] at h
      obtain ⟨_, _, _, _, _, rfl, _⟩ := h
      exact .quiet rfl rfl
  | auth ctx op =>
      simp only [Tenant.handle, bind_eq_ok, pure_eq_ok, Prod.exists, Prod.mk.injEq] at h
      obtain ⟨_, _, _, rfl, _⟩ := h
      exact .quiet rfl rfl

/-! ## One plan, and all plans -/

/-- What an accepted request did to one existing plan. -/
inductive PlanStep (sha : Sha256) (lifecycle : Bool) (t : Tenant) (p p' : MeasurementPlan) :
    Prop where
  | stayed (h : p' = p)
  | mutated (q : MeasurementPlan) (h : Mutation sha t p q) (own : lifecycle = true)
      (advanced : p' = q.advance)
  | kept (h : Upkeep p p') (other : lifecycle = false)

theorem mutation_id {p p' : MeasurementPlan} (h : Mutation sha t p p') :
    p'.id = p.id ∧ p'.version = p.version := by
  cases h with
  | patched _ h => exact ⟨h.id, h.version⟩
  | submitted s h => rw [h.plan]; exact ⟨rfl, rfl⟩
  | guest p₁ s link h hplan => rw [hplan, h.plan]; exact ⟨rfl, rfl⟩
  | proposed actor r h => rw [h.plan]; exact ⟨rfl, rfl⟩
  | approved r a _ h => rw [h.plan]; exact ⟨rfl, rfl⟩
  | finalized ctx actor r r' _ h => rw [h.plan]; exact ⟨rfl, rfl⟩
  | assessed a h => rw [h.plan]; exact ⟨rfl, rfl⟩
  | issued t' a i h => rw [h.plan]; exact ⟨rfl, rfl⟩

theorem upkeep_id {p p' : MeasurementPlan} (h : Upkeep p p') :
    p'.id = p.id ∧ p'.version = p.version := by
  cases h with
  | links ls hplan _ => rw [hplan]; exact ⟨rfl, rfl⟩
  | evidence es hplan => rw [hplan]; exact ⟨rfl, rfl⟩

/-- The keys of the plan table only grow, and stay unique. -/
theorem Effect.planKeys (h : Effect sha kind t t') (hnd : (Table.keys t.plans).Nodup) :
    (Table.keys t'.plans).Nodup := by
  cases h with
  | quiet plans _ => rwa [plans]
  | created p new _ plans _ =>
      rw [plans]
      exact Table.nodup_keys_concat hnd new.fresh
  | mutated p p' _ _ _ _ plans _ => rwa [plans, Table.keys_put]
  | kept p p' _ _ _ plans _ => rwa [plans, Table.keys_put]
  | issued p p' _ _ _ _ _ plans _ => rwa [plans, Table.keys_put]
  | billed _ _ _ _ plans _ => rwa [plans]
  | settled _ _ _ _ _ plans _ => rwa [plans]

/-- **The fate of one plan.** -/
theorem Effect.plan (h : Effect sha kind t t') (hnd : (Table.keys t.plans).Nodup)
    {id : Id} {p : MeasurementPlan} (hp : Table.get id t.plans = some p) :
    ∃ p', Table.get id t'.plans = some p' ∧ PlanStep sha kind.isLifecycle t p p' := by
  obtain ⟨hmem, hid⟩ := Table.mem_of_get hp
  -- A write to the plan `q` either is a write to `p` or leaves `p` alone.
  have hput : ∀ q q' : MeasurementPlan, q ∈ t.plans → q'.id = q.id →
      (q = p → PlanStep sha kind.isLifecycle t p q') →
      ∃ p', Table.get id (Table.put q' t.plans) = some p' ∧ PlanStep sha kind.isLifecycle t p p' := by
    intro q q' hq hq' hstep
    by_cases hk : id = key q'
    · have heq : q = p :=
        Table.eq_of_key_eq hnd hq hmem (hq'.symm.trans (hk.symm.trans hid.symm))
      subst hk
      exact ⟨q', Table.get_put_self hp, hstep heq⟩
    · exact ⟨p, by rw [Table.get_put_of_ne hk, hp], .stayed rfl⟩
  cases h with
  | quiet plans _ => exact ⟨p, plans ▸ hp, .stayed rfl⟩
  | created q new _ plans _ =>
      refine ⟨p, ?_, .stayed rfl⟩
      rw [plans, Table.get, List.find?_append]
      simp only [Table.get] at hp
      simp [hp]
  | mutated q q' hq hm _ own plans _ =>
      rw [plans]
      refine hput q q'.advance hq (mutation_id hm).1 ?_
      rintro rfl
      exact .mutated q' hm (own ▸ rfl) rfl
  | kept q q' hq hu other plans _ =>
      rw [plans]
      refine hput q q' hq (upkeep_id hu).1 ?_
      rintro rfl
      exact .kept hu (other ▸ rfl)
  | issued q q' a i hq hi own plans _ =>
      rw [plans]
      refine hput q q'.advance hq (mutation_id (.issued t' a i hi : Mutation sha _ _ _)).1 ?_
      rintro rfl
      exact .mutated q' (.issued t' a i hi) (own ▸ rfl) rfl
  | billed _ _ _ _ plans _ => exact ⟨p, plans ▸ hp, .stayed rfl⟩
  | settled _ _ _ _ _ plans _ => exact ⟨p, plans ▸ hp, .stayed rfl⟩

/-- A plan that was not there still is not there, or was created. -/
theorem Effect.absent (h : Effect sha kind t t') {id : Id}
    (hid : Table.get id t.plans = none) :
    Table.get id t'.plans = none ∨
      ∃ p, Table.get id t'.plans = some p ∧ New t p ∧ kind = .other := by
  have hput : ∀ q : MeasurementPlan, Table.get id (Table.put q t.plans) = none := by
    intro q
    rw [Table.get_eq_none_iff, Table.keys_put]
    exact Table.get_eq_none_iff.mp hid
  cases h with
  | quiet plans _ => exact .inl (plans ▸ hid)
  | created q new other plans _ =>
      rw [plans, Table.get, List.find?_append]
      simp only [Table.get] at hid
      rw [hid, Option.none_or]
      cases hfind : List.find? (fun a => decide (key a = id)) [q] with
      | none => exact .inl rfl
      | some p =>
          obtain rfl := List.mem_singleton.mp (List.mem_of_find?_eq_some hfind)
          exact .inr ⟨p, rfl, new, other⟩
  | mutated _ _ _ _ _ _ plans _ => exact .inl (plans ▸ hput _)
  | kept _ _ _ _ _ plans _ => exact .inl (plans ▸ hput _)
  | issued _ _ _ _ _ _ _ plans _ => exact .inl (plans ▸ hput _)
  | billed _ _ _ _ plans _ => exact .inl (plans ▸ hid)
  | settled _ _ _ _ _ plans _ => exact .inl (plans ▸ hid)

/-- **The invariant rule for plans.**  What holds of a new plan and survives every
mutation and upkeep holds of every plan after a request. -/
theorem Effect.forall_plans {I : MeasurementPlan → Prop} (h : Effect sha kind t t')
    (new : ∀ p, New t p → I p)
    (mutation : ∀ p p', p ∈ t.plans → I p → Mutation sha t p p' → I p'.advance)
    (upkeep : ∀ p p', p ∈ t.plans → I p → Upkeep p p' → I p')
    (hI : ∀ p ∈ t.plans, I p) : ∀ p ∈ t'.plans, I p := by
  intro p hp
  cases h with
  | quiet plans _ => exact hI p (plans ▸ hp)
  | created q hnew _ plans _ =>
      rw [plans, List.mem_append, List.mem_singleton] at hp
      obtain hp | rfl := hp
      · exact hI p hp
      · exact new p hnew
  | mutated q q' hq hm _ own plans _ =>
      rw [plans] at hp
      obtain rfl | ⟨hp, _⟩ := Table.mem_put hp
      · exact mutation q q' hq (hI q hq) hm
      · exact hI p hp
  | kept q q' hq hu _ plans _ =>
      rw [plans] at hp
      obtain rfl | ⟨hp, _⟩ := Table.mem_put hp
      · exact upkeep q p hq (hI q hq) hu
      · exact hI p hp
  | issued q q' a i hq hi own plans _ =>
      rw [plans] at hp
      obtain rfl | ⟨hp, _⟩ := Table.mem_put hp
      · exact mutation q q' hq (hI q hq) (.issued t' a i hi)
      · exact hI p hp
  | billed _ _ _ _ plans _ => exact hI p (plans ▸ hp)
  | settled _ _ _ _ _ plans _ => exact hI p (plans ▸ hp)

end VesselCaller
