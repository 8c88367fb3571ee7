import VesselCaller.Billing.Migration
import VesselCaller.Billing.Ledger

/-!
# Configuring the workflow

The requests that touch the workflow steps, as a service of their own: any request may
provision missing defaults, administrators create, patch and reorder steps.  A
configuration starts with the registration of an organization or with the migration of
a seeded table.

In every configuration there is one paid step and an open one, so billing always finds
the step it needs.  Whether `paid` also stays behind the other active steps depends on
the requests: only a reorder checks it.

## Main definitions

* `Configure`, `configure` — the requests of the configuration, as a service;
* `Start` — the two ways a configuration begins;
* `StepError` — a step is missing, or cannot be provisioned.
-/

namespace VesselCaller.Billing

open Lib Accounts Operations Measurements

variable {ctx : Ctx} {steps : List InvoiceStatusStep} {t t' : Tenant}

/-! ## The configuration service -/

inductive Configure where
  | ensure
  | create (data : StepInput)
  | patch (step : Id) (data : StepPatch)
  | reorder (ids : List Id)

/-- A request of the configuration, with what it brings along. -/
abbrev ConfigureRequest := Ctx × Configure

/-- `ensure_default_steps` writes through; the other three are the views. -/
def configure (t : Tenant) : ConfigureRequest → Result (Tenant × Unit)
  | (ctx, .ensure) => do
      let steps ← ensureDefaultSteps ctx t.steps
      return ({ t with steps := steps }, ())
  | (ctx, .create data) => do
      let (t, _) ← createStepView t ctx data
      return (t, ())
  | (_, .patch stepId data) => do
      let (t, _) ← patchStep t stepId data
      return (t, ())
  | (ctx, .reorder ids) => do
      let (t, _) ← reorderSteps t ctx ids
      return (t, ())

/-- Where a configuration starts. -/
inductive Start where
  | registered
  | migrated (existing : List InvoiceStatusStep)

/-- The table a start leaves. -/
def Start.install (ctx : Ctx) : Start → Result (List InvoiceStatusStep)
  | .registered => ensureDefaultSteps ctx []
  | .migrated existing => migrate ctx existing

/-- A migrated table was seeded. -/
def Start.Seeded : Start → Prop
  | .registered => True
  | .migrated existing => Legacy existing

theorem Start.workflow {start : Start} (hseeded : start.Seeded)
    (h : start.install ctx = .ok steps) : Workflow steps := by
  cases start with
  | registered => exact Workflow.ofProvisioned h
  | migrated existing => exact Legacy.workflow hseeded h

/-- **Every request keeps the workflow.** -/
theorem configure_workflow {r : ConfigureRequest} {a : Unit} (hw : Workflow t.steps)
    (h : configure t r = .ok (t', a)) : Workflow t'.steps := by
  obtain ⟨ctx, op⟩ := r
  cases op with
  | ensure =>
      simp only [configure, hw.ensureDefaultSteps, ok_bind, pure_eq_ok, Prod.mk.injEq] at h
      exact h.1 ▸ hw
  | create data =>
      simp only [configure, bind_eq_ok, pure_eq_ok, Prod.exists, Prod.mk.injEq] at h
      obtain ⟨_, _, hcreate, rfl, _⟩ := h
      exact (createStepView_eq_ok hw hcreate).1.workflow hw
  | patch stepId data =>
      simp only [configure, bind_eq_ok, pure_eq_ok, Prod.exists, Prod.mk.injEq] at h
      obtain ⟨_, _, hpatch, rfl, _⟩ := h
      exact (patchStep_eq_ok hw hpatch).2.workflow hw
  | reorder ids =>
      simp only [configure, bind_eq_ok, pure_eq_ok, Prod.exists, Prod.mk.injEq] at h
      obtain ⟨_, _, hreorder, rfl, _⟩ := h
      exact (reorderSteps_eq_ok hw.ids hreorder).2.2.2.workflow hw

theorem steps_of_ensured {steps' : List InvoiceStatusStep} (hw : Workflow steps)
    (h : ensureDefaultSteps ctx steps = .ok steps') : steps' = steps := by
  rw [hw.ensureDefaultSteps] at h
  exact (Except.ok.inj h).symm

theorem billing_configures {op : Op} {actor : Id} {response : Billing.Response}
    (hw : Workflow t.steps) (h : op.handle t ctx actor = .ok (t', response)) :
    t'.steps = t.steps ∨ ∃ c t₁, configure t c = .ok (t₁, ()) ∧ t₁.steps = t'.steps := by
  cases op with
  | createPayment invoiceId data header =>
      simp only [Op.handle, paymentResponse, bind_eq_ok, pure_eq_ok, Prod.exists,
        Prod.mk.injEq] at h
      obtain ⟨_, _, _, hop, rfl, _⟩ := h
      obtain rfl | ⟨_, _, _, rfl, _⟩ := createPayment_eq_ok hw hop <;> exact .inl rfl
  | reversePayment paymentId reason =>
      simp only [Op.handle, paymentResponse, bind_eq_ok, pure_eq_ok, Prod.exists,
        Prod.mk.injEq] at h
      obtain ⟨_, _, _, hop, rfl, _⟩ := h
      obtain rfl | ⟨_, _, _, rfl, _⟩ := reversePayment_eq_ok hw hop <;> exact .inl rfl
  | transition invoiceId statusId note =>
      simp only [Op.handle, bind_eq_ok, pure_eq_ok, Prod.exists, Prod.mk.injEq] at h
      obtain ⟨_, _, hop, rfl, _⟩ := h
      obtain rfl | ⟨_, _, _, rfl, _⟩ := transitionView_eq_ok hop <;> exact .inl rfl
  | createStep data =>
      simp only [Op.handle, bind_eq_ok, pure_eq_ok, Prod.exists, Prod.mk.injEq] at h
      obtain ⟨t₁, _, hop, rfl, _⟩ := h
      exact .inr ⟨(ctx, .create data), t₁, by rw [configure, hop]; rfl, rfl⟩
  | patchStep stepId data =>
      simp only [Op.handle, bind_eq_ok, pure_eq_ok, Prod.exists, Prod.mk.injEq] at h
      obtain ⟨t₁, _, hop, rfl, _⟩ := h
      exact .inr ⟨(ctx, .patch stepId data), t₁, by rw [configure, hop]; rfl, rfl⟩
  | reorderSteps ids =>
      simp only [Op.handle, bind_eq_ok, pure_eq_ok, Prod.exists, Prod.mk.injEq] at h
      obtain ⟨t₁, _, hop, rfl, _⟩ := h
      exact .inr ⟨(ctx, .reorder ids), t₁, by rw [configure, hop]; rfl, rfl⟩

/-- **The backend configures the workflow in no other way.**  What an accepted request does
to the steps is a request of the configuration service, or nothing. -/
theorem handle_configures {sha : Sha256} {r : Request} {a : VesselCaller.Response}
    (hw : Workflow t.steps) (h : t.handle sha r = .ok (t', a)) :
    t'.steps = t.steps ∨ ∃ c t₁, configure t c = .ok (t₁, ()) ∧ t₁.steps = t'.steps := by
  cases r with
  | measurements actor ctx op =>
      simp only [Tenant.handle, bind_eq_ok, pure_eq_ok, Prod.exists, Prod.mk.injEq] at h
      obtain ⟨_, _, _, _, hop, rfl, _⟩ := h
      obtain ⟨_, hsteps, _⟩ | ⟨_, _, _, _, _, _, hissued⟩ := measurements_frame hop
      · exact .inl hsteps
      · obtain ⟨_, _, _, _, _, ⟨ctx, hensure⟩, _⟩ := hissued.step
        -- Issuing provisions the default steps, which a workflow already has.
        exact .inl (steps_of_ensured hw hensure)
  | portal ctx op =>
      simp only [Tenant.handle, bind_eq_ok, pure_eq_ok, Prod.exists, Prod.mk.injEq] at h
      obtain ⟨_, _, hop, rfl, _⟩ := h
      exact .inl (portal_frame hop).2.1
  | operations actor ctx op =>
      simp only [Tenant.handle, bind_eq_ok, pure_eq_ok, Prod.exists, Prod.mk.injEq] at h
      obtain ⟨_, _, _, _, hop, rfl, _⟩ := h
      obtain ⟨_, hsteps⟩ | ⟨_, _, _, t₁, _, _, _, _, _, hbilled, hsteps, _⟩ :=
        (handle_step hop).bill
      · exact .inl hsteps
      · exact .inl (steps_of_ensured hw (hsteps ▸ hbilled.steps))
  | billing actor ctx op =>
      simp only [Tenant.handle, bind_eq_ok, pure_eq_ok, Prod.exists, Prod.mk.injEq] at h
      obtain ⟨_, _, _, _, hop, rfl, _⟩ := h
      exact billing_configures hw hop
  | organizations actor ctx op =>
      simp only [Tenant.handle, bind_eq_ok, pure_eq_ok, Prod.exists, Prod.mk.injEq] at h
      obtain ⟨_, _, _, _, hop, rfl, _⟩ := h
      exact .inl (organizations_frame hop).steps
  | users actor ctx op =>
      simp only [Tenant.handle, bind_eq_ok, pure_eq_ok, Prod.exists, Prod.mk.injEq] at h
      obtain ⟨_, _, _, _, _, rfl, _⟩ := h
      exact .inl rfl
  | auth ctx op =>
      simp only [Tenant.handle, bind_eq_ok, pure_eq_ok, Prod.exists, Prod.mk.injEq] at h
      obtain ⟨_, _, _, rfl, _⟩ := h
      exact .inl rfl

/-! ## Billing finds its step -/

/-- There is one paid step. -/
theorem Workflow.filter_isPaid (hw : Workflow steps) :
    ∃ s, steps.filter InvoiceStatusStep.isPaid = [s] := by
  obtain ⟨s, hs, hpaid⟩ := hw.exists_paid
  have hmem : s ∈ steps.filter InvoiceStatusStep.isPaid := List.mem_filter.mpr ⟨hs, hpaid⟩
  have hall : ∀ s' ∈ steps.filter InvoiceStatusStep.isPaid, s' = s := by
    intro s' hs'
    obtain ⟨mem, hpaid'⟩ := List.mem_filter.mp hs'
    exact hw.paid_unique mem hs hpaid' hpaid
  have hnd : (steps.filter InvoiceStatusStep.isPaid).Nodup := (List.Nodup.of_map _ hw.ids).filter _
  refine ⟨s, List.perm_singleton.mp ((List.perm_ext_iff_of_nodup hnd (List.nodup_singleton s)).mpr
    fun s' => ?_)⟩
  rw [List.mem_singleton]
  constructor
  · exact hall s'
  · rintro rfl
    exact hmem

/-- A step is missing, or provisioning one violates a constraint. -/
def StepError (e : ApiError) : Prop :=
  e = .server "No active non-paid invoice status step is configured" ∨
    e = .server "Paid invoice status step is not configured" ∨
    e = .integrity "billing_invoicestatusstep_pkey" ∨
    e = .integrity "billing_unique_invoice_status_code" ∨
    e = .integrity "billing_unique_invoice_status_position"

instance (e : ApiError) : Decidable (StepError e) := by
  unfold StepError
  infer_instance

theorem transitionInvoice_isOk (ctx : Ctx) (steps : List InvoiceStatusStep) (i : Invoice)
    (step : Option InvoiceStatusStep) {source : EventSource} (actor : Option Id) (note : String)
    (hsource : source ≠ .manual) :
    ∃ r, transitionInvoice ctx steps i step source actor note = .ok r := by
  unfold transitionInvoice
  rw [raiseIf_of_not fun h => hsource h.1, ok_bind]
  dsimp only
  split
  · exact ⟨_, rfl⟩
  · exact ⟨_, rfl⟩

theorem Workflow.reconcilePaymentStatus (hw : Workflow steps) (i : Invoice) {source : EventSource}
    (actor : Option Id) (hsource : source ≠ .manual) :
    ∃ i', reconcilePaymentStatus ctx steps i source actor = .ok (i', steps) := by
  have henter : ∀ step : InvoiceStatusStep, ∃ i' : Invoice,
      (transitionInvoice ctx steps i (some step) source actor "" >>= fun r =>
        pure (r.1, steps) : Result (Invoice × List InvoiceStatusStep)) = .ok (i', steps) := by
    intro step
    obtain ⟨r, hr⟩ := transitionInvoice_isOk ctx steps i (some step) actor "" hsource
    exact ⟨r.1, by rw [hr]; rfl⟩
  unfold Billing.reconcilePaymentStatus
  split
  · exact ⟨i, rfl⟩
  · split
    · obtain ⟨step, _, _, hpaid⟩ := hw.paidStep ctx
      rw [hpaid]
      exact henter step
    · split
      · exact ⟨i, rfl⟩
      · split
        · exact henter _
        · obtain ⟨step, _, _, hdefault⟩ := hw.activeDefaultStep ctx
          rw [hdefault]
          exact henter step

theorem rateForInspection_avoids (inspection : Inspection) (settings : OrganizationSettings) :
    Avoids StepError (rateForInspection inspection settings) := by
  have hget : ∀ (value : Json) (name : String), Avoids StepError (value.get name) := by
    intro value name
    cases value with
    | obj fields => exact avoids_ok rfl
    | _ =>
        intro e he
        cases he
        decide
  unfold rateForInspection
  split
  · exact avoids_ok rfl
  · refine avoids_bind (hget _ _) fun type _ => avoids_bind (hget _ _) fun category _ => ?_
    split
    · exact avoids_ok rfl
    · split
      · exact avoids_ok rfl
      · split <;> exact avoids_ok rfl

theorem finalizeInspection_avoids (hw : Workflow t.steps) (inspection : Inspection) :
    Avoids StepError (finalizeInspection t ctx inspection) := by
  unfold finalizeInspection
  split
  · exact avoids_ok rfl
  · obtain ⟨step, _, _, hstep⟩ := hw.activeDefaultStep ctx
    refine avoids_bind (avoids_orRaise (by decide)) fun call _ => ?_
    refine avoids_bind (rateForInspection_avoids _ _) fun rate _ => ?_
    refine avoids_bind (avoids_ok hstep) fun r hr => ?_
    refine avoids_bind (avoids_raiseIf (by decide)) fun _ _ => ?_
    exact avoids_bind (avoids_raiseIf (by decide)) fun _ _ => avoids_ok rfl

theorem issueAssessment_avoids (hw : Workflow t.steps) {actor : Id} {plan : MeasurementPlan}
    {assessmentId : Id} {version : ℕ} :
    Avoids StepError (issueAssessment t ctx actor plan assessmentId version) := by
  refine avoids_bind (avoids_orRaise (by decide)) fun assessment _ => ?_
  split
  · exact avoids_ok rfl
  · obtain ⟨step, _, _, hstep⟩ := hw.activeDefaultStep ctx
    refine avoids_bind ?_ fun _ _ => ?_
    · exact avoids_bind (avoids_raiseIf (by decide)) fun _ _ => avoids_raiseIf (by decide)
    refine avoids_bind (avoids_orRaise (by decide)) fun reconciliation _ => ?_
    refine avoids_bind (avoids_raiseIf (by decide)) fun _ _ => ?_
    refine avoids_bind (avoids_raiseIf (by decide)) fun _ _ => ?_
    refine avoids_bind (avoids_raiseIf (by decide)) fun _ _ => ?_
    refine avoids_bind (avoids_raiseIf (by decide)) fun _ _ => ?_
    refine avoids_bind (avoids_raiseIf (by decide)) fun _ _ => ?_
    refine avoids_bind (avoids_ok hstep) fun r _ => ?_
    obtain ⟨entered, hentered⟩ := transitionInvoice_isOk ctx r.2
      (disparityInvoice ctx t.settings plan assessment
        (nextNumber ctx t.sequences .invoice "INV").1)
      (some r.1) (some actor) "" (show EventSource.created ≠ .manual by decide)
    exact avoids_bind (avoids_ok hentered) fun _ _ => avoids_ok rfl

/-- **Billing always finds a workflow step**: in every configuration a start and any
requests lead to. -/
theorem billing_finds_step {start : Start} (hseeded : start.Seeded)
    (h : start.install ctx = .ok t.steps) (rs : List ConfigureRequest) :
    (∃ paid, (run configure t rs).steps.filter InvoiceStatusStep.isPaid = [paid]) ∧
    (∃ s ∈ (run configure t rs).steps, s.open = true) ∧
    ∀ ctx,
      ensureDefaultSteps ctx (run configure t rs).steps = .ok (run configure t rs).steps ∧
      (∃ s ∈ (run configure t rs).steps, s.open = true ∧
        activeDefaultStep ctx (run configure t rs).steps = .ok (s, (run configure t rs).steps)) ∧
      (∃ s ∈ (run configure t rs).steps, s.isPaid = true ∧
        paidStep ctx (run configure t rs).steps = .ok (s, (run configure t rs).steps)) ∧
      (∀ inspection, Avoids StepError (finalizeInspection (run configure t rs) ctx inspection)) ∧
      (∀ actor plan assessment version, Avoids StepError
        (issueAssessment (run configure t rs) ctx actor plan assessment version)) ∧
      ∀ i actor, ∀ source ∈ [EventSource.payment, .reversal],
        ∃ i', reconcilePaymentStatus ctx (run configure t rs).steps i source actor =
          .ok (i', (run configure t rs).steps) := by
  have hw : Workflow (run configure t rs).steps :=
    run_invariant (P := fun t => Workflow t.steps) (fun hw hr => configure_workflow hw hr) rs
      (Start.workflow hseeded h)
  refine ⟨hw.filter_isPaid, hw.someOpen, fun ctx => ⟨hw.ensureDefaultSteps ctx,
    hw.activeDefaultStep ctx, hw.paidStep ctx, fun inspection => finalizeInspection_avoids hw _,
    fun _ _ _ _ => issueAssessment_avoids hw, fun i actor source hsource => ?_⟩⟩
  refine hw.reconcilePaymentStatus i actor ?_
  rintro rfl
  simp at hsource

/-- A step is added, the first default is closed and the workflow is reordered. -/
def sampleConfiguration : List ConfigureRequest := [
  (Sample.ctx 1, .ensure),
  (Sample.ctx 2, .create { code := "legal-review", label := "Legal Review" }),
  (Sample.ctx 3, .patch 1000 { active := some false }),
  (Sample.ctx 4, .reorder [20000, 1004, 1003, 1002, 1001, 1000, 1005])]

theorem billing_finds_step_sample :
    ∃ s ∈ (run configure Sample.tenant sampleConfiguration).steps, s.open = true ∧
      activeDefaultStep (Sample.ctx 5) (run configure Sample.tenant sampleConfiguration).steps =
        .ok (s, (run configure Sample.tenant sampleConfiguration).steps) := by
  obtain ⟨ctx, hinstall⟩ := Sample.initial.steps
  have hseeded : Start.Seeded .registered := trivial
  obtain ⟨_, _, hall⟩ := billing_finds_step hseeded hinstall sampleConfiguration
  exact (hall (Sample.ctx 5)).2.1

end VesselCaller.Billing
