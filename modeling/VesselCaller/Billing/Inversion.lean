import VesselCaller.Billing.Services

/-!
# What the billing services do

One lemma for each service of `billing.services`, and the invariant of the workflow
configuration they rely on: `Workflow` says that the default steps are provisioned,
that the paid step is the one with code `paid`, and that some step is open.  On such
a configuration `ensureDefaultSteps` changes nothing and the two step look-ups
succeed.

## Main definitions

* `Workflow` — the invariant of the steps;
* `SameCharge` — two invoices that charge the same;
* `Opening` — what a new invoice starts with.
-/

namespace VesselCaller.Billing

open Lib Accounts

variable {ctx : Ctx} {steps steps' : List InvoiceStatusStep} {i i' : Invoice}

/-! ## The workflow configuration -/

structure Workflow (steps : List InvoiceStatusStep) : Prop where
  ids : (Table.keys steps).Nodup
  codes : (steps.map InvoiceStatusStep.code).Nodup
  positions : (steps.map InvoiceStatusStep.position).Nodup
  defaults : ∀ d ∈ defaultWorkflowSteps, d.1 ∈ steps.map InvoiceStatusStep.code
  paidCode : ∀ s ∈ steps, s.isPaid = true ↔ s.code = "paid"
  paidProtected : ∀ s ∈ steps, s.isPaid = true → s.isProtected = true
  someOpen : ∃ s ∈ steps, s.open = true

theorem createStep_eq_ok {step : InvoiceStatusStep} (h : createStep steps step = .ok steps') :
    step.id ∉ Table.keys steps ∧ step.code ∉ steps.map InvoiceStatusStep.code ∧
      step.position ∉ steps.map InvoiceStatusStep.position ∧ steps' = steps ++ [step] := by
  simp only [createStep, bind_eq_ok, raiseIf_eq_ok, pure_eq_ok] at h
  obtain ⟨_, hid, _, hcode, _, hposition, rfl⟩ := h
  exact ⟨hid, hcode, hposition, rfl⟩

/-- Provisioning finds nothing to do once every default code is there. -/
theorem ensureDefaultSteps_of_provisioned
    (h : ∀ d ∈ defaultWorkflowSteps, d.1 ∈ steps.map InvoiceStatusStep.code) :
    ensureDefaultSteps ctx steps = .ok steps := by
  have hfold : ∀ ds : List ((String × String × ℕ × Bool × Bool × Bool) × ℕ),
      (∀ d ∈ ds, d.1.1 ∈ steps.map InvoiceStatusStep.code) →
        ds.foldlM (ensureDefaultStep ctx) steps = .ok steps := by
    intro ds
    induction ds with
    | nil => exact fun _ => rfl
    | cons d ds ih =>
        intro hds
        have hd := hds d List.mem_cons_self
        simp only [List.foldlM_cons, ensureDefaultStep, hd, if_true]
        exact ih fun d' hd' => hds d' (List.mem_cons_of_mem _ hd')
  refine hfold _ fun d hd => h d.1 ?_
  exact List.fst_mem_of_mem_zipIdx hd

theorem Workflow.ensureDefaultSteps (hw : Workflow steps) (ctx : Ctx) :
    ensureDefaultSteps ctx steps = .ok steps :=
  ensureDefaultSteps_of_provisioned hw.defaults

theorem Workflow.exists_paid (hw : Workflow steps) : ∃ s ∈ steps, s.isPaid = true := by
  obtain ⟨s, hs, hcode⟩ := List.mem_map.mp (hw.defaults
    ("paid", "Paid", 60, true, true, true) (by simp [defaultWorkflowSteps]))
  exact ⟨s, hs, (hw.paidCode s hs).mpr hcode⟩

theorem Workflow.paid_unique (hw : Workflow steps) {s s' : InvoiceStatusStep} (hs : s ∈ steps)
    (hs' : s' ∈ steps) (h : s.isPaid = true) (h' : s'.isPaid = true) : s = s' := by
  have hcode : s.code = s'.code :=
    ((hw.paidCode s hs).mp h).trans ((hw.paidCode s' hs').mp h').symm
  exact List.inj_on_of_nodup_map hw.codes hs hs' hcode

theorem head?_sortBy_filter {f : InvoiceStatusStep → ℕ} {q : InvoiceStatusStep → Bool}
    (h : ∃ s ∈ steps, q s = true) :
    ∃ s, (sortBy f (steps.filter q)).head? = some s ∧ s ∈ steps ∧ q s = true := by
  obtain ⟨s, hs, hq⟩ := h
  have hmem : s ∈ sortBy f (steps.filter q) := mem_sortBy.mpr (List.mem_filter.mpr ⟨hs, hq⟩)
  cases hl : sortBy f (steps.filter q) with
  | nil => simp [hl] at hmem
  | cons a rest =>
      have ha : a ∈ sortBy f (steps.filter q) := by simp [hl]
      exact ⟨a, rfl, List.mem_filter.mp (mem_sortBy.mp ha)⟩

theorem Workflow.activeDefaultStep (hw : Workflow steps) (ctx : Ctx) :
    ∃ s ∈ steps, s.open = true ∧ activeDefaultStep ctx steps = .ok (s, steps) := by
  obtain ⟨s, hhead, hs, hopen⟩ := head?_sortBy_filter (f := InvoiceStatusStep.position) hw.someOpen
  refine ⟨s, hs, hopen, ?_⟩
  simp [Billing.activeDefaultStep, hw.ensureDefaultSteps, hhead, bind, Except.bind, orRaise,
    pure, Except.pure]

theorem Workflow.paidStep (hw : Workflow steps) (ctx : Ctx) :
    ∃ s ∈ steps, s.isPaid = true ∧ paidStep ctx steps = .ok (s, steps) := by
  obtain ⟨s, hhead, hs, hpaid⟩ := head?_sortBy_filter (f := InvoiceStatusStep.position) hw.exists_paid
  refine ⟨s, hs, hpaid, ?_⟩
  simp [Billing.paidStep, hw.ensureDefaultSteps, hhead, bind, Except.bind, orRaise,
    pure, Except.pure]

theorem activeDefaultStep_eq_ok {s : InvoiceStatusStep}
    (h : activeDefaultStep ctx steps = .ok (s, steps')) :
    ensureDefaultSteps ctx steps = .ok steps' ∧ s ∈ steps' ∧ s.open = true := by
  simp only [activeDefaultStep, bind_eq_ok, orRaise_eq_ok, pure_eq_ok, Prod.mk.injEq] at h
  obtain ⟨steps₁, hensure, step, hhead, rfl, rfl⟩ := h
  have hmem := List.mem_of_mem_head? (Option.mem_def.mpr hhead)
  obtain ⟨hs, hopen⟩ := List.mem_filter.mp (mem_sortBy.mp hmem)
  exact ⟨hensure, hs, hopen⟩

theorem paidStep_eq_ok {s : InvoiceStatusStep} (h : paidStep ctx steps = .ok (s, steps')) :
    ensureDefaultSteps ctx steps = .ok steps' ∧ s ∈ steps' ∧ s.isPaid = true := by
  simp only [paidStep, bind_eq_ok, orRaise_eq_ok, pure_eq_ok, Prod.mk.injEq] at h
  obtain ⟨steps₁, hensure, step, hhead, rfl, rfl⟩ := h
  have hmem := List.mem_of_mem_head? (Option.mem_def.mpr hhead)
  obtain ⟨hs, hpaid⟩ := List.mem_filter.mp (mem_sortBy.mp hmem)
  exact ⟨hensure, hs, hpaid⟩

/-! ## Transitions -/

/-- A transition to where the invoice already stands records nothing; any other one
writes the step, the legacy status the step stands for, and an event. -/
theorem transitionInvoice_eq_ok {step : Option InvoiceStatusStep} {source : EventSource}
    {actor : Option Id} {note : String} {recorded : Bool}
    (h : transitionInvoice ctx steps i step source actor note = .ok (i', recorded)) :
    (recorded = false ∧ i' = i ∧ i.currentStatus = step.map InvoiceStatusStep.id ∧
        i.status ≠ .void) ∨
      (recorded = true ∧ ¬(i.currentStatus = step.map InvoiceStatusStep.id ∧ i.status ≠ .void) ∧
        i' = { i with
          currentStatus := step.map InvoiceStatusStep.id
          status := statusOfStep step
          events := i.events ++ [statusEvent ctx (i.currentStatus.bind (Table.get · steps)) step
            source actor note] }) := by
  simp only [transitionInvoice, bind_eq_ok, raiseIf_eq_ok] at h
  obtain ⟨_, _, h⟩ := h
  split at h
  · rename_i hstay
    simp only [pure_eq_ok, Prod.mk.injEq] at h
    exact .inl ⟨h.2.symm, h.1.symm, hstay⟩
  · rename_i hmoves
    simp only [pure_eq_ok, Prod.mk.injEq] at h
    exact .inr ⟨h.2.symm, hmoves, h.1.symm⟩

/-- A transition that is not a manual one is not refused. -/
theorem exists_transitionInvoice {source : EventSource} (hsource : source ≠ .manual)
    (ctx : Ctx) (steps : List InvoiceStatusStep) (i : Invoice) (step : InvoiceStatusStep)
    (actor : Option Id) (note : String) :
    ∃ i' recorded,
      transitionInvoice ctx steps i (some step) source actor note = .ok (i', recorded) := by
  have hguard : ¬(source = .manual ∧ (some step).any (fun s => !s.active) = true) :=
    fun h => hsource h.1
  unfold transitionInvoice
  rw [raiseIf_of_not hguard]
  by_cases hsame : i.currentStatus = (some step).map InvoiceStatusStep.id ∧ i.status ≠ .void
  · exact ⟨i, false, by simp [hsame, bind, Except.bind, pure, Except.pure]⟩
  · exact ⟨_, true, by simp only [hsame, if_false, bind, Except.bind]; rfl⟩

/-- The log of the invoice is the one event that put it in the step it stands in. -/
def Opening (i : Invoice) : Prop :=
  ∃ e, i.events = [e] ∧ e.fromStep = none ∧ e.toStep = i.currentStatus

/-- The columns of an invoice that no status change or payment writes. -/
structure SameCharge (i i' : Invoice) : Prop where
  id : i'.id = i.id
  vesselCallId : i'.vesselCallId = i.vesselCallId
  inspectionId : i'.inspectionId = i.inspectionId
  purpose : i'.purpose = i.purpose
  assessmentId : i'.assessmentId = i.assessmentId
  lineItems : i'.lineItems = i.lineItems
  dues : i'.dues = i.dues
  invoiceNo : i'.invoiceNo = i.invoiceNo

theorem SameCharge.refl (i : Invoice) : SameCharge i i :=
  ⟨rfl, rfl, rfl, rfl, rfl, rfl, rfl, rfl⟩

theorem transitionInvoice_sameCharge {step : Option InvoiceStatusStep} {source : EventSource}
    {actor : Option Id} {note : String} {recorded : Bool}
    (h : transitionInvoice ctx steps i step source actor note = .ok (i', recorded)) :
    SameCharge i i' ∧ i'.payments = i.payments := by
  obtain ⟨_, rfl, _⟩ | ⟨_, _, rfl⟩ := transitionInvoice_eq_ok h
  · exact ⟨.refl _, rfl⟩
  · exact ⟨⟨rfl, rfl, rfl, rfl, rfl, rfl, rfl, rfl⟩, rfl⟩

/-- A transition that ends in a step of the workflow leaves the invoice standing in
that step, with the legacy status of the step, provided an invoice that already
stands there carries it. -/
theorem transitionInvoice_status {step : InvoiceStatusStep} {source : EventSource}
    {actor : Option Id} {note : String} {recorded : Bool}
    (h : transitionInvoice ctx steps i (some step) source actor note = .ok (i', recorded))
    (hagree : i.currentStatus = some step.id → i.status ≠ .void →
      i.status = statusOfStep (some step)) :
    i'.currentStatus = some step.id ∧ i'.status = statusOfStep (some step) := by
  obtain ⟨_, rfl, hstay, hlive⟩ | ⟨_, _, rfl⟩ := transitionInvoice_eq_ok h
  · exact ⟨hstay, hagree hstay hlive⟩
  · exact ⟨rfl, rfl⟩

theorem latestOpenStep_eq_some {step : InvoiceStatusStep} (h : latestOpenStep steps i = some step) :
    step ∈ steps ∧ step.open = true := by
  obtain ⟨e, _, he⟩ := List.exists_of_findSome?_eq_some h
  obtain ⟨hbind, hopen⟩ := Option.filter_eq_some_iff.mp he
  obtain ⟨id, _, hget⟩ := Option.bind_eq_some_iff.mp hbind
  exact ⟨(Table.mem_of_get hget).1, hopen⟩

/-- What `reconcile_payment_status` can do on a provisioned workflow: nothing to a
void invoice; enter the paid step once the standing payments cover the dues; leave
an unsettled invoice in its unpaid step, or bring it back to an open one. -/
theorem reconcilePaymentStatus_eq_ok {source : EventSource} {actor : Option Id}
    (hw : Workflow steps)
    (h : reconcilePaymentStatus ctx steps i source actor = .ok (i', steps')) :
    steps' = steps ∧
      ((i.status = .void ∧ i' = i) ∨
       (i.status ≠ .void ∧ i.dues ≤ i.currentPaid ∧ ∃ step ∈ steps, step.isPaid = true ∧
          ∃ recorded, transitionInvoice ctx steps i (some step) source actor "" =
            .ok (i', recorded)) ∨
       (i.status ≠ .void ∧ i.currentPaid < i.dues ∧ i' = i ∧
          ∃ step, i.currentStatus.bind (Table.get · steps) = some step ∧ step.isPaid = false) ∨
       (i.status ≠ .void ∧ i.currentPaid < i.dues ∧ ∃ step ∈ steps, step.open = true ∧
          ∃ recorded, transitionInvoice ctx steps i (some step) source actor "" =
            .ok (i', recorded))) := by
  unfold reconcilePaymentStatus at h
  split at h
  · rename_i hvoid
    simp only [pure_eq_ok, Prod.mk.injEq] at h
    exact ⟨h.2.symm, .inl ⟨hvoid, h.1.symm⟩⟩
  · rename_i hlive
    split at h
    -- The dues are covered: into the paid step.
    · rename_i hcovered
      simp only [bind_eq_ok, pure_eq_ok, Prod.exists, Prod.mk.injEq] at h
      obtain ⟨step, steps₁, hpaid, i₁, recorded, htransition, rfl, rfl⟩ := h
      obtain ⟨hensure, hstep, hispaid⟩ := paidStep_eq_ok hpaid
      rw [hw.ensureDefaultSteps] at hensure
      cases hensure
      exact ⟨rfl, .inr (.inl ⟨hlive, hcovered, step, hstep, hispaid, recorded, htransition⟩)⟩
    · rename_i huncovered
      have hlt : i.currentPaid < i.dues := not_le.mp huncovered
      split at h
      -- They are not, and the invoice stands in an unpaid step: it stays there.
      · rename_i hunpaid
        simp only [pure_eq_ok, Prod.mk.injEq] at h
        obtain ⟨step, hget, hnot⟩ := (Option.any_eq_true _ _).mp hunpaid
        exact ⟨h.2.symm, .inr (.inr (.inl ⟨hlive, hlt, h.1.symm, step, hget, by simpa using hnot⟩))⟩
      · split at h
        -- It stands in the paid step: back to the last open one, or to the default.
        · rename_i step hlatest
          simp only [bind_eq_ok, pure_eq_ok, Prod.exists, Prod.mk.injEq] at h
          obtain ⟨i₁, recorded, htransition, rfl, rfl⟩ := h
          obtain ⟨hstep, hopen⟩ := latestOpenStep_eq_some hlatest
          exact ⟨rfl, .inr (.inr (.inr ⟨hlive, hlt, step, hstep, hopen, recorded, htransition⟩))⟩
        · simp only [bind_eq_ok, pure_eq_ok, Prod.exists, Prod.mk.injEq] at h
          obtain ⟨step, steps₁, hdefault, i₁, recorded, htransition, rfl, rfl⟩ := h
          obtain ⟨hensure, hstep, hopen⟩ := activeDefaultStep_eq_ok hdefault
          rw [hw.ensureDefaultSteps] at hensure
          cases hensure
          exact ⟨rfl, .inr (.inr (.inr ⟨hlive, hlt, step, hstep, hopen, recorded, htransition⟩))⟩

/-- A void invoice is left as it stands. -/
theorem reconcilePaymentStatus_of_void {source : EventSource} {actor : Option Id}
    (h : reconcilePaymentStatus ctx steps i source actor = .ok (i', steps'))
    (hvoid : i.status = .void) : i' = i := by
  simp only [reconcilePaymentStatus, hvoid, if_true, pure_eq_ok, Prod.mk.injEq] at h
  exact h.1.symm

theorem reconcilePaymentStatus_sameCharge {source : EventSource} {actor : Option Id}
    (h : reconcilePaymentStatus ctx steps i source actor = .ok (i', steps')) :
    SameCharge i i' ∧ i'.payments = i.payments := by
  unfold reconcilePaymentStatus at h
  split at h
  · simp only [pure_eq_ok, Prod.mk.injEq] at h
    exact h.1 ▸ ⟨.refl _, rfl⟩
  · split at h
    · simp only [bind_eq_ok, pure_eq_ok, Prod.exists, Prod.mk.injEq] at h
      obtain ⟨_, _, _, _, _, htransition, rfl, _⟩ := h
      exact transitionInvoice_sameCharge htransition
    · split at h
      · simp only [pure_eq_ok, Prod.mk.injEq] at h
        exact h.1 ▸ ⟨.refl _, rfl⟩
      · split at h <;> simp only [bind_eq_ok, pure_eq_ok, Prod.exists, Prod.mk.injEq] at h
        · obtain ⟨_, _, htransition, rfl, _⟩ := h
          exact transitionInvoice_sameCharge htransition
        · obtain ⟨_, _, _, _, _, htransition, rfl, _⟩ := h
          exact transitionInvoice_sameCharge htransition

end VesselCaller.Billing
