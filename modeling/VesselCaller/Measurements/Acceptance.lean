import VesselCaller.Measurements.ConfigurationLock

/-!
# When a request is accepted

The inversions read a service backwards.  Here it is read forwards: of a request whose entries
are complete, what decides on it is the state of the plan, and for an assessment its figures.

* `ReturnEntries`, `ProposalEntries`, `ApprovalEntries`, `AssessmentEntries` — the entries are
  valid, made at the version of the plan, and name rows of it;
* `createSubmission_isOk`, `createReconciliation_isOk`, … — the condition on the plan that is
  left, service by service;
* `Chargeable` — what the server computes an assessment from and no form checks: it stays in the
  condition of `createAssessment_isOk`.
-/

namespace VesselCaller.Measurements

open Lib Accounts Billing Operations

variable {sha : Sha256} {t : Tenant} {ctx : Ctx} {actor : Id} {p : MeasurementPlan}

theorem participantFor_of_mem {id : Id} (h : id ∈ Table.keys p.participants) :
    ∃ q, participantFor p id = .ok q ∧ q.id = id := by
  obtain ⟨q, hq⟩ := Table.exists_get h
  exact ⟨q, orRaise_of_some hq, (Table.mem_of_get hq).2⟩

/-! ## Returns -/

structure ReturnEntries (t : Tenant) (ctx : Ctx) (p : MeasurementPlan) (data : SubmissionInput) :
    Prop where
  valid : data.validate = .ok ()
  version : data.version = p.version
  participant : data.participantId ∈ Table.keys p.participants
  reason : p.submissionsOf data.participantId ≠ [] → data.reason ≠ ""
  lines : validateLines p (data.lines.map SubmissionLine.fields) = .ok ()
  evidence : ∃ es, validateEvidence p data.evidenceIds false = .ok es
  fresh : ctx.uuid 0 ∉ t.plans.flatMap fun q => Table.keys q.submissions

/-- Returns are recorded until the plan is cancelled and while its latest reconciliation is
not final. -/
theorem createSubmission_isOk {data : SubmissionInput} (h : ReturnEntries t ctx p data)
    (recordedBy : Option Id) (representative : Option String) :
    (createSubmission t ctx recordedBy p { data with representative := representative }).isOk =
        true ↔
      p.status ≠ .cancelled ∧ ∀ r, p.latestReconciliation = some r → r.status ≠ .final := by
  obtain ⟨q, hq, hid⟩ := participantFor_of_mem h.participant
  obtain ⟨es, hes⟩ := h.evidence
  have hreason : ¬((sortBy Submission.revision (p.submissionsOf q.id)).getLast?.isSome = true ∧
      data.reason = "") := by
    rintro ⟨hprevious, hempty⟩
    refine h.reason (fun hnone => ?_) hempty
    rw [hid, hnone] at hprevious
    cases hprevious
  have hfinal : ¬p.latestReconciliation.any (fun r => r.status = .final) = true ↔
      ∀ r, p.latestReconciliation = some r → r.status ≠ .final := by
    cases p.latestReconciliation <;> simp
  simp only [createSubmission, isOk_bind, isOk_pure, checkVersion_eq_ok, raiseIf_eq_ok,
    insertKey_eq_ok, h.version, hq, h.lines, hes, hreason, h.fresh, hfinal, Except.ok.injEq,
    exists_eq_left', exists_eq', exists_const, not_false_eq_true, true_and, and_true]

/-! ## Reconciliations -/

structure ProposalEntries (t : Tenant) (ctx : Ctx) (p : MeasurementPlan)
    (data : ReconciliationInput) : Prop where
  valid : data.validate = .ok ()
  version : data.version = p.version
  lines : validateLines p (data.lines.map ReconciledLineInput.fields) = .ok ()
  evidence : ∃ es, validateEvidence p data.evidenceIds false = .ok es
  fresh : ctx.uuid 0 ∉ t.plans.flatMap fun q => Table.keys q.reconciliations

/-- A checked request line names a cargo line, so it is written. -/
theorem reconciledLines_isOk {data : List ReconciledLineInput}
    (h : validateLines p (data.map ReconciledLineInput.fields) = .ok ()) :
    ∃ ls, data.mapM (reconciledLine p) = .ok ls := by
  refine mapM_ok_of_forall fun item hitem => ?_
  obtain ⟨line, hline, hid, _⟩ := mem_of_validateLines h (List.mem_map_of_mem hitem)
  have hkey : item.lineId ∈ Table.keys p.lines := Table.mem_keys.mpr ⟨line, hline, hid⟩
  obtain ⟨l, hl⟩ := Table.exists_get hkey
  rw [← isOk_iff, reconciledLine, orRaise_of_some hl]
  rfl

/-- A reconciliation is proposed on at least one return, and on one of every participant that
has to return. -/
theorem createReconciliation_isOk {data : ReconciliationInput}
    (h : ProposalEntries t ctx p data) :
    (createReconciliation sha t ctx actor p data).isOk = true ↔
      p.status ≠ .cancelled ∧ latestSubmissions p ≠ [] ∧
        ∀ q ∈ p.participants, q.requiredSubmission = true →
          ∃ s ∈ latestSubmissions p, s.participantId = q.id := by
  obtain ⟨es, hes⟩ := h.evidence
  obtain ⟨ls, hls⟩ := reconciledLines_isOk h.lines
  have hmissing : (p.allParticipants.filter fun q => q.requiredSubmission &&
        q.id ∉ (latestSubmissions p).map Submission.participantId) = [] ↔
      ∀ q ∈ p.participants, q.requiredSubmission = true →
        ∃ s ∈ latestSubmissions p, s.participantId = q.id := by
    simp [List.filter_eq_nil_iff, MeasurementPlan.allParticipants]
  simp only [createReconciliation, isOk_bind, isOk_pure, checkVersion_eq_ok, raiseIf_eq_ok,
    insertKey_eq_ok, h.version, h.lines, hes, hls, h.fresh, hmissing, Except.ok.injEq,
    exists_eq', exists_const, not_false_eq_true, true_and, and_true, ne_eq, not_not]
  tauto

structure ApprovalEntries (t : Tenant) (ctx : Ctx) (p : MeasurementPlan) (data : ApprovalInput) :
    Prop where
  valid : data.validate = .ok ()
  version : data.version = p.version
  participant : data.participantId ∈ Table.keys p.participants
  evidence : ∃ es, validateEvidence p data.evidenceIds true = .ok es
  fresh : ctx.uuid 0 ∉ t.plans.flatMap fun q =>
    q.reconciliations.flatMap fun r => r.approvals.map Approval.id

/-- Acknowledgements are of the current draft. -/
theorem createApproval_isOk {data : ApprovalInput} {r : Reconciliation}
    (h : ApprovalEntries t ctx p data) :
    (createApproval sha t ctx actor p r data).isOk = true ↔
      p.status ≠ .cancelled ∧ ensureCurrentDraft sha p r = .ok () := by
  obtain ⟨q, hq, _⟩ := participantFor_of_mem h.participant
  obtain ⟨es, hes⟩ := h.evidence
  simp only [createApproval, isOk_bind, isOk_pure, checkVersion_eq_ok, insertKey_eq_ok,
    h.version, hq, hes, h.fresh, Except.ok.injEq, exists_eq', exists_const,
    not_false_eq_true, true_and, and_true]
  exact and_congr_right fun _ => ⟨fun ⟨_, hcurrent⟩ => hcurrent, fun hcurrent => ⟨⟨⟩, hcurrent⟩⟩

/-- The acknowledgements of a reconciliation let it be finalized: nobody disputes it, and who
has to agree does. -/
structure Acknowledged (p : MeasurementPlan) (r : Reconciliation) : Prop where
  undisputed : ∀ a ∈ latestApprovals r, a.decision ≠ .disputed
  agreed : ∀ q ∈ p.participants, q.requiredApproval = true →
    ∃ a ∈ latestApprovals r, a.participantId = q.id ∧ a.decision = .agreed

/-- The current draft is finalized by another member than its preparer once it is
acknowledged, where its approvals are on its fingerprint and cite evidence. -/
theorem finalizeDraft_isOk {r : Reconciliation}
    (happrovals : ∀ a ∈ r.approvals, a.inputFingerprint = r.inputFingerprint ∧ a.evidence ≠ []) :
    (finalizeDraft sha t ctx actor p r p.version).isOk = true ↔
      p.status ≠ .cancelled ∧ ensureCurrentDraft sha p r = .ok () ∧ r.createdBy ≠ actor ∧
        Acknowledged p r := by
  have hsupported : ∀ a ∈ latestApprovals r,
      (a.inputFingerprint ≠ r.inputFingerprint || a.evidence.isEmpty) = false := by
    intro a ha
    obtain ⟨hfingerprint, hcited⟩ := happrovals a (mem_of_mem_lastByKey ha)
    simp [hfingerprint, hcited]
  have hdisputed : ¬(latestApprovals r).any (fun a => a.decision = .disputed) = true ↔
      ∀ a ∈ latestApprovals r, a.decision ≠ .disputed := by
    simp
  have hagreed : (∀ q ∈ p.allParticipants, (q.requiredApproval &&
        !((latestApprovals r).any fun a => a.participantId = q.id && a.decision = .agreed)) =
          false) ↔
      ∀ q ∈ p.participants, q.requiredApproval = true →
        ∃ a ∈ latestApprovals r, a.participantId = q.id ∧ a.decision = .agreed := by
    simp [MeasurementPlan.allParticipants]
  simp only [finalizeDraft, isOk_bind, isOk_pure, checkVersion_eq_ok, raiseIf_eq_ok,
    raiseFirst_eq_ok, hdisputed, hagreed, exists_const, and_true, true_and]
  constructor
  · rintro ⟨hlive, _, hcurrent, hpreparer, hundisputed, hrequired, _⟩
    exact ⟨hlive, hcurrent, hpreparer, hundisputed, hrequired⟩
  · rintro ⟨hlive, hcurrent, hpreparer, hacknowledged⟩
    exact ⟨hlive, ⟨⟩, hcurrent, hpreparer, hacknowledged.undisputed, hacknowledged.agreed,
      hsupported⟩

/-! ## Assessments -/

/-- The charge on what was measured over a baseline, before what was billed of it. -/
def AssessmentLineInput.entitlement (item : AssessmentLineInput) (final baseline : Decimal 3) :
    Decimal 2 :=
  money 5 (chargeableOf (final - baseline) item.tolerance.value item.toleranceMode *
    item.rate.value)

/-- The request line comes to the amount: its baseline is known, and both its entitlement and
what is left of it are in the monetary range. -/
def AssessmentLineInput.Charges (item : AssessmentLineInput) (invoices : List Invoice)
    (p : MeasurementPlan) (r : Reconciliation) (policy : Policy) (amount : Decimal 2) : Prop :=
  ∃ final baseline, r.lines.find? (fun l => l.lineId = item.lineId) = some final ∧
    item.baseline r policy = some baseline ∧
    |item.entitlement final.quantity baseline.value| < moneyLimit ∧ |amount| < moneyLimit ∧
    amount = item.entitlement final.quantity baseline.value - item.openingBilledAmount.value -
      priorInvoiced invoices p item.lineId

/-- What the server asks of an assessment and no form of the page checks: every line comes to
an amount, their total is in the monetary range, and what was issued is carried forward. -/
structure Chargeable (t : Tenant) (p : MeasurementPlan) (data : AssessmentInput)
    (r : Reconciliation) : Prop where
  amounts : ∃ amounts,
    List.Forall₂ (AssessmentLineInput.Charges · t.invoices p r data.policy) data.lines amounts ∧
      |money 0 amounts.sum| < moneyLimit
  carried : ∀ b ∈ p.assessments, b.status = .issued →
    data.Carries r b.configuration ∧ data.SignedAs r b.configuration

/-- A line of the plan is calculated exactly when it comes to an amount. -/
theorem assessLine_charges_iff {invoices : List Invoice} {r : Reconciliation} {policy : Policy}
    {item : AssessmentLineInput} {amount : Decimal 2} (hkey : item.lineId ∈ Table.keys p.lines) :
    (∃ c, assessLine invoices p r policy item = .ok c ∧ c.1.amount = amount) ↔
      item.Charges invoices p r policy amount := by
  obtain ⟨line, hline⟩ := Table.exists_get hkey
  have hid : line.id = item.lineId := (Table.mem_of_get hline).2
  constructor
  · rintro ⟨c, hc, rfl⟩
    have hbaseline := assessLine_baseline hc
    simp only [assessLine, bind_eq_ok, orRaise_eq_ok, raiseIf_eq_ok, pure_eq_ok, not_or,
      not_le] at hc
    obtain ⟨line', hline', final, hfinal, baseline, _, _, ⟨hentitlement, hamount⟩, rfl⟩ := hc
    obtain rfl : line' = line := Option.some.inj (hline'.symm.trans hline)
    rw [hid] at hfinal hamount ⊢
    exact ⟨final, baseline, hfinal, hbaseline, hentitlement, hamount, rfl⟩
  · rintro ⟨final, baseline, hfinal, hbaseline, hentitlement, hamount, rfl⟩
    rw [← hid] at hfinal hamount ⊢
    simp only [assessLine, bind_eq_ok, orRaise_eq_ok, raiseIf_eq_ok, pure_eq_ok, not_or, not_le]
    refine ⟨_, ⟨line, hline, final, hfinal, baseline, ?_, (), ⟨hentitlement, hamount⟩, rfl⟩, rfl⟩
    cases policy with
    | manifestDisparity =>
        rw [hid] at hfinal
        simpa only [AssessmentLineInput.baseline, hfinal, Option.bind_some] using hbaseline
    | quantityAdjustment => exact hbaseline

structure AssessmentEntries (t : Tenant) (ctx : Ctx) (p : MeasurementPlan)
    (data : AssessmentInput) : Prop where
  valid : data.validate = .ok ()
  version : data.version = p.version
  lines : validateLines p (data.lines.map AssessmentLineInput.fields) = .ok ()
  fresh : ctx.uuid 0 ∉ t.plans.flatMap fun q => Table.keys q.assessments

theorem AssessmentEntries.lineId_mem {data : AssessmentInput} (h : AssessmentEntries t ctx p data)
    {item : AssessmentLineInput} (hitem : item ∈ data.lines) :
    item.lineId ∈ Table.keys p.lines := by
  obtain ⟨line, hline, hid, _⟩ := mem_of_validateLines h.lines (List.mem_map_of_mem hitem)
  exact Table.mem_keys.mpr ⟨line, hline, hid⟩

/-- The lines of the plan are calculated exactly when each comes to its amount. -/
theorem mapM_assessLine_iff {data : AssessmentInput} (h : AssessmentEntries t ctx p data)
    {invoices : List Invoice} {r : Reconciliation} {amounts : List (Decimal 2)} :
    (∃ cs, data.lines.mapM (assessLine invoices p r data.policy) = .ok cs ∧
        (cs.map Prod.fst).map AssessmentLine.amount = amounts) ↔
      List.Forall₂ (AssessmentLineInput.Charges · invoices p r data.policy) data.lines amounts := by
  simp only [List.map_map]
  exact exists_mapM_map_iff fun item hitem amount => assessLine_charges_iff (h.lineId_mem hitem)

/-- The latest reconciliation is assessed, once it is final and what is charged against it is
admitted. -/
theorem createAssessment_isOk {data : AssessmentInput} (h : AssessmentEntries t ctx p data)
    (hconfigured : Configured t) (hp : p ∈ t.plans) :
    (createAssessment t ctx actor p data).isOk = true ↔ p.status ≠ .cancelled ∧
      ∃ r, getReconciliation p data.reconciliationId = .ok r ∧
        ensureBillableFinal p r = .ok () ∧ Chargeable t p data r := by
  have hversion : checkVersion p data.version = .ok () ↔ p.status ≠ .cancelled := by
    simp [h.version]
  rw [isOk_iff]
  constructor
  · rintro ⟨p', hp'⟩
    obtain ⟨r, cs, hreaches, hpasses, htotal, _⟩ := createAssessment_eq_ok_iff.mp hp'
    exact ⟨hversion.mp hreaches.version, r, hreaches.reconciliation, hreaches.billable,
      ⟨_, (mapM_assessLine_iff h).mp ⟨cs, hreaches.calculations, rfl⟩, htotal⟩,
      (hconfigured.passes_iff hp hreaches).mp hpasses⟩
  · rintro ⟨hlive, r, hr, hbillable, ⟨amounts, hamounts, htotal⟩, hcarried⟩
    obtain ⟨cs, hcs, rfl⟩ := (mapM_assessLine_iff h).mpr hamounts
    have hreaches : Reaches t p data r cs := ⟨hversion.mpr hlive, hr, hbillable, h.lines, hcs⟩
    exact ⟨_, createAssessment_eq_ok_iff.mpr ⟨r, cs, hreaches,
      (hconfigured.passes_iff hp hreaches).mpr hcarried, htotal, h.fresh, rfl⟩⟩

/-! ## Plans -/

/-- A patch of the schedule, or a cancellation: the structure stays. -/
structure PatchEntries (p : MeasurementPlan) (data : PlanPatch) : Prop where
  valid : data.validate = .ok ()
  version : data.version = p.version
  participants : data.participants = none
  lines : data.lines = none
  reason : data.cancelled = true → data.reason ≠ none
  ends : ∀ e, (p.patched data).endsAt = some e → (p.patched data).scheduledAt ≤ e

/-- The schedule is written until the plan is cancelled, and a plan is cancelled while nothing
of it was finalized. -/
theorem patchPlan_isOk {data : PlanPatch} (h : PatchEntries p data) :
    (patchPlan t ctx p data).isOk = true ↔ p.status ≠ .cancelled ∧
      (data.cancelled = true → ∀ r ∈ p.reconciliations, r.finalizedAt = none) := by
  -- The second half writes no more than the patched columns.
  have hrest : ∀ p₁ : MeasurementPlan, p₁.endsAt = p.endsAt → p₁.scheduledAt = p.scheduledAt →
      (do
        let p₂ ← patchStructure t ctx p₁ data
        raiseIf ((p₂.patched data).endsAt.any (· < (p₂.patched data).scheduledAt) = true)
          (ApiError.validation "non_field_errors" "End time cannot precede start time")
        return p₂.patched data).isOk = true := by
    intro p₁ hends hscheduled
    have hstructure : patchStructure t ctx p₁ data = .ok p₁ := by
      simp [patchStructure, h.participants, h.lines, pure_eq_ok]
    have horder : ¬(p₁.patched data).endsAt.any (· < (p₁.patched data).scheduledAt) = true := by
      have hcolumns : (p₁.patched data).endsAt = (p.patched data).endsAt ∧
          (p₁.patched data).scheduledAt = (p.patched data).scheduledAt := by
        simp [MeasurementPlan.patched, hends, hscheduled]
      rw [hcolumns.1, hcolumns.2, Option.any_eq_true]
      rintro ⟨e, he, hlate⟩
      exact absurd (h.ends e he) (not_le.mpr (of_decide_eq_true hlate))
    rw [hstructure, ok_bind, raiseIf_of_not horder]
    rfl
  have hchecked : checkVersion p data.version = .ok ⟨⟩ ↔ p.status ≠ .cancelled := by
    simp [h.version]
  rw [patchPlan, isOk_bind]
  constructor
  · rintro ⟨_, hversion, hok⟩
    refine ⟨hchecked.mp hversion, fun hcancelled r hr => ?_⟩
    obtain ⟨p₁, hp₁, _⟩ := isOk_bind.mp hok
    obtain ⟨reason, hreason⟩ := Option.ne_none_iff_exists'.mp (h.reason hcancelled)
    simp only [patchCancellation, hcancelled, if_true, hreason, bind_eq_ok, raiseIf_eq_ok,
      List.any_eq_true, not_exists, not_and] at hp₁
    obtain ⟨_, _, _, hnone, _⟩ := hp₁
    simpa using hnone r hr
  · rintro ⟨hlive, hopen⟩
    refine ⟨⟨⟩, hchecked.mpr hlive, isOk_bind.mpr ?_⟩
    cases hcancelled : data.cancelled with
    | false => exact ⟨p, by simp [patchCancellation, hcancelled, pure_eq_ok], hrest p rfl rfl⟩
    | true =>
        obtain ⟨reason, hreason⟩ := Option.ne_none_iff_exists'.mp (h.reason hcancelled)
        have hnone : ¬p.reconciliations.any (fun r => r.finalizedAt.isSome) = true := by
          simpa using hopen hcancelled
        refine ⟨{ p with status := .cancelled, cancellationReason := reason }, ?_,
          hrest _ rfl rfl⟩
        rw [patchCancellation, if_pos hcancelled, hreason, orRaise_of_some rfl, ok_bind,
          raiseIf_of_not hnone]
        rfl

/-! ## Requests -/

section Requests

variable (hp : getPlan t p.id = .ok p)

include hp

theorem patchPlan_handle_isOk {data : PlanPatch} (h : PatchEntries p data) :
    (Op.handle sha t ctx actor (.patchPlan p.id data)).isOk = true ↔ p.status ≠ .cancelled ∧
      (data.cancelled = true → ∀ r ∈ p.reconciliations, r.finalizedAt = none) := by
  rw [Op.handle, h.valid, ok_bind, hp, ok_bind, isOk_bind_pure, patchPlan_isOk h]

theorem submit_handle_isOk {data : SubmissionInput} (h : ReturnEntries t ctx p data) :
    (Op.handle sha t ctx actor (.submit p.id data)).isOk = true ↔
      p.status ≠ .cancelled ∧ ∀ r, p.latestReconciliation = some r → r.status ≠ .final := by
  rw [Op.handle, h.valid, ok_bind, hp, ok_bind, isOk_bind_pure, createSubmission_isOk h]

theorem propose_handle_isOk {data : ReconciliationInput} (h : ProposalEntries t ctx p data) :
    (Op.handle sha t ctx actor (.propose p.id data)).isOk = true ↔
      p.status ≠ .cancelled ∧ latestSubmissions p ≠ [] ∧
        ∀ q ∈ p.participants, q.requiredSubmission = true →
          ∃ s ∈ latestSubmissions p, s.participantId = q.id := by
  rw [Op.handle, h.valid, ok_bind, hp, ok_bind, isOk_bind_pure, createReconciliation_isOk h]

theorem approve_handle_isOk {rid : Id} {data : ApprovalInput} (h : ApprovalEntries t ctx p data) :
    (Op.handle sha t ctx actor (.approve p.id rid data)).isOk = true ↔
      p.status ≠ .cancelled ∧ ∃ r, getReconciliation p rid = .ok r ∧
        ensureCurrentDraft sha p r = .ok () := by
  rw [Op.handle, h.valid, ok_bind, hp, ok_bind, isOk_bind]
  simp only [isOk_bind_pure, createApproval_isOk h]
  tauto

theorem assess_handle_isOk {data : AssessmentInput} (h : AssessmentEntries t ctx p data)
    (hconfigured : Configured t) (hplan : p ∈ t.plans) :
    (Op.handle sha t ctx actor (.assess p.id data)).isOk = true ↔ p.status ≠ .cancelled ∧
      ∃ r, getReconciliation p data.reconciliationId = .ok r ∧
        ensureBillableFinal p r = .ok () ∧ Chargeable t p data r := by
  rw [Op.handle, h.valid, ok_bind, hp, ok_bind, isOk_bind_pure,
    createAssessment_isOk h hconfigured hplan]

/-- The plan that was finalized is found again for the answer. -/
theorem finalize_handle_isOk {rid : Id} (hversion : 1 ≤ p.version)
    (hopen : ∀ r ∈ p.reconciliations, r.id = rid → r.finalizedAt = none)
    (happrovals : ∀ r ∈ p.reconciliations, ∀ a ∈ r.approvals,
      a.inputFingerprint = r.inputFingerprint ∧ a.evidence ≠ []) :
    (Op.handle sha t ctx actor (.finalize p.id rid p.version)).isOk = true ↔
      p.status ≠ .cancelled ∧ ∃ r, getReconciliation p rid = .ok r ∧
        ensureCurrentDraft sha p r = .ok () ∧ r.createdBy ≠ actor ∧ Acknowledged p r := by
  have hvalid : versionField p.version = .ok ⟨⟩ := by
    simp [versionField, hversion]
  rw [Op.handle, hvalid, ok_bind, hp, ok_bind, isOk_bind]
  constructor
  · rintro ⟨r, hr, hok⟩
    obtain ⟨hmem, hid⟩ := getReconciliation_eq_ok hr
    obtain ⟨t', ht', _⟩ := isOk_bind.mp hok
    obtain ⟨hfinal, _⟩ | ⟨_, p', r', hf, _⟩ := finalizeReconciliation_cases ht'
    · exact absurd (hopen r hmem hid) hfinal
    · exact ⟨hf.live, r, hr, hf.current, hf.preparer, hf.undisputed, hf.agreed⟩
  · rintro ⟨hlive, r, hr, hcurrent, hpreparer, hacknowledged⟩
    obtain ⟨hmem, hid⟩ := getReconciliation_eq_ok hr
    -- The service accepts, and the plan it wrote is found again for the answer.
    have hdraft : (finalizeDraft sha t ctx actor p r p.version).isOk = true :=
      (finalizeDraft_isOk (happrovals r hmem)).mpr ⟨hlive, hcurrent, hpreparer, hacknowledged⟩
    obtain ⟨p', hp'⟩ := isOk_iff.mp hdraft
    obtain ⟨_, r', hf⟩ := finalizeDraft_eq_ok hp'
    have hfinalized : finalizeReconciliation sha t ctx actor p r p.version = .ok (t.changed p') := by
      rw [finalizeReconciliation, hopen r hmem hid, hp']
      rfl
    have hkey : Table.get p'.advance.id t.plans = some p := by
      have hid' : p'.advance.id = p.id := by
        rw [hf.plan]
        rfl
      rw [hid']
      exact orRaise_eq_ok.mp hp
    have hfound : getPlan (t.changed p') p.id = .ok p'.advance := by
      have hid' : p.id = p'.advance.id := by
        rw [hf.plan]
        rfl
      rw [hid']
      exact orRaise_of_some (Table.get_put_self hkey)
    refine ⟨r, hr, ?_⟩
    rw [hfinalized, ok_bind, hfound]
    rfl

end Requests

end VesselCaller.Measurements
