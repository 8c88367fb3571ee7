import VesselCaller.Tenant
import VesselCaller.Measurements.Serializers

/-!
# Measurement services

`measurements.services`: what a plan mutation checks and writes.  A service reads
the tenant's tables and returns the plan as it stands when the service calls
`changed`; `Tenant.changed` then advances the version, writes the plan and bumps
the organization's revision.  The two services with an early return
(`finalizeReconciliation`, `issueAssessment`) decide themselves whether `changed`
runs and so return the tenant.

The constraints on `(participant, revision)` and `(plan, revision)` are not
modelled: a new revision is one more than the highest, so they never fire.

## Main definitions

* `validateLines`, `createStructure` — the lines and participants of a plan;
* `createSubmission`, `createReconciliation`, `createApproval`, `finalizeReconciliation` — the
  lifecycle;
* `createAssessment`, `issueAssessment` — the charges.
-/

namespace VesselCaller.Measurements

open Lib Accounts Billing Operations

/-- `check_version`. -/
def checkVersion (plan : MeasurementPlan) (version : ℕ) : Result Unit := do
  raiseIf (plan.version ≠ version)
    (.conflict "The measurement plan changed. Refresh and try again.")
  raiseIf (plan.status = .cancelled)
    (.conflict "A cancelled measurement plan cannot be changed")

/-- An insert under the primary-key constraint of its table. -/
def insertKey (constraint : String) (id : Id) (taken : List Id) : Result Unit :=
  raiseIf (id ∈ taken) (.integrity constraint)

/-- `validate_evidence`. -/
def validateEvidence (plan : MeasurementPlan) (ids : List Id) (required : Bool) :
    Result (List Evidence) := do
  raiseIf (¬ids.Nodup)
    (.validation "evidenceIds" "Duplicate evidence references are not allowed")
  let evidence := plan.evidence.filter fun e => e.id ∈ ids
  raiseIf (evidence.length ≠ ids.length ∨ (required = true ∧ evidence = []))
    (.validation "evidenceIds" "Supporting evidence must belong to this measurement plan")
  return evidence

/-- `participant_for`. -/
def participantFor (plan : MeasurementPlan) (participantId : Id) : Result Participant :=
  orRaise (Table.get participantId plan.participants)
    (.validation "participantId" "Participant does not belong to this plan")

/-! ## Cargo lines -/

/-- The fields of a request line that `validate_lines` looks at. -/
structure LineFields where
  lineId : Id
  quantity : Option (Decimal 3) := none
  previouslyBilledQuantity : Option (Decimal 3) := none
  tolerance : Option (Decimal 3) := none

def SubmissionLine.fields (l : SubmissionLine) : LineFields :=
  { lineId := l.lineId, quantity := l.quantity }

def ReconciledLineInput.fields (l : ReconciledLineInput) : LineFields :=
  { lineId := l.lineId, quantity := some l.quantity }

def AssessmentLineInput.fields (l : AssessmentLineInput) : LineFields :=
  { lineId := l.lineId
    previouslyBilledQuantity := l.previouslyBilledQuantity.map DecimalText.value
    tolerance := some l.tolerance.value }

/-- The first field of a request line that is not the whole count its unit asks for. -/
def fractionalField (line : CargoLine) (item : LineFields) : Option String :=
  let fields := [("quantity", item.quantity),
    ("previouslyBilledQuantity", item.previouslyBilledQuantity), ("tolerance", item.tolerance)]
  (fields.find? fun f => f.2.any fun v => line.unit = .count && !isWhole v).map Prod.fst

/-- `validate_lines`: every cargo line of the plan exactly once, counts whole. -/
def validateLines (plan : MeasurementPlan) (data : List LineFields) : Result Unit := do
  let supplied := data.map LineFields.lineId
  raiseIf (¬supplied.Nodup ∨ ¬(∀ id, id ∈ supplied → id ∈ Table.keys plan.lines) ∨
      ¬(∀ id, id ∈ Table.keys plan.lines → id ∈ supplied))
    (.validation "lines" "Supply every cargo line in this plan exactly once")
  data.forM fun item => do
    let line ← orRaise (Table.get item.lineId plan.lines) (.server "KeyError")
    match fractionalField line item with
    | some name => throw (.validation "lines" (line.description ++ ": " ++ name ++
        " must be a whole count"))
    | none => pure ()

/-! ## Structure -/

/-- The registered agency a participant names, if it names one. -/
def registeredAgency (t : Tenant) (item : ParticipantInput) : Result (Option Agency) :=
  match item.agencyId with
  | none => pure none
  | some agencyId => do
      let agency ← orRaise (t.agencies.find? fun a => a.id = agencyId && a.active)
        (.validation "agencyId" "Choose an active agency in this organization")
      return some agency

/-- One participant of `create_structure`: an agency of the registry lends its name
and role. -/
def createParticipant (t : Tenant) (taken : List Id) (created : List Participant)
    (item : ParticipantInput) (id : Id) : Result (List Participant) := do
  let agency ← registeredAgency t item
  insertKey "measurements_participant_pkey" id (taken ++ Table.keys created)
  return created ++ [{
    id := id
    name := (agency.map Agency.name).getD item.name
    role := (agency.map Agency.role).getD item.role
    representative := item.representative
    agencyId := agency.map Agency.id
    requiredSubmission := item.requiredSubmission
    requiredApproval := item.requiredApproval }]

/-- One line of `create_structure`. -/
def createLine (taken : List Id) (created : List CargoLine) (item : CargoLineInput) (id : Id) :
    Result (List CargoLine) := do
  insertKey "measurements_cargoline_pkey" id (taken ++ Table.keys created)
  return created ++ [{
    id := id
    description := item.description
    category := item.category
    direction := item.direction
    containerSize := item.containerSize
    loadStatus := item.loadStatus
    unit := item.unit
    basis := item.basis
    manifestQuantity := item.manifestQuantity
    baselineReference := item.baselineReference }]

/-- The rows the other plans hold. -/
def otherPlans (t : Tenant) (plan : MeasurementPlan) : List MeasurementPlan :=
  t.plans.filter fun p => p.id ≠ plan.id

/-- `create_structure`: participants and lines are appended to those the plan has. -/
def createStructure (t : Tenant) (ctx : Ctx) (plan : MeasurementPlan)
    (participants : List ParticipantInput) (lines : List CargoLineInput) :
    Result MeasurementPlan := do
  let takenParticipants := (otherPlans t plan).flatMap fun p => Table.keys p.participants
  let takenLines := (otherPlans t plan).flatMap fun p => Table.keys p.lines
  let created ← participants.zipIdx.foldlM (fun created item =>
    createParticipant t takenParticipants created item.1 (ctx.uuid (100 + item.2)))
    plan.participants
  let createdLines ← lines.zipIdx.foldlM (fun created item =>
    createLine takenLines created item.1 (ctx.uuid (200 + item.2))) plan.lines
  return { plan with participants := created, lines := createdLines }

/-! ## Submissions -/

/-- `latest_submissions`: of every participant the highest revision, by participant. -/
def latestSubmissions (plan : MeasurementPlan) : List Submission :=
  sortBy Submission.participantId
    (lastByKey Submission.participantId (sortBy Submission.revision plan.submissions))

section Fingerprints

variable (sha : Sha256)

/-- `source_fingerprint`. -/
def sourceFingerprint (plan : MeasurementPlan) (submissions : List Submission) : Digest :=
  sha.source {
    submissions := sortBy id (submissions.map Submission.id)
    lines := plan.lines
    participants := plan.allParticipants }

/-- `get_reconciliation`. -/
def getReconciliation (plan : MeasurementPlan) (rid : Id) : Result Reconciliation :=
  orRaise (Table.get rid plan.reconciliations) (.notFound "Reconciliation not found")

/-- `ensure_current_draft`. -/
def ensureCurrentDraft (plan : MeasurementPlan) (reconciliation : Reconciliation) :
    Result Unit := do
  raiseIf (reconciliation.status ≠ .draft)
    (.conflict "Only a current draft reconciliation can be approved")
  raiseIf (some reconciliation.id ≠ plan.latestReconciliation.map Reconciliation.id)
    (.conflict "A newer reconciliation exists")
  raiseIf (reconciliation.inputFingerprint ≠ sourceFingerprint sha plan (latestSubmissions plan))
    (.conflict "Stakeholder returns changed. Create a new proposal before approval")

/-- `ensure_billable_final`. -/
def ensureBillableFinal (plan : MeasurementPlan) (reconciliation : Reconciliation) :
    Result Unit :=
  raiseIf (reconciliation.status ≠ .final ∨
      plan.latestReconciliation.map Reconciliation.id ≠ some reconciliation.id)
    (.conflict "Billing requires the latest final reconciliation with no newer draft")

/-- `create_submission`.  A portal submission (`guest`) has no recording user. -/
def createSubmission (t : Tenant) (ctx : Ctx) (recordedBy : Option Id) (plan : MeasurementPlan)
    (data : SubmissionInput) : Result MeasurementPlan := do
  checkVersion plan data.version
  raiseIf (plan.latestReconciliation.any (fun r => r.status = .final) = true)
    (.conflict "Create an amendment proposal before recording revised returns")
  let participant ← participantFor plan data.participantId
  let previous := (sortBy Submission.revision (plan.submissionsOf participant.id)).getLast?
  raiseIf (previous.isSome = true ∧ data.reason = "")
    (.validation "reason" "A revision reason is required")
  validateLines plan (data.lines.map SubmissionLine.fields)
  let evidence ← validateEvidence plan data.evidenceIds false
  insertKey "measurements_measurementsubmission_pkey" (ctx.uuid 0)
    (t.plans.flatMap fun p => Table.keys p.submissions)
  let submission : Submission := {
    id := ctx.uuid 0
    participantId := participant.id
    revision := (previous.map fun s => s.revision + 1).getD 1
    observedAt := data.observedAt
    sourceReference := data.sourceReference
    notes := data.notes
    reason := data.reason
    recordedBy := recordedBy
    recordedAt := ctx.now
    representative := data.representative.getD participant.representative
    snapshot := {
      plan := t.planContext plan
      participant := participant
      lines := plan.lines }
    source := if recordedBy.isSome then .staff else .agencyLink
    evidence := evidence.map Evidence.id
    lines := data.lines }
  return { plan with submissions := plan.submissions ++ [submission], status := .inProgress }

/-! ## Reconciliations -/

/-- The line `create_reconciliation` writes for a request line. -/
def reconciledLine (plan : MeasurementPlan) (item : ReconciledLineInput) :
    Result ReconciliationLine := do
  let line ← orRaise (Table.get item.lineId plan.lines) (.server "KeyError")
  return {
    lineId := line.id
    quantity := item.quantity
    manifestQuantity := line.manifestQuantity
    variance := line.manifestQuantity.map fun m => item.quantity - m
    reason := item.reason }

/-- Every reconciliation with status `old` becomes superseded. -/
def supersede (old : ReconciliationStatus) (rs : List Reconciliation) : List Reconciliation :=
  rs.map fun r => if r.status = old then { r with status := .superseded } else r

/-- `create_reconciliation`. -/
def createReconciliation (t : Tenant) (ctx : Ctx) (actor : Id) (plan : MeasurementPlan)
    (data : ReconciliationInput) : Result MeasurementPlan := do
  checkVersion plan data.version
  validateLines plan (data.lines.map ReconciledLineInput.fields)
  let evidence ← validateEvidence plan data.evidenceIds false
  let submissions := latestSubmissions plan
  let missing := plan.allParticipants.filter fun p =>
    p.requiredSubmission && p.id ∉ submissions.map Submission.participantId
  raiseIf (missing ≠ [])
    (.validation "submissions" ("Required stakeholder returns missing: " ++
      ", ".intercalate (missing.map Participant.name)))
  raiseIf (submissions = [])
    (.validation "submissions" "Record at least one stakeholder return before reconciliation")
  let revision := ((plan.reconciliations.map Reconciliation.revision).max?).getD 0 + 1
  insertKey "measurements_reconciliation_pkey" (ctx.uuid 0)
    (t.plans.flatMap fun p => Table.keys p.reconciliations)
  let lines ← data.lines.mapM (reconciledLine plan)
  let reconciliation : Reconciliation := {
    id := ctx.uuid 0
    revision := revision
    status := .draft
    reason := data.reason
    createdBy := actor
    createdAt := ctx.now
    finalizedBy := none
    finalizedAt := none
    submissions := submissions.map Submission.id
    evidence := evidence.map Evidence.id
    inputFingerprint := sourceFingerprint sha plan submissions
    snapshot := {
      plan := t.planContext plan
      participants := plan.allParticipants
      lines := plan.lines
      submissions := submissions.map (submissionData t.users)
      final := none }
    lines := lines
    approvals := [] }
  return { plan with
    reconciliations := supersede .draft plan.reconciliations ++ [reconciliation]
    status := .inProgress }

/-- `create_approval`. -/
def createApproval (t : Tenant) (ctx : Ctx) (actor : Id) (plan : MeasurementPlan)
    (reconciliation : Reconciliation) (data : ApprovalInput) : Result MeasurementPlan := do
  checkVersion plan data.version
  ensureCurrentDraft sha plan reconciliation
  let participant ← participantFor plan data.participantId
  let evidence ← validateEvidence plan data.evidenceIds true
  insertKey "measurements_reconciliationapproval_pkey" (ctx.uuid 0)
    (t.plans.flatMap fun p => p.reconciliations.flatMap fun r => r.approvals.map Approval.id)
  let approval : Approval := {
    id := ctx.uuid 0
    participantId := participant.id
    decision := data.decision
    representative := data.representative
    reference := data.reference
    evidence := evidence.map Evidence.id
    inputFingerprint := reconciliation.inputFingerprint
    recordedBy := actor
    recordedAt := ctx.now }
  let reconciliation := { reconciliation with
    approvals := reconciliation.approvals ++ [approval] }
  return { plan with
    reconciliations := Table.put reconciliation plan.reconciliations }

/-- The last approval of every participant. -/
def latestApprovals (reconciliation : Reconciliation) : List Approval :=
  lastByKey Approval.participantId reconciliation.approvals

/-- The evidence `finalize_reconciliation` collects into the snapshot. -/
def usedEvidence (plan : MeasurementPlan) (reconciliation : Reconciliation) : List Evidence :=
  let linked := plan.submissions.filter fun s => s.id ∈ reconciliation.submissions
  plan.evidence.filter fun e =>
    e.id ∈ reconciliation.evidence || linked.any (fun s => e.id ∈ s.evidence) ||
      reconciliation.approvals.any (fun a => e.id ∈ a.evidence)

/-- The snapshot `finalize_reconciliation` stores. -/
def finalSnapshot (t : Tenant) (plan : MeasurementPlan) (reconciliation : Reconciliation) :
    ReconciliationSnapshot :=
  { reconciliation.snapshot with
    plan := t.planContext plan
    final := some {
      reconciliation := reconciliationData t.users plan.submissions reconciliation
      approvals := reconciliation.approvals.map (approvalData t.users)
      evidence := (usedEvidence plan reconciliation).map evidenceData
      inputFingerprint := reconciliation.inputFingerprint } }

/-- `finalize_reconciliation` from its version check on. -/
def finalizeDraft (t : Tenant) (ctx : Ctx) (actor : Id) (plan : MeasurementPlan)
    (reconciliation : Reconciliation) (version : ℕ) : Result MeasurementPlan := do
  checkVersion plan version
  ensureCurrentDraft sha plan reconciliation
  raiseIf (reconciliation.createdBy = actor)
    (.validation "non_field_errors"
      "Final approval requires an Admin other than the reconciliation preparer")
  let approvals := latestApprovals reconciliation
  raiseIf (approvals.any (fun a => a.decision = .disputed) = true)
    (.validation "non_field_errors"
      "Resolve all recorded stakeholder disputes before final approval")
  raiseFirst plan.allParticipants
    (fun p => p.requiredApproval &&
      !(approvals.any fun a => a.participantId = p.id && a.decision = .agreed))
    (fun p => .validation "non_field_errors"
      ("An agreed acknowledgement is required from " ++ p.name))
  raiseFirst approvals
    (fun a => a.inputFingerprint ≠ reconciliation.inputFingerprint || a.evidence.isEmpty)
    (fun _ => .conflict "Supporting acknowledgement evidence is missing or stale")
  let plan := { plan with
    reconciliations := supersede .final plan.reconciliations
    status := .reconciled }
  let reconciliation := { reconciliation with
    status := .final
    finalizedBy := some actor
    finalizedAt := some ctx.now }
  let reconciliation := { reconciliation with snapshot := finalSnapshot t plan reconciliation }
  return { plan with reconciliations := Table.put reconciliation plan.reconciliations }

/-- `finalize_reconciliation`: a finalized reconciliation is returned as it stands. -/
def finalizeReconciliation (t : Tenant) (ctx : Ctx) (actor : Id) (plan : MeasurementPlan)
    (reconciliation : Reconciliation) (version : ℕ) : Result Tenant :=
  if reconciliation.finalizedAt.isSome then pure t
  else do
    let plan ← finalizeDraft sha t ctx actor plan reconciliation version
    return t.changed plan

end Fingerprints

/-! ## Assessments -/

/-- The disparity invoices of a plan that are not void. -/
def standingInvoices (invoices : List Invoice) (plan : MeasurementPlan) : List Invoice :=
  invoices.filter fun i => i.purpose = .disparity && i.status ≠ .void &&
    i.assessmentId.any fun a => a ∈ Table.keys plan.assessments

/-- What an invoice charges for one cargo line. -/
def chargedFor (line : Id) (i : Invoice) : Decimal 2 :=
  ((i.lineItems.filter fun item => item.lineId = line).map LineItem.amount).sum

/-- `prior_invoiced`, at one cargo line of the plan. -/
def priorInvoiced (invoices : List Invoice) (plan : MeasurementPlan) (line : Id) : Decimal 2 :=
  ((standingInvoices invoices plan).map (chargedFor line)).sum

/-- The monetary range of a column with eighteen digits. -/
def moneyLimit : Decimal 2 := 10 ^ 18

/-- The part of a variance the tolerance leaves chargeable. -/
def chargeableOf (variance tolerance : Decimal 3) (mode : ToleranceMode) : Decimal 3 :=
  if variance > tolerance then
    match mode with
    | .threshold => variance
    | .deductible => variance - tolerance
  else 0

/-- One round of `create_assessment`'s loop: the calculation and the configuration
entry of a request line.  A charge below the monetary limit has at most 23 digits,
so the context precision of 28 digits never rounds it. -/
def assessLine (invoices : List Invoice) (plan : MeasurementPlan)
    (reconciliation : Reconciliation) (policy : Policy) (item : AssessmentLineInput) :
    Result (AssessmentLine × ConfigurationLine) := do
  let line ← orRaise (Table.get item.lineId plan.lines) (.server "KeyError")
  let final ← orRaise (reconciliation.lines.find? fun l => l.lineId = line.id)
    (.server "KeyError")
  let known := match policy with
    | .manifestDisparity => final.manifestQuantity.map DecimalText.ofColumn
    | .quantityAdjustment => item.previouslyBilledQuantity
  let baseline ← orRaise known
    (.validation "lines" (line.description ++
      ": this policy requires a known billing baseline; missing is not zero"))
  let variance := final.quantity - baseline.value
  let chargeable := chargeableOf variance item.tolerance.value item.toleranceMode
  let entitlement := money 5 (chargeable * item.rate.value)
  let prior := priorInvoiced invoices plan line.id
  let amount := entitlement - item.openingBilledAmount.value - prior
  raiseIf (moneyLimit ≤ |entitlement| ∨ moneyLimit ≤ |amount|)
    (.validation "lines" "Calculated charge exceeds the supported monetary range")
  return ({
      lineId := line.id
      description := line.description
      unit := line.unit
      baselineQuantity := baseline.value
      finalQuantity := final.quantity
      variance := variance
      rate := item.rate.value
      tolerance := item.tolerance.value
      toleranceMode := item.toleranceMode
      chargeableQuantity := chargeable
      entitlement := entitlement
      openingBilledAmount := item.openingBilledAmount.value
      priorInvoicedAmount := prior
      amount := amount },
    { lineId := line.id
      baseline := baseline
      rate := item.rate
      tolerance := item.tolerance
      toleranceMode := item.toleranceMode
      openingBilledAmount := item.openingBilledAmount })

/-- Whether a calculation puts its assessment on hold. -/
def AssessmentLine.held (l : AssessmentLine) : Bool := l.variance < 0 || l.amount < 0

/-- `create_assessment`. -/
def createAssessment (t : Tenant) (ctx : Ctx) (actor : Id) (plan : MeasurementPlan)
    (data : AssessmentInput) : Result MeasurementPlan := do
  checkVersion plan data.version
  let reconciliation ← getReconciliation plan data.reconciliationId
  ensureBillableFinal plan reconciliation
  validateLines plan (data.lines.map AssessmentLineInput.fields)
  let calculations ← data.lines.mapM (assessLine t.invoices plan reconciliation data.policy)
  let lines := calculations.map Prod.fst
  let configuration : Configuration := {
    payer := data.payer
    currency := data.currency
    policy := data.policy
    tariffReference := data.tariffReference
    openingChargesReference := data.openingChargesReference
    lines := sortBy ConfigurationLine.lineId (calculations.map Prod.snd) }
  let issued := plan.assessments.find? fun a => (invoiceOf t.invoices a.id).isSome
  raiseIf (issued.any (fun a => configuration ≠ a.configuration) = true)
    (.conflict "The billing configuration is locked after issuance; amendments must carry forward the same baseline, rate, tolerance, payer and opening position")
  let total := money 0 (lines.map AssessmentLine.amount).sum
  raiseIf (moneyLimit ≤ |total|)
    (.validation "non_field_errors" "Total exceeds the supported monetary range")
  insertKey "measurements_disparityassessment_pkey" (ctx.uuid 0)
    (t.plans.flatMap fun p => Table.keys p.assessments)
  let assessment : Assessment := {
    id := ctx.uuid 0
    reconciliationId := reconciliation.id
    payer := data.payer
    currency := data.currency
    policy := data.policy
    tariffReference := data.tariffReference
    openingChargesReference := data.openingChargesReference
    reason := data.reason
    status := if lines.any AssessmentLine.held then .held
      else if total > 0 then .ready else .noCharge
    total := total
    configuration := configuration
    createdBy := actor
    createdAt := ctx.now
    lines := lines }
  return { plan with assessments := plan.assessments ++ [assessment] }

/-- The invoice `issue_assessment` creates, before it enters its first step. -/
def disparityInvoice (ctx : Ctx) (settings : OrganizationSettings) (plan : MeasurementPlan)
    (assessment : Assessment) (number : String) : Invoice where
  id := ctx.uuid 1
  vesselCallId := plan.vesselCallId
  inspectionId := none
  purpose := .disparity
  currency := assessment.currency
  payer := assessment.payer
  reconciliationId := some assessment.reconciliationId
  assessmentId := some assessment.id
  lineItems := plan.lineItems assessment
  invoiceNo := number
  cargoType := .disparity
  issuedOn := ctx.localdate
  dueOn := ctx.localdate + 14
  status := .unpaid
  currentStatus := none
  dues := assessment.total
  rate := 0
  commissionUsd := 0
  commissionNgn := 0
  exchangeRate := settings.exchangeRate
  payments := []
  events := []

/-- `issue_assessment` from its version check on. -/
def issueReady (t : Tenant) (ctx : Ctx) (actor : Id) (plan : MeasurementPlan)
    (assessment : Assessment) (version : ℕ) : Result (Tenant × Invoice) := do
  checkVersion plan version
  let reconciliation ← orRaise (Table.get assessment.reconciliationId plan.reconciliations)
    (.server "Reconciliation.DoesNotExist")
  ensureBillableFinal plan reconciliation
  raiseIf (plan.assessments.getLast?.map Assessment.id ≠ some assessment.id)
    (.conflict "A newer assessment exists; review the latest assessment")
  raiseIf (assessment.status ≠ .ready ∨ assessment.total ≤ 0)
    (.conflict "Only a positive ready assessment can be invoiced; held assessments require credit review")
  raiseIf (assessment.lines.any (fun l =>
      priorInvoiced t.invoices plan l.lineId ≠ l.priorInvoicedAmount) = true)
    (.conflict "Prior invoice amounts changed. Create a new assessment")
  let (number, sequences) := nextNumber ctx t.sequences .invoice "INV"
  insertKey "billing_invoice_pkey" (ctx.uuid 1) (Table.keys t.invoices)
  let invoice := disparityInvoice ctx t.settings plan assessment number
  let (step, steps) ← activeDefaultStep ctx t.steps
  let (invoice, _) ← transitionInvoice ctx steps invoice (some step) .created (some actor) ""
  let plan := { plan with
    assessments := Table.put { assessment with status := .issued } plan.assessments }
  let t := { t with
    steps := steps
    sequences := sequences
    invoices := invoice :: t.invoices }
  return (t.changed plan, invoice)

/-- `issue_assessment`: an invoiced assessment returns its invoice as it stands. -/
def issueAssessment (t : Tenant) (ctx : Ctx) (actor : Id) (plan : MeasurementPlan)
    (assessmentId : Id) (version : ℕ) : Result (Tenant × Invoice) := do
  let assessment ← orRaise (Table.get assessmentId plan.assessments)
    (.notFound "Assessment not found")
  match invoiceOf t.invoices assessment.id with
  | some existing => return (t, existing)
  | none => issueReady t ctx actor plan assessment version

end VesselCaller.Measurements
