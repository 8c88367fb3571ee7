import VesselCaller.Billing.Model
import VesselCaller.Operations.Model

/-!
# Measurements: plans, returns, reconciliations and assessments

The rows of `measurements.models`.  A plan carries its children in the order they
were recorded: evidence, submissions (the agencies' returns), reconciliations with
their lines and approvals, disparity assessments with their lines, and agency
links.  `plan.lines.all()` is the stored order (the position of a line is its
index); `plan.participants.all()` is ordered by primary key.

## Digests

A fingerprint is the SHA-256 of a canonical JSON text.  The texts are kept as the
structures they print (`FingerprintSource`, `PortalSource`, `GuestSubmission`) and
the hash is a parameter of the model, `Sha256`; a digest is either one that a hash
produced or any other text a client may send.

## Main definitions

* `MeasurementPlan` — a plan with its children;
* `Submission`, `Reconciliation`, `Assessment`, `AgencyLink` — the children;
* `Sha256`, `Digest` — digests as values of their sources.
-/

namespace VesselCaller.Measurements

open Lib Accounts Billing Operations

inductive PlanStatus where
  | scheduled
  | inProgress
  | reconciled
  | cancelled
  deriving DecidableEq, Repr

structure Agency where
  id : Id
  name : String
  role : String
  representative : String
  active : Bool
  version : ℕ
  deriving DecidableEq, Repr

instance : Keyed Agency Id := ⟨Agency.id⟩

/-- `participant_data` shows every column of a participant but its plan. -/
structure Participant where
  id : Id
  name : String
  role : String
  representative : String
  agencyId : Option Id
  requiredSubmission : Bool
  requiredApproval : Bool
  deriving DecidableEq, Repr

instance : Keyed Participant Id := ⟨Participant.id⟩

/-- `cargo_line_data` shows every column of a line but its plan and position. -/
structure CargoLine where
  id : Id
  description : String
  category : String
  direction : String
  containerSize : String
  loadStatus : String
  unit : CargoUnit
  basis : String
  manifestQuantity : Option (Decimal 3)
  baselineReference : String
  deriving DecidableEq, Repr

instance : Keyed CargoLine Id := ⟨CargoLine.id⟩

structure Evidence where
  id : Id
  objectKey : String
  fileName : String
  contentType : String
  size : ℕ
  checksum : String
  uploadedBy : Id
  createdAt : Instant
  deriving DecidableEq, Repr

instance : Keyed Evidence Id := ⟨Evidence.id⟩

/-! ## Digests -/

/-- What `source_fingerprint` hashes. -/
structure FingerprintSource where
  submissions : List Id
  lines : List CargoLine
  participants : List Participant
  deriving DecidableEq, Repr

/-- What the portal's `fingerprint` hashes. -/
structure PortalSource where
  id : Id
  callId : Id
  vesselName : String
  callReference : String
  title : String
  location : String
  scheduledAt : Instant
  lines : List CargoLine
  participants : List Participant
  deriving DecidableEq, Repr

/-- A digest column, or the text a client sends for one. -/
inductive Digest where
  | hex (text : String)
  | source (s : FingerprintSource)
  | portal (p : PortalSource)
  deriving DecidableEq, Repr

inductive LineStatus where
  | reported
  | notApplicable
  deriving DecidableEq, Repr

structure SubmissionLine where
  lineId : Id
  status : LineStatus
  quantity : Option (Decimal 3)
  note : String
  deriving DecidableEq, Repr

/-- The validated body of a portal submission. -/
structure GuestSubmission where
  contextId : Id
  requestId : String
  inputFingerprint : Digest
  representative : String
  observedAt : Instant
  sourceReference : String
  notes : String
  lines : List SubmissionLine
  deriving DecidableEq, Repr

/-- The digest of a portal request body; the empty text where there was none. -/
inductive RequestDigest where
  | hex (text : String)
  | body (b : GuestSubmission)
  deriving DecidableEq, Repr

/-- SHA-256 over the canonical texts the code hashes. -/
structure Sha256 where
  source : FingerprintSource → Digest
  portal : PortalSource → Digest
  body : GuestSubmission → RequestDigest
  text : String → String

/-! ## Returns -/

/-- `plan_context`. -/
structure PlanContext where
  id : Id
  callId : Id
  vesselName : String
  callReference : String
  title : String
  scheduledAt : Instant
  endsAt : Option Instant
  location : String
  method : String
  stage : String
  scope : String
  leadSurveyor : String
  notes : String
  status : PlanStatus
  cancellationReason : String
  version : ℕ
  createdBy : ActorData
  createdAt : Instant
  deriving DecidableEq, Repr

inductive SubmissionSource where
  | staff
  | agencyLink
  deriving DecidableEq, Repr

structure SubmissionSnapshot where
  plan : PlanContext
  participant : Participant
  lines : List CargoLine
  deriving DecidableEq, Repr

structure Submission where
  id : Id
  participantId : Id
  revision : ℕ
  observedAt : Instant
  sourceReference : String
  notes : String
  reason : String
  recordedBy : Option Id
  recordedAt : Instant
  representative : String
  snapshot : SubmissionSnapshot
  source : SubmissionSource
  evidence : List Id
  lines : List SubmissionLine
  deriving DecidableEq, Repr

instance : Keyed Submission Id := ⟨Submission.id⟩

/-! ## Reconciliations -/

inductive ReconciliationStatus where
  | draft
  | final
  | superseded
  deriving DecidableEq, Repr

structure ReconciliationLine where
  lineId : Id
  quantity : Decimal 3
  manifestQuantity : Option (Decimal 3)
  variance : Option (Decimal 3)
  reason : String
  deriving DecidableEq, Repr

inductive Decision where
  | agreed
  | disputed
  deriving DecidableEq, Repr

structure Approval where
  id : Id
  participantId : Id
  decision : Decision
  representative : String
  reference : String
  evidence : List Id
  inputFingerprint : Digest
  recordedBy : Id
  recordedAt : Instant
  deriving DecidableEq, Repr

/-- `submission_data`. -/
structure SubmissionData where
  id : Id
  participantId : Id
  revision : ℕ
  observedAt : Instant
  sourceReference : String
  notes : String
  reason : String
  recordedBy : ActorData
  source : SubmissionSource
  representative : String
  recordedAt : Instant
  lines : List SubmissionLine
  evidenceIds : List Id
  deriving DecidableEq, Repr

/-- `approval_data`. -/
structure ApprovalData where
  id : Id
  participantId : Id
  decision : Decision
  representative : String
  reference : String
  evidenceIds : List Id
  recordedBy : ActorData
  recordedAt : Instant
  deriving DecidableEq, Repr

/-- `evidence_data`. -/
structure EvidenceData where
  id : Id
  fileName : String
  contentType : String
  size : ℕ
  checksum : String
  createdAt : Instant
  deriving DecidableEq, Repr

/-- `reconciliation_data(…, include_snapshot=False)`. -/
structure ReconciliationData where
  id : Id
  revision : ℕ
  status : ReconciliationStatus
  reason : String
  createdBy : ActorData
  createdAt : Instant
  finalizedBy : Option ActorData
  finalizedAt : Option Instant
  lines : List ReconciliationLine
  submissionIds : List Id
  evidenceIds : List Id
  approvals : List ApprovalData
  deriving DecidableEq, Repr

/-- The keys `finalize_reconciliation` adds to the snapshot. -/
structure FinalSnapshot where
  reconciliation : ReconciliationData
  approvals : List ApprovalData
  evidence : List EvidenceData
  inputFingerprint : Digest
  deriving DecidableEq, Repr

structure ReconciliationSnapshot where
  plan : PlanContext
  participants : List Participant
  lines : List CargoLine
  submissions : List SubmissionData
  final : Option FinalSnapshot
  deriving DecidableEq, Repr

/-- `submissions` and `evidence` are the keys the many-to-many tables hold. -/
structure Reconciliation where
  id : Id
  revision : ℕ
  status : ReconciliationStatus
  reason : String
  createdBy : Id
  createdAt : Instant
  finalizedBy : Option Id
  finalizedAt : Option Instant
  submissions : List Id
  evidence : List Id
  inputFingerprint : Digest
  snapshot : ReconciliationSnapshot
  lines : List ReconciliationLine
  approvals : List Approval
  deriving DecidableEq, Repr

instance : Keyed Reconciliation Id := ⟨Reconciliation.id⟩

/-! ## Disparity assessments -/

inductive Policy where
  | manifestDisparity
  | quantityAdjustment
  deriving DecidableEq, Repr

inductive AssessmentStatus where
  | ready
  | noCharge
  | held
  | issued
  deriving DecidableEq, Repr

structure AssessmentLine where
  lineId : Id
  description : String
  unit : CargoUnit
  baselineQuantity : Decimal 3
  finalQuantity : Decimal 3
  variance : Decimal 3
  rate : Decimal 4
  tolerance : Decimal 3
  toleranceMode : ToleranceMode
  chargeableQuantity : Decimal 3
  entitlement : Decimal 2
  openingBilledAmount : Decimal 2
  priorInvoicedAmount : Decimal 2
  amount : Decimal 2
  deriving DecidableEq, Repr

/-- One entry of the configuration snapshot, its decimals as text. -/
structure ConfigurationLine where
  lineId : Id
  baseline : DecimalText 3
  rate : DecimalText 4
  tolerance : DecimalText 3
  toleranceMode : ToleranceMode
  openingBilledAmount : DecimalText 2
  deriving DecidableEq, Repr

structure Configuration where
  payer : String
  currency : String
  policy : Policy
  tariffReference : String
  openingChargesReference : String
  lines : List ConfigurationLine
  deriving DecidableEq, Repr

structure Assessment where
  id : Id
  reconciliationId : Id
  payer : String
  currency : String
  policy : Policy
  tariffReference : String
  openingChargesReference : String
  reason : String
  status : AssessmentStatus
  total : Decimal 2
  configuration : Configuration
  createdBy : Id
  createdAt : Instant
  lines : List AssessmentLine
  deriving DecidableEq, Repr

instance : Keyed Assessment Id := ⟨Assessment.id⟩

/-! ## Agency links and plans -/

structure AgencyLink where
  id : Id
  participantId : Id
  tokenDigest : String
  inputFingerprint : Digest
  expiresAt : Instant
  revokedAt : Option Instant
  submissionId : Option Id
  requestId : String
  requestDigest : RequestDigest
  deriving DecidableEq, Repr

instance : Keyed AgencyLink Id := ⟨AgencyLink.id⟩

structure PortalSession where
  id : Id
  linkId : Id
  browserDigest : String
  expiresAt : Instant
  deriving DecidableEq, Repr

instance : Keyed PortalSession Id := ⟨PortalSession.id⟩

structure MeasurementPlan where
  id : Id
  vesselCallId : Id
  title : String
  scheduledAt : Instant
  endsAt : Option Instant
  location : String
  method : String
  stage : String
  scope : String
  leadSurveyor : String
  notes : String
  status : PlanStatus
  cancellationReason : String
  version : ℕ
  createdBy : Id
  createdAt : Instant
  participants : List Participant
  lines : List CargoLine
  evidence : List Evidence
  submissions : List Submission
  reconciliations : List Reconciliation
  assessments : List Assessment
  links : List AgencyLink
  deriving DecidableEq, Repr

instance : Keyed MeasurementPlan Id := ⟨MeasurementPlan.id⟩

/-- `plan.participants.all()`. -/
def MeasurementPlan.allParticipants (p : MeasurementPlan) : List Participant :=
  sortBy Participant.id p.participants

/-- `plan.reconciliations.order_by("-revision").first()`: of the highest revision. -/
def MeasurementPlan.latestReconciliation (p : MeasurementPlan) : Option Reconciliation :=
  (sortBy Reconciliation.revision p.reconciliations).getLast?

/-- `participant.submissions`. -/
def MeasurementPlan.submissionsOf (p : MeasurementPlan) (participant : Id) : List Submission :=
  p.submissions.filter fun s => s.participantId = participant

/-! ## Payloads -/

def submissionData (users : List User) (s : Submission) : SubmissionData where
  id := s.id
  participantId := s.participantId
  revision := s.revision
  observedAt := s.observedAt
  sourceReference := s.sourceReference
  notes := s.notes
  reason := s.reason
  recordedBy := match s.recordedBy with
    | some user => actorData users user
    | none => ⟨.agency s.participantId, s.representative⟩
  source := s.source
  representative := s.representative
  recordedAt := s.recordedAt
  lines := s.lines
  evidenceIds := s.evidence

def approvalData (users : List User) (a : Approval) : ApprovalData where
  id := a.id
  participantId := a.participantId
  decision := a.decision
  representative := a.representative
  reference := a.reference
  evidenceIds := a.evidence
  recordedBy := actorData users a.recordedBy
  recordedAt := a.recordedAt

def evidenceData (e : Evidence) : EvidenceData where
  id := e.id
  fileName := e.fileName
  contentType := e.contentType
  size := e.size
  checksum := e.checksum
  createdAt := e.createdAt

/-- `submissionIds` lists the linked returns in recorded order. -/
def reconciliationData (users : List User) (submissions : List Submission)
    (r : Reconciliation) : ReconciliationData where
  id := r.id
  revision := r.revision
  status := r.status
  reason := r.reason
  createdBy := actorData users r.createdBy
  createdAt := r.createdAt
  finalizedBy := r.finalizedBy.map (actorData users)
  finalizedAt := r.finalizedAt
  lines := r.lines
  submissionIds := (submissions.filter fun s => s.id ∈ r.submissions).map Submission.id
  evidenceIds := r.evidence
  approvals := r.approvals.map (approvalData users)

/-- `assessment_line_data`: the descriptive columns come from the lines the
reconciliation's snapshot approved, or from the line itself. -/
def assessmentLineData (approved : List CargoLine) (lines : List CargoLine)
    (l : AssessmentLine) : LineItem :=
  let source := (Table.get l.lineId approved).orElse fun _ => Table.get l.lineId lines
  { lineId := l.lineId
    description := l.description
    unit := l.unit
    toleranceMode := l.toleranceMode
    category := (source.map CargoLine.category).getD ""
    direction := (source.map CargoLine.direction).getD ""
    containerSize := (source.map CargoLine.containerSize).getD ""
    loadStatus := (source.map CargoLine.loadStatus).getD ""
    basis := (source.map CargoLine.basis).getD ""
    baselineQuantity := l.baselineQuantity
    finalQuantity := l.finalQuantity
    variance := l.variance
    rate := l.rate
    tolerance := l.tolerance
    chargeableQuantity := l.chargeableQuantity
    entitlement := l.entitlement
    openingBilledAmount := l.openingBilledAmount
    priorInvoicedAmount := l.priorInvoicedAmount
    amount := l.amount }

/-- The line items of an assessment of the plan. -/
def MeasurementPlan.lineItems (p : MeasurementPlan) (a : Assessment) : List LineItem :=
  let approved := ((Table.get a.reconciliationId p.reconciliations).map
    fun r => r.snapshot.lines).getD []
  a.lines.map (assessmentLineData approved p.lines)

/-- `assessment_data`. -/
structure AssessmentData where
  id : Id
  reconciliationId : Id
  payer : String
  currency : String
  policy : Policy
  tariffReference : String
  openingChargesReference : String
  reason : String
  status : AssessmentStatus
  total : Decimal 2
  lines : List LineItem
  invoiceId : Option Id
  superseded : Bool
  createdAt : Instant
  deriving DecidableEq, Repr

/-- The invoice of an assessment. -/
def invoiceOf (invoices : List Invoice) (assessment : Id) : Option Invoice :=
  invoices.find? fun i => i.assessmentId = some assessment

def assessmentData (invoices : List Invoice) (p : MeasurementPlan) (superseded : Bool)
    (a : Assessment) : AssessmentData where
  id := a.id
  reconciliationId := a.reconciliationId
  payer := a.payer
  currency := a.currency
  policy := a.policy
  tariffReference := a.tariffReference
  openingChargesReference := a.openingChargesReference
  reason := a.reason
  status := a.status
  total := a.total
  lines := p.lineItems a
  invoiceId := (invoiceOf invoices a.id).map Invoice.id
  superseded := superseded && (invoiceOf invoices a.id).isNone
  createdAt := a.createdAt

def planContext (users : List User) (calls : List VesselCall) (p : MeasurementPlan) :
    PlanContext where
  id := p.id
  callId := p.vesselCallId
  vesselName := ((Table.get p.vesselCallId calls).map VesselCall.vesselName).getD ""
  callReference := ((Table.get p.vesselCallId calls).map VesselCall.reference).getD ""
  title := p.title
  scheduledAt := p.scheduledAt
  endsAt := p.endsAt
  location := p.location
  method := p.method
  stage := p.stage
  scope := p.scope
  leadSurveyor := p.leadSurveyor
  notes := p.notes
  status := p.status
  cancellationReason := p.cancellationReason
  version := p.version
  createdBy := actorData users p.createdBy
  createdAt := p.createdAt

/-- `plan_data`. -/
structure PlanData where
  context : PlanContext
  participants : List Participant
  lines : List CargoLine
  submissions : List SubmissionData
  reconciliations : List (ReconciliationData × ReconciliationSnapshot)
  assessments : List AssessmentData
  evidence : List EvidenceData
  deriving DecidableEq, Repr

def planData (users : List User) (calls : List VesselCall) (invoices : List Invoice)
    (p : MeasurementPlan) : PlanData :=
  let reconciliations := sortBy Reconciliation.revision p.reconciliations
  let latestReconciliation := reconciliations.getLast?.map Reconciliation.id
  let latestAssessment := p.assessments.getLast?.map Assessment.id
  { context := planContext users calls p
    participants := p.allParticipants
    lines := p.lines
    submissions := p.submissions.map (submissionData users)
    reconciliations := reconciliations.map fun r =>
      (reconciliationData users p.submissions r, r.snapshot)
    assessments := p.assessments.map fun a =>
      assessmentData invoices p
        (some a.id ≠ latestAssessment || some a.reconciliationId ≠ latestReconciliation) a
    evidence := p.evidence.map evidenceData }

end VesselCaller.Measurements
