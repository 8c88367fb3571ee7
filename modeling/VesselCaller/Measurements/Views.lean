import VesselCaller.Measurements.Portal

/-!
# The measurement endpoints

`measurements.views`, `measurements.evidence`, `measurements.agencies` and the staff
side of the portal, as requests and one handler.  A staff request is authorized
first and then validated; the plan it names is looked up under the organization
lock, and a refusal anywhere rolls the whole request back.

## Main definitions

* `createPlan`, `patchPlan`, `addEvidence`, `createAgency` — the views;
* `Op`, `PortalOp` — staff and portal requests, with their handlers.
-/

namespace VesselCaller.Measurements

open Lib Accounts Billing Operations

/-! ## Plans -/

/-- `PlansView.post` after the call was found: the plan with its structure. -/
def newPlan (t : Tenant) (ctx : Ctx) (actor : Id) (data : PlanInput) :
    Result MeasurementPlan := do
  insertKey "measurements_measurementplan_pkey" (ctx.uuid 0) (Table.keys t.plans)
  let plan : MeasurementPlan := {
    id := ctx.uuid 0
    vesselCallId := data.callId
    title := data.title
    scheduledAt := data.scheduledAt
    endsAt := data.endsAt
    location := data.location
    method := data.method
    stage := data.stage
    scope := data.scope
    leadSurveyor := data.leadSurveyor
    notes := data.notes
    status := .scheduled
    cancellationReason := ""
    version := 1
    createdBy := actor
    createdAt := ctx.now
    participants := []
    lines := []
    evidence := []
    submissions := []
    reconciliations := []
    assessments := []
    links := [] }
  createStructure t ctx plan data.participants data.lines

/-- The cancellation a patch may carry. -/
def patchCancellation (plan : MeasurementPlan) (data : PlanPatch) : Result MeasurementPlan :=
  if data.cancelled then do
    let reason ← orRaise data.reason (.validation "reason" "Cancellation requires a reason")
    raiseIf (plan.reconciliations.any (fun r => r.finalizedAt.isSome) = true)
      (.conflict "A finalized measurement plan cannot be cancelled; create an amendment")
    return { plan with status := .cancelled, cancellationReason := reason }
  else pure plan

/-- The structure edit a patch may carry: a supplied list replaces the rows. -/
def patchStructure (t : Tenant) (ctx : Ctx) (plan : MeasurementPlan) (data : PlanPatch) :
    Result MeasurementPlan :=
  if data.participants.isSome ∨ data.lines.isSome then do
    raiseIf (plan.submissions ≠ [] ∨ plan.reconciliations ≠ [] ∨ plan.links ≠ [])
      (.conflict "Participants and cargo lines are locked once agency links, returns or reconciliations exist")
    raiseIf (30 < (data.participants.getD []).length ∨ 100 < (data.lines.getD []).length)
      (.validation "non_field_errors" "Maximum 30 participants and 100 cargo lines per plan")
    let plan := { plan with
      participants := if data.participants.isSome then [] else plan.participants
      lines := if data.lines.isSome then [] else plan.lines }
    createStructure t ctx plan (data.participants.getD []) (data.lines.getD [])
  else pure plan

/-- The plan with the plain columns of a patch written. -/
def MeasurementPlan.patched (plan : MeasurementPlan) (data : PlanPatch) : MeasurementPlan :=
  { plan with
    title := data.title.getD plan.title
    scheduledAt := data.scheduledAt.getD plan.scheduledAt
    endsAt := data.endsAt.getD plan.endsAt
    location := data.location.getD plan.location
    leadSurveyor := data.leadSurveyor.getD plan.leadSurveyor
    notes := data.notes.getD plan.notes }

/-- `PlanDetailView.patch` on a plan. -/
def patchPlan (t : Tenant) (ctx : Ctx) (plan : MeasurementPlan) (data : PlanPatch) :
    Result MeasurementPlan := do
  checkVersion plan data.version
  let plan ← patchCancellation plan data
  let plan ← patchStructure t ctx plan data
  raiseIf ((plan.patched data).endsAt.any (· < (plan.patched data).scheduledAt) = true)
    (.validation "non_field_errors" "End time cannot precede start time")
  return plan.patched data

/-! ## Evidence -/

/-- An evidence upload.  `source` is the plan whose upload area the object key lies
in, `destination` the key the object is promoted to, and `storage` what the object
store and the content check refuse, if anything. -/
structure EvidenceUpload where
  fileName : String
  contentType : String
  size : ℕ
  checksum : String
  source : Option Id
  destination : String
  storage : Option ApiError

/-- `^sha256:[0-9a-f]{64}$`. -/
def isChecksum (s : String) : Bool :=
  let digits := s.toList.drop 7
  s.toList.take 7 = "sha256:".toList && digits.length = 64 &&
    digits.all fun c => ('0' ≤ c && c ≤ '9') || ('a' ≤ c && c ≤ 'f')

def EvidenceUpload.validate (d : EvidenceUpload) : Result Unit := do
  field "fileName" (charField 255 false d.fileName)
  field "contentType" (d.contentType ∈
    ["application/pdf", "image/jpeg", "image/png", "image/webp"])
  field "size" (1 ≤ d.size && d.size ≤ 15 * 1024 * 1024)
  field "checksum" (isChecksum d.checksum)

/-- `MeasurementEvidenceView.post` on a plan: an upload that was already finalized
is returned, otherwise a row is appended. -/
def addEvidence (t : Tenant) (ctx : Ctx) (actor : Id) (plan : MeasurementPlan)
    (data : EvidenceUpload) : Result (MeasurementPlan × Evidence) := do
  raiseIf (data.source ≠ some plan.id)
    (.validation "objectKey" "Object is outside this measurement plan")
  match plan.evidence.find? (fun e => e.checksum = data.checksum && e.fileName = data.fileName &&
      e.contentType = data.contentType && e.size = data.size) with
  | some existing => return (plan, existing)
  | none =>
      raiseSome data.storage
      insertKey "measurements_measurementevidence_pkey" (ctx.uuid 0)
        (t.plans.flatMap fun p => Table.keys p.evidence)
      raiseIf (data.destination ∈ t.plans.flatMap fun p => p.evidence.map Evidence.objectKey)
        (.integrity "measurements_measurementevidence_object_key_key")
      let evidence : Evidence := {
        id := ctx.uuid 0
        objectKey := data.destination
        fileName := data.fileName
        contentType := data.contentType
        size := data.size
        checksum := data.checksum
        uploadedBy := actor
        createdAt := ctx.now }
      return ({ plan with evidence := plan.evidence ++ [evidence] }, evidence)

/-! ## Agencies -/

structure AgencyInput where
  name : String
  role : String
  representative : String
  active : Bool
  deriving DecidableEq, Repr

def AgencyInput.validate (d : AgencyInput) : Result Unit := do
  field "name" (charField 255 false d.name)
  field "role" (charField 100 false d.role)
  field "representative" (charField 255 true d.representative)

/-- `Lower(text)`. -/
def lower (s : String) : List Char := s.toList.map Char.toLower

/-- `agency_org_name_role_unique`, against the other agencies. -/
def agencyUnique (agencies : List Agency) (id : Id) (data : AgencyInput) : Result Unit :=
  raiseIf (agencies.any (fun a => a.id ≠ id && lower a.name = lower data.name &&
      lower a.role = lower data.role) = true)
    (.validation "non_field_errors" "An agency with this name and role already exists")

/-- `AgenciesView.post`. -/
def createAgency (t : Tenant) (ctx : Ctx) (data : AgencyInput) : Result (Tenant × Agency) := do
  data.validate
  raiseIf (500 ≤ t.agencies.length)
    (.validation "non_field_errors" "An organization can have at most 500 agencies")
  raiseIf (ctx.uuid 0 ∈ Table.keys t.agencies)
    (.validation "non_field_errors" "An agency with this name and role already exists")
  agencyUnique t.agencies (ctx.uuid 0) data
  let agency : Agency := {
    id := ctx.uuid 0
    name := data.name
    role := data.role
    representative := data.representative
    active := data.active
    version := 1 }
  return ({ t with agencies := t.agencies ++ [agency] }.bumpRevision, agency)

/-- `AgencyDetailView.patch`. -/
def patchAgency (t : Tenant) (agencyId : Id) (version : ℕ) (data : AgencyInput) :
    Result (Tenant × Agency) := do
  data.validate
  versionField version
  let agency ← orRaise (Table.get agencyId t.agencies) (.notFound "Agency not found")
  raiseIf (version ≠ agency.version)
    (.conflict "This agency changed. Refresh before editing it.")
  agencyUnique t.agencies agency.id data
  let agency := { agency with
    name := data.name
    role := data.role
    representative := data.representative
    active := data.active
    version := agency.version + 1 }
  return ({ t with agencies := Table.put agency t.agencies }.bumpRevision, agency)

/-! ## Requests -/

/-- What a staff member asks of the measurement endpoints. -/
inductive Op where
  | createPlan (data : PlanInput)
  | patchPlan (plan : Id) (data : PlanPatch)
  | submit (plan : Id) (data : SubmissionInput)
  | propose (plan : Id) (data : ReconciliationInput)
  | approve (plan reconciliation : Id) (data : ApprovalInput)
  | finalize (plan reconciliation : Id) (version : ℕ)
  | assess (plan : Id) (data : AssessmentInput)
  | issue (plan assessment : Id) (version : ℕ)
  | createLink (plan participant : Id) (expiryDays : ℕ) (token : String)
  | revokeLink (plan link : Id)
  | addEvidence (plan : Id) (data : EvidenceUpload)
  | createAgency (data : AgencyInput)
  | patchAgency (agency : Id) (version : ℕ) (data : AgencyInput)

/-- What an agency asks of the portal.  `browserNonce` is what the signed cookie
carries, empty when there is none. -/
inductive PortalOp where
  | exchange (token browserNonce freshNonce : String)
  | submit (browserNonce : String) (data : GuestSubmission)

inductive Response where
  | plan (data : PlanData) (rev : ℕ)
  | planInvoice (data : PlanData) (invoice : InvoiceData) (rev : ℕ)
  | link (data : LinkData) (token : String)
  | links (data : List LinkData)
  | evidence (data : EvidenceData)
  | agency (data : Agency)
  | session (contextId : Id)
  | context (data : ContextData)

/-- `required_permission` of the endpoint. -/
def Op.permission : Op → Permission
  | .finalize .. => .measurementsApprove
  | .assess .. | .issue .. => .measurementsBill
  | .createAgency .. | .patchAgency .. => .settingsManage
  | _ => .measurementsManage

/-- `get_plan`. -/
def getPlan (t : Tenant) (planId : Id) : Result MeasurementPlan :=
  orRaise (Table.get planId t.plans) (.notFound "Measurement plan not found")

/-- The response of a mutation that ended in `changed`. -/
def changedResponse (t : Tenant) (plan : MeasurementPlan) : Tenant × Response :=
  let t := t.changed plan
  (t, .plan (t.planData plan.advance) t.revision)

section Handle

variable (sha : Sha256)

/-- `PlansView.post`. -/
def createPlan (t : Tenant) (ctx : Ctx) (actor : Id) (data : PlanInput) :
    Result (Tenant × Response) := do
  data.validate
  let call ← orRaise (Table.get data.callId t.calls) (.notFound "Vessel call not found")
  raiseIf (call.status = .cancelled)
    (.conflict "Cannot plan a measurement for a cancelled vessel call")
  let plan ← newPlan t ctx actor data
  let t := { t with plans := t.plans ++ [plan] }.bumpRevision
  return (t, .plan (t.planData plan) t.revision)

/-- The handler of an authorized staff request. -/
def Op.handle (t : Tenant) (ctx : Ctx) (actor : Id) : Op → Result (Tenant × Response)
  | .createPlan data => Measurements.createPlan t ctx actor data
  | .patchPlan planId data => do
      data.validate
      let plan ← getPlan t planId
      let plan ← Measurements.patchPlan t ctx plan data
      return changedResponse t plan
  | .submit planId data => do
      data.validate
      let plan ← getPlan t planId
      let plan ← createSubmission t ctx (some actor) plan { data with representative := none }
      return changedResponse t plan
  | .propose planId data => do
      data.validate
      let plan ← getPlan t planId
      let plan ← createReconciliation sha t ctx actor plan data
      return changedResponse t plan
  | .approve planId rid data => do
      data.validate
      let plan ← getPlan t planId
      let reconciliation ← getReconciliation plan rid
      let plan ← createApproval sha t ctx actor plan reconciliation data
      return changedResponse t plan
  | .finalize planId rid version => do
      versionField version
      let plan ← getPlan t planId
      let reconciliation ← getReconciliation plan rid
      let t ← finalizeReconciliation sha t ctx actor plan reconciliation version
      let plan ← getPlan t planId
      return (t, .plan (t.planData plan) t.revision)
  | .assess planId data => do
      data.validate
      let plan ← getPlan t planId
      let plan ← createAssessment t ctx actor plan data
      return changedResponse t plan
  | .issue planId assessmentId version => do
      versionField version
      let plan ← getPlan t planId
      let (t, invoice) ← issueAssessment t ctx actor plan assessmentId version
      let plan ← getPlan t planId
      return (t, .planInvoice (t.planData plan) (t.invoiceData invoice) t.revision)
  | .createLink planId participant expiryDays token => do
      field "expiryDays" (1 ≤ expiryDays && expiryDays ≤ 30)
      let plan ← getPlan t planId
      let (plan, link) ← createAgencyLink sha t ctx plan participant expiryDays token
      return (t.putPlan plan, .link (linkData plan link) token)
  | .revokeLink planId linkId => do
      let plan ← getPlan t planId
      let plan ← revokeAgencyLink ctx plan linkId
      return (t.putPlan plan, .links (plan.links.map (linkData plan)))
  | .addEvidence planId data => do
      let plan ← getPlan t planId
      data.validate
      let (plan, evidence) ← Measurements.addEvidence t ctx actor plan data
      return (t.putPlan plan, .evidence (evidenceData evidence))
  | .createAgency data => do
      let (t, agency) ← Measurements.createAgency t ctx data
      return (t, .agency agency)
  | .patchAgency agencyId version data => do
      let (t, agency) ← Measurements.patchAgency t agencyId version data
      return (t, .agency agency)

/-- The handler of a portal request: no staff identity is involved. -/
def PortalOp.handle (t : Tenant) (ctx : Ctx) : PortalOp → Result (Tenant × Response)
  | .exchange token browserNonce freshNonce => do
      let (t, contextId) ← portalExchange sha t ctx token browserNonce freshNonce
      return (t, .session contextId)
  | .submit browserNonce data => do
      let (t, context) ← portalSubmission sha t ctx browserNonce data
      return (t, .context context)

end Handle

end VesselCaller.Measurements
