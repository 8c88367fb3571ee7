import VesselCaller.Measurements.Model

/-!
# What the measurement endpoints accept

The request bodies of `measurements.serializers`, with the checks a serializer
makes before a view sees the data.  The data arrive typed (texts trimmed, decimals
parsed); `validate` is what the serializer then refuses.  A refusal by a built-in
field carries the field and the framework's text, abbreviated; the texts of the
serializers' own `validate` methods are the source's.

## Main definitions

* `PlanInput`, `SubmissionInput`, `ReconciliationInput`, `ApprovalInput`, `AssessmentInput` —
  the bodies;
* `….validate` — the first refusal of a body, with the field it names.
-/

namespace VesselCaller.Measurements

open Lib Accounts

/-- A built-in field check. -/
def field (name : String) (ok : Bool) : Result Unit :=
  raiseIf (ok = false) (.validation name "Invalid value.")

/-- A serializer's own check, reported without a field. -/
def nonField (bad : Bool) (detail : String) : Result Unit :=
  raiseIf (bad = true) (.validation "non_field_errors" detail)

structure ParticipantInput where
  agencyId : Option Id
  name : String
  role : String
  representative : String := ""
  requiredSubmission : Bool := true
  requiredApproval : Bool := true
  deriving DecidableEq, Repr

def ParticipantInput.validate (d : ParticipantInput) : Result Unit := do
  field "name" (charField 255 false d.name)
  field "role" (charField 100 false d.role)
  field "representative" (charField 255 true d.representative)

structure CargoLineInput where
  description : String
  category : String
  direction : String
  containerSize : String := ""
  loadStatus : String := ""
  unit : CargoUnit
  basis : String
  manifestQuantity : Option (Decimal 3) := none
  baselineReference : String := ""
  deriving DecidableEq, Repr

def CargoLineInput.validate (d : CargoLineInput) : Result Unit := do
  field "description" (charField 255 false d.description)
  field "category" (charField 100 false d.category)
  field "direction" (charField 100 false d.direction)
  field "containerSize" (charField 20 true d.containerSize)
  field "loadStatus" (charField 50 true d.loadStatus)
  field "basis" (charField 255 false d.basis)
  field "manifestQuantity" (d.manifestQuantity.all (decimalField 18))
  field "baselineReference" (charField 255 true d.baselineReference)
  nonField (d.manifestQuantity.any fun q => d.unit = .count && !isWhole q)
    "Counts must be whole numbers"
  nonField (d.manifestQuantity.isSome && d.baselineReference = "")
    "A known manifest quantity needs its source reference"

structure PlanInput where
  callId : Id
  title : String
  scheduledAt : Instant
  endsAt : Option Instant := none
  location : String := ""
  method : String
  stage : String
  scope : String
  leadSurveyor : String
  notes : String := ""
  participants : List ParticipantInput
  lines : List CargoLineInput
  deriving DecidableEq, Repr

def PlanInput.validate (d : PlanInput) : Result Unit := do
  field "title" (charField 255 false d.title)
  field "location" (charField 255 true d.location)
  field "method" (charField 100 false d.method)
  field "stage" (charField 100 false d.stage)
  field "scope" (charField 5000 false d.scope)
  field "leadSurveyor" (charField 255 false d.leadSurveyor)
  field "notes" (charField 10000 true d.notes)
  field "participants" (!d.participants.isEmpty)
  d.participants.forM ParticipantInput.validate
  field "lines" (!d.lines.isEmpty)
  d.lines.forM CargoLineInput.validate
  nonField (d.endsAt.any (· < d.scheduledAt)) "End time cannot precede start time"
  nonField (30 < d.participants.length || 100 < d.lines.length)
    "Maximum 30 participants and 100 cargo lines per plan"

/-- `VersionSerializer`. -/
def versionField (version : ℕ) : Result Unit := field "version" (1 ≤ version)

/-- `cancelled` says whether the patch carries `status: "cancelled"`. -/
structure PlanPatch where
  version : ℕ
  title : Option String := none
  scheduledAt : Option Instant := none
  endsAt : Option (Option Instant) := none
  location : Option String := none
  leadSurveyor : Option String := none
  notes : Option String := none
  cancelled : Bool := false
  reason : Option String := none
  participants : Option (List ParticipantInput) := none
  lines : Option (List CargoLineInput) := none
  deriving DecidableEq, Repr

def PlanPatch.validate (d : PlanPatch) : Result Unit := do
  versionField d.version
  field "title" (d.title.all (charField 255 false))
  field "location" (d.location.all (charField 255 true))
  field "leadSurveyor" (d.leadSurveyor.all (charField 255 false))
  field "notes" (d.notes.all (charField 10000 true))
  field "reason" (d.reason.all (charField 10000 false))
  field "participants" (d.participants.all (!·.isEmpty))
  (d.participants.getD []).forM ParticipantInput.validate
  field "lines" (d.lines.all (!·.isEmpty))
  (d.lines.getD []).forM CargoLineInput.validate

def SubmissionLine.validate (l : SubmissionLine) : Result Unit := do
  field "quantity" (l.quantity.all (decimalField 18))
  field "note" (charField 5000 true l.note)
  nonField (l.status = .reported && l.quantity.isNone)
    "A reported line requires an explicit quantity"
  nonField (l.status = .notApplicable && (l.quantity.isSome || l.note = ""))
    "Not applicable lines require a note and no quantity"

structure SubmissionInput where
  version : ℕ
  evidenceIds : List Id := []
  participantId : Id
  observedAt : Instant
  sourceReference : String
  notes : String := ""
  reason : String := ""
  lines : List SubmissionLine
  /-- Only a portal submission names its representative. -/
  representative : Option String := none
  deriving DecidableEq, Repr

def SubmissionInput.validate (d : SubmissionInput) : Result Unit := do
  versionField d.version
  field "evidenceIds" (d.evidenceIds.length ≤ 30)
  field "sourceReference" (charField 255 false d.sourceReference)
  field "notes" (charField 10000 true d.notes)
  field "reason" (charField 10000 true d.reason)
  field "lines" (!d.lines.isEmpty)
  d.lines.forM SubmissionLine.validate

structure ReconciledLineInput where
  lineId : Id
  quantity : Decimal 3
  reason : String
  deriving DecidableEq, Repr

structure ReconciliationInput where
  version : ℕ
  reason : String
  lines : List ReconciledLineInput
  evidenceIds : List Id := []
  deriving DecidableEq, Repr

def ReconciledLineInput.validate (l : ReconciledLineInput) : Result Unit := do
  field "quantity" (decimalField 18 l.quantity)
  field "reason" (charField 10000 false l.reason)

def ReconciliationInput.validate (d : ReconciliationInput) : Result Unit := do
  versionField d.version
  field "reason" (charField 10000 false d.reason)
  field "lines" (!d.lines.isEmpty)
  d.lines.forM ReconciledLineInput.validate
  field "evidenceIds" (d.evidenceIds.length ≤ 30)

structure ApprovalInput where
  version : ℕ
  evidenceIds : List Id
  participantId : Id
  decision : Decision
  representative : String
  reference : String
  deriving DecidableEq, Repr

def ApprovalInput.validate (d : ApprovalInput) : Result Unit := do
  versionField d.version
  field "evidenceIds" (!d.evidenceIds.isEmpty && d.evidenceIds.length ≤ 30)
  field "representative" (charField 255 false d.representative)
  field "reference" (charField 255 false d.reference)

structure AssessmentLineInput where
  lineId : Id
  rate : DecimalText 4
  tolerance : DecimalText 3
  toleranceMode : ToleranceMode
  previouslyBilledQuantity : Option (DecimalText 3) := none
  openingBilledAmount : DecimalText 2
  deriving DecidableEq, Repr

def AssessmentLineInput.validate (l : AssessmentLineInput) : Result Unit := do
  field "rate" (decimalField 12 l.rate.value)
  field "tolerance" (decimalField 18 l.tolerance.value)
  field "previouslyBilledQuantity"
    (l.previouslyBilledQuantity.all fun q => decimalField 18 q.value)
  field "openingBilledAmount" (decimalField 18 l.openingBilledAmount.value)

structure AssessmentInput where
  version : ℕ
  reconciliationId : Id
  payer : String
  currency : String
  policy : Policy
  tariffReference : String
  reason : String
  openingChargesReference : String
  lines : List AssessmentLineInput
  deriving DecidableEq, Repr

def AssessmentInput.validate (d : AssessmentInput) : Result Unit := do
  versionField d.version
  field "payer" (charField 255 false d.payer)
  field "currency" (d.currency = "USD")
  field "tariffReference" (charField 255 false d.tariffReference)
  field "reason" (charField 10000 false d.reason)
  field "openingChargesReference" (charField 255 false d.openingChargesReference)
  field "lines" (!d.lines.isEmpty)
  d.lines.forM AssessmentLineInput.validate

def GuestSubmission.validate (d : GuestSubmission) : Result Unit := do
  field "requestId" (charField 100 false d.requestId)
  field "representative" (charField 255 false d.representative)
  field "sourceReference" (charField 255 false d.sourceReference)
  field "notes" (charField 10000 true d.notes)
  field "lines" (!d.lines.isEmpty)
  d.lines.forM SubmissionLine.validate
  raiseIf (100 < d.lines.length) (.validation "lines" "At most 100 cargo items are allowed")

end VesselCaller.Measurements
